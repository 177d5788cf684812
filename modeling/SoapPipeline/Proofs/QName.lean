/-
  SoapPipeline.Proofs.QName

  Names that are read, written and read again.

  A text is read as a name in one of two ways: with the namespace in braces before the
  local part, or as the local part alone.  Writing leaves the braces out when the
  namespace is empty, so a name that was read with empty braces before it is written
  in the other of the two ways.  That the written form then says the same is not
  asked when the name is read.

  Main results:
    * `parse_eq_ok_iff`: what texts are read as names, and as which;
    * `Reads.toChars_iff`: a name that was read is read again from its written form
      exactly when it is plain;
    * `reread_iff_plain`: so for texts, with where the others come from, and that no
      two plain names are written alike;
    * `printable_iff_and_verbatim`: so for all names, read or not, and which texts are
      written as they were read.
-/
import SoapPipeline.QName

namespace SoapPipeline

namespace QName

variable {q : QName} {source : String} {chars before after : List Char} {mark : Char}

/-! ## Cutting at a mark -/

theorem cutAt_append (clean : mark ∉ before) :
    cutAt mark (before ++ mark :: after) = some (before, after) := by
  induction before with
  | nil => simp [cutAt]
  | cons c rest ih =>
    have distinct : c ≠ mark := fun h => clean (h ▸ List.mem_cons_self)
    have rest_clean : mark ∉ rest := fun h => clean (List.mem_cons_of_mem _ h)
    show cutAt mark (c :: (rest ++ mark :: after)) = _
    rw [cutAt, if_neg distinct, ih rest_clean]
    rfl

/-- A text is cut at the first mark in it. -/
theorem cutAt_eq_some_iff :
    cutAt mark chars = some (before, after) ↔
      chars = before ++ mark :: after ∧ mark ∉ before := by
  constructor
  · intro cut
    induction chars generalizing before with
    | nil => cases cut
    | cons c rest ih =>
      rw [cutAt] at cut
      by_cases found : c = mark
      · rw [if_pos found] at cut
        cases cut
        exact ⟨by rw [found]; rfl, List.not_mem_nil⟩
      · rw [if_neg found, Option.map_eq_some_iff] at cut
        obtain ⟨⟨front, back⟩, inner, same⟩ := cut
        cases same
        obtain ⟨rfl, clean⟩ := ih inner
        refine ⟨rfl, fun h => ?_⟩
        cases h with
        | head => exact found rfl
        | tail _ h => exact clean h
  · rintro ⟨rfl, clean⟩
    exact cutAt_append clean

/-! ## What is read -/

/-- The texts that are read as names, and the names they are read as. -/
inductive Reads : List Char → QName → Prop
  /-- A namespace in braces, which may be empty, and a local part after it. -/
  | braced {space localPart : List Char} (clean : '}' ∉ space) (named : localPart ≠ []) :
    Reads ('{' :: space ++ '}' :: localPart)
      ⟨String.ofList space, String.ofList localPart⟩
  /-- A local part alone. -/
  | bare {localPart : List Char} (named : localPart ≠ []) (clean : '}' ∉ localPart)
    (open_ended : localPart.head? ≠ some '{') :
    Reads localPart ⟨"", String.ofList localPart⟩

theorem ofChars?_eq_some_iff : ofChars? chars = some q ↔ Reads chars q := by
  constructor
  · intro read
    unfold ofChars? at read
    split at read
    · next rest =>
      split at read
      · cases read
      · next space localPart named cut =>
        cases read
        obtain ⟨rfl, clean⟩ := cutAt_eq_some_iff.1 cut
        exact .braced clean named
      · cases read
    · cases read
    · next opened named =>
      split at read
      · cases read
      · next clean =>
        cases read
        refine .bare named (by simpa using clean) fun starts => ?_
        obtain ⟨rest, rfl⟩ := List.head?_eq_some_iff.1 starts
        exact opened rest rfl
  · rintro (⟨clean, named⟩ | ⟨named, clean, open_ended⟩)
    · rw [List.cons_append, ofChars?, cutAt_append clean]
      split
      · next same => cases same; exact absurd rfl named
      · next same => cases same; rfl
      · next absent => cases absent
    · unfold ofChars?
      split
      · exact absurd rfl open_ended
      · exact absurd rfl named
      · rw [if_neg (by simpa using clean)]

theorem parse_eq_ok_iff : parse source = .ok q ↔ Reads source.toList q := by
  rw [← ofChars?_eq_some_iff]
  unfold parse
  cases ofChars? source.toList <;> simp

/-- The two texts that the parts of a name make up, and when they are read as it. -/
theorem reads_iff :
    Reads chars q ↔ q.localPart.toList ≠ [] ∧
      (chars = '{' :: q.space.toList ++ '}' :: q.localPart.toList ∧ '}' ∉ q.space.toList ∨
        chars = q.localPart.toList ∧ q.space = "" ∧ '}' ∉ q.localPart.toList ∧
          q.localPart.toList.head? ≠ some '{') := by
  constructor
  · rintro (⟨clean, named⟩ | ⟨named, clean, open_ended⟩)
    · rw [String.toList_ofList, String.toList_ofList]
      exact ⟨named, .inl ⟨rfl, clean⟩⟩
    · rw [String.toList_ofList]
      exact ⟨named, .inr ⟨rfl, rfl, clean, open_ended⟩⟩
  · obtain ⟨space, localPart⟩ := q
    rintro ⟨named, ⟨rfl, clean⟩ | ⟨rfl, rfl, clean, open_ended⟩⟩
    · simpa using Reads.braced clean named
    · simpa using Reads.bare named clean open_ended

/-! ## What is written -/

theorem toChars_of_space (q : QName) (spaced : q.space ≠ "") :
    q.toChars = '{' :: q.space.toList ++ '}' :: q.localPart.toList := by
  rw [toChars, if_neg (by simpa using spaced)]

theorem toChars_of_no_space (q : QName) (unspaced : q.space = "") :
    q.toChars = q.localPart.toList := by
  rw [toChars, if_pos (by simp [unspaced])]

/-- A name whose written form is not taken for that of another: without a namespace, its
local part neither holds a closing brace nor starts with an opening one. -/
def Plain (q : QName) : Prop :=
  q.space = "" → '}' ∉ q.localPart.toList ∧ q.localPart.toList.head? ≠ some '{'

instance (q : QName) : Decidable q.Plain :=
  inferInstanceAs (Decidable (_ → _))

/-- The names that are read again from their written form. -/
theorem reads_toChars_iff :
    Reads q.toChars q ↔ q.localPart.toList ≠ [] ∧ '}' ∉ q.space.toList ∧ q.Plain := by
  rw [reads_iff]
  by_cases spaced : q.space = ""
  · have longer : q.localPart.toList ≠ '{' :: q.space.toList ++ '}' :: q.localPart.toList := by
      intro same
      have := congrArg List.length same
      simp only [List.cons_append, List.length_cons, List.length_append] at this
      omega
    rw [toChars_of_no_space q spaced]
    constructor
    · rintro ⟨named, ⟨braced, -⟩ | ⟨-, -, plain⟩⟩
      · exact absurd braced longer
      · exact ⟨named, by simp [spaced], fun _ => plain⟩
    · rintro ⟨named, -, plain⟩
      exact ⟨named, .inr ⟨rfl, spaced, plain spaced⟩⟩
  · rw [toChars_of_space q spaced, Plain]
    simp [spaced]

/-- What was read has a local part and no closing brace in its namespace, so only the
want of braces can mislead. -/
theorem Reads.toChars_iff (read : Reads chars q) : Reads q.toChars q ↔ q.Plain := by
  have whole : q.localPart.toList ≠ [] ∧ '}' ∉ q.space.toList := by
    cases read with
    | braced clean named => simpa using ⟨named, clean⟩
    | bare named clean open_ended => simpa using named
  rw [reads_toChars_iff]
  exact ⟨fun h => h.2.2, fun plain => ⟨whole.1, whole.2, plain⟩⟩

/-- A name that is not plain was read with empty braces before it. -/
theorem Reads.eq_of_not_plain (read : Reads chars q) (misleading : ¬ q.Plain) :
    chars = '{' :: '}' :: q.toChars := by
  have unspaced : q.space = "" :=
    Decidable.byContradiction fun spaced => misleading fun unspaced => absurd unspaced spaced
  rw [toChars_of_no_space q unspaced]
  obtain ⟨-, ⟨rfl, -⟩ | ⟨-, -, plain⟩⟩ := reads_iff.1 read
  · rw [unspaced]
    rfl
  · exact absurd (fun _ => plain) misleading

/-! ## Reading again -/

theorem toList_text (q : QName) : q.text.toList = q.toChars :=
  String.toList_ofList

/-- A name that was read from a text is read again from what it is written as exactly
when it is plain; the others were all read with empty braces before what they are then
written as.  No two plain names that were read are written alike. -/
theorem reread_iff_plain (read : parse source = .ok q) :
    (parse q.text = .ok q ↔ q.Plain) ∧ (¬ q.Plain → source = "{}" ++ q.text) ∧
      ∀ source' q', parse source' = .ok q' → q.Plain → q'.Plain → q.text = q'.text →
        q = q' := by
  have again : ∀ {source q}, parse source = .ok q → (parse q.text = .ok q ↔ q.Plain) := by
    intro source q read
    rw [parse_eq_ok_iff] at read
    rw [parse_eq_ok_iff, toList_text, read.toChars_iff]
  refine ⟨again read, fun misleading => ?_, fun source' q' read' plain plain' alike => ?_⟩
  · rw [parse_eq_ok_iff] at read
    rw [← String.toList_inj, read.eq_of_not_plain misleading, String.toList_append,
      toList_text]
    rfl
  · have first := (again read).2 plain
    have second := (again read').2 plain'
    rw [alike] at first
    exact Except.ok.inj (first.symm.trans second)

/-- A name with a namespace is read again. -/
theorem reread_urn :
    parse "{urn:a}b" = .ok ⟨"urn:a", "b"⟩ ∧
      parse (text ⟨"urn:a", "b"⟩) = .ok ⟨"urn:a", "b"⟩ :=
  have read : parse "{urn:a}b" = .ok ⟨"urn:a", "b"⟩ := by rfl
  ⟨read, (reread_iff_plain read).1.2 (by decide +kernel)⟩

/-- After empty braces a local part may look like a name with a namespace: two names
are read that are written alike, and only one of them is read again. -/
theorem braces_mislead :
    parse "{}{urn:a}b" = .ok ⟨"", "{urn:a}b"⟩ ∧ parse "{urn:a}b" = .ok ⟨"urn:a", "b"⟩ ∧
      text ⟨"", "{urn:a}b"⟩ = text ⟨"urn:a", "b"⟩ ∧
      parse (text ⟨"", "{urn:a}b"⟩) = .ok ⟨"urn:a", "b"⟩ := by
  exact ⟨rfl, rfl, rfl, rfl⟩

/-! ## Writing again -/

/-- What was read is written as it was, unless empty braces stood before it. -/
theorem Reads.toChars_eq_iff (read : Reads chars q) :
    q.toChars = chars ↔ ¬ ['{', '}'] <+: chars := by
  cases read with
  | @braced space localPart clean named =>
    cases space with
    | nil =>
      -- Writing drops the braces, and with them two characters.
      have shorter : localPart ≠ '{' :: '}' :: localPart := by
        intro same
        have := congrArg List.length same
        simp only [List.length_cons] at this
        omega
      rw [toChars_of_no_space _ rfl, String.toList_ofList]
      exact iff_of_false shorter fun spaced => spaced ⟨localPart, rfl⟩
    | cons c rest =>
      have distinct : '}' ≠ c := fun same => clean (same ▸ List.mem_cons_self)
      have spaced : String.ofList (c :: rest) ≠ "" := by
        rw [Ne, ← String.toList_inj, String.toList_ofList]
        exact List.cons_ne_nil c rest
      have verbatim := toChars_of_space ⟨String.ofList (c :: rest), String.ofList localPart⟩ spaced
      rw [String.toList_ofList, String.toList_ofList] at verbatim
      refine iff_of_true verbatim fun emptied => distinct ?_
      exact (List.cons_prefix_cons.1 (List.cons_prefix_cons.1 emptied).2).1
  | bare named clean open_ended =>
    rw [toChars_of_no_space _ rfl, String.toList_ofList]
    refine iff_of_true rfl fun emptied => open_ended ?_
    obtain ⟨back, rfl⟩ := emptied
    rfl

/-- A name is read again from what it is written as exactly when it has a local part and
either a namespace without a closing brace, or no namespace and a local part that neither
holds a closing brace nor starts with an opening one.  A text that was read as a name is
what that name is written as exactly when it does not start with empty braces. -/
theorem printable_iff_and_verbatim :
    (∀ q : QName, parse q.text = .ok q ↔
      q.localPart ≠ "" ∧
        (q.space ≠ "" ∧ '}' ∉ q.space.toList ∨
          q.space = "" ∧ '}' ∉ q.localPart.toList ∧ q.localPart.toList.head? ≠ some '{')) ∧
      ∀ source q, parse source = .ok q →
        (q.text = source ↔ ¬ "{}".toList <+: source.toList) := by
  constructor
  · intro q
    rw [parse_eq_ok_iff, toList_text, reads_toChars_iff, Plain, Ne, String.toList_eq_nil_iff]
    by_cases spaced : q.space = ""
    · simp [spaced]
    · simp [spaced]
  · intro source q read
    rw [parse_eq_ok_iff] at read
    rw [← String.toList_inj, toList_text]
    exact read.toChars_eq_iff

/-- Empty braces behind a namespace belong to the local part and are written again. -/
theorem verbatim_urn :
    parse "{urn:a}{}b" = .ok ⟨"urn:a", "{}b"⟩ ∧ ¬ "{}".toList <+: "{urn:a}{}b".toList ∧
      text ⟨"urn:a", "{}b"⟩ = "{urn:a}{}b" :=
  have read : parse "{urn:a}{}b" = .ok ⟨"urn:a", "{}b"⟩ := by rfl
  have spaced : ¬ "{}".toList <+: "{urn:a}{}b".toList := by decide +kernel
  ⟨read, spaced, (printable_iff_and_verbatim.2 _ _ read).2 spaced⟩

end QName

end SoapPipeline
