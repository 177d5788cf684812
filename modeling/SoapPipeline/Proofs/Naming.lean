/-
  SoapPipeline.Proofs.Naming

  Names that are given to handlers.

  Handlers that come without a name are given one with a number, and the numbers go on
  from one request to the next.  So no name is given twice; but a handler may come with a
  name that is given to another one, before or after it, and that is not asked.  In a
  phase even the local parts of names must differ, so there a handler clashes that comes
  with the local part of a given name in some namespace.

  Main results:
    * `Names.append`, `names_answer`: what a request adds to the names;
    * `names_answerAll`: the names of all descriptors are those that handlers came with and
      those that were given;
    * `distinct_iff_and_duplicates`: when names are distinct, and which names are
      reported as declared twice.
-/
import Mathlib.Data.List.Nodup
import SoapPipeline.Proofs.Chain.Refusals

namespace SoapPipeline

namespace Namer

/-! ## Given names -/

/-- Different numbers give different names, since a number is read back from its digits. -/
theorem localPart_nameOf_injective : Function.Injective fun n => (nameOf n).localPart := by
  intro m n h
  have hdigits : m.repr = n.repr := (String.append_right_inj "handler-").mp h
  calc m = Nat.ofDigitChars 10 m.repr.toList 0 := by
        rw [Nat.toList_repr, Nat.ofDigitChars_ten_toDigits]
    _ = Nat.ofDigitChars 10 n.repr.toList 0 := by rw [hdigits]
    _ = n := by rw [Nat.toList_repr, Nat.ofDigitChars_ten_toDigits]

/-- The names that have been given. -/
def names (namer : Namer) : List QName := (List.range' 1 namer.given).map nameOf

theorem names_start : names start = [] := rfl

theorem names_concat (n : Nat) : names ⟨n + 1⟩ = names ⟨n⟩ ++ [nameOf (n + 1)] := by
  unfold names
  rw [List.range'_concat, List.map_append, Nat.one_mul, Nat.add_comm 1 n]
  rfl

/-- Not even the local part of a name is given twice. -/
theorem nodup_localParts (namer : Namer) : (namer.names.map QName.localPart).Nodup := by
  unfold names
  rw [List.map_map]
  exact (List.nodup_range' 1).map localPart_nameOf_injective

theorem nodup_names (namer : Namer) : namer.names.Nodup :=
  List.Nodup.of_map QName.localPart namer.nodup_localParts

/-! ## Requests -/

/-- What a namer is asked to describe. -/
inductive Request where
  | handler (spec : HandlerSpec)
  | service (spec : ServiceSpec)

/-- The specifications of a request in the order in which they are described. -/
def Request.specs : Request → List HandlerSpec
  | .handler spec => [spec]
  | .service spec => spec.inbound ++ spec.outbound ++ spec.fault

/-- The descriptors that a request is answered with. -/
def answer (namer : Namer) : Request → List Descriptor × Namer
  | .handler spec => ([(namer.describe spec).1], (namer.describe spec).2)
  | .service spec => ((namer.describeService spec).1.all, (namer.describeService spec).2)

/-- The descriptors that requests are answered with, one after the other. -/
def answerAll : Namer → List Request → List Descriptor × Namer
  | namer, [] => ([], namer)
  | namer, request :: rest =>
    let (made, namer) := namer.answer request
    let (others, namer) := answerAll namer rest
    (made ++ others, namer)

/-- The names that handlers came with. -/
def declared (specs : List HandlerSpec) : List QName := specs.filterMap HandlerSpec.name

/-! ## The names of descriptors -/

/-- The descriptors made of some specifications have the names that these came with and those
that the namer has given for them. -/
def Names (before : Namer) (specs : List HandlerSpec) (made : List Descriptor) (after : Namer) :
    Prop :=
  (made.map Descriptor.name ++ before.names).Perm (declared specs ++ after.names)

section Names

variable {before between after : Namer} {specs specs' : List HandlerSpec}
  {made made' : List Descriptor}

theorem Names.nil (namer : Namer) : Names namer [] [] namer := List.Perm.refl _

/-- What was given for the former counts as given before the latter. -/
theorem Names.append (h : Names before specs made between) (h' : Names between specs' made' after) :
    Names before (specs ++ specs') (made ++ made') after := by
  unfold Names declared at *
  rw [List.perm_iff_count] at h h' ⊢
  intro name
  have hfirst := h name
  have hsecond := h' name
  simp only [List.map_append, List.filterMap_append, List.count_append] at hfirst hsecond ⊢
  omega

theorem names_describe (namer : Namer) (spec : HandlerSpec) :
    Names namer [spec] [(namer.describe spec).1] (namer.describe spec).2 := by
  unfold Names describe declared
  cases hname : spec.name with
  | some name =>
    rw [List.filterMap_cons_some hname]
    exact List.Perm.refl _
  | none =>
    rw [List.filterMap_cons_none hname, names_concat]
    exact List.perm_append_comm

theorem names_describeAll (namer : Namer) (specs : List HandlerSpec) :
    Names namer specs (namer.describeAll specs).1 (namer.describeAll specs).2 := by
  induction specs generalizing namer with
  | nil => exact Names.nil namer
  | cons spec rest ih => exact (names_describe namer spec).append (ih _)

theorem names_answer (namer : Namer) (request : Request) :
    Names namer request.specs (namer.answer request).1 (namer.answer request).2 := by
  cases request with
  | handler spec => exact names_describe namer spec
  | service spec =>
    exact ((names_describeAll namer spec.inbound).append (names_describeAll _ spec.outbound)).append
      (names_describeAll _ spec.fault)

theorem names_answerAll (namer : Namer) (requests : List Request) :
    Names namer (requests.flatMap Request.specs) (namer.answerAll requests).1
      (namer.answerAll requests).2 := by
  induction requests generalizing namer with
  | nil => exact Names.nil namer
  | cons request rest ih => exact (names_answer namer request).append (ih _)

end Names

/-! ## Distinct names -/

section Distinct

variable {specs : List HandlerSpec} {made : List Descriptor} {namer : Namer}

/-- From the start on, the descriptors have the declared names and the given ones. -/
theorem Names.perm (h : Names start specs made namer) :
    (made.map Descriptor.name).Perm (declared specs ++ namer.names) := by
  unfold Names at h
  rwa [names_start, List.append_nil] at h

/-- Names are distinct when the declared ones are and none of them is given. -/
theorem Names.nodup_iff (h : Names start specs made namer) :
    (made.map Descriptor.name).Nodup ↔
      (declared specs).Nodup ∧ ∀ name ∈ declared specs, name ∉ namer.names := by
  rw [h.perm.nodup_iff, List.nodup_append']
  constructor
  · rintro ⟨hdeclared, -, hapart⟩
    exact ⟨hdeclared, fun name hname hgiven => hapart hname hgiven⟩
  · rintro ⟨hdeclared, hapart⟩
    exact ⟨hdeclared, namer.nodup_names, fun name hname hgiven => hapart name hname hgiven⟩

/-- A local name that descriptors share is declared twice, or declared and given. -/
theorem Names.shared (h : Names start specs made namer) {name : String}
    (htwice : 2 ≤ (made.map Descriptor.localName).count name) :
    2 ≤ ((declared specs).map QName.localPart).count name ∨
      name ∈ (declared specs).map QName.localPart ∧ name ∈ namer.names.map QName.localPart := by
  have hlocal := h.perm.map QName.localPart
  rw [List.map_map, List.map_append] at hlocal
  have hcount : 2 ≤ ((declared specs).map QName.localPart).count name +
      (namer.names.map QName.localPart).count name := by
    rw [← List.count_append, ← hlocal.count_eq]
    exact htwice
  -- A given name is given once, so a declared one must be like it.
  have honce := List.nodup_iff_count_le_one.mp namer.nodup_localParts name
  by_cases hdeclared : 2 ≤ ((declared specs).map QName.localPart).count name
  · exact Or.inl hdeclared
  · refine Or.inr ⟨List.count_pos_iff.mp ?_, List.count_pos_iff.mp ?_⟩ <;> omega

end Distinct

/-! ## Descriptors in chains -/

/-- Global handlers and those of a scope stand, in every direction, for some of the descriptors
made, each of them at most once. -/
def Uses (made : List Descriptor) (globals own : Flows) : Prop :=
  ∀ flow, (globals.forFlow flow ++ own.forFlow flow).Subperm made

theorem Uses.twice {made : List Descriptor} {globals own : Flows} (h : Uses made globals own)
    {order : PhaseOrder} {scope scope' : Scope} {flow : Flow} {phase name : String}
    (hrefused : Chains.build order scope globals own =
      .error (.resolution scope' flow (.duplicateHandler phase name))) :
    2 ≤ (made.map Descriptor.localName).count name := by
  obtain ⟨flow, source, heq, hbuild⟩ := Chains.exists_refused_of_build hrefused
  cases heq
  have htwice := Chain.twice_of_resolve hbuild
  -- The handlers that target the phase are among those of the direction.
  have hmade : (Chain.targeting phase (globals.forFlow flow ++ own.forFlow flow)).Subperm made :=
    List.filter_sublist.subperm.trans (h flow)
  have hcount := hmade.countP_le ((· == name) ∘ Descriptor.localName)
  rw [← List.countP_map, ← List.countP_map] at hcount
  exact htwice.trans hcount

/-- After any requests the names of all descriptors are distinct exactly when the handlers came
with distinct names and with none of those that were given.  A handler that is reported as
declared twice, when chains are built of the descriptors, has a local name that two handlers
came with, or that one came with and another was given. -/
theorem distinct_iff_and_duplicates {requests : List Request} {made : List Descriptor}
    {namer : Namer} (h : start.answerAll requests = (made, namer)) :
    ((made.map Descriptor.name).Nodup ↔
      (declared (requests.flatMap Request.specs)).Nodup ∧
        ∀ name ∈ declared (requests.flatMap Request.specs), name ∉ namer.names) ∧
      ∀ order scope globals own, Uses made globals own →
        ∀ scope' flow phase name, Chains.build order scope globals own =
            .error (.resolution scope' flow (.duplicateHandler phase name)) →
          2 ≤ ((declared (requests.flatMap Request.specs)).map QName.localPart).count name ∨
            name ∈ (declared (requests.flatMap Request.specs)).map QName.localPart ∧
              name ∈ namer.names.map QName.localPart := by
  have hnames := names_answerAll start requests
  rw [h] at hnames
  exact ⟨hnames.nodup_iff, fun order scope globals own huses scope' flow phase name hrefused =>
    hnames.shared (huses.twice hrefused)⟩

/-- A handler of the service phase, with a name or without. -/
def plainSpec (name : Option QName) : HandlerSpec := ⟨name, ⟨0, []⟩, .inPhase "service", .empty⟩

/-- A service whose handlers share a local name in two namespaces, and one without a name. -/
def audits : List Request :=
  [.service ⟨.unqualified "Bank", [],
    [plainSpec (some ⟨"urn:in", "Audit"⟩), plainSpec none, plainSpec (some ⟨"urn:out", "Audit"⟩)],
    [], []⟩]

/-- The names are distinct, and a duplicate is reported of the declared ones. -/
theorem audits_distinct :
    ((start.answerAll audits).1.map Descriptor.name).Nodup ∧
      Uses (start.answerAll audits).1 .empty ⟨(start.answerAll audits).1, [], []⟩ ∧
      Chains.build (.ofInbound ["service"]) .engine .empty ⟨(start.answerAll audits).1, [], []⟩ =
        .error (.resolution .engine .inbound (.duplicateHandler "service" "Audit")) ∧
      (2 ≤ ((declared (audits.flatMap Request.specs)).map QName.localPart).count "Audit" ∨
        "Audit" ∈ (declared (audits.flatMap Request.specs)).map QName.localPart ∧
          "Audit" ∈ (start.answerAll audits).2.names.map QName.localPart) := by
  have hmain := @distinct_iff_and_duplicates audits _ _ rfl
  have huses : Uses (start.answerAll audits).1 .empty ⟨(start.answerAll audits).1, [], []⟩ := by
    intro flow
    cases flow with
    | inbound => exact List.Subperm.refl _
    | outbound => exact List.nil_subperm
    | fault => exact List.nil_subperm
  have hrefused : Chains.build (.ofInbound ["service"]) .engine .empty
      ⟨(start.answerAll audits).1, [], []⟩ =
        .error (.resolution .engine .inbound (.duplicateHandler "service" "Audit")) := by rfl
  exact ⟨hmain.1.mpr (by decide +kernel), huses, hrefused,
    hmain.2 _ _ _ _ huses _ _ _ _ hrefused⟩

/-- A handler that comes with a name which is given later, and one that it is given to. -/
def forestalled : List Request :=
  [.handler (plainSpec (some (.unqualified "handler-1"))), .handler (plainSpec none)]

/-- The only name that a handler comes with is given to another one, and no chain can hold
both. -/
theorem given_twice :
    (declared (forestalled.flatMap Request.specs)).Nodup ∧
      ¬ ((start.answerAll forestalled).1.map Descriptor.name).Nodup ∧
      Chains.build (.ofInbound ["service"]) .engine .empty
          ⟨(start.answerAll forestalled).1, [], []⟩ =
        .error (.resolution .engine .inbound (.duplicateHandler "service" "handler-1")) := by
  exact ⟨by decide +kernel, by decide +kernel, rfl⟩

end Namer

end SoapPipeline
