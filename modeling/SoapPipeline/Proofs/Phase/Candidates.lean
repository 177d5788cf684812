/-
  SoapPipeline.Proofs.Phase.Candidates

  Which candidates can stand in a phase, and which constraints they declare.

  A candidate list is well formed when every rule stands by itself, targets the
  phase and refers to candidates only, names are not repeated, and a handler
  that is both first and last is alone.  The checks that come before any order
  is looked for decide this, except for references, which are looked up when
  the declared constraints become edges.

  Main results:
    * `checkAll_eq_ok_iff`: the checks accept exactly what is said above;
    * `declaredGraph_cases`: the graph has one edge for each declared constraint,
      or a reference is unknown, or a constraint runs against the flags.
-/
import Mathlib.Data.List.Nodup
import SoapPipeline.Phase
import SoapPipeline.Proofs.Graph.Walks

namespace SoapPipeline

namespace Phase

/-! ## Well-formed candidates -/

/-- The candidates can stand in the phase, whatever order they take. -/
structure WellFormed (phase : String) (candidates : List Descriptor) : Prop where
  /-- Every rule passes the check of rules by themselves. -/
  rules : ∀ d ∈ candidates, d.rule.check d.localName = .ok ()
  /-- Every rule targets the phase. -/
  targets : ∀ d ∈ candidates, d.rule.phase = phase
  /-- Local names are pairwise distinct. -/
  names : (candidates.map Descriptor.localName).Nodup
  /-- A handler both first and last is the only candidate. -/
  alone : ∀ d ∈ candidates, d.rule.isSole = true → candidates = [d]
  /-- Every reference names a candidate. -/
  references : ∀ d ∈ candidates, ∀ name, d.rule.before = some name ∨ d.rule.after = some name →
    ∃ e ∈ candidates, e.localName = name

/-- A declared constraint puts `d` ahead of `e`. -/
def Declares (d e : Descriptor) : Prop :=
  e.rule.after = some d.localName ∨ d.rule.before = some e.localName

/-! ## Checks -/

theorem checkFrom_cons (phase : String) (count : Nat) (seen : List String) (d : Descriptor)
    (rest : List Descriptor) :
    checkFrom phase count seen (d :: rest) =
      (d.rule.check d.localName).bind fun _ =>
        if d.rule.phase ≠ phase then
          .error (.ruleConflict d.localName (.wrongPhase d.rule.phase phase))
        else if d.localName ∈ seen then .error (.duplicateHandler phase d.localName)
        else if d.rule.isSole = true ∧ 1 < count then .error (.ruleConflict d.localName .notAlone)
        else checkFrom phase count (d.localName :: seen) rest :=
  rfl

/-- The checks go through when every candidate passes its own and no name is met twice. -/
theorem checkFrom_eq_ok_iff {phase : String} {count : Nat} {seen : List String}
    {rest : List Descriptor} :
    checkFrom phase count seen rest = .ok () ↔
      (∀ d ∈ rest, d.rule.check d.localName = .ok () ∧ d.rule.phase = phase ∧
        d.localName ∉ seen ∧ (d.rule.isSole = true → count ≤ 1)) ∧
      (rest.map Descriptor.localName).Nodup := by
  induction rest generalizing seen with
  | nil => simp [checkFrom]
  | cons d rest ih =>
    rw [checkFrom_cons, List.forall_mem_cons, List.map_cons, List.nodup_cons]
    cases hrule : d.rule.check d.localName with
    | error e => simp [Except.bind]
    | ok u =>
      show (if _ then _ else _) = Except.ok () ↔ _
      split
      next hphase => simp [hphase]
      next hphase =>
        split
        next hseen => simp [hseen]
        next hseen =>
          split
          next hsole =>
            have : ¬ count ≤ 1 := by omega
            simp [hsole.1, this]
          next hsole =>
            have hcount : d.rule.isSole = true → count ≤ 1 := by
              intro h
              by_contra hlt
              exact hsole ⟨h, by omega⟩
            rw [not_not] at hphase
            -- What the rest must avoid is what was seen before and the name just met.
            have hcons : ∀ e : Descriptor,
                e.localName ∉ d.localName :: seen ↔
                  e.localName ≠ d.localName ∧ e.localName ∉ seen := by
              intro e
              rw [List.mem_cons, not_or]
            simp only [ih, hcons, List.mem_map, not_exists, not_and]
            constructor
            · intro hall
              obtain ⟨hrest, hnodup⟩ := hall
              refine ⟨⟨⟨trivial, hphase, hseen, hcount⟩, ?_⟩, ?_, hnodup⟩
              · intro e he
                obtain ⟨hcheck, htarget, hne, hsole⟩ := hrest e he
                exact ⟨hcheck, htarget, hne.2, hsole⟩
              · intro e he
                exact (hrest e he).2.2.1.1
            · intro hall
              obtain ⟨⟨-, hrest⟩, hne, hnodup⟩ := hall
              refine ⟨?_, hnodup⟩
              intro e he
              obtain ⟨hcheck, htarget, hfresh, hsole⟩ := hrest e he
              exact ⟨hcheck, htarget, ⟨hne e he, hfresh⟩, hsole⟩

/-- What the checks see: all of well-formedness but the references. -/
theorem checkAll_eq_ok_iff {phase : String} {candidates : List Descriptor} :
    checkAll phase candidates = .ok () ↔
      (∀ d ∈ candidates, d.rule.check d.localName = .ok ()) ∧
      (∀ d ∈ candidates, d.rule.phase = phase) ∧
      (candidates.map Descriptor.localName).Nodup ∧
      (∀ d ∈ candidates, d.rule.isSole = true → candidates = [d]) := by
  have halone : ∀ d ∈ candidates, candidates.length ≤ 1 ↔ candidates = [d] := by
    intro d hd
    constructor
    · intro hlength
      have hpos := List.length_pos_of_mem hd
      obtain ⟨e, rfl⟩ := List.length_eq_one_iff.mp (Nat.le_antisymm hlength hpos)
      rw [List.mem_singleton.mp hd]
    · intro h
      rw [h]
      exact Nat.le_refl 1
  unfold checkAll
  rw [checkFrom_eq_ok_iff]
  constructor
  · intro hall
    obtain ⟨h, hnodup⟩ := hall
    refine ⟨fun d hd => (h d hd).1, fun d hd => (h d hd).2.1, hnodup, ?_⟩
    intro d hd hsole
    exact (halone d hd).mp ((h d hd).2.2.2 hsole)
  · intro hall
    obtain ⟨hrules, htargets, hnodup, hsole⟩ := hall
    refine ⟨?_, hnodup⟩
    intro d hd
    refine ⟨hrules d hd, htargets d hd, List.not_mem_nil, fun h => ?_⟩
    exact (halone d hd).mpr (hsole d hd h)

/-! ## Places -/

section Places

variable {candidates : List Descriptor}

theorem nodup_of_names (h : (candidates.map Descriptor.localName).Nodup) : candidates.Nodup :=
  List.Nodup.of_map Descriptor.localName h

theorem eq_of_localName (h : (candidates.map Descriptor.localName).Nodup) {d e : Descriptor}
    (hd : d ∈ candidates) (he : e ∈ candidates) (heq : d.localName = e.localName) : d = e :=
  List.inj_on_of_nodup_map h hd he heq

/-- A name is found where the only candidate of this name stands. -/
theorem placeOf?_eq_some_iff (h : (candidates.map Descriptor.localName).Nodup) {name : String}
    {i : Nat} :
    placeOf? candidates name = some i ↔ ∃ d, candidates[i]? = some d ∧ d.localName = name := by
  unfold placeOf?
  rw [List.findIdx?_eq_some_iff_getElem]
  constructor
  · intro hall
    obtain ⟨hlt, hname, -⟩ := hall
    exact ⟨candidates[i], List.getElem?_eq_getElem hlt, of_decide_eq_true hname⟩
  · intro hall
    obtain ⟨d, hd, rfl⟩ := hall
    obtain ⟨hlt, rfl⟩ := List.getElem?_eq_some_iff.mp hd
    refine ⟨hlt, decide_eq_true rfl, ?_⟩
    -- The search takes the first place of that name, and there is only one.
    intro j hj hsame
    have hlt' : j < candidates.length := Nat.lt_trans hj hlt
    have heq : candidates[j] = candidates[i] :=
      eq_of_localName h (List.getElem_mem hlt') (List.getElem_mem hlt) (of_decide_eq_true hsame)
    exact absurd ((nodup_of_names h).getElem_inj_iff.mp heq) (Nat.ne_of_lt hj)

theorem placeOf?_eq_none_iff {name : String} :
    placeOf? candidates name = none ↔ ∀ d ∈ candidates, d.localName ≠ name := by
  unfold placeOf?
  rw [List.findIdx?_eq_none_iff]
  constructor
  · intro h d hd heq
    have := h d hd
    simp [heq] at this
  · intro h d hd
    exact decide_eq_false (h d hd)

theorem isFirst_of_getElem? {i : Nat} {d : Descriptor} (h : candidates[i]? = some d) :
    isFirst candidates i = d.rule.first := by
  unfold isFirst
  rw [h]

theorem isLast_of_getElem? {i : Nat} {d : Descriptor} (h : candidates[i]? = some d) :
    isLast candidates i = d.rule.last := by
  unfold isLast
  rw [h]

end Places

/-! ## Edges -/

/-- The candidate at `place` asks for an edge from `i` to `j`. -/
def Asks (candidates : List Descriptor) (place : Nat) (d : Descriptor) (i j : Nat) : Prop :=
  (j = place ∧ ∃ name, d.rule.after = some name ∧ placeOf? candidates name = some i) ∨
    (i = place ∧ ∃ name, d.rule.before = some name ∧ placeOf? candidates name = some j)

/-- A reference of the candidate names nobody. -/
def Dangles (candidates : List Descriptor) (d : Descriptor) : Prop :=
  ∃ name, (d.rule.before = some name ∨ d.rule.after = some name) ∧
    placeOf? candidates name = none

/-- An edge keeps with the flags: nothing comes ahead of a first handler but first ones, and
nothing behind a last handler but last ones. -/
def KeepsFlags (candidates : List Descriptor) (i j : Nat) : Prop :=
  (isFirst candidates j = true → isFirst candidates i = true) ∧
    (isLast candidates i = true → isLast candidates j = true)

/-- What reading constraints comes to, when they ask for certain edges and dangle or not: the
edges, if all of them keep with the flags, or the first trouble met. -/
inductive Reading (candidates : List Descriptor) (phase : String) (asked : Nat → Nat → Prop)
    (dangling : Prop) : Except ResolutionError (List (Nat × Nat)) → Prop
  | edges {found : List (Nat × Nat)} (hfound : ∀ i j, (i, j) ∈ found ↔ asked i j)
      (hkeeps : ∀ i j, asked i j → KeepsFlags candidates i j) (hnone : ¬ dangling) :
      Reading candidates phase asked dangling (.ok found)
  | unknown {handler reference : String} (h : dangling) :
      Reading candidates phase asked dangling (.error (.unknownHandler phase handler reference))
  | conflict {handler : String} {conflict : Conflict} {i j : Nat} (hasked : asked i j)
      (hbreaks : ¬ KeepsFlags candidates i j) :
      Reading candidates phase asked dangling (.error (.ruleConflict handler conflict))

section Reading

variable {candidates : List Descriptor} {phase : String}

/-- Reading two groups of constraints one after the other. -/
theorem Reading.append {asked asked' : Nat → Nat → Prop} {dangling dangling' : Prop}
    {x y : Except ResolutionError (List (Nat × Nat))}
    (hx : Reading candidates phase asked dangling x)
    (hy : Reading candidates phase asked' dangling' y) :
    Reading candidates phase (fun i j => asked i j ∨ asked' i j) (dangling ∨ dangling')
      (x.bind fun front => y.bind fun back => .ok (front ++ back)) := by
  -- The first trouble met is the one reported, and the second group is read only without any.
  cases hx with
  | unknown h => exact .unknown (Or.inl h)
  | conflict hasked hbreaks => exact .conflict (Or.inl hasked) hbreaks
  | edges hfound hkeeps hnone =>
    cases hy with
    | unknown h => exact .unknown (Or.inr h)
    | conflict hasked hbreaks => exact .conflict (Or.inr hasked) hbreaks
    | edges hfound' hkeeps' hnone' =>
      refine .edges ?_ ?_ ?_
      · intro i j
        rw [List.mem_append, hfound, hfound']
      · intro i j hall
        rcases hall with h | h
        · exact hkeeps i j h
        · exact hkeeps' i j h
      · intro hall
        rcases hall with h | h
        · exact hnone h
        · exact hnone' h

theorem Reading.congr {asked asked' : Nat → Nat → Prop} {dangling dangling' : Prop}
    {x : Except ResolutionError (List (Nat × Nat))}
    (h : Reading candidates phase asked dangling x)
    (hasked : ∀ i j, asked i j ↔ asked' i j) (hdangling : dangling ↔ dangling') :
    Reading candidates phase asked' dangling' x := by
  cases h with
  | unknown h => exact .unknown (hdangling.mp h)
  | conflict h hbreaks => exact .conflict ((hasked _ _).mp h) hbreaks
  | edges hfound hkeeps hnone =>
    refine .edges (fun i j => (hfound i j).trans (hasked i j)) ?_ (mt hdangling.mpr hnone)
    intro i j h
    exact hkeeps i j ((hasked i j).mpr h)

theorem not_keepsFlags_iff {i j : Nat} :
    ¬ KeepsFlags candidates i j ↔
      (isFirst candidates j && !isFirst candidates i) = true ∨
        (isLast candidates i && !isLast candidates j) = true := by
  unfold KeepsFlags
  cases isFirst candidates i <;> cases isFirst candidates j <;>
    cases isLast candidates i <;> cases isLast candidates j <;> simp

/-- Reading one constraint: two tests, in either order, find out whether the edge keeps with
the flags. -/
theorem Reading.single {i j : Nat} {p q : Bool} {handler : String} {c c' : Conflict}
    (hpq : p = true ∨ q = true ↔ ¬ KeepsFlags candidates i j) :
    Reading candidates phase (fun a b => a = i ∧ b = j) False
      (if p then .error (.ruleConflict handler c)
      else if q then .error (.ruleConflict handler c') else .ok [(i, j)]) := by
  cases p with
  | true => exact .conflict ⟨rfl, rfl⟩ (hpq.mp (Or.inl rfl))
  | false =>
    cases q with
    | true => exact .conflict ⟨rfl, rfl⟩ (hpq.mp (Or.inr rfl))
    | false =>
      refine .edges (by simp) ?_ id
      intro a b h
      obtain ⟨rfl, rfl⟩ := h
      by_contra hbreaks
      exact (hpq.mpr hbreaks).elim Bool.false_ne_true Bool.false_ne_true

variable {place : Nat} {d : Descriptor}

theorem afterEdge_reading (hd : candidates[place]? = some d) :
    Reading candidates phase
      (fun i j => j = place ∧
        ∃ name, d.rule.after = some name ∧ placeOf? candidates name = some i)
      (∃ name, d.rule.after = some name ∧ placeOf? candidates name = none)
      (afterEdge phase candidates place d) := by
  cases hafter : d.rule.after with
  | none =>
    have hread : afterEdge phase candidates place d = .ok [] := by
      rw [afterEdge, hafter]
    rw [hread]
    exact .edges (by simp) (by simp) (by simp)
  | some reference =>
    cases hother : placeOf? candidates reference with
    | none =>
      have hread : afterEdge phase candidates place d =
          .error (.unknownHandler phase d.localName reference) := by
        simp only [afterEdge, hafter, hother]
      rw [hread]
      exact .unknown ⟨reference, rfl, hother⟩
    | some other =>
      have hread : afterEdge phase candidates place d =
          if isFirst candidates place && !isFirst candidates other then
            .error (.ruleConflict d.localName (.firstAfter reference))
          else if isLast candidates other && !isLast candidates place then
            .error (.ruleConflict d.localName (.afterLast reference))
          else .ok [(other, place)] := by
        simp only [afterEdge, hafter, hother, isFirst_of_getElem? hd, isLast_of_getElem? hd]
      rw [hread]
      refine (Reading.single not_keepsFlags_iff.symm).congr ?_ ?_
      · intro i j
        simp [hother, and_comm, eq_comm]
      · simp [hother]

theorem beforeEdge_reading (hd : candidates[place]? = some d) :
    Reading candidates phase
      (fun i j => i = place ∧
        ∃ name, d.rule.before = some name ∧ placeOf? candidates name = some j)
      (∃ name, d.rule.before = some name ∧ placeOf? candidates name = none)
      (beforeEdge phase candidates place d) := by
  cases hbefore : d.rule.before with
  | none =>
    have hread : beforeEdge phase candidates place d = .ok [] := by
      rw [beforeEdge, hbefore]
    rw [hread]
    exact .edges (by simp) (by simp) (by simp)
  | some reference =>
    cases hother : placeOf? candidates reference with
    | none =>
      have hread : beforeEdge phase candidates place d =
          .error (.unknownHandler phase d.localName reference) := by
        simp only [beforeEdge, hbefore, hother]
      rw [hread]
      exact .unknown ⟨reference, rfl, hother⟩
    | some other =>
      have hread : beforeEdge phase candidates place d =
          if isLast candidates place && !isLast candidates other then
            .error (.ruleConflict d.localName (.lastBefore reference))
          else if isFirst candidates other && !isFirst candidates place then
            .error (.ruleConflict d.localName (.beforeFirst reference))
          else .ok [(place, other)] := by
        simp only [beforeEdge, hbefore, hother, isFirst_of_getElem? hd, isLast_of_getElem? hd]
      rw [hread]
      -- The two tests come the other way round here.
      refine (Reading.single (or_comm.trans not_keepsFlags_iff.symm)).congr ?_ ?_
      · intro i j
        simp [hother, eq_comm]
      · simp [hother]

theorem edgesFrom_reading {rest : List Descriptor}
    (hrest : ∀ k d, rest[k]? = some d → candidates[place + k]? = some d) :
    Reading candidates phase
      (fun i j => ∃ p ∈ rest.zipIdx place, Asks candidates p.2 p.1 i j)
      (∃ d ∈ rest, Dangles candidates d)
      (edgesFrom phase candidates place rest) := by
  induction rest generalizing place with
  | nil => exact .edges (by simp) (by simp) (by simp)
  | cons d rest ih =>
    have hd : candidates[place]? = some d := hrest 0 d rfl
    have hlater : ∀ k e, rest[k]? = some e → candidates[place + 1 + k]? = some e := by
      intro k e hk
      rw [show place + 1 + k = place + (k + 1) by omega]
      exact hrest (k + 1) e hk
    have hread : edgesFrom phase candidates place (d :: rest) =
        ((afterEdge phase candidates place d).bind fun front =>
          (beforeEdge phase candidates place d).bind fun back => .ok (front ++ back)).bind
        fun front => (edgesFrom phase candidates (place + 1) rest).bind
          fun back => .ok (front ++ back) := by
      show (afterEdge phase candidates place d).bind _ = _
      cases afterEdge phase candidates place d with
      | error e => rfl
      | ok after =>
        show (beforeEdge phase candidates place d).bind _ = _
        cases beforeEdge phase candidates place d <;> rfl
    rw [hread]
    refine (((afterEdge_reading hd).append (beforeEdge_reading hd)).append (ih hlater)).congr ?_ ?_
    · intro i j
      simp only [List.zipIdx_cons, List.mem_cons, exists_eq_or_imp]
      rfl
    · simp only [List.mem_cons, exists_eq_or_imp]
      unfold Dangles
      constructor
      · intro hall
        rcases hall with (⟨name, h, hnone⟩ | ⟨name, h, hnone⟩) | h
        · exact Or.inl ⟨name, Or.inr h, hnone⟩
        · exact Or.inl ⟨name, Or.inl h, hnone⟩
        · exact Or.inr h
      · intro hall
        rcases hall with ⟨name, h | h, hnone⟩ | h
        · exact Or.inl (Or.inr ⟨name, h, hnone⟩)
        · exact Or.inl (Or.inl ⟨name, h, hnone⟩)
        · exact Or.inr h

end Reading

/-! ## The graph of the declared constraints -/

/-- A declared constraint puts the candidate at place `i` ahead of the one at place `j`. -/
def DeclaredAt (candidates : List Descriptor) (i j : Nat) : Prop :=
  ∃ d e, candidates[i]? = some d ∧ candidates[j]? = some e ∧ Declares d e

theorem exists_asks_iff {candidates : List Descriptor}
    (hnames : (candidates.map Descriptor.localName).Nodup) {i j : Nat} :
    (∃ p ∈ candidates.zipIdx, Asks candidates p.2 p.1 i j) ↔ DeclaredAt candidates i j := by
  unfold Asks DeclaredAt Declares
  simp only [placeOf?_eq_some_iff hnames, Prod.exists, List.mk_mem_zipIdx_iff_getElem?]
  constructor
  · intro h
    rcases h with ⟨x, place, hx, ⟨rfl, name, hafter, y, hy, rfl⟩ | ⟨rfl, name, hbefore, y, hy, rfl⟩⟩
    · exact ⟨y, x, hy, hx, Or.inl hafter⟩
    · exact ⟨x, y, hx, hy, Or.inr hbefore⟩
  · intro h
    rcases h with ⟨d, e, hd, he, hafter | hbefore⟩
    · exact ⟨e, j, he, Or.inl ⟨rfl, d.localName, hafter, d, hd, rfl⟩⟩
    · exact ⟨d, i, hd, Or.inr ⟨rfl, e.localName, hbefore, e, he, rfl⟩⟩

theorem size_ofEdges (size : Nat) (edges : List (Nat × Nat)) :
    (Graph.ofEdges size edges).size = size := by
  simp [Graph.ofEdges, Graph.size]

theorem edge_ofEdges {size : Nat} {edges : List (Nat × Nat)} {i j : Nat} :
    (Graph.ofEdges size edges).Edge i j ↔ i < size ∧ (i, j) ∈ edges := by
  unfold Graph.Edge Graph.successors Graph.ofEdges
  by_cases hi : i < size
  · simp [hi]
  · simp [hi]

/-- What comes of the declared constraints of candidates with distinct names: a graph with one
edge for each, an unknown reference, or a constraint that runs against the flags. -/
theorem declaredGraph_cases (phase : String) {candidates : List Descriptor}
    (hnames : (candidates.map Descriptor.localName).Nodup) :
    (∃ g, declaredGraph phase candidates = .ok g ∧ g.size = candidates.length ∧
      (∀ i j, g.Edge i j ↔ DeclaredAt candidates i j) ∧
      (∀ i j, DeclaredAt candidates i j → KeepsFlags candidates i j) ∧
      ¬ ∃ d ∈ candidates, Dangles candidates d) ∨
    (∃ handler reference,
      declaredGraph phase candidates = .error (.unknownHandler phase handler reference) ∧
      ∃ d ∈ candidates, Dangles candidates d) ∨
    (∃ handler conflict, declaredGraph phase candidates = .error (.ruleConflict handler conflict) ∧
      ∃ i j, DeclaredAt candidates i j ∧ ¬ KeepsFlags candidates i j) := by
  have hread : Reading candidates phase (DeclaredAt candidates)
      (∃ d ∈ candidates, Dangles candidates d) (edgesFrom phase candidates 0 candidates) := by
    refine (edgesFrom_reading ?_).congr (fun i j => exists_asks_iff hnames) Iff.rfl
    intro k d hk
    rwa [Nat.zero_add]
  have hgraph : declaredGraph phase candidates = (edgesFrom phase candidates 0 candidates).bind
      fun edges => .ok (Graph.ofEdges candidates.length edges) := rfl
  cases hedges : edgesFrom phase candidates 0 candidates with
  | error e =>
    rw [hedges] at hread hgraph
    cases hread with
    | unknown h => exact Or.inr (Or.inl ⟨_, _, hgraph, h⟩)
    | conflict hasked hbreaks => exact Or.inr (Or.inr ⟨_, _, hgraph, _, _, hasked, hbreaks⟩)
  | ok edges =>
    rw [hedges] at hread hgraph
    cases hread with
    | edges hfound hkeeps hnone =>
      refine Or.inl ⟨_, hgraph, size_ofEdges _ _, ?_, hkeeps, hnone⟩
      intro i j
      rw [edge_ofEdges, hfound]
      constructor
      · exact fun h => h.2
      · intro hall
        obtain ⟨d, e, hd, he⟩ := hall
        exact ⟨(List.getElem?_eq_some_iff.mp hd).1, d, e, hd, he⟩

/-- References that do not dangle name candidates. -/
theorem references_iff {candidates : List Descriptor} :
    (∀ d ∈ candidates, ∀ name, d.rule.before = some name ∨ d.rule.after = some name →
      ∃ e ∈ candidates, e.localName = name) ↔ ¬ ∃ d ∈ candidates, Dangles candidates d := by
  unfold Dangles
  simp only [placeOf?_eq_none_iff, not_exists, not_and, not_forall, not_not, exists_prop]

end Phase

end SoapPipeline
