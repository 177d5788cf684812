/-
  SoapPipeline.Proofs.Phase.CycleReports

  What it means that resolution reports a cycle.

  The search works on places, and the report names handlers.  Places and names
  correspond as soon as the checks ahead of the search have gone through, so
  that a cycle of the graph can be read as one of the declared constraints and
  the other way round.  The second refusal for a cycle, which would list every
  handler, stands behind the search and has nothing left to refuse.

  Main results:
    * `checked_iff`: what the checks ahead of the search let through;
    * `resolve_eq_cycle_iff`: a reported cycle is one that the search has found;
    * `exists_constrained_iff`: the graph is cyclic as the constraints are;
    * `cycle_reports`: reports are genuine, none is missing, and the second
      refusal is never reached.
-/
import SoapPipeline.Proofs.Phase.Resolution

namespace SoapPipeline

namespace Phase

open Relation

variable {phase : String} {candidates : List Descriptor} {g : Graph}

/-! ## Cycles of handlers -/

/-- The handler named `y` declares that it runs after the one named `x`, or the latter that it
runs before the former; both are candidates. -/
def Constrained (candidates : List Descriptor) (x y : String) : Prop :=
  ∃ d ∈ candidates, ∃ e ∈ candidates, d.localName = x ∧ e.localName = y ∧ Declares d e

/-- The names lead along declared constraints from one handler back to it, over at least one
other handler and none of them twice. -/
structure Genuine (candidates : List Descriptor) (path : List String) : Prop where
  closed : path.head? = path.getLast?
  distinct : path.dropLast.Nodup
  length : 3 ≤ path.length
  steps : path.IsChain (Constrained candidates)

/-- A genuine path is never the list of all candidates, whose names do not come back. -/
theorem Genuine.ne_names {path : List String} (h : Genuine candidates path)
    (hnames : (candidates.map Descriptor.localName).Nodup) :
    path ≠ candidates.map Descriptor.localName := by
  intro heq
  rw [← heq] at hnames
  have hclosed := h.closed
  have hlength := h.length
  match path, hnames, hclosed, hlength with
  | x :: y :: rest, hnodup, hhead, _ =>
    -- The last name is the first one, and it stands among the names behind it.
    have hlast : (y :: rest).getLast? = some x := by
      rw [← List.getLast?_cons_cons (a := x), ← hhead, List.head?_cons]
    exact (List.nodup_cons.mp hnodup).1 (List.mem_of_getLast? hlast)

/-! ## Checks ahead of the search -/

/-- All checks ahead of the search for a cycle go through. -/
def Checked (phase : String) (candidates : List Descriptor) : Prop :=
  checkAll phase candidates = .ok () ∧ ∃ g, declaredGraph phase candidates = .ok g

/-- The graph of the constraints of candidates that have passed the checks. -/
structure Drawn (phase : String) (candidates : List Descriptor) (g : Graph) : Prop where
  wellFormed : WellFormed phase candidates
  size : g.size = candidates.length
  edge : ∀ i j, g.Edge i j ↔ DeclaredAt candidates i j
  keeps : ∀ i j, DeclaredAt candidates i j → KeepsFlags candidates i j

theorem drawn_of_checks (hcheck : checkAll phase candidates = .ok ())
    (hgraph : declaredGraph phase candidates = .ok g) : Drawn phase candidates g := by
  obtain ⟨hrules, htargets, hnames, halone⟩ := checkAll_eq_ok_iff.mp hcheck
  rcases declaredGraph_cases phase hnames with
    ⟨g', hg', hsize, hedge, hkeeps, hresolved⟩ | ⟨_, _, herror, -⟩ | ⟨_, _, herror, -⟩
  · obtain rfl : g' = g := Except.ok.inj (hg'.symm.trans hgraph)
    exact ⟨⟨hrules, htargets, hnames, halone, references_iff.mpr hresolved⟩, hsize, hedge, hkeeps⟩
  · rw [hgraph] at herror
    cases herror
  · rw [hgraph] at herror
    cases herror

/-- The checks let through what is well formed and has no constraint against the flags. -/
theorem checked_iff : Checked phase candidates ↔
    WellFormed phase candidates ∧ ∀ i j, DeclaredAt candidates i j → KeepsFlags candidates i j := by
  constructor
  · intro h
    obtain ⟨hcheck, g, hgraph⟩ := h
    have hdrawn := drawn_of_checks hcheck hgraph
    exact ⟨hdrawn.wellFormed, hdrawn.keeps⟩
  · intro h
    obtain ⟨hwf, hkeeps⟩ := h
    refine ⟨checkAll_eq_ok_iff.mpr ⟨hwf.rules, hwf.targets, hwf.names, hwf.alone⟩, ?_⟩
    rcases declaredGraph_cases phase hwf.names with
      ⟨g, hg, -⟩ | ⟨_, _, -, hdangles⟩ | ⟨_, _, -, i, j, hat, hbreaks⟩
    · exact ⟨g, hg⟩
    · exact absurd hdangles (references_iff.mp hwf.references)
    · exact absurd (hkeeps i j hat) hbreaks

/-- A check of a single rule refuses for a conflict only. -/
theorem check_eq_ok_or_conflict (r : Rule) (handler : String) :
    r.check handler = .ok () ∨ ∃ c, r.check handler = .error (.ruleConflict handler c) := by
  unfold Rule.check
  split
  · exact Or.inr ⟨_, rfl⟩
  split
  · exact Or.inr ⟨_, rfl⟩
  split
  · exact Or.inr ⟨_, rfl⟩
  split
  · exact Or.inr ⟨_, rfl⟩
  · exact Or.inl rfl

theorem checkFrom_ne_cycle {count : Nat} {seen : List String} {rest : List Descriptor}
    {phase' : String} {path : List String} :
    checkFrom phase count seen rest ≠ .error (.cycle phase' path) := by
  induction rest generalizing seen with
  | nil => simp [checkFrom]
  | cons d rest ih =>
    rw [checkFrom_cons]
    rcases check_eq_ok_or_conflict d.rule d.localName with hrule | ⟨c, hrule⟩
    · rw [hrule]
      show (if _ then _ else _) ≠ _
      split
      · simp
      split
      · simp
      split
      · simp
      · exact ih
    · rw [hrule]
      simp [Except.bind]

/-! ## Reported cycles -/

theorem testEnds_ne_cycle {order : List Nat} {phase' : String} {path : List String} :
    testEnds phase candidates g order ≠ .error (.cycle phase' path) := by
  unfold testEnds
  split
  · simp
  split
  · simp
  · simp

/-- Behind the search there is nothing left to refuse for a cycle. -/
theorem Drawn.exists_order (h : Drawn phase candidates g) (hcycle : g.findCycle? = none) :
    ∃ order, (withFlags candidates g).order? = some order := by
  obtain ⟨order, horder, -⟩ := exists_found h.wellFormed h.size h.edge h.keeps
    (Graph.findCycle?_eq_none_iff.mp hcycle)
  exact ⟨order, horder⟩

/-- A cycle is reported exactly when the checks go through and the search finds it. -/
theorem resolve_eq_cycle_iff {phase' : String} {path : List String} :
    resolve phase candidates = .error (.cycle phase' path) ↔
      ∃ g cycle, checkAll phase candidates = .ok () ∧ declaredGraph phase candidates = .ok g ∧
        g.findCycle? = some cycle ∧ phase' = phase ∧ path = namesAt candidates cycle := by
  rw [resolve_eq, resolveOrder_eq]
  constructor
  · intro h
    cases hcheck : checkAll phase candidates with
    | error e =>
      rw [hcheck] at h
      obtain rfl : e = .cycle phase' path := Except.error.inj h
      exact absurd hcheck checkFrom_ne_cycle
    | ok u =>
      obtain ⟨-, -, hnames, -⟩ := checkAll_eq_ok_iff.mp hcheck
      cases hgraph : declaredGraph phase candidates with
      | error e =>
        rw [hcheck, hgraph] at h
        obtain rfl : e = .cycle phase' path := Except.error.inj h
        -- Reading the constraints ends with a graph, an unknown handler or a conflict.
        rcases declaredGraph_cases phase hnames with ⟨_, hread, -⟩ | ⟨_, _, hread, -⟩ |
          ⟨_, _, hread, -⟩ <;>
        · rw [hgraph] at hread
          cases hread
      | ok g =>
        rw [hcheck, hgraph] at h
        have hdrawn := drawn_of_checks hcheck hgraph
        cases hcycle : g.findCycle? with
        | some cycle =>
          simp only [Except.bind, hcycle, Except.map, Except.error.injEq,
            ResolutionError.cycle.injEq] at h
          exact ⟨g, cycle, rfl, rfl, hcycle, h.1.symm, h.2.symm⟩
        | none =>
          obtain ⟨order, horder⟩ := hdrawn.exists_order hcycle
          simp only [Except.bind, hcycle, horder] at h
          cases hends : testEnds phase candidates g order with
          | ok order' =>
            rw [hends] at h
            cases h
          | error e =>
            rw [hends] at h
            obtain rfl : e = .cycle phase' path := Except.error.inj h
            exact absurd hends testEnds_ne_cycle
  · intro h
    obtain ⟨g, cycle, hcheck, hgraph, hcycle, rfl, rfl⟩ := h
    rw [hcheck, hgraph]
    simp only [Except.bind, hcycle, Except.map]

/-! ## Names and places -/

/-- The name of the candidate at this place. -/
def nameAt (candidates : List Descriptor) (place : Nat) : String :=
  ((candidates[place]?).map Descriptor.localName).getD ""

/-- The place of the candidate with this name, or the first place. -/
def placeOf (candidates : List Descriptor) (name : String) : Nat :=
  (placeOf? candidates name).getD 0

theorem nameAt_of_getElem? {i : Nat} {d : Descriptor} (h : candidates[i]? = some d) :
    nameAt candidates i = d.localName := by
  unfold nameAt
  rw [h]
  rfl

theorem namesAt_eq_map {places : List Nat} (h : ∀ i ∈ places, i < candidates.length) :
    namesAt candidates places = places.map (nameAt candidates) := by
  unfold namesAt
  induction places with
  | nil => rfl
  | cons i places ih =>
    obtain ⟨hi, hrest⟩ := List.forall_mem_cons.mp h
    have hget := List.getElem?_eq_getElem hi
    rw [List.map_cons, nameAt_of_getElem? hget, ← ih hrest]
    exact List.filterMap_cons_some (by rw [hget]; rfl)

theorem nameAt_injective (hnames : (candidates.map Descriptor.localName).Nodup) {i j : Nat}
    (hi : i < candidates.length) (hj : j < candidates.length)
    (h : nameAt candidates i = nameAt candidates j) : i = j := by
  have hget_i := List.getElem?_eq_getElem hi
  have hget_j := List.getElem?_eq_getElem hj
  rw [nameAt_of_getElem? hget_i, nameAt_of_getElem? hget_j] at h
  have heq : candidates[i] = candidates[j] :=
    eq_of_localName hnames (List.getElem_mem hi) (List.getElem_mem hj) h
  rw [← heq] at hget_j
  exact place_unique (nodup_of_names hnames) hget_i hget_j

theorem constrained_nameAt {i j : Nat} (h : DeclaredAt candidates i j) :
    Constrained candidates (nameAt candidates i) (nameAt candidates j) := by
  obtain ⟨d, e, hd, he, hdeclares⟩ := h
  exact ⟨d, List.mem_of_getElem? hd, e, List.mem_of_getElem? he, (nameAt_of_getElem? hd).symm,
    (nameAt_of_getElem? he).symm, hdeclares⟩

theorem getElem?_placeOf (hnames : (candidates.map Descriptor.localName).Nodup) {d : Descriptor}
    (hd : d ∈ candidates) : candidates[placeOf candidates d.localName]? = some d := by
  obtain ⟨i, hi⟩ := List.mem_iff_getElem?.mp hd
  unfold placeOf
  rw [(placeOf?_eq_some_iff hnames).mpr ⟨d, hi, rfl⟩]
  exact hi

theorem declaredAt_placeOf (hnames : (candidates.map Descriptor.localName).Nodup) {x y : String}
    (h : Constrained candidates x y) :
    DeclaredAt candidates (placeOf candidates x) (placeOf candidates y) := by
  obtain ⟨d, hd, e, he, rfl, rfl, hdeclares⟩ := h
  exact ⟨d, e, getElem?_placeOf hnames hd, getElem?_placeOf hnames he, hdeclares⟩

/-! ## Cycles of the graph and of the constraints -/

/-- The graph is cyclic as the constraints are. -/
theorem Drawn.exists_constrained_iff (h : Drawn phase candidates g) :
    (∃ x, TransGen (Constrained candidates) x x) ↔ ¬ g.Acyclic := by
  constructor
  · intro hx hg
    obtain ⟨x, hcycle⟩ := hx
    refine hg (placeOf candidates x) (hcycle.lift (placeOf candidates) fun a b hab => ?_)
    exact (h.edge _ _).mpr (declaredAt_placeOf h.wellFormed.names hab)
  · intro hg
    unfold Graph.Acyclic at hg
    rw [not_forall] at hg
    obtain ⟨i, hi⟩ := hg
    refine ⟨nameAt candidates i, (not_not.mp hi).lift (nameAt candidates) fun a b hab => ?_⟩
    exact constrained_nameAt ((h.edge a b).mp hab)

/-- No handler refers to itself, as its rule would not have passed. -/
theorem not_declares_self {d : Descriptor} (h : d.rule.check d.localName = .ok ()) :
    ¬ Declares d d := by
  intro hdeclares
  unfold Rule.check at h
  split at h
  · cases h
  split at h
  · cases h
  next hself =>
    rcases hdeclares with hafter | hbefore
    · exact hself (Or.inr hafter)
    · exact hself (Or.inl hbefore)

/-- A cycle of the graph, read by names, is a cycle of the constraints. -/
theorem Drawn.genuine (h : Drawn phase candidates g) {cycle : List Nat} (hcycle : g.IsCycle cycle) :
    Genuine candidates (namesAt candidates cycle) := by
  have hlt : ∀ i ∈ cycle, i < candidates.length := by
    intro i hi
    rw [← h.size]
    exact hcycle.lt_size i hi
  rw [namesAt_eq_map hlt]
  obtain ⟨node, between, rfl, hnodup, hchain⟩ := hcycle
  refine ⟨?_, ?_, ?_, ?_⟩
  · rw [List.map_append, List.map_cons, List.map_singleton, List.getLast?_concat]
    rfl
  · rw [List.map_append, List.map_singleton, List.dropLast_concat]
    refine hnodup.map_on ?_
    intro i hi j hj heq
    exact nameAt_injective h.wellFormed.names (hlt i (List.mem_append_left _ hi))
      (hlt j (List.mem_append_left _ hj)) heq
  · -- With nothing in between, the handler would refer to itself.
    cases between with
    | cons next between => simp
    | nil =>
      obtain ⟨d, e, hd, he, hdeclares⟩ := (h.edge node node).mp (List.isChain_pair.mp hchain)
      obtain rfl : d = e := Option.some.inj (hd.symm.trans he)
      exact absurd hdeclares (not_declares_self (h.wellFormed.rules d (List.mem_of_getElem? hd)))
  · refine (List.isChain_map _).mpr (hchain.imp ?_)
    intro i j hij
    exact constrained_nameAt ((h.edge i j).mp hij)

/-- A reported cycle is one of the declared constraints: it ends with the handler that it begins
with, meets no other one twice, and is no single handler.  A cycle is reported whenever the checks
ahead of the search go through and the constraints have one.  The report that would list all
handlers is never made: behind a search that finds nothing there is always an order. -/
theorem cycle_reports (name : String) (candidates : List Descriptor) :
    (∀ phase path, resolve name candidates = .error (.cycle phase path) →
      phase = name ∧ Genuine candidates path) ∧
    ((∃ path, resolve name candidates = .error (.cycle name path)) ↔
      Checked name candidates ∧ ∃ x, TransGen (Constrained candidates) x x) ∧
    (∀ phase, resolve name candidates ≠
      .error (.cycle phase (candidates.map Descriptor.localName))) ∧
    (∀ g, checkAll name candidates = .ok () → declaredGraph name candidates = .ok g →
      g.findCycle? = none → ∃ order, (withFlags candidates g).order? = some order) := by
  have hgenuine : ∀ phase path, resolve name candidates = .error (.cycle phase path) →
      Checked name candidates ∧ phase = name ∧ Genuine candidates path := by
    intro phase path h
    obtain ⟨g, cycle, hcheck, hgraph, hcycle, hphase, rfl⟩ := resolve_eq_cycle_iff.mp h
    have hdrawn := drawn_of_checks hcheck hgraph
    exact ⟨⟨hcheck, g, hgraph⟩, hphase, hdrawn.genuine (Graph.isCycle_of_findCycle? hcycle)⟩
  refine ⟨fun phase path h => (hgenuine phase path h).2, ?_, ?_, ?_⟩
  · constructor
    · intro h
      obtain ⟨path, hpath⟩ := h
      obtain ⟨g, cycle, hcheck, hgraph, hcycle, -⟩ := resolve_eq_cycle_iff.mp hpath
      refine ⟨⟨hcheck, g, hgraph⟩, ?_⟩
      exact (drawn_of_checks hcheck hgraph).exists_constrained_iff.mpr
        (Graph.isCycle_of_findCycle? hcycle).not_acyclic
    · intro h
      obtain ⟨⟨hcheck, g, hgraph⟩, hx⟩ := h
      have hcyclic := (drawn_of_checks hcheck hgraph).exists_constrained_iff.mp hx
      rw [← Graph.findCycle?_eq_none_iff] at hcyclic
      obtain ⟨cycle, hcycle⟩ := Option.ne_none_iff_exists'.mp hcyclic
      exact ⟨_, resolve_eq_cycle_iff.mpr ⟨g, cycle, hcheck, hgraph, hcycle, rfl, rfl⟩⟩
  · intro phase h
    obtain ⟨hchecked, -, hpath⟩ := hgenuine phase _ h
    exact hpath.ne_names (checked_iff.mp hchecked).1.names rfl
  · intro g hcheck hgraph hcycle
    exact (drawn_of_checks hcheck hgraph).exists_order hcycle

end Phase

end SoapPipeline
