/-
  SoapPipeline.Proofs.Phase.Stages

  How far the resolution of a phase gets.

  Resolution reads the flags along single constraints, searches for a cycle of
  declared constraints and then asks for an order of the graph with the edges
  that the flags imply.  The flags put every candidate into one of three layers,
  and constraints that keep with the flags never lead back to a lower one, so
  that the edges which the flags add close no cycle: an order is then found.

  Main results:
    * `acyclic_withFlags`: the edges of the flags close no cycle;
    * `resolveOrder_stages`: every refusal ahead of the test of the ends has
      its cause in the candidates, and nothing else stops short of an order.
-/
import SoapPipeline.Proofs.Graph.Cycles
import SoapPipeline.Proofs.Graph.Placing
import SoapPipeline.Proofs.Phase.Admissible

namespace SoapPipeline

namespace Phase

open Relation

variable {phase : String} {candidates : List Descriptor} {g : Graph}

/-! ## Layers -/

/-- First handlers are at the bottom and last ones at the top. -/
def layer (candidates : List Descriptor) (i : Nat) : Nat :=
  if isFirst candidates i then 0 else if isLast candidates i then 2 else 1

/-- With more than one candidate none is both first and last. -/
theorem not_first_and_last (hwf : WellFormed phase candidates) {d e : Descriptor}
    (hd : d ∈ candidates) (he : e ∈ candidates) (hne : d ≠ e) :
    ¬ (d.rule.first = true ∧ d.rule.last = true) := by
  intro ⟨hfirst, hlast⟩
  have hsole : d.rule.isSole = true := by
    unfold Rule.isSole
    rw [hfirst, hlast]
    rfl
  rw [hwf.alone d hd hsole, List.mem_singleton] at he
  exact hne he.symm

/-- Constraints that keep with the flags do not lead down. -/
theorem layer_le_of_keepsFlags {i j : Nat} (h : KeepsFlags candidates i j) :
    layer candidates i ≤ layer candidates j := by
  obtain ⟨hfirst, hlast⟩ := h
  unfold layer
  by_cases hi : isFirst candidates i = true
  · rw [if_pos hi]
    exact Nat.zero_le _
  · have hj : ¬ isFirst candidates j = true := fun hj => hi (hfirst hj)
    rw [if_neg hi, if_neg hj]
    by_cases hi_last : isLast candidates i = true
    · rw [if_pos hi_last, if_pos (hlast hi_last)]
    · rw [if_neg hi_last]
      split <;> omega

/-- First handlers are below the others, and others below last ones. -/
theorem layer_lt_of_flags (hwf : WellFormed phase candidates) {i j : Nat} {d e : Descriptor}
    (hd : candidates[i]? = some d) (he : candidates[j]? = some e) (hij : i ≠ j)
    (hflags : (d.rule.first = true ∧ e.rule.first = false) ∨
      (d.rule.last = false ∧ e.rule.last = true)) :
    layer candidates i < layer candidates j := by
  have hne : e ≠ d := by
    intro heq
    rw [heq] at he
    exact hij (place_unique (nodup_of_names hwf.names) hd he)
  have he_sole := not_first_and_last hwf (List.mem_of_getElem? he) (List.mem_of_getElem? hd) hne
  unfold layer
  rw [isFirst_of_getElem? hd, isFirst_of_getElem? he, isLast_of_getElem? hd,
    isLast_of_getElem? he]
  -- A last handler is at the top only because it is not a first one as well.
  rcases hflags with ⟨hfirst, hnot⟩ | ⟨hnot, hlast⟩
  · rw [if_pos hfirst, hnot, if_neg Bool.false_ne_true]
    split <;> omega
  · have he_first : ¬ e.rule.first = true := fun hfirst => he_sole ⟨hfirst, hlast⟩
    rw [hnot, if_neg Bool.false_ne_true, if_neg he_first, if_pos hlast]
    split <;> omega

/-- The edges that the flags imply climb from layer to layer, and the declared ones that keep
with the flags do not lead down. -/
theorem acyclic_withFlags (hwf : WellFormed phase candidates) (hsize : g.size = candidates.length)
    (hedge : ∀ i j, g.Edge i j ↔ DeclaredAt candidates i j)
    (hkeeps : ∀ i j, DeclaredAt candidates i j → KeepsFlags candidates i j) (hg : g.Acyclic) :
    (withFlags candidates g).Acyclic := by
  refine Graph.Acyclic.of_layers (layer candidates) hg ?_
  intro i j hij
  obtain ⟨d, e, hd, he, hmust⟩ := (edge_withFlags_iff hsize hedge).mp hij
  have hdeclared : Declares d e → layer candidates i < layer candidates j ∨
      (layer candidates i = layer candidates j ∧ g.Edge i j) := by
    intro hdeclares
    have hat : DeclaredAt candidates i j := ⟨d, e, hd, he, hdeclares⟩
    rcases Nat.lt_or_eq_of_le (layer_le_of_keepsFlags (hkeeps i j hat)) with hlt | heq
    · exact Or.inl hlt
    · exact Or.inr ⟨heq, (hedge i j).mpr hat⟩
  have hflagged : (d.rule.first = true ∧ e.rule.first = false) ∨
      (d.rule.last = false ∧ e.rule.last = true) → layer candidates i < layer candidates j := by
    intro hflags
    refine layer_lt_of_flags hwf hd he ?_ hflags
    -- No flag puts a handler ahead of itself.
    intro heq
    subst heq
    obtain rfl : d = e := Option.some.inj (hd.symm.trans he)
    rcases hflags with ⟨htrue, hfalse⟩ | ⟨hfalse, htrue⟩ <;>
      exact absurd (htrue.symm.trans hfalse) (by decide)
  cases hmust with
  | after h => exact hdeclared (Or.inl h)
  | before h => exact hdeclared (Or.inr h)
  | first hfirst hnot => exact Or.inl (hflagged (Or.inl ⟨hfirst, hnot⟩))
  | last hnot hlast => exact Or.inl (hflagged (Or.inr ⟨hnot, hlast⟩))

/-! ## When there is no admissible order -/

/-- A declared constraint against the flags leaves no order: each of the two handlers must
stand ahead of the other. -/
theorem not_admissible_of_breaks (hnodup : candidates.Nodup) {i j : Nat}
    (hat : DeclaredAt candidates i j) (hbreaks : ¬ KeepsFlags candidates i j)
    {order : List Descriptor} : ¬ Admissible candidates order := by
  intro h
  obtain ⟨d, e, hd, he, hdeclares⟩ := hat
  have hmem_d : d ∈ order := h.perm.mem_iff.mpr (List.mem_of_getElem? hd)
  have hmem_e : e ∈ order := h.perm.mem_iff.mpr (List.mem_of_getElem? he)
  have hahead := h.obeys d hmem_d e hmem_e (mustPrecede_of_declares hdeclares)
  -- The constraint puts `d` ahead of `e`, and the flags put `e` ahead of `d`.
  have hback : MustPrecede e d := by
    rcases not_keepsFlags_iff.mp hbreaks with hflags | hflags <;>
      rw [Bool.and_eq_true, Bool.not_eq_true'] at hflags
    · rw [isFirst_of_getElem? hd, isFirst_of_getElem? he] at hflags
      exact .first hflags.1 hflags.2
    · rw [isLast_of_getElem? hd, isLast_of_getElem? he] at hflags
      exact .last hflags.2 hflags.1
  exact hahead.asymm (h.nodup hnodup) (h.obeys e hmem_e d hmem_d hback)

/-- In an admissible order handlers stand as the walks between their places lead. -/
theorem Admissible.ahead_of_walk {order : List Descriptor} (h : Admissible candidates order)
    (hnodup : candidates.Nodup) (hedge : ∀ i j, g.Edge i j ↔ DeclaredAt candidates i j)
    {i j : Nat} (hwalk : TransGen g.Edge i j) {d e : Descriptor}
    (hd : candidates[i]? = some d) (he : candidates[j]? = some e) : Ahead order d e := by
  have hstep : ∀ (a b : Nat) (x y : Descriptor), g.Edge a b → candidates[a]? = some x →
      candidates[b]? = some y → Ahead order x y := by
    intro a b x y hab hx hy
    obtain ⟨x', y', hx', hy', hdeclares⟩ := (hedge a b).mp hab
    obtain rfl : x' = x := Option.some.inj (hx'.symm.trans hx)
    obtain rfl : y' = y := Option.some.inj (hy'.symm.trans hy)
    exact h.obeys x' (h.perm.mem_iff.mpr (List.mem_of_getElem? hx)) y'
      (h.perm.mem_iff.mpr (List.mem_of_getElem? hy)) (mustPrecede_of_declares hdeclares)
  induction hwalk generalizing e with
  | single hij => exact hstep _ _ d e hij hd he
  | tail _ hkj ih =>
    obtain ⟨x, y, hx, -, -⟩ := (hedge _ _).mp hkj
    exact (ih hx).trans (h.nodup hnodup) (hstep _ _ x e hkj hx he)

theorem not_admissible_of_cyclic (hnodup : candidates.Nodup)
    (hedge : ∀ i j, g.Edge i j ↔ DeclaredAt candidates i j) (hcyclic : ¬ g.Acyclic)
    {order : List Descriptor} : ¬ Admissible candidates order := by
  intro h
  refine hcyclic fun i hwalk => ?_
  -- A walk from a place to itself would put the handler there ahead of itself.
  obtain ⟨k, hik, -⟩ := TransGen.head'_iff.mp hwalk
  obtain ⟨d, -, hd, -, -⟩ := (hedge i k).mp hik
  exact (h.ahead_of_walk hnodup hedge hwalk hd hd).irrefl (h.nodup hnodup)

/-! ## Stages -/

/-- An order of all places has been found, which always goes on with the least place that the
constraints and flags allow. -/
structure Found (phase : String) (candidates : List Descriptor) (g : Graph)
    (order : List Nat) : Prop where
  wellFormed : WellFormed phase candidates
  size : g.size = candidates.length
  edge : ∀ i j, g.Edge i j ↔ DeclaredAt candidates i j
  greedy : (withFlags candidates g).Greedy [] order
  perm : order.Perm (List.range candidates.length)

/-- The last stage: neither the head nor the tail may be left to choice. -/
def testEnds (phase : String) (candidates : List Descriptor) (g : Graph) (order : List Nat) :
    Except ResolutionError (List Nat) :=
  if !g.isChain (order.filter (isFirst candidates)) then
    .error (.ambiguousFirst phase (namesAt candidates (order.filter (isFirst candidates))))
  else if !g.isChain (order.filter (isLast candidates)) then
    .error (.ambiguousLast phase (namesAt candidates (order.filter (isLast candidates))))
  else .ok order

theorem resolveOrder_eq (phase : String) (candidates : List Descriptor) :
    resolveOrder phase candidates =
      (checkAll phase candidates).bind fun _ =>
        (declaredGraph phase candidates).bind fun declared =>
          match declared.findCycle? with
          | some path => .error (.cycle phase (namesAt candidates path))
          | none =>
            match (withFlags candidates declared).order? with
            | none => .error (.cycle phase (candidates.map Descriptor.localName))
            | some order => testEnds phase candidates declared order := rfl

/-- How far resolution gets: the candidates are not well formed, they are but no order satisfies
the rules, or an order is found and its ends are tested. -/
inductive Stage (phase : String) (candidates : List Descriptor) :
    Except ResolutionError (List Nat) → Prop
  | malformed {e : ResolutionError} (h : ¬ WellFormed phase candidates) :
      Stage phase candidates (.error e)
  | conflict {handler : String} {c : Conflict} (hwf : WellFormed phase candidates)
      (hnone : ¬ ∃ order, Admissible candidates order) :
      Stage phase candidates (.error (.ruleConflict handler c))
  | cycle {path : List String} (hwf : WellFormed phase candidates)
      (hnone : ¬ ∃ order, Admissible candidates order) :
      Stage phase candidates (.error (.cycle phase path))
  | found {g : Graph} {order : List Nat} (h : Found phase candidates g order) :
      Stage phase candidates (testEnds phase candidates g order)

theorem inRange_withFlags (hsize : g.size = candidates.length)
    (hedge : ∀ i j, g.Edge i j ↔ DeclaredAt candidates i j) :
    (withFlags candidates g).InRange := by
  intro i j hij
  obtain ⟨d, e, hd, he, -⟩ := (edge_withFlags_iff hsize hedge).mp hij
  rw [size_withFlags, hsize]
  exact (List.getElem?_eq_some_iff.mp he).1

/-- Once the declared constraints are acyclic an order is found: the second refusal for a cycle is
never reached. -/
theorem exists_found (hwf : WellFormed phase candidates) (hsize : g.size = candidates.length)
    (hedge : ∀ i j, g.Edge i j ↔ DeclaredAt candidates i j)
    (hkeeps : ∀ i j, DeclaredAt candidates i j → KeepsFlags candidates i j) (hg : g.Acyclic) :
    ∃ order, (withFlags candidates g).order? = some order ∧ Found phase candidates g order := by
  have hrange := inRange_withFlags hsize hedge
  have hacyclic := acyclic_withFlags hwf hsize hedge hkeeps hg
  obtain ⟨order, horder⟩ := Graph.exists_order?_of_acyclic hrange hacyclic
  obtain ⟨hgreedy, hperm⟩ := Graph.greedy_of_order? hrange horder
  refine ⟨order, horder, hwf, hsize, hedge, hgreedy, ?_⟩
  unfold Graph.nodes at hperm
  rwa [size_withFlags, hsize] at hperm

theorem resolveOrder_stages (phase : String) (candidates : List Descriptor) :
    Stage phase candidates (resolveOrder phase candidates) := by
  rw [resolveOrder_eq]
  cases hcheck : checkAll phase candidates with
  | error e =>
    refine Stage.malformed fun hwf => ?_
    have hok := checkAll_eq_ok_iff.mpr ⟨hwf.rules, hwf.targets, hwf.names, hwf.alone⟩
    rw [hcheck] at hok
    exact absurd hok (by simp)
  | ok u =>
    obtain ⟨hrules, htargets, hnames, halone⟩ := checkAll_eq_ok_iff.mp hcheck
    have hwf (hresolved : ¬ ∃ d ∈ candidates, Dangles candidates d) :
        WellFormed phase candidates :=
      ⟨hrules, htargets, hnames, halone, references_iff.mpr hresolved⟩
    rcases declaredGraph_cases phase hnames with
      ⟨g, hgraph, hsize, hedge, hkeeps, hresolved⟩ | ⟨handler, reference, hgraph, hdangles⟩ |
      ⟨handler, c, hgraph, i, j, hat, hbreaks⟩
    · rw [hgraph]
      have hnodup := nodup_of_names hnames
      show Stage phase candidates (match g.findCycle? with
        | some path => _
        | none => _)
      cases hcycle : g.findCycle? with
      | some path =>
        -- A cycle of constraints has no place to begin in an order.
        have hcyclic : ¬ g.Acyclic := by
          rw [← Graph.findCycle?_eq_none_iff, hcycle]
          simp
        refine Stage.cycle (hwf hresolved) ?_
        intro ⟨order, horder⟩
        exact not_admissible_of_cyclic hnodup hedge hcyclic horder
      | none =>
        obtain ⟨order, horder, hfound⟩ := exists_found (hwf hresolved) hsize hedge hkeeps
          (Graph.findCycle?_eq_none_iff.mp hcycle)
        show Stage phase candidates (match (withFlags candidates g).order? with
          | none => _
          | some order => testEnds phase candidates g order)
        rw [horder]
        exact Stage.found hfound
    · rw [hgraph]
      refine Stage.malformed fun hwf => ?_
      exact references_iff.mp hwf.references hdangles
    · rw [hgraph]
      -- A conflict may be met ahead of a reference that names nobody.
      by_cases hdangles : ∃ d ∈ candidates, Dangles candidates d
      · exact Stage.malformed fun hwf => references_iff.mp hwf.references hdangles
      · refine Stage.conflict (hwf hdangles) ?_
        intro ⟨order, horder⟩
        exact not_admissible_of_breaks (nodup_of_names hnames) hat hbreaks horder

end Phase

end SoapPipeline
