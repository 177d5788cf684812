/-
  SoapPipeline.Proofs.Phase.Admissible

  Orders that satisfy every rule of the candidates.

  An order is admissible when it is an arrangement of the candidates in which
  every handler stands where its rule and the rules of the others want it.
  This speaks of handlers and their rules only.  The second half of the module
  ties it to the graph over places: admissible orders are the complete forward
  orders of the graph with the edges that the flags imply.

  Main results:
    * `Admissible.swap`: neighbours that no rule orders may be exchanged;
    * `edge_withFlags_iff`: the edges are what the rules ask for;
    * `admissible_seats_iff`: an order of places is forward exactly when the
      order of handlers at them is admissible.
-/
import Mathlib.Data.List.Nodup
import SoapPipeline.Proofs.Ahead
import SoapPipeline.Proofs.Graph.Orders
import SoapPipeline.Proofs.Phase.Candidates

namespace SoapPipeline

namespace Phase

/-! ## Admissible orders -/

/-- The rules want `d` ahead of `e`. -/
inductive MustPrecede (d e : Descriptor) : Prop where
  /-- A handler runs after its `after` handler. -/
  | after (h : e.rule.after = some d.localName)
  /-- A handler runs before its `before` handler. -/
  | before (h : d.rule.before = some e.localName)
  /-- First handlers run ahead of those that are not first. -/
  | first (hd : d.rule.first = true) (he : e.rule.first = false)
  /-- Last handlers run behind those that are not last. -/
  | last (hd : d.rule.last = false) (he : e.rule.last = true)

/-- An arrangement of the candidates that satisfies every rule. -/
structure Admissible (candidates order : List Descriptor) : Prop where
  perm : order.Perm candidates
  obeys : ∀ d ∈ order, ∀ e ∈ order, MustPrecede d e → Ahead order d e

theorem mustPrecede_of_declares {d e : Descriptor} (h : Declares d e) : MustPrecede d e := by
  rcases h with h | h
  · exact .after h
  · exact .before h

namespace Admissible

variable {candidates order : List Descriptor}

theorem nodup (h : Admissible candidates order) (hnodup : candidates.Nodup) : order.Nodup :=
  h.perm.nodup_iff.mpr hnodup

/-- Neighbours that no rule orders may be exchanged. -/
theorem swap {front back : List Descriptor} {d e : Descriptor}
    (h : Admissible candidates (front ++ d :: e :: back)) (hfree : ¬ MustPrecede d e) :
    Admissible candidates (front ++ e :: d :: back) := by
  have hperm : (front ++ e :: d :: back).Perm (front ++ d :: e :: back) :=
    (List.Perm.swap d e back).append_left front
  refine ⟨hperm.trans h.perm, ?_⟩
  intro x hx y hy hmust
  -- The exchange turns round one pair only, and no rule is about that one.
  have hahead := h.obeys x (hperm.mem_iff.mp hx) y (hperm.mem_iff.mp hy) hmust
  rcases hahead.of_swap with ⟨rfl, rfl⟩ | hahead
  · exact absurd hmust hfree
  · exact hahead

/-- First handlers make up the front. -/
theorem eq_firsts_append (h : Admissible candidates order) (hnodup : candidates.Nodup) :
    order = order.filter (·.rule.first) ++ order.filter (fun d => !d.rule.first) := by
  refine eq_filter_append_filter (h.nodup hnodup) ?_
  intro d hd e he hfirst hnot
  exact h.obeys d hd e he (.first hfirst hnot)

/-- Last handlers make up the back. -/
theorem eq_append_lasts (h : Admissible candidates order) (hnodup : candidates.Nodup) :
    order = order.filter (fun d => !d.rule.last) ++ order.filter (·.rule.last) := by
  have hsplit := eq_filter_append_filter (p := fun d : Descriptor => !d.rule.last)
    (h.nodup hnodup) (fun d hd e he hnot hlast => h.obeys d hd e he
      (.last (by simpa using hnot) (by simpa using hlast)))
  simpa using hsplit

end Admissible

/-! ## Handlers and their places -/

/-- The candidates at these places. -/
def seats (candidates : List Descriptor) (places : List Nat) : List Descriptor :=
  places.filterMap fun i => candidates[i]?

/-- The places of these candidates in the declaration. -/
def places (candidates order : List Descriptor) : List Nat :=
  order.map fun d => candidates.idxOf d

section Places

variable {candidates : List Descriptor}

theorem mem_seats {places : List Nat} {d : Descriptor} :
    d ∈ seats candidates places ↔ ∃ i ∈ places, candidates[i]? = some d :=
  List.mem_filterMap

theorem seats_range (candidates : List Descriptor) :
    seats candidates (List.range candidates.length) = candidates := by
  unfold seats
  induction candidates with
  | nil => rfl
  | cons d rest ih =>
    rw [List.length_cons, List.range_succ_eq_map, List.filterMap_cons_some List.getElem?_cons_zero,
      List.filterMap_map]
    exact congrArg (d :: ·) ih

theorem idxOf_of_getElem? (hnodup : candidates.Nodup) {i : Nat} {d : Descriptor}
    (h : candidates[i]? = some d) : candidates.idxOf d = i := by
  obtain ⟨hlt, rfl⟩ := List.getElem?_eq_some_iff.mp h
  exact hnodup.idxOf_getElem i hlt

/-- A candidate has one place only. -/
theorem place_unique (hnodup : candidates.Nodup) {i j : Nat} {d : Descriptor}
    (hi : candidates[i]? = some d) (hj : candidates[j]? = some d) : i = j :=
  (idxOf_of_getElem? hnodup hi).symm.trans (idxOf_of_getElem? hnodup hj)

theorem getElem?_idxOf {d : Descriptor} (h : d ∈ candidates) :
    candidates[candidates.idxOf d]? = some d := by
  rw [List.getElem?_eq_getElem (List.idxOf_lt_length_of_mem h), List.getElem_idxOf]

theorem places_seats (hnodup : candidates.Nodup) {order : List Nat}
    (hlt : ∀ i ∈ order, i < candidates.length) : places candidates (seats candidates order) = order := by
  induction order with
  | nil => rfl
  | cons i order ih =>
    obtain ⟨hi, hrest⟩ := List.forall_mem_cons.mp hlt
    have hget := List.getElem?_eq_getElem hi
    show List.map _ (List.filterMap _ (i :: order)) = _
    rw [List.filterMap_cons_some hget, List.map_cons, idxOf_of_getElem? hnodup hget]
    rw [show List.map _ (List.filterMap _ order) = order from ih hrest]

theorem seats_places {order : List Descriptor} (hsub : order ⊆ candidates) :
    seats candidates (places candidates order) = order := by
  induction order with
  | nil => rfl
  | cons d order ih =>
    have hd : candidates[candidates.idxOf d]? = some d := getElem?_idxOf (hsub List.mem_cons_self)
    show List.filterMap _ (candidates.idxOf d :: _) = _
    rw [List.filterMap_cons_some hd]
    exact congrArg (d :: ·) (ih fun e he => hsub (List.mem_cons_of_mem d he))

/-- Places ahead of each other seat handlers ahead of each other. -/
theorem ahead_seats {order : List Nat} {i j : Nat} {d e : Descriptor} (h : Ahead order i j)
    (hd : candidates[i]? = some d) (he : candidates[j]? = some e) :
    Ahead (seats candidates order) d e := by
  obtain ⟨front, back, rfl, hi, hj⟩ := h
  refine ⟨seats candidates front, seats candidates back, List.filterMap_append, ?_, ?_⟩
  · exact mem_seats.mpr ⟨i, hi, hd⟩
  · exact mem_seats.mpr ⟨j, hj, he⟩

theorem ahead_of_ahead_seats (hnodup : candidates.Nodup) {order : List Nat}
    (hlt : ∀ i ∈ order, i < candidates.length) {i j : Nat} {d e : Descriptor}
    (h : Ahead (seats candidates order) d e) (hd : candidates[i]? = some d)
    (he : candidates[j]? = some e) : Ahead order i j := by
  have hmap := h.map fun d => candidates.idxOf d
  rw [idxOf_of_getElem? hnodup hd, idxOf_of_getElem? hnodup he] at hmap
  rwa [show (seats candidates order).map _ = order from places_seats hnodup hlt] at hmap

end Places

/-! ## The graph with the edges that the flags imply -/

section WithFlags

variable {candidates : List Descriptor} {g : Graph}

theorem flagsOrder_iff {i j : Nat} {d e : Descriptor} (hd : candidates[i]? = some d)
    (he : candidates[j]? = some e) :
    flagsOrder candidates i j = true ↔
      (d.rule.first = true ∧ e.rule.first = false) ∨ (d.rule.last = false ∧ e.rule.last = true) := by
  unfold flagsOrder
  rw [isFirst_of_getElem? hd, isFirst_of_getElem? he, isLast_of_getElem? hd, isLast_of_getElem? he]
  by_cases hij : i = j
  · subst hij
    obtain rfl : d = e := Option.some.inj (hd.symm.trans he)
    simp
  · simp [hij, and_comm]

@[simp] theorem size_withFlags : (withFlags candidates g).size = g.size := by
  simp [withFlags, Graph.size, Graph.nodes]

theorem mem_successors_withFlags {i j : Nat} :
    (withFlags candidates g).Edge i j ↔
      i < g.size ∧ (g.Edge i j ∨ (j < g.size ∧ flagsOrder candidates i j = true)) := by
  unfold Graph.Edge
  by_cases hi : i < g.size
  · have hget : (withFlags candidates g).successors i =
        g.successors i ++ g.nodes.filter (flagsOrder candidates i) := by
      simp [withFlags, Graph.successors, Graph.nodes, hi]
    rw [hget, List.mem_append, List.mem_filter, Graph.mem_nodes]
    simp [hi]
  · -- Outside of the graph there are neither declared edges nor edges of flags.
    have hget : (withFlags candidates g).successors i = [] :=
      Graph.successors_eq_nil (by rw [size_withFlags]; omega)
    rw [hget]
    simp [hi]

/-- The edges are what the rules ask for. -/
theorem edge_withFlags_iff (hsize : g.size = candidates.length)
    (hedge : ∀ i j, g.Edge i j ↔ DeclaredAt candidates i j) {i j : Nat} :
    (withFlags candidates g).Edge i j ↔
      ∃ d e, candidates[i]? = some d ∧ candidates[j]? = some e ∧ MustPrecede d e := by
  rw [mem_successors_withFlags, hedge, hsize]
  constructor
  · intro hall
    rcases hall with ⟨hi, ⟨d, e, hd, he, hdeclares⟩ | ⟨hj, hflags⟩⟩
    · exact ⟨d, e, hd, he, mustPrecede_of_declares hdeclares⟩
    · have hd := List.getElem?_eq_getElem hi
      have he := List.getElem?_eq_getElem hj
      refine ⟨_, _, hd, he, ?_⟩
      rcases (flagsOrder_iff hd he).mp hflags with ⟨hfirst, hnot⟩ | ⟨hnot, hlast⟩
      · exact .first hfirst hnot
      · exact .last hnot hlast
  · intro hall
    obtain ⟨d, e, hd, he, hmust⟩ := hall
    have hi := (List.getElem?_eq_some_iff.mp hd).1
    have hj := (List.getElem?_eq_some_iff.mp he).1
    refine ⟨hi, ?_⟩
    cases hmust with
    | after h => exact Or.inl ⟨d, e, hd, he, Or.inl h⟩
    | before h => exact Or.inl ⟨d, e, hd, he, Or.inr h⟩
    | first hfirst hnot => exact Or.inr ⟨hj, (flagsOrder_iff hd he).mpr (Or.inl ⟨hfirst, hnot⟩)⟩
    | last hnot hlast => exact Or.inr ⟨hj, (flagsOrder_iff hd he).mpr (Or.inr ⟨hnot, hlast⟩)⟩

/-- An order of all places is forward exactly when the handlers at them stand in an admissible
order. -/
theorem admissible_seats_iff (hnodup : candidates.Nodup) (hsize : g.size = candidates.length)
    (hedge : ∀ i j, g.Edge i j ↔ DeclaredAt candidates i j) {order : List Nat}
    (hperm : order.Perm (List.range candidates.length)) :
    Admissible candidates (seats candidates order) ↔
      (withFlags candidates g).Forward [] order := by
  have hlt : ∀ i ∈ order, i < candidates.length := by
    intro i hi
    exact List.mem_range.mp (hperm.mem_iff.mp hi)
  have hnodes : order.Perm (withFlags candidates g).nodes := by
    unfold Graph.nodes
    rwa [size_withFlags, hsize]
  rw [Graph.forward_iff_of_perm hnodes]
  constructor
  · intro h i j _ hij
    obtain ⟨d, e, hd, he, hmust⟩ := (edge_withFlags_iff hsize hedge).mp hij
    -- An order of all places seats every candidate.
    have hmem : ∀ (k : Nat) (x : Descriptor), candidates[k]? = some x →
        x ∈ seats candidates order := by
      intro k x hx
      have hk := (List.getElem?_eq_some_iff.mp hx).1
      exact mem_seats.mpr ⟨k, hperm.mem_iff.mpr (List.mem_range.mpr hk), hx⟩
    have hahead := h.obeys d (hmem i d hd) e (hmem j e he) hmust
    exact ahead_of_ahead_seats hnodup hlt hahead hd he
  · intro h
    refine ⟨?_, ?_⟩
    · have := hperm.filterMap fun i => candidates[i]?
      rwa [show (List.range candidates.length).filterMap _ = candidates from
        seats_range candidates] at this
    · intro d hd e he hmust
      obtain ⟨i, hi, hd⟩ := mem_seats.mp hd
      obtain ⟨j, hj, he⟩ := mem_seats.mp he
      have hij := (edge_withFlags_iff hsize hedge).mpr ⟨d, e, hd, he, hmust⟩
      refine ahead_seats (h i j ?_ hij) hd he
      rw [size_withFlags, hsize]
      exact hlt j hj

/-- The places of an admissible order are all places. -/
theorem Admissible.perm_places {order : List Descriptor} (h : Admissible candidates order)
    (hnodup : candidates.Nodup) : (places candidates order).Perm (List.range candidates.length) := by
  have hself : places candidates candidates = List.range candidates.length := by
    have hlt : ∀ i ∈ List.range candidates.length, i < candidates.length :=
      fun i hi => List.mem_range.mp hi
    have := places_seats hnodup hlt
    rwa [seats_range] at this
  rw [← hself]
  exact h.perm.map _

end WithFlags

end Phase

end SoapPipeline
