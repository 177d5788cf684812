/-
  SoapPipeline.Proofs.Phase.Picking

  The order of a phase, picked handler by handler.

  Resolution goes on with a handler that none of those still to come must
  precede, and of these with the one declared first.  Said of handlers instead of
  places, this describes every part of an order by that part alone, so that
  orders over different declarations can be compared piece by piece.

  Main results:
    * `Picks.eq_of_perm`: a declaration and a set of handlers have one such order;
    * `Picks.filter`, `picks_of_sublist`: parts of orders are picked as well;
    * `picks_of_resolve`: the order of a phase is picked from its declaration;
    * `exists_resolve_iff`: which candidates resolve, whatever order they are given in.
-/
import SoapPipeline.Proofs.Phase.LeastOrder

namespace SoapPipeline

namespace Phase

variable {name : String} {candidates declared order : List Descriptor} {p : Phase}

/-! ## Orders that are picked -/

/-- None of these handlers must precede `d`. -/
def Ready (handlers : List Descriptor) (d : Descriptor) : Prop :=
  ∀ c ∈ handlers, ¬ MustPrecede c d

/-- Every handler is ready when its turn comes, and declared ahead of all others that are. -/
def Picks (declared : List Descriptor) : List Descriptor → Prop
  | [] => True
  | d :: rest =>
    Ready (d :: rest) d ∧ (∀ e ∈ rest, Ready (d :: rest) e → Ahead declared d e) ∧
      Picks declared rest

theorem Ready.mono {handlers handlers' : List Descriptor} {d : Descriptor}
    (h : Ready handlers d) (hsub : handlers' ⊆ handlers) : Ready handlers' d :=
  fun c hc => h c (hsub hc)

namespace Picks

theorem of_append {front back : List Descriptor} (h : Picks declared (front ++ back)) :
    Picks declared back := by
  induction front with
  | nil => exact h
  | cons d rest ih => exact ih h.2.2

/-- Of the handlers that are ready at once only one is declared first. -/
theorem eq_of_perm {order' : List Descriptor} (hdeclared : declared.Nodup)
    (h : Picks declared order) (h' : Picks declared order') (hperm : order.Perm order') :
    order = order' := by
  induction order generalizing order' with
  | nil => exact (List.nil_perm.mp hperm).symm
  | cons d rest ih =>
    cases order' with
    | nil => exact absurd hperm.length_eq (by simp)
    | cons d' rest' =>
      by_cases heq : d = d'
      · subst heq
        rw [ih h.2.2 h'.2.2 (List.perm_cons d |>.mp hperm)]
      · -- Either head was ready when the other one was picked.
        have hd : d ∈ rest' :=
          (List.mem_cons.mp (hperm.subset List.mem_cons_self)).resolve_left heq
        have hd' : d' ∈ rest :=
          (List.mem_cons.mp (hperm.symm.subset List.mem_cons_self)).resolve_left (Ne.symm heq)
        have hahead := h.2.1 d' hd' (h'.1.mono hperm.subset)
        exact absurd (h'.2.1 d hd (h.1.mono hperm.symm.subset)) (hahead.asymm hdeclared)

/-- Handlers that none of the others must precede are picked as they are when those are gone. -/
theorem filter {keep : Descriptor → Bool} (h : Picks declared order)
    (hclosed : ∀ c ∈ order, ∀ d ∈ order, keep d = true → MustPrecede c d → keep c = true) :
    Picks declared (order.filter keep) := by
  induction order with
  | nil => trivial
  | cons d rest ih =>
    have hrest := ih h.2.2 fun c hc e he =>
      hclosed c (List.mem_cons_of_mem d hc) e (List.mem_cons_of_mem d he)
    rw [List.filter_cons]
    split
    next hkeep =>
      have hsub : d :: rest.filter keep ⊆ d :: rest :=
        List.cons_subset_cons d (List.filter_subset_self rest)
      refine ⟨h.1.mono hsub, ?_, hrest⟩
      intro e he hready
      obtain ⟨he, hkeep_e⟩ := List.mem_filter.mp he
      refine h.2.1 e he fun c hc hmust => ?_
      -- Whoever must precede a handler that is kept is kept.
      have hkeep_c := hclosed c hc e (List.mem_cons_of_mem d he) hkeep_e hmust
      refine hready c ?_ hmust
      rcases List.mem_cons.mp hc with rfl | hc
      · exact List.mem_cons_self
      · exact List.mem_cons_of_mem d (List.mem_filter.mpr ⟨hc, hkeep_c⟩)
    next => exact hrest

/-- Only the places of the handlers at hand matter in the declaration. -/
theorem congr {declared' : List Descriptor} (h : Picks declared order)
    (hsame : ∀ d ∈ order, ∀ e ∈ order, Ahead declared d e → Ahead declared' d e) :
    Picks declared' order := by
  induction order with
  | nil => trivial
  | cons d rest ih =>
    refine ⟨h.1, ?_, ih h.2.2 fun c hc e he => ?_⟩
    · intro e he hready
      exact hsame d List.mem_cons_self e (List.mem_cons_of_mem d he) (h.2.1 e he hready)
    · exact hsame c (List.mem_cons_of_mem d hc) e (List.mem_cons_of_mem d he)

/-- A declaration that goes on longer makes no difference to handlers that stood there before. -/
theorem of_declared_append {later : List Descriptor} (h : Picks (declared ++ later) order)
    (hmem : ∀ d ∈ order, d ∈ declared) (hnodup : (declared ++ later).Nodup) :
    Picks declared order := by
  have hapart := (List.nodup_append.mp hnodup).2.2
  refine h.congr fun d hd e he hahead => ?_
  rcases Ahead.append_iff.mp hahead with hahead | ⟨-, hlater⟩ | hahead
  · exact hahead
  · exact absurd rfl (hapart e (hmem e he) e hlater)
  · exact absurd rfl (hapart e (hmem e he) e hahead.mem_right)

end Picks

/-! ## Admissible orders -/

namespace Admissible

theorem of_perm {candidates' : List Descriptor} (h : Admissible candidates order)
    (hperm : candidates.Perm candidates') : Admissible candidates' order :=
  ⟨h.perm.trans hperm, h.obeys⟩

/-- No two handlers must precede each other. -/
theorem asymm (h : Admissible candidates order) (hnodup : candidates.Nodup) {d e : Descriptor}
    (hd : d ∈ order) (he : e ∈ order) (hmust : MustPrecede d e) : ¬ MustPrecede e d := by
  intro hmust'
  exact (h.obeys d hd e he hmust).asymm (h.nodup hnodup) (h.obeys e he d hd hmust')

/-- An order that satisfies the rules is picked from any declaration that it is a part of. -/
theorem picks_of_sublist (h : Admissible candidates order) (hnodup : candidates.Nodup)
    {part : List Descriptor} (hpart : part.Sublist order) (hsub : part.Sublist declared) :
    Picks declared part := by
  have hready : ∀ d ∈ part, ¬ MustPrecede d d := fun d hd hmust =>
    h.asymm hnodup (hpart.subset hd) (hpart.subset hd) hmust hmust
  have hforward : part.Pairwise fun d e => ¬ MustPrecede e d := by
    refine List.Pairwise.imp_of_mem ?_ ((Ahead.pairwise order).sublist hpart)
    intro d e hd he hahead hmust
    have hback := h.obeys e (hpart.subset he) d (hpart.subset hd) hmust
    exact hback.asymm (h.nodup hnodup) hahead
  have hahead := (Ahead.pairwise declared).sublist hsub
  clear hpart hsub
  induction part with
  | nil => trivial
  | cons d rest ih =>
    obtain ⟨hd, hrest⟩ := List.forall_mem_cons.mp hready
    obtain ⟨hd_forward, hforward⟩ := List.pairwise_cons.mp hforward
    obtain ⟨hd_ahead, hahead⟩ := List.pairwise_cons.mp hahead
    refine ⟨List.forall_mem_cons.mpr ⟨hd, hd_forward⟩, ?_, ih hrest hforward hahead⟩
    exact fun e he _ => hd_ahead e he

end Admissible

/-! ## Resolved phases -/

/-- Places that are placed greedily seat handlers that are picked. -/
theorem picks_seats {g : Graph} (hsize : g.size = candidates.length)
    (hedge : ∀ i j, g.Edge i j ↔ DeclaredAt candidates i j) {placed places : List Nat}
    (h : (withFlags candidates g).Greedy placed places)
    (hall : ∀ i < candidates.length, i ∈ placed ∨ i ∈ places) :
    Picks candidates (seats candidates places) := by
  induction places generalizing placed with
  | nil => trivial
  | cons i rest ih =>
    obtain ⟨hnodup, hfree, -⟩ := Graph.forward_iff.mp h.forward
    obtain ⟨hi_rest, -⟩ := List.nodup_cons.mp hnodup
    obtain ⟨hready, hleast, hrest⟩ := h
    have hlt : i < candidates.length := by
      have := hready.lt_size
      rwa [size_withFlags, hsize] at this
    have hd := List.getElem?_eq_getElem hlt
    have hseats : seats candidates (i :: rest) = candidates[i] :: seats candidates rest :=
      List.filterMap_cons_some hd
    rw [hseats]
    refine ⟨?_, ?_, ih hrest fun j hj => ?_⟩
    · rw [← hseats]
      intro c hc hmust
      obtain ⟨k, hk, hc⟩ := mem_seats.mp hc
      have hedge := (edge_withFlags_iff hsize hedge).mpr ⟨c, _, hc, hd, hmust⟩
      exact (hfree k hk).2 (hready.preds k hedge)
    · rw [← hseats]
      intro e he hready_e
      obtain ⟨j, hj, he⟩ := mem_seats.mp he
      have hj_free := hfree j (List.mem_cons_of_mem i hj)
      -- The place of a handler that is ready is ready, so that the greedy place is less.
      have hready_j : Graph.Ready (withFlags candidates g) placed j := by
        refine ⟨hj_free.1, hj_free.2, fun k hkj => ?_⟩
        obtain ⟨c, e', hc, he', hmust⟩ := (edge_withFlags_iff hsize hedge).mp hkj
        obtain rfl : e' = e := Option.some.inj (he'.symm.trans he)
        rcases hall k (List.getElem?_eq_some_iff.mp hc).1 with hk | hk
        · exact hk
        · exact absurd hmust (hready_e c (mem_seats.mpr ⟨k, hk, hc⟩))
      have hne : i ≠ j := fun heq => hi_rest (heq ▸ hj)
      exact Ahead.of_getElem? hd he (Nat.lt_of_le_of_ne (hleast j hready_j) hne)
    · rcases hall j hj with hj | hj
      · exact Or.inl (List.mem_cons_of_mem i hj)
      · rcases List.mem_cons.mp hj with rfl | hj
        · exact Or.inl List.mem_cons_self
        · exact Or.inr hj

/-- The order of a phase is picked from its declaration. -/
theorem picks_of_resolve (h : resolve name candidates = .ok p) : Picks candidates p.handlers := by
  obtain ⟨g, places, hfound, rfl⟩ := exists_found_of_resolve h
  refine picks_seats hfound.size hfound.edge hfound.greedy fun i hi => Or.inr ?_
  exact hfound.perm.mem_iff.mpr (List.mem_range.mpr hi)

/-! ## Acceptance -/

/-- The candidates can stand together, some order satisfies their rules, and all of these agree on
both ends of the phase. -/
structure Resolvable (name : String) (candidates : List Descriptor) : Prop where
  wellFormed : WellFormed name candidates
  admissible : ∃ order, Admissible candidates order
  firsts : AgreeOn candidates (·.rule.first)
  lasts : AgreeOn candidates (·.rule.last)

theorem exists_resolve_iff :
    (∃ p, resolve name candidates = .ok p) ↔ Resolvable name candidates := by
  rw [resolve_eq]
  have hstage := resolveOrder_stages name candidates
  generalize resolveOrder name candidates = outcome at hstage
  cases hstage with
  | malformed h =>
    simp only [Except.map, reduceCtorEq, exists_false, false_iff]
    exact fun hall => h hall.wellFormed
  | conflict _ hnone =>
    simp only [Except.map, reduceCtorEq, exists_false, false_iff]
    exact fun hall => hnone hall.admissible
  | cycle _ hnone =>
    simp only [Except.map, reduceCtorEq, exists_false, false_iff]
    exact fun hall => hnone hall.admissible
  | found h =>
    rcases h.testEnds_cases with ⟨heq, hfirst, hlast⟩ | ⟨⟨names, heq⟩, hfirst⟩ |
      ⟨⟨names, heq⟩, -, hlast⟩
    · rw [heq]
      exact iff_of_true ⟨_, rfl⟩ ⟨h.wellFormed, ⟨_, h.admissible⟩, hfirst, hlast⟩
    · rw [heq]
      simp only [Except.map, reduceCtorEq, exists_false, false_iff]
      exact fun hall => hfirst hall.firsts
    · rw [heq]
      simp only [Except.map, reduceCtorEq, exists_false, false_iff]
      exact fun hall => hlast hall.lasts

theorem WellFormed.of_perm {candidates' : List Descriptor} (h : WellFormed name candidates)
    (hperm : candidates.Perm candidates') : WellFormed name candidates' where
  rules d hd := h.rules d (hperm.mem_iff.mpr hd)
  targets d hd := h.targets d (hperm.mem_iff.mpr hd)
  names := (hperm.map _).nodup_iff.mp h.names
  alone d hd hsole := by
    rw [h.alone d (hperm.mem_iff.mpr hd) hsole] at hperm
    exact (List.singleton_perm.mp hperm).symm
  references d hd reference href := by
    obtain ⟨e, he, heq⟩ := h.references d (hperm.mem_iff.mpr hd) reference href
    exact ⟨e, hperm.mem_iff.mp he, heq⟩

theorem AgreeOn.of_perm {candidates' : List Descriptor} {select : Descriptor → Bool}
    (h : AgreeOn candidates select) (hperm : candidates.Perm candidates') :
    AgreeOn candidates' select :=
  fun _ _ horder horder' => h _ _ (horder.of_perm hperm.symm) (horder'.of_perm hperm.symm)

/-- Whether handlers resolve does not depend on the order in which they are declared. -/
theorem Resolvable.of_perm {candidates' : List Descriptor} (h : Resolvable name candidates)
    (hperm : candidates.Perm candidates') : Resolvable name candidates' := by
  obtain ⟨order, horder⟩ := h.admissible
  exact ⟨h.wellFormed.of_perm hperm, ⟨order, horder.of_perm hperm⟩, h.firsts.of_perm hperm,
    h.lasts.of_perm hperm⟩

/-- Handlers that agree on an end stand there in the same sequence in every order. -/
theorem AgreeOn.ahead {select : Descriptor → Bool} {order' : List Descriptor} {d e : Descriptor}
    (h : AgreeOn candidates select) (horder : Admissible candidates order)
    (horder' : Admissible candidates order') (hd : select d = true) (he : select e = true)
    (hahead : Ahead order d e) : Ahead order' d e := by
  have hselected := hahead.filter hd he
  rw [h order order' horder horder'] at hselected
  exact hselected.of_sublist List.filter_sublist

end Phase

end SoapPipeline
