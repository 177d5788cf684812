/-
  SoapPipeline.Proofs.Phase.LeastOrder

  Which of the admissible orders a phase has.

  Where the rules leave a choice the handler that was declared earlier goes
  first.  Hence the handlers of a phase stand in the least admissible order when
  orders are compared by the places of the declaration, and handlers that no
  rule concerns stay in the order in which they were declared.

  Main results:
    * `exists_found_of_resolve`: a phase is made of the order that was found;
    * `resolve_least`: the order of a phase is the least admissible one.
-/
import SoapPipeline.Proofs.Phase.Resolution

namespace SoapPipeline

namespace Phase

variable {name : String} {candidates : List Descriptor} {p : Phase}

/-- A phase is made of the order that was found. -/
theorem exists_found_of_resolve (h : resolve name candidates = .ok p) :
    ∃ g order, Found name candidates g order ∧ p = ⟨name, seats candidates order⟩ := by
  rw [resolve_eq] at h
  have hstage := resolveOrder_stages name candidates
  generalize resolveOrder name candidates = outcome at hstage h
  cases hstage with
  | malformed _ => exact absurd h (by simp [Except.map])
  | conflict _ _ => exact absurd h (by simp [Except.map])
  | cycle _ _ => exact absurd h (by simp [Except.map])
  | @found g order hfound =>
    refine ⟨g, order, hfound, ?_⟩
    rcases hfound.testEnds_cases with ⟨heq, -, -⟩ | ⟨⟨names, heq⟩, -⟩ | ⟨⟨names, heq⟩, -, -⟩
    · rw [heq] at h
      exact (Except.ok.inj h).symm
    · rw [heq] at h
      exact absurd h (by simp [Except.map])
    · rw [heq] at h
      exact absurd h (by simp [Except.map])

section Resolves

variable (h : resolve name candidates = .ok p)

include h

theorem name_of_resolve : p.name = name := by
  obtain ⟨g, order, -, rfl⟩ := exists_found_of_resolve h
  rfl

theorem admissible_of_resolve : Admissible candidates p.handlers := by
  obtain ⟨g, order, hfound, rfl⟩ := exists_found_of_resolve h
  exact hfound.admissible

theorem wellFormed_of_resolve : WellFormed name candidates := by
  obtain ⟨g, order, hfound, -⟩ := exists_found_of_resolve h
  exact hfound.wellFormed

end Resolves

/-- No constraint and no flag is on the handler, and no rule names it. -/
structure Free (candidates : List Descriptor) (d : Descriptor) : Prop where
  before : d.rule.before = none
  after : d.rule.after = none
  first : d.rule.first = false
  last : d.rule.last = false
  unnamed : ∀ e ∈ candidates,
    e.rule.before ≠ some d.localName ∧ e.rule.after ≠ some d.localName

/-- Only first handlers must precede a free one, and these must precede every free one. -/
theorem Free.mustPrecede_of_mustPrecede {c d e : Descriptor} (hc : c ∈ candidates)
    (hd : Free candidates d) (he : Free candidates e) (hmust : MustPrecede c d) :
    MustPrecede c e := by
  cases hmust with
  | after h => exact absurd (h.symm.trans hd.after) (by simp)
  | before h => exact absurd h (hd.unnamed c hc).1
  | first hfirst _ => exact .first hfirst he.first
  | last _ hlast => exact absurd (hlast.symm.trans hd.last) (by simp)

namespace Found

variable {g : Graph} {order : List Nat}

theorem lt_length (h : Found name candidates g order) {i : Nat} (hi : i ∈ order) :
    i < candidates.length :=
  List.mem_range.mp (h.perm.mem_iff.mp hi)

/-- Every admissible order is an order of places that is forward, and the greedy one is the least
of these. -/
theorem eq_or_lt (h : Found name candidates g order) {other : List Descriptor}
    (hother : Admissible candidates other) :
    other = seats candidates order ∨
      places candidates (seats candidates order) < places candidates other := by
  have hseats : seats candidates (places candidates other) = other :=
    seats_places hother.perm.subset
  have hperm := hother.perm_places h.nodup
  have hforward : (withFlags candidates g).Forward [] (places candidates other) := by
    refine (admissible_seats_iff h.nodup h.size h.edge hperm).mp ?_
    rwa [hseats]
  have hlength : order.length = (places candidates other).length :=
    (h.perm.trans hperm.symm).length_eq
  rw [places_seats h.nodup fun i hi => h.lt_length hi]
  rcases h.greedy.eq_or_lt hforward hlength with heq | hlt
  · exact Or.inl (by rw [← heq, hseats])
  · exact Or.inr hlt

/-- Free handlers stay in the order of their declaration. -/
theorem ahead_of_free (h : Found name candidates g order) {d e : Descriptor}
    (hd : Free candidates d) (he : Free candidates e) (hahead : Ahead candidates d e) :
    Ahead (seats candidates order) d e := by
  obtain ⟨i, hi⟩ := List.getElem?_of_mem hahead.mem_left
  obtain ⟨j, hj⟩ := List.getElem?_of_mem hahead.mem_right
  have hlt : i < j := by
    rw [← seats_range candidates] at hahead
    have hrange : Ahead (List.range candidates.length) i j :=
      ahead_of_ahead_seats h.nodup (fun k hk => List.mem_range.mp hk) hahead hi hj
    obtain ⟨front, back, hcut, hi, hj⟩ := hrange
    have hsorted : (List.range candidates.length).Pairwise (· < ·) := List.pairwise_lt_range
    rw [hcut] at hsorted
    exact (List.pairwise_append.mp hsorted).2.2 i hi j hj
  have hmem : ∀ k < candidates.length, k ∈ order := by
    intro k hk
    exact h.perm.mem_iff.mpr (List.mem_range.mpr hk)
  have hi_mem := hmem i (List.getElem?_eq_some_iff.mp hi).1
  have hj_mem := hmem j (List.getElem?_eq_some_iff.mp hj).1
  -- Only first handlers have to go ahead of either, and these go ahead of both.
  refine ahead_seats (h.greedy.ahead_of_preds hi_mem hj_mem hlt ?_) hi hj
  intro k hk
  rw [edge_withFlags_iff h.size h.edge] at hk ⊢
  obtain ⟨c, d', hc, hd', hmust⟩ := hk
  obtain rfl : d' = d := Option.some.inj (hd'.symm.trans hi)
  exact ⟨c, e, hc, hj, hd.mustPrecede_of_mustPrecede (List.mem_of_getElem? hc) he hmust⟩

end Found

/-- The handlers of a phase are the candidates, each once, in an order that satisfies every rule;
of all such orders it is the least, comparing places of the declaration; and handlers that no rule
concerns stay in the order of their declaration. -/
theorem resolve_least (h : resolve name candidates = .ok p) :
    p.name = name ∧ Admissible candidates p.handlers ∧
      (∀ other, Admissible candidates other →
        other = p.handlers ∨ places candidates p.handlers < places candidates other) ∧
      ∀ d e, Free candidates d → Free candidates e → Ahead candidates d e →
        Ahead p.handlers d e := by
  obtain ⟨g, order, hfound, rfl⟩ := exists_found_of_resolve h
  exact ⟨rfl, hfound.admissible, fun other hother => hfound.eq_or_lt hother,
    fun d e hd he hahead => hfound.ahead_of_free hd he hahead⟩

/-- Four handlers of which the third declared is to run first and the first one after the last. -/
def fourHandlers : List Descriptor :=
  [⟨⟨"", "audit"⟩, ⟨1, []⟩, .empty, ⟨"Security", none, some "verify", false, false⟩⟩,
   ⟨⟨"", "log"⟩, ⟨2, []⟩, .empty, .inPhase "Security"⟩,
   ⟨⟨"", "decrypt"⟩, ⟨3, []⟩, .empty, ⟨"Security", some "verify", none, true, false⟩⟩,
   ⟨⟨"", "verify"⟩, ⟨4, []⟩, .empty, .inPhase "Security"⟩]

theorem fourHandlers_least :
    resolve "Security" fourHandlers = .ok ⟨"Security", seats fourHandlers [2, 1, 3, 0]⟩ ∧
      Admissible fourHandlers (seats fourHandlers [2, 1, 3, 0]) := by
  have hok : resolve "Security" fourHandlers =
      .ok ⟨"Security", seats fourHandlers [2, 1, 3, 0]⟩ := by
    have hcheck : checkAll "Security" fourHandlers = .ok () := rfl
    have hgraph : declaredGraph "Security" fourHandlers = .ok [[], [], [3], [0]] := rfl
    have hcycle : Graph.findCycle? [[], [], [3], [0]] = none := by cbv
    rw [resolve_eq, resolveOrder_eq, hcheck, hgraph]
    simp only [Except.bind, hcycle]
    rfl
  exact ⟨hok, (resolve_least hok).2.1⟩

end Phase

end SoapPipeline
