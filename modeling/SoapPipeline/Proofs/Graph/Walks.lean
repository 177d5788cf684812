/-
  SoapPipeline.Proofs.Graph.Walks

  Edges, walks and what the search for a path decides.

  A walk follows edges from node to node, so the nodes that a node reaches are
  those in the reflexive and transitive closure of the edge relation.  A graph
  is acyclic when no walk of at least one edge leads back to where it began.

  Main results:
    * `reaches_iff`: the stack search answers whether a walk exists;
    * `isChain_iff_pairwise`: a sequence is a chain when every element reaches
      every later one;
    * `Acyclic.of_layers`: edges that climb from layer to layer close no cycle.
-/
import Mathlib.Logic.Relation
import Mathlib.Tactic.ByContra
import SoapPipeline.Graph

namespace SoapPipeline

namespace Graph

open Relation

variable {g : Graph} {a b : Nat}

/-! ## Edges -/

/-- An edge leads from `a` to `b`. -/
def Edge (g : Graph) (a b : Nat) : Prop := b ∈ g.successors a

/-- No edge leaves the graph. -/
def InRange (g : Graph) : Prop := ∀ a b, g.Edge a b → b < g.size

/-- No walk of at least one edge leads back to where it began. -/
def Acyclic (g : Graph) : Prop := ∀ a, ¬ TransGen g.Edge a a

@[simp] theorem mem_nodes : a ∈ g.nodes ↔ a < g.size := List.mem_range

theorem nodup_nodes (g : Graph) : g.nodes.Nodup := List.nodup_range

theorem successors_eq_nil (h : g.size ≤ a) : g.successors a = [] := by
  unfold successors
  rw [List.getD_eq_getElem?_getD, List.getElem?_eq_none h]
  rfl

theorem Edge.lt (h : g.Edge a b) : a < g.size := by
  rcases Nat.lt_or_ge a g.size with hlt | hge
  · exact hlt
  · unfold Edge at h
    rw [successors_eq_nil hge] at h
    exact absurd h List.not_mem_nil

/-- No edge leaves the graph when all successors are nodes. -/
theorem inRange_iff : g.InRange ↔ ∀ row ∈ g, ∀ next ∈ row, next < g.size := by
  have hedge : ∀ a b, g.Edge a b ↔ ∃ row, g[a]? = some row ∧ b ∈ row := by
    intro a b
    unfold Edge successors
    rw [List.getD_eq_getElem?_getD]
    cases g[a]? <;> simp
  constructor
  · intro hg row hrow next hnext
    obtain ⟨a, ha⟩ := List.mem_iff_getElem?.mp hrow
    exact hg a next ((hedge a next).mpr ⟨row, ha, hnext⟩)
  · intro hrows a b hab
    obtain ⟨row, hrow, hb⟩ := (hedge a b).mp hab
    exact hrows row (List.mem_of_getElem? hrow) b hb

/-- The edges that leave the nodes are all edges. -/
theorem flatMap_successors_nodes (g : Graph) : g.nodes.flatMap g.successors = g.flatten := by
  have hmap : g.nodes.map g.successors = g := by
    refine List.ext_getElem (by simp [nodes, size]) ?_
    intro i hi hi'
    simp [nodes, successors, hi']
  rw [List.flatMap_def, hmap]

/-- Edges that stay in their layer or climb, and that belong to an acyclic graph when
they stay, close no cycle: a cycle could not climb. -/
theorem Acyclic.of_layers {wide : Graph} (layer : Nat → Nat) (hg : g.Acyclic)
    (hedge : ∀ a b, wide.Edge a b → layer a < layer b ∨ (layer a = layer b ∧ g.Edge a b)) :
    wide.Acyclic := by
  -- Along a walk the layer never falls, and as long as it stays the walk is one of `g`.
  have hwalk : ∀ a b, TransGen wide.Edge a b →
      layer a < layer b ∨ (layer a = layer b ∧ TransGen g.Edge a b) := by
    intro a b hab
    induction hab with
    | single h =>
      rcases hedge _ _ h with hlt | ⟨heq, h⟩
      · exact Or.inl hlt
      · exact Or.inr ⟨heq, TransGen.single h⟩
    | tail _ h ih =>
      rcases ih with hlt | ⟨heq, hac⟩ <;> rcases hedge _ _ h with hlt' | ⟨heq', h⟩
      · exact Or.inl (Nat.lt_trans hlt hlt')
      · exact Or.inl (heq' ▸ hlt)
      · exact Or.inl (heq ▸ hlt')
      · exact Or.inr ⟨heq.trans heq', hac.tail h⟩
  intro a ha
  rcases hwalk a a ha with hlt | ⟨-, hcycle⟩
  · exact absurd hlt (Nat.lt_irrefl _)
  · exact hg a hcycle

/-! ## The search for a path -/

/-- A search that succeeds has a node on its stack from which a walk leads to the target. -/
theorem exists_walk_of_searchFor {target : Nat} {fresh stack : List Nat}
    (h : searchFor g target fresh stack = true) :
    ∃ node ∈ stack, ReflTransGen g.Edge node target := by
  fun_induction searchFor g target fresh stack with
  | case1 fresh => exact absurd h Bool.false_ne_true
  | case2 fresh stack => exact ⟨target, List.mem_cons_self, ReflTransGen.refl⟩
  | case3 fresh node stack hne hfresh ih =>
    obtain ⟨next, hnext, hwalk⟩ := ih h
    rcases List.mem_append.mp hnext with hsucc | hstack
    · have hedge : g.Edge node next := List.mem_reverse.mp hsucc
      exact ⟨node, List.mem_cons_self, ReflTransGen.head hedge hwalk⟩
    · exact ⟨next, List.mem_cons_of_mem node hstack, hwalk⟩
  | case4 fresh node stack hne hfresh ih =>
    obtain ⟨next, hnext, hwalk⟩ := ih h
    exact ⟨next, List.mem_cons_of_mem node hnext, hwalk⟩

/-- What a search for `target` has settled: the nodes of `seen` are not the target, and
their successors are settled too or wait on the stack. -/
structure Settled (g : Graph) (target : Nat) (stack : List Nat) (seen : Nat → Prop) : Prop where
  ne_target : ∀ node, seen node → node ≠ target
  closed : ∀ node next, seen node → g.Edge node next → next ∈ stack ∨ seen next

/-- What waits or is settled does so still when the top of the stack has been settled. -/
theorem waits_or_settled {top m : Nat} {stack stack' : List Nat} {seen : Nat → Prop}
    (hstack : ∀ n ∈ stack, n ∈ stack') (h : m ∈ top :: stack ∨ seen m) :
    m ∈ stack' ∨ seen m ∨ m = top := by
  rcases h with hm | hm
  · rcases List.mem_cons.mp hm with rfl | hm
    · exact Or.inr (Or.inr rfl)
    · exact Or.inl (hstack m hm)
  · exact Or.inr (Or.inl hm)

/-- The top of the stack is settled once its successors wait or are settled. -/
theorem Settled.expand {target node : Nat} {stack stack' : List Nat} {seen : Nat → Prop}
    (h : Settled g target (node :: stack) seen) (hne : node ≠ target)
    (hstack : ∀ m ∈ stack, m ∈ stack')
    (hnext : ∀ m, g.Edge node m → m ∈ stack' ∨ seen m ∨ m = node) :
    Settled g target stack' (fun n => seen n ∨ n = node) := by
  refine ⟨?_, ?_⟩
  · intro n hall
    rcases hall with hn | rfl
    · exact h.ne_target n hn
    · exact hne
  · intro n m hall hedge
    rcases hall with hn | rfl
    · exact waits_or_settled hstack (h.closed n m hn hedge)
    · exact hnext m hedge

/-- A search that fails has no walk to the target from its stack or from what it settled.
Nodes that are neither fresh nor settled have no edges. -/
theorem no_walk_of_searchFor {target : Nat} {fresh stack : List Nat}
    (h : searchFor g target fresh stack = false) :
    ∀ seen : Nat → Prop, Settled g target stack seen →
      (∀ node, node ∉ fresh → seen node ∨ ∀ next, ¬ g.Edge node next) →
      ∀ node, node ∈ stack ∨ seen node → ¬ ReflTransGen g.Edge node target := by
  -- The induction follows the search; at every step `seen` grows by the top of the stack.
  fun_induction searchFor g target fresh stack with
  | case1 fresh =>
    -- Nothing waits, so what is settled is closed under edges and misses the target.
    intro seen hseen _ node hnode hwalk
    have hstay : ∀ m, ReflTransGen g.Edge node m → seen m := by
      intro m hm
      induction hm with
      | refl => exact hnode.resolve_left List.not_mem_nil
      | tail _ hedge ih => exact (hseen.closed _ _ ih hedge).resolve_left List.not_mem_nil
    exact hseen.ne_target target (hstay target hwalk) rfl
  | case2 fresh stack => exact absurd h.symm Bool.false_ne_true
  | case3 fresh top stack hne hfresh ih =>
    intro seen hseen hrest node hnode
    have hstack : ∀ m ∈ stack, m ∈ (g.successors top).reverse ++ stack :=
      fun m hm => List.mem_append_right _ hm
    refine ih h (fun n => seen n ∨ n = top) ?_ ?_ node (waits_or_settled hstack hnode)
    · refine hseen.expand hne hstack fun m hm => ?_
      exact Or.inl (List.mem_append_left _ (List.mem_reverse.mpr hm))
    · -- Only the top has ceased to be fresh, and it is settled now.
      intro n hn
      by_cases htop : n = top
      · exact Or.inl (Or.inr htop)
      · have hn' : n ∉ fresh := fun hmem => hn ((List.mem_erase_of_ne htop).mpr hmem)
        exact (hrest n hn').imp Or.inl id
  | case4 fresh top stack hne hfresh ih =>
    intro seen hseen hrest node hnode
    have hstack : ∀ m ∈ stack, m ∈ stack := fun m hm => hm
    refine ih h (fun n => seen n ∨ n = top) ?_ ?_ node (waits_or_settled hstack hnode)
    · refine hseen.expand hne hstack fun m hm => ?_
      -- A node that is not fresh was settled before, or has no edges.
      rcases hrest top hfresh with htop | htop
      · exact waits_or_settled hstack (hseen.closed top m htop hm)
      · exact absurd hm (htop m)
    · intro n hn
      exact (hrest n hn).imp Or.inl id

/-- The search for a path answers whether a walk, possibly of no edge, leads from one node to
the other. -/
theorem reaches_iff : g.reaches a b = true ↔ ReflTransGen g.Edge a b := by
  unfold reaches
  constructor
  · intro h
    obtain ⟨node, hnode, hwalk⟩ := exists_walk_of_searchFor h
    rw [List.mem_singleton] at hnode
    exact hnode ▸ hwalk
  · intro hwalk
    by_contra hfail
    rw [Bool.not_eq_true] at hfail
    refine no_walk_of_searchFor hfail (fun _ => False) ?_ ?_ a ?_ hwalk
    · exact ⟨fun _ h => h.elim, fun _ _ h => h.elim⟩
    · intro node hnode
      refine Or.inr fun next hedge => hnode ?_
      exact mem_nodes.mpr hedge.lt
    · exact Or.inl (List.mem_singleton_self a)

/-! ## Chains -/

theorem reaches_trans {c : Nat} (hab : g.reaches a b = true) (hbc : g.reaches b c = true) :
    g.reaches a c = true := by
  rw [reaches_iff] at hab hbc ⊢
  exact hab.trans hbc

/-- In a chain every element reaches every later one. -/
theorem isChain_iff_pairwise {l : List Nat} :
    g.isChain l = true ↔ l.Pairwise fun a b => g.reaches a b = true := by
  fun_induction isChain g l with
  | case1 a b rest ih =>
    rw [Bool.and_eq_true, ih]
    constructor
    · intro hall
      obtain ⟨hab, hrest⟩ := hall
      refine List.pairwise_cons.mpr ⟨?_, hrest⟩
      -- The head reaches its neighbour, and from there on the chain reaches the rest.
      intro c hc
      rcases List.mem_cons.mp hc with rfl | hc
      · exact hab
      · exact reaches_trans hab ((List.pairwise_cons.mp hrest).1 c hc)
    · intro h
      obtain ⟨ha, hrest⟩ := List.pairwise_cons.mp h
      exact ⟨ha b List.mem_cons_self, hrest⟩
  | case2 l hl =>
    rcases l with - | ⟨a, - | ⟨b, rest⟩⟩
    · simp
    · simp
    · exact absurd rfl (hl a b rest)

/-- A sequence that is no chain has neighbours of which the first does not reach the second. -/
theorem exists_gap_of_not_isChain {l : List Nat} (h : g.isChain l = false) :
    ∃ front a b back, l = front ++ a :: b :: back ∧ g.reaches a b = false := by
  fun_induction isChain g l with
  | case1 a b rest ih =>
    rcases Bool.and_eq_false_iff.mp h with hab | hrest
    · exact ⟨[], a, b, rest, rfl, hab⟩
    · obtain ⟨front, x, y, back, hsplit, hgap⟩ := ih hrest
      exact ⟨a :: front, x, y, back, by rw [hsplit, List.cons_append], hgap⟩
  | case2 l hl => exact absurd h.symm Bool.false_ne_true

end Graph

end SoapPipeline
