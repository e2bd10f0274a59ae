import Mathlib.Data.Finset.Card
import Mathlib.Logic.Relation

/-!
# Searching a graph

A search with a stack and a set of visited nodes, over a graph in which finitely many nodes have successors. It ends,
and finds the target exactly if some node of the stack leads to it. An edge closes a cycle exactly if its end leads to
its start.
-/

namespace GraphSearch

open Relation

variable {V : Type*}

/-! ## Cycles -/

/-- No path leads back to where it began. -/
def Acyclic (r : V → V → Prop) : Prop := ∀ a, ¬TransGen r a a

/-- The relation with one more edge. -/
def WithEdge (r : V → V → Prop) (src dst a b : V) : Prop := r a b ∨ (a = src ∧ b = dst)

variable {r : V → V → Prop} {src dst : V}

theorem transGen_withEdge {a b : V} (h : TransGen (WithEdge r src dst) a b) :
    TransGen r a b ∨ (ReflTransGen r a src ∧ ReflTransGen r dst b) := by
  induction h with
  | single hstep =>
    rcases hstep with hstep | ⟨rfl, rfl⟩
    · exact .inl (.single hstep)
    · exact .inr ⟨.refl, .refl⟩
  | tail _ hstep ih =>
    rcases hstep with hstep | ⟨rfl, rfl⟩
    · exact ih.imp (fun h => h.tail hstep) fun h => ⟨h.1, h.2.tail hstep⟩
    · exact .inr ⟨ih.elim TransGen.to_reflTransGen And.left, .refl⟩

theorem not_acyclic_withEdge_iff (h : Acyclic r) : ¬Acyclic (WithEdge r src dst) ↔ ReflTransGen r dst src := by
  constructor
  · intro hcycle
    obtain ⟨a, ha⟩ := not_forall_not.mp hcycle
    rcases transGen_withEdge ha with hold | ⟨hto, hback⟩
    · exact absurd hold (h a)
    · exact hback.trans hto
  · intro hpath hacyclic
    exact hacyclic src (.head' (.inr ⟨rfl, rfl⟩) (hpath.lift id fun _ _ => .inl))

/-! ## The search -/

structure FiniteGraph (V : Type*) where
  next : V → List V
  nodes : Finset V
  next_eq_nil : ∀ v, v ∉ nodes → next v = []

variable [DecidableEq V] (g : FiniteGraph V) (target : V)

/-- One iteration of the loop: a result, or another stack, the top of which comes first, and another set. -/
def iteration : List V × Finset V → Bool ⊕ List V × Finset V
  | ([], _) => .inl false
  | (node :: stack, seen) =>
    if node = target then .inl true
    else if node ∈ seen then .inr (stack, seen)
    else .inr ((g.next node).reverse ++ stack, insert node seen)

theorem iteration_decreases {s s' : List V × Finset V} (h : iteration g target s = .inr s') :
    Prod.Lex (· < ·) (· < ·) ((g.nodes \ s'.2).card, s'.1.length) ((g.nodes \ s.2).card, s.1.length) := by
  obtain ⟨stack, seen⟩ := s
  cases stack with
  | nil => cases h
  | cons node stack =>
    simp only [iteration] at h
    split_ifs at h with _ hseen
    · cases h
      exact .right _ (Nat.lt_succ_self _)
    · cases h
      by_cases hnode : node ∈ g.nodes
      · refine .left _ _ (Finset.card_lt_card ?_)
        refine (Finset.ssubset_iff_of_subset (Finset.sdiff_subset_sdiff (le_refl _) (Finset.subset_insert node seen))).mpr ?_
        exact ⟨node, Finset.mem_sdiff.mpr ⟨hnode, hseen⟩, by simp⟩
      · have hsame : g.nodes \ insert node seen = g.nodes \ seen := by
          rw [Finset.sdiff_insert, Finset.erase_eq_of_notMem]
          exact fun hmem => hnode (Finset.mem_sdiff.mp hmem).1
        simp only [g.next_eq_nil node hnode, hsame]
        exact .right _ (Nat.lt_succ_self _)

def search (s : List V × Finset V) : Bool :=
  match h : iteration g target s with
  | .inl b => b
  | .inr s' => search s'
termination_by ((g.nodes \ s.2).card, s.1.length)
decreasing_by exact iteration_decreases g target h

/-- The search ends with this answer. -/
inductive Ends : List V × Finset V → Bool → Prop
  | result {s : List V × Finset V} {b : Bool} (h : iteration g target s = .inl b) : Ends s b
  | again {s s' : List V × Finset V} {b : Bool} (h : iteration g target s = .inr s') (hrest : Ends s' b) : Ends s b

theorem ends_search (s : List V × Finset V) : Ends g target s (search g target s) := by
  fun_induction search g target s with
  | case1 s b h => exact .result h
  | case2 s s' h ih => exact .again h ih

def Edge (a b : V) : Prop := b ∈ g.next a

/-- The visited nodes are not the target, and what follows them has been visited or waits. -/
structure Closed (s : List V × Finset V) : Prop where
  target_notMem : target ∉ s.2
  next_mem : ∀ a ∈ s.2, ∀ b, Edge g a b → b ∈ s.2 ∨ b ∈ s.1

variable {g target}

omit [DecidableEq V] in
theorem Closed.exists_waiting {s : List V × Finset V} (h : Closed g target s) {a : V} (hpath : ReflTransGen (Edge g) a target)
    (ha : a ∈ s.2) : ∃ v ∈ s.1, ReflTransGen (Edge g) v target := by
  induction hpath using ReflTransGen.head_induction_on with
  | refl => exact absurd ha h.target_notMem
  | head hedge hrest ih =>
    rcases h.next_mem _ ha _ hedge with hseen | hwaits
    · exact ih hseen
    · exact ⟨_, hwaits, hrest⟩

theorem Ends.iff_reaches {s : List V × Finset V} {b : Bool} (hends : Ends g target s b) (h : Closed g target s) :
    b = true ↔ ∃ v ∈ s.1, ReflTransGen (Edge g) v target := by
  induction hends with
  | @result s b hstep =>
    obtain ⟨stack, seen⟩ := s
    cases stack with
    | nil =>
      cases hstep
      simp
    | cons node stack =>
      simp only [iteration] at hstep
      split_ifs at hstep with hnode
      cases hstep
      exact iff_of_true rfl ⟨node, List.mem_cons_self, hnode ▸ .refl⟩
  | @again s s' b hstep _ ih =>
    obtain ⟨stack, seen⟩ := s
    cases stack with
    | nil => cases hstep
    | cons node stack =>
      simp only [iteration] at hstep
      split_ifs at hstep with hnode hseen
      · cases hstep
        have hclosed : Closed g target (stack, seen) := by
          refine ⟨h.target_notMem, fun a ha b hedge => ?_⟩
          rcases h.next_mem a ha b hedge with hb | hb
          · exact .inl hb
          · rcases List.mem_cons.mp hb with rfl | hb
            · exact .inl hseen
            · exact .inr hb
        rw [ih hclosed, List.exists_mem_cons_iff]
        exact ⟨.inr, fun hreach => hreach.elim (fun hpath => hclosed.exists_waiting hpath hseen) id⟩
      · cases hstep
        have hclosed : Closed g target ((g.next node).reverse ++ stack, insert node seen) := by
          constructor
          · rw [Finset.mem_insert, not_or]
            exact ⟨fun heq => hnode heq.symm, h.target_notMem⟩
          · intro a ha b hedge
            rw [Finset.mem_insert, List.mem_append, List.mem_reverse]
            rcases Finset.mem_insert.mp ha with rfl | ha
            · exact .inr (.inl hedge)
            · rcases h.next_mem a ha b hedge with hb | hb
              · exact .inl (.inr hb)
              · exact (List.mem_cons.mp hb).imp .inl .inr
        rw [ih hclosed]
        constructor
        · rintro ⟨v, hv, hpath⟩
          rcases List.mem_append.mp hv with hv | hv
          · exact ⟨node, List.mem_cons_self, .head (List.mem_reverse.mp hv) hpath⟩
          · exact ⟨v, List.mem_cons_of_mem node hv, hpath⟩
        · rintro ⟨v, hv, hpath⟩
          rcases List.mem_cons.mp hv with rfl | hv
          · exact hclosed.exists_waiting hpath (Finset.mem_insert_self v seen)
          · exact ⟨v, List.mem_append_right _ hv, hpath⟩

theorem search_iff (start : V) : search g target ([start], ∅) = true ↔ ReflTransGen (Edge g) start target := by
  have hclosed : Closed g target ([start], ∅) := ⟨Finset.notMem_empty target, fun a ha => absurd ha (Finset.notMem_empty a)⟩
  rw [(ends_search g target ([start], ∅)).iff_reaches hclosed]
  simp

omit [DecidableEq V] in
/-- Along an edge of a graph without cycles fewer nodes can be reached. -/
theorem exists_rank (h : Acyclic (Edge g)) : ∃ rank : V → ℕ, ∀ a b, Edge g a b → rank b < rank a := by
  classical
  refine ⟨fun a => (g.nodes.filter (ReflTransGen (Edge g) a)).card, fun a b hedge => ?_⟩
  have ha : a ∈ g.nodes := by
    by_contra hmem
    rw [Edge, g.next_eq_nil a hmem] at hedge
    cases hedge
  refine Finset.card_lt_card ((Finset.ssubset_iff_of_subset fun v hv => ?_).mpr ⟨a, ?_, fun hback => ?_⟩)
  · obtain ⟨hnode, hpath⟩ := Finset.mem_filter.mp hv
    exact Finset.mem_filter.mpr ⟨hnode, hpath.head hedge⟩
  · exact Finset.mem_filter.mpr ⟨ha, .refl⟩
  · exact h a (.head' hedge (Finset.mem_filter.mp hback).2)

end GraphSearch
