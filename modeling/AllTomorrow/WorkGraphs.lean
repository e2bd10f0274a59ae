import AllTomorrow.DomainRecords
import AllTomorrow.GraphSearch
import AllTomorrow.MachineRuns
import AllTomorrow.RaisingState

/-!
# Dependencies between Works

`WorkGraph` of `work_graph.py`: relations between Works, of which the dependencies form no cycle.
-/

namespace AllTomorrow.WorkGraphs

open GraphSearch Relation

inductive WorkRelation where
  | parent | dependsOn | blocks | supersedes | generatedBy
  deriving DecidableEq

inductive DependencyOutcome where
  | pending | succeeded | failed
  deriving DecidableEq

inductive DependentState where
  | ready | waitingDependency | blockedByFailure
  deriving DecidableEq

structure SetOrder where
  list : Finset String → List String
  mem_list : ∀ s x, x ∈ list s ↔ x ∈ s

structure WorkGraph where
  depends : InsertionDict String (Finset String) := .empty
  rel : List (String × WorkRelation × String) := []

namespace WorkGraph

variable (g : WorkGraph) (order : SetOrder)

/-- `_depends.get(node, ())` -/
def dependencies (workId : String) : Finset String := (g.depends.get? workId).getD ∅

theorem dependencies_of_notMem {workId : String} (h : workId ∉ (g.depends.entries.map Prod.fst).toFinset) :
    g.dependencies workId = ∅ := by
  rw [List.mem_toFinset, InsertionDict.mem_keys_iff, not_exists] at h
  rw [dependencies, Option.eq_none_iff_forall_ne_some.mpr h, Option.getD_none]

theorem list_empty (s : Finset String) (h : s = ∅) : order.list s = [] :=
  List.eq_nil_iff_forall_not_mem.mpr fun x hx => Finset.notMem_empty x (h ▸ (order.mem_list s x).mp hx)

def dependencyGraph : FiniteGraph String where
  next v := order.list (g.dependencies v)
  nodes := (g.depends.entries.map Prod.fst).toFinset
  next_eq_nil _ hv := list_empty order _ (g.dependencies_of_notMem hv)

def wouldCycle (src dst : String) : Bool :=
  if src = dst then true else search (g.dependencyGraph order) src ([dst], ∅)

def addRelation (src : String) (rel : WorkRelation) (dst : String) : EStateM Exn WorkGraph Unit := do
  if rel = .dependsOn then
    if (← get).wouldCycle order src dst then
      throw (.foreign "CycleError" s!"depends_on {src}->{dst} would create a cycle")
    modify fun g => { g with depends := g.depends.set src (insert dst (g.dependencies src)) }
  modify fun g => { g with rel := g.rel ++ [(src, rel, dst)] }

def resolveState (workId : String) (outcomes : InsertionDict String DependencyOutcome) : DependentState :=
  let deps := g.dependencies workId
  if deps = ∅ then .ready
  else
    let statuses := (order.list deps).map fun d => (outcomes.get? d).getD .pending
    if statuses.any (· = .failed) then .blockedByFailure
    else if statuses.all (· = .succeeded) then .ready
    else .waitingDependency

/-- `b` is among the dependencies of `a`. -/
def DependsOn (a b : String) : Prop := b ∈ g.dependencies a

variable {g order}

theorem edge_dependencyGraph : Edge (g.dependencyGraph order) = g.DependsOn := by
  funext a b
  exact propext (order.mem_list _ b)

theorem wouldCycle_iff {src dst : String} : g.wouldCycle order src dst = true ↔ ReflTransGen g.DependsOn dst src := by
  unfold wouldCycle
  split
  · rename_i hsame
    exact iff_of_true rfl (hsame ▸ .refl)
  · rw [search_iff, edge_dependencyGraph]

theorem addRelation_cases (order : SetOrder) (src : String) (rel : WorkRelation) (dst : String) :
    (rel = .dependsOn ∧ g.wouldCycle order src dst = true ∧ ∃ e, (addRelation order src rel dst).run g = .error e g) ∨
      (rel = .dependsOn ∧ g.wouldCycle order src dst = false ∧ ∃ g', (addRelation order src rel dst).run g = .ok () g' ∧
        g'.DependsOn = WithEdge g.DependsOn src dst) ∨
      (rel ≠ .dependsOn ∧ ∃ g', (addRelation order src rel dst).run g = .ok () g' ∧ g'.DependsOn = g.DependsOn) := by
  by_cases hrel : rel = .dependsOn
  · cases hcycle : g.wouldCycle order src dst with
    | true =>
      refine .inl ⟨hrel, rfl, .foreign "CycleError" s!"depends_on {src}->{dst} would create a cycle", ?_⟩
      simp [addRelation, hrel, hcycle]
    | false =>
      refine .inr (.inl ⟨hrel, rfl, ⟨g.depends.set src (insert dst (g.dependencies src)), g.rel ++ [(src, rel, dst)]⟩, ?_, ?_⟩)
      · simp [addRelation, hrel, hcycle]
      · funext a b
        simp only [DependsOn, WithEdge, dependencies, InsertionDict.get?_set]
        by_cases ha : a = src
        · simp [ha, or_comm]
        · simp [ha]
  · exact .inr (.inr ⟨hrel, ⟨g.depends, g.rel ++ [(src, rel, dst)]⟩, by simp [addRelation, hrel], rfl⟩)

theorem ready_iff {workId : String} {outcomes : InsertionDict String DependencyOutcome} :
    g.resolveState order workId outcomes = .ready ↔ ∀ d, g.DependsOn workId d → outcomes.get? d = some .succeeded := by
  have hsucceeded (d : String) : (outcomes.get? d).getD .pending = .succeeded ↔ outcomes.get? d = some .succeeded := by
    cases outcomes.get? d <;> simp
  simp only [resolveState, DependsOn]
  split_ifs with hdeps hfailed hall
  · simp [hdeps]
  · simp only [List.any_map, List.any_eq_true, Function.comp_apply, decide_eq_true_eq] at hfailed
    obtain ⟨d, hd, hstatus⟩ := hfailed
    refine iff_of_false (by decide) fun h => ?_
    rw [h d ((order.mem_list _ d).mp hd)] at hstatus
    cases hstatus
  · simp only [List.all_map, List.all_eq_true, Function.comp_apply, decide_eq_true_eq, hsucceeded, order.mem_list] at hall
    exact iff_of_true rfl hall
  · simp only [List.all_map, List.all_eq_true, Function.comp_apply, decide_eq_true_eq, hsucceeded, order.mem_list] at hall
    exact iff_of_false (by decide) hall

/-- A call of `add_relation`, with the order that the sets have in it. -/
structure Call where
  order : SetOrder
  src : String
  rel : WorkRelation
  dst : String

def step (g : WorkGraph) (c : Call) : WorkGraph := ((addRelation c.order c.src c.rel c.dst).run g).state

theorem acyclic_step (h : Acyclic g.DependsOn) (c : Call) : Acyclic (g.step c).DependsOn := by
  rcases addRelation_cases (g := g) c.order c.src c.rel c.dst with
    ⟨_, _, e, hrun⟩ | ⟨_, hfree, g', hrun, hedge⟩ | ⟨_, g', hrun, hsame⟩
  · rwa [step, hrun]
  · rw [step, hrun, EStateM.Result.state_ok, hedge]
    by_contra hcycle
    rw [not_acyclic_withEdge_iff h, ← @wouldCycle_iff g c.order, hfree] at hcycle
    cases hcycle
  · rwa [step, hrun, EStateM.Result.state_ok, hsame]

theorem acyclic_run (calls : List Call) : Acyclic (MachineRuns.run step {} calls).DependsOn := by
  refine MachineRuns.invariant_run (I := fun g : WorkGraph => Acyclic g.DependsOn) (fun _ c h => acyclic_step h c) ?_ calls
  intro a hcycle
  obtain ⟨b, hb, _⟩ := TransGen.head'_iff.mp hcycle
  exact Finset.notMem_empty b hb

theorem rejected_iff (h : Acyclic g.DependsOn) (order : SetOrder) (src dst : String) :
    (∃ e g', (addRelation order src .dependsOn dst).run g = .error e g') ↔ ¬Acyclic (WithEdge g.DependsOn src dst) := by
  rw [not_acyclic_withEdge_iff h, ← @wouldCycle_iff _ order]
  rcases addRelation_cases (g := g) order src .dependsOn dst with
    ⟨_, hcycle, e, hrun⟩ | ⟨_, hfree, g', hrun, _⟩ | ⟨hrel, _⟩
  · exact iff_of_true ⟨e, _, hrun⟩ hcycle
  · rw [hrun, hfree]
    simp
  · exact absurd rfl hrel

theorem eq_of_rejected {g' : WorkGraph} {src dst : String} {rel : WorkRelation} {e : Exn}
    (h : (addRelation order src rel dst).run g = .error e g') : g' = g := by
  rcases addRelation_cases (g := g) order src rel dst with ⟨_, _, e', hrun⟩ | ⟨_, _, g'', hrun, _⟩ | ⟨_, g'', hrun, _⟩
  · rw [hrun] at h
    cases h
    rfl
  · rw [hrun] at h
    cases h
  · rw [hrun] at h
    cases h

theorem dependsOn_of_accepted {g' : WorkGraph} {src dst : String} {rel : WorkRelation}
    (h : (addRelation order src rel dst).run g = .ok () g') :
    g'.DependsOn = if rel = .dependsOn then WithEdge g.DependsOn src dst else g.DependsOn := by
  rcases addRelation_cases (g := g) order src rel dst with
    ⟨_, _, e, hrun⟩ | ⟨hrel, _, g'', hrun, hedge⟩ | ⟨hrel, g'', hrun, hsame⟩
  · rw [hrun] at h
    cases h
  · rw [hrun] at h
    cases h
    rw [if_pos hrel, hedge]
  · rw [hrun] at h
    cases h
    rw [if_neg hrel, hsame]

/-- After any calls the dependencies form no cycle; a further one is rejected exactly if it closes one; a rejected call
changes nothing, an accepted one adds its edge if it is a dependency and else leaves the dependencies; the search ends on
every graph; and a Work is ready exactly if what it depends on has succeeded. -/
theorem dependencies_acyclic (calls : List Call) :
    Acyclic (MachineRuns.run step {} calls).DependsOn ∧
      (∀ order src dst, (∃ e g', (addRelation order src .dependsOn dst).run (MachineRuns.run step {} calls) = .error e g') ↔
        ¬Acyclic (WithEdge (MachineRuns.run step {} calls).DependsOn src dst)) ∧
      (∀ (g g' : WorkGraph) order src rel dst e, (addRelation order src rel dst).run g = .error e g' → g' = g) ∧
      (∀ (g g' : WorkGraph) order src rel dst, (addRelation order src rel dst).run g = .ok () g' →
        g'.DependsOn = if rel = .dependsOn then WithEdge g.DependsOn src dst else g.DependsOn) ∧
      (∀ (g : WorkGraph) order src dst, Ends (g.dependencyGraph order) src ([dst], ∅)
        (search (g.dependencyGraph order) src ([dst], ∅))) ∧
      ∀ order workId outcomes, (MachineRuns.run step {} calls).resolveState order workId outcomes = .ready ↔
        ∀ d, (MachineRuns.run step {} calls).DependsOn workId d → outcomes.get? d = some .succeeded := by
  refine ⟨acyclic_run calls, rejected_iff (acyclic_run calls), ?_, ?_, ?_, fun order workId outcomes => ready_iff⟩
  · intro g g' order src rel dst e h
    exact eq_of_rejected h
  · intro g g' order src rel dst h
    exact dependsOn_of_accepted h
  · intro g order src dst
    exact ends_search _ _ _

/-- After any calls and whatever has been done, a Work that is not ready waits, directly or not, for one that is ready and
has not succeeded. -/
theorem never_stuck (calls : List Call) (order : SetOrder) (workId : String)
    (outcomes : InsertionDict String DependencyOutcome) :
    (MachineRuns.run step {} calls).resolveState order workId outcomes = .ready ∨
      ∃ d, TransGen (MachineRuns.run step {} calls).DependsOn workId d ∧ outcomes.get? d ≠ some .succeeded ∧
        (MachineRuns.run step {} calls).resolveState order d outcomes = .ready := by
  generalize hrun : MachineRuns.run step {} calls = g
  obtain ⟨rank, hrank⟩ := @exists_rank _ (g.dependencyGraph order) (by
    rw [edge_dependencyGraph, ← hrun]
    exact acyclic_run calls)
  rw [edge_dependencyGraph] at hrank
  induction hn : rank workId using Nat.strong_induction_on generalizing workId with
  | _ n ih =>
    refine or_iff_not_imp_left.mpr fun hnotReady => ?_
    rw [ready_iff] at hnotReady
    push Not at hnotReady
    obtain ⟨d, hd, hopen⟩ := hnotReady
    rcases ih _ (hn ▸ hrank _ _ hd) d rfl with hready | ⟨d', hpath, hd'⟩
    · exact ⟨d, .single hd, hopen, hready⟩
    · exact ⟨d', .head hd hpath, hd'⟩

end WorkGraph

end AllTomorrow.WorkGraphs
