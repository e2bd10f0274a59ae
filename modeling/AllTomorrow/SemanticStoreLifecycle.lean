import AllTomorrow.ExecutionRefHistory

/-!
# Terminal statuses and completion evidence

Over every run of the store in which records are created fresh, a terminal status
is final, `terminal_at` is set exactly at a terminal status, and every SUCCEEDED
Work has a stored outcome that was verified for it.
-/

namespace AllTomorrow

open InsertionDict (forall_set get?_set_of_ne get?_set_self)

open InMemoryStore

def StoreOp.CreatesDefaultStatus : StoreOp → Prop
  | .createGoal goal _ => goal.status = .active
  | .createWork work _ => work.status = .pending
  | .createRun run _ => run.status = .starting
  | _ => True

/-- Records are created with their default status and without a terminal instant. -/
def StoreOp.CreatesFresh : StoreOp → Prop
  | .createGoal goal _ => goal.status = .active ∧ goal.terminalAt = none
  | .createWork work _ => work.status = .pending ∧ work.terminalAt = none
  | .createRun run _ => run.status = .starting ∧ run.terminalAt = none
  | _ => True

def InMemoryStore.VerifiedOutcome (s : InMemoryStore) (workId : WorkId) : Prop :=
  ∃ o, s.outcomes.get? workId = some o ∧ o.targetType = .work ∧ o.targetId = workId.val ∧
    o.status = .satisfied ∧ o.evidence.isSome = true

structure InMemoryStore.Lifecycle (s : InMemoryStore) : Prop where
  goal_terminal : ∀ k g, s.goals.get? k = some g → (g.terminalAt.isSome = true ↔ g.status ∈ terminalGoalStatuses)
  work_terminal : ∀ k w, s.work.get? k = some w → (w.terminalAt.isSome = true ↔ w.status ∈ terminalWorkStatuses)
  run_terminal : ∀ k r, s.runs.get? k = some r → (r.terminalAt.isSome = true ↔ r.status ∈ terminalRunStatuses)
  succeeded_outcome : ∀ k w, s.work.get? k = some w → w.status = .succeeded → s.VerifiedOutcome k

/-- Whatever is terminal in the first state has the same status in the second. -/
structure FinalStatuses (s s' : InMemoryStore) : Prop where
  goal : ∀ k g, s.goals.get? k = some g → g.status ∈ terminalGoalStatuses →
    ∃ g', s'.goals.get? k = some g' ∧ g'.status = g.status
  work : ∀ k w, s.work.get? k = some w → w.status ∈ terminalWorkStatuses →
    ∃ w', s'.work.get? k = some w' ∧ w'.status = w.status
  run : ∀ k r, s.runs.get? k = some r → r.status ∈ terminalRunStatuses →
    ∃ r', s'.runs.get? k = some r' ∧ r'.status = r.status

/-- Along a sequence of calls terminal statuses are final, and the state it ends in is consistent. -/
def LifecycleLaw (calls : List StoreCall) : Prop :=
  (∀ earlier later, calls = earlier ++ later →
    FinalStatuses (MachineRuns.run storeStep .empty earlier) (MachineRuns.run storeStep .empty calls)) ∧
  (MachineRuns.run storeStep .empty calls).Lifecycle

variable {env : Supply} {s : InMemoryStore} {op : StoreOp} {r : EStateM.Result Exn InMemoryStore op.Result}

theorem InMemoryStore.lifecycle_empty : InMemoryStore.empty.Lifecycle := by
  constructor <;> intro k v h <;> simp [InMemoryStore.empty] at h

theorem GoalRecord.moved_terminalAt (env : Supply) (goal : GoalRecord) (target : GoalStatus) :
    (goal.moved env target).terminalAt.isSome = true ↔ (goal.moved env target).status ∈ terminalGoalStatuses := by
  by_cases h : target ∈ terminalGoalStatuses <;> simp [GoalRecord.moved, h]

theorem WorkRecord.moved_terminalAt (env : Supply) (work : WorkRecord) (target : WorkStatus) :
    (work.moved env target).terminalAt.isSome = true ↔ (work.moved env target).status ∈ terminalWorkStatuses := by
  by_cases h : target ∈ terminalWorkStatuses <;> simp [WorkRecord.moved, h]

theorem RunRecord.moved_terminalAt (env : Supply) (run : RunRecord) (target : RunStatus) (ref : Option ExecutionRef) :
    (run.moved env target ref).terminalAt.isSome = true ↔ (run.moved env target ref).status ∈ terminalRunStatuses := by
  by_cases h : target ∈ terminalRunStatuses <;> simp [RunRecord.moved, h]

theorem Effect.lifecycle (h : Effect env s op r) (hs : s.WellFormed) (hfresh : op.CreatesFresh)
    (hl : s.Lifecycle) : r.state.Lifecycle := by
  cases h with
  | raised e => exact hl
  | read v hv => exact hl
  | eventAppended event he => exact ⟨hl.goal_terminal, hl.work_terminal, hl.run_terminal, hl.succeeded_outcome⟩
  | eventRepeated event => exact hl
  | goalCreated goal event hnew =>
    refine ⟨forall_set hl.goal_terminal ?_, hl.work_terminal, hl.run_terminal,
      hl.succeeded_outcome⟩
    rw [hfresh.1, hfresh.2]
    decide
  | goalMoved hget hterm hmem =>
    exact ⟨forall_set hl.goal_terminal (GoalRecord.moved_terminalAt _ _ _), hl.work_terminal,
      hl.run_terminal, hl.succeeded_outcome⟩
  | workCreated work event hnew hgoal =>
    refine ⟨hl.goal_terminal, forall_set hl.work_terminal ?_, hl.run_terminal,
      forall_set hl.succeeded_outcome ?_⟩
    · rw [hfresh.1, hfresh.2]
      decide
    · intro hsucceeded
      rw [hfresh.1] at hsucceeded
      cases hsucceeded
  | workMoved hget hterm hmem htarget =>
    refine ⟨hl.goal_terminal, forall_set hl.work_terminal (WorkRecord.moved_terminalAt _ _ _),
      hl.run_terminal, forall_set hl.succeeded_outcome ?_⟩
    exact fun hsucceeded => absurd hsucceeded htarget
  | @workSucceeded workId event evidence current outcome hget hterm hmem htype hid hstatus hev =>
    refine ⟨hl.goal_terminal, forall_set hl.work_terminal (WorkRecord.moved_terminalAt _ _ _),
      hl.run_terminal, ?_⟩
    have hnew : (s.outcomes.set workId outcome).get? workId = some outcome := get?_set_self _ _ _
    refine forall_set ?_ fun _ => ⟨outcome, hnew, htype, hid, hstatus, hev⟩
    intro k w hw hsucceeded
    by_cases hk : k = workId
    · subst hk
      exact ⟨outcome, hnew, htype, hid, hstatus, hev⟩
    · obtain ⟨o, ho, hrest⟩ := hl.succeeded_outcome k w hw hsucceeded
      exact ⟨o, (get?_set_of_ne _ _ hk).trans ho, hrest⟩
  | runCreated run event hnew hwork hactive =>
    refine ⟨hl.goal_terminal, hl.work_terminal, forall_set hl.run_terminal ?_,
      hl.succeeded_outcome⟩
    rw [hfresh.1, hfresh.2]
    decide
  | refAttached hget hrev hnone =>
    have hrun := hl.run_terminal _ _ hget
    exact ⟨hl.goal_terminal, hl.work_terminal, forall_set hl.run_terminal hrun,
      hl.succeeded_outcome⟩
  | refReattached hget hrev hsome hsame => exact hl
  | runMoved hget hrev hterm hmem =>
    exact ⟨hl.goal_terminal, hl.work_terminal,
      forall_set hl.run_terminal (RunRecord.moved_terminalAt _ _ _ _), hl.succeeded_outcome⟩
  | workClaimed limit =>
    refine ⟨hl.goal_terminal, forall_claimed env limit hs hl.work_terminal ?_, hl.run_terminal,
      forall_claimed env limit hs hl.succeeded_outcome ?_⟩
    · exact fun k w env' hw hpending => w.moved_terminalAt env' .running
    · intro k w env' hw hpending hsucceeded
      cases hsucceeded
  | questionCreated question hnew hclash =>
    exact ⟨hl.goal_terminal, hl.work_terminal, hl.run_terminal, hl.succeeded_outcome⟩
  | questionAnswered hget hpending =>
    exact ⟨hl.goal_terminal, hl.work_terminal, hl.run_terminal, hl.succeeded_outcome⟩

/-! ## Terminal statuses are final -/

section Final

variable {κ ν S : Type} [DecidableEq κ] {d : InsertionDict κ ν} {status : ν → S} {terminal : List S}

private theorem final_set {k : κ} {u : ν} (hk : ∀ v, d.get? k = some v → status v ∉ terminal) {j : κ} {v : ν}
    (hv : d.get? j = some v) (hterm : status v ∈ terminal) : ∃ v', (d.set k u).get? j = some v' ∧ status v' = status v := by
  have hne : j ≠ k := by
    rintro rfl
    exact hk v hv hterm
  exact ⟨v, (d.get?_set_of_ne u hne).trans hv, rfl⟩

private theorem not_terminal_of_get? {k : κ} {cur : ν} (hget : d.get? k = some cur)
    (hterm : status cur ∉ terminal) (v : ν) (hv : d.get? k = some v) : status v ∉ terminal := by
  rw [hget, Option.some.injEq] at hv
  exact hv ▸ hterm

private theorem not_terminal_of_none {k : κ} (hget : d.get? k = none) (v : ν) (hv : d.get? k = some v) :
    status v ∉ terminal := by
  rw [hget] at hv
  cases hv

end Final

theorem FinalStatuses.refl (s : InMemoryStore) : FinalStatuses s s :=
  ⟨fun _ g hg _ => ⟨g, hg, rfl⟩, fun _ w hw _ => ⟨w, hw, rfl⟩, fun _ r hr _ => ⟨r, hr, rfl⟩⟩

theorem FinalStatuses.trans {a b c : InMemoryStore} (hab : FinalStatuses a b) (hbc : FinalStatuses b c) :
    FinalStatuses a c where
  goal k g hg hterm := by
    obtain ⟨g', hg', heq⟩ := hab.goal k g hg hterm
    obtain ⟨g'', hg'', heq'⟩ := hbc.goal k g' hg' (heq ▸ hterm)
    exact ⟨g'', hg'', heq'.trans heq⟩
  work k w hw hterm := by
    obtain ⟨w', hw', heq⟩ := hab.work k w hw hterm
    obtain ⟨w'', hw'', heq'⟩ := hbc.work k w' hw' (heq ▸ hterm)
    exact ⟨w'', hw'', heq'.trans heq⟩
  run k r hr hterm := by
    obtain ⟨r', hr', heq⟩ := hab.run k r hr hterm
    obtain ⟨r'', hr'', heq'⟩ := hbc.run k r' hr' (heq ▸ hterm)
    exact ⟨r'', hr'', heq'.trans heq⟩

theorem Effect.goal_final (h : Effect env s op r) {k : GoalId} {g : GoalRecord} (hg : s.goals.get? k = some g)
    (hterm : g.status ∈ terminalGoalStatuses) : ∃ g', r.state.goals.get? k = some g' ∧ g'.status = g.status := by
  cases h with
  | goalCreated goal event hnew => exact final_set (not_terminal_of_none hnew) hg hterm
  | goalMoved hget hlive hmem => exact final_set (not_terminal_of_get? hget hlive) hg hterm
  | _ => exact ⟨g, hg, rfl⟩

theorem Effect.work_final (h : Effect env s op r) (hs : s.WellFormed) {k : WorkId} {w : WorkRecord}
    (hw : s.work.get? k = some w) (hterm : w.status ∈ terminalWorkStatuses) :
    ∃ w', r.state.work.get? k = some w' ∧ w'.status = w.status := by
  cases h with
  | workCreated work event hnew hgoal => exact final_set (not_terminal_of_none hnew) hw hterm
  | workMoved hget hlive hmem htarget => exact final_set (not_terminal_of_get? hget hlive) hw hterm
  | workSucceeded hget hlive hmem htype hid hstatus hev =>
    exact final_set (not_terminal_of_get? hget hlive) hw hterm
  | workClaimed limit =>
    obtain ⟨w', hw'⟩ := exists_get?_setAllWork ⟨w, hw⟩ (claimedRecords env (s.claimCandidates limit))
    refine ⟨w', hw', ?_⟩
    -- a claim only moves PENDING Works
    have hclaim := forall_claimed env limit
      (P := fun j v => ∀ u, s.work.get? j = some u → u.status ∈ terminalWorkStatuses → v.status = u.status) hs
      (fun j v hv u hu _ => by rw [Option.some.inj (hv.symm.trans hu)])
      (fun j v env' hv hpending u hu huterm => by
        rw [← Option.some.inj (hv.symm.trans hu), hpending] at huterm
        exact absurd huterm (by decide))
    exact hclaim k w' hw' w hw hterm
  | _ => exact ⟨w, hw, rfl⟩

theorem Effect.run_final (h : Effect env s op r) {k : RunId} {x : RunRecord} (hx : s.runs.get? k = some x)
    (hterm : x.status ∈ terminalRunStatuses) : ∃ x', r.state.runs.get? k = some x' ∧ x'.status = x.status := by
  cases h with
  | runCreated run event hnew hwork hactive => exact final_set (not_terminal_of_none hnew) hx hterm
  | @refAttached runId rev ref event current hget hrev hnone =>
    -- a late attach keeps the status, also a terminal one
    by_cases hk : k = runId
    · subst hk
      rw [hget, Option.some.injEq] at hx
      subst hx
      exact ⟨_, get?_set_self _ _ _, rfl⟩
    · exact ⟨x, (get?_set_of_ne _ _ hk).trans hx, rfl⟩
  | runMoved hget hrev hlive hmem => exact final_set (not_terminal_of_get? hget hlive) hx hterm
  | _ => exact ⟨x, hx, rfl⟩

theorem finalStatuses_step (s : InMemoryStore) (c : StoreCall) (hs : s.WellFormed) : FinalStatuses s (storeStep s c) := by
  have h := exec_effect c.env hs c.op
  exact ⟨fun _ _ => h.goal_final, fun _ _ => h.work_final hs, fun _ _ => h.run_final⟩

theorem lifecycle_run {calls : List StoreCall} (hfresh : ∀ c ∈ calls, c.op.CreatesFresh) {s : InMemoryStore}
    (hs : s.WellFormed) (hl : s.Lifecycle) : (MachineRuns.run storeStep s calls).Lifecycle := by
  induction calls generalizing s with
  | nil => exact hl
  | cons c calls ih =>
    have hc := hfresh c List.mem_cons_self
    exact ih (fun d hd => hfresh d (List.mem_cons_of_mem c hd)) (wellFormed_step s c hs)
      ((exec_effect c.env hs c.op).lifecycle hs hc hl)

/-- For every run in which records are created fresh: terminal statuses are final,
`terminal_at` is set exactly at a terminal status, and every SUCCEEDED Work has its
verified outcome. -/
theorem lifecycleLaw_of_fresh (calls : List StoreCall) (hfresh : ∀ c ∈ calls, c.op.CreatesFresh) :
    LifecycleLaw calls := by
  refine ⟨?_, lifecycle_run hfresh InMemoryStore.wellFormed_empty InMemoryStore.lifecycle_empty⟩
  rintro earlier later rfl
  have hs : (MachineRuns.run storeStep .empty earlier).WellFormed := StoreReachable.wellFormed ⟨earlier, rfl⟩
  rw [MachineRuns.run_append]
  exact MachineRuns.relation_run (P := fun _ _ => True) wellFormed_step FinalStatuses.refl
    FinalStatuses.trans (fun s c hs _ => finalStatuses_step s c hs) hs fun _ _ _ _ => trivial

def sampleEvidence : CompletionEvidence :=
  ⟨"c", "e", "1", .empty, [], [], 0, by decide, by decide, by decide⟩

def succeedingCalls : List StoreCall :=
  seedCalls ++ [⟨.claimPendingWork 1, frozenSupply⟩,
     ⟨.transitionWorkStatus ⟨"work_1"⟩ .succeeded 2 sampleEvent (some (.completion sampleEvidence)), frozenSupply⟩]

theorem succeedingCalls_lifecycleLaw :
    (∀ c ∈ succeedingCalls, c.op.CreatesFresh) ∧
      ((MachineRuns.run storeStep .empty succeedingCalls).work.get? ⟨"work_1"⟩).map WorkRecord.status =
        some .succeeded ∧
      LifecycleLaw succeedingCalls := by
  have hfresh : ∀ c ∈ succeedingCalls, c.op.CreatesFresh := by
    intro c hc
    simp only [succeedingCalls, seedCalls, List.cons_append, List.nil_append, List.mem_cons,
      List.not_mem_nil, or_false] at hc
    rcases hc with rfl | rfl | rfl | rfl | rfl
    · exact ⟨rfl, rfl⟩
    · exact ⟨rfl, rfl⟩
    · exact ⟨rfl, rfl⟩
    · trivial
    · trivial
  exact ⟨hfresh, by decide, lifecycleLaw_of_fresh succeedingCalls hfresh⟩

/-- An ACTIVE Goal may be created with a terminal instant already set. -/
theorem default_status_not_enough :
    ¬∀ calls : List StoreCall, (∀ c ∈ calls, c.op.CreatesDefaultStatus) → LifecycleLaw calls := by
  intro h
  have hlaw := h [⟨.createGoal { sampleGoal with terminalAt := some 0 } sampleEvent, frozenSupply⟩] (by
    intro c hc
    rw [List.mem_singleton] at hc
    subst hc
    rfl)
  have hgoal := hlaw.2.goal_terminal ⟨"goal_1"⟩ { sampleGoal with terminalAt := some 0 } rfl
  revert hgoal
  decide

end AllTomorrow
