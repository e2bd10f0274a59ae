import AllTomorrow.ServiceRuns
import AllTomorrow.WorkClaims

/-!
# Cancelling a Goal

`ExecutionService.cancel_goal` beside any other clients of the store: which child
Works it closes, what becomes of their Questions, and which Works can still be
claimed after it has returned.
-/

namespace AllTomorrow

open InsertionDict (get?_set_self mem_values_of_get?)
open MachineRuns (EveryStep everyStep_cons run_append)

open InMemoryStore Prog

def closedWorkStatuses : List WorkStatus := [.succeeded, .failed, .cancelled, .cancelRequested]

def WorkClosed (k : WorkId) (s : InMemoryStore) : Prop :=
  ∃ w, s.work.get? k = some w ∧ w.status ∈ closedWorkStatuses

def NoPendingQuestion (k : WorkId) (s : InMemoryStore) : Prop :=
  ∀ q ∈ s.questions.values, q.workId = some k → q.status ≠ .pending

/-- Every Work that the Goal had at the start is closed at the end and has no PENDING Question. -/
def CancellationPropagated (goalId : GoalId) (start finish : InMemoryStore) : Prop :=
  ∀ k w, start.work.get? k = some w → w.goalId = goalId → WorkClosed k finish ∧ NoPendingQuestion k finish

def StoreOp.Asks (k : WorkId) : StoreOp → Prop
  | .createQuestion q => q.workId = some k ∧ q.status = .pending
  | _ => False

variable {s : InMemoryStore} {k : WorkId}

/-! ## What a store call keeps -/

theorem workTransitions_closed {status target : WorkStatus} (hclosed : status ∈ closedWorkStatuses)
    (hmem : target ∈ workTransitions status) : target ∈ closedWorkStatuses := by
  revert hclosed hmem
  cases status <;> cases target <;> decide

variable (c : StoreCall)

theorem workClosed_step (hs : s.WellFormed) (h : WorkClosed k s) : WorkClosed k (storeStep s c) := by
  obtain ⟨w, hw, hclosed⟩ := h
  obtain ⟨op, env⟩ := c
  have hchange := work_change_step ⟨op, env⟩ hs k
  unfold WorkClosed
  generalize (storeStep s ⟨op, env⟩).work.get? k = after at hchange ⊢
  cases hchange with
  | kept => exact ⟨w, hw, hclosed⟩
  | created hkey hfresh hgoal => exact absurd (hw.symm.trans hfresh) (by simp)
  | moved hget hmem =>
    rw [hw, Option.some.injEq] at hget
    subst hget
    exact ⟨_, rfl, workTransitions_closed hclosed hmem⟩
  | claimed hget hmem env' =>
    rw [hw, Option.some.injEq] at hget
    subst hget
    rw [(claimCandidates_pending hmem).2] at hclosed
    exact absurd hclosed (by decide)

theorem noPendingQuestion_step (hs : s.WellFormed) (hc : ¬c.op.Asks k) (h : NoPendingQuestion k s) :
    NoPendingQuestion k (storeStep s c) := by
  intro q hq hwork
  obtain ⟨j, hj⟩ := InsertionDict.mem_values_iff.mp hq
  obtain ⟨op, env⟩ := c
  have hchange := question_change_step ⟨op, env⟩ hs j
  rw [hj] at hchange
  generalize hafter : some q = after at hchange
  cases hchange with
  | kept => exact h q (mem_values_of_get? hafter.symm) hwork
  | created hkey hfresh hclash =>
    cases hafter
    exact fun hpending => hc ⟨hwork, hpending⟩
  | answered hget hpending =>
    cases hafter
    simp [QuestionRecordSemantic.answered]

/-- The Work is still the record that was read, or it has been moved since. -/
def Tracked (read : WorkRecord) (s : InMemoryStore) : Prop :=
  ∃ w, s.work.get? read.workId = some w ∧ (w = read ∨ read.revision < w.revision)

theorem tracked_step {read : WorkRecord} (hs : s.WellFormed) (h : Tracked read s) : Tracked read (storeStep s c) := by
  obtain ⟨w, hw, hread⟩ := h
  obtain ⟨op, env⟩ := c
  have hle : read.revision ≤ w.revision := by
    rcases hread with rfl | hlt
    · exact le_refl _
    · exact hlt.le
  have hchange := work_change_step ⟨op, env⟩ hs read.workId
  unfold Tracked
  generalize (storeStep s ⟨op, env⟩).work.get? read.workId = after at hchange ⊢
  cases hchange with
  | kept => exact ⟨w, hw, hread⟩
  | created hkey hfresh hgoal => exact absurd (hw.symm.trans hfresh) (by simp)
  | moved hget hmem =>
    rw [hw, Option.some.injEq] at hget
    subst hget
    exact ⟨_, rfl, .inr (Int.lt_add_one_of_le hle)⟩
  | claimed hget hmem env' =>
    rw [hw, Option.some.injEq] at hget
    subst hget
    exact ⟨_, rfl, .inr (Int.lt_add_one_of_le hle)⟩

/-! ## Propagation -/

/-- The listed Works that `cancel_goal` moves. -/
def openWorkStatuses : List WorkStatus := [.pending, .running, .waiting]

/-- What is left to do for a child Work while the loop has `rest` before it. -/
def ToBeClosed (k : WorkId) (rest : List WorkRecord) (s : InMemoryStore) : Prop :=
  NoPendingQuestion k s ∧ (WorkClosed k s ∨ ∃ w ∈ rest, w.workId = k ∧ w.status ∈ openWorkStatuses ∧ Tracked w s)

variable {rest : List WorkRecord}

theorem toBeClosed_step (hs : s.WellFormed) (hc : ¬c.op.Asks k)
    (h : ToBeClosed k rest s) : ToBeClosed k rest (storeStep s c) := by
  refine ⟨noPendingQuestion_step c hs hc h.1, ?_⟩
  rcases h.2 with hclosed | ⟨w, hw, hkey, hopen, htracked⟩
  · exact .inl (workClosed_step c hs hclosed)
  · exact .inr ⟨w, hw, hkey, hopen, tracked_step c hs htracked⟩

variable {w : WorkRecord}

theorem cancelTarget_mem (h : w.status ∈ openWorkStatuses) :
    ExecutionService.cancelTarget w ∈ workTransitions w.status ∧ ExecutionService.cancelTarget w ≠ .succeeded ∧
      ExecutionService.cancelTarget w ∈ closedWorkStatuses := by
  revert h
  unfold ExecutionService.cancelTarget
  cases w.status <;> decide

/-- The transition of a visit is made on the revision that was listed, or on a closed Work. -/
def VisitMatches (k : WorkId) (s : InMemoryStore) : ServiceAction → Prop
  | .store (.transitionWorkStatus workId _ rev _ _) _ =>
    workId = k → (∃ w, s.work.get? k = some w ∧ w.revision = rev) ∨ WorkClosed k s
  | _ => True

variable {π : Type}

/-- How `cancel_goal` counts on the others for one child Work. -/
def cancelContract (π : Type) (k : WorkId) : Contract ServiceAction (ServiceWorld π) :=
  clientContract (fun _ c => ¬c.op.Asks k) (fun w a => VisitMatches k w.store a) fun _ _ => True

theorem stable_toBeClosed (rest : List WorkRecord) : Stable (cancelContract π k) fun w => ToBeClosed k rest w.store :=
  stable_of_calls fun _ c hs hc h => toBeClosed_step c hs hc h

variable {event : SemanticEvent}

/-- A visit of the loop leaves a listed child Work closed. -/
theorem toBeClosed_visit {env : Supply}
    (hs : s.WellFormed) (hopen : w.status ∈ openWorkStatuses) (h : ToBeClosed k (w :: rest) s)
    (hvisit : w.workId = k → (∃ v, s.work.get? k = some v ∧ v.revision = w.revision) ∨ WorkClosed k s) : ToBeClosed k rest
      (storeStep s ⟨.transitionWorkStatus w.workId (ExecutionService.cancelTarget w) w.revision event none, env⟩) := by
  have hkeep := toBeClosed_step
    ⟨.transitionWorkStatus w.workId (ExecutionService.cancelTarget w) w.revision event none, env⟩ hs id h
  refine ⟨hkeep.1, ?_⟩
  rcases h.2 with hclosed | ⟨v, hv, hkey, hvopen, hread⟩
  · exact .inl (workClosed_step _ hs hclosed)
  · rcases List.mem_cons.mp hv with rfl | hrest
    · rcases hvisit hkey with ⟨u, hu, hrev⟩ | hclosed
      · obtain ⟨u', hu', hsame⟩ := hread
        rw [hkey, hu, Option.some.injEq] at hu'
        subst hu'
        rcases hsame with rfl | hlt
        · obtain ⟨hmem, hne, htarget⟩ := cancelTarget_mem hvopen
          have hrun := run_transitionWorkStatus env event none hu hmem hne
          left
          refine ⟨u.moved (env.sub 0) (ExecutionService.cancelTarget u), ?_, htarget⟩
          rw [storeStep, StoreCall.result, StoreOp.exec, hkey, hrun, EStateM.Result.state_ok,
            get?_set_self]
        · omega
      · exact .inl (workClosed_step _ hs hclosed)
    · exact .inr ⟨v, hrest, hkey, hvopen, tracked_step _ hs hread⟩

variable {ext : Externals π} (service : ExecutionService)

/-- What a visit of an open child keeps, and the passing by of another, the loop keeps. -/
theorem triple_cancelEach {c : Contract ServiceAction (ServiceWorld π)} {I : List WorkRecord → InMemoryStore → Prop}
    (hstable : ∀ rest, Stable c fun w => I rest w.store)
    (hvisit : ∀ w rest event env (world : ServiceWorld π), w.status ∈ openWorkStatuses → I (w :: rest) world.store →
      let op := .transitionWorkStatus w.workId (ExecutionService.cancelTarget w) w.revision event none
      c.assume world (.store op env) → c.guar world (.store op env) ∧ I rest (storeStep world.store ⟨op, env⟩))
    (hskip : ∀ w rest s, w.status ∉ openWorkStatuses → I (w :: rest) s → I rest s) (goalId : GoalId)
    (children : List WorkRecord) (env : Supply) :
    Triple (ServiceWorld.handler ext) c (fun w => I children w.store) (service.cancelEach goalId children env)
      (fun _ w => I [] w.store) (fun _ _ => False) := by
  induction children generalizing env with
  | nil => exact triple_pure (hstable []) fun _ h => h
  | cons w rest ih =>
    unfold ExecutionService.cancelEach
    split
    · rename_i hlisted
      have hopen : w.status ∈ openWorkStatuses := by
        rcases hlisted with h | h | h <;> rw [h] <;> decide
      refine Triple.bind (Triple.attempt_const (triple_callStore_const (hstable _) (hstable rest) ?_) (hstable rest))
        (fun _ => stable_const _) ?_
      · exact fun world => hvisit w rest _ _ world hopen
      · intro moved
        refine Triple.bind (ih (env.sub 2)) (fun _ => stable_const _) ?_
        intro cancelled
        cases moved with
        | ok _ => exact triple_pure (hstable []) fun _ h => h
        | error _ => exact triple_pure (hstable []) fun _ h => h
    · rename_i hlisted
      exact (ih (env.sub 2)).weaken fun world => hskip w rest world.store (by simpa [openWorkStatuses] using hlisted)

theorem cancelEach_closes (goalId : GoalId) (children : List WorkRecord) (env : Supply) :
    Triple (ServiceWorld.handler ext) (cancelContract π k) (fun w => ToBeClosed k children w.store)
      (service.cancelEach goalId children env) (fun _ w => ToBeClosed k [] w.store) (fun _ _ => False) := by
  refine triple_cancelEach service stable_toBeClosed ?_ ?_ goalId children env
  · exact fun w rest event env world hopen h hassume => ⟨trivial, toBeClosed_visit hassume.1 hopen h hassume.2⟩
  · rintro w rest s hlisted ⟨hquestion, hclosed | ⟨v, hv, hkey, hopen, hread⟩⟩
    · exact ⟨hquestion, .inl hclosed⟩
    · rcases List.mem_cons.mp hv with rfl | hrest
      · exact absurd hopen hlisted
      · exact ⟨hquestion, .inr ⟨v, hrest, hkey, hopen, hread⟩⟩

/-- The Work stands under the Goal, and none of its Questions is PENDING. -/
def ChildOf (goalId : GoalId) (k : WorkId) (s : InMemoryStore) : Prop :=
  NoPendingQuestion k s ∧ ∃ w, s.work.get? k = some w ∧ w.goalId = goalId

theorem childOf_step {goalId : GoalId} (hs : s.WellFormed) (hc : ¬c.op.Asks k)
    (h : ChildOf goalId k s) : ChildOf goalId k (storeStep s c) := by
  refine ⟨noPendingQuestion_step c hs hc h.1, ?_⟩
  obtain ⟨_, w, hw, hgoal⟩ := h
  obtain ⟨op, env⟩ := c
  have hchange := work_change_step ⟨op, env⟩ hs k
  generalize (storeStep s ⟨op, env⟩).work.get? k = after at hchange ⊢
  cases hchange with
  | kept => exact ⟨w, hw, hgoal⟩
  | created hkey hfresh _ => exact absurd (hw.symm.trans hfresh) (by simp)
  | moved hget hmem =>
    rw [hw, Option.some.injEq] at hget
    exact ⟨_, rfl, hget ▸ hgoal⟩
  | claimed hget hmem env' =>
    rw [hw, Option.some.injEq] at hget
    exact ⟨_, rfl, hget ▸ hgoal⟩

theorem stable_childOf (goalId : GoalId) : Stable (cancelContract π k) fun w => ChildOf goalId k w.store :=
  stable_of_calls fun _ c hs hc h => childOf_step c hs hc h

theorem toBeClosed_listWork {goalId : GoalId} (hs : s.WellFormed) (h : ChildOf goalId k s) :
    ToBeClosed k (s.listWork goalId) s := by
  obtain ⟨hquestion, w, hw, hgoal⟩ := h
  refine ⟨hquestion, ?_⟩
  have hkey := hs.work_key k w hw
  by_cases hclosed : w.status ∈ closedWorkStatuses
  · exact .inl ⟨w, hw, hclosed⟩
  · right
    refine ⟨w, ?_, hkey, ?_, w, by rw [hkey]; exact hw, .inl rfl⟩
    · exact List.mem_filter.mpr ⟨mem_values_of_get? hw, by simpa using hgoal⟩
    · revert hclosed
      cases w.status <;> decide

theorem cancelGoal_closes (goalId : GoalId) (rev : ℤ) (env : Supply) :
    Triple (ServiceWorld.handler ext) (cancelContract π k) (fun w => ChildOf goalId k w.store)
      (service.cancelGoal env goalId rev) (fun _ w => ToBeClosed k [] w.store) (fun _ _ => True) := by
  refine Triple.bind (Q := fun _ w => ChildOf goalId k w.store) ?_ (fun _ => stable_const _) fun _ => ?_
  · refine (triple_callStore_const (stable_childOf goalId) (stable_childOf goalId) ?_).conseq (fun _ _ h => h)
      fun _ _ _ => trivial
    exact fun world hworld hassume => ⟨trivial, childOf_step _ hassume.1 id hworld⟩
  · refine Triple.bind (Q := fun children w => ToBeClosed k children w.store) ?_ (fun _ => stable_const _)
      fun children => (cancelEach_closes service goalId children (env.sub 3)).conseq (fun _ _ h => h) fun _ _ h => h.elim
    refine triple_callStore (stable_childOf goalId) (fun children => stable_toBeClosed children)
      (fun _ => stable_const _) ?_
    intro world hworld hassume
    exact ⟨trivial, toBeClosed_listWork hassume.1 hworld⟩

section Runs

variable {ι : Type} [DecidableEq ι]

/-- Nobody gets in the way of a cancellation that client `i` makes along a schedule: no child Work
has a PENDING Question at its start, no other client asks one of them anything, and whenever
a child Work is visited it still has the revision that was listed or is closed already. -/
structure CancelUndisturbed (ext : Externals π) (goalId : GoalId) (i : ι) (p : ServicePool ι π)
    (schedule : List ι) : Prop where
  answered : ∀ k w, p.state.store.work.get? k = some w → w.goalId = goalId → NoPendingQuestion k p.state.store
  others : EveryStep (serviceStep ext) (fun q j => j ≠ i → ∀ op env, q.Requests j (.store op env) →
    ∀ k w, p.state.store.work.get? k = some w → w.goalId = goalId → ¬op.Asks k) p schedule
  visits : EveryStep (serviceStep ext) (fun q j => j = i → ∀ a, q.Requests i a →
    ∀ k w, p.state.store.work.get? k = some w → w.goalId = goalId → VisitMatches k q.state.store a) p schedule

/-- A cancellation that returns has closed every child Work it found, and left none of them a
PENDING Question, whenever nobody got in its way. -/
theorem cancellation_propagates {ext : Externals π} {clients : Clients ι} {world : ServiceWorld π}
    (hreach : StoreReachable world.store) {i : ι} {service : ExecutionService} {goalId : GoalId} {rev : ℤ}
    (hcall : clients.call i = .cancelGoal service goalId rev) (before after : List ι) (hfirst : i ∉ before)
    (hfree : CancelUndisturbed ext goalId i (MachineRuns.run (serviceStep ext) (clients.pool world) before)
      (i :: after))
    (hreturn : (MachineRuns.run (serviceStep ext) (clients.pool world) (before ++ i :: after)).threads i =
      .done (.ok ())) :
    CancellationPropagated goalId (MachineRuns.run (serviceStep ext) (clients.pool world) before).state.store
      (MachineRuns.run (serviceStep ext) (clients.pool world) (before ++ i :: after)).state.store := by
  intro k w hw hgoal
  rw [run_append] at hreturn ⊢
  have hreach' := reachable_serviceRun ext (p := clients.pool world) hreach before
  have hthread : (MachineRuns.run (serviceStep ext) (clients.pool world) before).threads i =
      ((clients.call i).task (clients.env i)).run := Pool.run_other _ hfirst
  generalize MachineRuns.run (serviceStep ext) (clients.pool world) before = p at *
  have htask : Triple (ServiceWorld.handler ext) (cancelContract π k) (fun w => ChildOf goalId k w.store)
      ((clients.call i).task (clients.env i)) (fun _ w => ToBeClosed k [] w.store) (fun _ _ => True) := by
    rw [hcall]
    exact Triple.bind (cancelGoal_closes service goalId rev _) (fun _ => stable_const _)
      fun _ => triple_pure (stable_toBeClosed []) fun _ h => h
  have hmeets := htask p.state ⟨hfree.answered k w hw hgoal, w, hw, hgoal⟩
  rw [← hthread] at hmeets
  have hrespects : EveryStep (serviceStep ext)
      (Respects (ServiceWorld.handler ext) (cancelContract π k) i) p (i :: after) := by
    refine everyStep_respects ext hreach' ?_ ?_
    · exact fun earlier j later hsplit hj a ha => hfree.visits earlier j later hsplit hj a ha k w hw hgoal
    · exact fun earlier j later hsplit hj op env ha =>
        hfree.others earlier j later hsplit hj op env ha k w hw hgoal
  have hend := hmeets.run hrespects
  change Meets _ _ _ ((MachineRuns.run (serviceStep ext) p (i :: after)).threads i) _ at hend
  rw [hreturn] at hend
  obtain ⟨hquestion, hclosed | ⟨v, hv, _⟩⟩ := hend.done
  · exact ⟨hclosed, hquestion⟩
  · cases hv

end Runs

def cancelPool (store : InMemoryStore) : ServicePool ℕ Unit :=
  (sampleClients [.cancelGoal ⟨3, executorActor⟩ ⟨"goal_1"⟩ 1]).pool (sampleWorld store)

/-- The Goal is moved, its Works are listed and the one Work is visited. -/
def cancelRun (store : InMemoryStore) : ServicePool ℕ Unit :=
  MachineRuns.run (serviceStep (sampleExternals none (.ok "h"))) (cancelPool store) [0, 0, 0]

theorem question_pending_after_cancellation : (cancelRun waitingStore).threads 0 = .done (.ok ()) ∧
      ¬CancellationPropagated ⟨"goal_1"⟩ (cancelPool waitingStore).state.store
        (cancelRun waitingStore).state.store := by
  refine ⟨rfl, ?_⟩
  intro h
  have hwork : ∃ w, waitingStore.work.get? ⟨"work_1"⟩ = some w ∧ w.goalId = ⟨"goal_1"⟩ := ⟨_, rfl, rfl⟩
  obtain ⟨w, hw, hgoal⟩ := hwork
  have hvalues : (cancelRun waitingStore).state.store.questions.values = [sampleQuestion] := rfl
  have hnone := (h ⟨"work_1"⟩ w hw hgoal).2 sampleQuestion
  rw [hvalues] at hnone
  exact hnone List.mem_cons_self rfl rfl

/-- The cancellation of a Goal whose one Work is PENDING. -/
theorem cancellation_of_seeded_goal : StoreReachable seededStore ∧
      CancellationPropagated ⟨"goal_1"⟩ (cancelPool seededStore).state.store (cancelRun seededStore).state.store := by
  have hreach : StoreReachable seededStore := ⟨seedCalls, rfl⟩
  refine ⟨hreach, cancellation_propagates hreach rfl [] [0, 0] List.not_mem_nil ?_ rfl⟩
  refine ⟨?_, ?_, ?_⟩
  · intro k w _ _ q hq
    exact absurd hq List.not_mem_nil
  · intro earlier j later hsplit hj
    have hmem : j ∈ [0, 0, 0] := hsplit ▸ List.mem_append_right earlier List.mem_cons_self
    simp only [List.mem_cons, List.not_mem_nil, or_false, or_self] at hmem
    exact absurd hmem hj
  · rw [everyStep_cons, everyStep_cons, everyStep_cons]
    refine ⟨?_, ?_, ?_, MachineRuns.everyStep_nil⟩
    · intro _ a ha k w _ _
      rw [ha.eq rfl]
      trivial
    · intro _ a ha k w _ _
      rw [ha.eq rfl]
      trivial
    · intro _ a ha k w _ _
      rw [ha.eq rfl]
      rintro rfl
      exact .inl ⟨_, rfl, rfl⟩

/-! ## Claims after a cancellation -/

/-- Of the Works of the Goal only those of the list may be PENDING, as they stand in it. -/
def PendingListed (goalId : GoalId) (rest : List WorkRecord) (s : InMemoryStore) : Prop :=
  ∀ k w, s.work.get? k = some w → w.goalId = goalId → w.status = .pending → w ∈ rest

def StoreOp.AddsPending (goalId : GoalId) : StoreOp → Prop
  | .createWork work _ => work.goalId = goalId ∧ work.status = .pending
  | _ => False

variable {goalId : GoalId}

theorem pending_before {c : StoreCall} (hs : s.WellFormed)
    (hw : (storeStep s c).work.get? k = some w) (hpending : w.status = .pending) :
    s.work.get? k = some w ∨ c.op.AddsPending w.goalId := by
  obtain ⟨op, env⟩ := c
  have hchange := work_change_step ⟨op, env⟩ hs k
  rw [hw] at hchange
  generalize hafter : some w = after at hchange
  cases hchange with
  | kept => exact .inl rfl
  | created hkey hfresh hgoal =>
    cases hafter
    exact .inr ⟨rfl, hpending⟩
  | @moved v target event evidence hget hmem =>
    cases hafter
    change target = .pending at hpending
    exact absurd (hpending ▸ hmem) (pending_not_mem_workTransitions _)
  | claimed hget hmem env' =>
    cases hafter
    exact absurd hpending (by simp [WorkRecord.moved])

theorem pendingListed_step (hs : s.WellFormed)
    (hc : ¬c.op.AddsPending goalId) (h : PendingListed goalId rest s) : PendingListed goalId rest (storeStep s c) := by
  intro k w hw hgoal hpending
  rcases pending_before hs hw hpending with hold | hadds
  · exact h k w hold hgoal hpending
  · exact absurd (hgoal ▸ hadds) hc

/-- How `cancel_goal` counts on the others once it has listed the Works. -/
def listedContract (π : Type) (goalId : GoalId) : Contract ServiceAction (ServiceWorld π) :=
  clientContract (fun _ c => ¬c.op.AddsPending goalId) (fun _ _ => True) fun _ _ => True

theorem stable_pendingListed (rest : List WorkRecord) :
    Stable (listedContract π goalId) fun w => PendingListed goalId rest w.store :=
  stable_of_calls fun _ c hs hc h => pendingListed_step c hs hc h

theorem pendingListed_visit {env : Supply}
    (hs : s.WellFormed) (hopen : w.status ∈ openWorkStatuses) (h : PendingListed goalId (w :: rest) s) :
    PendingListed goalId rest
      (storeStep s ⟨.transitionWorkStatus w.workId (ExecutionService.cancelTarget w) w.revision event none, env⟩) := by
  intro k v hv hgoal hpending
  have hold : s.work.get? k = some v := (pending_before hs hv hpending).resolve_right id
  rcases List.mem_cons.mp (h k v hold hgoal hpending) with rfl | hrest
  · obtain ⟨hmem, hne, htarget⟩ := cancelTarget_mem hopen
    have hkey := hs.work_key k v hold
    have hrun := run_transitionWorkStatus env event none hold hmem hne
    rw [storeStep, StoreCall.result, StoreOp.exec, hkey, hrun, EStateM.Result.state_ok, get?_set_self,
      Option.some.injEq] at hv
    have hstatus := congrArg WorkRecord.status hv
    rw [hpending] at hstatus
    change ExecutionService.cancelTarget v = .pending at hstatus
    rw [hstatus] at htarget
    exact absurd htarget (by decide)
  · exact hrest

theorem cancelEach_empties (children : List WorkRecord) (env : Supply) :
    Triple (ServiceWorld.handler ext) (listedContract π goalId) (fun w => PendingListed goalId children w.store)
      (service.cancelEach goalId children env) (fun _ w => PendingListed goalId [] w.store) (fun _ _ => False) := by
  refine triple_cancelEach service stable_pendingListed ?_ ?_ goalId children env
  · exact fun w rest event env world hopen h hassume => ⟨trivial, pendingListed_visit hassume.1 hopen h⟩
  · intro w rest s hlisted h k v hv hgoal hpending
    rcases List.mem_cons.mp (h k v hv hgoal hpending) with rfl | hrest
    · exact absurd (hpending ▸ by decide) hlisted
    · exact hrest

theorem pendingListed_listWork (goalId : GoalId) (s : InMemoryStore) : PendingListed goalId (s.listWork goalId) s := by
  intro k w hw hgoal _
  exact List.mem_filter.mpr ⟨mem_values_of_get? hw, by simpa using hgoal⟩

section Claims

variable {ι : Type} [DecidableEq ι]

theorem run_cancelGoal_task (service : ExecutionService) (goalId : GoalId) (rev : ℤ) (env : Supply) :
    ((ServiceCall.cancelGoal service goalId rev).task env).run =
      .act (.store (.transitionGoalStatus goalId .cancelRequested rev
          (evt (env.sub 0) service.actor .goalCancelRequested (some goalId)) none) (env.sub 1)) fun
        | .error e => .done (.error e)
        | .ok _ => .act (.store (.listWork goalId) (env.sub 2)) fun
          | .error e => .done (.error e)
          | .ok children => (do let _ ← service.cancelEach goalId children (env.sub 3) : ServiceTask Unit).run := by
  simp only [ServiceCall.task]
  refine congrArg (Prog.act _) ?_
  funext r
  cases r with
  | error e => rfl
  | ok goal =>
    refine congrArg (Prog.act _) ?_
    funext listed
    cases listed with
    | error e => rfl
    | ok children => rfl

/-- No client adds a PENDING Work to the Goal once client `j` has made its second request,
which lists the Works. -/
def NoLateWork (ext : Externals π) (goalId : GoalId) (j : ι) (p : ServicePool ι π) (schedule : List ι) : Prop :=
  ∀ before i after, schedule = before ++ i :: after → 2 ≤ before.count j →
    ∀ op env, (MachineRuns.run (serviceStep ext) p before).Requests i (.store op env) → ¬op.AddsPending goalId

/-- Once a cancellation has returned, no Work of the Goal is PENDING. -/
theorem no_pending_after_cancellation {clients : Clients ι} {world : ServiceWorld π}
    (hreach : StoreReachable world.store) {j : ι} {service : ExecutionService} {rev : ℤ}
    (hcall : clients.call j = .cancelGoal service goalId rev) {schedule : List ι}
    (hlate : NoLateWork ext goalId j (clients.pool world) schedule)
    (hreturn : (MachineRuns.run (serviceStep ext) (clients.pool world) schedule).threads j = .done (.ok ())) :
    PendingListed goalId [] (MachineRuns.run (serviceStep ext) (clients.pool world) schedule).state.store := by
  have hstart : (clients.pool world).threads j = ((clients.call j).task (clients.env j)).run := rfl
  rw [hcall, run_cancelGoal_task] at hstart
  -- the first request moves the Goal; a refusal ends the call with the exception
  obtain ⟨first, rest, rfl, _, hmoved, _⟩ := Pool.split_request hstart hreturn
  rw [← List.singleton_append, ← List.append_assoc, run_append] at hreturn ⊢
  have hreach' := reachable_serviceRun ext (p := clients.pool world) hreach (first ++ [j])
  generalize hp : MachineRuns.run (serviceStep ext) (clients.pool world) (first ++ [j]) = p at *
  split at hmoved
  · rw [Pool.run_done hmoved rest] at hreturn
    cases hreturn
  · -- the second request lists the Works
    obtain ⟨second, last, rfl, _, hlisted, hstate⟩ := Pool.split_request hmoved hreturn
    rw [← List.singleton_append, ← List.append_assoc, run_append] at hreturn ⊢
    have hreach'' := reachable_serviceRun ext hreach' (second ++ [j])
    have hpending := pendingListed_listWork goalId (MachineRuns.run (serviceStep ext) p second).state.store
    generalize hq : MachineRuns.run (serviceStep ext) p (second ++ [j]) = q at *
    generalize MachineRuns.run (serviceStep ext) p second = listing at *
    have htriple : Triple (ServiceWorld.handler ext) (listedContract π goalId)
        (fun w => PendingListed goalId (listing.state.store.listWork goalId) w.store)
        (do let _ ← service.cancelEach goalId (listing.state.store.listWork goalId) ((clients.env j).sub 3))
        (fun _ w => PendingListed goalId [] w.store) (fun _ _ => False) :=
      Triple.bind (cancelEach_empties service _ _) (fun _ => stable_const _)
        fun _ => triple_pure (stable_pendingListed []) fun _ h => h
    have hmeets := htriple q.state (by rw [hstate]; exact hpending)
    change q.threads j = (service.cancelEach goalId (listing.state.store.listWork goalId)
      ((clients.env j).sub 3) >>= fun _ => pure ()).run at hlisted
    rw [← hlisted] at hmeets
    have hrespects : EveryStep (serviceStep ext)
        (Respects (ServiceWorld.handler ext) (listedContract π goalId) j) q last := by
      refine everyStep_respects ext hreach'' (fun _ _ _ _ _ _ _ => trivial) ?_
      intro earlier i later hsplit _ op env hreq
      have hrun : MachineRuns.run (serviceStep ext) (clients.pool world) (first ++ [j] ++ (second ++ [j] ++ earlier)) =
          MachineRuns.run (serviceStep ext) q earlier := by
        rw [run_append, hp, run_append, hq]
      refine hlate (first ++ [j] ++ (second ++ [j] ++ earlier)) i later ?_ ?_ op env (hrun ▸ hreq)
      · simp [hsplit]
      · simp only [List.count_append, List.count_singleton_self]
        omega
    have hend := hmeets.run hrespects
    rw [hreturn] at hend
    exact hend.done

/-- No claim returns a Work of a Goal for which a cancellation had returned. -/
def ClaimsRespectCancellation (ext : Externals π) (clients : Clients ι) (world : ServiceWorld π)
    (schedule : List ι) : Prop :=
  ∀ before i after, schedule = before ++ i :: after →
    ∀ limit env, (MachineRuns.run (serviceStep ext) (clients.pool world) before).Requests i
        (.store (.claimPendingWork limit) env) →
      ∀ w ∈ handedOut (MachineRuns.run (serviceStep ext) (clients.pool world) before).state.store
          ⟨.claimPendingWork limit, env⟩,
        ∀ j service rev, clients.call j = .cancelGoal service w.goalId rev →
          (MachineRuns.run (serviceStep ext) (clients.pool world) before).threads j ≠ .done (.ok ())

theorem NoLateWork.before {j : ι} {p : ServicePool ι π} {before after : List ι}
    (h : NoLateWork ext goalId j p (before ++ after)) : NoLateWork ext goalId j p before := by
  intro earlier i later hsplit
  exact h earlier i (later ++ after) (by rw [hsplit, List.append_assoc, List.cons_append])

theorem goalId_of_handedOut {c : StoreCall} (hs : s.WellFormed) (h : w ∈ handedOut s c) :
    ∃ v, s.work.get? w.workId = some v ∧ v.goalId = w.goalId ∧ v.status = .pending := by
  obtain ⟨limit, _, hw⟩ := mem_handedOut h
  obtain ⟨v, hv, env', rfl⟩ := mem_claimedRecords hw
  obtain ⟨hget, hpending, _⟩ := claimCandidates_eligible hs hv
  exact ⟨v, hget, rfl, hpending⟩

/-- In every run in which no PENDING Work is added to a Goal after a cancellation of the Goal has
listed its Works, no claim returns a Work of a Goal whose cancellation had returned. -/
theorem claims_respect_cancellation {ext : Externals π} {clients : Clients ι} {world : ServiceWorld π}
    (hreach : StoreReachable world.store) {schedule : List ι}
    (hlate : ∀ j service goalId rev, clients.call j = .cancelGoal service goalId rev →
      NoLateWork ext goalId j (clients.pool world) schedule) :
    ClaimsRespectCancellation ext clients world schedule := by
  rintro before i after rfl limit env _ w hw j service rev hcall hreturn
  have hs := (reachable_serviceRun ext (p := clients.pool world) hreach before).wellFormed
  obtain ⟨v, hv, hgoal, hpending⟩ := goalId_of_handedOut hs hw
  have hnone := no_pending_after_cancellation hreach hcall (hlate j service w.goalId rev hcall).before hreturn
  exact absurd (hnone w.workId v hv hgoal hpending) List.not_mem_nil

end Claims

def retryClients : Clients ℕ :=
  sampleClients [.cancelGoal ⟨3, executorActor⟩ ⟨"goal_1"⟩ 1, .retryBrokenWork "u1" "work_1" "op",
    .operation (.claimPendingWork 1)]

theorem retried_work_of_cancelled_goal :
    ¬ClaimsRespectCancellation (sampleExternals none (.ok "h")) retryClients (sampleWorld seededStore)
      [0, 0, 0, 1, 1, 1, 1, 2] := by
  intro h
  have hwork : ∃ w, w ∈ handedOut (MachineRuns.run (serviceStep (sampleExternals none (.ok "h")))
      (retryClients.pool (sampleWorld seededStore)) [0, 0, 0, 1, 1, 1, 1]).state.store
      ⟨.claimPendingWork 1, frozenSupply.sub 2⟩ ∧ w.goalId = ⟨"goal_1"⟩ := ⟨_, List.mem_cons_self, rfl⟩
  obtain ⟨w, hw, hgoal⟩ := hwork
  refine h [0, 0, 0, 1, 1, 1, 1] 2 [] rfl 1 (frozenSupply.sub 2) ⟨_, rfl⟩ w hw 0 ⟨3, executorActor⟩ 1 ?_ rfl
  rw [hgoal]
  rfl

/-- A Goal with one Work is cancelled and nothing is added to it before the next claim. -/
theorem claim_after_plain_cancellation : StoreReachable seededStore ∧
      ClaimsRespectCancellation (sampleExternals none (.ok "h"))
        (sampleClients [.cancelGoal ⟨3, executorActor⟩ ⟨"goal_1"⟩ 1, .operation (.claimPendingWork 1)])
        (sampleWorld seededStore) [0, 0, 0, 1] := by
  have hreach : StoreReachable seededStore := ⟨seedCalls, rfl⟩
  refine ⟨hreach, claims_respect_cancellation hreach ?_⟩
  intro j service goalId rev hcall
  have hj : j = 0 := by
    rcases j with _ | _ | j
    · rfl
    · cases hcall
    · cases hcall
  subst hj
  intro before i after hsplit hcount op env hreq hadds
  rcases before with _ | ⟨a, _ | ⟨b, _ | ⟨c, _ | ⟨d, before⟩⟩⟩⟩
  · simp at hcount
  · cases hsplit
    exact absurd hcount (by decide)
  · cases hsplit
    cases hreq.eq rfl
    exact hadds
  · cases hsplit
    cases hreq.eq rfl
    exact hadds
  · simp at hsplit

end AllTomorrow
