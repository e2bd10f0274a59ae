import AllTomorrow.SemanticStoreEffects

/-!
# Referential integrity and atomicity of the in-memory store

In every reachable state references name stored records, a Work has at most one
active Run and at most one pending Question. A call that raises has changed
nothing, and every successful call accounts for the events it appended.
-/

namespace AllTomorrow

open InsertionDict (exclusive_empty exists_get?_set forall_set mem_values_of_get?)

open InMemoryStore

def ActiveClash (r r' : RunRecord) : Prop :=
  r.workId = r'.workId ∧ r.isActive = true ∧ r'.isActive = true

def PendingClash (q q' : QuestionRecordSemantic) : Prop :=
  q.workId.isSome = true ∧ q.workId = q'.workId ∧ q.status = .pending ∧ q'.status = .pending

theorem ActiveClash.symm (r r' : RunRecord) (h : ActiveClash r r') : ActiveClash r' r :=
  ⟨h.1.symm, h.2.2, h.2.1⟩

theorem PendingClash.symm (q q' : QuestionRecordSemantic) (h : PendingClash q q') : PendingClash q' q :=
  ⟨h.2.1 ▸ h.1, h.2.1.symm, h.2.2.2, h.2.2.1⟩

/-- References name stored records, and the two uniqueness laws of a Work hold. -/
structure InMemoryStore.Integrity (s : InMemoryStore) : Prop where
  work_goal : ∀ k w, s.work.get? k = some w → ∃ g, s.goals.get? w.goalId = some g
  run_work : ∀ k r, s.runs.get? k = some r → ∃ w, s.work.get? r.workId = some w
  run_revision : ∀ k r, s.runs.get? k = some r → ∃ rev, s.runRevisions.get? k = some rev
  one_active : s.runs.Exclusive ActiveClash
  one_pending : s.questions.Exclusive PendingClash

theorem InMemoryStore.integrity_empty : InMemoryStore.empty.Integrity := by
  refine ⟨?_, ?_, ?_, exclusive_empty _, exclusive_empty _⟩
  all_goals
    intro k v h
    simp [InMemoryStore.empty] at h

variable {env : Supply} {s : InMemoryStore}

theorem RunRecord.moved_clash {run : RunRecord} {target : RunStatus} {ref : Option ExecutionRef}
    (hterm : run.status ∉ terminalRunStatuses) (w : RunRecord)
    (h : ActiveClash (run.moved env target ref) w) : ActiveClash run w := by
  refine ⟨h.1, ?_, h.2.2⟩
  rw [RunRecord.isActive_eq_not_isTerminal]
  simp [RunRecord.isTerminal, hterm]

theorem Effect.integrity {op : StoreOp} {r : EStateM.Result Exn InMemoryStore op.Result}
    (h : Effect env s op r) (hs : s.WellFormed) (hi : s.Integrity) : r.state.Integrity := by
  have hwf := (h.wellFormed hs).run_revision
  cases h with
  | raised e => exact hi
  | read v hv => exact hi
  | eventAppended event he => exact ⟨hi.work_goal, hi.run_work, hi.run_revision, hi.one_active, hi.one_pending⟩
  | eventRepeated event => exact hi
  | goalCreated goal event hfresh =>
    refine ⟨?_, hi.run_work, hwf, hi.one_active, hi.one_pending⟩
    exact fun k w hw => exists_get?_set (hi.work_goal k w hw) _ _
  | goalMoved hget hterm hmem =>
    refine ⟨?_, hi.run_work, hwf, hi.one_active, hi.one_pending⟩
    exact fun k w hw => exists_get?_set (hi.work_goal k w hw) _ _
  | workCreated work event hfresh hgoal =>
    refine ⟨forall_set hi.work_goal hgoal, ?_, hwf, hi.one_active, hi.one_pending⟩
    exact fun k w hw => exists_get?_set (hi.run_work k w hw) _ _
  | workMoved hget hterm hmem htarget =>
    have hgoal := hi.work_goal _ _ hget
    refine ⟨forall_set hi.work_goal hgoal, ?_, hwf, hi.one_active, hi.one_pending⟩
    exact fun k w hw => exists_get?_set (hi.run_work k w hw) _ _
  | workSucceeded hget hterm hmem htype hid hstatus hev =>
    have hgoal := hi.work_goal _ _ hget
    refine ⟨forall_set hi.work_goal hgoal, ?_, hwf, hi.one_active, hi.one_pending⟩
    exact fun k w hw => exists_get?_set (hi.run_work k w hw) _ _
  | runCreated run event hfresh hwork hactive =>
    refine ⟨hi.work_goal, forall_set hi.run_work hwork, hwf, ?_, hi.one_pending⟩
    refine hi.one_active.set ActiveClash.symm ?_
    intro k w hk _ hclash
    have hidle := hactive hclash.2.1 w (mem_values_of_get? hk) hclash.1.symm
    rw [hclash.2.2] at hidle
    exact Bool.noConfusion hidle
  | refAttached hget hrev hnone =>
    have hwork := hi.run_work _ _ hget
    refine ⟨hi.work_goal, forall_set hi.run_work hwork, hwf, ?_, hi.one_pending⟩
    exact hi.one_active.replace ActiveClash.symm hget fun w hclash => hclash
  | refReattached hget hrev hsome hsame => exact hi
  | runMoved hget hrev hterm hmem =>
    have hwork := hi.run_work _ _ hget
    refine ⟨hi.work_goal, forall_set hi.run_work hwork, hwf, ?_, hi.one_pending⟩
    exact hi.one_active.replace ActiveClash.symm hget (RunRecord.moved_clash hterm)
  | workClaimed limit =>
    refine ⟨?_, ?_, hwf, hi.one_active, hi.one_pending⟩
    · exact forall_claimed env limit hs hi.work_goal fun k w env' hw _ => hi.work_goal k w hw
    · exact fun k w hw => exists_get?_setAllWork (hi.run_work k w hw) _
  | questionCreated question hfresh hclash =>
    refine ⟨hi.work_goal, hi.run_work, hwf, hi.one_active, ?_⟩
    refine hi.one_pending.set PendingClash.symm ?_
    intro k w hk _ hc
    obtain ⟨workId, hworkId⟩ := Option.isSome_iff_exists.mp hc.1
    exact hclash hc.2.2.1 workId hworkId w (mem_values_of_get? hk)
      (hc.2.1.symm.trans hworkId) hc.2.2.2
  | questionAnswered hget hpending =>
    refine ⟨hi.work_goal, hi.run_work, hwf, hi.one_active, ?_⟩
    refine hi.one_pending.replace PendingClash.symm hget ?_
    intro w hc
    exact absurd hc.2.2.1 (by simp [QuestionRecordSemantic.answered])

theorem integrity_step (s : InMemoryStore) (c : StoreCall) (h : s.WellFormed ∧ s.Integrity) :
    (storeStep s c).WellFormed ∧ (storeStep s c).Integrity :=
  ⟨wellFormed_step s c h.1, (exec_effect c.env h.1 c.op).integrity h.1 h.2⟩

/-- Every state that a sequence of calls reaches from the empty store has integrity. -/
theorem integrity_of_calls (calls : List StoreCall) :
    (MachineRuns.run storeStep .empty calls).Integrity :=
  (MachineRuns.invariant_run (I := fun s : InMemoryStore => s.WellFormed ∧ s.Integrity) integrity_step
    ⟨InMemoryStore.wellFormed_empty, InMemoryStore.integrity_empty⟩ calls).2

/-! ## Atomicity and provenance -/

def StoreOp.ownEvent : StoreOp → Option SemanticEvent
  | .createGoal _ event => some event
  | .transitionGoalStatus _ _ _ event _ => some event
  | .createWork _ event => some event
  | .transitionWorkStatus _ _ _ event _ => some event
  | .createRun _ event => some event
  | .transitionRunStatus _ _ _ event _ => some event
  | _ => none

/-- On this state a raise changes nothing and each success appends the events it accounts for. -/
structure InMemoryStore.Atomic (s : InMemoryStore) : Prop where
  raised : ∀ (op : StoreOp) (env : Supply) (e : Exn) (s' : InMemoryStore),
    (op.exec env).run s = .error e s' → s' = s
  own_event : ∀ (op : StoreOp) (env : Supply) (event : SemanticEvent) (v : op.Result) (s' : InMemoryStore),
    op.ownEvent = some event → (op.exec env).run s = .ok v s' → s'.events = s.events ++ [event]
  first_attach : ∀ (env : Supply) (runId : RunId) (rev : ℤ) (ref : ExecutionRef) (event : SemanticEvent)
    (current v : RunRecord) (s' : InMemoryStore),
    s.runs.get? runId = some current → current.executionRef = none →
      ((StoreOp.attachExecutionRef runId rev ref event).exec env).run s = .ok v s' → s'.events = s.events ++ [event]
  reattach : ∀ (env : Supply) (runId : RunId) (rev : ℤ) (ref attached : ExecutionRef) (event : SemanticEvent)
    (current v : RunRecord) (s' : InMemoryStore),
    s.runs.get? runId = some current → current.executionRef = some attached →
      ((StoreOp.attachExecutionRef runId rev ref event).exec env).run s = .ok v s' → s'.events = s.events
  claimed : ∀ (env : Supply) (limit : ℤ) (works : List WorkRecord) (s' : InMemoryStore),
    ((StoreOp.claimPendingWork limit).exec env).run s = .ok works s' → ∃ new, s'.events = s.events ++ new ∧
        new.map SemanticEvent.workId = works.map fun w => some w.workId
  appended : ∀ (op : StoreOp) (env : Supply), s.events <+: ((op.exec env).run s).state.events

theorem claimedEvents_workId (env : Supply) (candidates : List WorkRecord) :
    (claimedEvents env candidates).map SemanticEvent.workId =
      (claimedRecords env candidates).map fun w => some w.workId := by
  induction candidates generalizing env with
  | nil => rfl
  | cons w rest ih => simp [claimedEvents, claimedRecords, claimedEvent, WorkRecord.moved, ih]

theorem Effect.events_grow {op : StoreOp} {r : EStateM.Result Exn InMemoryStore op.Result}
    (h : Effect env s op r) : s.events <+: r.state.events := by
  cases h <;> first | exact List.prefix_refl _ | exact List.prefix_append _ _

theorem InMemoryStore.WellFormed.atomic (hs : s.WellFormed) : s.Atomic where
  raised op env e s' hrun := by
    have h := exec_effect env hs op
    rw [hrun] at h
    cases h
    rfl
  own_event op env event v s' hevent hrun := by
    have h := exec_effect env hs op
    rw [hrun] at h
    cases h with
    | read v hv => cases op <;> simp [StoreOp.isRead, StoreOp.ownEvent] at hv hevent
    | _ => simp_all [StoreOp.ownEvent]
  first_attach env runId rev ref event current v s' hget hnone hrun := by
    have h := exec_effect env hs (.attachExecutionRef runId rev ref event)
    rw [hrun] at h
    cases h with
    | read v hv => simp [StoreOp.isRead] at hv
    | refAttached => rfl
    | refReattached hget' _ hsome _ =>
      rw [hget, Option.some.injEq] at hget'
      rw [← hget', hnone] at hsome
      cases hsome
  reattach env runId rev ref attached event current v s' hget hsome hrun := by
    have h := exec_effect env hs (.attachExecutionRef runId rev ref event)
    rw [hrun] at h
    cases h with
    | read v hv => rfl
    | refAttached hget' _ hnone =>
      rw [hget, Option.some.injEq] at hget'
      rw [← hget', hsome] at hnone
      cases hnone
    | refReattached => rfl
  claimed env limit works s' hrun := by
    have h := exec_effect env hs (.claimPendingWork limit)
    rw [hrun] at h
    cases h with
    | read v hv => simp [StoreOp.isRead] at hv
    | workClaimed => exact ⟨_, rfl, claimedEvents_workId env _⟩
  appended op env := (exec_effect env hs op).events_grow

/-- Transition and provenance are atomic in every reachable state. -/
theorem atomic_of_calls (calls : List StoreCall) : (MachineRuns.run storeStep .empty calls).Atomic :=
  (StoreReachable.wellFormed ⟨calls, rfl⟩).atomic

theorem StoreReachable.integrity {s : InMemoryStore} (h : StoreReachable s) : s.Integrity := by
  obtain ⟨calls, rfl⟩ := h
  exact integrity_of_calls calls

end AllTomorrow
