import AllTomorrow.RaisingState
import AllTomorrow.MachineRuns
import AllTomorrow.SemanticStore

/-!
# What one store call can do

`Effect` lists every way in which a call can change the store, with the guards it
passed. It is proved once for all operations; every invariant below is a case
analysis of it.
-/

namespace AllTomorrow

open InsertionDict (contains_eq_false_iff contains_iff exists_get?_set forall_set get?_set_self)
open EStateM (run_bind run_get run_modify run_ofExcept_error run_ofExcept_ok run_pure run_throw_any)

open InMemoryStore

/-- Every record is stored under its own identifier and every Run has a revision. -/
structure InMemoryStore.WellFormed (s : InMemoryStore) : Prop where
  goal_key : ∀ k g, s.goals.get? k = some g → g.goalId = k
  work_key : ∀ k w, s.work.get? k = some w → w.workId = k
  run_key : ∀ k r, s.runs.get? k = some r → r.runId = k
  question_key : ∀ k q, s.questions.get? k = some q → q.questionId = k
  run_revision : ∀ k r, s.runs.get? k = some r → ∃ rev, s.runRevisions.get? k = some rev

theorem InMemoryStore.wellFormed_empty : InMemoryStore.empty.WellFormed := by
  constructor <;> intro k v h <;> simp [InMemoryStore.empty] at h

def claimedRecords (env : Supply) : List WorkRecord → List WorkRecord
  | [] => []
  | w :: rest => w.moved (env.sub 0) .running :: claimedRecords (env.sub 2) rest

def claimedEvents (env : Supply) : List WorkRecord → List SemanticEvent
  | [] => []
  | w :: rest => claimedEvent (env.sub 1) w.workId :: claimedEvents (env.sub 2) rest

def setAllWork (d : InsertionDict WorkId WorkRecord) (ws : List WorkRecord) : InsertionDict WorkId WorkRecord :=
  ws.foldl (fun d w => d.set w.workId w) d

def RunRecord.attached (env : Supply) (run : RunRecord) (ref : ExecutionRef) : RunRecord :=
  { run with executionRef := some ref, updatedAt := env.utcNow }

def QuestionRecordSemantic.answered (env : Supply) (question : QuestionRecordSemantic)
    (answerRef signalCorrelation : String) : QuestionRecordSemantic :=
  { question with
    status := .answered
    answerRef := some answerRef
    signalCorrelation := some signalCorrelation
    revision := question.revision + 1
    updatedAt := env.utcNow
    answeredAt := some env.utcNow }

def StoreOp.isRead : StoreOp → Bool
  | .getGoal _ | .listGoals _ | .getWork _ | .listWork _ | .getRun _ | .listRuns _ | .runRevision _
  | .findReconciliationCandidates | .listEvents .. | .getOutcome _ | .getQuestion _ | .listQuestions _ => true
  | _ => false

/-- The possible results of a call on `s`, each with the guards that led to it. -/
inductive Effect (env : Supply) (s : InMemoryStore) :
    (op : StoreOp) → EStateM.Result Exn InMemoryStore op.Result → Prop where
  | raised {op : StoreOp} (e : Exn) : Effect env s op (.error e s)
  | read {op : StoreOp} (v : op.Result) (h : op.isRead = true) : Effect env s op (.ok v s)
  | eventAppended (event : SemanticEvent) (h : ∀ e ∈ s.events, e.eventId ≠ event.eventId) :
      Effect env s (.appendEvent event) (.ok () { s with events := s.events ++ [event] })
  | eventRepeated (event : SemanticEvent) : Effect env s (.appendEvent event) (.ok () s)
  | goalCreated (goal : GoalRecord) (event : SemanticEvent) (hfresh : s.goals.get? goal.goalId = none) :
      Effect env s (.createGoal goal event)
        (.ok goal { s with goals := s.goals.set goal.goalId goal, events := s.events ++ [event] })
  | goalMoved {goalId : GoalId} {target : GoalStatus} {event : SemanticEvent} {evidence : Option Evidence}
      {current : GoalRecord} (hget : s.goals.get? goalId = some current)
      (hterm : current.status ∉ terminalGoalStatuses) (hmem : target ∈ goalTransitions current.status) :
      Effect env s (.transitionGoalStatus goalId target current.revision event evidence)
        (.ok (current.moved env target)
          { s with goals := s.goals.set goalId (current.moved env target), events := s.events ++ [event] })
  | workCreated (work : WorkRecord) (event : SemanticEvent) (hfresh : s.work.get? work.workId = none)
      (hgoal : ∃ g, s.goals.get? work.goalId = some g) :
      Effect env s (.createWork work event)
        (.ok work { s with work := s.work.set work.workId work, events := s.events ++ [event] })
  | workMoved {workId : WorkId} {target : WorkStatus} {event : SemanticEvent} {evidence : Option Evidence}
      {current : WorkRecord} (hget : s.work.get? workId = some current)
      (hterm : current.status ∉ terminalWorkStatuses) (hmem : target ∈ workTransitions current.status)
      (htarget : target ≠ .succeeded) :
      Effect env s (.transitionWorkStatus workId target current.revision event evidence)
        (.ok (current.moved (env.sub 0) target)
          { s with work := s.work.set workId (current.moved (env.sub 0) target), events := s.events ++ [event] })
  | workSucceeded {workId : WorkId} {event : SemanticEvent} {evidence : Option Evidence}
      {current : WorkRecord} {outcome : OutcomeRecord} (hget : s.work.get? workId = some current)
      (hterm : current.status ∉ terminalWorkStatuses) (hmem : .succeeded ∈ workTransitions current.status)
      (htype : outcome.targetType = .work) (hid : outcome.targetId = workId.val)
      (hstatus : outcome.status = .satisfied) (hevidence : outcome.evidence.isSome = true) :
      Effect env s (.transitionWorkStatus workId .succeeded current.revision event evidence)
        (.ok (current.moved (env.sub 0) .succeeded)
          { s with work := s.work.set workId (current.moved (env.sub 0) .succeeded)
                   events := s.events ++ [event]
                   outcomes := s.outcomes.set workId outcome })
  | runCreated (run : RunRecord) (event : SemanticEvent) (hfresh : s.runs.get? run.runId = none)
      (hwork : ∃ w, s.work.get? run.workId = some w)
      (hactive : run.isActive = true → ∀ r ∈ s.runs.values, r.workId = run.workId → r.isActive = false) :
      Effect env s (.createRun run event)
        (.ok run { s with runs := s.runs.set run.runId run
                          runRevisions := s.runRevisions.set run.runId 1
                          events := s.events ++ [event] })
  | refAttached {runId : RunId} {rev : ℤ} {ref : ExecutionRef} {event : SemanticEvent} {current : RunRecord}
      (hget : s.runs.get? runId = some current) (hrev : s.runRevisions.get? runId = some rev)
      (hnone : current.executionRef = none) :
      Effect env s (.attachExecutionRef runId rev ref event)
        (.ok (current.attached env ref)
          { s with runs := s.runs.set runId (current.attached env ref)
                   runRevisions := s.runRevisions.set runId (rev + 1)
                   events := s.events ++ [event] })
  | refReattached {runId : RunId} {rev : ℤ} {ref attached : ExecutionRef} {event : SemanticEvent}
      {current : RunRecord} (hget : s.runs.get? runId = some current)
      (hrev : s.runRevisions.get? runId = some rev) (hsome : current.executionRef = some attached)
      (hsame : attached.triple = ref.triple) :
      Effect env s (.attachExecutionRef runId rev ref event) (.ok current s)
  | runMoved {runId : RunId} {target : RunStatus} {rev : ℤ} {event : SemanticEvent}
      {executionRef : Option ExecutionRef} {current : RunRecord} (hget : s.runs.get? runId = some current)
      (hrev : s.runRevisions.get? runId = some rev) (hterm : current.status ∉ terminalRunStatuses)
      (hmem : target ∈ runTransitions current.status) :
      Effect env s (.transitionRunStatus runId target rev event executionRef)
        (.ok (current.moved env target executionRef)
          { s with runs := s.runs.set runId (current.moved env target executionRef)
                   runRevisions := s.runRevisions.set runId (rev + 1)
                   events := s.events ++ [event] })
  | workClaimed (limit : ℤ) :
      Effect env s (.claimPendingWork limit)
        (.ok (claimedRecords env (s.claimCandidates limit))
          { s with work := setAllWork s.work (claimedRecords env (s.claimCandidates limit))
                   events := s.events ++ claimedEvents env (s.claimCandidates limit) })
  | questionCreated (question : QuestionRecordSemantic)
      (hfresh : s.questions.get? question.questionId = none)
      (hclash : question.status = .pending → ∀ workId, question.workId = some workId →
        ∀ q ∈ s.questions.values, q.workId = some workId → q.status ≠ .pending) :
      Effect env s (.createQuestion question)
        (.ok question { s with questions := s.questions.set question.questionId question })
  | questionAnswered {questionId : QuestionId} {answerRef signalCorrelation : String}
      {current : QuestionRecordSemantic} (hget : s.questions.get? questionId = some current)
      (hpending : current.status = .pending) :
      Effect env s (.answerQuestion questionId current.revision answerRef signalCorrelation)
        (.ok (current.answered env answerRef signalCorrelation)
          { s with questions := s.questions.set questionId (current.answered env answerRef signalCorrelation)
                   deliverySignals := s.deliverySignals ++ [⟨questionId, signalCorrelation⟩] })

variable {env : Supply} {s : InMemoryStore} (event : SemanticEvent)

@[simp] theorem run_pushEvent : (pushEvent event).run s = .ok () { s with events := s.events ++ [event] } := rfl

theorem checkRevision_self (rev : ℤ) (kind ident : String) : checkRevision rev rev kind ident = .ok () := by
  simp [checkRevision]

theorem checkRevision_of_ne {actual expected : ℤ} (h : actual ≠ expected) (kind ident : String) :
    ∃ e, checkRevision actual expected kind ident = .error (.storeConflictError e) := by
  simp [checkRevision, h]

theorem appendEvent_effect : Effect env s (.appendEvent event) ((InMemoryStore.appendEvent event).run s) := by
  unfold InMemoryStore.appendEvent
  by_cases h : s.events.any (fun e => e.eventId = event.eventId) = true
  · simp only [run_bind, run_get, h]
    exact .eventRepeated event
  · rw [Bool.not_eq_true] at h
    simp only [run_bind, run_get, h]
    exact .eventAppended event (by simpa using h)

theorem createGoal_effect (goal : GoalRecord) (event : SemanticEvent) :
    Effect env s (.createGoal goal event) ((InMemoryStore.createGoal goal event).run s) := by
  unfold InMemoryStore.createGoal
  by_cases h : s.goals.contains goal.goalId = true
  · simp only [run_bind, run_get, h, ↓reduceIte, run_throw_any]
    exact .raised _
  · simp only [run_bind, run_get, h, Bool.false_eq_true, ↓reduceIte, run_modify]
    exact .goalCreated goal event (contains_eq_false_iff.mp (by simpa using h))

theorem transitionGoalStatus_effect (goalId : GoalId) (target : GoalStatus) (rev : ℤ) (event : SemanticEvent)
    (evidence : Option Evidence) : Effect env s (.transitionGoalStatus goalId target rev event evidence)
      ((InMemoryStore.transitionGoalStatus env goalId target rev event evidence).run s) := by
  unfold InMemoryStore.transitionGoalStatus
  cases hget : s.goals.get? goalId with
  | none =>
    simp only [run_bind, run_get, hget, run_throw_any]
    exact .raised _
  | some current =>
    by_cases hrev : current.revision = rev
    · subst hrev
      cases hmove : transitionGoal env current target evidence with
      | error e =>
        simp only [run_bind, run_get, hget, checkRevision_self, hmove, run_ofExcept_ok,
          run_ofExcept_error]
        exact .raised _
      | ok updated =>
        obtain ⟨hterm, hmem, rfl⟩ := transitionGoal_ok hmove
        simp only [run_bind, run_get, hget, checkRevision_self, hmove, run_ofExcept_ok,
          run_modify]
        exact .goalMoved hget hterm hmem
    · obtain ⟨e, he⟩ := checkRevision_of_ne hrev "goal" goalId.val
      simp only [run_bind, run_get, hget, he, run_ofExcept_error]
      exact .raised _

theorem createWork_effect (work : WorkRecord) (event : SemanticEvent) :
    Effect env s (.createWork work event) ((InMemoryStore.createWork work event).run s) := by
  unfold InMemoryStore.createWork
  by_cases h : s.work.contains work.workId = true
  · simp only [run_bind, run_get, h, ↓reduceIte, run_throw_any]
    exact .raised _
  · by_cases hg : s.goals.contains work.goalId = true
    · simp only [run_bind, run_get, Bool.not_true, h, Bool.false_eq_true, ↓reduceIte, hg,
        run_modify]
      exact .workCreated work event (contains_eq_false_iff.mp (by simpa using h))
        (contains_iff.mp hg)
    · simp only [run_bind, run_get, h, Bool.false_eq_true, ↓reduceIte, hg]
      exact .raised _

/-- The second computation of the outcome cannot raise: the first one accepted the same
evidence for the same target. -/
theorem transitionWorkStatus_effect (hs : s.WellFormed) (workId : WorkId) (target : WorkStatus) (rev : ℤ)
    (event : SemanticEvent) (evidence : Option Evidence) :
    Effect env s (.transitionWorkStatus workId target rev event evidence)
      ((InMemoryStore.transitionWorkStatus env workId target rev event evidence).run s) := by
  unfold InMemoryStore.transitionWorkStatus
  cases hget : s.work.get? workId with
  | none =>
    simp only [run_bind, run_get, hget, run_throw_any]
    exact .raised _
  | some current =>
    by_cases hrev : current.revision = rev
    · subst hrev
      cases hmove : transitionWork (env.sub 0) current target evidence with
      | error e =>
        simp only [run_bind, run_get, hget, checkRevision_self, hmove, run_ofExcept_ok,
          run_ofExcept_error]
        exact .raised _
      | ok updated =>
        obtain ⟨hterm, hmem, rfl, hverify⟩ := transitionWork_ok hmove
        by_cases htarget : target = .succeeded
        · subst htarget
          obtain ⟨first, hfirst⟩ := hverify rfl
          rw [hs.work_key workId current hget] at hfirst
          cases evidence with
          | none => simp [verifyCompletionEvidence] at hfirst
          | some given =>
            cases given with
            | completion e =>
              obtain ⟨second, hsecond⟩ := verifyCompletionEvidence_resupply hfirst (env.sub 1)
              obtain ⟨htype, hid, hstatus, hev⟩ := verifyCompletionEvidence_ok hsecond
              simp only [run_bind, run_get, ↓reduceIte, hsecond, hget, checkRevision_self, hmove,
                run_ofExcept_ok, run_modify, run_pushEvent]
              exact .workSucceeded hget hterm hmem htype hid hstatus hev
            | outcome record =>
              obtain ⟨htype, hid, hstatus, hev⟩ := verifyCompletionEvidence_ok hfirst
              rw [verifyCompletionEvidence_outcome hfirst] at htype hid hstatus hev
              simp only [run_bind, run_get, ↓reduceIte, hget, checkRevision_self, hmove,
                run_ofExcept_ok, run_modify, run_pushEvent]
              exact .workSucceeded hget hterm hmem htype hid hstatus hev
        · simp only [run_bind, run_get, htarget, ↓reduceIte, hget, checkRevision_self, hmove,
            run_ofExcept_ok, run_modify]
          exact .workMoved hget hterm hmem htarget
    · obtain ⟨e, he⟩ := checkRevision_of_ne hrev "work" workId.val
      simp only [run_bind, run_get, hget, he, run_ofExcept_error]
      exact .raised _

theorem assertActiveRunsInvariant_ok {existing : List RunRecord} {run : RunRecord} {u : Unit}
    (h : assertActiveRunsInvariant (existing ++ [run]) 1 = .ok u) (hrun : run.isActive = true) :
    ∀ r ∈ existing, r.isActive = false := by
  intro r hr
  by_contra hactive
  have hmem : r ∈ existing.filter RunRecord.isActive := List.mem_filter.mpr ⟨hr, by simpa using hactive⟩
  have hpos := List.length_pos_of_mem hmem
  simp only [assertActiveRunsInvariant, List.filter_append, List.length_append, List.filter_cons, hrun,
    List.filter_nil, if_true, List.length_singleton] at h
  split at h
  · simp at h
  · omega

theorem createRun_effect (run : RunRecord) (event : SemanticEvent) :
    Effect env s (.createRun run event) ((InMemoryStore.createRun run event).run s) := by
  unfold InMemoryStore.createRun
  by_cases h : s.runs.contains run.runId = true
  · simp only [run_bind, run_get, h, ↓reduceIte, run_throw_any]
    exact .raised _
  · by_cases hw : s.work.contains run.workId = true
    · cases hassert : assertActiveRunsInvariant
        ((s.runs.values.filter fun r => r.workId = run.workId) ++ [run]) 1 with
      | error e =>
        simp only [run_bind, run_get, Bool.not_true, h, Bool.false_eq_true, ↓reduceIte, hw,
          hassert, run_ofExcept_error]
        exact .raised _
      | ok u =>
        simp only [run_bind, run_get, Bool.not_true, h, Bool.false_eq_true, ↓reduceIte, hw,
          hassert, run_ofExcept_ok, run_modify]
        refine .runCreated run event (contains_eq_false_iff.mp (by simpa using h))
          (contains_iff.mp hw) ?_
        intro hactive r hr hwork
        exact assertActiveRunsInvariant_ok hassert hactive r (List.mem_filter.mpr ⟨hr, by simpa using hwork⟩)
    · simp only [run_bind, run_get, h, Bool.false_eq_true, ↓reduceIte, hw]
      exact .raised _

variable {runId : RunId} {rev : ℤ}

theorem run_storedRunRevision (h : s.runRevisions.get? runId = some rev) : (storedRunRevision runId).run s = .ok rev s := by
  simp [storedRunRevision, h]

theorem attachExecutionRef_effect (runId : RunId) (rev : ℤ) (ref : ExecutionRef) (event : SemanticEvent) :
    Effect env s (.attachExecutionRef runId rev ref event)
      ((InMemoryStore.attachExecutionRef env runId rev ref event).run s) := by
  unfold InMemoryStore.attachExecutionRef
  cases hget : s.runs.get? runId with
  | none =>
    simp only [run_bind, run_get, hget, run_throw_any]
    exact .raised _
  | some current =>
    cases hstored : s.runRevisions.get? runId with
    | none =>
      simp only [storedRunRevision, run_bind, run_get, bind_assoc, hget, hstored,
        run_throw_any]
      exact .raised _
    | some actual =>
      by_cases hrev : actual = rev
      · subst hrev
        cases hattached : current.executionRef with
        | none =>
          simp only [run_bind, run_get, hget, hattached, run_storedRunRevision hstored,
            checkRevision_self, run_ofExcept_ok, run_modify]
          exact .refAttached hget hstored hattached
        | some attached =>
          by_cases hsame : sameRef attached ref = true
          · simp only [run_bind, run_get, hget, hattached, hsame, ↓reduceIte,
              run_storedRunRevision hstored, checkRevision_self]
            exact .refReattached hget hstored hattached (sameRef_iff.mp hsame)
          · simp only [run_bind, run_get, hget, hattached, hsame, Bool.false_eq_true, ↓reduceIte,
              run_storedRunRevision hstored, checkRevision_self, run_ofExcept_ok, run_throw_any]
            exact .raised _
      · obtain ⟨e, he⟩ := checkRevision_of_ne hrev "run" runId.val
        simp only [run_bind, run_get, hget, run_storedRunRevision hstored, he,
          run_ofExcept_error]
        exact .raised _

theorem transitionRunStatus_effect (runId : RunId) (target : RunStatus) (rev : ℤ) (event : SemanticEvent)
    (executionRef : Option ExecutionRef) : Effect env s (.transitionRunStatus runId target rev event executionRef)
      ((InMemoryStore.transitionRunStatus env runId target rev event executionRef).run s) := by
  unfold InMemoryStore.transitionRunStatus
  cases hget : s.runs.get? runId with
  | none =>
    simp only [run_bind, run_get, hget, run_throw_any]
    exact .raised _
  | some current =>
    cases hstored : s.runRevisions.get? runId with
    | none =>
      simp only [storedRunRevision, run_bind, run_get, bind_assoc, hget, hstored,
        run_throw_any]
      exact .raised _
    | some actual =>
      by_cases hrev : actual = rev
      · subst hrev
        cases hmove : transitionRun env current target executionRef with
        | error e =>
          simp only [run_bind, run_get, hget, hmove, run_storedRunRevision hstored, checkRevision_self,
            run_ofExcept_ok, run_ofExcept_error]
          exact .raised _
        | ok updated =>
          obtain ⟨hterm, hmem, rfl⟩ := transitionRun_ok_iff.mp hmove
          simp only [run_bind, run_get, hget, hmove, run_storedRunRevision hstored, checkRevision_self,
            run_ofExcept_ok, run_modify]
          exact .runMoved hget hstored hterm hmem
      · obtain ⟨e, he⟩ := checkRevision_of_ne hrev "run" runId.val
        simp only [run_bind, run_get, hget, run_storedRunRevision hstored, he,
          run_ofExcept_error]
        exact .raised _

variable {current : RunRecord}

theorem run_transitionRunStatus (env : Supply) (event : SemanticEvent) (ref : Option ExecutionRef)
    {target : RunStatus} (hget : s.runs.get? runId = some current)
    (hrev : s.runRevisions.get? runId = some rev) (hmem : target ∈ runTransitions current.status) :
    (InMemoryStore.transitionRunStatus env runId target rev event ref).run s = .ok (current.moved env target ref)
        { s with runs := s.runs.set runId (current.moved env target ref)
                 runRevisions := s.runRevisions.set runId (rev + 1)
                 events := s.events ++ [event] } := by
  have hterm : current.status ∉ terminalRunStatuses := by
    intro hterm
    rw [runTransitions_terminal hterm] at hmem
    exact absurd hmem List.not_mem_nil
  have hmove : transitionRun env current target ref = .ok (current.moved env target ref) :=
    transitionRun_ok_iff.mpr ⟨hterm, hmem, rfl⟩
  simp only [InMemoryStore.transitionRunStatus, run_bind, run_get, hget,
    run_storedRunRevision hrev, checkRevision_self, run_ofExcept_ok, hmove, run_modify,
    run_pushEvent, run_pure]

theorem run_attachExecutionRef (env : Supply) (ref : ExecutionRef) (event : SemanticEvent) (hget : s.runs.get? runId = some current)
    (hrev : s.runRevisions.get? runId = some rev) (hnone : current.executionRef = none) :
    (InMemoryStore.attachExecutionRef env runId rev ref event).run s = .ok (current.attached env ref)
        { s with runs := s.runs.set runId (current.attached env ref)
                 runRevisions := s.runRevisions.set runId (rev + 1)
                 events := s.events ++ [event] } := by
  simp only [InMemoryStore.attachExecutionRef, run_bind, run_get, hget, hnone,
    run_storedRunRevision hrev, checkRevision_self, run_ofExcept_ok, run_modify,
    run_pushEvent, run_pure]
  rfl

theorem run_claimLoop (env : Supply) (candidates : List WorkRecord) (hpending : ∀ w ∈ candidates, w.status = .pending) :
    (claimLoop env candidates).run s = .ok (claimedRecords env candidates)
      { s with work := setAllWork s.work (claimedRecords env candidates)
               events := s.events ++ claimedEvents env candidates } := by
  induction candidates generalizing env s with
  | nil => simp [claimLoop, claimedRecords, claimedEvents, setAllWork]
  | cons w rest ih =>
    have hw := transitionWork_claim (env.sub 0) (hpending w List.mem_cons_self)
    have hrest : ∀ v ∈ rest, v.status = .pending := fun v hv => hpending v (List.mem_cons_of_mem w hv)
    simp only [claimLoop, hw, run_bind, run_ofExcept_ok, run_modify, run_pushEvent,
      ih _ hrest, run_pure, claimedRecords, claimedEvents, List.append_assoc, List.singleton_append]
    rfl

theorem claimCandidates_pending {limit : ℤ} {w : WorkRecord} (h : w ∈ s.claimCandidates limit) :
    w ∈ s.work.values ∧ w.status = .pending := by
  have hsort := (pySliceTo_sublist _ _).subset h
  rw [List.mem_insertionSort, List.mem_filter] at hsort
  refine ⟨hsort.1, ?_⟩
  have hclaimable := hsort.2
  simp only [claimable, Bool.and_eq_true, decide_eq_true_eq] at hclaimable
  exact hclaimable.1

theorem claimPendingWork_effect (limit : ℤ) :
    Effect env s (.claimPendingWork limit) ((InMemoryStore.claimPendingWork env limit).run s) := by
  have hloop := run_claimLoop env (s := s) (s.claimCandidates limit)
    fun w hw => (claimCandidates_pending hw).2
  simp only [InMemoryStore.claimPendingWork, run_bind, run_get, hloop]
  exact .workClaimed limit

theorem createQuestion_effect (question : QuestionRecordSemantic) :
    Effect env s (.createQuestion question) ((InMemoryStore.createQuestion question).run s) := by
  unfold InMemoryStore.createQuestion
  by_cases h : s.questions.contains question.questionId = true
  · simp only [run_bind, run_get, h, ↓reduceIte, run_throw_any]
    exact .raised _
  · have hfresh := contains_eq_false_iff.mp (by simpa using h)
    by_cases hp : question.status = .pending
    · cases hw : question.workId with
      | none =>
        simp only [run_bind, run_get, hp, ↓reduceIte, h, Bool.false_eq_true]
        exact .questionCreated question hfresh (by simp [hw])
      | some workId =>
        by_cases hclash : (s.questions.values.any fun q => q.workId = some workId && q.status = .pending) = true
        · simp only [run_bind, run_get, h, hp, hclash]
          exact .raised _
        · simp only [run_bind, run_get, h, hp, hclash]
          refine .questionCreated question hfresh ?_
          intro _ other hother q hq hqw hqp
          rw [hw, Option.some.injEq] at hother
          subst hother
          exact hclash (List.any_eq_true.mpr ⟨q, hq, by simp [hqw, hqp]⟩)
    · simp only [run_bind, run_get, hp, ↓reduceIte, h, Bool.false_eq_true]
      exact .questionCreated question hfresh (fun hp' => absurd hp' hp)

theorem answerQuestion_effect (questionId : QuestionId) (rev : ℤ) (answerRef signalCorrelation : String) :
    Effect env s (.answerQuestion questionId rev answerRef signalCorrelation)
      ((InMemoryStore.answerQuestion env questionId rev answerRef signalCorrelation).run s) := by
  unfold InMemoryStore.answerQuestion
  cases hget : s.questions.get? questionId with
  | none =>
    simp only [run_bind, run_get, ne_eq, hget, run_throw_any]
    exact .raised _
  | some current =>
    by_cases hrev : current.revision = rev
    · subst hrev
      by_cases hpending : current.status = .pending
      · simp only [run_bind, run_get, ne_eq, hget, checkRevision_self, hpending,
          run_ofExcept_ok]
        exact .questionAnswered hget hpending
      · simp only [run_bind, run_get, ne_eq, hget, checkRevision_self, hpending,
          run_ofExcept_ok]
        exact .raised _
    · obtain ⟨e, he⟩ := checkRevision_of_ne hrev "question" questionId.val
      simp only [run_bind, run_get, ne_eq, hget, he, run_ofExcept_error]
      exact .raised _

theorem exec_effect (env : Supply) (hs : s.WellFormed) (op : StoreOp) : Effect env s op ((op.exec env).run s) := by
  cases op with
  | appendEvent event => exact appendEvent_effect event
  | createGoal goal event => exact createGoal_effect goal event
  | transitionGoalStatus goalId target rev event evidence =>
    exact transitionGoalStatus_effect goalId target rev event evidence
  | createWork work event => exact createWork_effect work event
  | transitionWorkStatus workId target rev event evidence =>
    exact transitionWorkStatus_effect hs workId target rev event evidence
  | createRun run event => exact createRun_effect run event
  | attachExecutionRef runId rev ref event => exact attachExecutionRef_effect runId rev ref event
  | transitionRunStatus runId target rev event ref => exact transitionRunStatus_effect runId target rev event ref
  | claimPendingWork limit => exact claimPendingWork_effect limit
  | createQuestion question => exact createQuestion_effect question
  | answerQuestion questionId rev answerRef correlation =>
    exact answerQuestion_effect questionId rev answerRef correlation
  | _ => exact .read _ rfl

/-! ## Runs of the store -/

structure StoreCall where
  op : StoreOp
  env : Supply

def StoreCall.result (c : StoreCall) (s : InMemoryStore) : EStateM.Result Exn InMemoryStore c.op.Result :=
  (c.op.exec c.env).run s

def storeStep (s : InMemoryStore) (c : StoreCall) : InMemoryStore := (c.result s).state

/-- The states that some sequence of calls reaches from the empty store. -/
def StoreReachable (s : InMemoryStore) : Prop := MachineRuns.Reachable storeStep .empty s

theorem mem_claimedRecords {w : WorkRecord} {candidates : List WorkRecord} (h : w ∈ claimedRecords env candidates) :
    ∃ v ∈ candidates, ∃ env' : Supply, w = v.moved env' .running := by
  induction candidates generalizing env with
  | nil => simp [claimedRecords] at h
  | cons v rest ih =>
    rcases List.mem_cons.mp h with rfl | h
    · exact ⟨v, List.mem_cons_self, env.sub 0, rfl⟩
    · obtain ⟨u, hu, env', rfl⟩ := ih h
      exact ⟨u, List.mem_cons_of_mem v hu, env', rfl⟩

variable {d : InsertionDict WorkId WorkRecord} {P : WorkId → WorkRecord → Prop}

theorem forall_setAllWork {ws : List WorkRecord} (h : ∀ k w, d.get? k = some w → P k w) (hws : ∀ w ∈ ws, P w.workId w) :
    ∀ k w, (setAllWork d ws).get? k = some w → P k w := by
  induction ws generalizing d with
  | nil => exact h
  | cons w ws ih =>
    exact ih (forall_set h (hws w List.mem_cons_self))
      fun v hv => hws v (List.mem_cons_of_mem w hv)

theorem exists_get?_setAllWork {k : WorkId}
    (h : ∃ w, d.get? k = some w) (ws : List WorkRecord) : ∃ w, (setAllWork d ws).get? k = some w := by
  induction ws generalizing d with
  | nil => exact h
  | cons w ws ih => exact ih (exists_get?_set h w.workId w)

theorem forall_claimed (env : Supply) (limit : ℤ) (hs : s.WellFormed) (h : ∀ k w, s.work.get? k = some w → P k w)
    (hmoved : ∀ k w (env' : Supply), s.work.get? k = some w → w.status = .pending → P k (w.moved env' .running)) :
    ∀ k w, (setAllWork s.work (claimedRecords env (s.claimCandidates limit))).get? k = some w → P k w := by
  refine forall_setAllWork h ?_
  intro w hw
  obtain ⟨v, hv, env', rfl⟩ := mem_claimedRecords hw
  obtain ⟨hmem, hpending⟩ := claimCandidates_pending hv
  obtain ⟨k, hk⟩ := InsertionDict.mem_values_iff.mp hmem
  have hkey := hs.work_key k v hk
  subst hkey
  exact hmoved _ v env' hk hpending

theorem Effect.wellFormed {op : StoreOp} {r : EStateM.Result Exn InMemoryStore op.Result}
    (h : Effect env s op r) (hs : s.WellFormed) : r.state.WellFormed := by
  cases h with
  | raised e => exact hs
  | read v hv => exact hs
  | eventAppended event he => exact ⟨hs.goal_key, hs.work_key, hs.run_key, hs.question_key, hs.run_revision⟩
  | eventRepeated event => exact hs
  | goalCreated goal event hfresh =>
    exact ⟨forall_set hs.goal_key rfl, hs.work_key, hs.run_key, hs.question_key, hs.run_revision⟩
  | goalMoved hget hterm hmem =>
    have hkey := hs.goal_key _ _ hget
    exact ⟨forall_set hs.goal_key hkey, hs.work_key, hs.run_key,
      hs.question_key, hs.run_revision⟩
  | workCreated work event hfresh hgoal =>
    exact ⟨hs.goal_key, forall_set hs.work_key rfl, hs.run_key, hs.question_key, hs.run_revision⟩
  | workMoved hget hterm hmem htarget =>
    have hkey := hs.work_key _ _ hget
    exact ⟨hs.goal_key, forall_set hs.work_key hkey, hs.run_key,
      hs.question_key, hs.run_revision⟩
  | workSucceeded hget hterm hmem htype hid hstatus hev =>
    have hkey := hs.work_key _ _ hget
    exact ⟨hs.goal_key, forall_set hs.work_key hkey, hs.run_key,
      hs.question_key, hs.run_revision⟩
  | runCreated run event hfresh hwork hactive =>
    refine ⟨hs.goal_key, hs.work_key, forall_set hs.run_key rfl, hs.question_key, ?_⟩
    exact forall_set
      (fun k r hr => exists_get?_set (hs.run_revision k r hr) run.runId 1)
      ⟨1, get?_set_self _ _ _⟩
  | refAttached hget hrev hnone =>
    have hkey := hs.run_key _ _ hget
    refine ⟨hs.goal_key, hs.work_key, forall_set hs.run_key hkey, hs.question_key, ?_⟩
    exact forall_set
      (fun k r hr => exists_get?_set (hs.run_revision k r hr) _ _)
      ⟨_, get?_set_self _ _ _⟩
  | refReattached hget hrev hsome hsame => exact hs
  | runMoved hget hrev hterm hmem =>
    have hkey := hs.run_key _ _ hget
    refine ⟨hs.goal_key, hs.work_key, forall_set hs.run_key hkey, hs.question_key, ?_⟩
    exact forall_set
      (fun k r hr => exists_get?_set (hs.run_revision k r hr) _ _)
      ⟨_, get?_set_self _ _ _⟩
  | workClaimed limit =>
    exact ⟨hs.goal_key, forall_claimed env limit hs hs.work_key fun k w env' hw _ => hs.work_key k w hw, hs.run_key,
      hs.question_key, hs.run_revision⟩
  | questionCreated question hfresh hclash =>
    exact ⟨hs.goal_key, hs.work_key, hs.run_key, forall_set hs.question_key rfl, hs.run_revision⟩
  | questionAnswered hget hpending =>
    have hkey := hs.question_key _ _ hget
    exact ⟨hs.goal_key, hs.work_key, hs.run_key, forall_set hs.question_key hkey, hs.run_revision⟩

theorem wellFormed_step (s : InMemoryStore) (c : StoreCall) (hs : s.WellFormed) : (storeStep s c).WellFormed :=
  (exec_effect c.env hs c.op).wellFormed hs

theorem StoreReachable.wellFormed (h : StoreReachable s) : s.WellFormed :=
  MachineRuns.Reachable.invariant h InMemoryStore.wellFormed_empty wellFormed_step

end AllTomorrow
