import AllTomorrow.DomainTransitions

/-!
# The in-memory Goal/Work/Run store

`InMemoryGoalWorkRunStore` of `storage/semantic_store.py`. Every method body runs
under one lock and without an await inside, so a call is one atomic step. A call
is a computation in `EStateM`: an exception carries the state at the point where
it was raised, with every write made before it.
-/

namespace AllTomorrow

structure DeliverySignal where
  questionId : QuestionId
  signalCorrelation : String
  deriving DecidableEq, Repr

/-- The fields of `InMemoryGoalWorkRunStore`. A Run record has no revision field;
the store keeps Run revisions in a map of their own. -/
structure InMemoryStore where
  goals : InsertionDict GoalId GoalRecord
  work : InsertionDict WorkId WorkRecord
  runs : InsertionDict RunId RunRecord
  runRevisions : InsertionDict RunId ℤ
  events : List SemanticEvent
  questions : InsertionDict QuestionId QuestionRecordSemantic
  deliverySignals : List DeliverySignal
  outcomes : InsertionDict WorkId OutcomeRecord

abbrev StoreM := EStateM Exn InMemoryStore

namespace InMemoryStore

def empty : InMemoryStore := ⟨.empty, .empty, .empty, .empty, [], .empty, [], .empty⟩

def checkRevision (actual expected : ℤ) (kind ident : String) : Except Exn Unit :=
  if actual ≠ expected then
    .error (.storeConflictError (kind ++ " " ++ ident ++ " revision conflict: expected " ++
      toString expected ++ ", found " ++ toString actual))
  else .ok ()

/-- `self._events.append(event)`. -/
def pushEvent (event : SemanticEvent) : StoreM Unit :=
  modify fun s => { s with events := s.events ++ [event] }

def appendEvent (event : SemanticEvent) : StoreM Unit := do
  let s ← get
  if !(s.events.any fun e => e.eventId = event.eventId) then
    pushEvent event

def runRevision (s : InMemoryStore) (runId : RunId) : ℤ := (s.runRevisions.get? runId).getD 1

theorem runRevision_of_get? {s : InMemoryStore} {runId : RunId} {rev : ℤ}
    (h : s.runRevisions.get? runId = some rev) : s.runRevision runId = rev := by
  rw [runRevision, h, Option.getD_some]

/-! ## Goal -/

def createGoal (goal : GoalRecord) (event : SemanticEvent) : StoreM GoalRecord := do
  let s ← get
  if s.goals.contains goal.goalId then
    throw (.storeConflictError ("goal already exists: " ++ goal.goalId.val))
  modify fun s => { s with goals := s.goals.set goal.goalId goal }
  pushEvent event
  return goal

def transitionGoalStatus (env : Supply) (goalId : GoalId) (target : GoalStatus) (expectedRevision : ℤ)
    (event : SemanticEvent) (evidence : Option Evidence) : StoreM GoalRecord := do
  let s ← get
  match s.goals.get? goalId with
  | none => throw (.notFoundError ("goal not found: " ++ goalId.val))
  | some current =>
    MonadExcept.ofExcept (checkRevision current.revision expectedRevision "goal" goalId.val)
    let updated ← MonadExcept.ofExcept (transitionGoal env current target evidence)
    modify fun s => { s with goals := s.goals.set goalId updated }
    pushEvent event
    return updated

def createWork (work : WorkRecord) (event : SemanticEvent) : StoreM WorkRecord := do
  let s ← get
  if s.work.contains work.workId then
    throw (.storeConflictError ("work already exists: " ++ work.workId.val))
  if !s.goals.contains work.goalId then
    throw (.notFoundError ("goal not found for work: " ++ work.goalId.val))
  modify fun s => { s with work := s.work.set work.workId work }
  pushEvent event
  return work

def transitionWorkStatus (env : Supply) (workId : WorkId) (target : WorkStatus) (expectedRevision : ℤ)
    (event : SemanticEvent) (evidence : Option Evidence) : StoreM WorkRecord := do
  let s ← get
  match s.work.get? workId with
  | none => throw (.notFoundError ("work not found: " ++ workId.val))
  | some current =>
    MonadExcept.ofExcept (checkRevision current.revision expectedRevision "work" workId.val)
    let updated ← MonadExcept.ofExcept (transitionWork (env.sub 0) current target evidence)
    modify fun s => { s with work := s.work.set workId updated }
    pushEvent event
    if target = .succeeded then
      -- the outcome is computed a second time, after the Work and the event are written
      let outcome ← match evidence with
        | some (.outcome record) => pure record
        | evidence => MonadExcept.ofExcept (verifyCompletionEvidence (env.sub 1) .work workId.val evidence)
      modify fun s => { s with outcomes := s.outcomes.set workId outcome }
    return updated

/-! ## Run -/

def createRun (run : RunRecord) (event : SemanticEvent) : StoreM RunRecord := do
  let s ← get
  if s.runs.contains run.runId then
    throw (.storeConflictError ("run already exists: " ++ run.runId.val))
  if !s.work.contains run.workId then
    throw (.notFoundError ("work not found for run: " ++ run.workId.val))
  let existing := s.runs.values.filter fun r => r.workId = run.workId
  MonadExcept.ofExcept (assertActiveRunsInvariant (existing ++ [run]) 1)
  modify fun s => { s with runs := s.runs.set run.runId run }
  modify fun s => { s with runRevisions := s.runRevisions.set run.runId 1 }
  pushEvent event
  return run

/-- `self._run_revisions[run_id]`. -/
def storedRunRevision (runId : RunId) : StoreM ℤ := do
  let s ← get
  match s.runRevisions.get? runId with
  | none => throw (.keyError runId.val)
  | some revision => return revision

def attachExecutionRef (env : Supply) (runId : RunId) (expectedRevision : ℤ) (ref : ExecutionRef)
    (event : SemanticEvent) : StoreM RunRecord := do
  let s ← get
  match s.runs.get? runId with
  | none => throw (.notFoundError ("run not found: " ++ runId.val))
  | some current =>
    let revision ← storedRunRevision runId
    MonadExcept.ofExcept (checkRevision revision expectedRevision "run" runId.val)
    -- compare-and-set: never overwrite a different ref
    match current.executionRef with
    | some attached =>
      if sameRef attached ref then
        return current
      throw (.executionRefConflictError ("run " ++ runId.val ++ " already has a different ExecutionRef (" ++
        attached.backend ++ ":" ++ attached.executionId ++ ")"))
    | none =>
      let updated := { current with executionRef := some ref, updatedAt := env.utcNow }
      modify fun s => { s with runs := s.runs.set runId updated }
      modify fun s => { s with runRevisions := s.runRevisions.set runId (expectedRevision + 1) }
      pushEvent event
      return updated

def transitionRunStatus (env : Supply) (runId : RunId) (target : RunStatus) (expectedRevision : ℤ)
    (event : SemanticEvent) (executionRef : Option ExecutionRef) : StoreM RunRecord := do
  let s ← get
  match s.runs.get? runId with
  | none => throw (.notFoundError ("run not found: " ++ runId.val))
  | some current =>
    let revision ← storedRunRevision runId
    MonadExcept.ofExcept (checkRevision revision expectedRevision "run" runId.val)
    let updated ← MonadExcept.ofExcept (transitionRun env current target executionRef)
    modify fun s => { s with runs := s.runs.set runId updated }
    modify fun s => { s with runRevisions := s.runRevisions.set runId (expectedRevision + 1) }
    pushEvent event
    return updated

def findReconciliationCandidates (s : InMemoryStore) : List RunRecord :=
  s.runs.values.filter fun r => r.status = .starting && r.executionRef.isNone

/-- `e.payload.get("executor") == "overseer"`. -/
def heldByOverseer (e : SemanticEvent) : Bool :=
  match e.payload.get? "executor" with
  | some (.str name) => name = "overseer"
  | _ => false

def claimable (s : InMemoryStore) (w : WorkRecord) : Bool :=
  w.status = .pending && !(s.events.any fun e => e.workId = some w.workId && heldByOverseer e)

/-- Comparison of the sort keys `(-w.priority, w.created_at)`. -/
def ClaimBefore (a b : WorkRecord) : Prop :=
  -a.priority < -b.priority ∨ (-a.priority = -b.priority ∧ a.createdAt ≤ b.createdAt)

instance : DecidableRel ClaimBefore := fun a b => by unfold ClaimBefore; infer_instance

def claimCandidates (s : InMemoryStore) (limit : ℤ) : List WorkRecord :=
  pySliceTo ((s.work.values.filter s.claimable).insertionSort ClaimBefore) limit

def claimedEvent (env : Supply) (workId : WorkId) : SemanticEvent :=
  { eventId := newEventId env, actor := "executor", type := "work.claimed", occurredAt := env.utcNow,
    workId := some workId }

def claimLoop (env : Supply) : List WorkRecord → StoreM (List WorkRecord)
  | [] => return []
  | w :: rest => do
    let updated ← MonadExcept.ofExcept (transitionWork (env.sub 0) w .running)
    modify fun s => { s with work := s.work.set w.workId updated }
    pushEvent (claimedEvent (env.sub 1) w.workId)
    let claimed ← claimLoop (env.sub 2) rest
    return updated :: claimed

def claimPendingWork (env : Supply) (limit : ℤ) : StoreM (List WorkRecord) := do
  let s ← get
  claimLoop env (s.claimCandidates limit)

def createQuestion (question : QuestionRecordSemantic) : StoreM QuestionRecordSemantic := do
  let s ← get
  if s.questions.contains question.questionId then
    throw (.storeConflictError ("question already exists: " ++ question.questionId.val))
  if question.status = .pending then
    if let some workId := question.workId then
      if s.questions.values.any fun q => q.workId = some workId && q.status = .pending then
        throw (.pendingQuestionExistsError ("work " ++ workId.val ++ " already has a PENDING question"))
  modify fun s => { s with questions := s.questions.set question.questionId question }
  return question

def answerQuestion (env : Supply) (questionId : QuestionId) (expectedRevision : ℤ)
    (answerRef signalCorrelation : String) : StoreM QuestionRecordSemantic := do
  let s ← get
  match s.questions.get? questionId with
  | none => throw (.notFoundError ("question not found: " ++ questionId.val))
  | some current =>
    MonadExcept.ofExcept (checkRevision current.revision expectedRevision "question" questionId.val)
    if current.status ≠ .pending then
      throw (.storeConflictError ("question " ++ questionId.val ++ " is not PENDING (status=" ++
        current.status.value ++ ")"))
    let now := env.utcNow
    let updated := { current with
      status := .answered
      answerRef := some answerRef
      signalCorrelation := some signalCorrelation
      revision := current.revision + 1
      updatedAt := now
      answeredAt := some now }
    modify fun s => { s with questions := s.questions.set questionId updated }
    modify fun s => { s with deliverySignals := s.deliverySignals ++ [⟨questionId, signalCorrelation⟩] }
    return updated

def listGoals (s : InMemoryStore) (userId : Option String) : List GoalRecord :=
  match userId with
  | none => s.goals.values
  | some user => s.goals.values.filter fun g => g.userId = user

def listWork (s : InMemoryStore) (goalId : GoalId) : List WorkRecord :=
  s.work.values.filter fun w => w.goalId = goalId

def listRuns (s : InMemoryStore) (workId : WorkId) : List RunRecord :=
  s.runs.values.filter fun r => r.workId = workId

def listEvents (s : InMemoryStore) (goalId : Option GoalId) (workId : Option WorkId) (runId : Option RunId) :
    List SemanticEvent :=
  s.events.filter fun e =>
    (goalId.isNone || e.goalId = goalId) && (workId.isNone || e.workId = workId) &&
      (runId.isNone || e.runId = runId)

def listQuestions (s : InMemoryStore) (workId : WorkId) : List QuestionRecordSemantic :=
  (s.questions.values.filter fun q => q.workId = some workId).insertionSort
    fun a b => a.createdAt ≤ b.createdAt

end InMemoryStore

/-! ## The operations as data -/

inductive StoreOp where
  | appendEvent (event : SemanticEvent)
  | createGoal (goal : GoalRecord) (event : SemanticEvent)
  | transitionGoalStatus (goalId : GoalId) (target : GoalStatus) (expectedRevision : ℤ)
      (event : SemanticEvent) (evidence : Option Evidence)
  | createWork (work : WorkRecord) (event : SemanticEvent)
  | transitionWorkStatus (workId : WorkId) (target : WorkStatus) (expectedRevision : ℤ)
      (event : SemanticEvent) (evidence : Option Evidence)
  | createRun (run : RunRecord) (event : SemanticEvent)
  | attachExecutionRef (runId : RunId) (expectedRevision : ℤ) (ref : ExecutionRef) (event : SemanticEvent)
  | transitionRunStatus (runId : RunId) (target : RunStatus) (expectedRevision : ℤ)
      (event : SemanticEvent) (executionRef : Option ExecutionRef)
  | claimPendingWork (limit : ℤ)
  | createQuestion (question : QuestionRecordSemantic)
  | answerQuestion (questionId : QuestionId) (expectedRevision : ℤ) (answerRef signalCorrelation : String)
  | getGoal (goalId : GoalId)
  | listGoals (userId : Option String)
  | getWork (workId : WorkId)
  | listWork (goalId : GoalId)
  | getRun (runId : RunId)
  | listRuns (workId : WorkId)
  | runRevision (runId : RunId)
  | findReconciliationCandidates
  | listEvents (goalId : Option GoalId) (workId : Option WorkId) (runId : Option RunId)
  | getOutcome (workId : WorkId)
  | getQuestion (questionId : QuestionId)
  | listQuestions (workId : WorkId)

@[reducible] def StoreOp.Result : StoreOp → Type
  | .appendEvent _ => Unit
  | .createGoal _ _ => GoalRecord
  | .transitionGoalStatus .. => GoalRecord
  | .createWork _ _ => WorkRecord
  | .transitionWorkStatus .. => WorkRecord
  | .createRun _ _ => RunRecord
  | .attachExecutionRef .. => RunRecord
  | .transitionRunStatus .. => RunRecord
  | .claimPendingWork _ => List WorkRecord
  | .createQuestion _ => QuestionRecordSemantic
  | .answerQuestion .. => QuestionRecordSemantic
  | .getGoal _ => Option GoalRecord
  | .listGoals _ => List GoalRecord
  | .getWork _ => Option WorkRecord
  | .listWork _ => List WorkRecord
  | .getRun _ => Option RunRecord
  | .listRuns _ => List RunRecord
  | .runRevision _ => ℤ
  | .findReconciliationCandidates => List RunRecord
  | .listEvents .. => List SemanticEvent
  | .getOutcome _ => Option OutcomeRecord
  | .getQuestion _ => Option QuestionRecordSemantic
  | .listQuestions _ => List QuestionRecordSemantic

def readStore {α : Type} (view : InMemoryStore → α) : StoreM α := do
  let s ← get
  return view s

def StoreOp.exec (env : Supply) : (op : StoreOp) → StoreM op.Result
  | .appendEvent event => InMemoryStore.appendEvent event
  | .createGoal goal event => InMemoryStore.createGoal goal event
  | .transitionGoalStatus goalId target rev event evidence =>
      InMemoryStore.transitionGoalStatus env goalId target rev event evidence
  | .createWork work event => InMemoryStore.createWork work event
  | .transitionWorkStatus workId target rev event evidence =>
      InMemoryStore.transitionWorkStatus env workId target rev event evidence
  | .createRun run event => InMemoryStore.createRun run event
  | .attachExecutionRef runId rev ref event => InMemoryStore.attachExecutionRef env runId rev ref event
  | .transitionRunStatus runId target rev event ref =>
      InMemoryStore.transitionRunStatus env runId target rev event ref
  | .claimPendingWork limit => InMemoryStore.claimPendingWork env limit
  | .createQuestion question => InMemoryStore.createQuestion question
  | .answerQuestion questionId rev answerRef correlation =>
      InMemoryStore.answerQuestion env questionId rev answerRef correlation
  | .getGoal goalId => readStore fun s => s.goals.get? goalId
  | .listGoals userId => readStore fun s => s.listGoals userId
  | .getWork workId => readStore fun s => s.work.get? workId
  | .listWork goalId => readStore fun s => s.listWork goalId
  | .getRun runId => readStore fun s => s.runs.get? runId
  | .listRuns workId => readStore fun s => s.listRuns workId
  | .runRevision runId => readStore fun s => s.runRevision runId
  | .findReconciliationCandidates => readStore InMemoryStore.findReconciliationCandidates
  | .listEvents goalId workId runId => readStore fun s => s.listEvents goalId workId runId
  | .getOutcome workId => readStore fun s => s.outcomes.get? workId
  | .getQuestion questionId => readStore fun s => s.questions.get? questionId
  | .listQuestions workId => readStore fun s => s.listQuestions workId

end AllTomorrow
