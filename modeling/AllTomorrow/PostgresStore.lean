import AllTomorrow.PostgresTables

/-!
# The PostgreSQL Goal/Work/Run store

`PostgresGoalWorkRunStore` of `storage/semantic_store.py`, method by method. A method
runs its statements on one connection; what it does after the connection has been given
back, while other tasks of the process may have run, is kept apart.
-/

namespace AllTomorrow

/-- A method: the part that has the connection, and what follows when it is given back. -/
structure PgCall (α : Type) where
  Row : Type
  connection : PgM Row
  after : Row → LocalM α

def PgCall.inside {α : Type} (connection : PgM α) : PgCall α := ⟨α, connection, pure⟩

def PgCall.exec {α : Type} (c : PgCall α) : PgM α := do
  let row ← c.connection
  inProcess (c.after row)

namespace PostgresStore

open InMemoryStore

/-! ## `_RUN_REVISIONS` and rows -/

def setRunRevision (runId : RunId) (revision : ℤ) : LocalM Unit := modify fun d => d.set runId revision

/-- `_run_revision`. -/
def runRevisionOf (run : RunRecord) : LocalM ℤ := do
  let d ← get
  return (d.get? run.runId).getD 1

def rowOfRun (run : RunRecord) (revision : ℤ) : RunRow where
  runId := run.runId
  workId := run.workId
  status := run.status
  attemptNumber := run.attemptNumber
  executionBackend := run.executionRef.map ExecutionRef.backend
  executionId := run.executionRef.map ExecutionRef.executionId
  executionVersion := run.executionRef.map ExecutionRef.executionVersion
  revision := revision
  createdAt := run.createdAt
  updatedAt := run.updatedAt
  terminalAt := run.terminalAt

/-- `row[6] or 1`. -/
def rowVersion (row : RunRow) : ℤ :=
  match row.executionVersion with
  | some version => if version = 0 then 1 else version
  | none => 1

/-- The reference of a row is stamped with the instant at which the row is read. -/
def refFromRow (env : Supply) (row : RunRow) : Except Exn (Option ExecutionRef) :=
  match row.executionBackend, row.executionId with
  | some backend, some executionId => do
    let ref ← ExecutionRef.new backend executionId (rowVersion row) env.utcNow
    return some ref
  | _, _ => return none

def runFromRow (env : Supply) (row : RunRow) : LocalM RunRecord := do
  let ref ← MonadExcept.ofExcept (refFromRow env row)
  let run : RunRecord :=
    { runId := row.runId, workId := row.workId, status := row.status, attemptNumber := row.attemptNumber,
      executionRef := ref, createdAt := row.createdAt, updatedAt := row.updatedAt, terminalAt := row.terminalAt }
  setRunRevision run.runId row.revision
  return run

def runsFromRows (env : Supply) : List RunRow → LocalM (List RunRecord)
  | [] => return []
  | row :: rest => do
    let run ← runFromRow (env.sub 0) row
    let runs ← runsFromRows (env.sub 1) rest
    return run :: runs

def eventTexts (event : SemanticEvent) : List String :=
  [event.eventId.val, event.actor, event.type] ++ (event.goalId.map GoalId.val).toList ++
    (event.workId.map WorkId.val).toList ++ (event.runId.map RunId.val).toList ++ event.traceId.toList ++
    event.externalRef.toList

def eventFits (event : SemanticEvent) (db : Database) : Except Exn Unit := do
  storeJson (Column.jsonDict event.payload && event.artifactRefs.all Column.text)
  uniqueConstraint "semantic_events_pkey" (db.semanticEvents.contains event.eventId)

/-- `_append_event_conn`. -/
def appendEventConn (event : SemanticEvent) : PgM Unit :=
  insertRow (eventTexts event) (eventFits event) (.event event)

def appendEvent (event : SemanticEvent) : PgM Unit := appendEventConn event

def goalTexts (goal : GoalRecord) : List String :=
  [goal.goalId.val, goal.userId, goal.title, goal.commitment] ++ goal.completionPolicyRef.toList

def goalFits (goal : GoalRecord) (db : Database) : Except Exn Unit := do
  storeInteger goal.priority
  storeRevision "goals" goal.revision
  uniqueConstraint "goals_pkey" (db.goals.contains goal.goalId)

def createGoal (goal : GoalRecord) (event : SemanticEvent) : PgM GoalRecord := do
  transaction do
    insertRow (goalTexts goal) (goalFits goal) (.goal goal)
    appendEventConn event
  return goal

def transitionGoalStatus (env : Supply) (goalId : GoalId) (target : GoalStatus) (expectedRevision : ℤ)
    (event : SemanticEvent) (evidence : Option Evidence) : PgM GoalRecord :=
  transaction do
    match ← selectForUpdate [goalId.val] (fun db => .ok (db.goals.get? goalId))
      (fun row => row.toList.map fun _ => RowKey.goal goalId) with
    | none => throw (.notFoundError ("goal not found: " ++ goalId.val))
    | some current =>
      MonadExcept.ofExcept (checkRevision current.revision expectedRevision "goal" goalId.val)
      let updated ← MonadExcept.ofExcept (transitionGoal env current target evidence)
      match ← updateRow [goalId.val]
          (fun db => (db.goals.get? goalId).bind fun row =>
            if row.revision = expectedRevision then
              some { row with status := updated.status, revision := updated.revision
                              updatedAt := updated.updatedAt, terminalAt := updated.terminalAt }
            else none)
          (fun _ row => storeRevision "goals" row.revision) RowWrite.goal with
      | none => throw (.storeConflictError ("goal " ++ goalId.val ++ " revision conflict"))
      | some _ =>
        appendEventConn event
        return updated

def workTexts (work : WorkRecord) : List String := [work.workId.val, work.goalId.val, work.title]

def workFits (work : WorkRecord) (db : Database) : Except Exn Unit := do
  storeInteger work.priority
  storeRevision "work_items" work.revision
  uniqueConstraint "work_items_pkey" (db.workItems.contains work.workId)
  foreignKey "work_items" "goal_id" "goals" work.goalId.val (db.goals.contains work.goalId)

def createWork (work : WorkRecord) (event : SemanticEvent) : PgM WorkRecord := do
  transaction do
    match ← select [work.goalId.val] (fun db => .ok (db.goals.get? work.goalId)) with
    | none => throw (.notFoundError ("goal not found for work: " ++ work.goalId.val))
    | some _ =>
      insertRow (workTexts work) (workFits work) (.work work)
      appendEventConn event
  return work

def outcomeTexts (outcome : OutcomeRecord) : List String :=
  [outcome.outcomeId.val, outcome.targetId] ++
    outcome.evidence.toList.flatMap fun e => [e.criterionRef, e.evaluatorRef, e.evaluatorVersion]

def rowOfOutcome (outcome : OutcomeRecord) : OutcomeRow where
  outcomeId := outcome.outcomeId
  targetType := outcome.targetType
  targetId := outcome.targetId
  status := outcome.status
  criterionRef := outcome.evidence.map CompletionEvidence.criterionRef
  evaluatorRef := outcome.evidence.map CompletionEvidence.evaluatorRef
  evaluatorVersion := outcome.evidence.map CompletionEvidence.evaluatorVersion
  observedValues := (outcome.evidence.map CompletionEvidence.observedValues).getD .empty
  evidenceRefs := (outcome.evidence.map CompletionEvidence.evidenceRefs).getD []
  artifactRefs := (outcome.evidence.map CompletionEvidence.artifactRefs).getD []
  details := outcome.details
  createdAt := outcome.createdAt

def outcomeFits (row : OutcomeRow) : Except Exn Unit := do
  storeJson (Column.jsonDict row.observedValues && row.evidenceRefs.all Column.text &&
    row.artifactRefs.all Column.text && Column.jsonDict row.details)
  checkConstraint "outcomes" "outcomes_satisfied_requires_evidence"
    (row.status ≠ .satisfied || (row.criterionRef.isSome && row.evaluatorRef.isSome))

/-- `_insert_outcome_conn`; an identifier that is taken already is passed over. -/
def insertOutcomeConn (outcome : OutcomeRecord) : PgM Unit :=
  statement (outcomeTexts outcome) fun db => do
    outcomeFits (rowOfOutcome outcome)
    return ((), if db.outcomes.contains outcome.outcomeId then [] else [.outcome (rowOfOutcome outcome)], [])

/-- `SELECT ... FROM work_items WHERE work_id = %s FOR UPDATE`. -/
def lockWork (workId : WorkId) : PgM (Option WorkRecord) :=
  selectForUpdate [workId.val] (fun db => .ok (db.workItems.get? workId))
    (fun row => row.toList.map fun _ => RowKey.work workId)

def transitionWorkStatus (env : Supply) (workId : WorkId) (target : WorkStatus) (expectedRevision : ℤ)
    (event : SemanticEvent) (evidence : Option Evidence) : PgM WorkRecord :=
  transaction do
    match ← lockWork workId with
    | none => throw (.notFoundError ("work not found: " ++ workId.val))
    | some current =>
      MonadExcept.ofExcept (checkRevision current.revision expectedRevision "work" workId.val)
      let updated ← MonadExcept.ofExcept (transitionWork (env.sub 0) current target evidence)
      match ← updateRow [workId.val]
          (fun db => (db.workItems.get? workId).bind fun row =>
            if row.revision = expectedRevision then
              some { row with status := updated.status, revision := updated.revision
                              updatedAt := updated.updatedAt, terminalAt := updated.terminalAt }
            else none)
          (fun _ row => storeRevision "work_items" row.revision) RowWrite.work with
      | none => throw (.storeConflictError ("work " ++ workId.val ++ " revision conflict"))
      | some _ =>
        appendEventConn event
        if target = .succeeded then
          let outcome ← match evidence with
            | some (.outcome record) => pure record
            | evidence => MonadExcept.ofExcept (verifyCompletionEvidence (env.sub 1) .work workId.val evidence)
          insertOutcomeConn outcome
        return updated

/-! ## Run -/

/-- `"unique" in str(exc).lower()` and the like. -/
def mentions (word text : String) : Bool := (text.toLower.splitOn word).length ≠ 1

def isUniqueViolation : Exn → Bool
  | .foreign kind message => kind = "UniqueViolation" || mentions "unique" message || mentions "duplicate" message
  | e => mentions "unique" e.text || mentions "duplicate" e.text

/-- `except Exception as exc` around one statement. -/
def onUniqueViolation {α : Type} (x : PgM α) (replacement : Exn) : PgM α := fun p =>
  match x p with
  | .ok a p' => .ok a p'
  | .error e p' => .error (if isUniqueViolation e then replacement else e) p'

def runTexts (run : RunRecord) : List String :=
  [run.runId.val, run.workId.val] ++ run.executionRef.toList.flatMap fun ref => [ref.backend, ref.executionId]

def runColumns (row : RunRow) : Except Exn Unit := do
  storeInteger row.attemptNumber
  storeInteger (row.executionVersion.getD 1)
  storeRevision "runs_semantic" row.revision
  checkConstraint "runs_semantic" "runs_semantic_attempt_number_check" (1 ≤ row.attemptNumber)
  checkConstraint "runs_semantic" "runs_semantic_execution_version_check" (1 ≤ row.executionVersion.getD 1)

/-- Another Run of the Work has the entry of `one_active_run_per_work`. -/
def activeTaken (row : RunRow) (db : Database) : Bool :=
  row.isActive && db.runsSemantic.values.any fun r => r.runId ≠ row.runId && r.workId = row.workId && r.isActive

def runFits (row : RunRow) (db : Database) : Except Exn Unit := do
  runColumns row
  uniqueConstraint "runs_semantic_pkey" (db.runsSemantic.contains row.runId)
  uniqueConstraint "one_active_run_per_work" (activeTaken row db)
  foreignKey "runs_semantic" "work_id" "work_items" row.workId.val (db.workItems.contains row.workId)

def runUpdateFits (db : Database) (row : RunRow) : Except Exn Unit := do
  runColumns row
  uniqueConstraint "one_active_run_per_work" (activeTaken row db)

def createRun (run : RunRecord) (event : SemanticEvent) : PgCall RunRecord where
  Row := Unit
  connection := transaction do
    match ← select [run.workId.val] (fun db => .ok (db.workItems.get? run.workId)) with
    | none => throw (.notFoundError ("work not found for run: " ++ run.workId.val))
    | some _ =>
      onUniqueViolation (insertRow (runTexts run) (runFits (rowOfRun run 1)) (.run (rowOfRun run 1)))
        (.invariantViolationError ("work " ++ run.workId.val ++ " already has an active Run"))
      appendEventConn event
  after _ := do
    setRunRevision run.runId 1
    return run

def selectRun (runId : RunId) : PgM (Option RunRow) :=
  select [runId.val] fun db => .ok (db.runsSemantic.get? runId)

def getRun (env : Supply) (runId : RunId) : PgCall (Option RunRecord) where
  Row := Option RunRow
  connection := selectRun runId
  after
    | none => return none
    | some row => do
      let run ← runFromRow env row
      return some run

def listRuns (server : PgServer) (env : Supply) (workId : WorkId) : PgCall (List RunRecord) where
  Row := List RunRow
  connection := select [workId.val] fun db =>
    .ok (server.scan (db.runsSemantic.values.filter fun row => row.workId = workId))
  after := runsFromRows env

def lockRun (runId : RunId) : PgM (Option RunRow) :=
  selectForUpdate [runId.val] (fun db => .ok (db.runsSemantic.get? runId)) (fun row => row.toList.flatMap RunRow.keys)

def attachExecutionRef (env : Supply) (runId : RunId) (expectedRevision : ℤ) (ref : ExecutionRef)
    (event : SemanticEvent) : PgM RunRecord :=
  transaction do
    match ← lockRun runId with
    | none => throw (.notFoundError ("run not found: " ++ runId.val))
    | some row =>
      let current ← inProcess (runFromRow (env.sub 0) row)
      let revision ← inProcess (runRevisionOf current)
      MonadExcept.ofExcept (checkRevision revision expectedRevision "run" runId.val)
      match current.executionRef with
      | some attached =>
        if sameRef attached ref then
          return current
        throw (.executionRefConflictError ("run " ++ runId.val ++ " already has a different ExecutionRef"))
      | none =>
        match ← updateRow [ref.backend, ref.executionId, runId.val]
            (fun db => (db.runsSemantic.get? runId).bind fun row =>
              if row.revision = expectedRevision ∧ row.executionBackend = none then
                some { row with executionBackend := some ref.backend, executionId := some ref.executionId
                                executionVersion := some ref.executionVersion, revision := row.revision + 1
                                updatedAt := env.utcNow }
              else none)
            runUpdateFits RowWrite.run with
        | none =>
          throw (.executionRefConflictError
            ("run " ++ runId.val ++ " ExecutionRef attach lost the compare-and-set race"))
        | some newRow =>
          appendEventConn event
          -- the record that is returned carries a second reading of the clock
          let updated := { current with executionRef := some ref, updatedAt := (env.sub 1).utcNow }
          inProcess (setRunRevision updated.runId newRow.revision)
          return updated

def transitionRunStatus (env : Supply) (runId : RunId) (target : RunStatus) (expectedRevision : ℤ)
    (event : SemanticEvent) (executionRef : Option ExecutionRef) : PgM RunRecord :=
  transaction do
    match ← lockRun runId with
    | none => throw (.notFoundError ("run not found: " ++ runId.val))
    | some row =>
      let current ← inProcess (runFromRow (env.sub 0) row)
      let revision ← inProcess (runRevisionOf current)
      MonadExcept.ofExcept (checkRevision revision expectedRevision "run" runId.val)
      let updated ← MonadExcept.ofExcept (transitionRun env current target executionRef)
      match ← updateRow (runId.val :: updated.executionRef.toList.flatMap fun ref => [ref.backend, ref.executionId])
          (fun db => (db.runsSemantic.get? runId).bind fun row =>
            if row.revision = expectedRevision then
              some { row with status := updated.status
                              executionBackend := updated.executionRef.map ExecutionRef.backend
                              executionId := updated.executionRef.map ExecutionRef.executionId
                              executionVersion := updated.executionRef.map ExecutionRef.executionVersion
                              revision := row.revision + 1
                              updatedAt := updated.updatedAt, terminalAt := updated.terminalAt }
            else none)
          runUpdateFits RowWrite.run with
      | none => throw (.storeConflictError ("run " ++ runId.val ++ " revision conflict"))
      | some newRow =>
        appendEventConn event
        inProcess (setRunRevision updated.runId newRow.revision)
        return updated

def findReconciliationCandidates (server : PgServer) (env : Supply) : PgCall (List RunRecord) where
  Row := List RunRow
  connection := select [] fun db =>
    .ok (server.scan (db.runsSemantic.values.filter fun row => row.status = .starting && row.executionBackend.isNone))
  after := runsFromRows env

/-- A Run that is in `_RUN_REVISIONS` is not looked up in the table. -/
def currentRunRevision (env : Supply) (runId : RunId) : PgCall ℤ where
  Row := ℤ ⊕ Option RunRow
  connection := do
    let p ← get
    match p.runRevisions.get? runId with
    | some revision => return .inl revision
    | none =>
      let row ← selectRun runId
      return .inr row
  after
    | .inl revision => return revision
    | .inr none => throw (.notFoundError ("run not found: " ++ runId.val))
    | .inr (some row) => do
      let run ← runFromRow env row
      runRevisionOf run

/-- The WHERE clause of the claim; `payload->>'executor'` is the text of the value. -/
def claimableRow (db : Database) (row : WorkRecord) : Bool :=
  row.status = .pending &&
    !(db.semanticEvents.values.any fun e => e.workId = some row.workId && heldByOverseer e)

def storeLimit (limit : ℤ) : Except Exn Unit := do
  storeBigint limit
  if limit < 0 then .error (dbError "InvalidRowCountInLimitClause" "LIMIT must not be negative") else .ok ()

/-- `ORDER BY priority DESC, created_at FOR UPDATE SKIP LOCKED LIMIT %s`. -/
def claimRows (server : PgServer) (limit : ℤ) (db : Database) : Except Exn (List WorkRecord) := do
  storeLimit limit
  let ordered := (server.scan (db.workItems.values.filter (claimableRow db))).insertionSort ClaimBefore
  return (ordered.filter fun row => !server.locked row.workId).take limit.toNat

/-- The loop over the locked rows. The update leaves `terminal_at` as it is. -/
def claimLoop (env : Supply) : List WorkRecord → PgM (List WorkRecord)
  | [] => return []
  | current :: rest => do
    let updated ← MonadExcept.ofExcept (transitionWork (env.sub 0) current .running)
    match ← updateRow [current.workId.val]
        (fun db => (db.workItems.get? current.workId).bind fun row =>
          if row.revision = current.revision then
            some { row with status := updated.status, revision := updated.revision, updatedAt := updated.updatedAt }
          else none)
        (fun _ row => storeRevision "work_items" row.revision) RowWrite.work with
    | none => claimLoop (env.sub 2) rest
    | some _ =>
      appendEventConn (claimedEvent (env.sub 1) current.workId)
      let claimed ← claimLoop (env.sub 2) rest
      return updated :: claimed

def claimPendingWork (server : PgServer) (env : Supply) (limit : ℤ) : PgM (List WorkRecord) :=
  transaction do
    let rows ← selectForUpdate [] (claimRows server limit) (List.map fun row => RowKey.work row.workId)
    claimLoop env rows

def evidenceFromRow (env : Supply) (row : OutcomeRow) : Except Exn (Option CompletionEvidence) :=
  match row.criterionRef, row.evaluatorRef, row.evaluatorVersion with
  | some criterionRef, some evaluatorRef, some evaluatorVersion =>
    if criterionRef = "" ∨ evaluatorRef = "" ∨ evaluatorVersion = "" then .ok none
    else if hc : PyText.isBlank criterionRef = true then
      .error (.valueError "CompletionEvidence.criterion_ref must be non-empty")
    else if he : PyText.isBlank evaluatorRef = true then
      .error (.valueError "CompletionEvidence.evaluator_ref must be non-empty")
    else if hv : PyText.isBlank evaluatorVersion = true then
      .error (.valueError "CompletionEvidence.evaluator_version must be non-empty")
    else
      .ok (some ⟨criterionRef, evaluatorRef, evaluatorVersion, row.observedValues, row.evidenceRefs, row.artifactRefs,
        env.utcNow, PyText.isBlank_eq_false hc, PyText.isBlank_eq_false he, PyText.isBlank_eq_false hv⟩)
  | _, _, _ => .ok none

def outcomeFromRow (env : Supply) (row : OutcomeRow) : Except Exn OutcomeRecord := do
  let evidence ← evidenceFromRow env row
  let record ← OutcomeRecord.new env row.outcomeId row.targetType row.targetId row.status evidence
  return { record with details := row.details, createdAt := row.createdAt }

/-- `ORDER BY created_at DESC LIMIT 1`. -/
def latestOutcome (server : PgServer) (workId : WorkId) (db : Database) : Option OutcomeRow :=
  ((server.scan (db.outcomes.values.filter fun row => row.targetType = .work && row.targetId = workId.val)).insertionSort
    fun a b => b.createdAt ≤ a.createdAt).head?

def getOutcome (server : PgServer) (env : Supply) (workId : WorkId) : PgCall (Option OutcomeRecord) where
  Row := Option OutcomeRow
  connection := select [workId.val] fun db => .ok (latestOutcome server workId db)
  after
    | none => return none
    | some row => do
      let outcome ← MonadExcept.ofExcept (outcomeFromRow env row)
      return some outcome

def questionTexts (question : QuestionRecordSemantic) : List String :=
  [question.questionId.val, question.prompt] ++ (question.workId.map WorkId.val).toList ++
    (question.runId.map RunId.val).toList ++ question.answerRef.toList ++ question.signalCorrelation.toList

def pendingTaken (question : QuestionRecordSemantic) (db : Database) : Bool :=
  question.status = .pending && question.workId.isSome &&
    db.questionsSemantic.values.any fun q => q.workId = question.workId && q.status = .pending

def questionFits (question : QuestionRecordSemantic) (db : Database) : Except Exn Unit := do
  storeRevision "questions_semantic" question.revision
  uniqueConstraint "questions_semantic_pkey" (db.questionsSemantic.contains question.questionId)
  uniqueConstraint "one_pending_question_per_work" (pendingTaken question db)
  if let some workId := question.workId then
    foreignKey "questions_semantic" "work_id" "work_items" workId.val (db.workItems.contains workId)
  if let some runId := question.runId then
    foreignKey "questions_semantic" "run_id" "runs_semantic" runId.val (db.runsSemantic.contains runId)

def createQuestion (question : QuestionRecordSemantic) : PgM QuestionRecordSemantic := do
  onUniqueViolation (insertRow (questionTexts question) (questionFits question) (.question question))
    (.pendingQuestionExistsError ("work " ++ (question.workId.map WorkId.val).getD "None" ++
      " already has a PENDING question"))
  return question

def answerQuestion (env : Supply) (questionId : QuestionId) (expectedRevision : ℤ)
    (answerRef signalCorrelation : String) : PgM QuestionRecordSemantic :=
  transaction do
    match ← selectForUpdate [questionId.val] (fun db => .ok (db.questionsSemantic.get? questionId))
      (fun row => row.toList.flatMap questionKeys) with
    | none => throw (.notFoundError ("question not found: " ++ questionId.val))
    | some current =>
      MonadExcept.ofExcept (checkRevision current.revision expectedRevision "question" questionId.val)
      if current.status ≠ .pending then
        throw (.storeConflictError ("question " ++ questionId.val ++ " is not PENDING"))
      let now := env.utcNow
      match ← updateRow [answerRef, signalCorrelation, questionId.val]
          (fun db => (db.questionsSemantic.get? questionId).bind fun row =>
            if row.revision = expectedRevision ∧ row.status = .pending then
              some { row with status := .answered, answerRef := some answerRef
                              signalCorrelation := some signalCorrelation, revision := row.revision + 1
                              updatedAt := now, answeredAt := some now }
            else none)
          (fun _ row => storeRevision "questions_semantic" row.revision) RowWrite.question with
      | none => throw (.storeConflictError ("question " ++ questionId.val ++ " revision conflict"))
      | some newRow =>
        return { current with
          status := .answered
          answerRef := some answerRef
          signalCorrelation := some signalCorrelation
          revision := newRow.revision
          updatedAt := now
          answeredAt := some now }

end PostgresStore

def goalWhere (userId : Option String) (goal : GoalRecord) : Bool := userId.isNone || some goal.userId = userId

def eventWhere (goalId : Option GoalId) (workId : Option WorkId) (runId : Option RunId) (e : SemanticEvent) : Bool :=
  (goalId.isNone || e.goalId = goalId) && (workId.isNone || e.workId = workId) && (runId.isNone || e.runId = runId)

def StoreOp.postgres (server : PgServer) (env : Supply) : (op : StoreOp) → PgCall op.Result
  | .appendEvent event => .inside (PostgresStore.appendEvent event)
  | .createGoal goal event => .inside (PostgresStore.createGoal goal event)
  | .transitionGoalStatus goalId target rev event evidence =>
      .inside (PostgresStore.transitionGoalStatus env goalId target rev event evidence)
  | .createWork work event => .inside (PostgresStore.createWork work event)
  | .transitionWorkStatus workId target rev event evidence =>
      .inside (PostgresStore.transitionWorkStatus env workId target rev event evidence)
  | .createRun run event => PostgresStore.createRun run event
  | .attachExecutionRef runId rev ref event => .inside (PostgresStore.attachExecutionRef env runId rev ref event)
  | .transitionRunStatus runId target rev event ref =>
      .inside (PostgresStore.transitionRunStatus env runId target rev event ref)
  | .claimPendingWork limit => .inside (PostgresStore.claimPendingWork server env limit)
  | .createQuestion question => .inside (PostgresStore.createQuestion question)
  | .answerQuestion questionId rev answerRef correlation =>
      .inside (PostgresStore.answerQuestion env questionId rev answerRef correlation)
  | .getGoal goalId => .inside (select [goalId.val] fun db => .ok (db.goals.get? goalId))
  | .listGoals userId =>
      .inside (select userId.toList fun db => .ok (server.scan (db.goals.values.filter (goalWhere userId))))
  | .getWork workId => .inside (select [workId.val] fun db => .ok (db.workItems.get? workId))
  | .listWork goalId =>
      .inside (select [goalId.val] fun db => .ok (server.scan (db.workItems.values.filter fun w => w.goalId = goalId)))
  | .getRun runId => PostgresStore.getRun env runId
  | .listRuns workId => PostgresStore.listRuns server env workId
  | .runRevision runId => PostgresStore.currentRunRevision env runId
  | .findReconciliationCandidates => PostgresStore.findReconciliationCandidates server env
  | .listEvents goalId workId runId =>
      .inside (select ((goalId.map GoalId.val).toList ++ (workId.map WorkId.val).toList ++ (runId.map RunId.val).toList)
        fun db => .ok ((server.scan (db.semanticEvents.values.filter (eventWhere goalId workId runId))).insertionSort
          fun a b => a.occurredAt ≤ b.occurredAt))
  | .getOutcome workId => PostgresStore.getOutcome server env workId
  | .getQuestion questionId => .inside (select [questionId.val] fun db => .ok (db.questionsSemantic.get? questionId))
  | .listQuestions workId =>
      .inside (select [workId.val] fun db =>
        .ok ((server.scan (db.questionsSemantic.values.filter fun q => q.workId = some workId)).insertionSort
          fun a b => a.createdAt ≤ b.createdAt))

end AllTomorrow
