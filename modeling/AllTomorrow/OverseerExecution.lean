import AllTomorrow.BesidePrograms
import AllTomorrow.ReviewedFiles
import AllTomorrow.SemanticStoreEffects

/-!
# Executing one Work of the overseer

The body of the loop of `execute_pending` for one Work, and `finish_work`. The calls of the
store are requests of their own, between which others may call it; the stages of the change
are one request, since they do not look at the store, and so is the batch of `finish_work`,
whose body does not wait for anything. Reasons, reports, process numbers and the
texts of diagnostics are left out: nothing reads them back.
-/

namespace AllTomorrow.Overseer

/-! ## Requests -/

structure OverseerWorld where
  store : InMemoryStore
  files : ProjectFiles

inductive OverseerAction where
  | store (op : StoreOp) (env : Supply)
  | files (run : ProjectFiles → Execution)
  | batch (body : StoreM Unit)

@[reducible] def OverseerAction.Answer : OverseerAction → Type
  | .store op _ => Except Exn op.Result
  | .files _ => Execution
  | .batch _ => Except Exn Unit

abbrev OverseerTask := ExceptT Exn (Prog OverseerAction OverseerAction.Answer)

/-- `async with store.autonomous_batch()` puts back what its body changed if the body raises. -/
def overseerHandler : Prog.Handler OverseerAction OverseerAction.Answer OverseerWorld
  | .store op env, w =>
    (((op.exec env).run w.store).outcome, { w with store := ((op.exec env).run w.store).state })
  | .files run, w => (run w.files, { w with files := (run w.files).files })
  | .batch body, w =>
    match body.run w.store with
    | .ok _ s => (.ok (), { w with store := s })
    | .error e _ => (.error e, w)

def askStore (op : StoreOp) (env : Supply) : OverseerTask op.Result := ExceptT.mk (.act (.store op env) .done)

def workOnFiles (run : ProjectFiles → Execution) : OverseerTask Execution :=
  ExceptT.mk (.act (.files run) fun execution => .done (.ok execution))

def inBatch (body : StoreM Unit) : OverseerTask Unit := ExceptT.mk (.act (.batch body) .done)

inductive MetacogEvent where
  | started | run | runStarted | scopeChanged | executionAttempt | runFinished | applied | held | rolledBack
  | goalFinished

def MetacogEvent.type : MetacogEvent → String
  | .started => "metacog.started"
  | .run => "metacog.run"
  | .runStarted => "metacog.run_started"
  | .scopeChanged => "metacog.scope_changed"
  | .executionAttempt => "metacog.execution_attempt"
  | .runFinished => "metacog.run_finished"
  | .applied => "metacog.applied"
  | .held => "metacog.held"
  | .rolledBack => "metacog.rolled_back"
  | .goalFinished => "metacog.goal_finished"

theorem MetacogEvent.type_nonempty (kind : MetacogEvent) : PyText.isBlank kind.type = false := by
  cases kind <;> decide

def event (env : Supply) (kind : MetacogEvent) (goalId : Option GoalId) (workId : Option WorkId)
    (runId : Option RunId) (payload : PyDict) : SemanticEvent where
  eventId := newEventId (env.sub 0)
  actor := "metacog"
  type := kind.type
  occurredAt := (env.sub 1).utcNow
  goalId := goalId
  workId := workId
  runId := runId
  payload := payload
  actor_nonempty := by decide
  type_nonempty := kind.type_nonempty

def Attempt.payload (a : Attempt) : PyDict :=
  ((InsertionDict.empty.set "worker" (match a.worker with
    | none => .none
    | some worker => .str worker)).set "stage" (.str a.stage)).set "status" (.str a.status)

def appendAttempts (env : Supply) (work : WorkRecord) : List Attempt → StoreM Unit
  | [] => return ()
  | a :: rest => do
    InMemoryStore.appendEvent
      (event (env.sub 0) .executionAttempt (some work.goalId) (some work.workId) none a.payload)
    appendAttempts (env.sub 1) work rest

def finishRuns (env : Supply) (work : WorkRecord) (success : Bool) : List RunRecord → StoreM Unit
  | [] => return ()
  | run :: rest => do
    if run.isActive then
      let revision := (← get).runRevision run.runId
      let _ ← InMemoryStore.transitionRunStatus (env.sub 0) run.runId (if success then .succeeded else .failed)
        revision (event (env.sub 1) .runFinished none (some work.workId) (some run.runId)
          (InsertionDict.empty.set "success" (.bool success))) none
    finishRuns (env.sub 2) work success rest

theorem evidence_criterionRef : PyText.isBlank "registered-project-tests" = false := by decide

theorem evidence_evaluatorRef : PyText.isBlank "overseer" = false := by decide

theorem evidence_evaluatorVersion : PyText.isBlank "dp7-loop-1" = false := by decide

/-- The evidence of a promoted change; `artifact` is the path of its folder. -/
def promotionEvidence (env : Supply) (artifact : String) : CompletionEvidence where
  criterionRef := "registered-project-tests"
  evaluatorRef := "overseer"
  evaluatorVersion := "dp7-loop-1"
  observedValues := (InsertionDict.empty.set "tests_passed" (.bool true)).set "files_match" (.bool true)
  evidenceRefs := []
  artifactRefs := [artifact]
  recordedAt := env.utcNow
  criterionRef_nonempty := evidence_criterionRef
  evaluatorRef_nonempty := evidence_evaluatorRef
  evaluatorVersion_nonempty := evidence_evaluatorVersion

def finishedStatus (success question : Bool) : WorkStatus :=
  if success then .succeeded else if question then .waiting else .failed

def finishedGoalStatus (success question : Bool) : GoalStatus :=
  if success then .succeeded else if question then .waiting else .failed

def finishedEvent (success question : Bool) : MetacogEvent :=
  if success then .applied else if question then .held else .rolledBack

/-- The body of the batch of `finish_work`. -/
def finishWork (env : Supply) (artifact : String) (work : WorkRecord) (success question : Bool) (info : Info) :
    StoreM Unit := do
  let evidence := if success then some (.completion (promotionEvidence (env.sub 0) artifact)) else none
  appendAttempts (env.sub 1) work info.attempts
  finishRuns (env.sub 2) work success ((← get).listRuns work.workId)
  let _ ← InMemoryStore.transitionWorkStatus (env.sub 3) work.workId (finishedStatus success question) work.revision
    (event (env.sub 4) (finishedEvent success question) (some work.goalId) (some work.workId) none
      (InsertionDict.empty.set "artifact" (.str artifact))) evidence
  match (← get).goals.get? work.goalId with
  | none => throw (.attributeError "'NoneType' object has no attribute 'goal_id'")
  | some goal =>
    let _ ← InMemoryStore.transitionGoalStatus (env.sub 5) goal.goalId (finishedGoalStatus success question)
      goal.revision (event (env.sub 6) .goalFinished (some goal.goalId) none none .empty) evidence

/-! ## Execution -/

structure RegisteredProject where
  path : String
  verifyArgv : Option (List String)

structure ChangeTask where
  projectRoot : String
  /-- the test command comes from the configuration of the project -/
  verifyFromConfig : Bool
  verifyArgv : List String

def inScope (project : Option RegisteredProject) (task : ChangeTask) : Bool :=
  match project with
  | none => false
  | some project =>
    project.path = task.projectRoot && !(task.verifyFromConfig && project.verifyArgv ≠ some task.verifyArgv)

/-- What `finish_work` is called with. The redaction of the diagnostics may raise. -/
structure Outcome where
  work : WorkRecord
  success : Bool
  question : Bool
  info : Except Exn Info

def recoverChange (c : ProjectChange) : ExecutionM Unit := do
  match (← get).files.manifest with
  | none => return ()
  | some data =>
    if data.state = .applying || data.state = .promoted then
      tryCatch (do let _ ← onFiles c.rollback) fun _ => modify fun s => { s with question := true }

section Execute

variable (c : ProjectChange) (tools : Tools ChangeTask) (project : Option RegisteredProject) (task : ChangeTask)
  (saved : Info)

/-- Move the Work to RUNNING; `none` if somebody else moved it since it was read. -/
def startWork (work : WorkRecord) (kind : MetacogEvent) (goalId : Option GoalId) (env : Supply) :
    OverseerTask (Option WorkRecord) := do
  match ← Prog.attempt (askStore (.transitionWorkStatus work.workId .running work.revision
      (event (env.sub 0) kind goalId (some work.workId) none .empty) none) (env.sub 1)) with
  | .ok started => return some started
  | .error (.storeConflictError _) => return none
  | .error e => throw e

def newRun (work : WorkRecord) (env : Supply) : RunRecord :=
  { runId := newRunId (env.sub 0), workId := work.workId, createdAt := (env.sub 1).utcNow
    updatedAt := (env.sub 2).utcNow }

def changeProject (work : WorkRecord) (env : Supply) : OverseerTask Outcome := do
  let run := newRun work (env.sub 0)
  let _ ← askStore (.createRun run (event (env.sub 1) .run none (some work.workId) (some run.runId) .empty)) (env.sub 2)
  let _ ← askStore (.transitionRunStatus run.runId .running 1
    (event (env.sub 3) .runStarted none (some work.workId) (some run.runId)
      (InsertionDict.empty.set "entrypoint" (.str "execute_pending"))) none) (env.sub 4)
  let execution ← workOnFiles fun files => executed c tools task files
  return ⟨work, execution.success, execution.question, tools.redactInfo execution.info⟩

/-- Everything before `finish_work`; `none` if there is nothing to finish. -/
def untilFinish (workId : WorkId) (env : Supply) : OverseerTask (Option Outcome) := do
  match ← askStore (.getWork workId) (env.sub 0) with
  | none => return none
  | some work =>
    if work.isTerminal || work.status = .waiting then
      return none
    if !inScope project task then
      if work.status = .pending then
        match ← startWork work .scopeChanged none (env.sub 1) with
        | none => return none
        | some started => return some ⟨started, false, true, .ok .empty⟩
      else
        return some ⟨work, false, true, .ok .empty⟩
    else if work.status = .running then
      let execution ← workOnFiles fun files => (recoverChange c (.start files)).state
      return some ⟨work, false, execution.question, .ok saved⟩
    else
      match ← startWork work .started (some work.goalId) (env.sub 1) with
      | none => return none
      | some started =>
        let outcome ← changeProject c tools task started (env.sub 2)
        return some outcome

/-- `finish_work` for what the execution came to. -/
def finish (artifact : String) (env : Supply) : Option Outcome → OverseerTask Unit
  | none => return ()
  | some outcome => do
    let info ← MonadExcept.ofExcept outcome.info
    inBatch (finishWork env artifact outcome.work outcome.success outcome.question info)

/-- The turn of the loop of `execute_pending` for one Work. `saved` is what `worker-attempts.json` holds. -/
def executeWork (artifact : String) (workId : WorkId) (env : Supply) : OverseerTask Unit := do
  let outcome ← untilFinish c tools project task saved workId (env.sub 0)
  finish artifact (env.sub 1) outcome

end Execute

end AllTomorrow.Overseer
