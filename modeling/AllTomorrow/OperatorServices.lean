import AllTomorrow.ExecutorLoop

/-!
# Execution service, web control and device agent

The calls of `execution_service.py`, `web_control.py` and `device_agent.py` that move
Works and Runs outside the executor loop, and all service calls as data.
-/

namespace AllTomorrow

structure ExecutionService where
  maxReplans : ℤ := 3
  actor : Actor

namespace ExecutionService

variable (service : ExecutionService)

/-- Create a STARTING Run; a violated invariant of the store is reported under one text. -/
def startRun (env : Supply) (workId : WorkId) (attemptNumber : ℤ) : ServiceTask RunRecord := do
  let run := newRunRecord (env.sub 0) workId attemptNumber
  match ← Prog.attempt (callStore
      (.createRun run (evt (env.sub 1) service.actor .runCreated none (some workId) (some run.runId)))
      (env.sub 2)) with
  | .ok _ => return run
  | .error e =>
    if e.isInvariantViolation then
      throw (Exn.invariantViolationError ("work " ++ workId.val ++ " already has an active Run"))
    else throw e

def replan (env : Supply) (workId : WorkId) : ServiceTask RunRecord := do
  let used ← request (.takeReplan workId service.maxReplans) id
  service.startRun (env.sub 0) workId (used + 2)

def completeWork (env : Supply) (workId : WorkId) (expectedRevision : ℤ) (evidence : Evidence) : ServiceTask WorkRecord :=
  callStore
    (.transitionWorkStatus workId .succeeded expectedRevision
      (evt (env.sub 0) service.actor .workSucceeded none (some workId)) (some evidence))
    (env.sub 1)

/-- `CANCEL_REQUESTED if w.status != PENDING else CANCELLED`. -/
def cancelTarget (work : WorkRecord) : WorkStatus := if work.status ≠ .pending then .cancelRequested else .cancelled

/-- The loop over the child Works; a Work that has moved on is skipped. -/
def cancelEach (goalId : GoalId) : List WorkRecord → Supply → ServiceTask (List String)
  | [], _ => return []
  | w :: rest, env => do
    if w.status = .pending ∨ w.status = .running ∨ w.status = .waiting then
      let moved ← Prog.attempt (callStore
        (.transitionWorkStatus w.workId (cancelTarget w) w.revision
          (evt (env.sub 0) service.actor .workCancelRequested (some goalId) (some w.workId)) none)
        (env.sub 1))
      let cancelled ← cancelEach goalId rest (env.sub 2)
      match moved with
      | .ok _ => return w.workId.val :: cancelled
      | .error _ => return cancelled
    else cancelEach goalId rest (env.sub 2)

def cancelGoal (env : Supply) (goalId : GoalId) (expectedRevision : ℤ) : ServiceTask (List String) := do
  let _ ← callStore
    (.transitionGoalStatus goalId .cancelRequested expectedRevision
      (evt (env.sub 0) service.actor .goalCancelRequested (some goalId)) none)
    (env.sub 1)
  let children ← callStore (.listWork goalId) (env.sub 2)
  service.cancelEach goalId children (env.sub 3)

end ExecutionService

namespace WebControl

def ownedGoal (env : Supply) (user goalId : String) : ServiceTask GoalRecord := do
  match ← callStore (.getGoal ⟨goalId⟩) env with
  | none => throw (Exn.notFound goalId)
  | some goal => if goal.userId ≠ user then throw (Exn.notFound goalId) else return goal

/-- The actor of an operator's event; `SemanticEvent` rejects a blank one. -/
def operatorActor (operator : String) : ServiceTask Actor :=
  if h : PyText.isBlank operator = true then throw (Exn.valueError "SemanticEvent.actor must be non-empty")
  else return ⟨operator, PyText.isBlank_eq_false h⟩

def retryBrokenWork (env : Supply) (user workId operator : String) : ServiceTask WorkId := do
  match ← callStore (.getWork ⟨workId⟩) (env.sub 0) with
  | none => throw (Exn.notFound workId)
  | some work =>
    let _ ← ownedGoal (env.sub 1) user work.goalId.val
    request (.retryBroken (env.sub 2) workId operator) id
    let newWork : WorkRecord :=
      { workId := newWorkId (env.sub 3), goalId := work.goalId, title := work.title,
        createdAt := (env.sub 3).utcNow, updatedAt := (env.sub 3).utcNow }
    let actor ← operatorActor operator
    let _ ← callStore
      (.createWork newWork
        (evt (env.sub 4) actor .workRetried (some work.goalId) (some newWork.workId) none
          (InsertionDict.empty.set "retried_from" (.str workId))))
      (env.sub 5)
    return newWork.workId

/-- The transition of `clean_up_broken_work`, inside its handler. -/
def cancelBroken (env : Supply) (work : WorkRecord) (operator : String) : ServiceTask WorkRecord := do
  let actor ← operatorActor operator
  callStore
    (.transitionWorkStatus work.workId .cancelled work.revision
      (evt (env.sub 0) actor .workCleanedUp none (some work.workId)) none)
    (env.sub 1)

def cleanUpBrokenWork (env : Supply) (user workId operator : String) : ServiceTask Unit := do
  match ← callStore (.getWork ⟨workId⟩) (env.sub 0) with
  | none => throw (Exn.notFound workId)
  | some work =>
    let _ ← ownedGoal (env.sub 1) user work.goalId.val
    request (.abandonBroken (env.sub 2) workId operator) id
    if work.status = .running ∨ work.status = .waiting ∨ work.status = .pending then
      ignoreDomainErrors (cancelBroken (env.sub 3) work operator)
    else return ()

end WebControl

structure DeviceReport where
  succeeded : Bool
  error : Option String
  durationMs : ℤ := 0
  artifactRefs : List String := []

/-- `error or "device reported failure"`. -/
def DeviceReport.reason (report : DeviceReport) : String :=
  match report.error with
  | some text => if text = "" then "device reported failure" else text
  | none => "device reported failure"

/-- The answer to a completion, `{"work_id": …, "outcome": …}`; a failure carries its reason. -/
inductive DeviceCompletion where
  | succeeded (workId : String)
  | failed (workId detail : String)

theorem deviceEvaluatorRef_nonempty : PyText.isBlank "all_tomorrow.device_agent.complete_work" = false := by decide

/-- The evidence of `DeviceAgentService.complete_work`. -/
def deviceEvidence (env : Supply) (work : WorkRecord) (deviceId : String) (report : DeviceReport) : CompletionEvidence where
  criterionRef := "work:" ++ work.workId.val
  evaluatorRef := "all_tomorrow.device_agent.complete_work"
  evaluatorVersion := "1"
  observedValues := (InsertionDict.empty.set "duration_ms" (.int report.durationMs)).set "device_id" (.str deviceId)
  evidenceRefs := []
  artifactRefs := report.artifactRefs
  recordedAt := env.utcNow
  criterionRef_nonempty := criterionRef_nonempty work
  evaluatorRef_nonempty := deviceEvaluatorRef_nonempty
  evaluatorVersion_nonempty := evaluatorVersion_nonempty

namespace DeviceAgentService

variable (actor : Actor)

def obtainRun (env : Supply) (work : WorkRecord) : List RunRecord → ServiceTask RunRecord
  | [] => do
    let run ← callStore
      (.createRun (newRunRecord (env.sub 0) work.workId)
        (evt (env.sub 1) actor .runCreated none (some work.workId)))
      (env.sub 2)
    let rev ← callStore (.runRevision run.runId) (env.sub 3)
    callStore
      (.transitionRunStatus run.runId .running rev
        (evt (env.sub 4) actor .runRunning none (some work.workId) (some run.runId)) none)
      (env.sub 5)
  | run :: _ => return run

def reportSuccess (env : Supply) (deviceId : String) (work : WorkRecord) (run : RunRecord) (report : DeviceReport) :
    ServiceTask Unit := do
  let payload : PyDict := InsertionDict.empty.set "device_id" (.str deviceId)
  let rev ← callStore (.runRevision run.runId) (env.sub 0)
  let _ ← callStore
    (.transitionRunStatus run.runId .succeeded rev
      (evt (env.sub 1) actor .runSucceeded none (some work.workId) (some run.runId) payload) none)
    (env.sub 2)
  let evidence := deviceEvidence (env.sub 3) work deviceId report
  let workCur ← callStore (.getWork work.workId) (env.sub 4)
  let revision ← revisionOf workCur
  let _ ← callStore
    (.transitionWorkStatus work.workId .succeeded revision
      (evt (env.sub 5) actor .workSucceeded none (some work.workId) none payload) (some (.completion evidence)))
    (env.sub 6)

/-- `except Exception: pass` around both transitions of a failure. -/
def reportFailure (env : Supply) (deviceId : String) (work : WorkRecord) (run : RunRecord) (report : DeviceReport) :
    ServiceTask Unit := do
  let payload : PyDict := (InsertionDict.empty.set "reason" (.str report.reason)).set "device_id" (.str deviceId)
  let _ ← Prog.attempt (do
    let rev ← callStore (.runRevision run.runId) (env.sub 0)
    callStore
      (.transitionRunStatus run.runId .failed rev
        (evt (env.sub 1) actor .runFailed none (some work.workId) (some run.runId) payload) none)
      (env.sub 2))
  let workCur ← callStore (.getWork work.workId) (env.sub 3)
  let _ ← Prog.attempt (do
    let revision ← revisionOf workCur
    callStore
      (.transitionWorkStatus work.workId .failed revision
        (evt (env.sub 4) actor .workFailed none (some work.workId) none payload) none)
      (env.sub 5))

/-- What `complete_work` does with the leased Work. -/
def settleWork (env : Supply) (deviceId workId : String) (report : DeviceReport) : ServiceTask DeviceCompletion := do
  match ← callStore (.getWork ⟨workId⟩) (env.sub 1) with
  | none => throw (Exn.deviceError ("work " ++ workId ++ " not found"))
  | some work =>
    let runs ← callStore (.listRuns work.workId) (env.sub 2)
    let run ← obtainRun actor (env.sub 3) work (runs.filter RunRecord.isActive)
    if report.succeeded then
      reportSuccess actor (env.sub 4) deviceId work run report
      return .succeeded workId
    else
      reportFailure actor (env.sub 5) deviceId work run report
      return .failed workId report.reason

def completeWork (env : Supply) (deviceId token leaseId : String) (report : DeviceReport) :
    ServiceTask DeviceCompletion := do
  let workId ← request (.completeLease (env.sub 0) deviceId token leaseId) id
  settleWork actor env deviceId workId report

end DeviceAgentService

/-! ## Service calls as data -/

/-- A call of a service, or one operation of any other client of the store. -/
inductive ServiceCall where
  | operation (op : StoreOp)
  | runOneCycle (loop : ExecutorLoop) (limit : ℤ)
  | resumeAnsweredWork (actor : Actor) (workId : WorkId)
  | startRun (service : ExecutionService) (workId : WorkId) (attemptNumber : ℤ)
  | replan (service : ExecutionService) (workId : WorkId)
  | completeWork (service : ExecutionService) (workId : WorkId) (expectedRevision : ℤ) (evidence : Evidence)
  | cancelGoal (service : ExecutionService) (goalId : GoalId) (expectedRevision : ℤ)
  | retryBrokenWork (user workId operator : String)
  | cleanUpBrokenWork (user workId operator : String)
  | deviceCompleteWork (actor : Actor) (deviceId token leaseId : String) (report : DeviceReport)

def ServiceCall.task (env : Supply) : ServiceCall → ServiceTask Unit
  | .operation op => do let _ ← callStore op env
  | .runOneCycle loop limit => do let _ ← loop.runOneCycle env limit
  | .resumeAnsweredWork actor workId => do let _ ← AllTomorrow.resumeAnsweredWork env actor workId
  | .startRun service workId attempt => do let _ ← service.startRun env workId attempt
  | .replan service workId => do let _ ← service.replan env workId
  | .completeWork service workId rev evidence => do let _ ← service.completeWork env workId rev evidence
  | .cancelGoal service goalId rev => do let _ ← service.cancelGoal env goalId rev
  | .retryBrokenWork user workId operator => do let _ ← WebControl.retryBrokenWork env user workId operator
  | .cleanUpBrokenWork user workId operator => WebControl.cleanUpBrokenWork env user workId operator
  | .deviceCompleteWork actor deviceId token leaseId report => do
      let _ ← DeviceAgentService.completeWork actor env deviceId token leaseId report

/-- The clients of one store: what each of them calls and the readings it draws. -/
structure Clients (ι : Type) where
  call : ι → ServiceCall
  env : ι → Supply

variable {ι π : Type}

def Clients.pool (clients : Clients ι) (world : ServiceWorld π) :
    Prog.Pool ι ServiceAction ServiceAction.Answer (Except Exn Unit) (ServiceWorld π) :=
  ⟨fun i => ((clients.call i).task (clients.env i)).run, world⟩

end AllTomorrow
