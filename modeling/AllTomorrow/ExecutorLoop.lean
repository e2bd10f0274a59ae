import AllTomorrow.ServiceActions

/-!
# The executor loop

`ExecutorLoop` and `resume_answered_work` of `executor.py`, as programs that request
store operations and calls of the worker and of the artifact store.
-/

namespace AllTomorrow

structure ExecutorLoop where
  workerId : String := "kiro"
  actor : Actor
  storesArtifacts : Bool

structure ExecutorResult where
  workId : String
  outcome : String
  detail : Option String := none

theorem executorActor_nonempty : PyText.isBlank "executor" = false := by decide

def executorActor : Actor := ⟨"executor", executorActor_nonempty⟩

/-! ## The worker service -/

def hasWorker (workerId : String) : ServiceTask Bool := request (.adapter workerId) fun adapter => .ok adapter.isSome

def getAdapter (workerId : String) : ServiceTask WorkerAdapter :=
  request (.adapter workerId) fun
    | none => .error (.contractError ("no bound adapter for worker: " ++ workerId))
    | some adapter => .ok adapter

def executeWorker (workerId : String) (r : WorkerRequest) : ServiceTask WorkerReply := do
  let _ ← getAdapter workerId
  request (.execute workerId r) .ok

/-! ## Output and evidence -/

/-- The first of the known keys whose value is a text that is not blank. -/
def firstText (payload : PyDict) : List String → Option String
  | [] => none
  | key :: rest =>
    match payload.get? key with
    | some (.str value) => if PyText.isBlank value then firstText payload rest else some value
    | _ => firstText payload rest

def extractOutputText (result : WorkerResult) : ServiceTask (Option String) :=
  match result.payload.get with
  | .error e => throw e
  | .ok payload =>
    match firstText payload ["output", "text", "stdout", "result"] with
    | some value => return some value
    | none =>
      if payload.entries.isEmpty then return none
      else do
        let text ← request (.jsonDumps payload) id
        return some text

theorem criterionRef_nonempty (work : WorkRecord) : PyText.isBlank ("work:" ++ work.workId.val) = false := by
  rw [PyText.isBlank_append]
  exact Bool.and_eq_false_imp.mpr fun h => absurd h (by decide)

theorem evaluatorRef_nonempty : PyText.isBlank "all_tomorrow.executor.worker_result" = false := by decide

theorem evaluatorVersion_nonempty : PyText.isBlank "1" = false := by decide

/-- The evidence of `_succeed`. -/
def executorEvidence (env : Supply) (work : WorkRecord) (result : WorkerResult) (artifactRefs : List String) :
    CompletionEvidence where
  criterionRef := "work:" ++ work.workId.val
  evaluatorRef := "all_tomorrow.executor.worker_result"
  evaluatorVersion := "1"
  observedValues := InsertionDict.empty.set "duration_ms" (.int result.durationMs)
  evidenceRefs := []
  artifactRefs := artifactRefs
  recordedAt := env.utcNow
  criterionRef_nonempty := criterionRef_nonempty work
  evaluatorRef_nonempty := evaluatorRef_nonempty
  evaluatorVersion_nonempty := evaluatorVersion_nonempty

/-- `except DomainError: pass` around a call. -/
def ignoreDomainErrors {α : Type} (x : ServiceTask α) : ServiceTask Unit := do
  match ← Prog.attempt x with
  | .ok _ => return ()
  | .error e => if e.isDomainError then return () else throw e

/-- `record.revision` of what a lookup returned; a missing record has no such attribute. -/
def revisionOf (work : Option WorkRecord) : ServiceTask ℤ :=
  match work with
  | none => throw (Exn.attributeError "'NoneType' object has no attribute 'revision'")
  | some w => return w.revision

namespace ExecutorLoop

variable (loop : ExecutorLoop)

/-- `_select_worker_id` of the base class. -/
def selectWorkerId (_ : WorkRecord) : String := loop.workerId

def createRunFor (env : Supply) (work : WorkRecord) : ServiceTask RunRecord := do
  let created ← callStore
    (.createRun (newRunRecord (env.sub 0) work.workId)
      (evt (env.sub 1) loop.actor .runCreated none (some work.workId)))
    (env.sub 2)
  let rev ← callStore (.runRevision created.runId) (env.sub 3)
  callStore
    (.transitionRunStatus created.runId .running rev
      (evt (env.sub 4) loop.actor .runRunning none (some work.workId) (some created.runId)) none)
    (env.sub 5)

def dispatch (work : WorkRecord) (run : RunRecord) : ServiceTask WorkerReply := do
  let workerId := loop.selectWorkerId work
  if !(← hasWorker workerId) then
    throw (Exn.noWorkerAvailableError ("no worker configured/available: " ++ workerId))
  else
    let adapter ← getAdapter workerId
    let r ← MonadExcept.ofExcept
      (WorkerRequest.new work.workId.val run.runId.val none adapter.capabilities
        (InsertionDict.empty.set "task" (.str work.title)))
    executeWorker workerId r

def storeOutput (work : WorkRecord) (result : WorkerResult) : ServiceTask (List String) := do
  if loop.storesArtifacts then
    match ← extractOutputText result with
    | none => return []
    | some text =>
      if text = "" then return []
      else
        let contentHash ← request (.storeArtifact text "text/plain" work.workId.val) id
        return [contentHash]
  else return []

def succeed (env : Supply) (work : WorkRecord) (run : RunRecord) (result : WorkerResult) : ServiceTask ExecutorResult := do
  let rev ← callStore (.runRevision run.runId) (env.sub 0)
  let _ ← callStore
    (.transitionRunStatus run.runId .succeeded rev
      (evt (env.sub 1) loop.actor .runSucceeded none (some work.workId) (some run.runId)) none)
    (env.sub 2)
  let artifactRefs ← loop.storeOutput work result
  let evidence := executorEvidence (env.sub 3) work result artifactRefs
  let workCur ← callStore (.getWork work.workId) (env.sub 4)
  let revision ← revisionOf workCur
  let _ ← callStore
    (.transitionWorkStatus work.workId .succeeded revision
      (evt (env.sub 5) loop.actor .workSucceeded none (some work.workId)) (some (.completion evidence)))
    (env.sub 6)
  return { workId := work.workId.val, outcome := "succeeded" }

/-- The Run part of `_fail`. -/
def failRun (env : Supply) (work : WorkRecord) (run : RunRecord) (reason : String) : ServiceTask RunRecord := do
  let rev ← callStore (.runRevision run.runId) (env.sub 0)
  callStore
    (.transitionRunStatus run.runId .failed rev
      (evt (env.sub 1) loop.actor .runFailed none (some work.workId) (some run.runId)
        (InsertionDict.empty.set "reason" (.str reason))) none)
    (env.sub 2)

/-- The Work part of `_fail`. -/
def failWork (env : Supply) (work : WorkRecord) (workCur : Option WorkRecord) (reason : String) :
    ServiceTask WorkRecord := do
  let revision ← revisionOf workCur
  callStore
    (.transitionWorkStatus work.workId .failed revision
      (evt (env.sub 0) loop.actor .workFailed none (some work.workId) none
        (InsertionDict.empty.set "reason" (.str reason))) none)
    (env.sub 1)

def fail (env : Supply) (work : WorkRecord) (run : Option RunRecord) (exc : Exn) : ServiceTask ExecutorResult := do
  let reason := exc.text
  match run with
  | none => pure ()
  -- the Run may be terminal already or have moved on; the Work below is authoritative
  | some run => ignoreDomainErrors (loop.failRun (env.sub 0) work run reason)
  let workCur ← callStore (.getWork work.workId) (env.sub 1)
  ignoreDomainErrors (loop.failWork (env.sub 2) work workCur reason)
  return { workId := work.workId.val, outcome := "failed", detail := some reason }

/-- The Run part of `_to_waiting`. -/
def waitRun (env : Supply) (work : WorkRecord) (run : RunRecord) : ServiceTask RunRecord := do
  let rev ← callStore (.runRevision run.runId) (env.sub 0)
  callStore
    (.transitionRunStatus run.runId .waiting rev
      (evt (env.sub 1) loop.actor .runWaitingOnQuestion none (some work.workId) (some run.runId)) none)
    (env.sub 2)

/-- The Question that `_to_waiting` asks. -/
def question (env : Supply) (work : WorkRecord) (run : RunRecord) (prompt : String) : QuestionRecordSemantic :=
  { questionId := newQuestionId env, prompt, workId := some work.workId, runId := some run.runId,
    createdAt := env.utcNow, updatedAt := env.utcNow }

def toWaiting (env : Supply) (work : WorkRecord) (run : RunRecord) (prompt : String) : ServiceTask ExecutorResult := do
  let question := question (env.sub 0) work run prompt
  let _ ← callStore (.createQuestion question) (env.sub 1)
  let workCur ← callStore (.getWork work.workId) (env.sub 2)
  let revision ← revisionOf workCur
  let _ ← callStore
    (.transitionWorkStatus work.workId .waiting revision
      (evt (env.sub 3) loop.actor .workWaitingOnQuestion none (some work.workId) none
        (InsertionDict.empty.set "question_id" (.str question.questionId.val))) none)
    (env.sub 4)
  ignoreDomainErrors (loop.waitRun (env.sub 5) work run)
  return { workId := work.workId.val, outcome := "waiting", detail := some question.questionId.val }

def conclude (env : Supply) (work : WorkRecord) (run : RunRecord) (result : WorkerResult) : ServiceTask ExecutorResult := do
  if result.status ≠ .success then
    let reason := match result.error with
      | some text => if text = "" then result.status.value else text
      | none => result.status.value
    loop.fail (env.sub 0) work (some run) (.runtimeError reason)
  else
    match result.payload.get with
    | .error e => throw e
    | .ok payload =>
      match payload.get? "need_question" with
      | some value =>
        if value.truthy then
          let prompt ← request (.str value) .ok
          loop.toWaiting (env.sub 1) work run prompt
        else loop.succeed (env.sub 2) work run result
      | none => loop.succeed (env.sub 2) work run result

/-- What follows the call of the worker; the first two cases are the handler around it. -/
def settle (env : Supply) (work : WorkRecord) (run : RunRecord) : Except Exn WorkerReply → ServiceTask ExecutorResult
  | .error e => loop.fail (env.sub 0) work (some run) e
  | .ok (.raises e) => loop.fail (env.sub 0) work (some run) e
  | .ok (.aborts e) => throw e
  | .ok (.returnsOther e) => throw e
  | .ok (.returns result) => loop.conclude (env.sub 1) work run result

def executeClaimedWork (env : Supply) (work : WorkRecord) : ServiceTask ExecutorResult := do
  match ← Prog.attempt (loop.createRunFor (env.sub 0) work) with
  | .error e => loop.fail (env.sub 1) work none e
  | .ok run =>
    let reply ← Prog.attempt (loop.dispatch work run)
    loop.settle (env.sub 2) work run reply

def executeEach : List WorkRecord → Supply → ServiceTask (List ExecutorResult)
  | [], _ => return []
  | work :: rest, env => do
    let result ← loop.executeClaimedWork (env.sub 0) work
    let results ← executeEach rest (env.sub 1)
    return result :: results

/-- Claim up to `limit` PENDING Works and drive each one to completion. -/
def runOneCycle (env : Supply) (limit : ℤ) : ServiceTask (List ExecutorResult) := do
  let claimed ← callStore (.claimPendingWork limit) (env.sub 0)
  loop.executeEach claimed (env.sub 1)

end ExecutorLoop

def closePrior (env : Supply) (actor : Actor) (work : WorkRecord) (prior : RunRecord) : ServiceTask Unit := do
  let rev ← callStore (.runRevision prior.runId) (env.sub 0)
  let _ ← callStore
    (.transitionRunStatus prior.runId .cancelRequested rev
      (evt (env.sub 1) actor .runSupersededByAnswer none (some work.workId) (some prior.runId)) none)
    (env.sub 2)
  let rev2 ← callStore (.runRevision prior.runId) (env.sub 3)
  let _ ← callStore
    (.transitionRunStatus prior.runId .cancelled rev2
      (evt (env.sub 4) actor .runClosedAfterAnswer none (some work.workId) (some prior.runId)) none)
    (env.sub 5)

def closePriors (actor : Actor) (work : WorkRecord) : List RunRecord → Supply → ServiceTask Unit
  | [], _ => return ()
  | prior :: rest, env => do
    closePrior (env.sub 0) actor work prior
    closePriors actor work rest (env.sub 1)

/-- Move a WAITING Work back to RUNNING with a fresh Run; `false` if it is not WAITING. -/
def resumeAnsweredWork (env : Supply) (actor : Actor) (workId : WorkId) : ServiceTask Bool := do
  match ← callStore (.getWork workId) (env.sub 0) with
  | none => return false
  | some work =>
    if work.status ≠ .waiting then return false
    else
      let runs ← callStore (.listRuns workId) (env.sub 1)
      closePriors actor work (runs.filter RunRecord.isActive) (env.sub 2)
      let _ ← callStore
        (.createRun (newRunRecord (env.sub 3) work.workId)
          (evt (env.sub 4) actor .runCreated none (some work.workId)))
        (env.sub 5)
      let _ ← callStore
        (.transitionWorkStatus work.workId .running work.revision
          (evt (env.sub 6) actor .workResumedAfterAnswer none (some work.workId)) none)
        (env.sub 7)
      return true

end AllTomorrow
