import AllTomorrow.DeliveryStore
import AllTomorrow.DomainTransitions
import AllTomorrow.MachineRuns

/-!
# The walking skeleton

`WalkingSkeletonOrchestrator` takes a request from a Goal to a finished Run. Its records are in
memory; with a database the Runs are in a table besides. The durable port and the evidence of a
completion come from outside, the delivery store is the one of this repository.
-/

namespace AllTomorrow

def formatIdempotencyKey (sha : String → String) («namespace» scope : String) (parts : List String) (version : ℤ := 1) :
    String :=
  let cleanParts := ":".intercalate ((parts.filter fun p => PyText.strip p ≠ "").map PyText.strip)
  let rawPayload := «namespace» ++ ":" ++ scope ++ ":v" ++ toString version ++ ":" ++ cleanParts
  "idmp_" ++ «namespace» ++ "_" ++ scope ++ "_v" ++ toString version ++ "_" ++ sha rawPayload

namespace Skeleton

structure SkeletonQuestion where
  questionId : QuestionId
  workId : WorkId
  runId : RunId
  question : String
  options : List String
  status : QuestionStatus := .pending
  createdAt : Datetime
  answer : Option PyDict := none
  answeredAt : Option Datetime := none

def signalText : SignalOutcome → String
  | .delivered => "DELIVERED"
  | .duplicateIgnored => "DUPLICATE_IGNORED"
  | .notFound => "NOT_FOUND"
  | .alreadyTerminal => "ALREADY_TERMINAL"

structure SkeletonState where
  goals : InsertionDict GoalId GoalRecord
  works : InsertionDict WorkId WorkRecord
  runs : InsertionDict RunId RunRecord
  questions : InsertionDict QuestionId SkeletonQuestion
  deliveries : DeliveryStore

abbrev SkeletonM := EStateM Exn SkeletonState

structure Orchestrator where
  /-- `getattr(durable_port, "backend_name", "durable")` -/
  backendName : String
  sha : String → String
  str : Datetime → String

def runConflictError (message : String) : Exn := .foreign "RunConflictError" message

namespace SkeletonState

def empty : SkeletonState := ⟨.empty, .empty, .empty, .empty, .empty⟩

end SkeletonState

/-- `self.runs[run_id]`. -/
def runAt (runId : RunId) : SkeletonM RunRecord := do
  match (← get).runs.get? runId with
  | none => throw (.keyError runId.val)
  | some run => return run

/-- `self.works[work_id]`. -/
def workAt (workId : WorkId) : SkeletonM WorkRecord := do
  match (← get).works.get? workId with
  | none => throw (.keyError workId.val)
  | some work => return work

def putRun (runId : RunId) (run : RunRecord) : SkeletonM Unit :=
  modify fun s => { s with runs := s.runs.set runId run }

def putWork (workId : WorkId) (work : WorkRecord) : SkeletonM Unit :=
  modify fun s => { s with works := s.works.set workId work }

def onDeliveries {α : Type} (x : DeliveryStoreM α) : SkeletonM α := fun s =>
  match x s.deliveries with
  | .ok a deliveries => .ok a { s with deliveries }
  | .error e deliveries => .error e { s with deliveries }

def initiateGoalAndWork (env : Supply) (userId goalTitle workTitle : String) : SkeletonM (GoalRecord × WorkRecord) := do
  let goal : GoalRecord :=
    { goalId := ⟨(env.sub 0).newId "goal"⟩, userId, title := goalTitle, createdAt := env.utcNow, updatedAt := env.utcNow }
  modify fun s => { s with goals := s.goals.set goal.goalId goal }
  let work : WorkRecord :=
    { workId := newWorkId (env.sub 1), goalId := goal.goalId, title := workTitle
      createdAt := (env.sub 1).utcNow, updatedAt := (env.sub 1).utcNow }
  putWork work.workId work
  return (goal, work)

/-- The Run that `create_starting_run` builds. -/
def startingRun (env : Supply) (workId : WorkId) : RunRecord :=
  { runId := newRunId (env.sub 1), workId, createdAt := (env.sub 1).utcNow, updatedAt := (env.sub 1).utcNow }

def startIntent (o : Orchestrator) (env : Supply) (workId : WorkId) (workflowName : String) (workflowPayload : PyDict) :
    Except Exn DeliveryRecord :=
  let runId := (startingRun env workId).runId
  DeliveryRecord.new (env.sub 2) ⟨(env.sub 2).newId "dlv"⟩ .runStart
    ((InsertionDict.empty.set "run_id" runId.val).set "work_id" workId.val) o.backendName
    (formatIdempotencyKey o.sha "run" "start" [runId.val])
    ((InsertionDict.empty.set "workflow_name" (.str workflowName)).set "workflow_payload" (.dict workflowPayload.entries))
    3 "standard" none

def createStartingRun (o : Orchestrator) (env : Supply) (workId : WorkId) (workflowName : String)
    (workflowPayload : PyDict) : SkeletonM (Option RunRecord × DeliveryRecord) := do
  let work ← workAt workId
  if work.status = .pending then
    let work ← MonadExcept.ofExcept (transitionWork (env.sub 0) work .running)
    putWork workId work
  let run := startingRun env workId
  -- only the new Run is looked at
  MonadExcept.ofExcept (assertActiveRunsInvariant [run] 1)
  let intent ← MonadExcept.ofExcept (startIntent o env workId workflowName workflowPayload)
  -- `_save_run` cannot fail; its result comes back exactly if the store has called it
  let (saved, committed) ← onDeliveries (DeliveryStore.atomicAppTransaction o.str (env.sub 3) intent (.ok (.str run.runId.val)))
  match saved with
  | .none => return (none, committed)
  | _ =>
    putRun run.runId run
    return (some run, committed)

/-- `cas_attach_execution_ref` without a database. -/
def casAttachExecutionRef (env : Supply) (runId : RunId) (execRef : ExecutionRef) : SkeletonM Bool := do
  match (← get).runs.get? runId with
  | none => return false
  | some run =>
    match run.executionRef with
    | some attached =>
      if attached.executionId ≠ execRef.executionId then
        throw (runConflictError ("CAS conflict on run " ++ runId.val ++ ": existing execution_id '" ++
          attached.executionId ++ "' != '" ++ execRef.executionId ++ "'"))
    | none => pure ()
    let run ← MonadExcept.ofExcept (transitionRun env run .running (some execRef))
    putRun runId run
    return true

def suspendNeedUser (env : Supply) (runId : RunId) (question : String) (options : List String) : SkeletonM QuestionId := do
  let run ← runAt runId
  let work ← workAt run.workId
  let waitingRun ← MonadExcept.ofExcept (transitionRun (env.sub 0) run .waiting)
  putRun runId waitingRun
  let waitingWork ← MonadExcept.ofExcept (transitionWork (env.sub 1) work .waiting)
  putWork run.workId waitingWork
  let questionId := newQuestionId (env.sub 2)
  let record : SkeletonQuestion := { questionId, workId := run.workId, runId, question, options, createdAt := (env.sub 2).utcNow }
  modify fun s => { s with questions := s.questions.set questionId record }
  return questionId

def SkeletonQuestion.answered (q : SkeletonQuestion) (env : Supply) (payload : PyDict) : SkeletonQuestion :=
  { q with status := .answered, answer := some payload, answeredAt := some env.utcNow }

/-- `signal` is what the durable port answers. -/
def resumeWithUserSignal (env : Supply) (runId : RunId) (questionId : QuestionId) (payload : PyDict)
    (signal : Except Exn SignalOutcome) : SkeletonM RunRecord := do
  let run ← runAt runId
  let work ← workAt run.workId
  if run.executionRef.isNone then
    throw (.runtimeError ("Run " ++ runId.val ++ " missing execution_ref"))
  -- the question is answered before the signal is sent
  modify fun s => match s.questions.get? questionId with
    | some q => { s with questions := s.questions.set questionId (q.answered env payload) }
    | none => s
  let outcome ← MonadExcept.ofExcept signal
  if outcome ≠ .delivered ∧ outcome ≠ .duplicateIgnored then
    throw (.runtimeError ("Signal delivery failed: " ++ signalText outcome))
  let resumedRun ← MonadExcept.ofExcept (transitionRun (env.sub 0) run .running)
  putRun runId resumedRun
  let resumedWork ← MonadExcept.ofExcept (transitionWork (env.sub 1) work .running)
  putWork run.workId resumedWork
  return resumedRun

def completeRunAndWork (env : Supply) (runId : RunId) (evidence : CompletionEvidence) :
    SkeletonM (RunRecord × WorkRecord) := do
  let run ← runAt runId
  let work ← workAt run.workId
  let completedRun ← MonadExcept.ofExcept (transitionRun (env.sub 0) run .succeeded)
  putRun runId completedRun
  let completedWork ← MonadExcept.ofExcept (transitionWork (env.sub 1) work .succeeded (some (.completion evidence)))
  putWork run.workId completedWork
  return (completedRun, completedWork)

/-! ## The operations as data -/

inductive SkeletonOp where
  | initiateGoalAndWork (env : Supply) (userId goalTitle workTitle : String)
  | createStartingRun (env : Supply) (workId : WorkId) (workflowName : String) (workflowPayload : PyDict)
  | casAttachExecutionRef (env : Supply) (runId : RunId) (execRef : ExecutionRef)
  | suspendNeedUser (env : Supply) (runId : RunId) (question : String) (options : List String)
  | resumeWithUserSignal (env : Supply) (runId : RunId) (questionId : QuestionId) (payload : PyDict)
      (signal : Except Exn SignalOutcome)
  | completeRunAndWork (env : Supply) (runId : RunId) (evidence : CompletionEvidence)

def SkeletonOp.exec (o : Orchestrator) : SkeletonOp → SkeletonM Unit
  | .initiateGoalAndWork env userId goalTitle workTitle => do
    let _ ← Skeleton.initiateGoalAndWork env userId goalTitle workTitle
  | .createStartingRun env workId workflowName workflowPayload => do
    let _ ← Skeleton.createStartingRun o env workId workflowName workflowPayload
  | .casAttachExecutionRef env runId execRef => do
    let _ ← Skeleton.casAttachExecutionRef env runId execRef
  | .suspendNeedUser env runId question options => do
    let _ ← Skeleton.suspendNeedUser env runId question options
  | .resumeWithUserSignal env runId questionId payload signal => do
    let _ ← Skeleton.resumeWithUserSignal env runId questionId payload signal
  | .completeRunAndWork env runId evidence => do
    let _ ← Skeleton.completeRunAndWork env runId evidence

def skeletonStep (o : Orchestrator) (s : SkeletonState) (op : SkeletonOp) : SkeletonState := ((op.exec o).run s).state

def Raises (o : Orchestrator) (s : SkeletonState) (op : SkeletonOp) : Prop := ((op.exec o).run s).outcome ≠ .ok ()

structure Records where
  works : InsertionDict WorkId WorkRecord
  runs : InsertionDict RunId RunRecord
  questions : InsertionDict QuestionId SkeletonQuestion

def SkeletonState.records (s : SkeletonState) : Records := ⟨s.works, s.runs, s.questions⟩

/-! ## What one call can do -/

/-- The call of the delivery store by `create_starting_run`. -/
def commitStart (o : Orchestrator) (env : Supply) (workId : WorkId) (name : String) (payload : PyDict) :
    DeliveryStoreM (PyValue × DeliveryRecord) := do
  let intent ← MonadExcept.ofExcept (startIntent o env workId name payload)
  DeliveryStore.atomicAppTransaction o.str (env.sub 3) intent (.ok (.str (startingRun env workId).runId.val))

def Commits (o : Orchestrator) (s : SkeletonState) (env : Supply) (workId : WorkId) (name : String) (payload : PyDict) : Prop :=
  ∃ result deliveries, commitStart o env workId name payload s.deliveries = .ok result deliveries

/-- The delivery store calls `_save_run`. -/
def Saves (o : Orchestrator) (s : SkeletonState) (env : Supply) (workId : WorkId) (name : String) (payload : PyDict) : Prop :=
  ∃ saved committed deliveries, saved ≠ PyValue.none ∧
    commitStart o env workId name payload s.deliveries = .ok (saved, committed) deliveries

def Records.Holds (r : Records) (runId : RunId) (run : RunRecord) (work : WorkRecord) : Prop :=
  r.runs.get? runId = some run ∧ r.works.get? run.workId = some work

def Delivered (signal : Except Exn SignalOutcome) : Prop := signal = .ok .delivered ∨ signal = .ok .duplicateIgnored

def RunCan (env : Supply) (run : RunRecord) (target : RunStatus) : Prop := ∃ run', transitionRun env run target = .ok run'

def WorkCan (env : Supply) (work : WorkRecord) (target : WorkStatus) (evidence : Option Evidence := none) : Prop :=
  ∃ work', transitionWork env work target evidence = .ok work'

def claimed (r : Records) (env : Supply) (workId : WorkId) (work : WorkRecord) : Records :=
  if work.status = .pending then { r with works := r.works.set workId (work.moved (env.sub 0) .running) } else r

def projected (r : Records) (env : Supply) (questionId : QuestionId) (payload : PyDict) : Records :=
  match r.questions.get? questionId with
  | some q => { r with questions := r.questions.set questionId (q.answered env payload) }
  | none => r

inductive SkeletonEffect (o : Orchestrator) (s : SkeletonState) : SkeletonOp → Bool → Records → Prop where
  | initiated {env : Supply} {userId goalTitle workTitle : String} {work : WorkRecord} (hstatus : work.status = .pending)
      (hid : work.workId = newWorkId (env.sub 1)) :
      SkeletonEffect o s (.initiateGoalAndWork env userId goalTitle workTitle) false
        { s.records with works := s.works.set work.workId work }
  | noWork {env : Supply} {workId : WorkId} {name : String} {payload : PyDict} (hnone : s.works.get? workId = none) :
      SkeletonEffect o s (.createStartingRun env workId name payload) true s.records
  | notCommitted {env : Supply} {workId : WorkId} {name : String} {payload : PyDict} {work : WorkRecord}
      (hwork : s.works.get? workId = some work) (hcommits : ¬Commits o s env workId name payload) :
      SkeletonEffect o s (.createStartingRun env workId name payload) true (claimed s.records env workId work)
  | notSaved {env : Supply} {workId : WorkId} {name : String} {payload : PyDict} {work : WorkRecord}
      (hwork : s.works.get? workId = some work) (hcommits : Commits o s env workId name payload)
      (hsaves : ¬Saves o s env workId name payload) :
      SkeletonEffect o s (.createStartingRun env workId name payload) false (claimed s.records env workId work)
  | started {env : Supply} {workId : WorkId} {name : String} {payload : PyDict} {work : WorkRecord}
      (hwork : s.works.get? workId = some work) (hcommits : Commits o s env workId name payload)
      (hsaves : Saves o s env workId name payload) :
      SkeletonEffect o s (.createStartingRun env workId name payload) false
        { claimed s.records env workId work with runs := s.runs.set (newRunId (env.sub 1)) (startingRun env workId) }
  | notAttached {env : Supply} {runId : RunId} {execRef : ExecutionRef} (raised : Bool) :
      SkeletonEffect o s (.casAttachExecutionRef env runId execRef) raised s.records
  | attached {env : Supply} {runId : RunId} {execRef : ExecutionRef} {run : RunRecord}
      (hrun : s.runs.get? runId = some run) (hmem : RunStatus.running ∈ runTransitions run.status) :
      SkeletonEffect o s (.casAttachExecutionRef env runId execRef) false
        { s.records with runs := s.runs.set runId (run.moved env .running (some execRef)) }
  | notSuspended {env : Supply} {runId : RunId} {question : String} {options : List String}
      (h : ∀ run work, s.records.Holds runId run work → ¬RunCan (env.sub 0) run .waiting) :
      SkeletonEffect o s (.suspendNeedUser env runId question options) true s.records
  | halfSuspended {env : Supply} {runId : RunId} {question : String} {options : List String} {run : RunRecord}
      {work : WorkRecord} (h : s.records.Holds runId run work) (hrun : RunCan (env.sub 0) run .waiting)
      (hwork : ¬WorkCan (env.sub 1) work .waiting) :
      SkeletonEffect o s (.suspendNeedUser env runId question options) true
        { s.records with runs := s.runs.set runId (run.moved (env.sub 0) .waiting none) }
  | suspended {env : Supply} {runId : RunId} {question : String} {options : List String} {run : RunRecord}
      {work : WorkRecord} {q : SkeletonQuestion} (h : s.records.Holds runId run work)
      (hrun : RunCan (env.sub 0) run .waiting) (hwork : WorkCan (env.sub 1) work .waiting) :
      SkeletonEffect o s (.suspendNeedUser env runId question options) false
        { works := s.works.set run.workId (work.moved (env.sub 1) .waiting)
          runs := s.runs.set runId (run.moved (env.sub 0) .waiting none)
          questions := s.questions.set (newQuestionId (env.sub 2)) q }
  | noReference {env : Supply} {runId : RunId} {questionId : QuestionId} {payload : PyDict}
      {signal : Except Exn SignalOutcome}
      (h : ∀ run work, s.records.Holds runId run work → run.executionRef = none) :
      SkeletonEffect o s (.resumeWithUserSignal env runId questionId payload signal) true s.records
  | notResumed {env : Supply} {runId : RunId} {questionId : QuestionId} {payload : PyDict}
      {signal : Except Exn SignalOutcome} {run : RunRecord} {work : WorkRecord} (h : s.records.Holds runId run work)
      (href : run.executionRef ≠ none) (hrun : ¬(Delivered signal ∧ RunCan (env.sub 0) run .running)) :
      SkeletonEffect o s (.resumeWithUserSignal env runId questionId payload signal) true
        (projected s.records env questionId payload)
  | halfResumed {env : Supply} {runId : RunId} {questionId : QuestionId} {payload : PyDict}
      {signal : Except Exn SignalOutcome} {run : RunRecord} {work : WorkRecord} (h : s.records.Holds runId run work)
      (href : run.executionRef ≠ none) (hsignal : Delivered signal) (hrun : RunCan (env.sub 0) run .running)
      (hwork : ¬WorkCan (env.sub 1) work .running) :
      SkeletonEffect o s (.resumeWithUserSignal env runId questionId payload signal) true
        { projected s.records env questionId payload with runs := s.runs.set runId (run.moved (env.sub 0) .running none) }
  | resumed {env : Supply} {runId : RunId} {questionId : QuestionId} {payload : PyDict}
      {signal : Except Exn SignalOutcome} {run : RunRecord} {work : WorkRecord} (h : s.records.Holds runId run work)
      (href : run.executionRef ≠ none) (hsignal : Delivered signal) (hrun : RunCan (env.sub 0) run .running)
      (hwork : WorkCan (env.sub 1) work .running) :
      SkeletonEffect o s (.resumeWithUserSignal env runId questionId payload signal) false
        { projected s.records env questionId payload with
          runs := s.runs.set runId (run.moved (env.sub 0) .running none)
          works := s.works.set run.workId (work.moved (env.sub 1) .running) }
  | notCompleted {env : Supply} {runId : RunId} {evidence : CompletionEvidence}
      (h : ∀ run work, s.records.Holds runId run work → ¬RunCan (env.sub 0) run .succeeded) :
      SkeletonEffect o s (.completeRunAndWork env runId evidence) true s.records
  | halfCompleted {env : Supply} {runId : RunId} {evidence : CompletionEvidence} {run : RunRecord} {work : WorkRecord}
      (h : s.records.Holds runId run work) (hrun : RunCan (env.sub 0) run .succeeded)
      (hwork : ¬WorkCan (env.sub 1) work .succeeded (some (.completion evidence))) :
      SkeletonEffect o s (.completeRunAndWork env runId evidence) true
        { s.records with runs := s.runs.set runId (run.moved (env.sub 0) .succeeded none) }
  | completed {env : Supply} {runId : RunId} {evidence : CompletionEvidence} {run : RunRecord} {work : WorkRecord}
      (h : s.records.Holds runId run work) (hrun : RunCan (env.sub 0) run .succeeded)
      (hwork : WorkCan (env.sub 1) work .succeeded (some (.completion evidence))) :
      SkeletonEffect o s (.completeRunAndWork env runId evidence) false
        { s.records with
          runs := s.runs.set runId (run.moved (env.sub 0) .succeeded none)
          works := s.works.set run.workId (work.moved (env.sub 1) .succeeded) }

/-! ## Every call does one of these -/

open EStateM

variable {o : Orchestrator} {s : SkeletonState} {op : SkeletonOp} {runId : RunId}

theorem ends_runAt : Ends (runAt runId) s (fun run s' => s' = s ∧ s.runs.get? runId = some run)
      fun _ s' => s' = s ∧ s.runs.get? runId = none := by
  unfold runAt
  refine ends_get_bind ?_
  cases hget : s.runs.get? runId with
  | none => exact ends_throw ⟨rfl, rfl⟩
  | some run => exact ends_pure ⟨rfl, rfl⟩

variable {workId : WorkId}

theorem ends_workAt : Ends (workAt workId) s (fun work s' => s' = s ∧ s.works.get? workId = some work)
      fun _ s' => s' = s ∧ s.works.get? workId = none := by
  unfold workAt
  refine ends_get_bind ?_
  cases hget : s.works.get? workId with
  | none => exact ends_throw ⟨rfl, rfl⟩
  | some work => exact ends_pure ⟨rfl, rfl⟩

variable {E : Exn → SkeletonState → Prop} {α : Type}

variable {Q : α → SkeletonState → Prop} {k : RunRecord → WorkRecord → SkeletonM α}

theorem ends_lookup (hmissing : (∀ run work, ¬s.records.Holds runId run work) → ∀ e, E e s)
    (hfound : ∀ run work, s.records.Holds runId run work → Ends (k run work) s Q E) :
    Ends (do let run ← runAt runId; let work ← workAt run.workId; k run work) s Q E := by
  refine Ends.bind (Q := fun run s' => s' = s ∧ s.runs.get? runId = some run) (ends_runAt.mono (fun _ _ h => h) ?_) ?_
  · rintro e s' ⟨rfl, hnone⟩
    refine hmissing (fun run work h => ?_) e
    exact absurd (hnone.symm.trans h.1) (by nofun)
  · rintro run s' ⟨rfl, hrun⟩
    refine Ends.bind (Q := fun work s'' => s'' = s' ∧ s'.works.get? run.workId = some work)
      (ends_workAt.mono (fun _ _ h => h) ?_) ?_
    · rintro e s'' ⟨rfl, hnone⟩
      refine hmissing (fun run' work h => ?_) e
      cases hrun.symm.trans h.1
      exact absurd (hnone.symm.trans h.2) (by nofun)
    · rintro work s'' ⟨rfl, hwork⟩
      exact hfound run work ⟨hrun, hwork⟩

variable {work : WorkRecord}

/-- The Run is moved and stored, and then its Work. -/
theorem ends_moveBoth {envRun envWork : Supply} {run : RunRecord} {runTarget : RunStatus} {workTarget : WorkStatus} {evidence : Option Evidence}
    (hnone : ¬RunCan envRun run runTarget → ∀ e, E e s)
    (hhalf : RunCan envRun run runTarget → ¬WorkCan envWork work workTarget evidence →
      ∀ e, E e { s with runs := s.runs.set runId (run.moved envRun runTarget none) })
    (hboth : RunCan envRun run runTarget → WorkCan envWork work workTarget evidence →
      Ends (k (run.moved envRun runTarget none) (work.moved envWork workTarget))
        { s with runs := s.runs.set runId (run.moved envRun runTarget none)
                 works := s.works.set workId (work.moved envWork workTarget) } Q E) :
    Ends (do
      let run' ← MonadExcept.ofExcept (transitionRun envRun run runTarget)
      putRun runId run'
      let work' ← MonadExcept.ofExcept (transitionWork envWork work workTarget evidence)
      putWork workId work'
      k run' work') s Q E := by
  cases hrun : transitionRun envRun run runTarget with
  | error e =>
    refine hnone ?_ e
    rintro ⟨run', hok⟩
    exact absurd (hrun.symm.trans hok) (by nofun)
  | ok run' =>
    obtain ⟨-, -, rfl⟩ := transitionRun_ok_iff.mp hrun
    cases hwork : transitionWork envWork work workTarget evidence with
    | error e =>
      refine hhalf ⟨_, hrun⟩ ?_ e
      rintro ⟨work', hok⟩
      exact absurd (hwork.symm.trans hok) (by nofun)
    | ok work' =>
      obtain ⟨-, -, rfl, -⟩ := transitionWork_ok hwork
      exact hboth ⟨_, hrun⟩ ⟨_, hwork⟩

variable {env : Supply}

theorem ends_initiateGoalAndWork {userId goalTitle workTitle : String} :
    Ends (Skeleton.initiateGoalAndWork env userId goalTitle workTitle) s
      (fun _ s' => SkeletonEffect o s (.initiateGoalAndWork env userId goalTitle workTitle) false s'.records)
      fun _ s' => SkeletonEffect o s (.initiateGoalAndWork env userId goalTitle workTitle) true s'.records :=
  ends_modify_bind (ends_modify_bind (ends_pure (.initiated rfl rfl)))

theorem ends_suspendNeedUser {question : String} {options : List String} :
    Ends (Skeleton.suspendNeedUser env runId question options) s
      (fun _ s' => SkeletonEffect o s (.suspendNeedUser env runId question options) false s'.records)
      fun _ s' => SkeletonEffect o s (.suspendNeedUser env runId question options) true s'.records := by
  refine ends_lookup (fun hmissing _ => .notSuspended fun run work h => absurd h (hmissing run work)) fun run work hholds => ?_
  refine ends_moveBoth (fun hcan _ => .notSuspended fun run' work' h => ?_) (fun hrun hwork _ => .halfSuspended hholds hrun hwork)
    fun hrun hwork => ends_modify_bind (ends_pure (.suspended hholds hrun hwork))
  cases hholds.1.symm.trans h.1
  exact hcan

theorem ends_completeRunAndWork {evidence : CompletionEvidence} : Ends (Skeleton.completeRunAndWork env runId evidence) s
      (fun _ s' => SkeletonEffect o s (.completeRunAndWork env runId evidence) false s'.records)
      fun _ s' => SkeletonEffect o s (.completeRunAndWork env runId evidence) true s'.records := by
  refine ends_lookup (fun hmissing _ => .notCompleted fun run work h => absurd h (hmissing run work)) fun run work hholds => ?_
  refine ends_moveBoth (fun hcan _ => .notCompleted fun run' work' h => ?_) (fun hrun hwork _ => .halfCompleted hholds hrun hwork)
    fun hrun hwork => ends_pure (.completed hholds hrun hwork)
  cases hholds.1.symm.trans h.1
  exact hcan

def afterAnswer (s : SkeletonState) (env : Supply) (questionId : QuestionId) (payload : PyDict) : SkeletonState :=
  match s.questions.get? questionId with
  | some q => { s with questions := s.questions.set questionId (q.answered env payload) }
  | none => s

theorem records_afterAnswer (env : Supply) (questionId : QuestionId) (payload : PyDict) :
    (afterAnswer s env questionId payload).records = projected s.records env questionId payload := by
  unfold afterAnswer projected
  change _ = match s.questions.get? questionId with | some q => _ | none => _
  cases s.questions.get? questionId <;> rfl

theorem runs_afterAnswer (env : Supply) (questionId : QuestionId) (payload : PyDict) :
    (afterAnswer s env questionId payload).runs = s.runs := by
  unfold afterAnswer
  cases s.questions.get? questionId <;> rfl

theorem works_afterAnswer (env : Supply) (questionId : QuestionId) (payload : PyDict) :
    (afterAnswer s env questionId payload).works = s.works := by
  unfold afterAnswer
  cases s.questions.get? questionId <;> rfl

variable {payload : PyDict}

theorem ends_resumeWithUserSignal {questionId : QuestionId} {signal : Except Exn SignalOutcome} :
    Ends (Skeleton.resumeWithUserSignal env runId questionId payload signal) s
      (fun _ s' => SkeletonEffect o s (.resumeWithUserSignal env runId questionId payload signal) false s'.records)
      fun _ s' => SkeletonEffect o s (.resumeWithUserSignal env runId questionId payload signal) true s'.records := by
  refine ends_lookup (fun hmissing _ => .noReference fun run work h => absurd h (hmissing run work)) fun run work hholds => ?_
  refine ends_ite (fun hnone => ends_throw_bind (.noReference fun run' work' h => ?_)) fun hsome => ?_
  · cases hholds.1.symm.trans h.1
    exact Option.isNone_iff_eq_none.mp hnone
  have href : run.executionRef ≠ none := fun h => hsome (Option.isNone_iff_eq_none.mpr h)
  refine ends_modify_bind ?_
  change Ends _ (afterAnswer s env questionId payload) _ _
  have hfailed : ¬(Delivered signal ∧ RunCan (env.sub 0) run .running) →
      SkeletonEffect o s (.resumeWithUserSignal env runId questionId payload signal) true
        (afterAnswer s env questionId payload).records := fun h => records_afterAnswer env questionId payload ▸ .notResumed hholds href h
  refine Ends.bind (Q := fun outcome s' => s' = afterAnswer s env questionId payload ∧ signal = .ok outcome)
    (ends_ofExcept (fun outcome h => ⟨rfl, h⟩) fun e h => hfailed ?_) ?_
  · rintro ⟨hok | hok, -⟩ <;> exact absurd (h.symm.trans hok) (by nofun)
  rintro outcome s' ⟨rfl, hsignal⟩
  refine ends_ite (fun hnot => ends_throw_bind (hfailed ?_)) fun hyes => ?_
  · rintro ⟨hok | hok, -⟩
    · exact hnot.1 (Except.ok.inj (hsignal.symm.trans hok))
    · exact hnot.2 (Except.ok.inj (hsignal.symm.trans hok))
  have hdelivered : Delivered signal := by
    unfold Delivered
    rw [hsignal]
    cases outcome <;> simp_all
  refine ends_moveBoth (fun hcan _ => hfailed fun h => hcan h.2) (fun hrun hwork _ => ?_) fun hrun hwork => ends_pure ?_
  · change SkeletonEffect o s _ true { (afterAnswer s env questionId payload).records with runs := _ }
    rw [records_afterAnswer, runs_afterAnswer]
    exact .halfResumed hholds href hdelivered hrun hwork
  · change SkeletonEffect o s _ false { (afterAnswer s env questionId payload).records with runs := _, works := _ }
    rw [records_afterAnswer, runs_afterAnswer, works_afterAnswer]
    exact .resumed hholds href hdelivered hrun hwork

theorem ends_casAttachExecutionRef {execRef : ExecutionRef} : Ends (Skeleton.casAttachExecutionRef env runId execRef) s
      (fun _ s' => SkeletonEffect o s (.casAttachExecutionRef env runId execRef) false s'.records)
      fun _ s' => SkeletonEffect o s (.casAttachExecutionRef env runId execRef) true s'.records := by
  have hattach : ∀ run, s.runs.get? runId = some run →
      Ends (do
        let run ← MonadExcept.ofExcept (transitionRun env run .running (some execRef))
        putRun runId run
        return true : SkeletonM Bool) s
        (fun _ s' => SkeletonEffect o s (.casAttachExecutionRef env runId execRef) false s'.records)
        fun _ s' => SkeletonEffect o s (.casAttachExecutionRef env runId execRef) true s'.records := by
    intro run hrun
    cases hmove : transitionRun env run .running (some execRef) with
    | error e => exact .notAttached true
    | ok run' =>
      obtain ⟨-, hmem, rfl⟩ := transitionRun_ok_iff.mp hmove
      exact .attached hrun hmem
  unfold Skeleton.casAttachExecutionRef
  refine ends_get_bind ?_
  cases hget : s.runs.get? runId with
  | none => exact ends_pure (.notAttached false)
  | some run =>
    dsimp only
    cases run.executionRef with
    | none => exact hattach run hget
    | some attached => exact ends_ite (fun _ => ends_throw_bind (.notAttached true)) fun _ => hattach run hget

def afterClaim (s : SkeletonState) (env : Supply) (workId : WorkId) (work : WorkRecord) : SkeletonState :=
  if work.status = .pending then { s with works := s.works.set workId (work.moved (env.sub 0) .running) } else s

theorem records_afterClaim (env : Supply) (workId : WorkId) (work : WorkRecord) :
    (afterClaim s env workId work).records = claimed s.records env workId work := by
  unfold afterClaim claimed
  split <;> rfl

theorem runs_afterClaim (env : Supply) (workId : WorkId) (work : WorkRecord) :
    (afterClaim s env workId work).runs = s.runs := by
  unfold afterClaim
  split <;> rfl

theorem deliveries_afterClaim (env : Supply) (workId : WorkId) (work : WorkRecord) :
    (afterClaim s env workId work).deliveries = s.deliveries := by
  unfold afterClaim
  split <;> rfl

theorem ends_claim {k : SkeletonM α} (h : Ends k (afterClaim s env workId work) Q E) :
    Ends (do
      if work.status = .pending then
        let work ← MonadExcept.ofExcept (transitionWork (env.sub 0) work .running)
        putWork workId work
      k) s Q E := by
  unfold afterClaim at h
  refine ends_ite (fun hpending => ?_) fun hnot => ?_
  · rw [if_pos hpending] at h
    rw [transitionWork_claim _ hpending]
    exact h
  · rw [if_neg hnot] at h
    exact h

theorem commitStart_of_intent {name : String} {intent : DeliveryRecord}
    (h : startIntent o env workId name payload = .ok intent) (deliveries : DeliveryStore) :
    commitStart o env workId name payload deliveries =
      DeliveryStore.atomicAppTransaction o.str (env.sub 3) intent (.ok (.str (startingRun env workId).runId.val)) deliveries := by
  unfold commitStart
  rw [h]
  rfl

variable {deliveries : DeliveryStore} {x : DeliveryStoreM α}

theorem run_onDeliveries_ok {v : α}
    (h : x s.deliveries = .ok v deliveries) : (onDeliveries x).run s = .ok v { s with deliveries } := by
  change onDeliveries x s = _
  unfold onDeliveries
  rw [h]

theorem run_onDeliveries_error {e : Exn}
    (h : x s.deliveries = .error e deliveries) : (onDeliveries x).run s = .error e { s with deliveries } := by
  change onDeliveries x s = _
  unfold onDeliveries
  rw [h]

theorem ends_createStartingRun {name : String} : Ends (Skeleton.createStartingRun o env workId name payload) s
      (fun _ s' => SkeletonEffect o s (.createStartingRun env workId name payload) false s'.records)
      fun _ s' => SkeletonEffect o s (.createStartingRun env workId name payload) true s'.records := by
  refine Ends.bind (Q := fun work s' => s' = s ∧ s.works.get? workId = some work)
    (ends_workAt.mono (fun _ _ h => h) ?_) ?_
  · rintro e s' ⟨rfl, hnone⟩
    exact .noWork hnone
  rintro work s' ⟨rfl, hwork⟩
  refine ends_claim ?_
  refine Ends.bind (Q := fun _ s'' => s'' = afterClaim s' env workId work) (ends_ofExcept (fun _ _ => rfl) ?_) ?_
  · intro e h
    cases h
  rintro _ s'' rfl
  -- the store sees the deliveries as they were before the claim
  have hdeliveries : (afterClaim s' env workId work).deliveries = s'.deliveries := deliveries_afterClaim env workId work
  have hrecords := records_afterClaim (s := s') env workId work
  cases hintent : startIntent o env workId name payload with
  | error e =>
    change SkeletonEffect o s' _ true (afterClaim s' env workId work).records
    rw [hrecords]
    refine .notCommitted hwork ?_
    rintro ⟨result, deliveries, h⟩
    unfold commitStart at h
    rw [hintent] at h
    cases h
  | ok intent =>
    have hcommit := commitStart_of_intent hintent s'.deliveries
    rw [← hdeliveries] at hcommit
    cases htransaction : DeliveryStore.atomicAppTransaction o.str (env.sub 3) intent
      (.ok (.str (startingRun env workId).runId.val)) (afterClaim s' env workId work).deliveries with
    | error e deliveries =>
      refine ends_run_bind (run_ofExcept_ok intent _) (ends_error_bind (run_onDeliveries_error htransaction) ?_)
      change SkeletonEffect o s' _ true (afterClaim s' env workId work).records
      rw [hrecords]
      refine .notCommitted hwork ?_
      rintro ⟨result, deliveries', h⟩
      rw [← hdeliveries, hcommit, htransaction] at h
      cases h
    | ok result deliveries =>
      obtain ⟨saved, committed⟩ := result
      have hok := hcommit.trans htransaction
      rw [hdeliveries] at hok
      refine ends_run_bind (run_ofExcept_ok intent _) (ends_run_bind (run_onDeliveries_ok htransaction) ?_)
      cases saved with
      | none =>
        change SkeletonEffect o s' _ false (afterClaim s' env workId work).records
        rw [hrecords]
        refine .notSaved hwork ⟨_, _, hok⟩ ?_
        rintro ⟨saved, committed', deliveries', hne, h⟩
        cases hok.symm.trans h
        exact hne rfl
      | _ =>
        change SkeletonEffect o s' _ false { (afterClaim s' env workId work).records with runs := _ }
        rw [hrecords, runs_afterClaim]
        exact .started hwork ⟨_, _, hok⟩ ⟨_, _, _, by nofun, hok⟩

theorem effect_of_ends {x : SkeletonM α} (hop : op.exec o = do let _ ← x)
    (hx : Ends x s (fun _ s' => SkeletonEffect o s op false s'.records) fun _ s' => SkeletonEffect o s op true s'.records) :
    ∃ raised, (raised = true ↔ Raises o s op) ∧ SkeletonEffect o s op raised (skeletonStep o s op).records := by
  have hends : Ends (op.exec o) s (fun _ s' => SkeletonEffect o s op false s'.records)
      fun _ s' => SkeletonEffect o s op true s'.records := hop ▸ Ends.bind hx fun _ _ h => ends_pure h
  unfold Raises skeletonStep
  unfold Ends at hends
  change ∃ raised, (raised = true ↔ (op.exec o s).outcome ≠ _) ∧ SkeletonEffect o s op raised (op.exec o s).state.records
  cases hrun : op.exec o s with
  | ok _ s' =>
    rw [hrun] at hends
    exact ⟨false, by simp, hends⟩
  | error e s' =>
    rw [hrun] at hends
    exact ⟨true, by simp, hends⟩

theorem skeleton_effect (o : Orchestrator) (s : SkeletonState) (op : SkeletonOp) :
    ∃ raised, (raised = true ↔ Raises o s op) ∧ SkeletonEffect o s op raised (skeletonStep o s op).records := by
  cases op with
  | initiateGoalAndWork => exact effect_of_ends rfl ends_initiateGoalAndWork
  | createStartingRun => exact effect_of_ends rfl ends_createStartingRun
  | casAttachExecutionRef => exact effect_of_ends rfl ends_casAttachExecutionRef
  | suspendNeedUser => exact effect_of_ends rfl ends_suspendNeedUser
  | resumeWithUserSignal => exact effect_of_ends rfl ends_resumeWithUserSignal
  | completeRunAndWork => exact effect_of_ends rfl ends_completeRunAndWork

end Skeleton

end AllTomorrow
