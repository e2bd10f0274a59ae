import AllTomorrow.DurableRunBridge

/-!
# The DBOS adapter with a database

`_sync_start` and `_sync_find_by_run_id` of `adapters/dbos_adapter.py`. A start commits
the row of `public.at_run_executions` in a transaction of its own and only then asks
DBOS for the workflow; a lookup reads the row alone. The statements on the table and
the calls of the DBOS SDK are the requests of the adapter, each of them atomic.
-/

namespace AllTomorrow

/-- A row of `public.at_run_executions`, keyed by the run id. -/
structure ExecutionRow where
  executionId : String
  workflowName : String
  createdAt : Datetime

/-- The workflow functions of the adapter module, and those that `register_dbos_workflow` adds. -/
inductive WorkflowFn where
  | atGenericWorkflow
  | atWalkingSkeletonWorkflow
  | registered (name : String)
  deriving DecidableEq, Repr

/-- `_WORKFLOW_REGISTRY` as the adapter module fills it. -/
def workflowRegistry : InsertionDict String WorkflowFn :=
  (((((InsertionDict.empty.set "walking_skeleton_workflow" .atWalkingSkeletonWorkflow).set
    "at_generic_workflow" .atGenericWorkflow).set "wf_concurrent" .atGenericWorkflow).set
    "test_workflow" .atGenericWorkflow).set "wf_test" .atGenericWorkflow).set "wf" .atGenericWorkflow

structure DbosWorkflow where
  fn : WorkflowFn
  payload : PyDict

/-- The table of the application and the workflows of DBOS, committed separately. -/
structure DbosBackend where
  rows : InsertionDict String ExecutionRow
  workflows : InsertionDict String DbosWorkflow

structure DBOSDurableAdapter where
  backendName : String := "dbos"
  registry : InsertionDict String WorkflowFn := workflowRegistry

inductive DbosAction where
  | store (op : StoreOp) (env : Supply)
  -- INSERT ... ON CONFLICT (run_id) DO UPDATE ... RETURNING execution_id, created_at; commit
  | upsertRow (env : Supply) (runKey executionId workflowName : String)
  -- SELECT execution_id, created_at ... WHERE run_id
  | selectRow (runKey : String)
  | getWorkflowStatus (executionId : String)
  -- DBOS.start_workflow under SetWorkflowID
  | startWorkflow (executionId : String) (fn : WorkflowFn) (payload : PyDict)

@[reducible] def DbosAction.Answer : DbosAction → Type
  | .store op _ => Except Exn op.Result
  | .upsertRow .. => Except Exn (String × Datetime)
  | .selectRow _ => Except Exn (Option (String × Datetime))
  | .getWorkflowStatus _ => Except Exn (Option DbosWorkflow)
  | .startWorkflow .. => Except Exn Unit

abbrev DbosTask (α : Type) := ExceptT Exn (Prog DbosAction DbosAction.Answer) α

abbrev DbosWorld := InMemoryStore × DbosBackend

/-- Read-your-writes on both sides; an upsert keeps the row that is there, and DBOS keeps a
workflow whose id it knows. -/
def dbosHandler : Prog.Handler DbosAction DbosAction.Answer DbosWorld
  | .store op env, w => (((op.exec env).run w.1).outcome, ((op.exec env).run w.1).state, w.2)
  | .upsertRow env runKey executionId workflowName, w =>
    match w.2.rows.get? runKey with
    | some row => (.ok (row.executionId, row.createdAt), w)
    | none =>
      (.ok (executionId, env.utcNow), w.1,
        { w.2 with rows := w.2.rows.set runKey ⟨executionId, workflowName, env.utcNow⟩ })
  | .selectRow runKey, w =>
    (.ok ((w.2.rows.get? runKey).map fun row => (row.executionId, row.createdAt)), w)
  | .getWorkflowStatus executionId, w => (.ok (w.2.workflows.get? executionId), w)
  | .startWorkflow executionId fn payload, w =>
    match w.2.workflows.get? executionId with
    | some _ => (.ok (), w)
    | none => (.ok (), w.1, { w.2 with workflows := w.2.workflows.set executionId ⟨fn, payload⟩ })

namespace DBOSDurableAdapter

variable (adapter : DBOSDurableAdapter)

/-- `_WORKFLOW_REGISTRY.get(workflow_name) or at_generic_workflow`. -/
def workflowFn (workflowName : String) : WorkflowFn := (adapter.registry.get? workflowName).getD .atGenericWorkflow

def syncStart (env : Supply) (runKey workflowName : String) (payload : PyDict) : DbosTask ExecutionRef := do
  let execId := "dbos_" ++ runKey
  let row ← ExceptT.mk (.act (.upsertRow env runKey execId workflowName) .done)
  -- the row is committed; DBOS is asked in a second step
  let status ← ExceptT.mk (.act (.getWorkflowStatus row.1) .done)
  if status.isNone then
    ExceptT.mk (.act (.startWorkflow row.1 (adapter.workflowFn workflowName) payload) .done)
  ExceptT.mk (.done (ExecutionRef.new adapter.backendName row.1 1 row.2))

def syncFindByRunId (runKey : String) : DbosTask (Option ExecutionRef) := do
  match ← ExceptT.mk (.act (.selectRow runKey) .done) with
  | none => return none
  | some row =>
    let ref ← ExceptT.mk (.done (ExecutionRef.new adapter.backendName row.1 1 row.2))
    return some ref

def deps : BridgeDeps DbosAction DbosAction.Answer where
  store op env := ExceptT.mk (.act (.store op env) .done)
  start env runId workflowName payload _ := adapter.syncStart env runId.val workflowName payload
  findByRunId runId := adapter.syncFindByRunId runId.val

end DBOSDurableAdapter

end AllTomorrow
