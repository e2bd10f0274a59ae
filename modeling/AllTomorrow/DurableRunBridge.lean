import AllTomorrow.ResumptionPrograms
import AllTomorrow.SemanticStoreEffects

/-!
# The durable execution bridge

`DurableRunBridge` of `bridge/durable_bridge.py`: the start protocol of a Run and
the reconciliation of Runs that a crash left in STARTING. The calls are programs
that request store operations and port calls, so that they can be run to the end,
cut at any request, or interleaved.
-/

namespace AllTomorrow

structure BridgeResult where
  run : RunRecord
  ref : Option ExecutionRef
  /-- True when an existing external execution was recovered. -/
  recovered : Bool

structure BridgeDeps (A : Type) (R : A → Type) where
  store : (op : StoreOp) → Supply → ExceptT Exn (Prog A R) op.Result
  start : Supply → RunId → String → PyDict → String → ExceptT Exn (Prog A R) ExecutionRef
  findByRunId : RunId → ExceptT Exn (Prog A R) (Option ExecutionRef)

structure DurableRunBridge where
  actor : String := "durable_bridge"
  maxReconcileAttempts : ℤ := 3
  actor_nonempty : PyText.isBlank actor = false := by decide

def defaultBridge : DurableRunBridge := {}

/-- `_event(self.actor, type_, run, **payload)`. -/
def DurableRunBridge.event (b : DurableRunBridge) (env : Supply) (type : String) (run : RunRecord)
    (payload : PyDict) (htype : PyText.isBlank type = false := by decide) : SemanticEvent :=
  { eventId := newEventId env, actor := b.actor, type := type, occurredAt := env.utcNow,
    workId := some run.workId, runId := some run.runId, payload := payload,
    actor_nonempty := b.actor_nonempty, type_nonempty := htype }

/-- Runs carry no workflow name in the domain; recovery starts the generic workflow. -/
def recoveryWorkflowName (_ : RunRecord) : String := "at_generic_workflow"

namespace DurableRunBridge

variable {A : Type} {R : A → Type} (b : DurableRunBridge) (deps : BridgeDeps A R)

def startRun (env : Supply) (run : RunRecord) (workflowName : String) (payload : PyDict) (runRevision : ℤ) :
    ExceptT Exn (Prog A R) BridgeResult := do
  if run.status ≠ .starting then
    throw (.invariantViolationError ("start_run requires a STARTING run, got " ++ run.status.value))
  else
    -- step 2: idempotent external start keyed on run_id
    let ref ← deps.start (env.sub 0) run.runId workflowName payload run.runId.val
    -- step 3: attach the reference by compare-and-set
    let attached ← deps.store
      (.attachExecutionRef run.runId runRevision ref
        (b.event (env.sub 1) "run.execution_ref_attached" run (InsertionDict.empty.set "backend" (.str ref.backend))))
      (env.sub 2)
    -- step 4: RUNNING once the reference is durable
    let newRev ← deps.store (.runRevision run.runId) (env.sub 3)
    let running ← deps.store
      (.transitionRunStatus run.runId .running newRev (b.event (env.sub 4) "run.running" attached .empty) none)
      (env.sub 5)
    return { run := running, ref := some ref, recovered := false }

def finishRecovered (env : Supply) (run : RunRecord) : ExceptT Exn (Prog A R) BridgeResult := do
  if run.executionRef.isNone then
    throw .assertionError
  else if run.status = .starting then
    let rev ← deps.store (.runRevision run.runId) (env.sub 0)
    let run ← deps.store
      (.transitionRunStatus run.runId .running rev (b.event (env.sub 1) "run.running" run .empty) none)
      (env.sub 2)
    return { run := run, ref := run.executionRef, recovered := true }
  else
    return { run := run, ref := run.executionRef, recovered := true }

def markFailedExhausted (env : Supply) (run : RunRecord) : ExceptT Exn (Prog A R) Unit := do
  match ← deps.store (.getRun run.runId) (env.sub 0) with
  | none => return ()
  | some current =>
    if current.status ≠ .starting then
      return ()
    else
      let rev ← deps.store (.runRevision run.runId) (env.sub 1)
      -- best effort: if someone else advanced it, the FAILED marker is moot
      let _ ← Prog.attempt (deps.store
        (.transitionRunStatus run.runId .failed rev
          (b.event (env.sub 2) "run.reconciliation_failed" current
            (InsertionDict.empty.set "reason" (.str "reconciliation_exhausted")))
          none)
        (env.sub 3))
      return ()

/-- Recover the existing external execution, else start one; the flag says which. -/
def obtainRef (env : Supply) (current : RunRecord) (runId : RunId) : ExceptT Exn (Prog A R) (ExecutionRef × Bool) := do
  match ← deps.findByRunId runId with
  | some ref => return (ref, true)
  | none =>
    let ref ← deps.start (env.sub 0) runId (recoveryWorkflowName current) .empty runId.val
    return (ref, false)

def runAttached (env : Supply) (runId : RunId) (ref : ExecutionRef) (recovered : Bool) (attached : RunRecord) :
    ExceptT Exn (Prog A R) BridgeResult := do
  let newRev ← deps.store (.runRevision runId) (env.sub 0)
  let running ← deps.store
    (.transitionRunStatus runId .running newRev (b.event (env.sub 1) "run.running" attached .empty) none)
    (env.sub 2)
  return { run := running, ref := some ref, recovered := recovered }

/-- A different reference may already be attached: converge on the same one, else fail closed. -/
def resolveRefConflict (env : Supply) (runId : RunId) (ref : ExecutionRef) (message : String) :
    ExceptT Exn (Prog A R) BridgeResult := do
  match ← deps.store (.getRun runId) (env.sub 0) with
  | none => throw Exn.assertionError
  | some final =>
    match final.executionRef with
    | none => throw Exn.assertionError
    | some attached =>
      if sameRef attached ref then
        b.finishRecovered deps (env.sub 1) final
      else
        throw (Exn.executionRefConflictError message)

/-- The attempts that are left of `for _attempt in range(self.max_reconcile_attempts)`. -/
def reconcileAttempts (run : RunRecord) : ℕ → Supply → ExceptT Exn (Prog A R) BridgeResult
  | 0, env => do
    b.markFailedExhausted deps (env.sub 0) run
    throw (Exn.reconciliationExhaustedError ("reconciliation exhausted for run " ++ run.runId.val ++ " after " ++
      toString b.maxReconcileAttempts ++ " attempts"))
  | n + 1, env => do
    -- re-read to observe another reconciler's attach and current revision
    match ← deps.store (.getRun run.runId) (env.sub 0) with
    | none => throw (Exn.invariantViolationError ("run vanished during reconcile: " ++ run.runId.val))
    | some current =>
      if current.executionRef.isSome then
        b.finishRecovered deps (env.sub 1) current
      else
        let rev ← deps.store (.runRevision run.runId) (env.sub 2)
        let obtained ← obtainRef deps (env.sub 3) current run.runId
        match ← Prog.attempt (deps.store
            (.attachExecutionRef run.runId rev obtained.1
              (b.event (env.sub 4) "run.reconciled_attach" current
                (InsertionDict.empty.set "recovered" (.bool obtained.2))))
            (env.sub 5)) with
        | .ok attached => b.runAttached deps (env.sub 6) run.runId obtained.1 obtained.2 attached
        -- lost the revision race; loop and re-read
        | .error (.storeConflictError _) => reconcileAttempts run n (env.sub 7)
        | .error (.executionRefConflictError message) =>
          b.resolveRefConflict deps (env.sub 8) run.runId obtained.1 message
        | .error e => throw e

def reconcileOne (env : Supply) (run : RunRecord) : ExceptT Exn (Prog A R) BridgeResult :=
  b.reconcileAttempts deps run b.maxReconcileAttempts.toNat env

def reconcileEach : List RunRecord → Supply → ExceptT Exn (Prog A R) (List BridgeResult)
  | [], _ => return []
  | run :: rest, env => do
    let result ← b.reconcileOne deps (env.sub 0) run
    let results ← reconcileEach rest (env.sub 1)
    return result :: results

def reconcileStartingRuns (env : Supply) : ExceptT Exn (Prog A R) (List BridgeResult) := do
  let candidates ← deps.store .findReconciliationCandidates (env.sub 0)
  b.reconcileEach deps candidates (env.sub 1)

end DurableRunBridge

end AllTomorrow
