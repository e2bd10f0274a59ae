import AllTomorrow.DurableRunBridge

/-!
# Durable execution ports

The actions a bridge call requests, ports that answer them, and the contract of
`DurableExecutionPort`: `start` is idempotent on the run id. The fake adapter of
`adapters/fake_adapters.py` honours it. A port with faults raises for some Runs,
or has another actor attach a reference while a call for the Run is pending.
-/

namespace AllTomorrow

inductive BridgeAction where
  | store (op : StoreOp) (env : Supply)
  | start (env : Supply) (runId : RunId) (workflowName : String) (payload : PyDict) (idempotencyKey : String)
  | findByRunId (runId : RunId)

@[reducible] def BridgeAction.Answer : BridgeAction → Type
  | .store op _ => Except Exn op.Result
  | .start .. => Except Exn ExecutionRef
  | .findByRunId _ => Except Exn (Option ExecutionRef)

abbrev BridgeTask (α : Type) := ExceptT Exn (Prog BridgeAction BridgeAction.Answer) α

def portDeps : BridgeDeps BridgeAction BridgeAction.Answer where
  store op env := ExceptT.mk (.act (.store op env) .done)
  start env runId workflowName payload key := ExceptT.mk (.act (.start env runId workflowName payload key) .done)
  findByRunId runId := ExceptT.mk (.act (.findByRunId runId) .done)

/-- A durable port with state `π`. A call is answered against the store as well, since
other actors may write to the store while it is pending. -/
structure DurablePort (π : Type) where
  start : Supply → RunId → String → PyDict → String → InMemoryStore × π → Except Exn ExecutionRef × (InMemoryStore × π)
  findByRunId : RunId → InMemoryStore × π → Except Exn (Option ExecutionRef) × (InMemoryStore × π)

variable {π : Type}

def DurablePort.handler (P : DurablePort π) : Prog.Handler BridgeAction BridgeAction.Answer (InMemoryStore × π)
  | .store op env, w => (((op.exec env).run w.1).outcome, ((op.exec env).run w.1).state, w.2)
  | .start env runId workflowName payload key, w => P.start env runId workflowName payload key w
  | .findByRunId runId, w => P.findByRunId runId w

structure Execution where
  ref : ExecutionRef
  workflowName : String
  payload : PyDict

/-- The port contract on one run id: no faults, and `start` is idempotent. `held` is what the
port holds for each run id, `valid` an invariant of its state. -/
structure DurablePort.Honours (P : DurablePort π) (valid : π → Prop) (held : π → RunId → Option Execution)
    (runId : RunId) : Prop where
  find : ∀ s p, valid p → ∃ p', P.findByRunId runId (s, p) = (.ok ((held p runId).map Execution.ref), (s, p')) ∧
    valid p' ∧ held p' = held p
  start_held : ∀ env name payload key s p e, valid p → held p runId = some e →
    ∃ p', P.start env runId name payload key (s, p) = (.ok e.ref, (s, p')) ∧ valid p' ∧ held p' = held p
  start_new : ∀ env name payload key s p, valid p → held p runId = none →
    ∃ ref p', P.start env runId name payload key (s, p) = (.ok ref, (s, p')) ∧ valid p' ∧
      held p' = Function.update (held p) runId (some ⟨ref, name, payload⟩)

/-! ## The fake adapter -/

/-- The fields of `FakeDurableAdapter` that `start` and `find_by_run_id` use. -/
structure FakeDurableAdapter where
  runsToRef : InsertionDict String ExecutionRef
  executions : InsertionDict String Execution
  simulateUnavailable : Bool

namespace FakeDurableAdapter

def init : FakeDurableAdapter := ⟨.empty, .empty, false⟩

theorem executionId_nonempty (runKey : String) : PyText.isBlank ("exec_" ++ runKey) = false := by
  rw [PyText.isBlank_append]
  exact Bool.and_eq_false_imp.mpr fun h => absurd h (by decide)

theorem backendName_nonempty : PyText.isBlank "fake_durable" = false := by decide

theorem firstVersion_pos : (1 : ℤ) ≤ 1 := le_refl 1

/-- `ExecutionRef(backend=self.backend_name, execution_id=f"exec_{run_key}", execution_version=1)`
with the default backend name. -/
def newRef (env : Supply) (runKey : String) : ExecutionRef :=
  ⟨"fake_durable", "exec_" ++ runKey, 1, env.utcNow, [], backendName_nonempty, executionId_nonempty runKey,
    firstVersion_pos⟩

def start (env : Supply) (runId : RunId) (workflowName : String) (payload : PyDict) (_idempotencyKey : String)
    (w : InMemoryStore × FakeDurableAdapter) : Except Exn ExecutionRef × (InMemoryStore × FakeDurableAdapter) :=
  if w.2.simulateUnavailable then
    (.error (.connectionError "Simulated backend unavailable"), w)
  else
    match w.2.runsToRef.get? runId.val with
    | some ref => (.ok ref, w)
    | none =>
      let ref := newRef env runId.val
      (.ok ref, w.1,
        { w.2 with
          runsToRef := w.2.runsToRef.set runId.val ref
          executions := w.2.executions.set ref.executionId ⟨ref, workflowName, payload⟩ })

def findByRunId (runId : RunId) (w : InMemoryStore × FakeDurableAdapter) :
    Except Exn (Option ExecutionRef) × (InMemoryStore × FakeDurableAdapter) :=
  if w.2.simulateUnavailable then
    (.error (.connectionError "Simulated backend unavailable"), w)
  else (.ok (w.2.runsToRef.get? runId.val), w)

def port : DurablePort FakeDurableAdapter := ⟨start, findByRunId⟩

def held (a : FakeDurableAdapter) (runId : RunId) : Option Execution :=
  (a.runsToRef.get? runId.val).bind fun ref => a.executions.get? ref.executionId

/-- The backend is up, and every mapped reference has its own execution. -/
structure Valid (a : FakeDurableAdapter) : Prop where
  available : a.simulateUnavailable = false
  executionId : ∀ key ref, a.runsToRef.get? key = some ref → ref.executionId = "exec_" ++ key
  execution : ∀ key ref, a.runsToRef.get? key = some ref → ∃ e, a.executions.get? ref.executionId = some e ∧ e.ref = ref

theorem valid_init : init.Valid := by
  refine ⟨rfl, ?_, ?_⟩ <;> intro key ref h <;> simp [init] at h

theorem held_of_get? {a : FakeDurableAdapter} (ha : a.Valid) {runId : RunId} {ref : ExecutionRef}
    (h : a.runsToRef.get? runId.val = some ref) : ∃ e, a.held runId = some e ∧ e.ref = ref := by
  obtain ⟨e, he, href⟩ := ha.execution _ _ h
  exact ⟨e, by simp only [held, h, Option.bind_some, he], href⟩

theorem map_ref_held {a : FakeDurableAdapter} (ha : a.Valid) (runId : RunId) :
    (a.held runId).map Execution.ref = a.runsToRef.get? runId.val := by
  cases h : a.runsToRef.get? runId.val with
  | none => simp [held, h]
  | some ref =>
    obtain ⟨e, he, href⟩ := held_of_get? ha h
    rw [he, Option.map_some, href]

theorem runsToRef_of_held {a : FakeDurableAdapter} (ha : a.Valid) {runId : RunId} {held : Option Execution}
    (h : a.held runId = held) : a.runsToRef.get? runId.val = held.map Execution.ref := by
  rw [← map_ref_held ha, h]

section StartNew

variable {a : FakeDurableAdapter} {key : String}

def started (a : FakeDurableAdapter) (env : Supply) (key name : String) (payload : PyDict) : FakeDurableAdapter :=
  { a with
    runsToRef := a.runsToRef.set key (newRef env key)
    executions := a.executions.set (newRef env key).executionId ⟨newRef env key, name, payload⟩ }

theorem newRef_executionId_ne (env : Supply) {other : String} {ref : ExecutionRef} (hne : other ≠ key)
    (href : ref.executionId = "exec_" ++ other) : ref.executionId ≠ (newRef env key).executionId := by
  intro h
  rw [href] at h
  exact hne ((String.append_right_inj "exec_").mp h)

theorem valid_started (ha : a.Valid) (env : Supply) (name : String) (payload : PyDict) :
    (a.started env key name payload).Valid := by
  refine ⟨ha.available, InsertionDict.forall_set ha.executionId rfl, ?_⟩
  intro other ref h
  change (a.runsToRef.set key (newRef env key)).get? other = some ref at h
  change ∃ e, (a.executions.set _ _).get? ref.executionId = some e ∧ e.ref = ref
  rw [InsertionDict.get?_set] at h
  split at h
  · cases h
    exact ⟨_, InsertionDict.get?_set_self _ _ _, rfl⟩
  · rename_i hne
    obtain ⟨e, he, href⟩ := ha.execution _ _ h
    have hid := newRef_executionId_ne env hne (ha.executionId _ _ h)
    exact ⟨e, (InsertionDict.get?_set_of_ne _ _ hid).trans he, href⟩

theorem held_started (ha : a.Valid) (env : Supply) (runId : RunId) (name : String) (payload : PyDict) :
    (a.started env runId.val name payload).held =
      Function.update a.held runId (some ⟨newRef env runId.val, name, payload⟩) := by
  funext j
  by_cases hj : j = runId
  · subst hj
    simp [held, started]
  · have hval : j.val ≠ runId.val := fun h => hj (by cases j; cases runId; cases h; rfl)
    rw [Function.update_of_ne hj]
    change ((a.runsToRef.set _ _).get? j.val).bind _ = _
    rw [InsertionDict.get?_set_of_ne _ _ hval]
    cases hget : a.runsToRef.get? j.val with
    | none => simp [held, hget]
    | some ref =>
      have hid := newRef_executionId_ne env hval (ha.executionId _ _ hget)
      simp only [held, hget, Option.bind_some, started]
      exact InsertionDict.get?_set_of_ne _ _ hid

end StartNew

theorem honours (runId : RunId) : port.Honours Valid held runId := by
  refine ⟨?_, ?_, ?_⟩
  · intro s a ha
    refine ⟨a, ?_, ha, rfl⟩
    simp only [port, findByRunId, ha.available, Bool.false_eq_true, if_false, map_ref_held ha]
  · intro env name payload key s a e ha hheld
    refine ⟨a, ?_, ha, rfl⟩
    simp only [port, start, ha.available, Bool.false_eq_true, if_false, runsToRef_of_held ha hheld, Option.map_some]
  · intro env name payload key s a ha hheld
    refine ⟨newRef env runId.val, a.started env runId.val name payload, ?_, valid_started ha env name payload,
      held_started ha env runId name payload⟩
    simp only [port, start, ha.available, Bool.false_eq_true, if_false, runsToRef_of_held ha hheld, Option.map_none,
      started]

end FakeDurableAdapter

structure ForeignAttach where
  env : Supply
  ref : ExecutionRef
  event : SemanticEvent

/-- How the port misbehaves for one Run: it raises, or another actor attaches a reference
of its own while a call is pending. -/
structure PortFault where
  findRaises : Option Exn := none
  startRaises : Option Exn := none
  attaches : Option ForeignAttach := none

def PortFault.disturb (fault : PortFault) (runId : RunId) (s : InMemoryStore) : InMemoryStore :=
  match fault.attaches with
  | none => s
  | some a => ((InMemoryStore.attachExecutionRef a.env runId (s.runRevision runId) a.ref a.event).run s).state

def DurablePort.withFaults (P : DurablePort π) (faults : RunId → PortFault) : DurablePort π where
  start env runId name payload key w :=
    match (faults runId).startRaises with
    | some e => (.error e, (faults runId).disturb runId w.1, w.2)
    | none => P.start env runId name payload key ((faults runId).disturb runId w.1, w.2)
  findByRunId runId w :=
    match (faults runId).findRaises with
    | some e => (.error e, (faults runId).disturb runId w.1, w.2)
    | none => P.findByRunId runId ((faults runId).disturb runId w.1, w.2)

theorem DurablePort.withFaults_none (P : DurablePort π) : P.withFaults (fun _ => {}) = P := rfl

end AllTomorrow
