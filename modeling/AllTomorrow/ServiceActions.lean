import AllTomorrow.ResumptionPrograms
import AllTomorrow.SemanticStoreEffects
import Mathlib.Data.Finset.Empty

/-!
# The services around the store and what they request

The worker contract of `contracts.py`, the repair register of `repair.py` and the
lease table of `device_agent.py`, and the requests that a service call makes. A
store operation and every stretch of code without an await inside is one request;
so is each call of a component outside the program: a worker, the artifact store.
-/

namespace AllTomorrow

/-! ## Workers -/

inductive WorkerStatus where
  | success | failed | timeout | invalidOutput | executableNotFound | traversalBlocked | emptyOutput | outputTooLarge
  deriving DecidableEq, Repr

def WorkerStatus.value : WorkerStatus → String
  | .success => "SUCCESS"
  | .failed => "FAILED"
  | .timeout => "TIMEOUT"
  | .invalidOutput => "INVALID_OUTPUT"
  | .executableNotFound => "EXECUTABLE_NOT_FOUND"
  | .traversalBlocked => "TRAVERSAL_BLOCKED"
  | .emptyOutput => "EMPTY_OUTPUT"
  | .outputTooLarge => "OUTPUT_TOO_LARGE"

structure WorkerRequest where
  requestId : String
  traceId : String
  projectId : Option String
  capabilities : List String
  payload : PyDict
  requestId_nonempty : PyText.isBlank requestId = false
  traceId_nonempty : PyText.isBlank traceId = false

def WorkerRequest.new (requestId traceId : String) (projectId : Option String) (capabilities : List String)
    (payload : PyDict) : Except Exn WorkerRequest :=
  if hr : PyText.isBlank requestId = true then
    .error (.contractError "worker_request.request_id must be a non-empty string")
  else if ht : PyText.isBlank traceId = true then
    .error (.contractError "worker_request.trace_id must be a non-empty string")
  else
    .ok ⟨requestId, traceId, projectId, capabilities, payload, PyText.isBlank_eq_false hr, PyText.isBlank_eq_false ht⟩

def errorStatuses : List WorkerStatus :=
  [.failed, .timeout, .executableNotFound, .traversalBlocked, .emptyOutput, .outputTooLarge]

/-- The payload of a result; that it is a `dict` is checked nowhere. -/
inductive WorkerPayload where
  | dict (payload : PyDict)
  | other (typeName : String) (truthy : Bool)

/-- `payload or {}` as what its method `get` reads. -/
def WorkerPayload.get : WorkerPayload → Except Exn PyDict
  | .dict payload => .ok payload
  | .other typeName truthy =>
    if truthy then .error (.attributeError ("'" ++ typeName ++ "' object has no attribute 'get'")) else .ok .empty

structure WorkerResult where
  requestId : String
  traceId : String
  status : WorkerStatus
  payload : WorkerPayload := .other "NoneType" false
  durationMs : ℤ := 0
  error : Option String := none
  requestId_nonempty : PyText.isBlank requestId = false
  traceId_nonempty : PyText.isBlank traceId = false
  error_of_status : status ∈ errorStatuses → ∃ text, error = some text ∧ text ≠ ""
  durationMs_nonneg : 0 ≤ durationMs

/-- What a call of a worker comes to. -/
inductive WorkerReply where
  | returns (result : WorkerResult)
  /-- a value of which `status`, or the text of a status that is not SUCCESS, cannot be read -/
  | returnsOther (e : Exn)
  | raises (e : Exn)
  /-- what `except Exception` does not catch, such as a `CancelledError` -/
  | aborts (e : Exn)

/-- No handler of the executor sees the exception that follows. -/
def WorkerReply.Escapes : WorkerReply → Prop
  | .returns result => result.status = .success ∧ ∃ e, result.payload.get = .error e
  | .returnsOther _ | .aborts _ => True
  | .raises _ => False

structure WorkerAdapter where
  capabilities : List String

/-! ## Repair register -/

inductive RepairStatus where
  | repairRequired | reconciled | resolved | abandoned
  deriving DecidableEq, Repr

structure RepairItem where
  repairId : String
  subjectRef : String
  reason : String
  safeToRetry : Bool
  provenanceRefs : List String
  status : RepairStatus := .repairRequired
  createdAt : Datetime

structure AuditEntry where
  repairId : String
  action : String
  operator : String
  at_ : Datetime

structure RepairService where
  items : InsertionDict String RepairItem
  audit : List AuditEntry
  operators : List String

abbrev RepairM := EStateM Exn RepairService

namespace RepairService

def init : RepairService := ⟨.empty, [], []⟩

def authorize (operator : String) : RepairM Unit :=
  modify fun r => { r with operators := if operator ∈ r.operators then r.operators else r.operators ++ [operator] }

def recordRepairRequired (item : RepairItem) : RepairM RepairItem := do
  let r ← get
  if r.items.contains item.repairId then
    throw (.repairError ("repair item exists: " ++ item.repairId))
  modify fun r => { r with items := r.items.set item.repairId item }
  return item

/-- `_act`: the authorization check, the lookup and the audit entry of every action. -/
def act (env : Supply) (repairId operator action : String) : RepairM RepairItem := do
  let r ← get
  if operator ∉ r.operators then
    throw (.repairError ("operator " ++ operator ++ " not authorized"))
  match r.items.get? repairId with
  | none => throw (.keyError repairId)
  | some item =>
    modify fun r => { r with audit := r.audit ++ [⟨repairId, action, operator, env.utcNow⟩] }
    return item

def retry (env : Supply) (repairId operator : String) : RepairM RepairItem := do
  let item ← act env repairId operator "retry"
  if !item.safeToRetry then
    throw (.repairError "side-effect not blind-retryable; use reconcile/resolve")
  let updated := { item with status := .resolved }
  modify fun r => { r with items := r.items.set repairId updated }
  return updated

def abandon (env : Supply) (repairId operator : String) : RepairM RepairItem := do
  let item ← act env repairId operator "abandon"
  let updated := { item with status := .abandoned }
  modify fun r => { r with items := r.items.set repairId updated }
  return updated

def brokenWork (env : Supply) (workId : String) (safeToRetry : Bool) : RepairItem :=
  { repairId := "repair:" ++ workId, subjectRef := "work:" ++ workId, reason := "failed or stuck",
    safeToRetry, provenanceRefs := ["work:" ++ workId], createdAt := env.utcNow }

/-- The register part of `retry_broken_work`, which has no await inside. -/
def retryBroken (env : Supply) (workId operator : String) : RepairM Unit := do
  let r ← get
  if !r.items.contains ("repair:" ++ workId) then
    let _ ← recordRepairRequired (brokenWork (env.sub 0) workId true)
  authorize operator
  let _ ← retry (env.sub 1) ("repair:" ++ workId) operator

/-- The register part of `clean_up_broken_work`. -/
def abandonBroken (env : Supply) (workId operator : String) : RepairM Unit := do
  let r ← get
  if !r.items.contains ("repair:" ++ workId) then
    let _ ← recordRepairRequired (brokenWork (env.sub 0) workId false)
  authorize operator
  let _ ← abandon (env.sub 1) ("repair:" ++ workId) operator

end RepairService

/-! ## Devices and leases -/

inductive DeviceStatus where
  | online | offline | revoked
  deriving DecidableEq, Repr

structure DeviceRecord where
  deviceId : String
  name : String
  ownerUserId : String
  tokenDigest : String
  capabilities : Finset String := ∅
  maxConcurrent : ℤ := 1
  status : DeviceStatus := .offline
  registeredAt : Datetime
  lastHeartbeatAt : Option Datetime := none
  revokedAt : Option Datetime := none
  revision : ℤ := 1

inductive LeaseStatus where
  | active | completed | expired | released
  deriving DecidableEq, Repr

def LeaseStatus.value : LeaseStatus → String
  | .active => "ACTIVE"
  | .completed => "COMPLETED"
  | .expired => "EXPIRED"
  | .released => "RELEASED"

structure DeviceLeaseRecord where
  leaseId : String
  workId : String
  deviceId : String
  status : LeaseStatus := .active
  leasedAt : Datetime
  expiresAt : Datetime
  completedAt : Option Datetime := none
  ambiguousSideEffect : Bool := false
  revision : ℤ := 1

structure PendingRegistration where
  code : String
  ownerUserId : String
  expiresAt : Datetime
  used : Bool := false

/-- The tables of `DeviceAgentService`. -/
structure DeviceTables where
  devices : InsertionDict String DeviceRecord
  leases : InsertionDict String DeviceLeaseRecord
  leaseByWork : InsertionDict String String
  pendingCodes : InsertionDict String PendingRegistration

namespace DeviceTables

def init : DeviceTables := ⟨.empty, .empty, .empty, .empty⟩

def verifyToken (hashDeviceToken : String → String) (device : DeviceRecord) (token : String) : Except Exn Unit :=
  if device.status = .revoked then
    .error (.deviceRevokedError ("device " ++ device.deviceId ++ " token has been revoked"))
  else if hashDeviceToken token ≠ device.tokenDigest then
    .error (.deviceTokenInvalidError "invalid device token")
  else .ok ()

def authenticate (hashDeviceToken : String → String) (deviceId token : String) : EStateM Exn DeviceTables DeviceRecord := do
  let t ← get
  match t.devices.get? deviceId with
  | none => throw (.deviceTokenInvalidError "unknown device")
  | some device =>
    MonadExcept.ofExcept (verifyToken hashDeviceToken device token)
    return device

/-- The locked part of `complete_work`: check the lease and mark it COMPLETED; the Work it leases. -/
def completeLease (hashDeviceToken : String → String) (env : Supply) (deviceId token leaseId : String) :
    EStateM Exn DeviceTables String := do
  let _ ← authenticate hashDeviceToken deviceId token
  let t ← get
  match t.leases.get? leaseId with
  | none => throw (.leaseConflictError "lease not found for this device")
  | some lease =>
    if lease.deviceId ≠ deviceId then
      throw (.leaseConflictError "lease not found for this device")
    if lease.status ≠ .active then
      throw (.leaseConflictError ("lease already " ++ lease.status.value))
    let completed : DeviceLeaseRecord :=
      { leaseId := lease.leaseId, workId := lease.workId, deviceId := lease.deviceId, status := .completed,
        leasedAt := lease.leasedAt, expiresAt := lease.expiresAt, completedAt := some env.utcNow,
        revision := lease.revision + 1 }
    modify fun t => { t with leases := t.leases.set leaseId completed }
    modify fun t => { t with leaseByWork := t.leaseByWork.erase lease.workId }
    return lease.workId

end DeviceTables

/-! ## Requests -/

inductive ServiceAction where
  | store (op : StoreOp) (env : Supply)
  /-- `self._adapters.get(worker_id)`. -/
  | adapter (workerId : String)
  | execute (workerId : String) (request : WorkerRequest)
  | storeArtifact (content mediaType ownerId : String)
  | jsonDumps (payload : PyDict)
  /-- The built-in `str` of a payload value. -/
  | str (value : PyValue)
  /-- The budget check of `replan`; the number of replans used so far. -/
  | takeReplan (workId : WorkId) (maxReplans : ℤ)
  | retryBroken (env : Supply) (workId operator : String)
  | abandonBroken (env : Supply) (workId operator : String)
  | completeLease (env : Supply) (deviceId token leaseId : String)

@[reducible] def ServiceAction.Answer : ServiceAction → Type
  | .store op _ => Except Exn op.Result
  | .adapter _ => Option WorkerAdapter
  | .execute .. => WorkerReply
  /- the content hash of the stored artifact -/
  | .storeArtifact .. => Except Exn String
  | .jsonDumps _ => Except Exn String
  | .str _ => String
  | .takeReplan .. => Except Exn ℤ
  | .retryBroken .. => Except Exn Unit
  | .abandonBroken .. => Except Exn Unit
  | .completeLease .. => Except Exn String

abbrev ServiceTask (α : Type) := ExceptT Exn (Prog ServiceAction ServiceAction.Answer) α

/-- What the components outside the program do, with their state `π`. -/
structure Externals (π : Type) where
  adapter : String → π → Option WorkerAdapter × π
  execute : String → WorkerRequest → π → WorkerReply × π
  storeArtifact : String → String → String → π → Except Exn String × π
  jsonDumps : PyDict → Except Exn String
  str : PyValue → String
  hashDeviceToken : String → String

structure ServiceWorld (π : Type) where
  store : InMemoryStore
  replans : InsertionDict WorkId ℤ
  repair : RepairService
  devices : DeviceTables
  outside : π

namespace ServiceWorld

variable {π : Type}

/-- The first lines of `replan`: the budget is checked before the counter is written. -/
def takeReplan (w : ServiceWorld π) (workId : WorkId) (maxReplans : ℤ) : Except Exn ℤ × ServiceWorld π :=
  let used := (w.replans.get? workId).getD 0
  if used + 1 > maxReplans then
    (.error (.replanBudgetExceededError ("replan budget exhausted for " ++ workId.val)), w)
  else (.ok used, { w with replans := w.replans.set workId (used + 1) })

def handler (ext : Externals π) : Prog.Handler ServiceAction ServiceAction.Answer (ServiceWorld π)
  | .store op env, w => (((op.exec env).run w.store).outcome, { w with store := ((op.exec env).run w.store).state })
  | .adapter workerId, w =>
    ((ext.adapter workerId w.outside).1, { w with outside := (ext.adapter workerId w.outside).2 })
  | .execute workerId request, w =>
    ((ext.execute workerId request w.outside).1, { w with outside := (ext.execute workerId request w.outside).2 })
  | .storeArtifact content mediaType ownerId, w =>
    ((ext.storeArtifact content mediaType ownerId w.outside).1,
      { w with outside := (ext.storeArtifact content mediaType ownerId w.outside).2 })
  | .jsonDumps payload, w => (ext.jsonDumps payload, w)
  | .str value, w => (ext.str value, w)
  | .takeReplan workId maxReplans, w => w.takeReplan workId maxReplans
  | .retryBroken env workId operator, w =>
    (((RepairService.retryBroken env workId operator).run w.repair).outcome,
      { w with repair := ((RepairService.retryBroken env workId operator).run w.repair).state })
  | .abandonBroken env workId operator, w =>
    (((RepairService.abandonBroken env workId operator).run w.repair).outcome,
      { w with repair := ((RepairService.abandonBroken env workId operator).run w.repair).state })
  | .completeLease env deviceId token leaseId, w =>
    (((DeviceTables.completeLease ext.hashDeviceToken env deviceId token leaseId).run w.devices).outcome,
      { w with devices :=
          ((DeviceTables.completeLease ext.hashDeviceToken env deviceId token leaseId).run w.devices).state })

end ServiceWorld

def request {α : Type} (a : ServiceAction) (answer : a.Answer → Except Exn α) : ServiceTask α :=
  ExceptT.mk (.act a fun r => .done (answer r))

def callStore (op : StoreOp) (env : Supply) : ServiceTask op.Result := request (.store op env) id

/-- An actor whose events pass the check of `SemanticEvent`. -/
structure Actor where
  name : String
  nonempty : PyText.isBlank name = false

inductive EventType where
  | runCreated | runRunning | runSucceeded | runFailed | runWaitingOnQuestion | runSupersededByAnswer
  | runClosedAfterAnswer | workSucceeded | workFailed | workWaitingOnQuestion | workResumedAfterAnswer
  | goalCancelRequested | workCancelRequested | workRetried | workCleanedUp

def EventType.value : EventType → String
  | .runCreated => "run.created"
  | .runRunning => "run.running"
  | .runSucceeded => "run.succeeded"
  | .runFailed => "run.failed"
  | .runWaitingOnQuestion => "run.waiting_on_question"
  | .runSupersededByAnswer => "run.superseded_by_answer"
  | .runClosedAfterAnswer => "run.closed_after_answer"
  | .workSucceeded => "work.succeeded"
  | .workFailed => "work.failed"
  | .workWaitingOnQuestion => "work.waiting_on_question"
  | .workResumedAfterAnswer => "work.resumed_after_answer"
  | .goalCancelRequested => "goal.cancel_requested"
  | .workCancelRequested => "work.cancel_requested"
  | .workRetried => "work.retried"
  | .workCleanedUp => "work.cleaned_up"

theorem EventType.value_nonempty (t : EventType) : PyText.isBlank t.value = false := by cases t <;> decide

/-- `_evt(actor, type_, **kw)`. -/
def evt (env : Supply) (actor : Actor) (type : EventType) (goalId : Option GoalId := none)
    (workId : Option WorkId := none) (runId : Option RunId := none) (payload : PyDict := .empty) : SemanticEvent :=
  { eventId := newEventId env, actor := actor.name, type := type.value, occurredAt := env.utcNow, goalId, workId,
    runId, payload, actor_nonempty := actor.nonempty, type_nonempty := type.value_nonempty }

def newRunRecord (env : Supply) (workId : WorkId) (attemptNumber : ℤ := 1) : RunRecord :=
  { runId := newRunId env, workId, attemptNumber, createdAt := env.utcNow, updatedAt := env.utcNow }

end AllTomorrow
