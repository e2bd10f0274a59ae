import AllTomorrow.ErrorNormalization
import AllTomorrow.ResumptionPrograms

/-!
# Delivery records and their reconciliation

`DeliveryRecord` and `DeliveryReconciler` of `delivery.py`. A call of `reconcile` asks the
durable port or a handler for one effect at most; what they answer is up to them. The
successor of a record is rebuilt from the record in every branch, with a new status, the
error, the instant of delivery and the number of attempts.
-/

namespace AllTomorrow

structure DeliveryId where
  val : String
  deriving DecidableEq, Repr

inductive DeliveryKind where
  | runStart | questionSignal | artifactAttach | outboundMessage | sourceMutation | triggerFire
  deriving DecidableEq, Repr

def DeliveryKind.value : DeliveryKind → String
  | .runStart => "RUN_START"
  | .questionSignal => "QUESTION_SIGNAL"
  | .artifactAttach => "ARTIFACT_ATTACH"
  | .outboundMessage => "OUTBOUND_MESSAGE"
  | .sourceMutation => "SOURCE_MUTATION"
  | .triggerFire => "TRIGGER_FIRE"

inductive DeliveryStatus where
  | pending | dispatching | delivered | ambiguous | failed | repairRequired | cancelled
  deriving DecidableEq, Repr

def DeliveryStatus.value : DeliveryStatus → String
  | .pending => "PENDING"
  | .dispatching => "DISPATCHING"
  | .delivered => "DELIVERED"
  | .ambiguous => "AMBIGUOUS"
  | .failed => "FAILED"
  | .repairRequired => "REPAIR_REQUIRED"
  | .cancelled => "CANCELLED"

def terminalDeliveryStatuses : List DeliveryStatus := [.delivered, .repairRequired, .cancelled]

/-! ## Retention -/

inductive RetentionClass where
  | shortLived | standard | extended | permanent
  deriving DecidableEq, Repr

/-- The upper case of a character, where it is made of the letters A to Z. -/
def upperAscii (c : Char) : List Char :=
  if c = 'ı' then ['I']
  else if c = 'ſ' then ['S']
  else if c = 'ﬅ' ∨ c = 'ﬆ' then ['S', 'T']
  else [c.toUpper]

/-- `RetentionClass(r_class)`, with STANDARD for every other text. -/
def retentionOf (retentionClass : String) : RetentionClass :=
  let name := String.ofList (retentionClass.toList.flatMap upperAscii)
  if name = "SHORT_LIVED" then .shortLived
  else if name = "EXTENDED" then .extended
  else if name = "PERMANENT" then .permanent
  else .standard

/-- `RETENTION_TTL_MAP`. -/
def retentionTtl : RetentionClass → Option ℤ
  | .shortLived => some (3600 * 10 ^ 6)
  | .standard => some (24 * 3600 * 10 ^ 6)
  | .extended => some (7 * 24 * 3600 * 10 ^ 6)
  | .permanent => none

def calculateValidUntil (retention : RetentionClass) (startTime : Datetime) : Option Datetime :=
  (retentionTtl retention).map fun delta => startTime + delta

/-! ## Records -/

structure DeliveryRecord where
  deliveryId : DeliveryId
  kind : DeliveryKind
  subjectRefs : InsertionDict String String
  destinationAdapter : String
  idempotencyKey : String
  payload : PyDict
  status : DeliveryStatus := .pending
  attempts : ℤ := 0
  maxAttempts : ℤ := 3
  revision : ℤ := 1
  idempotencyScope : String := "global"
  retentionClass : String := "standard"
  validUntil : Option Datetime
  lastError : Option CanonicalError := none
  nextAttemptAt : Option Datetime := none
  deliveredAt : Option Datetime := none
  createdAt : Datetime
  updatedAt : Datetime
  idempotencyKey_nonempty : PyText.isBlank idempotencyKey = false
  destinationAdapter_nonempty : PyText.isBlank destinationAdapter = false
  maxAttempts_pos : 1 ≤ maxAttempts
  attempts_nonneg : 0 ≤ attempts
  validUntil_set : validUntil = none → retentionTtl (retentionOf retentionClass) = none

namespace DeliveryRecord

/-- `validUntil` after `__post_init__`. -/
def initialValidUntil (retentionClass : String) (createdAt : Datetime) : Option Datetime → Option Datetime
  | some validUntil => some validUntil
  | none => calculateValidUntil (retentionOf retentionClass) createdAt

theorem initialValidUntil_set {retentionClass : String} {createdAt : Datetime} {given : Option Datetime}
    (h : initialValidUntil retentionClass createdAt given = none) : retentionTtl (retentionOf retentionClass) = none := by
  cases given with
  | some validUntil => cases h
  | none => exact Option.map_eq_none_iff.mp h

theorem maxAttempts_of_not_lt {maxAttempts : ℤ} (h : ¬maxAttempts < 1) : 1 ≤ maxAttempts := not_lt.mp h

theorem noAttempts_nonneg : (0 : ℤ) ≤ 0 := le_refl 0

def new (env : Supply) (deliveryId : DeliveryId) (kind : DeliveryKind) (subjectRefs : InsertionDict String String)
    (destinationAdapter idempotencyKey : String) (payload : PyDict) (maxAttempts : ℤ) (retentionClass : String)
    (validUntil : Option Datetime) : Except Exn DeliveryRecord :=
  if hk : PyText.isBlank idempotencyKey = true then
    .error (.valueError "DeliveryRecord.idempotency_key must be non-empty")
  else if ha : PyText.isBlank destinationAdapter = true then
    .error (.valueError "DeliveryRecord.destination_adapter must be non-empty")
  else if hm : maxAttempts < 1 then
    .error (.valueError "DeliveryRecord.max_attempts must be >= 1")
  else
    .ok { deliveryId, kind, subjectRefs, destinationAdapter, idempotencyKey, payload, maxAttempts, retentionClass
          validUntil := initialValidUntil retentionClass env.utcNow validUntil
          createdAt := env.utcNow, updatedAt := env.utcNow
          idempotencyKey_nonempty := PyText.isBlank_eq_false hk
          destinationAdapter_nonempty := PyText.isBlank_eq_false ha
          maxAttempts_pos := maxAttempts_of_not_lt hm
          attempts_nonneg := noAttempts_nonneg
          validUntil_set := initialValidUntil_set }

def isTerminal (record : DeliveryRecord) : Bool := record.status ∈ terminalDeliveryStatuses

def isExpired (record : DeliveryRecord) (asOf : Datetime) : Bool :=
  match record.validUntil with
  | none => false
  | some validUntil => validUntil < asOf

/-- The record after one call: `made` is the number of attempts that the call counts. -/
def next (record : DeliveryRecord) (made : ℕ) (status : DeliveryStatus) (lastError : Option CanonicalError)
    (deliveredAt : Option Datetime) (now : Datetime) : DeliveryRecord :=
  { record with
    status, lastError, deliveredAt
    attempts := record.attempts + made
    revision := record.revision + 1
    nextAttemptAt := none
    updatedAt := now
    attempts_nonneg := Int.add_nonneg record.attempts_nonneg (Int.natCast_nonneg made) }

end DeliveryRecord

inductive DurableExecutionState where
  | pending | running | waiting | completed | failed | cancelled
  deriving DecidableEq, Repr

inductive SignalOutcome where
  | delivered | duplicateIgnored | notFound | alreadyTerminal
  deriving DecidableEq, Repr

/-- The fields of `SignalResult` that the reconciler reads. -/
structure SignalResult where
  outcome : SignalOutcome
  error : Option CanonicalError := none

/-- The fields of `ExecutionStatusResult` that the reconciler reads. -/
structure ExecutionStatusResult where
  state : DurableExecutionState
  error : Option CanonicalError := none

inductive DeliveryAction where
  | start (runId : RunId) (workflowName payload : PyValue) (idempotencyKey : String)
  | signal (ref : ExecutionRef) (signalName : PyValue) (signalId : String) (payload : PyValue)
  | handleDelivery (record : DeliveryRecord)
  | findByRunId (runId : RunId)
  | getStatus (ref : ExecutionRef)

@[reducible] def DeliveryAction.Value : DeliveryAction → Type
  | .start .. => ExecutionRef
  | .signal .. => SignalResult
  /- whether the first value of the tuple is true, and the error -/
  | .handleDelivery _ => Bool × Option CanonicalError
  | .findByRunId _ => Option ExecutionRef
  | .getStatus _ => ExecutionStatusResult

/-- What is raised here is an `Exception`; any other exception leaves the call at the request. -/
abbrev DeliveryAction.Answer (a : DeliveryAction) : Type := Except Raised a.Value

abbrev DeliveryProg (α : Type) := Prog DeliveryAction DeliveryAction.Answer α

abbrev DeliveryTask (α : Type) := ExceptT Raised (Prog DeliveryAction DeliveryAction.Answer) α

def DeliveryAction.await (a : DeliveryAction) : DeliveryTask a.Value := ExceptT.mk (.act a .done)

/-! ## The reconciler -/

structure DeliveryReconciler where
  /-- the kinds of `self._handlers` -/
  handles : DeliveryKind → Bool
  /-- the built-in `str` of an instant -/
  str : Datetime → String

namespace DeliveryReconciler

def ttlExpired (reconciler : DeliveryReconciler) (record : DeliveryRecord) : CanonicalError where
  category := .timeout
  code := "idempotency_key_expired"
  retryability := false
  ambiguity := false
  safeMessage := "Delivery TTL expired at " ++ (record.validUntil.map reconciler.str).getD "None"

def unsupportedKind (record : DeliveryRecord) : CanonicalError where
  category := .unsupported
  code := "unsupported_delivery_kind"
  retryability := false
  ambiguity := false
  safeMessage := "DeliveryKind '" ++ record.kind.value ++ "' has no registered handler and cannot be delivered"

def cannotProbe (record : DeliveryRecord) : CanonicalError where
  category := .ambiguousEffect
  code := "ambiguous_reconciliation_unsupported"
  retryability := false
  ambiguity := true
  safeMessage := "Cannot safely probe ambiguous effect for " ++ record.kind.value ++ ". Operator repair required."

/-- The Run that is started; without a `run_id` it is named by the key. -/
def dispatchedRun (record : DeliveryRecord) : RunId :=
  ⟨(record.subjectRefs.get? "run_id").getD record.idempotencyKey⟩

/-- The Run that is asked for; without a `run_id` it is the empty name. -/
def probedRun (record : DeliveryRecord) : RunId := ⟨(record.subjectRefs.get? "run_id").getD ""⟩

/-- `_dispatch_run_start`. -/
def dispatchRunStart (record : DeliveryRecord) (now : Datetime) : DeliveryTask DeliveryRecord := do
  let workflowName := (record.payload.get? "workflow_name").getD (.str "default_workflow")
  let wfPayload := (record.payload.get? "workflow_payload").getD (.dict [])
  let _ ← (DeliveryAction.start (dispatchedRun record) workflowName wfPayload record.idempotencyKey).await
  return record.next 1 .delivered none (some now) now

/-- `ExecutionRef(backend=..., execution_id=...)`, whose checks raise a ValueError. -/
def signalRef (env : Supply) (record : DeliveryRecord) : Except Raised ExecutionRef :=
  match ExecutionRef.new record.destinationAdapter ((record.subjectRefs.get? "execution_id").getD "") 1 env.utcNow with
  | .ok ref => .ok ref
  | .error e => .error (.valueError e.text)

/-- `_dispatch_question_signal`. -/
def dispatchQuestionSignal (env : Supply) (record : DeliveryRecord) (now : Datetime) : DeliveryTask DeliveryRecord := do
  let signalName := (record.payload.get? "signal_name").getD (.str "user_answer")
  let signalId := (record.subjectRefs.get? "signal_id").getD record.idempotencyKey
  let ref ← ExceptT.mk (.done (signalRef env record))
  let sigRes ← (DeliveryAction.signal ref signalName signalId
    ((record.payload.get? "signal_payload").getD (.dict []))).await
  if sigRes.outcome = .delivered ∨ sigRes.outcome = .duplicateIgnored then
    return record.next 1 .delivered none (some now) now
  else return record.next 1 .failed sigRes.error none now

/-- The body of the `try` in `reconcile`. -/
def dispatch (reconciler : DeliveryReconciler) (env : Supply) (record : DeliveryRecord) (now : Datetime) :
    DeliveryTask DeliveryRecord :=
  match record.kind with
  | .runStart => dispatchRunStart record now
  | .questionSignal => dispatchQuestionSignal env record now
  | kind =>
    if reconciler.handles kind then do
      let answer ← (DeliveryAction.handleDelivery record).await
      if answer.1 then return record.next 1 .delivered answer.2 (some now) now
      else return record.next 1 .failed answer.2 none now
    else return record.next 1 .failed (some (unsupportedKind record)) none now

def lastAttempt (record : DeliveryRecord) : Bool := record.attempts + 1 ≥ record.maxAttempts

/-- `except Exception` in `reconcile`. -/
def dispatchRaised (record : DeliveryRecord) (now : Datetime) (exc : Raised) : DeliveryRecord :=
  let err := normalizeException exc
  record.next 1
    (if lastAttempt record then .repairRequired else if err.ambiguity then .ambiguous else .failed) (some err) none now

def stillUnknown (record : DeliveryRecord) : DeliveryStatus :=
  if lastAttempt record then .repairRequired else .ambiguous

/-- The execution exists; a state that is neither live nor completed is taken for a failure. -/
def executionFound (record : DeliveryRecord) (now : Datetime) (result : ExecutionStatusResult) : DeliveryRecord :=
  if result.state = .running ∨ result.state = .waiting ∨ result.state = .completed then
    record.next 1 .delivered none (some now) now
  else record.next 1 .failed result.error none now

/-- The body of the `try` in `_reconcile_ambiguous`. -/
def probe (record : DeliveryRecord) (now : Datetime) : DeliveryTask DeliveryRecord := do
  match ← (DeliveryAction.findByRunId (probedRun record)).await with
  | none => dispatchRunStart record now
  | some ref =>
    let result ← (DeliveryAction.getStatus ref).await
    match result.error with
    | some error =>
      if error.category = .notFound then dispatchRunStart record now
      else if error.category = .unavailable then return record.next 1 (stillUnknown record) (some error) none now
      else return executionFound record now result
    | none => return executionFound record now result

/-- `_reconcile_ambiguous`; it reads the clock again. -/
def reconcileAmbiguous (env : Supply) (record : DeliveryRecord) : DeliveryProg DeliveryRecord :=
  let now := env.utcNow
  if record.kind = .runStart then do
    match ← (probe record now).run with
    | .ok result => return result
    | .error exc => return record.next 1 (stillUnknown record) (some (normalizeException exc)) none now
  else return record.next 1 .repairRequired (some (cannotProbe record)) none now

def reconcile (reconciler : DeliveryReconciler) (env : Supply) (record : DeliveryRecord) : DeliveryProg DeliveryRecord :=
  if record.isTerminal then return record
  else
    let now := (env.sub 0).utcNow
    if record.isExpired now then return record.next 0 .failed (some (reconciler.ttlExpired record)) none now
    else if record.status = .ambiguous then reconcileAmbiguous (env.sub 1) record
    else if record.attempts + 1 > record.maxAttempts then
      return record.next 0 .repairRequired record.lastError none now
    else do
      match ← (reconciler.dispatch (env.sub 1) record now).run with
      | .ok result => return result
      | .error exc => return dispatchRaised record now exc

end DeliveryReconciler

end AllTomorrow
