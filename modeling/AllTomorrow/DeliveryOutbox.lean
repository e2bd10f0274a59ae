import AllTomorrow.DeliveryStore
import AllTomorrow.DomainTransitions
import AllTomorrow.PostgresTables

/-!
# The outbox of deliveries

`atomic_outbox_transaction` and `get_delivery` of `storage/postgres.py`: a delivery is written as a
row together with what a domain action does, and read back.
-/

namespace AllTomorrow

/-! ## Values of columns -/

def ErrorCategory.ofValue : String → Option ErrorCategory
  | "NOT_FOUND" => some .notFound
  | "UNAVAILABLE" => some .unavailable
  | "TIMEOUT" => some .timeout
  | "RATE_LIMITED" => some .rateLimited
  | "INVALID_INPUT" => some .invalidInput
  | "INVALID_STATE" => some .invalidState
  | "CONFLICT" => some .conflict
  | "PERMISSION_DENIED" => some .permissionDenied
  | "AUTHENTICATION_FAILED" => some .authenticationFailed
  | "AMBIGUOUS_EFFECT" => some .ambiguousEffect
  | "RETRY_EXHAUSTED" => some .retryExhausted
  | "INVARIANT_VIOLATION" => some .invariantViolation
  | "VERSION_INCOMPATIBLE" => some .versionIncompatible
  | "RESOURCE_EXHAUSTED" => some .resourceExhausted
  | "UNSUPPORTED" => some .unsupported
  | _ => none

def DeliveryKind.ofValue : String → Option DeliveryKind
  | "RUN_START" => some .runStart
  | "QUESTION_SIGNAL" => some .questionSignal
  | "ARTIFACT_ATTACH" => some .artifactAttach
  | "OUTBOUND_MESSAGE" => some .outboundMessage
  | "SOURCE_MUTATION" => some .sourceMutation
  | "TRIGGER_FIRE" => some .triggerFire
  | _ => none

theorem DeliveryKind.ofValue_value (kind : DeliveryKind) : DeliveryKind.ofValue kind.value = some kind := by
  cases kind <;> rfl

def DeliveryStatus.ofValue : String → Option DeliveryStatus
  | "PENDING" => some .pending
  | "DISPATCHING" => some .dispatching
  | "DELIVERED" => some .delivered
  | "AMBIGUOUS" => some .ambiguous
  | "FAILED" => some .failed
  | "REPAIR_REQUIRED" => some .repairRequired
  | "CANCELLED" => some .cancelled
  | _ => none

theorem DeliveryStatus.ofValue_value (status : DeliveryStatus) : DeliveryStatus.ofValue status.value = some status := by
  cases status <;> rfl

/-! ## Errors as JSON -/

inductive PyObject where
  | none
  | bool (b : Bool)
  | int (n : ℤ)
  | str (s : String)
  | list (xs : List PyObject)
  | dict (entries : List (String × PyObject))
  | datetime (isoformat : String)
  /-- an object with an attribute `value` -/
  | enumeration (value : PyObject)
  | collection (xs : List PyObject)
  | instance (className : String)

mutual

/-- `_jsonable`, with `_json_default` for what is not JSON. -/
def jsonable : PyObject → Except Exn PyValue
  | .none => .ok .none
  | .bool b => .ok (.bool b)
  | .int n => .ok (.int n)
  | .str s => .ok (.str s)
  | .list xs => (jsonableList xs).map .list
  | .dict entries => (jsonableEntries entries).map .dict
  | .datetime isoformat => .ok (.str isoformat)
  | .enumeration value => jsonable value
  | .collection xs => (jsonableList xs).map .list
  | .instance className => .error (.foreign "TypeError" ("cannot serialize " ++ className))

def jsonableList : List PyObject → Except Exn (List PyValue)
  | [] => .ok []
  | x :: xs => do
    let x' ← jsonable x
    let xs' ← jsonableList xs
    return x' :: xs'

def jsonableEntries : List (String × PyObject) → Except Exn (List (String × PyValue))
  | [] => .ok []
  | (k, x) :: entries => do
    let x' ← jsonable x
    let entries' ← jsonableEntries entries
    return (k, x') :: entries'

end

/-- The encoder finds no attribute `value` in an error, which is no collection either. -/
def CanonicalError.object (_ : CanonicalError) : PyObject := .instance "CanonicalError"

/-- `Jsonb(_jsonable(intent.last_error)) if intent.last_error else None` -/
def errorColumn : Option CanonicalError → Except Exn (Option PyValue)
  | none => .ok none
  | some error => (jsonable error.object).map some

namespace ErrorJson

variable (entries : List (String × PyValue))

/-- `data.get(name)`, without what is false. -/
def field (name : String) : Option PyValue := (entries.lookup name).filter PyValue.truthy

/-- A text, or the default if there is none. Values of other types are not read. -/
def text (name default : String) : Except Exn String :=
  match field entries name with
  | none => .ok default
  | some (.str s) => .ok s
  | some _ => .error (.foreign "TypeError" name)

def optionalText (name : String) : Except Exn (Option String) :=
  match entries.lookup name with
  | none | some .none => .ok none
  | some (.str s) => .ok (some s)
  | some _ => .error (.foreign "TypeError" name)

def flag (name : String) : Bool := (field entries name).isSome

def textItem : PyValue → Option String
  | .str s => some s
  | _ => none

def texts (name : String) : Except Exn (List String) :=
  match field entries name with
  | none => .ok []
  | some (.list xs) =>
    match xs.mapM textItem with
    | some ss => .ok ss
    | none => .error (.foreign "TypeError" name)
  | some _ => .error (.foreign "TypeError" name)

def details : Except Exn PyDict :=
  match field entries "details" with
  | none => .ok .empty
  | some (.dict es) => if h : (es.map Prod.fst).Nodup then .ok ⟨es, h⟩ else .error (.foreign "TypeError" "details")
  | some _ => .error (.foreign "TypeError" "details")

def category : ErrorCategory :=
  match entries.lookup "category" with
  | some (.str s) => (ErrorCategory.ofValue s).getD .invariantViolation
  | _ => .invariantViolation

end ErrorJson

/-- `canonical_error_from_dict` -/
def canonicalErrorFromDict : Option PyValue → Except Exn (Option CanonicalError)
  | some (.dict []) => .ok none
  | some (.dict entries) => do
    let code ← ErrorJson.text entries "code" "unknown_error"
    let safeMessage ← ErrorJson.text entries "safe_message" ""
    let externalRef ← ErrorJson.optionalText entries "external_ref"
    let evidenceRefs ← ErrorJson.texts entries "evidence_refs"
    let causedBy ← ErrorJson.optionalText entries "caused_by"
    let details ← ErrorJson.details entries
    if h : PyText.isBlank code = true then .error (.valueError "code must be a non-empty string")
    else
      .ok (some
        { category := ErrorJson.category entries
          code, safeMessage, externalRef, evidenceRefs, causedBy, details
          retryability := ErrorJson.flag entries "retryability"
          ambiguity := ErrorJson.flag entries "ambiguity"
          authoritySecurityRelevance := ErrorJson.flag entries "authority_security_relevance"
          code_nonempty := PyText.isBlank_eq_false h })
  | _ => .ok none

/-! ## Rows -/

/-- A row of `delivery_records`. The columns of JSON and of timestamps give back what was written. -/
structure OutboxRow where
  deliveryId : String
  kind : String
  subjectRefs : InsertionDict String String
  destinationAdapter : String
  idempotencyKey : String
  idempotencyScope : String
  retentionClass : String
  validUntil : Option Datetime
  payload : PyDict
  status : String
  attempts : ℤ
  maxAttempts : ℤ
  revision : ℤ
  lastError : Option PyValue
  nextAttemptAt : Option Datetime
  deliveredAt : Option Datetime
  createdAt : Datetime
  updatedAt : Datetime

def DeliveryRecord.row (intent : DeliveryRecord) (lastError : Option PyValue) : OutboxRow :=
  { deliveryId := intent.deliveryId.val
    kind := intent.kind.value
    subjectRefs := intent.subjectRefs
    destinationAdapter := intent.destinationAdapter
    idempotencyKey := intent.idempotencyKey
    idempotencyScope := intent.idempotencyScope
    retentionClass := intent.retentionClass
    validUntil := intent.validUntil
    payload := intent.payload
    status := intent.status.value
    attempts := intent.attempts
    maxAttempts := intent.maxAttempts
    revision := intent.revision
    lastError := lastError
    nextAttemptAt := intent.nextAttemptAt
    deliveredAt := intent.deliveredAt
    createdAt := intent.createdAt
    updatedAt := intent.updatedAt }

theorem attempts_of_not_neg {attempts : ℤ} (h : ¬ attempts < 0) : 0 ≤ attempts := not_lt.mp h

/-- `DeliveryRecord(...)` of a row. -/
def OutboxRow.read (row : OutboxRow) : Except Exn DeliveryRecord := do
  let some kind := DeliveryKind.ofValue row.kind | .error (.valueError ("'" ++ row.kind ++ "' is not a valid DeliveryKind"))
  let some status := DeliveryStatus.ofValue row.status |
    .error (.valueError ("'" ++ row.status ++ "' is not a valid DeliveryStatus"))
  let lastError ← canonicalErrorFromDict row.lastError
  if hkey : PyText.isBlank row.idempotencyKey = true then
    .error (.valueError "DeliveryRecord.idempotency_key must be non-empty")
  else if hadapter : PyText.isBlank row.destinationAdapter = true then
    .error (.valueError "DeliveryRecord.destination_adapter must be non-empty")
  else if hmax : row.maxAttempts < 1 then .error (.valueError "DeliveryRecord.max_attempts must be >= 1")
  else if hattempts : row.attempts < 0 then .error (.valueError "DeliveryRecord.attempts must be >= 0")
  else
    .ok
      { deliveryId := ⟨row.deliveryId⟩
        kind, status, lastError
        subjectRefs := row.subjectRefs
        destinationAdapter := row.destinationAdapter
        idempotencyKey := row.idempotencyKey
        payload := row.payload
        attempts := row.attempts
        maxAttempts := row.maxAttempts
        revision := row.revision
        idempotencyScope := row.idempotencyScope
        retentionClass := row.retentionClass
        validUntil := DeliveryRecord.initialValidUntil row.retentionClass row.createdAt row.validUntil
        nextAttemptAt := row.nextAttemptAt
        deliveredAt := row.deliveredAt
        createdAt := row.createdAt
        updatedAt := row.updatedAt
        idempotencyKey_nonempty := PyText.isBlank_eq_false hkey
        destinationAdapter_nonempty := PyText.isBlank_eq_false hadapter
        maxAttempts_pos := DeliveryRecord.maxAttempts_of_not_lt hmax
        attempts_nonneg := attempts_of_not_neg hattempts
        validUntil_set := DeliveryRecord.initialValidUntil_set }

abbrev OutboxTable := KeyedTable OutboxRow.deliveryId

structure OutboxDatabase (δ : Type) where
  deliveries : OutboxTable
  others : δ

def OutboxTable.byKey (t : OutboxTable) (key : String) : Option OutboxRow :=
  t.values.find? fun row => row.idempotencyKey = key

def OutboxTable.insert (t : OutboxTable) (row : OutboxRow) : Except Exn OutboxTable := do
  sendTexts [row.deliveryId, row.kind, row.destinationAdapter, row.idempotencyKey, row.idempotencyScope, row.retentionClass,
    row.status]
  storeJson (row.subjectRefs.entries.all fun e => Column.text e.1 && Column.text e.2)
  storeJson (Column.jsonDict row.payload)
  storeJson (row.lastError.all Column.json)
  storeInteger row.attempts
  storeInteger row.maxAttempts
  storeInteger row.revision
  checkConstraint "delivery_records" "delivery_records_status_check" (DeliveryStatus.ofValue row.status).isSome
  checkConstraint "delivery_records" "delivery_records_attempts_check" (0 ≤ row.attempts)
  checkConstraint "delivery_records" "delivery_records_max_attempts_check" (1 ≤ row.maxAttempts)
  checkConstraint "delivery_records" "delivery_records_revision_check" (1 ≤ row.revision)
  uniqueConstraint "delivery_records_pkey" (t.contains row.deliveryId)
  uniqueConstraint "delivery_records_idempotency_key_key" (t.byKey row.idempotencyKey).isSome
  return t.put row

section

variable {α δ : Type}

/-- The committed outcome. One that raises leaves the database as it was. -/
def atomicOutboxTransaction (now : Datetime) (intent : DeliveryRecord)
    (domainAction : OutboxDatabase δ → Except Exn (α × OutboxDatabase δ)) (db : OutboxDatabase δ) :
    Except Exn ((Option α × DeliveryRecord) × OutboxDatabase δ) :=
  if intent.isExpired now then
    .error (idempotencyKeyExpiredError "Cannot commit outbox intent with expired key")
  else
    match db.deliveries.byKey intent.idempotencyKey with
    | some row =>
      if row.validUntil.any fun validUntil => validUntil < now then
        .error (idempotencyKeyExpiredError ("Idempotency key '" ++ intent.idempotencyKey ++ "' expired"))
      else if row.destinationAdapter ≠ intent.destinationAdapter ∨ !row.subjectRefs.sameItems intent.subjectRefs then
        .error (deliveryCASConflictError ("Idempotency key '" ++ intent.idempotencyKey ++
          "' already exists with different destination or subjects"))
      else do
        let record ← row.read
        return ((none, record), { db with deliveries := db.deliveries.put { row with updatedAt := now } })
    | none => do
      let (result, db) ← domainAction db
      let lastError ← errorColumn intent.lastError
      let deliveries ← db.deliveries.insert (intent.row lastError)
      let record ← (intent.row lastError).read
      return ((some result, record), { db with deliveries := deliveries })

def getDelivery (deliveryId : String) (db : OutboxDatabase δ) : Except Exn (Option DeliveryRecord) :=
  match db.deliveries.get? deliveryId with
  | none => .ok none
  | some row => row.read.map some

end

variable {u : Unit}

theorem sendTexts_eq_ok_iff {texts : List String} : sendTexts texts = .ok u ↔ texts.all Column.text = true := by
  unfold sendTexts
  split <;> simp_all

theorem storeJson_eq_ok_iff {fits : Bool} : storeJson fits = .ok u ↔ fits = true := by
  unfold storeJson
  split <;> simp_all

theorem storeInteger_eq_ok_iff {n : ℤ} : storeInteger n = .ok u ↔ -2 ^ 31 ≤ n ∧ n < 2 ^ 31 := by
  unfold storeInteger
  split <;> simp_all

theorem checkConstraint_eq_ok_iff {table name : String} {holds : Bool} :
    checkConstraint table name holds = .ok u ↔ holds = true := by
  unfold checkConstraint
  split <;> simp_all

/-- The columns take the record: no NUL characters, and numbers of 32 bits with a revision from one on. -/
structure Storable (intent : DeliveryRecord) : Prop where
  texts : [intent.deliveryId.val, intent.kind.value, intent.destinationAdapter, intent.idempotencyKey,
    intent.idempotencyScope, intent.retentionClass, intent.status.value].all Column.text = true
  subjectRefs : (intent.subjectRefs.entries.all fun e => Column.text e.1 && Column.text e.2) = true
  payload : Column.jsonDict intent.payload = true
  attempts : intent.attempts < 2 ^ 31
  maxAttempts : intent.maxAttempts < 2 ^ 31
  revision : 1 ≤ intent.revision ∧ intent.revision < 2 ^ 31

/-- Neither the key nor the identifier of the intent is in use. -/
structure NewDelivery (intent : DeliveryRecord) (deliveries : OutboxTable) : Prop where
  key : deliveries.byKey intent.idempotencyKey = none
  deliveryId : deliveries.get? intent.deliveryId.val = none

variable {intent : DeliveryRecord}

theorem insert_eq_ok_iff {t t' : OutboxTable} :
    t.insert (intent.row none) = .ok t' ↔ Storable intent ∧ NewDelivery intent t ∧ t' = t.put (intent.row none) := by
  have hattempts := intent.attempts_nonneg
  have hmax := intent.maxAttempts_pos
  unfold OutboxTable.insert
  simp only [except_bind_ok, sendTexts_eq_ok_iff, storeJson_eq_ok_iff, storeInteger_eq_ok_iff, checkConstraint_eq_ok_iff,
    uniqueConstraint_ok, DeliveryRecord.row, DeliveryStatus.ofValue_value, Option.isSome_some, Option.all_none, pure,
    Except.pure, Except.ok.injEq, exists_const, KeyedTable.contains_eq_false_iff, Option.isSome_eq_false_iff,
    Option.isNone_iff_eq_none, true_and]
  constructor
  · rintro ⟨htexts, hsubjects, hpayload, hint, hmaxint, hrevision, -, -, hone, hid, hkey, rfl⟩
    exact ⟨⟨htexts, hsubjects, hpayload, hint.2, hmaxint.2, of_decide_eq_true hone, hrevision.2⟩, ⟨hkey, hid⟩, rfl⟩
  · rintro ⟨hstorable, hnew, rfl⟩
    exact ⟨hstorable.texts, hstorable.subjectRefs, hstorable.payload, ⟨by omega, hstorable.attempts⟩,
      ⟨by omega, hstorable.maxAttempts⟩, ⟨by have := hstorable.revision.1; omega, hstorable.revision.2⟩, decide_eq_true hattempts,
      decide_eq_true hmax, decide_eq_true hstorable.revision.1, hnew.deliveryId, hnew.key, rfl⟩

theorem read_row (h : intent.lastError = none) : (intent.row none).read = .ok intent := by
  have huntil : DeliveryRecord.initialValidUntil intent.retentionClass intent.createdAt intent.validUntil = intent.validUntil := by
    cases hvalue : intent.validUntil with
    | some validUntil => rfl
    | none =>
      rw [DeliveryRecord.initialValidUntil, calculateValidUntil, intent.validUntil_set hvalue]
      rfl
  have hkey : ¬ PyText.isBlank intent.idempotencyKey = true := by
    rw [intent.idempotencyKey_nonempty]
    exact Bool.false_ne_true
  have hadapter : ¬ PyText.isBlank intent.destinationAdapter = true := by
    rw [intent.destinationAdapter_nonempty]
    exact Bool.false_ne_true
  unfold OutboxRow.read
  simp only [DeliveryRecord.row, DeliveryKind.ofValue_value, DeliveryStatus.ofValue_value, huntil, canonicalErrorFromDict,
    dif_neg hkey, dif_neg hadapter, dif_neg (not_lt.mpr intent.maxAttempts_pos), dif_neg (not_lt.mpr intent.attempts_nonneg)]
  rw [← h]
  rfl

/-! ## The whole record -/

section

variable {α δ : Type}

/-- The transaction commits, and the record is read back as it was. -/
def KeepsRecord (now : Datetime) (intent : DeliveryRecord) (domainAction : OutboxDatabase δ → Except Exn (α × OutboxDatabase δ))
    (db : OutboxDatabase δ) (result : α) : Prop :=
  ∃ db', atomicOutboxTransaction now intent domainAction db = .ok ((some result, intent), db') ∧
    getDelivery intent.deliveryId.val db' = .ok (some intent)

theorem errorColumn_eq_ok_iff {lastError : Option CanonicalError} {value : Option PyValue} :
    errorColumn lastError = .ok value ↔ lastError = none ∧ value = none := by
  cases lastError with
  | none =>
    constructor
    · intro h
      cases h
      exact ⟨rfl, rfl⟩
    · rintro ⟨-, rfl⟩
      rfl
  | some error =>
    constructor
    · intro h
      have herror : errorColumn (some error) = .error (.foreign "TypeError" "cannot serialize CanonicalError") := rfl
      rw [herror] at h
      cases h
    · rintro ⟨hnone, -⟩
      cases hnone

/-- A live record with a new key and id is kept exactly if it has no error, its columns fit and the action leaves the key
and the id new. -/
theorem keepsRecord_iff {now : Datetime} {intent : DeliveryRecord}
    {domainAction : OutboxDatabase δ → Except Exn (α × OutboxDatabase δ)} {db acted : OutboxDatabase δ} {result : α}
    (hlive : intent.isExpired now = false) (hnew : NewDelivery intent db.deliveries)
    (haction : domainAction db = .ok (result, acted)) :
    KeepsRecord now intent domainAction db result ↔
      intent.lastError = none ∧ Storable intent ∧ NewDelivery intent acted.deliveries := by
  unfold KeepsRecord atomicOutboxTransaction
  rw [if_neg (by rw [hlive]; exact Bool.false_ne_true), hnew.key]
  constructor
  · rintro ⟨db', hcommit, -⟩
    obtain ⟨⟨result', acted'⟩, hacted, hcommit⟩ := except_bind_ok.mp hcommit
    rw [haction] at hacted
    cases hacted
    obtain ⟨lastError, herror, hcommit⟩ := except_bind_ok.mp hcommit
    obtain ⟨hnone, rfl⟩ := errorColumn_eq_ok_iff.mp herror
    obtain ⟨deliveries, hinsert, -⟩ := except_bind_ok.mp hcommit
    obtain ⟨hstorable, hfresh, -⟩ := insert_eq_ok_iff.mp hinsert
    exact ⟨hnone, hstorable, hfresh⟩
  · rintro ⟨hnone, hstorable, hfresh⟩
    have hinsert := insert_eq_ok_iff.mpr ⟨hstorable, hfresh, rfl⟩
    have hread := read_row hnone
    refine ⟨{ acted with deliveries := acted.deliveries.put (intent.row none) }, ?_, ?_⟩
    · rw [haction, hnone]
      change (do
        let deliveries ← acted.deliveries.insert (intent.row none)
        let record ← (intent.row none).read
        return ((some result, record), { acted with deliveries := deliveries })) = _
      rw [hinsert, hread]
      rfl
    · have hget : (acted.deliveries.put (intent.row none)).get? intent.deliveryId.val = some (intent.row none) :=
        KeyedTable.get?_put_self acted.deliveries (intent.row none)
      unfold getDelivery
      dsimp only
      rw [hget]
      dsimp only
      rw [hread]
      rfl

end

def startIntent (lastError : Option CanonicalError) : DeliveryRecord :=
  { deliveryId := ⟨"dlv-1"⟩, kind := .runStart, subjectRefs := InsertionDict.empty.set "run_id" "run-1"
    destinationAdapter := "dbos", idempotencyKey := "start:run-1", payload := .empty, validUntil := some 100
    lastError := lastError, createdAt := 0, updatedAt := 0, idempotencyKey_nonempty := by decide
    destinationAdapter_nonempty := by decide, maxAttempts_pos := by decide, attempts_nonneg := by decide
    validUntil_set := nofun }

def noDeliveries : OutboxDatabase Unit := ⟨.empty, ()⟩

def noAction (db : OutboxDatabase Unit) : Except Exn (Unit × OutboxDatabase Unit) := .ok ((), db)

theorem newDelivery_empty (intent : DeliveryRecord) : NewDelivery intent KeyedTable.empty := ⟨rfl, rfl⟩

theorem storable_startIntent : Storable (startIntent none) :=
  ⟨by decide +kernel, by decide +kernel, by decide +kernel, by decide +kernel, by decide +kernel, by decide +kernel⟩

theorem keepsRecord_startIntent : KeepsRecord 50 (startIntent none) noAction noDeliveries () :=
  (keepsRecord_iff rfl (newDelivery_empty _) rfl).mpr ⟨rfl, storable_startIntent, newDelivery_empty _⟩

def timeoutError : CanonicalError := { category := .timeout, code := "timeout", retryability := true, ambiguity := true }

/-- The error of a record cannot be encoded. -/
theorem error_not_kept : atomicOutboxTransaction 50 (startIntent (some timeoutError)) noAction noDeliveries =
      .error (.foreign "TypeError" "cannot serialize CanonicalError") ∧
    ¬ KeepsRecord 50 (startIntent (some timeoutError)) noAction noDeliveries () := by
  have hraises : atomicOutboxTransaction 50 (startIntent (some timeoutError)) noAction noDeliveries =
      .error (.foreign "TypeError" "cannot serialize CanonicalError") := rfl
  refine ⟨hraises, ?_⟩
  rintro ⟨db', hcommit, -⟩
  rw [hraises] at hcommit
  cases hcommit

end AllTomorrow
