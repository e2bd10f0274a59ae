import AllTomorrow.DeliveryReconciler
import AllTomorrow.RaisingState

/-!
# The delivery store and its clients

`DeliveryStore` of `storage/delivery_store.py`: every method runs under the lock of the
store, so it is one step. A worker reads a record, reconciles it and writes the result
back by compare-and-set on the revision that it has read.
-/

namespace AllTomorrow

/-- Transactional storage for records, with the index of their idempotency keys. -/
structure DeliveryStore where
  recordsById : InsertionDict DeliveryId DeliveryRecord
  recordsByIdempotencyKey : InsertionDict String DeliveryId

abbrev DeliveryStoreM := EStateM Exn DeliveryStore

def idempotencyKeyExpiredError (message : String) : Exn := .foreign "IdempotencyKeyExpiredError" message

def deliveryCASConflictError (message : String) : Exn := .foreign "DeliveryCASConflictError" message

namespace DeliveryStore

def empty : DeliveryStore := ⟨.empty, .empty⟩

variable (str : Datetime → String)

/-- `f"{record.valid_until}"`. -/
def showValidUntil (record : DeliveryRecord) : String := (record.validUntil.map str).getD "None"

def existingFor (now : Datetime) (key : String) (existingId : DeliveryId) : DeliveryStoreM DeliveryRecord := do
  let s ← get
  match s.recordsById.get? existingId with
  | none => throw (.keyError existingId.val)
  | some existing =>
    if existing.isExpired now then
      throw (idempotencyKeyExpiredError ("Idempotency key '" ++ key ++ "' expired at " ++ showValidUntil str existing))
    return existing

def insert (record : DeliveryRecord) : DeliveryStoreM Unit :=
  modify fun s =>
    { recordsById := s.recordsById.set record.deliveryId record
      recordsByIdempotencyKey := s.recordsByIdempotencyKey.set record.idempotencyKey record.deliveryId }

def createDelivery (env : Supply) (record : DeliveryRecord) : DeliveryStoreM DeliveryRecord := do
  let now := env.utcNow
  let s ← get
  match s.recordsByIdempotencyKey.get? record.idempotencyKey with
  | some existingId => existingFor str now record.idempotencyKey existingId
  | none =>
    if record.isExpired now then
      throw (idempotencyKeyExpiredError
        ("Cannot create delivery with already expired idempotency key (valid_until=" ++ showValidUntil str record ++ ")"))
    insert record
    return record

def getDelivery (s : DeliveryStore) (deliveryId : DeliveryId) : Option DeliveryRecord := s.recordsById.get? deliveryId

def updateCas (s : DeliveryStore) (expectedRevision : ℤ) (updated : DeliveryRecord) : Bool × DeliveryStore :=
  match s.recordsById.get? updated.deliveryId with
  | none => (false, s)
  | some current =>
    if current.revision ≠ expectedRevision then (false, s)
    else (true, { s with recordsById := s.recordsById.set updated.deliveryId updated })

/-- `existing.subject_refs != intent.subject_refs`: dictionaries are compared without their order. -/
def sameSubjects (a b : InsertionDict String String) : Bool :=
  a.entries.all (fun e => b.get? e.1 = some e.2) && b.entries.all fun e => a.get? e.1 = some e.2

/-- The domain action is awaited under the lock, before the intent is stored; `action` is what it returns
or raises. -/
def atomicAppTransaction (env : Supply) (intent : DeliveryRecord) (action : Except Exn PyValue) :
    DeliveryStoreM (PyValue × DeliveryRecord) := do
  let now := env.utcNow
  if intent.isExpired now then
    throw (idempotencyKeyExpiredError
      ("Cannot commit outbox intent with expired key (valid_until=" ++ showValidUntil str intent ++ ")"))
  let s ← get
  match s.recordsByIdempotencyKey.get? intent.idempotencyKey with
  | some existingId =>
    let existing ← existingFor str now intent.idempotencyKey existingId
    if existing.destinationAdapter ≠ intent.destinationAdapter ∨ ¬sameSubjects existing.subjectRefs intent.subjectRefs then
      throw (deliveryCASConflictError
        ("Idempotency key '" ++ intent.idempotencyKey ++ "' already exists with different destination or subjects"))
    return (.none, existing)
  | none =>
    let domainResult ← MonadExcept.ofExcept action
    insert intent
    return (domainResult, intent)

end DeliveryStore

/-! ## Clients -/

inductive DeliveryRequest where
  | createDelivery (env : Supply) (record : DeliveryRecord)
  | atomicAppTransaction (env : Supply) (intent : DeliveryRecord) (action : Except Exn PyValue)
  | getDelivery (deliveryId : DeliveryId)
  | updateCas (expectedRevision : ℤ) (updated : DeliveryRecord)
  | outside (a : DeliveryAction)

@[reducible] def DeliveryRequest.Answer : DeliveryRequest → Type
  | .createDelivery .. => Except Exn DeliveryRecord
  | .atomicAppTransaction .. => Except Exn (PyValue × DeliveryRecord)
  | .getDelivery _ => Option DeliveryRecord
  | .updateCas .. => Bool
  | .outside a => a.Answer

inductive DeliveryClient where
  | createDelivery (record : DeliveryRecord)
  | atomicAppTransaction (intent : DeliveryRecord) (action : Except Exn PyValue)
  /-- `get_delivery`, `reconcile`, `update_cas` -/
  | worker (reconciler : DeliveryReconciler) (deliveryId : DeliveryId)

abbrev DeliveryClientProg := Prog DeliveryRequest DeliveryRequest.Answer Unit

def reconcileOutside (reconciler : DeliveryReconciler) (env : Supply) (record : DeliveryRecord) :
    Prog DeliveryRequest DeliveryRequest.Answer DeliveryRecord :=
  (reconciler.reconcile env record).relabel DeliveryRequest.outside fun _ answer => answer

def DeliveryClient.program (env : Supply) : DeliveryClient → DeliveryClientProg
  | .createDelivery record => .act (.createDelivery env record) fun _ => .done ()
  | .atomicAppTransaction intent action => .act (.atomicAppTransaction env intent action) fun _ => .done ()
  | .worker reconciler deliveryId => .act (.getDelivery deliveryId) fun found =>
      match found with
      | none => .done ()
      | some record => do
        let updated ← reconcileOutside reconciler env record
        .act (.updateCas record.revision updated) fun _ => .done ()

structure DeliveryOutside (π : Type) where
  answer : (a : DeliveryAction) → π → a.Answer × π
  str : Datetime → String

structure DeliveryWorld (π : Type) where
  store : DeliveryStore
  outside : π

namespace DeliveryWorld

variable {π : Type}

def handler (out : DeliveryOutside π) : Prog.Handler DeliveryRequest DeliveryRequest.Answer (DeliveryWorld π)
  | .createDelivery env record, w =>
    (((DeliveryStore.createDelivery out.str env record).run w.store).outcome,
      { w with store := ((DeliveryStore.createDelivery out.str env record).run w.store).state })
  | .atomicAppTransaction env intent action, w =>
    (((DeliveryStore.atomicAppTransaction out.str env intent action).run w.store).outcome,
      { w with store := ((DeliveryStore.atomicAppTransaction out.str env intent action).run w.store).state })
  | .getDelivery deliveryId, w => (w.store.getDelivery deliveryId, w)
  | .updateCas expectedRevision updated, w =>
    ((w.store.updateCas expectedRevision updated).1, { w with store := (w.store.updateCas expectedRevision updated).2 })
  | .outside a, w => ((out.answer a w.outside).1, { w with outside := (out.answer a w.outside).2 })

end DeliveryWorld

/-- The clients of one store, with the readings that each of them draws. -/
structure DeliveryClients (ι : Type) where
  client : ι → DeliveryClient
  env : ι → Supply

def DeliveryClients.pool {ι π : Type} (clients : DeliveryClients ι) (world : DeliveryWorld π) :
    Prog.Pool ι DeliveryRequest DeliveryRequest.Answer Unit (DeliveryWorld π) :=
  ⟨fun i => (clients.client i).program (clients.env i), world⟩

end AllTomorrow
