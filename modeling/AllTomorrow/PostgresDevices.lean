import AllTomorrow.DeviceTableChanges
import AllTomorrow.PostgresTables

/-!
# The device service on PostgreSQL

`PostgresDeviceAgentService` of `device_agent.py` over the tables of
`migrations/0008_device_agent.sql`. A statement, or the statements of one transaction, are
one request that raises without effect or takes place as a whole; between two of them other
calls may run. The store behind the service is a parameter: it may be either of the two.
-/

namespace AllTomorrow

/-! ## Tables -/

structure DeviceDatabase where
  devices : KeyedTable DeviceRecord.deviceId
  deviceLeases : KeyedTable DeviceLeaseRecord.leaseId
  deviceRegistrationCodes : KeyedTable PendingRegistration.code

abbrev DeviceSql (α : Type) := DeviceDatabase → Except Exn (α × DeviceDatabase)

namespace DeviceDatabase

def empty : DeviceDatabase := ⟨.empty, .empty, .empty⟩

def insertCode (code ownerUserId : String) (expiresAt : Datetime) : DeviceSql Unit := fun db => do
  sendTexts [code, ownerUserId]
  uniqueConstraint "device_registration_codes_pkey" (db.deviceRegistrationCodes.contains code)
  return ((), { db with deviceRegistrationCodes := db.deviceRegistrationCodes.put ⟨code, ownerUserId, expiresAt, false⟩ })

/-- The transaction of `register_device`; the device that is inserted, and its token. -/
def registerDevice (hashDeviceToken : String → String) (env : Supply) (registrationCode name : String)
    (capabilities : Finset String) (maxConcurrent : ℤ) : DeviceSql (DeviceRecord × String) := fun db => do
  sendTexts [registrationCode]
  match db.deviceRegistrationCodes.get? registrationCode with
  | none => throw (.registrationCodeError "registration code is invalid, used, or expired")
  | some pending =>
    if pending.used ∨ (env.sub 0).utcNow > pending.expiresAt then
      throw (.registrationCodeError "registration code is invalid, used, or expired")
    let token := newDeviceToken (env.sub 1)
    let device : DeviceRecord :=
      { deviceId := (env.sub 2).newId "dev", name, ownerUserId := pending.ownerUserId,
        tokenDigest := hashDeviceToken token, capabilities, maxConcurrent, registeredAt := (env.sub 3).utcNow }
    sendTexts [device.deviceId, name, device.tokenDigest]
    storeJson (∀ c ∈ capabilities, Column.text c = true)
    storeInteger maxConcurrent
    uniqueConstraint "devices_pkey" (db.devices.contains device.deviceId)
    return ((device, token),
      { db with
        deviceRegistrationCodes := db.deviceRegistrationCodes.put { pending with used := true }
        devices := db.devices.put device })

/-- `_load_device`. -/
def loadDevice (deviceId : String) : DeviceSql (Option DeviceRecord) := fun db => do
  sendTexts [deviceId]
  return (db.devices.get? deviceId, db)

/-- `UPDATE devices SET status = 'ONLINE', … WHERE device_id = %s`: no other condition. -/
def beat (now : Datetime) (deviceId : String) : DeviceSql Unit := fun db => do
  sendTexts [deviceId]
  match db.devices.get? deviceId with
  | none => return ((), db)
  | some device =>
    storeInteger (device.revision + 1)
    return ((), { db with devices := db.devices.put (device.beat now) })

/-- `SET status = 'RELEASED', revision = revision + 1`. -/
def released (lease : DeviceLeaseRecord) : DeviceLeaseRecord :=
  { lease with status := .released, revision := lease.revision + 1 }

/-- `SET status = 'EXPIRED', ambiguous_side_effect = true, revision = revision + 1`. -/
def expired (lease : DeviceLeaseRecord) : DeviceLeaseRecord :=
  { lease with status := .expired, ambiguousSideEffect := true, revision := lease.revision + 1 }

/-- The rows of `device_leases` that a statement updates, each with the next revision. -/
def revisionsFit (matching : DeviceLeaseRecord → Bool) (db : DeviceDatabase) : Except Exn Unit :=
  (db.deviceLeases.values.filter matching).forM fun lease => storeInteger (lease.revision + 1)

/-- The transaction of `revoke_device`. -/
def revokeDevice (now : Datetime) (ownerUserId deviceId : String) : DeviceSql Unit := fun db => do
  sendTexts [deviceId]
  match db.devices.get? deviceId with
  | none => throw (.deviceError "device not found")
  | some device =>
    if device.ownerUserId ≠ ownerUserId then
      throw (.deviceError "device not found")
    storeInteger (device.revision + 1)
    db.revisionsFit fun lease => lease.deviceId = deviceId ∧ lease.status = .active
    return ((),
      { db with
        devices := db.devices.put (device.revoked now)
        deviceLeases := db.deviceLeases.updateWhere (fun lease => lease.deviceId = deviceId ∧ lease.status = .active)
          released })

/-- The lease of `claim_work`; `leased_at` is the default of its column. -/
def insertLease (now : Datetime) (leaseId workId deviceId : String) (expiresAt : Datetime) : DeviceSql Unit := fun db => do
  sendTexts [leaseId, workId, deviceId]
  uniqueConstraint "device_leases_pkey" (db.deviceLeases.contains leaseId)
  uniqueConstraint "device_leases_active_work_idx"
    (db.deviceLeases.values.any fun lease => lease.workId = workId ∧ lease.status = .active)
  foreignKey "device_leases" "device_id" "devices" deviceId (db.devices.contains deviceId)
  let lease : DeviceLeaseRecord := { leaseId, workId, deviceId, leasedAt := now, expiresAt }
  return ((), { db with deviceLeases := db.deviceLeases.put lease })

/-- `UPDATE device_leases … RETURNING work_id, leased_at, revision`. -/
def renewLease (leaseId deviceId : String) (expiresAt : Datetime) : DeviceSql (Option DeviceLeaseRecord) := fun db => do
  sendTexts [leaseId, deviceId]
  match db.deviceLeases.get? leaseId with
  | none => return (none, db)
  | some lease =>
    if lease.deviceId = deviceId ∧ lease.status = .active then
      storeInteger (lease.revision + 1)
      let renewed := { lease with expiresAt := expiresAt, revision := lease.revision + 1 }
      return (some renewed, { db with deviceLeases := db.deviceLeases.put renewed })
    else return (none, db)

/-- The transaction of `complete_work`; the Work that is leased. -/
def completeLease (now : Datetime) (leaseId deviceId : String) : DeviceSql String := fun db => do
  sendTexts [leaseId, deviceId]
  match db.deviceLeases.get? leaseId with
  | none => throw (.leaseConflictError "lease not found for this device")
  | some lease =>
    if lease.deviceId ≠ deviceId then
      throw (.leaseConflictError "lease not found for this device")
    if lease.status ≠ .active then
      throw (.leaseConflictError ("lease already " ++ lease.status.value))
    storeInteger (lease.revision + 1)
    let completed := { lease with status := .completed, completedAt := some now, revision := lease.revision + 1 }
    return (lease.workId, { db with deviceLeases := db.deviceLeases.put completed })

/-- `UPDATE device_leases … WHERE status = 'ACTIVE' AND expires_at < now() RETURNING work_id`. -/
def sweepExpiredLeases (now : Datetime) : DeviceSql (List String) := fun db => do
  db.revisionsFit fun lease => lease.isExpired now
  return ((db.deviceLeases.values.filter fun lease => lease.isExpired now).map DeviceLeaseRecord.workId,
    { db with deviceLeases := db.deviceLeases.updateWhere (fun lease => lease.isExpired now) expired })

end DeviceDatabase

/-! ## Requests and calls -/

inductive PgDeviceOp where
  | insertCode (code ownerUserId : String) (expiresAt : Datetime)
  | registerDevice (registrationCode name : String) (capabilities : Finset String) (maxConcurrent : ℤ)
  | loadDevice (deviceId : String)
  | beat (deviceId : String)
  | revokeDevice (ownerUserId deviceId : String)
  | insertLease (leaseId workId deviceId : String) (expiresAt : Datetime)
  | renewLease (leaseId deviceId : String) (expiresAt : Datetime)
  | completeLease (leaseId deviceId : String)
  | sweepExpiredLeases

@[reducible] def PgDeviceOp.Result : PgDeviceOp → Type
  | .insertCode .. => Unit
  | .registerDevice .. => DeviceRecord × String
  | .loadDevice _ => Option DeviceRecord
  | .beat _ => Unit
  | .revokeDevice .. => Unit
  | .insertLease .. => Unit
  | .renewLease .. => Option DeviceLeaseRecord
  | .completeLease .. => String
  | .sweepExpiredLeases => List String

def PgDeviceOp.exec (hashDeviceToken : String → String) (env : Supply) : (op : PgDeviceOp) → DeviceSql op.Result
  | .insertCode code ownerUserId expiresAt => DeviceDatabase.insertCode code ownerUserId expiresAt
  | .registerDevice code name capabilities maxConcurrent =>
    DeviceDatabase.registerDevice hashDeviceToken env code name capabilities maxConcurrent
  | .loadDevice deviceId => DeviceDatabase.loadDevice deviceId
  | .beat deviceId => DeviceDatabase.beat env.utcNow deviceId
  | .revokeDevice ownerUserId deviceId => DeviceDatabase.revokeDevice env.utcNow ownerUserId deviceId
  | .insertLease leaseId workId deviceId expiresAt =>
    DeviceDatabase.insertLease env.utcNow leaseId workId deviceId expiresAt
  | .renewLease leaseId deviceId expiresAt => DeviceDatabase.renewLease leaseId deviceId expiresAt
  | .completeLease leaseId deviceId => DeviceDatabase.completeLease env.utcNow leaseId deviceId
  | .sweepExpiredLeases => DeviceDatabase.sweepExpiredLeases env.utcNow

inductive PgDeviceAction where
  | service (a : ServiceAction)
  | tables (op : PgDeviceOp) (env : Supply)

@[reducible] def PgDeviceAction.Answer : PgDeviceAction → Type
  | .service a => a.Answer
  | .tables op _ => Except Exn op.Result

abbrev PgDeviceTask (α : Type) := ExceptT Exn (Prog PgDeviceAction PgDeviceAction.Answer) α

def callSql (op : PgDeviceOp) (env : Supply) : PgDeviceTask op.Result := ExceptT.mk (.act (.tables op env) .done)

def ServiceTask.onPostgres {α : Type} (x : ServiceTask α) : PgDeviceTask α :=
  ExceptT.mk (x.run.relabel PgDeviceAction.service fun _ answer => answer)

namespace PostgresDeviceAgentService

variable (hashDeviceToken : String → String)

/-- `_load_device`, and the check of what it has read. -/
def authenticate (env : Supply) (deviceId token : String) : PgDeviceTask Unit := do
  match ← callSql (.loadDevice deviceId) env with
  | none => throw (Exn.deviceTokenInvalidError "unknown device")
  | some device => MonadExcept.ofExcept (DeviceTables.verifyToken hashDeviceToken device token)

def issueRegistrationCode (env : Supply) (ownerUserId : String) : PgDeviceTask String := do
  let code := (env.sub 0).newId "regcode"
  callSql (.insertCode code ownerUserId ((env.sub 1).utcNow + seconds defaultRegistrationCodeTtlSeconds)) (env.sub 2)
  return code

def heartbeat (env : Supply) (deviceId token : String) : PgDeviceTask (Option DeviceRecord) := do
  authenticate hashDeviceToken (env.sub 0) deviceId token
  callSql (.beat deviceId) (env.sub 1)
  callSql (.loadDevice deviceId) (env.sub 2)

def revokeDevice (env : Supply) (ownerUserId deviceId : String) : PgDeviceTask (Option DeviceRecord) := do
  callSql (.revokeDevice ownerUserId deviceId) (env.sub 0)
  callSql (.loadDevice deviceId) (env.sub 1)

def claimWork (env : Supply) (deviceId token : String) (ttlSeconds : ℤ) : PgDeviceTask (Option DeviceLeaseRecord) := do
  authenticate hashDeviceToken (env.sub 0) deviceId token
  match ← (callStore (.claimPendingWork 1) (env.sub 1)).onPostgres with
  | [] => return none
  | work :: _ =>
    let expiresAt ← MonadExcept.ofExcept (addSeconds (env.sub 2).utcNow ttlSeconds)
    let lease := DeviceLeaseRecord.new (env.sub 2) work.workId.val deviceId expiresAt
    callSql (.insertLease lease.leaseId lease.workId deviceId lease.expiresAt) (env.sub 3)
    return some lease

def renewLease (env : Supply) (deviceId token leaseId : String) (ttlSeconds : ℤ) : PgDeviceTask DeviceLeaseRecord := do
  authenticate hashDeviceToken (env.sub 0) deviceId token
  let expiresAt ← MonadExcept.ofExcept (addSeconds (env.sub 1).utcNow ttlSeconds)
  match ← callSql (.renewLease leaseId deviceId expiresAt) (env.sub 2) with
  | none => throw (Exn.leaseConflictError "lease not found for this device, or not active")
  | some lease => return lease

def completeWork (actor : Actor) (env : Supply) (deviceId token leaseId : String) (report : DeviceReport) :
    PgDeviceTask DeviceCompletion := do
  authenticate hashDeviceToken (env.sub 0) deviceId token
  let workId ← callSql (.completeLease leaseId deviceId) (env.sub 1)
  (DeviceAgentService.settleWork actor (env.sub 2) deviceId workId report).onPostgres

end PostgresDeviceAgentService

inductive PgDeviceCall where
  | issueRegistrationCode (ownerUserId : String)
  | registerDevice (registrationCode name : String) (capabilities : Finset String) (maxConcurrent : ℤ)
  | heartbeat (deviceId token : String)
  | revokeDevice (ownerUserId deviceId : String)
  | claimWork (deviceId token : String) (ttlSeconds : ℤ)
  | renewLease (deviceId token leaseId : String) (ttlSeconds : ℤ)
  | completeWork (actor : Actor) (deviceId token leaseId : String) (report : DeviceReport)
  | sweepExpiredLeases

def PgDeviceCall.task (hashDeviceToken : String → String) (env : Supply) : PgDeviceCall → PgDeviceTask Unit
  | .issueRegistrationCode ownerUserId => do
      let _ ← PostgresDeviceAgentService.issueRegistrationCode env ownerUserId
  | .registerDevice code name capabilities maxConcurrent => do
      let _ ← callSql (.registerDevice code name capabilities maxConcurrent) env
  | .heartbeat deviceId token => do
      let _ ← PostgresDeviceAgentService.heartbeat hashDeviceToken env deviceId token
  | .revokeDevice ownerUserId deviceId => do
      let _ ← PostgresDeviceAgentService.revokeDevice env ownerUserId deviceId
  | .claimWork deviceId token ttlSeconds => do
      let _ ← PostgresDeviceAgentService.claimWork hashDeviceToken env deviceId token ttlSeconds
  | .renewLease deviceId token leaseId ttlSeconds => do
      let _ ← PostgresDeviceAgentService.renewLease hashDeviceToken env deviceId token leaseId ttlSeconds
  | .completeWork actor deviceId token leaseId report => do
      let _ ← PostgresDeviceAgentService.completeWork hashDeviceToken actor env deviceId token leaseId report
  | .sweepExpiredLeases => do let _ ← callSql .sweepExpiredLeases env

structure PgDeviceWorld (σ : Type) where
  db : DeviceDatabase
  outside : σ

def PgDeviceWorld.handler {σ : Type} (hashDeviceToken : String → String)
    (outside : Prog.Handler ServiceAction ServiceAction.Answer σ) :
    Prog.Handler PgDeviceAction PgDeviceAction.Answer (PgDeviceWorld σ)
  | .service a, w => ((outside a w.outside).1, { w with outside := (outside a w.outside).2 })
  | .tables op env, w =>
    match op.exec hashDeviceToken env w.db with
    | .ok (result, db) => (.ok result, { w with db := db })
    | .error e => (.error e, w)

structure PgDeviceClients (ι : Type) where
  call : ι → PgDeviceCall
  env : ι → Supply

abbrev PgDevicePool (ι σ : Type) := Prog.Pool ι PgDeviceAction PgDeviceAction.Answer (Except Exn Unit) (PgDeviceWorld σ)

def PgDeviceClients.pool {ι σ : Type} (hashDeviceToken : String → String) (clients : PgDeviceClients ι)
    (world : PgDeviceWorld σ) : PgDevicePool ι σ :=
  ⟨fun i => ((clients.call i).task hashDeviceToken (clients.env i)).run, world⟩

end AllTomorrow
