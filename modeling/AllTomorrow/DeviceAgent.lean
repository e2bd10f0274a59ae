import AllTomorrow.ServiceRuns

/-!
# Devices and their leases

`DeviceAgentService` of `device_agent.py` over the tables of `ServiceActions`. A method holds
the lock of the service from its first read to its last write, so it is one request; only
`claim_work` gives the lock back, between the authentication and the lease that it writes,
and `complete_work` after it has closed the lease.
-/

namespace AllTomorrow

/-! ## Records of `domain/device.py` -/

/-- `timedelta(seconds=n)`. -/
def seconds (n : ℤ) : ℤ := n * 1000000

def defaultLeaseTtlSeconds : ℤ := 120

def defaultRegistrationCodeTtlSeconds : ℤ := 600

namespace DeviceLeaseRecord

def isExpired (lease : DeviceLeaseRecord) (now : Datetime) : Bool := lease.status = .active ∧ now > lease.expiresAt

/-- The lease of `claim_work`. -/
def new (env : Supply) (workId deviceId : String) (expiresAt : Datetime) : DeviceLeaseRecord where
  leaseId := env.newId "lease"
  workId := workId
  deviceId := deviceId
  leasedAt := env.utcNow
  expiresAt := expiresAt

def renewed (lease : DeviceLeaseRecord) (expiresAt : Datetime) : DeviceLeaseRecord where
  leaseId := lease.leaseId
  workId := lease.workId
  deviceId := lease.deviceId
  leasedAt := lease.leasedAt
  expiresAt := expiresAt
  revision := lease.revision + 1

def released (lease : DeviceLeaseRecord) : DeviceLeaseRecord where
  leaseId := lease.leaseId
  workId := lease.workId
  deviceId := lease.deviceId
  status := .released
  leasedAt := lease.leasedAt
  expiresAt := lease.expiresAt
  revision := lease.revision + 1

def expired (lease : DeviceLeaseRecord) : DeviceLeaseRecord where
  leaseId := lease.leaseId
  workId := lease.workId
  deviceId := lease.deviceId
  status := .expired
  leasedAt := lease.leasedAt
  expiresAt := lease.expiresAt
  ambiguousSideEffect := true
  revision := lease.revision + 1

end DeviceLeaseRecord

/-! ## Methods under the lock -/

abbrev DeviceM := EStateM Exn DeviceTables

/-- `secrets.token_urlsafe(32)`. -/
def newDeviceToken (env : Supply) : String := (env []).uuid

namespace DeviceTables

def issueRegistrationCode (env : Supply) (ownerUserId : String) : DeviceM String := do
  let code := (env.sub 0).newId "regcode"
  let pending : PendingRegistration :=
    ⟨code, ownerUserId, (env.sub 1).utcNow + seconds defaultRegistrationCodeTtlSeconds, false⟩
  modify fun t => { t with pendingCodes := t.pendingCodes.set code pending }
  return code

def registerDevice (hashDeviceToken : String → String) (env : Supply) (registrationCode name : String)
    (capabilities : Finset String) (maxConcurrent : ℤ) : DeviceM (DeviceRecord × String) := do
  let t ← get
  match t.pendingCodes.get? registrationCode with
  | none => throw (.registrationCodeError "registration code is invalid, used, or expired")
  | some pending =>
    if pending.used ∨ (env.sub 0).utcNow > pending.expiresAt then
      throw (.registrationCodeError "registration code is invalid, used, or expired")
    modify fun t => { t with pendingCodes := t.pendingCodes.set registrationCode { pending with used := true } }
    let token := newDeviceToken (env.sub 1)
    let device : DeviceRecord :=
      { deviceId := (env.sub 2).newId "dev", name, ownerUserId := pending.ownerUserId,
        tokenDigest := hashDeviceToken token, capabilities, maxConcurrent, registeredAt := (env.sub 2).utcNow }
    modify fun t => { t with devices := t.devices.set device.deviceId device }
    return (device, token)

def heartbeat (hashDeviceToken : String → String) (env : Supply) (deviceId token : String) : DeviceM DeviceRecord := do
  let device ← authenticate hashDeviceToken deviceId token
  let updated : DeviceRecord :=
    { device with status := .online, lastHeartbeatAt := some env.utcNow, revision := device.revision + 1 }
  modify fun t => { t with devices := t.devices.set deviceId updated }
  return updated

/-- `for lease_id, lease in list(self._leases.items())` with the leases that the loop closes; the Works of
those. -/
def closeEach (closes : DeviceLeaseRecord → Bool) (closed : DeviceLeaseRecord → DeviceLeaseRecord) :
    List (String × DeviceLeaseRecord) → DeviceTables → List String × DeviceTables
  | [], t => ([], t)
  | (leaseId, lease) :: rest, t =>
    if closes lease then
      let rested := closeEach closes closed rest
        { t with leases := t.leases.set leaseId (closed lease), leaseByWork := t.leaseByWork.erase lease.workId }
      (lease.workId :: rested.1, rested.2)
    else closeEach closes closed rest t

def revokeDevice (env : Supply) (ownerUserId deviceId : String) : DeviceM DeviceRecord := do
  let t ← get
  match t.devices.get? deviceId with
  | none => throw (.deviceError "device not found")
  | some device =>
    if device.ownerUserId ≠ ownerUserId then
      throw (.deviceError "device not found")
    let updated : DeviceRecord :=
      { device with status := .revoked, revokedAt := some env.utcNow, revision := device.revision + 1 }
    modify fun t => { t with devices := t.devices.set deviceId updated }
    modify fun t => (closeEach (fun lease => lease.deviceId = deviceId ∧ lease.status = .active)
      DeviceLeaseRecord.released t.leases.entries t).2
    return updated

/-- The second part of `claim_work`. -/
def recordLease (env : Supply) (workId deviceId : String) (ttlSeconds : ℤ) : DeviceM DeviceLeaseRecord := do
  let expiresAt ← MonadExcept.ofExcept (addSeconds env.utcNow ttlSeconds)
  let lease := DeviceLeaseRecord.new env workId deviceId expiresAt
  modify fun t => { t with leases := t.leases.set lease.leaseId lease }
  modify fun t => { t with leaseByWork := t.leaseByWork.set workId lease.leaseId }
  return lease

def renewLease (hashDeviceToken : String → String) (env : Supply) (deviceId token leaseId : String) (ttlSeconds : ℤ) :
    DeviceM DeviceLeaseRecord := do
  let _ ← authenticate hashDeviceToken deviceId token
  let t ← get
  match t.leases.get? leaseId with
  | none => throw (.leaseConflictError "lease not found for this device")
  | some lease =>
    if lease.deviceId ≠ deviceId then
      throw (.leaseConflictError "lease not found for this device")
    if lease.status ≠ .active then
      throw (.leaseConflictError ("lease is " ++ lease.status.value ++ ", cannot renew"))
    let expiresAt ← MonadExcept.ofExcept (addSeconds env.utcNow ttlSeconds)
    let updated := lease.renewed expiresAt
    modify fun t => { t with leases := t.leases.set leaseId updated }
    return updated

/-- Mark the leases past their time as EXPIRED; the Works that were flagged. -/
def sweepExpiredLeases (env : Supply) : DeviceM (List String) := do
  let t ← get
  let swept := closeEach (fun lease => lease.isExpired env.utcNow) DeviceLeaseRecord.expired t.leases.entries t
  set swept.2
  return swept.1

end DeviceTables

/-! ## Requests and calls -/

inductive DeviceOp where
  | issueRegistrationCode (ownerUserId : String)
  | registerDevice (registrationCode name : String) (capabilities : Finset String) (maxConcurrent : ℤ)
  | heartbeat (deviceId token : String)
  | revokeDevice (ownerUserId deviceId : String)
  /-- the first part of `claim_work`; what it finds out about the last heartbeat has no effect -/
  | authenticate (deviceId token : String)
  | recordLease (workId deviceId : String) (ttlSeconds : ℤ)
  | renewLease (deviceId token leaseId : String) (ttlSeconds : ℤ)
  | sweepExpiredLeases

@[reducible] def DeviceOp.Result : DeviceOp → Type
  | .issueRegistrationCode _ => String
  | .registerDevice .. => DeviceRecord × String
  | .heartbeat .. => DeviceRecord
  | .revokeDevice .. => DeviceRecord
  | .authenticate .. => DeviceRecord
  | .recordLease .. => DeviceLeaseRecord
  | .renewLease .. => DeviceLeaseRecord
  | .sweepExpiredLeases => List String

def DeviceOp.exec (hashDeviceToken : String → String) (env : Supply) : (op : DeviceOp) → DeviceM op.Result
  | .issueRegistrationCode ownerUserId => DeviceTables.issueRegistrationCode env ownerUserId
  | .registerDevice code name capabilities maxConcurrent =>
    DeviceTables.registerDevice hashDeviceToken env code name capabilities maxConcurrent
  | .heartbeat deviceId token => DeviceTables.heartbeat hashDeviceToken env deviceId token
  | .revokeDevice ownerUserId deviceId => DeviceTables.revokeDevice env ownerUserId deviceId
  | .authenticate deviceId token => DeviceTables.authenticate hashDeviceToken deviceId token
  | .recordLease workId deviceId ttlSeconds => DeviceTables.recordLease env workId deviceId ttlSeconds
  | .renewLease deviceId token leaseId ttlSeconds =>
    DeviceTables.renewLease hashDeviceToken env deviceId token leaseId ttlSeconds
  | .sweepExpiredLeases => DeviceTables.sweepExpiredLeases env

/-- A request of a device call; those of the other services are among them. -/
inductive DeviceAction where
  | service (a : ServiceAction)
  | tables (op : DeviceOp) (env : Supply)

@[reducible] def DeviceAction.Answer : DeviceAction → Type
  | .service a => a.Answer
  | .tables op _ => Except Exn op.Result

abbrev DeviceTask (α : Type) := ExceptT Exn (Prog DeviceAction DeviceAction.Answer) α

def callTables (op : DeviceOp) (env : Supply) : DeviceTask op.Result := ExceptT.mk (.act (.tables op env) .done)

def ServiceTask.onDevice {α : Type} (x : ServiceTask α) : DeviceTask α :=
  ExceptT.mk (x.run.relabel DeviceAction.service fun _ answer => answer)

def DeviceAgentService.claimWork (env : Supply) (deviceId token : String) (ttlSeconds : ℤ) :
    DeviceTask (Option DeviceLeaseRecord) := do
  let _ ← callTables (.authenticate deviceId token) (env.sub 0)
  match ← (callStore (.claimPendingWork 1) (env.sub 1)).onDevice with
  | [] => return none
  | work :: _ =>
    let lease ← callTables (.recordLease work.workId.val deviceId ttlSeconds) (env.sub 2)
    return some lease

/-- A call of the service, or of any other client of the store; `complete_work` is among the latter. -/
inductive DeviceCall where
  | issueRegistrationCode (ownerUserId : String)
  | registerDevice (registrationCode name : String) (capabilities : Finset String) (maxConcurrent : ℤ)
  | heartbeat (deviceId token : String)
  | revokeDevice (ownerUserId deviceId : String)
  | claimWork (deviceId token : String) (ttlSeconds : ℤ)
  | renewLease (deviceId token leaseId : String) (ttlSeconds : ℤ)
  | sweepExpiredLeases
  | service (call : ServiceCall)

def DeviceCall.task (env : Supply) : DeviceCall → DeviceTask Unit
  | .issueRegistrationCode ownerUserId => do let _ ← callTables (.issueRegistrationCode ownerUserId) env
  | .registerDevice code name capabilities maxConcurrent => do
      let _ ← callTables (.registerDevice code name capabilities maxConcurrent) env
  | .heartbeat deviceId token => do let _ ← callTables (.heartbeat deviceId token) env
  | .revokeDevice ownerUserId deviceId => do let _ ← callTables (.revokeDevice ownerUserId deviceId) env
  | .claimWork deviceId token ttlSeconds => do
      let _ ← DeviceAgentService.claimWork env deviceId token ttlSeconds
  | .renewLease deviceId token leaseId ttlSeconds => do
      let _ ← callTables (.renewLease deviceId token leaseId ttlSeconds) env
  | .sweepExpiredLeases => do let _ ← callTables .sweepExpiredLeases env
  | .service call => (call.task env).onDevice

namespace ServiceWorld

variable {π : Type}

def deviceHandler (ext : Externals π) : Prog.Handler DeviceAction DeviceAction.Answer (ServiceWorld π)
  | .service a, w => handler ext a w
  | .tables op env, w =>
    (((op.exec ext.hashDeviceToken env).run w.devices).outcome,
      { w with devices := ((op.exec ext.hashDeviceToken env).run w.devices).state })

end ServiceWorld

structure DeviceClients (ι : Type) where
  call : ι → DeviceCall
  env : ι → Supply

abbrev DevicePool (ι π : Type) := Prog.Pool ι DeviceAction DeviceAction.Answer (Except Exn Unit) (ServiceWorld π)

def DeviceClients.pool {ι π : Type} (clients : DeviceClients ι) (world : ServiceWorld π) : DevicePool ι π :=
  ⟨fun i => ((clients.call i).task (clients.env i)).run, world⟩

abbrev deviceStep {ι π : Type} [DecidableEq ι] (ext : Externals π) : DevicePool ι π → ι → DevicePool ι π :=
  Prog.Pool.step (ServiceWorld.deviceHandler ext)

end AllTomorrow
