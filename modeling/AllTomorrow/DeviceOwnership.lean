import AllTomorrow.LeaseIndex
import AllTomorrow.SemanticStoreIntegrity

/-!
# For whom a device works

Registration writes an owner and a limit into the record of a device, and nothing reads them
when it claims: `claim_work` takes the Work that the store hands out next. What holds of the
leases comes from the store and from the authentication.
-/

namespace AllTomorrow

open Prog

/-! ## Registered devices -/

def DevicesKept (t t' : DeviceTables) : Prop :=
  ∀ d device, t.devices.get? d = some device → ∃ device', t'.devices.get? d = some device'

theorem TablesChange.devicesKept {t t' : DeviceTables} {a : DeviceAction} (h : TablesChange t a t') : DevicesKept t t' := by
  have hset : ∀ (key : String) (updated : DeviceRecord) (d : String) (device : DeviceRecord),
      t.devices.get? d = some device → ∃ device', (t.devices.set key updated).get? d = some device' := by
    intro key updated d device hget
    rcases t.devices.get?_set_cases key updated d with ⟨_, hset⟩ | ⟨_, hset⟩
    · exact ⟨updated, hset⟩
    · exact ⟨device, hset.trans hget⟩
  cases h with
  | registered => exact hset _ _
  | beat => exact hset _ _
  | revoked =>
    intro d device hget
    rw [DeviceTables.closeAll_devices]
    exact hset _ _ d device hget
  | swept =>
    intro d device hget
    rw [DeviceTables.closeAll_devices]
    exact ⟨device, hget⟩
  | _ => exact fun d device hget => ⟨device, hget⟩

section Interleavings

variable {ι π : Type} (clients : DeviceClients ι)

def Registered (deviceId : String) (t : DeviceTables) : Prop := ∃ device, t.devices.get? deviceId = some device

/-- Client `i` has authenticated the device and not yet ended. -/
def Authenticated (p : DevicePool ι π) (i : ι) (deviceId : String) : Prop :=
  ∃ token ttlSeconds, clients.call i = .claimWork deviceId token ttlSeconds ∧
    (p.threads i = claiming (clients.env i) deviceId ttlSeconds ∨
      ∃ work, p.threads i = recording (clients.env i) deviceId ttlSeconds work)

structure HoldersRegistered (p : DevicePool ι π) : Prop where
  stage : ∀ i, StageOf (clients.env i) (p.threads i) (clients.call i)
  holders : ∀ id lease, p.state.devices.leases.get? id = some lease → Registered lease.deviceId p.state.devices
  claims : ∀ i d, Authenticated clients p i d → Registered d p.state.devices

variable {clients} {p : DevicePool ι π} {i : ι}

theorem HoldersRegistered.authenticated (h : HoldersRegistered clients p) {a : DeviceAction}
    {rest : a.Answer → DeviceProg} (hthread : p.threads i = .act a rest) {leaseId workId deviceId : String}
    (hrecords : a.Records leaseId workId deviceId) : Authenticated clients p i deviceId := by
  have hstage := h.stage i
  obtain ⟨ttlSeconds, env, rfl, rfl⟩ := hrecords
  cases hcall : clients.call i with
  | claimWork deviceId' token ttlSeconds' =>
    rw [hcall, hthread] at hstage
    rcases hstage with hstage | hstage | ⟨work, hstage⟩ | ⟨_, hstage⟩
    · rw [run_claimWork] at hstage
      cases hstage
    · cases hstage
    · have hrecording := hthread.trans hstage
      cases hstage
      exact ⟨token, ttlSeconds, hcall, .inr ⟨work, hrecording⟩⟩
    · cases hstage
  | _ =>
    rw [hcall, hthread] at hstage
    exact absurd ⟨ttlSeconds, env, rfl, rfl⟩ (hstage.1 _ _ deviceId)

theorem registered_of_authenticate {hashDeviceToken : String → String} {t : DeviceTables} {d token : String}
    {device : DeviceRecord}
    (h : ((DeviceTables.authenticate hashDeviceToken d token).run t).outcome = .ok device) : Registered d t := by
  have hends : EStateM.Ends (DeviceTables.authenticate hashDeviceToken d token) t
      (fun device t' => t' = t ∧ Authentic t d device) fun _ t' => t' = t := DeviceTables.ends_authenticate d token
  unfold EStateM.Ends at hends
  change (DeviceTables.authenticate hashDeviceToken d token t).outcome = .ok device at h
  cases hrun : DeviceTables.authenticate hashDeviceToken d token t with
  | ok found t' =>
    rw [hrun] at hends
    exact ⟨found, hends.2.stored⟩
  | error e t' =>
    rw [hrun] at h
    cases h

theorem holdersRegistered_start (clients : DeviceClients ι) (world : ServiceWorld π) :
    HoldersRegistered clients (clients.pool (leaselessWorld world)) := by
  refine ⟨fun i => stageOf_start (clients.call i) (clients.env i), ?_, ?_⟩
  · intro id lease hget
    cases hget
  · rintro i d ⟨token, ttlSeconds, hcall, hnow⟩
    change ((clients.call i).task (clients.env i)).run = _ ∨ ∃ work, ((clients.call i).task (clients.env i)).run = _ at hnow
    rw [hcall, run_claimWork] at hnow
    rcases hnow with hnow | ⟨work, hnow⟩ <;> cases hnow

variable [DecidableEq ι]

theorem holdersRegistered_step (ext : Externals π) (i : ι) (h : HoldersRegistered clients p) :
    HoldersRegistered clients (deviceStep ext p i) := by
  rcases deviceStep_cases ext p i with hsame | ⟨a, rest, hthread, hself, hother, _, _, hchange⟩
  · rw [hsame]
    exact h
  · have hkept : ∀ d, Registered d p.state.devices → Registered d (deviceStep ext p i).state.devices :=
      fun d ⟨device, hget⟩ => hchange.devicesKept d device hget
    have hstage := h.stage i
    rw [hthread] at hstage
    refine ⟨?_, ?_, ?_⟩
    · intro j
      by_cases hji : j = i
      · subst hji
        rw [hself]
        exact hstage.answered _
      · rw [hother j hji]
        exact h.stage j
    · intro id lease' hget'
      rcases hchange.origin hget' with ⟨lease, hget, _, hdevice⟩ | hrecords
      · rw [hdevice]
        exact hkept _ (h.holders id lease hget)
      · exact hkept _ (h.claims i _ (h.authenticated hthread hrecords))
    · rintro j d ⟨token, ttlSeconds, hcall, hnow⟩
      by_cases hji : j = i
      · subst hji
        rw [hcall] at hstage
        apply hkept
        rcases hstage with hstage | hstage | ⟨work, hstage⟩ | ⟨_, hstage⟩
        · -- the request was the authentication
          rw [run_claimWork] at hstage
          cases hstage
          rw [hself] at hnow
          cases hanswer : (ServiceWorld.deviceHandler ext (.tables (.authenticate d token) ((clients.env j).sub 0))
              p.state).1 with
          | ok device => exact registered_of_authenticate hanswer
          | error e =>
            rw [hanswer] at hnow
            rcases hnow with hnow | ⟨work, hnow⟩ <;> cases hnow
        · exact h.claims j d ⟨token, ttlSeconds, hcall, .inl (hthread.trans hstage)⟩
        · exact h.claims j d ⟨token, ttlSeconds, hcall, .inr ⟨work, hthread.trans hstage⟩⟩
        · cases hstage
      · rw [hother j hji] at hnow
        exact hkept d (h.claims j d ⟨token, ttlSeconds, hcall, hnow⟩)

end Interleavings

/-! ## What a claim takes -/

variable {ι π : Type}

theorem outcome_recordLease (t : DeviceTables) (workId d : String) {env : Supply} {ttlSeconds : ℤ} {expiresAt : Datetime}
    (hexpires : addSeconds env.utcNow ttlSeconds = .ok expiresAt) :
    ((DeviceTables.recordLease env workId d ttlSeconds).run t).outcome = .ok (.new env workId d expiresAt) := by
  unfold DeviceTables.recordLease
  rw [hexpires]
  rfl

/-- A claim with a valid token leases the Work that the store hands out next, if there is one. -/
theorem evalTask_claimWork (ext : Externals π) {w : ServiceWorld π} {d token : String} {device : DeviceRecord}
    (hauth : Authentic w.devices d device) (htoken : ext.hashDeviceToken token = device.tokenDigest) (env : Supply)
    {ttlSeconds : ℤ} {expiresAt : Datetime} (hexpires : addSeconds (env.sub 2).utcNow ttlSeconds = .ok expiresAt) :
    (evalTask (ServiceWorld.deviceHandler ext) (DeviceAgentService.claimWork env d token ttlSeconds) w).1 =
      .ok ((handedOut w.store ⟨.claimPendingWork 1, env.sub 1⟩).head?.map fun work =>
        .new (env.sub 2) work.workId.val d expiresAt) := by
  have hverified : evalTask (ServiceWorld.deviceHandler ext) (callTables (.authenticate d token) (env.sub 0)) w =
      (.ok device, w) := by
    have hrun : (DeviceTables.authenticate ext.hashDeviceToken d token).run w.devices = .ok device w.devices := by
      simp only [DeviceTables.authenticate, EStateM.run_bind, EStateM.run_get, hauth.stored, DeviceTables.verifyToken,
        hauth.live, htoken, if_false, ne_eq, not_true_eq_false, EStateM.run_ofExcept_ok, EStateM.run_pure]
    change (((DeviceTables.authenticate ext.hashDeviceToken d token).run w.devices).outcome,
      { w with devices := ((DeviceTables.authenticate ext.hashDeviceToken d token).run w.devices).state }) = _
    rw [hrun]
    rfl
  have hclaimed : evalTask (ServiceWorld.deviceHandler ext)
      (callStore (.claimPendingWork 1) (env.sub 1)).onDevice w =
        (.ok (handedOut w.store ⟨.claimPendingWork 1, env.sub 1⟩),
          { w with store := storeStep w.store ⟨.claimPendingWork 1, env.sub 1⟩ }) :=
    congrArg (fun r => (r, _)) (outcome_claim w.store 1 (env.sub 1))
  unfold DeviceAgentService.claimWork
  rw [evalTask_bind_ok hverified, evalTask_bind_ok hclaimed]
  cases handedOut w.store ⟨.claimPendingWork 1, env.sub 1⟩ with
  | nil => rfl
  | cons work others =>
    have hrecorded : evalTask (ServiceWorld.deviceHandler ext)
        (callTables (.recordLease work.workId.val d ttlSeconds) (env.sub 2))
        { w with store := storeStep w.store ⟨.claimPendingWork 1, env.sub 1⟩ } =
          (.ok (.new (env.sub 2) work.workId.val d expiresAt), _) :=
      congrArg (fun r => (r, _)) (outcome_recordLease w.devices work.workId.val d hexpires)
    dsimp only
    rw [evalTask_bind_ok hrecorded]
    rfl

/-- An ACTIVE lease has a registered device, a Work that was handed out and its Goal, and no other
ACTIVE lease beside it. -/
structure LeasesBacked (w : ServiceWorld π) : Prop where
  device : ∀ id lease, w.devices.leases.get? id = some lease → lease.status = .active →
    Registered lease.deviceId w.devices
  work : ∀ id lease, w.devices.leases.get? id = some lease → lease.status = .active →
    ∃ work goal, w.store.work.get? ⟨lease.workId⟩ = some work ∧ work.status ≠ .pending ∧
      w.store.goals.get? work.goalId = some goal
  unique : ∀ id id' workId, w.devices.ActiveLease id workId → w.devices.ActiveLease id' workId → id = id'

/-- A claim whose deadline is in the calendar looks neither at the owner of the Goal nor at the other
leases of the device. -/
def ClaimsNext (ext : Externals π) (w : ServiceWorld π) : Prop :=
  ∀ env d token device ttlSeconds expiresAt, Authentic w.devices d device →
    ext.hashDeviceToken token = device.tokenDigest → addSeconds (env.sub 2).utcNow ttlSeconds = .ok expiresAt →
    (evalTask (ServiceWorld.deviceHandler ext) (DeviceAgentService.claimWork env d token ttlSeconds) w).1 =
      .ok ((handedOut w.store ⟨.claimPendingWork 1, env.sub 1⟩).head?.map fun work =>
        .new (env.sub 2) work.workId.val d expiresAt)

variable [DecidableEq ι]

/-- The state after any interleaving. -/
theorem leases_backed (ext : Externals π) (clients : DeviceClients ι) (world : ServiceWorld π)
    (hstore : StoreReachable world.store) (hids : Function.Injective clients.leaseId) (schedule : List ι) :
    LeasesBacked (MachineRuns.run (deviceStep ext) (clients.pool (leaselessWorld world)) schedule).state ∧
      ClaimsNext ext (MachineRuns.run (deviceStep ext) (clients.pool (leaselessWorld world)) schedule).state := by
  have hclaimed := leasesClaimed_run ext hids (leasesClaimed_start clients hstore) schedule
  have hregistered : HoldersRegistered clients
      (MachineRuns.run (deviceStep ext) (clients.pool (leaselessWorld world)) schedule) :=
    MachineRuns.invariant_run (fun q i hq => holdersRegistered_step (p := q) ext i hq)
      (holdersRegistered_start clients world) schedule
  have hreach : StoreReachable
      (MachineRuns.run (deviceStep ext) (clients.pool (leaselessWorld world)) schedule).state.store := by
    exact MachineRuns.invariant_run (I := fun q : DevicePool ι π => StoreReachable q.state.store)
      (reachable_deviceStep ext) hstore schedule
  refine ⟨⟨fun id lease hget _ => hregistered.holders id lease hget, ?_, ?_⟩, ?_⟩
  · intro id lease hget _
    obtain ⟨work, hwork, hstarted⟩ := hclaimed.started id lease hget
    obtain ⟨goal, hgoal⟩ := hreach.integrity.work_goal _ work hwork
    exact ⟨work, goal, hwork, hstarted, hgoal⟩
  · rintro id id' workId ⟨lease, hget, hwork, hactive⟩ ⟨lease', hget', hwork', hactive'⟩
    exact hclaimed.index.unique hget hget' (hwork.trans hwork'.symm) hactive hactive'
  · exact fun env d token device ttlSeconds expiresAt hauth htoken => evalTask_claimWork ext hauth htoken env

/-- An ACTIVE lease is on a Work of the device's owner. -/
def WorksForOwner (w : ServiceWorld π) : Prop :=
  ∀ id lease device work goal, w.devices.leases.get? id = some lease → lease.status = .active →
    w.devices.devices.get? lease.deviceId = some device → w.store.work.get? ⟨lease.workId⟩ = some work →
    w.store.goals.get? work.goalId = some goal → goal.userId = device.ownerUserId

/-- A device has at most `max_concurrent` ACTIVE leases. -/
def WithinLimit (w : ServiceWorld π) : Prop :=
  ∀ d device, w.devices.devices.get? d = some device →
    ((w.devices.leases.values.filter fun lease => lease.deviceId = d ∧ lease.status = .active).length : ℤ) ≤
      device.maxConcurrent

def twoWorkCalls : List StoreCall :=
  pendingCalls ++ [⟨.createWork { sampleWork with workId := ⟨"work_2"⟩ } sampleEvent, frozenSupply⟩]

/-- The Goal belongs to `u1` and the device to `u2`. -/
def foreignWorld : ServiceWorld Unit :=
  { deviceWorld (MachineRuns.run storeStep .empty twoWorkCalls) with
    devices := { DeviceTables.init with
      devices := InsertionDict.empty.set "dev_1" { sampleDevice with ownerUserId := "u2" } } }

/-- One claim after the other, both by the device with the limit 1. -/
theorem foreign_works_leased :
    ¬WorksForOwner (MachineRuns.run (deviceStep (sampleExternals none (.ok "h")))
        (twoClaims.pool (leaselessWorld foreignWorld)) [true, true, true, false, false, false]).state ∧
      ¬WithinLimit (MachineRuns.run (deviceStep (sampleExternals none (.ok "h")))
        (twoClaims.pool (leaselessWorld foreignWorld)) [true, true, true, false, false, false]).state := by
  constructor
  · intro h
    have howner := h "lease_1" _ _ _ _ rfl rfl rfl rfl rfl
    revert howner
    decide
  · intro h
    have hlimit := h "dev_1" _ rfl
    revert hlimit
    decide

/-- The same two claims. -/
theorem leases_backed_twoClaims :
    LeasesBacked (MachineRuns.run (deviceStep (sampleExternals none (.ok "h")))
      (twoClaims.pool (leaselessWorld foreignWorld)) [true, true, true, false, false, false]).state := by
  have hreach : StoreReachable foreignWorld.store := ⟨twoWorkCalls, rfl⟩
  have hids : Function.Injective twoClaims.leaseId := by
    unfold Function.Injective
    decide
  exact (leases_backed _ twoClaims foreignWorld hreach hids _).1

end AllTomorrow
