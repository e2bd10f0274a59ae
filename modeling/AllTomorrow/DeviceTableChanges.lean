import AllTomorrow.DeviceAgent

/-!
# What a request does to the device tables

Every request leaves the tables alone or makes one of a few changes. The loop that closes
leases is described by what it leaves under each key.
-/

namespace AllTomorrow

namespace DeviceTables

variable {closes : DeviceLeaseRecord → Bool} {closed : DeviceLeaseRecord → DeviceLeaseRecord}

theorem closeEach_devices (entries : List (String × DeviceLeaseRecord)) (t : DeviceTables) :
    (closeEach closes closed entries t).2.devices = t.devices := by
  induction entries generalizing t with
  | nil => rfl
  | cons e entries ih =>
    unfold closeEach
    split
    · exact ih _
    · exact ih t

/-- The leases that the loop has seen and closes are replaced, the others stay. -/
theorem closeEach_leases {entries : List (String × DeviceLeaseRecord)} (hnodup : (entries.map Prod.fst).Nodup)
    (t : DeviceTables) (leaseId : String) :
    (closeEach closes closed entries t).2.leases.get? leaseId =
      match entries.lookup leaseId with
      | some lease => if closes lease then some (closed lease) else t.leases.get? leaseId
      | none => t.leases.get? leaseId := by
  induction entries generalizing t with
  | nil => rfl
  | cons e entries ih =>
    obtain ⟨k, lease⟩ := e
    rw [List.map_cons, List.nodup_cons] at hnodup
    have hafter := ih hnodup.2
    by_cases hk : leaseId = k
    · subst hk
      have hnone : entries.lookup leaseId = none := by
        rw [List.lookup_eq_none_iff]
        intro e he
        have hne : leaseId ≠ e.1 := by
          intro heq
          exact hnodup.1 (List.mem_map.mpr ⟨e, he, heq.symm⟩)
        simpa using hne
      rw [hnone] at hafter
      rw [List.lookup_cons_self]
      unfold closeEach
      by_cases hcloses : closes lease = true
      · simp only [hcloses, if_true, hafter, InsertionDict.get?_set_self]
      · simp only [hcloses, if_false, hafter, Bool.false_eq_true]
    · have hskip : ((k, lease) :: entries).lookup leaseId = entries.lookup leaseId := by
        rw [List.lookup_cons, beq_false_of_ne hk]
      rw [hskip]
      unfold closeEach
      split
      · rw [hafter, InsertionDict.get?_set_of_ne _ _ hk]
      · exact hafter t

theorem closeEach_leaseByWork (entries : List (String × DeviceLeaseRecord)) (t : DeviceTables) (workId : String) :
    (closeEach closes closed entries t).2.leaseByWork.get? workId =
      if ∃ e ∈ entries, closes e.2 = true ∧ e.2.workId = workId then none else t.leaseByWork.get? workId := by
  induction entries generalizing t with
  | nil => simp [closeEach]
  | cons e entries ih =>
    obtain ⟨k, lease⟩ := e
    unfold closeEach
    by_cases hcloses : closes lease = true
    · rw [if_pos hcloses]
      simp only [ih, InsertionDict.get?_erase, List.exists_mem_cons_iff, hcloses, true_and]
      by_cases hrest : ∃ e ∈ entries, closes e.2 = true ∧ e.2.workId = workId
      · rw [if_pos hrest, if_pos (.inr hrest)]
      · by_cases hk : workId = lease.workId
        · simp [hk]
        · simp [hrest, hk, Ne.symm hk]
    · rw [if_neg hcloses, ih]
      simp only [List.exists_mem_cons_iff, hcloses, false_and, false_or, Bool.false_eq_true]

def closeAll (closes : DeviceLeaseRecord → Bool) (closed : DeviceLeaseRecord → DeviceLeaseRecord) (t : DeviceTables) :
    DeviceTables := (closeEach closes closed t.leases.entries t).2

variable (t : DeviceTables)

theorem closeAll_devices : (t.closeAll closes closed).devices = t.devices :=
  closeEach_devices t.leases.entries t

theorem closeAll_leases (leaseId : String) :
    (t.closeAll closes closed).leases.get? leaseId =
      (t.leases.get? leaseId).map fun lease => if closes lease then closed lease else lease := by
  unfold closeAll
  rw [closeEach_leases t.leases.nodup_keys]
  change (match t.leases.get? leaseId with
    | some lease => if closes lease then some (closed lease) else t.leases.get? leaseId
    | none => t.leases.get? leaseId) = _
  cases hget : t.leases.get? leaseId with
  | none => rfl
  | some lease =>
    simp only [Option.map_some]
    split <;> rfl

theorem closeAll_leaseByWork (workId leaseId : String) :
    (t.closeAll closes closed).leaseByWork.get? workId = some leaseId ↔ t.leaseByWork.get? workId = some leaseId ∧
        ∀ id lease, t.leases.get? id = some lease → closes lease = true → lease.workId ≠ workId := by
  unfold closeAll
  rw [closeEach_leaseByWork]
  split
  · next hclosed =>
    obtain ⟨⟨id, lease⟩, hmem, hcloses, hwork⟩ := hclosed
    constructor
    · intro h
      cases h
    · rintro ⟨_, hnone⟩
      exact absurd hwork (hnone id lease (InsertionDict.get?_of_mem_entries hmem) hcloses)
  · next hopen =>
    constructor
    · intro hindex
      refine ⟨hindex, ?_⟩
      intro id lease hget hcloses hwork
      exact hopen ⟨(id, lease), InsertionDict.mem_entries_of_get? hget, hcloses, hwork⟩
    · exact fun h => h.1

end DeviceTables

/-! ## The changes -/

/-- The lease that `complete_work` writes. -/
def DeviceLeaseRecord.completed (lease : DeviceLeaseRecord) (now : Datetime) : DeviceLeaseRecord where
  leaseId := lease.leaseId
  workId := lease.workId
  deviceId := lease.deviceId
  status := .completed
  leasedAt := lease.leasedAt
  expiresAt := lease.expiresAt
  completedAt := some now
  revision := lease.revision + 1

def DeviceRecord.beat (device : DeviceRecord) (now : Datetime) : DeviceRecord :=
  { device with status := .online, lastHeartbeatAt := some now, revision := device.revision + 1 }

def DeviceRecord.revoked (device : DeviceRecord) (now : Datetime) : DeviceRecord :=
  { device with status := .revoked, revokedAt := some now, revision := device.revision + 1 }

structure Authentic (t : DeviceTables) (deviceId : String) (device : DeviceRecord) : Prop where
  stored : t.devices.get? deviceId = some device
  live : device.status ≠ .revoked

inductive TablesChange (t : DeviceTables) : DeviceAction → DeviceTables → Prop
  | none (a : DeviceAction) : TablesChange t a t
  | codes (a : DeviceAction) (pendingCodes : InsertionDict String PendingRegistration) :
      TablesChange t a { t with pendingCodes := pendingCodes }
  | registered {code name : String} {capabilities : Finset String} {maxConcurrent : ℤ} {env : Supply}
      (pendingCodes : InsertionDict String PendingRegistration) (device : DeviceRecord)
      (hstatus : device.status = .offline) :
      TablesChange t (.tables (.registerDevice code name capabilities maxConcurrent) env)
        { t with pendingCodes := pendingCodes, devices := t.devices.set ((env.sub 2).newId "dev") device }
  | beat {deviceId token : String} {env : Supply} {device : DeviceRecord} (hauth : Authentic t deviceId device) :
      TablesChange t (.tables (.heartbeat deviceId token) env)
        { t with devices := t.devices.set deviceId (device.beat env.utcNow) }
  | revoked {ownerUserId deviceId : String} {env : Supply} {device : DeviceRecord}
      (hget : t.devices.get? deviceId = some device) :
      TablesChange t (.tables (.revokeDevice ownerUserId deviceId) env)
        (({ t with devices := t.devices.set deviceId (device.revoked env.utcNow) } : DeviceTables).closeAll
          (fun lease => lease.deviceId = deviceId ∧ lease.status = .active) DeviceLeaseRecord.released)
  | leased (workId deviceId : String) (ttlSeconds : ℤ) (env : Supply) (expiresAt : Datetime) :
      TablesChange t (.tables (.recordLease workId deviceId ttlSeconds) env)
        { t with leases := t.leases.set (env.newId "lease") (.new env workId deviceId expiresAt),
                 leaseByWork := t.leaseByWork.set workId (env.newId "lease") }
  | renewed {deviceId token leaseId : String} {ttlSeconds : ℤ} {env : Supply} {device : DeviceRecord}
      {lease : DeviceLeaseRecord} (hauth : Authentic t deviceId device) (hget : t.leases.get? leaseId = some lease)
      (hdevice : lease.deviceId = deviceId) (hactive : lease.status = .active) (expiresAt : Datetime) :
      TablesChange t (.tables (.renewLease deviceId token leaseId ttlSeconds) env)
        { t with leases := t.leases.set leaseId (lease.renewed expiresAt) }
  | completed {env : Supply} {deviceId token leaseId : String} {device : DeviceRecord} {lease : DeviceLeaseRecord}
      (hauth : Authentic t deviceId device) (hget : t.leases.get? leaseId = some lease)
      (hdevice : lease.deviceId = deviceId) (hactive : lease.status = .active) :
      TablesChange t (.service (.completeLease env deviceId token leaseId))
        { t with leases := t.leases.set leaseId (lease.completed env.utcNow),
                 leaseByWork := t.leaseByWork.erase lease.workId }
  | swept (env : Supply) :
      TablesChange t (.tables .sweepExpiredLeases env)
        (t.closeAll (fun lease => lease.isExpired env.utcNow) DeviceLeaseRecord.expired)

namespace DeviceTables

open EStateM

variable {hashDeviceToken : String → String} {t : DeviceTables}

theorem ends_authenticate (deviceId token : String) : Ends (authenticate hashDeviceToken deviceId token) t
      (fun device t' => t' = t ∧ Authentic t deviceId device) fun _ t' => t' = t := by
  unfold authenticate
  apply Ends.bind (Q := fun found t' => found = t ∧ t' = t)
  · exact ⟨rfl, rfl⟩
  · rintro found t' ⟨rfl, rfl⟩
    cases hget : t'.devices.get? deviceId with
    | none => exact ends_throw rfl
    | some device =>
      apply Ends.bind (Q := fun _ s => s = t' ∧ device.status ≠ .revoked)
      · apply ends_ofExcept
        · intro u hu
          refine ⟨rfl, ?_⟩
          unfold verifyToken at hu
          intro hrevoked
          rw [if_pos hrevoked] at hu
          cases hu
        · exact fun _ _ => rfl
      · rintro u s ⟨rfl, hlive⟩
        exact ends_pure ⟨rfl, hget, hlive⟩

variable (env : Supply)

theorem change_issueRegistrationCode (ownerUserId : String) :
    TablesChange t (.tables (.issueRegistrationCode ownerUserId) env)
      ((issueRegistrationCode env ownerUserId).run t).state := .codes _ _

theorem change_registerDevice (code name : String) (capabilities : Finset String) (maxConcurrent : ℤ) :
    TablesChange t (.tables (.registerDevice code name capabilities maxConcurrent) env)
      ((registerDevice hashDeviceToken env code name capabilities maxConcurrent).run t).state := by
  unfold registerDevice
  simp only [run_bind, run_get]
  cases hget : t.pendingCodes.get? code with
  | none => exact .none _
  | some pending =>
    by_cases hinvalid : pending.used = true ∨ (env.sub 0).utcNow > pending.expiresAt
    · simp only [hinvalid, if_true]
      exact .none _
    · simp only [hinvalid, if_false, run_bind, run_modify, run_pure, Result.state_ok]
      apply TablesChange.registered
      rfl

theorem change_heartbeat (deviceId token : String) : TablesChange t (.tables (.heartbeat deviceId token) env)
      ((heartbeat hashDeviceToken env deviceId token).run t).state := by
  apply Ends.state (P := TablesChange t (.tables (.heartbeat deviceId token) env))
  unfold heartbeat
  apply ((ends_authenticate deviceId token).mono (fun _ _ h => h) ?_).bind
  · rintro device t' ⟨rfl, hauth⟩
    exact .beat hauth
  · rintro e t' rfl
    exact .none _

theorem change_renewLease (deviceId token leaseId : String) (ttlSeconds : ℤ) :
    TablesChange t (.tables (.renewLease deviceId token leaseId ttlSeconds) env)
      ((renewLease hashDeviceToken env deviceId token leaseId ttlSeconds).run t).state := by
  apply Ends.state (P := TablesChange t (.tables (.renewLease deviceId token leaseId ttlSeconds) env))
  unfold renewLease
  apply ((ends_authenticate deviceId token).mono (fun _ _ h => h) ?_).bind
  · rintro device t' ⟨rfl, hauth⟩
    apply Ends.bind (Q := fun found s => found = t' ∧ s = t')
    · exact ⟨rfl, rfl⟩
    · rintro found s ⟨rfl, rfl⟩
      cases hget : s.leases.get? leaseId with
      | none => exact ends_throw (.none _)
      | some lease =>
        by_cases hdevice : lease.deviceId = deviceId
        · subst hdevice
          by_cases hactive : lease.status = .active
          · simp only [hactive, ne_eq, not_true_eq_false, if_false]
            cases addSeconds env.utcNow ttlSeconds with
            | ok expiresAt => exact .renewed hauth hget rfl hactive expiresAt
            | error e => exact TablesChange.none _
          · simp only [hactive, ne_eq, not_true_eq_false, not_false_eq_true, if_false, if_true]
            exact TablesChange.none _
        · simp only [hdevice, ne_eq, not_false_eq_true, if_true]
          exact TablesChange.none _
  · rintro e t' rfl
    exact .none _

theorem change_recordLease (workId deviceId : String) (ttlSeconds : ℤ) :
    TablesChange t (.tables (.recordLease workId deviceId ttlSeconds) env)
      ((recordLease env workId deviceId ttlSeconds).run t).state := by
  unfold recordLease
  cases addSeconds env.utcNow ttlSeconds with
  | ok expiresAt => exact .leased workId deviceId ttlSeconds env expiresAt
  | error e => exact .none _

/-- A completion that is accepted finds an ACTIVE lease of the device. -/
theorem ends_completeLease (deviceId token leaseId : String) :
    Ends (completeLease hashDeviceToken env deviceId token leaseId) t
      (fun workId t' => ∃ device lease, Authentic t deviceId device ∧ t.leases.get? leaseId = some lease ∧
        lease.deviceId = deviceId ∧ lease.status = .active ∧ lease.workId = workId ∧
        t' = { t with leases := t.leases.set leaseId (lease.completed env.utcNow),
                      leaseByWork := t.leaseByWork.erase lease.workId })
      fun _ t' => t' = t := by
  unfold completeLease
  apply (ends_authenticate deviceId token).bind
  rintro device t' ⟨rfl, hauth⟩
  apply Ends.bind (Q := fun found s => found = t' ∧ s = t')
  · exact ⟨rfl, rfl⟩
  · rintro found s ⟨rfl, rfl⟩
    cases hget : s.leases.get? leaseId with
    | none => exact ends_throw rfl
    | some lease =>
      by_cases hdevice : lease.deviceId = deviceId
      · subst hdevice
        by_cases hactive : lease.status = .active
        · simp only [hactive, ne_eq, not_true_eq_false, if_false]
          exact ⟨device, lease, hauth, rfl, rfl, hactive, rfl, rfl⟩
        · simp only [hactive, ne_eq, not_true_eq_false, not_false_eq_true, if_false, if_true]
          exact (rfl : s = s)
      · simp only [hdevice, ne_eq, not_false_eq_true, if_true]
        exact (rfl : s = s)

theorem change_completeLease (deviceId token leaseId : String) :
    TablesChange t (.service (.completeLease env deviceId token leaseId))
      ((completeLease hashDeviceToken env deviceId token leaseId).run t).state := by
  apply Ends.state (P := TablesChange t (.service (.completeLease env deviceId token leaseId)))
  apply (ends_completeLease env deviceId token leaseId).mono
  · rintro _ t' ⟨device, lease, hauth, hget, hdevice, hactive, _, rfl⟩
    exact .completed hauth hget hdevice hactive
  · rintro _ t' rfl
    exact .none _

theorem ends_revokeDevice (ownerUserId deviceId : String) : Ends (revokeDevice env ownerUserId deviceId) t
      (fun _ t' => ∃ device, t.devices.get? deviceId = some device ∧
        t' = ({ t with devices := t.devices.set deviceId (device.revoked env.utcNow) } : DeviceTables).closeAll
          (fun lease => lease.deviceId = deviceId ∧ lease.status = .active) DeviceLeaseRecord.released)
      fun _ t' => t' = t := by
  unfold revokeDevice
  apply Ends.bind (Q := fun found s => found = t ∧ s = t)
  · exact ⟨rfl, rfl⟩
  · rintro found s ⟨rfl, rfl⟩
    cases hget : s.devices.get? deviceId with
    | none => exact ends_throw rfl
    | some device =>
      by_cases howner : device.ownerUserId = ownerUserId
      · subst howner
        simp only [ne_eq, not_true_eq_false, if_false]
        exact ⟨device, rfl, rfl⟩
      · simp only [howner, ne_eq, not_false_eq_true, if_true]
        exact (rfl : s = s)

theorem change_revokeDevice (ownerUserId deviceId : String) :
    TablesChange t (.tables (.revokeDevice ownerUserId deviceId) env)
      ((revokeDevice env ownerUserId deviceId).run t).state := by
  apply Ends.state (P := TablesChange t (.tables (.revokeDevice ownerUserId deviceId) env))
  apply (ends_revokeDevice env ownerUserId deviceId).mono
  · rintro _ t' ⟨device, hget, rfl⟩
    exact .revoked hget
  · rintro _ t' rfl
    exact .none _

end DeviceTables

theorem tablesChange {π : Type} (ext : Externals π) (a : DeviceAction) (w : ServiceWorld π) :
    TablesChange w.devices a (ServiceWorld.deviceHandler ext a w).2.devices := by
  cases a with
  | service a =>
    cases a with
    | completeLease env deviceId token leaseId => exact DeviceTables.change_completeLease env deviceId token leaseId
    | takeReplan workId maxReplans =>
      simp only [ServiceWorld.deviceHandler, ServiceWorld.handler, ServiceWorld.takeReplan]
      split <;> exact .none _
    | _ => exact .none _
  | tables op env =>
    cases op with
    | issueRegistrationCode ownerUserId => exact DeviceTables.change_issueRegistrationCode env ownerUserId
    | registerDevice code name capabilities maxConcurrent =>
      exact DeviceTables.change_registerDevice env code name capabilities maxConcurrent
    | heartbeat deviceId token => exact DeviceTables.change_heartbeat env deviceId token
    | revokeDevice ownerUserId deviceId => exact DeviceTables.change_revokeDevice env ownerUserId deviceId
    | authenticate deviceId token =>
      have hsame : (((DeviceOp.authenticate deviceId token).exec ext.hashDeviceToken env).run w.devices).state =
          w.devices := by
        apply EStateM.Ends.state (P := fun t => t = w.devices)
        exact (DeviceTables.ends_authenticate deviceId token).mono (fun _ _ h => h.1) fun _ _ h => h
      simp only [ServiceWorld.deviceHandler, hsame]
      exact .none _
    | recordLease workId deviceId ttlSeconds => exact DeviceTables.change_recordLease env workId deviceId ttlSeconds
    | renewLease deviceId token leaseId ttlSeconds =>
      exact DeviceTables.change_renewLease env deviceId token leaseId ttlSeconds
    | sweepExpiredLeases => exact .swept env

end AllTomorrow
