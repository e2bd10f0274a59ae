import AllTomorrow.LeaseIndex
import AllTomorrow.PostgresDevices

/-!
# Revoked devices

`revoke_device` marks the device and releases its leases in one request. A call that has
authenticated before and writes afterwards undoes a part of this: in both services a claim
writes its lease without looking at the device again, and on PostgreSQL a heartbeat writes
the status as well.
-/

namespace AllTomorrow

open Prog

/-! ## In memory -/

namespace DeviceTables

def Revoked (t : DeviceTables) (d : String) : Prop := ∃ device, t.devices.get? d = some device ∧ device.status = .revoked

def NoneActive (t : DeviceTables) (d : String) : Prop :=
  ∀ id lease, t.leases.get? id = some lease → lease.deviceId = d → lease.status ≠ .active

end DeviceTables

/-- The request does not undo a revocation: a lease is written for a device that is not revoked, and a
new device has a new identifier. -/
def RespectsRevocation (t : DeviceTables) : DeviceAction → Prop
  | .tables (.recordLease _ d _) _ => ¬t.Revoked d
  | .tables (.registerDevice ..) env => t.devices.get? ((env.sub 2).newId "dev") = none
  | _ => True

section Memory

variable {t t' : DeviceTables} {a : DeviceAction} {d : String}

variable {closed : DeviceLeaseRecord → DeviceLeaseRecord} {closes : DeviceLeaseRecord → Bool}

theorem revoked_closeAll : (t.closeAll closes closed).Revoked d ↔ t.Revoked d := by
  unfold DeviceTables.Revoked
  rw [DeviceTables.closeAll_devices]

theorem revoked_set_of_ne {k : String} (device : DeviceRecord) (h : t.Revoked d) (hne : d ≠ k) :
    ∃ found, (t.devices.set k device).get? d = some found ∧ found.status = .revoked := by
  rw [t.devices.get?_set_of_ne device hne]
  exact h

theorem Authentic.ne_of_revoked {k : String} {device : DeviceRecord} (hauth : Authentic t k device) (h : t.Revoked d) :
    d ≠ k := by
  rintro rfl
  obtain ⟨found, hfound, hrevoked⟩ := h
  rw [hauth.stored, Option.some.injEq] at hfound
  exact hauth.live (hfound ▸ hrevoked)

theorem TablesChange.staysRevoked (hchange : TablesChange t a t') (hrespects : RespectsRevocation t a) (h : t.Revoked d) :
    t'.Revoked d := by
  cases hchange with
  | registered pendingCodes device hstatus =>
    apply revoked_set_of_ne device h
    rintro rfl
    obtain ⟨found, hfound, _⟩ := h
    have hfresh : t.devices.get? _ = Option.none := hrespects
    rw [hfresh] at hfound
    cases hfound
  | beat hauth => exact revoked_set_of_ne _ h (hauth.ne_of_revoked h)
  | @revoked _ k env device hget =>
    rw [revoked_closeAll]
    by_cases hk : d = k
    · subst hk
      exact ⟨_, InsertionDict.get?_set_self _ _ _, rfl⟩
    · exact revoked_set_of_ne _ h hk
  | swept => exact revoked_closeAll.mpr h
  | _ => exact h

theorem noneActive_closeAll (hclosed : ∀ lease, (closed lease).status ≠ .active)
    (hrest : ∀ id lease, t.leases.get? id = some lease → lease.deviceId = d → lease.status = .active →
      closes lease = true) : (t.closeAll closes closed).NoneActive d := by
  intro id lease' hget' hdevice
  rw [DeviceTables.closeAll_leases, Option.map_eq_some_iff] at hget'
  obtain ⟨lease, hget, rfl⟩ := hget'
  by_cases hc : closes lease = true
  · rw [if_pos hc]
    exact hclosed lease
  · rw [if_neg hc] at hdevice ⊢
    exact fun hactive => hc (hrest id lease hget hdevice hactive)

theorem noneActive_set {id : String} {lease : DeviceLeaseRecord} {leaseByWork : InsertionDict String String}
    (h : t.NoneActive d) (hlease : lease.deviceId = d → lease.status ≠ .active) :
    ({ t with leases := t.leases.set id lease, leaseByWork := leaseByWork } : DeviceTables).NoneActive d := by
  intro k found hfound
  change (t.leases.set id lease).get? k = some found at hfound
  rcases t.leases.get?_set_cases id lease k with ⟨_, hset⟩ | ⟨_, hset⟩
  · rw [hset, Option.some.injEq] at hfound
    exact hfound ▸ hlease
  · exact h k found (hset.symm.trans hfound)

/-- No lease of a revoked device becomes ACTIVE again. -/
theorem TablesChange.noneActive (hchange : TablesChange t a t') (hrespects : RespectsRevocation t a)
    (hrevoked : t.Revoked d) (h : t.NoneActive d) : t'.NoneActive d := by
  cases hchange with
  | revoked =>
    apply noneActive_closeAll
    · exact fun lease => (released_closed lease).2.1
    · exact fun id lease hget hdevice hactive => absurd hactive (h id lease hget hdevice)
  | leased workId k ttlSeconds env =>
    apply noneActive_set h
    intro hk
    change k = d at hk
    exact absurd hrevoked (hk ▸ hrespects)
  | renewed hauth hget hdevice hactive =>
    apply noneActive_set h
    intro hk
    exact absurd (hk.symm.trans hdevice) (hauth.ne_of_revoked hrevoked)
  | completed hauth hget hdevice hactive =>
    apply noneActive_set h
    intro _ hcompleted
    cases hcompleted
  | swept =>
    apply noneActive_closeAll
    · exact fun lease => (expired_closed lease).2.1
    · exact fun id lease hget hdevice hactive => absurd hactive (h id lease hget hdevice)
  | _ => exact h

end Memory

/-! ## On PostgreSQL -/

namespace DeviceDatabase

def Revoked (db : DeviceDatabase) (d : String) : Prop := ∃ device, db.devices.get? d = some device ∧ device.status = .revoked

def NoneActive (db : DeviceDatabase) (d : String) : Prop :=
  ∀ id lease, db.deviceLeases.get? id = some lease → lease.deviceId = d → lease.status ≠ .active

end DeviceDatabase

/-- The statement does not undo a revocation: a lease is written, and a heartbeat noted, for a device
that is not revoked. -/
def RespectsRevocationSql (db : DeviceDatabase) : PgDeviceAction → Prop
  | .tables (.insertLease _ _ d _) _ => ¬db.Revoked d
  | .tables (.beat d) _ => ¬db.Revoked d
  | _ => True

inductive SqlChange (db : DeviceDatabase) : PgDeviceAction → DeviceDatabase → Prop
  | none (a : PgDeviceAction) : SqlChange db a db
  | codes (a : PgDeviceAction) (codes : KeyedTable PendingRegistration.code) :
      SqlChange db a { db with deviceRegistrationCodes := codes }
  | registered (a : PgDeviceAction) (codes : KeyedTable PendingRegistration.code) (device : DeviceRecord)
      (hfresh : db.devices.get? device.deviceId = none) :
      SqlChange db a { db with deviceRegistrationCodes := codes, devices := db.devices.put device }
  | beat {d : String} {env : Supply} {device : DeviceRecord} (hget : db.devices.get? d = some device) :
      SqlChange db (.tables (.beat d) env) { db with devices := db.devices.put (device.beat env.utcNow) }
  | revoked {ownerUserId d : String} {env : Supply} {device : DeviceRecord} (hget : db.devices.get? d = some device) :
      SqlChange db (.tables (.revokeDevice ownerUserId d) env)
        { db with
          devices := db.devices.put (device.revoked env.utcNow)
          deviceLeases := db.deviceLeases.updateWhere (fun lease => lease.deviceId = d ∧ lease.status = .active)
            DeviceDatabase.released }
  | leased {leaseId workId d : String} {expiresAt : Datetime} {env : Supply} (lease : DeviceLeaseRecord)
      (hdevice : lease.deviceId = d) :
      SqlChange db (.tables (.insertLease leaseId workId d expiresAt) env)
        { db with deviceLeases := db.deviceLeases.put lease }
  | renewed (a : PgDeviceAction) {leaseId : String} {lease updated : DeviceLeaseRecord}
      (hget : db.deviceLeases.get? leaseId = some lease) (hactive : lease.status = .active)
      (hdevice : updated.deviceId = lease.deviceId) :
      SqlChange db a { db with deviceLeases := db.deviceLeases.put updated }
  | completed (a : PgDeviceAction) {lease : DeviceLeaseRecord} (hstatus : lease.status ≠ .active) :
      SqlChange db a { db with deviceLeases := db.deviceLeases.put lease }
  | swept (now : Datetime) (a : PgDeviceAction) :
      SqlChange db a { db with
        deviceLeases := db.deviceLeases.updateWhere (fun lease => lease.isExpired now) DeviceDatabase.expired }

section Postgres

variable {db db' : DeviceDatabase} {a : PgDeviceAction} {d : String} {devices : KeyedTable DeviceRecord.deviceId}

theorem revoked_put_of_ne {device : DeviceRecord}
    (h : ∃ found, devices.get? d = some found ∧ found.status = .revoked) (hne : d ≠ device.deviceId) :
    ∃ found, (devices.put device).get? d = some found ∧ found.status = .revoked := by
  rw [KeyedTable.get?_put, if_neg hne]
  exact h

theorem SqlChange.staysRevoked (hchange : SqlChange db a db') (hrespects : RespectsRevocationSql db a)
    (h : db.Revoked d) : db'.Revoked d := by
  cases hchange with
  | registered a codes device hfresh =>
    apply revoked_put_of_ne h
    rintro rfl
    obtain ⟨found, hfound, _⟩ := h
    rw [hfresh] at hfound
    cases hfound
  | @beat k env device hget =>
    apply revoked_put_of_ne h
    intro hk
    have hkey : device.deviceId = k := KeyedTable.key_of_get? hget
    change d = device.deviceId at hk
    exact hrespects (hkey ▸ hk ▸ h)
  | @revoked _ k env device hget =>
    by_cases hk : d = device.deviceId
    · refine ⟨device.revoked env.utcNow, ?_, rfl⟩
      exact (db.devices.get?_put _ d).trans (if_pos hk)
    · exact revoked_put_of_ne h hk
  | _ => exact h

theorem noneActive_put {lease : DeviceLeaseRecord} (h : db.NoneActive d)
    (hlease : lease.deviceId = d → lease.status ≠ .active) :
    ({ db with deviceLeases := db.deviceLeases.put lease } : DeviceDatabase).NoneActive d := by
  intro k found hfound
  change (db.deviceLeases.put lease).get? k = some found at hfound
  rw [KeyedTable.get?_put] at hfound
  split at hfound
  · cases hfound
    exact hlease
  · exact h k found hfound

theorem noneActive_updateWhere {matching : DeviceLeaseRecord → Bool}
    {f : DeviceLeaseRecord → DeviceLeaseRecord}
    (hclosed : ∀ lease, (f lease).leaseId = lease.leaseId ∧ (f lease).status ≠ .active)
    (hrest : ∀ id lease, db.deviceLeases.get? id = some lease → lease.deviceId = d → lease.status = .active →
      matching lease = true) :
    ({ db with devices := devices, deviceLeases := db.deviceLeases.updateWhere matching f } :
      DeviceDatabase).NoneActive d := by
  intro id lease' hget' hdevice
  change (db.deviceLeases.updateWhere matching f).get? id = some lease' at hget'
  rw [KeyedTable.get?_updateWhere _ fun lease => (hclosed lease).1, Option.map_eq_some_iff] at hget'
  obtain ⟨lease, hget, rfl⟩ := hget'
  by_cases hm : matching lease = true
  · rw [if_pos hm]
    exact (hclosed lease).2
  · rw [if_neg hm] at hdevice ⊢
    exact fun hactive => hm (hrest id lease hget hdevice hactive)

variable (lease : DeviceLeaseRecord)

theorem pgReleased_closed :
    (DeviceDatabase.released lease).leaseId = lease.leaseId ∧ (DeviceDatabase.released lease).status ≠ .active := by
  simp [DeviceDatabase.released]

theorem pgExpired_closed :
    (DeviceDatabase.expired lease).leaseId = lease.leaseId ∧ (DeviceDatabase.expired lease).status ≠ .active := by
  simp [DeviceDatabase.expired]

theorem SqlChange.noneActive (hchange : SqlChange db a db') (hrespects : RespectsRevocationSql db a)
    (hrevoked : db.Revoked d) (h : db.NoneActive d) : db'.NoneActive d := by
  cases hchange with
  | revoked =>
    apply noneActive_updateWhere pgReleased_closed
    exact fun id lease hget hdevice hactive => absurd hactive (h id lease hget hdevice)
  | leased lease hdevice =>
    apply noneActive_put h
    intro hk
    exact absurd hrevoked (hk ▸ hdevice ▸ hrespects)
  | @renewed a leaseId lease updated hget hactive hdevice =>
    apply noneActive_put h
    intro hk
    exact absurd hactive (h leaseId lease hget (hdevice.symm.trans hk))
  | completed a hstatus => exact noneActive_put h fun _ => hstatus
  | swept now a =>
    apply noneActive_updateWhere pgExpired_closed
    exact fun id lease hget hdevice hactive => absurd hactive (h id lease hget hdevice)
  | _ => exact h

/-- A revocation that is accepted finds the device. -/
theorem revokeDevice_ok {now : Datetime} {ownerUserId k : String} {u : Unit}
    (h : DeviceDatabase.revokeDevice now ownerUserId k db = .ok (u, db')) :
    ∃ device, db.devices.get? k = some device ∧
      db' = { db with
        devices := db.devices.put (device.revoked now)
        deviceLeases := db.deviceLeases.updateWhere (fun lease => lease.deviceId = k ∧ lease.status = .active)
          DeviceDatabase.released } := by
  obtain ⟨_, _, h⟩ := except_bind_ok.mp h
  cases hget : db.devices.get? k with
  | none =>
    rw [hget] at h
    cases h
  | some device =>
    rw [hget] at h
    dsimp only at h
    split at h
    · cases h
    · obtain ⟨_, _, h⟩ := except_bind_ok.mp h
      obtain ⟨_, _, h⟩ := except_bind_ok.mp h
      cases h
      exact ⟨device, rfl, rfl⟩

/-- A statement that does not raise makes one of the changes. -/
theorem sqlChange_exec {hashDeviceToken : String → String} {env : Supply} (op : PgDeviceOp) {result : op.Result}
    (h : op.exec hashDeviceToken env db = .ok (result, db')) : SqlChange db (.tables op env) db' := by
  cases op with
  | insertCode code ownerUserId expiresAt =>
    obtain ⟨_, _, h⟩ := except_bind_ok.mp h
    obtain ⟨_, _, h⟩ := except_bind_ok.mp h
    cases h
    exact .codes _ _
  | registerDevice code name capabilities maxConcurrent =>
    obtain ⟨_, _, h⟩ := except_bind_ok.mp h
    cases hget : db.deviceRegistrationCodes.get? code with
    | none =>
      rw [hget] at h
      cases h
    | some pending =>
      rw [hget] at h
      dsimp only at h
      split at h
      · cases h
      · obtain ⟨_, _, h⟩ := except_bind_ok.mp h
        obtain ⟨_, _, h⟩ := except_bind_ok.mp h
        obtain ⟨_, _, h⟩ := except_bind_ok.mp h
        obtain ⟨_, hfresh, h⟩ := except_bind_ok.mp h
        rw [uniqueConstraint_ok, KeyedTable.contains_eq_false_iff] at hfresh
        cases h
        exact .registered _ _ _ hfresh
  | loadDevice k =>
    obtain ⟨_, _, h⟩ := except_bind_ok.mp h
    cases h
    exact .none _
  | beat k =>
    obtain ⟨_, _, h⟩ := except_bind_ok.mp h
    cases hget : db.devices.get? k with
    | none =>
      rw [hget] at h
      cases h
      exact .none _
    | some device =>
      rw [hget] at h
      obtain ⟨_, _, h⟩ := except_bind_ok.mp h
      cases h
      exact .beat hget
  | revokeDevice ownerUserId k =>
    obtain ⟨device, hget, rfl⟩ := revokeDevice_ok h
    exact .revoked hget
  | insertLease leaseId workId k expiresAt =>
    obtain ⟨_, _, h⟩ := except_bind_ok.mp h
    obtain ⟨_, _, h⟩ := except_bind_ok.mp h
    obtain ⟨_, _, h⟩ := except_bind_ok.mp h
    obtain ⟨_, _, h⟩ := except_bind_ok.mp h
    cases h
    exact .leased _ rfl
  | renewLease leaseId k expiresAt =>
    obtain ⟨_, _, h⟩ := except_bind_ok.mp h
    cases hget : db.deviceLeases.get? leaseId with
    | none =>
      rw [hget] at h
      cases h
      exact .none _
    | some lease =>
      rw [hget] at h
      dsimp only at h
      split at h
      · next hlease =>
        obtain ⟨_, _, h⟩ := except_bind_ok.mp h
        cases h
        exact .renewed _ hget hlease.2 rfl
      · cases h
        exact .none _
  | completeLease leaseId k =>
    obtain ⟨_, _, h⟩ := except_bind_ok.mp h
    cases hget : db.deviceLeases.get? leaseId with
    | none =>
      rw [hget] at h
      cases h
    | some lease =>
      rw [hget] at h
      dsimp only at h
      split at h
      · cases h
      · split at h
        · cases h
        · obtain ⟨_, _, h⟩ := except_bind_ok.mp h
          cases h
          exact .completed _ (by simp)
  | sweepExpiredLeases =>
    obtain ⟨_, _, h⟩ := except_bind_ok.mp h
    cases h
    exact .swept _ _

theorem sqlChange {σ : Type} (hashDeviceToken : String → String)
    (outside : Prog.Handler ServiceAction ServiceAction.Answer σ) (a : PgDeviceAction) (w : PgDeviceWorld σ) :
    SqlChange w.db a (PgDeviceWorld.handler hashDeviceToken outside a w).2.db := by
  cases a with
  | service a => exact .none _
  | tables op env =>
    cases hexec : op.exec hashDeviceToken env w.db with
    | ok r =>
      simp only [PgDeviceWorld.handler, hexec]
      exact sqlChange_exec op hexec
    | error e =>
      simp only [PgDeviceWorld.handler, hexec]
      exact .none _

end Postgres

/-! ## Interleavings -/

section Interleavings

variable {ι π σ : Type} [DecidableEq ι]

/-- The next request of client `i` does not undo a revocation. -/
def NotOvertaken (p : DevicePool ι π) (i : ι) : Prop :=
  ∀ a rest, p.threads i = .act a rest → RespectsRevocation p.state.devices a

/-- The next request of client `i` revokes the device and is accepted. -/
def CommitsRevocation (p : DevicePool ι π) (i : ι) (d : String) : Prop :=
  ∃ ownerUserId env rest, p.threads i = .act (.tables (.revokeDevice ownerUserId d) env) rest ∧
    ∃ device, ((DeviceTables.revokeDevice env ownerUserId d).run p.state.devices).outcome = .ok device

/-- From the revocation on the device is REVOKED, and when the calls that had begun before have ended it
holds no ACTIVE lease. -/
def RevocationFinal (ext : Externals π) (start : DevicePool ι π) (schedule : List ι) : Prop :=
  MachineRuns.FinalSince (deviceStep ext) CommitsRevocation (fun d p => p.state.devices.Revoked d)
    (fun d p => p.state.devices.NoneActive d) (fun p j => ∃ r, p.threads j = .done r) start schedule

/-- The next statement of client `i` does not undo a revocation. -/
def NotOvertakenSql (p : PgDevicePool ι σ) (i : ι) : Prop :=
  ∀ a rest, p.threads i = .act a rest → RespectsRevocationSql p.state.db a

def CommitsRevocationSql (p : PgDevicePool ι σ) (i : ι) (d : String) : Prop :=
  ∃ ownerUserId env rest, p.threads i = .act (.tables (.revokeDevice ownerUserId d) env) rest ∧
    ∃ u db, DeviceDatabase.revokeDevice env.utcNow ownerUserId d p.state.db = .ok (u, db)

abbrev pgDeviceStep (hashDeviceToken : String → String) (outside : Prog.Handler ServiceAction ServiceAction.Answer σ) :
    PgDevicePool ι σ → ι → PgDevicePool ι σ := Pool.step (PgDeviceWorld.handler hashDeviceToken outside)

/-- `RevocationFinal` on the tables of PostgreSQL. -/
def RevocationFinalSql (hashDeviceToken : String → String)
    (outside : Prog.Handler ServiceAction ServiceAction.Answer σ) (start : PgDevicePool ι σ) (schedule : List ι) : Prop :=
  MachineRuns.FinalSince (pgDeviceStep hashDeviceToken outside) CommitsRevocationSql (fun d p => p.state.db.Revoked d)
    (fun d p => p.state.db.NoneActive d) (fun p j => ∃ r, p.threads j = .done r) start schedule

variable {ext : Externals π} {hashDeviceToken : String → String}
  {outside : Prog.Handler ServiceAction ServiceAction.Answer σ} {i : ι} {d : String}

theorem revoked_of_commits {p : DevicePool ι π} (h : CommitsRevocation p i d) :
    (deviceStep ext p i).state.devices.Revoked d ∧ (deviceStep ext p i).state.devices.NoneActive d := by
  obtain ⟨ownerUserId, env, rest, hthread, device, hok⟩ := h
  have hstate : (deviceStep ext p i).state.devices =
      ((DeviceTables.revokeDevice env ownerUserId d).run p.state.devices).state := by
    rw [deviceStep, (Pool.step_act hthread).2]
    rfl
  have hends := DeviceTables.ends_revokeDevice (t := p.state.devices) env ownerUserId d
  unfold EStateM.Ends at hends
  rw [hstate]
  change ((DeviceTables.revokeDevice env ownerUserId d) p.state.devices).outcome = .ok device at hok
  change ((DeviceTables.revokeDevice env ownerUserId d) p.state.devices).state.Revoked d ∧
    ((DeviceTables.revokeDevice env ownerUserId d) p.state.devices).state.NoneActive d
  cases hrun : DeviceTables.revokeDevice env ownerUserId d p.state.devices with
  | error e t =>
    rw [hrun] at hok
    cases hok
  | ok found t =>
    rw [hrun] at hends
    obtain ⟨stored, hget, rfl⟩ := hends
    constructor
    · exact revoked_closeAll.mpr ⟨_, InsertionDict.get?_set_self _ _ _, rfl⟩
    · apply noneActive_closeAll
      · exact fun lease => (released_closed lease).2.1
      · exact fun id lease _ hdevice hactive => decide_eq_true ⟨hdevice, hactive⟩

theorem keeps_revoked {p : DevicePool ι π} (hstep : NotOvertaken p i)
    (h : p.state.devices.Revoked d ∧ p.state.devices.NoneActive d) :
    (deviceStep ext p i).state.devices.Revoked d ∧ (deviceStep ext p i).state.devices.NoneActive d := by
  rcases deviceStep_cases ext p i with hsame | ⟨a, rest, hstepped⟩
  · rwa [hsame]
  · have hrespects := hstep a rest hstepped.thread
    exact ⟨hstepped.change.staysRevoked hrespects h.1, hstepped.change.noneActive hrespects h.1 h.2⟩

variable {p : PgDevicePool ι σ}

theorem revoked_of_commitsSql (h : CommitsRevocationSql p i d) :
    (pgDeviceStep hashDeviceToken outside p i).state.db.Revoked d ∧
      (pgDeviceStep hashDeviceToken outside p i).state.db.NoneActive d := by
  obtain ⟨ownerUserId, env, rest, hthread, u, db, hok⟩ := h
  have hexec : (PgDeviceOp.revokeDevice ownerUserId d).exec hashDeviceToken env p.state.db = .ok (u, db) := hok
  have hstate : (pgDeviceStep hashDeviceToken outside p i).state.db = db := by
    rw [pgDeviceStep, (Pool.step_act hthread).2]
    simp only [PgDeviceWorld.handler, hexec]
  rw [hstate]
  obtain ⟨device, hget, rfl⟩ := revokeDevice_ok hok
  constructor
  · have hkey : device.deviceId = d := KeyedTable.key_of_get? hget
    exact ⟨device.revoked env.utcNow, (p.state.db.devices.get?_put _ d).trans (if_pos hkey.symm), rfl⟩
  · apply noneActive_updateWhere pgReleased_closed
    exact fun id lease _ hdevice hactive => decide_eq_true ⟨hdevice, hactive⟩

theorem keeps_revokedSql (hstep : NotOvertakenSql p i)
    (h : p.state.db.Revoked d ∧ p.state.db.NoneActive d) :
    (pgDeviceStep hashDeviceToken outside p i).state.db.Revoked d ∧
      (pgDeviceStep hashDeviceToken outside p i).state.db.NoneActive d := by
  cases hthread : p.threads i with
  | done r => rwa [pgDeviceStep, Pool.step_done hthread]
  | act a rest =>
    have hrespects := hstep a rest hthread
    have hchange := sqlChange hashDeviceToken outside a p.state
    rw [pgDeviceStep, (Pool.step_act hthread).2]
    exact ⟨hchange.staysRevoked hrespects h.1, hchange.noneActive hrespects h.1 h.2⟩

/-- In every interleaving in which no request overtakes a revocation, revocation is final. -/
theorem revocation_final (ext : Externals π) (clients : DeviceClients ι) (world : ServiceWorld π)
    (hashDeviceToken : String → String) (outside : Prog.Handler ServiceAction ServiceAction.Answer σ)
    (pgClients : PgDeviceClients ι) (pgWorld : PgDeviceWorld σ) (schedule : List ι) :
    (MachineRuns.EveryStep (deviceStep ext) NotOvertaken (clients.pool world) schedule →
        RevocationFinal ext (clients.pool world) schedule) ∧
      (MachineRuns.EveryStep (pgDeviceStep hashDeviceToken outside) NotOvertakenSql
          (pgClients.pool hashDeviceToken pgWorld) schedule →
        RevocationFinalSql hashDeviceToken outside (pgClients.pool hashDeviceToken pgWorld) schedule) := by
  constructor
  · apply MachineRuns.finalSince_of_everyStep
    · exact fun p i d h => revoked_of_commits h
    · exact fun p i d hstep h => keeps_revoked hstep h
  · apply MachineRuns.finalSince_of_everyStep
    · exact fun p i d h => revoked_of_commitsSql h
    · exact fun p i d hstep h => keeps_revokedSql hstep h

end Interleavings

def claimAndRevoke : DeviceClients Bool where
  call b := if b then .claimWork "dev_1" "t" defaultLeaseTtlSeconds else .revokeDevice "u1" "dev_1"
  env _ := frozenSupply

def beatAndRevoke : PgDeviceClients Bool where
  call b := if b then .heartbeat "dev_1" "t" else .revokeDevice "u1" "dev_1"
  env _ := frozenSupply

def pgDeviceWorld : PgDeviceWorld (ServiceWorld Unit) where
  db := { DeviceDatabase.empty with devices := KeyedTable.empty.put sampleDevice }
  outside := sampleWorld pendingStore

/-- The revocation falls between the authentication and the write of the other call: in memory the claim
ends with an ACTIVE lease, on PostgreSQL the heartbeat makes the device ONLINE again. -/
theorem revocation_overtaken :
    ¬RevocationFinal (sampleExternals none (.ok "h")) (claimAndRevoke.pool (deviceWorld pendingStore))
        [true, true, false, true] ∧
      ¬RevocationFinalSql id (ServiceWorld.handler (sampleExternals none (.ok "h")))
        (beatAndRevoke.pool id pgDeviceWorld) [true, false, true] := by
  constructor
  · intro h
    obtain ⟨_, hsettled⟩ := h [true, true] false [true] [] "dev_1" rfl ⟨"u1", frozenSupply, _, rfl, _, rfl⟩
    have hnone := hsettled (by
      intro j hj
      rw [List.eq_of_mem_replicate (n := 2) hj]
      exact ⟨_, rfl⟩)
    exact hnone "lease_0" _ rfl rfl rfl
  · intro h
    obtain ⟨⟨device, hget, hrevoked⟩, _⟩ :=
      h [true] false [true] [] "dev_1" rfl ⟨"u1", frozenSupply.sub 0, _, rfl, _, _, rfl⟩
    cases hget
    cases hrevoked

/-- The claim and the heartbeat end before the revocation. -/
theorem revocation_final_in_order :
    RevocationFinal (sampleExternals none (.ok "h")) (claimAndRevoke.pool (deviceWorld pendingStore))
        [true, true, true, false] ∧
      RevocationFinalSql id (ServiceWorld.handler (sampleExternals none (.ok "h")))
        (beatAndRevoke.pool id pgDeviceWorld) [true, true, true, false] := by
  obtain ⟨hmemory, hpostgres⟩ := revocation_final (sampleExternals none (.ok "h")) claimAndRevoke
    (deviceWorld pendingStore) id (ServiceWorld.handler (sampleExternals none (.ok "h"))) beatAndRevoke pgDeviceWorld
    [true, true, true, false]
  constructor
  · apply hmemory
    simp only [MachineRuns.everyStep_cons]
    refine ⟨?_, ?_, ?_, ?_, MachineRuns.everyStep_nil⟩
    all_goals
      intro a rest h
      cases h
    · trivial
    · trivial
    · rintro ⟨device, hget, hrevoked⟩
      cases hget
      cases hrevoked
    · trivial
  · apply hpostgres
    simp only [MachineRuns.everyStep_cons]
    refine ⟨?_, ?_, ?_, ?_, MachineRuns.everyStep_nil⟩
    all_goals
      intro a rest h
      cases h
    · trivial
    · rintro ⟨device, hget, hrevoked⟩
      cases hget
      cases hrevoked
    · trivial
    · trivial

end AllTomorrow
