import AllTomorrow.DeviceTableChanges
import AllTomorrow.CycleOutcome

/-!
# The index of the leases

`_lease_by_work` and the ACTIVE leases agree in every state of every interleaving. That a Work
has at most one ACTIVE lease is not checked by the service: the store hands a Work out once,
and a Work that was handed out is never PENDING again.
-/

namespace AllTomorrow

open Prog

/-! ## One request -/

/-- The index has exactly the ACTIVE leases, and exactly the EXPIRED ones are ambiguous. -/
structure LeaseIndex (t : DeviceTables) : Prop where
  index : ∀ workId leaseId, t.leaseByWork.get? workId = some leaseId ↔
    ∃ lease, t.leases.get? leaseId = some lease ∧ lease.workId = workId ∧ lease.status = .active
  ambiguous : ∀ leaseId lease, t.leases.get? leaseId = some lease →
    (lease.ambiguousSideEffect = true ↔ lease.status = .expired)

def DeviceAction.Records (a : DeviceAction) (leaseId workId deviceId : String) : Prop :=
  ∃ ttlSeconds env, a = .tables (.recordLease workId deviceId ttlSeconds) env ∧ leaseId = env.newId "lease"

/-- A new lease has a new identifier and is the only ACTIVE one of its Work. -/
def RecordsFresh (t : DeviceTables) (a : DeviceAction) : Prop :=
  ∀ leaseId workId deviceId, a.Records leaseId workId deviceId → t.leases.get? leaseId = none ∧
    ∀ id lease, t.leases.get? id = some lease → lease.workId = workId → lease.status ≠ .active

/-- Leases stay, with their Works, and one that is not ACTIVE keeps its status. -/
def LeasesKept (t t' : DeviceTables) : Prop :=
  ∀ id lease, t.leases.get? id = some lease → ∃ lease', t'.leases.get? id = some lease' ∧
    lease'.workId = lease.workId ∧ (lease.status ≠ .active → lease'.status = lease.status)

variable {t t' : DeviceTables} {a : DeviceAction}

theorem LeasesKept.refl (t : DeviceTables) : LeasesKept t t := fun _ lease h => ⟨lease, h, rfl, fun _ => rfl⟩

theorem LeaseIndex.unique (h : LeaseIndex t) {id id' : String} {lease lease' : DeviceLeaseRecord}
    (hget : t.leases.get? id = some lease) (hget' : t.leases.get? id' = some lease')
    (hwork : lease.workId = lease'.workId) (hactive : lease.status = .active) (hactive' : lease'.status = .active) :
    id = id' := by
  have hindex := (h.index lease'.workId id).mpr ⟨lease, hget, hwork, hactive⟩
  rw [(h.index lease'.workId id').mpr ⟨lease', hget', rfl, hactive'⟩, Option.some.injEq] at hindex
  exact hindex.symm

section Closing

variable {closes : DeviceLeaseRecord → Bool} {closed : DeviceLeaseRecord → DeviceLeaseRecord}
  (hcloses : ∀ lease, closes lease = true → lease.status = .active)
  (hclosed : ∀ lease, (closed lease).workId = lease.workId ∧ (closed lease).status ≠ .active ∧
    ((closed lease).ambiguousSideEffect = true ↔ (closed lease).status = .expired))

include hcloses hclosed

/-- A loop that closes ACTIVE leases takes their Works out of the index. -/
theorem LeaseIndex.closeAll (h : LeaseIndex t) : LeaseIndex (t.closeAll closes closed) := by
  constructor
  · intro workId leaseId
    rw [DeviceTables.closeAll_leaseByWork, h.index]
    constructor
    · rintro ⟨⟨lease, hget, hwork, hactive⟩, hopen⟩
      have hstays : ¬closes lease = true := fun hc => hopen leaseId lease hget hc hwork
      refine ⟨lease, ?_, hwork, hactive⟩
      rw [DeviceTables.closeAll_leases, hget, Option.map_some, if_neg hstays]
    · rintro ⟨lease', hget', hwork, hactive⟩
      rw [DeviceTables.closeAll_leases, Option.map_eq_some_iff] at hget'
      obtain ⟨lease, hget, rfl⟩ := hget'
      by_cases hc : closes lease = true
      · rw [if_pos hc] at hactive
        exact absurd hactive (hclosed lease).2.1
      · rw [if_neg hc] at hwork hactive
        refine ⟨⟨lease, hget, hwork, hactive⟩, ?_⟩
        intro id other hother hc' hsame
        have hid := h.unique hother hget (hsame.trans hwork.symm) (hcloses other hc') hactive
        subst hid
        rw [hget, Option.some.injEq] at hother
        exact hc (hother ▸ hc')
  · intro leaseId lease' hget'
    rw [DeviceTables.closeAll_leases, Option.map_eq_some_iff] at hget'
    obtain ⟨lease, hget, rfl⟩ := hget'
    split
    · exact (hclosed lease).2.2
    · exact h.ambiguous leaseId lease hget

theorem leasesKept_closeAll (t : DeviceTables) : LeasesKept t (t.closeAll closes closed) := by
  intro id lease hget
  refine ⟨if closes lease then closed lease else lease, ?_, ?_, ?_⟩
  · rw [DeviceTables.closeAll_leases, hget, Option.map_some]
  · split
    · exact (hclosed lease).1
    · rfl
  · intro hended
    rw [if_neg fun hc => hended (hcloses lease hc)]

end Closing

def DeviceLeaseRecord.SameTerms (lease' lease : DeviceLeaseRecord) : Prop :=
  lease'.workId = lease.workId ∧ lease'.deviceId = lease.deviceId

/-- Only a lease that is written anew is not among the old ones. -/
theorem TablesChange.origin (h : TablesChange t a t') {id : String} {lease' : DeviceLeaseRecord}
    (hget' : t'.leases.get? id = some lease') :
    (∃ lease, t.leases.get? id = some lease ∧ lease'.SameTerms lease) ∨ a.Records id lease'.workId lease'.deviceId := by
  have hset : ∀ {leaseId : String} {lease updated : DeviceLeaseRecord},
      (t.leases.set leaseId updated).get? id = some lease' → t.leases.get? leaseId = some lease →
      updated.SameTerms lease → ∃ lease, t.leases.get? id = some lease ∧ lease'.SameTerms lease := by
    intro leaseId lease updated hafter hget hterms
    rcases t.leases.get?_set_cases leaseId updated id with ⟨rfl, hset⟩ | ⟨_, hset⟩
    · rw [hset, Option.some.injEq] at hafter
      exact ⟨lease, hget, hafter ▸ hterms⟩
    · rw [hset] at hafter
      exact ⟨lease', hafter, rfl, rfl⟩
  have hclose : ∀ {u : DeviceTables} {closes : DeviceLeaseRecord → Bool} {closed : DeviceLeaseRecord → DeviceLeaseRecord},
      (u.closeAll closes closed).leases.get? id = some lease' → u.leases = t.leases →
      (∀ lease, (closed lease).SameTerms lease) →
      ∃ lease, t.leases.get? id = some lease ∧ lease'.SameTerms lease := by
    intro u closes closed hafter hsame hterms
    rw [DeviceTables.closeAll_leases, hsame, Option.map_eq_some_iff] at hafter
    obtain ⟨lease, hget, rfl⟩ := hafter
    refine ⟨lease, hget, ?_⟩
    split
    · exact hterms lease
    · exact ⟨rfl, rfl⟩
  cases h with
  | none => exact .inl ⟨lease', hget', rfl, rfl⟩
  | codes => exact .inl ⟨lease', hget', rfl, rfl⟩
  | registered => exact .inl ⟨lease', hget', rfl, rfl⟩
  | beat => exact .inl ⟨lease', hget', rfl, rfl⟩
  | revoked hget => exact .inl (hclose hget' rfl fun _ => ⟨rfl, rfl⟩)
  | leased workId deviceId ttlSeconds env expiresAt =>
    rcases t.leases.get?_set_cases (env.newId "lease") (.new env workId deviceId expiresAt) id with
      ⟨hid, hset⟩ | ⟨_, hset⟩
    · rw [hset, Option.some.injEq] at hget'
      subst hget'
      exact .inr ⟨ttlSeconds, env, rfl, hid⟩
    · rw [hset] at hget'
      exact .inl ⟨lease', hget', rfl, rfl⟩
  | renewed hauth hget hdevice hactive => exact .inl (hset hget' hget ⟨rfl, rfl⟩)
  | completed hauth hget hdevice hactive => exact .inl (hset hget' hget ⟨rfl, rfl⟩)
  | swept => exact .inl (hclose hget' rfl fun _ => ⟨rfl, rfl⟩)

theorem released_closed (lease : DeviceLeaseRecord) :
    lease.released.workId = lease.workId ∧ lease.released.status ≠ .active ∧
      (lease.released.ambiguousSideEffect = true ↔ lease.released.status = .expired) := by
  simp [DeviceLeaseRecord.released]

theorem expired_closed (lease : DeviceLeaseRecord) : lease.expired.workId = lease.workId ∧ lease.expired.status ≠ .active ∧
      (lease.expired.ambiguousSideEffect = true ↔ lease.expired.status = .expired) := by
  simp [DeviceLeaseRecord.expired]

variable {lease : DeviceLeaseRecord}

theorem isExpired_active {now : Datetime} (h : lease.isExpired now = true) : lease.status = .active := by
  unfold DeviceLeaseRecord.isExpired at h
  exact (of_decide_eq_true h).1

theorem leasesKept_set {leaseId : String} {lease updated : DeviceLeaseRecord}
    {leaseByWork : InsertionDict String String} (hget : t.leases.get? leaseId = some lease)
    (hactive : lease.status = .active) (hwork : updated.workId = lease.workId) :
    LeasesKept t { t with leases := t.leases.set leaseId updated, leaseByWork := leaseByWork } := by
  intro id other hother
  change ∃ lease', (t.leases.set leaseId updated).get? id = some lease' ∧ _
  rcases t.leases.get?_set_cases leaseId updated id with ⟨rfl, hset⟩ | ⟨_, hset⟩
  · rw [hget, Option.some.injEq] at hother
    subst hother
    exact ⟨updated, hset, hwork, fun hended => absurd hactive hended⟩
  · exact ⟨other, hset.trans hother, rfl, fun _ => rfl⟩

theorem TablesChange.leasesKept (h : TablesChange t a t') (hfresh : RecordsFresh t a) : LeasesKept t t' := by
  cases h with
  | none => exact .refl t
  | codes => exact .refl t
  | registered => exact .refl t
  | beat => exact .refl t
  | @revoked _ deviceId env device hget =>
    have hcloses : ∀ lease : DeviceLeaseRecord, decide (lease.deviceId = deviceId ∧ lease.status = .active) = true →
        lease.status = .active := fun lease h => (of_decide_eq_true h).2
    exact leasesKept_closeAll hcloses released_closed
      { t with devices := t.devices.set deviceId (device.revoked env.utcNow) }
  | leased workId deviceId ttlSeconds env expiresAt =>
    intro id lease hget
    refine ⟨lease, ?_, rfl, fun _ => rfl⟩
    have hne : id ≠ env.newId "lease" := by
      rintro rfl
      rw [(hfresh _ workId deviceId ⟨ttlSeconds, env, rfl, rfl⟩).1] at hget
      cases hget
    exact (t.leases.get?_set_of_ne _ hne).trans hget
  | renewed hauth hget hdevice hactive => exact leasesKept_set hget hactive rfl
  | completed hauth hget hdevice hactive => exact leasesKept_set hget hactive rfl
  | swept =>
    apply leasesKept_closeAll
    · exact fun lease hcloses => isExpired_active hcloses
    · exact expired_closed

theorem LeaseIndex.renewed (h : LeaseIndex t) {leaseId : String} (expiresAt : Datetime)
    (hget : t.leases.get? leaseId = some lease) (hactive : lease.status = .active) :
    LeaseIndex { t with leases := t.leases.set leaseId (lease.renewed expiresAt) } := by
  constructor
  · intro workId id
    change t.leaseByWork.get? workId = some id ↔
      ∃ l, (t.leases.set leaseId (lease.renewed expiresAt)).get? id = some l ∧ _
    rw [h.index]
    rcases t.leases.get?_set_cases leaseId (lease.renewed expiresAt) id with ⟨rfl, hset⟩ | ⟨_, hset⟩
    · rw [hset, hget]
      simp [DeviceLeaseRecord.renewed, hactive]
    · rw [hset]
  · intro id l hl
    change (t.leases.set leaseId (lease.renewed expiresAt)).get? id = some l at hl
    rcases t.leases.get?_set_cases leaseId (lease.renewed expiresAt) id with ⟨rfl, hset⟩ | ⟨_, hset⟩
    · rw [hset, Option.some.injEq] at hl
      subst hl
      simp [DeviceLeaseRecord.renewed]
    · exact h.ambiguous id l (hset.symm.trans hl)

theorem LeaseIndex.completed (h : LeaseIndex t) {leaseId : String} (now : Datetime)
    (hget : t.leases.get? leaseId = some lease) (hactive : lease.status = .active) :
    LeaseIndex { t with leases := t.leases.set leaseId (lease.completed now),
                        leaseByWork := t.leaseByWork.erase lease.workId } := by
  constructor
  · intro workId id
    change (t.leaseByWork.erase lease.workId).get? workId = some id ↔
      ∃ l, (t.leases.set leaseId (lease.completed now)).get? id = some l ∧ _
    rw [InsertionDict.get?_erase]
    rcases t.leases.get?_set_cases leaseId (lease.completed now) id with ⟨rfl, hset⟩ | ⟨hne, hset⟩
    · rw [hset]
      constructor
      · intro hindex
        split at hindex
        · cases hindex
        · next hother =>
          obtain ⟨l, hl, hwork, _⟩ := (h.index workId id).mp hindex
          rw [hget, Option.some.injEq] at hl
          exact absurd (hl ▸ hwork).symm hother
      · rintro ⟨l, hl, _, hl'⟩
        rw [Option.some.injEq] at hl
        subst hl
        cases hl'
    · rw [hset]
      constructor
      · intro hindex
        split at hindex
        · cases hindex
        · exact (h.index workId id).mp hindex
      · rintro ⟨l, hl, hwork, hl'⟩
        have hother : workId ≠ lease.workId := by
          intro hsame
          exact hne (h.unique hl hget (hwork.trans hsame) hl' hactive)
        rw [if_neg hother]
        exact (h.index workId id).mpr ⟨l, hl, hwork, hl'⟩
  · intro id l hl
    change (t.leases.set leaseId (lease.completed now)).get? id = some l at hl
    rcases t.leases.get?_set_cases leaseId (lease.completed now) id with ⟨rfl, hset⟩ | ⟨_, hset⟩
    · rw [hset, Option.some.injEq] at hl
      subst hl
      simp [DeviceLeaseRecord.completed]
    · exact h.ambiguous id l (hset.symm.trans hl)

theorem LeaseIndex.leased (h : LeaseIndex t) {workId deviceId : String} {ttlSeconds : ℤ} {env : Supply}
    (hfresh : RecordsFresh t (.tables (.recordLease workId deviceId ttlSeconds) env)) (expiresAt : Datetime) :
    LeaseIndex { t with leases := t.leases.set (env.newId "lease") (.new env workId deviceId expiresAt),
                        leaseByWork := t.leaseByWork.set workId (env.newId "lease") } := by
  obtain ⟨hnew, hnone⟩ := hfresh _ workId deviceId ⟨ttlSeconds, env, rfl, rfl⟩
  constructor
  · intro k id
    change (t.leaseByWork.set workId (env.newId "lease")).get? k = some id ↔
      ∃ l, (t.leases.set (env.newId "lease") (.new env workId deviceId expiresAt)).get? id = some l ∧ _
    rcases t.leaseByWork.get?_set_cases workId (env.newId "lease") k with ⟨rfl, hindex⟩ | ⟨hk, hindex⟩
    · rw [hindex]
      constructor
      · intro hid
        rw [Option.some.injEq] at hid
        subst hid
        exact ⟨_, InsertionDict.get?_set_self _ _ _, rfl, rfl⟩
      · rintro ⟨l, hl, hwork, hactive⟩
        rcases t.leases.get?_set_cases (env.newId "lease") (.new env k deviceId expiresAt) id with
          ⟨hid, _⟩ | ⟨_, hset⟩
        · rw [hid]
        · rw [hset] at hl
          exact absurd hactive (hnone id l hl hwork)
    · rw [hindex, h.index]
      rcases t.leases.get?_set_cases (env.newId "lease") (.new env workId deviceId expiresAt) id with
        ⟨hid, hset⟩ | ⟨_, hset⟩
      · rw [hset, hid, hnew]
        constructor
        · rintro ⟨l, hl, _⟩
          cases hl
        · rintro ⟨l, hl, hwork, _⟩
          rw [Option.some.injEq] at hl
          subst hl
          exact absurd hwork.symm hk
      · rw [hset]
  · intro id l hl
    change (t.leases.set (env.newId "lease") (.new env workId deviceId expiresAt)).get? id = some l at hl
    rcases t.leases.get?_set_cases (env.newId "lease") (.new env workId deviceId expiresAt) id with
      ⟨_, hset⟩ | ⟨_, hset⟩
    · rw [hset, Option.some.injEq] at hl
      subst hl
      simp [DeviceLeaseRecord.new]
    · exact h.ambiguous id l (hset.symm.trans hl)

theorem TablesChange.leaseIndex (hchange : TablesChange t a t') (h : LeaseIndex t) (hfresh : RecordsFresh t a) :
    LeaseIndex t' := by
  cases hchange with
  | none => exact h
  | codes => exact ⟨h.index, h.ambiguous⟩
  | registered => exact ⟨h.index, h.ambiguous⟩
  | beat => exact ⟨h.index, h.ambiguous⟩
  | revoked hget =>
    apply LeaseIndex.closeAll
    · exact fun lease hcloses => (of_decide_eq_true hcloses).2
    · exact released_closed
    · exact ⟨h.index, h.ambiguous⟩
  | leased workId deviceId ttlSeconds env expiresAt => exact h.leased hfresh expiresAt
  | renewed hauth hget hdevice hactive expiresAt => exact h.renewed expiresAt hget hactive
  | completed hauth hget hdevice hactive => exact h.completed _ hget hactive
  | swept =>
    apply h.closeAll
    · exact fun lease hcloses => isExpired_active hcloses
    · exact expired_closed

/-! ## The stages of a claim -/

abbrev DeviceProg := Prog DeviceAction DeviceAction.Answer (Except Exn Unit)

def recording (env : Supply) (deviceId : String) (ttlSeconds : ℤ) (work : WorkRecord) : DeviceProg :=
  .act (.tables (.recordLease work.workId.val deviceId ttlSeconds) (env.sub 2)) fun answer =>
    match answer with
    | .ok _ => .done (.ok ())
    | .error e => .done (.error e)

def claiming (env : Supply) (deviceId : String) (ttlSeconds : ℤ) : DeviceProg :=
  .act (.service (.store (.claimPendingWork 1) (env.sub 1))) fun answer =>
    match answer with
    | .ok [] => .done (.ok ())
    | .ok (work :: _) => recording env deviceId ttlSeconds work
    | .error e => .done (.error e)

theorem run_claimWork (env : Supply) (deviceId token : String) (ttlSeconds : ℤ) :
    ((DeviceCall.claimWork deviceId token ttlSeconds).task env).run =
      .act (.tables (.authenticate deviceId token) (env.sub 0)) fun answer =>
        match answer with
        | .ok _ => claiming env deviceId ttlSeconds
        | .error e => .done (.error e) := by
  refine congrArg (Prog.act (DeviceAction.tables (.authenticate deviceId token) (env.sub 0))) ?_
  funext answer
  cases answer with
  | error e => rfl
  | ok device =>
    refine congrArg (Prog.act (DeviceAction.service (.store (.claimPendingWork 1) (env.sub 1)))) ?_
    funext answer
    rcases answer with e | ⟨_ | ⟨work, rest⟩⟩
    · rfl
    · rfl
    · refine congrArg (Prog.act (DeviceAction.tables (.recordLease work.workId.val deviceId ttlSeconds) (env.sub 2))) ?_
      funext answer
      cases answer <;> rfl

/-- Where a client stands: a claim is at one of its three requests or has ended, and no other call
writes a new lease. -/
def StageOf (env : Supply) (q : DeviceProg) : DeviceCall → Prop
  | .claimWork deviceId token ttlSeconds =>
    q = ((DeviceCall.claimWork deviceId token ttlSeconds).task env).run ∨ q = claiming env deviceId ttlSeconds ∨
      (∃ work, q = recording env deviceId ttlSeconds work) ∨ ∃ r, q = .done r
  | _ => OnlyRequests (fun a => ∀ leaseId workId deviceId, ¬a.Records leaseId workId deviceId) q

theorem stageOf_start (call : DeviceCall) (env : Supply) : StageOf env (call.task env).run call := by
  have hquiet : ∀ op : DeviceOp, (∀ workId deviceId ttlSeconds, op ≠ .recordLease workId deviceId ttlSeconds) →
      OnlyRequests (fun a => ∀ leaseId workId deviceId, ¬a.Records leaseId workId deviceId)
        (callTables op env >>= fun _ => pure ()).run := by
    intro op hop
    refine ⟨?_, fun answer => by cases answer <;> trivial⟩
    rintro leaseId workId deviceId ⟨ttlSeconds, env', heq, _⟩
    cases heq
    exact hop _ _ _ rfl
  cases call with
  | claimWork deviceId token ttlSeconds => exact .inl rfl
  | service call =>
    apply onlyRequests_relabel
    rintro a leaseId workId deviceId ⟨ttlSeconds, env', heq, _⟩
    cases heq
  | issueRegistrationCode ownerUserId => exact hquiet _ (by simp)
  | registerDevice code name capabilities maxConcurrent => exact hquiet _ (by simp)
  | heartbeat deviceId token => exact hquiet _ (by simp)
  | revokeDevice ownerUserId deviceId => exact hquiet _ (by simp)
  | renewLease deviceId token leaseId ttlSeconds => exact hquiet _ (by simp)
  | sweepExpiredLeases => exact hquiet _ (by simp)

/-- One request later the client is at a later stage. -/
theorem StageOf.answered {env : Supply} {call : DeviceCall} {rest : a.Answer → DeviceProg}
    (h : StageOf env (.act a rest) call) (r : a.Answer) : StageOf env (rest r) call := by
  cases call with
  | claimWork deviceId token ttlSeconds =>
    rcases h with h | h | ⟨work, h⟩ | ⟨_, h⟩
    · rw [run_claimWork] at h
      cases h
      cases r with
      | ok device => exact .inr (.inl rfl)
      | error e => exact .inr (.inr (.inr ⟨_, rfl⟩))
    · cases h
      rcases r with e | ⟨_ | ⟨work, others⟩⟩
      · exact .inr (.inr (.inr ⟨_, rfl⟩))
      · exact .inr (.inr (.inr ⟨_, rfl⟩))
      · exact .inr (.inr (.inl ⟨work, rfl⟩))
    · cases h
      cases r with
      | ok lease => exact .inr (.inr (.inr ⟨_, rfl⟩))
      | error e => exact .inr (.inr (.inr ⟨_, rfl⟩))
    · cases h
  | _ => exact h.2 r

/-! ## Interleavings -/

section Interleavings

variable {ι π : Type} (clients : DeviceClients ι)

/-- The identifier that client `i` draws for a lease. -/
def DeviceClients.leaseId (i : ι) : String := ((clients.env i).sub 2).newId "lease"

/-- Client `i` was handed the Work and has not yet written the lease. -/
def Holds (p : DevicePool ι π) (i : ι) (work : WorkRecord) : Prop :=
  ∃ deviceId ttlSeconds, p.threads i = recording (clients.env i) deviceId ttlSeconds work

/-- The Works of the leases, and those that are about to be leased, were all handed out, each one once. -/
structure LeasesClaimed (p : DevicePool ι π) : Prop where
  wellFormed : p.state.store.WellFormed
  stage : ∀ i, StageOf (clients.env i) (p.threads i) (clients.call i)
  index : LeaseIndex p.state.devices
  started : ∀ id lease, p.state.devices.leases.get? id = some lease → Started ⟨lease.workId⟩ p.state.store
  unused : ∀ i, (∀ r, p.threads i ≠ .done r) → p.state.devices.leases.get? (clients.leaseId i) = none
  held : ∀ i work, Holds clients p i work → Started work.workId p.state.store ∧
    ∀ id lease, p.state.devices.leases.get? id = some lease → lease.workId ≠ work.workId.val
  distinct : ∀ i j work work', Holds clients p i work → Holds clients p j work' → i ≠ j → work.workId ≠ work'.workId

variable {clients} {p : DevicePool ι π} {i : ι}

variable {rest : a.Answer → DeviceProg}

/-- A request that writes a lease comes from a claim that was handed its Work. -/
theorem LeasesClaimed.holds_of_records (h : LeasesClaimed clients p) (hthread : p.threads i = .act a rest) {leaseId workId deviceId : String}
    (hrecords : a.Records leaseId workId deviceId) :
    (∃ work, Holds clients p i work ∧ workId = work.workId.val) ∧ leaseId = clients.leaseId i ∧
      ∀ r, ∃ r', rest r = .done r' := by
  have hstage := h.stage i
  rw [hthread] at hstage
  obtain ⟨ttlSeconds, env, rfl, rfl⟩ := hrecords
  unfold Holds
  cases hcall : clients.call i with
  | claimWork deviceId' token ttlSeconds' =>
    rw [hcall] at hstage
    rcases hstage with hstage | hstage | ⟨work, hstage⟩ | ⟨_, hstage⟩
    · rw [run_claimWork] at hstage
      cases hstage
    · cases hstage
    · rw [hthread, hstage]
      cases hstage
      refine ⟨⟨work, ⟨deviceId, ttlSeconds, rfl⟩, rfl⟩, rfl, ?_⟩
      intro r
      cases r <;> exact ⟨_, rfl⟩
    · cases hstage
  | _ =>
    rw [hcall] at hstage
    exact absurd ⟨ttlSeconds, env, rfl, rfl⟩ (hstage.1 _ _ deviceId)

theorem LeasesClaimed.recordsFresh (h : LeasesClaimed clients p)
    (hthread : p.threads i = .act a rest) : RecordsFresh p.state.devices a := by
  intro leaseId workId deviceId hrecords
  obtain ⟨⟨work, hholds, rfl⟩, rfl, _⟩ := h.holds_of_records hthread hrecords
  constructor
  · apply h.unused i
    intro r hr
    rw [hthread] at hr
    cases hr
  · intro id lease hget hwork
    exact absurd hwork ((h.held i work hholds).2 id lease hget)

def DeviceAction.onStore : DeviceAction → InMemoryStore → InMemoryStore
  | .service a, s => a.onStore s
  | .tables .., s => s

variable (ext : Externals π)

theorem deviceHandler_store (a : DeviceAction) (w : ServiceWorld π) :
    (ServiceWorld.deviceHandler ext a w).2.store = a.onStore w.store := by
  cases a with
  | service a => exact handler_store ext a w
  | tables op env => rfl

theorem deviceOnStore_cases (a : DeviceAction) (s : InMemoryStore) :
    a.onStore s = s ∨ ∃ c : StoreCall, a = .service (.store c.op c.env) ∧ a.onStore s = storeStep s c := by
  cases a with
  | service a =>
    rcases onStore_cases a s with hsame | ⟨c, rfl, hcall⟩
    · exact .inl hsame
    · exact .inr ⟨c, rfl, hcall⟩
  | tables op env => exact .inl rfl

variable {s : InMemoryStore}

theorem deviceOnStore_keeps {I : InMemoryStore → Prop} (hI : ∀ s c, I s → I (storeStep s c)) (a : DeviceAction) (hs : I s) : I (a.onStore s) := by
  cases a with
  | service a => exact onStore_keeps hI a hs
  | tables op env => exact hs

theorem started_onStore {k : WorkId} (a : DeviceAction) (hs : s.WellFormed) (h : Started k s) : Started k (a.onStore s) :=
  (deviceOnStore_keeps (I := fun s => s.WellFormed ∧ Started k s)
    (fun s c hs => ⟨wellFormed_step s c hs.1, started_step c hs.1 hs.2⟩) a ⟨hs, h⟩).2

/-- A client that holds a Work now and did not before has just been handed it. -/
theorem LeasesClaimed.handed (h : LeasesClaimed clients p) (ext : Externals π) (hthread : p.threads i = .act a rest) {deviceId : String} {ttlSeconds : ℤ}
    {work : WorkRecord}
    (hnow : rest (ServiceWorld.deviceHandler ext a p.state).1 = recording (clients.env i) deviceId ttlSeconds work) :
    ¬Started work.workId p.state.store ∧ Started work.workId (a.onStore p.state.store) ∧
      (ServiceWorld.deviceHandler ext a p.state).2.devices = p.state.devices := by
  have hstage := h.stage i
  rw [hthread] at hstage
  cases hcall : clients.call i with
  | claimWork deviceId' token ttlSeconds' =>
    rw [hcall] at hstage
    rcases hstage with hstage | hstage | ⟨work', hstage⟩ | ⟨_, hstage⟩
    · rw [run_claimWork] at hstage
      cases hstage
      generalize (ServiceWorld.deviceHandler ext (.tables (.authenticate deviceId' token) ((clients.env i).sub 0))
        p.state).1 = answer at hnow
      cases answer <;> cases hnow
    · cases hstage
      have hanswer : (ServiceWorld.deviceHandler ext (.service (.store (.claimPendingWork 1) ((clients.env i).sub 1)))
          p.state).1 = .ok (handedOut p.state.store ⟨.claimPendingWork 1, (clients.env i).sub 1⟩) :=
        outcome_claim p.state.store 1 _
      rw [hanswer] at hnow
      cases hhanded : handedOut p.state.store ⟨.claimPendingWork 1, (clients.env i).sub 1⟩ with
      | nil =>
        rw [hhanded] at hnow
        cases hnow
      | cons work' others =>
        rw [hhanded] at hnow
        have hsame : work'.workId = work.workId := by
          injection hnow with haction _
          injection haction with hop _
          injection hop with hworkId _ _
          rw [← WorkId.mk.injEq work'.workId.val work.workId.val] at hworkId
          exact hworkId
        obtain ⟨⟨v, hv, hget, hpending, _⟩, hrunning, hafter⟩ :=
          handedOut_taken h.wellFormed (hhanded ▸ List.mem_cons_self : work' ∈ handedOut p.state.store _)
        rw [← hsame]
        refine ⟨?_, ⟨work', hafter, by rw [hrunning]; decide⟩, rfl⟩
        rintro ⟨u, hu, hstarted⟩
        rw [← hv, hget, Option.some.injEq] at hu
        exact hstarted (hu ▸ hpending)
    · cases hstage
      generalize (ServiceWorld.deviceHandler ext (.tables (.recordLease work'.workId.val deviceId' ttlSeconds')
        ((clients.env i).sub 2)) p.state).1 = answer at hnow
      cases answer <;> cases hnow
    · cases hstage
  | _ =>
    rw [hcall] at hstage
    have hquiet := hstage.2 (ServiceWorld.deviceHandler ext a p.state).1
    rw [hnow] at hquiet
    exact absurd ⟨ttlSeconds, _, rfl, rfl⟩ (hquiet.1 _ work.workId.val deviceId)

theorem not_holds_start (clients : DeviceClients ι) (world : ServiceWorld π) (i : ι) (work : WorkRecord) :
    ¬Holds clients (clients.pool world) i work := by
  rintro ⟨deviceId, ttlSeconds, hthread⟩
  have hstage := stageOf_start (clients.call i) (clients.env i)
  change ((clients.call i).task (clients.env i)).run = _ at hthread
  cases hcall : clients.call i with
  | claimWork deviceId' token ttlSeconds' =>
    rw [hcall, run_claimWork] at hthread
    cases hthread
  | _ =>
    rw [hthread, hcall] at hstage
    exact absurd ⟨ttlSeconds, _, rfl, rfl⟩ (hstage.1 _ work.workId.val deviceId)

def leaselessWorld (world : ServiceWorld π) : ServiceWorld π :=
  { world with devices := { world.devices with leases := .empty, leaseByWork := .empty } }

theorem leasesClaimed_start (clients : DeviceClients ι) {world : ServiceWorld π} (hstore : StoreReachable world.store) :
    LeasesClaimed clients (clients.pool (leaselessWorld world)) where
  wellFormed := hstore.wellFormed
  stage i := stageOf_start (clients.call i) (clients.env i)
  index := by
    constructor
    · intro workId leaseId
      constructor
      · intro h
        cases h
      · rintro ⟨lease, h, _⟩
        cases h
    · intro leaseId lease h
      cases h
  started id lease h := by cases h
  unused i _ := rfl
  held i work h := absurd h (not_holds_start clients _ i work)
  distinct i j work work' h := absurd h (not_holds_start clients _ i work)

variable [DecidableEq ι]

/-- Client `i` makes the request `a`. -/
structure DeviceStepped (ext : Externals π) (p : DevicePool ι π) (i : ι) (a : DeviceAction)
    (rest : a.Answer → DeviceProg) : Prop where
  thread : p.threads i = .act a rest
  self : (deviceStep ext p i).threads i = rest (ServiceWorld.deviceHandler ext a p.state).1
  other : ∀ j, j ≠ i → (deviceStep ext p i).threads j = p.threads j
  state : (deviceStep ext p i).state = (ServiceWorld.deviceHandler ext a p.state).2
  store : (deviceStep ext p i).state.store = a.onStore p.state.store
  change : TablesChange p.state.devices a (deviceStep ext p i).state.devices

theorem deviceStepped (hthread : p.threads i = .act a rest) : DeviceStepped ext p i a rest := by
  obtain ⟨hself, hstate⟩ := Pool.step_act (h := ServiceWorld.deviceHandler ext) hthread
  refine ⟨hthread, hself, fun j hj => Pool.step_other p hj.symm, hstate, ?_, ?_⟩
  · rw [deviceStep, hstate]
    exact deviceHandler_store ext a p.state
  · rw [deviceStep, hstate]
    exact tablesChange ext a p.state

theorem deviceStep_cases (p : DevicePool ι π) (i : ι) : deviceStep ext p i = p ∨ ∃ a rest, DeviceStepped ext p i a rest := by
  cases hthread : p.threads i with
  | done r => exact .inl (Pool.step_done hthread)
  | act a rest => exact .inr ⟨a, rest, deviceStepped ext hthread⟩

theorem reachable_deviceStep (p : DevicePool ι π) (i : ι) (h : StoreReachable p.state.store) :
    StoreReachable (deviceStep ext p i).state.store := by
  rcases deviceStep_cases ext p i with hsame | ⟨a, rest, hstep⟩
  · rwa [hsame]
  · rw [hstep.store]
    exact deviceOnStore_keeps (fun _ c hs => hs.next c) a h

theorem leasesClaimed_step (hids : Function.Injective clients.leaseId) (i : ι)
    (h : LeasesClaimed clients p) : LeasesClaimed clients (deviceStep ext p i) := by
  rcases deviceStep_cases ext p i with hsame | ⟨a, rest, hthread, hself, hother, hstate, hstore, hchange⟩
  · rw [hsame]
    exact h
  · have hfresh := h.recordsFresh hthread
    have hstarted : ∀ k, Started k p.state.store → Started k (deviceStep ext p i).state.store := by
      intro k hk
      rw [hstore]
      exact started_onStore a h.wellFormed hk
    -- a Work that is held now was held before, or was just handed out
    have hholds : ∀ j work, Holds clients (deviceStep ext p i) j work → (j ≠ i ∧ Holds clients p j work) ∨
        (j = i ∧ ¬Started work.workId p.state.store ∧ Started work.workId (deviceStep ext p i).state.store ∧
          (deviceStep ext p i).state.devices = p.state.devices) := by
      rintro j work ⟨deviceId, ttlSeconds, hj⟩
      by_cases hji : j = i
      · subst hji
        rw [hself] at hj
        obtain ⟨hbefore, hafter, hsame⟩ := h.handed ext hthread hj
        rw [← hstore] at hafter
        rw [← hstate] at hsame
        exact .inr ⟨rfl, hbefore, hafter, hsame⟩
      · rw [hother j hji] at hj
        exact .inl ⟨hji, deviceId, ttlSeconds, hj⟩
    refine ⟨?_, ?_, hchange.leaseIndex h.index hfresh, ?_, ?_, ?_, ?_⟩
    · rw [hstore]
      exact deviceOnStore_keeps wellFormed_step a h.wellFormed
    · intro j
      by_cases hji : j = i
      · subst hji
        have hstage := h.stage j
        rw [hthread] at hstage
        rw [hself]
        exact hstage.answered _
      · rw [hother j hji]
        exact h.stage j
    · intro id lease' hget'
      rcases hchange.origin hget' with ⟨lease, hget, hwork, _⟩ | hrecords
      · rw [hwork]
        exact hstarted _ (h.started id lease hget)
      · obtain ⟨⟨work, hholds, hwork⟩, _, _⟩ := h.holds_of_records hthread hrecords
        rw [hwork]
        exact hstarted _ (h.held i work hholds).1
    · intro j hj
      by_contra hused
      obtain ⟨lease', hget'⟩ := Option.ne_none_iff_exists'.mp hused
      rcases hchange.origin hget' with ⟨lease, hget, _, _⟩ | hrecords
      · have hopen : ∀ r, p.threads j ≠ .done r := by
          intro r hr
          by_cases hji : j = i
          · subst hji
            rw [hthread] at hr
            cases hr
          · exact hj r ((hother j hji).trans hr)
        rw [h.unused j hopen] at hget
        cases hget
      · obtain ⟨_, hid, hdone⟩ := h.holds_of_records hthread hrecords
        have hji := hids hid
        subst hji
        obtain ⟨r', hr'⟩ := hdone (ServiceWorld.deviceHandler ext a p.state).1
        exact hj r' (hself.trans hr')
    · intro j work hj
      rcases hholds j work hj with ⟨hji, hbefore⟩ | ⟨rfl, hbefore, hafter, hsame⟩
      · obtain ⟨hwork, hnone⟩ := h.held j work hbefore
        refine ⟨hstarted _ hwork, ?_⟩
        intro id lease' hget'
        rcases hchange.origin hget' with ⟨lease, hget, hsame, _⟩ | hrecords
        · rw [hsame]
          exact hnone id lease hget
        · obtain ⟨⟨other, hother, hwork'⟩, _, _⟩ := h.holds_of_records hthread hrecords
          intro hclash
          apply h.distinct j i work other hbefore hother hji
          exact congrArg WorkId.mk (hclash.symm.trans hwork')
      · refine ⟨hafter, ?_⟩
        rw [hsame]
        intro id lease hget hclash
        apply hbefore
        have hleased := h.started id lease hget
        rwa [hclash] at hleased
    · intro j k work work' hj hk hjk hclash
      rcases hholds j work hj with ⟨hji, hj'⟩ | ⟨rfl, hnew, _, _⟩
      · rcases hholds k work' hk with ⟨hki, hk'⟩ | ⟨rfl, hnew, _, _⟩
        · exact h.distinct j k work work' hj' hk' hjk hclash
        · exact hnew (hclash ▸ (h.held j work hj').1)
      · rcases hholds k work' hk with ⟨hki, hk'⟩ | ⟨rfl, _, _, _⟩
        · exact hnew (hclash.symm ▸ (h.held k work' hk').1)
        · exact hjk rfl

theorem leasesClaimed_run (hids : Function.Injective clients.leaseId) (h : LeasesClaimed clients p)
    (schedule : List ι) : LeasesClaimed clients (MachineRuns.run (deviceStep ext) p schedule) :=
  MachineRuns.invariant_run (fun q i hq => leasesClaimed_step (p := q) ext hids i hq) h schedule

theorem leasesKept_step (h : LeasesClaimed clients p) (i : ι) :
    LeasesKept p.state.devices (deviceStep ext p i).state.devices := by
  rcases deviceStep_cases ext p i with hsame | ⟨a, rest, hstep⟩
  · rw [hsame]
    exact .refl _
  · exact hstep.change.leasesKept (h.recordsFresh hstep.thread)

theorem leasesKept_run (hids : Function.Injective clients.leaseId) (h : LeasesClaimed clients p) (schedule : List ι) :
    LeasesKept p.state.devices (MachineRuns.run (deviceStep ext) p schedule).state.devices := by
  apply MachineRuns.relation_run (P := fun _ _ => True)
    (R := fun q q' : DevicePool ι π => LeasesKept q.state.devices q'.state.devices)
    (fun q i hq => leasesClaimed_step (p := q) ext hids i hq) ?_ ?_ (fun q i hq _ => leasesKept_step ext hq i) h
    fun _ _ _ _ => trivial
  · exact fun q => .refl q.state.devices
  · intro a b c hab hbc id lease hget
    obtain ⟨lease', hget', hwork, hstatus⟩ := hab id lease hget
    obtain ⟨lease'', hget'', hwork', hstatus'⟩ := hbc id lease' hget'
    refine ⟨lease'', hget'', hwork'.trans hwork, ?_⟩
    intro hended
    have hsame := hstatus hended
    exact (hstatus' (hsame ▸ hended)).trans hsame

def DeviceTables.ActiveLease (t : DeviceTables) (leaseId workId : String) : Prop :=
  ∃ lease, t.leases.get? leaseId = some lease ∧ lease.workId = workId ∧ lease.status = .active

/-- A Work has one ACTIVE lease at most, and a closed lease stays closed. -/
structure LeaseLaw (ext : Externals π) (start : DevicePool ι π) (schedule : List ι) : Prop where
  /-- the index has a lease exactly if it is the only ACTIVE one of its Work -/
  index : ∀ before after, schedule = before ++ after → ∀ workId leaseId,
    (MachineRuns.run (deviceStep ext) start before).state.devices.leaseByWork.get? workId = some leaseId ↔
      (MachineRuns.run (deviceStep ext) start before).state.devices.ActiveLease leaseId workId ∧
        ∀ other, (MachineRuns.run (deviceStep ext) start before).state.devices.ActiveLease other workId →
          other = leaseId
  unique : ∀ before after, schedule = before ++ after → ∀ workId id id',
    (MachineRuns.run (deviceStep ext) start before).state.devices.ActiveLease id workId →
    (MachineRuns.run (deviceStep ext) start before).state.devices.ActiveLease id' workId → id = id'
  final : ∀ before between after, schedule = before ++ (between ++ after) → ∀ id lease,
    (MachineRuns.run (deviceStep ext) start before).state.devices.leases.get? id = some lease →
    lease.status ≠ .active → ∃ lease',
      (MachineRuns.run (deviceStep ext) start (before ++ between)).state.devices.leases.get? id = some lease' ∧
        lease'.status = lease.status
  ambiguous : ∀ before after, schedule = before ++ after → ∀ id lease,
    (MachineRuns.run (deviceStep ext) start before).state.devices.leases.get? id = some lease →
    (lease.ambiguousSideEffect = true ↔ lease.status = .expired)

/-- Whatever the clients call and in whatever order they make their requests, as long as no two of
them draw the same identifier for a lease. -/
theorem leaseLaw_run (ext : Externals π) (clients : DeviceClients ι) (world : ServiceWorld π)
    (hstore : StoreReachable world.store) (hids : Function.Injective clients.leaseId) (schedule : List ι) :
    LeaseLaw ext (clients.pool (leaselessWorld world)) schedule := by
  have hrun := leasesClaimed_run ext hids (leasesClaimed_start clients hstore)
  have hunique : ∀ before workId id id',
      (MachineRuns.run (deviceStep ext) (clients.pool (leaselessWorld world)) before).state.devices.ActiveLease id workId →
      (MachineRuns.run (deviceStep ext) (clients.pool (leaselessWorld world)) before).state.devices.ActiveLease id' workId →
      id = id' := by
    rintro before workId id id' ⟨lease, hget, hwork, hactive⟩ ⟨lease', hget', hwork', hactive'⟩
    exact (hrun before).index.unique hget hget' (hwork.trans hwork'.symm) hactive hactive'
  refine ⟨?_, fun before _ _ => hunique before, ?_, ?_⟩
  · intro before after _ workId leaseId
    rw [(hrun before).index.index]
    constructor
    · intro hlease
      exact ⟨hlease, fun other hother => hunique before workId other leaseId hother hlease⟩
    · exact fun h => h.1
  · intro before between after _ id lease hget hended
    obtain ⟨lease', hget', _, hstatus⟩ := leasesKept_run ext hids (hrun before) between id lease hget
    rw [MachineRuns.run_append]
    exact ⟨lease', hget', hstatus hended⟩
  · exact fun before _ _ id lease hget => (hrun before).index.ambiguous id lease hget

end Interleavings

def sampleDevice : DeviceRecord where
  deviceId := "dev_1"
  name := "d"
  ownerUserId := "u1"
  tokenDigest := "t"
  registeredAt := 0

def deviceWorld (store : InMemoryStore) : ServiceWorld Unit :=
  { sampleWorld store with devices := { DeviceTables.init with devices := InsertionDict.empty.set "dev_1" sampleDevice } }

def twoClaims : DeviceClients Bool where
  call _ := .claimWork "dev_1" "t" defaultLeaseTtlSeconds
  env b _ := ⟨0, if b then "1" else "2"⟩

/-- Both claims authenticate before one of them is handed the only Work. -/
theorem leaseLaw_twoClaims : StoreReachable pendingStore ∧ Function.Injective twoClaims.leaseId ∧
      LeaseLaw (sampleExternals none (.ok "h")) (twoClaims.pool (leaselessWorld (deviceWorld pendingStore)))
        [true, false, true, false, true] := by
  have hreach : StoreReachable pendingStore := ⟨pendingCalls, rfl⟩
  have hids : Function.Injective twoClaims.leaseId := by
    unfold Function.Injective
    decide
  exact ⟨hreach, hids, leaseLaw_run _ twoClaims (deviceWorld pendingStore) hreach hids _⟩

end AllTomorrow
