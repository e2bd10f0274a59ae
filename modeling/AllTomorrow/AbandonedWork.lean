import AllTomorrow.BrokenWork
import AllTomorrow.LeaseIndex
import AllTomorrow.SemanticStoreIntegrity

/-!
# Works whose lease was closed over them

A sweep and a revocation close leases and leave the Works as they are. A Work that was leased
is never PENDING again, so the only list in which it can still be found, as long as it is open,
is that of the stuck Works, and a Work that a device has claimed has no Run.
-/

namespace AllTomorrow

open EStateM (run_bind run_get)

open Prog

/-! ## Closed leases -/

def DeviceTables.LeaseClosed (t : DeviceTables) (status : LeaseStatus) (workId : String) : Prop :=
  ∃ id lease, t.leases.get? id = some lease ∧ lease.workId = workId ∧ lease.status = status

def LeaseStatus.Abandoned (status : LeaseStatus) : Prop := status = .expired ∨ status = .released

/-- The request closes a lease of the Work: an accepted revocation releases those of the device, a sweep
marks those past their time as EXPIRED. -/
def DeviceAction.Closes (t : DeviceTables) (status : LeaseStatus) (workId : String) : DeviceAction → Prop
  | .tables (.revokeDevice ownerUserId deviceId) _ =>
    status = .released ∧ (∃ device, t.devices.get? deviceId = some device ∧ device.ownerUserId = ownerUserId) ∧
      ∃ id lease, t.leases.get? id = some lease ∧ lease.workId = workId ∧ lease.deviceId = deviceId ∧
        lease.status = .active
  | .tables .sweepExpiredLeases env =>
    status = .expired ∧ ∃ id lease, t.leases.get? id = some lease ∧ lease.workId = workId ∧
      lease.isExpired env.utcNow = true
  | _ => False

theorem DeviceAction.Closes.onStore {t : DeviceTables} {status : LeaseStatus} {workId : String} {a : DeviceAction}
    (h : a.Closes t status workId) (s : InMemoryStore) : a.onStore s = s := by
  cases a with
  | service a => exact h.elim
  | tables op env => rfl

namespace DeviceTables

variable {t : DeviceTables} {status : LeaseStatus} {workId : String}

/-- A lease is written under a new identifier or in the place of an ACTIVE one. -/
theorem leaseClosed_set {leaseId : String} {updated : DeviceLeaseRecord} {leaseByWork : InsertionDict String String}
    (hstatus : status.Abandoned) (hactive : ∀ lease, t.leases.get? leaseId = some lease → lease.status = .active)
    (hupdated : ¬updated.status.Abandoned) :
    ({ t with leases := t.leases.set leaseId updated, leaseByWork := leaseByWork } : DeviceTables).LeaseClosed status
      workId ↔ t.LeaseClosed status workId := by
  unfold LeaseClosed
  change (∃ id lease, (t.leases.set leaseId updated).get? id = some lease ∧ _) ↔ _
  constructor
  · rintro ⟨id, lease, hget, hwork, hclosed⟩
    rcases t.leases.get?_set_cases leaseId updated id with ⟨_, hset⟩ | ⟨_, hset⟩
    · rw [hset, Option.some.injEq] at hget
      rw [hget, hclosed] at hupdated
      exact absurd hstatus hupdated
    · exact ⟨id, lease, hset.symm.trans hget, hwork, hclosed⟩
  · rintro ⟨id, lease, hget, hwork, hclosed⟩
    refine ⟨id, lease, ?_, hwork, hclosed⟩
    have hne : id ≠ leaseId := by
      rintro rfl
      rw [← hclosed, hactive lease hget] at hstatus
      exact absurd hstatus (by simp [LeaseStatus.Abandoned])
    exact (t.leases.get?_set_of_ne updated hne).trans hget

/-- A loop that closes ACTIVE leases with the status `final`. -/
theorem leaseClosed_closeAll {closes : DeviceLeaseRecord → Bool} {closed : DeviceLeaseRecord → DeviceLeaseRecord}
    {final : LeaseStatus} (hcloses : ∀ lease, closes lease = true → lease.status = .active)
    (hclosed : ∀ lease, (closed lease).workId = lease.workId ∧ (closed lease).status = final)
    (hstatus : status.Abandoned) (workId : String) :
    (t.closeAll closes closed).LeaseClosed status workId ↔ t.LeaseClosed status workId ∨
      (status = final ∧ ∃ id lease, t.leases.get? id = some lease ∧ lease.workId = workId ∧ closes lease = true) := by
  unfold LeaseClosed
  constructor
  · rintro ⟨id, lease', hget', hwork, hfinal⟩
    rw [closeAll_leases, Option.map_eq_some_iff] at hget'
    obtain ⟨lease, hget, rfl⟩ := hget'
    by_cases hc : closes lease = true
    · rw [if_pos hc] at hwork hfinal
      exact .inr ⟨hfinal.symm.trans (hclosed lease).2, id, lease, hget, (hclosed lease).1.symm.trans hwork, hc⟩
    · rw [if_neg hc] at hwork hfinal
      exact .inl ⟨id, lease, hget, hwork, hfinal⟩
  · rintro (⟨id, lease, hget, hwork, hended⟩ | ⟨rfl, id, lease, hget, hwork, hc⟩)
    · have hopen : ¬closes lease = true := by
        intro hc
        rw [← hended, hcloses lease hc] at hstatus
        exact absurd hstatus (by simp [LeaseStatus.Abandoned])
      refine ⟨id, lease, ?_, hwork, hended⟩
      rw [closeAll_leases, hget, Option.map_some, if_neg hopen]
    · refine ⟨id, closed lease, ?_, (hclosed lease).1.trans hwork, (hclosed lease).2⟩
      rw [closeAll_leases, hget, Option.map_some, if_pos hc]

theorem mem_swept (closes : DeviceLeaseRecord → Bool) (closed : DeviceLeaseRecord → DeviceLeaseRecord)
    (entries : List (String × DeviceLeaseRecord)) (t : DeviceTables) (workId : String) :
    workId ∈ (closeEach closes closed entries t).1 ↔ ∃ e ∈ entries, closes e.2 = true ∧ e.2.workId = workId := by
  induction entries generalizing t with
  | nil => simp [closeEach]
  | cons e entries ih =>
    unfold closeEach
    by_cases hc : closes e.2 = true
    · rw [if_pos hc, List.mem_cons, ih, List.exists_mem_cons_iff]
      refine or_congr_left ?_
      constructor
      · exact fun h => ⟨hc, h.symm⟩
      · exact fun h => h.2.symm
    · rw [if_neg hc, ih, List.exists_mem_cons_iff]
      simp [hc]

theorem leaseClosed_revokeDevice {ownerUserId deviceId : String} {env : Supply} (hstatus : status.Abandoned) :
    ((revokeDevice env ownerUserId deviceId).run t).state.LeaseClosed status workId ↔ t.LeaseClosed status workId ∨
        DeviceAction.Closes t status workId (.tables (.revokeDevice ownerUserId deviceId) env) := by
  unfold revokeDevice DeviceAction.Closes
  cases hget : t.devices.get? deviceId with
  | none => simp [hget, run_bind, run_get]
  | some device =>
    by_cases howner : device.ownerUserId = ownerUserId
    · subst howner
      simp only [run_bind, run_get, hget, ne_eq, not_true_eq_false, if_false, EStateM.run_modify,
        EStateM.run_pure, EStateM.Result.state_ok, Option.some.injEq, exists_eq_left', true_and]
      have hcloses : ∀ lease : DeviceLeaseRecord, decide (lease.deviceId = deviceId ∧ lease.status = .active) = true →
          lease.status = .active := fun lease hc => (of_decide_eq_true hc).2
      have hreleased : ∀ lease : DeviceLeaseRecord, lease.released.workId = lease.workId ∧
          lease.released.status = .released := fun lease => ⟨rfl, rfl⟩
      have hloop := leaseClosed_closeAll
        (t := { t with devices := t.devices.set deviceId (device.revoked env.utcNow) }) hcloses hreleased
        hstatus workId
      simp only [decide_eq_true_eq] at hloop
      exact hloop
    · simp [hget, howner, run_bind, run_get]

theorem leaseClosed_sweepExpiredLeases {env : Supply} (hstatus : status.Abandoned) :
    (t.closeAll (fun lease => lease.isExpired env.utcNow) DeviceLeaseRecord.expired).LeaseClosed status workId ↔
      t.LeaseClosed status workId ∨ DeviceAction.Closes t status workId (.tables .sweepExpiredLeases env) := by
  apply leaseClosed_closeAll
  · exact fun lease hc => isExpired_active hc
  · exact fun lease => ⟨rfl, rfl⟩
  · exact hstatus

end DeviceTables

/-- Only a revocation and a sweep close leases without completing them. -/
theorem leaseClosed_handler {π : Type} (ext : Externals π) (a : DeviceAction) (w : ServiceWorld π)
    (hfresh : RecordsFresh w.devices a) {status : LeaseStatus} (hstatus : status.Abandoned) (workId : String) :
    (ServiceWorld.deviceHandler ext a w).2.devices.LeaseClosed status workId ↔
      w.devices.LeaseClosed status workId ∨ a.Closes w.devices status workId := by
  have hquiet : ∀ {t t' : DeviceTables} {a : DeviceAction}, TablesChange t a t' → RecordsFresh t a →
      (∀ ownerUserId deviceId env, a ≠ .tables (.revokeDevice ownerUserId deviceId) env) →
      (∀ env, a ≠ .tables .sweepExpiredLeases env) →
      (t'.LeaseClosed status workId ↔ t.LeaseClosed status workId) := by
    intro t t' a hchange hfresh hrevoke hsweep
    cases hchange with
    | none => exact Iff.rfl
    | codes => exact Iff.rfl
    | registered => exact Iff.rfl
    | beat => exact Iff.rfl
    | revoked => exact absurd rfl (hrevoke _ _ _)
    | leased workId' deviceId ttlSeconds env expiresAt =>
      apply DeviceTables.leaseClosed_set hstatus
      · intro lease hget
        rw [(hfresh _ workId' deviceId ⟨ttlSeconds, env, rfl, rfl⟩).1] at hget
        cases hget
      · simp [DeviceLeaseRecord.new, LeaseStatus.Abandoned]
    | @renewed deviceId token leaseId ttlSeconds env device lease hauth hget hdevice hactive expiresAt =>
      apply DeviceTables.leaseClosed_set hstatus
      · intro other hother
        rw [hget, Option.some.injEq] at hother
        rwa [← hother]
      · simp [DeviceLeaseRecord.renewed, LeaseStatus.Abandoned]
    | @completed env deviceId token leaseId device lease hauth hget hdevice hactive =>
      apply DeviceTables.leaseClosed_set hstatus
      · intro other hother
        rw [hget, Option.some.injEq] at hother
        rwa [← hother]
      · simp [DeviceLeaseRecord.completed, LeaseStatus.Abandoned]
    | swept => exact absurd rfl (hsweep _)
  cases a with
  | service a =>
    rw [hquiet (tablesChange ext _ w) hfresh (by simp) (by simp)]
    simp [DeviceAction.Closes]
  | tables op env =>
    cases op with
    | revokeDevice ownerUserId deviceId => exact DeviceTables.leaseClosed_revokeDevice hstatus
    | sweepExpiredLeases => exact DeviceTables.leaseClosed_sweepExpiredLeases hstatus
    | _ =>
      rw [hquiet (tablesChange ext _ w) hfresh (by simp) (by simp)]
      simp [DeviceAction.Closes]

section Visible

variable {π : Type} (ext : Externals π)

/-- `claim_pending_work` would hand the Work out. -/
def ClaimableAgain (s : InMemoryStore) (k : WorkId) : Prop :=
  ∃ limit env, ∃ work ∈ handedOut s ⟨.claimPendingWork limit, env⟩, work.workId = k

/-- `list_broken_work` lists the Work for the owner of its Goal. -/
def ListedForOwner (w : ServiceWorld π) (k : WorkId) : Prop :=
  ∃ work goal, w.store.work.get? k = some work ∧ w.store.goals.get? work.goalId = some goal ∧ ∀ env, ∃ listed,
    evalTask (ServiceWorld.handler ext) (WebControl.listBrokenWork env goal.userId) w = (.ok listed, w) ∧
      ∃ entry ∈ listed, entry.workId = k.val

def VisibleWork (w : ServiceWorld π) (k : WorkId) : Prop :=
  ∀ work, w.store.work.get? k = some work → work.isTerminal = false → ClaimableAgain w.store k ∨ ListedForOwner ext w k

/-- Of a Work that was handed out before, only the list of the broken Works can tell. -/
theorem visibleWork_iff {w : ServiceWorld π} (hstore : StoreReachable w.store) {k : WorkId}
    (hstarted : Started k w.store) : VisibleWork ext w k ↔ InSight w.store k := by
  have hs := hstore.wellFormed
  obtain ⟨work, hwork, hpending⟩ := hstarted
  obtain ⟨goal, hgoal⟩ := hstore.integrity.work_goal k work hwork
  have hclaimed : ¬ClaimableAgain w.store k := by
    rintro ⟨limit, env, v, hv, rfl⟩
    obtain ⟨⟨u, hu, hget, hstatus, _⟩, _, _⟩ := handedOut_taken hs hv
    rw [hu, hwork, Option.some.injEq] at hget
    exact hpending (hget ▸ hstatus)
  have hlisted : ListedForOwner ext w k ↔ w.store.broken work = true := by
    rw [← listed_iff hs hwork hgoal]
    constructor
    · rintro ⟨work', goal', hwork', hgoal', hall⟩
      rw [hwork, Option.some.injEq] at hwork'
      subst hwork'
      rw [hgoal, Option.some.injEq] at hgoal'
      subst hgoal'
      obtain ⟨listed, heval, hentry⟩ := hall frozenSupply
      rw [evalTask_listBrokenWork, Prod.mk.injEq, Except.ok.injEq] at heval
      rwa [heval.1]
    · intro hentry
      exact ⟨work, goal, hwork, hgoal, fun env => ⟨_, evalTask_listBrokenWork ext w env goal.userId, hentry⟩⟩
  constructor
  · intro hvisible
    refine ⟨work, hwork, ?_⟩
    by_cases hterm : work.isTerminal = true
    · exact .inl hterm
    · have hopen := Bool.of_not_eq_true hterm
      rcases hvisible work hwork hopen with hagain | hfound
      · exact absurd hagain hclaimed
      · have hbroken := hlisted.mp hfound
        rw [InMemoryStore.broken, Bool.or_eq_true, decide_eq_true_iff] at hbroken
        rcases hbroken with hfailed | hstuck
        · rw [WorkRecord.isTerminal, hfailed] at hopen
          exact absurd hopen (by decide)
        · exact .inr hstuck
  · rintro ⟨work', hwork', hseen⟩ v hv hopen
    rw [hwork, Option.some.injEq] at hwork' hv
    subst hwork' hv
    rcases hseen with hterm | hstuck
    · rw [hterm] at hopen
      cases hopen
    · apply Or.inr
      rw [hlisted, InMemoryStore.broken, hstuck, Bool.or_true]

end Visible

/-! ## Interleavings -/

section Interleavings

variable {ι π : Type}

/-- What client `i` is told if its next request is a sweep. -/
def flagged (p : DevicePool ι π) (i : ι) : List String :=
  match p.threads i with
  | .act (.tables .sweepExpiredLeases env) _ =>
    match ((DeviceTables.sweepExpiredLeases env).run p.state.devices).outcome with
    | .ok workIds => workIds
    | .error _ => []
  | _ => []

/-- The request closes no lease of a Work that is out of sight, and it hides no Work whose lease was closed. -/
def StepKeepsSight (p : DevicePool ι π) (i : ι) : Prop :=
  ∀ a rest, p.threads i = .act a rest → ∀ status : LeaseStatus, status.Abandoned → ∀ k,
    (a.Closes p.state.devices status k → InSight p.state.store ⟨k⟩) ∧
      (p.state.devices.LeaseClosed status k → ∀ op env, a = .service (.store op env) →
        ¬StoreCall.Hides p.state.store ⟨op, env⟩ ⟨k⟩)

def AbandonedInSight (p : DevicePool ι π) : Prop :=
  ∀ status : LeaseStatus, status.Abandoned → ∀ k, p.state.devices.LeaseClosed status k → InSight p.state.store ⟨k⟩

variable {p : DevicePool ι π}

theorem mem_flagged {i : ι} {a : DeviceAction} {rest : a.Answer → DeviceProg}
    (hthread : p.threads i = .act a rest) (k : String) : k ∈ flagged p i ↔ a.Closes p.state.devices .expired k := by
  unfold flagged
  rw [hthread]
  cases a with
  | service a => simp [DeviceAction.Closes]
  | tables op env =>
    cases op with
    | sweepExpiredLeases =>
      change k ∈ (DeviceTables.closeEach (fun lease => lease.isExpired env.utcNow) DeviceLeaseRecord.expired
        p.state.devices.leases.entries p.state.devices).1 ↔ _
      rw [DeviceTables.mem_swept]
      simp only [DeviceAction.Closes, true_and]
      constructor
      · rintro ⟨⟨id, lease⟩, hmem, hexpired, hwork⟩
        exact ⟨id, lease, InsertionDict.get?_of_mem_entries hmem, hwork, hexpired⟩
      · rintro ⟨id, lease, hget, hwork, hexpired⟩
        exact ⟨(id, lease), InsertionDict.mem_entries_of_get? hget, hexpired, hwork⟩
    | _ => simp [DeviceAction.Closes]

variable [DecidableEq ι] {clients : DeviceClients ι}

/-- The property of one interleaving: whatever a sweep has returned so far and whatever a revocation has
released is visible. -/
structure AbandonedVisible (ext : Externals π) (start : DevicePool ι π) (schedule : List ι) : Prop where
  swept : ∀ before i between after, schedule = before ++ i :: (between ++ after) →
    ∀ workId ∈ flagged (MachineRuns.run (deviceStep ext) start before) i,
      VisibleWork ext (MachineRuns.run (deviceStep ext) start (before ++ i :: between)).state ⟨workId⟩
  released : ∀ before after, schedule = before ++ after → ∀ id lease,
    (MachineRuns.run (deviceStep ext) start before).state.devices.leases.get? id = some lease →
      lease.status = .released → VisibleWork ext (MachineRuns.run (deviceStep ext) start before).state ⟨lease.workId⟩

variable (ext : Externals π)

theorem leaseClosed_step (h : LeasesClaimed clients p) {i : ι}
    {a : DeviceAction} {rest : a.Answer → DeviceProg} (hstep : DeviceStepped ext p i a rest) {status : LeaseStatus}
    (hstatus : status.Abandoned) (k : String) : (deviceStep ext p i).state.devices.LeaseClosed status k ↔
      p.state.devices.LeaseClosed status k ∨ a.Closes p.state.devices status k := by
  rw [hstep.state]
  exact leaseClosed_handler ext a p.state (h.recordsFresh hstep.thread) hstatus k

/-- A step keeps the Works with closed leases in sight exactly under the condition. -/
theorem abandonedInSight_step_iff (h : LeasesClaimed clients p) (i : ι)
    (hsight : AbandonedInSight p) : AbandonedInSight (deviceStep ext p i) ↔ StepKeepsSight p i := by
  cases hthread : p.threads i with
  | done r =>
    rw [deviceStep, Pool.step_done hthread]
    refine ⟨?_, fun _ => hsight⟩
    intro _ a rest hact
    rw [hthread] at hact
    cases hact
  | act a rest =>
    have hstep := deviceStepped ext hthread
    have hclosed := fun {status : LeaseStatus} (hstatus : status.Abandoned) => leaseClosed_step ext h hstep hstatus
    constructor
    · intro hnext a' rest' hact status hstatus k
      rw [hthread] at hact
      cases hact
      refine ⟨?_, ?_⟩
      · intro hcloses
        have hseen := hnext status hstatus k ((hclosed hstatus k).mpr (.inr hcloses))
        rwa [hstep.store, hcloses.onStore] at hseen
      · rintro hbefore op env rfl hhides
        have hseen := hnext status hstatus k ((hclosed hstatus k).mpr (.inl hbefore))
        rw [hstep.store] at hseen
        exact not_inSight_of_hides ⟨op, env⟩ h.wellFormed hhides hseen
    · intro hkeeps status hstatus k hafter
      obtain ⟨hcovers, hhides⟩ := hkeeps a rest hthread status hstatus k
      rw [hstep.store]
      rcases (hclosed hstatus k).mp hafter with hbefore | hcloses
      · have hseen := hsight status hstatus k hbefore
        rcases deviceOnStore_cases a p.state.store with hsame | ⟨c, rfl, hcall⟩
        · rwa [hsame]
        · rw [hcall]
          exact inSight_step c h.wellFormed hseen (hhides hbefore c.op c.env rfl)
      · rw [hcloses.onStore]
        exact hcovers hcloses

theorem leaseClosed_expired_iff (hids : Function.Injective clients.leaseId)
    (h : LeasesClaimed clients p) (schedule : List ι) (k : String) :
    (MachineRuns.run (deviceStep ext) p schedule).state.devices.LeaseClosed .expired k ↔
      p.state.devices.LeaseClosed .expired k ∨ ∃ before i after, schedule = before ++ i :: after ∧
        k ∈ flagged (MachineRuns.run (deviceStep ext) p before) i := by
  apply MachineRuns.holds_run_iff (I := LeasesClaimed clients)
    (P := fun q : DevicePool ι π => q.state.devices.LeaseClosed .expired k) (E := fun q i => k ∈ flagged q i)
    (fun q i hq => leasesClaimed_step ext hids i hq) _ h
  intro q i hq
  cases hthread : q.threads i with
  | done r =>
    have hnone : k ∉ flagged q i := by simp [flagged, hthread]
    rw [deviceStep, Pool.step_done hthread, or_iff_left hnone]
  | act a rest =>
    rw [mem_flagged hthread]
    exact leaseClosed_step ext hq (deviceStepped ext hthread) (.inl rfl) k

/-- In every interleaving, each Work that a sweep has returned and each Work whose lease a revocation has
released is, as long as it is open, claimable or listed, exactly if no step closes a lease of a Work that is
out of sight and none hides a Work whose lease was closed. -/
theorem abandonedVisible_iff (ext : Externals π) (clients : DeviceClients ι) (world : ServiceWorld π)
    (hstore : StoreReachable world.store) (hids : Function.Injective clients.leaseId) (schedule : List ι) :
    AbandonedVisible ext (clients.pool (leaselessWorld world)) schedule ↔
      MachineRuns.EveryStep (deviceStep ext) StepKeepsSight (clients.pool (leaselessWorld world)) schedule := by
  have hstart := leasesClaimed_start clients hstore
  have hrun := leasesClaimed_run ext hids hstart
  have hreach : ∀ before, StoreReachable
      (MachineRuns.run (deviceStep ext) (clients.pool (leaselessWorld world)) before).state.store :=
    MachineRuns.invariant_run (I := fun q : DevicePool ι π => StoreReachable q.state.store)
      (reachable_deviceStep ext) hstore
  have hnone : ∀ status k, ¬(clients.pool (leaselessWorld world)).state.devices.LeaseClosed status k := by
    rintro status k ⟨id, lease, hget, _⟩
    cases hget
  have hvisible : ∀ before status k,
      (MachineRuns.run (deviceStep ext) (clients.pool (leaselessWorld world)) before).state.devices.LeaseClosed status k →
      (VisibleWork ext (MachineRuns.run (deviceStep ext) (clients.pool (leaselessWorld world)) before).state ⟨k⟩ ↔
        InSight (MachineRuns.run (deviceStep ext) (clients.pool (leaselessWorld world)) before).state.store ⟨k⟩) := by
    rintro before status k ⟨id, lease, hget, rfl, _⟩
    exact visibleWork_iff ext (hreach before) ((hrun before).started id lease hget)
  rw [← MachineRuns.always_iff_everyStep (K := LeasesClaimed clients) (I := AbandonedInSight)
    (fun q i hq => leasesClaimed_step ext hids i hq) (fun q i hq hsight => abandonedInSight_step_iff ext hq i hsight)
    hstart fun status _ k hclosed => absurd hclosed (hnone status k)]
  constructor
  · intro h before after hsplit status hstatus k hclosed
    refine (hvisible before status k hclosed).mp ?_
    rcases hstatus with rfl | rfl
    · rcases (leaseClosed_expired_iff ext hids hstart before k).mp hclosed with hfirst | ⟨b, i, between, hb, hflagged⟩
      · exact absurd hfirst (hnone _ k)
      · subst hb
        refine h.swept b i between after ?_ k hflagged
        rw [hsplit, List.append_assoc, List.cons_append]
    · obtain ⟨id, lease, hget, rfl, hreleased⟩ := hclosed
      exact h.released before after hsplit id lease hget hreleased
  · intro h
    constructor
    · intro before i between after hsplit k hflagged
      have hclosed := (leaseClosed_expired_iff ext hids hstart (before ++ i :: between) k).mpr
        (.inr ⟨before, i, between, rfl, hflagged⟩)
      refine (hvisible _ .expired k hclosed).mpr (h _ after ?_ .expired (.inl rfl) k hclosed)
      rw [hsplit, List.append_assoc, List.cons_append]
    · intro before after hsplit id lease hget hreleased
      have hclosed : DeviceTables.LeaseClosed _ .released lease.workId := ⟨id, lease, hget, rfl, hreleased⟩
      exact (hvisible before .released _ hclosed).mpr (h before after hsplit .released (.inr rfl) _ hclosed)

end Interleavings

/-! ## A Work that no list shows -/

/-- One client claims for the device, the other one makes the given call some hours later. -/
def claimThen (call : DeviceCall) : DeviceClients Bool where
  call
    | true => .claimWork "dev_1" "t" defaultLeaseTtlSeconds
    | false => call
  env
    | true => fun _ => ⟨0, "1"⟩
    | false => fun _ => ⟨seconds 10000, "2"⟩

def afterClaim (call : DeviceCall) : DevicePool Bool Unit :=
  MachineRuns.run (deviceStep (sampleExternals none (.ok "h")))
    ((claimThen call).pool (leaselessWorld (deviceWorld pendingStore))) [true, true, true, false]

theorem not_visible_afterClaim (call : DeviceCall)
    (hwork : ∃ work, (afterClaim call).state.store.work.get? ⟨"work_1"⟩ = some work ∧ work.status ≠ .pending ∧
      work.isTerminal = false ∧ (afterClaim call).state.store.stuck work = false) :
    ¬VisibleWork (sampleExternals none (.ok "h")) (afterClaim call).state ⟨"work_1"⟩ := by
  obtain ⟨work, hget, hstarted, hopen, hidle⟩ := hwork
  have hreach : StoreReachable (afterClaim call).state.store :=
    MachineRuns.invariant_run (I := fun q : DevicePool Bool Unit => StoreReachable q.state.store)
      (reachable_deviceStep _) ⟨pendingCalls, rfl⟩ _
  rw [visibleWork_iff _ hreach ⟨work, hget, hstarted⟩]
  rintro ⟨work', hget', hseen⟩
  rw [hget, Option.some.injEq] at hget'
  subst hget'
  rw [hopen, hidle] at hseen
  simp at hseen

/-- The claimed Work is RUNNING and has no Run: after a revocation and after a sweep it can neither be
claimed nor is it listed. -/
theorem abandoned_work_lost : StoreReachable pendingStore ∧ ¬AbandonedVisible (sampleExternals none (.ok "h"))
        ((claimThen (.revokeDevice "u1" "dev_1")).pool (leaselessWorld (deviceWorld pendingStore)))
        [true, true, true, false] ∧
      ¬AbandonedVisible (sampleExternals none (.ok "h"))
        ((claimThen .sweepExpiredLeases).pool (leaselessWorld (deviceWorld pendingStore)))
        [true, true, true, false] := by
  refine ⟨⟨pendingCalls, rfl⟩, ?_, ?_⟩
  · intro h
    apply not_visible_afterClaim (.revokeDevice "u1" "dev_1") ⟨_, rfl, by decide, rfl, rfl⟩
    exact h.released [true, true, true, false] [] rfl "lease_1" _ rfl rfl
  · intro h
    apply not_visible_afterClaim .sweepExpiredLeases ⟨_, rfl, by decide, rfl, rfl⟩
    exact h.swept [true, true, true] false [] [] rfl "work_1" (by decide)

/-- Without leases there is nothing to lose. -/
theorem stepKeepsSight_of_no_lease {ι π : Type} {p : DevicePool ι π} (i : ι)
    (hnone : p.state.devices.leases = .empty) : StepKeepsSight p i := by
  intro a rest _ status _ k
  constructor
  · intro hcloses
    cases a with
    | service a => exact hcloses.elim
    | tables op env =>
      cases op with
      | revokeDevice ownerUserId deviceId =>
        obtain ⟨_, _, id, lease, hget, _⟩ := hcloses
        rw [hnone] at hget
        cases hget
      | sweepExpiredLeases =>
        obtain ⟨_, id, lease, hget, _⟩ := hcloses
        rw [hnone] at hget
        cases hget
      | _ => exact hcloses.elim
  · rintro ⟨id, lease, hget, _⟩
    rw [hnone] at hget
    cases hget

theorem not_leaseClosed_of_active {t : DeviceTables} (hactive : ∀ e ∈ t.leases.entries, e.2.status = .active)
    {status : LeaseStatus} (hstatus : status.Abandoned) (k : String) : ¬t.LeaseClosed status k := by
  rintro ⟨id, lease, hget, _, hclosed⟩
  have hheld := hactive (id, lease) (InsertionDict.mem_entries_of_get? hget)
  rcases hstatus with rfl | rfl <;> cases hclosed.symm.trans hheld

/-- A service closes no lease, and hides nothing where all leases are held. -/
theorem stepKeepsSight_of_service {ι π : Type} {p : DevicePool ι π} {i : ι} {a : ServiceAction} {rest : _ → DeviceProg}
    (hthread : p.threads i = .act (.service a) rest)
    (hactive : ∀ e ∈ p.state.devices.leases.entries, e.2.status = .active) : StepKeepsSight p i := by
  intro a' rest' hact status hstatus k
  rw [hthread] at hact
  cases hact
  exact ⟨False.elim, fun hclosed => absurd hclosed (not_leaseClosed_of_active hactive hstatus k)⟩

/-- A device claims, another client closes the Work, and the device is revoked. -/
def closedFirst : DeviceClients (Fin 3) where
  call
    | 0 => .claimWork "dev_1" "t" defaultLeaseTtlSeconds
    | 1 => .service (.operation (.transitionWorkStatus ⟨"work_1"⟩ .failed 2 sampleEvent none))
    | 2 => .revokeDevice "u1" "dev_1"
  env
    | 0 => fun _ => ⟨0, "1"⟩
    | 1 => fun _ => ⟨0, "2"⟩
    | 2 => fun _ => ⟨0, "3"⟩

def closedFirstRun (schedule : List (Fin 3)) : DevicePool (Fin 3) Unit :=
  MachineRuns.run (deviceStep (sampleExternals none (.ok "h"))) (closedFirst.pool (leaselessWorld (deviceWorld pendingStore)))
    schedule

/-- The lease that is released is of a Work that has failed. -/
theorem stepKeepsSight_closedFirst : StepKeepsSight (closedFirstRun [0, 0, 0, 1]) 2 := by
  have hleases : ∀ e ∈ (closedFirstRun [0, 0, 0, 1]).state.devices.leases.entries,
      e.2.status = .active ∧ e.2.workId = "work_1" := by decide
  intro a rest hact status hstatus k
  have hrevoke : (closedFirstRun [0, 0, 0, 1]).threads 2 =
      .act (.tables (.revokeDevice "u1" "dev_1") fun _ => ⟨0, "3"⟩) _ := rfl
  rw [hrevoke] at hact
  cases hact
  constructor
  · rintro ⟨_, _, id, lease, hget, hwork, _⟩
    obtain rfl : k = "work_1" := hwork.symm.trans (hleases (id, lease) (InsertionDict.mem_entries_of_get? hget)).2
    exact ⟨_, rfl, .inl rfl⟩
  · exact fun hclosed => absurd hclosed (not_leaseClosed_of_active (fun e he => (hleases e he).1) hstatus k)

theorem abandonedVisible_revoked_first :
    StoreReachable pendingStore ∧ Function.Injective closedFirst.leaseId ∧
      AbandonedVisible (sampleExternals none (.ok "h")) (closedFirst.pool (leaselessWorld (deviceWorld pendingStore)))
        [0, 0, 0, 1, 2] := by
  have hreach : StoreReachable pendingStore := ⟨pendingCalls, rfl⟩
  have hids : Function.Injective closedFirst.leaseId := by
    unfold Function.Injective
    decide
  refine ⟨hreach, hids, (abandonedVisible_iff _ _ (deviceWorld pendingStore) hreach hids _).mpr ?_⟩
  simp only [MachineRuns.everyStep_cons]
  refine ⟨stepKeepsSight_of_no_lease _ rfl, stepKeepsSight_of_no_lease _ rfl, stepKeepsSight_of_no_lease _ rfl,
    stepKeepsSight_of_service rfl (by decide), stepKeepsSight_closedFirst, MachineRuns.everyStep_nil⟩

end AllTomorrow
