import AllTomorrow.SemanticStoreChanges
import AllTomorrow.ExecutionRefHistory

/-!
# Handing out Work

`claim_pending_work` over whole runs of the store: no Work is handed out twice,
what is handed out was PENDING and not held by the overseer, and the Works of one
call are the first of a queue ordered by priority, age and creation.
-/

namespace AllTomorrow

open InsertionDict (contains_iff keys_set_of_get? mem_keys_iff mem_values_iff)
open EStateM (run_bind run_get)

open InMemoryStore

/-- The Works that a call returns from `claim_pending_work`. -/
def handedOut (s : InMemoryStore) (c : StoreCall) : List WorkRecord :=
  match c.op with
  | .claimPendingWork limit =>
    match (InMemoryStore.claimPendingWork c.env limit).run s with
    | .ok claimed _ => claimed
    | .error _ _ => []
  | _ => []

def newWork (s : InMemoryStore) (c : StoreCall) : List WorkId :=
  match c.op with
  | .createWork work _ =>
    if !s.work.contains work.workId && (storeStep s c).work.contains work.workId then [work.workId] else []
  | _ => []

/-- The Works created along a sequence of calls, in the order of their creation. -/
def createdWork (s : InMemoryStore) : List StoreCall → List WorkId
  | [] => []
  | c :: rest => newWork s c ++ createdWork (storeStep s c) rest

/-- A Work that may be claimed: it is PENDING and no event gives it to the overseer. -/
def EligibleWork (s : InMemoryStore) (w : WorkRecord) : Prop :=
  s.work.get? w.workId = some w ∧ w.status = .pending ∧
    ∀ e ∈ s.events, e.workId = some w.workId → heldByOverseer e = false

/-- The eligible Works by descending priority, then by age, then in the order of creation. -/
structure ClaimQueue (s : InMemoryStore) (created : List WorkId) (queue : List WorkRecord) : Prop where
  mem : ∀ w, w ∈ queue ↔ EligibleWork s w
  nodup : (queue.map WorkRecord.workId).Nodup
  sorted : queue.Pairwise fun a b => ClaimBefore a b ∧ (ClaimBefore b a → [a.workId, b.workId].Sublist created)

/-- The law of `claim_pending_work` along a run from the empty store. -/
structure ClaimLaw (calls : List StoreCall) : Prop where
  once : ∀ before c between c' after, calls = before ++ c :: between ++ c' :: after →
    ∀ w ∈ handedOut (MachineRuns.run storeStep .empty before) c,
    ∀ w' ∈ handedOut (MachineRuns.run storeStep .empty (before ++ c :: between)) c', w.workId ≠ w'.workId
  taken : ∀ before c after, calls = before ++ c :: after → ∀ w ∈ handedOut (MachineRuns.run storeStep .empty before) c,
      (∃ v, v.workId = w.workId ∧ EligibleWork (MachineRuns.run storeStep .empty before) v) ∧ w.status = .running ∧
        (storeStep (MachineRuns.run storeStep .empty before) c).work.get? w.workId = some w
  first : ∀ before limit env after, calls = before ++ ⟨.claimPendingWork limit, env⟩ :: after →
    ∃ queue, ClaimQueue (MachineRuns.run storeStep .empty before) (createdWork .empty before) queue ∧
      (handedOut (MachineRuns.run storeStep .empty before) ⟨.claimPendingWork limit, env⟩).map WorkRecord.workId =
        (queue.take (min limit queue.length).toNat).map WorkRecord.workId

variable {s : InMemoryStore}

/-! ## The queue -/

instance : Std.Total ClaimBefore := by
  constructor
  intro a b
  rcases lt_trichotomy (-a.priority) (-b.priority) with h | h | h
  · exact .inl (.inl h)
  · exact (Int.le_total a.createdAt b.createdAt).imp (fun hle => .inr ⟨h, hle⟩) fun hle => .inr ⟨h.symm, hle⟩
  · exact .inr (.inl h)

instance : IsTrans WorkRecord ClaimBefore := by
  constructor
  intro a b c hab hbc
  rcases hab with hab | ⟨hab, hle⟩
  · rcases hbc with hbc | ⟨hbc, _⟩
    · exact .inl (hab.trans hbc)
    · exact .inl (hbc ▸ hab)
  · rcases hbc with hbc | ⟨hbc, hle'⟩
    · exact .inl (hab ▸ hbc)
    · exact .inr ⟨hab.trans hbc, Int.le_trans hle hle'⟩

def eligibleWork (s : InMemoryStore) : List WorkRecord := s.work.values.filter s.claimable

variable {w : WorkRecord}

theorem mem_eligibleWork (hs : s.WellFormed) : w ∈ eligibleWork s ↔ EligibleWork s w := by
  have hstored : w ∈ s.work.values ↔ s.work.get? w.workId = some w := by
    rw [mem_values_iff]
    constructor
    · rintro ⟨k, hk⟩
      rwa [hs.work_key k w hk]
    · exact fun h => ⟨w.workId, h⟩
  rw [eligibleWork, List.mem_filter, hstored, EligibleWork]
  simp [claimable]

theorem keys_work (hs : s.WellFormed) : s.work.values.map WorkRecord.workId = s.work.entries.map Prod.fst := by
  rw [InsertionDict.values, List.map_map]
  refine List.map_congr_left ?_
  rintro ⟨k, w⟩ hw
  exact hs.work_key k w (InsertionDict.get?_of_mem_entries hw)

theorem claimQueue_insertionSort (hs : s.WellFormed) :
    ClaimQueue s (s.work.entries.map Prod.fst) ((eligibleWork s).insertionSort ClaimBefore) := by
  have hids : (s.work.values.map WorkRecord.workId).Nodup := by
    rw [keys_work hs]
    exact s.work.nodup_keys
  have hsub : (eligibleWork s).Sublist s.work.values := List.filter_sublist
  have hperm := List.perm_insertionSort ClaimBefore (eligibleWork s)
  refine ⟨?_, ?_, ?_⟩
  · intro w
    rw [List.mem_insertionSort, mem_eligibleWork hs]
  · exact (hperm.map _).nodup_iff.mpr (hids.sublist (hsub.map _))
  · refine (pairwise_insertionSort_stable (hids.of_map.sublist hsub)).imp ?_
    intro a b hab
    refine ⟨hab.1, ?_⟩
    intro hrank
    rw [← keys_work hs]
    exact ((hab.2 hrank).trans hsub).map _

/-! ## Creation order -/

theorem Effect.keys_work {env : Supply} {op : StoreOp} {r : EStateM.Result Exn InMemoryStore op.Result}
    (h : Effect env s op r) (hs : s.WellFormed) : r.state.work.entries.map Prod.fst = s.work.entries.map Prod.fst ∨
      ∃ work event, op = .createWork work event ∧ s.work.get? work.workId = none ∧
        r.state.work.entries.map Prod.fst = s.work.entries.map Prod.fst ++ [work.workId] := by
  cases h with
  | workCreated work event hfresh hgoal =>
    exact .inr ⟨work, event, rfl, hfresh, InsertionDict.keys_set_of_fresh hfresh work⟩
  | workMoved hget hterm hmem htarget => exact .inl (keys_set_of_get? hget _)
  | workSucceeded hget hterm hmem htype hid hstatus hev => exact .inl (keys_set_of_get? hget _)
  | workClaimed limit =>
    left
    have hkeys : ∀ (ws : List WorkRecord) (d : InsertionDict WorkId WorkRecord),
        (∀ w ∈ ws, ∃ v, d.get? w.workId = some v) →
          (setAllWork d ws).entries.map Prod.fst = d.entries.map Prod.fst := by
      intro ws
      induction ws with
      | nil => exact fun d _ => rfl
      | cons w ws ih =>
        intro d hws
        obtain ⟨v, hv⟩ := hws w List.mem_cons_self
        have hrest := ih (d.set w.workId w) fun u hu =>
          InsertionDict.exists_get?_set (hws u (List.mem_cons_of_mem w hu)) _ _
        exact hrest.trans (keys_set_of_get? hv w)
    refine hkeys _ _ ?_
    intro w hw
    obtain ⟨v, hv, env', rfl⟩ := mem_claimedRecords hw
    obtain ⟨k, hk⟩ := mem_values_iff.mp (claimCandidates_pending hv).1
    have hkey := hs.work_key k v hk
    exact ⟨v, by rw [WorkRecord.moved, hkey]; exact hk⟩
  | _ => exact .inl rfl

theorem keys_step (hs : s.WellFormed) (c : StoreCall) :
    (storeStep s c).work.entries.map Prod.fst = s.work.entries.map Prod.fst ++ newWork s c := by
  obtain ⟨op, env⟩ := c
  have hkeep : ∀ {k : WorkId}, (storeStep s ⟨op, env⟩).work.entries.map Prod.fst = s.work.entries.map Prod.fst →
      ((storeStep s ⟨op, env⟩).work.contains k = true ↔ s.work.contains k = true) := by
    intro k hsame
    rw [contains_iff, contains_iff, ← mem_keys_iff,
      ← mem_keys_iff, hsame]
  rcases (exec_effect env hs op).keys_work hs with hsame | ⟨work, event, rfl, hfresh, hnew⟩
  · cases op with
    | createWork work event =>
      have hcontains := hkeep (k := work.workId) hsame
      simp only [newWork]
      rw [if_neg, List.append_nil]
      · exact hsame
      · simp only [Bool.and_eq_true, Bool.not_eq_true', not_and, Bool.not_eq_true]
        intro habsent
        rw [← Bool.not_eq_true, hcontains, habsent]
        simp
    | _ => exact hsame.trans (List.append_nil _).symm
  · simp only [newWork]
    rw [if_pos]
    · exact hnew
    · have hmem : work.workId ∈ (storeStep s ⟨.createWork work event, env⟩).work.entries.map Prod.fst := by
        rw [storeStep, StoreCall.result, hnew]
        exact List.mem_append_right _ List.mem_cons_self
      have hpresent := contains_iff.mpr (mem_keys_iff.mp hmem)
      rw [hpresent, InsertionDict.contains_eq_false_iff.mpr hfresh]
      rfl

theorem keys_run (calls : List StoreCall) (hs : s.WellFormed) :
    (MachineRuns.run storeStep s calls).work.entries.map Prod.fst = s.work.entries.map Prod.fst ++ createdWork s calls := by
  induction calls generalizing s with
  | nil => simp [createdWork]
  | cons c calls ih =>
    rw [MachineRuns.run_cons, ih (wellFormed_step s c hs), keys_step hs, createdWork, List.append_assoc]

theorem handedOut_claim (s : InMemoryStore) (limit : ℤ) (env : Supply) :
    handedOut s ⟨.claimPendingWork limit, env⟩ = claimedRecords env (s.claimCandidates limit) := by
  have hloop := run_claimLoop env (s := s) (s.claimCandidates limit) fun w hw => (claimCandidates_pending hw).2
  simp only [handedOut, InMemoryStore.claimPendingWork, run_bind, run_get, hloop]

theorem outcome_claim (s : InMemoryStore) (limit : ℤ) (env : Supply) :
    (((StoreOp.claimPendingWork limit).exec env).run s).outcome = .ok (handedOut s ⟨.claimPendingWork limit, env⟩) := by
  have hloop := run_claimLoop env (s := s) (s.claimCandidates limit) fun w hw => (claimCandidates_pending hw).2
  rw [handedOut_claim]
  simp only [StoreOp.exec, InMemoryStore.claimPendingWork, run_bind, run_get, hloop]
  rfl

theorem mem_handedOut {c : StoreCall} (h : w ∈ handedOut s c) :
    ∃ limit, c.op = .claimPendingWork limit ∧ w ∈ claimedRecords c.env (s.claimCandidates limit) := by
  obtain ⟨op, env⟩ := c
  cases op with
  | claimPendingWork limit =>
    rw [handedOut_claim] at h
    exact ⟨limit, rfl, h⟩
  | _ => cases h

theorem map_workId_claimedRecords (env : Supply) (candidates : List WorkRecord) :
    (claimedRecords env candidates).map WorkRecord.workId = candidates.map WorkRecord.workId := by
  induction candidates generalizing env with
  | nil => rfl
  | cons w rest ih => rw [claimedRecords, List.map_cons, List.map_cons, ih, WorkRecord.moved]

theorem claimCandidates_eligible (hs : s.WellFormed) {limit : ℤ} (h : w ∈ s.claimCandidates limit) : EligibleWork s w := by
  have hsorted := (pySliceTo_sublist _ _).subset h
  exact (mem_eligibleWork hs).mp ((List.mem_insertionSort _).mp hsorted)

theorem nodup_claimCandidates (hs : s.WellFormed) (limit : ℤ) : ((s.claimCandidates limit).map WorkRecord.workId).Nodup :=
  (claimQueue_insertionSort hs).nodup.sublist ((pySliceTo_sublist _ _).map _)

theorem handedOut_taken (hs : s.WellFormed) {c : StoreCall} (h : w ∈ handedOut s c) :
    (∃ v, v.workId = w.workId ∧ EligibleWork s v) ∧ w.status = .running ∧ (storeStep s c).work.get? w.workId = some w := by
  obtain ⟨op, env⟩ := c
  obtain ⟨limit, rfl, hw⟩ := mem_handedOut h
  have hnodup : ((claimedRecords env (s.claimCandidates limit)).map WorkRecord.workId).Nodup := by
    rw [map_workId_claimedRecords]
    exact nodup_claimCandidates hs limit
  have hstored := get?_setAllWork_of_mem (d := s.work) hnodup hw
  have hloop := run_claimLoop env (s := s) (s.claimCandidates limit) fun v hv => (claimCandidates_pending hv).2
  obtain ⟨v, hv, env', rfl⟩ := mem_claimedRecords hw
  refine ⟨⟨v, rfl, claimCandidates_eligible hs hv⟩, rfl, ?_⟩
  simp only [storeStep, StoreCall.result, StoreOp.exec, InMemoryStore.claimPendingWork, run_bind,
    run_get, hloop, EStateM.Result.state_ok]
  exact hstored

/-- Every Work that has left PENDING is stored in some other status than PENDING. -/
def StaysStarted (a b : InMemoryStore) : Prop :=
  ∀ k w, a.work.get? k = some w → w.status ≠ .pending → ∃ w', b.work.get? k = some w' ∧ w'.status ≠ .pending

theorem staysStarted_step (s : InMemoryStore) (c : StoreCall) (hs : s.WellFormed) : StaysStarted s (storeStep s c) := by
  intro k w hw hstarted
  obtain ⟨op, env⟩ := c
  have hchange := work_change_step ⟨op, env⟩ hs k
  generalize (storeStep s ⟨op, env⟩).work.get? k = after at hchange ⊢
  cases hchange with
  | kept => exact ⟨w, hw, hstarted⟩
  | created hkey hfresh hgoal => exact absurd (hw.symm.trans hfresh) (by simp)
  | moved hget hmem =>
    refine ⟨_, rfl, ?_⟩
    rintro rfl
    exact pending_not_mem_workTransitions _ hmem
  | claimed hget hmem env' => exact ⟨_, rfl, by simp [WorkRecord.moved]⟩

theorem staysStarted_run (hs : s.WellFormed) (calls : List StoreCall) :
    StaysStarted s (MachineRuns.run storeStep s calls) := by
  refine MachineRuns.relation_run (P := fun _ _ => True) wellFormed_step ?_ ?_
    (fun t c ht _ => staysStarted_step t c ht) hs fun _ _ _ _ => trivial
  · exact fun t k w hw hstarted => ⟨w, hw, hstarted⟩
  · intro a b c hab hbc k w hw hstarted
    obtain ⟨w', hw', hstarted'⟩ := hab k w hw hstarted
    exact hbc k w' hw' hstarted'

theorem not_handedOut_again (hs : s.WellFormed) {c c' : StoreCall} (between : List StoreCall) {w w' : WorkRecord}
    (hw : w ∈ handedOut s c) (hw' : w' ∈ handedOut (MachineRuns.run storeStep (storeStep s c) between) c') :
    w.workId ≠ w'.workId := by
  intro hsame
  have hs' := wellFormed_step s c hs
  obtain ⟨_, hrunning, hstored⟩ := handedOut_taken hs hw
  obtain ⟨u, hu, hstarted⟩ := staysStarted_run hs' between w.workId w hstored (by rw [hrunning]; decide)
  obtain ⟨⟨v, hkey, hget, hpending, _⟩, _, _⟩ :=
    handedOut_taken (MachineRuns.invariant_run wellFormed_step hs' between) hw'
  rw [hkey, ← hsame, hu] at hget
  cases hget
  exact hstarted hpending

/-- The bound of a claim is not negative, or it leaves nothing of the eligible Works. -/
def SensibleLimit (s : InMemoryStore) (c : StoreCall) : Prop :=
  ∀ limit, c.op = .claimPendingWork limit → 0 ≤ limit ∨ ((eligibleWork s).length : ℤ) ≤ -limit

theorem length_claimCandidates (s : InMemoryStore) (limit : ℤ) :
    (s.claimCandidates limit).length = (pySliceTo ((eligibleWork s).insertionSort ClaimBefore) limit).length := rfl

theorem claimCandidates_eq_take (limit : ℤ) (h : 0 ≤ limit ∨ ((eligibleWork s).length : ℤ) ≤ -limit) :
    s.claimCandidates limit =
      ((eligibleWork s).insertionSort ClaimBefore).take (min limit (eligibleWork s).length).toNat := by
  have hlength := List.length_insertionSort ClaimBefore (eligibleWork s)
  change pySliceTo ((eligibleWork s).insertionSort ClaimBefore) limit = _
  by_cases hneg : limit < 0
  · have hempty : pySliceTo ((eligibleWork s).insertionSort ClaimBefore) limit = [] := by
      refine List.eq_nil_of_length_eq_zero ?_
      rw [length_pySliceTo_of_neg _ hneg, hlength]
      omega
    have hzero : (min limit ((eligibleWork s).length : ℤ)).toNat = 0 := by omega
    rw [hempty, hzero, List.take_zero]
  · rw [pySliceTo, if_pos (by omega)]
    rcases le_total limit (eligibleWork s).length with hle | hle
    · rw [min_eq_left hle]
    · rw [min_eq_right hle, Int.toNat_natCast, List.take_of_length_le (by omega), List.take_of_length_le (by omega)]

theorem sensibleLimit_of_first {queue : List WorkRecord} {limit : ℤ} {env : Supply}
    (hfirst : (handedOut s ⟨.claimPendingWork limit, env⟩).map WorkRecord.workId =
      (queue.take (min limit queue.length).toNat).map WorkRecord.workId) :
    SensibleLimit s ⟨.claimPendingWork limit, env⟩ := by
  intro limit' hlimit
  cases hlimit
  by_cases hneg : limit < 0
  · right
    have hlength := congrArg List.length hfirst
    rw [handedOut_claim, map_workId_claimedRecords, List.length_map, List.length_map, length_claimCandidates,
      length_pySliceTo_of_neg _ hneg, List.length_insertionSort, List.length_take] at hlength
    omega
  · exact .inl (by omega)

/-- Along every run, `claim_pending_work` obeys its law exactly when no call has a negative
bound that leaves some of the eligible Works. -/
theorem claimLaw_iff_sensibleLimits (calls : List StoreCall) :
    ClaimLaw calls ↔ MachineRuns.EveryStep storeStep SensibleLimit .empty calls := by
  have hwf : ∀ earlier : List StoreCall, (MachineRuns.run storeStep .empty earlier).WellFormed :=
    fun earlier => StoreReachable.wellFormed ⟨earlier, rfl⟩
  constructor
  · intro hlaw before c after hcalls
    obtain ⟨op, env⟩ := c
    intro limit hop
    cases hop
    obtain ⟨queue, _, hfirst⟩ := hlaw.first before limit env after hcalls
    exact sensibleLimit_of_first hfirst limit rfl
  · intro hlimits
    refine ⟨?_, ?_, ?_⟩
    · intro before c between c' after _ w hw w' hw'
      rw [MachineRuns.run_append, MachineRuns.run_cons] at hw'
      exact not_handedOut_again (hwf before) between hw hw'
    · exact fun before c after _ w hw => handedOut_taken (hwf before) hw
    · intro before limit env after hcalls
      have hkeys := keys_run before InMemoryStore.wellFormed_empty
      have hqueue := claimQueue_insertionSort (hwf before)
      rw [hkeys] at hqueue
      refine ⟨_, hqueue, ?_⟩
      rw [handedOut_claim, map_workId_claimedRecords,
        claimCandidates_eq_take limit (hlimits before _ after hcalls limit rfl), List.length_insertionSort]

def negativeClaim : List StoreCall :=
  [⟨.createGoal sampleGoal sampleEvent, frozenSupply⟩, ⟨.createWork sampleWork sampleEvent, frozenSupply⟩,
   ⟨.createWork { sampleWork with workId := ⟨"work_2"⟩ } sampleEvent, frozenSupply⟩,
   ⟨.claimPendingWork (-1), frozenSupply⟩]

theorem negativeClaim_breaks_law : ¬ClaimLaw negativeClaim := by
  intro h
  obtain ⟨queue, _, hfirst⟩ := h.first (negativeClaim.take 3) (-1) frozenSupply [] rfl
  have hlast := sensibleLimit_of_first hfirst (-1) rfl
  revert hlast
  decide

end AllTomorrow
