import AllTomorrow.DomainRecords
import AllTomorrow.MachineRuns
import AllTomorrow.RaisingState
import Mathlib.Algebra.Order.BigOperators.Group.List

/-!
# The capacity of a shared resource

`ResourceLedger` of `resource_ledger.py`. `reserve` compares the reservations with the capacity. It looks neither at
the recorded usage nor at the sign of the request.
-/

namespace AllTomorrow.Resources

open InsertionDict (forall_set mem_values_iff mem_values_of_get?)
open MachineRuns (EveryStep)

structure Reservation where
  reservationId : String
  units : ℤ
  expiresAt : Datetime

abbrev Reservations := InsertionDict String Reservation

/-- `None` is an unknown capacity. -/
structure ResourceLedger where
  resourceId : String
  capacity : Option ℤ
  reservations : Reservations := .empty
  actualUsage : ℤ := 0

/-- What `reconcile` returns. -/
structure LedgerSnapshot where
  resourceId : String
  capacity : Option ℤ
  reserved : ℤ
  actualUsage : ℤ
  outstanding : ℕ

abbrev LedgerM := EStateM Exn ResourceLedger

def capacityExceededError (message : String) : Exn := .foreign "CapacityExceededError" message

namespace Reservations

def reservedUnits (d : Reservations) : ℤ := (d.values.map (·.units)).sum

def expireLocked (d : Reservations) (now : Datetime) : Reservations :=
  ((d.values.filter fun r => r.expiresAt ≤ now).map (·.reservationId)).foldl InsertionDict.erase d

def unexpiredUnits (d : Reservations) (now : Datetime) : ℤ :=
  ((d.values.filter fun r => now < r.expiresAt).map (·.units)).sum

def Keyed (d : Reservations) : Prop := ∀ id r, d.get? id = some r → r.reservationId = id

def Nonnegative (d : Reservations) : Prop := ∀ r ∈ d.values, 0 ≤ r.units

variable {d : Reservations}

theorem entries_foldl_erase (ids : List String) :
    (ids.foldl InsertionDict.erase d).entries = d.entries.filter fun e => e.1 ∉ ids := by
  induction ids generalizing d with
  | nil => simp
  | cons id ids ih =>
    rw [List.foldl_cons, ih]
    change (d.entries.filter fun e => e.1 ≠ id).filter _ = _
    rw [List.filter_filter]
    refine List.filter_congr fun e _ => ?_
    simp [Bool.and_comm]

theorem entries_expireLocked (h : d.Keyed) (now : Datetime) :
    (d.expireLocked now).entries = d.entries.filter fun e => now < e.2.expiresAt := by
  rw [expireLocked, entries_foldl_erase]
  refine List.filter_congr fun e he => ?_
  have hget : d.get? e.1 = some e.2 := InsertionDict.mem_entries_iff.mp he
  have hexpired : e.1 ∈ (d.values.filter fun r => r.expiresAt ≤ now).map (·.reservationId) ↔ e.2.expiresAt ≤ now := by
    rw [List.mem_map]
    constructor
    · rintro ⟨r, hr, hid⟩
      obtain ⟨hmem, hle⟩ := List.mem_filter.mp hr
      obtain ⟨id, hr⟩ := mem_values_iff.mp hmem
      rw [← hid, h id r hr, hr, Option.some.injEq] at hget
      rw [← hget]
      exact of_decide_eq_true hle
    · intro hle
      exact ⟨e.2, List.mem_filter.mpr ⟨mem_values_of_get? hget, decide_eq_true hle⟩, h _ _ hget⟩
  rw [decide_eq_decide, hexpired, not_le]

theorem reservedUnits_expireLocked (h : d.Keyed) (now : Datetime) :
    (d.expireLocked now).reservedUnits = d.unexpiredUnits now := by
  rw [reservedUnits, unexpiredUnits, InsertionDict.values, entries_expireLocked h, InsertionDict.values, List.filter_map]
  rfl

variable {d' : Reservations}

theorem keyed_of_sublist (hsub : d'.entries.Sublist d.entries) (h : d.Keyed) : d'.Keyed :=
  fun _ _ hget => h _ _ (InsertionDict.get?_of_mem_entries (hsub.subset (InsertionDict.mem_entries_of_get? hget)))

theorem nonnegative_of_sublist (hsub : d'.entries.Sublist d.entries) (h : d.Nonnegative) :
    d'.Nonnegative := fun r hr => h r ((hsub.map Prod.snd).subset hr)

theorem reservedUnits_le_of_sublist (hsub : d'.entries.Sublist d.entries) (h : d.Nonnegative) :
    d'.reservedUnits ≤ d.reservedUnits := by
  refine ((hsub.map Prod.snd).map Reservation.units).sum_le_sum ?_
  intro n hn
  obtain ⟨r, hr, rfl⟩ := List.mem_map.mp hn
  exact h r hr

theorem expireLocked_sublist (h : d.Keyed) (now : Datetime) : (d.expireLocked now).entries.Sublist d.entries := by
  rw [entries_expireLocked h]
  exact List.filter_sublist

theorem Keyed.set (h : d.Keyed) (r : Reservation) : Keyed (InsertionDict.set d r.reservationId r) :=
  forall_set h rfl

theorem Nonnegative.set (h : d.Nonnegative) {r : Reservation} (hr : 0 ≤ r.units) (id : String) :
    Nonnegative (InsertionDict.set d id r) := by
  intro r' hr'
  obtain ⟨k, hk⟩ := mem_values_iff.mp hr'
  exact forall_set (P := fun _ v => 0 ≤ v.units)
    (fun k v hv => h v (mem_values_of_get? hv)) hr k r' hk

/-- A new reservation adds at most its units; where its identifier stood already, it takes the place of another. -/
theorem reservedUnits_set_le (h : d.Nonnegative) (id : String) (r : Reservation) :
    reservedUnits (InsertionDict.set d id r) ≤ d.reservedUnits + r.units := by
  have hentries : ∀ es : List (String × Reservation), (∀ e ∈ es, 0 ≤ e.2.units) →
      (((InsertionDict.setEntries id r es).map Prod.snd).map (·.units)).sum ≤ ((es.map Prod.snd).map (·.units)).sum + r.units := by
    intro es
    induction es with
    | nil => simp [InsertionDict.setEntries]
    | cons e es ih =>
      intro hnonneg
      obtain ⟨he, htail⟩ := List.forall_mem_cons.mp hnonneg
      by_cases hid : e.1 = id
      · simp only [InsertionDict.setEntries, if_pos hid, List.map_cons, List.sum_cons]
        omega
      · have := ih htail
        simp only [InsertionDict.setEntries, if_neg hid, List.map_cons, List.sum_cons]
        omega
  exact hentries d.entries fun e he => h e.2 (List.mem_map.mpr ⟨e, he, rfl⟩)

end Reservations

namespace ResourceLedger

/-- `id` is the new identifier, and the clock is read twice. -/
def reserve (units ttlSeconds : ℤ) (id : String) (now later : Datetime) : LedgerM String := do
  let s ← get
  match s.capacity with
  | none => throw (capacityExceededError (s.resourceId ++ ": capacity UNKNOWN → conservative deny"))
  | some capacity =>
    let remaining := s.reservations.expireLocked now
    modify fun s => { s with reservations := remaining }
    if remaining.reservedUnits + units > capacity then
      throw (capacityExceededError (s.resourceId ++ ": reservation exceeds capacity"))
    let expiresAt ← MonadExcept.ofExcept (addSeconds later ttlSeconds)
    modify fun s => { s with reservations := remaining.set id ⟨id, units, expiresAt⟩ }
    return id

def release (reservationId : String) : LedgerM Unit :=
  modify fun s => { s with reservations := s.reservations.erase reservationId }

def consumeActual : Option ℤ → LedgerM Unit
  | none => throw (.foreign "LedgerError" "unknown actual usage must not be settled as 0")
  | some units => modify fun s => { s with actualUsage := s.actualUsage + units }

def reconcile (now : Datetime) : LedgerM LedgerSnapshot := do
  modify fun s => { s with reservations := s.reservations.expireLocked now }
  let s ← get
  return ⟨s.resourceId, s.capacity, s.reservations.reservedUnits, s.actualUsage, s.reservations.entries.length⟩

end ResourceLedger

inductive LedgerCall where
  | reserve (units ttlSeconds : ℤ) (id : String) (now later : Datetime)
  | release (reservationId : String)
  | consumeActual (units : Option ℤ)
  | reconcile (now : Datetime)

namespace ResourceLedger

def step (s : ResourceLedger) : LedgerCall → ResourceLedger
  | .reserve units ttlSeconds id now later => ((reserve units ttlSeconds id now later).run s).state
  | .release id => ((release id).run s).state
  | .consumeActual units => ((consumeActual units).run s).state
  | .reconcile now => ((reconcile now).run s).state

/-- A reservation that is granted is of no negative amount, and fits beside the others and the recorded usage. -/
def Justified (s : ResourceLedger) : LedgerCall → Prop
  | .reserve units ttlSeconds id now later => ∀ a, ((reserve units ttlSeconds id now later).run s).outcome = .ok a →
      0 ≤ units ∧ ∃ capacity, s.capacity = some capacity ∧
        s.reservations.unexpiredUnits now + s.actualUsage + units ≤ capacity
  | _ => True

/-- The reservations stay within the capacity. -/
def WithinCapacity (s : ResourceLedger) : Prop := ∀ capacity, s.capacity = some capacity → s.reservations.reservedUnits ≤ capacity

/-- A request that fits beside the other reservations is not negative, and not one for units that the recorded usage
has taken. The request of a deadline outside the calendar is as good as none. -/
def Honest (s : ResourceLedger) : LedgerCall → Prop
  | .reserve units ttlSeconds _ now later => ∀ capacity deadline, s.capacity = some capacity →
      addSeconds later ttlSeconds = .ok deadline → s.reservations.unexpiredUnits now + units ≤ capacity →
      ¬units < 0 ∧ ¬capacity < s.reservations.unexpiredUnits now + s.actualUsage + units
  | _ => True

def Keyed (s : ResourceLedger) : Prop := s.reservations.Keyed

variable {s : ResourceLedger}

/-- How `reserve` ends, with the deadline of a request that is granted. -/
theorem reserve_cases (hkeyed : s.Keyed) (units ttlSeconds : ℤ) (id : String) (now later : Datetime) :
    (∃ capacity deadline, s.capacity = some capacity ∧ addSeconds later ttlSeconds = .ok deadline ∧
        s.reservations.unexpiredUnits now + units ≤ capacity ∧ (reserve units ttlSeconds id now later).run s =
          .ok id { s with reservations := (s.reservations.expireLocked now).set id ⟨id, units, deadline⟩ }) ∨
      (¬(∃ capacity deadline, s.capacity = some capacity ∧ addSeconds later ttlSeconds = .ok deadline ∧
          s.reservations.unexpiredUnits now + units ≤ capacity) ∧
        ∃ e s', (reserve units ttlSeconds id now later).run s = .error e s' ∧
          (s' = s ∨ s' = { s with reservations := s.reservations.expireLocked now })) := by
  cases hcapacity : s.capacity with
  | none =>
    have hrun : (reserve units ttlSeconds id now later).run s =
        .error (capacityExceededError (s.resourceId ++ ": capacity UNKNOWN → conservative deny")) s := by
      simp [reserve, hcapacity]
    exact .inr ⟨by simp, _, s, hrun, .inl rfl⟩
  | some capacity =>
    have hreserved := Reservations.reservedUnits_expireLocked hkeyed now
    by_cases hfits : s.reservations.unexpiredUnits now + units ≤ capacity
    · cases hdeadline : addSeconds later ttlSeconds with
      | error e =>
        refine .inr ⟨by simp, e, _, ?_, .inr rfl⟩
        simp [reserve, hcapacity, hreserved, not_lt.mpr hfits, hdeadline]
      | ok deadline =>
        refine .inl ⟨capacity, deadline, rfl, rfl, hfits, ?_⟩
        simp only [reserve, gt_iff_lt, hdeadline, bind_pure_comp, EStateM.run_bind, EStateM.run_get, hcapacity, hreserved,
          not_lt.mpr hfits, if_false, EStateM.run_modify, EStateM.run_ofExcept_ok]
        rfl
    · have hrun : (reserve units ttlSeconds id now later).run s =
          .error (capacityExceededError (s.resourceId ++ ": reservation exceeds capacity"))
            { s with reservations := s.reservations.expireLocked now } := by
        simp [reserve, hcapacity, hreserved, not_le.mp hfits]
      rw [hcapacity] at hrun
      exact .inr ⟨by simp [hfits], _, _, hrun, .inr rfl⟩

theorem justified_iff (hkeyed : s.Keyed) (i : LedgerCall) : s.Justified i ↔ s.Honest i := by
  cases i with
  | release | consumeActual | reconcile => exact Iff.rfl
  | reserve units ttlSeconds id now later =>
    simp only [Justified, Honest, not_lt]
    rcases reserve_cases hkeyed units ttlSeconds id now later with
      ⟨capacity, deadline, hcapacity, hdeadline, hfits, hrun⟩ | ⟨hrefused, e, s', hrun, _⟩
    · rw [hrun, hcapacity, hdeadline]
      constructor
      · rintro hall _ _ ⟨⟩ ⟨⟩ _
        obtain ⟨hunits, _, ⟨⟩, hle⟩ := hall id rfl
        exact ⟨hunits, hle⟩
      · rintro hall _ _
        obtain ⟨hunits, hle⟩ := hall capacity deadline rfl rfl hfits
        exact ⟨hunits, capacity, rfl, hle⟩
    · rw [hrun]
      refine iff_of_true (fun a h => by cases h) ?_
      intro capacity deadline hcapacity hdeadline hfits
      exact absurd ⟨capacity, deadline, hcapacity, hdeadline, hfits⟩ hrefused

theorem keyed_step (hkeyed : s.Keyed) (i : LedgerCall) : (s.step i).Keyed := by
  have hexpired (now : Datetime) : (s.reservations.expireLocked now).Keyed :=
    Reservations.keyed_of_sublist (Reservations.expireLocked_sublist hkeyed now) hkeyed
  cases i with
  | release id => exact Reservations.keyed_of_sublist List.filter_sublist hkeyed
  | consumeActual units => cases units <;> exact hkeyed
  | reconcile now => exact hexpired now
  | reserve units ttlSeconds id now later =>
    rcases reserve_cases hkeyed units ttlSeconds id now later with ⟨_, _, _, _, _, hrun⟩ | ⟨_, e, s', hrun, rfl | rfl⟩
    · rw [step, hrun]
      exact (hexpired now).set ⟨id, units, _⟩
    · rw [step, hrun]
      exact hkeyed
    · rw [step, hrun]
      exact hexpired now

structure Sound (s : ResourceLedger) : Prop where
  keyed : s.Keyed
  nonnegative : s.reservations.Nonnegative
  within : s.WithinCapacity

theorem Sound.of_sublist (h : s.Sound) {d : Reservations} (hsub : d.entries.Sublist s.reservations.entries) :
    Sound { s with reservations := d } where
  keyed := Reservations.keyed_of_sublist hsub h.keyed
  nonnegative := Reservations.nonnegative_of_sublist hsub h.nonnegative
  within capacity hcapacity := (Reservations.reservedUnits_le_of_sublist hsub h.nonnegative).trans (h.within capacity hcapacity)

theorem sound_step (h : s.Sound) (i : LedgerCall) (hi : s.Honest i) : (s.step i).Sound := by
  have hexpired (now : Datetime) := h.of_sublist (Reservations.expireLocked_sublist h.keyed now)
  cases i with
  | release id => exact h.of_sublist List.filter_sublist
  | consumeActual units =>
    cases units with
    | none => exact h
    | some units => exact ⟨h.keyed, h.nonnegative, h.within⟩
  | reconcile now => exact hexpired now
  | reserve units ttlSeconds id now later =>
    rcases reserve_cases h.keyed units ttlSeconds id now later with
      ⟨capacity, deadline, hcapacity, hdeadline, hfits, hrun⟩ | ⟨_, e, s', hrun, rfl | rfl⟩
    · have hunits := not_lt.mp (hi capacity deadline hcapacity hdeadline hfits).1
      have hreserved := Reservations.reservedUnits_expireLocked h.keyed now
      rw [step, hrun]
      refine ⟨(hexpired now).keyed.set ⟨id, units, deadline⟩, (hexpired now).nonnegative.set hunits id, ?_⟩
      intro capacity' hcapacity'
      obtain rfl : capacity = capacity' := Option.some.inj (hcapacity.symm.trans hcapacity')
      refine (Reservations.reservedUnits_set_le (hexpired now).nonnegative id ⟨id, units, deadline⟩).trans ?_
      rw [hreserved]
      exact hfits
    · rw [step, hrun]
      exact h
    · rw [step, hrun]
      exact hexpired now

/-- The grants of a run are justified and its totals within the capacity, exactly if a known capacity is not negative
and no request is one for a negative amount or for units that are used up. -/
theorem justified_withinCapacity_iff (resourceId : String) (capacity : Option ℤ) (calls : List LedgerCall) :
    (EveryStep step Justified ⟨resourceId, capacity, .empty, 0⟩ calls ∧ ∀ before after, calls = before ++ after →
          (MachineRuns.run step ⟨resourceId, capacity, .empty, 0⟩ before).WithinCapacity) ↔
      (∀ c, capacity = some c → 0 ≤ c) ∧ EveryStep step Honest ⟨resourceId, capacity, .empty, 0⟩ calls := by
  have hkeyed : Keyed ⟨resourceId, capacity, .empty, 0⟩ := fun _ _ h => by cases h
  have hjustified : EveryStep step Justified ⟨resourceId, capacity, .empty, 0⟩ calls ↔
      EveryStep step Honest ⟨resourceId, capacity, .empty, 0⟩ calls := by
    have hat (before : List LedgerCall) := MachineRuns.invariant_run (I := Keyed) (fun _ i h => keyed_step h i) hkeyed before
    refine forall_congr' fun before => forall_congr' fun i => forall_congr' fun after => imp_congr_right fun _ => ?_
    exact justified_iff (hat before) i
  rw [hjustified]
  constructor
  · rintro ⟨hsteps, hwithin⟩
    exact ⟨hwithin [] calls rfl, hsteps⟩
  · rintro ⟨hcapacity, hsteps⟩
    refine ⟨hsteps, ?_⟩
    rintro before after rfl
    have hsound : Sound ⟨resourceId, capacity, .empty, 0⟩ := ⟨hkeyed, fun r hr => (by cases hr), hcapacity⟩
    exact (MachineRuns.invariant_of_everyStep (I := Sound) (fun _ i h hi => sound_step h i hi) hsound
      (MachineRuns.everyStep_append_left hsteps)).within

def usedUp : List LedgerCall := [.consumeActual (some 8), .reserve 5 300 "resv_1" 0 0]

theorem usedUp_not_justified : ¬∀ (resourceId : String) (capacity : Option ℤ) (calls : List LedgerCall),
      EveryStep step Justified ⟨resourceId, capacity, .empty, 0⟩ calls ∧ ∀ before after, calls = before ++ after →
          (MachineRuns.run step ⟨resourceId, capacity, .empty, 0⟩ before).WithinCapacity := by
  intro h
  obtain ⟨_, _, ⟨⟩, hle⟩ := (h "gpu" (some 10) usedUp).1 [.consumeActual (some 8)] _ [] rfl "resv_1" rfl
  exact absurd hle (by decide)

end ResourceLedger

end AllTomorrow.Resources
