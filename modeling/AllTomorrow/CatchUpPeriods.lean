import AllTomorrow.DomainRecords
import AllTomorrow.KeyedTables
import AllTomorrow.TimestampOrder

/-!
# Catching up after downtime

The logical days of `report/trigger.py` and of `triggers.py`: their identities, and the days that have been missed since
the last one. A slice from the end keeps the last days of the horizon, except for a horizon of none.
-/

namespace AllTomorrow

open IsoTimestamps

/-! ## Dates -/

/-- A `date`. -/
structure CalendarDate where
  year : ℕ
  month : ℕ
  day : ℕ
  year_bounds : 1 ≤ year ∧ year ≤ 9999
  month_bounds : 1 ≤ month ∧ month ≤ 12
  day_bounds : 1 ≤ day ∧ day ≤ daysInMonth year month

namespace CalendarDate

/-- `toordinal()` -/
def ordinal (d : CalendarDate) : ℕ := IsoTimestamps.ordinal d.year d.month d.day

def isoformat (d : CalendarDate) : String :=
  String.ofList (pad 4 d.year ++ '-' :: (pad 2 d.month ++ '-' :: pad 2 d.day))

theorem first_month : 1 ≤ 1 ∧ 1 ≤ 12 := by decide

theorem first_day (year month : ℕ) : 1 ≤ 1 ∧ 1 ≤ daysInMonth year month := ⟨le_refl 1, one_le_daysInMonth year month⟩

def first : CalendarDate := ⟨1, 1, 1, by decide, by decide, by decide⟩

/-- `d + timedelta(days=1)`; there is none after the last day of the calendar. -/
def next (d : CalendarDate) : Option CalendarDate :=
  if hday : d.day + 1 ≤ daysInMonth d.year d.month then
    some { d with day := d.day + 1, day_bounds := ⟨Nat.le_add_left 1 _, hday⟩ }
  else if hmonth : d.month + 1 ≤ 12 then
    some { d with
      month := d.month + 1
      day := 1
      month_bounds := ⟨Nat.le_add_left 1 _, hmonth⟩
      day_bounds := first_day _ _ }
  else if hyear : d.year + 1 ≤ 9999 then
    some ⟨d.year + 1, 1, 1, ⟨Nat.le_add_left 1 _, hyear⟩, first_month, first_day _ _⟩
  else none

/-- `date.fromordinal` -/
def ofOrdinal : ℕ → Option CalendarDate
  | 0 => none
  | 1 => some first
  | n + 2 => (ofOrdinal (n + 1)).bind next

variable {d d' : CalendarDate}

theorem ordinal_next (h : d.next = some d') : d'.ordinal = d.ordinal + 1 := by
  have hday := d.day_bounds.2
  have hmonth := daysBeforeMonth_succ d.year d.month_bounds.1
  unfold next at h
  split_ifs at h with hday' hmonth' hyear'
  · cases h
    simp only [ordinal, IsoTimestamps.ordinal]
    omega
  · cases h
    simp only [ordinal, IsoTimestamps.ordinal, hmonth]
    omega
  · cases h
    have hdecember : d.month = 12 := by
      have := d.month_bounds
      omega
    have hyear := daysBeforeYear_succ d.year_bounds.1
    have hlast := daysBeforeMonth_year d.year
    have hjanuary : daysBeforeMonth (d.year + 1) 1 = 0 := rfl
    rw [hdecember] at hmonth hday hday'
    simp only [ordinal, IsoTimestamps.ordinal, hyear, ← hlast, hmonth, hdecember, hjanuary]
    omega

def Before (d d' : CalendarDate) : Prop :=
  d.year < d'.year ∨ d.year = d'.year ∧ (d.month < d'.month ∨ d.month = d'.month ∧ d.day < d'.day)

theorem ordinal_lt_of_before (h : d.Before d') : d.ordinal < d'.ordinal := by
  rcases h with hyear | ⟨hyear, hmonth | ⟨hmonth, hday⟩⟩
  · exact ordinal_lt_of_year d.year_bounds.1 hyear d.month_bounds.1 d.month_bounds.2 d.day_bounds.2 d'.day_bounds.1
  · have hlt := ordinal_lt_of_month d.month_bounds.1 hmonth d.day_bounds.2 d'.day_bounds.1
    unfold ordinal
    rwa [← hyear]
  · simp only [ordinal, IsoTimestamps.ordinal, hyear, hmonth]
    omega

theorem before_trichotomy (d d' : CalendarDate) : d.Before d' ∨ d = d' ∨ d'.Before d := by
  by_cases hbefore : d.Before d'
  · exact .inl hbefore
  by_cases hafter : d'.Before d
  · exact .inr (.inr hafter)
  unfold Before at hbefore hafter
  refine .inr (.inl ?_)
  cases d
  cases d'
  rw [CalendarDate.mk.injEq]
  simp only at hbefore hafter
  omega

theorem ordinal_inj (h : d.ordinal = d'.ordinal) : d = d' := by
  rcases before_trichotomy d d' with hlt | heq | hlt
  · exact absurd h (ordinal_lt_of_before hlt).ne
  · exact heq
  · exact absurd h (ordinal_lt_of_before hlt).ne'

theorem ordinal_le_last {last : CalendarDate} (h : last.next = none) (d : CalendarDate) : d.ordinal ≤ last.ordinal := by
  rcases before_trichotomy d last with hlt | rfl | hlt
  · exact (ordinal_lt_of_before hlt).le
  · exact le_refl _
  · have hyear := d.year_bounds
    have hmonth := d.month_bounds
    have hday := d.day_bounds
    unfold next at h
    split_ifs at h with h₁ h₂ h₃
    rcases hlt with hyear' | ⟨hyear', hmonth' | ⟨hmonth', hday'⟩⟩
    · omega
    · omega
    · rw [← hyear', ← hmonth'] at hday
      omega

theorem isoformat_append_inj {r r' : List Char} (h : d.isoformat.toList ++ r = d'.isoformat.toList ++ r') : d = d' := by
  have hyear := d.year_bounds
  have hyear' := d'.year_bounds
  have hmonth := d.month_bounds
  have hmonth' := d'.month_bounds
  have hday := d.day_bounds.2.trans (Timestamp.daysInMonth_le _ _)
  have hday' := d'.day_bounds.2.trans (Timestamp.daysInMonth_le _ _)
  simp only [isoformat, String.toList_ofList, List.append_assoc, List.cons_append] at h
  have h₁ := congrArg (readDigits 4 0) h
  rw [readDigits_pad_of_lt (by omega), readDigits_pad_of_lt (by omega), Option.some.injEq, Prod.mk.injEq] at h₁
  have h₂ := congrArg (readDigits 2 0) (List.cons.inj h₁.2).2
  rw [readDigits_pad_of_lt (by omega), readDigits_pad_of_lt (by omega), Option.some.injEq, Prod.mk.injEq] at h₂
  have h₃ := congrArg (readDigits 2 0) (List.cons.inj h₂.2).2
  rw [readDigits_pad_of_lt (by omega), readDigits_pad_of_lt (by omega), Option.some.injEq, Prod.mk.injEq] at h₃
  obtain ⟨year, month, day⟩ := d
  obtain ⟨year', month', day'⟩ := d'
  obtain ⟨rfl, rfl, rfl⟩ : year = year' ∧ month = month' ∧ day = day' := ⟨h₁.1, h₂.1, h₃.1⟩
  rfl

end CalendarDate

open CalendarDate

def outOfRange : Exn := overflowError "date value out of range"

/-- The date of a local time, in microseconds since the day before the first day of the calendar. -/
def dateAt (micros : ℤ) : Except Exn CalendarDate :=
  match ofOrdinal (micros / 86400000000).toNat with
  | none => .error outOfRange
  | some d => .ok d

/-! ## The loop of both catch-ups -/

/-- `while d <= today` -/
def collectDays (text : CalendarDate → String) (today d : CalendarDate) : Except Exn (List String) :=
  if d.ordinal ≤ today.ordinal then
    match hnext : d.next with
    | none => .error outOfRange
    | some d' => do return text d :: (← collectDays text today d')
  else .ok []
termination_by today.ordinal + 1 - d.ordinal
decreasing_by
  have := ordinal_next hnext
  omega

/-- `xs[-n:]`, where `-0` is `0`. -/
def sliceLast {α : Type*} (xs : List α) (n : ℤ) : List α :=
  if -n < 0 then xs.drop (xs.length - n.toNat) else xs.drop (-n).toNat

def catchUp (text : CalendarDate → String) (horizon : ℤ) (last today : CalendarDate) : Except Exn (List String) :=
  match last.next with
  | none => .error outOfRange
  | some d => do
    let out ← collectDays text today d
    if (out.length : ℤ) > horizon then return sliceLast out horizon
    return out

theorem collectDays_ok (text : CalendarDate → String) {today d : CalendarDate} (h : today.next ≠ none) :
    ∃ ds : List CalendarDate, collectDays text today d = .ok (ds.map text) ∧
      ds.map CalendarDate.ordinal = List.range' d.ordinal (today.ordinal + 1 - d.ordinal) := by
  fun_induction collectDays text today d with
  | case1 d hle hnone =>
    obtain ⟨tomorrow, htomorrow⟩ := Option.ne_none_iff_exists'.mp h
    have hlast := ordinal_le_last hnone tomorrow
    rw [ordinal_next htomorrow] at hlast
    omega
  | case2 d hle d' hnext ih =>
    obtain ⟨ds, hds, hord⟩ := ih
    refine ⟨d :: ds, by rw [hds]; rfl, ?_⟩
    rw [List.map_cons, hord, ordinal_next hnext, show today.ordinal + 1 - d.ordinal = today.ordinal - d.ordinal + 1 by omega,
      List.range'_succ, Nat.add_sub_add_right]
  | case3 d hle => exact ⟨[], rfl, by rw [Nat.sub_eq_zero_of_le (by omega)]; rfl⟩

theorem collectDays_overflow (text : CalendarDate → String) {today d : CalendarDate} (h : today.next = none)
    (hle : d.ordinal ≤ today.ordinal) : ∃ e, collectDays text today d = .error e := by
  fun_induction collectDays text today d with
  | case1 d _ _ => exact ⟨_, rfl⟩
  | case2 d _ d' hnext ih =>
    obtain ⟨e, he⟩ := ih (ordinal_le_last h d')
    exact ⟨e, by rw [he]; rfl⟩
  | case3 d hgt => exact absurd hle hgt

/-- At most `horizon` keys come back, those of different days in a row, after the last one and up to the one that
`current` names. -/
def CaughtUp (text : CalendarDate → String) (horizon : ℤ) (last : CalendarDate) (current : Except Exn String)
    (result : Except Exn (List String)) : Prop :=
  ∃ ds : List CalendarDate, result = .ok (ds.map text) ∧ (ds.length : ℤ) ≤ horizon ∧ (ds.map text).Nodup ∧
    (∃ start, last.ordinal < start ∧ ds.map CalendarDate.ordinal = List.range' start ds.length) ∧
    ∀ key, (ds.map text).getLast? = some key → current = .ok key

/-- No date of the calendar is passed, and a horizon of none has nothing to leave out. -/
def Reachable (horizon : ℤ) (last : CalendarDate) (today : Except Exn CalendarDate) : Prop :=
  ∃ day, today = .ok day ∧ last.next ≠ none ∧ day.next ≠ none ∧ (horizon = 0 → day.ordinal ≤ last.ordinal)

theorem drop_map_range' {ds : List CalendarDate} {start : ℕ} (h : ds.map CalendarDate.ordinal = List.range' start ds.length)
    (n : ℕ) : (ds.drop n).map CalendarDate.ordinal = List.range' (start + n) (ds.drop n).length := by
  rw [List.map_drop, h, List.drop_range', List.length_drop, Nat.mul_one]

theorem sliceLast_map {α β : Type*} (f : α → β) (xs : List α) {n : ℤ} (h : 1 ≤ n) :
    sliceLast (xs.map f) n = (xs.drop (xs.length - n.toNat)).map f := by
  rw [sliceLast, if_pos (by omega), List.length_map, List.map_drop]

theorem caughtUp_iff {text : CalendarDate → String} (htext : Function.Injective text) {horizon : ℤ} (hhorizon : 0 ≤ horizon)
    (last : CalendarDate) (today : Except Exn CalendarDate) :
    CaughtUp text horizon last (text <$> today) (today >>= catchUp text horizon last) ↔ Reachable horizon last today := by
  cases today with
  | error e => exact iff_of_false (fun ⟨_, h, _⟩ => by cases h) fun ⟨_, h, _⟩ => by cases h
  | ok day =>
    change CaughtUp text horizon last (.ok (text day)) (catchUp text horizon last day) ↔ _
    cases hfirst : last.next with
    | none => exact iff_of_false (fun ⟨_, h, _⟩ => by simp [catchUp, hfirst] at h) fun ⟨_, _, h, _⟩ => h hfirst
    | some d =>
      have hord := ordinal_next hfirst
      by_cases hover : day.next = none
      · refine iff_of_false (fun ⟨_, h, _⟩ => ?_) fun ⟨_, h, _, hday, _⟩ => by cases h; exact hday hover
        obtain ⟨e, he⟩ := collectDays_overflow text hover (ordinal_le_last hover d)
        simp [catchUp, hfirst, he, bind, Except.bind] at h
      obtain ⟨ds, hds, hrange⟩ := collectDays_ok text (d := d) hover
      have hlength : ds.length = day.ordinal - last.ordinal := by
        have := congrArg List.length hrange
        rw [List.length_map, List.length_range'] at this
        omega
      have hresult : catchUp text horizon last day =
          .ok (if (ds.length : ℤ) > horizon then sliceLast (ds.map text) horizon else ds.map text) := by
        simp only [catchUp, hfirst, hds, bind, Except.bind, List.length_map]
        split <;> rfl
      have hreach : Reachable horizon last (.ok day) ↔ (horizon = 0 → day.ordinal ≤ last.ordinal) := by
        constructor
        · rintro ⟨_, ⟨⟩, _, _, h⟩
          exact h
        · exact fun h => ⟨day, rfl, by simp [hfirst], hover, h⟩
      rw [hreach, hresult]
      constructor
      · rintro ⟨ds', hds', hle, _⟩ hzero
        by_contra hlate
        have hpos : (ds.length : ℤ) > 0 := by omega
        rw [hzero, if_pos hpos] at hds'
        have hcount := congrArg List.length (Except.ok.inj hds')
        simp only [sliceLast, neg_zero, lt_irrefl, if_false, Int.toNat_zero, List.drop_zero, List.length_map] at hcount
        omega
      · intro hzero
        -- what is left out stands at the front
        obtain ⟨n, hn, hkept⟩ : ∃ n : ℕ, (ds.length : ℤ) - n ≤ horizon ∧ (n = 0 ∨ n < ds.length) ∧
            (if (ds.length : ℤ) > horizon then sliceLast (ds.map text) horizon else ds.map text) = (ds.drop n).map text := by
          split
          · exact ⟨ds.length - horizon.toNat, by omega, by omega, sliceLast_map text ds (by omega)⟩
          · exact ⟨0, by omega, .inl rfl, rfl⟩
        rw [hkept.2]
        rw [show day.ordinal + 1 - d.ordinal = ds.length by omega] at hrange
        have hrange' := drop_map_range' hrange n
        refine ⟨ds.drop n, rfl, ?_, ?_, ⟨d.ordinal + n, by omega, hrange'⟩, ?_⟩
        · rw [List.length_drop]
          omega
        · have hnodup : ((ds.drop n).map CalendarDate.ordinal).Nodup := hrange' ▸ List.nodup_range'
          exact hnodup.of_map.map htext
        · intro key hkey
          rw [List.getLast?_map, Option.map_eq_some_iff] at hkey
          obtain ⟨d', hd', rfl⟩ := hkey
          have hlast := congrArg List.getLast? hrange'
          rw [List.getLast?_map, hd', Option.map_some, List.getLast?_range'] at hlast
          split at hlast
          · cases hlast
          · rename_i hne
            rw [List.length_drop] at hlast hne
            have hsame : d'.ordinal = day.ordinal := by
              have := Option.some.inj hlast
              omega
            rw [ordinal_inj hsame]

section Periods

variable (localMicros : String → Datetime → Except Exn ℤ)

/-- `localMicros` is `astimezone` with the named time zone. -/
structure TimeModel where
  timezone : String
  boundaryHourLocal : ℤ := 0
  catchUpHorizonDays : ℤ := 7

def boundaryPolicyVersion : String := "1"

def TimeModel.reportDay (model : TimeModel) (instant : Datetime) : Except Exn CalendarDate := do
  dateAt ((← localMicros model.timezone instant) - model.boundaryHourLocal * 3600000000)

def logicalPeriodId (model : TimeModel) (instant : Datetime) : Except Exn String := do
  let d ← model.reportDay localMicros instant
  return d.isoformat ++ ("|" ++ model.timezone ++ "|bp" ++ boundaryPolicyVersion)

def periodsToCatchUp (model : TimeModel) (lastDone : CalendarDate) (now : Datetime) : Except Exn (List String) := do
  let today ← model.reportDay localMicros now
  catchUp (fun d => d.isoformat ++ ("|" ++ model.timezone ++ "|bp" ++ boundaryPolicyVersion)) model.catchUpHorizonDays
    lastDone today

inductive TriggerKind where
  | recurringDaily | oneShot | system

structure TriggerRecord where
  triggerId : String
  userId : String
  kind : TriggerKind
  timezone : String
  revision : ℤ := 1
  enabled : Bool := true
  catchUpHorizonDays : ℤ := 7

def TriggerRecord.fireDay (t : TriggerRecord) (instant : Datetime) : Except Exn CalendarDate := do
  dateAt (← localMicros t.timezone instant)

def logicalFireKey (t : TriggerRecord) (instant : Datetime) : Except Exn String := do
  let d ← t.fireDay localMicros instant
  return t.triggerId ++ "|" ++ (d.isoformat ++ ("|" ++ t.timezone ++ "|r" ++ toString t.revision))

/-- `TriggerScheduler.catch_up_keys` -/
def catchUpKeys (triggers : KeyedTable TriggerRecord.triggerId) (triggerId : String) (lastFired : CalendarDate)
    (now : Datetime) : Except Exn (List String) :=
  match triggers.get? triggerId with
  | none => .error (.keyError triggerId)
  | some t => do
    let today ← t.fireDay localMicros now
    catchUp (fun d => triggerId ++ "|" ++ (d.isoformat ++ ("|" ++ t.timezone ++ "|r" ++ toString t.revision)))
      t.catchUpHorizonDays lastFired today

theorem dated_injective (before after : String) :
    Function.Injective fun d : CalendarDate => before ++ (d.isoformat ++ after) := by
  intro d d' h
  have hchars := congrArg String.toList h
  simp only [String.toList_append, List.append_cancel_left_eq] at hchars
  exact isoformat_append_inj hchars

/-- Both catch-ups are bounded and current exactly if no date leaves the calendar and a horizon of none has nothing to
leave out. -/
theorem caughtUp_both_iff :
    (∀ (model : TimeModel) (lastDone : CalendarDate) (now : Datetime), 0 ≤ model.catchUpHorizonDays →
      (CaughtUp (fun d => d.isoformat ++ ("|" ++ model.timezone ++ "|bp" ++ boundaryPolicyVersion))
          model.catchUpHorizonDays lastDone (logicalPeriodId localMicros model now)
          (periodsToCatchUp localMicros model lastDone now) ↔
        Reachable model.catchUpHorizonDays lastDone (model.reportDay localMicros now))) ∧
      ∀ (triggers : KeyedTable TriggerRecord.triggerId) (t : TriggerRecord) (lastFired : CalendarDate) (now : Datetime),
        triggers.get? t.triggerId = some t → 0 ≤ t.catchUpHorizonDays →
        (CaughtUp (fun d => t.triggerId ++ "|" ++ (d.isoformat ++ ("|" ++ t.timezone ++ "|r" ++ toString t.revision)))
            t.catchUpHorizonDays lastFired (logicalFireKey localMicros t now)
            (catchUpKeys localMicros triggers t.triggerId lastFired now) ↔
          Reachable t.catchUpHorizonDays lastFired (t.fireDay localMicros now)) := by
  constructor
  · intro model lastDone now hhorizon
    have hinj := dated_injective "" ("|" ++ model.timezone ++ "|bp" ++ boundaryPolicyVersion)
    simp only [String.empty_append] at hinj
    exact caughtUp_iff hinj hhorizon lastDone (model.reportDay localMicros now)
  · intro triggers t lastFired now hget hhorizon
    rw [catchUpKeys, hget]
    exact caughtUp_iff (dated_injective _ _) hhorizon lastFired (t.fireDay localMicros now)

/-- Two days have been missed, and a horizon of none returns them both. -/
theorem noHorizon_not_caughtUp :
    ¬∀ (localMicros : String → Datetime → Except Exn ℤ) (model : TimeModel) (lastDone : CalendarDate) (now : Datetime),
      0 ≤ model.catchUpHorizonDays →
      CaughtUp (fun d => d.isoformat ++ ("|" ++ model.timezone ++ "|bp" ++ boundaryPolicyVersion))
        model.catchUpHorizonDays lastDone (logicalPeriodId localMicros model now)
        (periodsToCatchUp localMicros model lastDone now) := by
  intro h
  have hinj := dated_injective "" ("|" ++ "UTC" ++ "|bp" ++ boundaryPolicyVersion)
  simp only [String.empty_append] at hinj
  have hmet := h (fun _ t => .ok t) ⟨"UTC", 0, 0⟩ first (3 * 86400000000) (le_refl 0)
  obtain ⟨day, hday, -, -, hlate⟩ := (caughtUp_iff hinj (le_refl 0) first _).mp hmet
  cases hday
  exact absurd (hlate rfl) (by decide)

end Periods

end AllTomorrow
