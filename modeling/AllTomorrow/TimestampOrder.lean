import AllTomorrow.IsoTimestamps

/-!
# The order of timestamps

Timestamps in UTC by the microseconds since the first day of the calendar. Their ISO texts are ordered as
they are, and a day before a timestamp is its date with the date before.
-/

namespace IsoTimestamps

/-! ## Texts of numbers -/

theorem digit_lt {d d' : ℕ} (h : d < d') (hd' : d' < 10) : Char.ofNat (48 + d) < Char.ofNat (48 + d') := by
  interval_cases d' <;> interval_cases d <;> decide

theorem append_lt_append (cs : List Char) {r r' : List Char} (h : r < r') : cs ++ r < cs ++ r' := by
  induction cs with
  | nil => exact h
  | cons c cs ih => exact List.cons_lt_cons_iff.mpr (.inr ⟨rfl, ih⟩)

theorem pad_lt_of_mod {k n n' : ℕ} (h : n % 10 ^ k < n' % 10 ^ k) (r r' : List Char) : pad k n ++ r < pad k n' ++ r' := by
  induction k with
  | zero =>
    rw [pow_zero, Nat.mod_one, Nat.mod_one] at h
    exact absurd h (Nat.lt_irrefl 0)
  | succ k ih =>
    have hsplit (m : ℕ) : m % 10 ^ (k + 1) = m / 10 ^ k % 10 * 10 ^ k + m % 10 ^ k := by
      rw [pow_succ, Nat.mod_mul]
      ring
    have hlow : n % 10 ^ k < 10 ^ k := Nat.mod_lt _ (by positivity)
    have hlow' : n' % 10 ^ k < 10 ^ k := Nat.mod_lt _ (by positivity)
    rw [hsplit, hsplit] at h
    rw [pad, pad, List.cons_append, List.cons_append, List.cons_lt_cons_iff]
    rcases Nat.lt_trichotomy (n / 10 ^ k % 10) (n' / 10 ^ k % 10) with hlt | heq | hgt
    · exact .inl (digit_lt hlt (Nat.mod_lt _ (by decide)))
    · rw [heq] at h ⊢
      exact .inr ⟨rfl, ih (by omega)⟩
    · have hmul : (n' / 10 ^ k % 10 + 1) * 10 ^ k ≤ n / 10 ^ k % 10 * 10 ^ k := Nat.mul_le_mul_right _ hgt
      rw [Nat.add_mul, Nat.one_mul] at hmul
      omega

theorem pad_lt {k n n' : ℕ} (h : n < n') (hn' : n' < 10 ^ k) (r r' : List Char) : pad k n ++ r < pad k n' ++ r' := by
  refine pad_lt_of_mod ?_ r r'
  rw [Nat.mod_eq_of_lt (h.trans hn'), Nat.mod_eq_of_lt hn']
  exact h

/-! ## Dates -/

def daysBeforeYear (year : ℕ) : ℕ := (year - 1) * 365 + (year - 1) / 4 - (year - 1) / 100 + (year - 1) / 400

def daysBeforeMonth (year : ℕ) : ℕ → ℕ
  | 0 => 0
  | 1 => 0
  | month + 2 => daysBeforeMonth year (month + 1) + daysInMonth year (month + 1)

/-- `toordinal()` -/
def ordinal (year month day : ℕ) : ℕ := daysBeforeYear year + daysBeforeMonth year month + day

def daysInYear (year : ℕ) : ℕ := if isLeap year then 366 else 365

theorem daysBeforeMonth_succ (year : ℕ) {month : ℕ} (h : 1 ≤ month) :
    daysBeforeMonth year (month + 1) = daysBeforeMonth year month + daysInMonth year month := by
  cases month with
  | zero => omega
  | succ month => rfl

theorem daysBeforeMonth_mono (year : ℕ) {month month' : ℕ} (h : month ≤ month') :
    daysBeforeMonth year month ≤ daysBeforeMonth year month' := by
  induction h with
  | refl => exact le_refl _
  | @step m _ ih =>
    refine ih.trans ?_
    cases m with
    | zero => exact le_refl _
    | succ m => exact Nat.le_add_right _ _

theorem daysBeforeMonth_year (year : ℕ) : daysBeforeMonth year 13 = daysInYear year := by
  cases hleap : isLeap year <;> simp [daysBeforeMonth, daysInMonth, daysInYear, hleap]

theorem daysBeforeYear_succ {year : ℕ} (h : 1 ≤ year) : daysBeforeYear (year + 1) = daysBeforeYear year + daysInYear year := by
  obtain ⟨n, rfl⟩ : ∃ n, year = n + 1 := ⟨year - 1, by omega⟩
  have hleap : isLeap (n + 1) = true ↔ 4 ∣ n + 1 ∧ (¬100 ∣ n + 1 ∨ 400 ∣ n + 1) := by
    simp only [isLeap, Bool.and_eq_true, Bool.or_eq_true, decide_eq_true_eq, Nat.dvd_iff_mod_eq_zero, ne_eq]
  have hdays : daysInYear (n + 1) = if 4 ∣ n + 1 ∧ (¬100 ∣ n + 1 ∨ 400 ∣ n + 1) then 366 else 365 := by
    unfold daysInYear
    simp only [hleap]
  have hfour : n / 100 ≤ n / 4 := Nat.div_le_div_left (by decide) (by decide)
  unfold daysBeforeYear
  rw [hdays, Nat.add_sub_cancel, Nat.add_sub_cancel, @Nat.succ_div n 4, @Nat.succ_div n 100, @Nat.succ_div n 400]
  by_cases h4 : 4 ∣ n + 1
  · by_cases h100 : 100 ∣ n + 1
    · by_cases h400 : 400 ∣ n + 1
      · simp only [h4, h100, h400, if_true, not_true_eq_false, false_or, and_self]
        omega
      · simp only [h4, h100, h400, if_true, if_false, not_true_eq_false, or_self, and_false]
        omega
    · have h400 : ¬400 ∣ n + 1 := fun hd => h100 (Nat.dvd_trans (by decide) hd)
      simp only [h4, h100, h400, if_true, if_false, not_false_eq_true, true_or, and_self]
      omega
  · have h100 : ¬100 ∣ n + 1 := fun hd => h4 (Nat.dvd_trans (by decide) hd)
    have h400 : ¬400 ∣ n + 1 := fun hd => h4 (Nat.dvd_trans (by decide) hd)
    simp only [h4, h100, h400, if_false, false_and]
    omega

theorem daysBeforeYear_mono {year year' : ℕ} (hyear : 1 ≤ year) (h : year ≤ year') : daysBeforeYear year ≤ daysBeforeYear year' := by
  induction h with
  | refl => exact le_refl _
  | @step m hle ih =>
    rw [daysBeforeYear_succ (hyear.trans hle)]
    exact ih.trans (Nat.le_add_right _ _)

theorem ordinal_lt_of_month {year month month' day day' : ℕ} (hmonth : 1 ≤ month) (h : month < month')
    (hday : day ≤ daysInMonth year month) (hday' : 1 ≤ day') : ordinal year month day < ordinal year month' day' := by
  have hnext := daysBeforeMonth_succ year hmonth
  have hmono := daysBeforeMonth_mono year (show month + 1 ≤ month' from h)
  unfold ordinal
  omega

theorem ordinal_lt_of_year {year year' month month' day day' : ℕ} (hyear : 1 ≤ year) (h : year < year') (hmonth : 1 ≤ month)
    (hmonth' : month ≤ 12) (hday : day ≤ daysInMonth year month) (hday' : 1 ≤ day') :
    ordinal year month day < ordinal year' month' day' := by
  have hnext := daysBeforeMonth_succ year hmonth
  have hmono := daysBeforeMonth_mono year (show month + 1 ≤ 13 by omega)
  rw [daysBeforeMonth_year] at hmono
  have hyears : daysBeforeYear (year + 1) ≤ daysBeforeYear year' := daysBeforeYear_mono (by omega) h
  rw [daysBeforeYear_succ hyear] at hyears
  unfold ordinal
  omega

theorem one_le_daysInMonth (year month : ℕ) : 1 ≤ daysInMonth year month := by
  unfold daysInMonth
  split_ifs <;> decide

theorem december_bounds : 1 ≤ 12 ∧ 12 ≤ 12 := by decide

theorem december_days (year : ℕ) : 1 ≤ 31 ∧ 31 ≤ daysInMonth year 12 := ⟨by decide, le_refl _⟩

/-! ## Timestamps -/

namespace Timestamp

def clock (t : Timestamp) : ℕ := (t.hour * 60 + t.minute) * 60 + t.second

/-- The microseconds since the first day of the calendar, by the date and clock of the timestamp. -/
def micros (t : Timestamp) : ℕ := (ordinal t.year t.month t.day * 86400 + t.clock) * 1000000 + t.microsecond

def Earlier (t t' : Timestamp) : Prop :=
  t.year < t'.year ∨ t.year = t'.year ∧ (t.month < t'.month ∨ t.month = t'.month ∧ (t.day < t'.day ∨ t.day = t'.day ∧
    (t.hour < t'.hour ∨ t.hour = t'.hour ∧ (t.minute < t'.minute ∨ t.minute = t'.minute ∧ (t.second < t'.second ∨
      t.second = t'.second ∧ t.microsecond < t'.microsecond)))))

variable {t t' : Timestamp}

theorem micros_lt_of_earlier (h : t.Earlier t') : t.micros < t'.micros := by
  have hclock := t.clock_bounds
  have hclock' := t'.clock_bounds
  have hbefore (hdate : ordinal t.year t.month t.day < ordinal t'.year t'.month t'.day) : t.micros < t'.micros := by
    unfold micros clock
    omega
  rcases h with hyear | ⟨hyear, hmonth | ⟨hmonth, hday | ⟨hday, h⟩⟩⟩
  · exact hbefore (ordinal_lt_of_year t.year_bounds.1 hyear t.month_bounds.1 t.month_bounds.2 t.day_bounds.2 t'.day_bounds.1)
  · rw [← hyear] at hbefore
    exact hbefore (ordinal_lt_of_month t.month_bounds.1 hmonth t.day_bounds.2 t'.day_bounds.1)
  · refine hbefore ?_
    unfold ordinal
    rw [hyear, hmonth]
    omega
  · unfold micros clock ordinal
    rw [hyear, hmonth, hday]
    omega

theorem earlier_trichotomy (t t' : Timestamp) : t.Earlier t' ∨ (t.offset = t'.offset → t = t') ∨ t'.Earlier t := by
  by_cases hearlier : t.Earlier t'
  · exact .inl hearlier
  by_cases hlater : t'.Earlier t
  · exact .inr (.inr hlater)
  refine .inr (.inl fun hoffset => ?_)
  unfold Earlier at hearlier hlater
  have hyear : t.year = t'.year := by omega
  have hmonth : t.month = t'.month := by omega
  have hday : t.day = t'.day := by omega
  have hhour : t.hour = t'.hour := by omega
  have hminute : t.minute = t'.minute := by omega
  have hsecond : t.second = t'.second := by omega
  have hmicrosecond : t.microsecond = t'.microsecond := by omega
  cases t
  cases t'
  rw [Timestamp.mk.injEq]
  exact ⟨hyear, hmonth, hday, hhour, hminute, hsecond, hmicrosecond, hoffset⟩

/-- One field of the text: the rest decides where the numbers are equal. -/
theorem pad_append_lt {width n n' : ℕ} {Rest : Prop} {r r' : List Char} (h : n < n' ∨ n = n' ∧ Rest)
    (hn' : n' < 10 ^ width) (hrest : Rest → r < r') : pad width n ++ r < pad width n' ++ r' := by
  rcases h with hlt | ⟨rfl, h⟩
  · exact pad_lt hlt hn' _ _
  · exact append_lt_append _ (hrest h)

theorem fraction_lt {n n' : ℕ} (h : n < n') (hn' : n' < 1000000) (r r' : List Char) :
    fraction n ++ '+' :: r < fraction n' ++ '+' :: r' := by
  unfold fraction
  rw [if_neg (by omega : ¬n' = 0)]
  split
  · exact List.cons_lt_cons_iff.mpr (.inl (by decide))
  · exact List.cons_lt_cons_iff.mpr (.inr ⟨rfl, pad_lt h hn' _ _⟩)

/-- Where both have an offset that is not negative, the texts are ordered as the fields. -/
theorem isoformat_lt_of_earlier {offset offset' : UtcOffset} (hoffset : t.offset = some offset)
    (hpositive : offset.negative = false) (hoffset' : t'.offset = some offset') (hpositive' : offset'.negative = false)
    (h : t.Earlier t') : t.isoformatChars < t'.isoformatChars := by
  have hyear' := t'.year_bounds
  have hmonth' := t'.month_bounds
  have hday' := t'.day_bounds
  have hdays := daysInMonth_le t'.year t'.month
  obtain ⟨hhour', hminute', hsecond', hmicro'⟩ := t'.clock_bounds
  have htext : ∃ r, offsetText t.offset = '+' :: r := by
    rw [hoffset]
    exact ⟨_, by rw [offsetText, UtcOffset.text, hpositive]; rfl⟩
  have htext' : ∃ r, offsetText t'.offset = '+' :: r := by
    rw [hoffset']
    exact ⟨_, by rw [offsetText, UtcOffset.text, hpositive']; rfl⟩
  obtain ⟨r, hr⟩ := htext
  obtain ⟨r', hr'⟩ := htext'
  unfold isoformatChars
  rw [hr, hr']
  refine pad_append_lt h (by omega) fun h => List.cons_lt_cons_iff.mpr (.inr ⟨rfl, ?_⟩)
  refine pad_append_lt h (by omega) fun h => List.cons_lt_cons_iff.mpr (.inr ⟨rfl, ?_⟩)
  refine pad_append_lt h (by omega) fun h => List.cons_lt_cons_iff.mpr (.inr ⟨rfl, ?_⟩)
  refine pad_append_lt h (by omega) fun h => List.cons_lt_cons_iff.mpr (.inr ⟨rfl, ?_⟩)
  refine pad_append_lt h (by omega) fun h => List.cons_lt_cons_iff.mpr (.inr ⟨rfl, ?_⟩)
  exact pad_append_lt h (by omega) fun h => fraction_lt h hmicro' _ _

/-- The date before, at the same time of the day. There is none before the first day of the calendar. -/
def yesterday (t : Timestamp) : Option Timestamp :=
  if hday : 1 < t.day then
    some { t with
      day := t.day - 1
      day_bounds := ⟨Nat.le_sub_one_of_lt hday, (Nat.sub_le _ _).trans t.day_bounds.2⟩ }
  else if hmonth : 1 < t.month then
    some { t with
      month := t.month - 1
      day := daysInMonth t.year (t.month - 1)
      month_bounds := ⟨Nat.le_sub_one_of_lt hmonth, (Nat.sub_le _ _).trans t.month_bounds.2⟩
      day_bounds := ⟨one_le_daysInMonth _ _, le_refl _⟩ }
  else if hyear : 1 < t.year then
    some { t with
      year := t.year - 1
      month := 12
      day := 31
      year_bounds := ⟨Nat.le_sub_one_of_lt hyear, (Nat.sub_le _ _).trans t.year_bounds.2⟩
      month_bounds := december_bounds
      day_bounds := december_days _ }
  else none

theorem micros_yesterday (h : t.yesterday = some t') : t'.micros + 86400 * 1000000 = t.micros := by
  have hday := t.day_bounds
  unfold yesterday at h
  split_ifs at h with hday' hmonth' hyear'
  · cases h
    simp only [micros, clock, ordinal]
    omega
  · cases h
    have hlast := daysBeforeMonth_succ t.year (show 1 ≤ t.month - 1 by omega)
    rw [Nat.sub_add_cancel t.month_bounds.1] at hlast
    have hone : t.day = 1 := by omega
    simp only [micros, clock, ordinal, hlast, hone]
    omega
  · cases h
    have hlast := daysBeforeYear_succ (show 1 ≤ t.year - 1 by omega)
    rw [Nat.sub_add_cancel t.year_bounds.1] at hlast
    have hdecember := daysBeforeMonth_year (t.year - 1)
    rw [daysBeforeMonth_succ (t.year - 1) (show 1 ≤ 12 by decide), show daysInMonth (t.year - 1) 12 = 31 from rfl] at hdecember
    have hmonth : t.month = 1 := by
      have := t.month_bounds
      omega
    have hjanuary : daysBeforeMonth t.year 1 = 0 := rfl
    have hone : t.day = 1 := by omega
    simp only [micros, clock, ordinal, hlast, hmonth, hjanuary, hone]
    omega

theorem offset_yesterday (h : t.yesterday = some t') : t'.offset = t.offset := by
  unfold yesterday at h
  split_ifs at h <;> cases h <;> rfl

end Timestamp

def UtcOffset.micros (offset : UtcOffset) : ℤ :=
  let size : ℤ := ((offset.hour * 60 + offset.minute) * 60 + offset.second) * 1000000 + offset.microsecond
  if offset.negative then -size else size

theorem zero_lt_day : 0 < 24 := by decide

theorem zero_lt_sixty : 0 < 60 := by decide

theorem zero_lt_million : 0 < 1000000 := by decide

/-- `+00:00` -/
def utc : UtcOffset := ⟨false, 0, 0, 0, 0, zero_lt_day, zero_lt_sixty, zero_lt_sixty, zero_lt_million⟩

@[simp] theorem micros_utc : utc.micros = 0 := rfl

abbrev UtcTimestamp := { t : Timestamp // t.offset = some utc }

namespace UtcTimestamp

def micros (t : UtcTimestamp) : ℕ := t.1.micros

def isoformat (t : UtcTimestamp) : String := t.1.isoformat

def yesterday (t : UtcTimestamp) : Option UtcTimestamp :=
  match h : t.1.yesterday with
  | none => none
  | some t' => some ⟨t', (Timestamp.offset_yesterday h).trans t.2⟩

theorem micros_yesterday {t t' : UtcTimestamp} (h : t.yesterday = some t') : t'.micros + 86400 * 1000000 = t.micros := by
  unfold yesterday at h
  split at h
  · cases h
  · next before hbefore =>
    cases h
    exact Timestamp.micros_yesterday hbefore

theorem isoformat_lt_iff (t t' : UtcTimestamp) : t.isoformat < t'.isoformat ↔ t.micros < t'.micros := by
  have hlt {a b : UtcTimestamp} (h : a.1.Earlier b.1) : a.isoformat < b.isoformat ∧ a.micros < b.micros := by
    refine ⟨?_, Timestamp.micros_lt_of_earlier h⟩
    rw [String.lt_iff]
    simp only [isoformat, Timestamp.isoformat, String.toList_ofList]
    exact Timestamp.isoformat_lt_of_earlier a.2 rfl b.2 rfl h
  rcases Timestamp.earlier_trichotomy t.1 t'.1 with h | h | h
  · exact ⟨fun _ => (hlt h).2, fun _ => (hlt h).1⟩
  · have hsame : t = t' := Subtype.ext (h (t.2.trans t'.2.symm))
    subst hsame
    exact ⟨fun hself => absurd hself (String.lt_irrefl _), fun hself => absurd hself (Nat.lt_irrefl _)⟩
  · exact ⟨fun hself => absurd (String.lt_trans hself (hlt h).1) (String.lt_irrefl _),
      fun hself => absurd hself (Nat.lt_asymm (hlt h).2)⟩

theorem fromisoformat_isoformat (t : UtcTimestamp) : Timestamp.fromisoformat t.isoformat = some t.1 :=
  Timestamp.fromisoformat_isoformat t.1

end UtcTimestamp

end IsoTimestamps
