import Mathlib.Data.Nat.Notation
import Mathlib.Tactic.Ring
import Mathlib.Tactic.Linarith
import Mathlib.Tactic.IntervalCases

/-!
# Points in time and their ISO texts

A point in time by the fields of its calendar date and clock, with its offset from UTC;
`isoformat` writes numbers of a fixed width, so that `fromisoformat` reads back what it
has written.
-/

namespace IsoTimestamps

/-! ## Numbers of a fixed width -/

/-- The last `k` decimal digits, with leading zeros. -/
def pad : ℕ → ℕ → List Char
  | 0, _ => []
  | k + 1, n => Char.ofNat (48 + n / 10 ^ k % 10) :: pad k n

/-- Read `k` digits after those whose value is `acc`. -/
def readDigits : ℕ → ℕ → List Char → Option (ℕ × List Char)
  | 0, acc, cs => some (acc, cs)
  | k + 1, acc, c :: cs => if c.isDigit then readDigits k (10 * acc + (c.toNat - 48)) cs else none
  | _ + 1, _, [] => none

theorem digit_facts {d : ℕ} (hd : d < 10) : (Char.ofNat (48 + d)).isDigit = true ∧ (Char.ofNat (48 + d)).toNat - 48 = d := by
  interval_cases d <;> decide

theorem readDigits_pad (k acc n : ℕ) (rest : List Char) :
    readDigits k acc (pad k n ++ rest) = some (acc * 10 ^ k + n % 10 ^ k, rest) := by
  induction k generalizing acc with
  | zero => simp [readDigits, pad, Nat.mod_one]
  | succ k ih =>
    obtain ⟨hdigit, hvalue⟩ := digit_facts (Nat.mod_lt (n / 10 ^ k) (by decide : 10 > 0))
    rw [pad, List.cons_append, readDigits, if_pos hdigit, hvalue, ih]
    have hmod : n % 10 ^ (k + 1) = n / 10 ^ k % 10 * 10 ^ k + n % 10 ^ k := by
      rw [pow_succ, Nat.mod_mul]
      ring
    rw [hmod]
    ring_nf

theorem readDigits_pad_of_lt {k n : ℕ} (h : n < 10 ^ k) (rest : List Char) :
    readDigits k 0 (pad k n ++ rest) = some (n, rest) := by
  rw [readDigits_pad, Nat.zero_mul, Nat.zero_add, Nat.mod_eq_of_lt h]

def expect (c : Char) : List Char → Option (List Char)
  | [] => none
  | d :: cs => if d = c then some cs else none

theorem expect_cons (c : Char) (cs : List Char) : expect c (c :: cs) = some cs := if_pos rfl

/-- `.ffffff`, left out for a whole second. -/
def fraction (microsecond : ℕ) : List Char := if microsecond = 0 then [] else '.' :: pad 6 microsecond

def readFraction : List Char → Option (ℕ × List Char)
  | '.' :: cs => readDigits 6 0 cs
  | cs => some (0, cs)

theorem readFraction_fraction {microsecond : ℕ} (h : microsecond < 1000000) (rest : List Char)
    (hrest : rest.head? ≠ some '.') : readFraction (fraction microsecond ++ rest) = some (microsecond, rest) := by
  unfold fraction
  split
  · rename_i hzero
    subst hzero
    rw [List.nil_append]
    cases rest with
    | nil => rfl
    | cons c cs =>
      have hc : c ≠ '.' := by simpa using hrest
      unfold readFraction
      split
      · rename_i heq
        cases heq
        exact absurd rfl hc
      · rfl
  · rw [List.cons_append, readFraction]
    exact readDigits_pad_of_lt h rest

/-! ## Offsets -/

structure UtcOffset where
  negative : Bool
  hour : ℕ
  minute : ℕ
  second : ℕ
  microsecond : ℕ
  hour_lt : hour < 24
  minute_lt : minute < 60
  second_lt : second < 60
  microsecond_lt : microsecond < 1000000

namespace UtcOffset

/-- `+hh:mm`, with seconds if there are any. -/
def text (offset : UtcOffset) : List Char :=
  (if offset.negative then '-' else '+') :: (pad 2 offset.hour ++ ':' :: (pad 2 offset.minute ++
    if offset.second = 0 ∧ offset.microsecond = 0 then []
    else ':' :: (pad 2 offset.second ++ fraction offset.microsecond)))

def ofFields (negative : Bool) (hour minute second microsecond : ℕ) : Option UtcOffset :=
  if hhour : hour < 24 then
    if hminute : minute < 60 then
      if hsecond : second < 60 then
        if hmicrosecond : microsecond < 1000000 then
          some ⟨negative, hour, minute, second, microsecond, hhour, hminute, hsecond, hmicrosecond⟩
        else none
      else none
    else none
  else none

def readUnsigned (negative : Bool) (cs : List Char) : Option UtcOffset := do
  let (hour, cs) ← readDigits 2 0 cs
  let cs ← expect ':' cs
  let (minute, cs) ← readDigits 2 0 cs
  match cs with
  | [] => ofFields negative hour minute 0 0
  | cs =>
    let cs ← expect ':' cs
    let (second, cs) ← readDigits 2 0 cs
    let (microsecond, cs) ← readFraction cs
    if cs = [] then ofFields negative hour minute second microsecond else none

def read : List Char → Option (Option UtcOffset)
  | [] => some none
  | '+' :: cs => (readUnsigned false cs).map some
  | '-' :: cs => (readUnsigned true cs).map some
  | _ => none

variable (offset : UtcOffset)

theorem ofFields_self :
    ofFields offset.negative offset.hour offset.minute offset.second offset.microsecond = some offset := by
  simp only [ofFields, offset.hour_lt, offset.minute_lt, offset.second_lt, offset.microsecond_lt, dif_pos]

theorem readUnsigned_text : readUnsigned offset.negative (pad 2 offset.hour ++ ':' :: (pad 2 offset.minute ++
      if offset.second = 0 ∧ offset.microsecond = 0 then []
      else ':' :: (pad 2 offset.second ++ fraction offset.microsecond))) = some offset := by
  have hhour := offset.hour_lt
  have hminute := offset.minute_lt
  have hsecond := offset.second_lt
  simp only [readUnsigned, Option.bind_eq_bind, readDigits_pad_of_lt (show offset.hour < 10 ^ 2 by omega), Option.bind_some,
    expect_cons, readDigits_pad_of_lt (show offset.minute < 10 ^ 2 by omega)]
  have hself := offset.ofFields_self
  by_cases hwhole : offset.second = 0 ∧ offset.microsecond = 0
  · rw [hwhole.1, hwhole.2] at hself
    simp only [if_pos hwhole, hself]
  · have hfraction := readFraction_fraction offset.microsecond_lt [] (by simp)
    rw [List.append_nil] at hfraction
    simp only [if_neg hwhole, expect_cons, Option.bind_some,
      readDigits_pad_of_lt (show offset.second < 10 ^ 2 by omega), hfraction, if_true, hself]

theorem read_text : read offset.text = some (some offset) := by
  have hunsigned := offset.readUnsigned_text
  unfold text
  cases hnegative : offset.negative with
  | false =>
    rw [hnegative] at hunsigned
    simp only [Bool.false_eq_true, if_false, read, hunsigned, Option.map_some]
  | true =>
    rw [hnegative] at hunsigned
    simp only [if_true, read, hunsigned, Option.map_some]

end UtcOffset

/-! ## Timestamps -/

def isLeap (year : ℕ) : Bool := year % 4 = 0 && (year % 100 ≠ 0 || year % 400 = 0)

def daysInMonth (year month : ℕ) : ℕ :=
  if month = 2 then if isLeap year then 29 else 28
  else if month = 4 ∨ month = 6 ∨ month = 9 ∨ month = 11 then 30
  else 31

/-- A `datetime`, naive if it has no offset. -/
structure Timestamp where
  year : ℕ
  month : ℕ
  day : ℕ
  hour : ℕ
  minute : ℕ
  second : ℕ
  microsecond : ℕ
  offset : Option UtcOffset
  year_bounds : 1 ≤ year ∧ year ≤ 9999
  month_bounds : 1 ≤ month ∧ month ≤ 12
  day_bounds : 1 ≤ day ∧ day ≤ daysInMonth year month
  clock_bounds : hour < 24 ∧ minute < 60 ∧ second < 60 ∧ microsecond < 1000000

namespace Timestamp

def offsetText : Option UtcOffset → List Char
  | none => []
  | some offset => offset.text

def isoformatChars (t : Timestamp) : List Char :=
  pad 4 t.year ++ '-' :: (pad 2 t.month ++ '-' :: (pad 2 t.day ++ 'T' :: (pad 2 t.hour ++ ':' :: (pad 2 t.minute ++
    ':' :: (pad 2 t.second ++ (fraction t.microsecond ++ offsetText t.offset))))))

def isoformat (t : Timestamp) : String := String.ofList t.isoformatChars

def ofFields (year month day hour minute second microsecond : ℕ) (offset : Option UtcOffset) : Option Timestamp :=
  if hyear : 1 ≤ year ∧ year ≤ 9999 then
    if hmonth : 1 ≤ month ∧ month ≤ 12 then
      if hday : 1 ≤ day ∧ day ≤ daysInMonth year month then
        if hclock : hour < 24 ∧ minute < 60 ∧ second < 60 ∧ microsecond < 1000000 then
          some ⟨year, month, day, hour, minute, second, microsecond, offset, hyear, hmonth, hday, hclock⟩
        else none
      else none
    else none
  else none

def readChars (cs : List Char) : Option Timestamp := do
  let (year, cs) ← readDigits 4 0 cs
  let cs ← expect '-' cs
  let (month, cs) ← readDigits 2 0 cs
  let cs ← expect '-' cs
  let (day, cs) ← readDigits 2 0 cs
  let cs ← expect 'T' cs
  let (hour, cs) ← readDigits 2 0 cs
  let cs ← expect ':' cs
  let (minute, cs) ← readDigits 2 0 cs
  let cs ← expect ':' cs
  let (second, cs) ← readDigits 2 0 cs
  let (microsecond, cs) ← readFraction cs
  let offset ← UtcOffset.read cs
  ofFields year month day hour minute second microsecond offset

/-- `datetime.fromisoformat`, for texts of the form that `isoformat` writes. -/
def fromisoformat (s : String) : Option Timestamp := readChars s.toList

theorem daysInMonth_le (year month : ℕ) : daysInMonth year month ≤ 31 := by
  unfold daysInMonth
  split
  · split <;> decide
  · split <;> decide

theorem ofFields_self (t : Timestamp) :
    ofFields t.year t.month t.day t.hour t.minute t.second t.microsecond t.offset = some t := by
  simp only [ofFields, t.year_bounds, t.month_bounds, t.day_bounds, t.clock_bounds, and_self, dif_pos]

variable (offset : Option UtcOffset)

theorem head?_offsetText : (offsetText offset).head? ≠ some '.' := by
  cases offset with
  | none => simp [offsetText]
  | some offset =>
    rw [offsetText, UtcOffset.text, List.head?_cons]
    cases offset.negative <;> decide

theorem read_offsetText : UtcOffset.read (offsetText offset) = some offset := by
  cases offset with
  | none => rfl
  | some offset => exact offset.read_text

theorem fromisoformat_isoformat (t : Timestamp) : fromisoformat t.isoformat = some t := by
  have hyear := t.year_bounds
  have hmonth := t.month_bounds
  have hday := t.day_bounds
  have hdays := daysInMonth_le t.year t.month
  obtain ⟨hhour, hminute, hsecond, hmicrosecond⟩ := t.clock_bounds
  have hfraction := readFraction_fraction hmicrosecond _ (head?_offsetText t.offset)
  rw [fromisoformat, isoformat, String.toList_ofList, readChars, isoformatChars, Option.bind_eq_bind,
    Option.bind_eq_bind, Option.bind_eq_bind]
  rw [readDigits_pad_of_lt (show t.year < 10 ^ 4 by omega), Option.bind_some]
  dsimp only
  rw [expect_cons, Option.bind_some, readDigits_pad_of_lt (show t.month < 10 ^ 2 by omega), Option.bind_some]
  dsimp only
  rw [expect_cons, Option.bind_some, readDigits_pad_of_lt (show t.day < 10 ^ 2 by omega), Option.bind_some]
  dsimp only
  rw [expect_cons, Option.bind_some, readDigits_pad_of_lt (show t.hour < 10 ^ 2 by omega), Option.bind_some]
  dsimp only
  rw [expect_cons, Option.bind_some, readDigits_pad_of_lt (show t.minute < 10 ^ 2 by omega), Option.bind_some]
  dsimp only
  rw [expect_cons, Option.bind_some, readDigits_pad_of_lt (show t.second < 10 ^ 2 by omega), Option.bind_some]
  dsimp only
  rw [hfraction, Option.bind_some]
  dsimp only
  rw [read_offsetText, Option.bind_some]
  exact t.ofFields_self

end Timestamp

end IsoTimestamps
