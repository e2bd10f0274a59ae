import AllTomorrow.InsertionDict
import Mathlib.Algebra.Group.Int.Defs
import Mathlib.Algebra.Group.Nat.Defs
import Mathlib.Data.List.Sort

/-!
# Values, text and slices of the source language

Dynamically typed payloads, the blank test `not s or not s.strip()`, the slice
`xs[:n]` with its reading of a negative bound, and the supply of clock readings
and random identifiers that a call draws from.
-/

inductive PyValue where
  | none
  | bool (b : Bool)
  | int (n : ℤ)
  | str (s : String)
  | list (xs : List PyValue)
  | dict (entries : List (String × PyValue))

/-- A `dict[str, Any]`. -/
abbrev PyDict := InsertionDict String PyValue

/-- `bool(value)`. -/
def PyValue.truthy : PyValue → Bool
  | .none => false
  | .bool b => b
  | .int n => n ≠ 0
  | .str s => s ≠ ""
  | .list xs => !xs.isEmpty
  | .dict entries => !entries.isEmpty

namespace PyText

/-- The code points that `str.strip` removes. -/
def isSpace (c : Char) : Bool :=
  let n := c.toNat
  (9 ≤ n && n ≤ 13) || (28 ≤ n && n ≤ 32) || n = 0x85 || n = 0xa0 || n = 0x1680 ||
    (0x2000 ≤ n && n ≤ 0x200a) || n = 0x2028 || n = 0x2029 || n = 0x202f || n = 0x205f || n = 0x3000

/-- `s.strip()`. -/
def strip (s : String) : String := String.ofList ((s.toList.dropWhile isSpace).reverse.dropWhile isSpace).reverse

/-- `not s or not s.strip()`. -/
def isBlank (s : String) : Bool := s.toList.all isSpace

theorem isBlank_append (s t : String) : isBlank (s ++ t) = (isBlank s && isBlank t) := by
  simp [isBlank, String.toList_append]

theorem isBlank_eq_false {s : String} (h : ¬isBlank s = true) : isBlank s = false :=
  Bool.eq_false_of_not_eq_true h

def Printable (n : ℤ) : Prop := n.natAbs < 10 ^ 4300

instance (n : ℤ) : Decidable (Printable n) := inferInstanceAs (Decidable (n.natAbs < 10 ^ 4300))

/-- The `repr` of a list of identifiers without quotes or escapes. -/
def reprList (xs : List String) : String :=
  "[" ++ ", ".intercalate (xs.map fun x => "'" ++ x ++ "'") ++ "]"

end PyText

/-- `xs[:n]`; a negative bound counts from the end. -/
def pySliceTo {α : Type*} (xs : List α) (n : ℤ) : List α :=
  if 0 ≤ n then xs.take n.toNat else xs.take (xs.length - n.natAbs)

theorem pySliceTo_sublist {α : Type*} (xs : List α) (n : ℤ) : (pySliceTo xs n).Sublist xs := by
  unfold pySliceTo
  split <;> exact List.take_sublist _ _

theorem length_pySliceTo_of_neg {α : Type*} (xs : List α) {n : ℤ} (h : n < 0) :
    (pySliceTo xs n).length = xs.length - n.natAbs := by
  rw [pySliceTo, if_neg (by omega), List.length_take]
  omega

/-! ## Joined texts -/

section Joined

variable {α : Type*} [DecidableEq α] {x : α}

theorem append_cons_inj_of_count {l l' r r' : List α} (hcount : l.count x = l'.count x)
    (h : l ++ x :: r = l' ++ x :: r') : l = l' ∧ r = r' := by
  induction l generalizing l' with
  | nil =>
    cases l' with
    | nil => exact ⟨rfl, (List.cons.inj h).2⟩
    | cons b l' =>
      obtain ⟨rfl, _⟩ := List.cons.inj h
      simp at hcount
  | cons a l ih =>
    cases l' with
    | nil =>
      obtain ⟨rfl, _⟩ := List.cons.inj h
      simp at hcount
    | cons b l' =>
      obtain ⟨rfl, htail⟩ := List.cons.inj h
      rw [List.count_cons, List.count_cons, Nat.add_right_cancel_iff] at hcount
      obtain ⟨rfl, hr⟩ := ih hcount htail
      exact ⟨rfl, hr⟩

omit [DecidableEq α] in
theorem intercalate_cons_cons (a b : List α) (rest : List (List α)) :
    [x].intercalate (a :: b :: rest) = a ++ x :: [x].intercalate (b :: rest) := by
  simp [List.intercalate]

variable {ls ls' : List (List α)}

/-- Two lists of parts with the same numbers of separators in corresponding parts are equal if their joins are. -/
theorem intercalate_inj_of_count (hcount : ls.map (List.count x) = ls'.map (List.count x))
    (h : [x].intercalate ls = [x].intercalate ls') : ls = ls' := by
  induction ls generalizing ls' with
  | nil => exact (List.map_eq_nil_iff.mp hcount.symm).symm
  | cons l ls ih =>
    cases ls' with
    | nil => simp at hcount
    | cons l' ls' =>
      obtain ⟨hhead, htail⟩ := List.cons.inj hcount
      cases ls with
      | nil =>
        have hnil : ls' = [] := List.map_eq_nil_iff.mp htail.symm
        subst hnil
        simpa [List.intercalate] using h
      | cons m ls =>
        cases ls' with
        | nil => simp at htail
        | cons m' ls' =>
          rw [intercalate_cons_cons, intercalate_cons_cons] at h
          obtain ⟨rfl, hrest⟩ := append_cons_inj_of_count hhead h
          rw [ih htail hrest]

theorem intercalate_inj_of_notMem (hls : ∀ l ∈ ls, x ∉ l) (hls' : ∀ l ∈ ls', x ∉ l) (hne : ls ≠ [])
    (hne' : ls' ≠ []) (h : [x].intercalate ls = [x].intercalate ls') : ls = ls' := by
  rw [← List.splitOn_intercalate x hls hne, h, List.splitOn_intercalate x hls' hne']

end Joined

section StableSort

variable {α : Type*} {l : List α}

theorem pair_sublist_or {a b : α} (ha : a ∈ l) (hb : b ∈ l) (hne : a ≠ b) : [a, b].Sublist l ∨ [b, a].Sublist l := by
  induction l with
  | nil => cases ha
  | cons x l ih =>
    rcases List.mem_cons.mp ha with rfl | hal
    · rcases List.mem_cons.mp hb with rfl | hbl
      · exact absurd rfl hne
      · exact .inl ((List.singleton_sublist.mpr hbl).cons_cons a)
    · rcases List.mem_cons.mp hb with rfl | hbl
      · exact .inr ((List.singleton_sublist.mpr hal).cons_cons b)
      · exact (ih hal hbl).imp (List.Sublist.cons x) (List.Sublist.cons x)

theorem not_pair_sublist_of_nodup (hl : l.Nodup) {a b : α} (hab : [a, b].Sublist l) : ¬[b, a].Sublist l := by
  intro hba
  induction l with
  | nil => cases hab
  | cons x l ih =>
    have hx := (List.nodup_cons.mp hl).1
    cases hab with
    | cons _ hab =>
      cases hba with
      | cons _ hba => exact ih hl.of_cons hab hba
      | cons_cons _ hba => exact hx (hab.subset (List.mem_cons_of_mem a List.mem_cons_self))
    | cons_cons _ hab =>
      cases hba with
      | cons _ hba => exact hx (hba.subset (List.mem_cons_of_mem b List.mem_cons_self))
      | cons_cons _ hba => exact hx (List.singleton_sublist.mp hab)

theorem pairwise_insertionSort_stable {r : α → α → Prop} [DecidableRel r] [Std.Total r] [IsTrans α r] (hl : l.Nodup) :
    (l.insertionSort r).Pairwise fun a b => r a b ∧ (r b a → [a, b].Sublist l) := by
  have hnodup : (l.insertionSort r).Nodup := (List.perm_insertionSort r l).nodup_iff.mpr hl
  have hsorted := List.pairwise_insertionSort r l
  rw [List.pairwise_iff_forall_sublist] at hsorted ⊢
  intro a b hab
  refine ⟨hsorted hab, ?_⟩
  intro hrank
  have hne : a ≠ b := by
    rintro rfl
    exact (List.nodup_cons.mp (hnodup.sublist hab)).1 List.mem_cons_self
  have ha : a ∈ l := (List.mem_insertionSort r).mp (hab.subset List.mem_cons_self)
  have hb : b ∈ l := (List.mem_insertionSort r).mp (hab.subset (List.mem_cons_of_mem a List.mem_cons_self))
  rcases pair_sublist_or ha hb hne with h | h
  · exact h
  · exact absurd (List.pair_sublist_insertionSort hrank h) (not_pair_sublist_of_nodup hnodup hab)

end StableSort

/-- Microseconds since the epoch; every instant in the source is timezone aware. -/
abbrev Datetime := ℤ

/-- One reading of the clock together with one draw of `uuid4`. -/
structure Tick where
  now : Datetime
  uuid : String

/-- The readings a call may draw. A callee receives a subtree, so that no two
calls share a reading and the order of evaluation is irrelevant. -/
def Supply := List ℕ → Tick

namespace Supply

def sub (env : Supply) (n : ℕ) : Supply := fun path => env (n :: path)

def utcNow (env : Supply) : Datetime := (env []).now

/-- `f"{prefix}_{uuid4()}"`. -/
def newId (env : Supply) (tag : String) : String := tag ++ "_" ++ (env []).uuid

end Supply
