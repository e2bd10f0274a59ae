import AllTomorrow.PythonValues
import Mathlib.Data.Int.Log
import Mathlib.Data.Rat.Floor

/-!
# Objects of the source language

A node may return any object, and a document may hold any. What the pipeline code does
with one: its truth value, `==`, arithmetic on numbers, and the copy that
`json.loads(json.dumps(value, default=_json_default))` makes of it or fails to make.
-/

namespace AllTomorrow

/-- A float by its value, so that `-0.0` is `0.0`. -/
inductive PyFloat where
  | finite (q : ℚ)
  | infinity (negative : Bool)
  | nan
  deriving DecidableEq

/-- An object. A set lists its elements in the order in which it is iterated over, an instance of any other class
its attributes. -/
inductive PyObj where
  | none
  | bool (b : Bool)
  | int (n : ℤ)
  | float (x : PyFloat)
  | str (s : String)
  | list (xs : List PyObj)
  | tuple (xs : List PyObj)
  | set (xs : List PyObj)
  | dict (entries : List (PyObj × PyObj))
  | datetime (isoformat : String)
  | object (attributes : List (String × PyObj))

/-- The items of a `dict`, each key once. -/
abbrev PyEntries := List (PyObj × PyObj)

/-- The exceptions of the pipeline code, with an object that the message shows. `RunConflictError` is a
`ContractError`. -/
inductive PipelineExn where
  | contractError (message : String) (shown : Option PyObj := none)
  | runConflictError (message : String) (shown : Option PyObj := none)
  | typeError (message : String)
  | valueError (message : String)
  | keyError (key : String)
  /-- an exception of code that a node or an object brings along -/
  | foreign (name : String)

def PyObj.isText (name : String) : PyObj → Bool
  | .str s => s = name
  | _ => false

namespace PyEntries

/-- `d.get(name)` for a text. -/
def get? (es : PyEntries) (name : String) : Option PyObj := (es.find? fun e => e.1.isText name).map Prod.snd

/-- `d[name] = v`. -/
def set : PyEntries → String → PyObj → PyEntries
  | [], name, v => [(.str name, v)]
  | e :: es, name, v => if e.1.isText name then (e.1, v) :: es else e :: set es name v

def erase (es : PyEntries) (name : String) : PyEntries := es.filter fun e => !e.1.isText name

theorem get?_cons (e : PyObj × PyObj) (es : PyEntries) (name : String) :
    get? (e :: es) name = if e.1.isText name then some e.2 else es.get? name := by
  rw [get?, List.find?_cons]
  cases e.1.isText name with
  | true => rfl
  | false => rfl

theorem isText_iff {o : PyObj} {name : String} : o.isText name = true ↔ o = .str name := by
  cases o <;> simp [PyObj.isText]

variable (es : PyEntries)

theorem get?_set_self (name : String) (v : PyObj) : (es.set name v).get? name = some v := by
  induction es with
  | nil => simp [set, get?_cons, isText_iff]
  | cons e es ih =>
    rw [set]
    split
    · rename_i htext
      rw [get?_cons, if_pos htext]
    · rename_i htext
      rw [get?_cons, if_neg htext, ih]

theorem get?_set_of_ne {name other : String} (v : PyObj) (h : other ≠ name) :
    (es.set name v).get? other = es.get? other := by
  induction es with
  | nil =>
    have htext : ¬(PyObj.str name).isText other = true := by
      rw [isText_iff, PyObj.str.injEq]
      exact h.symm
    rw [set, get?_cons, if_neg htext]
  | cons e es ih =>
    rw [set]
    split
    · rename_i htext
      have hother : ¬e.1.isText other = true := by
        rw [isText_iff.mp htext, isText_iff, PyObj.str.injEq]
        exact h.symm
      rw [get?_cons, get?_cons, if_neg hother, if_neg hother]
    · rw [get?_cons, get?_cons, ih]

theorem erase_set_self (name : String) (v : PyObj) : (es.set name v).erase name = es.erase name := by
  induction es with
  | nil => simp [set, erase, isText_iff]
  | cons e es ih =>
    rw [set]
    split
    · rename_i htext
      simp [erase, htext]
    · rename_i htext
      rw [erase, List.filter_cons, erase, List.filter_cons]
      rw [erase, erase] at ih
      rw [ih]

theorem get?_erase_self (name : String) : (es.erase name).get? name = none := by
  rw [get?, Option.map_eq_none_iff, List.find?_eq_none]
  intro e he
  simpa using (List.mem_filter.mp he).2

theorem get?_erase_of_none {es : PyEntries} {name : String} (h : es.get? name = none) (other : String) :
    (es.erase other).get? name = none := by
  rw [get?, Option.map_eq_none_iff, List.find?_eq_none] at h ⊢
  intro e he
  exact h e (List.mem_filter.mp he).1

end PyEntries

namespace PyObj

/-- `bool(value)`. -/
def truthy : PyObj → Bool
  | .none => false
  | .bool b => b
  | .int n => n ≠ 0
  | .float x => x ≠ .finite 0
  | .str s => s ≠ ""
  | .list xs | .tuple xs | .set xs => !xs.isEmpty
  | .dict entries => !entries.isEmpty
  | .datetime _ | .object _ => true

def number? : PyObj → Option PyFloat
  | .bool b => some (.finite b.toNat)
  | .int n => some (.finite n)
  | .float x => some x
  | _ => Option.none

end PyObj

/-- `x == y` on numbers. -/
def PyFloat.eqv (x y : PyFloat) : Bool := x ≠ .nan && x = y

/-- `x < q`. -/
def PyFloat.lt (x : PyFloat) (q : ℚ) : Bool :=
  match x with
  | .finite p => p < q
  | .infinity negative => negative
  | .nan => false

def roundDouble (q : ℚ) : PyFloat :=
  if q = 0 then .finite 0 else
    let ulp : ℚ := 2 ^ max (Int.log 2 |q| - 52) (-1074)
    let m := ⌊|q| / ulp⌋
    let rest := |q| / ulp - m
    let rounded : ℤ := if rest < 1 / 2 ∨ (rest = 1 / 2 ∧ m % 2 = 0) then m else m + 1
    if 2 ^ 1024 ≤ rounded * ulp then .infinity (q < 0)
    else .finite (if q < 0 then -(rounded * ulp) else rounded * ulp)

/-- `value - 1`. -/
def PyObj.minusOne : PyObj → Except PipelineExn PyObj
  | .bool b => .ok (.int (b.toNat - 1))
  | .int n => .ok (.int (n - 1))
  | .float (.finite q) => .ok (.float (roundDouble (q - 1)))
  | .float x => .ok (.float x)
  | _ => .error (.typeError "unsupported operand type(s) for -")

/-! ## Equality -/

mutual

/-- `a == b`, for objects that are not one and the same. -/
def PyObj.eqv : PyObj → PyObj → Bool
  | .none, .none => true
  | .bool a, b => b.number?.any fun y => (PyFloat.finite a.toNat).eqv y
  | .int a, b => b.number?.any fun y => (PyFloat.finite a).eqv y
  | .float a, b => b.number?.any fun y => a.eqv y
  | .str a, .str b => a = b
  | .list xs, .list ys => eqvList xs ys
  | .tuple xs, .tuple ys => eqvList xs ys
  | .set xs, .set ys => xs.length = ys.length && eqvMembers xs ys
  | .dict es, .dict fs => es.length = fs.length && eqvEntries es fs
  | .datetime a, .datetime b => a = b
  | .object as, .object bs => eqvAttributes as bs
  | _, _ => false
termination_by structural a => a

def eqvList : List PyObj → List PyObj → Bool
  | [], [] => true
  | x :: xs, y :: ys => x.eqv y && eqvList xs ys
  | _, _ => false
termination_by structural xs => xs

def eqvMembers : List PyObj → List PyObj → Bool
  | [], _ => true
  | x :: xs, ys => (ys.any fun y => x.eqv y) && eqvMembers xs ys
termination_by structural xs => xs

def eqvEntries : List (PyObj × PyObj) → List (PyObj × PyObj) → Bool
  | [], _ => true
  | (k, v) :: es, fs => (fs.any fun f => k.eqv f.1 && v.eqv f.2) && eqvEntries es fs
termination_by structural es => es

def eqvAttributes : List (String × PyObj) → List (String × PyObj) → Bool
  | [], [] => true
  | (name, a) :: as, (name', b) :: bs => name = name' && a.eqv b && eqvAttributes as bs
  | _, _ => false
termination_by structural as => as

end

/-- `str(n)`. -/
def intText (n : ℤ) : Except PipelineExn String :=
  if PyText.Printable n then .ok (toString n)
  else .error (.valueError "Exceeds the limit (4300 digits) for integer string conversion")

/-- A pair before the pairs that follow it: the last value of a key counts, at its first place. -/
def consPair (k : String) (v : PyObj) (es : PyEntries) : PyEntries :=
  match es.get? k with
  | none => (.str k, v) :: es
  | some later => (.str k, later) :: es.erase k

section Copy

-- `float.__repr__`
variable (floatRepr : PyFloat → String)

def keyText : PyObj → Except PipelineExn String
  | .str s => .ok s
  | .int n => intText n
  | .bool b => .ok (if b then "true" else "false")
  | .none => .ok "null"
  | .float x => .ok (floatRepr x)
  | _ => .error (.typeError "keys must be str, int, float, bool or None")

mutual

/-- `json.loads(json.dumps(value, default=_json_default))`. -/
def jsonCopy : PyObj → Except PipelineExn PyObj
  | .none => .ok .none
  | .bool b => .ok (.bool b)
  | .int n => do
      let _ ← intText n
      return .int n
  | .float x => .ok (.float x)
  | .str s => .ok (.str s)
  | .list xs => return .list (← jsonCopyList xs)
  | .tuple xs => return .list (← jsonCopyList xs)
  | .set xs => return .list (← jsonCopyList xs)
  | .dict entries => return .dict (← jsonCopyEntries entries)
  | .datetime isoformat => .ok (.str isoformat)
  | .object attributes => jsonCopyValue attributes

def jsonCopyList : List PyObj → Except PipelineExn (List PyObj)
  | [] => .ok []
  | x :: xs => do
      let x ← jsonCopy x
      let xs ← jsonCopyList xs
      return x :: xs

def jsonCopyEntries : List (PyObj × PyObj) → Except PipelineExn (List (PyObj × PyObj))
  | [] => .ok []
  | (k, v) :: es => do
      let k ← keyText floatRepr k
      let v ← jsonCopy v
      let es ← jsonCopyEntries es
      return consPair k v es

/-- The attribute `value` stands for the object. -/
def jsonCopyValue : List (String × PyObj) → Except PipelineExn PyObj
  | [] => .error (.typeError "cannot serialize object")
  | (name, a) :: as => if name = "value" then jsonCopy a else jsonCopyValue as

end

end Copy

/-! ## JSON values -/

def freshKey : PyObj → List (PyObj × PyObj) → Bool
  | .str k, es => (PyEntries.get? es k).isNone
  | _, _ => false

mutual

/-- A value that `json.loads` returns; it reads `NaN` and the infinities too, which are no JSON. -/
def PyObj.isPlain (nonfinite : Bool) : PyObj → Bool
  | .none | .bool _ | .str _ => true
  | .int n => PyText.Printable n
  | .float (.finite _) => true
  | .float _ => nonfinite
  | .list xs => plainList nonfinite xs
  | .dict entries => plainEntries nonfinite entries
  | .tuple _ | .set _ | .datetime _ | .object _ => false

def plainList (nonfinite : Bool) : List PyObj → Bool
  | [] => true
  | x :: xs => x.isPlain nonfinite && plainList nonfinite xs

def plainEntries (nonfinite : Bool) : List (PyObj × PyObj) → Bool
  | [] => true
  | (k, v) :: es => freshKey k es && v.isPlain nonfinite && plainEntries nonfinite es

end

abbrev PyObj.isJson (o : PyObj) : Bool := o.isPlain false

abbrev PyEntries.isJson (es : PyEntries) : Bool := plainEntries false es

section Plain

variable {floatRepr : PyFloat → String} {es : PyEntries}

theorem freshKey_iff {k : PyObj} : freshKey k es = true ↔ ∃ s, k = .str s ∧ es.get? s = none := by
  cases k <;> simp [freshKey]

mutual

theorem jsonCopy_of_isPlain {o : PyObj} (h : o.isPlain true = true) : jsonCopy floatRepr o = .ok o := by
  cases o with
  | none => rfl
  | bool b => rfl
  | int n =>
    have hn : PyText.Printable n := by simpa [PyObj.isPlain] using h
    simp only [jsonCopy, intText, if_pos hn]
    rfl
  | float x => rfl
  | str s => rfl
  | list xs =>
    rw [PyObj.isPlain] at h
    rw [jsonCopy, jsonCopyList_of_plain h]
    rfl
  | dict entries =>
    rw [PyObj.isPlain] at h
    rw [jsonCopy, jsonCopyEntries_of_plain h]
    rfl
  | tuple xs => simp [PyObj.isPlain] at h
  | set xs => simp [PyObj.isPlain] at h
  | datetime t => simp [PyObj.isPlain] at h
  | object as => simp [PyObj.isPlain] at h

theorem jsonCopyList_of_plain {xs : List PyObj} (h : plainList true xs = true) : jsonCopyList floatRepr xs = .ok xs := by
  cases xs with
  | nil => rfl
  | cons x xs =>
    rw [plainList, Bool.and_eq_true] at h
    rw [jsonCopyList, jsonCopy_of_isPlain h.1, jsonCopyList_of_plain h.2]
    rfl

theorem jsonCopyEntries_of_plain {es : List (PyObj × PyObj)} (h : plainEntries true es = true) :
    jsonCopyEntries floatRepr es = .ok es := by
  match es with
  | [] => rfl
  | (k, v) :: es =>
    rw [plainEntries, Bool.and_eq_true, Bool.and_eq_true, freshKey_iff] at h
    obtain ⟨⟨⟨key, rfl, hfresh⟩, hv⟩, hes⟩ := h
    rw [jsonCopyEntries, jsonCopy_of_isPlain hv, jsonCopyEntries_of_plain hes]
    change Except.ok (consPair key v es) = _
    rw [consPair, hfresh]

end

mutual

theorem PyObj.isPlain_of_isJson {o : PyObj} (h : o.isPlain false = true) : o.isPlain true = true := by
  cases o with
  | float x =>
    cases x with
    | finite q => rfl
    | infinity negative => cases h
    | nan => cases h
  | list xs =>
    rw [PyObj.isPlain] at h ⊢
    exact plainList_of_json h
  | dict es =>
    rw [PyObj.isPlain] at h ⊢
    exact plainEntries_of_json h
  | _ => exact h

theorem plainList_of_json {xs : List PyObj} (h : plainList false xs = true) : plainList true xs = true := by
  cases xs with
  | nil => rfl
  | cons x xs =>
    rw [plainList, Bool.and_eq_true] at h ⊢
    exact ⟨PyObj.isPlain_of_isJson h.1, plainList_of_json h.2⟩

theorem plainEntries_of_json {es : List (PyObj × PyObj)} (h : plainEntries false es = true) :
    plainEntries true es = true := by
  match es with
  | [] => rfl
  | (k, v) :: es =>
    rw [plainEntries, Bool.and_eq_true, Bool.and_eq_true] at h ⊢
    exact ⟨⟨h.1.1, PyObj.isPlain_of_isJson h.1.2⟩, plainEntries_of_json h.2⟩

end

/-! ### The copy is plain -/

variable {nonfinite : Bool}

theorem plainEntries_cons_iff {k v : PyObj} : plainEntries nonfinite ((k, v) :: es) = true ↔
      (∃ s, k = .str s ∧ es.get? s = none) ∧ v.isPlain nonfinite = true ∧ plainEntries nonfinite es = true := by
  rw [plainEntries, Bool.and_eq_true, Bool.and_eq_true, freshKey_iff, and_assoc]

theorem plainEntries_erase (h : plainEntries nonfinite es = true) (name : String) :
    plainEntries nonfinite (es.erase name) = true := by
  induction es with
  | nil => rfl
  | cons e es ih =>
    obtain ⟨k, v⟩ := e
    obtain ⟨⟨s, rfl, hfresh⟩, hv, hes⟩ := plainEntries_cons_iff.mp h
    rw [PyEntries.erase, List.filter_cons]
    split
    · exact plainEntries_cons_iff.mpr ⟨⟨s, rfl, PyEntries.get?_erase_of_none hfresh name⟩, hv, ih hes⟩
    · exact ih hes

theorem isPlain_of_get? (h : plainEntries nonfinite es = true) {name : String} {v : PyObj}
    (hget : es.get? name = some v) : v.isPlain nonfinite = true := by
  induction es with
  | nil => cases hget
  | cons e es ih =>
    obtain ⟨k, w⟩ := e
    obtain ⟨_, hw, hes⟩ := plainEntries_cons_iff.mp h
    rw [PyEntries.get?_cons] at hget
    split at hget
    · cases hget
      exact hw
    · exact ih hes hget

theorem plainEntries_consPair {k : String} {v : PyObj} (hv : v.isPlain nonfinite = true)
    (hes : plainEntries nonfinite es = true) : plainEntries nonfinite (consPair k v es) = true := by
  unfold consPair
  cases hget : es.get? k with
  | none => exact plainEntries_cons_iff.mpr ⟨⟨k, rfl, hget⟩, hv, hes⟩
  | some later =>
    exact plainEntries_cons_iff.mpr
      ⟨⟨k, rfl, PyEntries.get?_erase_self es k⟩, isPlain_of_get? hes hget, plainEntries_erase hes k⟩

theorem printable_of_intText {n : ℤ} {s : String} (h : intText n = .ok s) : PyText.Printable n := by
  by_contra hn
  rw [intText, if_neg hn] at h
  cases h

mutual

theorem isPlain_of_jsonCopy {o o' : PyObj} (h : jsonCopy floatRepr o = .ok o') : o'.isPlain true = true := by
  cases o with
  | none =>
    cases h
    rfl
  | bool b =>
    cases h
    rfl
  | int n =>
    rw [jsonCopy] at h
    cases htext : intText n with
    | error e =>
      rw [htext] at h
      cases h
    | ok s =>
      rw [htext] at h
      cases h
      simpa [PyObj.isPlain] using printable_of_intText htext
  | float x =>
    cases h
    cases x <;> rfl
  | str s =>
    cases h
    rfl
  | list xs =>
    rw [jsonCopy] at h
    exact isPlain_of_listCopy h
  | tuple xs =>
    rw [jsonCopy] at h
    exact isPlain_of_listCopy h
  | set xs =>
    rw [jsonCopy] at h
    exact isPlain_of_listCopy h
  | dict entries =>
    rw [jsonCopy] at h
    cases hcopy : jsonCopyEntries floatRepr entries with
    | error e =>
      rw [hcopy] at h
      cases h
    | ok es =>
      rw [hcopy] at h
      cases h
      exact plainEntries_of_jsonCopy hcopy
  | datetime t =>
    cases h
    rfl
  | object as =>
    rw [jsonCopy] at h
    exact isPlain_of_jsonCopyValue h

theorem isPlain_of_listCopy {xs : List PyObj} {o' : PyObj}
    (h : (do return PyObj.list (← jsonCopyList floatRepr xs) : Except PipelineExn PyObj) = .ok o') :
    o'.isPlain true = true := by
  cases hcopy : jsonCopyList floatRepr xs with
  | error e =>
    rw [hcopy] at h
    cases h
  | ok ys =>
    rw [hcopy] at h
    cases h
    exact plainList_of_jsonCopy hcopy

theorem plainList_of_jsonCopy {xs ys : List PyObj} (h : jsonCopyList floatRepr xs = .ok ys) : plainList true ys = true := by
  cases xs with
  | nil =>
    cases h
    rfl
  | cons x xs =>
    rw [jsonCopyList] at h
    cases hx : jsonCopy floatRepr x with
    | error e =>
      rw [hx] at h
      cases h
    | ok x' =>
      cases hxs : jsonCopyList floatRepr xs with
      | error e =>
        rw [hx, hxs] at h
        cases h
      | ok xs' =>
        rw [hx, hxs] at h
        cases h
        rw [plainList, isPlain_of_jsonCopy hx, plainList_of_jsonCopy hxs, Bool.and_self]

theorem plainEntries_of_jsonCopy {es fs : List (PyObj × PyObj)} (h : jsonCopyEntries floatRepr es = .ok fs) :
    plainEntries true fs = true := by
  match es with
  | [] =>
    cases h
    rfl
  | (k, v) :: es =>
    rw [jsonCopyEntries] at h
    cases hk : keyText floatRepr k with
    | error e =>
      rw [hk] at h
      cases h
    | ok key =>
      cases hv : jsonCopy floatRepr v with
      | error e =>
        rw [hk, hv] at h
        cases h
      | ok v' =>
        cases hes : jsonCopyEntries floatRepr es with
        | error e =>
          rw [hk, hv, hes] at h
          cases h
        | ok es' =>
          rw [hk, hv, hes] at h
          cases h
          exact plainEntries_consPair (isPlain_of_jsonCopy hv) (plainEntries_of_jsonCopy hes)

theorem isPlain_of_jsonCopyValue {as : List (String × PyObj)} {o' : PyObj}
    (h : jsonCopyValue floatRepr as = .ok o') : o'.isPlain true = true := by
  match as with
  | [] => cases h
  | (name, a) :: as =>
    rw [jsonCopyValue] at h
    split at h
    · exact isPlain_of_jsonCopy h
    · exact isPlain_of_jsonCopyValue h

end

end Plain

/-! ### What can be copied -/

section Copyable

variable {floatRepr : PyFloat → String}

theorem jsonCopyEntries_cons_ok {k v : PyObj} {es fs : PyEntries} : jsonCopyEntries floatRepr ((k, v) :: es) = .ok fs ↔
      ∃ key v' es', keyText floatRepr k = .ok key ∧ jsonCopy floatRepr v = .ok v' ∧
        jsonCopyEntries floatRepr es = .ok es' ∧ fs = consPair key v' es' := by
  rw [jsonCopyEntries]
  constructor
  · intro h
    cases hk : keyText floatRepr k with
    | error e =>
      rw [hk] at h
      cases h
    | ok key =>
      cases hv : jsonCopy floatRepr v with
      | error e =>
        rw [hk, hv] at h
        cases h
      | ok v' =>
        cases hes : jsonCopyEntries floatRepr es with
        | error e =>
          rw [hk, hv, hes] at h
          cases h
        | ok es' =>
          rw [hk, hv, hes] at h
          cases h
          exact ⟨key, v', es', rfl, rfl, rfl, rfl⟩
  · rintro ⟨key, v', es', hk, hv, hes, rfl⟩
    rw [hk, hv, hes]
    rfl

variable {es : PyEntries}

theorem exists_copy_set (hes : ∃ fs, jsonCopyEntries floatRepr es = .ok fs) (name : String) {v : PyObj}
    (hv : ∃ v', jsonCopy floatRepr v = .ok v') : ∃ fs, jsonCopyEntries floatRepr (es.set name v) = .ok fs := by
  obtain ⟨v', hv'⟩ := hv
  induction es with
  | nil => exact ⟨_, jsonCopyEntries_cons_ok.mpr ⟨name, v', [], rfl, hv', rfl, rfl⟩⟩
  | cons e es ih =>
    obtain ⟨k, w⟩ := e
    obtain ⟨fs, hfs⟩ := hes
    obtain ⟨key, w', es', hk, hw, hes', _⟩ := jsonCopyEntries_cons_ok.mp hfs
    rw [PyEntries.set]
    split
    · exact ⟨_, jsonCopyEntries_cons_ok.mpr ⟨key, v', es', hk, hv', hes', rfl⟩⟩
    · obtain ⟨gs, hgs⟩ := ih ⟨es', hes'⟩
      exact ⟨_, jsonCopyEntries_cons_ok.mpr ⟨key, w', gs, hk, hw, hgs, rfl⟩⟩

theorem exists_copy_of_get? (hes : ∃ fs, jsonCopyEntries floatRepr es = .ok fs) {name : String}
    {v : PyObj} (hget : es.get? name = some v) : ∃ v', jsonCopy floatRepr v = .ok v' := by
  induction es with
  | nil => cases hget
  | cons e es ih =>
    obtain ⟨k, w⟩ := e
    obtain ⟨fs, hfs⟩ := hes
    obtain ⟨key, w', es', _, hw, hes', _⟩ := jsonCopyEntries_cons_ok.mp hfs
    rw [PyEntries.get?_cons] at hget
    split at hget
    · cases hget
      exact ⟨w', hw⟩
    · exact ih ⟨es', hes'⟩ hget

theorem jsonCopy_dict_ok {o : PyObj} (h : jsonCopy floatRepr (.dict es) = .ok o) :
    ∃ fs, o = .dict fs ∧ jsonCopyEntries floatRepr es = .ok fs := by
  rw [jsonCopy] at h
  cases hfs : jsonCopyEntries floatRepr es with
  | error e =>
    rw [hfs] at h
    cases h
  | ok fs =>
    rw [hfs] at h
    cases h
    exact ⟨fs, rfl, rfl⟩

theorem exists_copy_dict : (∃ o, jsonCopy floatRepr (.dict es) = .ok o) ↔ ∃ fs, jsonCopyEntries floatRepr es = .ok fs := by
  constructor
  · rintro ⟨o, ho⟩
    obtain ⟨fs, _, hfs⟩ := jsonCopy_dict_ok ho
    exact ⟨fs, hfs⟩
  · rintro ⟨fs, hfs⟩
    rw [jsonCopy, hfs]
    exact ⟨_, rfl⟩

end Copyable

/-! ## What equality is -/

theorem PyFloat.eqv_iff {x y : PyFloat} : x.eqv y = true ↔ x ≠ .nan ∧ x = y := by
  simp [PyFloat.eqv]

theorem PyObj.eqv_of_number {a : PyObj} {x : PyFloat} (ha : a.number? = some x) (b : PyObj) :
    a.eqv b = b.number?.any fun y => x.eqv y := by
  cases a with
  | bool v =>
    cases ha
    cases b <;> rfl
  | int n =>
    cases ha
    cases b <;> rfl
  | float v =>
    cases ha
    cases b <;> rfl
  | _ => cases ha

theorem PyObj.eqv_number_iff {a b : PyObj} {x : PyFloat} (ha : a.number? = some x) :
    a.eqv b = true ↔ x ≠ .nan ∧ b.number? = some x := by
  rw [eqv_of_number ha]
  cases hb : b.number? with
  | none => simp
  | some y =>
    rw [Option.any_some, PyFloat.eqv_iff, Option.some.injEq, eq_comm (a := y)]

mutual

theorem PyObj.eqv_refl {o : PyObj} (h : o.isPlain false = true) : o.eqv o = true := by
  cases o with
  | none => rfl
  | bool b => exact (PyObj.eqv_number_iff rfl).mpr ⟨by simp, rfl⟩
  | int n => exact (PyObj.eqv_number_iff rfl).mpr ⟨by simp, rfl⟩
  | float x =>
    refine (PyObj.eqv_number_iff rfl).mpr ⟨?_, rfl⟩
    rintro rfl
    cases h
  | str s => simp [PyObj.eqv]
  | list xs =>
    rw [PyObj.isPlain] at h
    rw [PyObj.eqv, eqvList_refl h]
  | dict es =>
    rw [PyObj.isPlain] at h
    rw [PyObj.eqv, decide_eq_true rfl, Bool.true_and, eqvEntries_refl h (fun _ he => he)]
  | tuple xs => cases h
  | set xs => cases h
  | datetime t => cases h
  | object as => cases h

theorem eqvList_refl {xs : List PyObj} (h : plainList false xs = true) : eqvList xs xs = true := by
  cases xs with
  | nil => rfl
  | cons x xs =>
    rw [plainList, Bool.and_eq_true] at h
    rw [eqvList, PyObj.eqv_refl h.1, eqvList_refl h.2, Bool.and_self]

theorem eqvEntries_refl {es fs : List (PyObj × PyObj)} (h : plainEntries false es = true) (hsub : ∀ e ∈ es, e ∈ fs) :
    eqvEntries es fs = true := by
  match es with
  | [] => rfl
  | (k, v) :: es =>
    obtain ⟨⟨s, rfl, _⟩, hv, hes⟩ := plainEntries_cons_iff.mp h
    rw [eqvEntries, eqvEntries_refl hes fun e he => hsub e (List.mem_cons_of_mem _ he), Bool.and_true, List.any_eq_true]
    refine ⟨(.str s, v), hsub _ List.mem_cons_self, ?_⟩
    rw [PyObj.eqv_refl hv, Bool.and_true]
    simp [PyObj.eqv]

end

theorem exists_eqv_of_members {ys zs : List PyObj} (h : eqvMembers ys zs = true) {y : PyObj} (hy : y ∈ ys) :
    ∃ z ∈ zs, y.eqv z = true := by
  induction ys with
  | nil => cases hy
  | cons x ys ih =>
    rw [eqvMembers, Bool.and_eq_true, List.any_eq_true] at h
    rcases List.mem_cons.mp hy with rfl | hy
    · exact h.1
    · exact ih h.2 hy

theorem exists_eqv_of_entries {fs gs : PyEntries} (h : eqvEntries fs gs = true) {f : PyObj × PyObj} (hf : f ∈ fs) :
    ∃ g ∈ gs, f.1.eqv g.1 = true ∧ f.2.eqv g.2 = true := by
  induction fs with
  | nil => cases hf
  | cons e fs ih =>
    rw [eqvEntries, Bool.and_eq_true, List.any_eq_true] at h
    rcases List.mem_cons.mp hf with rfl | hf
    · simpa only [Bool.and_eq_true] using h.1
    · exact ih h.2 hf

mutual

theorem PyObj.eqv_trans {a b c : PyObj} (hab : a.eqv b = true) (hbc : b.eqv c = true) : a.eqv c = true := by
  cases hnumber : a.number? with
  | some x =>
    obtain ⟨hx, hb⟩ := (PyObj.eqv_number_iff hnumber).mp hab
    obtain ⟨_, hc⟩ := (PyObj.eqv_number_iff hb).mp hbc
    exact (PyObj.eqv_number_iff hnumber).mpr ⟨hx, hc⟩
  | none =>
    cases a with
    | bool v => cases hnumber
    | int n => cases hnumber
    | float x => cases hnumber
    | none =>
      cases b with
      | none => exact hbc
      | _ => cases hab
    | str s =>
      cases b with
      | str t =>
        obtain rfl : s = t := by simpa [PyObj.eqv] using hab
        exact hbc
      | _ => cases hab
    | datetime s =>
      cases b with
      | datetime t =>
        obtain rfl : s = t := by simpa [PyObj.eqv] using hab
        exact hbc
      | _ => cases hab
    | list xs =>
      cases b with
      | list ys =>
        cases c with
        | list zs =>
          rw [PyObj.eqv] at hab hbc ⊢
          exact eqvList_trans hab hbc
        | _ => cases hbc
      | _ => cases hab
    | tuple xs =>
      cases b with
      | tuple ys =>
        cases c with
        | tuple zs =>
          rw [PyObj.eqv] at hab hbc ⊢
          exact eqvList_trans hab hbc
        | _ => cases hbc
      | _ => cases hab
    | set xs =>
      cases b with
      | set ys =>
        cases c with
        | set zs =>
          rw [PyObj.eqv, Bool.and_eq_true, decide_eq_true_eq] at hab hbc ⊢
          exact ⟨hab.1.trans hbc.1, eqvMembers_trans hab.2 hbc.2⟩
        | _ => cases hbc
      | _ => cases hab
    | dict es =>
      cases b with
      | dict fs =>
        cases c with
        | dict gs =>
          rw [PyObj.eqv, Bool.and_eq_true, decide_eq_true_eq] at hab hbc ⊢
          exact ⟨hab.1.trans hbc.1, eqvEntries_trans hab.2 hbc.2⟩
        | _ => cases hbc
      | _ => cases hab
    | object as =>
      cases b with
      | object bs =>
        cases c with
        | object cs =>
          rw [PyObj.eqv] at hab hbc ⊢
          exact eqvAttributes_trans hab hbc
        | _ => cases hbc
      | _ => cases hab

theorem eqvList_trans {xs ys zs : List PyObj} (hxy : eqvList xs ys = true) (hyz : eqvList ys zs = true) :
    eqvList xs zs = true := by
  cases xs with
  | nil =>
    cases ys with
    | nil => exact hyz
    | cons y ys => cases hxy
  | cons x xs =>
    cases ys with
    | nil => cases hxy
    | cons y ys =>
      cases zs with
      | nil => cases hyz
      | cons z zs =>
        rw [eqvList, Bool.and_eq_true] at hxy hyz ⊢
        exact ⟨PyObj.eqv_trans hxy.1 hyz.1, eqvList_trans hxy.2 hyz.2⟩

theorem eqvMembers_trans {xs ys zs : List PyObj} (hxy : eqvMembers xs ys = true) (hyz : eqvMembers ys zs = true) :
    eqvMembers xs zs = true := by
  cases xs with
  | nil => rfl
  | cons x xs =>
    rw [eqvMembers, Bool.and_eq_true, List.any_eq_true] at hxy ⊢
    obtain ⟨⟨y, hy, hxy'⟩, hxs⟩ := hxy
    obtain ⟨z, hz, hyz'⟩ := exists_eqv_of_members hyz hy
    exact ⟨⟨z, hz, PyObj.eqv_trans hxy' hyz'⟩, eqvMembers_trans hxs hyz⟩

theorem eqvEntries_trans {es fs gs : List (PyObj × PyObj)} (hef : eqvEntries es fs = true)
    (hfg : eqvEntries fs gs = true) : eqvEntries es gs = true := by
  match es with
  | [] => rfl
  | (k, v) :: es =>
    rw [eqvEntries, Bool.and_eq_true, List.any_eq_true] at hef ⊢
    obtain ⟨⟨f, hf, hef'⟩, hes⟩ := hef
    obtain ⟨g, hg, hfg'⟩ := exists_eqv_of_entries hfg hf
    rw [Bool.and_eq_true] at hef'
    refine ⟨⟨g, hg, ?_⟩, eqvEntries_trans hes hfg⟩
    rw [PyObj.eqv_trans hef'.1 hfg'.1, PyObj.eqv_trans hef'.2 hfg'.2, Bool.and_self]

theorem eqvAttributes_trans {as bs cs : List (String × PyObj)} (hab : eqvAttributes as bs = true)
    (hbc : eqvAttributes bs cs = true) : eqvAttributes as cs = true := by
  match as, bs, cs with
  | [], [], _ => exact hbc
  | [], _ :: _, _ => cases hab
  | _ :: _, [], _ => cases hab
  | _ :: _, _ :: _, [] => cases hbc
  | (name, a) :: as, (name', b) :: bs, (name'', c) :: cs =>
    rw [eqvAttributes, Bool.and_eq_true, Bool.and_eq_true, decide_eq_true_eq] at hab hbc ⊢
    obtain ⟨⟨rfl, hab'⟩, has⟩ := hab
    obtain ⟨⟨rfl, hbc'⟩, hbs⟩ := hbc
    exact ⟨⟨rfl, PyObj.eqv_trans hab' hbc'⟩, eqvAttributes_trans has hbs⟩

end

end AllTomorrow
