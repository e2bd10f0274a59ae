import Mathlib.Data.Int.Basic
import Mathlib.Data.List.Infix
import Mathlib.Data.List.TakeWhile

/-!
# JSON texts

Values and the ASCII texts that write them, with a scanner that reads one value at the start
of a text. A string is a list of code points, so that halves of surrogate pairs may stand in
it alone. Floats are any type with a way to write and to read them, and only whole numbers
of a limited length are read or written.
-/

namespace AllTomorrow

namespace JsonText

/-! ## Values -/

abbrev CodePoint := Fin 1114112

instance codePoints_neZero : @NeZero ℕ Zero.ofOfNat0 1114112 := ⟨by decide⟩

inductive Value (F : Type) where
  | null
  | bool (b : Bool)
  | int (n : ℤ)
  | float (x : F)
  | str (s : List CodePoint)
  | list (xs : List (Value F))
  | dict (entries : List (List CodePoint × Value F))

variable {F : Type}

abbrev Entries (F : Type) := List (List CodePoint × Value F)

/-- `entries[key] = value`. -/
def setEntry (entries : Entries F) (key : List CodePoint) (value : Value F) : Entries F :=
  match entries with
  | [] => [(key, value)]
  | e :: es => if e.1 = key then (key, value) :: es else e :: setEntry es key value

def EndsNumber (rest : List Char) : Prop := ∀ c ∈ rest.head?, ¬c.isDigit ∧ c ≠ '.' ∧ c ≠ 'e' ∧ c ≠ 'E'

def integerPart : List Char → Option (List Char × List Char)
  | '0' :: rest => some (['0'], rest)
  | c :: rest => if c.isDigit then some (c :: rest.takeWhile Char.isDigit, rest.dropWhile Char.isDigit) else none
  | [] => none

def fractionPart : List Char → List Char × List Char
  | '.' :: rest =>
      match rest.takeWhile Char.isDigit with
      | [] => ([], '.' :: rest)
      | digits => ('.' :: digits, rest.dropWhile Char.isDigit)
  | text => ([], text)

def exponentSign : List Char → List Char × List Char
  | '+' :: rest => (['+'], rest)
  | '-' :: rest => (['-'], rest)
  | rest => ([], rest)

def exponentPart : List Char → List Char × List Char
  | [] => ([], [])
  | e :: rest =>
      if e = 'e' ∨ e = 'E' then
        match (exponentSign rest).2.takeWhile Char.isDigit with
        | [] => ([], e :: rest)
        | digits => (e :: (exponentSign rest).1 ++ digits, (exponentSign rest).2.dropWhile Char.isDigit)
      else ([], e :: rest)

def IsDigits (text : List Char) : Prop := text ≠ [] ∧ ∀ c ∈ text, c.isDigit = true

def IsFraction (text : List Char) : Prop := ∃ digits, text = '.' :: digits ∧ IsDigits digits

def IsExponent (text : List Char) : Prop :=
  ∃ e sign digits, text = e :: (sign ++ digits) ∧ (e = 'e' ∨ e = 'E') ∧ (sign = [] ∨ sign = ['+'] ∨ sign = ['-']) ∧
    IsDigits digits

/-- A sign, a whole number and then a fraction, an exponent or both, and nothing else. -/
def IsFloatLiteral (text : List Char) : Prop :=
  ∃ sign int fraction exponent, text = sign ++ (int ++ (fraction ++ exponent)) ∧ (sign = [] ∨ sign = ['-']) ∧
    integerPart int = some (int, []) ∧ (fraction = [] ∨ IsFraction fraction) ∧ (exponent = [] ∨ IsExponent exponent) ∧
    ¬(fraction = [] ∧ exponent = [])

/-- Floats with the texts that write them. What is not finite is written as no literal. -/
structure Floats (F : Type) where
  finite : F → Prop
  repr : F → List Char
  parse : List Char → F
  nan : F
  infinity : F
  negInfinity : F
  repr_literal : ∀ x, finite x → IsFloatLiteral (repr x)
  parse_repr : ∀ x, finite x → parse (repr x) = x

def hexDigit (n : ℕ) : Char := Nat.digitChar n

def hex4 (n : ℕ) : List Char :=
  [hexDigit (n / 4096 % 16), hexDigit (n / 256 % 16), hexDigit (n / 16 % 16), hexDigit (n % 16)]

def escapeUnit (n : ℕ) : List Char := '\\' :: 'u' :: hex4 n

/-- A code point as it is written in a string; beyond the ASCII characters as one escape or two. -/
def writeChar (c : CodePoint) : List Char :=
  let n := c.val
  if n = 34 then ['\\', '"']
  else if n = 92 then ['\\', '\\']
  else if n = 10 then ['\\', 'n']
  else if n = 13 then ['\\', 'r']
  else if n = 9 then ['\\', 't']
  else if n = 12 then ['\\', 'f']
  else if n = 8 then ['\\', 'b']
  else if 32 ≤ n ∧ n ≤ 126 then [Char.ofNat n]
  else if n < 65536 then escapeUnit n
  else escapeUnit (55296 + (n - 65536) / 1024) ++ escapeUnit (56320 + (n - 65536) % 1024)

def writeString (s : List CodePoint) : List Char := '"' :: s.flatMap writeChar ++ ['"']

def writeInt (n : ℤ) : List Char := (if n < 0 then ['-'] else []) ++ Nat.toDigits 10 n.natAbs

variable (floats : Floats F)

mutual

def write : Value F → List Char
  | .null => ['n', 'u', 'l', 'l']
  | .bool true => ['t', 'r', 'u', 'e']
  | .bool false => ['f', 'a', 'l', 's', 'e']
  | .int n => writeInt n
  | .float x => floats.repr x
  | .str s => writeString s
  | .list [] => ['[', ']']
  | .list (x :: xs) => '[' :: write x ++ writeItems xs
  | .dict [] => ['\x7b', '\x7d']
  | .dict ((key, value) :: entries) => '\x7b' :: writeString key ++ ':' :: ' ' :: write value ++ writeEntries entries

def writeItems : List (Value F) → List Char
  | [] => [']']
  | x :: xs => ',' :: ' ' :: write x ++ writeItems xs

def writeEntries : List (List CodePoint × Value F) → List Char
  | [] => ['\x7d']
  | (key, value) :: entries => ',' :: ' ' :: writeString key ++ ':' :: ' ' :: write value ++ writeEntries entries

end

/-! ## Reading -/

inductive ReadError where
  | decode
  | digits
  | exhausted
  deriving DecidableEq

def isSpace (c : Char) : Bool := c = ' ' || c = '\t' || c = '\n' || c = '\r'

def skipSpace (text : List Char) : List Char := text.dropWhile isSpace

def hexValue (c : Char) : Option ℕ :=
  if c.isDigit then some (c.toNat - 48)
  else if 'a' ≤ c ∧ c ≤ 'f' then some (c.toNat - 87)
  else if 'A' ≤ c ∧ c ≤ 'F' then some (c.toNat - 55)
  else none

def readHex4 : List Char → Option ℕ
  | a :: b :: c :: d :: _ => do
      let a ← hexValue a
      let b ← hexValue b
      let c ← hexValue c
      let d ← hexValue d
      some (4096 * a + 256 * b + 16 * c + d)
  | _ => none

def isHigh (n : ℕ) : Prop := 55296 ≤ n ∧ n ≤ 56319

def isLow (n : ℕ) : Prop := 56320 ≤ n ∧ n ≤ 57343

instance (n : ℕ) : Decidable (isHigh n) := inferInstanceAs (Decidable (_ ∧ _))

instance (n : ℕ) : Decidable (isLow n) := inferInstanceAs (Decidable (_ ∧ _))

/-- The code point that an escape names after its backslash, and how many characters it takes. -/
def readEscape : List Char → Except ReadError (CodePoint × ℕ)
  | '"' :: _ => .ok (34, 1)
  | '\\' :: _ => .ok (92, 1)
  | '/' :: _ => .ok (47, 1)
  | 'b' :: _ => .ok (8, 1)
  | 'f' :: _ => .ok (12, 1)
  | 'n' :: _ => .ok (10, 1)
  | 'r' :: _ => .ok (13, 1)
  | 't' :: _ => .ok (9, 1)
  | 'u' :: rest =>
      match readHex4 rest with
      | none => .error .decode
      | some unit =>
          if isHigh unit then
            match rest.drop 4 with
            | '\\' :: 'u' :: rest' =>
                match readHex4 rest' with
                | none => .error .decode
                | some low =>
                    if isLow low then .ok (Fin.ofNat _ (65536 + 1024 * (unit - 55296) + (low - 56320)), 11)
                    else .ok (Fin.ofNat _ unit, 5)
            | _ => .ok (Fin.ofNat _ unit, 5)
          else .ok (Fin.ofNat _ unit, 5)
  | _ => .error .decode

/-- The rest of a string, after so many characters that are read already, and what follows it. -/
def readString : ℕ → List Char → Except ReadError (List CodePoint × List Char)
  | _, [] => .error .decode
  | skip + 1, _ :: rest => readString skip rest
  | 0, c :: rest =>
      if c = '"' then .ok ([], rest)
      else if c = '\\' then do
        let (codePoint, n) ← readEscape rest
        let (s, after) ← readString n rest
        .ok (codePoint :: s, after)
      else if c.toNat < 32 then .error .decode
      else do
        let (s, after) ← readString 0 rest
        .ok (Fin.ofNat _ c.toNat :: s, after)

def digitLimit : ℕ := 4300

def signed (sign : List Char) (n : ℕ) : ℤ := if sign = [] then n else -n

def numberSign : List Char → List Char × List Char
  | '-' :: rest => (['-'], rest)
  | text => ([], text)

def readNumber (text : List Char) : Except ReadError (Value F × List Char) :=
  let sign := (numberSign text).1
  match integerPart (numberSign text).2 with
  | none => .error .decode
  | some (int, rest) =>
      let fraction := (fractionPart rest).1
      let exponent := (exponentPart (fractionPart rest).2).1
      let rest := (exponentPart (fractionPart rest).2).2
      if fraction = [] ∧ exponent = [] then
        if int.length ≤ digitLimit then .ok (.int (signed sign (Nat.ofDigitChars 10 int 0)), rest)
        else .error .digits
      else .ok (.float (floats.parse (sign ++ (int ++ (fraction ++ exponent)))), rest)

mutual

/-- `scan_once`: the value at the start of the text, and what follows it. -/
def readValue : ℕ → List Char → Except ReadError (Value F × List Char)
  | 0, _ => .error .exhausted
  | fuel + 1, text =>
      match text with
      | '"' :: rest => do
          let (s, after) ← readString 0 rest
          .ok (.str s, after)
      | '\x7b' :: rest =>
          match skipSpace rest with
          | '\x7d' :: after => .ok (.dict [], after)
          | rest => readEntries fuel [] rest
      | '[' :: rest =>
          match skipSpace rest with
          | ']' :: after => .ok (.list [], after)
          | rest => readItems fuel [] rest
      | 'n' :: 'u' :: 'l' :: 'l' :: after => .ok (.null, after)
      | 't' :: 'r' :: 'u' :: 'e' :: after => .ok (.bool true, after)
      | 'f' :: 'a' :: 'l' :: 's' :: 'e' :: after => .ok (.bool false, after)
      | 'N' :: 'a' :: 'N' :: after => .ok (.float floats.nan, after)
      | 'I' :: 'n' :: 'f' :: 'i' :: 'n' :: 'i' :: 't' :: 'y' :: after => .ok (.float floats.infinity, after)
      | '-' :: 'I' :: 'n' :: 'f' :: 'i' :: 'n' :: 'i' :: 't' :: 'y' :: after => .ok (.float floats.negInfinity, after)
      | _ => readNumber floats text

def readItems : ℕ → List (Value F) → List Char → Except ReadError (Value F × List Char)
  | 0, _, _ => .error .exhausted
  | fuel + 1, xs, text => do
      let (x, rest) ← readValue fuel text
      match skipSpace rest with
      | ']' :: after => .ok (.list (xs ++ [x]), after)
      | ',' :: rest => readItems fuel (xs ++ [x]) (skipSpace rest)
      | _ => .error .decode

def readEntries : ℕ → Entries F → List Char → Except ReadError (Value F × List Char)
  | 0, _, _ => .error .exhausted
  | fuel + 1, entries, text =>
      match text with
      | '"' :: rest => do
          let (key, rest) ← readString 0 rest
          match skipSpace rest with
          | ':' :: rest => do
              let (value, rest) ← readValue fuel (skipSpace rest)
              match skipSpace rest with
              | '\x7d' :: after => .ok (.dict (setEntry entries key value), after)
              | ',' :: rest => readEntries fuel (setEntry entries key value) (skipSpace rest)
              | _ => .error .decode
          | _ => .error .decode
      | _ => .error .decode

end

/-- `json.loads`: one value, with white space around it. -/
def loads (text : List Char) : Except ReadError (Value F) := do
  let (value, rest) ← readValue floats (2 * text.length + 1) (skipSpace text)
  if skipSpace rest = [] then .ok value else .error .decode

/-! ## What is read -/

/-- What is read next: a value, or the other items after those read already. -/
inductive Mode (F : Type) where
  | value
  | items (xs : List (Value F))
  | entries (entries : Entries F)

def words : List (List Char × Value F) :=
  [(['n', 'u', 'l', 'l'], .null), (['t', 'r', 'u', 'e'], .bool true), (['f', 'a', 'l', 's', 'e'], .bool false),
    (['N', 'a', 'N'], .float floats.nan), (['I', 'n', 'f', 'i', 'n', 'i', 't', 'y'], .float floats.infinity),
    (['-', 'I', 'n', 'f', 'i', 'n', 'i', 't', 'y'], .float floats.negInfinity)]

inductive Reads : Mode F → List Char → Value F → List Char → Prop where
  | str {rest after : List Char} {s : List CodePoint} (hread : readString 0 rest = .ok (s, after)) :
      Reads .value ('"' :: rest) (.str s) after
  | emptyDict {rest after : List Char} (hend : skipSpace rest = '\x7d' :: after) :
      Reads .value ('\x7b' :: rest) (.dict []) after
  | dict {rest after : List Char} {value : Value F} (hread : Reads (.entries []) (skipSpace rest) value after) :
      Reads .value ('\x7b' :: rest) value after
  | emptyList {rest after : List Char} (hend : skipSpace rest = ']' :: after) :
      Reads .value ('[' :: rest) (.list []) after
  | list {rest after : List Char} {value : Value F} (hread : Reads (.items []) (skipSpace rest) value after) :
      Reads .value ('[' :: rest) value after
  | word {word after : List Char} {value : Value F} (hword : (word, value) ∈ words floats) :
      Reads .value (word ++ after) value after
  | number {text after : List Char} {value : Value F} (hread : readNumber floats text = .ok (value, after)) :
      Reads .value text value after
  | lastItem {xs : List (Value F)} {text rest after : List Char} {x : Value F} (hread : Reads .value text x rest)
      (hend : skipSpace rest = ']' :: after) : Reads (.items xs) text (.list (xs ++ [x])) after
  | item {xs : List (Value F)} {text rest rest' after : List Char} {x value : Value F} (hread : Reads .value text x rest)
      (hcomma : skipSpace rest = ',' :: rest') (hitems : Reads (.items (xs ++ [x])) (skipSpace rest') value after) :
      Reads (.items xs) text value after
  | lastEntry {entries : Entries F} {text colon rest rest' after : List Char} {key : List CodePoint} {value : Value F}
      (hkey : readString 0 text = .ok (key, colon)) (hcolon : skipSpace colon = ':' :: rest)
      (hread : Reads .value (skipSpace rest) value rest') (hend : skipSpace rest' = '\x7d' :: after) :
      Reads (.entries entries) ('"' :: text) (.dict (setEntry entries key value)) after
  | entry {entries : Entries F} {text colon rest rest' rest'' after : List Char} {key : List CodePoint}
      {value dict : Value F} (hkey : readString 0 text = .ok (key, colon)) (hcolon : skipSpace colon = ':' :: rest)
      (hread : Reads .value (skipSpace rest) value rest') (hcomma : skipSpace rest' = ',' :: rest'')
      (hentries : Reads (.entries (setEntry entries key value)) (skipSpace rest'') dict after) :
      Reads (.entries entries) ('"' :: text) dict after

variable {floats}

theorem bind_eq_ok {ε α β : Type} {x : Except ε α} {f : α → Except ε β} {b : β} :
    (x >>= f) = .ok b ↔ ∃ a, x = .ok a ∧ f a = .ok b := by
  cases x with
  | error e => exact ⟨fun h => (nomatch h), fun ⟨_, h, _⟩ => nomatch h⟩
  | ok a =>
    constructor
    · intro h
      exact ⟨a, rfl, h⟩
    · rintro ⟨a', h, hf⟩
      cases h
      exact hf

def Sound (floats : Floats F) (fuel : ℕ) : Prop :=
  (∀ text value after, readValue floats fuel text = .ok (value, after) → Reads floats .value text value after) ∧
    (∀ xs text value after, readItems floats fuel xs text = .ok (value, after) →
      Reads floats (.items xs) text value after) ∧
    ∀ entries text value after, readEntries floats fuel entries text = .ok (value, after) →
      Reads floats (.entries entries) text value after

variable {text after : List Char} {value : Value F} {fuel : ℕ}

theorem reads_of_readValue (ih : Sound floats fuel)
    (h : readValue floats (fuel + 1) text = .ok (value, after)) : Reads floats .value text value after := by
  unfold readValue at h
  split at h
  · obtain ⟨⟨s, rest⟩, hread, h⟩ := bind_eq_ok.mp h
    cases h
    exact .str hread
  · split at h
    · rename_i hend
      cases h
      exact .emptyDict hend
    · exact .dict (ih.2.2 _ _ _ _ h)
  · split at h
    · rename_i hend
      cases h
      exact .emptyList hend
    · exact .list (ih.2.1 _ _ _ _ h)
  · cases h
    exact @Reads.word F floats ['n', 'u', 'l', 'l'] after .null (by simp [words])
  · cases h
    exact @Reads.word F floats ['t', 'r', 'u', 'e'] after (.bool true) (by simp [words])
  · cases h
    exact @Reads.word F floats ['f', 'a', 'l', 's', 'e'] after (.bool false) (by simp [words])
  · cases h
    exact @Reads.word F floats ['N', 'a', 'N'] after (.float floats.nan) (by simp [words])
  · cases h
    exact @Reads.word F floats ['I', 'n', 'f', 'i', 'n', 'i', 't', 'y'] after (.float floats.infinity) (by simp [words])
  · cases h
    exact @Reads.word F floats ['-', 'I', 'n', 'f', 'i', 'n', 'i', 't', 'y'] after (.float floats.negInfinity)
      (by simp [words])
  · exact .number h

theorem reads_of_readItems (ih : Sound floats fuel) {xs : List (Value F)} (h : readItems floats (fuel + 1) xs text = .ok (value, after)) :
    Reads floats (.items xs) text value after := by
  unfold readItems at h
  obtain ⟨⟨x, rest⟩, hread, h⟩ := bind_eq_ok.mp h
  have hvalue := ih.1 _ _ _ hread
  dsimp only at h
  split at h
  · rename_i hend
    cases h
    exact .lastItem hvalue hend
  · rename_i hcomma
    exact .item hvalue hcomma (ih.2.1 _ _ _ _ h)
  · cases h

theorem reads_of_readEntries (ih : Sound floats fuel) {entries : Entries F} (h : readEntries floats (fuel + 1) entries text = .ok (value, after)) :
    Reads floats (.entries entries) text value after := by
  unfold readEntries at h
  split at h
  · obtain ⟨⟨key, colon⟩, hkey, h⟩ := bind_eq_ok.mp h
    dsimp only at h
    split at h
    · rename_i hcolon
      obtain ⟨⟨item, rest⟩, hread, h⟩ := bind_eq_ok.mp h
      have hvalue := ih.1 _ _ _ hread
      dsimp only at h
      split at h
      · rename_i hend
        cases h
        exact .lastEntry hkey hcolon hvalue hend
      · rename_i hcomma
        exact .entry hkey hcolon hvalue hcomma (ih.2.2 _ _ _ _ h)
      · cases h
    · cases h
  · cases h

theorem sound (fuel : ℕ) : Sound floats fuel := by
  induction fuel with
  | zero =>
    refine ⟨?_, ?_, ?_⟩
    · intro text value after h
      cases h
    · intro xs text value after h
      cases h
    · intro entries text value after h
      cases h
  | succ fuel ih =>
    exact ⟨fun _ _ _ => reads_of_readValue ih, fun _ _ _ _ => reads_of_readItems ih,
      fun _ _ _ _ => reads_of_readEntries ih⟩

theorem reads_of_loads {text : List Char} (h : loads floats text = .ok value) :
    ∃ after, Reads floats .value (skipSpace text) value after ∧ skipSpace after = [] := by
  unfold loads at h
  obtain ⟨⟨value', after⟩, hread, h⟩ := bind_eq_ok.mp h
  dsimp only at h
  split at h
  · rename_i hend
    cases h
    exact ⟨after, (sound _).1 _ _ _ hread, hend⟩
  · cases h

/-! ## Progress -/

theorem length_skipSpace_le (text : List Char) : (skipSpace text).length ≤ text.length :=
  (List.dropWhile_suffix isSpace).length_le

theorem readString_length {n : ℕ} {s : List CodePoint}
    (h : readString n text = .ok (s, after)) : after.length < text.length := by
  induction text generalizing n s with
  | nil => cases n <;> cases h
  | cons c rest ih =>
    cases n with
    | succ n => exact Nat.lt_trans (ih h) (Nat.lt_succ_self rest.length)
    | zero =>
      rw [readString] at h
      split at h
      · cases h
        exact Nat.lt_succ_self after.length
      · split at h
        · obtain ⟨⟨codePoint, n⟩, _, h⟩ := bind_eq_ok.mp h
          obtain ⟨⟨s', after'⟩, hrest, h⟩ := bind_eq_ok.mp h
          cases h
          exact Nat.lt_trans (ih hrest) (Nat.lt_succ_self rest.length)
        · split at h
          · cases h
          · obtain ⟨⟨s', after'⟩, hrest, h⟩ := bind_eq_ok.mp h
            cases h
            exact Nat.lt_trans (ih hrest) (Nat.lt_succ_self rest.length)

def InNumber (c : Char) : Prop := c.isDigit = true ∨ c = '-' ∨ c = '+' ∨ c = '.' ∨ c = 'e' ∨ c = 'E'

theorem inNumber_of_mem_takeWhile {c : Char} {text : List Char} (h : c ∈ text.takeWhile Char.isDigit) : InNumber c :=
  .inl (List.mem_takeWhile_imp h)

theorem integerPart_eq {text int rest : List Char} (h : integerPart text = some (int, rest)) :
    text = int ++ rest ∧ int ≠ [] ∧ ∀ c ∈ int, InNumber c := by
  unfold integerPart at h
  split at h
  · cases h
    exact ⟨rfl, List.cons_ne_nil _ _, fun c hc => .inl (by rw [List.mem_singleton.mp hc]; rfl)⟩
  · rename_i c text' _
    split at h
    · rename_i hdigit
      cases h
      refine ⟨by rw [List.cons_append, List.takeWhile_append_dropWhile], List.cons_ne_nil _ _, fun d hd => ?_⟩
      rcases List.mem_cons.mp hd with rfl | hd
      · exact .inl hdigit
      · exact inNumber_of_mem_takeWhile hd
    · cases h
  · cases h

theorem fractionPart_eq (text : List Char) :
    text = (fractionPart text).1 ++ (fractionPart text).2 ∧ ∀ c ∈ (fractionPart text).1, InNumber c := by
  unfold fractionPart
  split
  · rename_i rest
    split
    · exact ⟨rfl, fun c hc => (List.not_mem_nil hc).elim⟩
    · rename_i digits _
      refine ⟨by rw [List.cons_append, List.takeWhile_append_dropWhile], fun c hc => ?_⟩
      rcases List.mem_cons.mp hc with rfl | hc
      · exact .inr (.inr (.inr (.inl rfl)))
      · exact inNumber_of_mem_takeWhile hc
  · exact ⟨rfl, fun c hc => (List.not_mem_nil hc).elim⟩

theorem exponentSign_eq (text : List Char) :
    text = (exponentSign text).1 ++ (exponentSign text).2 ∧ ∀ c ∈ (exponentSign text).1, InNumber c := by
  unfold exponentSign
  split
  · exact ⟨rfl, fun c hc => .inr (.inr (.inl (List.mem_singleton.mp hc)))⟩
  · exact ⟨rfl, fun c hc => .inr (.inl (List.mem_singleton.mp hc))⟩
  · exact ⟨rfl, fun c hc => (List.not_mem_nil hc).elim⟩

theorem exponentPart_eq (text : List Char) :
    text = (exponentPart text).1 ++ (exponentPart text).2 ∧ ∀ c ∈ (exponentPart text).1, InNumber c := by
  unfold exponentPart
  split
  · exact ⟨rfl, fun c hc => (List.not_mem_nil hc).elim⟩
  · rename_i e rest
    split
    · rename_i he
      obtain ⟨hsplit, hsign⟩ := exponentSign_eq rest
      split
      · exact ⟨rfl, fun c hc => (List.not_mem_nil hc).elim⟩
      · rename_i digits _
        constructor
        · rw [List.cons_append, List.cons_append, List.append_assoc, List.takeWhile_append_dropWhile, ← hsplit]
        · intro c hc
          rw [List.cons_append] at hc
          rcases List.mem_cons.mp hc with rfl | hc
          · exact he.elim (fun h => .inr (.inr (.inr (.inr (.inl h))))) fun h => .inr (.inr (.inr (.inr (.inr h))))
          · rcases List.mem_append.mp hc with hc | hc
            · exact hsign c hc
            · exact inNumber_of_mem_takeWhile hc
    · exact ⟨rfl, fun c hc => (List.not_mem_nil hc).elim⟩

theorem numberSign_eq (text : List Char) :
    text = (numberSign text).1 ++ (numberSign text).2 ∧ ∀ c ∈ (numberSign text).1, InNumber c := by
  unfold numberSign
  split
  · exact ⟨rfl, fun c hc => .inr (.inl (List.mem_singleton.mp hc))⟩
  · exact ⟨rfl, fun c hc => (List.not_mem_nil hc).elim⟩

/-- A number holds no string, and its text no character of one. -/
theorem readNumber_ok (h : readNumber floats text = .ok (value, after)) :
    (∃ literal, text = literal ++ after ∧ literal ≠ [] ∧ ∀ c ∈ literal, InNumber c) ∧
      ((∃ n, value = .int n) ∨ ∃ x, value = .float x) := by
  obtain ⟨hsign, hsignChars⟩ := numberSign_eq text
  unfold readNumber at h
  dsimp only at h
  split at h
  · cases h
  · rename_i int rest hint
    obtain ⟨hunsigned, hne, hintChars⟩ := integerPart_eq hint
    obtain ⟨hfraction, hfractionChars⟩ := fractionPart_eq rest
    obtain ⟨hexponent, hexponentChars⟩ := exponentPart_eq (fractionPart rest).2
    have hliteral : ∃ literal, text = literal ++ (exponentPart (fractionPart rest).2).2 ∧ literal ≠ [] ∧
        ∀ c ∈ literal, InNumber c := by
      refine ⟨(numberSign text).1 ++ (int ++ ((fractionPart rest).1 ++ (exponentPart (fractionPart rest).2).1)), ?_, ?_, ?_⟩
      · simp only [List.append_assoc]
        rw [← hexponent, ← hfraction, ← hunsigned, ← hsign]
      · simp [hne]
      · intro c hc
        simp only [List.mem_append] at hc
        rcases hc with hc | hc | hc | hc
        · exact hsignChars c hc
        · exact hintChars c hc
        · exact hfractionChars c hc
        · exact hexponentChars c hc
    split at h
    · split at h
      · cases h
        exact ⟨hliteral, .inl ⟨_, rfl⟩⟩
      · cases h
    · cases h
      exact ⟨hliteral, .inr ⟨_, rfl⟩⟩

theorem word_ne_nil {word : List Char} (h : (word, value) ∈ words floats) : word ≠ [] := by
  simp only [words, List.mem_cons, Prod.mk.injEq, List.not_mem_nil, or_false] at h
  rcases h with ⟨rfl, _⟩ | ⟨rfl, _⟩ | ⟨rfl, _⟩ | ⟨rfl, _⟩ | ⟨rfl, _⟩ | ⟨rfl, _⟩ <;> exact List.cons_ne_nil _ _

/-- Something is read of every value, and of all that follows in a list or a dict. -/
theorem Reads.length {mode : Mode F} (h : Reads floats mode text value after) : after.length < text.length := by
  induction h with
  | str hread => exact Nat.lt_trans (readString_length hread) (Nat.lt_succ_self _)
  | @emptyDict rest after hend =>
    have hle := length_skipSpace_le rest
    rw [hend, List.length_cons] at hle
    rw [List.length_cons]
    omega
  | @dict rest after value _ ih =>
    have hle := length_skipSpace_le rest
    rw [List.length_cons]
    omega
  | @emptyList rest after hend =>
    have hle := length_skipSpace_le rest
    rw [hend, List.length_cons] at hle
    rw [List.length_cons]
    omega
  | @list rest after value _ ih =>
    have hle := length_skipSpace_le rest
    rw [List.length_cons]
    omega
  | @word word after value hword =>
    have hpos := List.length_pos_iff.mpr (word_ne_nil hword)
    rw [List.length_append]
    omega
  | number hread =>
    obtain ⟨⟨literal, rfl, hne, _⟩, _⟩ := readNumber_ok hread
    have hpos := List.length_pos_iff.mpr hne
    rw [List.length_append]
    omega
  | @lastItem xs text rest after x _ hend ih =>
    have hle := length_skipSpace_le rest
    rw [hend, List.length_cons] at hle
    omega
  | @item xs text rest rest' after x value _ hcomma _ ih ih' =>
    have hle := length_skipSpace_le rest
    have hle' := length_skipSpace_le rest'
    rw [hcomma, List.length_cons] at hle
    omega
  | @lastEntry entries text colon rest rest' after key value hkey hcolon _ hend ih =>
    have hstring := readString_length hkey
    have hle := length_skipSpace_le colon
    have hle' := length_skipSpace_le rest
    have hle'' := length_skipSpace_le rest'
    rw [hcolon, List.length_cons] at hle
    rw [hend, List.length_cons] at hle''
    rw [List.length_cons]
    omega
  | @entry entries text colon rest rest' rest'' after key value dict hkey hcolon _ hcomma _ ih ih' =>
    have hstring := readString_length hkey
    have hle := length_skipSpace_le colon
    have hle' := length_skipSpace_le rest
    have hle'' := length_skipSpace_le rest'
    have hle''' := length_skipSpace_le rest''
    rw [hcolon, List.length_cons] at hle
    rw [hcomma, List.length_cons] at hle''
    rw [List.length_cons]
    omega

/-! ## Enough fuel -/

theorem ok_ne_error {ε α : Type} {a : α} {e : ε} : Except.ok a ≠ .error e := nofun

theorem decode_ne_exhausted {α : Type} : (Except.error .decode : Except ReadError α) ≠ .error .exhausted := by
  intro h
  cases h

theorem bind_ne_error {ε α β : Type} {x : Except ε α} {f : α → Except ε β} {e : ε} (hx : x ≠ .error e)
    (hf : ∀ a, x = .ok a → f a ≠ .error e) : (x >>= f) ≠ .error e := by
  cases x with
  | error e' =>
    intro h
    cases h
    exact hx rfl
  | ok a => exact hf a rfl

theorem readEscape_ne_exhausted (text : List Char) : readEscape text ≠ .error .exhausted := by
  unfold readEscape
  split
  case h_9 rest =>
    split
    · exact decode_ne_exhausted
    · split
      · split
        · split
          · exact decode_ne_exhausted
          · split <;> exact ok_ne_error
        · exact ok_ne_error
      · exact ok_ne_error
  case h_10 => exact decode_ne_exhausted
  all_goals exact ok_ne_error

theorem readString_ne_exhausted (n : ℕ) (text : List Char) : readString n text ≠ .error .exhausted := by
  induction text generalizing n with
  | nil => cases n <;> exact decode_ne_exhausted
  | cons c rest ih =>
    cases n with
    | succ n => exact ih n
    | zero =>
      rw [readString]
      split
      · exact ok_ne_error
      · split
        · refine bind_ne_error (readEscape_ne_exhausted rest) fun _ _ => ?_
          exact bind_ne_error (ih _) fun _ _ => ok_ne_error
        · split
          · exact decode_ne_exhausted
          · exact bind_ne_error (ih _) fun _ _ => ok_ne_error

theorem readNumber_ne_exhausted (text : List Char) : readNumber floats text ≠ .error .exhausted := by
  unfold readNumber
  dsimp only
  split
  · exact decode_ne_exhausted
  · split
    · split
      · exact ok_ne_error
      · intro h
        cases h
    · exact ok_ne_error

/-- The scanners do not run out of fuel on texts up to about half of it. -/
def Fueled (floats : Floats F) (fuel : ℕ) : Prop :=
  (∀ text, 2 * text.length + 1 ≤ fuel → readValue floats fuel text ≠ .error .exhausted) ∧
    (∀ xs text, 2 * text.length + 2 ≤ fuel → readItems floats fuel xs text ≠ .error .exhausted) ∧
    ∀ entries text, 2 * text.length + 2 ≤ fuel → readEntries floats fuel entries text ≠ .error .exhausted

theorem readValue_ne_exhausted (ih : Fueled floats fuel) {text : List Char}
    (h : 2 * text.length + 1 ≤ fuel + 1) : readValue floats (fuel + 1) text ≠ .error .exhausted := by
  unfold readValue
  split <;> try exact ok_ne_error
  · exact bind_ne_error (readString_ne_exhausted _ _) fun _ _ => ok_ne_error
  · rename_i rest
    have hle := length_skipSpace_le rest
    rw [List.length_cons] at h
    split
    · exact ok_ne_error
    · exact ih.2.2 _ _ (by omega)
  · rename_i rest
    have hle := length_skipSpace_le rest
    rw [List.length_cons] at h
    split
    · exact ok_ne_error
    · exact ih.2.1 _ _ (by omega)
  · exact readNumber_ne_exhausted text

theorem readItems_ne_exhausted (ih : Fueled floats fuel) (xs : List (Value F)) {text : List Char}
    (h : 2 * text.length + 2 ≤ fuel + 1) : readItems floats (fuel + 1) xs text ≠ .error .exhausted := by
  unfold readItems
  refine bind_ne_error (ih.1 text (by omega)) fun ⟨x, rest⟩ hread => ?_
  have hlength := ((sound fuel).1 _ _ _ hread).length
  have hle := length_skipSpace_le rest
  dsimp only
  split
  · exact ok_ne_error
  · rename_i rest' hcomma
    have hle' := length_skipSpace_le rest'
    rw [hcomma, List.length_cons] at hle
    exact ih.2.1 _ _ (by omega)
  · exact decode_ne_exhausted

theorem readEntries_ne_exhausted (ih : Fueled floats fuel) (entries : Entries F) {text : List Char}
    (h : 2 * text.length + 2 ≤ fuel + 1) : readEntries floats (fuel + 1) entries text ≠ .error .exhausted := by
  unfold readEntries
  split
  · rename_i rest
    rw [List.length_cons] at h
    refine bind_ne_error (readString_ne_exhausted _ _) fun ⟨key, colon⟩ hkey => ?_
    have hlength := readString_length hkey
    have hle := length_skipSpace_le colon
    dsimp only
    split
    · rename_i rest' hcolon
      have hle' := length_skipSpace_le rest'
      rw [hcolon, List.length_cons] at hle
      refine bind_ne_error (ih.1 _ (by omega)) fun ⟨item, rest''⟩ hread => ?_
      have hlength' := ((sound fuel).1 _ _ _ hread).length
      have hle'' := length_skipSpace_le rest''
      dsimp only
      split
      · exact ok_ne_error
      · rename_i rest''' hcomma
        have hle''' := length_skipSpace_le rest'''
        rw [hcomma, List.length_cons] at hle''
        exact ih.2.2 _ _ (by omega)
      · exact decode_ne_exhausted
    · exact decode_ne_exhausted
  · exact decode_ne_exhausted

theorem fueled (fuel : ℕ) : Fueled floats fuel := by
  induction fuel with
  | zero => exact ⟨fun _ h => by omega, fun _ _ h => by omega, fun _ _ h => by omega⟩
  | succ fuel ih =>
    exact ⟨fun _ => readValue_ne_exhausted ih, fun xs _ => readItems_ne_exhausted ih xs,
      fun entries _ => readEntries_ne_exhausted ih entries⟩

theorem loads_ne_exhausted (text : List Char) : loads floats text ≠ .error .exhausted := by
  have hle := length_skipSpace_le text
  unfold loads
  refine bind_ne_error ((fueled _).1 _ (by omega)) fun _ _ => ?_
  dsimp only
  split
  · exact ok_ne_error
  · exact decode_ne_exhausted

end JsonText

end AllTomorrow
