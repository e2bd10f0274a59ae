import AllTomorrow.JsonText
import Mathlib.Data.List.Chain
import Mathlib.Tactic.IntervalCases

/-!
# JSON texts read back

A value is read back from the text that writes it, if its floats are finite, its whole
numbers are not too long, the keys of each dict differ, and no string or key has the two
halves of a surrogate pair side by side, which are read as one code point.
-/

namespace AllTomorrow

namespace JsonText

variable {F : Type} {floats : Floats F}

/-! ## Escapes -/

variable {n : ℕ}

theorem hexValue_hexDigit (h : n < 16) : hexValue (hexDigit n) = some n := by
  have hall : ∀ k < 16, hexValue (hexDigit k) = some k := by decide
  exact hall n h

theorem readHex4_hex4 (h : n < 65536) (rest : List Char) : readHex4 (hex4 n ++ rest) = some n := by
  have hdigit : ∀ k, hexValue (hexDigit (k % 16)) = some (k % 16) := fun k => hexValue_hexDigit (Nat.mod_lt k (by decide))
  have hvalue : 4096 * (n / 4096 % 16) + 256 * (n / 256 % 16) + 16 * (n / 16 % 16) + n % 16 = n := by omega
  simp only [hex4, List.cons_append, readHex4, hdigit]
  exact congrArg some hvalue

def highUnit (n : ℕ) : ℕ := 55296 + (n - 65536) / 1024

def lowUnit (n : ℕ) : ℕ := 56320 + (n - 65536) % 1024

/-- The ways to write a code point: a short escape, itself, one escape or two. -/
inductive Written (c : CodePoint) : List Char → Prop where
  | short {e : Char} (hread : ∀ rest, readEscape (e :: rest) = .ok (c, 1)) (hletter : e ∈ ['"', '\\', 'n', 'r', 't', 'f', 'b'])
      (hother : c.val < 32 ∨ c.val = 34 ∨ c.val = 92) : Written c ['\\', e]
  | plain (hlow : 32 ≤ c.val) (hhigh : c.val ≤ 126) (hquote : c.val ≠ 34) (hbackslash : c.val ≠ 92) :
      Written c [Char.ofNat c.val]
  | unit (h : c.val < 65536) (hother : c.val < 32 ∨ 126 < c.val) : Written c (escapeUnit c.val)
  | pair (h : 65536 ≤ c.val) : Written c (escapeUnit (highUnit c.val) ++ escapeUnit (lowUnit c.val))

theorem written (c : CodePoint) : Written c (writeChar c) := by
  have hval : ∀ {k : ℕ} (hk : k < 1114112), c.val = k → c = ⟨k, hk⟩ := fun hk h => Fin.ext h
  unfold writeChar
  dsimp only
  split
  · rename_i h
    exact .short (fun rest => by rw [hval (by decide) h]; rfl) (by decide) (.inr (.inl h))
  · split
    · rename_i h
      exact .short (fun rest => by rw [hval (by decide) h]; rfl) (by decide) (.inr (.inr h))
    · split
      · rename_i h
        exact .short (fun rest => by rw [hval (by decide) h]; rfl) (by decide) (.inl (by omega))
      · split
        · rename_i h
          exact .short (fun rest => by rw [hval (by decide) h]; rfl) (by decide) (.inl (by omega))
        · split
          · rename_i h
            exact .short (fun rest => by rw [hval (by decide) h]; rfl) (by decide) (.inl (by omega))
          · split
            · rename_i h
              exact .short (fun rest => by rw [hval (by decide) h]; rfl) (by decide) (.inl (by omega))
            · split
              · rename_i h
                exact .short (fun rest => by rw [hval (by decide) h]; rfl) (by decide) (.inl (by omega))
              · rename_i hquote hbackslash _ _ _ _ _
                split
                · rename_i h
                  exact .plain h.1 h.2 hquote hbackslash
                · rename_i hother
                  split
                  · rename_i h
                    exact .unit h (by omega)
                  · rename_i h
                    exact .pair (by omega)

/-! ## Strings -/

def Unpaired (s : List CodePoint) : Prop := s.IsChain fun a b => ¬(isHigh a.val ∧ isLow b.val)

/-- The rest does not start with an escape for the second half of a pair. -/
def NoLowAhead (rest : List Char) : Prop :=
  ∀ text, rest = '\\' :: 'u' :: text → ∃ n, readHex4 text = some n ∧ ¬isLow n

theorem readString_append (s : List Char) (rest : List Char) : readString s.length (s ++ rest) = readString 0 rest := by
  induction s with
  | nil => rfl
  | cons c s ih => exact ih

variable {rest : List Char}

theorem readEscape_unit (h : n < 65536) (hrest : isHigh n → NoLowAhead rest) :
    readEscape ('u' :: hex4 n ++ rest) = .ok (Fin.ofNat _ n, 5) := by
  have hhex := readHex4_hex4 h rest
  have hdrop : (hex4 n ++ rest).drop 4 = rest := rfl
  rw [List.cons_append]
  simp only [readEscape, hhex]
  split
  · rename_i hhigh
    rw [hdrop]
    split
    · rename_i text
      obtain ⟨low, hlow, hnot⟩ := hrest hhigh text rfl
      simp only [hlow, if_neg hnot]
    · rfl
  · rfl

theorem readEscape_pair (h : 65536 ≤ n) (hn : n < 1114112) (rest : List Char) :
    readEscape ('u' :: hex4 (highUnit n) ++ (escapeUnit (lowUnit n) ++ rest)) = .ok (⟨n, hn⟩, 11) := by
  have hhigh : isHigh (highUnit n) := by
    unfold isHigh highUnit
    omega
  have hlow : isLow (lowUnit n) := by
    unfold isLow lowUnit
    omega
  have hhex := readHex4_hex4 (n := highUnit n) (by unfold isHigh at hhigh; omega) (escapeUnit (lowUnit n) ++ rest)
  have hhex' := readHex4_hex4 (n := lowUnit n) (by unfold isLow at hlow; omega) rest
  have hdrop : (hex4 (highUnit n) ++ (escapeUnit (lowUnit n) ++ rest)).drop 4 =
      '\\' :: 'u' :: (hex4 (lowUnit n) ++ rest) := rfl
  have hvalue : 65536 + 1024 * (highUnit n - 55296) + (lowUnit n - 56320) = n := by
    unfold highUnit lowUnit
    omega
  rw [List.cons_append]
  have hof : Fin.ofNat 1114112 n = ⟨n, hn⟩ := Fin.ext (Nat.mod_eq_of_lt hn)
  simp only [readEscape, hhex, if_pos hhigh, hdrop, hhex', if_pos hlow, hvalue, hof]

theorem readString_escape {c : CodePoint} {text rest : List Char} (h : readEscape (text ++ rest) = .ok (c, text.length)) :
    readString 0 ('\\' :: (text ++ rest)) = (readString 0 rest >>= fun r => .ok (c :: r.1, r.2)) := by
  rw [readString, if_neg (by decide), if_pos rfl, h, ← readString_append text rest]
  rfl

theorem toNat_ofNat (h : n ≤ 126) : (Char.ofNat n).toNat = n := by
  have hall : ∀ k < 127, (Char.ofNat k).toNat = k := by decide
  exact hall n (Nat.lt_succ_of_le h)

/-- A written code point is read back, unless it is made one with what follows. -/
theorem readString_writeChar (c : CodePoint) (hrest : isHigh c.val → NoLowAhead rest) :
    readString 0 (writeChar c ++ rest) = (readString 0 rest >>= fun r => .ok (c :: r.1, r.2)) := by
  have hof : Fin.ofNat 1114112 c.val = c := Fin.ext (Nat.mod_eq_of_lt c.isLt)
  have hwritten := written c
  generalize writeChar c = text at hwritten ⊢
  cases hwritten with
  | @short e hread => exact @readString_escape c [e] rest (hread rest)
  | plain hlow hhigh hquote hbackslash =>
    have hnat := toNat_ofNat hhigh
    have hnotQuote : Char.ofNat c.val ≠ '"' := fun h => hquote (by rw [← hnat, h]; rfl)
    have hnotBackslash : Char.ofNat c.val ≠ '\\' := fun h => hbackslash (by rw [← hnat, h]; rfl)
    rw [List.singleton_append, readString, if_neg hnotQuote, if_neg hnotBackslash, hnat, if_neg (by omega), hof]
  | unit h hother =>
    have hread := readEscape_unit h hrest
    rw [hof] at hread
    exact @readString_escape c ('u' :: hex4 c.val) rest hread
  | pair h =>
    have hread := readEscape_pair h c.isLt rest
    have hescape := @readString_escape c ('u' :: hex4 (highUnit c.val) ++ escapeUnit (lowUnit c.val)) rest
    rw [List.append_assoc] at hescape
    exact hescape hread

theorem noLowAhead_quote (rest : List Char) : NoLowAhead ('"' :: rest) := by
  intro text h
  cases h

theorem noLowAhead_writeChar {c : CodePoint} (h : ¬isLow c.val) (rest : List Char) : NoLowAhead (writeChar c ++ rest) := by
  intro text htext
  have hwritten := written c
  generalize writeChar c = written at hwritten htext
  cases hwritten with
  | short hread hletter =>
    simp only [List.cons_append, List.cons.injEq] at htext
    have hu : 'u' ∉ ['"', '\\', 'n', 'r', 't', 'f', 'b'] := by decide
    rw [htext.2.1] at hletter
    exact absurd hletter hu
  | plain hlow hhigh hquote hbackslash =>
    simp only [List.cons_append, List.cons.injEq] at htext
    refine absurd ?_ hbackslash
    rw [← toNat_ofNat hhigh, htext.1]
    rfl
  | unit hunit =>
    have hrest : hex4 c.val ++ rest = text := by simpa [escapeUnit] using htext
    exact ⟨c.val, hrest ▸ readHex4_hex4 hunit rest, h⟩
  | pair hpair =>
    have hrest : hex4 (highUnit c.val) ++ (escapeUnit (lowUnit c.val) ++ rest) = text := by
      simpa [escapeUnit] using htext
    have hhigh : ¬isLow (highUnit c.val) := by
      unfold isLow highUnit
      omega
    have hbound : highUnit c.val < 65536 := by
      unfold highUnit
      omega
    exact ⟨highUnit c.val, hrest ▸ readHex4_hex4 hbound _, hhigh⟩

theorem readString_write {s : List CodePoint} (h : Unpaired s) (rest : List Char) :
    readString 0 (s.flatMap writeChar ++ '"' :: rest) = .ok (s, rest) := by
  induction s with
  | nil => rfl
  | cons c s ih =>
    have htail : Unpaired s := h.tail
    have hnext : isHigh c.val → NoLowAhead (s.flatMap writeChar ++ '"' :: rest) := by
      intro hhigh
      cases s with
      | nil => exact noLowAhead_quote rest
      | cons c' s =>
        have hlow : ¬isLow c'.val := fun hlow => (List.isChain_cons_cons.mp h).1 ⟨hhigh, hlow⟩
        rw [List.flatMap_cons, List.append_assoc]
        exact noLowAhead_writeChar hlow _
    rw [List.flatMap_cons, List.append_assoc, readString_writeChar c hnext, ih htail]
    rfl

/-! ## Numbers -/

def NoDigit (rest : List Char) : Prop := ∀ c ∈ rest.head?, ¬c.isDigit

theorem EndsNumber.noDigit (h : EndsNumber rest) : NoDigit rest := fun c hc => (h c hc).1

theorem takeWhile_append_of_noDigit {digits rest : List Char} (hdigits : ∀ c ∈ digits, c.isDigit = true)
    (hrest : NoDigit rest) :
    (digits ++ rest).takeWhile Char.isDigit = digits ∧ (digits ++ rest).dropWhile Char.isDigit = rest := by
  induction digits with
  | nil =>
    cases rest with
    | nil => exact ⟨rfl, rfl⟩
    | cons c rest =>
      have hc : ¬c.isDigit = true := hrest c rfl
      simp [hc]
  | cons d digits ih =>
    have hd := hdigits d List.mem_cons_self
    obtain ⟨htake, hdrop⟩ := ih fun c hc => hdigits c (List.mem_cons_of_mem d hc)
    simp [hd, htake, hdrop]

theorem integerPart_append {int rest : List Char} (h : integerPart int = some (int, [])) (hrest : NoDigit rest) :
    integerPart (int ++ rest) = some (int, rest) := by
  unfold integerPart at h
  split at h
  · cases h
    rfl
  · rename_i c text hzero
    split at h
    · rename_i hdigit
      injection h with h
      injection h with hint hdrop
      injection hint with _ htake
      have hall : ∀ d ∈ text, d.isDigit = true := by
        intro d hd
        rw [← htake] at hd
        exact List.mem_takeWhile_imp hd
      obtain ⟨htake', hdrop'⟩ := takeWhile_append_of_noDigit hall hrest
      unfold integerPart
      split
      · rename_i text' heq
        injection heq with hc _
        exact (hzero hc).elim
      · rename_i c' text' _ heq
        injection heq with hc htext
        subst hc htext
        rw [if_pos hdigit]
        exact congrArg₂ (fun taken dropped => some (c :: taken, dropped)) htake' hdrop'
      · rename_i heq
        cases heq
    · cases h
  · cases h

theorem fractionPart_append {fraction rest : List Char} (h : IsFraction fraction) (hrest : NoDigit rest) :
    fractionPart (fraction ++ rest) = (fraction, rest) := by
  obtain ⟨digits, rfl, hne, hdigits⟩ := h
  obtain ⟨htake, hdrop⟩ := takeWhile_append_of_noDigit hdigits hrest
  rw [List.cons_append, fractionPart, htake, hdrop]
  split
  · exact (hne rfl).elim
  · rfl

theorem exponentSign_append {sign digits rest : List Char} (hsign : sign = [] ∨ sign = ['+'] ∨ sign = ['-'])
    (h : IsDigits digits) : exponentSign (sign ++ (digits ++ rest)) = (sign, digits ++ rest) := by
  obtain ⟨hne, hdigits⟩ := h
  rcases hsign with rfl | rfl | rfl
  · obtain ⟨d, digits, rfl⟩ := List.exists_cons_of_ne_nil hne
    have hd := hdigits d List.mem_cons_self
    rw [List.nil_append, List.cons_append]
    unfold exponentSign
    split
    · rename_i heq
      injection heq with hc _
      subst hc
      exact absurd hd (by decide)
    · rename_i heq
      injection heq with hc _
      subst hc
      exact absurd hd (by decide)
    · rfl
  · rfl
  · rfl

theorem exponentPart_append {exponent rest : List Char} (h : IsExponent exponent) (hrest : NoDigit rest) :
    exponentPart (exponent ++ rest) = (exponent, rest) := by
  obtain ⟨e, sign, digits, rfl, he, hsign, hdigits⟩ := h
  have hsplit := @exponentSign_append sign digits rest hsign hdigits
  obtain ⟨hne, hdigits⟩ := hdigits
  obtain ⟨htake, hdrop⟩ := takeWhile_append_of_noDigit hdigits hrest
  rw [List.cons_append, List.append_assoc, exponentPart, if_pos he, hsplit]
  dsimp only
  rw [htake, hdrop]
  split
  · exact (hne rfl).elim
  · rfl

theorem fractionPart_of_ne (h : ∀ c ∈ rest.head?, c ≠ '.') : fractionPart rest = ([], rest) := by
  unfold fractionPart
  split
  · exact (h '.' rfl rfl).elim
  · rfl

theorem exponentPart_of_ne (h : ∀ c ∈ rest.head?, c ≠ 'e' ∧ c ≠ 'E') : exponentPart rest = ([], rest) := by
  unfold exponentPart
  split
  · rfl
  · rename_i e rest
    obtain ⟨he, hE⟩ := h e rfl
    rw [if_neg (not_or.mpr ⟨he, hE⟩)]

theorem integerPart_head {int rest : List Char} (h : integerPart int = some (int, rest)) :
    ∃ d digits, int = d :: digits ∧ d.isDigit = true := by
  unfold integerPart at h
  split at h
  · exact ⟨'0', _, rfl, rfl⟩
  · rename_i c text _
    split at h
    · rename_i hdigit
      exact ⟨c, text, rfl, hdigit⟩
    · cases h
  · cases h

theorem numberSign_append {sign int rest : List Char} (hsign : sign = [] ∨ sign = ['-'])
    (hint : ∃ d digits, int = d :: digits ∧ d.isDigit = true) :
    numberSign (sign ++ (int ++ rest)) = (sign, int ++ rest) := by
  obtain ⟨d, digits, rfl, hd⟩ := hint
  rcases hsign with rfl | rfl
  · rw [List.nil_append, List.cons_append]
    unfold numberSign
    split
    · rename_i heq
      injection heq with hc _
      subst hc
      exact absurd hd (by decide)
    · rfl
  · rfl

theorem readNumber_int {sign int rest : List Char} (hsign : sign = [] ∨ sign = ['-'])
    (hint : integerPart int = some (int, [])) (hlimit : int.length ≤ digitLimit) (hrest : EndsNumber rest) :
    readNumber floats (sign ++ (int ++ rest)) = .ok (.int (signed sign (Nat.ofDigitChars 10 int 0)), rest) := by
  have hfraction := fractionPart_of_ne fun c hc => (hrest c hc).2.1
  have hexponent := exponentPart_of_ne fun c hc => (hrest c hc).2.2
  unfold readNumber
  simp only [numberSign_append hsign (integerPart_head hint), integerPart_append hint hrest.noDigit, hfraction, hexponent,
    and_self, if_true, if_pos hlimit]

theorem head_exponent {exponent rest : List Char} (h : exponent = [] ∨ IsExponent exponent) (hrest : EndsNumber rest) :
    ∀ c ∈ (exponent ++ rest).head?, ¬c.isDigit ∧ c ≠ '.' := by
  rcases h with rfl | ⟨e, sign, digits, rfl, he, _⟩
  · exact fun c hc => ⟨(hrest c hc).1, (hrest c hc).2.1⟩
  · intro c hc
    cases hc
    rcases he with rfl | rfl <;> decide

theorem readNumber_float {text rest : List Char} (h : IsFloatLiteral text) (hrest : EndsNumber rest) :
    readNumber floats (text ++ rest) = .ok (.float (floats.parse text), rest) := by
  obtain ⟨sign, int, fraction, exponent, rfl, hsign, hint, hfraction, hexponent, hne⟩ := h
  have hhead := head_exponent hexponent hrest
  have hfractionHead : NoDigit (fraction ++ (exponent ++ rest)) := by
    rcases hfraction with rfl | ⟨digits, rfl, _⟩
    · exact fun c hc => (hhead c hc).1
    · intro c hc
      cases hc
      decide
  have hreadFraction : fractionPart (fraction ++ (exponent ++ rest)) = (fraction, exponent ++ rest) := by
    rcases hfraction with rfl | hfraction
    · exact fractionPart_of_ne fun c hc => (hhead c hc).2
    · exact fractionPart_append hfraction fun c hc => (hhead c hc).1
  have hreadExponent : exponentPart (exponent ++ rest) = (exponent, rest) := by
    rcases hexponent with rfl | hexponent
    · exact exponentPart_of_ne fun c hc => (hrest c hc).2.2
    · exact exponentPart_append hexponent hrest.noDigit
  unfold readNumber
  simp only [List.append_assoc, numberSign_append hsign (integerPart_head hint), integerPart_append hint hfractionHead,
    hreadFraction, hreadExponent, if_neg hne]

theorem toDigits_head (h : n ≠ 0) : ∃ d digits, Nat.toDigits 10 n = d :: digits ∧ d ≠ '0' := by
  induction n using Nat.strong_induction_on with
  | _ n ih =>
    rw [Nat.toDigits_eq_if (by decide)]
    by_cases hlt : n < 10
    · have hall : ∀ k < 10, k ≠ 0 → Nat.digitChar k ≠ '0' := by decide
      exact ⟨Nat.digitChar n, [], if_pos hlt, hall n hlt h⟩
    · obtain ⟨d, digits, hdigits, hd⟩ := ih (n / 10) (by omega) (by omega)
      rw [if_neg hlt, hdigits]
      exact ⟨d, digits ++ [(n % 10).digitChar], rfl, hd⟩

theorem integerPart_toDigits (n : ℕ) : integerPart (Nat.toDigits 10 n) = some (Nat.toDigits 10 n, []) := by
  by_cases h : n = 0
  · rw [h]
    rfl
  · obtain ⟨d, digits, hdigits, hd⟩ := toDigits_head h
    have hall : ∀ c ∈ d :: digits, c.isDigit = true := by
      intro c hc
      rw [← hdigits] at hc
      exact Nat.isDigit_of_mem_toDigits (by decide) (by decide) hc
    have htail : ∀ c ∈ digits, c.isDigit = true := fun c hc => hall c (List.mem_cons_of_mem d hc)
    rw [hdigits]
    unfold integerPart
    split
    · rename_i heq
      injection heq with hc _
      exact (hd hc).elim
    · rename_i c text _ heq
      injection heq with hc htext
      subst hc htext
      rw [if_pos (hall d List.mem_cons_self), List.takeWhile_eq_self_iff.mpr htail, List.dropWhile_eq_nil_iff.mpr htail]
    · rename_i heq
      cases heq

theorem readNumber_writeInt {n : ℤ} (h : n.natAbs < 10 ^ digitLimit) (hrest : EndsNumber rest) :
    readNumber floats (writeInt n ++ rest) = .ok (.int n, rest) := by
  have hlength : (Nat.toDigits 10 n.natAbs).length ≤ digitLimit :=
    (Nat.length_toDigits_le_iff (by decide) (by decide)).mpr h
  have hsign : (if n < 0 then ['-'] else []) = [] ∨ (if n < 0 then ['-'] else []) = ['-'] := by
    split
    · exact .inr rfl
    · exact .inl rfl
  have hread := @readNumber_int F floats _ _ rest hsign (integerPart_toDigits n.natAbs) hlength hrest
  have hvalue : signed (if n < 0 then ['-'] else []) n.natAbs = n := by
    by_cases hneg : n < 0
    · rw [if_pos hneg, signed, if_neg (List.cons_ne_nil _ _)]
      omega
    · rw [if_neg hneg, signed, if_pos rfl]
      omega
  rw [Nat.ofDigitChars_ten_toDigits, hvalue] at hread
  rw [writeInt, List.append_assoc]
  exact hread

/-! ## Values -/

mutual

def Everywhere (p : Value F → Prop) : Value F → Prop
  | .list xs => p (.list xs) ∧ EverywhereItems p xs
  | .dict entries => p (.dict entries) ∧ EverywhereEntries p entries
  | value => p value

def EverywhereItems (p : Value F → Prop) : List (Value F) → Prop
  | [] => True
  | x :: xs => Everywhere p x ∧ EverywhereItems p xs

def EverywhereEntries (p : Value F → Prop) : List (List CodePoint × Value F) → Prop
  | [] => True
  | (_, value) :: entries => Everywhere p value ∧ EverywhereEntries p entries

end

mutual

def decideEverywhere (p : Value F → Prop) [DecidablePred p] : (value : Value F) → Decidable (Everywhere p value)
  | .null => inferInstanceAs (Decidable (p .null))
  | .bool b => inferInstanceAs (Decidable (p (.bool b)))
  | .int n => inferInstanceAs (Decidable (p (.int n)))
  | .float x => inferInstanceAs (Decidable (p (.float x)))
  | .str s => inferInstanceAs (Decidable (p (.str s)))
  | .list xs => @instDecidableAnd (p (.list xs)) _ inferInstance (decideEverywhereItems p xs)
  | .dict entries => @instDecidableAnd (p (.dict entries)) _ inferInstance (decideEverywhereEntries p entries)

def decideEverywhereItems (p : Value F → Prop) [DecidablePred p] : (xs : List (Value F)) → Decidable (EverywhereItems p xs)
  | [] => .isTrue trivial
  | x :: xs => @instDecidableAnd _ _ (decideEverywhere p x) (decideEverywhereItems p xs)

def decideEverywhereEntries (p : Value F → Prop) [DecidablePred p] :
    (entries : List (List CodePoint × Value F)) → Decidable (EverywhereEntries p entries)
  | [] => .isTrue trivial
  | (_, value) :: entries => @instDecidableAnd _ _ (decideEverywhere p value) (decideEverywhereEntries p entries)

end

instance (p : Value F → Prop) [DecidablePred p] (value : Value F) : Decidable (Everywhere p value) :=
  decideEverywhere p value

variable (floats) in
def Plain : Value F → Prop
  | .float x => floats.finite x
  | .dict entries => (entries.map Prod.fst).Nodup
  | _ => True

def Short : Value F → Prop
  | .int n => n.natAbs < 10 ^ digitLimit
  | _ => True

instance : DecidablePred (Short : Value F → Prop)
  | .int n => inferInstanceAs (Decidable (n.natAbs < 10 ^ digitLimit))
  | .null | .bool _ | .float _ | .str _ | .list _ | .dict _ => .isTrue trivial

def UnpairedHere : Value F → Prop
  | .str s => Unpaired s
  | .dict entries => ∀ e ∈ entries, Unpaired e.1
  | _ => True

variable (floats) in
def Restorable (value : Value F) : Prop := Plain floats value ∧ Short value ∧ UnpairedHere value

mutual

variable {p q : Value F → Prop}

theorem Everywhere.and : (value : Value F) → Everywhere p value → Everywhere q value →
    Everywhere (fun value => p value ∧ q value) value
  | .null, hp, hq | .bool _, hp, hq | .int _, hp, hq | .float _, hp, hq | .str _, hp, hq => ⟨hp, hq⟩
  | .list xs, hp, hq => ⟨⟨hp.1, hq.1⟩, EverywhereItems.and xs hp.2 hq.2⟩
  | .dict entries, hp, hq => ⟨⟨hp.1, hq.1⟩, EverywhereEntries.and entries hp.2 hq.2⟩

theorem EverywhereItems.and : (xs : List (Value F)) → EverywhereItems p xs →
    EverywhereItems q xs → EverywhereItems (fun value => p value ∧ q value) xs
  | [], _, _ => trivial
  | x :: xs, hp, hq => ⟨Everywhere.and x hp.1 hq.1, EverywhereItems.and xs hp.2 hq.2⟩

theorem EverywhereEntries.and : (entries : Entries F) → EverywhereEntries p entries →
    EverywhereEntries q entries → EverywhereEntries (fun value => p value ∧ q value) entries
  | [], _, _ => trivial
  | (_, value) :: entries, hp, hq => ⟨Everywhere.and value hp.1 hq.1, EverywhereEntries.and entries hp.2 hq.2⟩

end

def StartsNumber (text : List Char) : Prop := ∃ sign d rest, text = sign ++ d :: rest ∧ (sign = [] ∨ sign = ['-']) ∧
  d.isDigit = true

variable {text : List Char} {fuel : ℕ}

theorem readValue_number (h : StartsNumber text) : readValue floats (fuel + 1) text = readNumber floats text := by
  obtain ⟨sign, d, rest, rfl, hsign, hd⟩ := h
  have hdigit : ∀ c, c.isDigit = false → d ≠ c := by
    intro c hc heq
    rw [heq, hc] at hd
    cases hd
  unfold readValue
  rcases hsign with rfl | rfl
  · split
    case h_10 => rfl
    all_goals
      rename_i heq
      injection heq with hc _
      exact absurd hc (hdigit _ rfl)
  · split
    case h_10 => rfl
    case h_9 =>
      rename_i heq
      injection heq with _ hrest
      injection hrest with hc _
      exact absurd hc (hdigit _ rfl)
    all_goals
      rename_i heq
      injection heq with hc _
      exact absurd hc (by decide)

theorem startsNumber_writeInt (n : ℤ) (rest : List Char) : StartsNumber (writeInt n ++ rest) := by
  obtain ⟨d, digits, hdigits, hd⟩ := integerPart_head (integerPart_toDigits n.natAbs)
  refine ⟨if n < 0 then ['-'] else [], d, digits ++ rest, ?_, ?_, hd⟩
  · rw [writeInt, hdigits, List.append_assoc, List.cons_append]
  · split
    · exact .inr rfl
    · exact .inl rfl

theorem startsNumber_literal (h : IsFloatLiteral text) (rest : List Char) : StartsNumber (text ++ rest) := by
  obtain ⟨sign, int, fraction, exponent, rfl, hsign, hint, _⟩ := h
  obtain ⟨d, digits, rfl, hd⟩ := integerPart_head hint
  exact ⟨sign, d, digits ++ (fraction ++ exponent) ++ rest, by simp, hsign, hd⟩

theorem skipSpace_startsNumber (h : StartsNumber text) : skipSpace text = text := by
  obtain ⟨sign, d, rest, rfl, hsign, hd⟩ := h
  have hspace : ¬isSpace d = true := by
    intro hspace
    simp only [isSpace, Bool.or_eq_true, decide_eq_true_eq] at hspace
    rcases hspace with ((rfl | rfl) | rfl) | rfl <;> exact absurd hd (by decide)
  rcases hsign with rfl | rfl
  · rw [List.nil_append, skipSpace, List.dropWhile_cons, if_neg hspace]
  · rfl

variable {value : Value F}

theorem skipSpace_write (h : Plain floats value) (rest : List Char) :
    skipSpace (write floats value ++ rest) = write floats value ++ rest := by
  cases value with
  | int n => exact skipSpace_startsNumber (startsNumber_writeInt n rest)
  | float x => exact skipSpace_startsNumber (startsNumber_literal (floats.repr_literal x h) rest)
  | bool b => cases b <;> rfl
  | list xs => cases xs <;> rfl
  | dict entries =>
    cases entries with
    | nil => rfl
    | cons e entries => rfl
  | _ => rfl

theorem endsNumber_cons {c : Char} (hdigit : c.isDigit = false) (hdot : c ≠ '.') (he : c ≠ 'e') (hE : c ≠ 'E')
    (rest : List Char) : EndsNumber (c :: rest) := by
  intro c' hc'
  cases hc'
  exact ⟨by simp [hdigit], hdot, he, hE⟩

theorem endsNumber_writeItems (xs : List (Value F)) (rest : List Char) : EndsNumber (writeItems floats xs ++ rest) := by
  cases xs <;> exact endsNumber_cons (by decide) (by decide) (by decide) (by decide) _

theorem endsNumber_writeEntries (entries : Entries F) (rest : List Char) :
    EndsNumber (writeEntries floats entries ++ rest) := by
  cases entries <;> exact endsNumber_cons (by decide) (by decide) (by decide) (by decide) _

variable {key : List CodePoint}

theorem setEntry_of_notMem {entries : Entries F} (value : Value F)
    (h : key ∉ entries.map Prod.fst) : setEntry entries key value = entries ++ [(key, value)] := by
  induction entries with
  | nil => rfl
  | cons e entries ih =>
    rw [List.map_cons, List.mem_cons, not_or] at h
    rw [setEntry, if_neg (Ne.symm h.1), ih h.2, List.cons_append]

variable (floats) in
/-- What `readItems` does after an item. -/
def afterItem (fuel : ℕ) (xs : List (Value F)) (text : List Char) : Except ReadError (Value F × List Char) :=
  match skipSpace text with
  | ']' :: after => .ok (.list xs, after)
  | ',' :: rest => readItems floats fuel xs (skipSpace rest)
  | _ => .error .decode

theorem readItems_eq (fuel : ℕ) (xs : List (Value F)) (text : List Char) : readItems floats (fuel + 1) xs text =
      (readValue floats fuel text >>= fun r => afterItem floats fuel (xs ++ [r.1]) r.2) := rfl

variable (floats) in
/-- What `readEntries` does after an item. -/
def afterEntry (fuel : ℕ) (entries : Entries F) (text : List Char) : Except ReadError (Value F × List Char) :=
  match skipSpace text with
  | '\x7d' :: after => .ok (.dict entries, after)
  | ',' :: rest => readEntries floats fuel entries (skipSpace rest)
  | _ => .error .decode

theorem readEntries_eq (fuel : ℕ) (entries : Entries F) (hkey : Unpaired key) (text : List Char) :
    readEntries floats (fuel + 1) entries (writeString key ++ ':' :: text) =
      (readValue floats fuel (skipSpace text) >>= fun r => afterEntry floats fuel (setEntry entries key r.1) r.2) := by
  have hstring : writeString key ++ ':' :: text = '"' :: (key.flatMap writeChar ++ '"' :: (':' :: text)) := by
    simp [writeString]
  rw [hstring, readEntries, readString_write hkey]
  rfl

theorem startsNumber_ne (h : StartsNumber text) (after : List Char) : text ≠ ']' :: after := by
  obtain ⟨sign, d, rest, rfl, hsign, hd⟩ := h
  intro heq
  rcases hsign with rfl | rfl
  · injection heq with hc _
    subst hc
    exact absurd hd (by decide)
  · injection heq with hc _
    exact absurd hc (by decide)

theorem write_ne (h : Plain floats value) (rest after : List Char) : write floats value ++ rest ≠ ']' :: after := by
  cases value with
  | int n => exact startsNumber_ne (startsNumber_writeInt n rest) after
  | float x => exact startsNumber_ne (startsNumber_literal (floats.repr_literal x h) rest) after
  | bool b => cases b <;> exact fun heq => absurd (List.cons.inj heq).1 (by decide)
  | list xs => cases xs <;> exact fun heq => absurd (List.cons.inj heq).1 (by decide)
  | dict entries =>
    cases entries with
    | nil => exact fun heq => absurd (List.cons.inj heq).1 (by decide)
    | cons e entries => exact fun heq => absurd (List.cons.inj heq).1 (by decide)
  | _ => exact fun heq => absurd (List.cons.inj heq).1 (by decide)

theorem readValue_list {x : Value F} (h : Plain floats x) (rest : List Char) :
    readValue floats (fuel + 1) ('[' :: (write floats x ++ rest)) = readItems floats fuel [] (write floats x ++ rest) := by
  rw [readValue, skipSpace_write h]
  split
  · rename_i after heq
    exact (write_ne h rest after heq).elim
  · rfl

theorem readValue_dict (key : List CodePoint) (rest : List Char) :
    readValue floats (fuel + 1) ('\x7b' :: (writeString key ++ rest)) =
      readEntries floats fuel [] (writeString key ++ rest) := rfl

theorem Everywhere.here {p : Value F → Prop} (h : Everywhere p value) : p value := by
  cases value with
  | list xs => exact h.1
  | dict entries => exact h.1
  | _ => exact h

mutual

theorem readValue_write (value : Value F) (h : Everywhere (Restorable floats) value) {fuel : ℕ} {rest : List Char}
    (hfuel : 2 * (write floats value).length + 1 ≤ fuel) (hrest : EndsNumber rest) :
    readValue floats fuel (write floats value ++ rest) = .ok (value, rest) := by
  obtain ⟨fuel, rfl⟩ := Nat.exists_eq_add_of_lt (Nat.lt_of_lt_of_le (Nat.succ_pos _) hfuel)
  rw [Nat.zero_add] at hfuel ⊢
  match value with
  | .null => rfl
  | .bool true => rfl
  | .bool false => rfl
  | .int n =>
    rw [write, readValue_number (startsNumber_writeInt n rest), readNumber_writeInt h.2.1 hrest]
  | .float x =>
    have hliteral := floats.repr_literal x h.1
    rw [write, readValue_number (startsNumber_literal hliteral rest), readNumber_float hliteral hrest,
      floats.parse_repr x h.1]
  | .str s =>
    have hstring : write floats (.str s) ++ rest = '"' :: (s.flatMap writeChar ++ '"' :: rest) := by
      simp [write, writeString]
    rw [hstring, readValue, readString_write h.2.2]
    rfl
  | .list [] => rfl
  | .list (x :: xs) =>
    obtain ⟨_, hx, hxs⟩ := h
    have htext : write floats (.list (x :: xs)) ++ rest =
        '[' :: (write floats x ++ (writeItems floats xs ++ rest)) := by simp [write]
    have hlength : (write floats (.list (x :: xs))).length =
        1 + (write floats x).length + (writeItems floats xs).length := by simp [write]; omega
    obtain ⟨fuel, rfl⟩ : ∃ k, fuel = k + 1 := ⟨fuel - 1, by omega⟩
    rw [htext, readValue_list hx.here.1, readItems_eq,
      readValue_write x hx (by omega) (endsNumber_writeItems xs rest)]
    exact afterItem_write xs hxs (by omega)
  | .dict [] => rfl
  | .dict ((key, item) :: entries) =>
    obtain ⟨⟨hnodup, _, hunpaired⟩, hitem, hentries⟩ := h
    have htext : write floats (.dict ((key, item) :: entries)) ++ rest =
        '\x7b' :: (writeString key ++ ':' :: ' ' :: (write floats item ++ (writeEntries floats entries ++ rest))) := by
      simp [write]
    have hlength : (write floats (.dict ((key, item) :: entries))).length =
        3 + (writeString key).length + (write floats item).length + (writeEntries floats entries).length := by
      simp [write]
      omega
    obtain ⟨fuel, rfl⟩ : ∃ k, fuel = k + 1 := ⟨fuel - 1, by omega⟩
    have hspace : skipSpace (' ' :: (write floats item ++ (writeEntries floats entries ++ rest))) =
        write floats item ++ (writeEntries floats entries ++ rest) := skipSpace_write hitem.here.1 _
    rw [htext, readValue_dict, readEntries_eq fuel [] (hunpaired _ List.mem_cons_self), hspace,
      readValue_write item hitem (by omega) (endsNumber_writeEntries entries rest)]
    exact afterEntry_write entries hentries (fun e he => hunpaired e (List.mem_cons_of_mem _ he)) hnodup (by omega)

theorem afterItem_write (ys : List (Value F)) (h : EverywhereItems (Restorable floats) ys) {fuel : ℕ}
    {xs : List (Value F)} {rest : List Char} (hfuel : 2 * (writeItems floats ys).length ≤ fuel) :
    afterItem floats fuel xs (writeItems floats ys ++ rest) = .ok (.list (xs ++ ys), rest) := by
  match ys with
  | [] =>
    rw [List.append_nil]
    rfl
  | y :: ys =>
    obtain ⟨hy, hys⟩ := h
    have hlength : (writeItems floats (y :: ys)).length =
        2 + (write floats y).length + (writeItems floats ys).length := by simp [writeItems]; omega
    have htext : afterItem floats fuel xs (writeItems floats (y :: ys) ++ rest) =
        readItems floats fuel xs (skipSpace (write floats y ++ (writeItems floats ys ++ rest))) := by
      rw [← List.append_assoc]
      rfl
    obtain ⟨fuel, rfl⟩ : ∃ k, fuel = k + 1 := ⟨fuel - 1, by omega⟩
    rw [htext, skipSpace_write hy.here.1, readItems_eq,
      readValue_write y hy (by omega) (endsNumber_writeItems ys rest)]
    have hafter := @afterItem_write ys hys fuel (xs ++ [y]) rest (by omega)
    rw [List.append_assoc] at hafter
    exact hafter

theorem afterEntry_write (more : Entries F) (h : EverywhereEntries (Restorable floats) more)
    (hkeys : ∀ e ∈ more, Unpaired e.1) {fuel : ℕ} {entries : Entries F} {rest : List Char}
    (hnodup : ((entries ++ more).map Prod.fst).Nodup) (hfuel : 2 * (writeEntries floats more).length ≤ fuel) :
    afterEntry floats fuel entries (writeEntries floats more ++ rest) = .ok (.dict (entries ++ more), rest) := by
  match more with
  | [] =>
    rw [List.append_nil]
    rfl
  | (key, item) :: more =>
    obtain ⟨hitem, hmore⟩ := h
    have hfresh : key ∉ entries.map Prod.fst := by
      rw [List.map_append, List.map_cons] at hnodup
      intro hmem
      exact (List.nodup_append.mp hnodup).2.2 key hmem key List.mem_cons_self rfl
    have hlength : (writeEntries floats ((key, item) :: more)).length =
        4 + (writeString key).length + (write floats item).length + (writeEntries floats more).length := by
      simp [writeEntries]
      omega
    have htext : afterEntry floats fuel entries (writeEntries floats ((key, item) :: more) ++ rest) =
        readEntries floats fuel entries
          (writeString key ++ ':' :: ' ' :: (write floats item ++ (writeEntries floats more ++ rest))) := by
      have hwrite : writeEntries floats ((key, item) :: more) ++ rest = ',' :: ' ' ::
          (writeString key ++ ':' :: ' ' :: (write floats item ++ (writeEntries floats more ++ rest))) := by
        simp [writeEntries]
      rw [hwrite]
      rfl
    have hspace : skipSpace (' ' :: (write floats item ++ (writeEntries floats more ++ rest))) =
        write floats item ++ (writeEntries floats more ++ rest) := skipSpace_write hitem.here.1 _
    obtain ⟨fuel, rfl⟩ : ∃ k, fuel = k + 1 := ⟨fuel - 1, by omega⟩
    rw [htext, readEntries_eq fuel entries (hkeys _ List.mem_cons_self), hspace,
      readValue_write item hitem (by omega) (endsNumber_writeEntries more rest)]
    have hnodup' : (((entries ++ [(key, item)]) ++ more).map Prod.fst).Nodup := by
      rw [List.append_assoc]
      exact hnodup
    have hafter := @afterEntry_write more hmore (fun e he => hkeys e (List.mem_cons_of_mem _ he)) fuel
      (entries ++ [(key, item)]) rest hnodup' (by omega)
    rw [List.append_assoc] at hafter
    rw [← setEntry_of_notMem item hfresh] at hafter
    exact hafter

end

theorem loads_write (h : Everywhere (Restorable floats) value) : loads floats (write floats value) = .ok value := by
  have hspace := skipSpace_write h.here.1 []
  have hread := @readValue_write F floats value h _ [] (Nat.le_refl _) (fun c hc => nomatch hc)
  rw [List.append_nil] at hspace hread
  rw [loads, hspace, hread]
  rfl

end JsonText

end AllTomorrow
