import AllTomorrow.JsonRoundTrip

/-!
# Characters of JSON texts

A character that is no part of the syntax is counted in a text, once for every place where a
string would have it, whether it stands there itself or as an escape. A value has it no
more often than the text that it is read from, and exactly as often as the text that is
written of it, however that text is cut at such characters.
-/

namespace AllTomorrow

namespace JsonText

variable {F : Type} {floats : Floats F}

/-! ## Escapes in a text -/

/-- Where a text stands: outside of escapes, after a backslash, or after the first digits of an escape. -/
inductive Lex where
  | plain
  | escape
  | hex (digits : List Char)

def Lex.next : Lex → Char → Lex
  | .plain, c => if c = '\\' then .escape else .plain
  | .escape, c => if c = 'u' then .hex [] else .plain
  | .hex digits, c => if digits.length = 3 then .plain else .hex (digits ++ [c])

def Lex.mark (m : Char) : Lex → Char → ℕ
  | .plain, c => if c = m then 1 else 0
  | .escape, _ => 0
  | .hex digits, c => if digits.length = 3 ∧ readHex4 (digits ++ [c]) = some m.toNat then 1 else 0

def shortEscapes : List Char := ['"', '\\', '/', 'b', 'f', 'n', 'r', 't', 'u']

def Lex.Allows : Lex → Char → Prop
  | .plain, _ => True
  | .escape, c => c ∈ shortEscapes
  | .hex _, c => (hexValue c).isSome = true

def Lex.after (lex : Lex) (text : List Char) : Lex := text.foldl Lex.next lex

def Lex.marks (m : Char) : Lex → List Char → ℕ
  | _, [] => 0
  | lex, c :: text => lex.mark m c + (lex.next c).marks m text

def Lex.Lexes : Lex → List Char → Prop
  | _, [] => True
  | lex, c :: text => lex.Allows c ∧ (lex.next c).Lexes text

theorem Lex.marks_append (m : Char) (lex : Lex) (text rest : List Char) :
    lex.marks m (text ++ rest) = lex.marks m text + (lex.after text).marks m rest := by
  induction text generalizing lex with
  | nil => exact (Nat.zero_add _).symm
  | cons c text ih =>
    rw [List.cons_append, Lex.marks, Lex.marks, ih, Nat.add_assoc]
    rfl

theorem Lex.after_append (lex : Lex) (text rest : List Char) :
    lex.after (text ++ rest) = (lex.after text).after rest := List.foldl_append

theorem Lex.lexes_append {lex : Lex} {text rest : List Char} :
    lex.Lexes (text ++ rest) ↔ lex.Lexes text ∧ (lex.after text).Lexes rest := by
  induction text generalizing lex with
  | nil => exact ⟨fun h => ⟨trivial, h⟩, And.right⟩
  | cons c text ih =>
    rw [List.cons_append, Lex.Lexes, Lex.Lexes, ih, and_assoc]
    rfl

def Cuts (c : Char) : Prop := c ∉ shortEscapes ∧ hexValue c = none

theorem Lex.after_of_cuts {text rest : List Char} {c : Char} (h : Lex.plain.Lexes (text ++ c :: rest)) (hc : Cuts c) :
    Lex.plain.after text = .plain := by
  obtain ⟨_, hallows, _⟩ := Lex.lexes_append.mp h
  cases hafter : Lex.plain.after text with
  | plain => rfl
  | escape =>
    rw [hafter] at hallows
    exact (hc.1 hallows).elim
  | hex digits =>
    rw [hafter] at hallows
    have hsome : (hexValue c).isSome = true := hallows
    rw [hc.2] at hsome
    cases hsome

/-- A character that is written as itself and has no part in the syntax. -/
structure IsMark (m : Char) : Prop where
  printable : 32 ≤ m.toNat ∧ m.toNat ≤ 126
  cuts : Cuts m
  number : ¬InNumber m
  syntactic : m ∉ ['[', ']', '\x7b', '\x7d', ',', ':', ' ', 'n', 'u', 'l', 't', 'r', 'e', 'f', 'a', 's']

structure Neat (m : Char) (text : List Char) (n : ℕ) : Prop where
  marks : Lex.plain.marks m text = n
  after : Lex.plain.after text = .plain
  lexes : Lex.plain.Lexes text

variable {m : Char}

theorem Neat.append {text text' : List Char} {n n' : ℕ} (h : Neat m text n) (h' : Neat m text' n') :
    Neat m (text ++ text') (n + n') where
  marks := by rw [Lex.marks_append, h.marks, h.after, h'.marks]
  after := by rw [Lex.after_append, h.after, h'.after]
  lexes := Lex.lexes_append.mpr ⟨h.lexes, by rw [h.after]; exact h'.lexes⟩

theorem neat_nil (m : Char) : Neat m [] 0 := ⟨rfl, rfl, trivial⟩

theorem neat_char {m c : Char} (hc : c ≠ '\\') : Neat m [c] (if c = m then 1 else 0) where
  marks := Nat.add_zero _
  after := if_neg hc
  lexes := ⟨trivial, trivial⟩

theorem neat_other {m c : Char} (hc : c ≠ '\\') (hm : c ≠ m) : Neat m [c] 0 := by
  have h := neat_char (m := m) hc
  rw [if_neg hm] at h
  exact h

variable {text : List Char}

theorem neat_of_forall (h : ∀ c ∈ text, c ≠ '\\' ∧ c ≠ m) : Neat m text 0 := by
  induction text with
  | nil => exact neat_nil m
  | cons c text ih =>
    obtain ⟨hc, hm⟩ := h c List.mem_cons_self
    exact (neat_other hc hm).append (ih fun c' hc' => h c' (List.mem_cons_of_mem c hc'))

theorem marks_le_append (h : ∀ c ∈ text, c ≠ '\\') (rest : List Char) :
    Lex.plain.marks m rest ≤ Lex.plain.marks m (text ++ rest) := by
  induction text with
  | nil => exact Nat.le_refl _
  | cons c text ih =>
    have hnext : Lex.plain.next c = .plain := if_neg (h c List.mem_cons_self)
    rw [List.cons_append, Lex.marks, hnext]
    exact (ih fun c' hc' => h c' (List.mem_cons_of_mem c hc')).trans (Nat.le_add_left _ _)

/-! ## Written texts -/

def countString (m : Char) (s : List CodePoint) : ℕ := s.countP fun c => c.val = m.toNat

mutual

def count (m : Char) : Value F → ℕ
  | .str s => countString m s
  | .list xs => countItems m xs
  | .dict entries => countEntries m entries
  | _ => 0

def countItems (m : Char) : List (Value F) → ℕ
  | [] => 0
  | x :: xs => count m x + countItems m xs

def countEntries (m : Char) : List (List CodePoint × Value F) → ℕ
  | [] => 0
  | (key, value) :: entries => countString m key + count m value + countEntries m entries

end

theorem IsMark.ne_of_mem {m c : Char} (h : IsMark m) (hc : c ∈ shortEscapes) : c ≠ m := by
  rintro rfl
  exact h.cuts.1 hc

theorem IsMark.ne_backslash (h : IsMark m) : '\\' ≠ m := h.ne_of_mem (by decide)

theorem IsMark.eq_of_toNat {m c : Char} (_ : IsMark m) (h : m.toNat = c.toNat) : m = c := by
  rw [← Char.ofNat_toNat m, h, Char.ofNat_toNat]

variable {n : ℕ}

theorem neat_unit (hm : IsMark m) (hn : n < 65536) (hne : n ≠ m.toNat) : Neat m (escapeUnit n) 0 := by
  have hbackslash := hm.ne_backslash
  have hread := readHex4_hex4 hn []
  rw [List.append_nil] at hread
  have hhex : ∀ k, (hexValue (hexDigit (k % 16))).isSome = true := fun k => by
    rw [hexValue_hexDigit (Nat.mod_lt k (by decide))]
    rfl
  have hnot : ¬readHex4 (hex4 n) = some m.toNat := by
    rw [hread, Option.some.injEq]
    exact hne
  refine ⟨?_, ?_, ?_⟩
  · simp only [hex4] at hnot
    simp [escapeUnit, hex4, Lex.marks, Lex.mark, Lex.next, hbackslash, hnot]
  · simp [escapeUnit, hex4, Lex.after, Lex.next]
  · simp [escapeUnit, hex4, Lex.Lexes, Lex.Allows, Lex.next, shortEscapes, hhex]

theorem neat_writeChar (hm : IsMark m) (c : CodePoint) :
    Neat m (writeChar c) (if c.val = m.toNat then 1 else 0) := by
  have hprintable := hm.printable
  have hwritten := written c
  generalize writeChar c = text at hwritten ⊢
  cases hwritten with
  | @short e _ hletter hother =>
    have hne : c.val ≠ m.toNat := by
      rintro heq
      rcases hother with h | h | h
      · omega
      · exact hm.ne_of_mem (c := '"') (by decide) (hm.eq_of_toNat (by rw [← heq, h]; rfl)).symm
      · exact hm.ne_backslash (hm.eq_of_toNat (by rw [← heq, h]; rfl)).symm
    have hu : e ≠ 'u' := by
      rintro rfl
      exact absurd hletter (by decide)
    have hescape : e ∈ shortEscapes := by
      have hall : ∀ d ∈ ['"', '\\', 'n', 'r', 't', 'f', 'b'], d ∈ shortEscapes := by simp [shortEscapes]
      exact hall e hletter
    rw [if_neg hne]
    refine ⟨?_, ?_, ?_⟩
    · simp [Lex.marks, Lex.mark, Lex.next, hm.ne_backslash]
    · simp [Lex.after, Lex.next, hu]
    · simp [Lex.Lexes, Lex.Allows, Lex.next, hescape]
  | plain hlow hhigh hquote hbackslash =>
    have hnat := toNat_ofNat hhigh
    have hnot : Char.ofNat c.val ≠ '\\' := by
      intro heq
      rw [heq] at hnat
      exact hbackslash hnat.symm
    have hiff : Char.ofNat c.val = m ↔ c.val = m.toNat := by
      constructor
      · rintro rfl
        exact hnat.symm
      · intro heq
        rw [heq]
        exact Char.ofNat_toNat m
    have h := neat_char (m := m) hnot
    simp only [hiff] at h
    exact h
  | unit h hother =>
    have hne : c.val ≠ m.toNat := by omega
    rw [if_neg hne]
    exact neat_unit hm h hne
  | pair h =>
    have hne : c.val ≠ m.toNat := by omega
    have hc := c.isLt
    rw [if_neg hne]
    exact (neat_unit hm (by unfold highUnit; omega) (by unfold highUnit; omega)).append
      (neat_unit hm (by unfold lowUnit; omega) (by unfold lowUnit; omega))

theorem neat_writeString (hm : IsMark m) (s : List CodePoint) : Neat m (writeString s) (countString m s) := by
  have hquote : Neat m ['"'] 0 := neat_other (by decide) (hm.ne_of_mem (by decide))
  have hbody : Neat m (s.flatMap writeChar) (countString m s) := by
    induction s with
    | nil => exact neat_nil m
    | cons c s ih =>
      have happend := (neat_writeChar hm c).append ih
      rw [countString] at happend
      rw [List.flatMap_cons, countString, List.countP_cons, Nat.add_comm]
      simpa using happend
  have h := (hquote.append hbody).append hquote
  rw [Nat.zero_add, Nat.add_zero] at h
  exact h

theorem neat_inNumber (hm : IsMark m) (h : ∀ c ∈ text, InNumber c) : Neat m text 0 := by
  refine neat_of_forall fun c hc => ⟨?_, ?_⟩
  · rintro rfl
    exact absurd (h _ hc) (by unfold InNumber; decide)
  · rintro rfl
    exact hm.number (h _ hc)

theorem inNumber_writeInt {n : ℤ} {c : Char} (h : c ∈ writeInt n) : InNumber c := by
  rw [writeInt, List.mem_append] at h
  rcases h with h | h
  · split at h
    · exact .inr (.inl (List.mem_singleton.mp h))
    · cases h
  · exact .inl (Nat.isDigit_of_mem_toDigits (by decide) (by decide) h)

theorem inNumber_literal (h : IsFloatLiteral text) {c : Char} (hc : c ∈ text) : InNumber c := by
  obtain ⟨sign, int, fraction, exponent, rfl, hsign, hint, hfraction, hexponent, _⟩ := h
  simp only [List.mem_append] at hc
  rcases hc with hc | hc | hc | hc
  · rcases hsign with rfl | rfl
    · cases hc
    · exact .inr (.inl (List.mem_singleton.mp hc))
  · exact (integerPart_eq hint).2.2 c hc
  · rcases hfraction with rfl | ⟨digits, rfl, _, hdigits⟩
    · cases hc
    · rcases List.mem_cons.mp hc with rfl | hc
      · exact .inr (.inr (.inr (.inl rfl)))
      · exact .inl (hdigits c hc)
  · rcases hexponent with rfl | ⟨e, sign', digits, rfl, he, hsign', _, hdigits⟩
    · cases hc
    · rcases List.mem_cons.mp hc with rfl | hc
      · exact he.elim (fun h => .inr (.inr (.inr (.inr (.inl h))))) fun h => .inr (.inr (.inr (.inr (.inr h))))
      · rcases List.mem_append.mp hc with hc | hc
        · rcases hsign' with rfl | rfl | rfl
          · cases hc
          · exact .inr (.inr (.inl (List.mem_singleton.mp hc)))
          · exact .inr (.inl (List.mem_singleton.mp hc))
        · exact .inl (hdigits c hc)

theorem neat_syntax (hm : IsMark m) (text : List Char)
    (h : ∀ c ∈ text, c ∈ ['[', ']', '\x7b', '\x7d', ',', ':', ' ', 'n', 'u', 'l', 't', 'r', 'e', 'f', 'a', 's']) :
    Neat m text 0 := by
  have hall : ∀ c ∈ ['[', ']', '\x7b', '\x7d', ',', ':', ' ', 'n', 'u', 'l', 't', 'r', 'e', 'f', 'a', 's'],
    c ≠ '\\' := by simp
  refine neat_of_forall fun c hc => ⟨hall c (h c hc), ?_⟩
  rintro rfl
  exact hm.syntactic (h _ hc)

mutual

/-- What is written of a value has the mark as often as the value. -/
theorem neat_write (hm : IsMark m) (value : Value F) (h : Everywhere (Plain floats) value) :
    Neat m (write floats value) (count m value) := by
  match value with
  | .null => exact neat_syntax hm ['n', 'u', 'l', 'l'] (by simp)
  | .bool true => exact neat_syntax hm ['t', 'r', 'u', 'e'] (by simp)
  | .bool false => exact neat_syntax hm ['f', 'a', 'l', 's', 'e'] (by simp)
  | .int n => exact neat_inNumber hm fun c hc => inNumber_writeInt hc
  | .float x => exact neat_inNumber hm fun c hc => inNumber_literal (floats.repr_literal x h) hc
  | .str s => exact neat_writeString hm s
  | .list [] => exact neat_syntax hm ['[', ']'] (by simp)
  | .list (x :: xs) =>
    obtain ⟨_, hx, hxs⟩ := h
    have hopen := neat_syntax hm ['['] (by simp)
    have hneat := (hopen.append (neat_write hm x hx)).append (neat_writeItems hm xs hxs)
    rw [Nat.zero_add] at hneat
    exact hneat
  | .dict [] => exact neat_syntax hm ['\x7b', '\x7d'] (by simp)
  | .dict ((key, item) :: entries) =>
    obtain ⟨_, hitem, hentries⟩ := h
    have hopen := neat_syntax hm ['\x7b'] (by simp)
    have hcolon := neat_syntax hm [':', ' '] (by simp)
    have hneat := ((hopen.append (neat_writeString hm key)).append (hcolon.append (neat_write hm item hitem))).append
      (neat_writeEntries hm entries hentries)
    rw [Nat.zero_add, Nat.zero_add] at hneat
    exact hneat

theorem neat_writeItems (hm : IsMark m) (xs : List (Value F)) (h : EverywhereItems (Plain floats) xs) :
    Neat m (writeItems floats xs) (countItems m xs) := by
  match xs with
  | [] => exact neat_syntax hm [']'] (by simp)
  | x :: xs =>
    obtain ⟨hx, hxs⟩ := h
    have hcomma := neat_syntax hm [',', ' '] (by simp)
    have hneat := (hcomma.append (neat_write hm x hx)).append (neat_writeItems hm xs hxs)
    rw [Nat.zero_add] at hneat
    exact hneat

theorem neat_writeEntries (hm : IsMark m) (entries : Entries F) (h : EverywhereEntries (Plain floats) entries) :
    Neat m (writeEntries floats entries) (countEntries m entries) := by
  match entries with
  | [] => exact neat_syntax hm ['\x7d'] (by simp)
  | (key, item) :: entries =>
    obtain ⟨hitem, hentries⟩ := h
    have hcomma := neat_syntax hm [',', ' '] (by simp)
    have hcolon := neat_syntax hm [':', ' '] (by simp)
    have hneat := ((hcomma.append (neat_writeString hm key)).append (hcolon.append (neat_write hm item hitem))).append
      (neat_writeEntries hm entries hentries)
    rw [Nat.zero_add, Nat.zero_add] at hneat
    exact hneat

end

/-! ## Read texts -/

theorem readString_drop (n : ℕ) (text : List Char) : readString n text = readString 0 (text.drop n) := by
  induction text generalizing n with
  | nil => cases n <;> rfl
  | cons c text ih =>
    cases n with
    | zero => rfl
    | succ n => exact ih n

theorem toNat_le_of_le {c d : Char} (h : c ≤ d) : c.toNat ≤ d.toNat := UInt32.le_iff_toNat_le.mp (Char.le_def.mp h)

theorem hexValue_lt {c : Char} (h : hexValue c = some n) : n < 16 := by
  unfold hexValue at h
  split at h
  · rename_i hdigit
    have hle : c.toNat ≤ 57 := (Char.isDigit_iff_toNat.mp hdigit).2
    cases h
    omega
  · split at h
    · rename_i hlower
      have hle : c.toNat ≤ 102 := toNat_le_of_le hlower.2
      cases h
      omega
    · split at h
      · rename_i hupper
        have hle : c.toNat ≤ 70 := toNat_le_of_le hupper.2
        cases h
        omega
      · cases h

theorem readHex4_ok (h : readHex4 text = some n) :
    n < 65536 ∧ ∃ a b c d rest, text = a :: b :: c :: d :: rest ∧ readHex4 [a, b, c, d] = some n ∧
      ∀ e ∈ [a, b, c, d], (hexValue e).isSome = true := by
  unfold readHex4 at h
  split at h
  · rename_i a b c d rest
    simp only [Option.bind_eq_bind, Option.bind_eq_some_iff] at h
    obtain ⟨a', ha, b', hb, c', hc, d', hd, hn⟩ := h
    have ha' := hexValue_lt ha
    have hb' := hexValue_lt hb
    have hc' := hexValue_lt hc
    have hd' := hexValue_lt hd
    cases hn
    refine ⟨by omega, a, b, c, d, rest, rfl, ?_, ?_⟩
    · simp [readHex4, ha, hb, hc, hd]
    · simp [ha, hb, hc, hd]
  · cases h

inductive Escapes (c : CodePoint) (n : ℕ) (rest : List Char) : Prop where
  | short {e : Char} {text : List Char} (htext : rest = e :: text) (hn : n = 1) (he : e ∈ shortEscapes) (hu : e ≠ 'u')
      (hc : c.val ∈ [34, 92, 47, 8, 12, 10, 13, 9])
  | unit {text : List Char} (htext : rest = 'u' :: text) (hn : n = 5) (hread : readHex4 text = some c.val)
      (hnext : isHigh c.val → ∀ text' k, text.drop 4 = '\\' :: 'u' :: text' → readHex4 text' = some k → ¬isLow k)
  | pair {text text' : List Char} {high low : ℕ} (htext : rest = 'u' :: text) (hn : n = 11)
      (hread : readHex4 text = some high) (hnext : text.drop 4 = '\\' :: 'u' :: text')
      (hread' : readHex4 text' = some low) (hc : 65536 ≤ c.val)

theorem val_ofNat (h : n < 1114112) : (Fin.ofNat 1114112 n).val = n := Nat.mod_eq_of_lt h

variable {c : CodePoint}

theorem escapes_of_unit (h : readEscape ('u' :: text) = .ok (c, n)) : Escapes c n ('u' :: text) := by
  simp only [readEscape] at h
  split at h
  · cases h
  · rename_i unit hunit
    have hlt := (readHex4_ok hunit).1
    have hval : (Fin.ofNat 1114112 unit).val = unit := val_ofNat (by omega)
    split at h
    · rename_i hhigh
      split at h
      · rename_i text' hnext
        split at h
        · cases h
        · rename_i low hlow
          have hlow' := (readHex4_ok hlow).1
          split at h
          · rename_i hislow
            unfold isHigh at hhigh
            unfold isLow at hislow
            rw [Except.ok.injEq, Prod.mk.injEq] at h
            obtain ⟨rfl, rfl⟩ := h
            refine .pair rfl rfl hunit hnext hlow ?_
            rw [val_ofNat (by omega)]
            omega
          · rename_i hislow
            cases h
            refine .unit rfl rfl (by rw [hval]; exact hunit) fun _ text'' k hnext' hk => ?_
            rw [hnext] at hnext'
            cases hnext'
            rw [hlow] at hk
            cases hk
            exact hislow
      · rename_i hnext
        cases h
        exact .unit rfl rfl (by rw [hval]; exact hunit) fun _ text' _ hnext' => (hnext text' hnext').elim
    · rename_i hhigh
      cases h
      refine .unit rfl rfl (by rw [hval]; exact hunit) fun hhigh' => ?_
      rw [hval] at hhigh'
      exact (hhigh hhigh').elim

variable {rest : List Char}

theorem escapes_of_readEscape (h : readEscape rest = .ok (c, n)) : Escapes c n rest := by
  unfold readEscape at h
  split at h
  case h_9 => exact escapes_of_unit (by simpa only [readEscape] using h)
  case h_10 => cases h
  all_goals
    cases h
    refine .short rfl rfl ?_ ?_ ?_
    · decide
    · decide
    · decide +kernel

/-! ### Marks -/

theorem marks_hex (m a b c d : Char) (rest : List Char) :
    Lex.escape.marks m ('u' :: a :: b :: c :: d :: rest) =
      (if readHex4 [a, b, c, d] = some m.toNat then 1 else 0) + Lex.plain.marks m rest := by
  simp [Lex.marks, Lex.mark, Lex.next]

/-- An escape for the mark is counted before what follows it. -/
theorem marks_escape (hm : IsMark m)
    (h : readEscape rest = .ok (c, n)) :
    (if c.val = m.toNat then 1 else 0) + Lex.plain.marks m (rest.drop n) ≤ Lex.escape.marks m rest := by
  have hprintable := hm.printable
  cases escapes_of_readEscape h with
  | @short e text htext hn he hu hc =>
    subst htext hn
    have hne : c.val ≠ m.toNat := by
      intro heq
      rw [heq] at hc
      have hother : m.toNat = '"'.toNat ∨ m.toNat = '\\'.toNat ∨ m.toNat = '/'.toNat := by
        simp only [List.mem_cons, List.not_mem_nil, or_false] at hc
        rcases hc with hc | hc | hc | hc | hc | hc | hc | hc
        · exact .inl hc
        · exact .inr (.inl hc)
        · exact .inr (.inr hc)
        all_goals omega
      rcases hother with hother | hother | hother
      · exact hm.ne_of_mem (by decide) (hm.eq_of_toNat hother).symm
      · exact hm.ne_of_mem (by decide) (hm.eq_of_toNat hother).symm
      · exact hm.ne_of_mem (by decide) (hm.eq_of_toNat hother).symm
    rw [if_neg hne, List.drop_one, List.tail_cons, Lex.marks, Lex.next, if_neg hu]
    exact Nat.le_refl _
  | @unit text htext hn hread hnext =>
    subst htext hn
    obtain ⟨_, a, b, c', d, rest', rfl, hhex, _⟩ := readHex4_ok hread
    simp only [marks_hex, hhex, Option.some.injEq]
    exact Nat.le_refl _
  | @pair text text' high low htext hn hread hnext hread' hc =>
    subst htext hn
    obtain ⟨_, a, b, c', d, rest', rfl, hhex, _⟩ := readHex4_ok hread
    obtain ⟨_, a', b', c'', d', rest'', rfl, hhex', _⟩ := readHex4_ok hread'
    have hne : c.val ≠ m.toNat := by omega
    have hrest : rest' = '\\' :: 'u' :: a' :: b' :: c'' :: d' :: rest'' := hnext
    subst hrest
    rw [marks_hex, if_neg hne, Lex.marks, Lex.next, if_pos rfl, marks_hex]
    change 0 + Lex.plain.marks m rest'' ≤ _
    omega

theorem toNat_lt (c : Char) : c.toNat < 1114112 := by
  rcases c.valid with h | h
  · exact Nat.lt_trans h (by decide)
  · exact h.2

variable {s : List CodePoint}

/-- A string has the mark no more often than its text. -/
theorem marks_readString (hm : IsMark m) {text after : List Char} (h : readString n text = .ok (s, after)) :
    countString m s + Lex.plain.marks m after ≤ Lex.plain.marks m (text.drop n) := by
  rw [readString_drop] at h
  generalize text.drop n = text at h ⊢
  induction hlength : text.length using Nat.strong_induction_on generalizing text s with
  | _ length ih =>
    cases text with
    | nil => cases h
    | cons c rest =>
      subst hlength
      rw [readString] at h
      split at h
      · cases h
        rename_i hquote
        subst hquote
        rw [countString, List.countP_nil, Nat.zero_add]
        exact @marks_le_append m ['"'] (by simp) after
      · split at h
        · rename_i hbackslash
          subst hbackslash
          obtain ⟨⟨codePoint, n⟩, hescape, h⟩ := bind_eq_ok.mp h
          obtain ⟨⟨s', after'⟩, hrest, h⟩ := bind_eq_ok.mp h
          cases h
          rw [readString_drop] at hrest
          have hlt : (rest.drop n).length < ('\\' :: rest).length := by
            rw [List.length_drop, List.length_cons]
            omega
          have hcount := ih _ hlt _ hrest rfl
          have hmark := marks_escape hm hescape
          rw [Lex.marks, Lex.next, if_pos rfl, countString, List.countP_cons]
          rw [countString] at hcount
          simp only [decide_eq_true_eq]
          omega
        · split at h
          · cases h
          · rename_i hbackslash _
            obtain ⟨⟨s', after'⟩, hrest, h⟩ := bind_eq_ok.mp h
            cases h
            have hcount := ih rest.length (Nat.lt_succ_self _) _ hrest rfl
            have hval : (Fin.ofNat 1114112 c.toNat).val = c.toNat := val_ofNat (toNat_lt c)
            have hiff : c.toNat = m.toNat ↔ c = m := by
              constructor
              · exact fun heq => (hm.eq_of_toNat heq.symm).symm
              · rintro rfl
                rfl
            rw [Lex.marks, Lex.next, if_neg hbackslash, countString, List.countP_cons, hval]
            rw [countString] at hcount
            simp only [decide_eq_true_eq, hiff, Lex.mark]
            omega

def Mode.count (m : Char) : Mode F → ℕ
  | .value => 0
  | .items xs => countItems m xs
  | .entries es => countEntries m es

theorem countItems_append (m : Char) (xs ys : List (Value F)) :
    countItems m (xs ++ ys) = countItems m xs + countItems m ys := by
  induction xs with
  | nil => exact (Nat.zero_add _).symm
  | cons x xs ih => rw [List.cons_append, countItems, countItems, ih, Nat.add_assoc]

theorem countEntries_setEntry (m : Char) (entries : Entries F) (key : List CodePoint) (value : Value F) :
    countEntries m (setEntry entries key value) ≤ countEntries m entries + (countString m key + JsonText.count m value) := by
  induction entries with
  | nil => simp [setEntry, countEntries]
  | cons e entries ih =>
    obtain ⟨key', value'⟩ := e
    rw [setEntry]
    split
    · rw [countEntries, countEntries]
      omega
    · rw [countEntries, countEntries]
      omega

theorem marks_skipSpace (m : Char) (text : List Char) : Lex.plain.marks m (skipSpace text) ≤ Lex.plain.marks m text := by
  have hsplit := List.takeWhile_append_dropWhile (p := isSpace) (l := text)
  have hspace : ∀ c ∈ text.takeWhile isSpace, c ≠ '\\' := by
    rintro c hc rfl
    exact absurd (List.mem_takeWhile_imp hc) (by decide)
  have hle := marks_le_append (m := m) hspace (text.dropWhile isSpace)
  rw [hsplit] at hle
  exact hle

theorem marks_cons {c : Char} (hc : c ≠ '\\') (m : Char) (rest : List Char) :
    Lex.plain.marks m rest ≤ Lex.plain.marks m (c :: rest) :=
  @marks_le_append m [c] (fun d hd => by rw [List.mem_singleton.mp hd]; exact hc) rest

variable {value : Value F}

theorem word_eq {word : List Char} (h : (word, value) ∈ words floats) (m : Char) :
    (∀ c ∈ word, c ≠ '\\') ∧ count m value = 0 := by
  simp only [words, List.mem_cons, Prod.mk.injEq, List.not_mem_nil, or_false] at h
  rcases h with ⟨rfl, rfl⟩ | ⟨rfl, rfl⟩ | ⟨rfl, rfl⟩ | ⟨rfl, rfl⟩ | ⟨rfl, rfl⟩ | ⟨rfl, rfl⟩ <;> exact ⟨by simp, rfl⟩

variable {mode : Mode F}

/-- A value has the mark no more often than the text that it is read from. -/
theorem Reads.marks (hm : IsMark m) {text after : List Char} (h : Reads floats mode text value after) :
    count m value + Lex.plain.marks m after ≤ mode.count m + Lex.plain.marks m text := by
  induction h with
  | @str rest after s hread =>
    have hstring := marks_readString hm hread
    have hcons := marks_cons (c := '"') (by decide) m rest
    rw [List.drop_zero] at hstring
    rw [count, Mode.count]
    omega
  | @emptyDict rest after hend =>
    have hspace := marks_skipSpace m rest
    have hcons := marks_cons (c := '\x7b') (by decide) m rest
    have hcons' := marks_cons (c := '\x7d') (by decide) m after
    rw [hend] at hspace
    rw [count, countEntries, Mode.count]
    omega
  | @dict rest after value _ ih =>
    have hspace := marks_skipSpace m rest
    have hcons := marks_cons (c := '\x7b') (by decide) m rest
    rw [Mode.count, countEntries] at ih
    rw [Mode.count]
    omega
  | @emptyList rest after hend =>
    have hspace := marks_skipSpace m rest
    have hcons := marks_cons (c := '[') (by decide) m rest
    have hcons' := marks_cons (c := ']') (by decide) m after
    rw [hend] at hspace
    rw [count, countItems, Mode.count]
    omega
  | @list rest after value _ ih =>
    have hspace := marks_skipSpace m rest
    have hcons := marks_cons (c := '[') (by decide) m rest
    rw [Mode.count, countItems] at ih
    rw [Mode.count]
    omega
  | @word word after value hword =>
    obtain ⟨hplain, hcount⟩ := word_eq hword m
    have hle := marks_le_append (m := m) hplain after
    rw [hcount, Mode.count]
    omega
  | @number text after value hread =>
    obtain ⟨⟨literal, rfl, _, hchars⟩, hvalue⟩ := readNumber_ok hread
    have hplain : ∀ c ∈ literal, c ≠ '\\' := by
      rintro c hc rfl
      exact absurd (hchars _ hc) (by unfold InNumber; decide)
    have hle := marks_le_append (m := m) hplain after
    have hcount : count m value = 0 := by
      rcases hvalue with ⟨n, rfl⟩ | ⟨x, rfl⟩ <;> rfl
    rw [hcount, Mode.count]
    omega
  | @lastItem xs text rest after x _ hend ih =>
    have hspace := marks_skipSpace m rest
    have hcons := marks_cons (c := ']') (by decide) m after
    rw [hend] at hspace
    rw [Mode.count] at ih
    rw [count, countItems_append, countItems, countItems, Mode.count]
    omega
  | @item xs text rest rest' after x value _ hcomma _ ih ih' =>
    have hspace := marks_skipSpace m rest
    have hspace' := marks_skipSpace m rest'
    have hcons := marks_cons (c := ',') (by decide) m rest'
    rw [hcomma] at hspace
    rw [Mode.count] at ih
    rw [Mode.count, countItems_append, countItems, countItems] at ih'
    rw [Mode.count]
    omega
  | @lastEntry entries text colon rest rest' after key value hkey hcolon _ hend ih =>
    have hstring := marks_readString hm hkey
    have hset := countEntries_setEntry m entries key value
    have hcons := marks_cons (c := '"') (by decide) m text
    have hspace := marks_skipSpace m colon
    have hspace' := marks_skipSpace m rest
    have hspace'' := marks_skipSpace m rest'
    have hcons' := marks_cons (c := ':') (by decide) m rest
    have hcons'' := marks_cons (c := '\x7d') (by decide) m after
    rw [hcolon] at hspace
    rw [hend] at hspace''
    rw [List.drop_zero] at hstring
    rw [Mode.count] at ih
    rw [count, Mode.count]
    omega
  | @entry entries text colon rest rest' rest'' after key value dict hkey hcolon _ hcomma _ ih ih' =>
    have hstring := marks_readString hm hkey
    have hset := countEntries_setEntry m entries key value
    have hcons := marks_cons (c := '"') (by decide) m text
    have hspace := marks_skipSpace m colon
    have hspace' := marks_skipSpace m rest
    have hspace'' := marks_skipSpace m rest'
    have hspace''' := marks_skipSpace m rest''
    have hcons' := marks_cons (c := ':') (by decide) m rest
    have hcons'' := marks_cons (c := ',') (by decide) m rest''
    rw [hcolon] at hspace
    rw [hcomma] at hspace''
    rw [List.drop_zero] at hstring
    rw [Mode.count] at ih
    rw [Mode.count] at ih'
    rw [Mode.count]
    omega

theorem marks_loads (hm : IsMark m) (h : loads floats text = .ok value) : count m value ≤ Lex.plain.marks m text := by
  obtain ⟨after, hreads, _⟩ := reads_of_loads h
  have hle : count m value + Lex.plain.marks m after ≤ 0 + Lex.plain.marks m (skipSpace text) := hreads.marks hm
  have hspace := marks_skipSpace m text
  omega

/-! ### Surrogate pairs -/

def LowAhead (text : List Char) : Prop := ∃ text' k, text = '\\' :: 'u' :: text' ∧ readHex4 text' = some k ∧ isLow k

theorem escape_surrogate (h : readEscape rest = .ok (c, n)) :
    (isHigh c.val → ¬LowAhead (rest.drop n)) ∧ (isLow c.val → LowAhead ('\\' :: rest)) := by
  cases escapes_of_readEscape h with
  | @short e text htext hn he hu hc =>
    have hnone : c.val < 100 := by
      simp only [List.mem_cons, List.not_mem_nil, or_false] at hc
      omega
    unfold isHigh isLow
    exact ⟨fun hhigh => by omega, fun hlow => by omega⟩
  | @unit text htext hn hread hnext =>
    subst htext hn
    refine ⟨?_, fun hlow => ⟨text, c.val, rfl, hread, hlow⟩⟩
    rintro hhigh ⟨text', k, hdrop, hread', hlow⟩
    exact hnext hhigh text' k hdrop hread' hlow
  | pair htext hn hread hnext hread' hc =>
    unfold isHigh isLow
    exact ⟨fun hhigh => by omega, fun hlow => by omega⟩

theorem no_surrogate (c : Char) : ¬isHigh c.toNat ∧ ¬isLow c.toNat := by
  have hvalid : c.toNat < 55296 ∨ 57343 < c.toNat := c.valid.imp id And.left
  unfold isHigh isLow
  omega

/-- A string that is read has no pair in two halves, since they are read as one. -/
theorem readString_unpaired {text after : List Char} (h : readString n text = .ok (s, after)) :
    Unpaired s ∧ ∀ c ∈ s.head?, isLow c.val → LowAhead (text.drop n) := by
  rw [readString_drop] at h
  generalize text.drop n = text at h ⊢
  induction hlength : text.length using Nat.strong_induction_on generalizing text s with
  | _ length ih =>
    cases text with
    | nil => cases h
    | cons c rest =>
      subst hlength
      rw [readString] at h
      split at h
      · cases h
        exact ⟨List.isChain_nil, fun c hc => absurd hc (Option.not_mem_none c)⟩
      · split at h
        · rename_i hbackslash
          subst hbackslash
          obtain ⟨⟨codePoint, n⟩, hescape, h⟩ := bind_eq_ok.mp h
          obtain ⟨⟨s', after'⟩, hrest, h⟩ := bind_eq_ok.mp h
          cases h
          rw [readString_drop] at hrest
          have hlt : (rest.drop n).length < ('\\' :: rest).length := by
            rw [List.length_drop, List.length_cons]
            omega
          obtain ⟨hunpaired, hhead⟩ := ih _ hlt _ hrest rfl
          obtain ⟨hhigh, hlow⟩ := escape_surrogate hescape
          refine ⟨List.isChain_cons.mpr ⟨fun d hd hpair => ?_, hunpaired⟩, fun d hd hd' => ?_⟩
          · exact hhigh hpair.1 (hhead d hd hpair.2)
          · cases hd
            exact hlow hd'
        · split at h
          · cases h
          · obtain ⟨⟨s', after'⟩, hrest, h⟩ := bind_eq_ok.mp h
            cases h
            obtain ⟨hunpaired, _⟩ := ih rest.length (Nat.lt_succ_self _) _ hrest rfl
            obtain ⟨hhigh, hlow⟩ := no_surrogate c
            have hval : (Fin.ofNat 1114112 c.toNat).val = c.toNat := val_ofNat (toNat_lt c)
            refine ⟨List.isChain_cons.mpr ⟨fun d hd hpair => ?_, hunpaired⟩, fun d hd hd' => ?_⟩
            · rw [hval] at hpair
              exact hhigh hpair.1
            · cases hd
              rw [hval] at hd'
              exact (hlow hd').elim

def Mode.Unpaired : Mode F → Prop
  | .value => True
  | .items xs => EverywhereItems UnpairedHere xs
  | .entries es => (∀ e ∈ es, JsonText.Unpaired e.1) ∧ EverywhereEntries UnpairedHere es

variable {p : Value F → Prop}

theorem everywhereItems_append {xs ys : List (Value F)} (hxs : EverywhereItems p xs)
    (hys : EverywhereItems p ys) : EverywhereItems p (xs ++ ys) := by
  induction xs with
  | nil => exact hys
  | cons x xs ih => exact ⟨hxs.1, ih hxs.2⟩

variable {key : List CodePoint} {entries : Entries F}

theorem everywhere_setEntry (hentries : EverywhereEntries p entries) (hvalue : Everywhere p value) :
    EverywhereEntries p (setEntry entries key value) := by
  induction entries with
  | nil => exact ⟨hvalue, trivial⟩
  | cons e entries ih =>
    rw [setEntry]
    split
    · exact ⟨hvalue, hentries.2⟩
    · exact ⟨hentries.1, ih hentries.2⟩

theorem mem_setEntry {e : List CodePoint × Value F} (h : e ∈ setEntry entries key value) : e ∈ entries ∨ e.1 = key := by
  induction entries with
  | nil => exact .inr (by rw [List.mem_singleton.mp h])
  | cons e' entries ih =>
    rw [setEntry] at h
    split at h
    · rcases List.mem_cons.mp h with rfl | h
      · exact .inr rfl
      · exact .inl (List.mem_cons_of_mem e' h)
    · rcases List.mem_cons.mp h with rfl | h
      · exact .inl List.mem_cons_self
      · exact (ih h).imp (List.mem_cons_of_mem e') id

theorem Mode.Unpaired.setEntry
    (h : (Mode.entries entries).Unpaired) (hkey : JsonText.Unpaired key) (hvalue : Everywhere UnpairedHere value) :
    (Mode.entries (JsonText.setEntry entries key value)).Unpaired := by
  refine ⟨fun e he => ?_, everywhere_setEntry h.2 hvalue⟩
  rcases mem_setEntry he with he | he
  · exact h.1 e he
  · rw [he]
    exact hkey

theorem Reads.unpaired {text after : List Char}
    (h : Reads floats mode text value after) (hmode : mode.Unpaired) : Everywhere UnpairedHere value := by
  induction h with
  | str hread => exact (readString_unpaired hread).1
  | emptyDict => exact ⟨fun e he => (List.not_mem_nil he).elim, trivial⟩
  | dict _ ih => exact ih ⟨fun e he => (List.not_mem_nil he).elim, trivial⟩
  | emptyList => exact ⟨trivial, trivial⟩
  | list _ ih => exact ih trivial
  | word hword =>
    simp only [words, List.mem_cons, Prod.mk.injEq, List.not_mem_nil, or_false] at hword
    rcases hword with ⟨_, rfl⟩ | ⟨_, rfl⟩ | ⟨_, rfl⟩ | ⟨_, rfl⟩ | ⟨_, rfl⟩ | ⟨_, rfl⟩ <;> trivial
  | number hread =>
    rcases (readNumber_ok hread).2 with ⟨n, rfl⟩ | ⟨x, rfl⟩ <;> trivial
  | lastItem _ _ ih => exact ⟨trivial, everywhereItems_append hmode ⟨ih trivial, trivial⟩⟩
  | item _ _ _ ih ih' => exact ih' (everywhereItems_append hmode ⟨ih trivial, trivial⟩)
  | lastEntry hkey _ _ _ ih => exact Mode.Unpaired.setEntry hmode (readString_unpaired hkey).1 (ih trivial)
  | entry hkey _ _ _ _ ih ih' =>
    exact ih' (Mode.Unpaired.setEntry hmode (readString_unpaired hkey).1 (ih trivial))

theorem unpaired_loads (h : loads floats text = .ok value) : Everywhere UnpairedHere value := by
  obtain ⟨after, hreads, _⟩ := reads_of_loads h
  exact hreads.unpaired trivial

theorem word_head {word after rest : List Char} (h : (word, value) ∈ words floats) : word ++ after ≠ '\x7b' :: rest := by
  simp only [words, List.mem_cons, Prod.mk.injEq, List.not_mem_nil, or_false] at h
  rcases h with ⟨rfl, _⟩ | ⟨rfl, _⟩ | ⟨rfl, _⟩ | ⟨rfl, _⟩ | ⟨rfl, _⟩ | ⟨rfl, _⟩ <;>
    exact fun heq => absurd (List.cons.inj heq).1 (by decide)

theorem number_head {text after rest : List Char} (h : readNumber floats text = .ok (value, after)) :
    text ≠ '\x7b' :: rest := by
  obtain ⟨⟨literal, htext, hne, hchars⟩, _⟩ := readNumber_ok h
  obtain ⟨c, literal, rfl⟩ := List.exists_cons_of_ne_nil hne
  intro heq
  rw [heq, List.cons_append] at htext
  have hc := hchars c List.mem_cons_self
  rw [← (List.cons.inj htext).1] at hc
  exact absurd hc (by unfold InNumber; decide)

/-- Where the entries of a dict are read, a dict is. -/
theorem Reads.isDict {text after : List Char} (h : Reads floats mode text value after)
    (hmode : (∃ es, mode = .entries es) ∨ mode = .value ∧ ∃ rest, text = '\x7b' :: rest) : ∃ es, value = .dict es := by
  induction h with
  | emptyDict => exact ⟨_, rfl⟩
  | dict _ ih => exact ih (.inl ⟨_, rfl⟩)
  | lastEntry => exact ⟨_, rfl⟩
  | entry _ _ _ _ _ _ ih => exact ih (.inl ⟨_, rfl⟩)
  | word hword =>
    obtain ⟨es, hes⟩ | ⟨_, rest, htext⟩ := hmode
    · cases hes
    · exact (word_head hword htext).elim
  | number hread =>
    obtain ⟨es, hes⟩ | ⟨_, rest, htext⟩ := hmode
    · cases hes
    · exact (number_head hread htext).elim
  | str | emptyList | list =>
    obtain ⟨es, hes⟩ | ⟨_, rest, htext⟩ := hmode
    · cases hes
    · exact absurd (List.cons.inj htext).1 (by decide)
  | lastItem | item =>
    obtain ⟨es, hes⟩ | ⟨hvalue, _⟩ := hmode
    · cases hes
    · cases hvalue

theorem isDict_of_loads (h : loads floats ('\x7b' :: rest) = .ok value) : ∃ es, value = .dict es := by
  obtain ⟨after, hreads, _⟩ := reads_of_loads h
  exact hreads.isDict (.inr ⟨rfl, rest, rfl⟩)

theorem marks_cut {m c : Char} {before part after : List Char} (hc : Cuts c)
    (h : Lex.plain.Lexes (before ++ (c :: part ++ after))) :
    Lex.plain.marks m before + Lex.plain.marks m (c :: part) ≤ Lex.plain.marks m (before ++ (c :: part ++ after)) := by
  rw [Lex.marks_append, Lex.after_of_cuts h hc, Lex.marks_append]
  omega

theorem after_of_last {c : Char} {part rest : List Char} (hc : Cuts c) (h : Lex.plain.Lexes ((part ++ [c]) ++ rest)) :
    Lex.plain.after (part ++ [c]) = .plain := by
  have hbackslash : c ≠ '\\' := by
    rintro rfl
    exact hc.1 (by decide)
  rw [List.append_assoc, List.singleton_append] at h
  rw [Lex.after_append, Lex.after_of_cuts h hc]
  exact if_neg hbackslash

end JsonText

end AllTomorrow
