import Mathlib.Data.List.Infix
import Mathlib.Data.List.Basic

/-!
# Patterns in texts

Regular expressions as a backtracking matcher tries them: the lengths of what a pattern can match at a place, the preferred
one first. A substitution replaces the leftmost matches, none of which overlap.
-/

/-! ## Patterns -/

inductive TextPattern where
  | literal (cs : List Char)
  /-- from `least` to `most` characters; as few as possible if `lazy` -/
  | repeated (p : Char → Bool) (least : ℕ) (most : Option ℕ) (lazy : Bool)
  | seq (a b : TextPattern)
  | alt (a b : TextPattern)
  | boundary (isWord : Char → Bool)

namespace TextPattern

def one (p : Char → Bool) : TextPattern := .repeated p 1 (some 1) false

/-- The character before the rest of a text, once this much of it is matched. -/
def previous (before : Option Char) (text : List Char) (n : ℕ) : Option Char :=
  match n with
  | 0 => before
  | n + 1 => text[n]?

/-- How often a character can be repeated that comes `run` times, fewest first. -/
def repeatCounts (least : ℕ) (most : Option ℕ) (run : ℕ) : List ℕ :=
  (List.range (most.elim run (min run) + 1)).filter fun n => least ≤ n

def ends : TextPattern → Option Char → List Char → List ℕ
  | .literal cs, _, text => if cs.isPrefixOf text then [cs.length] else []
  | .repeated p least most lazy, _, text =>
    let counts := repeatCounts least most (text.takeWhile p).length
    if lazy then counts else counts.reverse
  | .seq a b, before, text =>
    (a.ends before text).flatMap fun n => (b.ends (previous before text n) (text.drop n)).map fun m => n + m
  | .alt a b, before, text => a.ends before text ++ b.ends before text
  | .boundary isWord, before, text => if before.any isWord ≠ text.head?.any isWord then [0] else []

def matchLength (p : TextPattern) (before : Option Char) (text : List Char) : Option ℕ := (p.ends before text).head?

def groupEnds (a b : TextPattern) (before : Option Char) (text : List Char) : List (ℕ × ℕ) :=
  (a.ends before text).flatMap fun n => (b.ends (previous before text n) (text.drop n)).map fun m => (n, n + m)

def minLength : TextPattern → ℕ
  | .literal cs => cs.length
  | .repeated _ least _ _ => least
  | .seq a b => a.minLength + b.minLength
  | .alt a b => min a.minLength b.minLength
  | .boundary _ => 0

def anyOf (last : TextPattern) : List TextPattern → TextPattern
  | [] => last
  | p :: ps => .alt p (anyOf last ps)

theorem minLength_le_of_mem_ends {p : TextPattern} {before : Option Char} {text : List Char} {n : ℕ}
    (h : n ∈ p.ends before text) : p.minLength ≤ n := by
  induction p generalizing before text n with
  | literal cs =>
    rw [ends] at h
    split at h
    · rw [List.mem_singleton.mp h]
      exact Nat.le_refl _
    · cases h
  | repeated p least most lazy =>
    have hcount : n ∈ repeatCounts least most (text.takeWhile p).length := by
      cases lazy with
      | true => exact h
      | false => exact List.mem_reverse.mp h
    exact of_decide_eq_true (List.mem_filter.mp hcount).2
  | seq a b iha ihb =>
    rw [ends] at h
    obtain ⟨k, hk, hmem⟩ := List.mem_flatMap.mp h
    obtain ⟨m, hm, rfl⟩ := List.mem_map.mp hmem
    exact Nat.add_le_add (iha hk) (ihb hm)
  | alt a b iha ihb =>
    rw [ends] at h
    rcases List.mem_append.mp h with ha | hb
    · exact (Nat.min_le_left _ _).trans (iha ha)
    · exact (Nat.min_le_right _ _).trans (ihb hb)
  | boundary isWord => exact Nat.zero_le n

theorem mem_ends_literal {cs text : List Char} (before : Option Char) (h : cs <+: text) :
    cs.length ∈ (literal cs).ends before text := by
  rw [ends, if_pos (List.isPrefixOf_iff_prefix.mpr h)]
  exact List.mem_singleton_self _

variable {ps : List TextPattern}

theorem mem_ends_anyOf {last p : TextPattern} {before : Option Char} {text : List Char} {n : ℕ}
    (hp : p ∈ ps) (h : n ∈ p.ends before text) : n ∈ (anyOf last ps).ends before text := by
  induction ps with
  | nil => cases hp
  | cons q ps ih =>
    rw [anyOf, ends, List.mem_append]
    rcases List.mem_cons.mp hp with rfl | hp
    · exact .inl h
    · exact .inr (ih hp)

theorem minLength_anyOf {last : TextPattern} {k : ℕ} (hlast : k ≤ last.minLength)
    (h : ∀ p ∈ ps, k ≤ p.minLength) : k ≤ (anyOf last ps).minLength := by
  induction ps with
  | nil => exact hlast
  | cons p ps ih =>
    rw [List.forall_mem_cons] at h
    exact Nat.le_min.mpr ⟨h.1, ih h.2⟩

theorem exists_matchLength {p : TextPattern} {before : Option Char} {text : List Char} {n : ℕ} (h : n ∈ p.ends before text) :
    ∃ m, p.matchLength before text = some m ∧ p.minLength ≤ m := by
  obtain ⟨m, rest, hends⟩ := List.exists_cons_of_ne_nil (List.ne_nil_of_mem h)
  refine ⟨m, by rw [matchLength, hends]; rfl, @minLength_le_of_mem_ends p before text m ?_⟩
  rw [hends]
  exact List.mem_cons_self

end TextPattern

/-- The leftmost matches are replaced. `matchAt` gives the length of the match at a place and what replaces it; `skip` characters
of the last match are left. -/
def substitute (matchAt : Option Char → List Char → Option (ℕ × List Char)) : ℕ → Option Char → List Char → List Char
  | _, _, [] => []
  | skip + 1, _, c :: cs => substitute matchAt skip (some c) cs
  | 0, before, c :: cs =>
    match matchAt before (c :: cs) with
    | some (n + 1, replacement) => replacement ++ substitute matchAt n (some c) cs
    | _ => c :: substitute matchAt 0 (some c) cs

/-! ## Masks -/

section Masks

variable {matchAt : Option Char → List Char → Option (ℕ × List Char)} {opening closing x : Char}
  {inner hidden text l r : List Char}

/-- An occurrence that does not hold a character is on one side of it. -/
theorem infix_append_cons_cases (hx : x ∉ hidden) (h : hidden <:+: l ++ x :: r) : hidden <:+: l ∨ hidden <:+: r := by
  obtain ⟨before, after, hwhole⟩ := h
  rw [List.append_assoc] at hwhole
  rcases List.append_eq_append_iff.mp hwhole with ⟨l', hl, hrest⟩ | ⟨rest, hbefore, hrest⟩
  · rcases List.append_eq_append_iff.mp hrest with ⟨mid, hmid, -⟩ | ⟨mid, hmid, hx'⟩
    · exact .inl ⟨before, mid, by rw [hl, hmid, List.append_assoc]⟩
    · cases mid with
      | nil =>
        rw [List.append_nil] at hmid
        exact .inl ⟨before, [], by rw [hl, hmid, List.append_nil]⟩
      | cons y mid =>
        obtain ⟨rfl, -⟩ := List.cons.inj hx'
        exact absurd (by rw [hmid]; simp) hx
  · cases rest with
    | nil =>
      rw [List.nil_append] at hrest
      cases hidden with
      | nil => exact .inl ⟨[], l, by simp⟩
      | cons y hidden =>
        obtain ⟨rfl, -⟩ := List.cons.inj hrest
        exact absurd List.mem_cons_self hx
    | cons y rest =>
      obtain ⟨-, hr⟩ := List.cons.inj hrest
      exact .inr ⟨rest, after, (List.append_assoc _ _ _).trans hr.symm⟩

theorem prefix_of_prefix_append_cons (hx : x ∉ hidden) (h : hidden <+: l ++ x :: r) : hidden <+: l := by
  induction l generalizing hidden with
  | nil =>
    cases hidden with
    | nil => exact List.nil_prefix
    | cons y hidden =>
      obtain ⟨rfl, -⟩ := List.cons_prefix_cons.mp h
      exact absurd List.mem_cons_self hx
  | cons a l ih =>
    cases hidden with
    | nil => exact List.nil_prefix
    | cons y hidden =>
      rw [List.mem_cons, not_or] at hx
      obtain ⟨rfl, hrest⟩ := List.cons_prefix_cons.mp h
      exact List.cons_prefix_cons.mpr ⟨rfl, ih hx.2 hrest⟩

/-- The replacements keep a beginning of the match and put a mask behind it. -/
def Masks (mask : List Char) (matchAt : Option Char → List Char → Option (ℕ × List Char)) : Prop :=
  ∀ before text n replacement, matchAt before text = some (n, replacement) → ∃ k, replacement = text.take k ++ mask

theorem prefix_of_prefix_substitute (hmasks : Masks (opening :: inner ++ [closing]) matchAt) (hopening : opening ∉ hidden)
    {before : Option Char} (h : hidden <+: substitute matchAt 0 before text) : hidden <+: text := by
  induction text generalizing before hidden with
  | nil => exact h
  | cons c cs ih =>
    have hkept : hidden <+: c :: substitute matchAt 0 (some c) cs → hidden <+: c :: cs := by
      intro hstarts
      cases hidden with
      | nil => exact List.nil_prefix
      | cons d hidden =>
        rw [List.mem_cons, not_or] at hopening
        obtain ⟨rfl, hrest⟩ := List.cons_prefix_cons.mp hstarts
        exact List.cons_prefix_cons.mpr ⟨rfl, ih hopening.2 hrest⟩
    rw [substitute] at h
    split at h
    · next n replacement hmatch =>
      obtain ⟨k, rfl⟩ := hmasks _ _ _ _ hmatch
      rw [List.append_assoc] at h
      exact (prefix_of_prefix_append_cons hopening h).trans (List.take_prefix k _)
    · exact hkept h

/-- A place at which nothing is replaced: there is no match, or an empty one. -/
def Misses (matchAt : Option Char → List Char → Option (ℕ × List Char)) (before : Option Char) (text : List Char) : Prop :=
  ∀ n replacement, matchAt before text ≠ some (n + 1, replacement)

/-- What does not fit into a mask is not in the result, unless it stands in the text at a place at which nothing is
replaced. -/
theorem not_infix_substitute (hmasks : Masks (opening :: inner ++ [closing]) matchAt) (hopening : opening ∉ hidden)
    (hclosing : closing ∉ hidden) (hinner : ¬hidden <:+: inner) {skip : ℕ} {before : Option Char}
    (hmisses : ∀ before' rest, rest <:+ text → Misses matchAt before' rest → ¬hidden <+: rest)
    (hkept : ∀ before' rest k n replacement, rest <:+ text → matchAt before' rest = some (n, replacement) →
      replacement = rest.take k ++ (opening :: inner ++ [closing]) → ¬hidden <:+: rest.take k) :
    ¬hidden <:+: substitute matchAt skip before text := by
  induction text generalizing skip before with
  | nil =>
    have hempty : hidden ≠ [] := fun hnil => hinner (by rw [hnil]; exact List.nil_infix)
    rw [substitute, List.infix_nil]
    exact hempty
  | cons c cs ih =>
    have hrest (skip : ℕ) : ¬hidden <:+: substitute matchAt skip (some c) cs :=
      ih (fun before' rest hsuffix => hmisses before' rest (hsuffix.trans (List.suffix_cons c cs)))
        fun before' rest k n replacement hsuffix => hkept before' rest k n replacement (hsuffix.trans (List.suffix_cons c cs))
    cases skip with
    | succ skip =>
      rw [substitute]
      exact hrest skip
    | zero =>
      rw [substitute]
      split
      · next n replacement hmatch =>
        obtain ⟨k, hreplacement⟩ := hmasks _ _ _ _ hmatch
        intro h
        rw [hreplacement, List.append_assoc] at h
        rcases infix_append_cons_cases hopening h with hbefore | hafter
        · exact hkept _ _ k _ _ List.suffix_rfl hmatch hreplacement hbefore
        · have hmasked : hidden <:+: inner ++ closing :: substitute matchAt n (some c) cs := by simpa using hafter
          rcases infix_append_cons_cases hclosing hmasked with hmask | hlater
          · exact hinner hmask
          · exact hrest n hlater
      · next hnone =>
        intro h
        rcases List.infix_cons_iff.mp h with hstarts | hlater
        · obtain ⟨d, hidden', rfl⟩ := List.exists_cons_of_ne_nil
            (fun hnil => hinner (by rw [hnil]; exact List.nil_infix) : hidden ≠ [])
          rw [List.mem_cons, not_or] at hopening
          obtain ⟨rfl, htail⟩ := List.cons_prefix_cons.mp hstarts
          refine hmisses before _ List.suffix_rfl (fun n replacement hmatch => hnone n replacement hmatch) ?_
          exact List.cons_prefix_cons.mpr ⟨rfl, prefix_of_prefix_substitute hmasks hopening.2 htail⟩
        · exact hrest 0 hlater

end Masks
