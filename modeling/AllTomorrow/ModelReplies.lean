import AllTomorrow.JsonLexing
import AllTomorrow.PythonValues
import AllTomorrow.TextPatterns
import Mathlib.Data.List.DropRight

/-!
# JSON in model replies

`parse_json` of `idea_factory/llm.py` takes thoughts and a fence off a reply and reads what
stands from the first opening brace to the last closing one, else from the first opening
bracket to the last closing one. Plain JSON that `json.dumps` writes is read as what it was,
unless a string makes a thought or a fence of the text, or what stands between the braces of
an array is itself JSON.
-/

namespace AllTomorrow

namespace ModelReply

open JsonText

variable {F : Type}

/-! ## Replies -/

/-- `.*?` where a dot matches every character. -/
def anything : TextPattern := .repeated (fun _ => true) 0 none true

def thinkOpening : List Char := "<think>".toList

def thinkClosing : List Char := "</think>".toList

def thought : TextPattern := .seq (.literal thinkOpening) (.seq anything (.literal thinkClosing))

/-- `re.sub(r"<think>.*?</think>", "", text, flags=re.S)`. -/
def withoutThoughts (text : List Char) : List Char :=
  substitute (fun before rest => (thought.matchLength before rest).map fun n => (n, [])) 0 none text

def fenceMark : List Char := ['\u0060', '\u0060', '\u0060']

def fenceOpening : TextPattern :=
  .seq (.literal fenceMark)
    (.seq (.alt (.literal "json".toList) (.literal [])) (.repeated PyText.isSpace 0 none false))

/-- Where the group of a fence that starts here starts, and how long it is. -/
def fenceGroup (text : List Char) : Option (ℕ × ℕ) :=
  ((fenceOpening.ends none text).flatMap fun n =>
    (TextPattern.groupEnds anything (.literal fenceMark) none (text.drop n)).map fun ends => (n, ends.1)).head?

/-- `re.search` for a fence: the group of the first one. -/
def fenced : List Char → Option (List Char)
  | [] => none
  | c :: text =>
      match fenceGroup (c :: text) with
      | some (start, length) => some (((c :: text).drop start).take length)
      | none => fenced text

def between (opener closer : Char) (text : List Char) : Option (List Char) :=
  match (text.dropWhile (· ≠ opener)).rdropWhile (· ≠ closer) with
  | [] => none
  | slice => some slice

inductive ReplyError where
  | llmError
  | valueError
  deriving DecidableEq

section Floats

variable (floats : Floats F)

def readBetween (text : List Char) : List (Char × Char) → Except ReplyError (Value F)
  | [] => .error .llmError
  | (opener, closer) :: pairs =>
      match between opener closer text with
      | none => readBetween text pairs
      | some slice =>
          match loads floats slice with
          | .ok value => .ok value
          | .error .decode => readBetween text pairs
          | .error _ => .error .valueError

/-- `parse_json`. -/
def parseJson (text : List Char) : Except ReplyError (Value F) :=
  let cleaned := withoutThoughts text
  readBetween floats ((fenced cleaned).getD cleaned) [('\x7b', '\x7d'), ('[', ']')]

/-- `json.dumps`; only a whole number that is too long keeps it from writing a value. -/
def dumps (value : Value F) : Except ReplyError (List Char) :=
  if Everywhere Short value then .ok (write floats value) else .error .valueError

/-- An object or an array with finite floats and no key twice in an object. -/
structure Document where
  value : Value F
  plain : Everywhere (Plain floats) value
  container : (∃ entries, value = .dict entries) ∨ ∃ xs, value = .list xs

variable {floats}

/-- What `json.dumps` writes of the document is read as the document. -/
def Document.ReadsBack (document : Document floats) : Prop :=
  ∃ text, dumps floats document.value = .ok text ∧ parseJson floats text = .ok document.value

def Encloses (opening closing text : List Char) : Prop := ∃ inner, opening ++ (inner ++ closing) <:+: text

/-- A document that is written, whose text has neither a thought nor a fence and whose text, for an array, has no JSON
from the first brace to the last. -/
structure Document.Recoverable (document : Document floats) : Prop where
  short : Everywhere Short document.value
  unpaired : Everywhere UnpairedHere document.value
  noThought : ¬Encloses thinkOpening thinkClosing (write floats document.value)
  noFence : ¬Encloses fenceMark fenceMark (write floats document.value)
  braces : (∃ xs, document.value = .list xs) →
    ∀ slice, between '\x7b' '\x7d' (write floats document.value) = some slice → loads floats slice = .error .decode

end Floats

/-! ## Thoughts -/

theorem mem_ends_literal_iff {cs text : List Char} {before : Option Char} {n : ℕ} :
    n ∈ (TextPattern.literal cs).ends before text ↔ n = cs.length ∧ cs <+: text := by
  rw [TextPattern.ends]
  constructor
  · intro h
    split at h
    · rename_i hstarts
      exact ⟨List.mem_singleton.mp h, List.isPrefixOf_iff_prefix.mp hstarts⟩
    · cases h
  · rintro ⟨rfl, hstarts⟩
    rw [if_pos (List.isPrefixOf_iff_prefix.mpr hstarts)]
    exact List.mem_singleton_self _

theorem mem_ends_anything_iff {text : List Char} {before : Option Char} {n : ℕ} :
    n ∈ anything.ends before text ↔ n ≤ text.length := by
  have hall : text.takeWhile (fun _ => true) = text := List.takeWhile_eq_self_iff.mpr fun _ _ => rfl
  simp only [anything, TextPattern.ends, TextPattern.repeatCounts, hall, Option.elim_none, if_true]
  simp [Nat.lt_succ_iff]

/-- Where a thought is matched, it stands. -/
theorem mem_ends_thought_iff {text : List Char} {before : Option Char} {n : ℕ} : n ∈ thought.ends before text ↔
      ∃ inner rest, text = thinkOpening ++ (inner ++ (thinkClosing ++ rest)) ∧ n = 7 + (inner.length + 8) := by
  constructor
  · intro h
    rw [thought, TextPattern.ends] at h
    obtain ⟨k, hk, hmap⟩ := List.mem_flatMap.mp h
    obtain ⟨j, hj, rfl⟩ := List.mem_map.mp hmap
    obtain ⟨rfl, inside, hinside⟩ := mem_ends_literal_iff.mp hk
    rw [TextPattern.ends] at hj
    obtain ⟨i, hi, hmap'⟩ := List.mem_flatMap.mp hj
    obtain ⟨l, hl, rfl⟩ := List.mem_map.mp hmap'
    obtain ⟨rfl, rest, hrest⟩ := mem_ends_literal_iff.mp hl
    have hle := mem_ends_anything_iff.mp hi
    rw [← hinside, List.drop_left] at hrest hle
    refine ⟨inside.take i, rest, ?_, ?_⟩
    · rw [hrest, List.take_append_drop, hinside]
    · rw [List.length_take, Nat.min_eq_left hle]
      rfl
  · rintro ⟨inner, rest, rfl, rfl⟩
    rw [thought, TextPattern.ends]
    refine List.mem_flatMap.mpr ⟨7, mem_ends_literal_iff.mpr ⟨rfl, List.prefix_append _ _⟩, ?_⟩
    refine List.mem_map.mpr ⟨inner.length + 8, ?_, rfl⟩
    have hdrop : (thinkOpening ++ (inner ++ (thinkClosing ++ rest))).drop 7 = inner ++ (thinkClosing ++ rest) := rfl
    rw [hdrop, TextPattern.ends]
    refine List.mem_flatMap.mpr ⟨inner.length, mem_ends_anything_iff.mpr (by simp), ?_⟩
    refine List.mem_map.mpr ⟨8, mem_ends_literal_iff.mpr ⟨rfl, ?_⟩, rfl⟩
    rw [List.drop_left]
    exact List.prefix_append _ _

def removeThought (before : Option Char) (rest : List Char) : Option (ℕ × List Char) :=
  (thought.matchLength before rest).map fun n => (n, [])

theorem removeThought_some {text : List Char} {before : Option Char} {n : ℕ} {replacement : List Char}
    (h : removeThought before text = some (n, replacement)) : replacement = [] ∧
      ∃ inner rest, text = thinkOpening ++ (inner ++ (thinkClosing ++ rest)) ∧ n = 7 + (inner.length + 8) := by
  obtain ⟨k, hk, hpair⟩ := Option.map_eq_some_iff.mp h
  cases hpair
  exact ⟨rfl, mem_ends_thought_iff.mp (List.mem_of_mem_head? hk)⟩

variable {inner rest : List Char}

theorem exists_removeThought (before : Option Char) :
    ∃ n, removeThought before (thinkOpening ++ (inner ++ (thinkClosing ++ rest))) = some (n + 1, []) := by
  obtain ⟨n, hn, _⟩ := TextPattern.exists_matchLength
    (mem_ends_thought_iff.mpr ⟨inner, rest, rfl, rfl⟩ : _ ∈ thought.ends before _)
  obtain ⟨inner', rest', _, rfl⟩ := mem_ends_thought_iff.mp (List.mem_of_mem_head? hn)
  have hlength : 7 + (inner'.length + 8) = 6 + (inner'.length + 8) + 1 := by omega
  exact ⟨6 + (inner'.length + 8), by rw [removeThought, hn, Option.map_some, hlength]⟩

theorem substitute_drop {matchAt : Option Char → List Char → Option (ℕ × List Char)} (k : ℕ) (before : Option Char)
    (text : List Char) : ∃ before', substitute matchAt k before text = substitute matchAt 0 before' (text.drop k) := by
  induction text generalizing k before with
  | nil => exact ⟨before, by cases k <;> rfl⟩
  | cons c cs ih =>
    cases k with
    | zero => exact ⟨before, rfl⟩
    | succ k => exact ih k (some c)

theorem isMark_less : IsMark '<' where
  printable := by decide
  cuts := ⟨by decide, by decide⟩
  number := by unfold InNumber; decide
  syntactic := by decide

theorem cuts_greater : Cuts '>' := ⟨by decide, by decide⟩

theorem thought_region (inner rest : List Char) :
    ∃ region, thinkOpening ++ (inner ++ (thinkClosing ++ rest)) = (region ++ ['>']) ++ rest ∧
      (region ++ ['>']).length = 7 + (inner.length + 8) := by
  refine ⟨thinkOpening ++ (inner ++ "</think".toList), ?_, ?_⟩
  · have hclosing : thinkClosing = "</think".toList ++ ['>'] := rfl
    rw [hclosing]
    simp only [List.append_assoc]
  · have hopening : thinkOpening.length = 7 := rfl
    have hclosing : "</think".toList.length = 7 := rfl
    simp only [List.length_append, hopening, hclosing, List.length_singleton]
    omega

theorem marks_region (region : List Char)
    (h : thinkOpening ++ (inner ++ (thinkClosing ++ rest)) = (region ++ ['>']) ++ rest) :
    0 < Lex.plain.marks '<' (region ++ ['>']) := by
  cases region with
  | nil =>
    have hhead := (List.cons.inj h).1
    exact absurd hhead (by decide)
  | cons c region =>
    have hc : '<' = c := (List.cons.inj h).1
    rw [← hc, List.cons_append, Lex.marks]
    exact Nat.lt_of_lt_of_le (by decide) (Nat.le_add_right _ _)

/-- Without its thoughts, a text is itself or has fewer signs of the kind that a thought starts with. -/
theorem lexes_substitute {lex : Lex} {before : Option Char} {text : List Char} (h : lex.Lexes text) :
    lex.Lexes (substitute removeThought 0 before text) ∧ (substitute removeThought 0 before text = text ∨
        lex.marks '<' (substitute removeThought 0 before text) < lex.marks '<' text) := by
  induction hlength : text.length using Nat.strong_induction_on generalizing lex before text with
  | _ length ih =>
    cases text with
    | nil => exact ⟨trivial, .inl rfl⟩
    | cons c cs =>
      subst hlength
      rw [substitute]
      split
      · rename_i n replacement hmatch
        obtain ⟨rfl, inner, rest, htext, hn⟩ := removeThought_some hmatch
        obtain ⟨before', hskip⟩ := @substitute_drop removeThought n (some c) cs
        obtain ⟨region, hregion, hlength⟩ := thought_region inner rest
        have hdrop : cs.drop n = rest := by
          have hwhole : (c :: cs).drop (n + 1) = rest := by
            have hsucc : n + 1 = (region ++ ['>']).length := hn.trans hlength.symm
            rw [htext, hregion, hsucc]
            exact List.drop_left
          exact hwhole
        have hplain : lex = .plain := by
          have hc : c = '<' := (List.cons.inj htext).1
          subst hc
          cases lex with
          | plain => rfl
          | escape => exact absurd h.1 isMark_less.cuts.1
          | hex digits =>
            have hsome : (hexValue '<').isSome = true := h.1
            rw [isMark_less.cuts.2] at hsome
            cases hsome
        subst hplain
        rw [htext, hregion] at h
        have hafter := after_of_last cuts_greater h
        have hrest : Lex.plain.Lexes rest := by
          have hlexes := (Lex.lexes_append.mp h).2
          rw [hafter] at hlexes
          exact hlexes
        have hshorter : rest.length < (c :: cs).length := by
          rw [← hdrop, List.length_drop, List.length_cons]
          omega
        obtain ⟨hlexes, hcase⟩ := @ih rest.length hshorter .plain before' rest hrest rfl
        have hmarks : Lex.plain.marks '<' (c :: cs) = Lex.plain.marks '<' (region ++ ['>']) + Lex.plain.marks '<' rest := by
          rw [htext, hregion, Lex.marks_append, hafter]
        have hle : Lex.plain.marks '<' (substitute removeThought 0 before' rest) ≤ Lex.plain.marks '<' rest := by
          rcases hcase with hcase | hcase
          · rw [hcase]
          · exact hcase.le
        rw [List.nil_append, hskip, hdrop, hmarks]
        refine ⟨hlexes, .inr ?_⟩
        have hpos := marks_region region hregion
        omega
      · obtain ⟨hlexes, hcase⟩ := @ih cs.length (Nat.lt_succ_self _) (lex.next c) (some c) cs h.2 rfl
        refine ⟨⟨h.1, hlexes⟩, hcase.imp (congrArg _) fun hless => ?_⟩
        rw [Lex.marks, Lex.marks]
        omega

theorem length_substitute_le (k : ℕ) (before : Option Char) (text : List Char) :
    (substitute removeThought k before text).length ≤ text.length := by
  induction text generalizing k before with
  | nil => cases k <;> exact Nat.le_refl _
  | cons c cs ih =>
    cases k with
    | succ k => exact (ih k (some c)).trans (Nat.le_succ _)
    | zero =>
      rw [substitute]
      split
      · rename_i n replacement hmatch
        obtain ⟨rfl, _⟩ := removeThought_some hmatch
        exact (ih n (some c)).trans (Nat.le_succ _)
      · exact Nat.succ_le_succ (ih 0 (some c))

theorem substitute_of_not_encloses {before : Option Char} {text : List Char}
    (h : ¬Encloses thinkOpening thinkClosing text) : substitute removeThought 0 before text = text := by
  induction text generalizing before with
  | nil => rfl
  | cons c cs ih =>
    have htail : ¬Encloses thinkOpening thinkClosing cs := by
      rintro ⟨inner, hinner⟩
      exact h ⟨inner, hinner.trans (List.suffix_cons c cs).isInfix⟩
    rw [substitute]
    split
    · rename_i n replacement hmatch
      obtain ⟨_, inner, rest, htext, _⟩ := removeThought_some hmatch
      refine (h ⟨inner, [], rest, ?_⟩).elim
      rw [htext]
      simp only [List.nil_append, List.append_assoc]
    · rw [ih htail]

/-- A text with a thought does not stay as it is. -/
theorem substitute_ne_self {before : Option Char} {text : List Char}
    (h : Encloses thinkOpening thinkClosing text) : substitute removeThought 0 before text ≠ text := by
  induction text generalizing before with
  | nil =>
    obtain ⟨inner, hinner⟩ := h
    have hnil := List.infix_nil.mp hinner
    cases hnil
  | cons c cs ih =>
    obtain ⟨inner, hinner⟩ := h
    rw [substitute]
    split
    · rename_i n replacement hmatch
      obtain ⟨rfl, _⟩ := removeThought_some hmatch
      intro heq
      have hle := length_substitute_le n (some c) cs
      rw [List.nil_append] at heq
      rw [heq, List.length_cons] at hle
      omega
    · rename_i hnone
      intro heq
      rcases List.infix_cons_iff.mp hinner with ⟨rest, hrest⟩ | hlater
      · obtain ⟨n, hn⟩ := @exists_removeThought inner rest before
        rw [← List.append_assoc inner, ← List.append_assoc, hrest] at hn
        exact hnone n [] hn
      · exact ih ⟨inner, hlater⟩ (List.cons.inj heq).2

/-! ## Fences -/

theorem mem_ends_fenceOpening {text : List Char} {n : ℕ} (h : n ∈ fenceOpening.ends none text) :
    fenceMark <+: text ∧ 3 ≤ n := by
  rw [fenceOpening, TextPattern.ends] at h
  obtain ⟨k, hk, hmap⟩ := List.mem_flatMap.mp h
  obtain ⟨j, _, rfl⟩ := List.mem_map.mp hmap
  obtain ⟨rfl, hstarts⟩ := mem_ends_literal_iff.mp hk
  exact ⟨hstarts, Nat.le_add_right 3 j⟩

theorem three_mem_ends_fenceOpening {text : List Char} (h : fenceMark <+: text) : 3 ∈ fenceOpening.ends none text := by
  rw [fenceOpening, TextPattern.ends]
  refine List.mem_flatMap.mpr ⟨3, mem_ends_literal_iff.mpr ⟨rfl, h⟩, List.mem_map.mpr ⟨0, ?_, rfl⟩⟩
  rw [TextPattern.ends]
  refine List.mem_flatMap.mpr ⟨0, ?_, List.mem_map.mpr ⟨0, ?_, rfl⟩⟩
  · rw [TextPattern.ends]
    exact List.mem_append_right _ (mem_ends_literal_iff.mpr ⟨rfl, List.nil_prefix⟩)
  · simp [TextPattern.ends, TextPattern.repeatCounts]

theorem fenceGroup_some {text : List Char} {start length : ℕ} (h : fenceGroup text = some (start, length)) :
    ∃ name rest, text = fenceMark ++ (name ++ ((text.drop start).take length ++ (fenceMark ++ rest))) := by
  have hmem := List.mem_of_mem_head? h
  obtain ⟨n, hn, hmap⟩ := List.mem_flatMap.mp hmem
  obtain ⟨ends, hends, hpair⟩ := List.mem_map.mp hmap
  cases hpair
  obtain ⟨hstarts, hthree⟩ := mem_ends_fenceOpening hn
  obtain ⟨k, _, hmap'⟩ := List.mem_flatMap.mp hends
  obtain ⟨j, hj, hpair'⟩ := List.mem_map.mp hmap'
  subst hpair'
  obtain ⟨_, rest, hrest⟩ := mem_ends_literal_iff.mp hj
  obtain ⟨name, hname⟩ : fenceMark <+: text.take start := by
    rw [List.prefix_take_iff]
    exact ⟨hstarts, hthree⟩
  refine ⟨name, rest, ?_⟩
  rw [hrest, List.take_append_drop, ← List.append_assoc, hname, List.take_append_drop]

theorem fenced_some {text group : List Char} (h : fenced text = some group) :
    ∃ before name rest, text = before ++ (fenceMark ++ (name ++ (group ++ (fenceMark ++ rest)))) := by
  induction text with
  | nil => cases h
  | cons c text ih =>
    rw [fenced] at h
    split at h
    · rename_i start length hgroup
      cases h
      obtain ⟨name, rest, htext⟩ := fenceGroup_some hgroup
      exact ⟨[], name, rest, htext⟩
    · obtain ⟨before, name, rest, htext⟩ := ih h
      exact ⟨c :: before, name, rest, by rw [htext, List.cons_append]⟩

theorem exists_fenced {text : List Char} (h : Encloses fenceMark fenceMark text) : ∃ group, fenced text = some group := by
  induction text with
  | nil =>
    obtain ⟨inner, hinner⟩ := h
    have hnil := List.infix_nil.mp hinner
    cases hnil
  | cons c text ih =>
    obtain ⟨inner, hinner⟩ := h
    rw [fenced]
    split
    · exact ⟨_, rfl⟩
    · rename_i hnone
      rcases List.infix_cons_iff.mp hinner with ⟨rest, hrest⟩ | hlater
      · rw [fenceGroup, List.head?_eq_none_iff, List.flatMap_eq_nil_iff] at hnone
        have hstarts : fenceMark <+: c :: text := ⟨inner ++ fenceMark ++ rest, by rw [← hrest]; simp⟩
        have hnil := hnone 3 (three_mem_ends_fenceOpening hstarts)
        rw [List.map_eq_nil_iff, TextPattern.groupEnds, List.flatMap_eq_nil_iff] at hnil
        have hdrop : (c :: text).drop 3 = inner ++ (fenceMark ++ rest) := by
          rw [← hrest, List.append_assoc, List.append_assoc]
          rfl
        rw [hdrop] at hnil
        have hbody := hnil inner.length (mem_ends_anything_iff.mpr (by simp))
        rw [List.map_eq_nil_iff, List.drop_left] at hbody
        have hmem := (@mem_ends_literal_iff fenceMark (fenceMark ++ rest)
          (TextPattern.previous none (inner ++ (fenceMark ++ rest)) inner.length) 3).mpr
          ⟨rfl, List.prefix_append fenceMark rest⟩
        rw [hbody] at hmem
        cases hmem
      · exact ih ⟨inner, hlater⟩

theorem fenced_of_not_encloses {text : List Char} (h : ¬Encloses fenceMark fenceMark text) : fenced text = none := by
  cases hfenced : fenced text with
  | none => rfl
  | some group =>
    obtain ⟨before, name, rest, rfl⟩ := fenced_some hfenced
    refine (h ⟨name ++ group, before, rest, ?_⟩).elim
    simp only [List.append_assoc]

theorem between_some {opener closer : Char} {text slice : List Char} (h : between opener closer text = some slice) :
    ∃ before rest after, text = before ++ (opener :: rest ++ after) ∧ slice = opener :: rest := by
  unfold between at h
  split at h
  · cases h
  · rename_i hne
    cases h
    obtain ⟨before, hbefore⟩ := List.dropWhile_suffix (l := text) (fun c => decide (c ≠ opener))
    obtain ⟨after, hafter⟩ := List.rdropWhile_prefix (fun c => decide (c ≠ closer)) (text.dropWhile (· ≠ opener))
    generalize hslice : (text.dropWhile (· ≠ opener)).rdropWhile (· ≠ closer) = slice at hne hafter ⊢
    obtain ⟨c, rest, rfl⟩ := List.exists_cons_of_ne_nil hne
    have hhead := List.head?_dropWhile_not (fun c => decide (c ≠ opener)) text
    rw [← hafter] at hhead
    have hc : c = opener := by simpa using hhead
    subst hc
    exact ⟨before, rest, after, by rw [hafter, hbefore], rfl⟩

theorem between_self (opener closer : Char) (inner : List Char) :
    between opener closer (opener :: inner ++ [closer]) = some (opener :: inner ++ [closer]) := by
  have hopen : (opener :: inner ++ [closer]).dropWhile (· ≠ opener) = opener :: inner ++ [closer] := by
    rw [List.cons_append, List.dropWhile_cons, if_neg (by simp)]
  have hclose : (opener :: inner ++ [closer]).rdropWhile (· ≠ closer) = opener :: inner ++ [closer] :=
    List.rdropWhile_concat_neg _ _ _ (by simp)
  unfold between
  rw [hopen, hclose]
  rfl

/-! ## Documents read back -/

section Documents

variable {floats : Floats F}

theorem writeItems_last (xs : List (Value F)) : ∃ inner, writeItems floats xs = inner ++ [']'] := by
  induction xs with
  | nil => exact ⟨[], rfl⟩
  | cons x xs ih =>
    obtain ⟨inner, hinner⟩ := ih
    exact ⟨',' :: ' ' :: write floats x ++ inner, by rw [writeItems, hinner, List.append_assoc]⟩

variable (entries : Entries F)

theorem writeEntries_last : ∃ inner, writeEntries floats entries = inner ++ ['\x7d'] := by
  induction entries with
  | nil => exact ⟨[], rfl⟩
  | cons e entries ih =>
    obtain ⟨key, value⟩ := e
    obtain ⟨inner, hinner⟩ := ih
    exact ⟨',' :: ' ' :: writeString key ++ ':' :: ' ' :: write floats value ++ inner,
      by rw [writeEntries, hinner, List.append_assoc _ inner]⟩

theorem write_list (xs : List (Value F)) : ∃ inner, write floats (.list xs) = '[' :: inner ++ [']'] := by
  cases xs with
  | nil => exact ⟨[], rfl⟩
  | cons x xs =>
    obtain ⟨inner, hinner⟩ := @writeItems_last F floats xs
    exact ⟨write floats x ++ inner, by rw [write, hinner]; simp⟩

theorem write_dict : ∃ inner, write floats (.dict entries) = '\x7b' :: inner ++ ['\x7d'] := by
  cases entries with
  | nil => exact ⟨[], rfl⟩
  | cons e entries =>
    obtain ⟨key, value⟩ := e
    obtain ⟨inner, hinner⟩ := @writeEntries_last F floats entries
    exact ⟨writeString key ++ ':' :: ' ' :: write floats value ++ inner, by rw [write, hinner]; simp⟩

/-- What is read stands in the text, from a brace or a bracket on. -/
theorem readBetween_ok {text : List Char} {pairs : List (Char × Char)} {value : Value F}
    (h : readBetween floats text pairs = .ok value) :
    ∃ pair ∈ pairs, ∃ slice, between pair.1 pair.2 text = some slice ∧ loads floats slice = .ok value := by
  induction pairs with
  | nil => cases h
  | cons pair pairs ih =>
    obtain ⟨opener, closer⟩ := pair
    have hlater : readBetween floats text pairs = .ok value →
        ∃ pair ∈ (opener, closer) :: pairs, ∃ slice, between pair.1 pair.2 text = some slice ∧
          loads floats slice = .ok value := by
      intro h
      obtain ⟨pair, hmem, hslice⟩ := ih h
      exact ⟨pair, List.mem_cons_of_mem _ hmem, hslice⟩
    rw [readBetween] at h
    split at h
    · exact hlater h
    · rename_i slice hslice
      split at h
      · rename_i hloads
        cases h
        exact ⟨_, List.mem_cons_self, slice, hslice, hloads⟩
      · exact hlater h
      · cases h

variable {document : Document floats}

theorem Document.dumps_eq (h : Everywhere Short document.value) :
    dumps floats document.value = .ok (write floats document.value) := if_pos h

theorem parseJson_eq {text : List Char} (hthought : ¬Encloses thinkOpening thinkClosing text)
    (hfence : ¬Encloses fenceMark fenceMark text) :
    parseJson floats text = readBetween floats text [('\x7b', '\x7d'), ('[', ']')] := by
  have hwithout : withoutThoughts text = text := substitute_of_not_encloses hthought
  unfold parseJson
  dsimp only
  rw [hwithout, fenced_of_not_encloses hfence]
  rfl

theorem Document.Recoverable.readsBack (h : document.Recoverable) : document.ReadsBack := by
  have hrestorable : Everywhere (Restorable floats) document.value :=
    Everywhere.and _ document.plain (Everywhere.and _ h.short h.unpaired)
  have hloads := loads_write hrestorable
  refine ⟨_, Document.dumps_eq h.short, ?_⟩
  rw [parseJson_eq h.noThought h.noFence]
  rcases document.container with ⟨entries, hvalue⟩ | ⟨xs, hvalue⟩
  · obtain ⟨inner, hinner⟩ := @write_dict F floats entries
    have hbetween := between_self '\x7b' '\x7d' inner
    rw [← hinner, ← hvalue] at hbetween
    rw [readBetween, hbetween]
    simp only [hloads]
  · obtain ⟨inner, hinner⟩ := @write_list F floats xs
    have hbetween := between_self '[' ']' inner
    rw [← hinner, ← hvalue] at hbetween
    have hbrackets : readBetween floats (write floats document.value) [('[', ']')] = .ok document.value := by
      rw [readBetween, hbetween]
      simp only [hloads]
    rw [readBetween]
    split
    · exact hbrackets
    · rename_i slice hslice
      rw [h.braces ⟨xs, hvalue⟩ slice hslice]
      exact hbrackets

theorem isMark_backtick : IsMark '\u0060' where
  printable := by decide
  cuts := ⟨by decide, by decide⟩
  number := by unfold InNumber; decide
  syntactic := by decide

theorem cuts_of_opener {opener closer : Char} (h : (opener, closer) ∈ [('\x7b', '\x7d'), ('[', ']')]) : Cuts opener := by
  simp only [List.mem_cons, Prod.mk.injEq, List.not_mem_nil, or_false] at h
  rcases h with ⟨rfl, _⟩ | ⟨rfl, _⟩
  · exact ⟨by decide, by decide⟩
  · exact ⟨by decide, by decide⟩

/-- What is read of a part of a text has a mark no more often than that part, and what stands before it is left. -/
theorem count_le_of_readBetween {m : Char} (hm : IsMark m) {before part after : List Char} {value : Value F}
    (hlexes : Lex.plain.Lexes (before ++ (part ++ after)))
    (h : readBetween floats part [('\x7b', '\x7d'), ('[', ']')] = .ok value) :
    ∃ skipped, Lex.plain.marks m (before ++ skipped) + count m value ≤ Lex.plain.marks m (before ++ (part ++ after)) := by
  obtain ⟨⟨opener, closer⟩, hpair, slice, hslice, hloads⟩ := readBetween_ok h
  obtain ⟨skipped, rest, behind, rfl, rfl⟩ := between_some hslice
  have hcut : before ++ ((skipped ++ (opener :: rest ++ behind)) ++ after) =
      (before ++ skipped) ++ (opener :: rest ++ (behind ++ after)) := by simp
  rw [hcut] at hlexes ⊢
  have hmarks := marks_cut (m := m) (cuts_of_opener hpair) hlexes
  dsimp only at hloads
  have hcount := marks_loads hm hloads
  exact ⟨skipped, by omega⟩

theorem fenced_getD (text : List Char) : ∃ before after, text = before ++ ((fenced text).getD text ++ after) := by
  cases hfenced : fenced text with
  | none => exact ⟨[], [], by simp⟩
  | some group =>
    obtain ⟨before, name, rest, htext⟩ := fenced_some hfenced
    exact ⟨before ++ (fenceMark ++ name), fenceMark ++ rest, by rw [Option.getD_some, htext]; simp⟩

theorem noThought_of_parse (h : parseJson floats (write floats document.value) = .ok document.value) :
    ¬Encloses thinkOpening thinkClosing (write floats document.value) := by
  intro hthought
  have hneat := neat_write isMark_less document.value document.plain
  obtain ⟨hlexes, hcase⟩ := @lexes_substitute .plain none _ hneat.lexes
  have hless := hcase.resolve_left (substitute_ne_self hthought)
  rw [hneat.marks] at hless
  unfold parseJson at h
  dsimp only at h
  change Lex.plain.Lexes (withoutThoughts (write floats document.value)) at hlexes
  change Lex.plain.marks '<' (withoutThoughts (write floats document.value)) < _ at hless
  generalize withoutThoughts (write floats document.value) = cleaned at h hlexes hless
  obtain ⟨before, after, hparts⟩ := fenced_getD cleaned
  generalize (fenced cleaned).getD cleaned = part at h hparts
  rw [hparts] at hlexes hless
  obtain ⟨skipped, hcount⟩ := count_le_of_readBetween isMark_less hlexes h
  omega

/-- Where a fence is opened and closed, the document is not read. -/
theorem noFence_of_parse (h : parseJson floats (write floats document.value) = .ok document.value)
    (hthought : ¬Encloses thinkOpening thinkClosing (write floats document.value)) :
    ¬Encloses fenceMark fenceMark (write floats document.value) := by
  intro hfence
  have hneat := neat_write isMark_backtick document.value document.plain
  have hwithout : withoutThoughts (write floats document.value) = write floats document.value :=
    substitute_of_not_encloses hthought
  obtain ⟨group, hgroup⟩ := exists_fenced hfence
  obtain ⟨before, name, rest, htext⟩ := fenced_some hgroup
  unfold parseJson at h
  dsimp only at h
  rw [hwithout, hgroup, Option.getD_some] at h
  have hparts : write floats document.value =
      (before ++ '\u0060' :: ('\u0060' :: '\u0060' :: name)) ++ (group ++ (fenceMark ++ rest)) := by
    rw [htext]
    simp [fenceMark]
  have hlexes := hneat.lexes
  have hmarks := hneat.marks
  rw [hparts] at hlexes hmarks
  obtain ⟨skipped, hcount⟩ := count_le_of_readBetween isMark_backtick hlexes h
  rw [hmarks] at hcount
  have hplain : Lex.plain.after before = .plain := by
    rw [List.append_assoc, List.cons_append] at hlexes
    exact Lex.after_of_cuts hlexes isMark_backtick.cuts
  have hpos : 0 < Lex.plain.marks '\u0060' ((before ++ '\u0060' :: ('\u0060' :: '\u0060' :: name)) ++ skipped) := by
    have hfirst : Lex.plain.mark '\u0060' '\u0060' = 1 := rfl
    rw [List.append_assoc, List.cons_append, Lex.marks_append, hplain, Lex.marks, hfirst]
    omega
  omega

theorem braces_of_parse {xs : List (Value F)} {slice : List Char}
    (h : readBetween floats (write floats document.value) [('\x7b', '\x7d'), ('[', ']')] = .ok document.value)
    (hvalue : document.value = .list xs) (hslice : between '\x7b' '\x7d' (write floats document.value) = some slice) :
    loads floats slice = .error .decode := by
  rw [readBetween, hslice] at h
  dsimp only at h
  split at h
  · rename_i value hloads
    obtain ⟨_, rest, _, _, rfl⟩ := between_some hslice
    obtain ⟨entries, hentries⟩ := isDict_of_loads hloads
    cases h
    rw [hvalue] at hentries
    cases hentries
  · rename_i hloads
    exact hloads
  · cases h

/-- What `json.dumps` writes of an object or an array is read as it exactly under the condition. -/
theorem parse_dumps_iff (document : Document floats) : document.ReadsBack ↔ document.Recoverable := by
  constructor
  · rintro ⟨text, hdumps, hparse⟩
    unfold dumps at hdumps
    split at hdumps
    · rename_i hshort
      cases hdumps
      have hthought := noThought_of_parse hparse
      have hfence := noFence_of_parse hparse hthought
      rw [parseJson_eq hthought hfence] at hparse
      obtain ⟨_, _, _, _, hloads⟩ := readBetween_ok hparse
      refine ⟨hshort, unpaired_loads hloads, hthought, hfence, ?_⟩
      rintro ⟨xs, hvalue⟩ slice hslice
      exact braces_of_parse hparse hvalue hslice
    · cases hdumps
  · exact Document.Recoverable.readsBack

end Documents

theorem literal_sample : IsFloatLiteral ['1', '.', '5'] :=
  ⟨[], ['1'], ['.', '5'], [], rfl, .inl rfl, rfl, .inr ⟨['5'], rfl, List.cons_ne_nil _ _, by simp⟩, .inl rfl,
    fun h => List.cons_ne_nil _ _ h.1⟩

/-- A type with the one float `1.5`. -/
def sampleFloats : Floats Unit where
  finite _ := True
  repr _ := ['1', '.', '5']
  parse _ := ()
  nan := ()
  infinity := ()
  negInfinity := ()
  repr_literal _ _ := literal_sample
  parse_repr _ _ := rfl

/-- `{"a": 1}` -/
def sampleObject : Value Unit := .dict [([97], .int 1)]

theorem sample_plain : Everywhere (Plain sampleFloats) (.list [sampleObject]) :=
  ⟨trivial, ⟨List.nodup_singleton _, trivial, trivial⟩, trivial⟩

/-- `[{"a": 1}]` -/
def sampleArray : Document sampleFloats := ⟨.list [sampleObject], sample_plain, .inr ⟨_, rfl⟩⟩

theorem sample_parsed : parseJson sampleFloats (write sampleFloats sampleArray.value) = .ok sampleObject := by
  rfl

/-- The object is returned without the array around it. -/
theorem array_not_read_back : ¬∀ document : Document sampleFloats, document.ReadsBack := by
  intro h
  obtain ⟨text, hdumps, hparse⟩ := h sampleArray
  unfold dumps at hdumps
  split at hdumps
  · cases hdumps
    rw [sample_parsed] at hparse
    cases hparse
  · cases hdumps

end ModelReply

end AllTomorrow
