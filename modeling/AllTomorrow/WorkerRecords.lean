import AllTomorrow.DomainRecords
import AllTomorrow.JsonText
import Mathlib.Data.List.DropRight

/-!
# The records of a worker

`_json_records` of `adapters/workers.py` on JSON Lines. The lines are those of `str.splitlines`, which also ends a line
at U+0085, U+2028 and U+2029; these may stand in the strings of a JSON text as they are.
-/

namespace AllTomorrow.WorkerRecords

abbrev CodePoint := Fin 1114112

abbrev Text := List CodePoint

def isBlank (c : CodePoint) : Bool := c.val = 32 || (9 ≤ c.val && c.val ≤ 10) || c.val = 13

/-- The code points that `str.strip` removes. -/
def isSpace (c : CodePoint) : Bool :=
  let n := c.val
  (9 ≤ n && n ≤ 13) || (28 ≤ n && n ≤ 32) || n = 0x85 || n = 0xa0 || n = 0x1680 ||
    (0x2000 ≤ n && n ≤ 0x200a) || n = 0x2028 || n = 0x2029 || n = 0x202f || n = 0x205f || n = 0x3000

def isLineBreak (c : CodePoint) : Bool :=
  let n := c.val
  (10 ≤ n && n ≤ 13) || (28 ≤ n && n ≤ 30) || n = 0x85 || n = 0x2028 || n = 0x2029

/-- `str.splitlines` -/
def splitlines : Text → List Text
  | [] => []
  | 13 :: 10 :: rest => [] :: splitlines rest
  | c :: rest =>
    if isLineBreak c then [] :: splitlines rest
    else match splitlines rest with
      | [] => [[c]]
      | line :: lines => (c :: line) :: lines

/-- What `json.loads` raises: `JSONDecodeError`, or another exception. -/
inductive LoadError where
  | decode
  | other (e : Exn)

/-- `json.dumps(v, ensure_ascii=False)`, `json.loads` and the values of JSON. An object is read back, with white space
around it too; with anything else after it, or without its end, it is no JSON. -/
structure Json (V : Type) where
  isDict : V → Bool
  asList : V → Option (List V)
  dumps : V → Text
  loads : Text → Except LoadError V
  asList_dict : ∀ v, isDict v = true → asList v = none
  loads_dumps : ∀ v before after, isDict v = true → before.all isBlank = true → after.all isBlank = true →
    loads (before ++ (dumps v ++ after)) = .ok v
  loads_extra : ∀ v before after, isDict v = true → before.all isBlank = true → after.all isBlank = false →
    loads (before ++ (dumps v ++ after)) = .error .decode
  loads_unfinished : ∀ v part, isDict v = true → part ≠ [] → part <+: dumps v → part ≠ dumps v →
    loads part = .error .decode
  dumps_head : ∀ v, isDict v = true → ∃ rest, dumps v = 123 :: rest

variable {V : Type} (json : Json V)

/-- `[json.loads(line) for line in output.splitlines() if line.strip()]` -/
def readLines (output : Text) : Except LoadError (List V) :=
  ((splitlines output).filter fun line => !line.all isSpace).mapM json.loads

/-- `_json_records` -/
def jsonRecords (output : Text) : Except LoadError (List V) := do
  let records ← match json.loads output with
    | .ok v => pure ((json.asList v).getD [v])
    | .error .decode => readLines json output
    | .error e => throw e
  if records.isEmpty || records.any fun v => !json.isDict v then
    throw (.other (.valueError "Expected JSON objects from worker"))
  return records

/-! ## JSON Lines -/

inductive Line (V : Type) where
  | object (v : V)
  | blank (spaces : Text) (plain : ∀ c ∈ spaces, c = 32 ∨ c = 9)

def Line.text : Line V → Text
  | .object v => json.dumps v
  | .blank spaces _ => spaces

def Line.objects : Line V → List V
  | .object v => [v]
  | .blank _ _ => []

/-- The lines joined by newlines; a last line of no characters is a final newline. -/
def joined : List (Line V) → Text
  | [] => []
  | [line] => line.text json
  | line :: lines => line.text json ++ 10 :: joined lines

/-- The text of the object holds no character that ends a line. Only U+0085, U+2028 and U+2029 are written unescaped. -/
def Unbroken (v : V) : Prop := ∀ c ∈ json.dumps v, isLineBreak c = false

theorem splitlines_append {line : Text} (h : ∀ c ∈ line, isLineBreak c = false) (rest : Text) :
    splitlines (line ++ 10 :: rest) = line :: splitlines rest := by
  induction line with
  | nil =>
    rw [List.nil_append, splitlines]
    · rfl
    · intro _ heq
      cases heq
  | cons c line ih =>
    obtain ⟨hc, hline⟩ := List.forall_mem_cons.mp h
    rw [List.cons_append, splitlines, hc, ih hline]
    · rfl
    · rintro _ rfl
      cases hc

theorem splitlines_unbroken {line : Text} (h : ∀ c ∈ line, isLineBreak c = false) (hne : line ≠ []) :
    splitlines line = [line] := by
  induction line with
  | nil => exact absurd rfl hne
  | cons c line ih =>
    obtain ⟨hc, hline⟩ := List.forall_mem_cons.mp h
    rw [splitlines, hc]
    · cases line with
      | nil => rfl
      | cons d line => rw [ih hline (List.cons_ne_nil d line)]; rfl
    · rintro _ rfl
      cases hc

/-- The first line of a broken text ends before the character that breaks it. -/
theorem splitlines_broken {text : Text} (h : ¬∀ c ∈ text, isLineBreak c = false) (rest : Text) :
    ∃ line lines, splitlines (text ++ rest) = line :: lines ∧ line <+: text ∧ line ≠ text := by
  induction text with
  | nil => simp at h
  | cons c text ih =>
    by_cases hc : isLineBreak c = true
    · refine ⟨[], ?_⟩
      rw [List.cons_append]
      unfold splitlines
      split
      · rename_i heq
        cases heq
      · exact ⟨_, rfl, List.nil_prefix, nofun⟩
      · rename_i heq
        obtain ⟨rfl, rfl⟩ := List.cons.inj heq
        exact ⟨_, if_pos hc, List.nil_prefix, nofun⟩
    · have hbreak : isLineBreak c = false := Bool.eq_false_of_not_eq_true hc
      obtain ⟨line, lines, hsplit, hstart, hne⟩ := ih fun hall => h (List.forall_mem_cons.mpr ⟨hbreak, hall⟩)
      refine ⟨c :: line, lines, ?_, List.cons_prefix_cons.mpr ⟨rfl, hstart⟩, fun heq => hne (List.cons.inj heq).2⟩
      rw [List.cons_append, splitlines, hbreak, hsplit]
      · rfl
      · rintro _ rfl
        cases hbreak

def objects (lines : List (Line V)) : List V := lines.flatMap Line.objects

variable {json}

theorem blank_plain {spaces : Text} (h : ∀ c ∈ spaces, c = 32 ∨ c = 9) :
    (∀ c ∈ spaces, isLineBreak c = false) ∧ spaces.all isSpace = true ∧ spaces.all isBlank = true := by
  simp only [List.all_eq_true]
  refine ⟨fun c hc => ?_, fun c hc => ?_, fun c hc => ?_⟩ <;> rcases h c hc with rfl | rfl <;> rfl

theorem not_all_dumps {v : V} (hv : json.isDict v = true) {p : CodePoint → Bool} (hp : p 123 = false) (rest : Text) :
    (json.dumps v ++ rest).all p = false := by
  obtain ⟨text, htext⟩ := json.dumps_head v hv
  simp [htext, hp]

theorem all_isBlank_joined {lines : List (Line V)} (h : ∀ v ∈ objects lines, json.isDict v = true) :
    (joined json lines).all isBlank = (objects lines).isEmpty := by
  induction lines with
  | nil => rfl
  | cons line lines ih =>
    have htail := ih fun v hv => h v (List.mem_append_right _ hv)
    cases line with
    | object v =>
      have hv := h v List.mem_cons_self
      cases lines with
      | nil => simpa [joined, Line.text, objects, Line.objects] using not_all_dumps hv (p := isBlank) rfl []
      | cons line lines => exact not_all_dumps hv rfl _
    | blank spaces plain =>
      have hspaces := (blank_plain plain).2.2
      cases lines with
      | nil => exact hspaces
      | cons line lines =>
        change (spaces ++ 10 :: joined json (line :: lines)).all isBlank = (objects (line :: lines)).isEmpty
        rw [List.all_append, hspaces, Bool.true_and, List.all_cons, htail]
        rfl

/-- Around the first object stands white space, with nothing else exactly if there is no other object. -/
theorem joined_first {lines : List (Line V)} {v : V} {vs : List V} (hobjects : objects lines = v :: vs)
    (h : ∀ v ∈ objects lines, json.isDict v = true) :
    ∃ before after, joined json lines = before ++ (json.dumps v ++ after) ∧ before.all isBlank = true ∧
      after.all isBlank = vs.isEmpty := by
  induction lines with
  | nil => cases hobjects
  | cons line lines ih =>
    have hdicts : ∀ v ∈ objects lines, json.isDict v = true := fun v hv => h v (List.mem_append_right _ hv)
    cases line with
    | object u =>
      obtain ⟨rfl, rfl⟩ := List.cons.inj hobjects
      cases lines with
      | nil => exact ⟨[], [], by simp [joined, Line.text], rfl, rfl⟩
      | cons line lines =>
        refine ⟨[], 10 :: joined json (line :: lines), rfl, rfl, ?_⟩
        rw [List.all_cons, all_isBlank_joined hdicts]
        rfl
    | blank spaces plain =>
      cases lines with
      | nil => cases hobjects
      | cons line lines =>
        obtain ⟨before, after, htext, hbefore, hafter⟩ := ih hobjects hdicts
        refine ⟨spaces ++ 10 :: before, after, ?_, ?_, hafter⟩
        · change spaces ++ 10 :: joined json (line :: lines) = _
          rw [htext, List.append_assoc, List.cons_append]
        · rw [List.all_append, (blank_plain plain).2.2, Bool.true_and, List.all_cons, hbefore]
          rfl

theorem readLines_broken {v : V} (hv : json.isDict v = true) (h : ¬Unbroken json v) (rest : Text) (vs : List V) :
    readLines json (json.dumps v ++ rest) ≠ .ok vs := by
  obtain ⟨text, htext⟩ := json.dumps_head v hv
  have hbroken : ¬∀ c ∈ text, isLineBreak c = false :=
    fun hall => h (by rw [Unbroken, htext]; exact List.forall_mem_cons.mpr ⟨rfl, hall⟩)
  obtain ⟨part, lines, hsplit, hstart, hne⟩ := splitlines_broken hbroken rest
  have hlines : splitlines (json.dumps v ++ rest) = (123 :: part) :: lines := by
    rw [htext, List.cons_append, splitlines, hsplit]
    · rfl
    · nofun
  have hunfinished : json.loads (123 :: part) = .error .decode := by
    refine json.loads_unfinished v _ hv (List.cons_ne_nil _ _) (htext ▸ List.cons_prefix_cons.mpr ⟨rfl, hstart⟩) ?_
    rw [htext]
    exact fun heq => hne (List.cons.inj heq).2
  rw [readLines, hlines, List.filter_cons_of_pos (by simp [show isSpace 123 = false from rfl]), List.mapM_cons, hunfinished]
  nofun

/-- The first line is read by itself, or skipped. -/
theorem readLines_joined {line : Line V} (h : ∀ c ∈ line.text json, isLineBreak c = false) (lines : List (Line V)) :
    readLines json (joined json (line :: lines)) =
      if (line.text json).all isSpace then readLines json (joined json lines)
      else do return (← json.loads (line.text json)) :: (← readLines json (joined json lines)) := by
  have hfilter : (splitlines (joined json (line :: lines))).filter (fun l => !l.all isSpace) =
      (line.text json :: splitlines (joined json lines)).filter fun l => !l.all isSpace := by
    cases lines with
    | cons next lines =>
      change (splitlines (line.text json ++ 10 :: joined json (next :: lines))).filter _ = _
      rw [splitlines_append h]
    | nil =>
      change (splitlines (line.text json)).filter _ = _
      by_cases hne : line.text json = []
      · rw [hne]
        rfl
      · rw [splitlines_unbroken h hne]
        rfl
  rw [readLines, hfilter, List.filter_cons]
  cases hspace : (line.text json).all isSpace with
  | true => rfl
  | false =>
    rw [Bool.not_false, if_pos rfl, List.mapM_cons]
    rfl

/-- Reading line by line gives the objects exactly if none of them is broken. -/
theorem readLines_iff {lines : List (Line V)} (h : ∀ v ∈ objects lines, json.isDict v = true) :
    readLines json (joined json lines) = .ok (objects lines) ↔ ∀ v ∈ objects lines, Unbroken json v := by
  induction lines with
  | nil => exact iff_of_true rfl fun v hv => by cases hv
  | cons line lines ih =>
    have htail := ih fun v hv => h v (List.mem_append_right _ hv)
    cases line with
    | blank spaces plain =>
      rw [@readLines_joined _ json (.blank spaces plain) (blank_plain plain).1, Line.text, if_pos (blank_plain plain).2.1]
      exact htail
    | object v =>
      have hv := h v List.mem_cons_self
      change _ ↔ ∀ u ∈ v :: objects lines, Unbroken json u
      rw [List.forall_mem_cons]
      by_cases hplain : Unbroken json v
      · have hspace : (json.dumps v).all isSpace = false := by simpa using not_all_dumps hv (p := isSpace) rfl []
        have hloads : json.loads (json.dumps v) = .ok v := by simpa using json.loads_dumps v [] [] hv rfl rfl
        rw [@readLines_joined _ json (.object v) hplain, Line.text, hspace, if_neg Bool.false_ne_true, hloads,
          ← htail, and_iff_right hplain]
        change (readLines json (joined json lines) >>= fun vs => Except.ok (v :: vs)) = .ok (v :: objects lines) ↔ _
        cases readLines json (joined json lines) with
        | error e => exact iff_of_false nofun nofun
        | ok vs => simp [bind, Except.bind]
      · refine iff_of_false ?_ fun hall => hplain hall.1
        cases lines with
        | nil => simpa [joined, Line.text] using readLines_broken hv hplain [] (objects [.object v])
        | cons line lines => exact readLines_broken hv hplain _ _

/-- JSON Lines are read back exactly if they hold one object, or none of the objects is broken; the list itself is read
back in any case. -/
theorem jsonRecords_iff {lines : List (Line V)} {whole : V} (h : ∀ v ∈ objects lines, json.isDict v = true)
    (hne : objects lines ≠ []) (hlist : json.asList whole = some (objects lines))
    (hwhole : json.loads (json.dumps whole) = .ok whole) :
    jsonRecords json (joined json lines) = .ok (objects lines) ∧ jsonRecords json (json.dumps whole) = .ok (objects lines) ↔
      (objects lines).length = 1 ∨ ∀ v ∈ objects lines, Unbroken json v := by
  have hchecked : ((objects lines).isEmpty || (objects lines).any fun v => !json.isDict v) = false := by
    rw [Bool.or_eq_false_iff]
    exact ⟨by simpa using hne, by simpa using h⟩
  have hreturns : jsonRecords json (json.dumps whole) = .ok (objects lines) := by
    simp [jsonRecords, hwhole, hlist, hchecked, bind, Except.bind, pure, Except.pure]
  rw [and_iff_left hreturns]
  cases hobjects : objects lines with
  | nil => exact absurd hobjects hne
  | cons v vs =>
    obtain ⟨before, after, htext, hbefore, hafter⟩ := joined_first hobjects h
    have hv : json.isDict v = true := h v (hobjects ▸ List.mem_cons_self)
    cases vs with
    | nil =>
      refine iff_of_true ?_ (.inl rfl)
      rw [hobjects] at hchecked
      simp [jsonRecords, htext, json.loads_dumps v before after hv hbefore hafter, json.asList_dict v hv, hv, bind, Except.bind,
        pure, Except.pure]
    | cons u vs =>
      have hdecode : json.loads (joined json lines) = .error .decode := by
        rw [htext]
        exact json.loads_extra v before after hv hbefore hafter
      have hread := readLines_iff h
      rw [hobjects] at hread hchecked
      have hlength : ¬(v :: u :: vs).length = 1 := by simp
      rw [or_iff_right hlength, ← hread]
      simp only [jsonRecords, hdecode, bind, Except.bind]
      cases hlines : readLines json (joined json lines) with
      | error e => exact iff_of_false nofun nofun
      | ok records =>
        by_cases hsame : records = v :: u :: vs
        · rw [hsame]
          refine iff_of_true ?_ rfl
          simp only [hchecked, Bool.false_eq_true, if_false, pure, Except.pure]
        · refine iff_of_false (fun heq => hsame ?_) fun heq => hsame (Except.ok.inj heq)
          dsimp only at heq
          split at heq
          · cases heq
          · exact Except.ok.inj heq

/-! One object with a line separator in a string, and lists of it. -/

/-- The object with the key `a` and a value of one U+2028. -/
def separatorText : Text := [123, 34, 97, 34, 58, 32, 34, 8232, 34, 125]

def trimBlanks (t : Text) : Text := (t.dropWhile isBlank).rdropWhile isBlank

/-- The values are the object, and the list of so many of it; the list of two is the only one that is read. -/
def separatorDumps : Option ℕ → Text
  | none => separatorText
  | some n => 91 :: ([44, 32].intercalate (List.replicate n separatorText) ++ [93])

def separatorLoads (t : Text) : Except LoadError (Option ℕ) :=
  if t.head? = some 91 then if t = separatorDumps (some 2) then .ok (some 2) else .error .decode
  else if trimBlanks t = separatorText then .ok none else .error .decode

theorem head_separator {before : Text} (h : before.all isBlank = true) (after : Text) :
    (before ++ (separatorText ++ after)).head? ≠ some 91 := by
  cases before with
  | nil => nofun
  | cons c before =>
    rw [List.cons_append, List.head?_cons]
    rintro ⟨⟩
    exact absurd h (by simp [isBlank])

theorem trimBlanks_separator {before : Text} (h : before.all isBlank = true) (after : Text) :
    trimBlanks (before ++ (separatorText ++ after)) = separatorText ++ after.rdropWhile isBlank := by
  rw [trimBlanks, List.dropWhile_append_of_pos (List.all_eq_true.mp h)]
  change (separatorText ++ after).rdropWhile isBlank = _
  simp only [List.rdropWhile, List.reverse_append, List.dropWhile_append]
  split
  · rename_i hempty
    rw [List.isEmpty_iff.mp hempty]
    decide
  · rw [List.reverse_append, List.reverse_reverse]

theorem separator_dict {v : Option ℕ} (h : v.isNone = true) : v = none := Option.isNone_iff_eq_none.mp h

theorem separator_asList (v : Option ℕ) (h : v.isNone = true) : (v.map fun n => List.replicate n (none : Option ℕ)) = none := by
  rw [separator_dict h]
  rfl

theorem separator_loads (v : Option ℕ) (before after : Text) (h : v.isNone = true) (hbefore : before.all isBlank = true)
    (hafter : after.all isBlank = true) : separatorLoads (before ++ (separatorDumps v ++ after)) = .ok v := by
  have hnil : after.rdropWhile isBlank = [] := List.rdropWhile_eq_nil_iff.mpr (List.all_eq_true.mp hafter)
  rw [separator_dict h, separatorDumps, separatorLoads, if_neg (head_separator hbefore after),
    trimBlanks_separator hbefore, hnil, List.append_nil, if_pos rfl]

theorem separator_extra (v : Option ℕ) (before after : Text) (h : v.isNone = true) (hbefore : before.all isBlank = true)
    (hafter : after.all isBlank = false) : separatorLoads (before ++ (separatorDumps v ++ after)) = .error .decode := by
  have hrest : separatorText ++ after.rdropWhile isBlank ≠ separatorText := by
    intro heq
    have hnil := List.append_right_eq_self.mp heq
    rw [List.rdropWhile_eq_nil_iff, ← List.all_eq_true, hafter] at hnil
    exact Bool.false_ne_true hnil
  rw [separator_dict h, separatorDumps, separatorLoads, if_neg (head_separator hbefore after),
    trimBlanks_separator hbefore, if_neg hrest]

theorem separator_unfinished (v : Option ℕ) (part : Text) (h : v.isNone = true) (hne : part ≠ [])
    (hstart : part <+: separatorDumps v) (hpart : part ≠ separatorDumps v) : separatorLoads part = .error .decode := by
  rw [separator_dict h] at hstart hpart
  have hhead : part.head? ≠ some 91 := by
    obtain ⟨rest, heq⟩ := hstart
    cases part with
    | nil => exact absurd rfl hne
    | cons c part =>
      obtain ⟨rfl, _⟩ := List.cons.inj heq
      nofun
  have htrim : trimBlanks part ≠ separatorText := by
    intro heq
    have hle : (trimBlanks part).length ≤ part.length :=
      (List.rdropWhile_prefix _ _).length_le.trans (List.dropWhile_suffix _).length_le
    rw [heq] at hle
    exact hpart (hstart.eq_of_length_le hle)
  rw [separatorLoads, if_neg hhead, if_neg htrim]

theorem separator_head (v : Option ℕ) (h : v.isNone = true) : ∃ rest, separatorDumps v = 123 :: rest :=
  ⟨_, by rw [separator_dict h]; rfl⟩

def separatorJson : Json (Option ℕ) where
  isDict := Option.isNone
  asList v := v.map fun n => List.replicate n none
  dumps := separatorDumps
  loads := separatorLoads
  asList_dict := separator_asList
  loads_dumps := separator_loads
  loads_extra := separator_extra
  loads_unfinished := separator_unfinished
  dumps_head := separator_head

def twoSeparators : List (Line (Option ℕ)) := [.object none, .object none]

theorem jsonRecords_iff_twoSeparators :
    jsonRecords separatorJson (joined separatorJson twoSeparators) = .ok (objects twoSeparators) ∧
        jsonRecords separatorJson (separatorDumps (some 2)) = .ok (objects twoSeparators) ↔
      (objects twoSeparators).length = 1 ∨ ∀ v ∈ objects twoSeparators, Unbroken separatorJson v :=
  @jsonRecords_iff _ separatorJson twoSeparators (some 2) (by decide) (by decide) rfl rfl

theorem twoSeparators_not_read :
    ¬∀ (V : Type) (json : Json V) (lines : List (Line V)), (∀ v ∈ objects lines, json.isDict v = true) → objects lines ≠ [] →
      jsonRecords json (joined json lines) = .ok (objects lines) := by
  intro h
  have hread := h (Option ℕ) separatorJson twoSeparators (by decide) (by decide)
  cases hread

end AllTomorrow.WorkerRecords
