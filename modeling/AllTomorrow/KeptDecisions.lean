import AllTomorrow.MachineRuns
import AllTomorrow.WorkerRecords

/-!
# The decisions of a synthesis

`section`, `bullets` and `keep_decided` of `ideas_rounds.py`, on the code points of a text. What the user decided stands
in a section that a new synthesis may leave out.
-/

namespace AllTomorrow.IdeasRounds

open MachineRuns (EveryStep run)
open WorkerRecords (CodePoint Text isLineBreak isSpace splitlines splitlines_append splitlines_unbroken)

/-- `정해진 것` -/
def decided : Text := [0xC815, 0xD574, 0xC9C4, 32, 0xAC83]

/-- `없음` and `없음.` -/
def placeholders : List Text := [[0xC5C6, 0xC74C], [0xC5C6, 0xC74C, 46]]

def rstrip (t : Text) : Text := t.rdropWhile isSpace

def strip (t : Text) : Text := (rstrip t).dropWhile isSpace

/-! ## The headings -/

/-- What follows `#{1,6}`. Neither pattern goes on with another hash sign. -/
def afterHashes (t : Text) : Option Text :=
  let n := (t.takeWhile (· = 35)).length
  if 1 ≤ n ∧ n ≤ 6 then some (t.dropWhile (· = 35)) else none

/-- `#{1,6}\s` -/
def isHeading (t : Text) : Bool := (afterHashes t).any fun u => u.head?.any isSpace

/-- What follows `#{1,6}\s*정해진 것[^\n]*\n`. -/
def afterDecided (t : Text) : Option Text :=
  (afterHashes t).bind fun u =>
    let name := u.dropWhile isSpace
    if decided <+: name then ((name.drop decided.length).dropWhile (· ≠ 10)).tail? else none

/-- `text[:m.end()]` and `text[m.end():]` for the first line with that heading; `start` says that a line starts here. -/
def findDecided : Bool → Text → Option (Text × Text)
  | _, [] => none
  | start, c :: t =>
    match if start then afterDecided (c :: t) else none with
    | some rest => some ((c :: t).take ((c :: t).length - rest.length), rest)
    | none => (findDecided (c = 10) t).map fun (head, rest) => (c :: head, rest)

def untilHeading : Bool → Text → Text × Text
  | _, [] => ([], [])
  | start, c :: t =>
    if start && isHeading (c :: t) then ([], c :: t)
    else (c :: (untilHeading (c = 10) t).1, (untilHeading (c = 10) t).2)

/-- `section(synth, "정해진 것")` -/
def decidedSection (synth : Text) : Text :=
  match findDecided true synth with
  | some (_, rest) => strip (untilHeading true rest).1
  | none => []

/-- `re.sub(r"^[-*]\s+", "", line).strip()`, if it is a bullet. -/
def bulletItem : Text → Option Text
  | c :: d :: rest => if (c = 45 ∨ c = 42) ∧ isSpace d then some (strip (rest.dropWhile isSpace)) else none
  | _ => none

def addLine (items : List Text) (line : Text) : List Text :=
  match bulletItem line, items.getLast? with
  | some item, _ => items ++ [item]
  | none, some last =>
    if strip line ≠ [] ∧ line.head?.any isSpace then items.dropLast ++ [last ++ 32 :: strip line] else items
  | none, none => items

def stays (item : Text) : Bool := item ≠ [] ∧ item ∉ placeholders

def bullets (text : Text) : List Text := ((splitlines text).foldl addLine []).filter stays

/-- `re.sub(r"\s+", " ", s)`, after a space or not -/
def collapse : Bool → Text → Text
  | _, [] => []
  | spaced, c :: t =>
    if isSpace c then (if spaced then collapse true t else 32 :: collapse true t) else c :: collapse false t

def plain (s : Text) : Text := strip (collapse false s)

/-- `bullets(section(synth, "정해진 것"))` -/
def decisions (synth : Text) : List Text := bullets (decidedSection synth)

def lost (previous text : Text) : List Text :=
  (decisions previous).filter fun b => plain b ∉ (decisions text).map plain

def dashed (b : Text) : Text := 45 :: 32 :: b

/-- `"\n".join` -/
def joinLines : List Text → Text
  | [] => []
  | [line] => line
  | line :: lines => line ++ 10 :: joinLines lines

def keepDecided (previous text : Text) : Text :=
  if lost previous text = [] then text
  else
    let add := joinLines ((lost previous text).map dashed)
    match findDecided true text with
    | none => 35 :: 35 :: 32 :: decided ++ 10 :: add ++ 10 :: 10 :: text
    | some (head, rest) =>
      let body := rstrip (untilHeading true rest).1
      head ++ (if strip body ∈ placeholders then [] else body ++ [10]) ++ add ++
        10 :: 10 :: (untilHeading true rest).2.dropWhile (· = 10)

def plains (synth : Text) : List Text := (decisions synth).map plain

/-! ## Where the headings stand -/

variable {t : Text}

theorem afterHashes_append (h : ∃ c ∈ t, c ≠ 35) (x : Text) :
    afterHashes (t ++ x) = (afterHashes t).map fun u => u ++ x := by
  have hshort : (t.takeWhile (· = 35)).length ≠ t.length := by
    intro hlength
    obtain ⟨c, hc, hne⟩ := h
    rw [← (List.takeWhile_sublist _).eq_of_length hlength] at hc
    exact hne (by simpa using List.mem_takeWhile_imp hc)
  have hrest : (t.dropWhile (· = 35)).isEmpty = false := by
    obtain ⟨c, hc, hne⟩ := h
    rw [List.isEmpty_eq_false_iff]
    exact fun hnil => hne (by simpa using List.dropWhile_eq_nil_iff.mp hnil c hc)
  simp only [afterHashes, List.takeWhile_append, if_neg hshort, List.dropWhile_append, hrest]
  split <;> simp

theorem isHeading_append (h : ∃ c ∈ t, c ≠ 35) (x : Text) : isHeading (t ++ x) = isHeading t := by
  unfold isHeading
  rw [afterHashes_append h]
  cases hafter : afterHashes t with
  | none => rfl
  | some u =>
    unfold afterHashes at hafter
    dsimp only at hafter
    split at hafter
    · cases hafter
      cases hrest : t.dropWhile (· = 35) with
      | nil =>
        obtain ⟨c, hc, hne⟩ := h
        exact absurd (by simpa using List.dropWhile_eq_nil_iff.mp hrest c hc) hne
      | cons d u => rfl
    · cases hafter

variable {d : CodePoint}

theorem dropWhile_span {p : CodePoint → Bool} {a : Text} (ha : ∀ c ∈ a, p c = true) (hd : p d = false)
    (x : Text) : (a ++ d :: x).dropWhile p = d :: x := by
  rw [List.dropWhile_append_of_pos ha, List.dropWhile_cons_of_neg (by simp [hd])]

theorem exists_span {p : CodePoint → Bool} {t x : Text} (h : t.dropWhile p = d :: x) :
    ∃ a, t = a ++ d :: x ∧ (∀ c ∈ a, p c = true) ∧ p d = false := by
  refine ⟨t.takeWhile p, by rw [← h, List.takeWhile_append_dropWhile], fun c => List.mem_takeWhile_imp, ?_⟩
  have hstop := List.head?_dropWhile_not p t
  rwa [h] at hstop

theorem afterHashes_span {q : Text} (hq : ∀ c ∈ q, c = 35) (hd : d ≠ 35) (x : Text) :
    afterHashes (q ++ d :: x) = if 1 ≤ q.length ∧ q.length ≤ 6 then some (d :: x) else none := by
  unfold afterHashes
  rw [dropWhile_span (by simpa using hq) (by simpa using hd), List.takeWhile_append_of_pos (by simpa using hq),
    List.takeWhile_cons_of_neg (by simpa using hd), List.append_nil]

/-- Hash signs alone are a heading once a space follows. -/
theorem isHeading_hashes {q : Text} (hq : ∀ c ∈ q, c = 35) (hd : isSpace d = true) (x : Text) :
    isHeading (q ++ d :: x) = decide (1 ≤ q.length ∧ q.length ≤ 6) := by
  have hne : d ≠ 35 := by
    rintro rfl
    cases hd
  rw [isHeading, afterHashes_span hq hne]
  by_cases hlength : 1 ≤ q.length ∧ q.length ≤ 6 <;> simp [hlength, hd]

structure DecidedHeading (m : Text) : Prop where
  first : 35 ∈ m
  last : m.getLast? = some 10
  found : ∀ x, afterDecided (m ++ x) = some x

theorem decidedHeading {q sp l : Text} (hq : ∀ c ∈ q, c = 35) (hlength : 1 ≤ q.length ∧ q.length ≤ 6)
    (hsp : ∀ c ∈ sp, isSpace c = true) (hl : ∀ c ∈ l, c ≠ 10) : DecidedHeading (q ++ (sp ++ (decided ++ (l ++ [10])))) := by
  refine ⟨?_, by simp [List.getLast?_append], fun x => ?_⟩
  · cases q with
    | nil => exact absurd hlength.1 (by simp)
    | cons c q =>
      rw [← hq c List.mem_cons_self]
      exact List.mem_cons_self
  · have hhashes : afterHashes (q ++ (sp ++ (decided ++ (l ++ [10]))) ++ x) = some (sp ++ (decided ++ (l ++ 10 :: x))) := by
      have hafter {d : CodePoint} (hd : d ≠ 35) (y : Text) : afterHashes (q ++ d :: y) = some (d :: y) := by
        rw [afterHashes_span hq hd, if_pos hlength]
      cases sp with
      | nil => simpa [decided] using hafter (d := 0xC815) (by decide) (decided.tail ++ (l ++ 10 :: x))
      | cons d sp =>
        have hd : d ≠ 35 := by
          rintro rfl
          cases hsp 35 List.mem_cons_self
        simpa using hafter hd (sp ++ (decided ++ (l ++ 10 :: x)))
    have hname : (sp ++ (decided ++ (l ++ 10 :: x))).dropWhile isSpace = decided ++ (l ++ 10 :: x) :=
      dropWhile_span hsp (d := 0xC815) (by decide) _
    have hline : (l ++ 10 :: x).dropWhile (· ≠ 10) = 10 :: x := dropWhile_span (by simpa using hl) (by decide) x
    rw [afterDecided, hhashes, Option.bind_some, hname, if_pos (List.prefix_append _ _), List.drop_left, hline, List.tail?_cons]

theorem exists_decidedHeading {t rest : Text} (h : afterDecided t = some rest) : ∃ m, DecidedHeading m ∧ t = m ++ rest := by
  obtain ⟨u, hu, h⟩ := Option.bind_eq_some_iff.mp h
  unfold afterHashes at hu
  dsimp only at hu h
  split at hu
  · rename_i hlength
    cases hu
    split at h
    · rename_i hname
      obtain ⟨w, hw⟩ := hname
      rw [← hw, List.drop_left] at h
      cases hline : w.dropWhile (· ≠ 10) with
      | nil =>
        rw [hline] at h
        cases h
      | cons d rest' =>
        rw [hline] at h
        cases h
        obtain ⟨l, rfl, hl, hd⟩ := exists_span hline
        have hd : d = 10 := by simpa using hd
        subst hd
        have hsplit : t.takeWhile (· = 35) ++ ((t.dropWhile (· = 35)).takeWhile isSpace ++ (decided ++ (l ++ 10 :: rest))) = t := by
          rw [hw, List.takeWhile_append_dropWhile, List.takeWhile_append_dropWhile]
        exact ⟨_, decidedHeading (fun c hc => by simpa using List.mem_takeWhile_imp hc) hlength
          (fun c => List.mem_takeWhile_imp) (by simpa using hl), by simpa using hsplit.symm⟩
    · cases h
  · cases hu

variable {c : CodePoint}

theorem mem_dropWhile_of_plain (hc : c ∈ t) (hplain : isSpace c = false) : c ∈ t.dropWhile isSpace := by
  rw [← List.takeWhile_append_dropWhile (p := isSpace) (l := t), List.mem_append] at hc
  exact hc.resolve_left fun hmem => by simp [List.mem_takeWhile_imp hmem] at hplain

/-- What stands before a later line of hash signs is no heading of the section, whatever follows. -/
theorem afterDecided_append (hhash : 35 ∈ t.dropWhile (· = 35)) (hlast : t.getLast? = some 10) (x : Text) :
    afterDecided (t ++ x) = (afterDecided t).map fun rest => rest ++ x := by
  have hend : ∃ c ∈ t, c ≠ 35 := ⟨10, List.mem_of_getLast? hlast, by decide⟩
  unfold afterDecided
  rw [afterHashes_append hend]
  unfold afterHashes
  dsimp only
  split
  · set u := t.dropWhile (· = 35) with hu
    have hname : 35 ∈ u.dropWhile isSpace := mem_dropWhile_of_plain hhash rfl
    have hdrop : (u ++ x).dropWhile isSpace = u.dropWhile isSpace ++ x := by
      rw [List.dropWhile_append, if_neg (by simpa using List.ne_nil_of_mem hname)]
    have hstart : decided <+: u.dropWhile isSpace ++ x ↔ decided <+: u.dropWhile isSpace := by
      refine ⟨fun h => ?_, fun h => h.trans (List.prefix_append _ _)⟩
      rcases List.prefix_or_prefix_of_prefix h (List.prefix_append _ _) with hstarts | hstarts
      · exact hstarts
      · exact absurd (hstarts.subset hname) (by decide)
    simp only [Option.map_some, Option.bind_some, hdrop, hstart]
    split
    · rename_i hstarts
      obtain ⟨w, hw⟩ := hstarts
      have hw10 : 10 ∈ w := by
        rw [← hw] at hname
        have hne := List.ne_nil_of_mem ((List.mem_append.mp hname).resolve_left (by decide))
        obtain ⟨front, hfront⟩ := (List.dropWhile_suffix isSpace).trans (List.dropWhile_suffix (l := t) (· = 35))
        rw [← hfront, ← hu, ← hw, ← List.append_assoc, List.getLast?_append_of_ne_nil _ hne] at hlast
        exact List.mem_of_getLast? hlast
      rw [← hw, List.append_assoc, List.drop_left, List.drop_left, List.dropWhile_append]
      cases hrest : w.dropWhile (· ≠ 10) with
      | nil => exact absurd (List.dropWhile_eq_nil_iff.mp hrest 10 hw10) (by simp)
      | cons d rest => rfl
    · rfl
  · rfl

theorem mem_dropWhile_hashes {h : Text} (hmem : 35 ∈ h.dropWhile (· ≠ 10)) : 35 ∈ h.dropWhile (· = 35) := by
  induction h with
  | nil => exact hmem
  | cons c h ih =>
    by_cases hc : c = 35
    · subst hc
      exact ih (by simpa using hmem)
    · rw [List.dropWhile_cons_of_neg (by simpa using hc)]
      exact (List.dropWhile_suffix _).subset hmem

variable {start : Bool}

/-- The search looks at nothing behind the heading that it finds. -/
theorem findDecided_append {t head rest : Text} (h : findDecided start t = some (head, rest)) :
    t = head ++ rest ∧ head.getLast? = some 10 ∧ 35 ∈ head ∧ (start = false → 35 ∈ head.dropWhile (· ≠ 10)) ∧
      ∀ x, findDecided start (head ++ x) = some (head, x) := by
  induction t generalizing start head with
  | nil => cases h
  | cons c t ih =>
    rw [findDecided] at h
    split at h
    · rename_i rest' hfound
      cases start with
      | false => cases hfound
      | true =>
        obtain ⟨m, hm, hsplit⟩ := exists_decidedHeading hfound
        cases h
        rw [hsplit, List.length_append, Nat.add_sub_cancel, List.take_left]
        refine ⟨rfl, hm.last, hm.first, nofun, fun x => ?_⟩
        cases m with
        | nil => cases hm.first
        | cons d m =>
          rw [List.cons_append, findDecided, if_pos rfl, ← List.cons_append, hm.found]
          dsimp only
          rw [List.length_append, Nat.add_sub_cancel, List.take_left]
    · rename_i hnone
      obtain ⟨⟨head', rest'⟩, hfound, heq⟩ := Option.map_eq_some_iff.mp h
      cases heq
      obtain ⟨rfl, hlast, hhash, hlater, hfind⟩ := ih hfound
      have hlast' : (c :: head').getLast? = some 10 := by rw [List.getLast?_cons, hlast]; rfl
      have hlater' : 35 ∈ (c :: head').dropWhile (· ≠ 10) := by
        by_cases hc : c = 10
        · rw [List.dropWhile_cons_of_neg (by simpa using hc)]
          exact List.mem_cons_of_mem c hhash
        · rw [List.dropWhile_cons_of_pos (by simpa using hc)]
          exact hlater (by simpa using hc)
      refine ⟨rfl, hlast', List.mem_cons_of_mem c hhash, fun _ => hlater', fun x => ?_⟩
      have hnone' : (if start then afterDecided (c :: (head' ++ x)) else none) = none := by
        cases start with
        | false => rfl
        | true =>
          have happend := afterDecided_append (mem_dropWhile_hashes hlater') hlast'
          rw [if_pos rfl, ← List.cons_append, happend, Option.map_eq_none_iff] at hnone
          rw [if_pos rfl, ← List.cons_append, happend, hnone]
          rfl
      rw [List.cons_append, findDecided, hnone', hfind]
      rfl

def LineStart (start : Bool) (t : Text) : Prop := start = true ∧ t = [] ∨ t.getLast? = some 10

theorem LineStart.cons (h : LineStart (c = 10) t) : LineStart start (c :: t) := by
  rcases h with ⟨hc, rfl⟩ | hlast
  · exact .inr (by simpa using hc)
  · exact .inr (by rw [List.getLast?_cons, hlast]; rfl)

theorem LineStart.tail (h : LineStart start (c :: t)) : LineStart (c = 10) t := by
  obtain ⟨_, hnil⟩ | hlast := h
  · cases hnil
  · cases t with
    | nil => exact .inl ⟨by simpa using hlast, rfl⟩
    | cons d t => exact .inr (by simpa using hlast)

theorem untilHeading_split (start : Bool) (t : Text) : (untilHeading start t).1 ++ (untilHeading start t).2 = t ∧
      untilHeading true (untilHeading start t).2 = ([], (untilHeading start t).2) ∧
      ((untilHeading start t).2 ≠ [] → LineStart start (untilHeading start t).1 ∧ (untilHeading start t).2.head? = some 35) := by
  induction t generalizing start with
  | nil => exact ⟨rfl, rfl, fun h => absurd rfl h⟩
  | cons c t ih =>
    rw [untilHeading]
    split
    · rename_i h
      obtain ⟨rfl, hheading⟩ := Bool.and_eq_true_iff.mp h
      refine ⟨rfl, by rw [untilHeading, if_pos h], fun _ => ⟨.inl ⟨rfl, rfl⟩, ?_⟩⟩
      by_contra hne
      have hc : c ≠ 35 := by simpa using hne
      simp [isHeading, afterHashes, List.takeWhile_cons_of_neg, hc] at hheading
    · obtain ⟨happend, hrest, hline⟩ := ih (c = 10)
      exact ⟨by rw [List.cons_append, happend], hrest, fun h => ⟨(hline h).1.cons, (hline h).2⟩⟩

def Quiet (start : Bool) (t : Text) : Prop := untilHeading start t = (t, [])

theorem quiet_cons : Quiet start (c :: t) ↔ (start && isHeading (c :: t)) = false ∧ Quiet (c = 10) t := by
  unfold Quiet
  rw [untilHeading]
  cases hheading : start && isHeading (c :: t) with
  | true => simp
  | false => simp [Prod.ext_iff]

theorem untilHeading_append (h : Quiet start t) (hend : LineStart start t) (x : Text) :
    untilHeading start (t ++ x) = (t ++ (untilHeading true x).1, (untilHeading true x).2) := by
  induction t generalizing start with
  | nil =>
    obtain ⟨rfl, _⟩ | hlast := hend
    · rfl
    · cases hlast
  | cons c t ih =>
    obtain ⟨hheading, hrest⟩ := quiet_cons.mp h
    have hend' : ∃ d ∈ c :: t, d ≠ 35 := by
      obtain ⟨_, hnil⟩ | hlast := hend
      · cases hnil
      · exact ⟨10, List.mem_of_getLast? hlast, by decide⟩
    rw [List.cons_append, untilHeading, ← List.cons_append, isHeading_append hend', hheading, ih hrest hend.tail]
    rfl

theorem Quiet.append {t x : Text} (h : Quiet start t) (hend : LineStart start t) (hx : Quiet true x) :
    Quiet start (t ++ x) := by
  rw [Quiet, untilHeading_append h hend, hx]

theorem quiet_line (ht : ∀ c ∈ t, c ≠ 10) : Quiet false (t ++ [10]) := by
  induction t with
  | nil => rfl
  | cons c t ih =>
    obtain ⟨hc, ht⟩ := List.forall_mem_cons.mp ht
    exact quiet_cons.mpr ⟨rfl, by simpa [hc] using ih ht⟩

/-- The last line is one of hash signs, not more than six, and nothing ends it. -/
def Dangling (start : Bool) (t : Text) : Prop :=
  ∃ p q : Text, t = p ++ q ∧ LineStart start p ∧ q ≠ [] ∧ q.length ≤ 6 ∧ ∀ c ∈ q, c = 35

/-- A newline makes a heading of what was none only behind such a line. -/
theorem quiet_of_starts {y z : Text} (h : y <+: (untilHeading start (y ++ z)).1)
    (hz : z = [] ∨ z.head?.any isSpace) : Quiet start (y ++ [10]) ∨ z = [] ∧ Dangling start y := by
  induction y generalizing start with
  | nil => exact .inl (by cases start <;> rfl)
  | cons c y ih =>
    rw [List.cons_append, untilHeading] at h
    split at h
    · exact absurd (List.prefix_nil.mp h) (List.cons_ne_nil _ _)
    · rename_i hheading
      rcases ih (List.cons_prefix_cons.mp h).2 with hquiet | ⟨hnil, p, q, rfl, hp, hq⟩
      · by_cases hmixed : ∃ d ∈ c :: y, d ≠ 35
        · rw [← List.cons_append, isHeading_append hmixed, ← isHeading_append hmixed [10]] at hheading
          exact .inl (quiet_cons.mpr ⟨Bool.eq_false_of_not_eq_true hheading, hquiet⟩)
        · have hhashes : ∀ d ∈ c :: y, d = 35 := by simpa using hmixed
          have hnewline := isHeading_hashes hhashes (d := 10) (by decide) []
          rcases hz with rfl | hspace
          · by_cases hlong : start = true ∧ (c :: y).length ≤ 6
            · exact .inr ⟨rfl, [], c :: y, rfl, .inl ⟨hlong.1, rfl⟩, List.cons_ne_nil _ _, hlong.2, hhashes⟩
            · refine .inl (quiet_cons.mpr ⟨?_, hquiet⟩)
              change (start && isHeading (c :: y ++ [10])) = false
              rw [hnewline]
              simpa using hlong
          · cases z with
            | nil => cases hspace
            | cons d z =>
              rw [← List.cons_append, isHeading_hashes hhashes (by simpa using hspace), ← hnewline] at hheading
              exact .inl (quiet_cons.mpr ⟨Bool.eq_false_of_not_eq_true hheading, hquiet⟩)
      · exact .inr ⟨hnil, c :: p, q, rfl, hp.cons, hq⟩

theorem heading_found {p q : Text} (hp : LineStart start p) (hq : isHeading q = true) :
    (untilHeading start (p ++ q)).2 ≠ [] := by
  induction p generalizing start with
  | nil =>
    obtain ⟨rfl, _⟩ | hlast := hp
    · cases q with
      | nil => cases hq
      | cons c q => simp [untilHeading, hq]
    · cases hlast
  | cons c p ih =>
    rw [List.cons_append, untilHeading]
    split
    · exact List.cons_ne_nil _ _
    · exact ih hp.tail

/-! ## White space -/

theorem rstrip_append (x y : Text) : rstrip (x ++ y) = if rstrip y = [] then rstrip x else x ++ rstrip y := by
  simp only [rstrip, List.rdropWhile, List.reverse_append, List.dropWhile_append, List.isEmpty_iff, List.reverse_eq_nil_iff]
  split <;> simp

@[simp] theorem rstrip_rstrip (t : Text) : rstrip (rstrip t) = rstrip t := List.rdropWhile_idempotent _ _

theorem rstrip_append_of_ne {x y : Text} (hy : rstrip y = y) (hne : y ≠ []) : rstrip (x ++ y) = x ++ y := by
  rw [rstrip_append, hy, if_neg hne]

theorem isSpace_last (h : rstrip (t ++ [c]) = t ++ [c]) : isSpace c = false := by
  refine Bool.eq_false_of_not_eq_true fun hc => ?_
  rw [rstrip, List.rdropWhile_concat_pos _ _ _ hc] at h
  have hshort := (List.rdropWhile_prefix isSpace t).length_le
  rw [h] at hshort
  simp at hshort

theorem rstrip_strip (t : Text) : rstrip (strip t) = strip t := by
  by_cases hnil : strip t = []
  · rw [hnil]
    rfl
  · obtain ⟨front, hfront⟩ := List.dropWhile_suffix (l := rstrip t) isSpace
    have hlast : front ++ strip t = rstrip (front ++ strip t) := by rw [strip, hfront, rstrip_rstrip]
    rw [rstrip_append] at hlast
    split at hlast
    · have hshort := (List.rdropWhile_prefix isSpace front).length_le
      rw [← rstrip, ← hlast, List.length_append] at hshort
      exact absurd (List.length_eq_zero_iff.mp (by omega)) hnil
    · exact (List.append_cancel_left hlast).symm

theorem strip_cons (hc : isSpace c = true) (t : Text) : strip (c :: t) = strip t := by
  have hcons := rstrip_append [c] t
  rw [strip, strip, ← List.singleton_append, hcons]
  split
  · rename_i hnil
    rw [hnil, rstrip, List.rdropWhile_singleton, if_pos hc]
  · exact List.dropWhile_cons_of_pos hc

theorem strip_dropWhile (t : Text) : strip (t.dropWhile isSpace) = strip t := by
  induction t with
  | nil => rfl
  | cons c t ih =>
    by_cases hc : isSpace c = true
    · rw [List.dropWhile_cons_of_pos hc, ih, strip_cons hc]
    · rw [List.dropWhile_cons_of_neg hc]

theorem mem_of_mem_strip (h : c ∈ strip t) : c ∈ t :=
  (List.rdropWhile_prefix _ _).subset ((List.dropWhile_suffix _).subset h)

theorem collapse_true (t : Text) : strip (collapse true t) = strip (collapse false t) := by
  cases t with
  | nil => rfl
  | cons c t =>
    by_cases hc : isSpace c = true
    · simp only [collapse, hc, if_true]
      exact (strip_cons (by decide) _).symm
    · simp [collapse, hc]

theorem rstrip_collapse (spaced : Bool) (t : Text) {sp : Text} (hsp : ∀ c ∈ sp, isSpace c = true) :
    rstrip (collapse spaced (t ++ sp)) = rstrip (collapse spaced t) := by
  induction t generalizing spaced with
  | nil =>
    refine List.rdropWhile_eq_nil_iff.mpr ?_
    induction sp generalizing spaced with
    | nil => exact fun c hc => by cases hc
    | cons c sp ih =>
      obtain ⟨hc, hsp⟩ := List.forall_mem_cons.mp hsp
      simp only [List.nil_append, collapse, hc, if_true]
      split
      · exact ih hsp true
      · exact List.forall_mem_cons.mpr ⟨rfl, ih hsp true⟩
  | cons c t ih =>
    simp only [List.cons_append, collapse]
    split
    · split
      · exact ih true
      · rw [← List.singleton_append, rstrip_append, ih, ← rstrip_append]
        rfl
    · rw [← List.singleton_append, rstrip_append, ih, ← rstrip_append]
      rfl

/-- The comparison does not see the spaces at the ends. -/
theorem plain_strip (s : Text) : plain (strip s) = plain s := by
  have hright : plain (rstrip s) = plain s := by
    have hsplit : rstrip s ++ s.rtakeWhile isSpace = s := List.rdropWhile_append_rtakeWhile
    rw [plain, plain, strip, strip, ← rstrip_collapse false (rstrip s) fun c => List.mem_rtakeWhile_imp, hsplit]
  rw [← hright, strip]
  generalize rstrip s = t
  induction t with
  | nil => rfl
  | cons c t ih =>
    by_cases hc : isSpace c = true
    · rw [List.dropWhile_cons_of_pos hc, ih, plain, plain, collapse, if_pos hc, if_neg Bool.false_ne_true,
        strip_cons (by decide), collapse_true]
    · rw [List.dropWhile_cons_of_neg hc]

theorem collapse_eq_self (h : 32 ∉ collapse false t) : collapse false t = t := by
  induction t with
  | nil => rfl
  | cons c t ih =>
    by_cases hc : isSpace c = true
    · simp [collapse, hc] at h
    · simp only [collapse, hc, Bool.false_eq_true, if_false] at h ⊢
      rw [ih fun hmem => h (List.mem_cons_of_mem _ hmem)]

theorem collapse_concat (spaced : Bool) (t : Text) (hc : isSpace c = false) :
    collapse spaced (t ++ [c]) = collapse spaced t ++ [c] := by
  induction t generalizing spaced with
  | nil => simp [collapse, hc]
  | cons d t ih =>
    simp only [List.cons_append, collapse, ih]
    split <;> [split; skip] <;> rfl

/-- A placeholder is compared as itself alone. -/
theorem strip_of_plain {s : Text} (h : plain s ∈ placeholders) : strip s ∈ placeholders := by
  rw [← plain_strip] at h
  have hlast := rstrip_strip s
  have hfirst : ¬(strip s).head?.any isSpace := by
    have hstop := List.head?_dropWhile_not isSpace (rstrip s)
    rw [← strip] at hstop
    cases hs : (strip s).head? with
    | none => simp
    | some c => simpa [hs] using hstop
  generalize strip s = t at h hlast hfirst
  have hplain : plain t = collapse false t := by
    have hend : rstrip (collapse false t) = collapse false t := by
      rcases t.eq_nil_or_concat with rfl | ⟨y, c, rfl⟩
      · rfl
      · rw [List.concat_eq_append] at hlast ⊢
        have hc := isSpace_last hlast
        rw [collapse_concat _ _ hc]
        exact List.rdropWhile_concat_neg _ _ _ (by simp [hc])
    rw [plain, strip, hend]
    cases t with
    | nil => rfl
    | cons c t =>
      have hc : isSpace c = false := by simpa using hfirst
      simp [collapse, hc]
  rw [hplain] at h
  have hspace : ∀ w ∈ placeholders, 32 ∉ w := by decide
  rwa [collapse_eq_self (hspace _ h)] at h

/-! ## The lines that are put back -/

theorem splitlines_plain (hc : isLineBreak c = false) (t : Text) :
    splitlines (c :: t) = match splitlines t with
      | [] => [[c]]
      | line :: lines => (c :: line) :: lines := by
  rw [splitlines, hc]
  · rfl
  · rintro _ rfl
    cases hc

theorem splitlines_break (hc : isLineBreak c = true) (hcrlf : c = 13 → t.head? ≠ some 10) :
    splitlines (c :: t) = [] :: splitlines t := by
  rw [splitlines, if_pos hc]
  rintro _ h rfl
  exact hcrlf h rfl

theorem splitlines_eq_nil (h : splitlines t = []) : t = [] := by
  cases t with
  | nil => rfl
  | cons c t =>
    unfold splitlines at h
    split at h
    · assumption
    · cases h
    · split at h
      · cases h
      · split at h <;> cases h

theorem splitlines_concat {x : Text} (hc : isLineBreak c = false) (y : Text) :
    splitlines (x ++ c :: 10 :: y) = splitlines (x ++ [c]) ++ splitlines y := by
  induction x using WorkerRecords.splitlines.induct with
  | case1 => simpa [splitlines_plain hc, splitlines] using splitlines_append (List.forall_mem_singleton.mpr hc) y
  | case2 rest ih => simp [splitlines, ih]
  | case3 d rest hne hbreak ih =>
    have hhead (z : Text) : d = 13 → (rest ++ c :: z).head? ≠ some 10 := by
      intro hd hten
      cases rest with
      | nil =>
        cases hten
        cases hc
      | cons e rest =>
        cases hten
        exact hne rest hd rfl
    rw [List.cons_append, List.cons_append, splitlines_break hbreak (hhead _), splitlines_break hbreak (hhead _), ih]
    rfl
  | case4 d rest _ hplain _ ih | case5 d rest _ hplain _ _ _ ih =>
    have hplain := Bool.eq_false_of_not_eq_true hplain
    rw [List.cons_append, List.cons_append, splitlines_plain hplain, splitlines_plain hplain, ih]
    cases hfirst : splitlines (rest ++ [c]) with
    | nil => exact absurd (splitlines_eq_nil hfirst) (by simp)
    | cons line lines => rfl

theorem splitlines_append_of_rstrip {x : Text} (hx : rstrip x = x) (hne : x ≠ []) (y : Text) :
    splitlines (x ++ 10 :: y) = splitlines x ++ splitlines y := by
  rcases x.eq_nil_or_concat with rfl | ⟨x, c, rfl⟩
  · exact absurd rfl hne
  · rw [List.concat_eq_append] at hx ⊢
    have hc : isLineBreak c = false := by
      have hspace := isSpace_last hx
      simp only [isSpace, isLineBreak, Bool.or_eq_false_iff, Bool.and_eq_false_iff, decide_eq_false_iff_not] at hspace ⊢
      omega
    rw [List.append_assoc]
    exact splitlines_concat hc y

def Tidy (b : Text) : Prop := (∀ c ∈ b, isLineBreak c = false) ∧ rstrip b = b

theorem unbroken_splitlines (t : Text) : ∀ line ∈ splitlines t, ∀ c ∈ line, isLineBreak c = false := by
  induction t using WorkerRecords.splitlines.induct with
  | case1 => exact nofun
  | case2 rest ih => exact List.forall_mem_cons.mpr ⟨nofun, ih⟩
  | case3 c rest hne hbreak ih =>
    rw [splitlines, if_pos hbreak]
    · exact List.forall_mem_cons.mpr ⟨nofun, ih⟩
    · exact hne
  | case4 c rest _ hplain hnil _ =>
    rw [splitlines_plain (Bool.eq_false_of_not_eq_true hplain), hnil]
    simpa using hplain
  | case5 c rest _ hplain line lines hlines ih =>
    rw [splitlines_plain (Bool.eq_false_of_not_eq_true hplain), hlines]
    rw [hlines, List.forall_mem_cons] at ih
    exact List.forall_mem_cons.mpr ⟨List.forall_mem_cons.mpr ⟨Bool.eq_false_of_not_eq_true hplain, ih.1⟩, ih.2⟩

theorem tidy_strip (ht : ∀ c ∈ t, isLineBreak c = false) : Tidy (strip t) :=
  ⟨fun c hc => ht c (mem_of_mem_strip hc), rstrip_strip t⟩

theorem tidy_addLine {items : List Text} {line : Text} (h : ∀ b ∈ items, Tidy b) (hline : ∀ c ∈ line, isLineBreak c = false) :
    ∀ b ∈ addLine items line, Tidy b := by
  unfold addLine
  split
  · rename_i item _ hitem
    rw [List.forall_mem_append, List.forall_mem_singleton]
    refine ⟨h, ?_⟩
    unfold bulletItem at hitem
    split at hitem
    · rename_i c d rest
      split at hitem
      · cases hitem
        exact tidy_strip fun e he => hline e (.tail _ (.tail _ ((List.dropWhile_suffix _).subset he)))
      · cases hitem
    · cases hitem
  · rename_i last _ hlast
    split
    · rename_i hfold
      rw [List.forall_mem_append, List.forall_mem_singleton]
      refine ⟨fun b hb => h b (List.dropLast_subset _ hb), ?_, ?_⟩
      · have hlast := (h last (List.mem_of_getLast? hlast)).1
        intro c hc
        rcases List.mem_append.mp hc with hc | hc
        · exact hlast c hc
        · rcases List.mem_cons.mp hc with rfl | hc
          · rfl
          · exact hline c (mem_of_mem_strip hc)
      · have hstrip := rstrip_append_of_ne (x := [32]) (rstrip_strip line) hfold.1
        exact rstrip_append_of_ne hstrip (List.cons_ne_nil _ _)
    · exact h
  · exact h

theorem tidy_lost {previous text b : Text} (h : b ∈ lost previous text) : Tidy b ∧ strip b ≠ [] := by
  have hb : b ∈ ((splitlines (decidedSection previous)).foldl addLine []).filter stays := List.mem_of_mem_filter h
  have htidy : ∀ items, (∀ i ∈ items, Tidy i) → ∀ lines : List Text, (∀ l ∈ lines, ∀ c ∈ l, isLineBreak c = false) →
      ∀ i ∈ lines.foldl addLine items, Tidy i := by
    intro items hitems lines hlines
    induction lines generalizing items with
    | nil => exact hitems
    | cons l lines ih =>
      obtain ⟨hl, hlines⟩ := List.forall_mem_cons.mp hlines
      exact ih _ (tidy_addLine hitems hl) hlines
  obtain ⟨hb, hstays⟩ := List.mem_filter.mp hb
  have hb := htidy [] nofun _ (unbroken_splitlines _) b hb
  refine ⟨hb, fun hnil => ?_⟩
  rw [strip, hb.2] at hnil
  have hspace := List.rdropWhile_eq_nil_iff.mpr (List.dropWhile_eq_nil_iff.mp hnil)
  rw [← rstrip, hb.2] at hspace
  simp [stays, hspace] at hstays

theorem foldl_dashed (items bs : List Text) : (bs.map dashed).foldl addLine items = items ++ bs.map strip := by
  induction bs generalizing items with
  | nil => simp
  | cons b bs ih =>
    have hitem : bulletItem (dashed b) = some (strip b) := by
      rw [← strip_dropWhile]
      rfl
    rw [List.map_cons, List.foldl_cons, addLine, hitem]
    simp [ih]

variable {bs : List Text}

theorem splitlines_dashed (h : ∀ b ∈ bs, Tidy b) : splitlines (joinLines (bs.map dashed)) = bs.map dashed := by
  have hline {b : Text} (hb : Tidy b) : ∀ c ∈ dashed b, isLineBreak c = false :=
    List.forall_mem_cons.mpr ⟨rfl, List.forall_mem_cons.mpr ⟨rfl, hb.1⟩⟩
  induction bs with
  | nil => rfl
  | cons b bs ih =>
    obtain ⟨hb, hbs⟩ := List.forall_mem_cons.mp h
    cases bs with
    | nil => exact splitlines_unbroken (hline hb) (List.cons_ne_nil _ _)
    | cons b' bs => exact (splitlines_append (hline hb) _).trans (congrArg _ (ih hbs))

/-- The lines that are put back end with no space, and begin with none. -/
theorem joinLines_dashed (h : ∀ b ∈ bs, Tidy b ∧ strip b ≠ []) (hne : bs ≠ []) :
    rstrip (joinLines (bs.map dashed)) = joinLines (bs.map dashed) ∧ ∃ t, joinLines (bs.map dashed) = 45 :: t := by
  induction bs with
  | nil => exact absurd rfl hne
  | cons b bs ih =>
    obtain ⟨⟨⟨_, hb⟩, hstrip⟩, hbs⟩ := List.forall_mem_cons.mp h
    cases bs with
    | nil =>
      refine ⟨rstrip_append_of_ne (x := [45, 32]) hb fun hnil => hstrip ?_, _, rfl⟩
      rw [hnil]
      rfl
    | cons b' bs =>
      obtain ⟨hend, t, ht⟩ := ih hbs (List.cons_ne_nil _ _)
      have happend := rstrip_append_of_ne (x := dashed b ++ [10]) hend (by rw [ht]; exact List.cons_ne_nil _ _)
      rw [List.append_assoc] at happend
      exact ⟨happend, _, rfl⟩

variable {previous text : Text}

/-- The lines of a body are read, then those that are put back, and then what follows these. -/
theorem bullets_added (h : ∀ b ∈ bs, Tidy b ∧ strip b ≠ []) (hne : bs ≠ []) {body : Text}
    (hbody : rstrip body = body) (x : Text) : bullets (strip (body ++ 10 :: (joinLines (bs.map dashed) ++ 10 :: 10 :: x))) =
      ((splitlines (rstrip x)).foldl addLine ((splitlines (strip body)).foldl addLine [] ++ bs.map strip)).filter stays := by
  obtain ⟨hend, t, ht⟩ := joinLines_dashed h hne
  have hlines := splitlines_dashed fun b hb => (h b hb).1
  generalize joinLines (bs.map dashed) = add at *
  have hadd : add ≠ [] := by
    rw [ht]
    exact List.cons_ne_nil _ _
  have hempty (items : List Text) : addLine items [] = items := by
    unfold addLine
    cases items.getLast? <;> rfl
  obtain ⟨u, hu, hread⟩ : ∃ u, rstrip (add ++ 10 :: 10 :: x) = 45 :: u ∧ ∀ items, (splitlines (45 :: u)).foldl addLine items =
      (splitlines (rstrip x)).foldl addLine (items ++ bs.map strip) := by
    have happend := rstrip_append (add ++ [10, 10]) x
    rw [List.append_assoc] at happend
    by_cases hx : rstrip x = []
    · have hbreaks : rstrip (add ++ [10, 10]) = add := by
        rw [rstrip_append]
        exact hend
      refine ⟨t, (happend.trans (if_pos hx)).trans (hbreaks.trans ht), fun items => ?_⟩
      rw [hx, ← ht, hlines, foldl_dashed]
      rfl
    · refine ⟨t ++ 10 :: 10 :: rstrip x, ?_, fun items => ?_⟩
      · rw [← List.cons_append, ← ht]
        exact happend.trans ((if_neg hx).trans (by simp))
      · rw [← List.cons_append, ← ht, splitlines_append_of_rstrip hend hadd, hlines, List.foldl_append, foldl_dashed,
          splitlines_break (by decide) fun h => absurd h (by decide), List.foldl_cons, hempty]
  have hall : rstrip (body ++ 10 :: (add ++ 10 :: 10 :: x)) = body ++ 10 :: 45 :: u := by
    have happend := rstrip_append (body ++ [10]) (add ++ 10 :: 10 :: x)
    rw [hu, if_neg (List.cons_ne_nil _ _), List.append_assoc, List.append_assoc] at happend
    exact happend
  rw [strip, hall, strip, hbody, List.dropWhile_append, bullets]
  split
  · rename_i hblank
    rw [List.isEmpty_iff.mp hblank]
    exact congrArg _ (hread [])
  · rename_i hblank
    have hstrip : rstrip (body.dropWhile isSpace) = body.dropWhile isSpace := by simpa [strip, hbody] using rstrip_strip body
    rw [splitlines_append_of_rstrip hstrip (by simpa using hblank), List.foldl_append, hread]

theorem untilHeading_added (h : ∀ b ∈ bs, Tidy b) (hne : bs ≠ []) (x : Text) :
    untilHeading true (joinLines (bs.map dashed) ++ 10 :: 10 :: x) =
      (joinLines (bs.map dashed) ++ 10 :: 10 :: (untilHeading true x).1, (untilHeading true x).2) := by
  have hline {b : Text} (hb : Tidy b) : Quiet true (dashed b ++ [10]) := by
    refine quiet_cons.mpr ⟨by simp [isHeading, afterHashes], quiet_line (List.forall_mem_cons.mpr ⟨by decide, ?_⟩)⟩
    rintro c hc rfl
    cases hb.1 10 hc
  have hend {t : Text} : LineStart true (t ++ [10]) := .inr (by simp)
  induction bs with
  | nil => exact absurd rfl hne
  | cons b bs ih =>
    obtain ⟨hb, hbs⟩ := List.forall_mem_cons.mp h
    cases bs with
    | nil => simpa [joinLines] using untilHeading_append ((hline hb).append (x := [10]) hend rfl) hend x
    | cons b' bs =>
      have happend := untilHeading_append (hline hb) hend (joinLines ((b' :: bs).map dashed) ++ 10 :: 10 :: x)
      rw [ih hbs (List.cons_ne_nil _ _)] at happend
      simpa [joinLines] using happend

theorem quiet_body {rest : Text} (h : ¬Dangling true (untilHeading true rest).1) :
    Quiet true (rstrip (untilHeading true rest).1 ++ [10]) := by
  obtain ⟨happend, -, hline⟩ := untilHeading_split true rest
  generalize hb : (untilHeading true rest).1 = b at *
  generalize (untilHeading true rest).2 = r at *
  have hsplit : rstrip b ++ b.rtakeWhile isSpace = b := List.rdropWhile_append_rtakeWhile
  have hrest : rstrip b ++ (b.rtakeWhile isSpace ++ r) = rest := by rw [← List.append_assoc, hsplit, happend]
  have hstarts : rstrip b <+: (untilHeading true (rstrip b ++ (b.rtakeWhile isSpace ++ r))).1 := by
    rw [hrest, hb]
    exact List.rdropWhile_prefix _ _
  cases hspaces : b.rtakeWhile isSpace with
  | cons c sp =>
    have hc : isSpace c = true := List.mem_rtakeWhile_imp (hspaces ▸ List.mem_cons_self)
    rw [hspaces] at hstarts
    exact (quiet_of_starts hstarts (.inr (by simpa using hc))).resolve_right fun hd => by cases hd.1
  | nil =>
    rw [hspaces, List.append_nil] at hsplit
    rw [hspaces, List.nil_append] at hstarts
    by_cases hr : r = []
    · refine (quiet_of_starts hstarts (.inl hr)).resolve_right fun hd => h ?_
      rw [← hsplit]
      exact hd.2
    · rcases (hline hr).1 with ⟨-, rfl⟩ | hlast
      · rfl
      · obtain ⟨front, rfl⟩ := List.getLast?_eq_some_iff.mp hlast
        cases isSpace_last hsplit

/-! ## The law -/

/-- The bullets are those of both texts, the rest of the text stays, and a second call changes nothing. -/
structure Kept (previous text : Text) : Prop where
  bullets : ∀ p, p ∈ plains (keepDecided previous text) ↔ p ∈ plains text ∨ p ∈ plains previous
  outside : match findDecided true text with
    | none => text <:+ keepDecided previous text
    | some (head, rest) => ∃ rest', findDecided true (keepDecided previous text) = some (head, rest') ∧
        (untilHeading true rest').2 = (untilHeading true rest).2
  again : keepDecided previous (keepDecided previous text) = keepDecided previous text

/-- Nothing is put back. Or the text has no section, and what stands before its first heading, read on after what is put
back, makes no other bullets of it. Or the text has the section, does not end in it with a line of hash signs alone, and
what is put back is not a placeholder behind a space. -/
def Clear (previous text : Text) : Prop :=
  lost previous text = [] ∨ match findDecided true text with
    | none => ∀ p, p ∈ (((splitlines (rstrip (untilHeading true text).1)).foldl addLine ((lost previous text).map strip)).filter
        stays).map plain ↔ p ∈ (lost previous text).map plain
    | some (_, rest) => ¬Dangling true (untilHeading true rest).1 ∧ ∀ b ∈ lost previous text, plain b ∉ placeholders

theorem keepDecided_of_subset {s : Text} (h : ∀ p ∈ plains previous, p ∈ plains s) : keepDecided previous s = s := by
  refine if_pos (List.filter_eq_nil_iff.mpr fun b hb => ?_)
  rw [decide_eq_true_eq, not_not]
  exact h (plain b) (List.mem_map_of_mem hb)

variable {head rest : Text}

theorem findDecided_keepDecided (hfound : findDecided true text = some (head, rest))
    (hlost : lost previous text ≠ []) :
    findDecided true (keepDecided previous text) = some (head,
      (if strip (rstrip (untilHeading true rest).1) ∈ placeholders then [] else rstrip (untilHeading true rest).1 ++ [10]) ++
        (joinLines ((lost previous text).map dashed) ++ 10 :: 10 :: (untilHeading true rest).2)) := by
  have hkeep : (untilHeading true rest).2.dropWhile (· = 10) = (untilHeading true rest).2 := by
    cases hr : (untilHeading true rest).2 with
    | nil => rfl
    | cons c r =>
      have hc := ((untilHeading_split true rest).2.2 (by simp [hr])).2
      rw [hr] at hc
      cases hc
      rfl
  obtain ⟨-, -, -, -, hfind⟩ := findDecided_append hfound
  rw [keepDecided, if_neg hlost, hfound]
  simp only [hkeep, List.append_assoc]
  exact hfind _

theorem decisions_found (hfound : findDecided true text = some (head, rest))
    (hlost : lost previous text ≠ []) (h : ¬Dangling true (untilHeading true rest).1) :
    (∃ rest', findDecided true (keepDecided previous text) = some (head, rest') ∧
      (untilHeading true rest').2 = (untilHeading true rest).2) ∧
    decisions (keepDecided previous text) = decisions text ++ ((lost previous text).map strip).filter stays := by
  have hfind := findDecided_keepDecided hfound hlost
  have htidy (b : Text) (hb : b ∈ lost previous text) := tidy_lost hb
  have hadded := untilHeading_added (fun b hb => (htidy b hb).1) hlost (untilHeading true rest).2
  rw [(untilHeading_split true rest).2.1] at hadded
  have hsame : strip (rstrip (untilHeading true rest).1) = strip (untilHeading true rest).1 := by
    rw [strip, rstrip_rstrip]
    rfl
  have hread (body : Text) (hbody : rstrip body = body) := bullets_added htidy hlost hbody []
  have hdecisions : decisions text = bullets (strip (untilHeading true rest).1) := by
    rw [decisions, decidedSection, hfound]
  split at hfind
  · rename_i hplaceholder
    refine ⟨⟨_, hfind, by rw [List.nil_append, hadded]⟩, ?_⟩
    have hnone : ∀ w ∈ placeholders, bullets w = [] := by decide +kernel
    rw [hdecisions, ← hsame, hnone _ hplaceholder, decisions, decidedSection, hfind]
    dsimp only
    rw [List.nil_append, hadded, ← strip_cons (c := 10) rfl]
    exact hread [] rfl
  · have happend := untilHeading_append (quiet_body h) (.inr (by simp)) (joinLines ((lost previous text).map dashed) ++
      10 :: 10 :: (untilHeading true rest).2)
    rw [hadded] at happend
    refine ⟨⟨_, hfind, by rw [happend]⟩, ?_⟩
    rw [hdecisions, decisions, decidedSection, hfind]
    dsimp only
    rw [happend, List.append_assoc]
    refine (hread _ (rstrip_rstrip _)).trans ?_
    rw [hsame, bullets, ← List.filter_append]
    rfl

theorem findDecided_dangling (hfound : findDecided true text = some (head, rest))
    (hlost : lost previous text ≠ []) (h : Dangling true (untilHeading true rest).1) :
    ∃ rest', findDecided true (keepDecided previous text) = some (head, rest') ∧
      (untilHeading true rest').2 ≠ (untilHeading true rest).2 := by
  have hfind := findDecided_keepDecided hfound hlost
  refine ⟨_, hfind, ?_⟩
  obtain ⟨-, -, hline⟩ := untilHeading_split true rest
  obtain ⟨p, q, hb, hp, hq, hlength, hhashes⟩ := h
  have hlast {x : Text} (hx : x ≠ []) (hsuffix : x <:+ q) : x.getLast hx = 35 := hhashes _ (hsuffix.subset (List.getLast_mem hx))
  have hnil : (untilHeading true rest).2 = [] := by
    by_contra hr
    rcases (hline hr).1 with ⟨-, hnil⟩ | hten
    · exact hq (List.append_eq_nil_iff.mp (hb.symm.trans hnil)).2
    · rw [hb, List.getLast?_append_of_ne_nil _ hq] at hten
      cases hhashes 10 (List.mem_of_getLast? hten)
  have hend : rstrip (p ++ q) = p ++ q := by
    refine rstrip_append_of_ne (List.rdropWhile_eq_self_iff.mpr fun hne => ?_) hq
    rw [hlast hne (List.suffix_refl q)]
    decide
  have hbody : strip (p ++ q) ∉ placeholders := by
    have hnone : ∀ w ∈ placeholders, 35 ∉ w := by decide
    obtain ⟨c, hc⟩ := List.exists_mem_of_ne_nil q hq
    have hhash := hhashes c hc ▸ hc
    refine fun hmem => hnone _ hmem ?_
    rw [strip, hend]
    exact mem_dropWhile_of_plain (List.mem_append_right p hhash) rfl
  rw [hb, hend, if_neg hbody, hnil, List.append_assoc, List.append_assoc]
  exact heading_found hp ((isHeading_hashes hhashes (by decide) _).trans (decide_eq_true ⟨List.length_pos_iff.mpr hq, hlength⟩))

theorem decisions_none (hfound : findDecided true text = none) (hlost : lost previous text ≠ []) :
    decisions (keepDecided previous text) =
      ((splitlines (rstrip (untilHeading true text).1)).foldl addLine ((lost previous text).map strip)).filter stays := by
  have htidy (b : Text) (hb : b ∈ lost previous text) := tidy_lost hb
  have hheading : DecidedHeading (35 :: 35 :: 32 :: decided ++ [10]) :=
    @decidedHeading [35, 35] [32] [] (by simp) ⟨by simp, by simp⟩ (List.forall_mem_singleton.mpr rfl) nofun
  have hfind : (findDecided true (keepDecided previous text)).map Prod.snd =
      some (joinLines ((lost previous text).map dashed) ++ 10 :: 10 :: text) := by
    have hparts : keepDecided previous text =
        35 :: 35 :: 32 :: decided ++ [10] ++ (joinLines ((lost previous text).map dashed) ++ 10 :: 10 :: text) := by
      rw [keepDecided, if_neg hlost, hfound]
      simp
    rw [hparts, List.cons_append, List.cons_append, findDecided, if_pos rfl, ← List.cons_append, ← List.cons_append, hheading.found]
    rfl
  obtain ⟨⟨head, _⟩, hfind, rfl⟩ := Option.map_eq_some_iff.mp hfind
  rw [decisions, decidedSection, hfind]
  dsimp only
  rw [untilHeading_added (fun b hb => (htidy b hb).1) hlost, ← strip_cons (c := 10) rfl]
  exact bullets_added htidy hlost (show rstrip [] = [] from rfl) _

theorem kept_of_lost_nil (h : lost previous text = []) : Kept previous text := by
  have hsame : keepDecided previous text = text := if_pos h
  have hold : ∀ p ∈ plains previous, p ∈ plains text := by
    intro p hp
    obtain ⟨b, hb, rfl⟩ := List.mem_map.mp hp
    by_contra hnot
    exact List.ne_nil_of_mem (List.mem_filter.mpr ⟨hb, decide_eq_true hnot⟩) h
  refine ⟨fun p => ?_, ?_, by rw [hsame, hsame]⟩
  · rw [hsame]
    exact ⟨.inl, fun hp => hp.elim id (hold p)⟩
  · rw [hsame]
    cases hfound : findDecided true text with
    | none => exact List.suffix_refl text
    | some found => exact ⟨found.2, rfl, rfl⟩

/-- What is put back is what the law asks for. -/
theorem mem_plains_or_lost (p : Text) :
    p ∈ plains text ∨ p ∈ plains previous ↔ p ∈ plains text ∨ p ∈ (lost previous text).map plain := by
  constructor
  · rintro (h | h)
    · exact .inl h
    · obtain ⟨b, hb, rfl⟩ := List.mem_map.mp h
      by_cases hin : plain b ∈ plains text
      · exact .inl hin
      · exact .inr (List.mem_map_of_mem (List.mem_filter.mpr ⟨hb, decide_eq_true hin⟩))
  · rintro (h | h)
    · exact .inl h
    · exact .inr ((List.filter_sublist.map plain).subset h)

theorem kept_iff : Kept previous text ↔ Clear previous text := by
  by_cases hlost : lost previous text = []
  · exact iff_of_true (kept_of_lost_nil hlost) (.inl hlost)
  unfold Clear
  rw [or_iff_right hlost]
  cases hfound : findDecided true text with
  | none =>
    have hread := decisions_none hfound hlost
    have hlaw (p : Text) : p ∈ plains text ∨ p ∈ plains previous ↔ p ∈ (lost previous text).map plain := by
      have hempty : plains text = [] := by
        rw [plains, decisions, decidedSection, hfound]
        rfl
      rw [mem_plains_or_lost, hempty, or_iff_right List.not_mem_nil]
    dsimp only
    rw [← hread]
    refine ⟨fun h p => (h.bullets p).trans (hlaw p), fun h => ?_⟩
    refine ⟨fun p => (h p).trans (hlaw p).symm, ?_, keepDecided_of_subset fun p hp => (h p).mpr ((hlaw p).mp (.inr hp))⟩
    rw [hfound, keepDecided, if_neg hlost, hfound]
    exact (List.suffix_cons 10 _).trans ((List.suffix_cons 10 _).trans (List.suffix_append _ _))
  | some found =>
    obtain ⟨head, rest⟩ := found
    dsimp only
    constructor
    · intro h
      have hdangling : ¬Dangling true (untilHeading true rest).1 := by
        intro hd
        obtain ⟨rest', hfind, hne⟩ := findDecided_dangling hfound hlost hd
        have houtside := h.outside
        rw [hfound] at houtside
        obtain ⟨rest'', hfind', hsame⟩ := houtside
        rw [hfind] at hfind'
        cases hfind'
        exact hne hsame
      refine ⟨hdangling, fun b hb hplaceholder => ?_⟩
      obtain ⟨hold, hnew⟩ := List.mem_filter.mp hb
      have hmem := (h.bullets (plain b)).mpr (.inr (List.mem_map_of_mem hold))
      rw [plains, (decisions_found hfound hlost hdangling).2, List.map_append, List.mem_append] at hmem
      obtain ⟨d, hd, hsame⟩ := List.mem_map.mp (hmem.resolve_left (of_decide_eq_true hnew))
      obtain ⟨hd, hstays⟩ := List.mem_filter.mp hd
      obtain ⟨b', -, rfl⟩ := List.mem_map.mp hd
      rw [plain_strip] at hsame
      have hstrip := strip_of_plain (hsame.symm ▸ hplaceholder)
      simp [stays, hstrip] at hstays
    · rintro ⟨hdangling, hplain⟩
      obtain ⟨houtside, hdecisions⟩ := decisions_found hfound hlost hdangling
      have hstays : ((lost previous text).map strip).filter stays = (lost previous text).map strip := by
        refine List.filter_eq_self.mpr fun d hd => ?_
        obtain ⟨b, hb, rfl⟩ := List.mem_map.mp hd
        refine decide_eq_true ⟨(tidy_lost hb).2, fun hplaceholder => hplain b hb ?_⟩
        have hsame : ∀ w ∈ placeholders, plain w ∈ placeholders := by decide
        rw [← plain_strip]
        exact hsame _ hplaceholder
      have hbullets (p : Text) : p ∈ plains (keepDecided previous text) ↔ p ∈ plains text ∨ p ∈ plains previous := by
        have hmap : plain ∘ strip = plain := funext plain_strip
        rw [mem_plains_or_lost, plains, hdecisions, hstays, List.map_append, List.mem_append, List.map_map, hmap]
        rfl
      refine ⟨hbullets, ?_, keepDecided_of_subset fun p hp => (hbullets p).mpr (.inr hp)⟩
      rw [hfound]
      exact houtside

/-- The law holds of every round, and what a round has decided stays in all later ones. -/
structure Accumulates (synth : Text) (texts : List Text) : Prop where
  kept : EveryStep keepDecided Kept synth texts
  stay : ∀ before between after, texts = before ++ between ++ after →
    ∀ p ∈ plains (run keepDecided synth before), p ∈ plains (run keepDecided synth (before ++ between))

/-- Decisions accumulate if and only if every round is clear. -/
theorem accumulates_iff (synth : Text) (texts : List Text) : Accumulates synth texts ↔ EveryStep keepDecided Clear synth texts := by
  have hsteps : EveryStep keepDecided Kept synth texts ↔ EveryStep keepDecided Clear synth texts := by
    simp only [EveryStep, kept_iff]
  refine ⟨fun h => hsteps.mp h.kept, fun h => ⟨hsteps.mpr h, ?_⟩⟩
  rintro before between after rfl
  rw [MachineRuns.run_append]
  have hbetween := MachineRuns.everyStep_append_right (MachineRuns.everyStep_append_left (hsteps.mpr h))
  exact MachineRuns.relation_run (I := fun _ => True) (R := fun s s' : Text => ∀ p ∈ plains s, p ∈ plains s')
    (fun _ _ _ => trivial) (fun _ _ => id) (fun h h' p hp => h' p (h p hp))
    (fun _ _ _ hkept p hp => (hkept.bullets p).mpr (.inr hp)) trivial hbetween

/-! A text without the section, before whose first heading stands a bullet. -/

def decidedSynth : Text := 35 :: decided ++ [10, 45, 32, 97, 10]

def bulletText : Text := [45, 32, 98, 10]

theorem bulletText_not_kept : ¬∀ previous text : Text, Kept previous text := by
  intro h
  have hinvented := ((h decidedSynth bulletText).bullets [98]).mp (by decide +kernel)
  exact absurd hinvented (by decide +kernel)

end AllTomorrow.IdeasRounds
