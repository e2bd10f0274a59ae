import AllTomorrow.ApprovalAuthority
import AllTomorrow.WalkingSkeleton
import Mathlib

/-!
# Keys that are hashes of joined texts

The idempotency keys of deliveries, the fingerprints by which autonomous work is deduplicated, and the hashes of
handoff packages. Each is the SHA-256 of texts that are joined by a separator, which the texts may hold themselves.
-/

namespace AllTomorrow

open Approval (unitSeparator)

/-! ## Joined texts -/

section Joined

variable {x : Char} {ls ls' : List String}

theorem toList_intercalate_singleton (x : Char) (ls : List String) :
    ((String.singleton x).intercalate ls).toList = [x].intercalate (ls.map String.toList) := by
  rw [String.toList_intercalate, String.toList_singleton]

theorem join_inj_of_notMem (hls : ∀ s ∈ ls, x ∉ s.toList) (hls' : ∀ s ∈ ls', x ∉ s.toList) (hne : ls ≠ []) (hne' : ls' ≠ [])
    (h : (String.singleton x).intercalate ls = (String.singleton x).intercalate ls') : ls = ls' := by
  have hjoined := congrArg String.toList h
  rw [toList_intercalate_singleton, toList_intercalate_singleton] at hjoined
  refine List.map_injective_iff.mpr (fun _ _ => String.toList_inj.mp) (intercalate_inj_of_notMem ?_ ?_ ?_ ?_ hjoined)
  · simpa using hls
  · simpa using hls'
  · simpa using hne
  · simpa using hne'

/-- The texts between the separators in the parts, one after another. -/
def pieces (x : Char) (ls : List String) : List (List Char) := ls.flatMap fun s => s.toList.splitOn x

/-- Other parts with the same pieces: a part that holds separators stands for several of the others. -/
structure Regrouped (x : Char) (ls ls' : List String) : Prop where
  pieces : pieces x ls = pieces x ls'
  differ : ls ≠ ls'

/-- No part, and one part that is empty. -/
def NoneAgainstBlank (ls ls' : List String) : Prop := ls = [] ∧ ls' = [""] ∨ ls = [""] ∧ ls' = []

def separators (x : Char) (ls : List String) : List ℕ := ls.map fun s => s.toList.count x

theorem splitOn_join (x : Char) (hne : ls ≠ []) : ((String.singleton x).intercalate ls).toList.splitOn x = pieces x ls := by
  rw [toList_intercalate_singleton]
  induction ls with
  | nil => exact absurd rfl hne
  | cons s rest ih =>
    cases rest with
    | nil => simp [pieces]
    | cons t rest =>
      rw [List.map_cons, List.map_cons, intercalate_cons_cons, List.splitOn_append_cons_self, ← List.map_cons,
        ih (List.cons_ne_nil t rest)]
      rfl

theorem toList_join_of_pieces (x : Char) (hne : ls ≠ []) :
    [x].intercalate (pieces x ls) = ((String.singleton x).intercalate ls).toList := by
  rw [← splitOn_join x hne, List.intercalate_splitOn]

theorem eq_blank_of_join (h : (String.singleton x).intercalate ls = "") : ls = [] ∨ ls = [""] := by
  cases ls with
  | nil => exact .inl rfl
  | cons s rest =>
    have hnil := congrArg String.toList h
    rw [toList_intercalate_singleton, List.map_cons] at hnil
    cases rest with
    | nil => exact .inr (congrArg (· :: []) (String.toList_inj.mp (by simpa using hnil)))
    | cons t rest =>
      rw [List.map_cons, intercalate_cons_cons] at hnil
      cases (List.append_eq_nil_iff.mp hnil).2

/-- Equal joins hide a difference of the parts in just two ways. -/
theorem join_eq_iff : (String.singleton x).intercalate ls = (String.singleton x).intercalate ls' ↔
    ls = ls' ∨ Regrouped x ls ls' ∨ NoneAgainstBlank ls ls' := by
  have hempty : (String.singleton x).intercalate [] = "" := rfl
  constructor
  · intro h
    by_cases hsame : ls = ls'
    · exact .inl hsame
    · refine .inr ?_
      by_cases hne : ls = []
      · rw [hne, hempty] at h
        rcases eq_blank_of_join h.symm with hnil | hblank
        · exact absurd (hne.trans hnil.symm) hsame
        · exact .inr (.inl ⟨hne, hblank⟩)
      · by_cases hne' : ls' = []
        · rw [hne', hempty] at h
          rcases eq_blank_of_join h with hnil | hblank
          · exact absurd hnil hne
          · exact .inr (.inr ⟨hblank, hne'⟩)
        · exact .inl ⟨by rw [← splitOn_join x hne, ← splitOn_join x hne', h], hsame⟩
  · rintro (rfl | hregrouped | ⟨rfl, rfl⟩ | ⟨rfl, rfl⟩)
    · rfl
    · have hnone (ms : List String) (hms : pieces x ms = []) : ms = [] := by
        by_contra hne
        rw [← splitOn_join x hne] at hms
        exact List.splitOn_ne_nil x _ hms
      have hne : ls ≠ [] := by
        rintro rfl
        exact hregrouped.differ (hnone ls' hregrouped.pieces.symm).symm
      have hne' : ls' ≠ [] := by
        rintro rfl
        exact hregrouped.differ (hnone ls hregrouped.pieces)
      refine String.toList_inj.mp ?_
      rw [← toList_join_of_pieces x hne, ← toList_join_of_pieces x hne', hregrouped.pieces]
    · simp
    · simp

theorem Regrouped.separators_ne (h : Regrouped x ls ls') : separators x ls ≠ separators x ls' := by
  intro hcount
  have hjoined := congrArg String.toList (join_eq_iff.mpr (.inr (.inl h)))
  rw [toList_intercalate_singleton, toList_intercalate_singleton] at hjoined
  have hmap : (ls.map String.toList).map (List.count x) = (ls'.map String.toList).map (List.count x) := by
    simpa [separators, Function.comp_def] using hcount
  exact h.differ (List.map_injective_iff.mpr (fun _ _ => String.toList_inj.mp) (intercalate_inj_of_count hmap hjoined))

theorem not_regrouped_of_notMem (hls : ∀ s ∈ ls, x ∉ s.toList) (hls' : ∀ s ∈ ls', x ∉ s.toList) : ¬Regrouped x ls ls' := by
  have hpieces (ms : List String) (hms : ∀ s ∈ ms, x ∉ s.toList) : pieces x ms = ms.map String.toList := by
    unfold pieces
    rw [List.flatMap_congr fun s hs => List.splitOn_eq_singleton (hms s hs), ← List.map_eq_flatMap]
  rintro ⟨h, hdiffer⟩
  rw [hpieces ls hls, hpieces ls' hls'] at h
  exact hdiffer (List.map_injective_iff.mpr (fun _ _ => String.toList_inj.mp) h)

theorem join_ne_empty (hne : ls ≠ []) (hfull : ∀ s ∈ ls, s ≠ "") : (String.singleton x).intercalate ls ≠ "" := by
  intro h
  rcases eq_blank_of_join h with rfl | rfl
  · exact hne rfl
  · exact hfull "" (List.mem_singleton_self "") rfl

/-- A hash that is injective and has the value of the real one on two texts. -/
def twoDigests (text digest text' digest' : String) : Equiv.Perm String :=
  (Equiv.swap text digest).trans (Equiv.swap text' digest')

end Joined

/-! ## Idempotency keys -/

def cleanParts (parts : List String) : List String := (parts.filter fun p => PyText.strip p ≠ "").map PyText.strip

section IdempotencyKeys

variable {sha : String → String} {«namespace» scope : String} {parts parts' : List String} {version : ℤ}

theorem mem_strip {s : String} {c : Char} (h : c ∈ (PyText.strip s).toList) : c ∈ s.toList := by
  unfold PyText.strip at h
  rw [String.toList_ofList, List.mem_reverse] at h
  have hback := (List.dropWhile_sublist _).subset h
  rw [List.mem_reverse] at hback
  exact (List.dropWhile_sublist _).subset hback

theorem mem_cleanParts {s : String} (h : s ∈ cleanParts parts) : ∃ p ∈ parts, s = PyText.strip p ∧ s ≠ "" := by
  obtain ⟨p, hp, rfl⟩ := List.mem_map.mp h
  rw [List.mem_filter, decide_eq_true_eq] at hp
  exact ⟨p, hp.1, rfl, hp.2⟩

theorem cleanParts_inj (h : ∀ p ∈ parts ++ parts', ':' ∉ p.toList)
    (hjoin : (String.singleton ':').intercalate (cleanParts parts) = (String.singleton ':').intercalate (cleanParts parts')) :
    cleanParts parts = cleanParts parts' := by
  have hcolon (ps : List String) (hps : ∀ p ∈ ps, ':' ∉ p.toList) (s : String) (hs : s ∈ cleanParts ps) : ':' ∉ s.toList := by
    obtain ⟨p, hp, rfl, -⟩ := mem_cleanParts hs
    exact fun hmem => hps p hp (mem_strip hmem)
  have hfull (ps : List String) (s : String) (hs : s ∈ cleanParts ps) : s ≠ "" := by
    obtain ⟨p, -, -, hne⟩ := mem_cleanParts hs
    exact hne
  have hempty : (String.singleton ':').intercalate [] = "" := rfl
  by_cases hne : cleanParts parts = []
  · rw [hne, hempty] at hjoin
    by_contra hdiffer
    rw [hne] at hdiffer
    exact join_ne_empty (Ne.symm hdiffer) (hfull parts') hjoin.symm
  · by_cases hne' : cleanParts parts' = []
    · rw [hne', hempty] at hjoin
      exact absurd hjoin (join_ne_empty hne (hfull parts))
    · refine join_inj_of_notMem (hcolon parts fun p hp => h p (List.mem_append_left _ hp))
        (hcolon parts' fun p hp => h p (List.mem_append_right _ hp)) hne hne' hjoin

theorem append_left_inj {a b c : String} (h : a ++ b = a ++ c) : b = c := by
  have hlist := congrArg String.toList h
  rw [String.toList_append, String.toList_append] at hlist
  exact String.toList_inj.mp (List.append_cancel_left hlist)

theorem formatIdempotencyKey_eq_iff (hsha : Function.Injective sha) :
    formatIdempotencyKey sha «namespace» scope parts version = formatIdempotencyKey sha «namespace» scope parts' version ↔
      (String.singleton ':').intercalate (cleanParts parts) = (String.singleton ':').intercalate (cleanParts parts') := by
  unfold formatIdempotencyKey
  constructor
  · intro h
    exact append_left_inj (hsha (append_left_inj h))
  · intro h
    have hjoin : ":".intercalate ((parts.filter fun p => PyText.strip p ≠ "").map PyText.strip) =
        ":".intercalate ((parts'.filter fun p => PyText.strip p ≠ "").map PyText.strip) := h
    dsimp only
    rw [hjoin]

/-- Two calls have the same key if and only if the same parts are left of them, where no part has a colon. -/
theorem idempotency_keys_by_parts (hsha : Function.Injective sha) (h : ∀ p ∈ parts ++ parts', ':' ∉ p.toList) :
    formatIdempotencyKey sha «namespace» scope parts version = formatIdempotencyKey sha «namespace» scope parts' version ↔
      cleanParts parts = cleanParts parts' := by
  rw [formatIdempotencyKey_eq_iff hsha]
  exact ⟨cleanParts_inj h, congrArg _⟩

def startDigests : Equiv.Perm String :=
  twoDigests "run:start:v1:run_1:q_1" "a2a588ff5718e5b5533f2d49" "run:start:v1:run_1:q_2" "c0a034ee33b47f512629c1e3"

theorem idempotency_keys_by_parts_of_runs :
    formatIdempotencyKey startDigests "run" "start" ["run_1", " ", "q_1"] = "idmp_run_start_v1_a2a588ff5718e5b5533f2d49" ∧
      formatIdempotencyKey startDigests "run" "start" ["run_1", "q_2 "] = "idmp_run_start_v1_c0a034ee33b47f512629c1e3" ∧
      (formatIdempotencyKey startDigests "run" "start" ["run_1", " ", "q_1"] =
        formatIdempotencyKey startDigests "run" "start" ["run_1", "q_2 "] ↔
          cleanParts ["run_1", " ", "q_1"] = cleanParts ["run_1", "q_2 "]) :=
  ⟨by decide, by decide, idempotency_keys_by_parts startDigests.injective (by decide)⟩

/-- A blank part leaves no trace in the key. -/
theorem padded_parts_share_key : ¬∀ (sha : String → String), Function.Injective sha →
    ∀ («namespace» scope : String) (parts parts' : List String) (version : ℤ),
      formatIdempotencyKey sha «namespace» scope parts version = formatIdempotencyKey sha «namespace» scope parts' version →
        parts = parts' := by
  intro h
  have hkeys := h id Function.injective_id "run" "start" ["run_1", " "] ["run_1"] 1 (by decide)
  cases hkeys

end IdempotencyKeys

/-! ## Fingerprints -/

structure UnicodeTables where
  /-- `str.lower` -/
  lower : String → String
  /-- what `\w` matches -/
  isWord : Char → Bool

/-- `re.sub(r"\s+", " ", s)`; `inRun` tells whether the character before was a space. -/
def collapseSpaces : Bool → List Char → List Char
  | _, [] => []
  | inRun, c :: cs =>
    if PyText.isSpace c then (if inRun then collapseSpaces true cs else ' ' :: collapseSpaces true cs)
    else c :: collapseSpaces false cs

def normalizeObjective (tables : UnicodeTables) (objective : String) : String :=
  let s := tables.lower (PyText.strip objective)
  let kept := s.toList.filter fun c => tables.isWord c || PyText.isSpace c
  String.ofList (collapseSpaces false kept)

/-- The arguments of `dedup_fingerprint`. -/
structure FingerprintParts where
  actionType : String
  targetGoalId : String
  targetProjectId : Option String
  objective : String
  evidenceRefs : List String
  materializerSchemaVersion : String
  fingerprintVersion : String := "1"

namespace FingerprintParts

variable (tables : UnicodeTables)

/-- `sorted(evidence_refs)` -/
def sortedEvidence (a : FingerprintParts) : List String := a.evidenceRefs.insertionSort (· ≤ ·)

def joinedEvidence (a : FingerprintParts) : String := ",".intercalate a.sortedEvidence

def fields (a : FingerprintParts) : List String :=
  ["fpv=" ++ a.fingerprintVersion, "action=" ++ a.actionType, "goal=" ++ a.targetGoalId,
    "project=" ++ a.targetProjectId.getD "", "obj=" ++ normalizeObjective tables a.objective,
    "evidence=" ++ a.joinedEvidence, "mat=" ++ a.materializerSchemaVersion]

/-- No unit separator stands in a part. -/
structure Plain (a : FingerprintParts) : Prop where
  actionType : unitSeparator ∉ a.actionType.toList
  targetGoalId : unitSeparator ∉ a.targetGoalId.toList
  targetProjectId : ∀ projectId, a.targetProjectId = some projectId → unitSeparator ∉ projectId.toList
  evidenceRefs : ∀ ref ∈ a.evidenceRefs, unitSeparator ∉ ref.toList
  materializerSchemaVersion : unitSeparator ∉ a.materializerSchemaVersion.toList
  fingerprintVersion : unitSeparator ∉ a.fingerprintVersion.toList

structure SameRest (a b : FingerprintParts) : Prop where
  actionType : a.actionType = b.actionType
  targetGoalId : a.targetGoalId = b.targetGoalId
  objective : normalizeObjective tables a.objective = normalizeObjective tables b.objective
  materializerSchemaVersion : a.materializerSchemaVersion = b.materializerSchemaVersion
  fingerprintVersion : a.fingerprintVersion = b.fingerprintVersion

/-- The same parts, the evidence in any order. -/
def SameParts (a b : FingerprintParts) : Prop :=
  SameRest tables a b ∧ a.targetProjectId = b.targetProjectId ∧ a.evidenceRefs.Perm b.evidenceRefs

def ProjectAliased (a b : FingerprintParts) : Prop :=
  a.targetProjectId = none ∧ b.targetProjectId = some "" ∨ a.targetProjectId = some "" ∧ b.targetProjectId = none

def EvidenceAliased (a b : FingerprintParts) : Prop :=
  Regrouped ',' a.sortedEvidence b.sortedEvidence ∨ NoneAgainstBlank a.evidenceRefs b.evidenceRefs

/-- No project stands for the empty id, refs with commas for several refs, or no ref for an empty one; the rest is the
same. -/
structure Aliased (a b : FingerprintParts) : Prop where
  rest : SameRest tables a b
  project : a.targetProjectId = b.targetProjectId ∨ ProjectAliased a b
  evidence : a.evidenceRefs.Perm b.evidenceRefs ∨ EvidenceAliased a b
  differ : ProjectAliased a b ∨ EvidenceAliased a b

end FingerprintParts

def dedupFingerprint (tables : UnicodeTables) (sha256 : String → String) (a : FingerprintParts) : String :=
  sha256 ((String.singleton unitSeparator).intercalate (a.fields tables))

section Fingerprints

open FingerprintParts

variable {tables : UnicodeTables} {sha256 : String → String} {a b : FingerprintParts}

theorem unitSeparator_notMem_collapseSpaces (inRun : Bool) (cs : List Char) : unitSeparator ∉ collapseSpaces inRun cs := by
  induction cs generalizing inRun with
  | nil => exact List.not_mem_nil
  | cons c cs ih =>
    rw [collapseSpaces]
    by_cases hspace : PyText.isSpace c = true
    · rw [if_pos hspace]
      cases inRun with
      | true => exact ih true
      | false =>
        rw [if_neg Bool.false_ne_true, List.mem_cons, not_or]
        exact ⟨by decide, ih true⟩
    · rw [if_neg hspace, List.mem_cons, not_or]
      refine ⟨?_, ih false⟩
      rintro rfl
      exact hspace (by decide)

theorem notMem_append {s t : String} {c : Char} (hs : c ∉ s.toList) (ht : c ∉ t.toList) : c ∉ (s ++ t).toList := by
  rw [String.toList_append, List.mem_append, not_or]
  exact ⟨hs, ht⟩

theorem notMem_intercalate {x c : Char} {ls : List String} (hx : c ≠ x) (h : ∀ s ∈ ls, c ∉ s.toList) :
    c ∉ ((String.singleton x).intercalate ls).toList := by
  rw [toList_intercalate_singleton]
  induction ls with
  | nil => exact List.not_mem_nil
  | cons s ls ih =>
    rw [List.forall_mem_cons] at h
    cases ls with
    | nil => simpa [List.intercalate] using h.1
    | cons t ls =>
      rw [List.map_cons, List.map_cons, intercalate_cons_cons, List.mem_append, List.mem_cons, not_or, not_or]
      exact ⟨h.1, hx, ih h.2⟩

theorem FingerprintParts.Plain.notMem_fields (h : a.Plain) : ∀ s ∈ a.fields tables, unitSeparator ∉ s.toList := by
  have hproject : unitSeparator ∉ (a.targetProjectId.getD "").toList := by
    cases hid : a.targetProjectId with
    | none => exact List.not_mem_nil
    | some projectId => exact h.targetProjectId projectId hid
  have hobjective : unitSeparator ∉ (normalizeObjective tables a.objective).toList := by
    unfold normalizeObjective
    rw [String.toList_ofList]
    exact unitSeparator_notMem_collapseSpaces _ _
  have hevidence : unitSeparator ∉ a.joinedEvidence.toList := by
    refine notMem_intercalate (x := ',') (by decide) fun ref href => ?_
    exact h.evidenceRefs ref ((List.mem_insertionSort _).mp href)
  intro s hs
  unfold fields at hs
  simp only [List.mem_cons, List.not_mem_nil, or_false] at hs
  rcases hs with rfl | rfl | rfl | rfl | rfl | rfl | rfl
  · exact notMem_append (by decide) h.fingerprintVersion
  · exact notMem_append (by decide) h.actionType
  · exact notMem_append (by decide) h.targetGoalId
  · exact notMem_append (by decide) hproject
  · exact notMem_append (by decide) hobjective
  · exact notMem_append (by decide) hevidence
  · exact notMem_append (by decide) h.materializerSchemaVersion

theorem dedupFingerprint_eq_iff (hsha256 : Function.Injective sha256) (ha : a.Plain) (hb : b.Plain) :
    dedupFingerprint tables sha256 a = dedupFingerprint tables sha256 b ↔
      SameRest tables a b ∧ a.targetProjectId.getD "" = b.targetProjectId.getD "" ∧ a.joinedEvidence = b.joinedEvidence := by
  constructor
  · intro h
    have hfields := join_inj_of_notMem ha.notMem_fields hb.notMem_fields (List.cons_ne_nil _ _) (List.cons_ne_nil _ _)
      (hsha256 h)
    unfold fields at hfields
    simp only [List.cons.injEq, and_true] at hfields
    obtain ⟨hversion, haction, hgoal, hproject, hobjective, hevidence, hschema⟩ := hfields
    exact ⟨⟨append_left_inj haction, append_left_inj hgoal, append_left_inj hobjective, append_left_inj hschema,
      append_left_inj hversion⟩, append_left_inj hproject, append_left_inj hevidence⟩
  · rintro ⟨hrest, hproject, hevidence⟩
    unfold dedupFingerprint fields
    rw [hrest.actionType, hrest.targetGoalId, hrest.objective, hrest.materializerSchemaVersion, hrest.fingerprintVersion,
      hproject, hevidence]

theorem sortedEvidence_eq_iff : a.sortedEvidence = b.sortedEvidence ↔ a.evidenceRefs.Perm b.evidenceRefs := by
  have hsorted (refs : List String) : (refs.insertionSort (· ≤ ·)).Perm refs := List.perm_insertionSort _ refs
  constructor
  · intro h
    refine (hsorted a.evidenceRefs).symm.trans (List.Perm.trans ?_ (hsorted b.evidenceRefs))
    exact .of_eq h
  · intro h
    exact List.Perm.eq_of_pairwise' (List.pairwise_insertionSort (· ≤ ·) a.evidenceRefs)
      (List.pairwise_insertionSort (· ≤ ·) b.evidenceRefs) ((hsorted _).trans (h.trans (hsorted _).symm))

theorem sortedEvidence_eq_of_short {refs : List String} (href : refs.length ≤ 1) :
    a.sortedEvidence = refs ↔ a.evidenceRefs = refs := by
  have hperm : a.sortedEvidence.Perm a.evidenceRefs := List.perm_insertionSort _ a.evidenceRefs
  match refs, href with
  | [], _ => rw [← List.perm_nil, ← List.perm_nil]; exact ⟨hperm.symm.trans, hperm.trans⟩
  | [ref], _ => rw [← List.perm_singleton, ← List.perm_singleton]; exact ⟨hperm.symm.trans, hperm.trans⟩

theorem joinedEvidence_eq_iff :
    a.joinedEvidence = b.joinedEvidence ↔ a.evidenceRefs.Perm b.evidenceRefs ∨ EvidenceAliased a b := by
  have hjoin : a.joinedEvidence = b.joinedEvidence ↔ (String.singleton ',').intercalate a.sortedEvidence =
      (String.singleton ',').intercalate b.sortedEvidence := Iff.rfl
  rw [hjoin, join_eq_iff, sortedEvidence_eq_iff]
  unfold EvidenceAliased NoneAgainstBlank
  simp only [sortedEvidence_eq_of_short (List.length_nil.trans_le (Nat.zero_le 1)),
    sortedEvidence_eq_of_short (List.length_singleton.le)]

theorem perm_of_joinedEvidence (ha : ∀ ref ∈ a.evidenceRefs, ',' ∉ ref.toList) (hb : ∀ ref ∈ b.evidenceRefs, ',' ∉ ref.toList)
    (hblank : ¬NoneAgainstBlank a.evidenceRefs b.evidenceRefs) (h : a.joinedEvidence = b.joinedEvidence) :
    a.evidenceRefs.Perm b.evidenceRefs := by
  refine (joinedEvidence_eq_iff.mp h).resolve_right ?_
  rintro (hregrouped | hnone)
  · refine not_regrouped_of_notMem (fun ref href => ?_) (fun ref href => ?_) hregrouped
    · exact ha ref ((List.mem_insertionSort _).mp href)
    · exact hb ref ((List.mem_insertionSort _).mp href)
  · exact hblank hnone

theorem project_eq_iff : a.targetProjectId.getD "" = b.targetProjectId.getD "" ↔
    a.targetProjectId = b.targetProjectId ∨ ProjectAliased a b := by
  unfold ProjectAliased
  cases a.targetProjectId <;> cases b.targetProjectId <;> simp [eq_comm]

theorem not_projectAliased (h : a.targetProjectId = b.targetProjectId) : ¬ProjectAliased a b := by
  rintro (⟨ha, hb⟩ | ⟨ha, hb⟩)
  · rw [ha, hb] at h
    cases h
  · rw [ha, hb] at h
    cases h

theorem not_evidenceAliased (h : a.evidenceRefs.Perm b.evidenceRefs) : ¬EvidenceAliased a b := by
  rintro (hregrouped | ⟨ha, hb⟩ | ⟨ha, hb⟩)
  · exact hregrouped.differ (sortedEvidence_eq_iff.mpr h)
  · rw [ha, hb] at h
    cases h.length_eq
  · rw [ha, hb] at h
    cases h.length_eq

/-- The fingerprints of two calls are told apart by the parts unless the calls are aliases of each other. -/
theorem fingerprints_by_parts (hsha256 : Function.Injective sha256) (ha : a.Plain) (hb : b.Plain) :
    (dedupFingerprint tables sha256 a = dedupFingerprint tables sha256 b ↔ SameParts tables a b) ↔ ¬Aliased tables a b := by
  rw [dedupFingerprint_eq_iff hsha256 ha hb, project_eq_iff, joinedEvidence_eq_iff]
  unfold SameParts
  constructor
  · rintro h ⟨hrest, hproject, hevidence, hdiffer⟩
    obtain ⟨-, hsame, hperm⟩ := h.mp ⟨hrest, hproject, hevidence⟩
    rcases hdiffer with hdiffer | hdiffer
    · exact not_projectAliased hsame hdiffer
    · exact not_evidenceAliased hperm hdiffer
  · intro haliased
    constructor
    · rintro ⟨hrest, hproject, hevidence⟩
      have hnone : ¬(ProjectAliased a b ∨ EvidenceAliased a b) := fun h => haliased ⟨hrest, hproject, hevidence, h⟩
      rw [not_or] at hnone
      exact ⟨hrest, hproject.resolve_right hnone.1, hevidence.resolve_right hnone.2⟩
    · rintro ⟨hrest, hproject, hperm⟩
      exact ⟨hrest, .inl hproject, .inl hperm⟩

def asciiTables : UnicodeTables := ⟨String.toLower, fun c => c.isAlphanum || c = '_'⟩

def commaEvidence (evidenceRefs : List String) : FingerprintParts :=
  { actionType := "create_work", targetGoalId := "g1", targetProjectId := none, objective := "do the thing",
    evidenceRefs := evidenceRefs, materializerSchemaVersion := "1" }

theorem plain_commaEvidence {evidenceRefs : List String} (h : ∀ ref ∈ evidenceRefs, unitSeparator ∉ ref.toList) :
    (commaEvidence evidenceRefs).Plain where
  actionType := (by decide : unitSeparator ∉ "create_work".toList)
  targetGoalId := (by decide : unitSeparator ∉ "g1".toList)
  targetProjectId := fun projectId hid => by cases hid
  evidenceRefs := h
  materializerSchemaVersion := (by decide : unitSeparator ∉ "1".toList)
  fingerprintVersion := (by decide : unitSeparator ∉ "1".toList)

def evidenceDigests : Equiv.Perm String :=
  twoDigests ((String.singleton unitSeparator).intercalate ((commaEvidence ["ev1", "ev2"]).fields asciiTables))
    "b86c3466bf4b33ecc878016d53a66d8467831d99313cf3426bd28ea866603618"
    ((String.singleton unitSeparator).intercalate ((commaEvidence ["ev1", "ev3"]).fields asciiTables))
    "a30358d96b5c391182475bf8fdf252ff69072841cf5b637bca6756a025d6581d"

theorem fingerprints_by_parts_of_refs :
    (dedupFingerprint asciiTables evidenceDigests (commaEvidence ["ev2", "ev1"]) =
        dedupFingerprint asciiTables evidenceDigests (commaEvidence ["ev1", "ev3"]) ↔
        SameParts asciiTables (commaEvidence ["ev2", "ev1"]) (commaEvidence ["ev1", "ev3"])) ↔
      ¬Aliased asciiTables (commaEvidence ["ev2", "ev1"]) (commaEvidence ["ev1", "ev3"]) :=
  fingerprints_by_parts evidenceDigests.injective (plain_commaEvidence (by decide)) (plain_commaEvidence (by decide))

/-- Two refs and one ref with a comma in it. -/
theorem evidence_with_comma_collides :
    ¬∀ (tables : UnicodeTables) (sha256 : String → String) (a b : FingerprintParts), Function.Injective sha256 → a.Plain →
      b.Plain → (dedupFingerprint tables sha256 a = dedupFingerprint tables sha256 b ↔ SameParts tables a b) := by
  intro h
  have hplain := @plain_commaEvidence ["ev1,ev2"] (by decide)
  have hplain' := @plain_commaEvidence ["ev1", "ev2"] (by decide)
  have hsame := (h asciiTables id _ _ Function.injective_id hplain hplain').mp
    ((dedupFingerprint_eq_iff Function.injective_id hplain hplain').mpr ⟨⟨rfl, rfl, rfl, rfl, rfl⟩, rfl, by decide⟩)
  have hlength := hsame.2.2.length_eq
  cases hlength

end Fingerprints

/-! ## Handoff packages -/

inductive Classification where
  | ordinary | approvalRequired
  deriving DecidableEq

structure ClassificationResult where
  classification : Classification
  protectedReasons : List String

/-- The fields of a `ChangeDescriptor` that are handed off. -/
structure ChangeDescriptor where
  proposalId : String
  proposalRevision : ℤ
  candidateHash : String
  baselineHash : String

structure HandoffPackage where
  proposalId : String
  proposalRevision : ℤ
  candidateHash : String
  baselineHash : String
  protectedReasons : List String
  requestedBoundaryChange : String
  protectionPolicyVersion : String
  nonce : String
  expiresAt : String
  handoffHash : String := ""
  deriving DecidableEq

namespace HandoffPackage

def fields (p : HandoffPackage) : List String :=
  [p.proposalId, toString p.proposalRevision, p.candidateHash, p.baselineHash, ",".intercalate p.protectedReasons,
    p.requestedBoundaryChange, p.protectionPolicyVersion, p.nonce]

def hashedText (p : HandoffPackage) : String := (String.singleton unitSeparator).intercalate p.fields

def computeHash (sha256 : String → String) (p : HandoffPackage) : Except Exn String :=
  if PyText.Printable p.proposalRevision then .ok (sha256 p.hashedText)
  else .error (.valueError "Exceeds the limit (4300 digits) for integer string conversion")

/-- Another package under the hash of this one. -/
structure Drifted (p q : HandoffPackage) : Prop where
  hash : q.handoffHash = p.handoffHash
  differs : q ≠ p

/-- The packages differ in nothing but the expiry and the separators: one of those between the fields, or between the
reasons, stands elsewhere. -/
def Hidden (p q : HandoffPackage) : Prop :=
  Regrouped unitSeparator p.fields q.fields ∨
    q = { p with protectedReasons := q.protectedReasons, expiresAt := q.expiresAt } ∧
      (p.protectedReasons = q.protectedReasons ∨ Regrouped ',' p.protectedReasons q.protectedReasons ∨
        NoneAgainstBlank p.protectedReasons q.protectedReasons)

/-- The revision has a text, and the drift is not hidden. -/
structure Shows (p q : HandoffPackage) : Prop where
  printable : PyText.Printable q.proposalRevision
  plain : ¬Hidden p q

end HandoffPackage

def protectionPolicyVersion : String := "1"

def buildHandoff (sha256 : String → String) (change : ChangeDescriptor) (result : ClassificationResult)
    (requestedBoundaryChange nonce expiresAt : String) : Except Exn HandoffPackage :=
  if result.classification ≠ .approvalRequired then
    .error (.valueError "handoff only built for APPROVAL_REQUIRED changes")
  else
    let p : HandoffPackage :=
      { proposalId := change.proposalId, proposalRevision := change.proposalRevision, candidateHash := change.candidateHash
        baselineHash := change.baselineHash, protectedReasons := result.protectedReasons
        requestedBoundaryChange := requestedBoundaryChange, protectionPolicyVersion := protectionPolicyVersion
        nonce := nonce, expiresAt := expiresAt }
    (p.computeHash sha256).map fun hash => { p with handoffHash := hash }

def handoffValid (sha256 : String → String) (p : HandoffPackage) (currentCandidateHash : String)
    (currentProposalRevision : ℤ) : Except Exn Bool :=
  if p.candidateHash ≠ currentCandidateHash then .ok false
  else if p.proposalRevision ≠ currentProposalRevision then .ok false
  else (p.computeHash sha256).map fun hash => decide (p.handoffHash = hash)

section Handoffs

variable {sha256 : String → String} {change : ChangeDescriptor} {result : ClassificationResult}
  {requestedBoundaryChange nonce expiresAt : String} {p q : HandoffPackage}

theorem handoffHash_of_buildHandoff (h : buildHandoff sha256 change result requestedBoundaryChange nonce expiresAt = .ok p) :
    p.handoffHash = sha256 p.hashedText := by
  unfold buildHandoff HandoffPackage.computeHash at h
  split at h
  · cases h
  · dsimp only at h
    split at h
    · cases h
      rfl
    · cases h

theorem handoffValid_self (sha256 : String → String) (q : HandoffPackage) :
    handoffValid sha256 q q.candidateHash q.proposalRevision = (q.computeHash sha256).map fun hash => decide (q.handoffHash = hash) := by
  rw [handoffValid, if_neg (not_not.mpr rfl), if_neg (not_not.mpr rfl)]

theorem handoffValid_of_hash (hprintable : PyText.Printable q.proposalRevision) (hhash : q.handoffHash = sha256 q.hashedText) :
    handoffValid sha256 q q.candidateHash q.proposalRevision = .ok true := by
  have hcompute : q.computeHash sha256 = .ok (sha256 q.hashedText) := if_pos hprintable
  rw [handoffValid_self, hcompute, hhash]
  exact congrArg Except.ok (decide_eq_true rfl)

theorem fields_eq_iff (hhash : q.handoffHash = p.handoffHash) : p.fields = q.fields ↔
    q = { p with protectedReasons := q.protectedReasons, expiresAt := q.expiresAt } ∧
      ",".intercalate p.protectedReasons = ",".intercalate q.protectedReasons := by
  obtain ⟨proposalId, proposalRevision, candidateHash, baselineHash, reasons, change, policy, nonce, expiresAt, hash⟩ := p
  obtain ⟨proposalId', proposalRevision', candidateHash', baselineHash', reasons', change', policy', nonce', expiresAt',
    hash'⟩ := q
  obtain rfl : hash' = hash := hhash
  have hrevision : toString proposalRevision = toString proposalRevision' ↔ proposalRevision = proposalRevision' :=
    ⟨fun h => Int.repr_injective h, congrArg _⟩
  simp only [HandoffPackage.fields, List.cons.injEq, and_true, HandoffPackage.mk.injEq, hrevision]
  constructor
  · rintro ⟨rfl, rfl, rfl, rfl, hreasons, rfl, rfl, rfl⟩
    exact ⟨⟨rfl, rfl, rfl, rfl, trivial, rfl, rfl, rfl⟩, hreasons⟩
  · rintro ⟨⟨rfl, rfl, rfl, rfl, -, rfl, rfl, rfl⟩, hreasons⟩
    exact ⟨rfl, rfl, rfl, rfl, hreasons, rfl, rfl, rfl⟩

theorem hashedText_eq_iff (hhash : q.handoffHash = p.handoffHash) : p.hashedText = q.hashedText ↔ HandoffPackage.Hidden p q := by
  have hfull : ¬NoneAgainstBlank p.fields q.fields := by
    rintro (⟨hnone, -⟩ | ⟨-, hnone⟩)
    · cases hnone
    · cases hnone
  have hreasons : ",".intercalate p.protectedReasons = ",".intercalate q.protectedReasons ↔ _ :=
    join_eq_iff (x := ',')
  unfold HandoffPackage.hashedText HandoffPackage.Hidden
  rw [join_eq_iff, fields_eq_iff hhash, hreasons, or_iff_left hfull, or_comm]

/-- Where the separators are as many in corresponding fields and reasons, a change of any field but the expiry shows. -/
theorem shows_of_separators (hprintable : PyText.Printable q.proposalRevision)
    (hfields : separators unitSeparator q.fields = separators unitSeparator p.fields)
    (hreasons : separators ',' q.protectedReasons = separators ',' p.protectedReasons)
    (hdiffers : q ≠ { p with expiresAt := q.expiresAt }) : HandoffPackage.Shows p q := by
  refine ⟨hprintable, ?_⟩
  rintro (hregrouped | ⟨hq, hsame | hregrouped | ⟨hp, hq'⟩ | ⟨hp, hq'⟩⟩)
  · exact hregrouped.separators_ne hfields.symm
  · rw [← hsame] at hq
    exact hdiffers hq
  · exact hregrouped.separators_ne hreasons.symm
  · rw [hp, hq'] at hreasons
    cases hreasons
  · rw [hp, hq'] at hreasons
    cases hreasons

/-- A package that drifted is found invalid if and only if the drift shows in the fields that are hashed. -/
theorem handoff_invalidated_iff (hsha256 : Function.Injective sha256)
    (hbuilt : buildHandoff sha256 change result requestedBoundaryChange nonce expiresAt = .ok p)
    (hdrifted : HandoffPackage.Drifted p q) :
    handoffValid sha256 q q.candidateHash q.proposalRevision = .ok false ↔ HandoffPackage.Shows p q := by
  have hhash := handoffHash_of_buildHandoff hbuilt
  rw [handoffValid_self, hdrifted.hash, hhash]
  unfold HandoffPackage.computeHash
  by_cases hprintable : PyText.Printable q.proposalRevision
  · rw [if_pos hprintable]
    have hmap : (Except.map (fun hash => decide (sha256 p.hashedText = hash)) (.ok (sha256 q.hashedText)) : Except Exn Bool) =
        .ok (decide (sha256 p.hashedText = sha256 q.hashedText)) := rfl
    rw [hmap, Except.ok.injEq, decide_eq_false_iff_not, hsha256.eq_iff, hashedText_eq_iff hdrifted.hash]
    exact ⟨fun h => ⟨hprintable, h⟩, HandoffPackage.Shows.plain⟩
  · rw [if_neg hprintable]
    constructor
    · intro h
      cases h
    · intro h
      exact absurd h.printable hprintable

def sampleChange : ChangeDescriptor := ⟨"p1", 1, "ch1", "bh1"⟩

def sampleResult : ClassificationResult := ⟨.approvalRequired, ["detector unknown/insufficient (fail-closed)"]⟩

def unhashedPackage (expiresAt : String) : HandoffPackage :=
  { proposalId := "p1", proposalRevision := 1, candidateHash := "ch1", baselineHash := "bh1"
    protectedReasons := ["detector unknown/insufficient (fail-closed)"], requestedBoundaryChange := "weaken audit retention"
    protectionPolicyVersion := "1", nonce := "n1", expiresAt := expiresAt }

def handoffDigests : Equiv.Perm String :=
  twoDigests (unhashedPackage "2026-10-01").hashedText "c49b57a3e07f972d4caaec8b234ef70871b60831ac9f7d4849dad56a8c716ed3"
    { unhashedPackage "2026-10-01" with nonce := "n2" }.hashedText
    "3587a9ee9d22e299c090461d4f31aa25534a28984de969103e1d63405a9bc924"

def samplePackage (expiresAt : String) : HandoffPackage :=
  { unhashedPackage expiresAt with
    handoffHash := "c49b57a3e07f972d4caaec8b234ef70871b60831ac9f7d4849dad56a8c716ed3" }

theorem printable_one_revision : PyText.Printable 1 := by
  have hone : ∀ k, k ≠ 0 → (1 : ℤ).natAbs < 10 ^ k := fun k hk => Nat.one_lt_pow hk (by decide)
  unfold PyText.Printable
  apply hone
  decide

theorem handoffDigests_sample (expiresAt : String) : handoffDigests (unhashedPackage expiresAt).hashedText =
    "c49b57a3e07f972d4caaec8b234ef70871b60831ac9f7d4849dad56a8c716ed3" := by
  have htext : (unhashedPackage expiresAt).hashedText = (unhashedPackage "2026-10-01").hashedText := rfl
  rw [htext]
  unfold handoffDigests twoDigests
  rw [Equiv.trans_apply, Equiv.swap_apply_left]
  exact Equiv.swap_apply_of_ne_of_ne (by decide) (by decide)

theorem buildHandoff_sample (expiresAt : String) :
    buildHandoff handoffDigests sampleChange sampleResult "weaken audit retention" "n1" expiresAt =
      .ok (samplePackage expiresAt) := by
  have hprintable : PyText.Printable sampleChange.proposalRevision := printable_one_revision
  have hhash := handoffDigests_sample expiresAt
  simp only [buildHandoff, HandoffPackage.computeHash, if_pos hprintable]
  exact congrArg (fun hash => Except.ok { unhashedPackage expiresAt with handoffHash := hash }) hhash

theorem handoff_invalidated_iff_of_nonce :
    handoffValid handoffDigests { samplePackage "2026-10-01" with nonce := "n2" } "ch1" 1 = .ok false ↔
      HandoffPackage.Shows (samplePackage "2026-10-01") { samplePackage "2026-10-01" with nonce := "n2" } :=
  handoff_invalidated_iff handoffDigests.injective (buildHandoff_sample "2026-10-01") ⟨rfl, by decide⟩

/-- The expiry is postponed. -/
theorem postponed_expiry_valid :
    ¬∀ (sha256 : String → String) (change : ChangeDescriptor) (result : ClassificationResult)
      (requestedBoundaryChange nonce expiresAt : String) (p q : HandoffPackage), Function.Injective sha256 →
      buildHandoff sha256 change result requestedBoundaryChange nonce expiresAt = .ok p → HandoffPackage.Drifted p q →
      handoffValid sha256 q q.candidateHash q.proposalRevision = .ok false := by
  intro h
  have hinvalid := h handoffDigests sampleChange sampleResult "weaken audit retention" "n1" "2026-10-01"
    (samplePackage "2026-10-01") { samplePackage "2026-10-01" with expiresAt := "2099-10-01" } handoffDigests.injective
    (buildHandoff_sample _) ⟨rfl, by decide⟩
  have hvalid := @handoffValid_of_hash handoffDigests { samplePackage "2026-10-01" with expiresAt := "2099-10-01" }
    printable_one_revision (handoffDigests_sample "2099-10-01").symm
  have hsame : Except.ok (ε := Exn) false = .ok true := hinvalid.symm.trans hvalid
  cases hsame

end Handoffs

end AllTomorrow
