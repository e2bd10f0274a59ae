import AllTomorrow.DomainRecords
import Mathlib.Data.Finset.Image
import Mathlib.Data.List.DropRight

/-!
# The repository of a checkout

`WorkspaceResolver` of `workspace.py`. What follows the first `@` of an identity is read as its ref, and in an SSH
address the first `@` stands after the user.
-/

namespace AllTomorrow.Workspace

structure WorkspaceBinding where
  executorId : String
  projectId : String
  path : String
  allowedRoot : String
  expectedSourceRef : Option String := none
  nonempty : ∀ s ∈ [executorId, projectId, path, allowedRoot], PyText.isBlank s = false

structure DirtyTreeObservation where
  isDirty : Bool
  currentBranch : Option String
  headRef : Option String
  untrackedPresent : Bool := false

structure ResolvedWorkspace where
  executorId : String
  projectId : String
  resolvedPath : String
  allowedRoot : String
  dirty : Option DirtyTreeObservation

/-- The calls of `os.path`; `commonpath` raises for paths on two drives. -/
structure HostPaths where
  norm : String → String
  isdir : String → Bool
  commonpath : String → String → Option String
  /-- `f"{sorted(paths)}"` -/
  reprSorted : Finset String → String

/-- `str.lower`, which treats the two sides of an `@` apart and makes no `@`. -/
structure Lowering where
  lower : List Char → List Char
  lower_at : ∀ l r, lower (l ++ '@' :: r) = lower l ++ '@' :: lower r
  at_mem : ∀ l, '@' ∈ lower l → '@' ∈ l

/-! ## Comparing identities -/

/-- `s.strip()` -/
def strip (s : List Char) : List Char := (s.dropWhile PyText.isSpace).rdropWhile PyText.isSpace

def dotGit : List Char := ['.', 'g', 'i', 't']

/-- Without trailing slashes, and then without `.git`. -/
def trim (s : List Char) : List Char :=
  let s := s.rdropWhile (· = '/')
  if dotGit <:+ s then s.rdrop 4 else s

/-- `s.partition("@")`, without the separator -/
def partition (s : List Char) : List Char × List Char := (s.takeWhile (· ≠ '@'), (s.dropWhile (· ≠ '@')).tail)

variable (low : Lowering)

def canon (s : List Char) : List Char := low.lower (trim (strip s))

def sourceMatches (expected observed : List Char) : Bool :=
  let (expRepo, expRef) := partition expected
  let (obsRepo, obsRef) := partition observed
  if canon low expRepo ≠ canon low obsRepo then false
  else if expRef ≠ [] ∧ obsRef ≠ [] ∧ expRef ≠ obsRef then false
  else true

def resolve (host : HostPaths) (bindings : InsertionDict (String × String) WorkspaceBinding) (executorId projectId : String)
    (workerAllowedRoots : Finset String) (observedSourceRef : Option String) (observeDirty : Option DirtyTreeObservation) :
    Except Exn ResolvedWorkspace := do
  match bindings.get? (executorId, projectId) with
  | none => throw (.foreign "WorkspaceResolutionError" s!"unknown workspace: executor={executorId} project={projectId}")
  | some binding =>
    let path := host.norm binding.path
    let root := host.norm binding.allowedRoot
    if !host.isdir path then
      throw (.foreign "WorkspaceResolutionError" s!"workspace path is missing or not a directory: {binding.path}")
    if host.commonpath (host.norm path) (host.norm root) ≠ some (host.norm root) then
      throw (.foreign "WorkspaceEscapeError" s!"workspace {path} escapes allowed_root {root}")
    let workerRoots := workerAllowedRoots.image host.norm
    if root ∉ workerRoots then
      throw (.foreign "WorkspaceEscapeError"
        s!"allowed_root {root} not in worker allowed_roots {host.reprSorted workerRoots}")
    match binding.expectedSourceRef, observedSourceRef with
    | some expected, some observed =>
      if expected ≠ "" ∧ !sourceMatches low expected.toList observed.toList then
        throw (.foreign "SourceIdentityMismatchError" s!"source mismatch: expected {expected}, observed {observed}")
    | _, _ => pure ()
    return ⟨executorId, projectId, path, root, observeDirty⟩

/-! ## Identities -/

/-- The addresses of a repository; a `.git` ending and trailing slashes are part of the text. A URL may hold an `@`, as
after its user info, but does not end with one. -/
inductive RemoteAddress where
  | https (text : List Char) (starts : "https:".toList <+: text) (plain : ∀ c ∈ text, PyText.isSpace c = false)
    (ends : text.getLast? ≠ some '@')
  /-- `user@host:path` -/
  | ssh (user host path : List Char) (user_plain : ∀ c ∈ user, c ≠ '@')

def RemoteAddress.text : RemoteAddress → List Char
  | .https text _ _ _ => text
  | .ssh user host path _ => user ++ '@' :: (host ++ ':' :: path)

structure RemoteIdentity where
  address : RemoteAddress
  ref : Option (List Char)
  ref_ne_nil : ∀ r, ref = some r → r ≠ []

namespace RemoteIdentity

/-- The text of the ref, with the `@` before it. -/
def refText : Option (List Char) → List Char
  | none => []
  | some r => '@' :: r

def text (i : RemoteIdentity) : List Char := i.address.text ++ refText i.ref

/-- The addresses are the same but for `.git`, trailing slashes and case, and the refs do not differ. -/
def SameSource (i j : RemoteIdentity) : Prop :=
  low.lower (trim i.address.text) = low.lower (trim j.address.text) ∧ ∀ r r', i.ref = some r → j.ref = some r' → r = r'

/-- The address up to its first `@`. -/
def front (i : RemoteIdentity) : List Char := (partition i.address.text).1

/-- The address after its first `@`; empty if it has none. -/
def back (i : RemoteIdentity) : List Char := (partition i.address.text).2

def rest (i : RemoteIdentity) : List Char := i.back ++ refText i.ref

/-- An address with an `@` is not taken for the one without: its text up to there is another, or the refs differ. -/
def Apart (i j : RemoteIdentity) : Prop := canon low i.front = canon low j.front → ∃ r, i.ref = some r ∧ r ≠ j.rest

/-- Two addresses with an `@` that are for one source have the same text after it, and texts before it that stay the same
when they are trimmed; and texts before it that differ do so when trimmed, if what follows them is the same, which then
is split into address and ref at one place. -/
structure Aligned (i j : RemoteIdentity) : Prop where
  same : SameSource low i j → canon low i.front = canon low j.front ∧ i.rest = j.rest
  apart : i.rest = j.rest → canon low i.front = canon low j.front → low.lower i.front = low.lower j.front ∧ i.ref = j.ref

/-- A text with an `@` is apart from one without, and two with an `@` are aligned. -/
def Readable (i j : RemoteIdentity) : Prop :=
  if i.back = [] then j.back = [] ∨ Apart low i j else if j.back = [] then Apart low j i else Aligned low i j

end RemoteIdentity

open RemoteIdentity

theorem partition_append {l : List Char} (h : ∀ c ∈ l, c ≠ '@') (r : List Char) : partition (l ++ '@' :: r) = (l, r) := by
  have htake : ∀ c ∈ l, decide (c ≠ '@') = true := fun c hc => decide_eq_true (h c hc)
  rw [partition, List.takeWhile_append_of_pos htake, List.dropWhile_append_of_pos htake]
  simp

theorem partition_refText {l : List Char} (h : ∀ c ∈ l, c ≠ '@') (ref : Option (List Char)) :
    partition (l ++ refText ref) = (l, ref.getD []) := by
  cases ref with
  | some r => exact partition_append h r
  | none =>
    have htake : ∀ c ∈ l, decide (c ≠ '@') = true := fun c hc => decide_eq_true (h c hc)
    rw [partition, refText, List.append_nil, List.takeWhile_eq_self_iff.mpr htake, List.dropWhile_eq_nil_iff.mpr htake]
    rfl

/-- Trimming does not pass over a character that is no slash and not in `.git`. -/
theorem trim_append {c : Char} (hslash : c ≠ '/') (hgit : c ∉ dotGit) (l r : List Char) :
    trim (l ++ c :: r) = l ++ c :: trim r := by
  have hdrop : (l ++ c :: r).rdropWhile (· = '/') = l ++ c :: r.rdropWhile (· = '/') := by
    simp only [List.rdropWhile, List.reverse_append, List.reverse_cons, List.append_assoc, List.dropWhile_append]
    split
    · rename_i hempty
      simp [List.isEmpty_iff.mp hempty, hslash]
    · simp
  have hsuffix (x : List Char) : dotGit <:+ l ++ c :: x ↔ dotGit <:+ x := by
    constructor
    · rintro ⟨before, heq⟩
      rcases List.append_eq_append_iff.mp heq with ⟨mid, _, hmid⟩ | ⟨mid, _, hmid⟩
      · rw [hmid] at hgit
        exact absurd (List.mem_append_right mid List.mem_cons_self) hgit
      · cases mid with
        | nil =>
          rw [List.nil_append] at hmid
          exact absurd (hmid ▸ List.mem_cons_self) hgit
        | cons d mid => exact ⟨mid, (List.cons.inj hmid).2.symm⟩
    · intro h
      exact h.trans ((List.suffix_cons c x).trans (List.suffix_append l _))
  simp only [trim, hdrop, hsuffix]
  split
  · rename_i h
    obtain ⟨before, heq⟩ := h
    rw [← heq]
    change (l ++ c :: (before ++ dotGit)).rdrop dotGit.length = l ++ c :: (before ++ dotGit).rdrop dotGit.length
    rw [← List.cons_append, ← List.append_assoc, List.rdrop_append_length, List.rdrop_append_length]
  · rfl

theorem trim_isInitial (s : List Char) : trim s <+: s := by
  have hdrop := List.rdropWhile_prefix (fun c => decide (c = '/')) s
  simp only [trim]
  split
  · exact (List.take_prefix _ _).trans hdrop
  · exact hdrop

theorem strip_plain {s : List Char} (h : ∀ c ∈ s, PyText.isSpace c = false) : strip s = s := by
  have hdrop : s.dropWhile PyText.isSpace = s := by
    cases s with
    | nil => rfl
    | cons c s => rw [List.dropWhile_cons, h c List.mem_cons_self, if_neg Bool.false_ne_true]
  rw [strip, hdrop, List.rdropWhile_eq_self_iff]
  intro hne
  rw [h _ (List.getLast_mem hne)]
  exact Bool.false_ne_true

variable {low}

theorem count_lower (l : List Char) : (low.lower l).count '@' = l.count '@' := by
  induction hn : l.length using Nat.strong_induction_on generalizing l with
  | _ n ih =>
    by_cases hat : '@' ∈ l
    · obtain ⟨a, b, rfl⟩ := List.append_of_mem hat
      rw [List.length_append, List.length_cons] at hn
      rw [low.lower_at, List.count_append, List.count_append, List.count_cons, List.count_cons, ih _ (by omega) a rfl,
        ih _ (by omega) b rfl]
    · rw [List.count_eq_zero.mpr hat, List.count_eq_zero.mpr fun h => hat (low.at_mem l h)]

theorem count_trim_le (l : List Char) : (low.lower (trim l)).count '@' ≤ l.count '@' :=
  (count_lower _).trans_le ((trim_isInitial l).sublist.count_le '@')

theorem lower_at_iff {u u' x x' : List Char} (h : '@' ∉ u) (h' : '@' ∉ u') :
    low.lower (trim (u ++ '@' :: x)) = low.lower (trim (u' ++ '@' :: x')) ↔
      low.lower u = low.lower u' ∧ low.lower (trim x) = low.lower (trim x') := by
  rw [trim_append (by decide) (by decide), trim_append (by decide) (by decide), low.lower_at, low.lower_at]
  constructor
  · refine append_cons_inj_of_count ?_
    rw [count_lower, count_lower, List.count_eq_zero.mpr h, List.count_eq_zero.mpr h']
  · rintro ⟨hfront, hback⟩
    rw [hfront, hback]

theorem lower_plain_ne {t u x : List Char} (h : '@' ∉ t) : low.lower (trim t) ≠ low.lower (trim (u ++ '@' :: x)) := by
  intro heq
  rw [trim_append (by decide) (by decide), low.lower_at] at heq
  have hat : '@' ∈ low.lower (trim t) := heq ▸ List.mem_append_right _ List.mem_cons_self
  exact h ((trim_isInitial t).subset (low.at_mem _ hat))

/-- How two identities compare: the parts before the first `@`, and the parts after it where both have one. -/
theorem sourceMatches_iff {l l' r r' : List Char} (s s' : List Char) (h : partition s = (l, r)) (h' : partition s' = (l', r')) :
    sourceMatches low s s' = true ↔ canon low l = canon low l' ∧ (r ≠ [] → r' ≠ [] → r = r') := by
  rw [sourceMatches, h, h']
  by_cases hrepo : canon low l = canon low l'
  · simp only [hrepo, ne_eq, not_true_eq_false, if_false, true_and]
    split_ifs with href
    · exact iff_of_false id fun hall => href.2.2 (hall href.1 href.2.1)
    · refine iff_of_true rfl fun hr hr' => ?_
      by_contra hne
      exact href ⟨hr, hr', hne⟩
  · simp [hrepo]

theorem at_notMem_front (i : RemoteIdentity) : ∀ c ∈ i.front, c ≠ '@' := by
  intro c hc
  simpa using List.mem_takeWhile_imp hc

/-- Where no text stands after an `@` there is no `@`, as an address does not end with one. -/
theorem front_back (i : RemoteIdentity) :
    (i.back = [] ∧ i.address.text = i.front) ∨ (i.back ≠ [] ∧ i.address.text = i.front ++ '@' :: i.back) := by
  have hparts : i.address.text = i.front ++ i.address.text.dropWhile (· ≠ '@') := List.takeWhile_append_dropWhile.symm
  have hback : i.back = (i.address.text.dropWhile (· ≠ '@')).tail := rfl
  cases hdrop : i.address.text.dropWhile (· ≠ '@') with
  | nil =>
    rw [hdrop] at hparts hback
    exact .inl ⟨hback, hparts.trans (List.append_nil _)⟩
  | cons c after =>
    have hhead := List.head?_dropWhile_not (fun c => decide (c ≠ '@')) i.address.text
    rw [hdrop] at hparts hback hhead
    obtain rfl : c = '@' := by simpa using hhead
    obtain rfl : i.back = after := hback
    refine .inr ⟨fun hnil => ?_, hparts⟩
    rw [hnil] at hparts
    cases ha : i.address with
    | https text starts plain ends =>
      refine ends ?_
      rw [ha] at hparts
      exact (congrArg List.getLast? hparts).trans List.getLast?_concat
    | ssh user host path huser =>
      have hpartition : i.back = host ++ ':' :: path := by
        rw [back, ha]
        exact congrArg Prod.snd (partition_append huser _)
      rw [hnil] at hpartition
      exact List.append_ne_nil_of_right_ne_nil _ (List.cons_ne_nil _ _) hpartition.symm

theorem partition_of_plain {i : RemoteIdentity} (h : i.address.text = i.front) : partition i.text = (i.front, i.ref.getD []) := by
  rw [text, h]
  exact partition_refText (at_notMem_front i) i.ref

theorem partition_of_at {i : RemoteIdentity} (h : i.address.text = i.front ++ '@' :: i.back) :
    partition i.text = (i.front, i.rest) := by
  rw [text, h, List.append_assoc, List.cons_append]
  exact partition_append (at_notMem_front i) i.rest

theorem canon_of_plain {i : RemoteIdentity} (h : i.address.text = i.front) :
    canon low i.front = low.lower (trim i.address.text) := by
  cases ha : i.address with
  | https text starts plain ends =>
    rw [ha] at h
    rw [← h, canon]
    exact congrArg (fun t => low.lower (trim t)) (strip_plain plain)
  | ssh user host path huser =>
    rw [ha] at h
    have hat : '@' ∈ i.front := h ▸ List.mem_append_right _ List.mem_cons_self
    exact absurd rfl (at_notMem_front i '@' hat)

theorem rest_ne_nil {i : RemoteIdentity} (h : i.back ≠ []) : i.rest ≠ [] := List.append_ne_nil_of_left_ne_nil h _

/-- An address without an `@` and one with it are never the same, and are taken for the same if they are not apart. -/
theorem apart_iff {i j : RemoteIdentity} (hj : j.back ≠ []) :
    (canon low i.front = canon low j.front ∧ (i.ref.getD [] ≠ [] → j.rest ≠ [] → i.ref.getD [] = j.rest) ↔ False) ↔
      Apart low i j := by
  have hrest := rest_ne_nil hj
  rw [iff_false, not_and]
  refine imp_congr_right fun _ => ?_
  cases hi : i.ref with
  | none => simp
  | some r => simp [hrest, i.ref_ne_nil r hi]

theorem ref_none_of_rest {i j : RemoteIdentity} (hrest : i.rest = j.rest)
    (hbacks : low.lower (trim i.back) = low.lower (trim j.back)) (hi : i.ref = none) : j.ref = none := by
  cases hj : j.ref with
  | none => rfl
  | some r =>
    have hback : i.back = j.back ++ '@' :: r := by simpa [rest, refText, hi, hj] using hrest
    have hcount := congrArg (List.count '@') hbacks
    rw [hback, trim_append (by decide) (by decide), count_lower, List.count_append, List.count_cons_self] at hcount
    have hle := @count_trim_le low j.back
    omega

theorem aligned_iff {i j : RemoteIdentity} (hi : i.address.text = i.front ++ '@' :: i.back)
    (hj : j.address.text = j.front ++ '@' :: j.back) :
    (canon low i.front = canon low j.front ∧ i.rest = j.rest ↔ SameSource low i j) ↔ Aligned low i j := by
  have hfront (k : RemoteIdentity) : '@' ∉ k.front := fun hat => at_notMem_front k '@' hat rfl
  have hsame : SameSource low i j ↔ (low.lower i.front = low.lower j.front ∧ low.lower (trim i.back) = low.lower (trim j.back)) ∧
      ∀ r r', i.ref = some r → j.ref = some r' → r = r' := by
    rw [← lower_at_iff (hfront i) (hfront j), ← hi, ← hj]
    rfl
  constructor
  · intro hiff
    refine ⟨hiff.mpr, fun hrest hcanon => ?_⟩
    obtain ⟨⟨hfronts, hbacks⟩, hrefs⟩ := hsame.mp (hiff.mp ⟨hcanon, hrest⟩)
    refine ⟨hfronts, ?_⟩
    cases hri : i.ref with
    | none => exact (ref_none_of_rest hrest hbacks hri).symm
    | some r =>
      cases hrj : j.ref with
      | none => exact hri.symm.trans (ref_none_of_rest hrest.symm hbacks.symm hrj)
      | some r' => exact congrArg some (hrefs r r' hri hrj)
  · intro h
    refine ⟨fun hmatch => ?_, h.same⟩
    obtain ⟨hfronts, hrefs⟩ := h.apart hmatch.2 hmatch.1
    have hbacks : i.back = j.back := by
      have hrest := hmatch.2
      rw [rest, rest, hrefs] at hrest
      exact List.append_cancel_right hrest
    refine hsame.mpr ⟨⟨hfronts, by rw [hbacks]⟩, fun r r' hr hr' => ?_⟩
    rw [hrefs, hr'] at hr
    exact (Option.some.inj hr).symm

theorem sourceMatches_identity_iff (i j : RemoteIdentity) :
    (sourceMatches low i.text j.text = true ↔ SameSource low i j) ↔ Readable low i j := by
  unfold Readable
  have hat {a b : RemoteIdentity} (ha : a.address.text = a.front) (hb : b.address.text = b.front ++ '@' :: b.back) :
      low.lower (trim a.address.text) ≠ low.lower (trim b.address.text) := by
    rw [ha, hb]
    exact lower_plain_ne fun hat => at_notMem_front a '@' hat rfl
  rcases front_back i with ⟨hi, htext⟩ | ⟨hi, htext⟩
  · rw [if_pos hi]
    rcases front_back j with ⟨hj, htext'⟩ | ⟨hj, htext'⟩
    · have hgetD : (i.ref.getD [] ≠ [] → j.ref.getD [] ≠ [] → i.ref.getD [] = j.ref.getD []) ↔
          ∀ r r', i.ref = some r → j.ref = some r' → r = r' := by
        have hri := i.ref_ne_nil
        have hrj := j.ref_ne_nil
        cases hi : i.ref <;> cases hj : j.ref <;> simp_all
      refine iff_of_true ((sourceMatches_iff _ _ (partition_of_plain htext) (partition_of_plain htext')).trans ?_) (.inl hj)
      rw [canon_of_plain htext, canon_of_plain htext', hgetD]
      rfl
    · rw [sourceMatches_iff _ _ (partition_of_plain htext) (partition_of_at htext'), or_iff_right hj, ← apart_iff hj]
      exact iff_congr Iff.rfl (iff_false_intro fun hsame => hat htext htext' hsame.1)
  · rw [if_neg hi]
    rcases front_back j with ⟨hj, htext'⟩ | ⟨hj, htext'⟩
    · rw [sourceMatches_iff _ _ (partition_of_at htext) (partition_of_plain htext'), if_pos hj, ← apart_iff hi]
      have hswap : (i.rest ≠ [] → j.ref.getD [] ≠ [] → i.rest = j.ref.getD []) ↔
          (j.ref.getD [] ≠ [] → i.rest ≠ [] → j.ref.getD [] = i.rest) :=
        ⟨fun h hr hrest => (h hrest hr).symm, fun h hrest hr => (h hr hrest).symm⟩
      rw [hswap, eq_comm]
      exact iff_congr Iff.rfl (iff_false_intro fun hsame => hat htext' htext hsame.1.symm)
    · have hboth : (i.rest ≠ [] → j.rest ≠ [] → i.rest = j.rest) ↔ i.rest = j.rest := by
        rw [forall_prop_of_true (rest_ne_nil hi), forall_prop_of_true (rest_ne_nil hj)]
      rw [sourceMatches_iff _ _ (partition_of_at htext) (partition_of_at htext'), if_neg hj, hboth, aligned_iff htext htext']

variable {host : HostPaths} {bindings : InsertionDict (String × String) WorkspaceBinding} {executorId projectId : String}
  {workerAllowedRoots : Finset String} {observeDirty : Option DirtyTreeObservation} {binding : WorkspaceBinding}

theorem resolve_observed {w : ResolvedWorkspace} {expected : String} (hbinding : bindings.get? (executorId, projectId) = some binding)
    (hvalid : resolve low host bindings executorId projectId workerAllowedRoots none observeDirty = .ok w)
    (hexpected : binding.expectedSourceRef = some expected) (hne : expected ≠ "") (observed : String) :
    (∃ m, resolve low host bindings executorId projectId workerAllowedRoots (some observed) observeDirty =
      .error (.foreign "SourceIdentityMismatchError" m)) ↔ ¬sourceMatches low expected.toList observed.toList = true := by
  simp only [resolve, hbinding, hexpected, bind, Except.bind, pure, Except.pure, throw, throwThe, MonadExceptOf.throw] at hvalid ⊢
  split_ifs at hvalid ⊢ <;> simp_all

def sampleLowering : Lowering := ⟨id, fun _ _ => rfl, fun _ h => h⟩

def sampleHost : HostPaths := ⟨id, fun _ => true, fun _ root => some root, fun _ => "['/w']"⟩

def sshIdentity (path : List Char) : RemoteIdentity := ⟨.ssh ['g', 'i', 't'] ['h'] path (by simp), none, by simp⟩

def withGit : RemoteIdentity := sshIdentity "o/r.git".toList

def withoutGit : RemoteIdentity := sshIdentity "o/r".toList

def sampleBinding : WorkspaceBinding :=
  ⟨"e", "p", "/w/p", "/w", some (String.ofList withGit.text), by simp [PyText.isBlank, PyText.isSpace]⟩

def sampleBindings : InsertionDict (String × String) WorkspaceBinding := InsertionDict.set .empty ("e", "p") sampleBinding

theorem sample_valid : resolve sampleLowering sampleHost sampleBindings "e" "p" {"/w"} none none =
    .ok ⟨"e", "p", "/w/p", "/w", none⟩ := by
  rfl

theorem taggedUrl_plain : ∀ c ∈ "https://git@h/o/r.git".toList, PyText.isSpace c = false := by
  have hall : "https://git@h/o/r.git".toList.all (fun c => !PyText.isSpace c) = true := rfl
  simpa only [List.all_eq_true, Bool.not_eq_true'] using hall

theorem taggedUrl_ends : "https://git@h/o/r.git".toList.getLast? ≠ some '@' := by
  rw [show "https://git@h/o/r.git".toList.getLast? = some 't' from rfl]
  simp

/-- A URL with user info, and a ref. -/
def taggedUrl : RemoteIdentity :=
  ⟨.https "https://git@h/o/r.git".toList ⟨"//git@h/o/r.git".toList, rfl⟩ taggedUrl_plain taggedUrl_ends, some ['v', '1'],
    by simp⟩

end AllTomorrow.Workspace
