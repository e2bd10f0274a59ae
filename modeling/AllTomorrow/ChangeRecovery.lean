import AllTomorrow.CrashingChange
import AllTomorrow.ReviewedFiles

/-!
# Recovery after a crash

What a crash inside `apply` or inside `rollback` can leave, and from which of these states a
rollback brings the project back. Every state is one of them except that a file is half restored:
`rollback` copies over the file itself, where `apply` writes beside it and renames.
-/

namespace AllTomorrow.Overseer

open CrashM

/-! ## Files by path -/

def Node.bytes : Node → Option Bytes
  | .file bytes => some bytes
  | .dir | .link => none

/-- The bytes of the file at a path, seen by `tree` or not. -/
def fileAt (folder : Folder) (path : String) : Option Bytes := (folder.get? path).bind Node.bytes

theorem fileAt_eq_some {folder : Folder} {path : String} {bytes : Bytes} :
    fileAt folder path = some bytes ↔ folder.get? path = some (.file bytes) := by
  unfold fileAt
  cases folder.get? path with
  | none => simp
  | some node => cases node <;> simp [Node.bytes]

variable (folder : Folder)

theorem fileAt_set_file (path : String) (bytes : Bytes) (p : String) :
    fileAt (folder.set path (.file bytes)) p = if p = path then some bytes else fileAt folder p := by
  unfold fileAt
  rw [InsertionDict.get?_set]
  split <;> rfl

theorem fileAt_erase (path p : String) :
    fileAt (folder.erase path) p = if p = path then none else fileAt folder p := by
  unfold fileAt
  rw [InsertionDict.get?_erase]
  split <;> rfl

theorem content_eq (path : String) :
    content folder path = if visible path then fileAt folder path else none := by
  unfold content fileAt
  cases folder.get? path with
  | none => simp
  | some node => cases node <;> simp [seen, Node.bytes]

/-- Making folders makes no files. -/
theorem fileAt_makeFolders {paths : List String} {folder written : Folder} (h : makeFolders paths folder = .ok written)
    (path : String) : fileAt written path = fileAt folder path := by
  induction paths generalizing folder with
  | nil =>
    cases h
    rfl
  | cons p rest ih =>
    unfold makeFolders at h
    cases hget : folder.get? p with
    | none =>
      rw [hget] at h
      rw [ih h]
      unfold fileAt
      rw [InsertionDict.get?_set]
      split
      · rename_i hp
        rw [hp, hget]
        rfl
      · rfl
    | some node =>
      rw [hget] at h
      cases node with
      | dir => exact ih h
      | file _ => cases h
      | link => cases h

/-! ## What is left by a crash -/

/-- What stays the same: the project before the promotion and what the promotion changes. -/
structure Promotable (c : ProjectChange) (start : ProjectFiles) (names : List String) : Prop where
  changes : Changes c start.before start.candidate names
  linkFree : hasLink start.root = false
  copied : ∀ p, content start.before p = content start.root p
  manifest : ∃ data, start.manifest = some data ∧ data.changed = [] ∧ data.temporary = none ∧
    ∀ p, data.baseline.get? p = hashAt c start.before p

variable (c : ProjectChange) (start : ProjectFiles) (names : List String)

/-- The part that `apply` and `rollback` only read, and the manifest. -/
structure Described (d : Disk) (data : Manifest) : Prop where
  before_eq : d.files.before = start.before
  candidate_eq : d.files.candidate = start.candidate
  manifest : d.files.manifest = some data
  baseline : ∀ p, data.baseline.get? p = hashAt c start.before p
  linkFree : hasLink d.files.root = false
  planned : data.changed = names ∧ (∀ p, data.candidate.get? p = hashAt c start.candidate p) ∨
    data.changed = [] ∧ data.temporary = none
  temporary : ∀ p, data.temporary = some p → fileAt start.root p = none

/-- Each file is the old one or the changed one, or it is the one that was being written, or a baseline file that
a rollback was writing. -/
structure Left (d : Disk) (data : Manifest) : Prop extends Described c start names d data where
  files : ∀ p, fileAt d.files.root p = fileAt start.root p ∨
    (p ∈ data.changed ∧ fileAt d.files.root p = content start.candidate p) ∨ data.temporary = some p ∨
    (p ∈ data.changed ∧ content start.before p ≠ none ∧ fileAt d.files.root p ≠ none)
  /-- a place below the artifact folder is free while the file is in the root -/
  keptTemporary : ∀ p, data.temporary = some p → fileAt d.files.root p ≠ none →
    d.kept.get? ProjectChange.interruptedWrite = none
  keptNew : ∀ p ∈ names, content start.before p = none → fileAt d.files.root p ≠ none →
    d.kept.get? (ProjectChange.revertedNew p) = none

/-- No baseline file is half restored: each has its bytes, or bytes with the hash of the changed file. -/
def Recognised (d : Disk) : Prop :=
  ∀ p ∈ names, content start.before p ≠ none →
    fileAt d.files.root p = content start.before p ∨ hashAt c d.files.root p = hashAt c start.candidate p

def Restored (d : Disk) : Prop := ∀ p, fileAt d.files.root p = fileAt start.root p

/-- Of the files that are not in the copy nothing is lost: they stay or are kept, and what is kept stays. -/
structure Preserved (d e : Disk) : Prop where
  files : ∀ p bytes, fileAt d.files.root p = some bytes → content start.before p = none →
    fileAt e.files.root p = some bytes ∨ ∃ key, e.kept.get? key = some (.file bytes)
  kept : ∀ bytes, (∃ key, d.kept.get? key = some (.file bytes)) → ∃ key, e.kept.get? key = some (.file bytes)

variable {c start names} {d e : Disk} {data : Manifest}

theorem Preserved.refl (d : Disk) : Preserved start d d := ⟨fun _ _ h _ => .inl h, fun _ h => h⟩

theorem Preserved.trans {m : Disk} (h : Preserved start d m) (h' : Preserved start m e) : Preserved start d e := by
  refine ⟨fun p bytes hfile hnew => ?_, fun bytes hkept => h'.kept bytes (h.kept bytes hkept)⟩
  rcases h.files p bytes hfile hnew with hstay | hkept
  · exact h'.files p bytes hstay hnew
  · exact .inr (h'.kept bytes hkept)

def Leaves (c : ProjectChange) (start : ProjectFiles) (names : List String) (d e : Disk) : Prop :=
  (∃ data, Left c start names e data) ∧ Preserved start d e

section Paths

variable {p : String}

theorem Promotable.visible (hp : Promotable c start names) (hmem : p ∈ names) : visible p = true := by
  have hcontent := hp.changes.content_ne_none hmem
  rw [content_eq] at hcontent
  by_contra hinvisible
  rw [if_neg hinvisible] at hcontent
  exact hcontent rfl

theorem Promotable.content_mem (hp : Promotable c start names) (hmem : p ∈ names) (folder : Folder) :
    content folder p = fileAt folder p := by
  rw [content_eq, if_pos (hp.visible hmem)]

theorem Promotable.before_mem (hp : Promotable c start names) (hmem : p ∈ names) :
    content start.before p = fileAt start.root p := (hp.copied p).trans (hp.content_mem hmem start.root)

theorem Promotable.hash_ne (hp : Promotable c start names) (hmem : p ∈ names) :
    hashAt c start.before p ≠ hashAt c start.candidate p := hp.changes.mem_iff.mp hmem

theorem Promotable.before_none (hp : Promotable c start names) (hnone : fileAt start.root p = none) :
    content start.before p = none := by
  rw [hp.copied, content_eq, hnone]
  split <;> rfl

theorem hashAt_eq_none {folder : Folder} : hashAt c folder p = none ↔ content folder p = none :=
  Option.map_eq_none_iff

theorem revertedNew_inj {p q : String} (h : ProjectChange.revertedNew p = ProjectChange.revertedNew q) : p = q := by
  unfold ProjectChange.revertedNew at h
  exact String.append_right_inj _ |>.mp h

theorem revertedNew_ne (p : String) : ProjectChange.revertedNew p ≠ ProjectChange.interruptedWrite := by
  intro h
  have hlist := congrArg String.toList h
  rw [ProjectChange.revertedNew, String.toList_append] at hlist
  cases hlist

end Paths

/-! ## One write of a rollback -/

theorem Described.withRoot {root : Folder} (h : Described c start names d data) (hlinks : NoNewLinks d.files.root root) :
    Described c start names (d.withRoot root) data :=
  { h with linkFree := hlinks.hasLink h.linkFree }

/-- A baseline file is written over. -/
theorem Left.copied (hp : Promotable c start names) (h : Left c start names d data) {name : String}
    (hmem : name ∈ data.changed) (hbefore : content start.before name ≠ none) (bytes : Bytes) :
    Left c start names (d.withRoot (d.files.root.set name (.file bytes))) data := by
  have hnotTemporary : data.temporary ≠ some name := fun htemp => hbefore (hp.before_none (h.temporary name htemp))
  refine { toDescribed := h.toDescribed.withRoot (noNewLinks_set name (by simp)), files := ?_, keptTemporary := ?_, keptNew := ?_ }
  · intro p
    change fileAt (d.files.root.set name (.file bytes)) p = _ ∨ (_ ∧ fileAt (d.files.root.set name (.file bytes)) p = _) ∨ _ ∨
      (_ ∧ _ ∧ fileAt (d.files.root.set name (.file bytes)) p ≠ none)
    rw [fileAt_set_file]
    by_cases hpn : p = name
    · rw [if_pos hpn]
      subst hpn
      exact .inr (.inr (.inr ⟨hmem, hbefore, by simp⟩))
    · rw [if_neg hpn]
      exact h.files p
  · intro p htemp hfile
    have hpn : p ≠ name := by
      rintro rfl
      exact hnotTemporary htemp
    change fileAt (d.files.root.set name (.file bytes)) p ≠ none at hfile
    rw [fileAt_set_file, if_neg hpn] at hfile
    exact h.keptTemporary p htemp hfile
  · intro p hpmem hnew hfile
    have hpn : p ≠ name := by
      rintro rfl
      exact hbefore hnew
    change fileAt (d.files.root.set name (.file bytes)) p ≠ none at hfile
    rw [fileAt_set_file, if_neg hpn] at hfile
    exact h.keptNew p hpmem hnew hfile

theorem Preserved.copied {name : String} (hbefore : content start.before name ≠ none) (bytes : Bytes) :
    Preserved start d (d.withRoot (d.files.root.set name (.file bytes))) := by
  refine ⟨fun p old hfile hnew => .inl ?_, fun _ hkept => hkept⟩
  have hpn : p ≠ name := by
    rintro rfl
    exact hbefore hnew
  change fileAt (d.files.root.set name (.file bytes)) p = some old
  rw [fileAt_set_file, if_neg hpn]
  exact hfile

def Disk.moved (d : Disk) (path archive : String) (node : Node) : Disk :=
  { d.withRoot (d.files.root.erase path) with kept := d.kept.set archive node }

theorem Left.moved (h : Left c start names d data) {path : String} (archive : String) (node : Node)
    (hstart : fileAt start.root path = none)
    (hfree : archive = ProjectChange.interruptedWrite ∧ data.temporary = some path ∨ archive = ProjectChange.revertedNew path) :
    Left c start names (d.moved path archive node) data := by
  refine { before_eq := h.before_eq, candidate_eq := h.candidate_eq, manifest := h.manifest, baseline := h.baseline,
           linkFree := (noNewLinks_erase path).hasLink h.linkFree, planned := h.planned, temporary := h.temporary,
           files := ?_, keptTemporary := ?_, keptNew := ?_ }
  · intro p
    change fileAt (d.files.root.erase path) p = _ ∨ (_ ∧ fileAt (d.files.root.erase path) p = _) ∨ _ ∨
      (_ ∧ _ ∧ fileAt (d.files.root.erase path) p ≠ none)
    rw [fileAt_erase]
    by_cases hpn : p = path
    · rw [if_pos hpn, hpn, hstart]
      exact .inl rfl
    · rw [if_neg hpn]
      exact h.files p
  · intro p htemp hfile
    change fileAt (d.files.root.erase path) p ≠ none at hfile
    change (d.kept.set archive node).get? _ = none
    rw [fileAt_erase] at hfile
    by_cases hpn : p = path
    · rw [if_pos hpn] at hfile
      exact absurd rfl hfile
    · rw [if_neg hpn] at hfile
      rcases hfree with ⟨-, htemp'⟩ | harchive
      · exact absurd (Option.some.inj (htemp.symm.trans htemp')) hpn
      · rw [InsertionDict.get?_set_of_ne _ _ (harchive ▸ (revertedNew_ne path).symm)]
        exact h.keptTemporary p htemp hfile
  · intro p hpmem hnew hfile
    change fileAt (d.files.root.erase path) p ≠ none at hfile
    change (d.kept.set archive node).get? _ = none
    rw [fileAt_erase] at hfile
    by_cases hpn : p = path
    · rw [if_pos hpn] at hfile
      exact absurd rfl hfile
    · rw [if_neg hpn] at hfile
      rw [InsertionDict.get?_set_of_ne]
      · exact h.keptNew p hpmem hnew hfile
      · rcases hfree with ⟨harchive, -⟩ | harchive
        · exact harchive ▸ revertedNew_ne p
        · exact harchive ▸ fun hkey => hpn (revertedNew_inj hkey)

theorem Preserved.moved {path archive : String} {bytes : Bytes} (hfile : fileAt d.files.root path = some bytes)
    (hfree : d.kept.get? archive = none) : Preserved start d (d.moved path archive (.file bytes)) := by
  refine ⟨fun p old hold _ => ?_, fun old hkept => ?_⟩
  · by_cases hpn : p = path
    · rw [hpn, hfile] at hold
      cases hold
      exact .inr ⟨archive, InsertionDict.get?_set_self _ _ _⟩
    · left
      change fileAt (d.files.root.erase path) p = some old
      rw [fileAt_erase, if_neg hpn]
      exact hold
  · obtain ⟨key, hkey⟩ := hkept
    refine ⟨key, ?_⟩
    change (d.kept.set archive _).get? key = _
    rw [InsertionDict.get?_set_of_ne]
    · exact hkey
    · rintro rfl
      exact absurd (hfree.symm.trans hkey) (by nofun)

/-! ## A rollback -/

section Rollback

variable {s : Disk} {C : Disk → Prop} {E : Exn → Disk → Prop}

theorem runs_rootTree (hlink : hasLink s.files.root = false) (hC : C s) :
    Runs c.rootTree s (fun files s' => s' = s ∧ files = fileHashes c.hashes s.files.root) E C := by
  refine Runs.bind (runs_look (Q := fun d s' => d = s ∧ s' = s) ⟨rfl, rfl⟩ hC) ?_
  rintro _ s' ⟨rfl, rfl⟩
  rw [tree_of_linkFree hlink]
  exact runs_pure ⟨rfl, rfl⟩ hC

theorem runs_readManifestOnDisk (hmanifest : s.files.manifest = some data) (hC : C s) :
    Runs ProjectChange.readManifestOnDisk s (fun data' s' => s' = s ∧ data' = data) E C := by
  have hread : ofFiles ProjectChange.readManifest s = .ok data s := by
    unfold ofFiles
    rw [ProjectChange.readManifest_of_some hmanifest]
  refine runs_atomic ?_ hC
  unfold EStateM.Ends
  rw [hread]
  exact ⟨⟨rfl, rfl⟩, hC⟩

variable {Q : Unit → Disk → Prop}

theorem runs_saveOnDisk (data : Manifest) (hQ : Q () { s with files := { s.files with manifest := some data } })
    (hC : C s) (hC' : C { s with files := { s.files with manifest := some data } }) :
    Runs (ProjectChange.saveOnDisk data) s Q E C :=
  runs_atomic ⟨hQ, hC'⟩ hC

theorem runs_moveOnDisk {path archive : String} {node : Node} (hget : s.files.root.get? path = some node) (hQ : Q () (s.moved path archive node)) (hC : C s)
    (hC' : C (s.moved path archive node)) : Runs (ProjectChange.moveOnDisk path archive) s Q E C := by
  refine runs_atomic ?_ hC
  change Q () _ ∧ C _
  simp only [hget]
  exact ⟨hQ, hC'⟩

/-- The file that was being written is moved away first. -/
theorem runs_setAsideOnDisk (hp : Promotable c start names) (h : Left c start names d data) :
    Runs (ProjectChange.setAsideOnDisk data) d (fun _ s => Left c start names s data ∧ Preserved start d s ∧
        (∀ p, data.temporary = some p → fileAt s.files.root p = none) ∧
        ∀ p, data.temporary ≠ some p → fileAt s.files.root p = fileAt d.files.root p)
      (fun _ _ => False) (Leaves c start names d) := by
  have hC : Leaves c start names d d := ⟨⟨data, h⟩, .refl d⟩
  have hkeep : (∀ p, data.temporary = some p → fileAt d.files.root p = none) →
      Left c start names d data ∧ Preserved start d d ∧ (∀ p, data.temporary = some p → fileAt d.files.root p = none) ∧
        ∀ p, data.temporary ≠ some p → fileAt d.files.root p = fileAt d.files.root p :=
    fun hnone => ⟨h, .refl d, hnone, fun _ _ => rfl⟩
  unfold ProjectChange.setAsideOnDisk
  cases htemp : data.temporary with
  | none => exact runs_pure (by simpa [htemp] using hkeep (by simp [htemp])) hC
  | some temp =>
    have hstart := h.temporary temp htemp
    have hbaseline : data.baseline.contains temp = false := by
      rw [InsertionDict.contains_eq_false_iff, h.baseline, hashAt_eq_none]
      exact hp.before_none hstart
    refine runs_ite (fun hcontains => absurd hcontains (by simp [hbaseline])) fun _ => ?_
    refine Runs.bind (runs_look (Q := fun d' s' => d = d' ∧ d = s') ⟨rfl, rfl⟩ hC) ?_
    rintro _ _ ⟨rfl, rfl⟩
    have hnotFile : (∀ bytes, d.files.root.get? temp ≠ some (.file bytes)) → fileAt d.files.root temp = none := by
      intro hnot
      by_contra hfile
      obtain ⟨bytes, hbytes⟩ := Option.ne_none_iff_exists'.mp hfile
      exact hnot bytes (fileAt_eq_some.mp hbytes)
    rw [htemp] at hkeep
    cases hget : d.files.root.get? temp with
    | none => exact runs_pure (hkeep fun p hpt => by cases hpt; exact hnotFile (by simp [hget])) hC
    | some node =>
      cases node with
      | dir => exact runs_pure (hkeep fun p hpt => by cases hpt; exact hnotFile (by simp [hget])) hC
      | link => exact runs_pure (hkeep fun p hpt => by cases hpt; exact hnotFile (by simp [hget])) hC
      | file bytes =>
        have hfile : fileAt d.files.root temp = some bytes := fileAt_eq_some.mpr hget
        have hleft := h.moved ProjectChange.interruptedWrite (.file bytes) hstart (.inl ⟨rfl, htemp⟩)
        have hpreserved : Preserved start d (d.moved temp ProjectChange.interruptedWrite (.file bytes)) :=
          .moved hfile (h.keptTemporary temp htemp (by simp [hfile]))
        refine runs_moveOnDisk hget ⟨hleft, hpreserved, fun p hpt => ?_, fun p hpt => ?_⟩ hC ⟨⟨data, hleft⟩, hpreserved⟩
        · cases hpt
          change fileAt (d.files.root.erase temp) temp = none
          rw [fileAt_erase, if_pos rfl]
        · change fileAt (d.files.root.erase temp) p = _
          rw [fileAt_erase, if_neg (fun hpn => hpt (congrArg some hpn.symm))]

/-- What holds between two files that a rollback restores; `rest` are still to come. -/
structure Returning (c : ProjectChange) (start : ProjectFiles) (names : List String) (data : Manifest) (d : Disk)
    (rest : List String) (s : Disk) : Prop where
  left : Left c start names s data
  preserved : Preserved start d s
  noTemporary : ∀ p, data.temporary = some p → fileAt s.files.root p = none
  /-- a file is untouched, or it was the changed one and has its old bytes again -/
  progress : ∀ p, fileAt s.files.root p = fileAt d.files.root p ∨
    (p ∈ names ∧ fileAt s.files.root p = fileAt start.root p ∧ hashAt c d.files.root p = hashAt c start.candidate p)
  visited : ∀ p ∈ data.changed, p ∉ rest →
    fileAt s.files.root p = fileAt start.root p ∨ hashAt c s.files.root p = hashAt c start.before p

variable {rest : List String} {name : String}

/-- A changed file that is neither the old nor the new one is half restored. -/
theorem Returning.not_recognised (hp : Promotable c start names)
    (h : Returning c start names data d rest s) (hname : name ∈ names)
    (hold : hashAt c s.files.root name ≠ hashAt c start.before name)
    (hnew : hashAt c s.files.root name ≠ hashAt c start.candidate name) : ¬Recognised c start names d := by
  have hstart : fileAt s.files.root name ≠ fileAt start.root name := by
    intro hsame
    refine hold (hashAt_eq_of_content ?_)
    rw [hp.content_mem hname, hsame, hp.before_mem hname]
  have hsame : fileAt s.files.root name = fileAt d.files.root name :=
    (h.progress name).resolve_right fun hrestored => hstart hrestored.2.1
  have hbefore : content start.before name ≠ none := by
    rcases h.left.files name with hfile | ⟨_, hfile⟩ | htemp | ⟨_, hbefore, _⟩
    · exact absurd hfile hstart
    · refine absurd (hashAt_eq_of_content ?_) hnew
      rw [hp.content_mem hname, hfile]
    · have hnone := h.noTemporary name htemp
      intro hbefore
      refine hstart (hnone.trans ?_)
      rw [← hp.before_mem hname, hbefore]
    · exact hbefore
  intro hrecognised
  rcases hrecognised name hname hbefore with hbytes | hhash
  · exact hstart (hsame.trans (hbytes.trans (hp.before_mem hname)))
  · refine hnew (Eq.trans (hashAt_eq_of_content ?_) hhash)
    rw [hp.content_mem hname, hp.content_mem hname, hsame]

theorem Returning.recognised (hp : Promotable c start names)
    (h : Returning c start names data d rest s) (hs : Recognised c start names s) : Recognised c start names d := by
  intro p hname hbefore
  rcases h.progress p with hsame | ⟨_, _, hhash⟩
  · refine (hs p hname hbefore).imp hsame.symm.trans fun hhash => (hashAt_eq_of_content ?_).trans hhash
    rw [hp.content_mem hname, hp.content_mem hname, hsame]
  · exact .inr hhash

/-- The next file is visited. -/
theorem Returning.next (h : Returning c start names data d (name :: rest) s)
    {s' : Disk} (hleft : Left c start names s' data) (hpreserved : Preserved start s s')
    (hother : ∀ p, p ≠ name → fileAt s'.files.root p = fileAt s.files.root p)
    (hnone : data.temporary = some name → fileAt s'.files.root name = none)
    (hprogress : fileAt s'.files.root name = fileAt d.files.root name ∨
      (name ∈ names ∧ fileAt s'.files.root name = fileAt start.root name ∧ hashAt c d.files.root name = hashAt c start.candidate name))
    (hvisited : fileAt s'.files.root name = fileAt start.root name ∨ hashAt c s'.files.root name = hashAt c start.before name) :
    Returning c start names data d rest s' := by
  have hhash : ∀ p, p ≠ name → hashAt c s'.files.root p = hashAt c s.files.root p := by
    intro p hp
    refine hashAt_eq_of_content ?_
    rw [content_eq, content_eq, hother p hp]
  refine ⟨hleft, h.preserved.trans hpreserved, fun p htemp => ?_, fun p => ?_, fun p hmem hrest => ?_⟩
  · by_cases hp : p = name
    · subst hp
      exact hnone htemp
    · rw [hother p hp]
      exact h.noTemporary p htemp
  · by_cases hp : p = name
    · subst hp
      exact hprogress
    · rw [hother p hp]
      exact h.progress p
  · by_cases hp : p = name
    · subst hp
      exact hvisited
    · rw [hother p hp, hhash p hp]
      exact h.visited p hmem (by simp [hp, hrest])

theorem runs_restoreFileOnDisk (hp : Promotable c start names)
    (hcandidate : ∀ p, data.candidate.get? p = hashAt c start.candidate p) (hmem : name ∈ data.changed)
    (hname : name ∈ names) (h : Returning c start names data d (name :: rest) s) :
    Runs (c.restoreFileOnDisk data name) s (fun _ s' => Returning c start names data d rest s')
      (fun _ s' => Leaves c start names d s' ∧ ¬Recognised c start names d ∧ ¬Recognised c start names s')
      (Leaves c start names d) := by
  have hC : Leaves c start names d s := ⟨⟨data, h.left⟩, h.preserved⟩
  have hroot := hp.content_mem hname s.files.root
  unfold ProjectChange.restoreFileOnDisk
  refine Runs.bind (runs_rootTree h.left.linkFree hC) ?_
  rintro _ s ⟨rfl, rfl⟩
  rw [get?_fileHashes_eq, h.left.baseline, hcandidate]
  refine runs_ite (fun hsame => runs_pure ?_ hC) fun hold => runs_ite (fun hnew => ?_) fun hnew => ?_
  · exact h.next h.left (.refl s) (fun _ _ => rfl) (h.noTemporary name) (h.progress name) (.inr hsame)
  · have hnot := h.not_recognised hp hname hold hnew
    exact runs_throw_bind ⟨hC, hnot, fun hs => hnot (h.recognised hp hs)⟩ hC
  have hnew := not_not.mp hnew
  -- it is the changed file, since `s` and `d` do not differ there
  have hstart : fileAt s.files.root name ≠ fileAt start.root name := by
    intro hsame
    refine hold (hashAt_eq_of_content ?_)
    rw [hroot, hsame, hp.before_mem hname]
  have hsame : fileAt s.files.root name = fileAt d.files.root name :=
    (h.progress name).resolve_right fun hrestored => hstart hrestored.2.1
  have hd : hashAt c d.files.root name = hashAt c start.candidate name := by
    rw [← hnew]
    refine hashAt_eq_of_content ?_
    rw [hp.content_mem hname, hroot, hsame]
  cases hbefore : content start.before name with
  | none =>
    have hnone : fileAt start.root name = none := by rw [← hp.before_mem hname, hbefore]
    obtain ⟨bytes, hfile⟩ := Option.ne_none_iff_exists'.mp (hnone ▸ hstart)
    rw [hashAt_eq_none.mpr hbefore]
    have hleft := h.left.moved (ProjectChange.revertedNew name) (.file bytes) hnone (.inr rfl)
    have hpreserved : Preserved start s (s.moved name (ProjectChange.revertedNew name) (.file bytes)) :=
      .moved hfile (h.left.keptNew name hname hbefore (by simp [hfile]))
    have hgone : fileAt (s.moved name (ProjectChange.revertedNew name) (.file bytes)).files.root name = none := by
      change fileAt (s.files.root.erase name) name = none
      rw [fileAt_erase, if_pos rfl]
    refine runs_moveOnDisk (fileAt_eq_some.mp hfile) ?_ hC ⟨⟨data, hleft⟩, h.preserved.trans hpreserved⟩
    refine h.next hleft hpreserved (fun p hpn => ?_) (fun _ => hgone) (.inr ⟨hname, hgone.trans hnone.symm, hd⟩)
      (.inl (hgone.trans hnone.symm))
    change fileAt (s.files.root.erase name) p = _
    rw [fileAt_erase, if_neg hpn]
  | some bytes =>
    have hne : content start.before name ≠ none := by simp [hbefore]
    obtain ⟨hget, -⟩ := content_eq_some hbefore
    have hhash : hashAt c start.before name = some (c.hashes.sha256 bytes) := by rw [hashAt, hbefore, Option.map_some]
    rw [hhash]
    have hwritten : ∀ left : Bytes, Leaves c start names d (s.withRoot (s.files.root.set name (.file left))) := fun left =>
      ⟨⟨data, h.left.copied hp hmem hne left⟩, h.preserved.trans (.copied hne left)⟩
    have hcopy : copyFile s.files.before name s.files.root name = .ok (s.files.root.set name (.file bytes)) := by
      rw [copyFile, h.left.before_eq, hget]
    have hrestored : fileAt (s.withRoot (s.files.root.set name (.file bytes))).files.root name = fileAt start.root name := by
      change fileAt (s.files.root.set name (.file bytes)) name = _
      rw [fileAt_set_file, if_pos rfl, ← hp.before_mem hname, hbefore]
    refine runs_torn ?_ hC ?_
    · unfold EStateM.Ends ProjectChange.writeRootWith
      dsimp only
      rw [hcopy]
      refine ⟨h.next (h.left.copied hp hmem hne bytes) (.copied hne bytes) (fun p hpn => ?_) (fun htemp => ?_)
        (.inr ⟨hname, hrestored, hd⟩) (.inl hrestored), hwritten bytes⟩
      · change fileAt (s.files.root.set name (.file bytes)) p = _
        rw [fileAt_set_file, if_neg hpn]
      · exact absurd (hp.before_none (h.left.temporary name htemp)) hne
    · rintro _ ⟨source, k, -, rfl⟩
      exact hwritten _

theorem runs_restoreFilesOnDisk (hp : Promotable c start names)
    (hcandidate : ∀ p, data.candidate.get? p = hashAt c start.candidate p) (hmem : ∀ p ∈ rest, p ∈ data.changed)
    (hname : ∀ p ∈ rest, p ∈ names) (h : Returning c start names data d rest s) :
    Runs (c.restoreFilesOnDisk data rest) s (fun _ s' => Returning c start names data d [] s')
      (fun _ s' => Leaves c start names d s' ∧ ¬Recognised c start names d ∧ ¬Recognised c start names s')
      (Leaves c start names d) := by
  induction rest generalizing s with
  | nil => exact runs_pure h ⟨⟨data, h.left⟩, h.preserved⟩
  | cons name rest ih =>
    refine Runs.bind (runs_restoreFileOnDisk hp hcandidate (hmem name (by simp)) (hname name (by simp)) h) ?_
    intro _ s' h'
    exact ih (fun p hpmem => hmem p (by simp [hpmem])) (fun p hpmem => hname p (by simp [hpmem])) h'

/-- After the last file the project is restored exactly if nothing was half restored. -/
theorem Returning.restored_iff (hp : Promotable c start names) (h : Returning c start names data d [] s) :
    Restored start s ↔ Recognised c start names d := by
  constructor
  · intro hrestored p hname _
    rcases h.progress p with hsame | ⟨_, _, hhash⟩
    · left
      rw [← hsame, hrestored p, hp.before_mem hname]
    · exact .inr hhash
  · intro hrecognised p
    have hmem : fileAt s.files.root p = fileAt start.root p ∨ p ∈ data.changed := by
      rcases h.left.files p with hstart | ⟨hmem, -⟩ | htemp | ⟨hmem, -⟩
      · exact .inl hstart
      · exact .inr hmem
      · exact .inl ((h.noTemporary p htemp).trans (h.left.temporary p htemp).symm)
      · exact .inr hmem
    rcases hmem with hstart | hmem
    · exact hstart
    have hname : p ∈ names := by
      rcases h.left.planned with ⟨hchanged, -⟩ | ⟨hchanged, -⟩
      · exact hchanged ▸ hmem
      · rw [hchanged] at hmem
        cases hmem
    rcases h.visited p hmem (by simp) with hstart | hhash
    · exact hstart
    rcases h.progress p with hsame | ⟨_, hrestored, _⟩
    · cases hbefore : content start.before p with
      | none =>
        rw [hashAt_eq_none.mpr hbefore, hashAt_eq_none, hp.content_mem hname] at hhash
        rw [hhash, ← hp.before_mem hname, hbefore]
      | some bytes =>
        rcases hrecognised p hname (by simp [hbefore]) with hbytes | hcandidate
        · rw [hsame, hbytes, hp.before_mem hname]
        · have hsameHash : hashAt c s.files.root p = hashAt c d.files.root p :=
            hashAt_eq_of_content (by rw [hp.content_mem hname, hp.content_mem hname, hsame])
          exact absurd (hhash.symm.trans (hsameHash.trans hcandidate)) (hp.hash_ne hname)
    · exact hrestored

theorem recognised_congr (hp : Promotable c start names)
    (hsame : ∀ p ∈ names, content start.before p ≠ none → fileAt d.files.root p = fileAt e.files.root p) :
    Recognised c start names d ↔ Recognised c start names e := by
  have hhash : ∀ p ∈ names, content start.before p ≠ none → hashAt c d.files.root p = hashAt c e.files.root p := by
    intro p hname hbefore
    refine hashAt_eq_of_content ?_
    rw [hp.content_mem hname, hp.content_mem hname, hsame p hname hbefore]
  refine forall₃_congr fun p hname hbefore => ?_
  rw [hsame p hname hbefore, hhash p hname hbefore]

theorem Left.rolledBack (h : Left c start names d data) :
    Left c start names { d with files := { d.files with manifest := some { data with state := .rolledBack } } }
      { data with state := .rolledBack } where
  before_eq := h.before_eq
  candidate_eq := h.candidate_eq
  manifest := rfl
  baseline := h.baseline
  linkFree := h.linkFree
  planned := h.planned
  temporary := h.temporary
  files := h.files
  keptTemporary := h.keptTemporary
  keptNew := h.keptNew

theorem runs_restoreAll (hp : Promotable c start names) (h : Left c start names s data)
    (hnone : ∀ p, data.temporary = some p → fileAt s.files.root p = none) :
    Runs (c.restoreFilesOnDisk data data.changed) s (fun _ s' => Returning c start names data s [] s')
      (fun _ s' => Leaves c start names s s' ∧ ¬Recognised c start names s ∧ ¬Recognised c start names s')
      (Leaves c start names s) := by
  have hstart : ∀ rest, (∀ p ∈ data.changed, p ∈ rest) → Returning c start names data s rest s := fun rest hall =>
    ⟨h, .refl s, hnone, fun _ => .inl rfl, fun p hmem hrest => absurd (hall p hmem) hrest⟩
  rcases h.planned with ⟨hchanged, hcandidate⟩ | ⟨hchanged, -⟩
  · exact runs_restoreFilesOnDisk hp hcandidate (fun _ hmem => hmem) (fun p hmem => hchanged ▸ hmem)
      (hstart _ fun _ hmem => hmem)
  · rw [hchanged]
    exact runs_pure (hstart [] (by simp [hchanged])) ⟨⟨data, h⟩, .refl s⟩

/-- A rollback of whatever a crash has left returns or raises, and it restores the project exactly if no file is half
restored. Where it is cut off, it leaves such a state again. -/
theorem runs_rollbackOnDisk (hp : Promotable c start names) (h : Left c start names d data) : Runs c.rollbackOnDisk d
      (fun _ e => Leaves c start names d e ∧ (Restored start e ↔ Recognised c start names d) ∧
        (Recognised c start names e → Recognised c start names d))
      (fun _ e => Leaves c start names d e ∧ ¬Recognised c start names d ∧ ¬Recognised c start names e)
      (Leaves c start names d) := by
  have hC : Leaves c start names d d := ⟨⟨data, h⟩, .refl d⟩
  unfold ProjectChange.rollbackOnDisk
  refine Runs.bind (runs_readManifestOnDisk h.manifest hC) ?_
  rintro data' d' ⟨rfl, rfl⟩
  refine Runs.bind ((runs_setAsideOnDisk hp h).mono (fun _ _ hq => hq) (fun _ _ hfalse => hfalse.elim) fun _ hleft => hleft) ?_
  rintro _ s ⟨hleft, hpreserved, hnone, hsame⟩
  have hrecognised : Recognised c start names s ↔ Recognised c start names d' := by
    refine recognised_congr hp fun p _ hbefore => hsame p ?_
    intro htemp
    exact hbefore (hp.before_none (h.temporary p htemp))
  have hleaves : ∀ e, Leaves c start names s e → Leaves c start names d' e := fun e he => ⟨he.1, hpreserved.trans he.2⟩
  refine Runs.bind ((runs_restoreAll hp hleft hnone).mono (fun _ _ hq => hq)
    (fun _ e he => ⟨hleaves e he.1, hrecognised.not.mp he.2.1, he.2.2⟩) hleaves) ?_
  intro _ s' h'
  have hC' : Leaves c start names d' s' := hleaves s' ⟨⟨_, h'.left⟩, h'.preserved⟩
  have hend : Leaves c start names d'
      { s' with files := { s'.files with manifest := some { data' with state := .rolledBack } } } :=
    ⟨⟨_, h'.left.rolledBack⟩, hC'.2.files, hC'.2.kept⟩
  refine Runs.bind (runs_saveOnDisk (Q := fun _ e => Leaves c start names d' e ∧ hasLink e.files.root = false ∧
    (Restored start e ↔ Recognised c start names d') ∧ (Recognised c start names e → Recognised c start names d')) _
    ⟨hend, h'.left.linkFree, (h'.restored_iff hp).trans hrecognised, fun hs => hrecognised.mp (h'.recognised hp hs)⟩ hC' hend) ?_
  rintro _ e ⟨he, hlink, hiff, hback⟩
  refine Runs.bind (runs_rootTree hlink he) ?_
  rintro _ e ⟨rfl, -⟩
  exact runs_pure ⟨he, hiff, hback⟩ he

end Rollback

/-! ## Applying -/

section Apply

variable {s : Disk}

/-- Between two files that `apply` writes. -/
structure Between (c : ProjectChange) (start : ProjectFiles) (names : List String) (d : Disk) (data : Manifest) : Prop
    extends Described c start names d data where
  changed_eq : data.changed = names
  candidate : ∀ p, data.candidate.get? p = hashAt c start.candidate p
  files : ∀ p, fileAt d.files.root p = fileAt start.root p ∨ (p ∈ names ∧ fileAt d.files.root p = content start.candidate p)
  kept : d.kept = .empty

theorem Between.left (h : Between c start names d data) : Left c start names d data := by
  refine { toDescribed := h.toDescribed, files := fun p => ?_, keptTemporary := fun _ _ _ => ?_, keptNew := fun _ _ _ _ => ?_ }
  · rcases h.files p with hstart | hnew
    · exact .inl hstart
    · exact .inr (.inl (h.changed_eq ▸ hnew))
  · rw [h.kept, InsertionDict.get?_empty]
  · rw [h.kept, InsertionDict.get?_empty]

theorem Between.withFolders (h : Between c start names d data) {paths : List String} {root : Folder}
    (hroot : makeFolders paths d.files.root = .ok root) : Between c start names (d.withRoot root) data := by
  obtain ⟨-, hlinks, -⟩ := makeFolders_ok hroot
  exact { h with
    toDescribed := h.toDescribed.withRoot hlinks
    files := fun p => by
      change fileAt root p = _ ∨ (_ ∧ fileAt root p = _)
      rw [fileAt_makeFolders hroot]
      exact h.files p }

theorem Between.free (hp : Promotable c start names) (h : Between c start names d data) {p : String}
    (hfree : d.files.root.get? p = none) : fileAt start.root p = none := by
  have hfile : fileAt d.files.root p = none := by rw [fileAt, hfree, Option.bind_none]
  rcases h.files p with hstart | ⟨hname, hnew⟩
  · exact hstart.symm.trans hfile
  · exact absurd (hnew.symm.trans hfile) (hp.changes.content_ne_none hname)

def Disk.withManifest (d : Disk) (data : Manifest) : Disk := { d with files := { d.files with manifest := some data } }

theorem Between.named (h : Between c start names d data) {temp : String} (hfree : fileAt start.root temp = none) :
    Between c start names (d.withManifest { data with temporary := some temp }) { data with temporary := some temp } where
  before_eq := h.before_eq
  candidate_eq := h.candidate_eq
  manifest := rfl
  baseline := h.baseline
  linkFree := h.linkFree
  planned := .inl ⟨h.changed_eq, h.candidate⟩
  temporary := by
    rintro p hpt
    cases hpt
    exact hfree
  changed_eq := h.changed_eq
  candidate := h.candidate
  files := h.files
  kept := h.kept

theorem Between.listed (h : Between c start names d data) (name : String) :
    Between c start names (d.withManifest { data with applied := data.applied ++ [name] })
      { data with applied := data.applied ++ [name] } where
  before_eq := h.before_eq
  candidate_eq := h.candidate_eq
  manifest := rfl
  baseline := h.baseline
  linkFree := h.linkFree
  planned := h.planned
  temporary := h.temporary
  changed_eq := h.changed_eq
  candidate := h.candidate
  files := h.files
  kept := h.kept

theorem Between.written (h : Between c start names d data) {temp : String} (htemp : data.temporary = some temp)
    (bytes : Bytes) : Left c start names (d.withRoot (d.files.root.set temp (.file bytes))) data := by
  refine { toDescribed := h.toDescribed.withRoot (noNewLinks_set temp (by simp)), files := fun p => ?_
           keptTemporary := fun _ _ _ => ?_, keptNew := fun _ _ _ _ => ?_ }
  · change fileAt (d.files.root.set temp (.file bytes)) p = _ ∨ (_ ∧ fileAt (d.files.root.set temp (.file bytes)) p = _) ∨ _ ∨
      (_ ∧ _ ∧ fileAt (d.files.root.set temp (.file bytes)) p ≠ none)
    by_cases hpt : p = temp
    · exact .inr (.inr (.inl (hpt ▸ htemp)))
    · rw [fileAt_set_file, if_neg hpt]
      exact h.left.files p
  · change d.kept.get? _ = none
    rw [h.kept, InsertionDict.get?_empty]
  · change d.kept.get? _ = none
    rw [h.kept, InsertionDict.get?_empty]

/-- The file is renamed to its place. -/
theorem Between.placed (h : Between c start names d data) {temp name : String} {bytes : Bytes} {root : Folder}
    (hname : name ∈ names) (hfree : d.files.root.get? temp = none) (hbytes : content start.candidate name = some bytes)
    (hroot : replaceFile (d.files.root.set temp (.file bytes)) temp name = .ok root) :
    Between c start names (d.withRoot root) data := by
  obtain ⟨node, hnode, -, rfl⟩ := replaceFile_ok hroot
  rw [InsertionDict.get?_set_self] at hnode
  cases hnode
  have hlinks : NoNewLinks d.files.root (((d.files.root.set temp (.file bytes)).erase temp).set name (.file bytes)) :=
    ((noNewLinks_set temp (by simp)).trans (noNewLinks_erase temp)).trans (noNewLinks_set name (by simp))
  have hfile : ∀ p, fileAt (((d.files.root.set temp (.file bytes)).erase temp).set name (.file bytes)) p =
      if p = name then some bytes else fileAt d.files.root p := by
    intro p
    rw [fileAt_set_file, fileAt_erase, fileAt_set_file]
    by_cases hpt : p = temp
    · rw [if_pos hpt, hpt, fileAt, hfree, Option.bind_none]
    · rw [if_neg hpt, if_neg hpt]
  exact { h with
    toDescribed := h.toDescribed.withRoot hlinks
    files := fun p => by
      change fileAt (((d.files.root.set temp (.file bytes)).erase temp).set name (.file bytes)) p = _ ∨
        (_ ∧ fileAt (((d.files.root.set temp (.file bytes)).erase temp).set name (.file bytes)) p = _)
      rw [hfile]
      by_cases hpn : p = name
      · rw [if_pos hpn, hpn]
        exact .inr ⟨hname, hbytes.symm⟩
      · rw [if_neg hpn]
        exact h.files p }

theorem runs_writeRoot {write : ProjectFiles → Except Exn Folder} {Q : Unit → Disk → Prop} {C : Disk → Prop} (hC : C s)
    (hQ : ∀ root, write s.files = .ok root → Q () (s.withRoot root) ∧ C (s.withRoot root)) :
    EStateM.Ends (ProjectChange.writeRootWith write) s (fun a s' => Q a s' ∧ C s') fun _ s' => C s' ∧ C s' := by
  unfold EStateM.Ends ProjectChange.writeRootWith
  cases hwrite : write s.files with
  | ok root => exact hQ root hwrite
  | error e => exact ⟨hC, hC⟩

/-- One file is written: the manifest never lags behind what is in the root. -/
theorem runs_applyFileOnDisk (hp : Promotable c start names) {name : String} (hname : name ∈ names)
    (h : Between c start names s data) :
    Runs (c.applyFileOnDisk data name) s (fun data' s' => Between c start names s' data')
      (fun _ s' => ∃ data', Left c start names s' data') fun s' => ∃ data', Left c start names s' data' := by
  have hC : ∃ data', Left c start names s data' := ⟨data, h.left⟩
  obtain ⟨bytes, hbytes⟩ := Option.ne_none_iff_exists'.mp (hp.changes.content_ne_none hname)
  unfold ProjectChange.applyFileOnDisk
  refine Runs.bind (runs_ofExcept (Q := fun _ s' => s' = s) (fun _ _ => rfl) (fun _ _ => hC) hC) ?_
  rintro expected s rfl
  refine Runs.bind (runs_rootTree h.linkFree hC) ?_
  rintro _ s ⟨rfl, rfl⟩
  refine runs_ite (fun _ => runs_throw_bind hC hC) fun _ => ?_
  refine Runs.bind (Q := fun _ s' => Between c start names s' data) (runs_torn (runs_writeRoot hC fun root hroot => ?_) hC ?_) ?_
  · exact ⟨h.withFolders hroot, data, (h.withFolders hroot).left⟩
  · rintro _ ⟨k, root, hroot, rfl⟩
    exact ⟨data, (h.withFolders hroot).left⟩
  clear h hC
  intro _ s h
  have hC : ∃ data', Left c start names s data' := ⟨data, h.left⟩
  refine Runs.bind (runs_look (Q := fun d' s' => s = d' ∧ s = s') ⟨rfl, rfl⟩ hC) ?_
  rintro _ _ ⟨rfl, rfl⟩
  refine runs_ite (fun _ => runs_throw_bind hC hC) fun hcontains => ?_
  have hfree : s.files.root.get? (c.temporaryName name) = none := by
    rw [Bool.not_eq_true] at hcontains
    exact InsertionDict.contains_eq_false_iff.mp hcontains
  have hnamed := h.named (h.free hp hfree)
  have hC' : ∃ data', Left c start names (s.withManifest { data with temporary := some (c.temporaryName name) }) data' :=
    ⟨_, hnamed.left⟩
  refine Runs.bind (runs_saveOnDisk (Q := fun _ s' => s' = s.withManifest { data with temporary := some (c.temporaryName name) })
    _ rfl hC hC') ?_
  rintro _ _ rfl
  have hcandidate : (s.withManifest { data with temporary := some (c.temporaryName name) }).files.candidate.get? name =
      some (.file bytes) := by
    rw [hnamed.candidate_eq]
    exact (content_eq_some hbytes).1
  refine Runs.bind (Q := fun _ s' => s' = (s.withManifest { data with temporary := some (c.temporaryName name) }).withRoot
    (s.files.root.set (c.temporaryName name) (.file bytes))) (runs_torn (runs_writeRoot hC' fun root hroot => ?_) hC' ?_) ?_
  · rw [copyFile, hcandidate] at hroot
    cases hroot
    exact ⟨rfl, _, hnamed.written rfl bytes⟩
  · rintro _ ⟨torn, k, -, rfl⟩
    exact ⟨_, hnamed.written rfl (torn.take k)⟩
  rintro _ _ rfl
  refine Runs.bind (Q := fun _ s' => Between c start names s' { data with temporary := some (c.temporaryName name) })
    (runs_atomic (runs_writeRoot ⟨_, hnamed.written rfl bytes⟩ fun root hroot => ?_) ⟨_, hnamed.written rfl bytes⟩) ?_
  · have hplaced := hnamed.placed hname hfree hbytes hroot
    exact ⟨hplaced, _, hplaced.left⟩
  intro _ s h
  refine Runs.bind (runs_saveOnDisk (Q := fun _ s' => Between c start names s'
    { data with temporary := some (c.temporaryName name), applied := data.applied ++ [name] }) _ (h.listed name) ⟨_, h.left⟩
    ⟨_, (h.listed name).left⟩) ?_
  intro _ s h
  exact runs_pure h ⟨_, h.left⟩

theorem runs_applyFilesOnDisk (hp : Promotable c start names) {rest : List String} (hrest : ∀ p ∈ rest, p ∈ names)
    (h : Between c start names s data) :
    Runs (c.applyFilesOnDisk data rest) s (fun _ s' => ∃ data', Left c start names s' data')
      (fun _ s' => ∃ data', Left c start names s' data') fun s' => ∃ data', Left c start names s' data' := by
  induction rest generalizing data s with
  | nil => exact runs_pure ⟨data, h.left⟩ ⟨data, h.left⟩
  | cons name rest ih =>
    unfold ProjectChange.applyFilesOnDisk
    exact Runs.bind (runs_applyFileOnDisk hp (hrest name List.mem_cons_self) h) fun data' s' h' =>
      ih (fun p hmem => hrest p (List.mem_cons_of_mem name hmem)) h'

def atStart (start : ProjectFiles) : Disk := ⟨start, .empty⟩

/-- Wherever `apply` is, what it leaves is known. -/
theorem runs_applyOnDisk (plan : DeploymentPlan) (hp : Promotable c start plan.steps) :
    Runs (c.applyOnDisk plan) (atStart start) (fun _ s => ∃ data, Left c start plan.steps s data)
      (fun _ s => ∃ data, Left c start plan.steps s data) fun s => ∃ data, Left c start plan.steps s data := by
  obtain ⟨data, hmanifest, hchanged, htemporary, hbaseline⟩ := hp.manifest
  have hstart : Left c start plan.steps (atStart start) data :=
    { before_eq := rfl, candidate_eq := rfl, manifest := hmanifest, baseline := hbaseline, linkFree := hp.linkFree
      planned := .inr ⟨hchanged, htemporary⟩, temporary := by simp [htemporary], files := fun _ => .inl rfl
      keptTemporary := fun _ _ _ => InsertionDict.get?_empty _, keptNew := fun _ _ _ _ => InsertionDict.get?_empty _ }
  have hC : ∃ data, Left c start plan.steps (atStart start) data := ⟨data, hstart⟩
  unfold ProjectChange.applyOnDisk
  refine Runs.bind (runs_readManifestOnDisk hstart.manifest hC) ?_
  rintro data _ ⟨rfl, rfl⟩
  refine Runs.bind (runs_look (Q := fun d' s' => d' = atStart start ∧ s' = atStart start) ⟨rfl, rfl⟩ hC) ?_
  rintro _ _ ⟨rfl, rfl⟩
  have htree : tree c.hashes (atStart start).files.candidate = .ok (fileHashes c.hashes start.candidate) :=
    tree_of_linkFree hp.changes.linkFree
  rw [htree]
  refine Runs.bind (runs_ofExcept (Q := fun files s' => files = fileHashes c.hashes start.candidate ∧ s' = atStart start)
    (fun _ heq => ⟨(Except.ok.inj heq).symm, rfl⟩) (fun _ heq => by cases heq) hC) ?_
  rintro _ _ ⟨rfl, rfl⟩
  have hfirst : Between c start plan.steps ((atStart start).withManifest { data with
        state := .applying, changed := plan.steps, candidate := fileHashes c.hashes start.candidate })
      { data with state := .applying, changed := plan.steps, candidate := fileHashes c.hashes start.candidate } :=
    { before_eq := rfl, candidate_eq := rfl, manifest := rfl, baseline := hbaseline, linkFree := hp.linkFree
      planned := .inl ⟨rfl, get?_fileHashes_eq _⟩, temporary := by simp [htemporary], changed_eq := rfl
      candidate := get?_fileHashes_eq _, files := fun _ => .inl rfl, kept := rfl }
  refine Runs.bind (runs_saveOnDisk (Q := fun _ s' => Between c start plan.steps s' { data with
      state := .applying, changed := plan.steps, candidate := fileHashes c.hashes start.candidate }) _ hfirst hC
    ⟨_, hfirst.left⟩) ?_
  intro _ s h
  refine Runs.bind (runs_tryCatch (runs_applyFilesOnDisk hp (fun _ hmem => hmem) h) ?_) fun _ s' hs' => runs_pure hs' hs'
  rintro e s' ⟨data', hleft⟩
  refine Runs.bind (Q := fun _ e => ∃ data, Left c start plan.steps e data) ?_ fun _ s'' hs'' => runs_throw hs'' hs''
  exact (runs_rollbackOnDisk hp hleft).mono (fun _ _ hq => hq.1.1) (fun _ _ he => he.1.1) fun _ hd => hd.1

end Apply

/-! ## Runs with crashes -/

section Histories

variable (c : ProjectChange) (start : ProjectFiles) (plan : DeploymentPlan)

/-- The disks after an `apply` and rollbacks, the last one first: each of them was cut off or has come to its end. -/
inductive Interrupted : List Disk → Prop
  | apply {d : Disk} (h : (c.applyOnDisk plan).stops (atStart start) d ∨ d = ((c.applyOnDisk plan).run (atStart start)).state) :
      Interrupted [d]
  | rollback {d e : Disk} {rest : List Disk} (h : Interrupted (d :: rest))
      (he : c.rollbackOnDisk.stops d e ∨ e = (c.rollbackOnDisk.run d).state) : Interrupted (e :: d :: rest)

/-- The disk after rollbacks that are not cut off, whether they return or raise. -/
def afterRollbacks : ℕ → Disk → Disk
  | 0, d => d
  | n + 1, d => afterRollbacks n (c.rollbackOnDisk.run d).state

/-- A rollback returns in the end, the project has its files again and nothing that ever was in a file is lost. -/
def Recovers (history : List Disk) (d : Disk) : Prop :=
  ∃ n ref e, c.rollbackOnDisk.run (afterRollbacks c n d) = .ok ref e ∧ Restored start e ∧ ∀ m ∈ history, Preserved start m e

variable {c start plan}

theorem Prepared.promotable (h : Prepared c start.root start) (hchanges : Changes c start.before start.candidate names) :
    Promotable c start names where
  changes := hchanges
  linkFree := h.linkFree
  copied p := by rw [h.before_eq, content_copyVisible]
  manifest := by
    refine ⟨_, h.manifest, rfl, rfl, fun p => ?_⟩
    rw [h.before_eq, hashAt_copyVisible, get?_fileHashes_eq]

theorem Left.preserved (hp : Promotable c start names) (h : Left c start names d data) : Preserved start (atStart start) d := by
  refine ⟨fun p bytes hfile hnew => .inl ?_, fun bytes hkept => ?_⟩
  · change fileAt start.root p = some bytes at hfile
    rcases h.files p with hstart | ⟨hmem, -⟩ | htemp | ⟨-, hbefore, -⟩
    · exact hstart.trans hfile
    · have hname : p ∈ names := by
        rcases h.planned with ⟨hchanged, -⟩ | ⟨hchanged, -⟩
        · exact hchanged ▸ hmem
        · simp [hchanged] at hmem
      rw [hp.before_mem hname, hfile] at hnew
      cases hnew
    · rw [h.temporary p htemp] at hfile
      cases hfile
    · exact absurd hnew hbefore
  · obtain ⟨key, hkey⟩ := hkept
    rw [atStart, InsertionDict.get?_empty] at hkey
    cases hkey

/-- Every disk of a history is of the known kind, and the last one has all that the earlier ones had. -/
theorem Interrupted.leaves (hp : Promotable c start plan.steps) {rest : List Disk} (h : Interrupted c start plan (d :: rest)) :
    (∃ data, Left c start plan.steps d data) ∧ Preserved start (atStart start) d ∧ ∀ m ∈ d :: rest, Preserved start m d := by
  generalize hhistory : d :: rest = history at h
  induction h generalizing d rest with
  | @apply d' h =>
    cases hhistory
    have hleft : ∃ data, Left c start plan.steps d' data := by
      have hruns := runs_applyOnDisk plan hp
      rcases h with hstop | rfl
      · exact hruns.stops d' hstop
      · exact hruns.ends.state
    obtain ⟨data, hleft⟩ := hleft
    exact ⟨⟨data, hleft⟩, hleft.preserved hp, by simp [Preserved.refl]⟩
  | @rollback d' e rest' h he ih =>
    cases hhistory
    obtain ⟨⟨data, hleft⟩, hstart, hpreserved⟩ := ih rfl
    have hleaves : Leaves c start plan.steps d' e := by
      have hruns := runs_rollbackOnDisk hp hleft
      rcases he with hstop | rfl
      · exact hruns.stops e hstop
      · exact (hruns.ends.mono (fun _ _ hq => hq.1) fun _ _ he => he.1).state
    refine ⟨hleaves.1, hstart.trans hleaves.2, fun m hm => ?_⟩
    rcases List.mem_cons.mp hm with rfl | hm
    · exact .refl m
    · exact (hpreserved m hm).trans hleaves.2

theorem not_restored_of_not_recognised (hp : Promotable c start names) (n : ℕ) (h : Left c start names d data)
    (hnot : ¬Recognised c start names d) {ref : String} {e : Disk} (hrun : c.rollbackOnDisk.run (afterRollbacks c n d) = .ok ref e) :
    ¬Restored start e := by
  have hruns := (runs_rollbackOnDisk hp h).ends
  induction n generalizing d data with
  | zero =>
    unfold EStateM.Ends at hruns
    rw [afterRollbacks] at hrun
    rw [hrun] at hruns
    exact fun hrestored => hnot (hruns.2.1.mp hrestored)
  | succ n ih =>
    have hafter : EStateM.Ends c.rollbackOnDisk.run d
        (fun _ e => Leaves c start names d e ∧ ¬Recognised c start names e)
        fun _ e => Leaves c start names d e ∧ ¬Recognised c start names e :=
      hruns.mono (fun _ _ hq => ⟨hq.1, fun he => hnot (hq.2.2 he)⟩) fun _ _ he => ⟨he.1, he.2.2⟩
    obtain ⟨⟨⟨data', hleft⟩, -⟩, hnot'⟩ := hafter.state
    exact ih hleft hnot' hrun (runs_rollbackOnDisk hp hleft).ends

end Histories

/-- The project is recovered exactly if no crash has left a baseline file half restored: its bytes are the old ones, or have
the hash of the changed ones. -/
theorem recovers_iff (c : ProjectChange) (start : ProjectFiles) (plan : DeploymentPlan) (hprepared : Prepared c start.root start)
    (hchanges : Changes c start.before start.candidate plan.steps) {d : Disk} {rest : List Disk}
    (h : Interrupted c start plan (d :: rest)) :
    Recovers c start (atStart start :: d :: rest) d ↔ Recognised c start plan.steps d := by
  have hp := hprepared.promotable hchanges
  obtain ⟨⟨data, hleft⟩, hstart, hpreserved⟩ := h.leaves hp
  constructor
  · rintro ⟨n, ref, e, hrun, hrestored, -⟩
    by_contra hnot
    exact not_restored_of_not_recognised hp n hleft hnot hrun hrestored
  · intro hrecognised
    have hruns := (runs_rollbackOnDisk hp hleft).ends
    unfold EStateM.Ends at hruns
    cases hrun : c.rollbackOnDisk.run d with
    | ok ref e =>
      rw [hrun] at hruns
      refine ⟨0, ref, e, hrun, hruns.2.1.mpr hrecognised, fun m hm => ?_⟩
      rcases List.mem_cons.mp hm with rfl | hm
      · exact hstart.trans hruns.1.2
      · exact (hpreserved m hm).trans hruns.1.2
    | error e s =>
      rw [hrun] at hruns
      exact absurd hrecognised hruns.2.1

/-! ## A rollback that is cut off -/

section Torn

variable {c : ProjectChange} {d : Disk} {data : Manifest} {ε σ α β : Type}

theorem stops_bind {x : CrashM ε σ α} {f : α → CrashM ε σ β} {a : α} {s s' t : σ} (hrun : x.run s = .ok a s')
    (h : (f a).stops s' t) : (x >>= f).stops s t := .inr ⟨a, s', hrun, h⟩

theorem run_setAsideOnDisk {temp : String} (htemp : data.temporary = some temp)
    (hout : data.baseline.contains temp = false) :
    (ProjectChange.setAsideOnDisk data).run d = (match d.files.root.get? temp with
      | some (.file _) => ProjectChange.moveOnDisk temp ProjectChange.interruptedWrite
      | _ => return ()).run d := by
  unfold ProjectChange.setAsideOnDisk
  rw [htemp]
  dsimp only
  rw [hout]
  rfl

/-- Where a rollback restores a file first, it can be cut off with any part of its bytes. -/
theorem stops_rollbackOnDisk (hmanifest : d.files.manifest = some data)
    (htemporary : ∀ p, data.temporary = some p → d.files.root.get? p = none) {name : String} {rest : List String}
    (hchanged : data.changed = name :: rest) (hlink : hasLink d.files.root = false)
    (hold : hashAt c d.files.root name ≠ data.baseline.get? name) (hnew : hashAt c d.files.root name = data.candidate.get? name)
    {hash : String} (hbaseline : data.baseline.get? name = some hash) {bytes : Bytes}
    (hbefore : d.files.before.get? name = some (.file bytes)) (k : ℕ) :
    c.rollbackOnDisk.stops d (d.withRoot (d.files.root.set name (.file (bytes.take k)))) := by
  have hread : (ProjectChange.readManifestOnDisk).run d = .ok data d := by
    have hruns := (runs_readManifestOnDisk (C := fun _ => True) (E := fun _ _ => False) hmanifest trivial).ends
    unfold EStateM.Ends at hruns
    cases hrun : ProjectChange.readManifestOnDisk.run d with
    | ok data' d' =>
      rw [hrun] at hruns
      rw [hruns.1, hruns.2]
    | error e d' =>
      rw [hrun] at hruns
      exact hruns.elim
  have haside : (ProjectChange.setAsideOnDisk data).run d = .ok () d := by
    cases htemp : data.temporary with
    | none =>
      unfold ProjectChange.setAsideOnDisk
      rw [htemp]
      rfl
    | some temp =>
      cases hout : data.baseline.contains temp with
      | true =>
        unfold ProjectChange.setAsideOnDisk
        rw [htemp]
        dsimp only
        rw [hout]
        rfl
      | false =>
        rw [run_setAsideOnDisk htemp hout, htemporary temp htemp]
        rfl
  have htree : c.rootTree.run d = .ok (fileHashes c.hashes d.files.root) d := by
    change (MonadExcept.ofExcept (tree c.hashes d.files.root) : DiskM Tree).run d = _
    rw [tree_of_linkFree hlink]
    rfl
  unfold ProjectChange.rollbackOnDisk
  refine stops_bind hread (stops_bind haside (.inl ?_))
  rw [hchanged]
  refine .inl (stops_bind htree ?_)
  rw [get?_fileHashes_eq, if_neg hold, if_neg (not_not.mpr hnew), hbaseline]
  exact .inr (.inr ⟨bytes, k, hbefore, rfl⟩)

end Torn

def appFiles : ProjectFiles where
  root := InsertionDict.empty.set "app.py" (.file [49, 50])
  artifact := true
  before := copyVisible (InsertionDict.empty.set "app.py" (.file [49, 50]))
  candidate := InsertionDict.empty.set "app.py" (.file [51])
  manifest := some ⟨fileHashes plainHashes (InsertionDict.empty.set "app.py" (.file [49, 50])), .prepared, [], .empty, [], none⟩

def appPlan : DeploymentPlan := ⟨"candidate", "previous", ["app.py"]⟩

theorem appFiles_prepared : Prepared webChange appFiles.root appFiles := ⟨rfl, rfl, by decide +kernel, rfl⟩

theorem appFiles_changes : Changes webChange appFiles.before appFiles.candidate appPlan.steps := by
  refine ⟨by decide +kernel, fun p hbefore => ?_, by decide +kernel⟩
  have hroot : hashAt webChange appFiles.root p ≠ none := by rwa [← hashAt_copyVisible]
  by_cases hp : p = "app.py"
  · rw [hp]
    decide +kernel
  · refine absurd (hashAt_eq_none.mpr ?_) hroot
    rw [content, appFiles, InsertionDict.get?_set_of_ne _ _ hp, InsertionDict.get?_empty, Option.bind_none]

/-- The disk when `apply` has returned. -/
def appPromoted : Disk := ((webChange.applyOnDisk appPlan).run (atStart appFiles)).state

theorem appPromoted_recovers : Recovers webChange appFiles [atStart appFiles, appPromoted] appPromoted := by
  refine (recovers_iff webChange appFiles appPlan appFiles_prepared appFiles_changes (.apply (.inr rfl))).mpr ?_
  intro p hp _
  cases List.mem_singleton.mp hp
  exact .inr (by decide +kernel)

/-- A rollback that is cut off when one of the two bytes is copied: every further one raises. -/
theorem tornRestore_not_recovered :
    ¬∀ (c : ProjectChange) (start : ProjectFiles) (plan : DeploymentPlan) (d : Disk) (rest : List Disk),
      Prepared c start.root start → Changes c start.before start.candidate plan.steps →
      Interrupted c start plan (d :: rest) → Recovers c start (atStart start :: d :: rest) d := by
  intro h
  let torn := appPromoted.withRoot (appPromoted.files.root.set "app.py" (.file [49]))
  have hfirst : Interrupted webChange appFiles appPlan [appPromoted] := .apply (.inr rfl)
  have hp := appFiles_prepared.promotable appFiles_changes
  obtain ⟨data, hmanifest⟩ : ∃ data, appPromoted.files.manifest = some data := by
    obtain ⟨⟨data, hleft⟩, -⟩ := hfirst.leaves hp
    exact ⟨data, hleft.manifest⟩
  have hfields : appPromoted.files.manifest.map (fun data => (data.temporary.map appPromoted.files.root.get?, data.changed,
      data.baseline.get? "app.py", data.candidate.get? "app.py")) =
      some (some none, ["app.py"], some "12", some "3") := by decide +kernel
  rw [hmanifest, Option.map_some, Option.some.injEq, Prod.mk.injEq, Prod.mk.injEq, Prod.mk.injEq] at hfields
  obtain ⟨htemporary, hchanged, hbaseline, hcandidate⟩ := hfields
  have hstop : webChange.rollbackOnDisk.stops appPromoted torn := by
    have hbefore : appPromoted.files.before.get? "app.py" = some (.file [49, 50]) := by decide +kernel
    refine stops_rollbackOnDisk hmanifest (fun p hpt => ?_) hchanged (by decide +kernel) ?_ ?_ hbaseline hbefore 1
    · rw [hpt] at htemporary
      exact Option.some.inj htemporary
    · rw [hbaseline]
      decide +kernel
    · rw [hcandidate]
      decide +kernel
  have hsecond := hfirst.rollback (.inl hstop)
  obtain ⟨n, ref, e, hrun, hrestored, -⟩ := h _ _ _ _ _ appFiles_prepared appFiles_changes hsecond
  obtain ⟨⟨data', hleft⟩, -⟩ := hsecond.leaves hp
  refine not_restored_of_not_recognised hp n hleft (fun hrecognised => ?_) hrun hrestored
  have happ := hrecognised "app.py" (by decide +kernel) (by decide +kernel)
  revert happ
  decide +kernel

end AllTomorrow.Overseer
