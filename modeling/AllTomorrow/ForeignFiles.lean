import AllTomorrow.ContestedChange

/-!
# Files of other sessions

What `apply` and `rollback` do to files that other sessions have written. Before each file a
program compares the hashes of the project, and it leaves a file alone that it does not know;
but between the comparison and the write there is time for another session, the file at the
temporary path is moved without a comparison, and a rollback that comes to such a file has
restored the files before it.
-/

namespace AllTomorrow.Overseer

variable (c : ProjectChange) (start : ProjectFiles)

/-! ## What is promised -/

/-- The bytes are those of the baseline or of the candidate, or of a candidate file beside its place. -/
def OwnFile (path : String) (bytes : Bytes) : Prop :=
  content start.before path = some bytes ∨ content start.candidate path = some bytes ∨
    ∃ name, path = c.temporaryName name ∧ content start.candidate name = some bytes

def SparesForeign (e : ChangeEvent) : Prop :=
  ∀ path bytes, fileAt e.found path = some bytes → fileAt e.left path ≠ some bytes → OwnFile c start path bytes

def ChangesNoFile (e : ChangeEvent) : Prop := ∀ path, fileAt e.left path = fileAt e.found path

/-- No file of another session was overwritten, and a rollback that raised because of one changed nothing. -/
structure NeverOverwrites (s : ContestedFiles) : Prop where
  spared : ∀ e ∈ s.log, SparesForeign c start e
  unchanged : ∀ events ∈ s.refused, ∀ e ∈ events, ChangesNoFile e

def ChangeRequest.targets : ChangeRequest → List String
  | .copyIn name => [c.temporaryName name]
  | .replace name => [c.temporaryName name, name]
  | .setAside path => [path]
  | .archive name | .copyBack name => [name]
  | _ => []

/-- The bytes have the hash of the baseline or of the candidate at the path. -/
def SameHash (path : String) (bytes : Bytes) : Prop :=
  hashAt c start.before path = some (c.hashes.sha256 bytes) ∨ hashAt c start.candidate path = some (c.hashes.sha256 bytes)

/-- A file of another session that stands where a request writes was there when the program last looked, with a
hash of its own; where a temporary file is set aside, none stands. -/
def Undisturbed (e : ChangeEvent) : Prop :=
  ∀ path ∈ e.request.targets c, ∀ bytes, fileAt e.found path = some bytes → ¬OwnFile c start path bytes →
    e.seen path = some bytes ∧ ¬SameHash c start path bytes ∧ e.request ≠ .setAside path

/-- The rollback finds nothing to do: no file at the temporary path, no changed file that still is the candidate. -/
def findsNothing (e : ChangeEvent) : Bool :=
  match e.request with
  | .isFile path => !isFileAt e.found path
  | .lookAt name => hashAt c e.found name ≠ hashAt c start.candidate name || hashAt c e.found name = hashAt c start.before name
  | _ => true

/-- No session writes between a look and the write after it, and a rollback that raises because of a file had found
nothing to restore before. -/
structure GivesWay (s : ContestedFiles) : Prop where
  undisturbed : ∀ e ∈ s.log, Undisturbed c start e
  nothing : ∀ events ∈ s.refused, ∀ e ∈ events, findsNothing c start e = true

/-! ## What a request does to the files -/

section Requests

variable {c start} {files : ProjectFiles}

structure WritesOnly (paths : List String) (files files' : ProjectFiles) : Prop where
  before_eq : files'.before = files.before
  candidate_eq : files'.candidate = files.candidate
  manifest_eq : files'.manifest = files.manifest
  others : ∀ path ∉ paths, fileAt files'.root path = fileAt files.root path

variable (paths : List String)

theorem WritesOnly.refl (files : ProjectFiles) : WritesOnly paths files files :=
  ⟨rfl, rfl, rfl, fun _ _ => rfl⟩

theorem writesOnly_writeRoot {paths : List String} {result : Except Exn Folder}
    (h : ∀ root, result = .ok root → ∀ path ∉ paths, fileAt root path = fileAt files.root path) :
    WritesOnly paths files ((do ProjectChange.writeRoot (← MonadExcept.ofExcept result) : FilesM Unit) files).state := by
  cases result with
  | ok root => exact ⟨rfl, rfl, rfl, h root rfl⟩
  | error e => exact .refl paths files

theorem writesOnly_copyFile {source : Folder} {name target : String} :
    WritesOnly [target] files
      ((do ProjectChange.writeRoot (← MonadExcept.ofExcept (copyFile source name files.root target)) : FilesM Unit) files).state := by
  refine writesOnly_writeRoot fun root hroot path hpath => ?_
  obtain ⟨bytes, -, rfl⟩ := copyFile_ok hroot
  rw [fileAt_set_file, if_neg (by simpa using hpath)]

theorem writesOnly_replaceFile {temp target : String} :
    WritesOnly [temp, target] files
      ((do ProjectChange.writeRoot (← MonadExcept.ofExcept (replaceFile files.root temp target)) : FilesM Unit) files).state := by
  refine writesOnly_writeRoot fun root hroot path hpath => ?_
  obtain ⟨node, -, -, rfl⟩ := replaceFile_ok hroot
  simp only [List.mem_cons, List.not_mem_nil, or_false, not_or] at hpath
  rw [fileAt, InsertionDict.get?_set_of_ne _ _ hpath.2, InsertionDict.get?_erase, if_neg hpath.1]
  rfl

theorem writesOnly_moveOut (path : String) : WritesOnly [path] files (moveOut path files).state := by
  by_cases hnone : files.root.get? path = none
  · have hrun : moveOut path files = .error (.foreign "FileNotFoundError" path) files := by
      rw [moveOut_eq, hnone]
      rfl
    rw [hrun]
    exact .refl _ files
  · rw [run_moveOut hnone]
    refine ⟨rfl, rfl, rfl, fun p hp => ?_⟩
    change fileAt (files.root.erase path) p = _
    rw [fileAt_erase, if_neg (by simpa using hp)]

theorem writesOnly_treeOf (folder : Folder) : WritesOnly paths files ((c.treeOf folder) files).state := by
  unfold ProjectChange.treeOf
  cases tree c.hashes folder <;> exact .refl paths files

theorem writesOnly_readManifest : WritesOnly paths files (ProjectChange.readManifest files).state := by
  cases hmanifest : files.manifest with
  | none =>
    rw [ProjectChange.readManifest_of_none hmanifest]
    exact .refl paths files
  | some data =>
    rw [ProjectChange.readManifest_of_some hmanifest]
    exact .refl paths files

theorem writesOnly_exec {a : ChangeRequest} (h : ∀ data, a ≠ .save data) :
    WritesOnly (a.targets c) files ((c.exec a) files).state := by
  cases a with
  | readManifest => exact writesOnly_readManifest _
  | beginRollback => exact writesOnly_readManifest _
  | candidateTree => exact writesOnly_treeOf _ files.candidate
  | save data => exact absurd rfl (h data)
  | checkRoot name => exact writesOnly_treeOf _ files.root
  | makeFolders name => exact writesOnly_writeRoot fun root hroot path _ => fileAt_makeFolders hroot path
  | temporaryExists name => exact .refl _ files
  | copyIn name => exact writesOnly_copyFile
  | replace name => exact writesOnly_replaceFile
  | isFile path => exact .refl _ files
  | setAside path => exact writesOnly_moveOut path
  | lookAt name => exact writesOnly_treeOf _ files.root
  | refuse name current => exact .refl _ files
  | archive name => exact writesOnly_moveOut name
  | copyBack name => exact writesOnly_copyFile
  | inspect => exact writesOnly_treeOf _ files.root

end Requests

/-! ## One request beside the others -/

section Steps

/-- The manifest describes the copies, and its files are seen by `tree`. -/
structure Describes (data : Manifest) : Prop where
  baseline : ∀ p, data.baseline.get? p = hashAt c start.before p
  candidate : ∀ p hash, data.candidate.get? p = some hash → hashAt c start.candidate p = some hash
  changed : ∀ name ∈ data.changed, visible name = true ∧ data.candidate.get? name = hashAt c start.candidate name

structure Contest (s : ContestedFiles) : Prop where
  before_eq : s.files.before = start.before
  candidate_eq : s.files.candidate = start.candidate
  manifest : ∀ data, s.files.manifest = some data → Describes c start data
  overwrites : GivesWay c start s → NeverOverwrites c start s

/-- In the rollback so far a file was changed only if one was found that had to be. -/
def ChangesOnlyFound (s : ContestedFiles) : Prop :=
  (∀ e ∈ s.rollback, findsNothing c start e = true) → ∀ e ∈ s.rollback, ChangesNoFile e

def Checked (s : ContestedFiles) (path : String) : Prop :=
  ∀ bytes, s.seen path = some bytes → SameHash c start path bytes

variable {c start} {s : ContestedFiles}

theorem Contest.written (h : Contest c start s) (writes : List FileWrite) : Contest c start (s.written writes) :=
  ⟨h.before_eq, h.candidate_eq, h.manifest, fun hgives =>
    have hnever := h.overwrites ⟨hgives.undisturbed, hgives.nothing⟩
    ⟨hnever.spared, hnever.unchanged⟩⟩

variable {a : ChangeRequest} {files : ProjectFiles}

theorem GivesWay.of_recorded (h : GivesWay c start (s.recorded c a files)) :
    GivesWay c start s ∧ Undisturbed c start ⟨a, s.seen, s.files.root, files.root⟩ := by
  refine ⟨⟨fun e he => h.undisturbed e (List.mem_append_left _ he), fun events hevents => h.nothing events ?_⟩,
    h.undisturbed _ (List.mem_append_right _ List.mem_cons_self)⟩
  unfold ContestedFiles.recorded
  dsimp only
  split
  · exact List.mem_append_left _ hevents
  · exact hevents

theorem sparesForeign_of_checked (hframe : ∀ path ∉ a.targets c, fileAt files.root path = fileAt s.files.root path)
    (htargets : ∀ path ∈ a.targets c, Checked c start s path ∨ a = .setAside path)
    (hundisturbed : Undisturbed c start ⟨a, s.seen, s.files.root, files.root⟩) :
    SparesForeign c start ⟨a, s.seen, s.files.root, files.root⟩ := by
  intro path bytes hfound hleft
  by_contra hforeign
  have htarget : path ∈ a.targets c := by
    by_contra hnot
    exact hleft ((hframe path hnot).trans hfound)
  obtain ⟨hseen, hhash, hrequest⟩ := hundisturbed path htarget bytes hfound hforeign
  rcases htargets path htarget with hchecked | haside
  · exact hhash (hchecked bytes hseen)
  · exact hrequest haside

theorem files_exec (a : ChangeRequest) (files : ProjectFiles) :
    ((c.exec a) files).state.before = files.before ∧ ((c.exec a) files).state.candidate = files.candidate ∧
      (∀ data, ((c.exec a) files).state.manifest = some data → files.manifest = some data ∨ a = .save data) ∧
      ∀ path ∉ a.targets c, fileAt ((c.exec a) files).state.root path = fileAt files.root path := by
  by_cases hsave : ∃ data, a = .save data
  · obtain ⟨data, rfl⟩ := hsave
    refine ⟨rfl, rfl, fun data' hdata => .inr ?_, fun _ _ => rfl⟩
    cases hdata
    rfl
  · have hwrites : WritesOnly (a.targets c) files ((c.exec a) files).state := writesOnly_exec fun data h => hsave ⟨data, h⟩
    exact ⟨hwrites.before_eq, hwrites.candidate_eq, fun data hdata => .inl (hwrites.manifest_eq ▸ hdata), hwrites.others⟩

/-- A request that writes only where the program has looked. -/
theorem Contest.recorded (h : Contest c start s) (a : ChangeRequest)
    (htargets : ∀ path ∈ a.targets c, Checked c start s path ∨ a = .setAside path)
    (hsave : ∀ data, a = .save data → Describes c start data)
    (hrefuse : ∀ name hash, a = .refuse name (some hash) → ChangesOnlyFound c start s) :
    Contest c start (s.recorded c a ((c.exec a) s.files).state) := by
  obtain ⟨hbefore, hcandidate, hmanifest, hframe⟩ := files_exec (c := c) a s.files
  refine ⟨hbefore.trans h.before_eq, hcandidate.trans h.candidate_eq, fun data hdata => ?_, fun hgives => ⟨?_, ?_⟩⟩
  · rcases hmanifest data hdata with hold | rfl
    · exact h.manifest data hold
    · exact hsave data rfl
  · intro e he
    obtain ⟨hgives', hundisturbed⟩ := hgives.of_recorded
    rcases List.mem_append.mp he with hold | hnew
    · exact (h.overwrites hgives').spared e hold
    · cases List.mem_singleton.mp hnew
      exact sparesForeign_of_checked hframe htargets hundisturbed
  · intro events hevents
    have hold := (h.overwrites hgives.of_recorded.1).unchanged events
    have hnothing := hgives.nothing
    unfold ContestedFiles.recorded at hevents hnothing
    dsimp only at hevents hnothing
    split at hevents
    · rename_i name hash
      rcases List.mem_append.mp hevents with hmem | hnew
      · exact hold hmem
      · cases List.mem_singleton.mp hnew
        exact hrefuse name hash rfl (hnothing _ (List.mem_append_right _ List.mem_cons_self))
    · exact hold hevents

theorem ChangesOnlyFound.recorded (h : ChangesOnlyFound c start s) (hbegin : a ≠ .beginRollback)
    (htargets : a.targets c = [] ∨ ∃ e ∈ s.rollback, findsNothing c start e = false) :
    ChangesOnlyFound c start (s.recorded c a ((c.exec a) s.files).state) := by
  have hrollback : (s.recorded c a ((c.exec a) s.files).state).rollback =
      s.rollback ++ [⟨a, s.seen, s.files.root, ((c.exec a) s.files).state.root⟩] := by
    cases a with
    | beginRollback => exact absurd rfl hbegin
    | _ => rfl
  unfold ChangesOnlyFound
  rw [hrollback]
  intro hnothing e he
  rcases htargets with hnone | ⟨e', he', hfound⟩
  · rcases List.mem_append.mp he with hold | hnew
    · exact h (fun e' he' => hnothing e' (List.mem_append_left _ he')) e hold
    · cases List.mem_singleton.mp hnew
      intro path
      exact (files_exec a s.files).2.2.2 path (by simp [hnone])
  · have hnone := hnothing e' (List.mem_append_left _ he')
    rw [hfound] at hnone
    cases hnone

end Steps

/-! ## The two programs beside the others -/

section Programs

open Prog ProjectChange

variable {c start} {s : ContestedFiles} {others : ℕ → List FileWrite} {n : ℕ} {a : ChangeRequest}

variable {Q : a.Result → ℕ → ContestedFiles → Prop} {E : Exn → ℕ → ContestedFiles → Prop}

/-- A request of a program: the others have written before it. -/
theorem endsBeside_askFiles (h : Contest c start s)
    (htargets : ∀ path ∈ a.targets c, Checked c start s path ∨ a = .setAside path)
    (hsave : ∀ data, a = .save data → Describes c start data)
    (hrefuse : ∀ name hash, a = .refuse name (some hash) → ChangesOnlyFound c start s)
    (hok : ∀ writes r files, (c.exec a) (s.written writes).files = .ok r files →
      Contest c start ((s.written writes).recorded c a files) → Q r (n + 1) ((s.written writes).recorded c a files))
    (herror : ∀ e s', Contest c start s' → E e (n + 1) s') :
    EndsBeside (changeHandler c) (besideWrites others) (askFiles a) n s Q E := by
  have hask : evalTaskBeside (changeHandler c) (besideWrites others) (askFiles a) n s =
      (((c.exec a) (s.written (others n)).files).outcome, n + 1,
        (s.written (others n)).recorded c a ((c.exec a) (s.written (others n)).files).state) := rfl
  have hnext := (h.written (others n)).recorded a htargets hsave hrefuse
  unfold EndsBeside
  rw [hask]
  cases hrun : (c.exec a) (s.written (others n)).files with
  | ok r files =>
    rw [hrun] at hnext
    exact hok (others n) r files hrun hnext
  | error e files =>
    rw [hrun] at hnext
    exact herror e _ hnext

theorem endsBeside_plain (h : Contest c start s) (htargets : a.targets c = []) (hsave : ∀ data, a = .save data → Describes c start data)
    (hrefuse : ∀ name hash, a ≠ .refuse name (some hash))
    (hok : ∀ writes r files, (c.exec a) (s.written writes).files = .ok r files →
      Contest c start ((s.written writes).recorded c a files) → Q r (n + 1) ((s.written writes).recorded c a files))
    (herror : ∀ e s', Contest c start s' → E e (n + 1) s') :
    EndsBeside (changeHandler c) (besideWrites others) (askFiles a) n s Q E :=
  endsBeside_askFiles h (fun path hpath => by simp [htargets] at hpath) hsave
    (fun name hash hrefused => absurd hrefused (hrefuse name hash)) hok herror

variable {data : Manifest}

theorem Describes.expected_fold (hdata : Describes c start data) {expected : Tree} {path hash : String}
    (hhash : expected.get? path = some hash) (names : List String) (files : Tree)
    (hfiles : ∀ p h, files.get? p = some h → hashAt c start.before p = some h ∨ hashAt c start.candidate p = some h)
    (h : names.foldlM (fun (expected : Tree) done => match data.candidate.get? done with
      | some hash => Except.ok (expected.set done hash)
      | none => .error (Exn.keyError done)) files = .ok expected) :
    hashAt c start.before path = some hash ∨ hashAt c start.candidate path = some hash := by
  induction names generalizing files with
  | nil =>
    cases h
    exact hfiles path hash hhash
  | cons done rest ih =>
    rw [List.foldlM_cons] at h
    cases hdone : data.candidate.get? done with
    | none => rw [hdone] at h; cases h
    | some new =>
      rw [hdone] at h
      refine ih (files.set done new) (fun p h hp => ?_) h
      rw [InsertionDict.get?_set] at hp
      split at hp
      · rename_i hpd
        cases hp
        exact .inr (hpd ▸ hdata.candidate done _ hdone)
      · exact hfiles p h hp

/-- The tree that `apply` expects has the hashes of the baseline and of the candidate. -/
theorem Describes.expected (hdata : Describes c start data) {expected : Tree}
    (h : expectedRoot data = .ok expected) {path hash : String} (hhash : expected.get? path = some hash) :
    hashAt c start.before path = some hash ∨ hashAt c start.candidate path = some hash :=
  hdata.expected_fold hhash data.applied data.baseline (fun p _ hp => .inl ((hdata.baseline p).symm.trans hp)) h

variable {path : String}

theorem sameHash_of_tree {folder : Folder} {bytes : Bytes} (hvisible : visible path = true)
    (hfile : fileAt folder path = some bytes) (hhash : ∀ hash, hashAt c folder path = some hash →
      hashAt c start.before path = some hash ∨ hashAt c start.candidate path = some hash) : SameHash c start path bytes := by
  refine hhash (c.hashes.sha256 bytes) ?_
  rw [hashAt, content_eq, if_pos hvisible, hfile]
  rfl

variable {name : String}

theorem taken_temporaryExists {files files' : ProjectFiles} {taken : Bool}
    (h : (c.exec (.temporaryExists name)) files = .ok taken files') : files.root.contains (c.temporaryName name) = taken := by
  cases h
  rfl

theorem seen_temporaryExists (name : String) (files : ProjectFiles) (path : String) :
    (s.recorded c (.temporaryExists name) files).seen path =
      if path = c.temporaryName name then fileAt s.files.root path else s.seen path := rfl

theorem fileAt_of_not_contains {folder : Folder} (h : folder.contains path = false) : fileAt folder path = none := by
  rw [fileAt, InsertionDict.contains_eq_false_iff.mp h]
  rfl

theorem endsBeside_applyFile (hdata : Describes c start data) (h : Contest c start s) (hvisible : visible name = true) :
    EndsBeside (changeHandler c) (besideWrites others) (c.applyFileBeside data name) n s
      (fun data' _ s' => Contest c start s' ∧ Describes c start data') fun _ _ s' => Contest c start s' := by
  unfold applyFileBeside
  refine EndsBeside.bind (Q := fun expected _ s' => s' = s ∧ expectedRoot data = .ok expected) ?_ ?_
  · cases hexpected : expectedRoot data with
    | ok expected => exact endsBeside_pure ⟨rfl, rfl⟩
    | error e => exact endsBeside_throw h
  rintro expected n s ⟨rfl, hexpected⟩
  refine EndsBeside.bind (Q := fun current _ s' => Contest c start s' ∧
    ∃ root, current = fileHashes c.hashes root ∧ s'.seen = fileAt root) ?_ ?_
  · refine endsBeside_plain h rfl (by simp) (by simp) (fun writes current files hrun hnext => ?_) fun _ _ h => h
    obtain ⟨hcurrent, hfiles⟩ := run_rootTree hrun
    exact ⟨hnext, _, hcurrent, rfl⟩
  rintro current n s ⟨h, root, rfl, hseen⟩
  refine endsBeside_ite (fun _ => endsBeside_throw h) fun hsame => ?_
  rw [Bool.not_eq_true, Bool.not_eq_false', InsertionDict.sameItems_iff] at hsame
  -- the file that is replaced is the one of the comparison
  have hchecked : Checked c start s name := by
    intro bytes hbytes
    rw [hseen] at hbytes
    refine sameHash_of_tree hvisible hbytes fun hash hhash => hdata.expected hexpected ?_
    rw [← hsame name, get?_fileHashes_eq, hhash]
  refine EndsBeside.bind (Q := fun _ _ s' => Contest c start s' ∧ Checked c start s' name) ?_ ?_
  · exact endsBeside_plain h rfl (by simp) (by simp) (fun _ _ _ _ hnext => ⟨hnext, hchecked⟩) fun _ _ h => h
  rintro _ n s ⟨h, hchecked⟩
  refine EndsBeside.bind (Q := fun taken _ s' => Contest c start s' ∧ (taken = false →
    Checked c start s' (c.temporaryName name) ∧ Checked c start s' name)) ?_ ?_
  · refine endsBeside_plain h rfl (by simp) (by simp) (fun writes taken files hrun hnext => ⟨hnext, fun hfree => ?_⟩)
      fun _ _ h => h
    have hnone := fileAt_of_not_contains (taken_temporaryExists hrun ▸ hfree)
    refine ⟨fun bytes hbytes => ?_, fun bytes hbytes => ?_⟩
    · rw [seen_temporaryExists, if_pos rfl, hnone] at hbytes
      cases hbytes
    · rw [seen_temporaryExists] at hbytes
      split at hbytes
      · rename_i hname
        rw [hname, hnone] at hbytes
        cases hbytes
      · exact hchecked bytes hbytes
  rintro taken n s ⟨h, hfree⟩
  refine endsBeside_ite (fun _ => endsBeside_throw h) fun htaken => ?_
  obtain ⟨htemporary, hchecked⟩ := hfree (by simpa using htaken)
  have hdata₁ : Describes c start { data with temporary := some (c.temporaryName name) } := ⟨hdata.baseline, hdata.candidate, hdata.changed⟩
  refine EndsBeside.bind (Q := fun _ _ s' => Contest c start s' ∧ Checked c start s' (c.temporaryName name) ∧
    Checked c start s' name) ?_ ?_
  · refine endsBeside_plain h rfl ?_ (by simp) (fun _ _ _ _ hnext => ⟨hnext, htemporary, hchecked⟩) fun _ _ h => h
    rintro data' hdata'
    cases hdata'
    exact hdata₁
  rintro _ n s ⟨h, htemporary, hchecked⟩
  refine EndsBeside.bind (Q := fun _ _ s' => Contest c start s' ∧ Checked c start s' (c.temporaryName name) ∧
    Checked c start s' name) ?_ ?_
  · refine endsBeside_askFiles h ?_ (by simp) (by simp) (fun _ _ _ _ hnext => ⟨hnext, htemporary, hchecked⟩) fun _ _ h => h
    intro path hpath
    cases List.mem_singleton.mp hpath
    exact .inl htemporary
  rintro _ n s ⟨h, htemporary, hchecked⟩
  refine EndsBeside.bind (Q := fun _ _ s' => Contest c start s') ?_ ?_
  · refine endsBeside_askFiles h ?_ (by simp) (by simp) (fun _ _ _ _ hnext => hnext) fun _ _ h => h
    intro path hpath
    simp only [ChangeRequest.targets, List.mem_cons, List.not_mem_nil, or_false] at hpath
    rcases hpath with rfl | rfl
    · exact .inl htemporary
    · exact .inl hchecked
  rintro _ n s h
  have hdata₂ : Describes c start { data with temporary := some (c.temporaryName name), applied := data.applied ++ [name] } :=
    ⟨hdata.baseline, hdata.candidate, hdata.changed⟩
  refine EndsBeside.bind (Q := fun _ _ s' => Contest c start s') ?_ ?_
  · refine endsBeside_plain h rfl ?_ (by simp) (fun _ _ _ _ hnext => hnext) fun _ _ h => h
    rintro data' hdata'
    cases hdata'
    exact hdata₂
  rintro _ n s h
  exact endsBeside_pure ⟨h, hdata₂⟩

variable {names : List String}

theorem endsBeside_applyFiles (hdata : Describes c start data) (h : Contest c start s)
    (hvisible : ∀ name ∈ names, visible name = true) :
    EndsBeside (changeHandler c) (besideWrites others) (c.applyFilesBeside data names) n s
      (fun _ _ s' => Contest c start s') fun _ _ s' => Contest c start s' := by
  induction names generalizing data n s with
  | nil => exact endsBeside_pure h
  | cons name rest ih =>
    refine (endsBeside_applyFile hdata h (hvisible name List.mem_cons_self)).bind ?_
    rintro data' n' s' ⟨h', hdata'⟩
    exact ih hdata' h' fun p hp => hvisible p (List.mem_cons_of_mem name hp)

/-! ### Rolling back -/

def Found (c : ProjectChange) (start : ProjectFiles) (s : ContestedFiles) : Prop := ∃ e ∈ s.rollback, findsNothing c start e = false

variable {files : ProjectFiles}

theorem ChangesOnlyFound.answered (h : ChangesOnlyFound c start s) (hbegin : a ≠ .beginRollback)
    (htargets : a.targets c = [] ∨ Found c start s) {writes : List FileWrite} {r : a.Result}
    (hrun : (c.exec a) (s.written writes).files = .ok r files) :
    ChangesOnlyFound c start ((s.written writes).recorded c a files) := by
  have hnext := ChangesOnlyFound.recorded (s := s.written writes) h hbegin htargets
  rwa [hrun] at hnext

theorem Found.recorded (hbegin : a ≠ .beginRollback)
    (hfound : findsNothing c start ⟨a, s.seen, s.files.root, files.root⟩ = false) : Found c start (s.recorded c a files) := by
  refine ⟨_, ?_, hfound⟩
  cases a with
  | beginRollback => exact absurd rfl hbegin
  | _ => exact List.mem_append_right _ List.mem_cons_self

theorem endsBeside_setAside (h : Contest c start s) (hrollback : ChangesOnlyFound c start s) :
    EndsBeside (changeHandler c) (besideWrites others) (setAsideBeside data) n s
      (fun _ _ s' => Contest c start s' ∧ ChangesOnlyFound c start s') fun _ _ s' => Contest c start s' := by
  unfold setAsideBeside
  cases data.temporary with
  | none => exact endsBeside_pure ⟨h, hrollback⟩
  | some temp =>
    refine endsBeside_ite (fun _ => endsBeside_pure ⟨h, hrollback⟩) fun _ => ?_
    refine EndsBeside.bind (Q := fun left _ s' => Contest c start s' ∧ ChangesOnlyFound c start s' ∧
      (left = true → Found c start s')) ?_ ?_
    · refine endsBeside_plain h rfl (by simp) (by simp) (fun writes left files hrun hnext => ?_) fun _ _ h => h
      refine ⟨hnext, hrollback.answered (by simp) (.inl rfl) hrun, fun hleft => Found.recorded (by simp) ?_⟩
      have hfile : isFileAt (s.written writes).files.root temp = left := by
        cases hrun
        rfl
      simp only [findsNothing, hfile, hleft, Bool.not_true]
    rintro left n s ⟨h, hrollback, hfound⟩
    refine endsBeside_ite (fun hleft => ?_) fun _ => endsBeside_pure ⟨h, hrollback⟩
    refine endsBeside_askFiles h (fun path hpath => .inr ?_) (by simp) (by simp) (fun writes r files hrun hnext => ?_)
      fun _ _ h => h
    · cases List.mem_singleton.mp hpath
      rfl
    · exact ⟨hnext, hrollback.answered (by simp) (.inr (hfound hleft)) hrun⟩

theorem endsBeside_restoreFile (hdata : Describes c start data) (h : Contest c start s)
    (hrollback : ChangesOnlyFound c start s) (hmem : name ∈ data.changed) :
    EndsBeside (changeHandler c) (besideWrites others) (restoreFileBeside data name) n s
      (fun _ _ s' => Contest c start s' ∧ ChangesOnlyFound c start s') fun _ _ s' => Contest c start s' := by
  unfold restoreFileBeside
  refine EndsBeside.bind (Q := fun files _ s' => Contest c start s' ∧ ChangesOnlyFound c start s' ∧
    ∃ root, files = fileHashes c.hashes root ∧ s'.seen = fileAt root ∧
      (hashAt c root name = hashAt c start.candidate name → hashAt c root name ≠ hashAt c start.before name →
        Found c start s')) ?_ ?_
  · refine endsBeside_plain h rfl (by simp) (by simp) (fun writes files' files hrun hnext => ?_) fun _ _ h => h
    obtain ⟨hcurrent, hfiles⟩ := run_rootTree hrun
    refine ⟨hnext, hrollback.answered (by simp) (.inl rfl) hrun, _, hcurrent, rfl, fun hcandidate hbefore => ?_⟩
    refine Found.recorded (by simp) ?_
    simp [findsNothing, hcandidate, hcandidate ▸ hbefore]
  rintro files n s ⟨h, hrollback, root, rfl, hseen, hfound⟩
  obtain ⟨hvisible, hplanned⟩ := hdata.changed name hmem
  rw [get?_fileHashes_eq, hdata.baseline, hplanned]
  refine endsBeside_ite (fun _ => endsBeside_pure ⟨h, hrollback⟩) fun hbefore => ?_
  refine endsBeside_ite (fun _ => ?_) fun hcandidate => ?_
  · refine endsBeside_askFiles h (by simp [ChangeRequest.targets]) (by simp) (fun _ _ _ => hrollback)
      (fun writes r files hrun _ => ?_) fun _ _ h => h
    cases hrun
  rw [not_not] at hcandidate
  have hchecked : Checked c start s name := by
    intro bytes hbytes
    rw [hseen] at hbytes
    refine sameHash_of_tree hvisible hbytes fun hash hhash => .inr ?_
    rw [← hcandidate, hhash]
  have hwrite : ∀ a : ChangeRequest, a = .archive name ∨ a = .copyBack name →
      EndsBeside (changeHandler c) (besideWrites others) (askFiles a) n s
        (fun _ _ s' => Contest c start s' ∧ ChangesOnlyFound c start s') fun _ _ s' => Contest c start s' := by
    intro a ha
    have htargets : ∀ path ∈ a.targets c, Checked c start s path ∨ a = .setAside path := by
      rcases ha with rfl | rfl <;>
      · intro path hpath
        cases List.mem_singleton.mp hpath
        exact .inl hchecked
    refine endsBeside_askFiles h htargets (by rcases ha with rfl | rfl <;> simp) (by rcases ha with rfl | rfl <;> simp)
      (fun writes r files hrun hnext => ⟨hnext, hrollback.answered ?_ (.inr (hfound hcandidate hbefore)) hrun⟩) fun _ _ h => h
    rcases ha with rfl | rfl <;> simp
  cases hashAt c start.before name with
  | none => exact hwrite _ (.inl rfl)
  | some hash => exact hwrite _ (.inr rfl)

theorem endsBeside_restoreFiles (hdata : Describes c start data) (h : Contest c start s)
    (hrollback : ChangesOnlyFound c start s) (hnames : ∀ name ∈ names, name ∈ data.changed) :
    EndsBeside (changeHandler c) (besideWrites others) (restoreFilesBeside data names) n s
      (fun _ _ s' => Contest c start s') fun _ _ s' => Contest c start s' := by
  induction names generalizing n s with
  | nil => exact endsBeside_pure h
  | cons name rest ih =>
    refine (endsBeside_restoreFile hdata h hrollback (hnames name List.mem_cons_self)).bind ?_
    rintro _ n' s' ⟨h', hrollback'⟩
    exact ih h' hrollback' fun p hp => hnames p (List.mem_cons_of_mem name hp)

theorem run_readManifest {files files' : ProjectFiles} (h : readManifest files = .ok data files') :
    files.manifest = some data ∧ files' = files := by
  cases hmanifest : files.manifest with
  | none => rw [readManifest_of_none hmanifest] at h; cases h
  | some found =>
    rw [readManifest_of_some hmanifest] at h
    cases h
    exact ⟨rfl, rfl⟩

theorem changesOnlyFound_begin (h : files = s.files) : ChangesOnlyFound c start (s.recorded c .beginRollback files) := by
  intro _ e he path
  cases List.mem_singleton.mp he
  exact congrArg (fun files : ProjectFiles => fileAt files.root path) h

theorem endsBeside_rollback (h : Contest c start s) :
    EndsBeside (changeHandler c) (besideWrites others) c.rollbackBeside n s (fun _ _ s' => Contest c start s')
      fun _ _ s' => Contest c start s' := by
  unfold rollbackBeside
  refine EndsBeside.bind (Q := fun data _ s' => Contest c start s' ∧ ChangesOnlyFound c start s' ∧ Describes c start data) ?_ ?_
  · refine endsBeside_plain h rfl (by simp) (by simp) (fun writes data files hrun hnext => ?_) fun _ _ h => h
    obtain ⟨hmanifest, hfiles⟩ := run_readManifest hrun
    exact ⟨hnext, changesOnlyFound_begin hfiles, h.manifest data hmanifest⟩
  rintro data n s ⟨h, hrollback, hdata⟩
  refine (endsBeside_setAside h hrollback).bind ?_
  rintro _ n s ⟨h, hrollback⟩
  refine (endsBeside_restoreFiles hdata h hrollback fun _ hp => hp).bind ?_
  rintro _ n s h
  refine EndsBeside.bind (Q := fun _ _ s' => Contest c start s') ?_ ?_
  · refine endsBeside_plain h rfl ?_ (by simp) (fun _ _ _ _ hnext => hnext) fun _ _ h => h
    rintro data' hdata'
    cases hdata'
    exact ⟨hdata.baseline, hdata.candidate, hdata.changed⟩
  rintro _ n s h
  refine EndsBeside.bind (Q := fun _ _ s' => Contest c start s') ?_ fun _ _ _ h => endsBeside_pure h
  exact endsBeside_plain h rfl (by simp) (by simp) (fun _ _ _ _ hnext => hnext) fun _ _ h => h

/-! ### Whole runs -/

/-- Every file of the plan differs between the state before and the candidate. -/
def ChangeCall.Plans (c : ProjectChange) (start : ProjectFiles) : ChangeCall → Prop
  | .apply plan => ∀ name ∈ plan.steps, hashAt c start.before name ≠ hashAt c start.candidate name
  | .rollback => True

theorem visible_of_hash_ne (h : hashAt c start.before path ≠ hashAt c start.candidate path) : visible path = true := by
  by_contra hinvisible
  have hnone : ∀ folder : Folder, hashAt c folder path = none := by
    intro folder
    rw [hashAt, content_eq, if_neg hinvisible]
    rfl
  exact h ((hnone _).trans (hnone _).symm)

theorem run_candidateTree {files : Tree} {t t' : ProjectFiles} (h : (c.exec .candidateTree) t = .ok files t') :
    files = fileHashes c.hashes t.candidate := by
  have htree : (c.exec .candidateTree) t = (MonadExcept.ofExcept (tree c.hashes t.candidate) : FilesM Tree) t := rfl
  rw [htree] at h
  cases hresult : tree c.hashes t.candidate with
  | error e => rw [hresult] at h; cases h
  | ok found =>
    rw [hresult] at h
    cases h
    exact (tree_ok hresult).2

theorem endsBeside_apply (h : Contest c start s) {plan : DeploymentPlan} (hplan : (ChangeCall.apply plan).Plans c start) :
    EndsBeside (changeHandler c) (besideWrites others) (c.applyBeside plan) n s (fun _ _ s' => Contest c start s')
      fun _ _ s' => Contest c start s' := by
  unfold applyBeside
  refine EndsBeside.bind (Q := fun data _ s' => Contest c start s' ∧ Describes c start data) ?_ ?_
  · refine endsBeside_plain h rfl (by simp) (by simp) (fun writes data files hrun hnext => ⟨hnext, ?_⟩) fun _ _ h => h
    exact h.manifest data (run_readManifest hrun).1
  rintro data n s ⟨h, hdata⟩
  refine EndsBeside.bind (Q := fun candidate _ s' => Contest c start s' ∧ candidate = fileHashes c.hashes start.candidate) ?_ ?_
  · refine endsBeside_plain h rfl (by simp) (by simp) (fun writes candidate files hrun hnext => ⟨hnext, ?_⟩) fun _ _ h => h
    rw [run_candidateTree hrun]
    exact congrArg (fileHashes c.hashes) h.candidate_eq
  rintro _ n s ⟨h, rfl⟩
  have hvisible : ∀ name ∈ plan.steps, visible name = true := fun name hname => visible_of_hash_ne (hplan name hname)
  have hdata' : Describes c start { data with
      state := .applying, changed := plan.steps, candidate := fileHashes c.hashes start.candidate } :=
    ⟨hdata.baseline, fun p hash hp => (get?_fileHashes_eq start.candidate p).symm.trans hp,
      fun name hname => ⟨hvisible name hname, get?_fileHashes_eq start.candidate name⟩⟩
  refine EndsBeside.bind (Q := fun _ _ s' => Contest c start s') ?_ ?_
  · refine endsBeside_plain h rfl ?_ (by simp) (fun _ _ _ _ hnext => hnext) fun _ _ h => h
    rintro data' hsaved
    cases hsaved
    exact hdata'
  rintro _ n s h
  refine EndsBeside.bind ((endsBeside_applyFiles hdata' h hvisible).attempt.mono (fun _ _ _ h => h) fun _ _ _ h => h.elim) ?_
  rintro result n s (⟨a, rfl, h⟩ | ⟨e, rfl, h⟩)
  · exact endsBeside_pure h
  · exact (endsBeside_rollback h).bind fun _ _ _ h => endsBeside_throw h

theorem endsBeside_call (h : Contest c start s) {call : ChangeCall} (hcall : call.Plans c start) :
    EndsBeside (changeHandler c) (besideWrites others) (c.call call) n s (fun _ _ s' => Contest c start s')
      fun _ _ s' => Contest c start s' := by
  cases call with
  | apply plan => exact (endsBeside_apply h hcall).bind fun _ _ _ h => endsBeside_pure h
  | rollback => exact (endsBeside_rollback h).bind fun _ _ _ h => endsBeside_pure h

theorem endsBeside_callAll (h : Contest c start s) {calls : List ChangeCall} (hcalls : ∀ call ∈ calls, call.Plans c start) :
    EndsBeside (changeHandler c) (besideWrites others) (c.callAll calls) n s (fun _ _ s' => Contest c start s')
      fun _ _ _ => False := by
  induction calls generalizing n s with
  | nil => exact endsBeside_pure h
  | cons call rest ih =>
    refine EndsBeside.bind (endsBeside_call h (hcalls call List.mem_cons_self)).attempt ?_
    rintro result n s (⟨_, _, h⟩ | ⟨_, _, h⟩)
    all_goals exact ih h fun call' hcall' => hcalls call' (List.mem_cons_of_mem call hcall')

theorem Prepared.contest {root : Folder} (h : Prepared c root start) : Contest c start (.start start) := by
  refine ⟨rfl, rfl, fun data hdata => ?_, fun _ => ⟨by simp [ContestedFiles.start], by simp [ContestedFiles.start]⟩⟩
  rw [ContestedFiles.start, h.manifest] at hdata
  cases hdata
  refine ⟨fun p => ?_, fun p hash hp => ?_, fun name hname => ?_⟩
  · rw [get?_fileHashes_eq, h.before_eq, hashAt_copyVisible]
  · rw [InsertionDict.get?_empty] at hp
    cases hp
  · cases hname

end Programs

/-- After a preparation: where the sessions give way, applying and rolling back any number of times overwrites no file
of another session. -/
theorem neverOverwrites_of_givesWay (c : ProjectChange) (others : ℕ → List FileWrite) (calls : List ChangeCall)
    {start : ProjectFiles} (hprepared : Prepared c start.root start) (hcalls : ∀ call ∈ calls, call.Plans c start)
    (hgives : GivesWay c start (c.contested others calls start)) :
    NeverOverwrites c start (c.contested others calls start) := by
  have hends := @endsBeside_callAll c start (.start start) others 0 hprepared.contest calls hcalls
  unfold Prog.EndsBeside at hends
  unfold ProjectChange.contested at hgives ⊢
  generalize Prog.evalTaskBeside (changeHandler c) (besideWrites others) (c.callAll calls) 0 (.start start) = result at hends hgives ⊢
  obtain ⟨outcome, n, s⟩ := result
  cases outcome with
  | ok _ => exact hends.overwrites hgives
  | error e => exact hends.elim

/-- Another session has rewritten the module before the plan is applied. -/
def writesFirst : ℕ → List FileWrite
  | 0 => [⟨"app.py", some [57]⟩]
  | _ => []

theorem appPlan_plans : (ChangeCall.apply appPlan).Plans webChange appFiles := by
  intro name hname
  exact appFiles_changes.mem_iff.mp hname

theorem writesFirst_givesWay : GivesWay webChange appFiles (webChange.contested writesFirst [.apply appPlan] appFiles) := by
  have hlog : ∀ e ∈ (webChange.contested writesFirst [.apply appPlan] appFiles).log, e.request.targets webChange = [] := by
    decide +kernel
  refine ⟨fun e he path hpath => ?_, by decide +kernel⟩
  rw [hlog e he] at hpath
  cases hpath

theorem writesFirst_neverOverwrites :
    NeverOverwrites webChange appFiles (webChange.contested writesFirst [.apply appPlan] appFiles) :=
  neverOverwrites_of_givesWay webChange writesFirst [.apply appPlan] appFiles_prepared
    (List.forall_mem_singleton.mpr appPlan_plans) writesFirst_givesWay

def pairFiles : ProjectFiles where
  root := (InsertionDict.empty.set "a.py" (.file [49])).set "b.py" (.file [49])
  artifact := true
  before := copyVisible ((InsertionDict.empty.set "a.py" (.file [49])).set "b.py" (.file [49]))
  candidate := (InsertionDict.empty.set "a.py" (.file [50])).set "b.py" (.file [50])
  manifest := some ⟨fileHashes plainHashes ((InsertionDict.empty.set "a.py" (.file [49])).set "b.py" (.file [49])), .prepared, [],
    .empty, [], none⟩

def pairPlan : DeploymentPlan := ⟨"candidate", "previous", ["a.py", "b.py"]⟩

/-- Another session rewrites the second module when the plan has been applied. -/
def writesBetween : ℕ → List FileWrite
  | 17 => [⟨"b.py", some [57]⟩]
  | _ => []

/-- The rollback restores the first module and raises at the second. -/
theorem halfRestored_not_neverOverwrites :
    ¬∀ (c : ProjectChange) (others : ℕ → List FileWrite) (calls : List ChangeCall) (start : ProjectFiles),
      Prepared c start.root start → (∀ call ∈ calls, call.Plans c start) →
        NeverOverwrites c start (c.contested others calls start) := by
  intro h
  have hprepared : Prepared webChange pairFiles.root pairFiles := ⟨rfl, rfl, by decide +kernel, rfl⟩
  have hplans : ∀ call ∈ [ChangeCall.apply pairPlan, .rollback], call.Plans webChange pairFiles := by
    intro call hcall
    rcases List.mem_cons.mp hcall with rfl | hcall
    · change ∀ name ∈ ["a.py", "b.py"], hashAt webChange pairFiles.before name ≠ hashAt webChange pairFiles.candidate name
      decide +kernel
    · cases List.mem_singleton.mp hcall
      trivial
  have hnever := h webChange writesBetween [.apply pairPlan, .rollback] pairFiles hprepared hplans
  have hrestored : ∃ events ∈ (webChange.contested writesBetween [.apply pairPlan, .rollback] pairFiles).refused,
      ∃ e ∈ events, fileAt e.left "a.py" ≠ fileAt e.found "a.py" := by
    decide +kernel
  obtain ⟨events, hevents, e, he, hchanged⟩ := hrestored
  exact hchanged (hnever.unchanged events hevents e he "a.py")

end AllTomorrow.Overseer
