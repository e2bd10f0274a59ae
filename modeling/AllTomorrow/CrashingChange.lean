import AllTomorrow.ProjectChanges
import AllTomorrow.CrashingState

/-!
# Changing a project while power can fail

`apply` and `rollback` of `ProjectChange` once more, write by write. A rename and the replacement of
the manifest are atomic, a copy that is cut off leaves the first bytes of its source, and the files
that a rollback moves out of the root are looked at too.
-/

namespace AllTomorrow.Overseer

open CrashM

/-- The project, the copies and what rollbacks have moved below the artifact folder. -/
structure Disk where
  files : ProjectFiles
  kept : InsertionDict String Node

abbrev DiskM := CrashM Exn Disk

def ofFiles {α : Type} (x : FilesM α) : EStateM Exn Disk α := fun d =>
  match x d.files with
  | .ok a files => .ok a { d with files }
  | .error e files => .error e { d with files }

def Disk.withRoot (d : Disk) (root : Folder) : Disk := { d with files := { d.files with root } }

namespace ProjectChange

variable (c : ProjectChange)

def rootTree : DiskM Tree := do MonadExcept.ofExcept (tree c.hashes (← look).files.root)

def readManifestOnDisk : DiskM Manifest := atomic (ofFiles readManifest)

/-- `save`: a new file replaces the manifest. -/
def saveOnDisk (data : Manifest) : DiskM Unit := atomic (ofFiles (save data))

def writeRootWith (write : ProjectFiles → Except Exn Folder) : EStateM Exn Disk Unit := fun d =>
  match write d.files with
  | .ok root => .ok () (d.withRoot root)
  | .error e => .error e d

/-- `mkdir(parents=True, exist_ok=True)`, one folder after the other. -/
def makeFoldersOnDisk (paths : List String) : DiskM Unit :=
  torn (writeRootWith fun s => makeFolders paths s.root)
    fun s d => ∃ k root, makeFolders (paths.take k) s.files.root = .ok root ∧ d = s.withRoot root

/-- `shutil.copy2(source / name, target)` into the root. -/
def copyOnDisk (source : ProjectFiles → Folder) (name target : String) : DiskM Unit :=
  torn (writeRootWith fun s => copyFile (source s) name s.root target)
    fun s d => ∃ bytes k, (source s.files).get? name = some (.file bytes) ∧
      d = s.withRoot (s.files.root.set target (.file (bytes.take k)))

def replaceOnDisk (temp target : String) : DiskM Unit :=
  atomic (writeRootWith fun s => replaceFile s.root temp target)

/-- `shutil.move` out of the root, to a path below the artifact folder. -/
def moveOnDisk (path archive : String) : DiskM Unit :=
  atomic (modify fun d => match d.files.root.get? path with
    | some node => { d.withRoot (d.files.root.erase path) with kept := d.kept.set archive node }
    | none => d)

def applyFileOnDisk (data : Manifest) (name : String) : DiskM Manifest := do
  let expected ← MonadExcept.ofExcept (expectedRoot data)
  let current ← c.rootTree
  if !current.sameItems expected then
    throw (.valueError "반영 중 원본 변경 감지")
  makeFoldersOnDisk (parentFolders name)
  let temp := c.temporaryName name
  if (← look).files.root.contains temp then
    throw (.valueError "임시 파일 경로가 이미 사용 중입니다")
  let data := { data with temporary := some temp }
  saveOnDisk data
  copyOnDisk (·.candidate) name temp
  replaceOnDisk temp name
  let data := { data with applied := data.applied ++ [name] }
  saveOnDisk data
  return data

def applyFilesOnDisk : Manifest → List String → DiskM Unit
  | _, [] => return ()
  | data, name :: rest => do
    let data ← c.applyFileOnDisk data name
    applyFilesOnDisk data rest

def interruptedWrite : String := "interrupted-write.tmp"

def revertedNew (name : String) : String := "reverted-new/" ++ name

def setAsideOnDisk (data : Manifest) : DiskM Unit := do
  match data.temporary with
  | none => return ()
  | some temp =>
    if data.baseline.contains temp then
      return ()
    match (← look).files.root.get? temp with
    | some (.file _) => moveOnDisk temp interruptedWrite
    | _ => return ()

def restoreFileOnDisk (data : Manifest) (name : String) : DiskM Unit := do
  let current := (← c.rootTree).get? name
  let original := data.baseline.get? name
  if current = original then
    return ()
  if current ≠ data.candidate.get? name then
    throw (.valueError "되돌릴 파일을 다른 세션이 변경했습니다")
  match original with
  | none => moveOnDisk name (revertedNew name)
  -- the copy goes over the file itself
  | some _ => copyOnDisk (·.before) name name

def restoreFilesOnDisk (data : Manifest) : List String → DiskM Unit
  | [] => return ()
  | name :: rest => do
    c.restoreFileOnDisk data name
    restoreFilesOnDisk data rest

def rollbackOnDisk : DiskM String := do
  let data ← readManifestOnDisk
  setAsideOnDisk data
  c.restoreFilesOnDisk data data.changed
  saveOnDisk { data with state := .rolledBack }
  return digest c.hashes (← c.rootTree)

def applyOnDisk (plan : DeploymentPlan) : DiskM DeploymentRef := do
  let data ← readManifestOnDisk
  let candidate ← MonadExcept.ofExcept (tree c.hashes (← look).files.candidate)
  let data := { data with state := .applying, changed := plan.steps, candidate }
  saveOnDisk data
  tryCatch (c.applyFilesOnDisk data plan.steps) fun e => do
    let _ ← c.rollbackOnDisk
    throw e
  return ⟨c.artifactName, plan.candidateRef, plan.previousRef⟩

end ProjectChange

/-! ## Without a crash it is the same change -/

/-- Where nothing is cut off, the first does to the files what the second does. -/
def Follows {α : Type} (x : DiskM α) (d : Disk) (y : FilesM α) : Prop :=
  (x.run d).outcome = (y d.files).outcome ∧ (x.run d).state.files = (y d.files).state

section Follows

variable {α β : Type} {d : Disk} {x : DiskM α} {y : FilesM α} {f : α → DiskM β} {g : α → FilesM β}

theorem follows_pure (a : α) : Follows (pure a) d (pure a) := ⟨rfl, rfl⟩

theorem follows_throw (e : Exn) : Follows (throw e : DiskM α) d (throw e) := ⟨rfl, rfl⟩

theorem Follows.bind (hx : Follows x d y) (hf : ∀ a d', Follows (f a) d' (g a)) : Follows (x >>= f) d (y >>= g) := by
  obtain ⟨houtcome, hstate⟩ := hx
  change (EStateM.bind x.run (fun a => (f a).run) d).outcome = (EStateM.bind y g d.files).outcome ∧
    (EStateM.bind x.run (fun a => (f a).run) d).state.files = (EStateM.bind y g d.files).state
  unfold EStateM.bind
  cases hrun : x.run d with
  | ok a d' =>
    rw [hrun] at houtcome hstate
    cases hfiles : y d.files with
    | ok b s =>
      rw [hfiles] at houtcome hstate
      cases houtcome
      cases hstate
      exact hf a d'
    | error e s =>
      rw [hfiles] at houtcome
      cases houtcome
  | error e d' =>
    rw [hrun] at houtcome hstate
    cases hfiles : y d.files with
    | ok b s =>
      rw [hfiles] at houtcome
      cases houtcome
    | error e' s =>
      rw [hfiles] at houtcome hstate
      cases houtcome
      exact ⟨rfl, hstate⟩

theorem follows_ite {p : Prop} [Decidable p] {x' : DiskM α} {y' : FilesM α} (h : p → Follows x d y) (h' : ¬p → Follows x' d y') :
    Follows (if p then x else x') d (if p then y else y') := by
  by_cases hp : p
  · simpa only [if_pos hp] using h hp
  · simpa only [if_neg hp] using h' hp

theorem follows_look_bind {f : Disk → DiskM β} {g : ProjectFiles → FilesM β} (h : Follows (f d) d (g d.files)) :
    Follows (look >>= f) d (get >>= g) := h

theorem follows_ofExcept (r : Except Exn α) : Follows (MonadExcept.ofExcept r) d (MonadExcept.ofExcept r) := by
  cases r with
  | ok a => exact follows_pure a
  | error e => exact follows_throw e

theorem follows_ofFiles (y : FilesM α) : Follows (atomic (ofFiles y)) d y := by
  unfold Follows atomic ofFiles
  dsimp only
  cases y d.files <;> exact ⟨rfl, rfl⟩

theorem follows_tryCatch {handle : Exn → DiskM α} {handle' : Exn → FilesM α} (hx : Follows x d y)
    (hhandle : ∀ e d', Follows (handle e) d' (handle' e)) : Follows (tryCatch x handle) d (tryCatch y handle') := by
  obtain ⟨houtcome, hstate⟩ := hx
  change (EStateM.tryCatch x.run (fun e => (handle e).run) d).outcome = (EStateM.tryCatch y handle' d.files).outcome ∧
    (EStateM.tryCatch x.run (fun e => (handle e).run) d).state.files = (EStateM.tryCatch y handle' d.files).state
  unfold EStateM.tryCatch
  cases hrun : x.run d with
  | ok a d' =>
    rw [hrun] at houtcome hstate
    cases hfiles : y d.files with
    | ok b s =>
      rw [hfiles] at houtcome hstate
      exact ⟨houtcome, hstate⟩
    | error e s =>
      rw [hfiles] at houtcome
      cases houtcome
  | error e d' =>
    rw [hrun] at houtcome hstate
    cases hfiles : y d.files with
    | ok b s =>
      rw [hfiles] at houtcome
      cases houtcome
    | error e' s =>
      rw [hfiles] at houtcome hstate
      cases houtcome
      cases hstate
      exact hhandle e d'

variable {c : ProjectChange}

open ProjectChange

theorem follows_rootTree_bind {f : Tree → DiskM β} {g : Tree → FilesM β} (h : ∀ files d', Follows (f files) d' (g files)) :
    Follows (c.rootTree >>= f) d (get >>= fun s => c.treeOf s.root >>= g) :=
  Follows.bind (follows_ofExcept (tree c.hashes d.files.root)) h

theorem follows_get {h : ProjectFiles → FilesM α} (hx : Follows x d (h d.files)) : Follows x d (get >>= h) := hx

variable {write : ProjectFiles → Except Exn Folder} {stops : Disk → Disk → Prop}

theorem follows_write : Follows ⟨writeRootWith write, stops⟩ d (MonadExcept.ofExcept (write d.files) >>= writeRoot) := by
  change (writeRootWith write d).outcome = ((MonadExcept.ofExcept (write d.files) >>= writeRoot : FilesM Unit) d.files).outcome ∧
    (writeRootWith write d).state.files = ((MonadExcept.ofExcept (write d.files) >>= writeRoot : FilesM Unit) d.files).state
  unfold writeRootWith
  cases write d.files <;> exact ⟨rfl, rfl⟩

theorem follows_write_bind {f : Unit → DiskM β} {g : PUnit → FilesM β} (hf : ∀ d', Follows (f ()) d' (g ⟨⟩)) :
    Follows (⟨writeRootWith write, stops⟩ >>= f) d (MonadExcept.ofExcept (write d.files) >>= fun root => writeRoot root >>= g) := by
  have hbind := Follows.bind (@follows_write d write stops) fun _ d' => hf d'
  rwa [bind_assoc] at hbind

variable (data : Manifest)

theorem follows_applyFile (name : String) : Follows (c.applyFileOnDisk data name) d (c.applyFile data name) := by
  unfold applyFileOnDisk applyFile
  refine Follows.bind (follows_ofExcept _) fun expected d' => follows_rootTree_bind fun current d' => ?_
  refine follows_ite (fun _ => follows_throw _) fun _ => ?_
  refine follows_get (follows_write_bind fun d' => follows_look_bind ?_)
  refine follows_ite (fun _ => follows_throw _) fun _ => ?_
  refine Follows.bind (follows_ofFiles _) fun _ d' => ?_
  refine follows_get (follows_get (follows_write_bind fun d' => ?_))
  refine follows_get (follows_write_bind fun d' => ?_)
  exact Follows.bind (follows_ofFiles _) fun _ d' => follows_pure _

theorem follows_applyFiles (names : List String) : Follows (c.applyFilesOnDisk data names) d (c.applyFiles data names) := by
  induction names generalizing data d with
  | nil => exact follows_pure _
  | cons name rest ih => exact Follows.bind (follows_applyFile data name) fun data' d' => ih data'

theorem follows_move (path archive : String) :
    Follows (moveOnDisk path archive) d (modify fun s => { s with root := s.root.erase path }) := by
  refine ⟨rfl, ?_⟩
  change (match d.files.root.get? path with
    | some node => { d.withRoot (d.files.root.erase path) with kept := d.kept.set archive node }
    | none => d).files = { d.files with root := d.files.root.erase path }
  cases hget : d.files.root.get? path with
  | some node => rfl
  | none =>
    rw [InsertionDict.erase_of_none hget]

theorem follows_setAside : Follows (setAsideOnDisk data) d (setAside data) := by
  unfold setAsideOnDisk setAside
  cases data.temporary with
  | none => exact follows_pure _
  | some temp =>
    refine follows_ite (fun _ => follows_pure _) fun _ => follows_look_bind ?_
    cases d.files.root.get? temp with
    | none => exact follows_pure _
    | some node =>
      cases node with
      | file bytes => exact follows_move temp _
      | dir => exact follows_pure _
      | link => exact follows_pure _

theorem follows_restoreFile (name : String) : Follows (c.restoreFileOnDisk data name) d (c.restoreFile data name) := by
  unfold restoreFileOnDisk restoreFile
  refine follows_rootTree_bind fun files d' => ?_
  refine follows_ite (fun _ => follows_pure _) fun _ => follows_ite (fun _ => follows_throw _) fun _ => ?_
  cases data.baseline.get? name with
  | none => exact follows_move name _
  | some hash =>
    exact follows_get (follows_get follows_write)

theorem follows_restoreFiles (names : List String) :
    Follows (c.restoreFilesOnDisk data names) d (c.restoreFiles data names) := by
  induction names generalizing d with
  | nil => exact follows_pure _
  | cons name rest ih => exact Follows.bind (follows_restoreFile data name) fun _ d' => ih

theorem follows_inspect : Follows (do return digest c.hashes (← c.rootTree)) d c.inspectCurrent :=
  follows_rootTree_bind fun _ _ => follows_pure _

theorem follows_rollback (d : Disk) : Follows c.rollbackOnDisk d c.rollback := by
  unfold rollbackOnDisk rollback
  refine Follows.bind (follows_ofFiles _) fun data d' => Follows.bind (follows_setAside data) fun _ d' => ?_
  refine Follows.bind (follows_restoreFiles data _) fun _ d' => Follows.bind (follows_ofFiles _) fun _ d' => ?_
  exact follows_inspect

theorem follows_apply (d : Disk) (plan : DeploymentPlan) : Follows (c.applyOnDisk plan) d (c.apply plan) := by
  unfold applyOnDisk apply
  refine Follows.bind (follows_ofFiles _) fun data d' => ?_
  refine follows_look_bind (Follows.bind (follows_ofExcept _) fun candidate d' => Follows.bind (follows_ofFiles _) fun _ d' => ?_)
  refine Follows.bind (follows_tryCatch (follows_applyFiles _ _) fun e d' => ?_) fun _ d' => follows_pure _
  exact Follows.bind (follows_rollback d') fun _ d' => follows_throw e

end Follows

end AllTomorrow.Overseer
