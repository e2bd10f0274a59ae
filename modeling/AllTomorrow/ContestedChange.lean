import AllTomorrow.BesidePrograms
import AllTomorrow.ChangeRecovery

/-!
# Changing a project that other sessions write to

`apply` and `rollback` of `ProjectChange` once more. Each use of the file system is a request
of its own, and before it other sessions may write any files of the project. A log keeps what
each request found in the project and what it left there.
-/

namespace AllTomorrow.Overseer

/-! ## Requests -/

/-- The uses of the file system, by the lines of `apply` and `rollback` that make them. -/
inductive ChangeRequest where
  | readManifest
  /-- `rollback` begins with the same read. -/
  | beginRollback
  | candidateTree
  | save (data : Manifest)
  /-- `tree(self.root)` before the file is written -/
  | checkRoot (name : String)
  | makeFolders (name : String)
  | temporaryExists (name : String)
  | copyIn (name : String)
  | replace (name : String)
  | isFile (path : String)
  | setAside (path : String)
  /-- `tree(self.root)` before the file is restored -/
  | lookAt (name : String)
  /-- the `raise` of a rollback, with the hash that it has found -/
  | refuse (name : String) (current : Option String)
  | archive (name : String)
  | copyBack (name : String)
  /-- `inspect_current` -/
  | inspect

@[reducible] def ChangeRequest.Result : ChangeRequest → Type
  | .readManifest | .beginRollback => Manifest
  | .candidateTree | .checkRoot _ | .lookAt _ | .inspect => Tree
  | .temporaryExists _ | .isFile _ => Bool
  | .save _ | .makeFolders _ | .copyIn _ | .replace _ | .setAside _ | .refuse _ _ | .archive _ | .copyBack _ => Unit

@[reducible] def ChangeRequest.Answer (a : ChangeRequest) : Type := Except Exn a.Result

abbrev ContestedTask := ExceptT Exn (Prog ChangeRequest ChangeRequest.Answer)

def askFiles (a : ChangeRequest) : ContestedTask a.Result := ExceptT.mk (.act a .done)

/-- `shutil.move` out of the root. -/
def moveOut (path : String) : FilesM Unit := do
  match (← get).root.get? path with
  | none => throw (.foreign "FileNotFoundError" path)
  | some _ => modify fun s => { s with root := s.root.erase path }

def isFileAt (folder : Folder) (path : String) : Bool :=
  match folder.get? path with
  | some (.file _) => true
  | _ => false

namespace ProjectChange

variable (c : ProjectChange)

def exec : (a : ChangeRequest) → FilesM a.Result
  | .readManifest | .beginRollback => readManifest
  | .candidateTree => do c.treeOf (← get).candidate
  | .save data => ProjectChange.save data
  | .checkRoot _ | .lookAt _ | .inspect => do c.treeOf (← get).root
  | .makeFolders name => do
    writeRoot (← MonadExcept.ofExcept (Overseer.makeFolders (parentFolders name) (← get).root))
  | .temporaryExists name => do return (← get).root.contains (c.temporaryName name)
  | .copyIn name => do
    writeRoot (← MonadExcept.ofExcept (copyFile (← get).candidate name (← get).root (c.temporaryName name)))
  | .replace name => do
    writeRoot (← MonadExcept.ofExcept (replaceFile (← get).root (c.temporaryName name) name))
  | .isFile path => do return isFileAt (← get).root path
  | .setAside path => moveOut path
  | .refuse _ _ => throw (.valueError "되돌릴 파일을 다른 세션이 변경했습니다")
  | .archive name => moveOut name
  | .copyBack name => do
    writeRoot (← MonadExcept.ofExcept (copyFile (← get).before name (← get).root name))

def applyFileBeside (data : Manifest) (name : String) : ContestedTask Manifest := do
  let expected ← MonadExcept.ofExcept (expectedRoot data)
  let current ← askFiles (.checkRoot name)
  if !current.sameItems expected then
    throw (.valueError "반영 중 원본 변경 감지")
  askFiles (.makeFolders name)
  let taken ← askFiles (.temporaryExists name)
  if taken then
    throw (.valueError "임시 파일 경로가 이미 사용 중입니다")
  let data := { data with temporary := some (c.temporaryName name) }
  askFiles (.save data)
  askFiles (.copyIn name)
  askFiles (.replace name)
  let data := { data with applied := data.applied ++ [name] }
  askFiles (.save data)
  return data

def applyFilesBeside : Manifest → List String → ContestedTask Unit
  | _, [] => return ()
  | data, name :: rest => do
    let data ← c.applyFileBeside data name
    applyFilesBeside data rest

def setAsideBeside (data : Manifest) : ContestedTask Unit := do
  match data.temporary with
  | none => return ()
  | some temp =>
    if data.baseline.contains temp then
      return ()
    let left ← askFiles (.isFile temp)
    if left then
      askFiles (.setAside temp)

def restoreFileBeside (data : Manifest) (name : String) : ContestedTask Unit := do
  let files ← askFiles (.lookAt name)
  let current := files.get? name
  let original := data.baseline.get? name
  if current = original then
    return ()
  else if current ≠ data.candidate.get? name then
    askFiles (.refuse name current)
  else match original with
    | none => askFiles (.archive name)
    | some _ => askFiles (.copyBack name)

def restoreFilesBeside (data : Manifest) : List String → ContestedTask Unit
  | [] => return ()
  | name :: rest => do
    restoreFileBeside data name
    restoreFilesBeside data rest

def rollbackBeside : ContestedTask String := do
  let data ← askFiles .beginRollback
  setAsideBeside data
  restoreFilesBeside data data.changed
  askFiles (.save { data with state := .rolledBack })
  return digest c.hashes (← askFiles .inspect)

def applyBeside (plan : DeploymentPlan) : ContestedTask DeploymentRef := do
  let data ← askFiles .readManifest
  let candidate ← askFiles .candidateTree
  let data := { data with state := .applying, changed := plan.steps, candidate }
  askFiles (.save data)
  match ← Prog.attempt (c.applyFilesBeside data plan.steps) with
  | .ok _ => return ⟨c.artifactName, plan.candidateRef, plan.previousRef⟩
  | .error e => do
    let _ ← c.rollbackBeside
    throw e

end ProjectChange

/-! ## The project between the sessions -/

structure ChangeEvent where
  request : ChangeRequest
  seen : String → Option Bytes
  found : Folder
  left : Folder

structure ContestedFiles where
  files : ProjectFiles
  seen : String → Option Bytes
  log : List ChangeEvent
  rollback : List ChangeEvent
  /-- the rollbacks that have raised because of a file, each with its events -/
  refused : List (List ChangeEvent)

def ContestedFiles.start (files : ProjectFiles) : ContestedFiles := ⟨files, fun _ => none, [], [], []⟩

structure FileWrite where
  path : String
  bytes : Option Bytes

def FileWrite.exec (root : Folder) (w : FileWrite) : Folder :=
  match root.get? w.path, w.bytes with
  | some .dir, _ | some .link, _ => root
  | _, some bytes => root.set w.path (.file bytes)
  | _, none => root.erase w.path

namespace ContestedFiles

def written (s : ContestedFiles) (writes : List FileWrite) : ContestedFiles :=
  { s with files := { s.files with root := writes.foldl FileWrite.exec s.files.root } }

variable (c : ProjectChange)

def look (s : ContestedFiles) : ChangeRequest → String → Option Bytes
  | .checkRoot _ | .lookAt _ => fileAt s.files.root
  | .temporaryExists name => fun p => if p = c.temporaryName name then fileAt s.files.root p else s.seen p
  | .isFile path => fun p => if p = path then fileAt s.files.root p else s.seen p
  | _ => s.seen

def recorded (s : ContestedFiles) (a : ChangeRequest) (files : ProjectFiles) : ContestedFiles :=
  let event : ChangeEvent := ⟨a, s.seen, s.files.root, files.root⟩
  { files := files
    seen := s.look c a
    log := s.log ++ [event]
    rollback := match a with
      | .beginRollback => [event]
      | _ => s.rollback ++ [event]
    refused := match a with
      | .refuse _ (some _) => s.refused ++ [s.rollback]
      | _ => s.refused }

end ContestedFiles

def changeHandler (c : ProjectChange) : Prog.Handler ChangeRequest ChangeRequest.Answer ContestedFiles := fun a s =>
  (((c.exec a).run s.files).outcome, s.recorded c a ((c.exec a).run s.files).state)

/-- What the others do before the `n`th request. -/
def besideWrites (others : ℕ → List FileWrite) (n : ℕ) (s : ContestedFiles) : ContestedFiles := s.written (others n)

inductive ChangeCall where
  | apply (plan : DeploymentPlan)
  | rollback

namespace ProjectChange

variable (c : ProjectChange)

def call : ChangeCall → ContestedTask Unit
  | .apply plan => do
    let _ ← c.applyBeside plan
  | .rollback => do
    let _ ← c.rollbackBeside

def callAll : List ChangeCall → ContestedTask Unit
  | [] => return ()
  | first :: rest => do
    let _ ← Prog.attempt (c.call first)
    callAll rest

def contested (others : ℕ → List FileWrite) (calls : List ChangeCall) (start : ProjectFiles) : ContestedFiles :=
  (Prog.evalTaskBeside (changeHandler c) (besideWrites others) (c.callAll calls) 0 (.start start)).2.2

end ProjectChange

/-! ## With no other session it is the same change -/

def silent : ℕ → List FileWrite := fun _ => []

/-- Without foreign writes the task does what the undivided one does. -/
def FollowsAlone (c : ProjectChange) {α : Type} (x : ContestedTask α) (s : ContestedFiles) (y : FilesM α) : Prop :=
  ∀ n, Prog.EndsBeside (changeHandler c) (besideWrites silent) x n s (fun a _ s' => y s.files = .ok a s'.files)
    fun e _ s' => y s.files = .error e s'.files

section FollowsAlone

open ProjectChange

variable {c : ProjectChange} {α β : Type} {s : ContestedFiles} {x : ContestedTask α} {y : FilesM α} {f : α → ContestedTask β}
  {g : α → FilesM β}

theorem followsAlone_pure (a : α) : FollowsAlone c (pure a) s (pure a) := fun _ => Prog.endsBeside_pure rfl

theorem followsAlone_throw (e : Exn) : FollowsAlone c (throw e : ContestedTask α) s (throw e) :=
  fun _ => Prog.endsBeside_throw rfl

theorem followsAlone_ofExcept (r : Except Exn α) : FollowsAlone c (MonadExcept.ofExcept r) s (MonadExcept.ofExcept r) := by
  cases r with
  | ok a => exact followsAlone_pure a
  | error e => exact followsAlone_throw e

theorem followsAlone_ask (a : ChangeRequest) : FollowsAlone c (askFiles a) s (c.exec a) := by
  intro n
  have hask : Prog.evalTaskBeside (changeHandler c) (besideWrites silent) (askFiles a) n s =
      (((c.exec a).run s.files).outcome, n + 1, s.recorded c a ((c.exec a).run s.files).state) := rfl
  unfold Prog.EndsBeside
  rw [hask]
  cases hrun : (c.exec a).run s.files with
  | ok r files => exact hrun
  | error e files => exact hrun

theorem FollowsAlone.bind (hx : FollowsAlone c x s y)
    (hf : ∀ a s', y s.files = .ok a s'.files → FollowsAlone c (f a) s' (g a)) : FollowsAlone c (x >>= f) s (y >>= g) := by
  intro n
  refine Prog.EndsBeside.bind ((hx n).mono (fun _ _ _ h => h) fun e n' s' h => ?_) fun a n' s' h => ?_
  · change EStateM.bind y g s.files = _
    simp only [EStateM.bind, h]
  · have hbind : (y >>= g) s.files = g a s'.files := by
      change EStateM.bind y g s.files = _
      simp only [EStateM.bind, h]
    simp only [hbind]
    exact hf a s' h n'

theorem followsAlone_ite {p : Prop} [Decidable p] {x' : ContestedTask α} {y' : FilesM α} (h : p → FollowsAlone c x s y)
    (h' : ¬p → FollowsAlone c x' s y') : FollowsAlone c (if p then x else x') s (if p then y else y') := by
  by_cases hp : p
  · simpa only [if_pos hp] using h hp
  · simpa only [if_neg hp] using h' hp

theorem FollowsAlone.attempt {f : Except Exn α → ContestedTask β} {handle : Exn → FilesM α} (hx : FollowsAlone c x s y)
    (hok : ∀ a s', FollowsAlone c (f (.ok a)) s' (g a))
    (herror : ∀ e s', FollowsAlone c (f (.error e)) s' (handle e >>= g)) :
    FollowsAlone c (Prog.attempt x >>= f) s (tryCatch y handle >>= g) := by
  intro n
  refine Prog.EndsBeside.bind ((hx n).attempt.mono (fun _ _ _ h => h) fun _ _ _ h => h.elim) ?_
  rintro result n' s' (⟨a, rfl, h⟩ | ⟨e, rfl, h⟩)
  · have hrun : (tryCatch y handle >>= g) s.files = g a s'.files := by
      change EStateM.bind (EStateM.tryCatch y handle) g s.files = _
      simp only [EStateM.bind, EStateM.tryCatch, h]
    simp only [hrun]
    exact hok a s' n'
  · have hrun : (tryCatch y handle >>= g) s.files = (handle e >>= g) s'.files := by
      change EStateM.bind (EStateM.tryCatch y handle) g s.files = EStateM.bind (handle e) g s'.files
      simp only [EStateM.bind, EStateM.tryCatch, h]
      rfl
    simp only [hrun]
    exact herror e s' n'

variable (data : Manifest)

theorem followsAlone_applyFile (name : String) : FollowsAlone c (c.applyFileBeside data name) s (c.applyFile data name) := by
  have hfollows : c.applyFile data name = (do
      let expected ← MonadExcept.ofExcept (expectedRoot data)
      let current ← c.exec (.checkRoot name)
      if !current.sameItems expected then
        throw (.valueError "반영 중 원본 변경 감지")
      c.exec (.makeFolders name)
      let taken ← c.exec (.temporaryExists name)
      if taken then
        throw (.valueError "임시 파일 경로가 이미 사용 중입니다")
      let data := { data with temporary := some (c.temporaryName name) }
      c.exec (.save data)
      c.exec (.copyIn name)
      c.exec (.replace name)
      let data := { data with applied := data.applied ++ [name] }
      c.exec (.save data)
      return data) := by
    unfold applyFile exec
    simp only [bind_assoc, pure_bind]
  rw [hfollows]
  unfold applyFileBeside
  refine (followsAlone_ofExcept _).bind fun expected s' _ => (followsAlone_ask _).bind fun current s' _ => ?_
  refine followsAlone_ite (fun _ => followsAlone_throw _) fun _ => (followsAlone_ask _).bind fun _ s' _ => ?_
  refine (followsAlone_ask _).bind fun taken s' _ => followsAlone_ite (fun _ => followsAlone_throw _) fun _ => ?_
  refine (followsAlone_ask _).bind fun _ s' _ => (followsAlone_ask _).bind fun _ s' _ => ?_
  refine (followsAlone_ask _).bind fun _ s' _ => (followsAlone_ask _).bind fun _ s' _ => ?_
  exact followsAlone_pure _

theorem followsAlone_applyFiles (names : List String) :
    FollowsAlone c (c.applyFilesBeside data names) s (c.applyFiles data names) := by
  induction names generalizing data s with
  | nil => exact followsAlone_pure _
  | cons name rest ih => exact (followsAlone_applyFile data name).bind fun data' s' _ => ih data'

theorem FollowsAlone.of_eq {z : FilesM α} (h : y s.files = z s.files) (hx : FollowsAlone c x s z) :
    FollowsAlone c x s y := by
  intro n
  rw [h]
  exact hx n

theorem moveOut_eq (path : String) (files : ProjectFiles) : moveOut path files = (match files.root.get? path with
    | none => throw (.foreign "FileNotFoundError" path)
    | some _ => modify fun s => { s with root := s.root.erase path } : FilesM Unit) files := rfl

theorem run_moveOut {path : String} {files : ProjectFiles} (h : files.root.get? path ≠ none) :
    moveOut path files = .ok () { files with root := files.root.erase path } := by
  obtain ⟨node, hnode⟩ := Option.ne_none_iff_exists'.mp h
  rw [moveOut_eq, hnode]
  rfl

theorem followsAlone_setAside : FollowsAlone c (setAsideBeside data) s (setAside data) := by
  unfold setAsideBeside setAside
  cases data.temporary with
  | none => exact followsAlone_pure _
  | some temp =>
    refine followsAlone_ite (fun _ => followsAlone_pure _) fun _ => ?_
    have hrun : ∀ (y : FilesM Unit), y s.files = (if isFileAt s.files.root temp then moveOut temp else return ()) s.files →
        FollowsAlone c (askFiles (.isFile temp) >>= fun left => if left then askFiles (.setAside temp) else return ()) s y := by
      intro y hy
      refine .of_eq (z := c.exec (.isFile temp) >>= fun left => if left then c.exec (.setAside temp) else return ()) hy ?_
      exact (followsAlone_ask _).bind fun left s' _ => followsAlone_ite (fun _ => followsAlone_ask _) fun _ => followsAlone_pure _
    refine hrun _ ?_
    change (match s.files.root.get? temp with
      | some (.file _) => modify fun s => { s with root := s.root.erase temp }
      | _ => return () : FilesM Unit) s.files = _
    unfold isFileAt
    cases hget : s.files.root.get? temp with
    | none => rfl
    | some node =>
      cases node with
      | file bytes =>
        simp only [if_true]
        rw [run_moveOut (by simp [hget])]
        rfl
      | dir => rfl
      | link => rfl

theorem run_rootTree {files : Tree} {t t' : ProjectFiles}
    (h : (do c.treeOf (← get).root : FilesM Tree) t = .ok files t') : files = fileHashes c.hashes t.root ∧ t' = t := by
  have htree : (do c.treeOf (← get).root : FilesM Tree) t = (MonadExcept.ofExcept (tree c.hashes t.root) : FilesM Tree) t := rfl
  rw [htree] at h
  cases hresult : tree c.hashes t.root with
  | error e => rw [hresult] at h; cases h
  | ok found =>
    rw [hresult] at h
    cases h
    exact ⟨(tree_ok hresult).2, rfl⟩

theorem followsAlone_restoreFile (name : String) :
    FollowsAlone c (restoreFileBeside data name) s (c.restoreFile data name) := by
  unfold restoreFileBeside restoreFile
  have hread : (get >>= fun files : ProjectFiles => c.treeOf files.root : FilesM Tree) = c.exec (.lookAt name) := rfl
  rw [← bind_assoc, hread]
  refine (followsAlone_ask _).bind fun files s' hfiles => ?_
  refine followsAlone_ite (fun _ => followsAlone_pure _) fun hchanged => ?_
  refine followsAlone_ite (fun _ => followsAlone_ask _) fun _ => ?_
  cases horiginal : data.baseline.get? name with
  | some hash => exact followsAlone_ask _
  | none =>
    refine .of_eq (z := c.exec (.archive name)) ((run_moveOut ?_).symm) (followsAlone_ask _)
    obtain ⟨hfiles, hroot⟩ := run_rootTree hfiles
    rw [horiginal, hfiles, get?_fileHashes_eq] at hchanged
    intro hnone
    refine hchanged (hashAt_eq_none.mpr ?_)
    rw [content, ← hroot, hnone, Option.bind_none]

theorem followsAlone_restoreFiles (names : List String) :
    FollowsAlone c (restoreFilesBeside data names) s (c.restoreFiles data names) := by
  induction names generalizing s with
  | nil => exact followsAlone_pure _
  | cons name rest ih => exact (followsAlone_restoreFile data name).bind fun _ s' _ => ih

theorem followsAlone_rollback : FollowsAlone c c.rollbackBeside s c.rollback := by
  unfold rollbackBeside rollback
  refine (followsAlone_ask _).bind fun data s' _ => (followsAlone_setAside data).bind fun _ s' _ => ?_
  refine (followsAlone_restoreFiles data _).bind fun _ s' _ => (followsAlone_ask _).bind fun _ s' _ => ?_
  exact (followsAlone_ask .inspect).bind fun files s' _ => followsAlone_pure _

theorem followsAlone_apply (plan : DeploymentPlan) : FollowsAlone c (c.applyBeside plan) s (c.apply plan) := by
  unfold applyBeside apply
  refine (followsAlone_ask _).bind fun data s' _ => ?_
  have hread : (get >>= fun files : ProjectFiles => c.treeOf files.candidate : FilesM Tree) = c.exec .candidateTree := rfl
  rw [← bind_assoc, hread]
  refine (followsAlone_ask _).bind fun candidate s' _ => (followsAlone_ask _).bind fun _ s' _ => ?_
  refine FollowsAlone.attempt (followsAlone_applyFiles _ _) (fun _ s' => followsAlone_pure _) fun e s' => ?_
  rw [bind_assoc]
  exact followsAlone_rollback.bind fun _ s' _ => followsAlone_throw e

end FollowsAlone

/-- Written call by call without a crash, and beside sessions that write nothing, `apply` and `rollback` end and leave the
files as when nothing comes between their calls. -/
theorem ProjectChange.one_change (c : ProjectChange) (plan : DeploymentPlan) (d : Disk) (s : ContestedFiles) :
    Follows (c.applyOnDisk plan) d (c.apply plan) ∧ Follows c.rollbackOnDisk d c.rollback ∧
      FollowsAlone c (c.applyBeside plan) s (c.apply plan) ∧ FollowsAlone c c.rollbackBeside s c.rollback :=
  ⟨follows_apply d plan, follows_rollback d, followsAlone_apply plan, followsAlone_rollback⟩

end AllTomorrow.Overseer
