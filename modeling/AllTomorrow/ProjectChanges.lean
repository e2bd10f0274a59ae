import AllTomorrow.ProjectFolders
import AllTomorrow.RaisingState

/-!
# Changing a project through a copy

`ProjectChange` copies a project twice, lets a worker edit one copy and writes the changed
files back one at a time, with a manifest from which an interrupted promotion can be undone.
`Promoter` wraps that in the checks of a promotion.
-/

namespace AllTomorrow.Overseer

inductive ManifestState where
  | prepared | applying | promoted | rolledBack
  deriving DecidableEq

/-- `promotion.json`. -/
structure Manifest where
  baseline : Tree
  state : ManifestState
  changed : List String
  candidate : Tree
  applied : List String
  temporary : Option String

/-- The project and the artifact folder. Files that a rollback keeps beside the copies are not
read again and are left out. -/
structure ProjectFiles where
  root : Folder
  artifact : Bool
  before : Folder
  candidate : Folder
  manifest : Option Manifest

abbrev FilesM := EStateM Exn ProjectFiles

structure DeploymentPlan where
  candidateRef : String
  previousRef : String
  steps : List String

structure DeploymentRef where
  deploymentId : String
  candidateRef : String
  previousRef : String

inductive ProtectionClass where
  | ordinary | «protected» | unknown
  deriving DecidableEq

def ProtectionClass.value : ProtectionClass → String
  | .ordinary => "ORDINARY"
  | .«protected» => "PROTECTED"
  | .unknown => "UNKNOWN"

structure MonitoringPolicy where
  minObservations : ℤ
  hardRollbackSignals : List String
  tolerance : ℤ := 0

structure PromotionResult where
  promoted : Bool
  deployment : Option DeploymentRef
  rolledBack : Bool := false
  reason : Option String := none

/-- The object: the hash functions and the name of its artifact folder. -/
structure ProjectChange where
  hashes : Hashes
  artifactName : String

/-- The files of `after` that `before` has not, or not with this hash. -/
def newOrChanged (before after : Tree) : List String :=
  (after.entries.filter fun e => before.get? e.1 ≠ some e.2).map Prod.fst

namespace ProjectChange

variable (c : ProjectChange)

def treeOf (folder : Folder) : FilesM Tree := MonadExcept.ofExcept (tree c.hashes folder)

/-- `json.loads(self.manifest.read_text())`. -/
def readManifest : FilesM Manifest := do
  match (← get).manifest with
  | none => throw (.foreign "FileNotFoundError" "promotion.json")
  | some data => return data

theorem readManifest_of_none {files : ProjectFiles} (h : files.manifest = none) :
    readManifest files = .error (.foreign "FileNotFoundError" "promotion.json") files := by
  cases files
  cases h
  rfl

theorem readManifest_of_some {files : ProjectFiles} {data : Manifest} (h : files.manifest = some data) :
    readManifest files = .ok data files := by
  cases files
  cases h
  rfl

def save (data : Manifest) : FilesM Unit := modify fun s => { s with manifest := some data }

def writeRoot (root : Folder) : FilesM Unit := modify fun s => { s with root := root }

def prepare : FilesM Unit := do
  let baseline ← c.treeOf (← get).root
  if (← get).artifact then
    throw (.foreign "FileExistsError" c.artifactName)
  modify fun s => { s with artifact := true, before := copyVisible s.root }
  let copied ← c.treeOf (← get).before
  let again ← c.treeOf (← get).root
  if !copied.sameItems baseline || !again.sameItems baseline then
    throw (.valueError "사본 생성 중 원본이 바뀌었습니다")
  modify fun s => { s with candidate := s.before }
  save ⟨baseline, .prepared, [], .empty, [], none⟩

def changed : FilesM (List String) := do
  let before ← c.treeOf (← get).before
  let after ← c.treeOf (← get).candidate
  if before.entries.any fun e => !after.contains e.1 then
    throw (.permissionError "파일 삭제는 사용자에게 물어야 합니다")
  return newOrChanged before after

def frozen (protectedPaths : List String) (name : String) : Bool :=
  "tests/".toList.isPrefixOf name.toList || protectedPaths.contains name ||
    ["config/", "deploy/", ".github/", "migrations/"].any fun start => start.toList.isPrefixOf name.toList

def frozenChanged (protectedPaths : List String) : FilesM Bool := do
  let names ← c.changed
  let before ← c.treeOf (← get).before
  return names.any fun name => before.contains name && frozen protectedPaths name

def inspectCurrent : FilesM String := do
  return digest c.hashes (← c.treeOf (← get).root)

def validateCandidate (candidateRef : String) : FilesM Bool := do
  let names ← c.changed
  if names = [] then
    return false
  return digest c.hashes (← c.treeOf (← get).candidate) = candidateRef

def plan (candidateRef currentRef : String) : FilesM DeploymentPlan := do
  return ⟨candidateRef, currentRef, ← c.changed⟩

/-- What the root has to be after the files of `applied`. -/
def expectedRoot (data : Manifest) : Except Exn Tree :=
  data.applied.foldlM (fun expected done => match data.candidate.get? done with
    | some hash => .ok (expected.set done hash)
    | none => .error (.keyError done)) data.baseline

def temporaryName (name : String) : String := name ++ ".all-tomorrow-" ++ c.artifactName ++ ".tmp"

/-- One turn of the loop of `apply`: check the root, write the file beside its place and put it there. -/
def applyFile (data : Manifest) (name : String) : FilesM Manifest := do
  let expected ← MonadExcept.ofExcept (expectedRoot data)
  let current ← c.treeOf (← get).root
  if !current.sameItems expected then
    throw (.valueError "반영 중 원본 변경 감지")
  writeRoot (← MonadExcept.ofExcept (makeFolders (parentFolders name) (← get).root))
  let temp := c.temporaryName name
  if (← get).root.contains temp then
    throw (.valueError "임시 파일 경로가 이미 사용 중입니다")
  let data := { data with temporary := some temp }
  save data
  writeRoot (← MonadExcept.ofExcept (copyFile (← get).candidate name (← get).root temp))
  writeRoot (← MonadExcept.ofExcept (replaceFile (← get).root temp name))
  let data := { data with applied := data.applied ++ [name] }
  save data
  return data

def applyFiles : Manifest → List String → FilesM Unit
  | _, [] => return ()
  | data, name :: rest => do
    let data ← c.applyFile data name
    applyFiles data rest

/-- One turn of the loop of `rollback`. -/
def restoreFile (data : Manifest) (name : String) : FilesM Unit := do
  let current := (← c.treeOf (← get).root).get? name
  let original := data.baseline.get? name
  if current = original then
    return ()
  if current ≠ data.candidate.get? name then
    throw (.valueError "되돌릴 파일을 다른 세션이 변경했습니다")
  match original with
  | none => modify fun s => { s with root := s.root.erase name }
  | some _ => writeRoot (← MonadExcept.ofExcept (copyFile (← get).before name (← get).root name))

def restoreFiles (data : Manifest) : List String → FilesM Unit
  | [] => return ()
  | name :: rest => do
    c.restoreFile data name
    restoreFiles data rest

/-- A file that was left beside its place is moved to the artifact folder. -/
def setAside (data : Manifest) : FilesM Unit := do
  match data.temporary with
  | none => return ()
  | some temp =>
    if data.baseline.contains temp then
      return ()
    match (← get).root.get? temp with
    | some (.file _) => modify fun s => { s with root := s.root.erase temp }
    | _ => return ()

def rollback : FilesM String := do
  let data ← readManifest
  setAside data
  c.restoreFiles data data.changed
  save { data with state := .rolledBack }
  c.inspectCurrent

def apply (plan : DeploymentPlan) : FilesM DeploymentRef := do
  let data ← readManifest
  let data := { data with state := .applying, changed := plan.steps, candidate := ← c.treeOf (← get).candidate }
  save data
  tryCatch (c.applyFiles data plan.steps) fun e => do
    let _ ← c.rollback
    throw e
  return ⟨c.artifactName, plan.candidateRef, plan.previousRef⟩

def verify (deployment : DeploymentRef) : FilesM Bool := do
  return (← c.inspectCurrent) = deployment.candidateRef

def finish : FilesM Unit := do
  let data ← readManifest
  save { data with state := .promoted }

/-- `Promoter(change).promote`. -/
def promote (candidateRef acceptedBaselineRef : String) (protectionClass : ProtectionClass)
    (monitoringPolicy : Option MonitoringPolicy) : FilesM PromotionResult := do
  if protectionClass ≠ .ordinary then
    throw (.foreign "ProtectedChangeError"
      (protectionClass.value ++ " candidate requires approval, no auto-promote"))
  if monitoringPolicy.isNone then
    throw (.foreign "MissingMonitoringPolicyError" "monitoring policy required for auto-promotion")
  let current ← c.inspectCurrent
  if current ≠ acceptedBaselineRef then
    throw (.foreign "StaleBaselineError"
      ("baseline drifted: current=" ++ current ++ " accepted=" ++ acceptedBaselineRef))
  if !(← c.validateCandidate candidateRef) then
    throw (.foreign "PromotionError" "candidate validation failed")
  let plan ← c.plan candidateRef current
  let deployment ← c.apply plan
  if !(← c.verify deployment) then
    let _ ← c.rollback
    return { promoted := false, deployment := some deployment, rolledBack := true
             reason := some "verify failed; rolled back" }
  return { promoted := true, deployment := some deployment }

end ProjectChange

end AllTomorrow.Overseer
