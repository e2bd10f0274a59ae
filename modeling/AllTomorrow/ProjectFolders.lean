import AllTomorrow.DomainRecords
import Mathlib.Data.List.Sort
import Mathlib.Data.Prod.Lex
import Mathlib.Data.String.Basic

/-!
# Project folders

A folder is what stands at each relative path below it. `tree` hashes the files that are
not excluded and refuses a folder with links, and `digest` makes one text of a tree.
Reading, writing and hashing are the only things that the overseer does with a folder.
-/

namespace AllTomorrow.Overseer

open InsertionDict (get?_erase get?_pick get?_set)

abbrev Bytes := List UInt8

inductive Node where
  | file (content : Bytes)
  | dir
  | link
  deriving DecidableEq

/-- Everything below a folder by its relative POSIX path, in the order in which `os.walk` finds it. -/
abbrev Folder := InsertionDict String Node

abbrev Tree := InsertionDict String String

/-- `EXCLUDED`. -/
def excludedNames : List String :=
  [".git", ".venv", "venv", "node_modules", "__pycache__", ".pytest_cache", ".artifacts", ".stversions", ".stfolder",
    ".codex", ".agents", ".claude", ".aws", ".ssh", ".kiro", ".gemini", "key-pool.env", "credentials.json",
    ".credentials.json"]

def excluded (name : String) : Bool :=
  excludedNames.contains name || ".env".toList.isPrefixOf name.toList || ".pem".toList.isSuffixOf name.toList ||
    ".key".toList.isSuffixOf name.toList

def parts (path : String) : List String := (path.toList.splitOn '/').map String.ofList

def visible (path : String) : Bool := (parts path).all fun name => !excluded name

/-- `os.walk` comes to the folder of the entry, which may be excluded itself. -/
def visited (path : String) : Bool := (parts path).dropLast.all fun name => !excluded name

def parentFolders (path : String) : List String :=
  (path.toList.splitOn '/').inits.tail.dropLast.map fun names => String.ofList (['/'].intercalate names)

structure Hashes where
  /-- `hashlib.sha256(data).hexdigest()` -/
  sha256 : Bytes → String
  /-- The same of `json.dumps(files, sort_keys=True).encode()`, from the items in the order of their keys. -/
  sha256Items : List (String × String) → String

/-! ## Reading -/

/-- The content of a file that `tree` looks at. -/
def seen (path : String) : Node → Option Bytes
  | .file content => if visible path then some content else none
  | .dir | .link => none

def content (folder : Folder) (path : String) : Option Bytes := (folder.get? path).bind (seen path)

def hasLink (folder : Folder) : Bool := folder.entries.any fun e => e.2 = .link && visited e.1

/-- The dictionary that `tree` fills. -/
def fileHashes (hashes : Hashes) (folder : Folder) : Tree :=
  folder.pick fun path node => (seen path node).map hashes.sha256

def tree (hashes : Hashes) (folder : Folder) : Except Exn Tree :=
  if hasLink folder then .error (.valueError "링크가 있는 프로젝트는 자동 변경하지 않습니다")
  else .ok (fileHashes hashes folder)

/-- The order of `sort_keys`, since no key stands twice in a tree. -/
def ItemBefore (a b : String × String) : Prop := toLex a ≤ toLex b

instance : DecidableRel ItemBefore := fun a b => inferInstanceAs (Decidable (toLex a ≤ toLex b))

def digest (hashes : Hashes) (files : Tree) : String := hashes.sha256Items (files.entries.insertionSort ItemBefore)

/-- `shutil.copytree` with the excluded names ignored. -/
def copyVisible (folder : Folder) : Folder := folder.pick fun path node => if visible path then some node else none

/-- `mkdir(parents=True, exist_ok=True)` for the folders of a path. -/
def makeFolders : List String → Folder → Except Exn Folder
  | [], folder => .ok folder
  | path :: rest, folder =>
    match folder.get? path with
    | none => makeFolders rest (folder.set path .dir)
    | some .dir => makeFolders rest folder
    | some _ => .error (.foreign "FileExistsError" path)

/-- `shutil.copy2(source / name, target)` below another folder. -/
def copyFile (source : Folder) (name : String) (folder : Folder) (target : String) : Except Exn Folder :=
  match source.get? name with
  | some (.file content) => .ok (folder.set target (.file content))
  | some .dir => .error (.foreign "IsADirectoryError" name)
  | some .link | none => .error (.foreign "FileNotFoundError" name)

/-- `temp.replace(target)`. -/
def replaceFile (folder : Folder) (temp target : String) : Except Exn Folder :=
  match folder.get? temp, folder.get? target with
  | none, _ => .error (.foreign "FileNotFoundError" temp)
  | some _, some .dir => .error (.foreign "IsADirectoryError" target)
  | some node, _ => .ok ((folder.erase temp).set target node)

section Reading

variable {hashes : Hashes} {folder other : Folder}

theorem get?_fileHashes (path : String) :
    (fileHashes hashes folder).get? path = (content folder path).map hashes.sha256 := by
  rw [fileHashes, get?_pick, content]
  cases folder.get? path <;> rfl

theorem content_eq_some {path : String} {bytes : Bytes} (h : content folder path = some bytes) :
    folder.get? path = some (.file bytes) ∧ seen path (.file bytes) = some bytes := by
  obtain ⟨node, hget, hseen⟩ := Option.bind_eq_some_iff.mp h
  cases node with
  | file data =>
    cases hvisible : visible path with
    | true =>
      simp only [seen, hvisible, if_true, Option.some.injEq] at hseen ⊢
      exact ⟨hseen ▸ hget, trivial⟩
    | false => simp [seen, hvisible] at hseen
  | dir => simp [seen] at hseen
  | link => simp [seen] at hseen

theorem tree_ok {files : Tree} (h : tree hashes folder = .ok files) :
    hasLink folder = false ∧ files = fileHashes hashes folder := by
  unfold tree at h
  cases hlink : hasLink folder with
  | true => simp [hlink] at h
  | false =>
    simp only [hlink, Bool.false_eq_true, if_false, Except.ok.injEq] at h
    exact ⟨rfl, h.symm⟩

theorem tree_of_linkFree (h : hasLink folder = false) : tree hashes folder = .ok (fileHashes hashes folder) := by
  simp [tree, h]

theorem hasLink_eq_false_iff : hasLink folder = false ↔ ∀ path, folder.get? path = some .link → visited path = false := by
  simp only [hasLink, List.any_eq_false, Bool.and_eq_true, decide_eq_true_eq, not_and, Bool.not_eq_true,
    Prod.forall, InsertionDict.mem_entries_iff]
  constructor
  · intro h path hpath
    exact h path .link hpath rfl
  · intro h path node hpath hnode
    subst hnode
    exact h path hpath

end Reading

/-! ## What writing changes -/

section Writing

variable {folder written : Folder} (path : String)

theorem content_set (bytes : Bytes) (p : String) :
    content (folder.set path (.file bytes)) p =
      if p = path then seen path (.file bytes) else content folder p := by
  rw [content, get?_set]
  split
  · rename_i h
    subst h
    rfl
  · rfl

theorem content_erase (path p : String) :
    content (folder.erase path) p = if p = path then none else content folder p := by
  rw [content, get?_erase]
  split <;> rfl

theorem content_copyVisible : content (copyVisible folder) path = content folder path := by
  rw [content, copyVisible, get?_pick, content]
  cases folder.get? path with
  | none => rfl
  | some node =>
    cases hv : visible path with
    | true => simp
    | false => cases node <;> simp [seen, hv]

def NoNewLinks (folder written : Folder) : Prop :=
  ∀ path, written.get? path = some .link → folder.get? path = some .link

theorem NoNewLinks.hasLink (h : NoNewLinks folder written) (hlink : hasLink folder = false) : hasLink written = false := by
  rw [hasLink_eq_false_iff] at hlink ⊢
  intro path hpath
  exact hlink path (h path hpath)

theorem NoNewLinks.trans {last : Folder} (h : NoNewLinks folder written) (h' : NoNewLinks written last) :
    NoNewLinks folder last :=
  fun path hpath => h path (h' path hpath)

theorem noNewLinks_set {node : Node} (hnode : node ≠ .link) : NoNewLinks folder (folder.set path node) := by
  intro p hp
  rw [get?_set] at hp
  split at hp
  · simp_all
  · exact hp

theorem noNewLinks_erase : NoNewLinks folder (folder.erase path) := by
  intro p hp
  rw [get?_erase] at hp
  split at hp
  · simp at hp
  · exact hp

/-- New folders hold no files. -/
theorem makeFolders_ok {paths : List String} (h : makeFolders paths folder = .ok written) :
    (∀ path, content written path = content folder path) ∧ NoNewLinks folder written ∧
      ∀ path node, folder.get? path = some node → written.get? path = some node := by
  induction paths generalizing folder with
  | nil =>
    cases h
    exact ⟨fun _ => rfl, fun _ hp => hp, fun _ _ hp => hp⟩
  | cons path rest ih =>
    unfold makeFolders at h
    cases hget : folder.get? path with
    | none =>
      rw [hget] at h
      obtain ⟨hcontent, hlinks, hkept⟩ := ih h
      refine ⟨fun p => (hcontent p).trans ?_, (noNewLinks_set path (by simp)).trans hlinks, ?_⟩
      · rw [content, content, get?_set]
        split
        · rename_i hp
          rw [hp, hget]
          rfl
        · rfl
      · intro p node hp
        refine hkept p node ?_
        rw [InsertionDict.get?_set_of_ne, hp]
        rintro rfl
        simp [hget] at hp
    | some node =>
      rw [hget] at h
      cases node with
      | dir => exact ih h
      | file _ => simp at h
      | link => simp at h

theorem copyFile_ok {source : Folder} {name target : String} (h : copyFile source name folder target = .ok written) :
    ∃ bytes, source.get? name = some (.file bytes) ∧ written = folder.set target (.file bytes) := by
  unfold copyFile at h
  cases hget : source.get? name with
  | none => simp [hget] at h
  | some node =>
    cases node with
    | file bytes =>
      rw [hget] at h
      cases h
      exact ⟨bytes, rfl, rfl⟩
    | dir => simp [hget] at h
    | link => simp [hget] at h

theorem replaceFile_ok {temp target : String} (h : replaceFile folder temp target = .ok written) :
    ∃ node, folder.get? temp = some node ∧ folder.get? target ≠ some .dir ∧
      written = (folder.erase temp).set target node := by
  unfold replaceFile at h
  cases htemp : folder.get? temp with
  | none => simp [htemp] at h
  | some node =>
    cases htarget : folder.get? target with
    | none =>
      rw [htemp, htarget] at h
      cases h
      exact ⟨node, rfl, by simp, rfl⟩
    | some other =>
      cases other with
      | dir => simp [htemp, htarget] at h
      | _ =>
        rw [htemp, htarget] at h
        cases h
        exact ⟨node, rfl, by simp, rfl⟩

end Writing

end AllTomorrow.Overseer
