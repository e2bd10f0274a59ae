import AllTomorrow.DomainRecords
import AllTomorrow.InsertionDict
import AllTomorrow.MachineRuns

/-!
# Files of artifacts

`storage/artifact_store.py`: stores whose files are named by the hashes of their contents, and what calls
that are cut off leave of them.
-/

namespace AllTomorrow.ArtifactStores

open InsertionDict (get?_empty get?_set_self)

open MachineRuns

abbrev Bytes := List UInt8

inductive ArtifactContent where
  | bytes (data : Bytes)
  | text (text : String)

/-- `content.encode("utf-8") if isinstance(content, str) else content` -/
def ArtifactContent.data : ArtifactContent → Bytes
  | .bytes data => data
  | .text s => s.toUTF8.toList

inductive RetentionClass where
  | shortLived | standard | extended | permanent
  deriving DecidableEq, Repr

structure ArtifactRef where
  artifactId : String
  contentHash : String
  sizeBytes : ℕ
  mediaType : String
  storageLocator : String
  ownerId : String
  retentionClass : RetentionClass := .standard
  createdAt : Datetime
  deriving DecidableEq

def fileNotFoundError (message : String) : Exn := .foreign "FileNotFoundError" message

def artifactIntegrityError (message : String) : Exn := .foreign "ArtifactIntegrityError" message

def artifactAccessDeniedError (message : String) : Exn := .foreign "ArtifactAccessDeniedError" message

def artifactSubstitutionError (message : String) : Exn := .foreign "ArtifactSubstitutionError" message

/-! ## The local store -/

structure LocalArtifactStore where
  baseDir : String
  files : InsertionDict String Bytes

namespace LocalArtifactStore

variable (computeContentHash : Bytes → String)

def filePath (s : LocalArtifactStore) (digest : String) : String := s.baseDir ++ "/" ++ (digest ++ ".dat")

/-- `cut` bytes are written where the process is lost while it writes, and there is no answer. -/
def store (s : LocalArtifactStore) (env : Supply) (content : ArtifactContent) (mediaType ownerId : String) (cut : Option ℕ) :
    Option ArtifactRef × LocalArtifactStore :=
  let data := content.data
  let digest := computeContentHash data
  let path := s.filePath digest
  let ref : ArtifactRef :=
    { artifactId := (env.sub 0).newId "art", contentHash := digest, sizeBytes := data.length, mediaType
      storageLocator := path, ownerId, createdAt := (env.sub 1).utcNow }
  if (s.files.get? path).isSome then (some ref, s)
  else
    match cut with
    | none => (some ref, { s with files := s.files.set path data })
    | some n => (none, { s with files := s.files.set path (data.take n) })

def checked (data : Bytes) (contentHash : String) : Except Exn Bytes :=
  let actualHash := computeContentHash data
  if actualHash ≠ contentHash then
    .error (artifactIntegrityError ("Artifact hash mismatch: expected " ++ contentHash ++ ", got " ++ actualHash))
  else .ok data

def retrieve (s : LocalArtifactStore) (ref : ArtifactRef) : Except Exn Bytes :=
  match s.files.get? ref.storageLocator with
  | some data => checked computeContentHash data ref.contentHash
  | none =>
    match s.files.get? (s.filePath ref.contentHash) with
    | some data => checked computeContentHash data ref.contentHash
    | none => .error (fileNotFoundError ("Artifact " ++ ref.artifactId ++ " not found at " ++ ref.storageLocator))

def retrieveByContentHash (s : LocalArtifactStore) (contentHash : String) : Except Exn Bytes :=
  match s.files.get? (s.filePath contentHash) with
  | some data => checked computeContentHash data contentHash
  | none => .error (fileNotFoundError ("Artifact with content_hash " ++ contentHash ++ " not found"))

/-! ### Calls that are cut off -/

structure StoreCall where
  env : Supply
  content : ArtifactContent
  mediaType : String
  ownerId : String
  cut : Option ℕ

def step (s : LocalArtifactStore) (c : StoreCall) : LocalArtifactStore :=
  (s.store computeContentHash c.env c.content c.mediaType c.ownerId c.cut).2

/-- The call finds a file, is not cut off, or has written all of its content before. -/
def Untorn (s : LocalArtifactStore) (c : StoreCall) : Prop :=
  (s.files.get? (s.filePath (computeContentHash c.content.data))).isSome ∨ ∀ n, c.cut = some n → c.content.data.length ≤ n

/-- Everything stored is read back as it was. -/
def Faithful (s : LocalArtifactStore) : Prop :=
  ∀ env content mediaType ownerId, ∃ ref s', s.store computeContentHash env content mediaType ownerId none = (some ref, s') ∧
    s'.retrieve computeContentHash ref = .ok content.data ∧
    s'.retrieveByContentHash computeContentHash ref.contentHash = .ok content.data

def Whole (s : LocalArtifactStore) : Prop :=
  ∀ data, s.files.get? (s.filePath (computeContentHash data)) = none ∨
    s.files.get? (s.filePath (computeContentHash data)) = some data

variable (s : LocalArtifactStore)

theorem filePath_inj {digest digest' : String} (h : s.filePath digest = s.filePath digest') : digest = digest' := by
  unfold filePath at h
  rw [← String.toList_inj] at h ⊢
  simp only [String.toList_append, List.append_assoc] at h
  exact List.append_cancel_right (List.append_cancel_left (List.append_cancel_left h))

theorem checked_ok {data data' : Bytes} {contentHash : String} :
    checked computeContentHash data contentHash = .ok data' ↔ computeContentHash data = contentHash ∧ data = data' := by
  unfold checked
  dsimp only
  split
  · next hne => exact ⟨fun h => (by cases h), fun h => absurd h.1 hne⟩
  · next heq =>
    rw [not_not] at heq
    rw [Except.ok.injEq]
    exact (and_iff_right heq).symm

/-- A content of which all is in its file is found again. -/
theorem store_faithful {s : LocalArtifactStore} (env : Supply) (content : ArtifactContent) (mediaType ownerId : String)
    (h : s.files.get? (s.filePath (computeContentHash content.data)) = none ∨
      s.files.get? (s.filePath (computeContentHash content.data)) = some content.data) :
    ∃ ref s', s.store computeContentHash env content mediaType ownerId none = (some ref, s') ∧
      s'.retrieve computeContentHash ref = .ok content.data ∧
      s'.retrieveByContentHash computeContentHash ref.contentHash = .ok content.data := by
  have hchecked : checked computeContentHash content.data (computeContentHash content.data) = .ok content.data :=
    (checked_ok computeContentHash).mpr ⟨rfl, rfl⟩
  unfold store
  dsimp only
  rcases h with hnone | hsome
  · rw [hnone, if_neg (by simp)]
    refine ⟨_, _, rfl, ?_, ?_⟩
    · unfold retrieve
      dsimp only
      rw [get?_set_self]
      exact hchecked
    · unfold retrieveByContentHash
      dsimp only [filePath]
      rw [get?_set_self]
      exact hchecked
  · rw [hsome, if_pos Option.isSome_some]
    refine ⟨_, _, rfl, ?_, ?_⟩
    · unfold retrieve
      dsimp only
      rw [hsome]
      exact hchecked
    · unfold retrieveByContentHash
      rw [hsome]
      exact hchecked

variable {computeContentHash}

theorem faithful_iff : Faithful computeContentHash s ↔ Whole computeContentHash s := by
  constructor
  · intro hfaithful data
    obtain ⟨ref, s', hstore, -, hread⟩ := hfaithful (fun _ => ⟨0, ""⟩) (.bytes data) "" ""
    cases hfile : s.files.get? (s.filePath (computeContentHash data)) with
    | none => exact .inl rfl
    | some old =>
      unfold store at hstore
      dsimp only [ArtifactContent.data] at hstore
      rw [hfile, if_pos Option.isSome_some] at hstore
      cases hstore
      unfold retrieveByContentHash at hread
      dsimp only at hread
      rw [hfile] at hread
      exact .inr (congrArg some ((checked_ok computeContentHash).mp hread).2)
  · intro hwhole env content mediaType ownerId
    exact store_faithful computeContentHash env content mediaType ownerId (hwhole content.data)

theorem step_baseDir (c : StoreCall) : (step computeContentHash s c).baseDir = s.baseDir := by
  unfold step store
  dsimp only
  split
  · rfl
  · cases c.cut <;> rfl

theorem step_files (c : StoreCall) :
    ((s.files.get? (s.filePath (computeContentHash c.content.data))).isSome ∧ (step computeContentHash s c).files = s.files) ∨
      (s.files.get? (s.filePath (computeContentHash c.content.data)) = none ∧ (step computeContentHash s c).files =
        s.files.set (s.filePath (computeContentHash c.content.data)) (match c.cut with
          | none => c.content.data
          | some n => c.content.data.take n)) := by
  unfold step store
  dsimp only
  split
  · next hfile => exact .inl ⟨hfile, rfl⟩
  · next hfile =>
    refine .inr ⟨by simpa using hfile, ?_⟩
    cases c.cut <;> rfl

/-- A call keeps the files whole exactly if it is untorn. -/
theorem whole_step_iff (hinj : Function.Injective computeContentHash) {s : LocalArtifactStore}
    (h : Whole computeContentHash s) (c : StoreCall) :
    Whole computeContentHash (step computeContentHash s c) ↔ Untorn computeContentHash s c := by
  have hpath (digest : String) : (step computeContentHash s c).filePath digest = s.filePath digest := by
    unfold filePath
    rw [step_baseDir]
  unfold Whole Untorn
  simp only [hpath]
  rcases step_files s c with ⟨hfile, hsame⟩ | ⟨hfile, hset⟩
  · rw [hsame]
    exact ⟨fun _ => .inl hfile, fun _ => h⟩
  · rw [hset, hfile]
    constructor
    · intro hwhole
      refine .inr fun n hcut => ?_
      have hown := hwhole c.content.data
      rw [get?_set_self, hcut] at hown
      rcases hown with hnone | hall
      · cases hnone
      · have hlength := congrArg List.length (Option.some.inj hall)
        rw [List.length_take] at hlength
        omega
    · rintro (habsurd | hcut) data
      · cases habsurd
      by_cases hdata : data = c.content.data
      · rw [hdata, get?_set_self]
        refine .inr ?_
        cases hstop : c.cut with
        | none => rfl
        | some n =>
          dsimp only
          rw [List.take_of_length_le (hcut n hstop)]
      · rw [InsertionDict.get?_set_of_ne _ _ fun he => hdata (hinj (filePath_inj s he))]
        exact h data

/-- After every call of a run each content that is stored is retrieved, exactly if no call was cut off while it wrote
a file that was not there. -/
theorem store_survives_iff (hinj : Function.Injective computeContentHash) (baseDir : String) (ops : List StoreCall) :
    (∀ before after, ops = before ++ after → Faithful computeContentHash (run (step computeContentHash) ⟨baseDir, .empty⟩ before)) ↔
      EveryStep (step computeContentHash) (Untorn computeContentHash) ⟨baseDir, .empty⟩ ops := by
  have hempty : Whole computeContentHash ⟨baseDir, .empty⟩ := fun data => .inl (get?_empty _)
  simp only [faithful_iff]
  exact always_iff_everyStep (K := fun _ => True) (I := Whole computeContentHash) (fun _ _ _ => trivial)
    (fun s c _ h => whole_step_iff hinj h c) trivial hempty

def latin1 (data : Bytes) : String := String.ofList (data.map Char.ofUInt8)

theorem latin1_injective : Function.Injective latin1 := by
  intro data data' h
  unfold latin1 at h
  rw [String.ofList_inj] at h
  refine List.map_injective_iff.mpr ?_ h
  intro b b' hb
  exact UInt8.toUInt32_inj.mp (congrArg Char.val hb)

def helloDigest : Bytes → String :=
  Equiv.swap "hello" "2cf24dba5fb0a30e26e83b2ac5b9e29e1b161e5c1fa7425e73043362938b9824" ∘ latin1

theorem helloDigest_injective : Function.Injective helloDigest := (Equiv.injective _).comp latin1_injective

def helloCall (cut : Option ℕ) : StoreCall := ⟨fun _ => ⟨0, "0"⟩, .text "hello", "text/plain", "u", cut⟩

theorem store_survives_hello :
    Faithful helloDigest (run (step helloDigest) ⟨"/data", .empty⟩ [helloCall none, helloCall (some 2)]) := by
  refine (store_survives_iff helloDigest_injective "/data" [helloCall none, helloCall (some 2)]).mpr ?_ _ [] rfl
  refine everyStep_cons.mpr ⟨.inr fun n h => (by cases h), everyStep_cons.mpr ⟨.inl ?_, everyStep_nil⟩⟩
  decide +kernel

def tornStore : LocalArtifactStore := run (step helloDigest) ⟨"/data", .empty⟩ [helloCall (some 2)]

def helloAgain : Option ArtifactRef × LocalArtifactStore :=
  tornStore.store helloDigest (fun _ => ⟨1, "1"⟩) (.text "hello") "text/plain" "u" none

/-- The text that is stored again is refused. -/
theorem torn_hello : (helloAgain.1.map (helloAgain.2.retrieve helloDigest)).isSome ∧
      helloAgain.1.map (helloAgain.2.retrieve helloDigest) ≠ some (.ok (ArtifactContent.text "hello").data) ∧
      helloAgain.1.map (fun ref => helloAgain.2.retrieveByContentHash helloDigest ref.contentHash) ≠
        some (.ok (ArtifactContent.text "hello").data) := by
  decide +kernel

end LocalArtifactStore

end AllTomorrow.ArtifactStores
