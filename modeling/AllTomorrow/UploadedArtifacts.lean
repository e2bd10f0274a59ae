import Mathlib.Data.List.Induction
import AllTomorrow.ArtifactFiles

/-!
# Uploaded artifacts

`FinalizingArtifactStore`: uploads are staged, moved to the file of their hash when they are finalized, and
dropped when nobody finalized them.
-/

namespace AllTomorrow.ArtifactStores

open InsertionDict (forall_set get?_erase get?_set_of_ne)

open MachineRuns
open LocalArtifactStore (helloDigest helloDigest_injective)

structure StagedUpload where
  stagingId : String
  stagingPath : String
  contentHash : String
  sizeBytes : ℕ
  deriving DecidableEq

/-- The objects are under their names, which are hashes, and the staged uploads under their paths. -/
structure FinalizingArtifactStore where
  baseDir : String
  objects : InsertionDict String Bytes
  staging : InsertionDict String Bytes

namespace FinalizingArtifactStore

variable (computeContentHash : Bytes → String)

def objectPath (baseDir contentHash : String) : String := baseDir ++ "/objects/" ++ contentHash ++ ".dat"

def stagingPath (baseDir stagingId : String) : String := baseDir ++ "/staging/" ++ stagingId ++ ".part"

/-- What `stage` returns. -/
def upload (baseDir : String) (env : Supply) (content : ArtifactContent) : StagedUpload where
  stagingId := (env []).uuid
  stagingPath := stagingPath baseDir (env []).uuid
  contentHash := computeContentHash content.data
  sizeBytes := content.data.length

def stage (s : FinalizingArtifactStore) (env : Supply) (content : ArtifactContent) : StagedUpload × FinalizingArtifactStore :=
  let staged := upload computeContentHash s.baseDir env content
  (staged, { s with staging := s.staging.set staged.stagingPath content.data })

structure FinalizeOptions where
  mediaType : String := "application/octet-stream"
  ownerId : String := "system"
  retentionClass : RetentionClass := .standard
  expectedHash : Option String := none

/-- `os.replace` is atomic. -/
def finalize (s : FinalizingArtifactStore) (env : Supply) (staged : StagedUpload) (options : FinalizeOptions) :
    Except Exn ArtifactRef × FinalizingArtifactStore :=
  match s.staging.get? staged.stagingPath with
  | none => (.error (artifactIntegrityError ("staged upload " ++ staged.stagingId ++ " missing")), s)
  | some data =>
    let observed := computeContentHash data
    let dropped := { s with staging := s.staging.erase staged.stagingPath }
    if observed ≠ staged.contentHash then
      (.error (artifactSubstitutionError
        ("staged bytes changed under " ++ staged.stagingId ++ ": " ++ observed ++ " != " ++ staged.contentHash)), dropped)
    else if options.expectedHash.any fun expected => observed ≠ expected then
      (.error (artifactSubstitutionError ("finalize hash mismatch: expected " ++ options.expectedHash.getD "" ++ ", observed " ++
        observed)), dropped)
    else
      let moved := if (s.objects.get? observed).isSome then dropped else { dropped with objects := s.objects.set observed data }
      (.ok { artifactId := (env.sub 0).newId "art", contentHash := observed, sizeBytes := data.length
             mediaType := options.mediaType, storageLocator := objectPath s.baseDir observed, ownerId := options.ownerId
             retentionClass := options.retentionClass, createdAt := (env.sub 1).utcNow }, moved)

def retrieve (s : FinalizingArtifactStore) (ref : ArtifactRef) (requesterId : Option String) : Except Exn Bytes :=
  if requesterId.any fun requester => ref.ownerId ≠ "system" ∧ requester ≠ ref.ownerId then
    .error (artifactAccessDeniedError
      ("requester " ++ requesterId.getD "" ++ " may not read artifact owned by " ++ ref.ownerId))
  else
    match s.objects.get? ref.contentHash with
    | none => .error (artifactIntegrityError
        ("artifact bytes missing for " ++ ref.artifactId ++ " (" ++ ref.contentHash ++ "); REPAIR_REQUIRED"))
    | some data =>
      let actual := computeContentHash data
      if actual ≠ ref.contentHash then
        .error (artifactIntegrityError
          ("artifact hash mismatch for " ++ ref.artifactId ++ ": expected " ++ ref.contentHash ++ ", got " ++ actual))
      else .ok data

/-- `part.stem` -/
def stem (baseDir path : String) : String :=
  let name := path.toList.drop (baseDir ++ "/staging/").length
  String.ofList (name.take (name.length - 5))

def gcOrphans (s : FinalizingArtifactStore) : List String × FinalizingArtifactStore :=
  (s.staging.entries.map fun e => stem s.baseDir e.1, { s with staging := .empty })

/-! ## Calls -/

inductive MoveCrash where
  | before | after
  deriving DecidableEq

inductive UploadCall where
  | stage (env : Supply) (content : ArtifactContent)
  | finalize (env : Supply) (staged : StagedUpload) (options : FinalizeOptions) (crash : Option MoveCrash)
  | gcOrphans

def step (s : FinalizingArtifactStore) : UploadCall → FinalizingArtifactStore
  | .stage env content => (s.stage computeContentHash env content).2
  | .finalize _ _ _ (some .before) => s
  | .finalize env staged options _ => (s.finalize computeContentHash env staged options).2
  | .gcOrphans => s.gcOrphans.2

def UploadCall.stagingId : UploadCall → Option String
  | .stage env _ => some (env []).uuid
  | _ => none

def StagedIn (ops : List UploadCall) (data : Bytes) : Prop := ∃ env content, .stage env content ∈ ops ∧ data = content.data

/-- No two uploads have one staging id. -/
def DistinctIds (ops : List UploadCall) : Prop :=
  ops.Pairwise fun c c' => ∀ id, c.stagingId = some id → c'.stagingId ≠ some id

/-- The staged contents have different hashes. -/
def NoCollision (ops : List UploadCall) : Prop :=
  ∀ data data', StagedIn ops data → StagedIn ops data' → computeContentHash data = computeContentHash data' → data = data'

/-- What is finalized was returned by an earlier `stage`. -/
def Legitimate (baseDir : String) (ops : List UploadCall) : Prop :=
  ∀ before env staged options crash after, ops = before ++ .finalize env staged options crash :: after →
    ∃ env' content, .stage env' content ∈ before ∧ staged = upload computeContentHash baseDir env' content

theorem stagingPath_inj {baseDir id id' : String} (h : stagingPath baseDir id = stagingPath baseDir id') : id = id' := by
  unfold stagingPath at h
  rw [← String.toList_inj] at h ⊢
  simp only [String.toList_append, List.append_assoc] at h
  exact List.append_cancel_right (List.append_cancel_left (List.append_cancel_left h))

/-- A finalization is refused, drops the upload, or has moved it. -/
theorem finalize_cases (s : FinalizingArtifactStore) (env : Supply) (staged : StagedUpload) (options : FinalizeOptions) :
    (s.staging.get? staged.stagingPath = none ∧ ∃ e, s.finalize computeContentHash env staged options = (.error e, s)) ∨
      ∃ data, s.staging.get? staged.stagingPath = some data ∧ ((∃ e, s.finalize computeContentHash env staged options =
            (.error e, { s with staging := s.staging.erase staged.stagingPath })) ∨
          ∃ ref, computeContentHash data = staged.contentHash ∧ ref.contentHash = staged.contentHash ∧
            s.finalize computeContentHash env staged options = (.ok ref, { s with
              staging := s.staging.erase staged.stagingPath
              objects := if (s.objects.get? staged.contentHash).isSome then s.objects
                else s.objects.set staged.contentHash data })) := by
  unfold finalize
  cases hstaged : s.staging.get? staged.stagingPath with
  | none => exact .inl ⟨rfl, _, rfl⟩
  | some data =>
    refine .inr ⟨data, rfl, ?_⟩
    dsimp only
    by_cases hobserved : computeContentHash data = staged.contentHash
    · rw [if_neg (not_not.mpr hobserved)]
      split
      · exact .inl ⟨_, rfl⟩
      · rw [hobserved]
        refine .inr ⟨_, rfl, ?_, Prod.ext rfl ?_⟩
        · rfl
        · dsimp only
          split <;> rfl
    · rw [if_pos hobserved]
      exact .inl ⟨_, rfl⟩

/-- A call leaves the store, stages an upload, drops uploads, or moves one. -/
theorem uploadStep_cases (s : FinalizingArtifactStore) (c : UploadCall) :
    step computeContentHash s c = s ∨ (∃ env content, c = .stage env content ∧
        step computeContentHash s c = { s with staging := s.staging.set (stagingPath s.baseDir (env []).uuid) content.data }) ∨
      ∃ staging, (∀ path data, staging.get? path = some data → s.staging.get? path = some data) ∧
        (step computeContentHash s c = { s with staging } ∨
          ∃ path data, s.staging.get? path = some data ∧ s.objects.get? (computeContentHash data) = none ∧
            step computeContentHash s c = { s with staging, objects := s.objects.set (computeContentHash data) data }) := by
  have herase (path path' : String) (data : Bytes) (h : (s.staging.erase path).get? path' = some data) :
      s.staging.get? path' = some data := by
    rw [get?_erase] at h
    split at h
    · cases h
    · exact h
  cases c with
  | stage env content => exact .inr (.inl ⟨env, content, rfl, rfl⟩)
  | gcOrphans => exact .inr (.inr ⟨.empty, fun path data h => (by cases h), .inl rfl⟩)
  | finalize env staged options crash =>
    have hresult : step computeContentHash s (.finalize env staged options crash) = s ∨
        step computeContentHash s (.finalize env staged options crash) = (s.finalize computeContentHash env staged options).2 := by
      cases crash with
      | none => exact .inr rfl
      | some moment =>
        cases moment with
        | before => exact .inl rfl
        | after => exact .inr rfl
    rcases hresult with hsame | hstep
    · exact .inl hsame
    rcases finalize_cases computeContentHash s env staged options with ⟨-, e, herror⟩ |
      ⟨data, hdata, ⟨e, herror⟩ | ⟨ref, hhash, -, hok⟩⟩
    · rw [herror] at hstep
      exact .inl hstep
    · rw [herror] at hstep
      exact .inr (.inr ⟨_, herase staged.stagingPath, .inl hstep⟩)
    · rw [hok] at hstep
      refine .inr (.inr ⟨_, herase staged.stagingPath, ?_⟩)
      cases hobject : s.objects.get? staged.contentHash with
      | some old =>
        rw [hobject, if_pos Option.isSome_some] at hstep
        exact .inl hstep
      | none =>
        rw [hobject, if_neg (by simp), ← hhash] at hstep
        exact .inr ⟨staged.stagingPath, data, hdata, by rw [hhash, hobject], hstep⟩

/-! ## Runs -/

/-- Uploads and objects are contents that were staged, and objects have their hashes. -/
structure Named (baseDir : String) (ops : List UploadCall) (s : FinalizingArtifactStore) : Prop where
  base : s.baseDir = baseDir
  staging : ∀ path data, s.staging.get? path = some data → StagedIn ops data
  objects : ∀ contentHash data, s.objects.get? contentHash = some data → computeContentHash data = contentHash ∧ StagedIn ops data

theorem StagedIn.mono {ops ops' : List UploadCall} {data : Bytes} (h : StagedIn ops data) (hsub : ops ⊆ ops') :
    StagedIn ops' data := by
  obtain ⟨env, content, hmem, hdata⟩ := h
  exact ⟨env, content, hsub hmem, hdata⟩

variable {s : FinalizingArtifactStore} {ops : List UploadCall}

theorem Named.step {baseDir : String} (h : Named computeContentHash baseDir ops s) (c : UploadCall) :
    Named computeContentHash baseDir (ops ++ [c]) (step computeContentHash s c) := by
  have hsub : ops ⊆ ops ++ [c] := List.subset_append_left _ _
  have hstaging (path : String) (data : Bytes) (hdata : s.staging.get? path = some data) : StagedIn (ops ++ [c]) data :=
    (h.staging path data hdata).mono hsub
  have hobjects (contentHash : String) (data : Bytes) (hdata : s.objects.get? contentHash = some data) :
      computeContentHash data = contentHash ∧ StagedIn (ops ++ [c]) data :=
    ⟨(h.objects contentHash data hdata).1, (h.objects contentHash data hdata).2.mono hsub⟩
  rcases uploadStep_cases computeContentHash s c with hsame | ⟨env, content, hc, hstep⟩ |
    ⟨staging, hless, hstep | ⟨path, data, hdata, -, hstep⟩⟩
  · rw [hsame]
    exact ⟨h.base, hstaging, hobjects⟩
  · rw [hstep]
    refine ⟨h.base, forall_set hstaging ?_, hobjects⟩
    exact ⟨env, content, List.mem_append_right _ (List.mem_singleton.mpr hc.symm), rfl⟩
  · rw [hstep]
    exact ⟨h.base, fun path data hdata => hstaging path data (hless path data hdata), hobjects⟩
  · rw [hstep]
    exact ⟨h.base, fun path data hdata => hstaging path data (hless path data hdata),
      forall_set hobjects ⟨rfl, hstaging path data hdata⟩⟩

theorem named_run (baseDir : String) (ops : List UploadCall) :
    Named computeContentHash baseDir ops (run (step computeContentHash) ⟨baseDir, .empty, .empty⟩ ops) := by
  induction ops using List.reverseRecOn with
  | nil => exact ⟨rfl, fun _ _ h => (by cases h), fun _ _ h => (by cases h)⟩
  | append_singleton ops c ih =>
    rw [run_append]
    exact ih.step computeContentHash c

theorem objects_kept {contentHash : String} {data : Bytes}
    (h : s.objects.get? contentHash = some data) (ops : List UploadCall) :
    (run (step computeContentHash) s ops).objects.get? contentHash = some data := by
  refine invariant_run (I := fun s : FinalizingArtifactStore => s.objects.get? contentHash = some data) (fun s c hs => ?_) h ops
  rcases uploadStep_cases computeContentHash s c with hsame | ⟨env, content, -, hstep⟩ |
    ⟨staging, -, hstep | ⟨path, data', -, hfree, hstep⟩⟩
  · rw [hsame]
    exact hs
  · rw [hstep]
    exact hs
  · rw [hstep]
    exact hs
  · rw [hstep]
    refine (get?_set_of_ne _ _ ?_).trans hs
    rintro rfl
    rw [hfree] at hs
    cases hs

/-- An upload that is gone stays away unless its id is staged again. -/
theorem upload_gone {baseDir id : String} (hbase : s.baseDir = baseDir)
    (h : s.staging.get? (stagingPath baseDir id) = none) (hids : ∀ c ∈ ops, c.stagingId ≠ some id) :
    (run (step computeContentHash) s ops).staging.get? (stagingPath baseDir id) = none := by
  induction ops generalizing s with
  | nil => exact h
  | cons c ops ih =>
    have hc : c.stagingId ≠ some id := hids c (List.mem_cons_self ..)
    have hrest : ∀ c ∈ ops, c.stagingId ≠ some id := fun c hmem => hids c (List.mem_cons_of_mem _ hmem)
    rcases uploadStep_cases computeContentHash s c with hsame | ⟨env, content, rfl, hstep⟩ | ⟨staging, hless, hresult⟩
    · exact ih (by rw [hsame]; exact hbase) (by rw [hsame]; exact h) hrest
    · refine ih (by rw [hstep]; exact hbase) ?_ hrest
      rw [hstep, hbase]
      refine (get?_set_of_ne _ _ fun he => hc ?_).trans h
      rw [stagingPath_inj he]
      rfl
    · have hgone : staging.get? (stagingPath baseDir id) = none := by
        refine Option.eq_none_iff_forall_not_mem.mpr fun data hdata => ?_
        rw [hless _ data hdata] at h
        cases h
      rcases hresult with hstep | ⟨path, data, -, -, hstep⟩
      · exact ih (by rw [hstep]; exact hbase) (by rw [hstep]; exact hgone) hrest
      · exact ih (by rw [hstep]; exact hbase) (by rw [hstep]; exact hgone) hrest

/-! ## What a finalization leaves -/

def TookEffect (s : FinalizingArtifactStore) (env : Supply) (staged : StagedUpload) (options : FinalizeOptions)
    (crash : Option MoveCrash) : Prop :=
  crash ≠ some .before ∧ ∃ ref, (s.finalize computeContentHash env staged options).1 = .ok ref

/-- A finalization of an upload that was moved returns a ref with its hash. -/
def RepeatsFinish (baseDir : String) (ops : List UploadCall) : Prop :=
  ∀ before env staged options crash between env' options' after,
    ops = before ++ .finalize env staged options crash :: between ++ .finalize env' staged options' none :: after →
    TookEffect computeContentHash (run (step computeContentHash) ⟨baseDir, .empty, .empty⟩ before) env staged options crash →
    ∃ ref, ((run (step computeContentHash) ⟨baseDir, .empty, .empty⟩
        (before ++ .finalize env staged options crash :: between)).finalize computeContentHash env' staged options').1 = .ok ref ∧
      ref.contentHash = staged.contentHash

/-- No upload that took effect is finalized again. -/
def NoneRepeated (baseDir : String) (ops : List UploadCall) : Prop :=
  ∀ before env staged options crash between env' options' after,
    ops = before ++ .finalize env staged options crash :: between ++ .finalize env' staged options' none :: after →
    ¬TookEffect computeContentHash (run (step computeContentHash) ⟨baseDir, .empty, .empty⟩ before) env staged options crash

variable {staged : StagedUpload} {options : FinalizeOptions}

/-- What was returned stays there, whoever owns it gets it, and is what was staged. -/
theorem retrieve_returned {baseDir : String} {before between : List UploadCall} {env : Supply} {ref : ArtifactRef} {env' : Supply} {content : ArtifactContent}
    (hstaged : staged = upload computeContentHash baseDir env' content) (hmem : .stage env' content ∈ before)
    (hcollision : NoCollision computeContentHash (before ++ .finalize env staged options none :: between))
    (hok : ((run (step computeContentHash) ⟨baseDir, .empty, .empty⟩ before).finalize computeContentHash env staged options).1 =
      .ok ref) :
    (run (step computeContentHash) ⟨baseDir, .empty, .empty⟩ (before ++ .finalize env staged options none :: between)).retrieve
      computeContentHash ref (some ref.ownerId) = .ok content.data := by
  have hbefore : before ⊆ before ++ .finalize env staged options none :: between := List.subset_append_left _ _
  have hnamed := named_run computeContentHash baseDir before
  rw [run_append]
  generalize run (step computeContentHash) ⟨baseDir, .empty, .empty⟩ before = s at *
  rcases finalize_cases computeContentHash s env staged options with ⟨-, e, herror⟩ |
    ⟨data, hdata, ⟨e, herror⟩ | ⟨ref', hhash, href, hmoved⟩⟩
  · rw [herror] at hok
    cases hok
  · rw [herror] at hok
    cases hok
  rw [hmoved] at hok
  cases hok
  have hcontent : staged.contentHash = computeContentHash content.data := by rw [hstaged]; rfl
  have hstored : StagedIn (before ++ .finalize env staged options none :: between) content.data := ⟨env', content, hbefore hmem, rfl⟩
  -- the object is the one just moved, or an equal one that was there
  have hobject : (step computeContentHash s (.finalize env staged options none)).objects.get? ref.contentHash =
      some content.data := by
    rw [show step computeContentHash s (.finalize env staged options none) = _ from congrArg Prod.snd hmoved, href]
    dsimp only
    cases hold : s.objects.get? staged.contentHash with
    | some old =>
      obtain ⟨holdHash, holdStaged⟩ := hnamed.objects _ old hold
      rw [if_pos Option.isSome_some, hold,
        hcollision old content.data (holdStaged.mono hbefore) hstored (holdHash.trans hcontent)]
    | none =>
      rw [if_neg (by simp), InsertionDict.get?_set_self,
        hcollision data content.data ((hnamed.staging _ data hdata).mono hbefore) hstored (hhash.trans hcontent)]
  have hlater := objects_kept computeContentHash hobject between
  rw [run_cons]
  unfold retrieve
  rw [if_neg (by simp), hlater]
  dsimp only
  rw [if_neg (by rw [href, hcontent]; exact not_not.mpr rfl)]

/-- The upload of a finalization that took effect is gone. -/
theorem tookEffect_gone {env : Supply}
    {crash : Option MoveCrash} (h : TookEffect computeContentHash s env staged options crash) :
    (step computeContentHash s (.finalize env staged options crash)).staging.get? staged.stagingPath = none := by
  obtain ⟨hcrash, ref, hok⟩ := h
  have hstep : step computeContentHash s (.finalize env staged options crash) =
      (s.finalize computeContentHash env staged options).2 := by
    cases crash with
    | none => rfl
    | some moment =>
      cases moment with
      | before => exact absurd rfl hcrash
      | after => rfl
  rw [hstep]
  rcases finalize_cases computeContentHash s env staged options with ⟨-, e, herror⟩ |
    ⟨data, -, ⟨e, herror⟩ | ⟨ref', -, -, hmoved⟩⟩
  · rw [herror] at hok
    cases hok
  · rw [herror] at hok
    cases hok
  · rw [hmoved]
    dsimp only
    rw [get?_erase, if_pos rfl]

theorem finalize_gone (h : s.staging.get? staged.stagingPath = none)
    (env : Supply) (options : FinalizeOptions) (ref : ArtifactRef) :
    (s.finalize computeContentHash env staged options).1 ≠ .ok ref := by
  unfold finalize
  rw [h]
  exact fun hok => by cases hok

/-- Objects always have their hashes and returned refs lead to what was staged; a repeated finalization returns
exactly if none is repeated after it took effect. -/
theorem finalize_faithful (baseDir : String) (ops : List UploadCall) (hids : DistinctIds ops)
    (hcollision : NoCollision computeContentHash ops) (hlegitimate : Legitimate computeContentHash baseDir ops) :
    (∀ before after, ops = before ++ after → ∀ contentHash data,
      (run (step computeContentHash) ⟨baseDir, .empty, .empty⟩ before).objects.get? contentHash = some data →
      computeContentHash data = contentHash) ∧
    (∀ before env content options between after env' ref,
      ops = before ++ .finalize env (upload computeContentHash baseDir env' content) options none :: between ++ after →
      .stage env' content ∈ before →
      ((run (step computeContentHash) ⟨baseDir, .empty, .empty⟩ before).finalize computeContentHash env
        (upload computeContentHash baseDir env' content) options).1 = .ok ref →
      (run (step computeContentHash) ⟨baseDir, .empty, .empty⟩
        (before ++ .finalize env (upload computeContentHash baseDir env' content) options none :: between)).retrieve
          computeContentHash ref (some ref.ownerId) = .ok content.data) ∧
    (RepeatsFinish computeContentHash baseDir ops ↔ NoneRepeated computeContentHash baseDir ops) := by
  refine ⟨fun before after _ contentHash data hdata => ((named_run computeContentHash baseDir before).objects _ data hdata).1,
    ?_, ?_, ?_⟩
  · intro before env content options between after env' ref hsplit hmem hok
    refine retrieve_returned computeContentHash rfl hmem ?_ hok
    intro data data' hdata hdata' hhash
    have hsub : before ++ .finalize env (upload computeContentHash baseDir env' content) options none :: between ⊆ ops := by
      rw [hsplit]
      exact List.subset_append_left _ _
    exact hcollision data data' (hdata.mono hsub) (hdata'.mono hsub) hhash
  · intro hfinish before env staged options crash between env' options' after hsplit heffect
    obtain ⟨ref, hok, -⟩ := hfinish before env staged options crash between env' options' after hsplit heffect
    obtain ⟨env₀, content, hmem, hstaged⟩ := hlegitimate before env staged options crash
      (between ++ .finalize env' staged options' none :: after) (by rw [hsplit, List.append_assoc, List.cons_append])
    have hgone := tookEffect_gone computeContentHash heffect
    have hpath : staged.stagingPath = stagingPath baseDir (env₀ []).uuid := by rw [hstaged]; rfl
    rw [hpath] at hgone
    have hbase := ((named_run computeContentHash baseDir before).step computeContentHash (.finalize env staged options crash)).base
    have hother : ∀ c ∈ between, c.stagingId ≠ some (env₀ []).uuid := by
      intro c hc
      rw [hsplit, List.append_assoc] at hids
      refine (List.pairwise_append.mp hids).2.2 _ hmem c ?_ _ rfl
      exact List.mem_append_left _ (List.mem_cons_of_mem _ hc)
    have hlater := upload_gone computeContentHash hbase hgone hother
    rw [← hpath, ← run_cons, ← run_append] at hlater
    exact finalize_gone computeContentHash hlater env' options' ref hok
  · intro hnone before env staged options crash between env' options' after hsplit heffect
    exact absurd heffect (hnone before env staged options crash between env' options' after hsplit)

def helloIds (uuid : String) : Supply := fun _ => ⟨0, uuid⟩

def helloUpload : StagedUpload := upload helloDigest "/data" (helloIds "1") (.text "hello")

/-- A text is staged and its finalization ends, or stops after the move. -/
def helloMoved (crash : Option MoveCrash) : List UploadCall :=
  [.stage (helloIds "1") (.text "hello"), .finalize (helloIds "2") helloUpload {} crash]

variable (crash : Option MoveCrash)

theorem helloMoved_effect (hcrash : crash ≠ some .before) :
    TookEffect helloDigest (run (step helloDigest) ⟨"/data", .empty, .empty⟩ [.stage (helloIds "1") (.text "hello")])
      (helloIds "2") helloUpload {} crash := by
  have hok : ((run (step helloDigest) ⟨"/data", .empty, .empty⟩ [.stage (helloIds "1") (.text "hello")]).finalize helloDigest
      (helloIds "2") helloUpload {}).1.toOption.isSome = true := by decide +kernel
  refine ⟨hcrash, ?_⟩
  generalize (FinalizingArtifactStore.finalize helloDigest _ _ _ _).1 = answer at hok ⊢
  cases answer with
  | ok ref => exact ⟨ref, rfl⟩
  | error e => cases hok

theorem legitimate_helloMoved : Legitimate helloDigest "/data" (helloMoved crash) := by
  intro before env staged options crash' after hsplit
  cases before with
  | nil => cases hsplit
  | cons c before =>
    cases before with
    | nil =>
      cases hsplit
      exact ⟨helloIds "1", .text "hello", List.mem_cons_self .., rfl⟩
    | cons c' before => simp [helloMoved] at hsplit

theorem finalize_faithful_hello : ∃ ref,
    (run (step helloDigest) ⟨"/data", .empty, .empty⟩ (helloMoved none)).retrieve helloDigest ref (some ref.ownerId) =
      .ok (ArtifactContent.text "hello").data := by
  have hcollision : NoCollision helloDigest (helloMoved none) := fun _ _ _ _ h => helloDigest_injective h
  have hids : DistinctIds (helloMoved none) := by
    refine List.pairwise_cons.mpr ⟨fun c hc id hid => ?_, List.pairwise_singleton _ _⟩
    rw [List.mem_singleton.mp hc]
    exact fun h => by cases h
  obtain ⟨-, ref, hok⟩ := helloMoved_effect none (by decide)
  exact ⟨ref, (finalize_faithful helloDigest "/data" (helloMoved none) hids hcollision (legitimate_helloMoved none)).2.1
    [.stage (helloIds "1") (.text "hello")] (helloIds "2") (.text "hello") {} [] [] (helloIds "1") ref rfl (List.mem_cons_self ..) hok⟩

/-- The caller that repeats a finalization whose process was lost after the move is told that the upload is missing. -/
theorem repeated_missing :
    ¬RepeatsFinish helloDigest "/data" (helloMoved (some .after) ++ [.finalize (helloIds "3") helloUpload {} none]) := by
  intro hfinish
  obtain ⟨ref, hok, -⟩ := hfinish [.stage (helloIds "1") (.text "hello")] (helloIds "2") helloUpload {} (some .after) []
    (helloIds "3") {} [] rfl (helloMoved_effect (some .after) (by decide))
  have hmissing : ((run (step helloDigest) ⟨"/data", .empty, .empty⟩ (helloMoved (some .after))).finalize helloDigest
      (helloIds "3") helloUpload {}).1.toOption.isSome = false := by decide +kernel
  have hanswer := congrArg (fun answer => answer.toOption.isSome) hok
  cases hmissing.symm.trans hanswer

end FinalizingArtifactStore

end AllTomorrow.ArtifactStores
