import AllTomorrow.PromotionLaws

/-!
# The stages of a change

The part of `execute_pending` between the start of a Run and its result: the project is
copied, a worker edits the copy, the edit is reviewed, the copy is tested and the changed
files are promoted. The worker, the reviewer and the tests are any code; the worker and the
tests may write into the candidate.
-/

namespace AllTomorrow.Overseer

open EStateM

structure Attempt where
  worker : Option String
  stage : String
  status : String
  deriving DecidableEq

structure Info where
  worker : Option String
  attempts : List Attempt
  changedFiles : List String

def Info.empty : Info := ⟨none, [], []⟩

inductive WorkerOutcome where
  | finished (info : Info)
  /-- `WorkerExecutionError` -/
  | exhausted (attempts : List Attempt)
  | raised (e : Exn)

/-- What `execute_pending` is called with, apart from the store. -/
structure Tools (τ : Type) where
  worker : τ → Folder → WorkerOutcome × Folder
  reviewer : τ → Folder → Folder → Except Exn Bool
  verifier : τ → Folder → Except Exn Bool × Folder
  /-- `json.loads(redact(json.dumps(info)))` -/
  redactInfo : Info → Except Exn Info
  protectedPaths : List String

structure Execution where
  files : ProjectFiles
  success : Bool
  question : Bool
  info : Info
  stage : String

abbrev ExecutionM := EStateM Exn Execution

def Execution.start (files : ProjectFiles) : Execution := ⟨files, false, false, .empty, "준비"⟩

def onFiles {α : Type} (x : FilesM α) : ExecutionM α := fun s =>
  match x s.files with
  | .ok a files => .ok a { s with files := files }
  | .error e files => .error e { s with files := files }

def setStage (stage : String) : ExecutionM Unit := modify fun s => { s with stage := stage }

/-- `info.setdefault("attempts", []).append(diagnostic(worker, stage, status=status))`. -/
def record (worker : Option String) (status : String) : ExecutionM Unit :=
  modify fun s => { s with info := { s.info with attempts := s.info.attempts ++ [⟨worker, s.stage, status⟩] } }

section Stages

variable {τ : Type} (c : ProjectChange) (tools : Tools τ) (task : τ)

def runWorker : ExecutionM Unit := do
  let (outcome, candidate) := tools.worker task (← get).files.candidate
  modify fun s => { s with files := { s.files with candidate := candidate } }
  match outcome with
  | .finished info => modify fun s => { s with info := info }
  | .exhausted attempts =>
    modify fun s => { s with info := { s.info with attempts := attempts } }
    throw (.foreign "WorkerExecutionError" "모든 작업자가 실패했습니다")
  | .raised e => throw e

/-- The change touches what it must not, or the reviewer does not find it ordinary. -/
def held : ExecutionM Bool := do
  if ← onFiles (c.frozenChanged tools.protectedPaths) then
    return true
  let s ← get
  return !(← MonadExcept.ofExcept (tools.reviewer task s.files.before s.files.candidate))

def runVerifier : ExecutionM Bool := do
  let (outcome, candidate) := tools.verifier task (← get).files.candidate
  modify fun s => { s with files := { s.files with candidate := candidate } }
  let passed ← MonadExcept.ofExcept outcome
  record (some "tests") (if passed then "SUCCESS" else "FAILED")
  return passed

def promoteChange : ExecutionM Unit := do
  let baseline ← onFiles (c.treeOf (← get).files.before)
  let candidate ← onFiles (c.treeOf (← get).files.candidate)
  let result ← onFiles (c.promote (digest c.hashes candidate) (digest c.hashes baseline) .ordinary
    (some ⟨1, ["byte_mismatch"], 0⟩))
  modify fun s => { s with success := result.promoted }
  record (← get).info.worker (if result.promoted then "SUCCESS" else "FAILED")
  if result.promoted then
    onFiles ProjectChange.finish

/-- The body of the `try`. -/
def stages : ExecutionM Unit := do
  onFiles c.prepare
  setStage "작업"
  runWorker tools task
  let info ← MonadExcept.ofExcept (tools.redactInfo (← get).info)
  modify fun s => { s with info := info }
  let changedFiles ← onFiles c.changed
  modify fun s => { s with info := { s.info with changedFiles := changedFiles } }
  setStage "심사"
  if ← held c tools task then
    modify fun s => { s with question := true }
    record (← get).info.worker "HELD"
  else
    setStage "시험"
    if ← runVerifier tools task then
      setStage "반영"
      promoteChange c

/-- `isinstance(error, WorkerExecutionError)`. -/
def isWorkerExecutionError : Exn → Bool
  | .foreign kind _ => kind = "WorkerExecutionError"
  | _ => false

def undoInterrupted : ExecutionM Unit := do
  match (← get).files.manifest with
  | none => return ()
  | some data =>
    if data.state = .applying then
      tryCatch (do let _ ← onFiles c.rollback) fun _ => modify fun s => { s with question := true }

/-- The two `except` clauses. -/
def handle : Exn → ExecutionM Unit
  | .permissionError _ => do
    modify fun s => { s with question := true }
    record (← get).info.worker "FAILED"
  | e => do
    if !isWorkerExecutionError e then
      record (← get).info.worker "FAILED"
    undoInterrupted c

def executeChange : ExecutionM Unit := tryCatch (stages c tools task) (handle c)

end Stages

/-! ## What the stages do -/

section Laws

variable {τ : Type} {c : ProjectChange} {tools : Tools τ} {task : τ} {s : Execution}

theorem ends_onFiles {α : Type} {x : FilesM α} {Q : α → ProjectFiles → Prop} {E : Exn → ProjectFiles → Prop}
    (h : Ends x s.files Q E) : Ends (onFiles x) s (fun a s' => ∃ files, s' = { s with files := files } ∧ Q a files)
      fun e s' => ∃ files, s' = { s with files := files } ∧ E e files := by
  unfold Ends at h ⊢
  unfold onFiles
  cases hx : x s.files with
  | ok a files =>
    rw [hx] at h
    exact ⟨files, rfl, h⟩
  | error e files =>
    rw [hx] at h
    exact ⟨files, rfl, h⟩

def reviewedCandidate (tools : Tools τ) (task : τ) (root : Folder) : Folder :=
  (tools.worker task (copyVisible root)).2

/-- The candidate that is promoted: what the tests made of the reviewed one. -/
def testedCandidate (tools : Tools τ) (task : τ) (root : Folder) : Folder :=
  (tools.verifier task (reviewedCandidate tools task root)).2

/-- The changed files of the tested candidate are in the project, and the reviewed one deleted nothing. -/
structure PromotedTested (c : ProjectChange) (tools : Tools τ) (task : τ) (root : Folder) (files : ProjectFiles) : Prop where
  reviewed : ∃ names, Changes c (copyVisible root) (reviewedCandidate tools task root) names
  tested : ∃ names data, names ≠ [] ∧ Changes c (copyVisible root) (testedCandidate tools task root) names ∧
    files.manifest = some data ∧ data.changed = names ∧
      ∀ p, content files.root p = if p ∈ names then content (testedCandidate tools task root) p else content root p

/-- Either the tested candidate is promoted or the project is as it was. -/
def Settled (c : ProjectChange) (tools : Tools τ) (task : τ) (root : Folder) (s : Execution) : Prop :=
  (s.success = true → PromotedTested c tools task root s.files) ∧ (s.success = false → Unpromoted c root s.files)

variable {root : Folder} {files : ProjectFiles}

theorem Prepared.withCandidate (h : Prepared c root files) (candidate : Folder) :
    Prepared c root { files with candidate := candidate } :=
  ⟨h.root_eq, h.before_eq, h.linkFree, h.manifest⟩

structure Working (c : ProjectChange) (root candidate : Folder) (s : Execution) : Prop where
  prepared : Prepared c root s.files
  candidate_eq : s.files.candidate = candidate
  success_eq : s.success = false

variable {candidate : Folder}

theorem Working.local {s' : Execution} (h : Working c root candidate s)
    (hfiles : s'.files = s.files) (hsuccess : s'.success = s.success) : Working c root candidate s' :=
  ⟨hfiles ▸ h.prepared, hfiles ▸ h.candidate_eq, hsuccess.trans h.success_eq⟩

theorem Working.unpromoted (h : Working c root candidate s) : s.success = false ∧ Unpromoted c root s.files :=
  ⟨h.success_eq, h.prepared.unpromoted⟩

theorem Working.settled (h : Working c root candidate s) : Settled c tools task root s :=
  ⟨fun hs => absurd (h.success_eq.symm.trans hs) (by simp), fun _ => h.prepared.unpromoted⟩

theorem ends_reading {α : Type} {x : FilesM α} {Q : α → Prop} (h : Working c root candidate s)
    (hx : Ends x s.files (fun a files => files = s.files ∧ Q a) fun _ files => files = s.files) :
    Ends (onFiles x) s (fun a s' => s' = s ∧ Q a) fun _ s' => s'.success = false ∧ Unpromoted c root s'.files := by
  refine (ends_onFiles hx).mono ?_ ?_
  · rintro a _ ⟨_, rfl, rfl, hQ⟩
    exact ⟨rfl, hQ⟩
  · rintro _ _ ⟨_, rfl, rfl⟩
    exact h.unpromoted

theorem ends_runWorker (h : Working c root (copyVisible root) s) :
    Ends (runWorker tools task) s (fun _ s' => Working c root (reviewedCandidate tools task root) s')
      fun _ s' => s'.success = false ∧ Unpromoted c root s'.files := by
  unfold runWorker
  refine ends_get_bind ?_
  rw [h.candidate_eq]
  have hwritten : Prepared c root { s.files with candidate := reviewedCandidate tools task root } :=
    h.prepared.withCandidate _
  refine ends_modify_bind ?_
  unfold reviewedCandidate at hwritten ⊢
  cases (tools.worker task (copyVisible root)).1 with
  | finished info => exact ends_modify ⟨hwritten, rfl, h.success_eq⟩
  | exhausted attempts => exact ends_modify_bind (ends_throw ⟨h.success_eq, hwritten.unpromoted⟩)
  | raised e => exact ends_throw ⟨h.success_eq, hwritten.unpromoted⟩

theorem ends_held (h : Working c root (reviewedCandidate tools task root) s) : Ends (held c tools task) s
      (fun _ s' => Working c root (reviewedCandidate tools task root) s' ∧
        ∃ names, Changes c (copyVisible root) (reviewedCandidate tools task root) names)
      fun _ s' => s'.success = false ∧ Unpromoted c root s'.files := by
  unfold held
  refine Ends.bind (ends_reading h (ends_frozenChanged tools.protectedPaths)) ?_
  rintro frozen s ⟨rfl, hnames⟩
  rw [h.prepared.before_eq, h.candidate_eq] at hnames
  refine ends_ite (fun _ => ends_pure ⟨h, hnames⟩) fun _ => ends_get_bind ?_
  refine Ends.bind (ends_ofExcept (Q := fun _ s' => s' = s) (fun _ _ => rfl) fun _ _ => h.unpromoted) ?_
  rintro _ _ rfl
  exact ends_pure ⟨h, hnames⟩

theorem ends_runVerifier (h : Working c root (reviewedCandidate tools task root) s) :
    Ends (runVerifier tools task) s (fun _ s' => Working c root (testedCandidate tools task root) s')
      fun _ s' => s'.success = false ∧ Unpromoted c root s'.files := by
  unfold runVerifier
  refine ends_get_bind ?_
  rw [h.candidate_eq]
  have hwritten : Prepared c root { s.files with candidate := testedCandidate tools task root } :=
    h.prepared.withCandidate _
  refine ends_modify_bind ?_
  refine Ends.bind (ends_ofExcept (Q := fun _ s' => Working c root (testedCandidate tools task root) s')
    (fun _ _ => ⟨hwritten, rfl, h.success_eq⟩) fun _ _ => ⟨h.success_eq, hwritten.unpromoted⟩) ?_
  intro passed s' hs'
  exact ends_modify_bind (ends_pure ⟨hs'.prepared, hs'.candidate_eq, hs'.success_eq⟩)

theorem ends_promoteChange (h : Working c root (testedCandidate tools task root) s)
    (hreviewed : ∃ names, Changes c (copyVisible root) (reviewedCandidate tools task root) names) :
    Ends (promoteChange c) s (fun _ s' => Settled c tools task root s')
      fun _ s' => s'.success = false ∧ Unpromoted c root s'.files := by
  unfold promoteChange
  refine ends_get_bind (Ends.bind (ends_reading h (Q := fun _ => True) ((ends_treeOf _).mono
    (fun _ _ hs => ⟨hs.1, trivial⟩) fun _ _ hs => hs)) ?_)
  rintro baseline s ⟨rfl, -⟩
  refine ends_get_bind (Ends.bind (ends_reading h (Q := fun _ => True) ((ends_treeOf _).mono
    (fun _ _ hs => ⟨hs.1, trivial⟩) fun _ _ hs => hs)) ?_)
  rintro candidate s ⟨rfl, -⟩
  refine Ends.bind ((ends_onFiles (ends_promote h.prepared _ _ _ _)).mono (fun _ _ hs => hs) ?_) ?_
  · rintro _ _ ⟨files, rfl, hfiles⟩
    exact ⟨h.success_eq, hfiles⟩
  rintro result _ ⟨files, rfl, hpromoted, hkept⟩
  refine ends_modify_bind (ends_get_bind (ends_modify_bind ?_))
  refine ends_ite (fun hyes => ?_) fun hno => ends_pure ⟨fun hs => absurd hs hno, fun _ => hkept (by simpa using hno)⟩
  obtain ⟨names, data, hne, hchanges, happlied, hall⟩ := hpromoted hyes
  rw [h.prepared.before_eq, h.candidate_eq] at hchanges
  refine (ends_onFiles (ends_finish happlied.manifest fun _ _ => False)).mono ?_ ?_
  · rintro _ _ ⟨_, rfl, rfl⟩
    refine ⟨fun _ => ⟨hreviewed, names, _, hne, hchanges, rfl, happlied.changed_eq, fun p => ?_⟩, ?_⟩
    · rw [happlied.files p, hall, h.candidate_eq, h.prepared.root_eq]
    · intro hs
      exact absurd (hs.symm.trans hyes) (by simp)
  · rintro _ _ ⟨_, _, hfalse⟩
    exact hfalse.elim

/-- No change is being applied. -/
def NotApplying (files : ProjectFiles) : Prop := ∀ data, files.manifest = some data → data.state ≠ .applying

theorem ends_stages : Ends (stages c tools task) (.start files) (fun _ s' => Settled c tools task files.root s')
      fun _ s' => s'.success = false ∧ (NotApplying files → Unpromoted c files.root s'.files) := by
  have hweaken : ∀ (_ : Exn) (s' : Execution), s'.success = false ∧ Unpromoted c files.root s'.files →
      s'.success = false ∧ (NotApplying files → Unpromoted c files.root s'.files) :=
    fun _ _ h => ⟨h.1, fun _ => h.2⟩
  unfold stages
  refine Ends.bind (Q := fun _ s' => Working c files.root (copyVisible files.root) s')
    ((ends_onFiles ends_prepare).mono ?_ ?_) ?_
  · rintro _ _ ⟨files', rfl, hprepared, hcandidate⟩
    exact ⟨hprepared, hcandidate, rfl⟩
  · rintro _ _ ⟨files', rfl, hroot, hmanifest⟩
    refine ⟨rfl, fun hstate => ⟨fun p => by rw [hroot]; rfl, fun data hdata => ?_⟩⟩
    exact hstate data (hmanifest ▸ hdata)
  intro _ s hs
  have hworking : Working c files.root (copyVisible files.root) { s with stage := "작업" } := hs.local rfl rfl
  refine ends_modify_bind (Ends.bind ((ends_runWorker hworking).mono (fun _ _ h => h) hweaken) ?_)
  intro _ s hs
  refine ends_get_bind (Ends.bind (ends_ofExcept (Q := fun _ s' => s' = s) (fun _ _ => rfl)
    fun e _ => hweaken e s hs.unpromoted) ?_)
  rintro info s rfl
  refine ends_modify_bind ?_
  have hinfo : Working c files.root (reviewedCandidate tools task files.root) { s with info := info } :=
    hs.local rfl rfl
  refine Ends.bind ((ends_reading hinfo (Q := fun _ => True) (ends_changed.mono
    (fun _ _ h => ⟨h.1, trivial⟩) fun _ _ h => h)).mono (fun _ _ h => h) hweaken) ?_
  rintro changedFiles _ ⟨rfl, -⟩
  refine ends_modify_bind (ends_modify_bind ?_)
  have hreview : Working c files.root (reviewedCandidate tools task files.root)
      { s with info := { info with changedFiles := changedFiles }, stage := "심사" } := hs.local rfl rfl
  refine Ends.bind ((ends_held hreview).mono (fun _ _ h => h) hweaken) ?_
  rintro refused s ⟨hs, hreviewed⟩
  refine ends_ite (fun _ => ?_) fun _ => ?_
  · refine ends_modify_bind (ends_get_bind (ends_modify ?_))
    exact (hs.local rfl rfl : Working c files.root (reviewedCandidate tools task files.root) _).settled
  · have htest : Working c files.root (reviewedCandidate tools task files.root) { s with stage := "시험" } :=
      hs.local rfl rfl
    refine ends_modify_bind (Ends.bind ((ends_runVerifier htest).mono (fun _ _ h => h) hweaken) ?_)
    intro passed s hs
    refine ends_ite (fun _ => ends_modify_bind ?_) fun _ => ends_pure hs.settled
    have hpromote : Working c files.root (testedCandidate tools task files.root) { s with stage := "반영" } :=
      hs.local rfl rfl
    exact (ends_promoteChange hpromote hreviewed).mono (fun _ _ h => h) hweaken

/-- The handlers keep the result and, without a promotion under way, the files. -/
theorem ends_handle (e : Exn) : Ends (handle c e) s
      (fun _ s' => s'.success = s.success ∧ (NotApplying s.files → s'.files = s.files)) fun _ _ => False := by
  have hundo : ∀ s₁ : Execution, s₁.files = s.files → s₁.success = s.success → Ends (undoInterrupted c) s₁
      (fun _ s' => s'.success = s.success ∧ (NotApplying s.files → s'.files = s.files)) fun _ _ => False := by
    intro s₁ hfiles hsuccess
    unfold undoInterrupted
    refine ends_get_bind ?_
    cases hmanifest : s₁.files.manifest with
    | none => exact ends_pure ⟨hsuccess, fun _ => hfiles⟩
    | some data =>
      refine ends_ite (fun happlying => ?_) fun _ => ends_pure ⟨hsuccess, fun _ => hfiles⟩
      have hfalse : ¬NotApplying s.files := fun h => h data (hfiles ▸ hmanifest) happlying
      refine ends_tryCatch (F := fun _ s' => s'.success = s.success) ?_ fun e s' hs' => ends_modify ⟨hs', ?_⟩
      · refine Ends.bind (Q := fun _ s' => s'.success = s.success)
          ((ends_onFiles (Q := fun _ _ => True) (E := fun _ _ => True) ?_).mono ?_ ?_) fun _ s' hs' => ends_pure ⟨hs', fun h => absurd h hfalse⟩
        · unfold Ends
          cases c.rollback s₁.files <;> trivial
        · rintro _ _ ⟨_, rfl, _⟩
          exact hsuccess
        · rintro _ _ ⟨_, rfl, _⟩
          exact hsuccess
      · exact fun h => absurd h hfalse
  unfold handle
  split
  · exact ends_modify_bind (ends_get_bind (ends_modify ⟨rfl, fun _ => rfl⟩))
  · refine ends_ite (fun _ => ?_) fun _ => hundo s rfl rfl
    exact ends_get_bind (ends_modify_bind (hundo _ rfl rfl))

theorem ends_executeChange (files : ProjectFiles) : Ends (executeChange c tools task) (.start files)
      (fun _ s' => (s'.success = true → PromotedTested c tools task files.root s'.files) ∧
        (s'.success = false → NotApplying files → Unpromoted c files.root s'.files)) fun _ _ => False := by
  refine ends_tryCatch (ends_stages.mono (fun _ _ h => ⟨h.1, fun hs _ => h.2 hs⟩) fun _ _ h => h) ?_
  rintro e s ⟨hsuccess, hkept⟩
  refine (ends_handle e).mono ?_ fun _ _ h => h
  rintro _ s' ⟨hsame, hfiles⟩
  refine ⟨fun hs => absurd (hsame.trans hsuccess ▸ hs) (by simp), fun _ hstate => ?_⟩
  have hunpromoted := hkept hstate
  rw [hfiles hunpromoted.state]
  exact hunpromoted

end Laws

end AllTomorrow.Overseer
