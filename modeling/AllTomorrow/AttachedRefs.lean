import AllTomorrow.SkeletonTogether
import AllTomorrow.PostgresTables
import AllTomorrow.SemanticStoreChanges

/-!
# Attaching an execution in memory and in the table

`cas_attach_execution_ref` has one branch for each place of the Runs. Its contract is stated for both
of them at once, together with the states of a Run in which they meet it.
-/

namespace AllTomorrow.Skeleton

open EStateM
open PyText (Printable)

/-- A row of `at_runs`. -/
structure AtRun where
  runId : RunId
  workId : WorkId
  status : RunStatus
  executionRef : Option ExecutionRef
  attemptNumber : ℤ
  createdAt : Datetime
  updatedAt : Datetime

/-- The row that `_persist_run` writes for a new Run. -/
def AtRun.ofRun (run : RunRecord) : AtRun :=
  ⟨run.runId, run.workId, run.status, run.executionRef, run.attemptNumber, run.createdAt, run.updatedAt⟩

structure SqlState where
  atRuns : InsertionDict RunId AtRun
  runs : InsertionDict RunId RunRecord

abbrev SqlM := EStateM Exn SqlState

/-- The `WHERE` clause besides the key. -/
def AtRun.Attachable (row : AtRun) (execRef : ExecutionRef) : Prop :=
  row.executionRef = none ∨ row.executionRef.map (·.executionId) = some execRef.executionId

instance (row : AtRun) (execRef : ExecutionRef) : Decidable (row.Attachable execRef) :=
  inferInstanceAs (Decidable (_ ∨ _))

/-- The row after the `UPDATE`. -/
def AtRun.running (row : AtRun) (env : Supply) (execRef : ExecutionRef) : AtRun :=
  { row with status := .running, executionRef := some execRef, updatedAt := env.utcNow }

def sqlConflict (runId : RunId) (existing : Option String) (execRef : ExecutionRef) : Exn :=
  runConflictError ("CAS conflict on run " ++ runId.val ++ ": existing execution_id '" ++ existing.getD "None" ++
    "' conflicts with divergent '" ++ execRef.executionId ++ "'")

/-- `json.dumps` on an integer. -/
def dumpsInt (n : ℤ) : Except Exn Unit :=
  if Printable n then .ok () else .error (.valueError "Exceeds the limit (4300 digits) for integer string conversion")

/-- `json.dumps` on a value. -/
def dumpsValue : MetadataValue → Except Exn Unit
  | .unencodable typeName => .error (.foreign "TypeError" ("Object of type " ++ typeName ++ " is not JSON serializable"))
  | .unprintable => .error (.valueError "Exceeds the limit (4300 digits) for integer string conversion")
  | .stored _ | .nulText | .notNumber => .ok ()

/-- What the server makes of its text. -/
def parseValue : MetadataValue → Except Exn Unit
  | .nulText => storeJson false
  | .notNumber => .error (dbError "InvalidTextRepresentation" "invalid input syntax for type json")
  | .stored _ | .unencodable _ | .unprintable => .ok ()

/-- The parameters of the `UPDATE`. The driver writes all of them before the server reads the `jsonb`. -/
def sendRef (runId : RunId) (execRef : ExecutionRef) : Except Exn Unit := do
  dumpsInt execRef.executionVersion
  execRef.metadata.forM fun entry => dumpsValue entry.2
  sendTexts [runId.val, execRef.executionId]
  storeJson (Column.text execRef.backend)
  execRef.metadata.forM fun entry => do
    storeJson (Column.text entry.1)
    parseValue entry.2

/-- The `UPDATE` is committed before the mirror follows. -/
def updateRef (env : Supply) (runId : RunId) (execRef : ExecutionRef) : SqlM Bool := do
  match (← get).atRuns.get? runId with
  | none => throw (sqlConflict runId none execRef)
  | some row =>
    if row.Attachable execRef then
      modify fun t => { t with atRuns := t.atRuns.set runId (row.running env execRef) }
      match (← get).runs.get? runId with
      | none => pure ()
      | some run =>
        let run ← MonadExcept.ofExcept (transitionRun (env.sub 0) run .running (some execRef))
        modify fun t => { t with runs := t.runs.set runId run }
      return true
    else
      throw (sqlConflict runId (row.executionRef.map (·.executionId)) execRef)

/-- `cas_attach_execution_ref` with a database. -/
def casAttachExecutionRefSql (env : Supply) (runId : RunId) (execRef : ExecutionRef) : SqlM Bool := do
  MonadExcept.ofExcept (sendRef runId execRef)
  updateRef env runId execRef

/-! ## The contract -/

structure SameRun (row : AtRun) (run : RunRecord) : Prop where
  workId : row.workId = run.workId
  status : row.status = run.status
  executionRef : row.executionRef = run.executionRef
  attemptNumber : row.attemptNumber = run.attemptNumber

/-- Both return the same, or both raise the same exception or a RunConflictError. -/
def SameOutcome (x y : Except Exn Bool) : Prop :=
  x = y ∨ ∃ m m', x = .error (runConflictError m) ∧ y = .error (runConflictError m')

variable (env : Supply) (runId : RunId) (execRef : ExecutionRef) (s : SkeletonState) (t : SqlState) (run : RunRecord)

/-- What both branches promise for a Run that is in `s` and whose row is in `t`. -/
structure AttachContract : Prop where
  attaches : run.executionRef = none → run.status = .starting → casAttachExecutionRef env runId execRef s =
      .ok true { s with runs := s.runs.set runId (run.moved env .running (some execRef)) } ∧
    ∃ t', casAttachExecutionRefSql env runId execRef t = .ok true t' ∧
      t'.atRuns = t.atRuns.set runId ((AtRun.ofRun run).running env execRef)
  converges : ∀ attached, run.executionRef = some attached → attached.executionId = execRef.executionId →
    casAttachExecutionRef env runId execRef s = .ok true s ∧ casAttachExecutionRefSql env runId execRef t = .ok true t
  conflicts : ∀ attached, run.executionRef = some attached → attached.executionId ≠ execRef.executionId →
    (∃ m, casAttachExecutionRef env runId execRef s = .error (runConflictError m) s) ∧
      ∃ m, casAttachExecutionRefSql env runId execRef t = .error (runConflictError m) t
  terminal : run.isTerminal = true →
    (∀ run', (casAttachExecutionRef env runId execRef s).state.runs.get? runId = some run' → run'.status ≠ .running) ∧
      ∀ row, (casAttachExecutionRefSql env runId execRef t).state.atRuns.get? runId = some row → row.status ≠ .running
  agree : SameOutcome (casAttachExecutionRef env runId execRef s).outcome (casAttachExecutionRefSql env runId execRef t).outcome ∧
    ∃ run' row, (casAttachExecutionRef env runId execRef s).state.runs.get? runId = some run' ∧
      (casAttachExecutionRefSql env runId execRef t).state.atRuns.get? runId = some row ∧ SameRun row run'

/-- `json` and PostgreSQL take the reference. -/
structure Sendable : Prop where
  version : Printable execRef.executionVersion
  texts : Column.text runId.val = true ∧ Column.text execRef.executionId = true ∧ Column.text execRef.backend = true
  metadata : ∀ entry ∈ execRef.metadata, Column.text entry.1 = true ∧ ∃ json, entry.2 = .stored json

/-- Both branches attach the reference, or both refuse it because of another one. -/
def Attaches : Prop :=
  Sendable runId execRef ∧
    (run.executionRef = none ∧ (run.status = .starting ∨ run.status = .waiting) ∧
        (∀ mirrored, t.runs.get? runId = some mirrored → RunStatus.running ∈ runTransitions mirrored.status) ∨
      ∃ attached, run.executionRef = some attached ∧ attached.executionId ≠ execRef.executionId)

/-! ## The parameters of the update -/

section Parameters

variable {runId execRef}

theorem forM_ok_iff {ε α : Type} {f : α → Except ε Unit} {l : List α} : l.forM f = .ok () ↔ ∀ x ∈ l, f x = .ok () := by
  induction l with
  | nil => simp [pure, Except.pure]
  | cons x l ih =>
    rw [List.forall_mem_cons]
    change (f x >>= fun _ => l.forM f) = .ok () ↔ _
    cases hx : f x with
    | error e => exact iff_of_false (by nofun) fun h => by cases h.1
    | ok u => exact ih.trans ⟨fun h => ⟨rfl, h⟩, fun h => h.2⟩

theorem forM_error {ε α : Type} {f : α → Except ε Unit} {l : List α} {e : ε} (h : l.forM f = .error e) :
    ∃ x ∈ l, f x = .error e := by
  induction l with
  | nil => cases h
  | cons x l ih =>
    change (f x >>= fun _ => l.forM f) = .error e at h
    cases hx : f x with
    | error e' =>
      rw [hx] at h
      cases h
      exact ⟨x, List.mem_cons_self, hx⟩
    | ok u =>
      rw [hx] at h
      obtain ⟨y, hy, herror⟩ := ih h
      exact ⟨y, List.mem_cons_of_mem x hy, herror⟩

/-- It raises nothing that `cas_attach_execution_ref` raises in memory. -/
def OnlyForeign {α : Type} (x : Except Exn α) : Prop :=
  ∀ e, x = .error e → e.isDomainError = false ∧ ∀ m, e ≠ runConflictError m

theorem OnlyForeign.bind {α β : Type} {x : Except Exn α} {f : α → Except Exn β} (hx : OnlyForeign x)
    (hf : ∀ v, OnlyForeign (f v)) : OnlyForeign (x >>= f) := by
  intro e h
  cases x with
  | error e' =>
    cases h
    exact hx e rfl
  | ok v => exact hf v e h

theorem OnlyForeign.forM {α : Type} {f : α → Except Exn Unit} (h : ∀ x, OnlyForeign (f x)) (l : List α) :
    OnlyForeign (l.forM f) := by
  intro e herror
  obtain ⟨x, -, hx⟩ := forM_error herror
  exact h x e hx

theorem onlyForeign_ok {α : Type} (v : α) : OnlyForeign (.ok v) := by
  intro e h
  cases h

theorem onlyForeign_error {kind message : String} (h : kind ≠ "RunConflictError") :
    OnlyForeign (.error (.foreign kind message) : Except Exn Unit) := by
  intro e he
  cases he
  exact ⟨rfl, fun _ heq => h (Exn.foreign.inj heq).1⟩

theorem onlyForeign_valueError (message : String) : OnlyForeign (.error (.valueError message) : Except Exn Unit) := by
  intro e he
  cases he
  exact ⟨rfl, fun _ heq => by cases heq⟩

theorem onlyForeign_storeJson (fits : Bool) : OnlyForeign (storeJson fits) := by
  cases fits
  · exact onlyForeign_error (by decide)
  · exact onlyForeign_ok ()

theorem onlyForeign_sendTexts (texts : List String) : OnlyForeign (sendTexts texts) := by
  unfold sendTexts
  split_ifs
  · exact onlyForeign_ok ()
  · exact onlyForeign_error (by decide)

theorem onlyForeign_dumpsValue (value : MetadataValue) : OnlyForeign (dumpsValue value) := by
  cases value with
  | unencodable typeName => exact onlyForeign_error (by decide)
  | unprintable => exact onlyForeign_valueError _
  | stored json => exact onlyForeign_ok ()
  | nulText => exact onlyForeign_ok ()
  | notNumber => exact onlyForeign_ok ()

theorem onlyForeign_parseValue (value : MetadataValue) : OnlyForeign (parseValue value) := by
  cases value with
  | nulText => exact onlyForeign_storeJson false
  | notNumber => exact onlyForeign_error (by decide)
  | stored json => exact onlyForeign_ok ()
  | unencodable typeName => exact onlyForeign_ok ()
  | unprintable => exact onlyForeign_ok ()

theorem onlyForeign_dumpsInt (n : ℤ) : OnlyForeign (dumpsInt n) := by
  unfold dumpsInt
  split_ifs
  · exact onlyForeign_ok ()
  · exact onlyForeign_valueError _

variable (runId execRef) in
theorem onlyForeign_sendRef : OnlyForeign (sendRef runId execRef) := by
  unfold sendRef
  refine (onlyForeign_dumpsInt _).bind fun _ => ?_
  refine (OnlyForeign.forM (fun entry : String × MetadataValue => onlyForeign_dumpsValue entry.2) _).bind fun _ => ?_
  refine (onlyForeign_sendTexts _).bind fun _ => (onlyForeign_storeJson _).bind fun _ => ?_
  refine OnlyForeign.forM (fun entry : String × MetadataValue => ?_) _
  exact (onlyForeign_storeJson _).bind fun _ => onlyForeign_parseValue entry.2

theorem dumpsInt_ok_iff {n : ℤ} : dumpsInt n = .ok () ↔ Printable n := by
  unfold dumpsInt
  split_ifs with h
  · exact iff_of_true rfl h
  · exact iff_of_false (fun herror => by cases herror) h

theorem checked_bind_ok {α : Type} {x : Except Exn Unit} {f : Unit → Except Exn α} {v : α} :
    (x >>= f) = .ok v ↔ x = .ok () ∧ f () = .ok v := by
  rw [except_bind_ok]
  exact ⟨fun ⟨_, hx, hf⟩ => ⟨hx, hf⟩, fun ⟨hx, hf⟩ => ⟨(), hx, hf⟩⟩

theorem storeJson_ok_iff {fits : Bool} : storeJson fits = .ok () ↔ fits = true := by
  cases fits <;> simp [storeJson]

theorem sendTexts_ok_iff {texts : List String} : sendTexts texts = .ok () ↔ ∀ text ∈ texts, Column.text text = true := by
  unfold sendTexts
  simp

theorem stored_iff {value : MetadataValue} :
    dumpsValue value = .ok () ∧ parseValue value = .ok () ↔ ∃ json, value = .stored json := by
  cases value <;> simp [dumpsValue, parseValue, storeJson]

theorem sendRef_ok_iff : sendRef runId execRef = .ok () ↔ Sendable runId execRef := by
  unfold sendRef
  simp only [checked_bind_ok, dumpsInt_ok_iff, forM_ok_iff, sendTexts_ok_iff, storeJson_ok_iff, List.forall_mem_cons, List.not_mem_nil, false_imp_iff, implies_true, and_true]
  constructor
  · rintro ⟨hversion, hdumps, ⟨hrunId, hexecutionId⟩, hbackend, hparsed⟩
    exact ⟨hversion, ⟨hrunId, hexecutionId, hbackend⟩, fun entry hentry =>
      ⟨(hparsed entry hentry).1, stored_iff.mp ⟨hdumps entry hentry, (hparsed entry hentry).2⟩⟩⟩
  · rintro ⟨hversion, ⟨hrunId, hexecutionId, hbackend⟩, hmetadata⟩
    exact ⟨hversion, fun entry hentry => (stored_iff.mpr (hmetadata entry hentry).2).1, ⟨hrunId, hexecutionId⟩, hbackend,
      fun entry hentry => ⟨(hmetadata entry hentry).1, (stored_iff.mpr (hmetadata entry hentry).2).2⟩⟩

end Parameters

section Branches

variable {env runId execRef s t run}

theorem casAttachExecutionRef_of_attachable (hrun : s.runs.get? runId = some run)
    (hsame : ∀ attached, run.executionRef = some attached → attached.executionId = execRef.executionId) :
    casAttachExecutionRef env runId execRef s = match transitionRun env run .running (some execRef) with
      | .ok run' => .ok true { s with runs := s.runs.set runId run' }
      | .error e => .error e s := by
  change ((match s.runs.get? runId with | none => _ | some run => _ : SkeletonM Bool)) s = _
  rw [hrun]
  dsimp only
  cases href : run.executionRef with
  | none => cases transitionRun env run .running (some execRef) <;> rfl
  | some attached =>
    dsimp only
    rw [if_neg (not_not.mpr (hsame attached href))]
    cases transitionRun env run .running (some execRef) <;> rfl

theorem casAttachExecutionRef_of_other {attached : ExecutionRef} (hrun : s.runs.get? runId = some run)
    (href : run.executionRef = some attached) (hne : attached.executionId ≠ execRef.executionId) :
    ∃ m, casAttachExecutionRef env runId execRef s = .error (runConflictError m) s := by
  change ∃ m, ((match s.runs.get? runId with | none => _ | some run => _ : SkeletonM Bool)) s = _
  rw [hrun]
  dsimp only
  rw [href]
  dsimp only
  rw [if_pos hne]
  exact ⟨_, rfl⟩

variable {row : AtRun}

theorem updateRef_of_other (hrow : t.atRuns.get? runId = some row) (hnot : ¬row.Attachable execRef) :
    updateRef env runId execRef t = .error (sqlConflict runId (row.executionRef.map (·.executionId)) execRef) t := by
  change ((match t.atRuns.get? runId with | none => _ | some row => _ : SqlM Bool)) t = _
  rw [hrow]
  dsimp only
  rw [if_neg hnot]
  rfl

/-- In the table the row is set RUNNING whatever its status is; the mirror follows or refuses. -/
theorem updateRef_of_attachable (hrow : t.atRuns.get? runId = some row) (hyes : row.Attachable execRef) :
    (updateRef env runId execRef t).state.atRuns = t.atRuns.set runId (row.running env execRef) ∧
      ((updateRef env runId execRef t).outcome = .ok true ↔
        ∀ mirrored, t.runs.get? runId = some mirrored → RunStatus.running ∈ runTransitions mirrored.status) := by
  change (((match t.atRuns.get? runId with | none => _ | some row => _ : SqlM Bool)) t).state.atRuns = _ ∧
    ((((match t.atRuns.get? runId with | none => _ | some row => _ : SqlM Bool)) t).outcome = _ ↔ _)
  rw [hrow]
  dsimp only
  rw [if_pos hyes]
  change (((match t.runs.get? runId with | none => _ | some run => _ : SqlM Bool)) _).state.atRuns = _ ∧
    ((((match t.runs.get? runId with | none => _ | some run => _ : SqlM Bool)) _).outcome = _ ↔ _)
  cases hmirror : t.runs.get? runId with
  | none => exact ⟨rfl, iff_of_true rfl fun _ hnone => nomatch hnone⟩
  | some mirrored =>
    dsimp only
    cases hmove : transitionRun (env.sub 0) mirrored .running (some execRef) with
    | error e =>
      refine ⟨rfl, iff_of_false (by nofun) fun hcan => ?_⟩
      have hmem := hcan mirrored rfl
      have hterminal : mirrored.status ∉ terminalRunStatuses := by
        intro hterminal
        rw [runTransitions_terminal hterminal] at hmem
        cases hmem
      have hok : transitionRun (env.sub 0) mirrored .running (some execRef) = .ok _ :=
        transitionRun_ok_iff.mpr ⟨hterminal, hmem, rfl⟩
      exact absurd (hmove.symm.trans hok) (by nofun)
    | ok moved =>
      refine ⟨rfl, iff_of_true rfl ?_⟩
      intro other hother
      cases hother
      exact (transitionRun_ok_iff.mp hmove).2.1

theorem casAttachExecutionRefSql_of_sendable (h : Sendable runId execRef) :
    casAttachExecutionRefSql env runId execRef t = updateRef env runId execRef t := by
  unfold casAttachExecutionRefSql
  rw [sendRef_ok_iff.mpr h]
  rfl

theorem casAttachExecutionRefSql_of_not_sendable (h : ¬Sendable runId execRef) :
    ∃ e, casAttachExecutionRefSql env runId execRef t = .error e t ∧ e.isDomainError = false ∧ ∀ m, e ≠ runConflictError m := by
  unfold casAttachExecutionRefSql
  cases hsend : sendRef runId execRef with
  | ok _ => exact absurd (sendRef_ok_iff.mp hsend) h
  | error e => exact ⟨e, rfl, onlyForeign_sendRef runId execRef e hsend⟩

end Branches

/-! ## Where the contract holds -/

section Contract

variable {env runId execRef s t run} {attached : ExecutionRef}

/-- A Run with another reference meets the contract. -/
theorem attachContract_of_other (hsend : Sendable runId execRef) (hrun : s.runs.get? runId = some run)
    (hrow : t.atRuns.get? runId = some (AtRun.ofRun run)) (href : run.executionRef = some attached)
    (hne : attached.executionId ≠ execRef.executionId) : AttachContract env runId execRef s t run := by
  obtain ⟨m, hmemory⟩ : ∃ m, casAttachExecutionRef env runId execRef s = .error (runConflictError m) s :=
    casAttachExecutionRef_of_other hrun href hne
  have hnot : ¬(AtRun.ofRun run).Attachable execRef := by
    unfold AtRun.Attachable AtRun.ofRun
    rw [href]
    simpa using hne
  have hsql : casAttachExecutionRefSql env runId execRef t = .error _ t :=
    (casAttachExecutionRefSql_of_sendable hsend).trans (updateRef_of_other hrow hnot)
  refine ⟨?_, ?_, ?_, ?_, ?_⟩
  · intro hnone
    exact absurd (href.symm.trans hnone) (by nofun)
  · intro attached' href' hsame
    cases href.symm.trans href'
    exact absurd hsame hne
  · intro _ _ _
    exact ⟨⟨m, hmemory⟩, _, hsql⟩
  · intro hterminal
    have hstatus : run.status ≠ .running := by
      intro hrunning
      unfold RunRecord.isTerminal at hterminal
      rw [hrunning] at hterminal
      cases hterminal
    rw [hmemory, hsql]
    refine ⟨fun run' hget => ?_, fun row hget => ?_⟩
    · cases hrun.symm.trans hget
      exact hstatus
    · cases hrow.symm.trans hget
      exact hstatus
  · rw [hmemory, hsql]
    exact ⟨.inr ⟨_, _, rfl, rfl⟩, run, _, hrun, hrow, rfl, rfl, rfl, rfl⟩

theorem not_attachContract_of_same (hrun : s.runs.get? runId = some run)
    (href : run.executionRef = some attached) (hsame : attached.executionId = execRef.executionId) :
    ¬AttachContract env runId execRef s t run := by
  intro h
  have hmemory := (h.converges attached href hsame).1
  rw [casAttachExecutionRef_of_attachable hrun (fun _ h => by cases href.symm.trans h; exact hsame)] at hmemory
  cases hmove : transitionRun env run .running (some execRef) with
  | error e =>
    rw [hmove] at hmemory
    cases hmemory
  | ok run' =>
    rw [hmove] at hmemory
    obtain ⟨-, hmem, rfl⟩ := transitionRun_ok_iff.mp hmove
    have hstate : { s with runs := s.runs.set runId (run.moved env .running (some execRef)) } = s := by
      injection hmemory
    exact set_moved_ne (r := s.records) hrun hmem (congrArg SkeletonState.runs hstate)

theorem running_mem_iff {status : RunStatus} :
    RunStatus.running ∈ runTransitions status ↔ status = .starting ∨ status = .waiting := by
  cases status <;> decide

/-- A Run without a reference meets it where the table and the mirror let it run. -/
theorem attachContract_of_none (hsend : Sendable runId execRef) (hrun : s.runs.get? runId = some run)
    (hrow : t.atRuns.get? runId = some (AtRun.ofRun run)) (href : run.executionRef = none) :
    AttachContract env runId execRef s t run ↔ RunStatus.running ∈ runTransitions run.status ∧
        ∀ mirrored, t.runs.get? runId = some mirrored → RunStatus.running ∈ runTransitions mirrored.status := by
  have hmemory := @casAttachExecutionRef_of_attachable env runId execRef s run hrun
    (fun _ h => absurd (href.symm.trans h) (by nofun))
  obtain ⟨hrows, houtcome⟩ := @updateRef_of_attachable env runId execRef t _ hrow (.inl href)
  rw [← casAttachExecutionRefSql_of_sendable hsend] at hrows houtcome
  constructor
  · intro h
    obtain ⟨hsame, run', row, hrun', hrow', hsameRun⟩ := h.agree
    rw [hrows, InsertionDict.get?_set_self] at hrow'
    cases hrow'
    rw [hmemory] at hrun' hsame
    cases hmove : transitionRun env run .running (some execRef) with
    | error e =>
      rw [hmove] at hrun'
      cases hrun.symm.trans hrun'
      exact absurd (hsameRun.executionRef.trans href) (by nofun)
    | ok moved =>
      rw [hmove] at hsame
      refine ⟨(transitionRun_ok_iff.mp hmove).2.1, houtcome.mp ?_⟩
      rcases hsame with heq | ⟨m, m', herror, -⟩
      · exact heq.symm
      · cases herror
  · rintro ⟨hmem, hmirror⟩
    have hterminal : run.status ∉ terminalRunStatuses := by
      intro hterminal
      rw [runTransitions_terminal hterminal] at hmem
      cases hmem
    have hmove : transitionRun env run .running (some execRef) = .ok (run.moved env .running (some execRef)) :=
      transitionRun_ok_iff.mpr ⟨hterminal, hmem, rfl⟩
    rw [hmove] at hmemory
    have hok := houtcome.mpr hmirror
    refine ⟨?_, ?_, ?_, ?_, ?_⟩
    · intro _ _
      refine ⟨hmemory, ?_⟩
      cases hrun : casAttachExecutionRefSql env runId execRef t with
      | ok b t' =>
        rw [hrun] at hok hrows
        cases hok
        exact ⟨t', rfl, hrows⟩
      | error e t' =>
        rw [hrun] at hok
        cases hok
    · intro attached href'
      exact absurd (href.symm.trans href') (by nofun)
    · intro attached href'
      exact absurd (href.symm.trans href') (by nofun)
    · intro h
      exact absurd (of_decide_eq_true h) hterminal
    · rw [hmemory, hok, hrows]
      refine ⟨.inl rfl, _, _, InsertionDict.get?_set_self _ _ _, InsertionDict.get?_set_self _ _ _, rfl, rfl, rfl, rfl⟩

/-- A reference that the server does not take is attached in memory, or refused there for another reason. -/
theorem not_attachContract_of_not_sendable (hsend : ¬Sendable runId execRef) (hrun : s.runs.get? runId = some run) :
    ¬AttachContract env runId execRef s t run := by
  intro h
  obtain ⟨e, hsql, hdomain, hconflict⟩ := @casAttachExecutionRefSql_of_not_sendable env runId execRef t hsend
  obtain ⟨hsame, -⟩ := h.agree
  rw [hsql] at hsame
  rcases hsame with hmemory | ⟨m, m', -, herror⟩
  · by_cases hother : ∀ attached, run.executionRef = some attached → attached.executionId = execRef.executionId
    · rw [casAttachExecutionRef_of_attachable hrun hother] at hmemory
      cases hmove : transitionRun env run .running (some execRef) with
      | ok run' =>
        rw [hmove] at hmemory
        cases hmemory
      | error e' =>
        rw [hmove] at hmemory
        cases hmemory
        exact Bool.false_ne_true (hdomain.symm.trans (transitionRun_error hmove))
    · push Not at hother
      obtain ⟨attached, href, hne⟩ := hother
      obtain ⟨m, hraised⟩ := @casAttachExecutionRef_of_other env runId execRef s run attached hrun href hne
      rw [hraised] at hmemory
      cases hmemory
      exact hconflict m rfl
  · cases herror
    exact hconflict m' rfl

end Contract

/-- The contract holds exactly for a reference that PostgreSQL takes, and a Run that has another one, or none while it and its
mirror can run. -/
theorem attachContract_iff (hrun : s.runs.get? runId = some run) (hrow : t.atRuns.get? runId = some (AtRun.ofRun run)) :
    AttachContract env runId execRef s t run ↔ Attaches runId execRef t run := by
  unfold Attaches
  by_cases hsend : Sendable runId execRef
  swap
  · exact iff_of_false (not_attachContract_of_not_sendable hsend hrun) fun h => hsend h.1
  rw [and_iff_right hsend]
  cases href : run.executionRef with
  | none =>
    rw [attachContract_of_none hsend hrun hrow href, running_mem_iff]
    simp
  | some attached =>
    by_cases hne : attached.executionId = execRef.executionId
    · refine iff_of_false (not_attachContract_of_same hrun href hne) ?_
      rintro (⟨hnone, -⟩ | ⟨other, hother, hne'⟩)
      · cases hnone
      · cases hother
        exact hne' hne
    · exact iff_of_true (attachContract_of_other hsend hrun hrow href hne) (.inr ⟨attached, rfl, hne⟩)

def skeletonRunIn (status : RunStatus) (ref : Option ExecutionRef) : RunRecord where
  runId := ⟨"run_b"⟩
  workId := ⟨"work_a"⟩
  status := status
  executionRef := ref
  createdAt := 0
  updatedAt := 0

def memoryWith (run : RunRecord) : SkeletonState := { SkeletonState.empty with runs := InsertionDict.empty.set run.runId run }

def tableWith (run : RunRecord) : SqlState := ⟨InsertionDict.empty.set run.runId (AtRun.ofRun run), .empty⟩

theorem fakeRef_sendable : Sendable ⟨"run_b"⟩ fakeRef := by
  have hone : ∀ k, k ≠ 0 → (1 : ℤ).natAbs < 10 ^ k := fun k hk => Nat.one_lt_pow hk (by decide)
  refine ⟨?_, ⟨by decide, by decide, by decide⟩, fun entry hentry => by cases hentry⟩
  unfold Printable
  apply hone
  decide

theorem startingRun_attachContract :
    AttachContract (taggedSupply "c") ⟨"run_b"⟩ fakeRef (memoryWith (skeletonRunIn .starting none))
      (tableWith (skeletonRunIn .starting none)) (skeletonRunIn .starting none) :=
  (attachContract_iff (taggedSupply "c") ⟨"run_b"⟩ fakeRef (memoryWith (skeletonRunIn .starting none))
    (tableWith (skeletonRunIn .starting none)) (skeletonRunIn .starting none) rfl rfl).mpr
    ⟨fakeRef_sendable, .inl ⟨rfl, .inl rfl, fun _ h => nomatch h⟩⟩

/-- A RUNNING Run is offered the reference that it has. -/
theorem attachedRun_not_attachContract :
    ¬∀ env runId execRef s t run, s.runs.get? runId = some run → t.atRuns.get? runId = some (AtRun.ofRun run) →
      AttachContract env runId execRef s t run := by
  intro h
  have hcontract := h (taggedSupply "c") ⟨"run_b"⟩ fakeRef (memoryWith (skeletonRunIn .running (some fakeRef)))
    (tableWith (skeletonRunIn .running (some fakeRef))) (skeletonRunIn .running (some fakeRef)) rfl rfl
  have hconverges := (hcontract.converges fakeRef rfl rfl).1
  have hraised : (casAttachExecutionRef (taggedSupply "c") ⟨"run_b"⟩ fakeRef
      (memoryWith (skeletonRunIn .running (some fakeRef)))).outcome ≠ .ok true := by nofun
  exact hraised (by rw [hconverges]; rfl)

end AllTomorrow.Skeleton
