import AllTomorrow.PostgresStore
import AllTomorrow.RaisingState

/-!
# What a method does to the Runs

For every method of the PostgreSQL store: which Runs it writes, and what it leaves in
`_RUN_REVISIONS`, when its statements have run, when it returns and when it raises. Most
methods leave the Runs alone; the others are followed statement by statement.
-/

namespace AllTomorrow

open InsertionDict (get?_set_of_ne get?_set_self)
open KeyedTable (get?_put get?_put_self key_of_get? mem_values_iff)

open PostgresStore EStateM

/-! ## Writes of a transaction -/

def WritesRun (ws : List RowWrite) (r : RunId) : Prop := ∃ row, RowWrite.run row ∈ ws ∧ row.runId = r

variable {r : RunId}

theorem writesRun_append {ws ws' : List RowWrite} : WritesRun (ws ++ ws') r ↔ WritesRun ws r ∨ WritesRun ws' r := by
  unfold WritesRun
  simp only [List.mem_append]
  constructor
  · rintro ⟨row, h | h, hr⟩
    · exact .inl ⟨row, h, hr⟩
    · exact .inr ⟨row, h, hr⟩
  · rintro (⟨row, h, hr⟩ | ⟨row, h, hr⟩)
    · exact ⟨row, .inl h, hr⟩
    · exact ⟨row, .inr h, hr⟩

theorem not_writesRun_nil (r : RunId) : ¬WritesRun [] r := by
  rintro ⟨row, h, _⟩
  cases h

theorem replay_append (db : Database) (ws ws' : List RowWrite) : db.replay (ws ++ ws') = (db.replay ws).replay ws' :=
  List.foldl_append

theorem runs_put (db : Database) (w : RowWrite) (r : RunId) : (db.put w).runsSemantic.get? r = db.runsSemantic.get? r ∨
      ∃ row, w = .run row ∧ row.runId = r ∧ (db.put w).runsSemantic.get? r = some row := by
  cases w with
  | run row =>
    by_cases h : r = row.runId
    · subst h
      exact .inr ⟨row, rfl, rfl, get?_put_self _ _⟩
    · left
      change (db.runsSemantic.put row).get? r = _
      rw [get?_put, if_neg h]
  | _ => exact .inl rfl

variable {ws : List RowWrite}

theorem runs_replay_of_not_writes (db : Database) (h : ¬WritesRun ws r) :
    (db.replay ws).runsSemantic.get? r = db.runsSemantic.get? r := by
  induction ws generalizing db with
  | nil => rfl
  | cons w ws ih =>
    have hrest : ¬WritesRun ws r := fun ⟨row, hrow, hr⟩ => h ⟨row, List.mem_cons_of_mem w hrow, hr⟩
    change ((db.put w).replay ws).runsSemantic.get? r = _
    rw [ih _ hrest]
    rcases runs_put db w r with hsame | ⟨row, rfl, hr, _⟩
    · exact hsame
    · exact absurd ⟨row, List.mem_cons_self, hr⟩ h

theorem runs_replay_of_writes (db db' : Database) (h : WritesRun ws r) :
    (db.replay ws).runsSemantic.get? r = (db'.replay ws).runsSemantic.get? r := by
  induction ws generalizing db db' with
  | nil => exact absurd h (not_writesRun_nil r)
  | cons w ws ih =>
    change ((db.put w).replay ws).runsSemantic.get? r = ((db'.put w).replay ws).runsSemantic.get? r
    by_cases hrest : WritesRun ws r
    · exact ih _ _ hrest
    · rw [runs_replay_of_not_writes _ hrest, runs_replay_of_not_writes _ hrest]
      obtain ⟨row, hrow, rfl⟩ := h
      rcases List.mem_cons.mp hrow with rfl | hrow
      · exact (get?_put_self _ _).trans (get?_put_self _ _).symm
      · exact absurd ⟨row, hrow, rfl⟩ hrest

/-! ## Methods that leave the Runs alone -/

def RunsKept (p p' : PgState) : Prop :=
  ∃ ws, p'.log = p.log ++ ws ∧ p'.db = p.db.replay ws ∧ (∀ r, ¬WritesRun ws r) ∧ p'.runRevisions = p.runRevisions

theorem RunsKept.refl (p : PgState) : RunsKept p p :=
  ⟨[], by rw [List.append_nil], rfl, not_writesRun_nil, rfl⟩

theorem RunsKept.trans {p p' p'' : PgState} (h : RunsKept p p') (h' : RunsKept p' p'') : RunsKept p p'' := by
  obtain ⟨ws, hlog, hdb, hnone, hrevs⟩ := h
  obtain ⟨ws', hlog', hdb', hnone', hrevs'⟩ := h'
  refine ⟨ws ++ ws', ?_, ?_, ?_, hrevs'.trans hrevs⟩
  · rw [hlog', hlog, List.append_assoc]
  · rw [hdb', hdb, replay_append]
  · intro r hr
    exact (writesRun_append.mp hr).elim (hnone r) (hnone' r)

def Undone (p p' : PgState) : Prop := p'.log = p.log ∧ p'.db = p.db ∧ p'.runRevisions = p.runRevisions

theorem Undone.refl (p : PgState) : Undone p p := ⟨rfl, rfl, rfl⟩

theorem Undone.runsKept {p p' : PgState} (h : Undone p p') : RunsKept p p' :=
  ⟨[], by rw [h.1, List.append_nil], h.2.1, not_writesRun_nil, h.2.2⟩

def Leaves {α : Type} (x : PgM α) : Prop :=
  ∀ p, Ends x p (fun _ p' => RunsKept p p') fun _ p' => p'.runRevisions = p.runRevisions

/-- A method that leaves the Runs alone, and has written nothing when it raises. -/
def Quiet {α : Type} (x : PgM α) : Prop := ∀ p, Ends x p (fun _ p' => RunsKept p p') fun _ p' => Undone p p'

section Leaves

variable {α β : Type} {x : PgM α}

theorem Quiet.leaves (hx : Quiet x) : Leaves x :=
  fun p => (hx p).mono (fun _ _ h => h) fun _ _ h => h.2.2

theorem leaves_pure {a : α} : Leaves (pure a : PgM α) := fun p => ends_pure (RunsKept.refl p)

theorem leaves_throw {e : Exn} : Leaves (throw e : PgM α) := fun _ => ends_throw rfl

theorem leaves_ofExcept {r : Except Exn α} : Leaves (MonadExcept.ofExcept r : PgM α) :=
  fun p => ends_ofExcept (fun _ _ => RunsKept.refl p) fun _ _ => rfl

theorem Leaves.bind {f : α → PgM β} (hx : Leaves x) (hf : ∀ a, Leaves (f a)) : Leaves (x >>= f) := by
  intro p
  have hrevs : Ends x p (fun _ p' => RunsKept p p') fun _ p' => p'.runRevisions = p.runRevisions := hx p
  apply hrevs.bind
  intro a p' hkept
  have hkept' := hkept
  obtain ⟨_, _, _, _, hsame⟩ := hkept
  exact (hf a p').mono (fun _ _ h => hkept'.trans h) fun _ _ h => h.trans hsame

theorem Quiet.bind_pure {a : β} (hx : Quiet x) : Quiet (do let _ ← x; return a) := by
  intro p
  exact (hx p).bind fun _ p' h => ends_pure h

theorem ends_statement {texts : List String} {run : Database → Except Exn (α × List RowWrite × List RowKey)} {p : PgState}
    {Q : α → PgState → Prop} {E : Exn → PgState → Prop} (hraised : ∀ e p', Undone p p' → E e p')
    (hok : ∀ a ws ls p', sendTexts texts = .ok () → run p.db = .ok (a, ws, ls) → p'.log = p.log ++ ws →
      p'.db = p.db.replay ws → p'.runRevisions = p.runRevisions → Q a p') : Ends (statement texts run) p Q E := by
  unfold Ends statement
  cases hsend : sendTexts texts with
  | error e => exact hraised e p (Undone.refl p)
  | ok u =>
    by_cases haborted : p.aborted = true
    · simp only [haborted, ↓reduceIte]
      exact hraised _ p (Undone.refl p)
    · simp only [haborted, Bool.false_eq_true, ↓reduceIte]
      cases hrun : run p.db with
      | error e => exact hraised e _ ⟨rfl, rfl, rfl⟩
      | ok result =>
        obtain ⟨a, ws, ls⟩ := result
        exact hok a ws ls _ hsend hrun rfl rfl rfl

section Statements

variable {texts : List String} {p : PgState} {E : Exn → PgState → Prop} (hraised : ∀ e p', Undone p p' → E e p')

include hraised

variable {rows : Database → Except Exn α} {Q : α → PgState → Prop}

theorem ends_select (hok : ∀ a p', rows p.db = .ok a → Undone p p' → Q a p') : Ends (select texts rows) p Q E := by
  apply ends_statement hraised
  intro a ws ls p' _ hrun hlog hdb hrevs
  obtain ⟨b, hb, hrun⟩ := except_bind_ok.mp hrun
  cases hrun
  exact hok a p' hb ⟨hlog.trans (List.append_nil _), hdb, hrevs⟩

theorem ends_selectForUpdate {locks : α → List RowKey}
    (hok : ∀ a p', rows p.db = .ok a → Undone p p' → Q a p') : Ends (selectForUpdate texts rows locks) p Q E := by
  apply ends_statement hraised
  intro a ws ls p' _ hrun hlog hdb hrevs
  obtain ⟨b, hb, hrun⟩ := except_bind_ok.mp hrun
  cases hrun
  exact hok a p' hb ⟨hlog.trans (List.append_nil _), hdb, hrevs⟩

theorem ends_insertRow {fits : Database → Except Exn Unit} {w : RowWrite} {Q : Unit → PgState → Prop}
    (hok : ∀ p', sendTexts texts = .ok () → fits p.db = .ok () → p'.log = p.log ++ [w] → p'.db = p.db.replay [w] →
      p'.runRevisions = p.runRevisions → Q () p') : Ends (insertRow texts fits w) p Q E := by
  apply ends_statement hraised
  intro a ws ls p' hsend hrun hlog hdb hrevs
  obtain ⟨_, hfits, hrun⟩ := except_bind_ok.mp hrun
  cases hrun
  exact hok p' hsend hfits hlog hdb hrevs

theorem ends_updateRow {updated : Database → Option α} {fits : Database → α → Except Exn Unit} {write : α → RowWrite}
    {Q : Option α → PgState → Prop} (hnone : ∀ p', updated p.db = none → Undone p p' → Q none p')
    (hsome : ∀ a p', updated p.db = some a → fits p.db a = .ok () → p'.log = p.log ++ [write a] →
      p'.db = p.db.replay [write a] → p'.runRevisions = p.runRevisions → Q (some a) p') :
    Ends (updateRow texts updated fits write) p Q E := by
  apply ends_statement hraised
  intro found ws ls p' _ hrun hlog hdb hrevs
  cases hup : updated p.db with
  | none =>
    rw [hup] at hrun
    cases hrun
    exact hnone p' hup ⟨hlog.trans (List.append_nil _), hdb, hrevs⟩
  | some a =>
    rw [hup] at hrun
    obtain ⟨_, hfits, hrun⟩ := except_bind_ok.mp hrun
    cases hrun
    exact hsome a p' hup hfits hlog hdb hrevs

end Statements

theorem quiet_select {texts : List String} {rows : Database → Except Exn α} : Quiet (select texts rows) :=
  fun _ => ends_select (fun _ _ h => h) fun _ _ _ h => h.runsKept

theorem quiet_selectForUpdate {texts : List String} {rows : Database → Except Exn α} {locks : α → List RowKey} :
    Quiet (selectForUpdate texts rows locks) :=
  fun _ => ends_selectForUpdate (fun _ _ h => h) fun _ _ _ h => h.runsKept

def RowWrite.IsOther (w : RowWrite) : Prop := ∀ row, w ≠ .run row

theorem not_writesRun_single {w : RowWrite} (hw : w.IsOther) (r : RunId) : ¬WritesRun [w] r := by
  rintro ⟨row, hrow, _⟩
  exact hw row (List.mem_singleton.mp hrow).symm

theorem quiet_insertRow {texts : List String} {fits : Database → Except Exn Unit} {w : RowWrite} (hw : w.IsOther) :
    Quiet (insertRow texts fits w) := by
  intro p
  apply ends_insertRow (fun _ _ h => h)
  intro p' _ _ hlog hdb hrevs
  exact ⟨[w], hlog, hdb, not_writesRun_single hw, hrevs⟩

theorem quiet_updateRow {texts : List String} {updated : Database → Option α} {fits : Database → α → Except Exn Unit}
    {write : α → RowWrite} (hw : ∀ a, (write a).IsOther) : Quiet (updateRow texts updated fits write) := by
  intro p
  apply ends_updateRow (fun _ _ h => h) (fun _ _ h => h.runsKept)
  intro a p' _ _ hlog hdb hrevs
  exact ⟨[write a], hlog, hdb, not_writesRun_single (hw a), hrevs⟩

theorem Leaves.transaction (hx : Leaves x) : Quiet (transaction x) := by
  intro p
  have hp := hx p
  unfold Ends at hp ⊢
  unfold AllTomorrow.transaction
  cases hrun : x p with
  | ok a p' =>
    rw [hrun] at hp
    exact hp
  | error e p' =>
    rw [hrun] at hp
    exact ⟨rfl, rfl, hp⟩

theorem Quiet.onUniqueViolation {e : Exn} (hx : Quiet x) : Quiet (onUniqueViolation x e) := by
  intro p
  have hp := hx p
  unfold Ends at hp ⊢
  unfold PostgresStore.onUniqueViolation
  cases hrun : x p with
  | ok a p' =>
    rw [hrun] at hp
    exact hp
  | error e p' =>
    rw [hrun] at hp
    exact hp

end Leaves

section QuietMethods

variable {env : Supply} {server : PgServer}

theorem quiet_appendEventConn (event : SemanticEvent) : Quiet (appendEventConn event) :=
  quiet_insertRow fun row h => by cases h

theorem quiet_createGoal (goal : GoalRecord) (event : SemanticEvent) : Quiet (createGoal goal event) := by
  have hinsert : Quiet (insertRow (goalTexts goal) (goalFits goal) (.goal goal)) :=
    quiet_insertRow fun row h => by cases h
  apply Quiet.bind_pure
  apply Leaves.transaction
  exact hinsert.leaves.bind fun _ => (quiet_appendEventConn event).leaves

theorem quiet_transitionGoalStatus (goalId : GoalId) (target : GoalStatus) (rev : ℤ) (event : SemanticEvent)
    (evidence : Option Evidence) : Quiet (transitionGoalStatus env goalId target rev event evidence) := by
  apply Leaves.transaction
  apply quiet_selectForUpdate.leaves.bind
  intro row
  cases row with
  | none => exact leaves_throw
  | some current =>
    apply leaves_ofExcept.bind
    intro _
    apply leaves_ofExcept.bind
    intro updated
    apply (quiet_updateRow fun a row h => by cases h).leaves.bind
    intro res
    cases res with
    | none => exact leaves_throw
    | some _ => exact (quiet_appendEventConn event).leaves.bind fun _ => leaves_pure

theorem quiet_createWork (work : WorkRecord) (event : SemanticEvent) : Quiet (createWork work event) := by
  apply Quiet.bind_pure
  apply Leaves.transaction
  apply quiet_select.leaves.bind
  intro row
  cases row with
  | none => exact leaves_throw
  | some _ =>
    apply (quiet_insertRow fun row h => by cases h).leaves.bind
    exact fun _ => (quiet_appendEventConn event).leaves

theorem quiet_insertOutcomeConn (outcome : OutcomeRecord) : Quiet (insertOutcomeConn outcome) := by
  intro p
  apply ends_statement (fun _ _ h => h)
  intro a ws ls p' _ hrun hlog hdb hrevs
  obtain ⟨_, _, hb⟩ := except_bind_ok.mp hrun
  cases hb
  refine ⟨_, hlog, hdb, ?_, hrevs⟩
  split
  · exact not_writesRun_nil
  · exact not_writesRun_single fun row h => by cases h

theorem quiet_transitionWorkStatus (workId : WorkId) (target : WorkStatus) (rev : ℤ) (event : SemanticEvent)
    (evidence : Option Evidence) : Quiet (transitionWorkStatus env workId target rev event evidence) := by
  apply Leaves.transaction
  apply quiet_selectForUpdate.leaves.bind
  intro row
  cases row with
  | none => exact leaves_throw
  | some current =>
    apply leaves_ofExcept.bind
    intro _
    apply leaves_ofExcept.bind
    intro updated
    apply (quiet_updateRow fun a row h => by cases h).leaves.bind
    intro res
    cases res with
    | none => exact leaves_throw
    | some _ =>
      apply (quiet_appendEventConn event).leaves.bind
      intro _
      have hstored : ∀ outcome, Leaves (do
          insertOutcomeConn outcome
          return updated) :=
        fun outcome => (quiet_insertOutcomeConn outcome).leaves.bind fun _ => leaves_pure
      dsimp only
      split
      · split
        · exact leaves_pure.bind hstored
        · exact leaves_ofExcept.bind hstored
      · exact leaves_pure

theorem leaves_claimLoop (rows : List WorkRecord) : Leaves (claimLoop env rows) := by
  induction rows generalizing env with
  | nil => exact leaves_pure
  | cons current rest ih =>
    apply leaves_ofExcept.bind
    intro updated
    apply (quiet_updateRow fun a row h => by cases h).leaves.bind
    intro res
    cases res with
    | none => exact ih
    | some _ =>
      apply (quiet_appendEventConn _).leaves.bind
      intro _
      exact ih.bind fun _ => leaves_pure

theorem quiet_claimPendingWork (limit : ℤ) : Quiet (claimPendingWork server env limit) := by
  apply Leaves.transaction
  exact quiet_selectForUpdate.leaves.bind leaves_claimLoop

theorem quiet_createQuestion (question : QuestionRecordSemantic) : Quiet (createQuestion question) := by
  apply Quiet.bind_pure
  apply Quiet.onUniqueViolation
  exact quiet_insertRow fun row h => by cases h

theorem quiet_answerQuestion (questionId : QuestionId) (rev : ℤ) (answerRef signalCorrelation : String) :
    Quiet (answerQuestion env questionId rev answerRef signalCorrelation) := by
  apply Leaves.transaction
  apply quiet_selectForUpdate.leaves.bind
  intro row
  cases row with
  | none => exact leaves_throw
  | some current =>
    apply leaves_ofExcept.bind
    intro _
    have hupdate : Leaves (updateRow [answerRef, signalCorrelation, questionId.val]
        (fun db => (db.questionsSemantic.get? questionId).bind fun row =>
          if row.revision = rev ∧ row.status = .pending then
            some { row with status := .answered, answerRef := some answerRef
                            signalCorrelation := some signalCorrelation, revision := row.revision + 1
                            updatedAt := env.utcNow, answeredAt := some env.utcNow }
          else none)
        (fun _ row => storeRevision "questions_semantic" row.revision) RowWrite.question) :=
      (quiet_updateRow fun a row h => by cases h).leaves
    dsimp only
    split
    · exact leaves_throw.bind fun _ => hupdate.bind fun res => by
        cases res with
        | none => exact leaves_throw
        | some _ => exact leaves_pure
    · apply hupdate.bind
      intro res
      cases res with
      | none => exact leaves_throw
      | some _ => exact leaves_pure

end QuietMethods

/-! ## Methods that read or write Runs -/

/-- The Runs that a call reads or writes, on the tables as it finds them. -/
def StoreOp.ConcernsRun (db : Database) (r : RunId) : StoreOp → Prop
  | .createRun run _ => run.runId = r
  | .attachExecutionRef runId _ _ _ => runId = r
  | .transitionRunStatus runId _ _ _ _ => runId = r
  | .getRun runId => runId = r
  | .runRevision runId => runId = r
  | .listRuns workId => ∃ row, db.runsSemantic.get? r = some row ∧ row.workId = workId
  | .findReconciliationCandidates =>
      ∃ row, db.runsSemantic.get? r = some row ∧ row.status = .starting ∧ row.executionBackend = none
  | _ => False

/-- What is remembered of a Run of `S` afterwards is the revision in its row. -/
def Remembers (S : RunId → Prop) (db : Database) (d d' : InsertionDict RunId ℤ) : Prop :=
  ∀ r, d'.get? r = d.get? r ∨ S r ∧ ∃ row, db.runsSemantic.get? r = some row ∧ d'.get? r = some row.revision

theorem Remembers.refl (S : RunId → Prop) (db : Database) (d : InsertionDict RunId ℤ) : Remembers S db d d :=
  fun _ => .inl rfl

theorem remembers_set {S : RunId → Prop} {db : Database} (d : InsertionDict RunId ℤ) {row : RunRow}
    (hrow : db.runsSemantic.get? row.runId = some row) (hS : S row.runId) :
    Remembers S db d (d.set row.runId row.revision) := by
  intro r
  rcases InsertionDict.get?_set_cases d row.runId row.revision r with ⟨rfl, hset⟩ | ⟨_, hset⟩
  · exact .inr ⟨hS, row, hrow, hset⟩
  · exact .inl hset

def RunRow.Readable (row : RunRow) : Prop :=
  Column.text row.runId.val = true ∧ ∀ env, ∃ ref, refFromRow env row = .ok ref

/-- Every row of the Runs can be read back. -/
def Database.Readable (db : Database) : Prop := ∀ r row, db.runsSemantic.get? r = some row → row.Readable

theorem Database.Readable.replay {db : Database} (h : db.Readable)
    (hws : ∀ row, RowWrite.run row ∈ ws → row.Readable) : (db.replay ws).Readable := by
  induction ws generalizing db with
  | nil => exact h
  | cons w ws ih =>
    apply ih _ fun row hrow => hws row (List.mem_cons_of_mem w hrow)
    intro r row hrow
    rcases runs_put db w r with hsame | ⟨new, rfl, _, hput⟩
    · rw [hsame] at hrow
      exact h r row hrow
    · rw [hput, Option.some.injEq] at hrow
      rw [← hrow]
      exact hws new List.mem_cons_self

variable {ref : ExecutionRef}

theorem rowVersion_of_ref {row : RunRow} (h : row.executionVersion = some ref.executionVersion) :
    rowVersion row = ref.executionVersion := by
  have hpos := ref.executionVersion_pos
  unfold rowVersion
  rw [h]
  dsimp only
  rw [if_neg]
  omega

theorem refFromRow_of_ref (env : Supply) {row : RunRow}
    (hbackend : row.executionBackend = some ref.backend) (hid : row.executionId = some ref.executionId)
    (hversion : row.executionVersion = some ref.executionVersion) :
    refFromRow env row = .ok (some { ref with attachedAt := env.utcNow, metadata := [] }) := by
  have hpos := ref.executionVersion_pos
  unfold refFromRow
  rw [hbackend, hid, rowVersion_of_ref hversion]
  dsimp only
  rw [except_bind_ok]
  refine ⟨{ ref with attachedAt := env.utcNow, metadata := [] }, ?_, rfl⟩
  unfold ExecutionRef.new
  rw [dif_neg (by simp [ref.backend_nonempty]), dif_neg (by simp [ref.executionId_nonempty]), dif_neg (by omega)]

theorem refFromRow_of_none (env : Supply) {row : RunRow} (h : row.executionBackend = none) :
    refFromRow env row = .ok none := by
  unfold refFromRow
  rw [h]
  rfl

structure RunRow.Holds (row : RunRow) (ref : Option ExecutionRef) : Prop where
  backend : row.executionBackend = ref.map ExecutionRef.backend
  id : row.executionId = ref.map ExecutionRef.executionId
  version : row.executionVersion = ref.map ExecutionRef.executionVersion

theorem RunRow.Holds.refFromRow {row : RunRow} {ref : Option ExecutionRef} (h : row.Holds ref) (env : Supply) :
    PostgresStore.refFromRow env row = .ok (ref.map fun r => { r with attachedAt := env.utcNow, metadata := [] }) := by
  cases ref with
  | none => exact refFromRow_of_none env h.backend
  | some ref => exact refFromRow_of_ref env h.backend h.id h.version

/-- No Run is written or remembered but those of `S`, and these are remembered as their rows are, or,
if they are new, will be when the method returns. -/
def RunsTracked (S : RunId → Prop) (p p' : PgState) (after : LocalM Unit) : Prop :=
  ∃ ws, p'.log = p.log ++ ws ∧ p'.db = p.db.replay ws ∧
    (p.db.Readable → ∀ row, RowWrite.run row ∈ ws → row.Readable) ∧ ∀ r,
    (¬WritesRun ws r ∧ p'.runRevisions.get? r = p.runRevisions.get? r) ∨
      S r ∧ ∃ row, p'.db.runsSemantic.get? r = some row ∧ (p'.runRevisions.get? r = some row.revision ∨
          (p.db.runsSemantic.get? r = none ∧ p'.runRevisions.get? r = p.runRevisions.get? r ∧
            ∀ d, (after d).state.get? r = some row.revision))

variable {after : LocalM Unit}

theorem RunsKept.tracked {S : RunId → Prop} {p p' : PgState} (h : RunsKept p p') : RunsTracked S p p' after := by
  obtain ⟨ws, hlog, hdb, hnone, hrevs⟩ := h
  refine ⟨ws, hlog, hdb, ?_, fun r => .inl ⟨hnone r, by rw [hrevs]⟩⟩
  exact fun _ row hrow => absurd ⟨row, hrow, rfl⟩ (hnone row.runId)

structure CallEffect (S : RunId → Prop) (p p' : PgState) (after : LocalM Unit) : Prop where
  tracked : RunsTracked S p p' after
  after_remembers : ∀ d, Remembers S p'.db d (after d).state

/-- A method has raised: nothing is written, and what is remembered was read. -/
structure RaisedEffect (S : RunId → Prop) (p p' : PgState) : Prop where
  log : p'.log = p.log
  db : p'.db = p.db
  remembers : Remembers S p.db p.runRevisions p'.runRevisions

def HasEffect {α : Type} (S : Database → RunId → Prop) (c : PgCall α) : Prop :=
  ∀ p, Ends c.connection p (fun row p' => CallEffect (S p.db) p p' (discard (c.after row)))
    fun _ p' => RaisedEffect (S p.db) p p'

theorem Undone.raisedEffect {S : RunId → Prop} {p p' : PgState} (h : Undone p p') : RaisedEffect S p p' := by
  refine ⟨h.1, h.2.1, ?_⟩
  rw [h.2.2]
  exact Remembers.refl _ _ _

theorem state_discard {α : Type} (x : LocalM α) (d : InsertionDict RunId ℤ) :
    ((discard x : LocalM Unit) d).state = (x d).state := by
  change (EStateM.map _ x d).state = _
  unfold EStateM.map
  cases x d <;> rfl

theorem Quiet.hasEffect {α : Type} {x : PgM α} (hx : Quiet x) (S : Database → RunId → Prop) : HasEffect S (.inside x) := by
  intro p
  refine (hx p).mono ?_ fun _ _ h => h.raisedEffect
  intro a p' hkept
  refine ⟨hkept.tracked, ?_⟩
  intro d
  rw [state_discard]
  exact Remembers.refl _ _ _

theorem runFromRow_run (env : Supply) (row : RunRow) (d : InsertionDict RunId ℤ) : (∃ e, runFromRow env row d = .error e d) ∨
      ∃ run, runFromRow env row d = .ok run (d.set row.runId row.revision) ∧ run.runId = row.runId := by
  unfold runFromRow
  cases href : refFromRow env row with
  | error e => exact .inl ⟨e, rfl⟩
  | ok ref => exact .inr ⟨_, rfl, rfl⟩

section Reading

variable {α : Type} {S : Database → RunId → Prop}

theorem hasEffect_select {texts : List String} {rows : Database → Except Exn α} {β : Type} {after : α → LocalM β}
    (h : ∀ db a, rows db = .ok a → ∀ d, Remembers (S db) db d (after a d).state) :
    HasEffect S ⟨α, select texts rows, after⟩ := by
  intro p
  change Ends (select texts rows) p (fun row p' => CallEffect (S p.db) p p' (discard (after row)))
    fun _ p' => RaisedEffect (S p.db) p p'
  have hraised : ∀ (_ : Exn) p', Undone p p' → RaisedEffect (S p.db) p p' := fun _ _ h => h.raisedEffect
  apply ends_select hraised
  intro a p' ha hundone
  refine ⟨hundone.runsKept.tracked, ?_⟩
  intro d
  rw [state_discard, hundone.2.1]
  exact h p.db a ha d

variable {db : Database}

theorem remembers_runFromRow {S : RunId → Prop} {env : Supply} {row : RunRow}
    (hrow : db.runsSemantic.get? row.runId = some row) (hS : S row.runId) (d : InsertionDict RunId ℤ) :
    Remembers S db d (runFromRow env row d).state := by
  rcases runFromRow_run env row d with ⟨e, he⟩ | ⟨run, hrun, _⟩
  · rw [he]
    exact Remembers.refl _ _ _
  · rw [hrun]
    exact remembers_set d hrow hS

theorem Remembers.trans {S : RunId → Prop} {d d' d'' : InsertionDict RunId ℤ}
    (h : Remembers S db d d') (h' : Remembers S db d' d'') : Remembers S db d d'' := by
  intro r
  rcases h' r with hsame | hset
  · rcases h r with hsame' | ⟨hS, row, hrow, hset⟩
    · exact .inl (hsame.trans hsame')
    · exact .inr ⟨hS, row, hrow, hsame.trans hset⟩
  · exact .inr hset

theorem remembers_bind {S : RunId → Prop} {β : Type} {x : LocalM α} {f : α → LocalM β}
    {d : InsertionDict RunId ℤ} (hx : Remembers S db d (x d).state)
    (hf : ∀ a d', Remembers S db d' (f a d').state) : Remembers S db d ((x >>= f) d).state := by
  change Remembers S db d (EStateM.bind x f d).state
  unfold EStateM.bind
  cases hrun : x d with
  | ok a d' =>
    rw [hrun] at hx
    exact hx.trans (hf a d')
  | error e d' =>
    rw [hrun] at hx
    exact hx

theorem remembers_runsFromRows {S : RunId → Prop} {env : Supply} {rows : List RunRow}
    (hrows : ∀ row ∈ rows, db.runsSemantic.get? row.runId = some row ∧ S row.runId) (d : InsertionDict RunId ℤ) :
    Remembers S db d (runsFromRows env rows d).state := by
  induction rows generalizing env d with
  | nil => exact Remembers.refl _ _ _
  | cons row rest ih =>
    have hrow := hrows row List.mem_cons_self
    apply remembers_bind (remembers_runFromRow hrow.1 hrow.2 d)
    intro run d'
    apply remembers_bind (ih (fun u hu => hrows u (List.mem_cons_of_mem row hu)) d')
    exact fun _ _ => Remembers.refl _ _ _

end Reading

section RunMethods

variable {env : Supply} {server : PgServer} {p : PgState} {E : Exn → PgState → Prop} {α : Type}

theorem ends_inProcess {x : LocalM α} {Q : α → PgState → Prop}
    (h : Ends x p.runRevisions (fun a d => Q a { p with runRevisions := d }) fun e d => E e { p with runRevisions := d }) :
    Ends (inProcess x) p Q E := by
  unfold Ends at h ⊢
  unfold inProcess
  cases hrun : x p.runRevisions with
  | ok a d =>
    rw [hrun] at h
    exact h
  | error e d =>
    rw [hrun] at h
    exact h

variable {S : RunId → Prop}

theorem ends_transaction {x : PgM α} {Q : α → PgState → Prop}
    (h : Ends x p Q fun _ p' => Remembers S p.db p.runRevisions p'.runRevisions) :
    Ends (transaction x) p Q fun _ p' => RaisedEffect S p p' := by
  unfold Ends at h ⊢
  unfold transaction
  cases hrun : x p with
  | ok a p' =>
    rw [hrun] at h
    exact h
  | error e p' =>
    rw [hrun] at h
    exact ⟨rfl, rfl, h⟩

theorem ends_onUniqueViolation {x : PgM α} {e : Exn} {Q : α → PgState → Prop} {E : PgState → Prop}
    (h : Ends x p Q fun _ => E) : Ends (onUniqueViolation x e) p Q fun _ => E := by
  unfold Ends at h ⊢
  unfold onUniqueViolation
  cases hrun : x p with
  | ok a p' =>
    rw [hrun] at h
    exact h
  | error e p' =>
    rw [hrun] at h
    exact h

theorem runFits_fresh {row : RunRow} {db : Database} {u : Unit} (h : runFits row db = .ok u) :
    db.runsSemantic.get? row.runId = none := by
  obtain ⟨_, _, h⟩ := except_bind_ok.mp h
  obtain ⟨_, hpkey, _⟩ := except_bind_ok.mp h
  exact KeyedTable.contains_eq_false_iff.mp (uniqueConstraint_ok.mp hpkey)

theorem remembers_of_eq {db : Database} {d d' : InsertionDict RunId ℤ} (h : d' = d) : Remembers S db d d' := by
  rw [h]
  exact Remembers.refl _ _ _

theorem sendTexts_ok {texts : List String} {u : Unit} (h : sendTexts texts = .ok u) : ∀ s ∈ texts, Column.text s = true := by
  unfold sendTexts at h
  split at h
  · rename_i hall
    exact List.all_eq_true.mp hall
  · cases h

theorem ends_insertRun (run : RunRecord) (e : Exn) :
    Ends (onUniqueViolation (insertRow (runTexts run) (runFits (rowOfRun run 1)) (.run (rowOfRun run 1))) e) p
      (fun _ p' => (rowOfRun run 1).Readable ∧ p.db.runsSemantic.get? run.runId = none ∧ p'.log = p.log ++ [.run (rowOfRun run 1)] ∧
        p'.db = p.db.replay [.run (rowOfRun run 1)] ∧ p'.runRevisions = p.runRevisions)
      fun _ p' => p'.runRevisions = p.runRevisions := by
  apply ends_onUniqueViolation
  apply ends_insertRow (fun _ _ h => h.2.2)
  intro p' hsend hfits hlog hdb hrevs
  refine ⟨⟨?_, fun env => ⟨_, RunRow.Holds.refFromRow ⟨rfl, rfl, rfl⟩ env⟩⟩, runFits_fresh hfits, hlog, hdb, hrevs⟩
  exact sendTexts_ok hsend _ List.mem_cons_self

theorem runs_replay_run (db : Database) (row : RunRow) (h : ∀ r, ¬WritesRun ws r) :
    ((db.replay [.run row]).replay ws).runsSemantic.get? row.runId = some row := by
  rw [runs_replay_of_not_writes _ (h row.runId)]
  exact get?_put_self _ _

theorem not_writesRun_run {row : RunRow} (h : ∀ r, ¬WritesRun ws r) {r : RunId}
    (hne : row.runId ≠ r) : ¬WritesRun ([.run row] ++ ws) r := by
  intro hw
  rcases writesRun_append.mp hw with ⟨u, hu, hr⟩ | hw
  · cases List.mem_singleton.mp hu
    exact hne hr
  · exact h r hw

theorem readable_writes {row : RunRow} (hrow : row.Readable) (h : ∀ r, ¬WritesRun ws r) :
    ∀ u, RowWrite.run u ∈ [.run row] ++ ws → u.Readable := by
  intro u hu
  rcases List.mem_append.mp hu with hu | hu
  · cases List.mem_singleton.mp hu
    exact hrow
  · exact absurd ⟨u, hu, rfl⟩ (h u.runId)

theorem hasEffect_createRun (run : RunRecord) (event : SemanticEvent) :
    HasEffect (fun _ r => run.runId = r) (createRun run event) := by
  intro p
  apply ends_transaction
  apply Ends.bind (Q := fun _ p' => Undone p p')
  · exact ends_select (fun _ _ h => remembers_of_eq h.2.2) fun _ _ _ h => h
  intro found p₁ h₁
  cases found with
  | none => exact ends_throw (remembers_of_eq h₁.2.2)
  | some work =>
    apply ((ends_insertRun run _).mono (fun _ _ h => h) fun _ _ h => remembers_of_eq (h.trans h₁.2.2)).bind
    rintro u p₂ ⟨hreadable, hfresh, hlog, hdb, hrevs⟩
    have hevent := quiet_appendEventConn event p₂
    refine hevent.mono ?_ fun _ _ h => remembers_of_eq (h.2.2.trans (hrevs.trans h₁.2.2))
    rintro u p₃ ⟨ws, hlog₃, hdb₃, hnone, hrevs₃⟩
    rw [h₁.2.1] at hfresh hdb
    rw [h₁.1] at hlog
    have hsame : p₃.runRevisions = p.runRevisions := hrevs₃.trans (hrevs.trans h₁.2.2)
    have hrow : p₃.db.runsSemantic.get? run.runId = some (rowOfRun run 1) := by
      rw [hdb₃, hdb]
      exact runs_replay_run p.db (rowOfRun run 1) hnone
    refine ⟨⟨[.run (rowOfRun run 1)] ++ ws, ?_, ?_, fun _ => readable_writes hreadable hnone, ?_⟩, ?_⟩
    · rw [hlog₃, hlog, List.append_assoc]
    · rw [hdb₃, hdb, replay_append]
    · intro r
      by_cases hr : run.runId = r
      · subst hr
        refine .inr ⟨rfl, rowOfRun run 1, hrow, .inr ⟨hfresh, by rw [hsame], ?_⟩⟩
        intro d
        rw [state_discard]
        exact get?_set_self _ _ _
      · exact .inl ⟨not_writesRun_run hnone hr, by rw [hsame]⟩
    · intro d
      rw [state_discard]
      have hrow' : p₃.db.runsSemantic.get? (rowOfRun run 1).runId = some (rowOfRun run 1) := hrow
      exact remembers_set d hrow' rfl

theorem ends_lockRun {runId : RunId} (hE : ∀ e p', Undone p p' → E e p') :
    Ends (lockRun runId) p (fun found p' => found = p.db.runsSemantic.get? runId ∧ Undone p p') E := by
  apply ends_selectForUpdate hE
  intro found p' hfound hundone
  exact ⟨(Except.ok.inj hfound).symm, hundone⟩

/-- The Run has been locked, and the revision in its row is remembered. -/
def Locked (p p' : PgState) (row : RunRow) : Prop :=
  p'.log = p.log ∧ p'.db = p.db ∧ p'.runRevisions = p.runRevisions.set row.runId row.revision

section LockedRun

variable {p' : PgState} {row : RunRow} (hrow : p.db.runsSemantic.get? row.runId = some row) (hlocked : Locked p p' row)

include hrow hlocked

theorem Locked.remembers : Remembers (fun r => row.runId = r) p.db p.runRevisions p'.runRevisions := by
  rw [hlocked.2.2]
  exact remembers_set _ hrow rfl

theorem Locked.callEffect {α : Type} (a : α) : CallEffect (fun r => row.runId = r) p p' (discard (pure a : LocalM α)) := by
  refine ⟨⟨[], hlocked.1.trans (List.append_nil _).symm, hlocked.2.1, fun _ _ hu => absurd hu List.not_mem_nil, ?_⟩,
    ?_⟩
  · intro r
    rcases Locked.remembers hrow hlocked r with hsame | ⟨hr, u, hu, hset⟩
    · exact .inl ⟨not_writesRun_nil r, hsame⟩
    · rw [← hlocked.2.1] at hu
      exact .inr ⟨hr, u, hu, .inl hset⟩
  · intro d
    rw [state_discard]
    exact Remembers.refl _ _ _

/-- The new version of the row is written, the event appended and the new revision remembered. -/
theorem ends_storeRow {texts : List String} {updated : Database → Option RunRow} {e : Exn} {event : SemanticEvent}
    {g : RunRow → RunRecord}
    (hupdated : ∀ db u, updated db = some u → u.runId = row.runId ∧ (db.Readable → u.Readable))
    (hresult : ∀ u, (g u).runId = row.runId) :
    Ends (do
        match ← updateRow texts updated runUpdateFits RowWrite.run with
        | none => throw e
        | some newRow =>
          appendEventConn event
          inProcess (setRunRevision (g newRow).runId newRow.revision)
          return g newRow) p'
      (fun a p'' => CallEffect (fun r => row.runId = r) p p'' (discard (pure a : LocalM RunRecord)))
      fun _ p'' => Remembers (fun r => row.runId = r) p.db p.runRevisions p''.runRevisions := by
  have hremembers := Locked.remembers hrow hlocked
  have hkept : ∀ {q : PgState}, q.runRevisions = p'.runRevisions →
      Remembers (fun r => row.runId = r) p.db p.runRevisions q.runRevisions := by
    intro q hq
    rw [hq]
    exact hremembers
  apply Ends.bind (Q := fun found q => q.runRevisions = p'.runRevisions ∧ ∀ u, found = some u →
    (u.runId = row.runId ∧ (p'.db.Readable → u.Readable)) ∧ q.log = p'.log ++ [.run u] ∧ q.db = p'.db.replay [.run u])
  · apply ends_updateRow (fun _ _ h => hkept h.2.2)
    · exact fun q _ h => ⟨h.2.2, fun u hu => by cases hu⟩
    · intro u q hu _ hlog hdb hrevs
      refine ⟨hrevs, ?_⟩
      rintro v ⟨⟩
      exact ⟨hupdated _ u hu, hlog, hdb⟩
  rintro found p₁ ⟨hrevs₁, hfound⟩
  cases found with
  | none => exact ends_throw (hkept hrevs₁)
  | some u =>
    obtain ⟨⟨hu, hreadable⟩, hlog₁, hdb₁⟩ := hfound u rfl
    apply ((quiet_appendEventConn event p₁).mono (fun _ _ h => h) fun _ _ h => hkept (h.2.2.trans hrevs₁)).bind
    rintro _ p₂ ⟨ws, hlog₂, hdb₂, hnone, hrevs₂⟩
    apply Ends.bind (Q := fun _ q => q.log = p₂.log ∧ q.db = p₂.db ∧
      q.runRevisions = p₂.runRevisions.set u.runId u.revision)
    · apply ends_inProcess
      rw [hresult u, ← hu]
      exact ⟨rfl, rfl, rfl⟩
    rintro _ p₃ ⟨hlog₃, hdb₃, hrevs₃⟩
    apply ends_pure
    have hstored : p₃.db.runsSemantic.get? row.runId = some u := by
      rw [hdb₃, hdb₂, hdb₁, ← hu]
      exact runs_replay_run _ u hnone
    rw [hlocked.2.1] at hreadable
    refine ⟨⟨[.run u] ++ ws, ?_, ?_, fun hdb => readable_writes (hreadable hdb) hnone, ?_⟩, ?_⟩
    · rw [hlog₃, hlog₂, hlog₁, hlocked.1, List.append_assoc]
    · rw [hdb₃, hdb₂, hdb₁, hlocked.2.1, replay_append]
    · intro r
      by_cases hr : row.runId = r
      · subst hr
        refine .inr ⟨rfl, u, hstored, .inl ?_⟩
        rw [hrevs₃, ← hu]
        exact get?_set_self _ _ _
      · rw [← hu] at hr
        refine .inl ⟨not_writesRun_run hnone hr, ?_⟩
        rw [hrevs₃, get?_set_of_ne _ _ (Ne.symm hr), hrevs₂, hrevs₁, hlocked.2.2, ← hu,
          get?_set_of_ne _ _ (Ne.symm hr)]
    · intro d
      rw [state_discard]
      exact Remembers.refl _ _ _

end LockedRun

/-- Lock the Run, read it and check its revision. -/
theorem ends_readLocked {runId : RunId} {expected : ℤ} {f : RunRecord → PgM α} {e : Exn}
    {Q : α → PgState → Prop}
    (hf : ∀ row current p', p.db.runsSemantic.get? row.runId = some row → row.runId = runId →
      current.runId = row.runId → Locked p p' row →
      Ends (f current) p' Q fun _ q => Remembers (fun r => runId = r) p.db p.runRevisions q.runRevisions) :
    Ends (do
        match ← lockRun runId with
        | none => throw e
        | some row =>
          let current ← inProcess (runFromRow (env.sub 0) row)
          let revision ← inProcess (runRevisionOf current)
          MonadExcept.ofExcept (InMemoryStore.checkRevision revision expected "run" runId.val)
          f current) p Q
      fun _ q => Remembers (fun r => runId = r) p.db p.runRevisions q.runRevisions := by
  apply (ends_lockRun fun _ _ h => remembers_of_eq h.2.2).bind
  rintro found p₁ ⟨hfound, hundone⟩
  cases found with
  | none => exact ends_throw (remembers_of_eq hundone.2.2)
  | some row =>
    have hkey : row.runId = runId := key_of_get? hfound.symm
    have hrow : p.db.runsSemantic.get? row.runId = some row := by rw [hkey, ← hfound]
    have hremembers : ∀ {q : PgState}, Locked p q row →
        Remembers (fun r => runId = r) p.db p.runRevisions q.runRevisions := by
      intro q hq
      have h := Locked.remembers hrow hq
      rwa [hkey] at h
    apply Ends.bind (Q := fun current q => current.runId = row.runId ∧ Locked p q row)
    · apply ends_inProcess
      unfold Ends
      rcases runFromRow_run (env.sub 0) row p₁.runRevisions with ⟨e', he⟩ | ⟨run, hrun, hid⟩
      · rw [he]
        exact remembers_of_eq hundone.2.2
      · rw [hrun]
        exact ⟨hid, hundone.1, hundone.2.1, by rw [hundone.2.2]⟩
    rintro current p₂ ⟨hid, hlocked⟩
    apply Ends.bind (Q := fun _ q => Locked p q row)
    · exact ends_inProcess hlocked
    intro revision p₃ hlocked₃
    apply Ends.bind (Q := fun _ q => Locked p q row)
    · exact ends_ofExcept (fun _ _ => hlocked₃) fun _ _ => hremembers hlocked₃
    intro _ p₄ hlocked₄
    exact hf row current p₄ hrow hkey hid hlocked₄

theorem hasEffect_attachExecutionRef (runId : RunId) (rev : ℤ) (ref : ExecutionRef) (event : SemanticEvent) :
    HasEffect (fun _ r => runId = r) (.inside (attachExecutionRef env runId rev ref event)) := by
  intro p
  apply ends_transaction
  apply ends_readLocked
  intro row current p' hrow hkey hid hlocked
  subst hkey
  cases hattached : current.executionRef with
  | some attached =>
    dsimp only
    split
    · exact ends_pure (Locked.callEffect hrow hlocked _)
    · exact ends_throw (Locked.remembers hrow hlocked)
  | none =>
    dsimp only
    refine ends_storeRow hrow hlocked (g := fun _ =>
      { current with executionRef := some ref, updatedAt := (env.sub 1).utcNow }) ?_ fun _ => hid
    intro db u hu
    obtain ⟨v, hv, hu⟩ := Option.bind_eq_some_iff.mp hu
    split at hu
    · cases hu
      have hkey : v.runId = row.runId := key_of_get? hv
      refine ⟨hkey, fun hdb => ⟨(hdb _ v hv).1, fun env => ?_⟩⟩
      exact ⟨_, refFromRow_of_ref env rfl rfl rfl⟩
    · cases hu

theorem hasEffect_transitionRunStatus (runId : RunId) (target : RunStatus) (rev : ℤ) (event : SemanticEvent)
    (executionRef : Option ExecutionRef) :
    HasEffect (fun _ r => runId = r) (.inside (transitionRunStatus env runId target rev event executionRef)) := by
  intro p
  apply ends_transaction
  apply ends_readLocked
  intro row current p' hrow hkey hid hlocked
  subst hkey
  apply Ends.bind (Q := fun updated q => updated.runId = row.runId ∧ Locked p q row)
  · apply ends_ofExcept
    · intro updated hupdated
      obtain ⟨_, _, rfl⟩ := transitionRun_ok_iff.mp hupdated
      exact ⟨hid, hlocked⟩
    · exact fun _ _ => Locked.remembers hrow hlocked
  rintro updated p₁ ⟨hupdated, hlocked₁⟩
  refine ends_storeRow hrow hlocked₁ (g := fun _ => updated) ?_ fun _ => hupdated
  intro db u hu
  obtain ⟨v, hv, hu⟩ := Option.bind_eq_some_iff.mp hu
  split at hu
  · cases hu
    have hkey : v.runId = row.runId := key_of_get? hv
    refine ⟨hkey, fun hdb => ⟨(hdb _ v hv).1, fun env => ?_⟩⟩
    exact ⟨_, RunRow.Holds.refFromRow ⟨rfl, rfl, rfl⟩ env⟩
  · cases hu

end RunMethods

section AllMethods

variable {env : Supply} {server : PgServer} (runId : RunId)

theorem hasEffect_getRun : HasEffect (fun _ r => runId = r) (getRun env runId) := by
  apply hasEffect_select
  intro db found hfound d
  cases hfound
  cases hrow : db.runsSemantic.get? runId with
  | none => exact Remembers.refl _ _ _
  | some row =>
    have hkey : row.runId = runId := key_of_get? hrow
    rw [← hkey] at hrow ⊢
    apply remembers_bind (remembers_runFromRow hrow rfl d)
    exact fun _ _ => Remembers.refl _ _ _

theorem hasEffect_listRuns (workId : WorkId) :
    HasEffect (fun db r => ∃ row, db.runsSemantic.get? r = some row ∧ row.workId = workId) (listRuns server env workId) := by
  apply hasEffect_select
  intro db rows hrows d
  cases hrows
  apply remembers_runsFromRows
  intro row hrow
  obtain ⟨hmem, hwork⟩ := List.mem_filter.mp ((server.scan_perm _).mem_iff.mp hrow)
  have hget := mem_values_iff.mp hmem
  exact ⟨hget, row, hget, of_decide_eq_true hwork⟩

theorem hasEffect_findReconciliationCandidates :
    HasEffect (fun db r => ∃ row, db.runsSemantic.get? r = some row ∧ row.status = .starting ∧
      row.executionBackend = none) (findReconciliationCandidates server env) := by
  apply hasEffect_select
  intro db rows hrows d
  cases hrows
  apply remembers_runsFromRows
  intro row hrow
  obtain ⟨hmem, hstatus⟩ := List.mem_filter.mp ((server.scan_perm _).mem_iff.mp hrow)
  have hget := mem_values_iff.mp hmem
  rw [Bool.and_eq_true, decide_eq_true_eq, Option.isNone_iff_eq_none] at hstatus
  exact ⟨hget, row, hget, hstatus⟩

theorem connection_eq (p : PgState) :
    (currentRunRevision env runId).connection p = (match p.runRevisions.get? runId with
      | some revision => return .inl revision
      | none => do
        let row ← selectRun runId
        return .inr row : PgM (ℤ ⊕ Option RunRow)) p := rfl

variable {p : PgState}

theorem connection_of_cached {runId : RunId} {revision : ℤ} (hcached : p.runRevisions.get? runId = some revision) :
    (currentRunRevision env runId).connection p = .ok (.inl revision) p := by
  rw [connection_eq, hcached]
  rfl

theorem connection_of_uncached {runId : RunId} (hcached : p.runRevisions.get? runId = none) :
    (currentRunRevision env runId).connection p = (do
      let row ← selectRun runId
      return .inr row : PgM (ℤ ⊕ Option RunRow)) p := by
  rw [connection_eq, hcached]

theorem ends_selectRun {row : RunRow} (hopen : p.aborted = false) (hreadable : row.Readable)
    (hrow : p.db.runsSemantic.get? row.runId = some row) {E : Exn → PgState → Prop} :
    Ends (selectRun row.runId) p (fun found _ => found = some row) E := by
  have hsend : sendTexts [row.runId.val] = .ok () := by
    unfold sendTexts
    rw [if_pos (by simp [hreadable.1])]
  unfold Ends selectRun select statement
  rw [hsend, hopen]
  exact hrow

theorem ends_revisionOfRow {row : RunRow} (hreadable : row.Readable) (d : InsertionDict RunId ℤ)
    {E : Exn → InsertionDict RunId ℤ → Prop} :
    Ends ((currentRunRevision env row.runId).after (.inr (some row))) d (fun v _ => v = row.revision) E := by
  obtain ⟨ref, href⟩ := hreadable.2 env
  unfold Ends currentRunRevision runFromRow
  simp only [href]
  exact congrArg (Option.getD · 1) (get?_set_self d row.runId row.revision)

theorem hasEffect_currentRunRevision : HasEffect (fun _ r => runId = r) (currentRunRevision env runId) := by
  intro p
  cases hcached : p.runRevisions.get? runId with
  | some revision =>
    unfold Ends
    rw [connection_of_cached hcached]
    refine ⟨(RunsKept.refl p).tracked, ?_⟩
    intro d
    rw [state_discard]
    exact Remembers.refl _ _ _
  | none =>
    unfold Ends
    rw [connection_of_uncached hcached]
    apply Ends.bind (Q := fun found q => found = p.db.runsSemantic.get? runId ∧ Undone p q)
    · apply ends_select (fun _ _ h => h.raisedEffect)
      intro found q hfound hundone
      exact ⟨(Except.ok.inj hfound).symm, hundone⟩
    rintro found q ⟨hfound, hundone⟩
    refine ends_pure ⟨hundone.runsKept.tracked, ?_⟩
    intro d
    rw [state_discard, hundone.2.1]
    cases found with
    | none => exact Remembers.refl _ _ _
    | some row =>
      have hkey : row.runId = runId := key_of_get? hfound.symm
      rw [← hkey] at hfound ⊢
      apply remembers_bind (remembers_runFromRow hfound.symm rfl d)
      exact fun _ _ => Remembers.refl _ _ _

/-- Every method of the store. -/
theorem hasEffect_postgres (server : PgServer) (env : Supply) (op : StoreOp) :
    HasEffect (fun db r => op.ConcernsRun db r) (op.postgres server env) := by
  cases op with
  | appendEvent event => exact (quiet_appendEventConn event).hasEffect _
  | createGoal goal event => exact (quiet_createGoal goal event).hasEffect _
  | transitionGoalStatus goalId target rev event evidence =>
    exact (quiet_transitionGoalStatus goalId target rev event evidence).hasEffect _
  | createWork work event => exact (quiet_createWork work event).hasEffect _
  | transitionWorkStatus workId target rev event evidence =>
    exact (quiet_transitionWorkStatus workId target rev event evidence).hasEffect _
  | createRun run event => exact hasEffect_createRun run event
  | attachExecutionRef runId rev ref event => exact hasEffect_attachExecutionRef runId rev ref event
  | transitionRunStatus runId target rev event ref => exact hasEffect_transitionRunStatus runId target rev event ref
  | claimPendingWork limit => exact (quiet_claimPendingWork limit).hasEffect _
  | createQuestion question => exact (quiet_createQuestion question).hasEffect _
  | answerQuestion questionId rev answerRef correlation =>
    exact (quiet_answerQuestion questionId rev answerRef correlation).hasEffect _
  | getRun runId => exact hasEffect_getRun runId
  | listRuns workId => exact hasEffect_listRuns workId
  | runRevision runId => exact hasEffect_currentRunRevision runId
  | findReconciliationCandidates => exact hasEffect_findReconciliationCandidates
  | getOutcome workId =>
    apply hasEffect_select
    intro db found _ d
    cases found with
    | none => exact Remembers.refl _ _ _
    | some row =>
      apply remembers_bind
      · cases outcomeFromRow env row <;> exact Remembers.refl _ _ _
      · exact fun _ _ => Remembers.refl _ _ _
  | _ => exact quiet_select.hasEffect _

end AllMethods

/-- A method that has run to its end: every Run that it has written is remembered as its row is. -/
def RunsSettled (S : RunId → Prop) (p p' : PgState) : Prop :=
  ∃ ws, p'.log = p.log ++ ws ∧ p'.db = p.db.replay ws ∧
    (p.db.Readable → ∀ row, RowWrite.run row ∈ ws → row.Readable) ∧ ∀ r,
    (¬WritesRun ws r ∧ p'.runRevisions.get? r = p.runRevisions.get? r) ∨
      S r ∧ ∃ row, p'.db.runsSemantic.get? r = some row ∧ p'.runRevisions.get? r = some row.revision

theorem RaisedEffect.settled {S : RunId → Prop} {p p' : PgState} (h : RaisedEffect S p p') : RunsSettled S p p' := by
  refine ⟨[], h.log.trans (List.append_nil _).symm, h.db, fun _ _ hu => absurd hu List.not_mem_nil, ?_⟩
  intro r
  rcases h.remembers r with hsame | ⟨hS, row, hrow, hset⟩
  · exact .inl ⟨not_writesRun_nil r, hsame⟩
  · exact .inr ⟨hS, row, by rw [h.db, hrow], hset⟩

theorem CallEffect.settled {S : RunId → Prop} {p p' p'' : PgState} (h : CallEffect S p p' after)
    (hlog : p''.log = p'.log) (hdb : p''.db = p'.db) (hrevs : p''.runRevisions = (after p'.runRevisions).state) :
    RunsSettled S p p'' := by
  obtain ⟨⟨ws, hlog', hdb', hreadable, htracked⟩, hafter⟩ := h
  refine ⟨ws, hlog.trans hlog', hdb.trans hdb', hreadable, ?_⟩
  intro r
  rw [hrevs, hdb]
  rcases hafter p'.runRevisions r with hsame | ⟨hS, row, hrow, hset⟩
  · rcases htracked r with ⟨hnot, hkept⟩ | ⟨hS, row, hrow, hremembered | ⟨_, _, hnew⟩⟩
    · exact .inl ⟨hnot, hsame.trans hkept⟩
    · exact .inr ⟨hS, row, hrow, hsame.trans hremembered⟩
    · exact .inr ⟨hS, row, hrow, hnew _⟩
  · exact .inr ⟨hS, row, hrow, hset⟩

theorem HasEffect.exec {α : Type} {S : Database → RunId → Prop} {c : PgCall α} (h : HasEffect S c) (p : PgState) :
    RunsSettled (S p.db) p (c.exec p).state := by
  have hends : Ends c.exec p (fun _ p' => RunsSettled (S p.db) p p') fun _ p' => RunsSettled (S p.db) p p' := by
    apply ((h p).mono (fun _ _ h => h) fun _ _ h => h.settled).bind
    intro row p' heffect
    have hstate := state_discard (c.after row) p'.runRevisions
    unfold Ends inProcess
    cases hrun : c.after row p'.runRevisions with
    | ok a d =>
      rw [hrun] at hstate
      exact heffect.settled rfl rfl hstate.symm
    | error e d =>
      rw [hrun] at hstate
      exact heffect.settled rfl rfl hstate.symm
  exact hends.state

end AllTomorrow
