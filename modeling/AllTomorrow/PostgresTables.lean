import AllTomorrow.SemanticStore
import AllTomorrow.KeyedTables

/-!
# The tables of the PostgreSQL store

The tables of `migrations/0006_semantic_kernel.sql` with the constraints that a
statement meets, and a connection as the methods of `PostgresGoalWorkRunStore` use it:
one statement after the other, in a transaction that can be rolled back. Columns that
the store neither writes nor reads are left out.
-/

namespace AllTomorrow

/-! ## Columns -/

namespace Column

def text (s : String) : Bool := s.toList.all fun c => c.toNat ≠ 0

mutual

/-- A jsonb column gives back an equal value; it takes no NUL character, and an integer is dumped
only if it has at most 4300 digits. -/
def json : PyValue → Bool
  | .none => true
  | .bool _ => true
  | .int n => n.natAbs < 10 ^ 4300
  | .str s => text s
  | .list xs => jsonList xs
  | .dict entries => jsonEntries entries

def jsonList : List PyValue → Bool
  | [] => true
  | x :: xs => json x && jsonList xs

def jsonEntries : List (String × PyValue) → Bool
  | [] => true
  | (k, x) :: entries => text k && json x && jsonEntries entries

end

def jsonDict (d : PyDict) : Bool := jsonEntries d.entries

end Column

/-- `psycopg.errors`, by the name of the class. -/
def dbError (kind message : String) : Exn := .foreign kind message

def sendTexts (texts : List String) : Except Exn Unit :=
  if texts.all Column.text then .ok ()
  else .error (dbError "DataError" "PostgreSQL text fields cannot contain NUL (0x00) bytes")

def storeJson (fits : Bool) : Except Exn Unit :=
  if fits then .ok () else .error (dbError "UntranslatableCharacter" "unsupported Unicode escape sequence")

def storeInteger (n : ℤ) : Except Exn Unit :=
  if -2 ^ 31 ≤ n ∧ n < 2 ^ 31 then .ok () else .error (dbError "NumericValueOutOfRange" "integer out of range")

def storeBigint (n : ℤ) : Except Exn Unit :=
  if -2 ^ 63 ≤ n ∧ n < 2 ^ 63 then .ok () else .error (dbError "NumericValueOutOfRange" "bigint out of range")

def checkConstraint (table name : String) (holds : Bool) : Except Exn Unit :=
  if holds then .ok ()
  else .error (dbError "CheckViolation" ("new row for relation \"" ++ table ++ "\" violates check constraint \"" ++
    name ++ "\""))

def uniqueConstraint (name : String) (taken : Bool) : Except Exn Unit :=
  if taken then
    .error (dbError "UniqueViolation" ("duplicate key value violates unique constraint \"" ++ name ++ "\""))
  else .ok ()

theorem uniqueConstraint_ok {name : String} {taken : Bool} {u : Unit} :
    uniqueConstraint name taken = .ok u ↔ taken = false := by
  unfold uniqueConstraint
  cases taken <;> simp

def foreignKey (table column target ident : String) (present : Bool) : Except Exn Unit :=
  if present then .ok ()
  else .error (dbError "ForeignKeyViolation" ("insert or update on table \"" ++ table ++
    "\" violates foreign key constraint \"" ++ table ++ "_" ++ column ++ "_fkey\"\nDETAIL:  Key (" ++ column ++
    ")=(" ++ ident ++ ") is not present in table \"" ++ target ++ "\"."))

/-- `revision bigint NOT NULL CHECK (revision >= 1)`. -/
def storeRevision (table : String) (revision : ℤ) : Except Exn Unit := do
  storeBigint revision
  checkConstraint table (table ++ "_revision_check") (1 ≤ revision)

/-! ## Rows -/

/-- A row of `runs_semantic`. It has no column for the instant at which a reference was attached. -/
structure RunRow where
  runId : RunId
  workId : WorkId
  status : RunStatus
  attemptNumber : ℤ
  executionBackend : Option String
  executionId : Option String
  executionVersion : Option ℤ
  revision : ℤ
  createdAt : Datetime
  updatedAt : Datetime
  terminalAt : Option Datetime

/-- `semantic_status IN ('STARTING', 'RUNNING', 'WAITING', 'CANCEL_REQUESTED')`. -/
def RunRow.isActive (row : RunRow) : Bool := row.status ∈ activeRunStatuses

/-- A row of `outcomes`. It has no column for the instant at which the evidence was recorded. -/
structure OutcomeRow where
  outcomeId : OutcomeId
  targetType : TargetType
  targetId : String
  status : OutcomeStatus
  criterionRef : Option String
  evaluatorRef : Option String
  evaluatorVersion : Option String
  observedValues : PyDict
  evidenceRefs : List String
  artifactRefs : List String
  details : PyDict
  createdAt : Datetime

/-- The tables, each by its primary key. The rows of `goals`, `work_items`, `questions_semantic` and
`semantic_events` have the fields of the records. -/
structure Database where
  goals : KeyedTable GoalRecord.goalId
  workItems : KeyedTable WorkRecord.workId
  runsSemantic : KeyedTable RunRow.runId
  outcomes : KeyedTable OutcomeRow.outcomeId
  questionsSemantic : KeyedTable QuestionRecordSemantic.questionId
  semanticEvents : KeyedTable SemanticEvent.eventId

def Database.empty : Database := ⟨.empty, .empty, .empty, .empty, .empty, .empty⟩

/-- A row that is inserted, or the new version of a row that is updated. -/
inductive RowWrite where
  | goal (row : GoalRecord)
  | work (row : WorkRecord)
  | run (row : RunRow)
  | outcome (row : OutcomeRow)
  | question (row : QuestionRecordSemantic)
  | event (row : SemanticEvent)

def Database.put (db : Database) : RowWrite → Database
  | .goal row => { db with goals := db.goals.put row }
  | .work row => { db with workItems := db.workItems.put row }
  | .run row => { db with runsSemantic := db.runsSemantic.put row }
  | .outcome row => { db with outcomes := db.outcomes.put row }
  | .question row => { db with questionsSemantic := db.questionsSemantic.put row }
  | .event row => { db with semanticEvents := db.semanticEvents.put row }

def Database.replay (db : Database) (writes : List RowWrite) : Database := writes.foldl Database.put db

/-- What a transaction holds until it ends: a row, or an entry of one of the two partial unique
indexes. -/
inductive RowKey where
  | goal (id : GoalId)
  | work (id : WorkId)
  | run (id : RunId)
  | activeRun (id : WorkId)
  | outcome (id : OutcomeId)
  | question (id : QuestionId)
  | pendingQuestion (id : WorkId)
  | event (id : EventId)
  deriving DecidableEq

def RunRow.keys (row : RunRow) : List RowKey :=
  if row.isActive then [.run row.runId, .activeRun row.workId] else [.run row.runId]

def questionKeys (question : QuestionRecordSemantic) : List RowKey :=
  match question.workId with
  | some workId =>
    if question.status = .pending then [.question question.questionId, .pendingQuestion workId]
    else [.question question.questionId]
  | none => [.question question.questionId]

def RowWrite.keys : RowWrite → List RowKey
  | .goal row => [.goal row.goalId]
  | .work row => [.work row.workId]
  | .run row => row.keys
  | .outcome row => [.outcome row.outcomeId]
  | .question row => questionKeys row
  | .event row => [.event row.eventId]

/-! ## Connections -/

/-- What one connection sees and has done in its transaction, and the memory of its process. -/
structure PgState where
  db : Database
  log : List RowWrite
  held : List RowKey
  /-- the keys that the running call has asked for, also those given back with a savepoint -/
  asked : List RowKey
  aborted : Bool
  /-- the dictionary `_RUN_REVISIONS` of the process -/
  runRevisions : InsertionDict RunId ℤ

abbrev PgM := EStateM Exn PgState

/-- One statement: what it returns, the rows it writes and the rows it locks. An error of the server
aborts the transaction, and from then on it refuses every statement. -/
def statement {α : Type} (texts : List String) (run : Database → Except Exn (α × List RowWrite × List RowKey)) : PgM α :=
  fun p =>
    match sendTexts texts with
    | .error e => .error e p
    | .ok () =>
      if p.aborted then
        .error (dbError "InFailedSqlTransaction"
          "current transaction is aborted, commands ignored until end of transaction block") p
      else
        match run p.db with
        | .error e => .error e { p with aborted := true }
        | .ok (a, writes, locks) =>
          let keys := locks ++ writes.flatMap RowWrite.keys
          .ok a { p with db := p.db.replay writes, log := p.log ++ writes
                         held := p.held ++ keys, asked := p.asked ++ keys }

def select {α : Type} (texts : List String) (rows : Database → Except Exn α) : PgM α :=
  statement texts fun db => do
    let a ← rows db
    return (a, [], [])

/-- `SELECT ... FOR UPDATE`. -/
def selectForUpdate {α : Type} (texts : List String) (rows : Database → Except Exn α) (locks : α → List RowKey) : PgM α :=
  statement texts fun db => do
    let a ← rows db
    return (a, [], locks a)

/-- `INSERT`: the row is written when it fits its columns and its constraints. -/
def insertRow (texts : List String) (fits : Database → Except Exn Unit) (row : RowWrite) : PgM Unit :=
  statement texts fun db => do
    fits db
    return ((), [row], [])

/-- `UPDATE ... WHERE ... RETURNING revision`: the new version of the row, if one matches. -/
def updateRow {α : Type} (texts : List String) (updated : Database → Option α)
    (fits : Database → α → Except Exn Unit) (write : α → RowWrite) : PgM (Option α) :=
  statement texts fun db =>
    match updated db with
    | none => return (none, [], [])
    | some a => do
      fits db a
      return (some a, [write a], [])

/-- `async with conn.transaction()`: when the body raises, the connection returns to the savepoint.
The memory of the process does not. -/
def transaction {α : Type} (body : PgM α) : PgM α := fun p =>
  match body p with
  | .ok a p' => .ok a p'
  | .error e p' => .error e { p with runRevisions := p'.runRevisions, asked := p'.asked }

/-- Computations on `_RUN_REVISIONS`, between the awaits. -/
abbrev LocalM := EStateM Exn (InsertionDict RunId ℤ)

def inProcess {α : Type} (x : LocalM α) : PgM α := fun p =>
  match x p.runRevisions with
  | .ok a revisions => .ok a { p with runRevisions := revisions }
  | .error e revisions => .error e { p with runRevisions := revisions }

/-- What the server decides: the order in which a query without ORDER BY finds its rows, and the Works
whose rows other transactions have locked. -/
structure PgServer where
  scan : ∀ {α : Type}, List α → List α
  scan_perm : ∀ {α : Type} (rows : List α), (scan rows).Perm rows
  locked : WorkId → Bool

end AllTomorrow
