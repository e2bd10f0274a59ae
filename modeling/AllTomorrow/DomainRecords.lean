import AllTomorrow.PythonValues

/-!
# Identifiers, statuses and records of the semantic kernel

The dataclasses of `domain/ids.py`, `domain/outcomes.py` and `domain/state.py` and
the event and question records of `storage/semantic_store.py`. A check made in
`__post_init__` is a field of the structure, so every value has passed it; the
constructor that can raise is the function `new` beside it.
-/

namespace AllTomorrow

structure GoalId where
  val : String
  deriving DecidableEq, Repr

structure WorkId where
  val : String
  deriving DecidableEq, Repr

structure RunId where
  val : String
  deriving DecidableEq, Repr

structure EventId where
  val : String
  deriving DecidableEq, Repr

structure OutcomeId where
  val : String
  deriving DecidableEq, Repr

structure QuestionId where
  val : String
  deriving DecidableEq, Repr

def newEventId (env : Supply) : EventId := ⟨env.newId "evt"⟩

def newOutcomeId (env : Supply) : OutcomeId := ⟨env.newId "outc"⟩

def newWorkId (env : Supply) : WorkId := ⟨env.newId "work"⟩

def newRunId (env : Supply) : RunId := ⟨env.newId "run"⟩

def newQuestionId (env : Supply) : QuestionId := ⟨env.newId "q"⟩

/-- The exceptions that reach a caller, one constructor a class, with their text. -/
inductive Exn where
  | storeConflictError (message : String)
  | notFoundError (message : String)
  | executionRefConflictError (message : String)
  | pendingQuestionExistsError (message : String)
  | invariantViolationError (message : String)
  | terminalReviveError (message : String)
  | activeRunLimitExceededError (message : String)
  | missingCompletionEvidenceError (message : String)
  | invalidStateTransitionError (message : String)
  | reconciliationExhaustedError (message : String)
  | valueError (message : String)
  | keyError (key : String)
  | assertionError
  | connectionError (message : String)
  | contractError (message : String)
  | runtimeError (message : String)
  | attributeError (message : String)
  | noWorkerAvailableError (message : String)
  | replanBudgetExceededError (message : String)
  | repairError (message : String)
  | notFound (message : String)
  | deviceError (message : String)
  | deviceTokenInvalidError (message : String)
  | deviceRevokedError (message : String)
  | leaseConflictError (message : String)
  | registrationCodeError (message : String)
  | lateAnswerToTerminalWorkError (message : String)
  | requestError (message : String)
  | materializationError (message : String)
  | decisionValidationError (message : String)
  | cursorConflictError (message : String)
  | permissionError (message : String)
  /-- Any other exception of a component that is called, by the name of its class. -/
  | foreign (kind message : String)
  deriving DecidableEq, Repr

/-- `isinstance(e, InvariantViolationError)`. -/
def Exn.isInvariantViolation : Exn → Bool
  | .invariantViolationError _ | .terminalReviveError _ | .activeRunLimitExceededError _
  | .executionRefConflictError _ | .pendingQuestionExistsError _ | .reconciliationExhaustedError _
  | .lateAnswerToTerminalWorkError _ => true
  | _ => false

/-- `isinstance(e, DomainError)`. -/
def Exn.isDomainError : Exn → Bool
  | .storeConflictError _ | .notFoundError _ | .missingCompletionEvidenceError _ | .invalidStateTransitionError _
  | .noWorkerAvailableError _ | .replanBudgetExceededError _ | .repairError _ | .notFound _ | .deviceError _
  | .deviceTokenInvalidError _ | .deviceRevokedError _ | .leaseConflictError _ | .registrationCodeError _
  | .requestError _ | .materializationError _ | .decisionValidationError _ | .cursorConflictError _ => true
  | e => e.isInvariantViolation

/-- `str(e)`; that of a KeyError is the `repr` of its key. -/
def Exn.text : Exn → String
  | .storeConflictError m | .notFoundError m | .executionRefConflictError m | .pendingQuestionExistsError m
  | .invariantViolationError m | .terminalReviveError m | .activeRunLimitExceededError m
  | .missingCompletionEvidenceError m | .invalidStateTransitionError m | .reconciliationExhaustedError m
  | .valueError m | .connectionError m | .contractError m | .runtimeError m | .attributeError m
  | .noWorkerAvailableError m | .replanBudgetExceededError m | .repairError m | .notFound m | .deviceError m
  | .deviceTokenInvalidError m | .deviceRevokedError m | .leaseConflictError m | .registrationCodeError m
  | .lateAnswerToTerminalWorkError m | .requestError m | .materializationError m | .decisionValidationError m
  | .cursorConflictError m | .permissionError m | .foreign _ m => m
  | .keyError key => "'" ++ key ++ "'"
  | .assertionError => ""

def overflowError (message : String) : Exn := .foreign "OverflowError" message

/-- `timedelta(seconds=seconds)`, in microseconds. -/
def timedelta (seconds : ℤ) : Except Exn ℤ :=
  let days := seconds / 86400
  if days < -2147483648 ∨ 2147483647 < days then .error (overflowError "Python int too large to convert to C int")
  else if days < -999999999 ∨ 999999999 < days then
    .error (overflowError ("days=" ++ toString days ++ "; must have magnitude <= 999999999"))
  else .ok (seconds * 1000000)

/-- `now + delta`, up to the last day of the calendar and back to the first. -/
def addDelta (now : Datetime) (delta : ℤ) : Except Exn Datetime :=
  if now + delta < -62135596800000000 ∨ 253402300799999999 < now + delta then .error (overflowError "date value out of range")
  else .ok (now + delta)

/-- `now + timedelta(seconds=seconds)`. -/
def addSeconds (now : Datetime) (seconds : ℤ) : Except Exn Datetime := do
  let delta ← timedelta seconds
  addDelta now delta

/-! ## Outcomes and evidence -/

inductive TargetType where
  | goal | work | run | experiment | deployment
  deriving DecidableEq, Repr

def TargetType.value : TargetType → String
  | .goal => "GOAL"
  | .work => "WORK"
  | .run => "RUN"
  | .experiment => "EXPERIMENT"
  | .deployment => "DEPLOYMENT"

inductive OutcomeStatus where
  | satisfied | notSatisfied | inconclusive
  deriving DecidableEq, Repr

def OutcomeStatus.value : OutcomeStatus → String
  | .satisfied => "SATISFIED"
  | .notSatisfied => "NOT_SATISFIED"
  | .inconclusive => "INCONCLUSIVE"

/-- Verifiable proof that an outcome was satisfied according to policy. -/
structure CompletionEvidence where
  criterionRef : String
  evaluatorRef : String
  evaluatorVersion : String
  observedValues : PyDict
  evidenceRefs : List String
  artifactRefs : List String
  recordedAt : Datetime
  criterionRef_nonempty : PyText.isBlank criterionRef = false
  evaluatorRef_nonempty : PyText.isBlank evaluatorRef = false
  evaluatorVersion_nonempty : PyText.isBlank evaluatorVersion = false

structure OutcomeRecord where
  outcomeId : OutcomeId
  targetType : TargetType
  targetId : String
  status : OutcomeStatus
  evidence : Option CompletionEvidence
  details : PyDict
  createdAt : Datetime
  targetId_nonempty : PyText.isBlank targetId = false
  evidence_of_satisfied : status = .satisfied → evidence.isSome = true

def OutcomeRecord.new (env : Supply) (outcomeId : OutcomeId) (targetType : TargetType)
    (targetId : String) (status : OutcomeStatus) (evidence : Option CompletionEvidence) : Except Exn OutcomeRecord :=
  if hblank : PyText.isBlank targetId = true then
    .error (.valueError "OutcomeRecord.target_id must be non-empty")
  else if hsat : status = .satisfied ∧ evidence.isSome = false then
    .error (.missingCompletionEvidenceError ("OutcomeRecord for " ++ targetType.value ++ ":" ++ targetId ++
      " marked SATISFIED requires non-null CompletionEvidence"))
  else
    .ok { outcomeId, targetType, targetId, status, evidence,
          details := .empty, createdAt := env.utcNow,
          targetId_nonempty := by simpa using hblank,
          evidence_of_satisfied := by
            intro hs
            by_contra he
            exact hsat ⟨hs, by simpa using he⟩ }

inductive Evidence where
  | completion (evidence : CompletionEvidence)
  | outcome (record : OutcomeRecord)

/-- A value of `metadata`, by what it comes to as `jsonb`. -/
inductive MetadataValue where
  | stored (json : String)
  /-- `json` has no encoding for its type -/
  | unencodable (typeName : String)
  /-- with an integer that is too long to have a text -/
  | unprintable
  /-- with a character that PostgreSQL has no text for -/
  | nulText
  /-- with a NaN or an infinity, which `json` writes and PostgreSQL does not read -/
  | notNumber
  deriving DecidableEq

structure ExecutionRef where
  backend : String
  executionId : String
  executionVersion : ℤ
  attachedAt : Datetime
  metadata : List (String × MetadataValue) := []
  backend_nonempty : PyText.isBlank backend = false
  executionId_nonempty : PyText.isBlank executionId = false
  executionVersion_pos : 1 ≤ executionVersion
  deriving DecidableEq

def ExecutionRef.new (backend executionId : String) (executionVersion : ℤ) (attachedAt : Datetime) :
    Except Exn ExecutionRef :=
  if hb : PyText.isBlank backend = true then
    .error (.valueError "ExecutionRef.backend must be non-empty")
  else if he : PyText.isBlank executionId = true then
    .error (.valueError "ExecutionRef.execution_id must be non-empty")
  else if hv : executionVersion < 1 then
    .error (.valueError "ExecutionRef.execution_version must be >= 1")
  else
    .ok ⟨backend, executionId, executionVersion, attachedAt, [], by simpa using hb, by simpa using he,
      by omega⟩

/-- What identifies an external execution; `_same_ref` compares exactly this. -/
def ExecutionRef.triple (ref : ExecutionRef) : String × String × ℤ :=
  (ref.backend, ref.executionId, ref.executionVersion)

def sameRef (a b : ExecutionRef) : Bool :=
  a.backend = b.backend && a.executionId = b.executionId && a.executionVersion = b.executionVersion

theorem sameRef_iff {a b : ExecutionRef} : sameRef a b = true ↔ a.triple = b.triple := by
  simp [sameRef, ExecutionRef.triple, and_assoc]

@[simp] theorem sameRef_self (a : ExecutionRef) : sameRef a a = true := sameRef_iff.mpr rfl

structure SemanticEvent where
  eventId : EventId
  actor : String
  type : String
  occurredAt : Datetime
  goalId : Option GoalId := none
  workId : Option WorkId := none
  runId : Option RunId := none
  traceId : Option String := none
  externalRef : Option String := none
  payload : PyDict := .empty
  artifactRefs : List String := []
  actor_nonempty : PyText.isBlank actor = false := by decide
  type_nonempty : PyText.isBlank type = false := by decide

inductive QuestionStatus where
  | pending | answered | superseded | cancelled | expired
  deriving DecidableEq, Repr

def QuestionStatus.value : QuestionStatus → String
  | .pending => "PENDING"
  | .answered => "ANSWERED"
  | .superseded => "SUPERSEDED"
  | .cancelled => "CANCELLED"
  | .expired => "EXPIRED"

structure QuestionRecordSemantic where
  questionId : QuestionId
  prompt : String
  status : QuestionStatus := .pending
  workId : Option WorkId := none
  runId : Option RunId := none
  answerRef : Option String := none
  signalCorrelation : Option String := none
  revision : ℤ := 1
  createdAt : Datetime
  updatedAt : Datetime
  answeredAt : Option Datetime := none

inductive GoalStatus where
  | active | waiting | succeeded | failed | cancelRequested | cancelled
  deriving DecidableEq, Repr

def GoalStatus.value : GoalStatus → String
  | .active => "ACTIVE"
  | .waiting => "WAITING"
  | .succeeded => "SUCCEEDED"
  | .failed => "FAILED"
  | .cancelRequested => "CANCEL_REQUESTED"
  | .cancelled => "CANCELLED"

inductive WorkStatus where
  | pending | running | waiting | succeeded | failed | cancelRequested | cancelled
  deriving DecidableEq, Repr

def WorkStatus.value : WorkStatus → String
  | .pending => "PENDING"
  | .running => "RUNNING"
  | .waiting => "WAITING"
  | .succeeded => "SUCCEEDED"
  | .failed => "FAILED"
  | .cancelRequested => "CANCEL_REQUESTED"
  | .cancelled => "CANCELLED"

inductive RunStatus where
  | starting | running | waiting | succeeded | failed | cancelRequested | cancelled
  deriving DecidableEq, Repr

def RunStatus.value : RunStatus → String
  | .starting => "STARTING"
  | .running => "RUNNING"
  | .waiting => "WAITING"
  | .succeeded => "SUCCEEDED"
  | .failed => "FAILED"
  | .cancelRequested => "CANCEL_REQUESTED"
  | .cancelled => "CANCELLED"

structure GoalRecord where
  goalId : GoalId
  userId : String
  title : String
  status : GoalStatus := .active
  completionPolicyRef : Option String := none
  priority : ℤ := 0
  commitment : String := "default"
  revision : ℤ := 1
  createdAt : Datetime
  updatedAt : Datetime
  terminalAt : Option Datetime := none
  deriving DecidableEq

structure WorkRecord where
  workId : WorkId
  goalId : GoalId
  title : String
  status : WorkStatus := .pending
  priority : ℤ := 0
  revision : ℤ := 1
  createdAt : Datetime
  updatedAt : Datetime
  terminalAt : Option Datetime := none
  deriving DecidableEq

/-- Run logical attempt. Work 1:N Run; each Run owns its optional reference. -/
structure RunRecord where
  runId : RunId
  workId : WorkId
  status : RunStatus := .starting
  attemptNumber : ℤ := 1
  executionRef : Option ExecutionRef := none
  createdAt : Datetime
  updatedAt : Datetime
  terminalAt : Option Datetime := none
  deriving DecidableEq

end AllTomorrow
