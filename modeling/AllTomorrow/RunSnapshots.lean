import AllTomorrow.IsoTimestamps
import AllTomorrow.PipelineContracts
import Mathlib.Data.Finset.Sort
import Mathlib.Data.String.Basic

/-!
# Run records and their snapshots

`RequestEnvelope`, `ExecutionContext` and `UserQuestion` of `contracts.py`, `RunRecord` of
`run_store.py`, and the mappings that `run_record_to_dict` makes of them and
`run_record_from_dict` reads. A mapping with fixed keys is a structure; what a mapping
holds of arbitrary objects has passed through JSON.
-/

namespace AllTomorrow

namespace Pipeline

open IsoTimestamps (Timestamp)

/-! ## Records -/

structure RequestEnvelope where
  message : String
  source : String
  requestId : String
  receivedAt : Timestamp
  attachments : List String
  sessionRef : Option String
  edgeAnalysis : PyEntries
  candidateProjectId : Option String
  centralReason : Option String
  message_text : ¬PyText.isBlank message = true
  source_text : ¬PyText.isBlank source = true
  requestId_text : ¬PyText.isBlank requestId = true

structure UserQuestion where
  question : String
  reason : String
  blockedStep : String
  requiredFields : List String
  resumeToken : Option String
  question_text : ¬PyText.isBlank question = true
  reason_text : ¬PyText.isBlank reason = true
  blockedStep_text : ¬PyText.isBlank blockedStep = true
  requiredFields_ne : ¬requiredFields = []
  requiredFields_text : ∀ field ∈ requiredFields, ¬PyText.isBlank field = true

def UserQuestion.withResumeToken (question : UserQuestion) (token : Option String) : UserQuestion :=
  { question with resumeToken := token }

structure ExecutionContext where
  request : RequestEnvelope
  userRef : String
  traceId : String
  projectRef : Option String
  sessionRef : Option String
  memoryRefs : List String
  artifactRefs : List String
  contextVariables : PyEntries
  budget : PyEntries
  permissions : Finset String
  userRef_text : ¬PyText.isBlank userRef = true
  traceId_text : ¬PyText.isBlank traceId = true

inductive RunStatus where
  | running | waiting | needUser | succeeded | failed | cancelled
  deriving DecidableEq

structure RunRecord where
  runId : String
  spec : PipelineSpec
  context : ExecutionContext
  currentStepId : String
  outputs : PyEntries
  attempts : InsertionDict String ℤ
  status : RunStatus
  question : Option UserQuestion
  error : Option String
  revision : ℤ

/-! ## Snapshots -/

structure RequestSnapshot where
  message : String
  source : String
  requestId : String
  receivedAt : String
  attachments : List String
  sessionRef : Option String
  edgeAnalysis : PyEntries
  candidateProjectId : Option String
  centralReason : Option String

structure ContextSnapshot where
  request : RequestSnapshot
  userRef : String
  traceId : String
  projectRef : Option String
  sessionRef : Option String
  memoryRefs : List String
  artifactRefs : List String
  contextVariables : PyEntries
  budget : PyEntries
  permissions : List String

structure QuestionSnapshot where
  question : String
  reason : String
  blockedStep : String
  requiredFields : List String

structure RunSnapshot where
  runId : String
  requestId : String
  traceId : String
  userId : String
  projectId : Option String
  sessionId : Option String
  pipelineId : String
  pipelineVersion : PyNumber
  status : RunStatus
  currentStepId : String
  context : ContextSnapshot
  outputs : PyEntries
  attempts : InsertionDict String ℤ
  error : Option String
  revision : ℤ
  question : Option QuestionSnapshot
  spec : PyEntries

instance stringLe_trans : IsTrans String (· ≤ ·) := inferInstance

instance stringLe_antisymm : Std.Antisymm ((· ≤ ·) : String → String → Prop) := inferInstance

section ToDict

variable (floatRepr : PyFloat → String)

/-- `execution_context_to_dict`. -/
def executionContextToDict (context : ExecutionContext) : Except PipelineExn ContextSnapshot := do
  let edgeAnalysis ← jsonCopyEntries floatRepr context.request.edgeAnalysis
  let contextVariables ← jsonCopyEntries floatRepr context.contextVariables
  let budget ← jsonCopyEntries floatRepr context.budget
  return {
    request :=
      { message := context.request.message, source := context.request.source
        requestId := context.request.requestId, receivedAt := context.request.receivedAt.isoformat
        attachments := context.request.attachments, sessionRef := context.request.sessionRef
        edgeAnalysis := edgeAnalysis, candidateProjectId := context.request.candidateProjectId
        centralReason := context.request.centralReason }
    userRef := context.userRef
    traceId := context.traceId
    projectRef := context.projectRef
    sessionRef := context.sessionRef
    memoryRefs := context.memoryRefs
    artifactRefs := context.artifactRefs
    contextVariables := contextVariables
    budget := budget
    permissions := context.permissions.sort (· ≤ ·) }

/-- `user_question_to_dict`. -/
def userQuestionToDict (question : UserQuestion) : QuestionSnapshot where
  question := question.question
  reason := question.reason
  blockedStep := question.blockedStep
  requiredFields := question.requiredFields

def intTexts : List (String × ℤ) → Except PipelineExn Unit
  | [] => .ok ()
  | (_, n) :: rest => do
      let _ ← intText n
      intTexts rest

/-- `run_record_to_dict`. The context and the spec have been dumped already, and dumping them once more changes
nothing. -/
def runRecordToDict (run : RunRecord) : Except PipelineExn RunSnapshot := do
  let context ← executionContextToDict floatRepr run.context
  let spec ← pipelineSpecToDict floatRepr run.spec
  let outputs ← jsonCopyEntries floatRepr run.outputs
  intTexts run.attempts.entries
  let _ ← intText run.revision
  return {
    runId := run.runId
    requestId := run.context.request.requestId
    traceId := run.context.traceId
    userId := run.context.userRef
    projectId := run.context.projectRef
    sessionId := run.context.sessionRef
    pipelineId := run.spec.pipelineId
    pipelineVersion := run.spec.version
    status := run.status
    currentStepId := run.currentStepId
    context := context
    outputs := outputs
    attempts := run.attempts
    error := run.error
    revision := run.revision
    question := run.question.map userQuestionToDict
    spec := spec }

end ToDict

/-! ## Reading snapshots -/

theorem text_required (s : { s : String // ¬PyText.isBlank s = true }) : ¬PyText.isBlank s.val = true := s.property

def RequestEnvelope.new (message source requestId : String) (receivedAt : Timestamp) (attachments : List String)
    (sessionRef : Option String) (edgeAnalysis : PyEntries) (candidateProjectId centralReason : Option String) :
    Except PipelineExn RequestEnvelope := do
  let message ← requireText (.str message) "request.message"
  let source ← requireText (.str source) "request.source"
  let requestId ← requireText (.str requestId) "request.request_id"
  return ⟨message.val, source.val, requestId.val, receivedAt, attachments, sessionRef, edgeAnalysis, candidateProjectId,
    centralReason, text_required message, text_required source, text_required requestId⟩

def ExecutionContext.new (request : RequestEnvelope) (userRef traceId : String) (projectRef sessionRef : Option String)
    (memoryRefs artifactRefs : List String) (contextVariables budget : PyEntries) (permissions : Finset String) :
    Except PipelineExn ExecutionContext := do
  let userRef ← requireText (.str userRef) "execution_context.user_ref"
  let traceId ← requireText (.str traceId) "execution_context.trace_id"
  return ⟨request, userRef.val, traceId.val, projectRef, sessionRef, memoryRefs, artifactRefs, contextVariables, budget,
    permissions, text_required userRef, text_required traceId⟩

/-- `execution_context_from_dict`. -/
def executionContextFromDict (data : ContextSnapshot) : Except PipelineExn ExecutionContext :=
  match Timestamp.fromisoformat data.request.receivedAt with
  | none => .error (.valueError "Invalid isoformat string")
  | some receivedAt => do
      let request ← RequestEnvelope.new data.request.message data.request.source data.request.requestId receivedAt
        data.request.attachments data.request.sessionRef data.request.edgeAnalysis data.request.candidateProjectId
        data.request.centralReason
      ExecutionContext.new request data.userRef data.traceId data.projectRef data.sessionRef data.memoryRefs
        data.artifactRefs data.contextVariables data.budget data.permissions.toFinset

def checkFields : ℕ → List String → Except PipelineExn Unit
  | _, [] => .ok ()
  | index, field :: fields => do
      let _ ← requireText (.str field) ("user_question.required_fields[" ++ toString index ++ "]")
      checkFields (index + 1) fields

theorem text_of_checkFields {fields : List String} {index : ℕ} (h : checkFields index fields = .ok ()) :
    ∀ field ∈ fields, ¬PyText.isBlank field = true := by
  induction fields generalizing index with
  | nil => simp
  | cons field fields ih =>
    rw [checkFields] at h
    by_cases hblank : PyText.isBlank field = true
    · rw [requireText, dif_pos hblank] at h
      cases h
    · rw [requireText, dif_neg hblank] at h
      exact List.forall_mem_cons.mpr ⟨hblank, ih h⟩

def UserQuestion.new (question reason blockedStep : String) (requiredFields : List String)
    (resumeToken : Option String) : Except PipelineExn UserQuestion := do
  let question ← requireText (.str question) "user_question.question"
  let reason ← requireText (.str reason) "user_question.reason"
  let blockedStep ← requireText (.str blockedStep) "user_question.blocked_step"
  if hfields : requiredFields = [] then throw (.contractError "user_question.required_fields must not be empty")
  else
    match hcheck : checkFields 0 requiredFields with
    | .error e => throw e
    | .ok () =>
      return ⟨question.val, reason.val, blockedStep.val, requiredFields, resumeToken, text_required question,
        text_required reason, text_required blockedStep, hfields, text_of_checkFields hcheck⟩

/-- `user_question_from_dict`. -/
def userQuestionFromDict (data : QuestionSnapshot) : Except PipelineExn UserQuestion :=
  UserQuestion.new data.question data.reason data.blockedStep data.requiredFields none

def questionFromDict : Option QuestionSnapshot → Except PipelineExn (Option UserQuestion)
  | none => .ok none
  | some data => do
      let question ← userQuestionFromDict data
      return some question

/-- `run_record_from_dict`. -/
def runRecordFromDict (data : RunSnapshot) (spec : Option PipelineSpec) : Except PipelineExn RunRecord := do
  let spec ← match spec with
    | some spec => .ok spec
    | none => pipelineSpecFromDict data.spec
  let context ← executionContextFromDict data.context
  let question ← questionFromDict data.question
  return {
    runId := data.runId
    spec := spec
    context := context
    currentStepId := data.currentStepId
    outputs := data.outputs
    attempts := data.attempts
    status := data.status
    question := question
    error := data.error
    revision := data.revision }

end Pipeline

end AllTomorrow
