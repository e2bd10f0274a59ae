import AllTomorrow.RunSnapshots
import AllTomorrow.RaisingState

/-!
# The in-memory run state store

`InMemoryRunStateStore` of `run_store.py`. Every method holds the lock throughout, so a call
is one step. A raw document that a caller passes is stored as it is, not copied: documents
have an identity, and a status that is set in one shows under every version that holds it.
-/

namespace AllTomorrow

namespace Pipeline

inductive QuestionStatus where
  | pending | answered | cancelled | expired
  deriving DecidableEq

/-- `QuestionRecord`, and the mapping that is stored of it. -/
structure QuestionRecord where
  questionId : String
  runId : String
  blockedStep : String
  question : String
  reason : String
  requiredFields : List String
  resumeTokenHash : String
  status : QuestionStatus := .pending
  answer : Option PyEntries := none
  createdAt : Datetime
  answeredAt : Option Datetime := none
  expiresAt : Option Datetime := none

/-- A `(pipeline_id, version)` key; versions are compared as numbers. -/
abbrev SpecKey := String × PyFloat

def PipelineSpec.key (spec : PipelineSpec) : SpecKey := (spec.pipelineId, spec.version.value)

structure RunStateStore where
  runs : InsertionDict String RunSnapshot
  questions : InsertionDict String QuestionRecord
  specs : InsertionDict SpecKey ℕ
  /-- the documents there are, of callers and of the store -/
  documents : List PyEntries

namespace RunStateStore

def new (documents : List PyEntries) : RunStateStore := ⟨.empty, .empty, .empty, documents⟩

def document (s : RunStateStore) (ref : ℕ) : PyEntries := s.documents.getD ref []

/-- `self._specs.get(key)`. -/
def spec? (s : RunStateStore) (key : SpecKey) : Option PyEntries := (s.specs.get? key).map s.document

/-- `document["status"] = status`. -/
def setStatus (s : RunStateStore) (ref : ℕ) (status : String) : RunStateStore :=
  { s with documents := s.documents.modify ref fun d => PyEntries.set d "status" (.str status) }

/-- `document.get("status") == "active"`. -/
def isActive (d : PyEntries) : Bool := (getOrNone d "status").eqv (.str "active")

end RunStateStore

abbrev RunStoreM := EStateM PipelineExn RunStateStore

section Methods

variable (floatRepr : PyFloat → String)

/-! ## Pipelines -/

def conflictingSpec (spec : PipelineSpec) : PipelineExn :=
  .runConflictError ("pipeline spec " ++ spec.pipelineId ++ " already exists with different definition")
    (some spec.version.toObj)

def payloadOf (s : RunStateStore) (spec : PipelineSpec) (raw : Option ℕ) : Except PipelineExn PyEntries :=
  match raw with
  | some ref => .ok (s.document ref)
  | none => pipelineSpecToDict floatRepr spec

/-- `self._specs[key] = payload`. -/
def RunStateStore.withSpec (s : RunStateStore) (key : SpecKey) (raw : Option ℕ) (payload : PyEntries) : RunStateStore :=
  match raw with
  | some ref => { s with specs := s.specs.set key ref }
  | none => { s with specs := s.specs.set key s.documents.length, documents := s.documents ++ [payload] }

/-- A stored definition must be the one of the payload; where there is none yet, the payload is stored. -/
def ensureSpec (spec : PipelineSpec) (raw : Option ℕ) (payload : PyEntries) : RunStoreM Unit := do
  let s ← get
  match s.spec? spec.key with
  | some existing =>
    let same ← MonadExcept.ofExcept (specsEqual existing payload)
    if !same then throw (conflictingSpec spec)
  | none => modify fun s => s.withSpec spec.key raw payload

def savePipeline (spec : PipelineSpec) (raw : Option ℕ) : RunStoreM Unit := do
  let s ← get
  let payload ← MonadExcept.ofExcept (payloadOf floatRepr s spec raw)
  ensureSpec spec raw payload

def retire (spec : PipelineSpec) (s : RunStateStore) (entry : SpecKey × ℕ) : RunStateStore :=
  if entry.1.1 = spec.pipelineId ∧ entry.1.2 ≠ spec.version.value ∧ RunStateStore.isActive (s.document entry.2) = true then
    s.setStatus entry.2 "retired"
  else s

/-- `self._specs[key]["status"] = "active"`, after the loop. -/
def activate (spec : PipelineSpec) (s : RunStateStore) : RunStateStore :=
  let retired := s.specs.entries.foldl (retire spec) s
  match s.specs.get? spec.key with
  | some ref => retired.setStatus ref "active"
  | none => retired

def publishPipeline (spec : PipelineSpec) (raw : Option ℕ) : RunStoreM Unit := do
  let s ← get
  let payload ← MonadExcept.ofExcept (payloadOf floatRepr s spec raw)
  ensureSpec spec raw payload
  if spec.status = .active then modify (activate spec)

def createRun (run : RunRecord) : RunStoreM Unit := do
  let s ← get
  if s.runs.contains run.runId then throw (.runConflictError ("run already exists: " ++ run.runId))
  let payload ← MonadExcept.ofExcept (payloadOf floatRepr s run.spec none)
  ensureSpec run.spec none payload
  let snapshot ← MonadExcept.ofExcept (runRecordToDict floatRepr run)
  modify fun s => { s with runs := s.runs.set run.runId snapshot }

def updateRun (run : RunRecord) (expectedRevision : ℤ) : RunStoreM ℤ := do
  let s ← get
  match s.runs.get? run.runId with
  | none => throw (.contractError ("run not found: " ++ run.runId))
  | some existing =>
    if existing.revision ≠ expectedRevision then
      throw (.runConflictError ("run " ++ run.runId ++ " revision conflict") (some (.int existing.revision)))
    let newRevision := expectedRevision + 1
    let snapshot ← MonadExcept.ofExcept (runRecordToDict floatRepr { run with revision := newRevision })
    modify fun s => { s with runs := s.runs.set run.runId snapshot }
    return newRevision

/-- `pipeline_spec_from_dict(spec_data) if spec_data else None`. -/
def specFromData : Option PyEntries → Except PipelineExn (Option PipelineSpec)
  | none | some [] => .ok none
  | some data => do
      let spec ← pipelineSpecFromDict data
      return some spec

def getRun (runId : String) : RunStoreM (Option RunRecord) := do
  let s ← get
  match s.runs.get? runId with
  | none => return none
  | some snapshot =>
    let spec ← MonadExcept.ofExcept (specFromData (s.spec? (snapshot.pipelineId, snapshot.pipelineVersion.value)))
    let run ← MonadExcept.ofExcept (runRecordFromDict snapshot spec)
    return some run

/-! ## Questions -/

/-- `dict(question.answer) if question.answer is not None else None`, dumped. -/
def copyAnswer : Option PyEntries → Except PipelineExn (Option PyEntries)
  | none => .ok none
  | some answer => do
      let copy ← jsonCopyEntries floatRepr answer
      return some copy

def createQuestion (question : QuestionRecord) : RunStoreM String := do
  let s ← get
  if s.questions.contains question.resumeTokenHash then
    throw (.runConflictError ("question already exists for token hash: " ++ question.resumeTokenHash))
  let answer ← MonadExcept.ofExcept (copyAnswer floatRepr question.answer)
  modify fun s => { s with questions := s.questions.set question.resumeTokenHash { question with answer := answer } }
  return question.questionId

/-- `expires_at and expires_at <= utc_now()`. -/
def QuestionRecord.isExpired (question : QuestionRecord) (now : Datetime) : Bool :=
  question.expiresAt.any fun expiresAt => expiresAt ≤ now

def consumeQuestion (env : Supply) (tokenHash : String) (answer : PyEntries) : RunStoreM (Option QuestionRecord) := do
  let s ← get
  match s.questions.get? tokenHash with
  | none => return none
  | some data =>
    if data.status ≠ .pending then return none
    else if data.isExpired (env.sub 0).utcNow then return none
    else
      let now := (env.sub 1).utcNow
      modify fun s => { s with questions := s.questions.set tokenHash { data with status := .answered } }
      let copy ← MonadExcept.ofExcept (jsonCopyEntries floatRepr answer)
      let answered := { data with status := .answered, answer := some copy, answeredAt := some now }
      modify fun s => { s with questions := s.questions.set tokenHash answered }
      return some answered

/-- One question of `cancel_pending_questions`. -/
def cancelQuestion (runId : String) (questions : InsertionDict String QuestionRecord)
    (entry : String × QuestionRecord) : InsertionDict String QuestionRecord :=
  if entry.2.runId = runId ∧ entry.2.status = .pending then questions.set entry.1 { entry.2 with status := .cancelled }
  else questions

def cancelPendingQuestions (runId : String) : RunStoreM Unit :=
  modify fun s => { s with questions := s.questions.entries.foldl (cancelQuestion runId) s.questions }

def invalidToken : PipelineExn := .contractError "invalid or already-used resume token"

/-- The checks of `resume_run` on the question. -/
def resumableQuestion (env : Supply) (tokenHash : String) (answer : PyEntries) (s : RunStateStore) :
    Except PipelineExn QuestionRecord :=
  match s.questions.get? tokenHash with
  | none => .error invalidToken
  | some question =>
    if question.status ≠ .pending then .error invalidToken
    else if question.isExpired (env.sub 0).utcNow then .error invalidToken
    else
      let missing := question.requiredFields.filter fun field => (answer.get? field).isNone
      if missing ≠ [] then
        .error (.contractError ("missing required answer fields: " ++ ", ".intercalate missing))
      else .ok question

/-- The checks of `resume_run` on the run. -/
def resumableRun (question : QuestionRecord) (s : RunStateStore) : Except PipelineExn (RunSnapshot × PipelineSpec) :=
  match s.runs.get? question.runId with
  | none => .error (.contractError ("run not found for question: " ++ question.runId))
  | some snapshot =>
    if snapshot.status ≠ .needUser then .error (.contractError "run is not waiting for user input")
    else if snapshot.currentStepId ≠ question.blockedStep then
      .error (.contractError ("resume step mismatch: run is at " ++ snapshot.currentStepId ++ ", question blocked "
        ++ question.blockedStep))
    else do
      let spec ← specFromData (s.spec? (snapshot.pipelineId, snapshot.pipelineVersion.value))
      match spec with
      | none => .error (.contractError "invalid pipeline spec version")
      -- a spec has a version of at least 1
      | some spec => return (snapshot, spec)

def RunSnapshot.withVariables (snapshot : RunSnapshot) (contextVariables : PyEntries) : RunSnapshot :=
  { snapshot with context := { snapshot.context with contextVariables := contextVariables } }

/-- `answers[current_step_id] = dict(answer)`. A mapping of earlier answers is the one in the stored snapshot, which
the record shares. -/
def writeAnswer (runId : String) (snapshot : RunSnapshot) (answer : PyEntries) : RunStoreM PyEntries :=
  match snapshot.context.contextVariables.get? "user_answers" with
  | none =>
      return snapshot.context.contextVariables.set "user_answers" (.dict [(.str snapshot.currentStepId, .dict answer)])
  | some (.dict earlier) => do
      let contextVariables := snapshot.context.contextVariables.set "user_answers"
        (.dict (PyEntries.set earlier snapshot.currentStepId (.dict answer)))
      modify fun s => { s with runs := s.runs.set runId (snapshot.withVariables contextVariables) }
      return contextVariables
  | some _ => throw (.typeError "object does not support item assignment")

def resumeRun (env : Supply) (tokenHash : String) (answer : PyObj) : RunStoreM RunRecord :=
  match answer with
  | .dict answer => do
      let s ← get
      let question ← MonadExcept.ofExcept (resumableQuestion env tokenHash answer s)
      let (snapshot, spec) ← MonadExcept.ofExcept (resumableRun question s)
      let now := (env.sub 1).utcNow
      let record ← MonadExcept.ofExcept (runRecordFromDict snapshot (some spec))
      let contextVariables ← writeAnswer question.runId snapshot answer
      let resumed := { record with
        context := { record.context with contextVariables := contextVariables }
        status := .running, question := none, revision := record.revision + 1 }
      let updated ← MonadExcept.ofExcept (runRecordToDict floatRepr resumed)
      let copy ← MonadExcept.ofExcept (jsonCopyEntries floatRepr answer)
      let answered := { question with status := .answered, answer := some copy, answeredAt := some now }
      modify fun s =>
        { s with questions := s.questions.set tokenHash answered, runs := s.runs.set question.runId updated }
      return resumed
  | _ => throw (.contractError "answer must be a dictionary")

end Methods

end Pipeline

end AllTomorrow
