import AllTomorrow.ResumptionPrograms
import AllTomorrow.RunStateStore

/-!
# The pipeline runtime

`PipelineRuntime` of `runtime.py`: `start`, `resume`, `cancel` and the loop `_drive` with
its conditions, references, retries, routes and hints. A call of the store is one request,
and so is every stretch that runs code from outside: a node, and the evaluation of a
condition or of references, which calls methods of the objects that it meets. The event
sink only collects, and is left out; what is checked of an event is not.
-/

namespace AllTomorrow

namespace Pipeline

/-! ## Objects -/

/-- What the language does with an object of any class, whose methods may be code of its own. -/
structure Objects where
  /-- `str(value)` -/
  str : PyObj → Except PipelineExn String
  /-- `repr(value)` -/
  repr : PyObj → Except PipelineExn String
  /-- the truth of `a == b` -/
  equals : PyObj → PyObj → Except PipelineExn Bool
  /-- `getattr(value, name)`, if `hasattr(value, name)` -/
  getAttr : PyObj → String → Except PipelineExn (Option PyObj)

/-- `str(value)`; a text is its own. -/
def Objects.text (objects : Objects) : PyObj → Except PipelineExn String
  | .str s => .ok s
  | value => objects.str value

inductive NodeStatus where
  | success | failed | retry | waiting | needUser | cancelled
  deriving DecidableEq

def NodeStatus.value : NodeStatus → String
  | .success => "SUCCESS"
  | .failed => "FAILED"
  | .retry => "RETRY"
  | .waiting => "WAITING"
  | .needUser => "NEED_USER"
  | .cancelled => "CANCELLED"

structure NodeResult where
  status : NodeStatus
  output : PyObj
  artifacts : List String
  events : List PyObj
  nextHint : PyObj
  userQuestion : Option UserQuestion
  error : Option String
  asks : status = .needUser ↔ userQuestion.isSome = true
  explains : status = .failed → ∃ text, error = some text ∧ text ≠ ""

inductive NodeReply where
  | returns (result : NodeResult)
  /-- an `Exception`, with the name of its class and `str(error)` -/
  | raises (name : String) (text : Except PipelineExn String)
  /-- an exception that is no `Exception`, such as a cancellation of the task -/
  | aborts (e : PipelineExn)

/-! ## References -/

section References

variable (objects : Objects)

def requestObject (request : RequestEnvelope) : PyObj :=
  .object
    [("message", .str request.message), ("source", .str request.source), ("request_id", .str request.requestId),
      ("received_at", .datetime request.receivedAt.isoformat), ("attachments", .tuple (request.attachments.map .str)),
      ("session_ref", (request.sessionRef.map PyObj.str).getD .none), ("edge_analysis", .dict request.edgeAnalysis),
      ("candidate_project_id", (request.candidateProjectId.map PyObj.str).getD .none),
      ("central_reason", (request.centralReason.map PyObj.str).getD .none)]

def contextObject (context : ExecutionContext) : PyObj :=
  .object
    [("request", requestObject context.request), ("user_ref", .str context.userRef), ("trace_id", .str context.traceId),
      ("project_ref", (context.projectRef.map PyObj.str).getD .none),
      ("session_ref", (context.sessionRef.map PyObj.str).getD .none),
      ("memory_refs", .list (context.memoryRefs.map .str)), ("artifact_refs", .list (context.artifactRefs.map .str)),
      ("variables", .dict context.contextVariables), ("budget", .dict context.budget),
      ("permissions", .set ((context.permissions.sort (· ≤ ·)).map .str))]

/-- The names that a reference may start with; the steps come last and may replace the others. -/
def lookupRoot (run : RunRecord) : Except PipelineExn PyEntries :=
  let root : PyEntries :=
    [(.str "request", requestObject run.context.request), (.str "context", contextObject run.context),
      (.str "variables", .dict run.context.contextVariables)]
  match (run.context.contextVariables.get? "steps").getD (.dict []) with
  | .dict steps => .ok (steps.foldl (fun es e => setItem es e.1 e.2) root)
  | _ => .error (.typeError "object is not a mapping")

/-- `getattr(current, part)`, or the error of the reference. -/
def lookupAttr (path : String) (current : PyObj) (part : String) : Except PipelineExn PyObj := do
  match ← objects.getAttr current part with
  | some value => return value
  | none => throw (.contractError ("unresolved pipeline reference: $\x7b" ++ path ++ "\x7d"))

def lookupPart (path : String) (current : PyObj) (part : String) : Except PipelineExn PyObj :=
  match current with
  | .dict entries =>
      match PyEntries.get? entries part with
      | some value => .ok value
      | none => lookupAttr objects path current part
  | _ => lookupAttr objects path current part

def lookupParts (path : String) : PyObj → List String → Except PipelineExn PyObj
  | current, [] => .ok current
  | current, part :: parts => do
      let current ← lookupPart objects path current part
      lookupParts path current parts

/-- `_lookup`. -/
def lookup (path : String) (run : RunRecord) : Except PipelineExn PyObj := do
  let root ← lookupRoot run
  lookupParts objects path (.dict root) (path.splitOn ".")

/-- The path of a reference that starts here, and how many characters it takes. -/
def referenceAt : List Char → Option (String × ℕ)
  | '$' :: '\x7b' :: rest =>
      let path := rest.takeWhile (· ≠ '\x7d')
      if path.isEmpty || path.length = rest.length then none else some (String.ofList path, path.length + 3)
  | _ => none

/-- The path of a text that is one reference, maybe before a line break. -/
def fullReference (text : String) : Option String :=
  match referenceAt text.toList with
  | some (path, n) =>
      let rest := text.toList.drop n
      if rest = [] ∨ rest = ['\n'] then some path else none
  | none => none

/-- `_INLINE_REFERENCE.sub`; the characters of the last reference are passed over. -/
def substitute (run : RunRecord) : List Char → ℕ → Except PipelineExn String
  | [], _ => .ok ""
  | _ :: rest, skip + 1 => substitute run rest skip
  | c :: rest, 0 =>
      match referenceAt (c :: rest) with
      | some (path, n) => do
          let value ← lookup objects path run
          let text ← objects.text value
          let after ← substitute run rest (n - 1)
          return text ++ after
      | none => do
          let after ← substitute run rest 0
          return c.toString ++ after

mutual

/-- `_resolve`. -/
def resolve (run : RunRecord) : PyObj → Except PipelineExn PyObj
  | .dict entries => return .dict (← resolveEntries run entries)
  | .list xs => return .list (← resolveList run xs)
  | .str text =>
      match fullReference text with
      | some path => lookup objects path run
      | none => return .str (← substitute objects run text.toList 0)
  | value => .ok value

def resolveList (run : RunRecord) : List PyObj → Except PipelineExn (List PyObj)
  | [] => .ok []
  | x :: xs => do
      let x ← resolve run x
      let xs ← resolveList run xs
      return x :: xs

def resolveEntries (run : RunRecord) : List (PyObj × PyObj) → Except PipelineExn (List (PyObj × PyObj))
  | [] => .ok []
  | (k, v) :: es => do
      let v ← resolve run v
      let es ← resolveEntries run es
      return (k, v) :: es

end

def resolveStep (step : PipelineStep) (run : RunRecord) : Except PipelineExn (PyEntries × PyEntries) := do
  let inputs ← resolveEntries objects run step.inputs
  let config ← resolveEntries objects run step.config
  return (inputs, if (PyEntries.get? config "step_id").isSome then config
    else PyEntries.set config "step_id" (.str step.id))

/-- `_condition_matches`. -/
def conditionMatches (condition : PyObj) (run : RunRecord) : Except PipelineExn Bool :=
  match condition with
  | .none => .ok true
  | .dict entries =>
      match entries.length, PyEntries.get? entries "ref", PyEntries.get? entries "equals" with
      | 2, some ref, some value => do
          let path ← objects.text ref
          let actual ← lookup objects path run
          objects.equals actual value
      | _, _, _ => .error (.contractError "step.when must contain exactly ref and equals")
  | _ => .error (.contractError "step.when must contain exactly ref and equals")

end References

structure Visit where
  run : RunRecord
  step : PipelineStep
  config : PyEntries
  inputs : PyEntries

inductive RuntimeRequest where
  | createRun (run : RunRecord)
  | updateRun (run : RunRecord) (expectedRevision : ℤ)
  | getRun (runId : String)
  | createQuestion (question : QuestionRecord)
  | cancelPendingQuestions (runId : String)
  | resumeRun (env : Supply) (tokenHash : String) (answer : PyObj)
  | conditionMatches (step : PipelineStep) (run : RunRecord)
  | resolve (step : PipelineStep) (run : RunRecord)
  | node (visit : Visit)

abbrev RuntimeAnswer : RuntimeRequest → Type
  | .createRun _ | .cancelPendingQuestions _ => Except PipelineExn Unit
  | .updateRun _ _ => Except PipelineExn ℤ
  | .getRun _ => Except PipelineExn (Option RunRecord)
  | .createQuestion _ => Except PipelineExn String
  | .resumeRun _ _ _ => Except PipelineExn RunRecord
  | .conditionMatches _ _ => Except PipelineExn Bool
  | .resolve _ _ => Except PipelineExn (PyEntries × PyEntries)
  | .node _ => NodeReply

abbrev RuntimeM := ExceptT PipelineExn (Prog RuntimeRequest RuntimeAnswer)

namespace RuntimeM

def createRun (run : RunRecord) : RuntimeM Unit := ExceptT.mk (.act (.createRun run) .done)

def updateRun (run : RunRecord) (expectedRevision : ℤ) : RuntimeM ℤ :=
  ExceptT.mk (.act (.updateRun run expectedRevision) .done)

def getRun (runId : String) : RuntimeM (Option RunRecord) := ExceptT.mk (.act (.getRun runId) .done)

def createQuestion (question : QuestionRecord) : RuntimeM String := ExceptT.mk (.act (.createQuestion question) .done)

def cancelPendingQuestions (runId : String) : RuntimeM Unit := ExceptT.mk (.act (.cancelPendingQuestions runId) .done)

def resumeRun (env : Supply) (tokenHash : String) (answer : PyObj) : RuntimeM RunRecord :=
  ExceptT.mk (.act (.resumeRun env tokenHash answer) .done)

def conditionMatches (step : PipelineStep) (run : RunRecord) : RuntimeM (Except PipelineExn Bool) :=
  ExceptT.mk (.act (.conditionMatches step run) fun r => .done (.ok r))

def resolve (step : PipelineStep) (run : RunRecord) : RuntimeM (Except PipelineExn (PyEntries × PyEntries)) :=
  ExceptT.mk (.act (.resolve step run) fun r => .done (.ok r))

def node (visit : Visit) : RuntimeM NodeReply := ExceptT.mk (.act (.node visit) fun r => .done (.ok r))

end RuntimeM

/-! ## The loop -/

structure RunResult where
  runId : String
  traceId : String
  pipelineId : String
  pipelineVersion : PyNumber
  status : RunStatus
  outputs : PyEntries
  question : Option UserQuestion
  error : Option String

/-- `_result`. -/
def RunRecord.result (run : RunRecord) : RunResult where
  runId := run.runId
  traceId := run.context.traceId
  pipelineId := run.spec.pipelineId
  pipelineVersion := run.spec.version
  status := run.status
  outputs := run.outputs
  question := run.question
  error := run.error

/-- `f"{version}"`. -/
def numberText (floatRepr : PyFloat → String) : PyNumber → Except PipelineExn String
  | .bool b => .ok (if b then "True" else "False")
  | .int n => intText n
  | .float x => .ok (floatRepr x)

/-- `spec.identity`. -/
def PipelineSpec.identity (floatRepr : PyFloat → String) (spec : PipelineSpec) : Except PipelineExn String := do
  let version ← numberText floatRepr spec.version
  return spec.pipelineId ++ "@" ++ version

/-- `ordered_ids`, the keys of `step_by_id`. -/
def PipelineSpec.stepIds (spec : PipelineSpec) : List String := spec.steps.map PipelineStep.id

/-- `_default_next`: the step after this one. -/
def PipelineSpec.defaultNext (spec : PipelineSpec) (step : PipelineStep) : Option String :=
  spec.stepIds[spec.stepIds.idxOf step.id + 1]?

/-- The message of a `ContractError`. -/
def contractText : PipelineExn → Option String
  | .contractError message _ | .runConflictError message _ => some message
  | _ => none

/-- `text or default`. -/
def textOr (text : Option String) (default : String) : String :=
  match text with
  | some "" | none => default
  | some text => text

/-- `q <= x`. -/
def atLeast (x : PyFloat) (q : ℚ) : Bool :=
  match x with
  | .finite p => q ≤ p
  | .infinity negative => !negative
  | .nan => false

/-- The values of `Actor`. -/
def actors : List String := ["user", "edge_agent", "orchestrator", "agent", "tool", "scheduler", "system"]

section Drive

variable (floatRepr : PyFloat → String) (objects : Objects)

/-- One event of a node: what the run fails with, if the event is not well formed. -/
def checkEvent (spec : PipelineSpec) (step : PipelineStep) : PyObj → Except PipelineExn (Option String)
  | .dict event =>
      match getOrNone event "type" with
      | .str type =>
        if PyText.isBlank type then do
          let shown ← objects.repr (.str type)
          return some ("node " ++ step.id ++ " emitted event with invalid type: " ++ shown)
        else
          match (PyEntries.get? event "actor").getD (.str "agent") with
          | .str actor =>
            if actor ∈ actors then
              match (PyEntries.get? event "metadata").getD (.dict []) with
              | .dict _ => do
                  -- the metadata names the pipeline, and the references are made a tuple
                  let _ ← spec.identity floatRepr
                  let _ ← iterate ((PyEntries.get? event "artifact_refs").getD (.tuple []))
                  return none
              | _ => return some ("node " ++ step.id ++ " emitted event with non-dict metadata")
            else do
              let shown ← objects.repr (.str actor)
              return some ("node " ++ step.id ++ " emitted event with invalid actor: " ++ shown)
          | actor => do
              let shown ← objects.repr actor
              return some ("node " ++ step.id ++ " emitted event with invalid actor: " ++ shown)
      | type => do
          let shown ← objects.repr type
          return some ("node " ++ step.id ++ " emitted event with invalid type: " ++ shown)
  | _ => .ok (some ("node " ++ step.id ++ " emitted non-dict event"))

def checkEvents (spec : PipelineSpec) (step : PipelineStep) : List PyObj → Except PipelineExn (Option String)
  | [] => .ok none
  | event :: events => do
      match ← checkEvent floatRepr objects spec step event with
      | some message => return some message
      | none => checkEvents spec step events

/-- `update_run` and the result. -/
def finish (run : RunRecord) : RuntimeM RunResult := do
  let revision ← RuntimeM.updateRun run run.revision
  return RunRecord.result { run with revision := revision }

/-- `_succeed`. -/
def succeed (run : RunRecord) : RuntimeM RunResult := finish { run with status := .succeeded }

/-- `_fail`. -/
def fail (run : RunRecord) (error : String) : RuntimeM RunResult :=
  finish { run with status := .failed, error := some error }

/-- A `ContractError` fails the run, any other exception is not handled. -/
def failOrRaise (run : RunRecord) (e : PipelineExn) : RuntimeM RunResult :=
  match contractText e with
  | some message => fail run message
  | none => throw e

/-- `update_run` before the next round. -/
def proceed (next : RunRecord → RuntimeM RunResult) (run : RunRecord) : RuntimeM RunResult := do
  let revision ← RuntimeM.updateRun run run.revision
  next { run with revision := revision }

def skip (next : RunRecord → RuntimeM RunResult) (run : RunRecord) (step : PipelineStep) : RuntimeM RunResult :=
  match run.spec.defaultNext step with
  | none => succeed run
  | some id => proceed next { run with currentStepId := id }

def retry (next : RunRecord → RuntimeM RunResult) (run : RunRecord) (step : PipelineStep) (error : Option String) :
    RuntimeM RunResult :=
  let attempts := (run.attempts.get? step.id).getD 0 + 1
  let run := { run with attempts := run.attempts.set step.id attempts }
  if atLeast step.maxRetries.value attempts then proceed next run
  else fail run (textOr error ("step " ++ step.id ++ " exhausted retries"))

def questionRecord (env : Supply) (run : RunRecord) (step : PipelineStep) (question : UserQuestion)
    (tokenHash : String) : QuestionRecord where
  questionId := (env.sub 1).newId "question"
  runId := run.runId
  blockedStep := step.id
  question := question.question
  reason := question.reason
  requiredFields := question.requiredFields
  resumeTokenHash := tokenHash
  createdAt := (env.sub 2).utcNow

def askUser (hashToken : String → String) (env : Supply) (run : RunRecord) (step : PipelineStep)
    (question : UserQuestion) : RuntimeM RunResult := do
  let token := (env.sub 0).newId "resume"
  let run := { run with status := .needUser, question := some (question.withResumeToken none) }
  let _ ← RuntimeM.createQuestion (questionRecord env run step question (hashToken token))
  let revision ← RuntimeM.updateRun run run.revision
  return { RunRecord.result { run with revision := revision } with
    question := some (question.withResumeToken (some token)) }

/-- `variables.setdefault("steps", {})[step.id] = {"output": output}`. -/
def withStepOutput (contextVariables : PyEntries) (step : PipelineStep) (output : PyObj) : Except PipelineExn PyEntries :=
  let entry : PyObj := .dict [(.str "output", output)]
  match contextVariables.get? "steps" with
  | none => .ok (contextVariables.set "steps" (.dict [(.str step.id, entry)]))
  | some (.dict steps) => .ok (contextVariables.set "steps" (.dict (PyEntries.set steps step.id entry)))
  | some _ => .error (.typeError "object does not support item assignment")

def RunRecord.withOutput (run : RunRecord) (step : PipelineStep) (result : NodeResult) (contextVariables : PyEntries) :
    RunRecord :=
  { run with
    outputs := PyEntries.set run.outputs step.id result.output
    context := { run.context with
      contextVariables := contextVariables, artifactRefs := run.context.artifactRefs ++ result.artifacts } }

inductive Target where
  | done
  | step (id : String)
  | unknown (message : String)

/-- `step.on_status.get(status) or result.next_hint or step.next_step`, and the default. -/
def chooseTarget (spec : PipelineSpec) (step : PipelineStep) (result : NodeResult) : Except PipelineExn Target :=
  match orElse (getOrNone step.onStatus result.status.value) (orElse result.nextHint step.nextStep) with
  | .none =>
      match spec.defaultNext step with
      | none => .ok .done
      | some id => .ok (.step id)
  | .str id =>
      if id ∈ spec.stepIds then .ok (.step id)
      else do
        let shown ← objects.repr (.str id)
        return .unknown ("step " ++ step.id ++ " selected unknown target " ++ shown)
  | target =>
      if hashable target then do
        let shown ← objects.repr target
        return .unknown ("step " ++ step.id ++ " selected unknown target " ++ shown)
      else .error (.typeError "unhashable type")

def advance (next : RunRecord → RuntimeM RunResult) (run : RunRecord) (step : PipelineStep) (result : NodeResult) :
    RuntimeM RunResult := do
  let contextVariables ← MonadExcept.ofExcept (withStepOutput run.context.contextVariables step result.output)
  let run := run.withOutput step result contextVariables
  match ← MonadExcept.ofExcept (chooseTarget objects run.spec step result) with
  | .done => succeed run
  | .unknown message => fail run message
  | .step id => proceed next { run with currentStepId := id }

variable (hashToken : String → String)

def settle (env : Supply) (next : RunRecord → RuntimeM RunResult) (run : RunRecord) (step : PipelineStep)
    (result : NodeResult) : RuntimeM RunResult :=
  match result.status with
  | .retry => retry next run step result.error
  | .needUser =>
      match result.userQuestion with
      | some question => askUser hashToken env run step question
      | none => throw (.foreign "AttributeError")
  | .waiting => finish { run with status := .waiting }
  | .cancelled => finish { run with status := .cancelled }
  | .failed => fail run (textOr result.error ("step " ++ step.id ++ " failed"))
  | .success => advance objects next run step result

def receive (env : Supply) (next : RunRecord → RuntimeM RunResult) (run : RunRecord) (step : PipelineStep) :
    NodeReply → RuntimeM RunResult
  | .aborts e => throw e
  | .raises name text => do
      let text ← MonadExcept.ofExcept text
      fail run ("node " ++ step.id ++ " raised " ++ name ++ ": " ++ text)
  | .returns result => do
      match ← MonadExcept.ofExcept (checkEvents floatRepr objects run.spec step result.events) with
      | some message => fail run message
      | none => settle objects hashToken env next run step result

-- `self._nodes`, by the types that are registered
variable (registered : String → Bool)

def visitNode (env : Supply) (next : RunRecord → RuntimeM RunResult) (run : RunRecord) (step : PipelineStep) :
    RuntimeM RunResult :=
  if registered step.type then do
    match ← RuntimeM.resolve step run with
    | .error e => failOrRaise run e
    | .ok (inputs, config) =>
      let reply ← RuntimeM.node ⟨run, step, config, inputs⟩
      receive floatRepr objects hashToken env next run step reply
  else fail run ("unregistered node type: " ++ step.type)

def visitStep (env : Supply) (next : RunRecord → RuntimeM RunResult) (run : RunRecord) (step : PipelineStep) :
    RuntimeM RunResult := do
  match ← RuntimeM.conditionMatches step run with
  | .error e => failOrRaise run e
  | .ok false => skip next run step
  | .ok true => visitNode floatRepr objects hashToken registered env next run step

/-- `_drive`, by the rounds that are left. -/
def drive (env : Supply) : ℕ → RunRecord → RuntimeM RunResult
  | 0, run =>
      if run.status = .running then fail run "pipeline exceeded step execution safety limit" else return run.result
  | rounds + 1, run =>
      if run.status = .running then
        match run.spec.steps.find? fun step => step.id = run.currentStepId with
        | none => throw (.keyError run.currentStepId)
        | some step =>
          visitStep floatRepr objects hashToken registered (env.sub rounds) (drive env rounds) run step
      else return run.result

/-- `max(100, len(ordered_ids) * 10)`. -/
def roundLimit (spec : PipelineSpec) : ℕ := max 100 (spec.steps.length * 10)

/-- The run that `start` creates. -/
def newRun (env : Supply) (spec : PipelineSpec) (context : ExecutionContext) : RunRecord where
  runId := env.newId "run"
  spec := spec
  context := context
  currentStepId := (spec.steps.head spec.steps_ne).id
  outputs := []
  attempts := .empty
  status := .running
  question := none
  error := none
  revision := 0

def start (env : Supply) (spec : PipelineSpec) (context : ExecutionContext) : RuntimeM RunResult := do
  let identity := spec.identity floatRepr
  if spec.status = .active then
    let run := newRun (env.sub 0) spec context
    RuntimeM.createRun run
    -- the event names the pipeline
    let _ ← MonadExcept.ofExcept identity
    drive floatRepr objects hashToken registered (env.sub 1) (roundLimit spec) run
  else
    let identity ← MonadExcept.ofExcept identity
    throw (.contractError ("pipeline must be active to run: " ++ identity))

def resume (env : Supply) (resumeToken : String) (answer : PyObj) : RuntimeM RunResult := do
  if PyText.isBlank resumeToken then throw (.contractError "invalid or already-used resume token")
  else
    let run ← RuntimeM.resumeRun (env.sub 0) (hashToken resumeToken) answer
    drive floatRepr objects hashToken registered (env.sub 1) (roundLimit run.spec) run

def cancel (runId : String) : RuntimeM RunResult := do
  match ← RuntimeM.getRun runId with
  | none => throw (.contractError ("unknown run: " ++ runId))
  | some run =>
    if run.status = .succeeded ∨ run.status = .failed ∨ run.status = .cancelled then
      throw (.contractError "run is already terminal")
    else
      let run := { run with status := .cancelled }
      RuntimeM.cancelPendingQuestions runId
      finish run

inductive RuntimeCall where
  | start (env : Supply) (spec : PipelineSpec) (context : ExecutionContext)
  | resume (env : Supply) (resumeToken : String) (answer : PyObj)
  | cancel (runId : String)

def RuntimeCall.program : RuntimeCall → RuntimeM RunResult
  | .start env spec context => Pipeline.start floatRepr objects hashToken registered env spec context
  | .resume env resumeToken answer => Pipeline.resume floatRepr objects hashToken registered env resumeToken answer
  | .cancel runId => Pipeline.cancel runId

end Drive

structure World where
  store : RunStateStore
  visits : List Visit

section Handler

-- what the nodes do may depend on everything they were called with before
variable (floatRepr : PyFloat → String) (objects : Objects) (nodes : List Visit → Visit → NodeReply)

def World.call {α : Type} (w : World) (x : RunStoreM α) : Except PipelineExn α × World :=
  ((x.run w.store).outcome, { w with store := (x.run w.store).state })

def handler : Prog.Handler RuntimeRequest RuntimeAnswer World
  | .createRun run, w => w.call (Pipeline.createRun floatRepr run)
  | .updateRun run expectedRevision, w => w.call (Pipeline.updateRun floatRepr run expectedRevision)
  | .getRun runId, w => w.call (Pipeline.getRun runId)
  | .createQuestion question, w => w.call (Pipeline.createQuestion floatRepr question)
  | .cancelPendingQuestions runId, w => w.call (Pipeline.cancelPendingQuestions runId)
  | .resumeRun env tokenHash answer, w => w.call (Pipeline.resumeRun floatRepr env tokenHash answer)
  | .conditionMatches step run, w => (Pipeline.conditionMatches objects step.when run, w)
  | .resolve step run, w => (Pipeline.resolveStep objects step run, w)
  | .node visit, w => (nodes w.visits visit, { w with visits := w.visits ++ [visit] })

end Handler

end Pipeline

end AllTomorrow
