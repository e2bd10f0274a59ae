import AllTomorrow.PythonObjects

/-!
# Pipeline specs and their two readers

`PipelineStep` and `PipelineSpec` of `contracts.py`, with what their constructors check as
fields; `parse_pipeline` of `loader.py`; and `pipeline_spec_to_dict`,
`pipeline_spec_from_dict` and `specs_equal` of `run_store.py`.
-/

namespace AllTomorrow

namespace Pipeline

/-! ## Fields -/

/-- `require_text`: the text, unstripped. -/
def requireText (value : PyObj) (path : String) : Except PipelineExn { s : String // ¬PyText.isBlank s = true } :=
  match value with
  | .str s => if h : PyText.isBlank s = true then .error (.contractError (path ++ " must be a non-empty string"))
      else .ok ⟨s, h⟩
  | _ => .error (.contractError (path ++ " must be a non-empty string"))

inductive PyNumber where
  | bool (b : Bool)
  | int (n : ℤ)
  | float (x : PyFloat)

def PyNumber.toObj : PyNumber → PyObj
  | .bool b => .bool b
  | .int n => .int n
  | .float x => .float x

def PyNumber.value : PyNumber → PyFloat
  | .bool b => .finite b.toNat
  | .int n => .finite n
  | .float x => x

/-- The left operand of `<` with an integer. -/
def toNumber : PyObj → Except PipelineExn PyNumber
  | .bool b => .ok (.bool b)
  | .int n => .ok (.int n)
  | .float x => .ok (.float x)
  | _ => .error (.typeError "'<' not supported")

mutual

def hashable : PyObj → Bool
  | .list _ | .set _ | .dict _ => false
  | .tuple xs => hashableAll xs
  | _ => true

def hashableAll : List PyObj → Bool
  | [] => true
  | x :: xs => hashable x && hashableAll xs

end

/-- `d[k] = v` for a key of any kind. -/
def setItem : PyEntries → PyObj → PyObj → PyEntries
  | [], k, v => [(k, v)]
  | e :: es, k, v => if e.1.eqv k then (e.1, v) :: es else e :: setItem es k v

/-- The two elements of a pair that `dict` reads. -/
def pairOf : PyObj → Except PipelineExn (PyObj × PyObj)
  | .list [k, v] | .tuple [k, v] | .set [k, v] | .dict [(k, _), (v, _)] => .ok (k, v)
  | .str s =>
      match s.toList with
      | [k, v] => .ok (.str k.toString, .str v.toString)
      | _ => .error (.valueError "dictionary update sequence element has the wrong length")
  | .list _ | .tuple _ | .set _ | .dict _ =>
      .error (.valueError "dictionary update sequence element has the wrong length")
  | _ => .error (.typeError "cannot convert dictionary update sequence element to a sequence")

def dictOfPairs : List PyObj → PyEntries → Except PipelineExn PyEntries
  | [], es => .ok es
  | pair :: pairs, es => do
      let (k, v) ← pairOf pair
      if !hashable k then throw (.typeError "unhashable type")
      dictOfPairs pairs (setItem es k v)

/-- `iter(value)`. -/
def iterate : PyObj → Except PipelineExn (List PyObj)
  | .list xs | .tuple xs | .set xs => .ok xs
  | .dict entries => .ok (entries.map Prod.fst)
  | .str s => .ok (s.toList.map fun c => .str c.toString)
  | _ => .error (.typeError "object is not iterable")

/-- `dict(value)`. -/
def dictOf : PyObj → Except PipelineExn PyEntries
  | .dict entries => .ok entries
  | value => do
      let pairs ← iterate value
      dictOfPairs pairs []

structure PipelineStep where
  id : String
  type : String
  config : PyEntries
  inputs : PyEntries
  when : PyObj
  nextStep : PyObj
  onStatus : PyEntries
  maxRetries : PyNumber
  id_text : ¬PyText.isBlank id = true
  type_text : ¬PyText.isBlank type = true
  maxRetries_nonneg : ¬maxRetries.value.lt 0 = true

namespace PipelineStep

def new (id type : PyObj) (config inputs : PyEntries) (when nextStep : PyObj) (onStatus : PyEntries)
    (maxRetries : PyObj) : Except PipelineExn PipelineStep := do
  let id ← requireText id "pipeline.step.id"
  let type ← requireText type ("pipeline.step[" ++ id.val ++ "].type")
  let maxRetries ← toNumber maxRetries
  if h : maxRetries.value.lt 0 = true then
    throw (.contractError ("pipeline.step[" ++ id.val ++ "].max_retries must be >= 0"))
  else
    return ⟨id.val, type.val, config, inputs, when, nextStep, onStatus, maxRetries, id.property, type.property, h⟩

def targets (step : PipelineStep) : List PyObj :=
  (if step.nextStep.truthy then [step.nextStep] else []) ++ step.onStatus.map Prod.snd

end PipelineStep

/-! ## Specs -/

inductive PipelineStatus where
  | draft | active | retired
  deriving DecidableEq

def PipelineStatus.value : PipelineStatus → String
  | .draft => "draft"
  | .active => "active"
  | .retired => "retired"

/-- `status in {"draft", "active", "retired"}`. -/
def requireStatus (value : PyObj) : Except PipelineExn PipelineStatus :=
  match value with
  | .str "draft" => .ok .draft
  | .str "active" => .ok .active
  | .str "retired" => .ok .retired
  | _ =>
    if hashable value then .error (.contractError "pipeline.status must be draft, active, or retired")
    else .error (.typeError "unhashable type")

def checkEach (known : List String) (stepId : String) : List PyObj → Except PipelineExn Unit
  | [] => .ok ()
  | .str target :: targets =>
      if target ∈ known then checkEach known stepId targets
      else .error (.contractError ("pipeline.step[" ++ stepId ++ "] targets unknown step") (some (.str target)))
  | target :: _ =>
      if hashable target then
        .error (.contractError ("pipeline.step[" ++ stepId ++ "] targets unknown step") (some target))
      else .error (.typeError "unhashable type")

def checkTargets (known : List String) : List PipelineStep → Except PipelineExn Unit
  | [] => .ok ()
  | step :: steps => do
      checkEach known step.id step.targets
      checkTargets known steps

structure PipelineSpec where
  pipelineId : String
  version : PyNumber
  status : PipelineStatus
  steps : List PipelineStep
  parentVersion : PyObj
  changeReason : PyObj
  trigger : PyEntries
  pipelineId_text : ¬PyText.isBlank pipelineId = true
  version_pos : ¬version.value.lt 1 = true
  steps_ne : ¬steps = []
  ids_nodup : (steps.map PipelineStep.id).Nodup
  targets_known : checkTargets (steps.map PipelineStep.id) steps = .ok ()

def PipelineSpec.new (pipelineId version status : PyObj) (steps : List PipelineStep) (parentVersion changeReason : PyObj)
    (trigger : PyEntries) : Except PipelineExn PipelineSpec := do
  let pipelineId ← requireText pipelineId "pipeline.pipeline_id"
  let version ← toNumber version
  if hversion : version.value.lt 1 = true then throw (.contractError "pipeline.version must be >= 1")
  else
    let status ← requireStatus status
    if hsteps : steps = [] then throw (.contractError "pipeline.steps must not be empty")
    else if hids : (steps.map PipelineStep.id).Nodup then
      match htargets : checkTargets (steps.map PipelineStep.id) steps with
      | .error e => throw e
      | .ok () =>
        return ⟨pipelineId.val, version, status, steps, parentVersion, changeReason, trigger, pipelineId.property,
          hversion, hsteps, hids, htargets⟩
    else throw (.contractError "pipeline step ids must be unique")

/-- `_mapping`. -/
def mapping (value : PyObj) (path : String) : Except PipelineExn PyEntries :=
  match value with
  | .none => .ok []
  | .dict entries => .ok entries
  | _ => .error (.contractError (path ++ " must be a mapping"))

/-- `item.get(name)`. -/
def getOrNone (es : PyEntries) (name : String) : PyObj := (es.get? name).getD .none

def parseStep (index : ℕ) (raw : PyObj) : Except PipelineExn PipelineStep := do
  let path := "pipeline.steps[" ++ toString index ++ "]"
  let item ← mapping raw path
  let retry ← mapping (getOrNone item "retry") (path ++ ".retry")
  let config ← mapping (getOrNone item "config") (path ++ ".config")
  let inputs ← mapping (getOrNone item "inputs") (path ++ ".inputs")
  let onStatus ← mapping (getOrNone item "on_status") (path ++ ".on_status")
  let maxRetries ← ((retry.get? "max_attempts").getD (.int 1)).minusOne
  PipelineStep.new ((item.get? "id").getD (.str "")) ((item.get? "type").getD (.str "")) config inputs
    (getOrNone item "when") (getOrNone item "next") onStatus maxRetries

def parseSteps (index : ℕ) : List PyObj → Except PipelineExn (List PipelineStep)
  | [] => .ok []
  | raw :: rest => do
      let step ← parseStep index raw
      let steps ← parseSteps (index + 1) rest
      return step :: steps

def parsePipeline (data : PyObj) : Except PipelineExn PipelineSpec := do
  let root ← mapping data "pipeline"
  match root.get? "steps" with
  | some (.list rawSteps) =>
      let steps ← parseSteps 0 rawSteps
      let trigger ← mapping (getOrNone root "trigger") "pipeline.trigger"
      PipelineSpec.new ((root.get? "id").getD (.str "")) ((root.get? "version").getD (.int 0))
        ((root.get? "status").getD (.str "draft")) steps (getOrNone root "parent_version")
        (getOrNone root "change_reason") trigger
  | _ => throw (.contractError "pipeline.steps must be a list")

/-! ## Stored specs -/

/-- `d[name]`. -/
def item (es : PyEntries) (name : String) : Except PipelineExn PyObj :=
  match es.get? name with
  | some v => .ok v
  | none => .error (.keyError name)

/-- `a or b`. -/
def orElse (a b : PyObj) : PyObj := if a.truthy then a else b

/-- One step of `pipeline_spec_from_dict`. -/
def stepFromEntries (s : PyEntries) : Except PipelineExn PipelineStep := do
  let id ← item s "id"
  let type ← item s "type"
  let config ← dictOf ((s.get? "config").getD (.dict []))
  let inputs ← dictOf ((s.get? "inputs").getD (.dict []))
  let onStatus ← dictOf ((s.get? "on_status").getD (.dict []))
  PipelineStep.new id type config inputs (getOrNone s "when") (orElse (getOrNone s "next_step") (getOrNone s "next"))
    onStatus ((s.get? "max_retries").getD (.int 0))

def stepFromDict : PyObj → Except PipelineExn PipelineStep
  | .dict entries => stepFromEntries entries
  | _ => .error (.typeError "object is not subscriptable with a text")

def stepsFromDict : List PyObj → Except PipelineExn (List PipelineStep)
  | [] => .ok []
  | s :: rest => do
      let step ← stepFromDict s
      let steps ← stepsFromDict rest
      return step :: steps

/-- `pipeline_spec_from_dict`. -/
def pipelineSpecFromDict (data : PyEntries) : Except PipelineExn PipelineSpec := do
  let rawSteps ← item data "steps"
  let rawSteps ← iterate rawSteps
  let steps ← stepsFromDict rawSteps
  let version ← item data "version"
  let status ← item data "status"
  let trigger ← dictOf ((data.get? "trigger").getD (.dict []))
  PipelineSpec.new (orElse (getOrNone data "pipeline_id") ((data.get? "id").getD (.str ""))) version status steps
    (getOrNone data "parent_version") (getOrNone data "change_reason") trigger

/-- `dict(step.when) if step.when is not None else None`. -/
def whenToDict : PyObj → Except PipelineExn PyObj
  | .none => .ok .none
  | value => do
      let entries ← dictOf value
      return .dict entries

def stepToDict (step : PipelineStep) : Except PipelineExn PyObj := do
  let when ← whenToDict step.when
  return .dict
    [(.str "id", .str step.id), (.str "type", .str step.type), (.str "config", .dict step.config),
      (.str "inputs", .dict step.inputs), (.str "when", when), (.str "next_step", step.nextStep),
      (.str "on_status", .dict step.onStatus), (.str "max_retries", step.maxRetries.toObj)]

def stepsToDict : List PipelineStep → Except PipelineExn (List PyObj)
  | [] => .ok []
  | step :: rest => do
      let s ← stepToDict step
      let steps ← stepsToDict rest
      return s :: steps

/-- `pipeline_spec_to_dict`. -/
def pipelineSpecToDict (floatRepr : PyFloat → String) (spec : PipelineSpec) : Except PipelineExn PyEntries := do
  let steps ← stepsToDict spec.steps
  jsonCopyEntries floatRepr
    [(.str "pipeline_id", .str spec.pipelineId), (.str "version", spec.version.toObj),
      (.str "status", .str spec.status.value), (.str "parent_version", spec.parentVersion),
      (.str "change_reason", spec.changeReason), (.str "trigger", .dict spec.trigger), (.str "steps", .list steps)]

/-- `==` on steps. -/
def PipelineStep.eqv (a b : PipelineStep) : Bool :=
  a.id = b.id && a.type = b.type && (PyObj.dict a.config).eqv (.dict b.config) &&
    (PyObj.dict a.inputs).eqv (.dict b.inputs) && a.when.eqv b.when && a.nextStep.eqv b.nextStep &&
    (PyObj.dict a.onStatus).eqv (.dict b.onStatus) && a.maxRetries.value.eqv b.maxRetries.value

def stepsEqv : List PipelineStep → List PipelineStep → Bool
  | [], [] => true
  | a :: as, b :: bs => a.eqv b && stepsEqv as bs
  | _, _ => false

/-- The comparison that `specs_equal` makes, of everything but the status. -/
def PipelineSpec.sameDefinition (a b : PipelineSpec) : Bool :=
  a.pipelineId = b.pipelineId && a.version.value.eqv b.version.value && a.parentVersion.eqv b.parentVersion &&
    a.changeReason.eqv b.changeReason && (PyObj.dict a.trigger).eqv (.dict b.trigger) && stepsEqv a.steps b.steps

/-- `==` on specs. -/
def PipelineSpec.eqv (a b : PipelineSpec) : Bool := a.sameDefinition b && a.status = b.status

/-- `specs_equal` on two stored documents. -/
def specsEqual (a b : PyEntries) : Except PipelineExn Bool := do
  let a ← pipelineSpecFromDict a
  let b ← pipelineSpecFromDict b
  return a.sameDefinition b

end Pipeline

end AllTomorrow
