import AllTomorrow.ServiceActions
import AllTomorrow.ResumptionPrograms
import Mathlib.Data.Finset.Basic

/-!
# Decisions of the researcher

`researcher/decision.py` closes the output of a model into a typed Decision, or rejects it.
`researcher/materialize.py` turns a Decision into calls of the semantic store. A materializer
remembers in memory which Decisions it has applied; for the creation of a Goal or a Work the
creation event in the store is a durable record of it.
-/

namespace AllTomorrow

namespace Researcher

inductive Action where
  | noop | createGoal | createWork | reviseWork | askUser | proposeImprovement
  deriving DecidableEq, Repr

def Action.value : Action → String
  | .noop => "NOOP"
  | .createGoal => "CREATE_GOAL"
  | .createWork => "CREATE_WORK"
  | .reviseWork => "REVISE_WORK"
  | .askUser => "ASK_USER"
  | .proposeImprovement => "PROPOSE_IMPROVEMENT"

/-- `Action(value)`. -/
def Action.ofValue (value : String) : Option Action :=
  [Action.noop, .createGoal, .createWork, .reviseWork, .askUser, .proposeImprovement].find? fun a => a.value = value

structure Decision where
  decisionId : String
  action : Action
  summary : String
  reason : String
  evidenceRefs : List String
  payload : PyDict
  promptVersion : String
  decisionSchemaVersion : String := "1"

/-! ## Validation -/

def forbiddenPayloadKeys : List String :=
  ["semantic_status", "status", "sql", "query", "path", "cwd", "credential", "api_key", "token", "secret", "revision"]

def required : Action → List String
  | .noop => []
  | .createGoal => ["title", "objective"]
  | .createWork => ["target_goal_id", "title", "objective"]
  | .reviseWork => ["target_work_id", "revision_intent"]
  | .askUser => ["target_work_id", "question"]
  | .proposeImprovement => ["target_type", "target_id", "candidate_intent"]

structure UntrustedDecision where
  decisionId : String
  action : String
  summary : String
  reason : String
  evidenceRefs : List String
  payload : PyDict
  promptVersion : String

def targetKeys : List String := ["target_goal_id", "target_work_id", "target_id"]

/-- The text that a message shows for a value. Lists and dictionaries are not shown. -/
def display : PyValue → String
  | .none => "None"
  | .bool b => if b then "True" else "False"
  | .int n => toString n
  | .str s => s
  | .list _ | .dict _ => ""

section Validation

variable (knownEvidenceRefs ownerScopeRefs : Finset String)

def checkEvidence (ref : String) : Except Exn Unit :=
  if ref ∉ knownEvidenceRefs then .error (.decisionValidationError ("unknown evidence ref: " ++ ref))
  else if ownerScopeRefs ≠ ∅ ∧ ref ∉ ownerScopeRefs then
    .error (.decisionValidationError ("cross-owner evidence ref not permitted: " ++ ref))
  else .ok ()

def crossOwner (key : String) (value : PyValue) : Exn :=
  .decisionValidationError ("cross-owner target " ++ key ++ "=" ++ display value ++ " not permitted")

def checkTarget (payload : PyDict) (key : String) : Except Exn Unit :=
  if ownerScopeRefs = ∅ then .ok ()
  else
    match payload.get? key with
    | none | some .none => .ok ()
    | some (.str value) => if value ∈ ownerScopeRefs then .ok () else .error (crossOwner key (.str value))
    | some (.list _) => .error (.foreign "TypeError" "unhashable type: 'list'")
    | some (.dict _) => .error (.foreign "TypeError" "unhashable type: 'dict'")
    | some value => .error (crossOwner key value)

def checkAll {α : Type} (check : α → Except Exn Unit) : List α → Except Exn Unit
  | [] => .ok ()
  | x :: xs => do
    check x
    checkAll check xs

/-- The `repr` of a sorted set of keys. -/
def sortedKeys (keys : List String) : String := PyText.reprList (keys.insertionSort (· ≤ ·))

/-- The payload has the keys of the action, and none that is forbidden. -/
def checkPayload (act : Action) (payload : PyDict) : Except Exn Unit :=
  let missing := (required act).filter fun key => !payload.contains key
  let forbidden := forbiddenPayloadKeys.filter fun key => payload.contains key
  if missing ≠ [] then
    .error (.decisionValidationError (act.value ++ " missing payload keys: " ++ sortedKeys missing))
  else if act = .noop ∧ payload.entries ≠ [] then .error (.decisionValidationError "NOOP must carry no payload")
  else if forbidden ≠ [] then
    .error (.decisionValidationError (act.value ++ " payload carries forbidden keys: " ++ sortedKeys forbidden))
  else .ok ()

def validateDecision (raw : UntrustedDecision) : Except Exn Decision :=
  match Action.ofValue raw.action with
  | none => .error (.decisionValidationError ("unknown action: '" ++ raw.action ++ "'"))
  | some act => do
    checkPayload act raw.payload
    checkAll (checkEvidence knownEvidenceRefs ownerScopeRefs) raw.evidenceRefs
    checkAll (checkTarget ownerScopeRefs raw.payload) targetKeys
    return { decisionId := raw.decisionId, action := act, summary := raw.summary, reason := raw.reason
             evidenceRefs := raw.evidenceRefs, payload := raw.payload, promptVersion := raw.promptVersion }

end Validation

/-! ## Materialization -/

abbrev StoreTask := ExceptT Exn (Prog StoreCall fun c => Except Exn c.op.Result)

def storeHandler : Prog.Handler StoreCall (fun c => Except Exn c.op.Result) InMemoryStore :=
  fun c s => ((c.result s).outcome, (c.result s).state)

def ask (op : StoreOp) (env : Supply) : StoreTask op.Result := ExceptT.mk (.act ⟨op, env⟩ .done)

structure MaterializationResult where
  action : Action
  goalId : Option GoalId := none
  workId : Option WorkId := none
  questionId : Option QuestionId := none
  proposalRef : Option String := none
  alreadyApplied : Bool := false

structure DecisionMaterializer where
  userId : String
  actor : Actor
  applied : InsertionDict String MaterializationResult := .empty
  proposals : InsertionDict String PyDict := .empty

inductive CreationEvent where
  | createGoal | createWork | reviseSuccessor

def CreationEvent.value : CreationEvent → String
  | .createGoal => "researcher.create_goal"
  | .createWork => "researcher.create_work"
  | .reviseSuccessor => "researcher.revise_successor"

theorem CreationEvent.value_nonempty (t : CreationEvent) : PyText.isBlank t.value = false := by
  cases t <;> decide

/-- `_evt`. -/
def evt (env : Supply) (actor : Actor) (type : CreationEvent) (decisionId : String) (goalId : Option GoalId)
    (workId : Option WorkId) (payload : PyDict) : SemanticEvent where
  eventId := newEventId (env.sub 0)
  actor := actor.name
  type := type.value
  occurredAt := (env.sub 1).utcNow
  goalId := goalId
  workId := workId
  payload := payload.set "decision_id" (.str decisionId)
  actor_nonempty := actor.nonempty
  type_nonempty := type.value_nonempty

def textOf? : PyValue → Option String
  | .str s => some s
  | _ => none

/-- A text of a record; the source does not check that the value is one. -/
def asText (v : PyValue) : String := (textOf? v).getD ""

/-- `d.payload[key]`. -/
def Decision.value (d : Decision) (key : String) : Except Exn PyValue :=
  match d.payload.get? key with
  | some v => .ok v
  | none => .error (.keyError key)

/-- `store.get_goal(d.payload[key])` and the like look up a text; nothing else is a key of the store. -/
def lookupKey {α : Type} (v : PyValue) (find : String → StoreTask (Option α)) : StoreTask (Option α) :=
  match v with
  | .str s => find s
  | .list _ => throw (.foreign "TypeError" "unhashable type: 'list'")
  | .dict _ => throw (.foreign "TypeError" "unhashable type: 'dict'")
  | .none | .bool _ | .int _ => return none

namespace DecisionMaterializer

variable (sha256 : String → String) (m : DecisionMaterializer)

def identity (d : Decision) : String :=
  String.ofList ((sha256 (m.userId ++ ":" ++ m.actor.name ++ ":" ++ d.decisionId)).toList.take 32)

def evidencePayload (d : Decision) : PyDict :=
  ((InsertionDict.empty.set "decision" (.dict d.payload.entries)).set "evidence_refs"
    (.list (d.evidenceRefs.map .str))).set "owner_user_id" (.str m.userId)

def isRecord (d : Decision) (e : SemanticEvent) : Bool :=
  e.actor = m.actor.name && (e.payload.get? "decision_id").bind textOf? = some d.decisionId &&
    (e.payload.get? "owner_user_id").bind textOf? = some m.userId

def goalOf (env : Supply) (d : Decision) (title : PyValue) : GoalRecord :=
  { goalId := ⟨"goal_" ++ m.identity sha256 d⟩, userId := m.userId, title := asText title
    createdAt := (env.sub 0).utcNow, updatedAt := (env.sub 1).utcNow }

def workOf (env : Supply) (d : Decision) (goalId : GoalId) (title : PyValue) : WorkRecord :=
  { workId := ⟨"work_" ++ m.identity sha256 d⟩, goalId := goalId, title := asText title
    createdAt := (env.sub 0).utcNow, updatedAt := (env.sub 1).utcNow }

def createGoal (env : Supply) (d : Decision) : StoreTask MaterializationResult := do
  let goal := m.goalOf sha256 (env.sub 0) d (← MonadExcept.ofExcept (d.value "title"))
  let _ ← ask (.createGoal goal (evt (env.sub 1) m.actor .createGoal d.decisionId (some goal.goalId) none
    (m.evidencePayload d))) (env.sub 2)
  return { action := .createGoal, goalId := some goal.goalId }

def invalidGoal (target : PyValue) : Exn := .materializationError ("target goal invalid/terminal: " ++ display target)

def createWork (env : Supply) (d : Decision) : StoreTask MaterializationResult := do
  let target ← MonadExcept.ofExcept (d.value "target_goal_id")
  match ← lookupKey target fun goalId => ask (.getGoal ⟨goalId⟩) (env.sub 0) with
  | none => throw (invalidGoal target)
  | some goal =>
    if goal.isTerminal ∨ goal.userId ≠ m.userId then throw (invalidGoal target)
    else
      let work := m.workOf sha256 (env.sub 1) d ⟨asText target⟩ (← MonadExcept.ofExcept (d.value "title"))
      let payload := ((m.evidencePayload d).set "executor" ((d.payload.get? "executor").getD .none)).set "fingerprint"
        ((d.payload.get? "fingerprint").getD .none)
      let _ ← ask (.createWork work (evt (env.sub 2) m.actor .createWork d.decisionId (some work.goalId)
        (some work.workId) payload)) (env.sub 3)
      return { action := .createWork, workId := some work.workId, goalId := some work.goalId }

def successorOf (env : Supply) (work : WorkRecord) : WorkRecord :=
  { workId := newWorkId (env.sub 0), goalId := work.goalId, title := work.title ++ " (revised)"
    createdAt := (env.sub 1).utcNow, updatedAt := (env.sub 2).utcNow }

def reviseWork (env : Supply) (d : Decision) : StoreTask MaterializationResult := do
  let target ← MonadExcept.ofExcept (d.value "target_work_id")
  match ← lookupKey target fun workId => ask (.getWork ⟨workId⟩) (env.sub 0) with
  | none => throw (.materializationError ("target work not found: " ++ display target))
  | some work =>
    if work.isTerminal then
      let successor := successorOf (env.sub 1) work
      let _ ← ask (.createWork successor (evt (env.sub 2) m.actor .reviseSuccessor d.decisionId (some work.goalId)
        (some successor.workId) (InsertionDict.empty.set "supersedes" (.str (asText target))))) (env.sub 3)
      return { action := .reviseWork, workId := some successor.workId, goalId := some work.goalId }
    else
      let _ ← ask (.listEvents none (some ⟨asText target⟩) none) (env.sub 4)
      return { action := .reviseWork, workId := some ⟨asText target⟩, goalId := some work.goalId }

def questionOf (env : Supply) (target question : PyValue) : QuestionRecordSemantic :=
  { questionId := newQuestionId (env.sub 0), prompt := asText question, workId := some ⟨asText target⟩
    createdAt := (env.sub 1).utcNow, updatedAt := (env.sub 2).utcNow }

def askUser (env : Supply) (d : Decision) : StoreTask MaterializationResult := do
  let target ← MonadExcept.ofExcept (d.value "target_work_id")
  let unaskable := Exn.materializationError ("cannot ask on missing/terminal work: " ++ display target)
  match ← lookupKey target fun workId => ask (.getWork ⟨workId⟩) (env.sub 0) with
  | none => throw unaskable
  | some work =>
    if work.isTerminal then throw unaskable
    else
      let q := questionOf (env.sub 1) target (← MonadExcept.ofExcept (d.value "question"))
      let _ ← ask (.createQuestion q) (env.sub 2)
      return { action := .askUser, questionId := some q.questionId, workId := q.workId }

def propose (d : Decision) : StoreTask (MaterializationResult × DecisionMaterializer) := do
  let ref := "proposal:" ++ d.decisionId
  let targetType ← MonadExcept.ofExcept (d.value "target_type")
  let targetId ← MonadExcept.ofExcept (d.value "target_id")
  let intent ← MonadExcept.ofExcept (d.value "candidate_intent")
  let candidate := (((InsertionDict.empty.set "target_type" targetType).set "target_id" targetId).set "candidate_intent"
    intent).set "evidence_refs" (.list (d.evidenceRefs.map .str))
  return ({ action := .proposeImprovement, proposalRef := some ref },
    { m with proposals := m.proposals.set ref candidate })

def dispatch (env : Supply) (d : Decision) : StoreTask (MaterializationResult × DecisionMaterializer) :=
  match d.action with
  | .noop => return ({ action := .noop }, m)
  | .createGoal => return (← m.createGoal sha256 env d, m)
  | .createWork => return (← m.createWork sha256 env d, m)
  | .reviseWork => return (← m.reviseWork env d, m)
  | .askUser => return (← askUser env d, m)
  | .proposeImprovement => m.propose d

def recorded (env : Supply) (d : Decision) : StoreTask (Option MaterializationResult) :=
  if d.action = .createGoal ∨ d.action = .createWork then do
    let events ← ask (.listEvents none none none) env
    return (events.find? (m.isRecord d)).map fun e =>
      { action := d.action, goalId := e.goalId, workId := e.workId, alreadyApplied := true }
  else return none

def materialize (env : Supply) (d : Decision) : StoreTask (MaterializationResult × DecisionMaterializer) := do
  match ← m.recorded (env.sub 0) d with
  | some result => return (result, m)
  | none =>
    match m.applied.get? d.decisionId with
    | some result => return ({ result with alreadyApplied := true }, m)
    | none =>
      let (result, m) ← m.dispatch sha256 (env.sub 1) d
      return (result, { m with applied := m.applied.set d.decisionId result })

end DecisionMaterializer

end Researcher

end AllTomorrow
