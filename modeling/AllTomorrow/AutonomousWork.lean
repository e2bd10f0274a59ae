import AllTomorrow.OverseerExecution
import AllTomorrow.ResearcherDecisions

/-!
# Work that the overseer makes itself

`materialize_actions` turns the actions of a wake into reports, questions, Goals and Works, and
`observe` does so for every wake that has no marker yet. An action is untrusted JSON. Each is
judged and stored in a batch of its own, which in memory is one step. `Surroundings` is what
Python contributes. A number that is not whole is treated like one that is.
-/

namespace AllTomorrow.Overseer

open Researcher

structure Surroundings where
  /-- `str(value)` -/
  str : PyValue → String
  /-- `re.sub(r"[\W_]+", "", title.casefold())` -/
  bareTitle : String → String
  /-- `_normalize_objective` -/
  normalizeObjective : String → String
  /-- `hashlib.sha256(text.encode()).hexdigest()` -/
  sha256 : String → String
  /-- The date of a day, counted from the epoch, in ISO format. -/
  isoDate : ℤ → String
  /-- `str(REPO.resolve())` -/
  repo : String

structure ProjectEntry where
  path : Option String
  /-- `autonomy.verify_argv` -/
  verifyArgv : PyValue := .none

abbrev Registry := InsertionDict String ProjectEntry

/-- The arguments of `materialize_actions` beside the store and the actions, the user of the process and what the file
system says while it runs. -/
structure WakeCall where
  wakeId : String
  knownRefs : Finset String
  registry : Registry
  /-- `json.loads(redact(json.dumps(value, ensure_ascii=False)))` -/
  redacted : PyValue → Except Exn PyValue
  dailyLimit : ℤ
  userId : String
  isFolder : String → Bool
  /-- `str(Path(path).resolve())` -/
  resolve : String → String

/-! ## JSON values -/

def typeName : PyValue → String
  | .none => "NoneType"
  | .bool _ => "bool"
  | .int _ => "int"
  | .str _ => "str"
  | .list _ => "list"
  | .dict _ => "dict"

def noAttribute (v : PyValue) (name : String) : Exn :=
  .attributeError ("'" ++ typeName v ++ "' object has no attribute '" ++ name ++ "'")

/-- `v.get(key, default)`. -/
def member (v : PyValue) (key : String) (default : PyValue) : Except Exn PyValue :=
  match v with
  | .dict entries => .ok ((entries.lookup key).getD default)
  | v => .error (noAttribute v "get")

/-- `v == text`. -/
def isText (v : PyValue) (text : String) : Bool :=
  match v with
  | .str s => s = text
  | _ => false

def unhashable (v : PyValue) : Bool :=
  match v with
  | .list _ | .dict _ => true
  | _ => false

def typeError (v : PyValue) : Exn := .foreign "TypeError" ("unhashable type: '" ++ typeName v ++ "'")

/-- `registry.get(project_id)`. -/
def registryGet (registry : Registry) (projectId : PyValue) : Except Exn (Option ProjectEntry) :=
  if unhashable projectId then .error (typeError projectId)
  else match projectId with
    | .str id => .ok (registry.get? id)
    | _ => .ok none

/-- A registered project whose folder is there; without a path there is none. -/
def WakeCall.validProject (c : WakeCall) (projectId : PyValue) : Except Exn (Option ProjectEntry) := do
  let project ← registryGet c.registry projectId
  return project.filter fun p => p.path.any c.isFolder

namespace Surroundings

variable (o : Surroundings)

def purposeKey (projectId title : PyValue) : Except Exn String :=
  match title with
  | .str title => .ok (o.str projectId ++ ":" ++ o.bareTitle title)
  | v => .error (noAttribute v "casefold")

def isSelfProject (resolve : String → String) (projectId : PyValue) (project : Option ProjectEntry) : Bool :=
  isText projectId "all-tomorrow" || (project.bind ProjectEntry.path).any fun path => resolve path = o.repo

/-- `dedup_fingerprint` for the creation of a Work. -/
def dedupFingerprint (projectId : PyValue) (objective : PyValue) : Except Exn String :=
  match objective with
  | .str objective => .ok (o.sha256 (String.intercalate "\x1f" ["fpv=1", "action=CREATE_WORK", "goal=autonomy",
      "project=" ++ (if projectId.truthy then o.str projectId else ""), "obj=" ++ o.normalizeObjective objective,
      "evidence=", "mat=dp7-loop-1"]))
  | v => .error (noAttribute v "strip")

end Surroundings

/-! ## Budget -/

structure LineageUsage where
  createdWork : ℤ := 0
  tokensConsumed : ℤ := 0
  hasUnknownCost : Bool := false

structure BudgetConfig where
  maxCreatedWork : ℤ
  maxTokens : ℤ
  maxWallClockAge : ℤ

structure BudgetLedger where
  config : BudgetConfig
  usage : InsertionDict String LineageUsage := .empty
  createdAt : InsertionDict String Datetime := .empty

def budgetExceeded (what lineageId : String) : Exn := .foreign "BudgetExceededError" (what ++ " for " ++ lineageId)

namespace BudgetLedger

def used (ledger : BudgetLedger) (lineageId : String) : LineageUsage := (ledger.usage.get? lineageId).getD {}

def registerLineage (env : Supply) (lineageId : String) (ledger : BudgetLedger) : BudgetLedger :=
  { ledger with
    createdAt := if ledger.createdAt.contains lineageId then ledger.createdAt else ledger.createdAt.set lineageId env.utcNow
    usage := ledger.usage.set lineageId (ledger.used lineageId) }

def guardNoUnknown (lineageId : String) (ledger : BudgetLedger) : Except Exn Unit :=
  if (ledger.used lineageId).hasUnknownCost then
    .error (.foreign "UnknownCostError" ("lineage " ++ lineageId ++ " has UNKNOWN cost; autonomous spend blocked (fail-closed)"))
  else if (ledger.used lineageId).tokensConsumed > ledger.config.maxTokens then
    .error (budgetExceeded "token budget exhausted" lineageId)
  else .ok ()

def guardAge (env : Supply) (lineageId : String) (ledger : BudgetLedger) : Except Exn Unit :=
  match ledger.createdAt.get? lineageId with
  | some created =>
    if env.utcNow - created > ledger.config.maxWallClockAge then .error (budgetExceeded "wall-clock age exceeded" lineageId)
    else .ok ()
  | none => .ok ()

def reserveWork (env : Supply) (lineageId : String) (ledger : BudgetLedger) : Except Exn BudgetLedger := do
  ledger.guardNoUnknown lineageId
  ledger.guardAge env lineageId
  let used := ledger.used lineageId
  if used.createdWork + 1 > ledger.config.maxCreatedWork then
    .error (budgetExceeded "max_created_work exceeded" lineageId)
  else return { ledger with usage := ledger.usage.set lineageId { used with createdWork := used.createdWork + 1 } }

end BudgetLedger

def dayLength : ℤ := 86400000000

def utcDay (t : Datetime) : ℤ := t / dayLength

def madeByMetacog (e : SemanticEvent) : Bool := e.actor = "metacog" && e.type = "researcher.create_work"

def reserveMade (env : Supply) (day : ℤ) (lineageId : String) : List SemanticEvent → BudgetLedger → Except Exn BudgetLedger
  | [], ledger => .ok ledger
  | e :: rest, ledger =>
    if madeByMetacog e && utcDay e.occurredAt = day then do
      let ledger ← ledger.reserveWork (env.sub 0) lineageId
      reserveMade (env.sub 1) day lineageId rest ledger
    else reserveMade (env.sub 1) day lineageId rest ledger

inductive JudgementEvent where
  | question | report | deferred | selfWorkDeferred | budgetDeferred | wakeApplied

def JudgementEvent.type : JudgementEvent → String
  | .question => "metacog.question"
  | .report => "metacog.report"
  | .deferred => "metacog.deferred"
  | .selfWorkDeferred => "metacog.self_work_deferred"
  | .budgetDeferred => "metacog.budget_deferred"
  | .wakeApplied => "metacog.wake_applied"

theorem JudgementEvent.type_nonempty (kind : JudgementEvent) : PyText.isBlank kind.type = false := by
  cases kind <;> decide

theorem metacog_nonempty : PyText.isBlank "metacog" = false := by decide

def noteEvent (env : Supply) (kind : JudgementEvent) (payload : PyDict) : SemanticEvent where
  eventId := newEventId (env.sub 0)
  actor := "metacog"
  type := kind.type
  occurredAt := (env.sub 1).utcNow
  payload := payload
  actor_nonempty := metacog_nonempty
  type_nonempty := kind.type_nonempty

/-! ## Reading an action -/

structure ReadAction where
  action : PyValue
  title : String
  detail : String
  kind : PyValue
  projectId : PyValue
  project : Option ProjectEntry
  configuredVerify : PyValue
  verifyArgv : PyValue
  ordinary : Bool
  /-- `source_action` -/
  did : String

inductive ActionResult where
  | duplicate
  | question (question : Bool)
  | selfWorkOpen
  | budgetDeferred
  | work (workId : Option WorkId)

structure OpenWork where
  work : WorkRecord
  projectId : PyValue
  title : PyValue

def openWorkOf (s : InMemoryStore) (created : SemanticEvent) : Except Exn (Option OpenWork) :=
  if !madeByMetacog created then .ok none
  else match created.workId.bind s.work.get? with
    | none => .ok none
    | some work =>
      if work.isTerminal then .ok none
      else do
        let decision := (created.payload.get? "decision").getD (.dict [])
        let projectId ← member decision "project_id" (.str "")
        let title ← member decision "title" .none
        return some ⟨work, projectId, if title.truthy then title else .str work.title⟩

def openMetacogWork (s : InMemoryStore) : List SemanticEvent → Except Exn (List OpenWork)
  | [] => .ok []
  | created :: rest => do
    let opened ← openWorkOf s created
    let others ← openMetacogWork s rest
    return opened.toList ++ others

/-- `any(p(x) for x in xs)`. -/
def anyOf {α : Type} (p : α → Except Exn Bool) : List α → Except Exn Bool
  | [] => .ok false
  | x :: xs => do
    if ← p x then return true
    anyOf p xs

def isCommand : PyValue → Bool
  | .list args => !args.isEmpty && args.all fun a => match a with
    | .str s => s ≠ ""
    | _ => false
  | _ => false

/-- `set(refs) <= known`, with the references in their order. -/
def refsWithin (known : Finset String) (refs : PyValue) : Except Exn (Option (List String)) :=
  let within (refs : List PyValue) : Option (List String) := refs.mapM fun ref => match ref with
    | .str ref => if ref ∈ known then some ref else none
    | _ => none
  match refs with
  | .list refs => match refs.find? unhashable with
    | some ref => .error (typeError ref)
    | none => .ok (within refs)
  | .str text => .ok (within (text.toList.map fun c => .str (String.singleton c)))
  | .dict entries => .ok (within (entries.map fun e => .str e.1))
  | v => .error (.foreign "TypeError" ("'" ++ typeName v ++ "' object is not iterable"))

def hasText (key text : String) (e : SemanticEvent) : Bool := ((e.payload.get? key).getD .none |> isText) text

section Judge

variable (o : Surroundings) (c : WakeCall)

/-- `configured_verify or action.get("verify_argv")`. -/
def testCommand (configuredVerify action : PyValue) : Except Exn PyValue :=
  if configuredVerify.truthy then .ok configuredVerify else member action "verify_argv" .none

/-- What is done before the batch of action `i`. -/
def readAction (i : ℕ) (untrusted : PyValue) : Except Exn ReadAction := do
  let action ← c.redacted untrusted
  let title ← member action "title" (.str "")
  let detail ← member action "detail" (.str "")
  let kind ← member action "kind" .none
  let projectId ← member action "project_id" (.str "")
  let project ← c.validProject projectId
  let configuredVerify := (project.map ProjectEntry.verifyArgv).getD .none
  let verifyArgv ← testCommand configuredVerify action
  let authority ← member action "authority" .none
  return { action, title := o.str title, detail := o.str detail, kind, projectId, project, configuredVerify, verifyArgv
           ordinary := isText authority "ordinary", did := c.wakeId ++ ":" ++ toString i }

/-- The action changes a registered project and needs nobody's approval. -/
def ReadAction.isOrdinaryFix (a : ReadAction) : Bool := isText a.kind "fix" && a.ordinary && a.project.isSome

/-- A report or question of the same purpose since `cutoff`. -/
def sentSince (key : String) (cutoff : Datetime) (e : SemanticEvent) : Except Exn Bool :=
  if (e.type = "metacog.report" ∨ e.type = "metacog.question") ∧ cutoff ≤ e.occurredAt then do
    let action := (e.payload.get? "action").getD (.dict [])
    let projectId ← member action "project_id" (.str "")
    let title ← member action "title" (.str "")
    return (← o.purposeKey projectId (.str (o.str title))) = key
  else .ok false

def reportText (a : ReadAction) (question : Bool) : String :=
  (if question then "[질문 · 실행 보류]" else "[보고]") ++ " " ++ a.title ++ "\n" ++ a.detail ++
    if isText a.kind "fix" && a.project.isNone then "\n등록되지 않았거나 이 PC에 없는 프로젝트입니다." else ""

def reportOrAsk (a : ReadAction) (previous : List SemanticEvent) (env : Supply) : StoreM (Option ActionResult) := do
  let question := !isText a.kind "report"
  let key ← MonadExcept.ofExcept (o.purposeKey a.projectId (.str a.title))
  let cutoff := (env.sub 0).utcNow - dayLength
  if ← MonadExcept.ofExcept (anyOf (sentSince o key cutoff) previous) then
    return some .duplicate
  else
    InMemoryStore.appendEvent (noteEvent (env.sub 1) (if question then .question else .report)
      (((InsertionDict.empty.set "source_action" (.str a.did)).set "action" a.action).set "report"
        (.str (reportText a question))))
    return some (.question question)

/-! ## Works -/

/-- The references and the problem key of an action that may become a Work. -/
def evidence (a : ReadAction) : Except Exn (List String × PyValue) := do
  let refs ← member a.action "evidence_refs" (.list [])
  let missing := Exn.valueError "자동 작업은 스냅샷 근거와 안정적인 문제 키가 필요합니다"
  if !refs.truthy then .error missing
  else match ← refsWithin c.knownRefs refs with
    | none => .error missing
    | some refs =>
      let problemKey ← member a.action "problem_key" .none
      if !problemKey.truthy || a.detail = "" || a.title = "" then .error missing
      else return (refs, problemKey)

def samePurpose (key : String) (opened : OpenWork) : Except Exn Bool := do
  return (← o.purposeKey opened.projectId opened.title) = key

def onSelf (opened : OpenWork) : Except Exn Bool := do
  return o.isSelfProject c.resolve opened.projectId (← registryGet c.registry opened.projectId)

def metacogActor : Actor := ⟨"metacog", metacog_nonempty⟩

def metacogMaterializer : DecisionMaterializer := { userId := c.userId, actor := metacogActor }

def atOnce {α : Type} (x : StoreTask α) : StoreM α := fun s =>
  match Prog.evalTask storeHandler x s with
  | (.ok a, s) => .ok a s
  | (.error e, s) => .error e s

def goalPayload (a : ReadAction) : PyDict :=
  (InsertionDict.empty.set "title" (.str a.title)).set "objective" (.str a.detail)

def idValue (id : Option GoalId) : PyValue :=
  match id with
  | some id => .str id.val
  | none => .none

def workPayload (a : ReadAction) (goalId : Option GoalId) (fingerprint lineageId : String) : PyDict :=
  InsertionDict.empty
    |>.set "title" (.str a.title)
    |>.set "objective" (.str a.detail)
    |>.set "target_goal_id" (idValue goalId)
    |>.set "project_id" a.projectId
    |>.set "executor" (.str "overseer")
    |>.set "fingerprint" (.str fingerprint)
    |>.set "source_snapshot_id" (.str c.wakeId)
    |>.set "source_action" (.str a.did)
    |>.set "root_autonomous_lineage_id" (.str lineageId)
    |>.set "authority" (.str "ordinary")
    |>.set "project_root" (.str (c.resolve ((a.project.bind ProjectEntry.path).getD "")))
    |>.set "verify_argv" a.verifyArgv
    |>.set "verify_source" (.str (if a.configuredVerify.truthy then "config" else "metacog"))

/-- `decision` of `materialize_actions`. -/
def decision (a : ReadAction) (refs : List String) (action ident : String) (data : PyDict) : Except Exn Decision :=
  validateDecision c.knownRefs ∅
    { decisionId := ident, action, summary := a.title, reason := a.detail, evidenceRefs := refs, payload := data
      promptVersion := "dp7-loop-1" }

def createBoth (a : ReadAction) (refs : List String) (fingerprint lineageId : String) (env : Supply) :
    StoreM (Option ActionResult) := do
  let goalDecision ← MonadExcept.ofExcept (decision c a refs "CREATE_GOAL" ("goal:" ++ fingerprint) (goalPayload a))
  let goal ← atOnce ((metacogMaterializer c).materialize o.sha256 (env.sub 0) goalDecision)
  let workDecision ← MonadExcept.ofExcept (decision c a refs "CREATE_WORK" ("work:" ++ fingerprint)
    (workPayload c a goal.1.goalId fingerprint lineageId))
  let work ← atOnce (goal.2.materialize o.sha256 (env.sub 1) workDecision)
  return some (.work work.1.workId)

def isBudgetExceeded : Exn → Bool
  | .foreign kind _ => kind = "BudgetExceededError"
  | _ => false

def createWithinBudget (a : ReadAction) (refs : List String) (fingerprint : String) (previous : List SemanticEvent)
    (env : Supply) : StoreM (Option ActionResult) := do
  let day := utcDay (env.sub 0).utcNow
  let lineageId := o.isoDate day
  let ledger : BudgetLedger := { config := ⟨c.dailyLimit, 2 ^ 63 - 1, dayLength⟩ }
  let ledger ← MonadExcept.ofExcept
    (reserveMade (env.sub 2) day lineageId previous (ledger.registerLineage (env.sub 1) lineageId))
  match ledger.reserveWork (env.sub 3) lineageId with
  | .ok _ => createBoth o c a refs fingerprint lineageId (env.sub 4)
  | .error e =>
    if isBudgetExceeded e then
      InMemoryStore.appendEvent (noteEvent (env.sub 5) .budgetDeferred
        ((InsertionDict.empty.set "source_action" (.str a.did)).set "report"
          (.str "[보고] 오늘 자율 작업 수 예산을 다 써 새 일 생성을 미뤘습니다.")))
      return some .budgetDeferred
    else throw e

def fixProject (a : ReadAction) (refs : List String) (problemKey : PyValue) (previous : List SemanticEvent) (env : Supply) :
    StoreM (Option ActionResult) := do
  let opened ← MonadExcept.ofExcept (openMetacogWork (← get) previous)
  let key ← MonadExcept.ofExcept (o.purposeKey a.projectId (.str a.title))
  if ← MonadExcept.ofExcept (anyOf (samePurpose o key) opened) then
    return some .duplicate
  else if ← MonadExcept.ofExcept (if o.isSelfProject c.resolve a.projectId a.project then anyOf (onSelf o c) opened else .ok false) then
    let onSelves ← MonadExcept.ofExcept (opened.filterM (onSelf o c))
    InMemoryStore.appendEvent (noteEvent (env.sub 0) .selfWorkDeferred
      (((InsertionDict.empty.set "source_action" (.str a.did)).set "title" (.str a.title)).set "open_work"
        (.list (onSelves.map fun opened => .str opened.work.workId.val))))
    return some .selfWorkOpen
  else
    let fingerprint ← MonadExcept.ofExcept (o.dedupFingerprint a.projectId problemKey)
    if previous.any (hasText "fingerprint" fingerprint) then
      return some .duplicate
    else createWithinBudget o c a refs fingerprint previous (env.sub 1)

def judge (a : ReadAction) (env : Supply) : StoreM (Option ActionResult) := do
  let previous := (← get).events
  if previous.any (hasText "source_action" a.did) then
    return none
  else if !a.isOrdinaryFix then
    reportOrAsk o a previous env
  else if !isCommand a.verifyArgv then
    InMemoryStore.appendEvent (noteEvent (env.sub 0) .deferred
      ((InsertionDict.empty.set "source_action" (.str a.did)).set "report"
        (.str ("[보고] " ++ a.title ++ ": 수행 전 시험 명령을 확정하지 못해 보류했습니다. 다음 판단에서 조사합니다."))))
    return none
  else
    let (refs, problemKey) ← MonadExcept.ofExcept (evidence c a)
    fixProject o c a refs problemKey previous env

/-- `async with store.autonomous_batch()`. -/
def batched {α : Type} (body : StoreM α) : StoreM α := fun s =>
  match body s with
  | .ok a s => .ok a s
  | .error e _ => .error e s

def materializeAction (i : ℕ) (untrusted : PyValue) (env : Supply) : StoreM (Option ActionResult) := do
  let a ← MonadExcept.ofExcept (readAction o c i untrusted)
  batched (judge o c a env)

/-- The actions from the `i`-th on. -/
def materializeFrom (i : ℕ) (env : Supply) : List PyValue → StoreM (List ActionResult)
  | [] => return []
  | untrusted :: rest => do
    let result ← materializeAction o c i untrusted (env.sub 0)
    let results ← materializeFrom (i + 1) (env.sub 1) rest
    return result.toList ++ results

def materializeActions (actions : List PyValue) (env : Supply) : StoreM (List ActionResult) :=
  materializeFrom o c 0 env actions

end Judge

/-- A row of `metacog_wakes` with status `done`. -/
structure StoredWake where
  wakeId : String
  actions : List PyValue
  evidenceRefs : Finset String
  reasoner : PyValue
  model : PyValue
  fallbackReason : PyValue

def wakeApplied (env : Supply) (wake : StoredWake) : SemanticEvent :=
  noteEvent env .wakeApplied ((((InsertionDict.empty.set "wake_id" (.str wake.wakeId)).set "reasoner" wake.reasoner).set
    "model" wake.model).set "fallback_reason" wake.fallbackReason)

def marks (wakeId : String) (e : SemanticEvent) : Bool := e.type = "metacog.wake_applied" && hasText "wake_id" wakeId e

/-- The limit that `materialize_actions` takes by default. -/
def dailyWorkLimit : ℤ := 96

section Observe

variable (o : Surroundings) (base : WakeCall)

/-- The call of `materialize_actions` for a wake; the rest of its arguments are those of `observe`. -/
def StoredWake.call (wake : StoredWake) : WakeCall :=
  { base with wakeId := wake.wakeId, knownRefs := wake.evidenceRefs, dailyLimit := dailyWorkLimit }

/-- The loop of `observe` over the stored wakes; `applied` are the markers found before it. -/
def applyWakes (applied : List SemanticEvent) (env : Supply) : List StoredWake → StoreM Unit
  | [] => return ()
  | wake :: rest => do
    if applied.any (marks wake.wakeId) then
      applyWakes applied (env.sub 2) rest
    else
      let _ ← materializeActions o (wake.call base) wake.actions (env.sub 0)
      InMemoryStore.appendEvent (wakeApplied (env.sub 1) wake)
      applyWakes applied (env.sub 2) rest

/-- `observe` from the reading of the markers on, before the reports are sent. -/
def observe (env : Supply) (wakes : List StoredWake) : StoreM Unit := do
  applyWakes o base (← get).events env wakes

end Observe

end AllTomorrow.Overseer
