import AllTomorrow.FactoryProfile

/-!
# The steps of the idea factory

The methods of the store, the calls of models and patent sources, and the steps of the workflow in
`idea_factory/pipeline.py` as programs over them. A step may be executed more than once.
-/

namespace AllTomorrow.IdeaFactory

/-! ## Configuration -/

structure RosterMember where
  role : String
  name : String
  modelGroup : String
  accessLevel : ℤ := 0
  accessScopes : List String := []
  deriving DecidableEq

structure Roster where
  ideasPerTopic : ℕ
  councilRounds : ℕ
  councilPassVotes : ℕ
  evaluationMinSamples : ℕ
  /-- `sum(samples) / len(samples) > promote_above`, on the two numbers -/
  promotes : ℕ → ℕ → Bool
  /-- the same quotient `< retire_below` -/
  retires : ℕ → ℕ → Bool
  tiers : List String
  staff : List RosterMember
  profileSources : List ProfileSource
  /-- `council_share`, if it is one of the modes -/
  councilShare : Option ShareMode

structure PatentHit where
  number : String
  title : String
  snippet : String
  source : String
  url : String
  deriving DecidableEq

structure PatentSource where
  name : String
  unchecked : Bool := false

/-- The configuration of a process, and the parts of the language that depend on no state. -/
structure Factory where
  roster : Roster
  patents : PatentSource
  classes : CharClasses
  /-- the built-in `str` of a JSON value -/
  str : PyValue → String
  lower : String → String
  jsonDumps : PyDict → String

/-- A text that is no mode is compared with `full` and `summary` in vain, like `filtered`. -/
def Factory.mode (f : Factory) : ShareMode := f.roster.councilShare.getD .filtered

/-! ## Requests -/

inductive Verdict where
  | passed (checked : ℕ) | held | killed
  deriving DecidableEq

inductive StepAnswer where
  | loop (state : LoopState)
  | snapshot (snapshot : Snapshot)
  | ideas (ideas : List Idea)
  | verdict (verdict : Verdict)
  | vote (vote : Vote)
  | proposal (proposalId : String)
  | none

inductive Lookup where
  | absent
  | recorded (name : String) (answer : Except Exn StepAnswer)
  /-- the workflow is not to go on: it was cancelled, or DBOS fails -/
  | stopped (error : Exn)

inductive FactoryAction where
  | sql (statement : Statement) (now : Datetime)
  /-- `chat_json` to the model group of the member; the temperature in tenths -/
  | chatJson (member : Staff) (system user : String) (temperature : ℕ)
  | search (query : String) (limit : ℕ)
  /-- the sources of the profile, if there is a token for them -/
  | sources
  | lookup (workflowId : String) (step : ℕ)
  | record (workflowId : String) (step : ℕ) (name : String) (answer : Except Exn StepAnswer)
  | startWorkflow (workflowId : String)
  | cancelWorkflow (workflowId : String)

@[reducible] def FactoryAction.Answer : FactoryAction → Type
  | .sql st _ => Except Exn st.Answer
  | .chatJson .. => Except Exn PyValue
  | .search .. => Except Exn (List PatentHit)
  | .sources => Option (ProfileSource → Except String String)
  | .lookup .. => Lookup
  | .record .. | .startWorkflow _ | .cancelWorkflow _ => Except Exn Unit

abbrev FactoryTask (α : Type) := ExceptT Exn (Prog FactoryAction FactoryAction.Answer) α

def request {α : Type} (a : FactoryAction) (answer : a.Answer → Except Exn α) : FactoryTask α :=
  ExceptT.mk (.act a fun r => .done (answer r))

def sql (st : Statement) (env : Supply) : FactoryTask st.Answer := request (.sql st env.utcNow) id

def chatJson (member : Staff) (system user : String) (temperature : ℕ := 8) : FactoryTask PyValue :=
  request (.chatJson member system user temperature) id

namespace Store

def loopState (env : Supply) : FactoryTask LoopState := do
  let row ← sql .loopState env
  return row.getD .run

def setLoopState (state : LoopState) (actor : String) (env : Supply) : FactoryTask Unit := do
  sql (.setLoop state) (env.sub 0)
  sql (.audit actor "loop_state") (env.sub 1)

def idea (ideaId : String) (env : Supply) : FactoryTask (Option IdeaRow) := do
  let rows ← sql (.ideas none none 100000) env
  return rows.find? fun i => i.id = ideaId

def reviewKill (ideaId : String) (verdict : Review) (actor : String) (env : Supply) : FactoryTask Unit := do
  match ← idea ideaId (env.sub 0) with
  | none => throw (.valueError "only killed ideas can be reviewed")
  | some row =>
    if row.status ≠ .killed then throw (.valueError "only killed ideas can be reviewed")
    else
      sql (.setReview ideaId verdict) (env.sub 1)
      sql (.audit actor "kill_review") (env.sub 2)

def decideProposal (proposalId : String) (decision : ProposalStatus) (reason actor : String) (env : Supply) :
    FactoryTask Unit := do
  if decision = .pending then throw (.valueError "decision must be APPROVED or REJECTED")
  else
    let rowcount ← sql (.decideProposal proposalId decision reason) (env.sub 0)
    if rowcount = 0 then throw (.valueError "unknown proposal")
    else sql (.audit actor "proposal_decision") (env.sub 1)

def activeStaff (role : String) (env : Supply) : FactoryTask Staff := do
  match ← sql (.activeStaff role) env with
  | [] => throw (.foreign "LookupError" ("no active staff for role " ++ role))
  | member :: _ => return member

end Store

namespace PyJson

/-- `value.get(key)`. -/
def get (value : PyValue) (key : String) : Except Exn (Option PyValue) :=
  match value with
  | .dict entries => .ok (entries.lookup key)
  | _ => .error (.attributeError "object has no attribute 'get'")

/-- `value.get(key) or []`, to iterate over. -/
def elements : Option PyValue → Except Exn (List PyValue)
  | none => .ok []
  | some value =>
    if !value.truthy then .ok []
    else match value with
      | .list xs => .ok xs
      | .dict entries => .ok (entries.map fun e => .str e.1)
      | .str text => .ok (text.toList.map fun c => .str (String.singleton c))
      | _ => .error (.foreign "TypeError" "object is not iterable")

/-- `(value or [])[:n]`. -/
def firstOf (n : ℕ) : Option PyValue → Except Exn (List PyValue)
  | some (.dict (_ :: _)) => .error (.foreign "TypeError" "unhashable type: 'slice'")
  | value => do
    let xs ← elements value
    return xs.take n

end PyJson

/-! ## Steps -/

section Steps

variable (f : Factory)

/-- `str(value)` where an absent value is the empty text. -/
def Factory.text (value : Option PyValue) : String := (value.map f.str).getD ""

def readLoopState (topicId : String) (env : Supply) : FactoryTask LoopState := do
  let topic ← sql (.topic topicId) (env.sub 0)
  if topic.any fun t => t.status = .killed then return .killed
  else Store.loopState (env.sub 1)

def loadProfile (topicId : String) (env : Supply) : FactoryTask Snapshot := do
  let digests ← request .sources .ok
  let snapshot := match digests with
    | some digest => fetchProfile digest f.roster.profileSources
    | none => .empty
  let _ ← sql (.staff false) (env.sub 0)
  sql (.audit "factory" "profile_access") (env.sub 1)
  sql (.event "access" (some topicId) none (some ("access:" ++ topicId))) (env.sub 2)
  return snapshot

def putIdeas (topicId : String) (count : ℕ) (member : Staff) : List (ℕ × PyValue) → List Idea → Supply →
    FactoryTask (List Idea)
  | [], ideas, _ => return ideas
  | (index, raw) :: rest, ideas, env =>
    match raw with
    | .dict entries =>
      if ((entries.lookup "title").map PyValue.truthy).getD false then do
        let idea : Idea :=
          { id := topicId ++ "-i" ++ toString (index + 1), topicId := topicId, idx := index + 1
            title := clip 200 (f.text (entries.lookup "title"))
            problem := clip 1000 (f.text (entries.lookup "problem"))
            approach := clip 1000 (f.text (entries.lookup "approach")), ideatorId := member.id }
        sql (.putIdea idea) (env.sub 0)
        if ideas.length + 1 ≥ count then return ideas ++ [idea]
        else putIdeas topicId count member rest (ideas ++ [idea]) (env.sub 1)
      else putIdeas topicId count member rest ideas env
    | _ => putIdeas topicId count member rest ideas env

def generateIdeas (topicId topic : String) (count : ℕ) (snapshot : Snapshot) (env : Supply) : FactoryTask (List Idea) := do
  let member ← Store.activeStaff "ideator" (env.sub 0)
  let data ← chatJson member
    ("너는 사업 아이디어 공장의 아이디어 담당이다. 주제에 맞는, 서로 확실히 다른 사업/제품 아이디어를 낸다. " ++ "흔한 아이디어보다 구체적인 틈새를 노린다. 모든 문장은 한국어로 쓴다.")
    ("주제: " ++ topic ++ "\n아이디어 " ++ toString count ++ "개를 " ++
      "\x7b\"ideas\":[\x7b\"title\":\"짧은 이름\",\"problem\":\"해결하는 문제 한두 문장\",\"approach\":\"어떻게 푸는지 한두 문장\"\x7d]\x7d 형식으로." ++
      contextBlock snapshot member)
  let raws ← MonadExcept.ofExcept (match data with
    | .dict entries => PyJson.elements (entries.lookup "ideas")
    | other => PyJson.elements (some other))
  let ideas ← putIdeas f topicId count member ((List.range raws.length).zip raws) [] (env.sub 1)
  if ideas.isEmpty then throw (.foreign "LLMError" "ideator returned no ideas")
  else
    sql (.event "generate" (some topicId) (some member.id) (some ("gen:" ++ topicId))) (env.sub 2)
    return ideas

/-- The title, problem and approach of an idea, as the prompts show them. -/
def Idea.brief (idea : Idea) : String :=
  "아이디어: " ++ idea.title ++ "\n문제: " ++ idea.problem ++ "\n접근: " ++ idea.approach

/-- The loop over the queries, with the hits so far and the number of searches that failed. -/
def searchEach : List String → InsertionDict String PatentHit → ℕ → FactoryTask (InsertionDict String PatentHit × ℕ)
  | [], hits, failures => return (hits, failures)
  | query :: rest, hits, failures => do
    match ← Prog.attempt (request (.search query 6) id) with
    | .ok found =>
      searchEach rest (found.foldl (fun hits hit => if hits.contains hit.number then hits else hits.set hit.number hit) hits)
        failures
    | .error _ => searchEach rest hits (failures + 1)

/-- The patent among the hits that an entry of `overlaps` names. -/
def overlapOf (hits : InsertionDict String PatentHit) (o : PyValue) : Except Exn (Option Evidence) :=
  match o with
  | .dict entries =>
    match entries.lookup "number" with
    | some (.str number) => .ok ((hits.get? number).map fun h =>
        ⟨h.number, h.title, h.snippet, h.source, h.url, clip 300 (f.text (entries.lookup "element"))⟩)
    | some (.list _) | some (.dict _) => .error (.foreign "TypeError" "unhashable type")
    | _ => .ok none
  | _ => .ok none

/-- `set_idea_verdict` and the event of the synthesizer. -/
def synthVerdict (idea : Idea) (member : Staff) (status : IdeaStatus) (evidence : Option (List Evidence)) (reason : String)
    (env : Supply) : FactoryTask Unit := do
  sql (.setIdeaVerdict idea.id status (some member.id) evidence (some reason)) (env.sub 0)
  sql (.event "synth" (some idea.topicId) (some member.id) (some ("synth:" ++ idea.id))) (env.sub 1)

def synthesize (idea : Idea) (env : Supply) : FactoryTask Verdict := do
  let member ← Store.activeStaff "synthesizer" (env.sub 0)
  if f.patents.unchecked then
    synthVerdict idea member .inCouncil (some []) "특허 미검사 (IDEA_FACTORY_PATENTS=unchecked)" (env.sub 1)
    return .passed 0
  else
    let answer ← chatJson member "너는 특허 조사관 신서사이저다. 아이디어의 핵심 기술 요소로 특허 검색어를 만든다."
      (idea.brief ++ "\n검색어 3개: 한국어 1개, 영어 2개. 각 검색어는 핵심 요소 2~4개 단어. " ++
        "\x7b\"queries\":[\"...\",\"...\",\"...\"]\x7d") 2
    let queries ← MonadExcept.ofExcept (match answer with
      | .dict entries => PyJson.firstOf 3 (entries.lookup "queries")
      | _ => .ok [])
    let found ← searchEach (queries.map f.str) .empty 0
    if queries.isEmpty ∨ found.2 = queries.length then
      synthVerdict idea member .held none "특허 조사 불가 (검색 실패)" (env.sub 1)
      return .held
    else
      let listing := "\n".intercalate ((found.1.entries.take 15).map fun e =>
        "- [" ++ e.1 ++ "] " ++ e.2.title ++ " :: " ++ clip 250 e.2.snippet)
      let judgment ← chatJson member
        ("너는 특허 조사관 신서사이저다. 아이디어의 핵심 요소와 실질적으로 겹치는 특허가 하나라도 있으면 그 아이디어는 폐기다. " ++
          "단어가 비슷한 것만으로는 겹침이 아니다. 아이디어를 성립시키는 핵심 요소(무엇을, 어떤 방식으로)가 특허에 이미 있어야 겹침이다.")
        (idea.brief ++ "\n\n검색된 특허:\n" ++ (if listing = "" then "(없음)" else listing) ++ "\n\n" ++
          "\x7b\"overlaps\":[\x7b\"number\":\"특허번호\",\"element\":\"겹치는 핵심 요소\"\x7d],\"reason\":\"판단 이유 한 문장\"\x7d " ++
          "겹침이 없으면 overlaps는 빈 배열.") 1
      let overlaps ← MonadExcept.ofExcept (do
        let listed ← PyJson.elements (← PyJson.get judgment "overlaps")
        listed.mapM (overlapOf f found.1))
      let reason ← MonadExcept.ofExcept (PyJson.get judgment "reason")
      let evidence := overlaps.filterMap id
      if evidence ≠ [] then
        synthVerdict idea member .killed (some evidence) (clip 500 (f.text reason)) (env.sub 1)
        return .killed
      else
        synthVerdict idea member .inCouncil (some []) (clip 500 (f.text reason)) (env.sub 1)
        return .passed found.1.entries.length

/-- `COUNCIL` -/
def council : List String := ["visionary", "operator", "advocate", "skeptic"]

/-- `ROLE_BRIEF` -/
def roleBrief : String → Except Exn String
  | "visionary" => .ok "비저너리. 이 아이디어가 크게 보면 무엇이 될 수 있는지, 확장성과 장기 가치를 본다."
  | "operator" => .ok "오퍼레이터. 실제로 만들고 운영하는 데 필요한 인력·비용·기간과 운영 난이도, 공수를 본다."
  | "advocate" => .ok "애드보킷. 실제 사용자/고객 입장에서 왜 쓰는지, 돈을 낼 의사가 있는지를 본다."
  | "skeptic" => .ok "스켑틱. 왜 실패하는지, 숨은 전제와 리스크를 찾는다. 쉽게 지지하지 않는다."
  | role => .error (.keyError role)

def voteAsk (mode : ShareMode) (finalRound : Bool) (sources : List String) : String :=
  let ask := if finalRound then
      "최종 라운드다. 조건부는 없다. 조건이 충족 가능하다고 보면 support, 아니면 oppose. " ++
        "\x7b\"stance\":\"support|oppose\",\"reason\":\"근거 두세 문장\""
    else "\x7b\"stance\":\"support|oppose|conditional\",\"reason\":\"근거 두세 문장\""
  if sources ≠ [] ∧ mode = .summary then
    -- a second, fact-free version of the reason
    ask ++ ",\"reason_public\":\"같은 판단을 의뢰인 정보의 구체 내용(숫자·금액·프로젝트명·일정) 없이 " ++ "'의뢰인 사정상 ~' 수준으로만 쓴 한두 문장\"\x7d"
  else ask ++ "\x7d"

def councilPrompt (idea : Idea) (roundNo : ℕ) (brief : String) (member : Staff) (transcript : List Vote)
    (snapshot : Snapshot) : String × String :=
  let finalRound := decide (roundNo = f.roster.councilRounds)
  let patentNote := if f.patents.unchecked then "미검사" else "겹치는 특허 없음"
  let sources := sourcesOf member snapshot
  let talk := transcriptFor f.mode f.classes sources transcript snapshot
  let earlier := if talk = "" then "(첫 발언)" else talk
  ("너는 사업 아이디어 회의의 " ++ brief ++ " 다른 사람 의견에 휩쓸리지 말고 네 관점으로 판단한다. 한국어로 쓴다.",
    idea.brief ++ "\n특허 조사: " ++ patentNote ++ "\n\n지금까지 회의:\n" ++ earlier ++ "\n\n" ++ toString roundNo ++
      "라운드 발언. " ++ voteAsk f.mode finalRound sources ++ contextBlock snapshot member)

def stanceOf (finalRound : Bool) (text : String) : Stance :=
  match text with
  | "support" => .support
  | "oppose" => .oppose
  | "conditional" => if finalRound then .oppose else .conditional
  | _ => if finalRound then .oppose else .conditional

def voteOf (roundNo : ℕ) (role : String) (member : Staff) (sources : List String) (data : PyValue) : Except Exn Vote := do
  let stance ← PyJson.get data "stance"
  let reason ← PyJson.get data "reason"
  let summary ← PyJson.get data "reason_public"
  return {
    round := roundNo, role := role, staffId := member.id, name := member.name
    stance := stanceOf (decide (roundNo = f.roster.councilRounds)) (f.lower (f.text stance))
    reason := clip 1200 (f.text reason), sources := some sources
    reasonPublic := if sources ≠ [] ∧ (summary.map PyValue.truthy).getD false then some (clip 600 (f.text summary)) else none }

def councilVote (idea : Idea) (roundNo : ℕ) (role : String) (transcript : List Vote) (snapshot : Snapshot) (env : Supply) :
    FactoryTask Vote := do
  let member ← Store.activeStaff role (env.sub 0)
  let brief ← MonadExcept.ofExcept (roleBrief role)
  let prompt := councilPrompt f idea roundNo brief member transcript snapshot
  let data ← chatJson member prompt.1 prompt.2 7
  let vote ← MonadExcept.ofExcept (voteOf f roundNo role member (sourcesOf member snapshot) data)
  sql (.putVote ⟨idea.id, roundNo, member.id, vote.stance, vote.reason⟩) (env.sub 1)
  sql (.event "council" (some idea.topicId) (some member.id)
    (some ("vote:" ++ idea.id ++ ":" ++ toString roundNo ++ ":" ++ role))) (env.sub 2)
  return vote

/-- `{k: v[k] for k in ("round", "name", "stance", "reason")}`. -/
def Vote.shown (v : Vote) : PyValue :=
  .dict [("round", .int v.round), ("name", .str v.name), ("stance", .str v.stance.value), ("reason", .str v.reason)]

/-- `x or y`. -/
def orElse (x y : PyValue) : PyValue := if x.truthy then x else y

def proposalBody (idea : Idea) (transcript : List Vote) (checked : ℕ) (entries : List (String × PyValue)) : PyDict :=
  let body : PyDict := ["title", "problem", "approach", "dod", "risks", "market", "effort", "first_step"].foldl
    (fun body k => body.set k ((entries.lookup k).getD .none)) .empty
  let body := body.set "title" (orElse ((entries.lookup "title").getD .none) (.str idea.title))
  let body := body.set "patent_check" (.str (if f.patents.unchecked then "특허 미검사 — KIPRIS 키 설정 후 재검사 필요"
    else "관련 특허 없음 (검색 " ++ toString checked ++ "건, " ++ f.patents.name ++ ")"))
  body.set "votes" (.list (transcript.map Vote.shown))

def proposalId (ideaId : String) : String := ideaId ++ "-p"

def writeProposal (idea : Idea) (transcript : List Vote) (checked : ℕ) (snapshot : Snapshot) (env : Supply) :
    FactoryTask String := do
  let member ← Store.activeStaff "operator" (env.sub 0)
  let talk := transcriptFor f.mode f.classes (sourcesOf member snapshot) transcript snapshot "R"
  let data ← chatJson member "너는 회의 결과를 사용자에게 보고할 기획안으로 정리한다. 회의에서 나온 리스크를 숨기지 않는다. 한국어로 쓴다."
    (idea.brief ++ "\n회의:\n" ++ talk ++ "\n\n" ++
      "\x7b\"title\":\"\",\"problem\":\"\",\"approach\":\"\",\"dod\":[\"완료 조건\"],\"risks\":[\"리스크\"]," ++
      "\"market\":\"시장·경쟁 상황\",\"effort\":\"S|M|L\",\"first_step\":\"가장 먼저 할 일\"\x7d" ++ contextBlock snapshot member) 3
  match data with
  | .dict entries =>
    sql (.putProposal (proposalId idea.id) idea.topicId idea.id
      (f.jsonDumps (proposalBody f idea transcript checked entries))) (env.sub 1)
    sql (.setIdeaVerdict idea.id .proposed none none none) (env.sub 2)
    sql (.event "proposal" (some idea.topicId) (some member.id) (some ("proposal:" ++ idea.id))) (env.sub 3)
    return proposalId idea.id
  | _ => throw (.attributeError "object has no attribute 'get'")

def rejectInCouncil (idea : Idea) (supports : ℕ) (env : Supply) : FactoryTask Unit := do
  sql (.setIdeaVerdict idea.id .rejected none none (some ("회의 최종 지지 " ++ toString supports ++ "/4"))) (env.sub 0)
  sql (.event "council" (some idea.topicId) none (some ("reject:" ++ idea.id))) (env.sub 1)

def finishTopic (topicId : String) (status : TopicStatus) (env : Supply) : FactoryTask Unit := do
  sql (.setTopicStatus topicId status) (env.sub 0)
  sql (.event "topic" (some topicId) none (some ("finish:" ++ topicId))) (env.sub 1)

end Steps

end AllTomorrow.IdeaFactory
