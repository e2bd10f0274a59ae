import AllTomorrow.FactorySteps

/-!
# The workflow of the idea factory

`factory_run` as a program over steps, its durable execution, in which a step is looked up in the
journal before it is executed and recorded after, and the calls that start and kill topics.
-/

namespace AllTomorrow.IdeaFactory

/-! ## The workflow over its steps -/

inductive StepCall where
  | readLoopState (topicId : String)
  /-- `DBOS.sleep` is recorded like a step -/
  | sleep
  | loadProfile (topicId : String)
  | generateIdeas (topicId topic : String) (count : ℕ) (snapshot : Snapshot)
  | synthesize (idea : Idea)
  | councilVote (idea : Idea) (roundNo : ℕ) (role : String) (transcript : List Vote) (snapshot : Snapshot)
  | writeProposal (idea : Idea) (transcript : List Vote) (checked : ℕ) (snapshot : Snapshot)
  | rejectInCouncil (idea : Idea) (supports : ℕ)
  | finishTopic (topicId : String) (status : TopicStatus)

def StepCall.name : StepCall → String
  | .readLoopState _ => "read_loop_state"
  | .sleep => "DBOS.sleep"
  | .loadProfile _ => "load_profile"
  | .generateIdeas .. => "generate_ideas"
  | .synthesize _ => "synthesize"
  | .councilVote .. => "council_vote"
  | .writeProposal .. => "write_proposal"
  | .rejectInCouncil .. => "reject_in_council"
  | .finishTopic .. => "finish_topic"

/-- `max_attempts` -/
def StepCall.attempts : StepCall → ℕ
  | .generateIdeas .. | .synthesize _ | .councilVote .. | .writeProposal .. => 3
  | _ => 1

abbrev Workflow (α : Type) := ExceptT Exn (Prog StepCall fun _ => Except Exn StepAnswer) α

def unexpected {α : Type} : Workflow α := throw (.foreign "DBOSUnexpectedStepError" "")

def call (c : StepCall) : Workflow StepAnswer := ExceptT.mk (.act c .done)

namespace Workflow

def readLoopState (topicId : String) : Workflow LoopState := do
  match ← call (.readLoopState topicId) with
  | .loop state => return state
  | _ => unexpected

/-- `while state == "PAUSED"`. A run that sleeps more than `polls` times is cut off. -/
def awaitState (topicId : String) : ℕ → LoopState → Workflow LoopState
  | 0, .paused => throw (.foreign "CutOff" "")
  | polls + 1, .paused => do
    let _ ← call .sleep
    awaitState topicId polls (← readLoopState topicId)
  | _, state => return state

def checkpoint (polls : ℕ) (topicId : String) : Workflow Bool := do
  let state ← awaitState topicId polls (← readLoopState topicId)
  return state ≠ .killed

def finishKilled (topicId : String) : Workflow TopicStatus := do
  let _ ← call (.finishTopic topicId .killed)
  return .killed

/-- The votes in their order, each after a checkpoint; `none` if the topic was killed meanwhile. -/
def councilVotes (polls : ℕ) (topicId : String) (idea : Idea) (snapshot : Snapshot) :
    List (ℕ × String) → List Vote → Workflow (Option (List Vote))
  | [], transcript => return some transcript
  | (roundNo, role) :: rest, transcript => do
    if ← checkpoint polls topicId then
      match ← call (.councilVote idea roundNo role transcript snapshot) with
      | .vote vote => councilVotes polls topicId idea snapshot rest (transcript ++ [vote])
      | _ => unexpected
    else return none

/-- `range(1, council_rounds + 1)` and the council in each round. -/
def turns (rounds : ℕ) : List (ℕ × String) :=
  (List.range rounds).flatMap fun i => council.map fun role => (i + 1, role)

def concludeIdea (roster : Roster) (idea : Idea) (transcript : List Vote) (checked : ℕ) (snapshot : Snapshot) :
    Workflow Unit := do
  let supports := (transcript.filter fun v => v.round = roster.councilRounds).countP fun v => v.stance = .support
  if supports ≥ roster.councilPassVotes then
    let _ ← call (.writeProposal idea transcript checked snapshot)
  else
    let _ ← call (.rejectInCouncil idea supports)

def eachIdea (polls : ℕ) (roster : Roster) (topicId : String) (snapshot : Snapshot) : List Idea → Workflow Bool
  | [] => return true
  | idea :: rest => do
    if ← checkpoint polls topicId then
      match ← call (.synthesize idea) with
      | .verdict (.passed checked) =>
        match ← councilVotes polls topicId idea snapshot (turns roster.councilRounds) [] with
        | none => return false
        | some transcript =>
          concludeIdea roster idea transcript checked snapshot
          eachIdea polls roster topicId snapshot rest
      | .verdict _ => eachIdea polls roster topicId snapshot rest
      | _ => unexpected
    else return false

def factoryRun (polls : ℕ) (roster : Roster) (topicId topic : String) : Workflow TopicStatus := do
  if ← checkpoint polls topicId then
    match ← call (.loadProfile topicId) with
    | .snapshot snapshot =>
      match ← call (.generateIdeas topicId topic roster.ideasPerTopic snapshot) with
      | .ideas ideas =>
        if ← eachIdea polls roster topicId snapshot ideas then
          let _ ← call (.finishTopic topicId .done)
          return .done
        else finishKilled topicId
      | _ => unexpected
    | _ => unexpected
  else finishKilled topicId

end Workflow

section Execution

variable (f : Factory)

def StepCall.body : StepCall → Supply → FactoryTask StepAnswer
  | .readLoopState topicId, env => do return .loop (← IdeaFactory.readLoopState topicId env)
  | .sleep, _ => return .none
  | .loadProfile topicId, env => do return .snapshot (← IdeaFactory.loadProfile f topicId env)
  | .generateIdeas topicId topic count snapshot, env => do
    return .ideas (← IdeaFactory.generateIdeas f topicId topic count snapshot env)
  | .synthesize idea, env => do return .verdict (← IdeaFactory.synthesize f idea env)
  | .councilVote idea roundNo role transcript snapshot, env => do
    return .vote (← IdeaFactory.councilVote f idea roundNo role transcript snapshot env)
  | .writeProposal idea transcript checked snapshot, env => do
    return .proposal (← IdeaFactory.writeProposal f idea transcript checked snapshot env)
  | .rejectInCouncil idea supports, env => do
    IdeaFactory.rejectInCouncil idea supports env
    return .none
  | .finishTopic topicId status, env => do
    IdeaFactory.finishTopic topicId status env
    return .none

/-- A step that raises is executed again, `attempts` times in all. -/
def retried (body : Supply → FactoryTask StepAnswer) : ℕ → Supply → FactoryTask StepAnswer
  | 0, env => body env
  | more + 1, env => do
    match ← Prog.attempt (body (env.sub 0)) with
    | .ok answer => return answer
    | .error _ => retried body more (env.sub 1)

/-- The step with the given number: from the journal, or executed and recorded. -/
def runStep (workflowId : String) (n : ℕ) (c : StepCall) (env : Supply) :
    Prog FactoryAction FactoryAction.Answer (Except Exn (Except Exn StepAnswer)) :=
  .act (.lookup workflowId n) fun
    | .stopped error => .done (.error error)
    | .recorded name answer =>
      if name = c.name then .done (.ok answer) else .done (.error (.foreign "DBOSUnexpectedStepError" name))
    | .absent =>
      (retried (c.body f) (c.attempts - 1) env).run >>= fun answer =>
        .act (.record workflowId n c.name answer) fun
          | .ok _ => .done (.ok answer)
          | .error error => .done (.error error)

/-- A workflow with its steps numbered from `n`. What stops it is no exception of a step. -/
def durable {α : Type} (workflowId : String) : Prog StepCall (fun _ => Except Exn StepAnswer) (Except Exn α) → ℕ → Supply →
      Prog FactoryAction FactoryAction.Answer (Except Exn α)
  | .done result, _, _ => .done result
  | .act c rest, n, env => runStep f workflowId n c (env.sub 0) >>= fun
    | .ok answer => durable workflowId (rest answer) (n + 1) (env.sub 1)
    | .error error => .done (.error error)

/-- An execution of `factory_run` from its beginning, the first one or a recovery. -/
def execution (polls : ℕ) (topicId topic : String) (env : Supply) : FactoryTask TopicStatus :=
  durable f topicId (Workflow.factoryRun polls f.roster topicId topic) 0 env

end Execution

def startTopic (text actor : String) (env : Supply) : FactoryTask String := do
  let text := PyText.strip text
  let topicId := "t" ++ clip 10 ((env.sub 3) []).uuid
  if text = "" then throw (.valueError "topic must not be empty")
  else
    if (← Store.loopState (env.sub 0)) = .killed then
      throw (.runtimeError "loop is KILLED; reset it before starting a topic")
    else
      sql (.addTopic topicId text) (env.sub 1)
      sql (.audit actor "topic_start") (env.sub 2)
      request (.startWorkflow topicId) id
      return topicId

/-- The loop of `kill_all` over the topics it has read. -/
def killEach : List Topic → Supply → FactoryTask ℕ
  | [], _ => return 0
  | topic :: rest, env => do
    if topic.status = .running then
      sql (.setTopicStatus topic.id .killed) (env.sub 0)
      request (.cancelWorkflow topic.id) id
      let cancelled ← killEach rest (env.sub 1)
      return cancelled + 1
    else killEach rest (env.sub 1)

def killAll (actor : String) (env : Supply) : FactoryTask ℕ := do
  Store.setLoopState .killed actor (env.sub 0)
  let topics ← sql (.topics 1000) (env.sub 1)
  killEach topics (env.sub 2)

end AllTomorrow.IdeaFactory
