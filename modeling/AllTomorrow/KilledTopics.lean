import Mathlib.Data.List.Induction
import AllTomorrow.AnsweredPrograms
import AllTomorrow.FactoryWorld
import AllTomorrow.MachineRuns

/-!
# Killed topics

Executions of `factory_run`, recoveries among them, run beside calls that kill everything, reset the
loop and start topics, one statement of the store or request to DBOS at a time. When a topic that
was killed stays killed.
-/

namespace AllTomorrow.IdeaFactory

open Prog MachineRuns

/-! ## Calls -/

inductive FactoryCall where
  /-- `factory_run` from its beginning: the start of a topic or a recovery -/
  | execute (polls : ℕ) (topicId topic : String)
  | startTopic (text actor : String)
  | killAll (actor : String)
  | setLoopState (state : LoopState) (actor : String)

def FactoryCall.program (f : Factory) (env : Supply) : FactoryCall → FactoryTask Unit
  | .execute polls topicId topic => do let _ ← execution f polls topicId topic env
  | .startTopic text actor => do let _ ← IdeaFactory.startTopic text actor env
  | .killAll actor => do let _ ← IdeaFactory.killAll actor env
  | .setLoopState state actor => Store.setLoopState state actor env

/-- A call for each client, over a store without topics. -/
def factoryPool {ι π : Type} (f : Factory) (calls : ι → FactoryCall) (env : ι → Supply) (s : FactoryStore) (outside : π) :
    FactoryPool ι π :=
  ⟨fun i => ((calls i).program f (env i)).run, ⟨{ s with topics := .empty }, outside⟩⟩

section Laws

variable {ι π : Type}

def FactoryStore.topicStatus (s : FactoryStore) (topicId : String) : Option TopicStatus :=
  (s.topics.get? topicId).map Topic.status

variable [DecidableEq ι]

/-- The step leaves a killed topic killed. -/
def KeepsKilled (h : Handler FactoryAction FactoryAction.Answer (FactoryWorld π)) (p : FactoryPool ι π) (i : ι) : Prop :=
  ∀ topicId, p.state.store.topicStatus topicId = some .killed → (p.step h i).state.store.topicStatus topicId = some .killed

/-- Between a kill of a topic and the write of another status, the execution that writes it reads the topic at a
checkpoint. -/
def ChecksBeforeDone (h : Handler FactoryAction FactoryAction.Answer (FactoryWorld π)) (p : FactoryPool ι π)
    (schedule : List ι) : Prop :=
  ∀ before i middle j after topicId status, schedule = before ++ i :: (middle ++ j :: after) →
    (run (Pool.step h) p before).state.store.topicStatus topicId ≠ none →
    Executes (run (Pool.step h) p before) i (.setTopicStatus topicId .killed) → status ≠ .killed →
    Executes (run (Pool.step h) p (before ++ i :: middle)) j (.setTopicStatus topicId status) →
      ∃ m m', middle = m ++ j :: m' ∧ Executes (run (Pool.step h) p (before ++ i :: m)) j (.topic topicId)

end Laws

def Finishes (topicId : String) : FactoryAction → Prop
  | .sql (.setTopicStatus t status) _ => t = topicId ∧ status ≠ .killed
  | _ => False

def StepCall.Finishes (topicId : String) : StepCall → Prop
  | .finishTopic t status => t = topicId ∧ status ≠ .killed
  | _ => False

def SeesKilled (topicId : String) : (a : FactoryAction) → a.Answer → Prop
  | .sql (.topic t) _, r => t = topicId ∧ ∃ topic, r = .ok (some topic) ∧ topic.status = .killed
  | _, _ => False

def ReportsKilled (topicId : String) (c : StepCall) (answer : Except Exn StepAnswer) : Prop :=
  ∀ a, answer = .ok a → c = .readLoopState topicId ∧ a = .loop .killed

section SeenKilled

variable {f : Factory} {topicId : String} {a : FactoryAction}

theorem Aside.not_sees {own : Option String} (ha : Aside own a) (r : a.Answer) : ¬SeesKilled topicId a r := by
  cases a with
  | sql st now =>
    cases st with
    | topic t => exact fun _ => ha
    | _ => exact id
  | _ => exact id

theorem Aside.not_finishes {own : Option String} (ha : Aside own a) : ¬Finishes topicId a := by
  cases a with
  | sql st now =>
    cases st with
    | setTopicStatus t status => exact fun _ => ha
    | _ => exact id
  | _ => exact id

variable {c : StepCall}

theorem requests_body (hc : ¬c.Finishes topicId) (env : Supply) :
    TaskRequests (fun a => ¬Finishes topicId a) (c.body f env) := by
  refine requests_step (fun _ ha => ha.not_finishes) (fun _ _ _ => id) ?_ env
  rintro t status now rfl
  exact hc

theorem readLoopState_after (t : String) (env : Supply) :
    TaskAfter (SeesKilled topicId) (fun a => ¬Finishes topicId a) (fun state => state = .killed) (readLoopState t env) := by
  have hread : TaskAfter (SeesKilled topicId) (fun a => ¬Finishes topicId a)
      (fun topic => topic.any (fun topic => topic.status = .killed) = true) (sql (.topic t) (env.sub 0)) := by
    refine ⟨fun r hseen => ⟨trivial, ?_⟩, fun r => trivial⟩
    obtain ⟨-, topic, rfl, hkilled⟩ := hseen
    rintro _ ⟨⟩
    simpa using hkilled
  refine TaskAfter.bind hread (fun topic => ?_) fun topic h => ?_
  · split
    · exact taskAfter_pure
    · exact taskAfter_of_requests (@requests_loopState none _) fun a ha r => ha.not_sees r
  · rw [if_pos h]
    exact ⟨trivial, taskReturns_pure rfl⟩

/-- Only the checkpoint of the topic sees that it is killed. -/
theorem StepCall.never_sees (hc : c ≠ .readLoopState topicId) (env : Supply) :
    TaskRequests (fun a => ∀ r, ¬SeesKilled topicId a r) (c.body f env) := by
  refine requests_step (fun _ ha r => ha.not_sees r) ?_ (fun _ _ _ _ _ => id) env
  rintro t now rfl r ⟨rfl, _⟩
  exact hc rfl

theorem step_after (c : StepCall) (env : Supply) :
    AfterAnswer (SeesKilled topicId) (fun a => ¬Finishes topicId a) (ReportsKilled topicId c)
      (retried (c.body f) (c.attempts - 1) env).run := by
  by_cases hc : c = .readLoopState topicId
  · subst hc
    refine TaskAfter.bind (Q := fun state => state = .killed) (readLoopState_after topicId env) (fun _ => trivial) ?_
    rintro _ rfl
    exact ⟨trivial, taskReturns_pure ⟨rfl, rfl⟩⟩
  · exact afterAnswer_of_requests (requests_retried (fun env => StepCall.never_sees hc env) _ _) fun _ ha => ha

/-! ### The workflow -/

theorem taskRequests_call {ok : StepCall → Prop} (hc : ok c) : TaskRequests ok (call c) :=
  ⟨hc, fun _ => trivial⟩

theorem call_after {ok : StepCall → Prop} (c : StepCall) :
    TaskAfter (ReportsKilled topicId) ok (fun answer => c = .readLoopState topicId ∧ answer = .loop .killed) (call c) := by
  exact ⟨fun r hr => ⟨trivial, hr⟩, fun r => trivial⟩

variable {α : Type}

theorem bind_call_after {ok : StepCall → Prop} {Q : α → Prop} {k : StepAnswer → Workflow α}
    (hc : c ≠ .readLoopState topicId) (hk : ∀ answer, TaskAfter (ReportsKilled topicId) ok Q (k answer)) :
    TaskAfter (ReportsKilled topicId) ok Q (call c >>= k) :=
  TaskAfter.bind (call_after c) hk fun _ h => absurd h.1 hc

namespace Workflow

variable {ok : StepCall → Prop} (t : String)

theorem readLoopState_after : TaskAfter (ReportsKilled topicId) ok (fun state => state = .killed) (readLoopState t) := by
  refine TaskAfter.bind (call_after _) (fun answer => ?_) ?_
  · cases answer <;> trivial
  · rintro _ ⟨-, rfl⟩
    exact ⟨trivial, taskReturns_pure rfl⟩

theorem awaitState_killed (polls : ℕ) : awaitState t polls .killed = pure .killed := by
  cases polls <;> rfl

theorem awaitState_after (polls : ℕ) (state : LoopState) :
    TaskAfter (ReportsKilled topicId) ok (fun state => state = .killed) (awaitState t polls state) := by
  induction polls generalizing state with
  | zero => cases state <;> trivial
  | succ polls ih =>
    cases state with
    | run => exact taskAfter_pure
    | killed => exact taskAfter_pure
    | paused =>
      refine bind_call_after (fun h => by cases h) fun _ => ?_
      refine TaskAfter.bind (readLoopState_after t) ih ?_
      rintro _ rfl
      rw [awaitState_killed]
      exact ⟨trivial, taskReturns_pure rfl⟩

theorem checkpoint_after (polls : ℕ) : TaskAfter (ReportsKilled topicId) ok (fun go => go = false) (checkpoint polls t) := by
  refine TaskAfter.bind (readLoopState_after t) (fun state => ?_) ?_
  · refine TaskAfter.bind (awaitState_after t polls state) (fun _ => taskAfter_pure) ?_
    rintro _ rfl
    exact ⟨trivial, taskReturns_pure rfl⟩
  · rintro _ rfl
    rw [awaitState_killed]
    exact ⟨trivial, taskReturns_pure rfl⟩

theorem councilVotes_after (polls : ℕ) (t : String) (idea : Idea) (snapshot : Snapshot) (order : List (ℕ × String))
    (transcript : List Vote) :
    TaskAfter (ReportsKilled topicId) ok (fun votes => votes = none) (councilVotes polls t idea snapshot order transcript) := by
  induction order generalizing transcript with
  | nil => exact taskAfter_pure
  | cons turn rest ih =>
    obtain ⟨roundNo, role⟩ := turn
    refine TaskAfter.bind (checkpoint_after t polls) (fun go => ?_) ?_
    · cases go with
      | false => exact taskAfter_pure
      | true =>
        refine bind_call_after (fun h => by cases h) fun answer => ?_
        cases answer with
        | vote vote => exact ih _
        | _ => exact taskAfter_throw
    · rintro _ rfl
      exact ⟨trivial, taskReturns_pure rfl⟩

theorem concludeIdea_after (roster : Roster) (idea : Idea) (transcript : List Vote) (checked : ℕ) (snapshot : Snapshot) :
    TaskAfter (ReportsKilled topicId) ok (fun _ => False) (concludeIdea roster idea transcript checked snapshot) := by
  unfold concludeIdea
  dsimp only
  split
  · exact bind_call_after (fun h => by cases h) fun _ => taskAfter_pure
  · exact bind_call_after (fun h => by cases h) fun _ => taskAfter_pure

theorem eachIdea_after (polls : ℕ) (roster : Roster) (t : String) (snapshot : Snapshot) (ideas : List Idea) :
    TaskAfter (ReportsKilled topicId) ok (fun go => go = false) (eachIdea polls roster t snapshot ideas) := by
  induction ideas with
  | nil => exact taskAfter_pure
  | cons idea rest ih =>
    refine TaskAfter.bind (checkpoint_after t polls) (fun go => ?_) ?_
    · cases go with
      | false => exact taskAfter_pure
      | true =>
        refine bind_call_after (fun h => by cases h) fun answer => ?_
        cases answer with
        | verdict verdict =>
          cases verdict with
          | passed checked =>
            refine TaskAfter.bind (councilVotes_after ..) (fun votes => ?_) ?_
            · cases votes with
              | none => exact taskAfter_pure
              | some transcript => exact TaskAfter.bind (concludeIdea_after ..) (fun _ => ih) fun _ => False.elim
            · rintro _ rfl
              exact ⟨trivial, taskReturns_pure rfl⟩
          | held => exact ih
          | killed => exact ih
        | _ => exact taskAfter_throw
    · rintro _ rfl
      exact ⟨trivial, taskReturns_pure rfl⟩

theorem requests_finishKilled : TaskRequests (fun c => ¬c.Finishes topicId) (finishKilled t) :=
  TaskRequests.bind (taskRequests_call fun h => h.2 rfl) fun _ => trivial

/-- After a checkpoint that reports a kill the workflow writes no DONE. -/
theorem factoryRun_after (polls : ℕ) (roster : Roster) (t topic : String) :
    TaskAfter (ReportsKilled topicId) (fun c => ¬c.Finishes topicId) (fun _ => True) (factoryRun polls roster t topic) := by
  have hkilled : TaskAfter (ReportsKilled topicId) (fun c => ¬c.Finishes topicId) (fun _ => True)
      (finishKilled t) := taskAfter_of_only (requests_finishKilled t) (taskReturns_true _)
  refine TaskAfter.bind (checkpoint_after t polls) (fun go => ?_) ?_
  · cases go with
    | false => exact hkilled
    | true =>
      refine bind_call_after (fun h => by cases h) fun answer => ?_
      cases answer with
      | snapshot snapshot =>
        refine bind_call_after (fun h => by cases h) fun answer => ?_
        cases answer with
        | ideas ideas =>
          refine TaskAfter.bind (eachIdea_after ..) (fun go => ?_) ?_
          · cases go with
            | false => exact hkilled
            | true => exact bind_call_after (fun h => by cases h) fun _ => taskAfter_pure
          · rintro _ rfl
            exact ⟨requests_finishKilled t, taskReturns_true _⟩
        | _ => exact taskAfter_throw
      | _ => exact taskAfter_throw
  · rintro _ rfl
    exact ⟨requests_finishKilled t, taskReturns_true _⟩

end Workflow

/-! ### The durable execution -/

theorem requests_runStep (hc : ¬c.Finishes topicId) (workflowId : String) (n : ℕ) (env : Supply) :
    OnlyRequests (fun a => ¬Finishes topicId a) (runStep f workflowId n c env) := by
  refine ⟨id, fun found => ?_⟩
  cases found with
  | stopped error => trivial
  | recorded name answer =>
    dsimp only
    split <;> trivial
  | absent =>
    refine OnlyRequests.bind (requests_retried (fun env => requests_body hc env) _ _) fun answer => ?_
    refine ⟨id, fun stored => ?_⟩
    cases stored <;> trivial

theorem runStep_after (c : StepCall) (workflowId : String) (n : ℕ) (env : Supply) :
    AfterAnswer (SeesKilled topicId) (fun a => ¬Finishes topicId a)
      (fun result => ∀ answer, result = .ok answer → ReportsKilled topicId c answer) (runStep f workflowId n c env) := by
  refine ⟨fun _ h => h.elim, fun found => ?_⟩
  cases found with
  | stopped error => trivial
  | recorded name answer =>
    dsimp only
    split <;> trivial
  | absent =>
    refine AfterAnswer.bind (step_after c _) (fun answer => ?_) fun answer hreports => ?_
    · refine ⟨fun _ h => h.elim, fun stored => ?_⟩
      cases stored <;> trivial
    · refine ⟨⟨id, fun stored => ?_⟩, fun stored => ?_⟩
      · cases stored <;> trivial
      · cases stored with
        | ok _ =>
          rintro _ ⟨⟩
          exact hreports
        | error e =>
          rintro _ ⟨⟩

theorem requests_durable {p : Prog StepCall (fun _ => Except Exn StepAnswer) (Except Exn α)}
    (hp : OnlyRequests (fun c => ¬c.Finishes topicId) p) (workflowId : String) (n : ℕ) (env : Supply) :
    OnlyRequests (fun a => ¬Finishes topicId a) (durable f workflowId p n env) := by
  induction p generalizing n env with
  | done result => trivial
  | act c rest ih =>
    unfold durable
    refine OnlyRequests.bind (requests_runStep hp.1 ..) fun result => ?_
    cases result with
    | ok answer => exact ih answer (hp.2 answer) _ _
    | error e => trivial

theorem durable_after {Q : Except Exn α → Prop} {p : Prog StepCall (fun _ => Except Exn StepAnswer) (Except Exn α)}
    (hp : AfterAnswer (ReportsKilled topicId) (fun c => ¬c.Finishes topicId) Q p) (workflowId : String) (n : ℕ)
    (env : Supply) :
    AfterAnswer (SeesKilled topicId) (fun a => ¬Finishes topicId a) (fun _ => True) (durable f workflowId p n env) := by
  induction p generalizing n env with
  | done result => trivial
  | act c rest ih =>
    unfold durable
    refine AfterAnswer.bind (runStep_after c ..) (fun result => ?_) fun result hreports => ?_
    · cases result with
      | ok answer => exact ih answer (hp.2 answer) _ _
      | error e => trivial
    · cases result with
      | ok answer => exact ⟨requests_durable (hp.1 answer (hreports answer rfl)).1 .., onlyReturns_true _⟩
      | error e => exact ⟨trivial, trivial⟩

theorem execution_after (polls : ℕ) (t topic : String) (env : Supply) :
    TaskAfter (SeesKilled topicId) (fun a => ¬Finishes topicId a) (fun _ => True) (execution f polls t topic env) := by
  refine AfterAnswer.mono (durable_after (Workflow.factoryRun_after polls f.roster t topic) t 0 env) ?_
  exact fun _ _ _ _ => trivial

theorem requests_startTopic (topicId text actor : String) (env : Supply) :
    TaskRequests (fun a => ∀ r, ¬SeesKilled topicId a r) (startTopic text actor env) := by
  unfold startTopic
  generalize PyText.strip text = stripped
  dsimp only
  split
  · trivial
  refine TaskRequests.bind (OnlyRequests.mono (@requests_loopState none _) fun _ ha r => ha.not_sees r) fun state => ?_
  split
  · trivial
  refine TaskRequests.bind (taskRequests_sql fun _ => id) fun _ => ?_
  refine TaskRequests.bind (taskRequests_sql fun _ => id) fun _ => ?_
  exact TaskRequests.bind (taskRequests_request fun _ => id) fun _ => trivial

theorem requests_killEach (topics : List Topic) (env : Supply) :
    TaskRequests (fun a => ∀ r, ¬SeesKilled topicId a r) (killEach topics env) := by
  induction topics generalizing env with
  | nil => trivial
  | cons topic rest ih =>
    unfold killEach
    split
    · refine TaskRequests.bind (taskRequests_sql fun _ => id) fun _ => ?_
      refine TaskRequests.bind (taskRequests_request fun _ => id) fun _ => ?_
      exact TaskRequests.bind (ih _) fun _ => trivial
    · exact ih _

theorem requests_killAll (actor : String) (env : Supply) :
    TaskRequests (fun a => ∀ r, ¬SeesKilled topicId a r) (killAll actor env) := by
  refine TaskRequests.bind (TaskRequests.bind (taskRequests_sql fun _ => id) fun _ => ?_) fun _ => ?_
  · exact taskRequests_sql fun _ => id
  · exact TaskRequests.bind (taskRequests_sql fun _ => id) fun topics => requests_killEach topics _

theorem FactoryCall.after_seen (c : FactoryCall) (env : Supply) :
    TaskAfter (SeesKilled topicId) (fun a => ¬Finishes topicId a) (fun _ => True) (c.program f env) := by
  have hfree {x : FactoryTask Unit} (hx : TaskRequests (fun a => ∀ r, ¬SeesKilled topicId a r) x) :
      TaskAfter (SeesKilled topicId) (fun a => ¬Finishes topicId a) (fun _ => True) x :=
    taskAfter_of_requests hx fun _ ha => ha
  unfold FactoryCall.program
  cases c with
  | execute polls t topic =>
    exact TaskAfter.bind (execution_after polls t topic env) (fun _ => taskAfter_pure) fun _ _ =>
      ⟨trivial, taskReturns_pure trivial⟩
  | startTopic text actor =>
    have hstart := requests_startTopic topicId text actor env
    dsimp only
    generalize IdeaFactory.startTopic text actor env = x at hstart
    exact hfree (TaskRequests.bind hstart fun _ => trivial)
  | killAll actor => exact hfree (TaskRequests.bind (requests_killAll actor env) fun _ => trivial)
  | setLoopState state actor =>
    exact hfree (TaskRequests.bind (taskRequests_sql fun _ => id) fun _ => taskRequests_sql fun _ => id)

end SeenKilled

/-! ## Runs -/

section Runs

variable {ι π : Type} [DecidableEq ι] {ext : FactoryExternals π} {p : FactoryPool ι π}

theorem topicStatus_setTopicStatus (s : FactoryStore) (t : String) (status : TopicStatus) (now : Datetime) (topicId : String) :
    ((Statement.setTopicStatus t status).exec now s).2.topicStatus topicId =
      if topicId = t then (s.topicStatus t).map fun _ => status else s.topicStatus topicId := by
  change ((FactoryStore.updateWhere s.topics t _).get? topicId).map Topic.status = _
  rw [FactoryStore.get?_updateWhere]
  split
  · cases h : s.topics.get? t <;> simp [FactoryStore.topicStatus, h]
  · rfl

theorem topicStatus_of_topics {s s' : FactoryStore} (h : s'.topics = s.topics) (topicId : String) :
    s'.topicStatus topicId = s.topicStatus topicId := by
  unfold FactoryStore.topicStatus
  rw [h]

/-- A statement sets the status of a topic, adds the topic or leaves it. -/
theorem topicStatus_exec (st : Statement) (now : Datetime) (s : FactoryStore) (topicId : String) :
    (st.exec now s).2.topicStatus topicId = s.topicStatus topicId ∨
      (s.topicStatus topicId = none ∧ (st.exec now s).2.topicStatus topicId = some .running) ∨
      ∃ status, st = .setTopicStatus topicId status ∧ s.topicStatus topicId ≠ none ∧
        (st.exec now s).2.topicStatus topicId = some status := by
  cases st with
  | addTopic t text =>
    by_cases hheld : s.topics.contains t = true
    · refine .inl ?_
      simp [Statement.exec, hheld]
    · have hnew : s.topics.get? t = none := by
        rwa [Bool.not_eq_true, InsertionDict.contains_eq_false_iff] at hheld
      have hexec : ((Statement.addTopic t text).exec now s).2 =
          { s with topics := s.topics.set t { id := t, text := text, createdAt := now } } := by
        simp [Statement.exec, hheld]
      rw [hexec]
      unfold FactoryStore.topicStatus
      by_cases ht : topicId = t
      · subst ht
        exact .inr (.inl ⟨by rw [hnew]; rfl, by simp⟩)
      · exact .inl (by rw [InsertionDict.get?_set_of_ne _ _ ht])
  | setTopicStatus t status =>
    rw [topicStatus_setTopicStatus]
    by_cases ht : topicId = t
    · subst ht
      rw [if_pos rfl]
      cases hstatus : s.topicStatus topicId with
      | none => exact .inl rfl
      | some old => exact .inr (.inr ⟨status, rfl, Option.some_ne_none _, rfl⟩)
    · exact .inl (if_neg ht)
  | putIdea idea => exact .inl (topicStatus_of_topics (FactoryStore.topics_putIdea idea) _)
  | putProposal => exact .inl (topicStatus_of_topics (FactoryStore.topics_putProposal ..) _)
  | hire => exact .inl (topicStatus_of_topics (FactoryStore.topics_hire ..) _)
  | event => exact .inl (topicStatus_of_topics (FactoryStore.topics_addEvent _) _)
  | _ => exact .inl rfl

theorem topicStatus_step (ext : FactoryExternals π) (p : FactoryPool ι π) (i : ι) (topicId : String) :
    (p.step (FactoryWorld.handler ext) i).state.store.topicStatus topicId = p.state.store.topicStatus topicId ∨
      (p.state.store.topicStatus topicId = none ∧
        (p.step (FactoryWorld.handler ext) i).state.store.topicStatus topicId = some .running) ∨
      ∃ status, Executes p i (.setTopicStatus topicId status) ∧ p.state.store.topicStatus topicId ≠ none ∧
        (p.step (FactoryWorld.handler ext) i).state.store.topicStatus topicId = some status := by
  rcases step_cases ext p i with hsame | ⟨st, now, hexecutes, hexec⟩
  · exact .inl (by rw [hsame])
  · rw [hexec]
    rcases topicStatus_exec st now p.state.store topicId with hkept | hadded | ⟨status, rfl, hthere, hset⟩
    · exact .inl hkept
    · exact .inr (.inl hadded)
    · exact .inr (.inr ⟨status, hexecutes, hthere, hset⟩)

variable {schedule : List ι} {topicId : String}

theorem exists_kill (hstart : ∀ topicId, p.state.store.topicStatus topicId = none)
    (hkilled : (run (Pool.step (FactoryWorld.handler ext)) p schedule).state.store.topicStatus topicId = some .killed) :
    ∃ before i middle, schedule = before ++ i :: middle ∧
      (run (Pool.step (FactoryWorld.handler ext)) p before).state.store.topicStatus topicId ≠ none ∧
      Executes (run (Pool.step (FactoryWorld.handler ext)) p before) i (.setTopicStatus topicId .killed) := by
  induction schedule using List.reverseRecOn with
  | nil =>
    rw [run_nil, hstart] at hkilled
    cases hkilled
  | append_singleton schedule i ih =>
    rw [run_append, run_cons, run_nil] at hkilled
    rcases topicStatus_step ext (run (Pool.step (FactoryWorld.handler ext)) p schedule) i topicId with
      hkept | ⟨-, hrunning⟩ | ⟨status, hexecutes, hthere, hset⟩
    · obtain ⟨before, j, middle, rfl, hthere, hexecutes⟩ := ih (hkept ▸ hkilled)
      exact ⟨before, j, middle ++ [i], by simp, hthere, hexecutes⟩
    · cases hrunning.symm.trans hkilled
    · cases hset.symm.trans hkilled
      exact ⟨schedule, i, [], rfl, hthere, hexecutes⟩

theorem onlyRequests_of_read (ext : FactoryExternals π) {i : ι}
    (hp : AfterAnswer (SeesKilled topicId) (fun a => ¬Finishes topicId a) (fun _ => True) (p.threads i))
    (hread : Executes p i (.topic topicId)) (hkilled : p.state.store.topicStatus topicId = some .killed) :
    OnlyRequests (fun a => ¬Finishes topicId a) ((p.step (FactoryWorld.handler ext) i).threads i) := by
  obtain ⟨now, rest, hi⟩ := hread
  rw [hi] at hp
  rw [Pool.step_threads, Function.update_self, hi]
  refine (hp.1 _ ?_).1
  obtain ⟨topic, hget, hstatus⟩ := Option.map_eq_some_iff.mp hkilled
  exact ⟨rfl, topic, congrArg Except.ok hget, hstatus⟩

def Heedful (p : FactoryPool ι π) : Prop :=
  ∀ i topicId, AfterAnswer (SeesKilled topicId) (fun a => ¬Finishes topicId a) (fun _ => True) (p.threads i)

theorem heedful_run (ext : FactoryExternals π) (hp : Heedful p) (schedule : List ι) :
    Heedful (run (Pool.step (FactoryWorld.handler ext)) p schedule) :=
  invariant_run (fun _ j hq i topicId => afterAnswer_step (hq i topicId) j) hp schedule

theorem killed_run (ext : FactoryExternals π) (topicId : String)
    (hkeeps : EveryStep (Pool.step (FactoryWorld.handler ext)) (KeepsKilled (FactoryWorld.handler ext)) p schedule)
    (hkilled : p.state.store.topicStatus topicId = some .killed) :
    (run (Pool.step (FactoryWorld.handler ext)) p schedule).state.store.topicStatus topicId = some .killed :=
  invariant_of_everyStep (I := fun q : FactoryPool ι π => q.state.store.topicStatus topicId = some .killed)
    (fun _ _ h hkeep => hkeep topicId h) hkilled hkeeps

theorem killed_of_kill {i : ι} (hthere : p.state.store.topicStatus topicId ≠ none)
    {status : TopicStatus} (hexecutes : Executes p i (.setTopicStatus topicId status)) :
    (p.step (FactoryWorld.handler ext) i).state.store.topicStatus topicId = some status := by
  obtain ⟨now, rest, hi⟩ := hexecutes
  have hstate : (p.step (FactoryWorld.handler ext) i).state.store =
      ((Statement.setTopicStatus topicId status).exec now p.state.store).2 := by
    change (advance (FactoryWorld.handler ext) (p.threads i) p.state).2.store = _
    rw [hi]
    rfl
  rw [hstate, topicStatus_setTopicStatus, if_pos rfl]
  obtain ⟨old, hold⟩ := Option.ne_none_iff_exists'.mp hthere
  rw [hold]
  rfl

/-- If each client reads a killed topic before it would write another status, none does. -/
theorem keeps_of_checks (hp : Heedful p) (hstart : ∀ topicId, p.state.store.topicStatus topicId = none) (hchecks : ChecksBeforeDone (FactoryWorld.handler ext) p schedule) :
    EveryStep (Pool.step (FactoryWorld.handler ext)) (KeepsKilled (FactoryWorld.handler ext)) p schedule := by
  intro before
  induction hlength : before.length using Nat.strong_induction_on generalizing before with
  | h n ih =>
  subst hlength
  intro j after hsplit topicId hkilled
  have hkeeps : EveryStep (Pool.step (FactoryWorld.handler ext)) (KeepsKilled (FactoryWorld.handler ext)) p before := by
    rintro earlier i later rfl
    refine ih earlier.length ?_ earlier rfl i (later ++ j :: after) ?_
    · simp
    · rw [hsplit, List.append_assoc, List.cons_append]
  rcases topicStatus_step ext (run (Pool.step (FactoryWorld.handler ext)) p before) j topicId with
    hkept | ⟨hnone, -⟩ | ⟨status, hexecutes, hthere, hset⟩
  · rw [hkept, hkilled]
  · cases hnone.symm.trans hkilled
  rw [hset]
  by_contra hother
  have hstatus : status ≠ .killed := fun h => hother (by rw [h])
  obtain ⟨first, i, middle, rfl, hfirst, hkill⟩ := exists_kill hstart hkilled
  obtain ⟨m, m', rfl, hread⟩ := hchecks first i middle j after topicId status (by rw [hsplit]; simp) hfirst hkill hstatus
    hexecutes
  -- from the kill on the topic is KILLED, also where the client reads it
  have hseen : (run (Pool.step (FactoryWorld.handler ext)) p (first ++ i :: m)).state.store.topicStatus topicId =
      some .killed := by
    have hrest : EveryStep (Pool.step (FactoryWorld.handler ext)) (KeepsKilled (FactoryWorld.handler ext))
        (run (Pool.step (FactoryWorld.handler ext)) p (first ++ [i])) m := by
      have hall : EveryStep (Pool.step (FactoryWorld.handler ext)) (KeepsKilled (FactoryWorld.handler ext)) p
          ((first ++ [i]) ++ (m ++ j :: m')) := by simpa using hkeeps
      exact everyStep_append_left (everyStep_append_right hall)
    have hafter := killed_run ext topicId hrest (by
      rw [run_append]
      exact killed_of_kill hfirst hkill)
    rw [← run_append] at hafter
    simpa using hafter
  have honly := onlyRequests_of_read ext (heedful_run ext hp (first ++ i :: m) j topicId) hread hseen
  have hlater : OnlyRequests (fun a => ¬Finishes topicId a)
      ((run (Pool.step (FactoryWorld.handler ext)) p (first ++ i :: (m ++ j :: m'))).threads j) := by
    have hrun : run (Pool.step (FactoryWorld.handler ext)) p (first ++ i :: (m ++ j :: m')) =
        run (Pool.step (FactoryWorld.handler ext))
          ((run (Pool.step (FactoryWorld.handler ext)) p (first ++ i :: m)).step (FactoryWorld.handler ext) j) m' := by
      rw [← run_cons, ← run_append]
      simp
    rw [hrun]
    exact invariant_run (I := fun q : FactoryPool ι π => OnlyRequests (fun a => ¬Finishes topicId a) (q.threads j))
      (fun _ k hq => onlyRequests_step hq k) honly m'
  obtain ⟨now, rest, hj⟩ := hexecutes
  rw [hj] at hlater
  exact hlater.1 ⟨rfl, hstatus⟩

theorem checks_of_keeps
    (hkeeps : EveryStep (Pool.step (FactoryWorld.handler ext)) (KeepsKilled (FactoryWorld.handler ext)) p schedule) :
    ChecksBeforeDone (FactoryWorld.handler ext) p schedule := by
  intro before i middle j after topicId status hsplit hthere hkill hstatus hexecutes
  exfalso
  have hall : EveryStep (Pool.step (FactoryWorld.handler ext)) (KeepsKilled (FactoryWorld.handler ext)) p
      ((before ++ [i]) ++ (middle ++ j :: after)) := by
    rw [hsplit] at hkeeps
    simpa using hkeeps
  have hkilled := killed_run ext topicId
    (everyStep_append_left (everyStep_append_right hall)) (by
      rw [run_append]
      exact killed_of_kill hthere hkill)
  rw [← run_append] at hkilled
  have hat : (before ++ [i]) ++ middle = before ++ i :: middle := by simp
  rw [hat] at hkilled
  have hkept := hkeeps (before ++ i :: middle) j after (by rw [hsplit]; simp) topicId hkilled
  rw [killed_of_kill (by rw [hkilled]; exact Option.some_ne_none _) hexecutes] at hkept
  exact hstatus (Option.some.inj hkept)

end Runs

/-- A killed topic stays killed in exactly the schedules in which every execution that goes on to write another status
after a kill has read the topic at a checkpoint in between. -/
theorem killed_stays_iff {ι π : Type} [DecidableEq ι] (f : Factory) (ext : FactoryExternals π) (calls : ι → FactoryCall)
    (env : ι → Supply) (s : FactoryStore) (outside : π) (schedule : List ι) :
    EveryStep (Pool.step (FactoryWorld.handler ext)) (KeepsKilled (FactoryWorld.handler ext))
        (factoryPool f calls env s outside) schedule ↔
      ChecksBeforeDone (FactoryWorld.handler ext) (factoryPool f calls env s outside) schedule := by
  refine ⟨checks_of_keeps, keeps_of_checks (fun i topicId => ?_) fun topicId => rfl⟩
  exact AfterAnswer.mono ((calls i).after_seen (env i)) fun _ _ => trivial

def sampleStaff (role : String) : Staff :=
  { id := role ++ "-g1", role := role, name := role, modelGroup := "free", generation := 1, hiredAt := 0, changedAt := 0
    accessLevel := 0, accessScopes := [] }

def sampleStore : FactoryStore :=
  { FactoryStore.empty with staff := ((InsertionDict.empty : InsertionDict String Staff).set "ideator-g1"
      (sampleStaff "ideator")).set "synthesizer-g1" (sampleStaff "synthesizer") }

def sampleRoster : Roster where
  ideasPerTopic := 1
  councilRounds := 0
  councilPassVotes := 1
  evaluationMinSamples := 1
  promotes _ _ := false
  retires _ _ := false
  tiers := []
  staff := []
  profileSources := []
  councilShare := some .filtered

def sampleFactory : Factory where
  roster := sampleRoster
  patents := ⟨"특허 미검사", true⟩
  classes := ⟨fun c => c.isDigit, fun c => c.isAlphanum⟩
  str
    | .str s => s
    | _ => ""
  lower := id
  jsonDumps _ := "\x7b\x7d"

/-- A model that has one idea, and a DBOS that neither stops nor loses anything. -/
def sampleExternals : FactoryExternals Unit where
  chatJson _ _ _ _ u := (.ok (.dict [("ideas", .list [.dict [("title", .str "a")]])]), u)
  search _ _ u := (.ok [], u)
  sources u := (none, u)
  lookup _ _ u := (.absent, u)
  record _ _ _ _ u := (.ok (), u)
  startWorkflow _ u := (.ok (), u)
  cancelWorkflow _ u := (.ok (), u)

def stillSupply : Supply := fun _ => ⟨0, "0"⟩

def startRunKill : ℕ → FactoryCall
  | 0 => .startTopic "x" "user"
  | 1 => .execute 0 "t0" "x"
  | _ => .killAll "user"

/-- The topic is killed after the last checkpoint of its execution, which still goes on to its end. -/
theorem killed_then_done : ¬∀ schedule : List ℕ, EveryStep (Pool.step (FactoryWorld.handler sampleExternals))
      (KeepsKilled (FactoryWorld.handler sampleExternals))
      (factoryPool sampleFactory startRunKill (fun _ => stillSupply) sampleStore ()) schedule := by
  intro h
  let before := List.replicate 4 0 ++ List.replicate 20 1 ++ List.replicate 5 2 ++ List.replicate 10 1
  have hkeep := h (before ++ [1]) before 1 [] rfl "t0"
  have hkilled : (run (Pool.step (FactoryWorld.handler sampleExternals))
      (factoryPool sampleFactory startRunKill (fun _ => stillSupply) sampleStore ()) before).state.store.topicStatus "t0" =
        some .killed := by
    decide +kernel
  have hdone : ((run (Pool.step (FactoryWorld.handler sampleExternals))
      (factoryPool sampleFactory startRunKill (fun _ => stillSupply) sampleStore ()) before).step
        (FactoryWorld.handler sampleExternals) 1).state.store.topicStatus "t0" = some .done := by
    decide +kernel
  cases hdone.symm.trans (hkeep hkilled)

end AllTomorrow.IdeaFactory
