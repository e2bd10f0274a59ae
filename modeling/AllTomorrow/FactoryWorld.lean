import AllTomorrow.FactoryRun

/-!
# The idea factory among its clients

The store and what is outside, DBOS among it, and several clients that request one statement
or call at a time. What each step of the workflow requests of them.
-/

namespace AllTomorrow.IdeaFactory

open Prog

/-! ## The world -/

/-- What models, patent sources, the sources of the profile and DBOS do, with their state `π`. -/
structure FactoryExternals (π : Type) where
  chatJson : Staff → String → String → ℕ → π → Except Exn PyValue × π
  search : String → ℕ → π → Except Exn (List PatentHit) × π
  sources : π → Option (ProfileSource → Except String String) × π
  /-- What DBOS has recorded of a step, or whether it stops the workflow there: cancelled, now or earlier, or failed. -/
  lookup : String → ℕ → π → Lookup × π
  record : String → ℕ → String → Except Exn StepAnswer → π → Except Exn Unit × π
  startWorkflow : String → π → Except Exn Unit × π
  cancelWorkflow : String → π → Except Exn Unit × π

structure FactoryWorld (π : Type) where
  store : FactoryStore
  outside : π

namespace FactoryWorld

variable {π : Type}

def handler (ext : FactoryExternals π) : Handler FactoryAction FactoryAction.Answer (FactoryWorld π)
  | .sql st now, w => ((st.exec now w.store).1, { w with store := (st.exec now w.store).2 })
  | .chatJson member system user temperature, w =>
    ((ext.chatJson member system user temperature w.outside).1,
      { w with outside := (ext.chatJson member system user temperature w.outside).2 })
  | .search query limit, w =>
    ((ext.search query limit w.outside).1, { w with outside := (ext.search query limit w.outside).2 })
  | .sources, w => ((ext.sources w.outside).1, { w with outside := (ext.sources w.outside).2 })
  | .lookup workflowId n, w =>
    ((ext.lookup workflowId n w.outside).1, { w with outside := (ext.lookup workflowId n w.outside).2 })
  | .record workflowId n name answer, w =>
    ((ext.record workflowId n name answer w.outside).1, { w with outside := (ext.record workflowId n name answer w.outside).2 })
  | .startWorkflow workflowId, w =>
    ((ext.startWorkflow workflowId w.outside).1, { w with outside := (ext.startWorkflow workflowId w.outside).2 })
  | .cancelWorkflow workflowId, w =>
    ((ext.cancelWorkflow workflowId w.outside).1, { w with outside := (ext.cancelWorkflow workflowId w.outside).2 })

end FactoryWorld

/-- A step that is recorded is answered from its record. `journal` is what DBOS has recorded in a state. -/
structure KeepsJournal {π : Type} (ext : FactoryExternals π)
    (journal : π → String → ℕ → Option (String × Except Exn StepAnswer)) : Prop where
  lookup : ∀ workflowId n s, (∃ error, (ext.lookup workflowId n s).1 = .stopped error) ∨
    (ext.lookup workflowId n s).1 = (journal s workflowId n).elim .absent fun step => .recorded step.1 step.2
  lookup_keeps : ∀ workflowId n s, journal (ext.lookup workflowId n s).2 = journal s
  record : ∀ workflowId n name answer s, (ext.record workflowId n name answer s).1 = .ok () → ∀ workflowId' k,
    journal (ext.record workflowId n name answer s).2 workflowId' k =
      if workflowId' = workflowId ∧ k = n then some (name, answer) else journal s workflowId' k
  chatJson_keeps : ∀ member system user temperature s, journal (ext.chatJson member system user temperature s).2 = journal s

abbrev FactoryPool (ι π : Type) := Pool ι FactoryAction FactoryAction.Answer (Except Exn Unit) (FactoryWorld π)

section Clients

variable {ι π : Type}

def Executes (p : FactoryPool ι π) (i : ι) (st : Statement) : Prop :=
  ∃ now rest, p.threads i = .act (.sql st now) rest

variable [DecidableEq ι] {ext : FactoryExternals π}

theorem step_cases (ext : FactoryExternals π) (p : FactoryPool ι π) (i : ι) :
    (p.step (FactoryWorld.handler ext) i).state.store = p.state.store ∨
      ∃ st now, Executes p i st ∧ (p.step (FactoryWorld.handler ext) i).state.store = (st.exec now p.state.store).2 := by
  change (advance (FactoryWorld.handler ext) (p.threads i) p.state).2.store = _ ∨
    ∃ st now, _ ∧ (advance (FactoryWorld.handler ext) (p.threads i) p.state).2.store = _
  cases hi : p.threads i with
  | done result => exact .inl rfl
  | act a rest =>
    cases a with
    | sql st now => exact .inr ⟨st, now, ⟨now, rest, hi⟩, rfl⟩
    | _ => exact .inl rfl

end Clients

/-! ## What the steps request -/

/-- Neither the status of a topic is written nor the topic read nor a proposal decided, and a proposal or a verdict is
written of the idea `own` only. -/
def Aside (own : Option String) : FactoryAction → Prop
  | .sql (.setTopicStatus ..) _ | .sql (.topic _) _ | .sql (.decideProposal ..) _ => False
  | .sql (.setIdeaVerdict ideaId ..) _ => own = some ideaId
  | .sql (.putProposal k _ ideaId _) _ => own = some ideaId ∧ k = proposalId ideaId
  | _ => True

/-- The idea of which an execution of the step writes the verdict or the proposal. -/
def StepCall.ownIdea : StepCall → Option String
  | .synthesize idea | .writeProposal idea .. | .rejectInCouncil idea _ => some idea.id
  | _ => none

section Requests

variable {f : Factory} {ok : FactoryAction → Prop} {own : Option String}

theorem taskRequests_request {α : Type} {a : FactoryAction} {answer : a.Answer → Except Exn α} (ha : ok a) :
    TaskRequests ok (request a answer) := ⟨ha, fun _ => trivial⟩

theorem taskRequests_sql {st : Statement} {env : Supply} (h : ok (.sql st env.utcNow)) : TaskRequests ok (sql st env) :=
  taskRequests_request h

theorem requests_activeStaff (role : String) (env : Supply) : TaskRequests (Aside own) (Store.activeStaff role env) := by
  refine TaskRequests.bind (taskRequests_sql trivial) fun rows => ?_
  cases rows <;> trivial

theorem requests_loopState (env : Supply) : TaskRequests (Aside own) (Store.loopState env) :=
  TaskRequests.bind (taskRequests_sql trivial) fun _ => trivial

theorem requests_loadProfile (topicId : String) (env : Supply) : TaskRequests (Aside own) (loadProfile f topicId env) := by
  refine TaskRequests.bind (taskRequests_request trivial) fun digests => ?_
  refine TaskRequests.bind (taskRequests_sql trivial) fun _ => ?_
  refine TaskRequests.bind (taskRequests_sql trivial) fun _ => ?_
  exact TaskRequests.bind (taskRequests_sql trivial) fun _ => trivial

theorem requests_putIdeas (topicId : String) (count : ℕ) (member : Staff) (raws : List (ℕ × PyValue)) (ideas : List Idea)
    (env : Supply) : TaskRequests (Aside own) (putIdeas f topicId count member raws ideas env) := by
  induction raws generalizing ideas env with
  | nil => trivial
  | cons raw rest ih =>
    obtain ⟨index, raw⟩ := raw
    unfold putIdeas
    split
    · split
      · refine TaskRequests.bind (taskRequests_sql trivial) fun _ => ?_
        split
        · trivial
        · exact ih _ _
      · exact ih _ _
    · exact ih _ _

theorem requests_generateIdeas (topicId topic : String) (count : ℕ) (snapshot : Snapshot) (env : Supply) :
    TaskRequests (Aside own) (generateIdeas f topicId topic count snapshot env) := by
  refine TaskRequests.bind (requests_activeStaff _ _) fun member => ?_
  refine TaskRequests.bind (taskRequests_request trivial) fun data => ?_
  refine taskRequests_ofExcept fun raws _ => ?_
  refine TaskRequests.bind (requests_putIdeas ..) fun ideas => ?_
  split
  · trivial
  · exact TaskRequests.bind (taskRequests_sql trivial) fun _ => trivial

theorem requests_searchEach (queries : List String) (hits : InsertionDict String PatentHit) (failures : ℕ) :
    TaskRequests (Aside own) (searchEach queries hits failures) := by
  induction queries generalizing hits failures with
  | nil => trivial
  | cons query rest ih =>
    unfold searchEach
    refine TaskRequests.bind (TaskRequests.attempt (taskRequests_request trivial)) fun found => ?_
    cases found with
    | ok found => exact ih _ _
    | error e => exact ih _ _

variable (idea : Idea)

theorem requests_synthVerdict (member : Staff) (status : IdeaStatus) (evidence : Option (List Evidence))
    (reason : String) (env : Supply) : TaskRequests (Aside (some idea.id)) (synthVerdict idea member status evidence reason env) := by
  refine TaskRequests.bind (taskRequests_sql rfl) fun _ => ?_
  exact taskRequests_sql trivial

theorem requests_synthesize (env : Supply) : TaskRequests (Aside (some idea.id)) (synthesize f idea env) := by
  refine TaskRequests.bind (requests_activeStaff _ _) fun member => ?_
  split
  · exact TaskRequests.bind (requests_synthVerdict ..) fun _ => trivial
  refine TaskRequests.bind (taskRequests_request trivial) fun answer => ?_
  refine taskRequests_ofExcept fun queries _ => ?_
  refine TaskRequests.bind (requests_searchEach ..) fun found => ?_
  split
  · exact TaskRequests.bind (requests_synthVerdict ..) fun _ => trivial
  refine TaskRequests.bind (taskRequests_request trivial) fun judgment => ?_
  refine taskRequests_ofExcept fun overlaps _ => ?_
  refine taskRequests_ofExcept fun reason _ => ?_
  dsimp only
  split
  · exact TaskRequests.bind (requests_synthVerdict ..) fun _ => trivial
  · exact TaskRequests.bind (requests_synthVerdict ..) fun _ => trivial

theorem requests_councilVote (roundNo : ℕ) (role : String) (transcript : List Vote) (snapshot : Snapshot)
    (env : Supply) : TaskRequests (Aside own) (councilVote f idea roundNo role transcript snapshot env) := by
  refine TaskRequests.bind (requests_activeStaff _ _) fun member => ?_
  refine taskRequests_ofExcept fun brief _ => ?_
  refine TaskRequests.bind (taskRequests_request trivial) fun data => ?_
  refine taskRequests_ofExcept fun vote _ => ?_
  refine TaskRequests.bind (taskRequests_sql trivial) fun _ => ?_
  exact TaskRequests.bind (taskRequests_sql trivial) fun _ => trivial

theorem requests_writeProposal (transcript : List Vote) (checked : ℕ) (snapshot : Snapshot) (env : Supply) :
    TaskRequests (Aside (some idea.id)) (writeProposal f idea transcript checked snapshot env) := by
  refine TaskRequests.bind (requests_activeStaff _ _) fun member => ?_
  refine TaskRequests.bind (taskRequests_request trivial) fun data => ?_
  split
  · refine TaskRequests.bind (taskRequests_sql ⟨rfl, rfl⟩) fun _ => ?_
    refine TaskRequests.bind (taskRequests_sql rfl) fun _ => ?_
    exact TaskRequests.bind (taskRequests_sql trivial) fun _ => trivial
  · trivial

theorem requests_rejectInCouncil (supports : ℕ) (env : Supply) : TaskRequests (Aside (some idea.id)) (rejectInCouncil idea supports env) :=
  TaskRequests.bind (taskRequests_sql rfl) fun _ => taskRequests_sql trivial

/-- A step makes requests of a kind, if those that come with every kind of step are of that kind, and so are the
reading and the writing of the topic's status. -/
theorem requests_step {c : StepCall} (haside : ∀ a, Aside c.ownIdea a → ok a)
    (hread : ∀ t now, c = .readLoopState t → ok (.sql (.topic t) now))
    (hfinish : ∀ t status now, c = .finishTopic t status → ok (.sql (.setTopicStatus t status) now)) (env : Supply) :
    TaskRequests ok (c.body f env) := by
  have hplain {α : Type} {x : FactoryTask α} {k : α → StepAnswer} (hx : TaskRequests (Aside c.ownIdea) x) :
      TaskRequests ok (x >>= fun a => pure (k a)) :=
    OnlyRequests.mono (TaskRequests.bind hx fun _ => trivial) haside
  cases c with
  | readLoopState t =>
    refine TaskRequests.bind (TaskRequests.bind (taskRequests_sql (hread t _ rfl)) fun topic => ?_) fun _ => trivial
    split
    · trivial
    · exact OnlyRequests.mono (requests_loopState _) haside
  | sleep => trivial
  | loadProfile t => exact hplain (requests_loadProfile _ _)
  | generateIdeas t topic count snapshot => exact hplain (requests_generateIdeas ..)
  | synthesize idea => exact hplain (requests_synthesize _ _)
  | councilVote idea roundNo role transcript snapshot => exact hplain (requests_councilVote ..)
  | writeProposal idea transcript checked snapshot => exact hplain (requests_writeProposal ..)
  | rejectInCouncil idea supports => exact hplain (requests_rejectInCouncil ..)
  | finishTopic t status =>
    refine TaskRequests.bind (TaskRequests.bind (taskRequests_sql (hfinish t status _ rfl)) fun _ => ?_) fun _ => trivial
    exact taskRequests_sql (haside _ trivial)

theorem requests_retried {body : Supply → FactoryTask StepAnswer} (hbody : ∀ env, TaskRequests ok (body env)) (more : ℕ)
    (env : Supply) : TaskRequests ok (retried body more env) := by
  induction more generalizing env with
  | zero => exact hbody env
  | succ more ih =>
    unfold retried
    refine TaskRequests.bind (TaskRequests.attempt (hbody _)) fun result => ?_
    cases result with
    | ok answer => trivial
    | error e => exact ih _

end Requests

end AllTomorrow.IdeaFactory
