import AllTomorrow.CrashTriples
import AllTomorrow.DomainTransitions
import AllTomorrow.FactoryWorld

/-!
# The debate of the council

When the model is a function of its prompt, the votes of the council are a function of the staff, the
idea and the snapshot. The debate is that function, with what each speaker was asked, and the durable
execution of the council computes it.
-/

namespace AllTomorrow.IdeaFactory

open Prog

/-! ## The function -/

def membersOf (staff : InsertionDict String Staff) (role : String) : List Staff :=
  { FactoryStore.empty with staff := staff }.activeStaff role

structure Speech where
  speaker : Staff
  prompt : String × String
  vote : Vote

section Debate

variable (f : Factory) (model : String → String → String → ℕ → Except Exn PyValue) (staff : InsertionDict String Staff)
  (idea : Idea) (snapshot : Snapshot)

def speak (roundNo : ℕ) (role : String) (transcript : List Vote) : Except Exn Speech :=
  match membersOf staff role with
  | [] => .error (.foreign "LookupError" ("no active staff for role " ++ role))
  | member :: _ => do
    let brief ← roleBrief role
    let prompt := councilPrompt f idea roundNo brief member transcript snapshot
    let vote ← model member.modelGroup prompt.1 prompt.2 7 >>= voteOf f roundNo role member (sourcesOf member snapshot)
    return ⟨member, prompt, vote⟩

def debate : List (ℕ × String) → List Vote → Except Exn (List Speech)
  | [], _ => .ok []
  | (roundNo, role) :: rest, transcript => do
    let speech ← speak f model staff idea snapshot roundNo role transcript
    let others ← debate rest (transcript ++ [speech.vote])
    return speech :: others

end Debate

/-! ## Requests of the steps -/

def asked (actions : List FactoryAction) : List (Staff × String × String) :=
  actions.filterMap fun
    | .chatJson member system user _ => some (member, system, user)
    | _ => none

theorem asked_append (as bs : List FactoryAction) : asked (as ++ bs) = asked as ++ asked bs := List.filterMap_append

/-- A statement that does not write the staff. -/
def Quiet : FactoryAction → Prop
  | .sql (.hire ..) _ | .sql (.retire _) _ | .sql (.setAccess ..) _ | .sql (.setStaffGroup ..) _ => False
  | .sql .. => True
  | _ => False

theorem asked_of_quiet {as : List FactoryAction} (h : ∀ a ∈ as, Quiet a) : asked as = [] := by
  refine List.filterMap_eq_nil_iff.mpr fun a ha => ?_
  cases a with
  | chatJson => exact (h _ ha).elim
  | _ => rfl

/-- The rows of the staff are these, and the steps of the workflow from `n` on are not in the journal. -/
structure Ready {π : Type} (journal : π → String → ℕ → Option (String × Except Exn StepAnswer))
    (staff : InsertionDict String Staff) (workflowId : String) (n : ℕ) (w : FactoryWorld π) : Prop where
  staff : w.store.staff = staff
  fresh : ∀ k, n ≤ k → journal w.outside workflowId k = none

section Runs

variable {π : Type} {ext : FactoryExternals π} {journal : π → String → ℕ → Option (String × Except Exn StepAnswer)}
  {staff : InsertionDict String Staff} {workflowId : String} {n : ℕ}

theorem Ready.of_eq {w w' : FactoryWorld π} (h : Ready journal staff workflowId n w) (hstaff : w'.store.staff = w.store.staff)
    (hjournal : journal w'.outside = journal w.outside) : Ready journal staff workflowId n w' :=
  ⟨hstaff.trans h.staff, fun k hk => hjournal ▸ h.fresh k hk⟩

variable {w : FactoryWorld π}

theorem Ready.handler {a : FactoryAction} (ha : Quiet a) (h : Ready journal staff workflowId n w) :
    Ready journal staff workflowId n (FactoryWorld.handler ext a w).2 := by
  cases a with
  | sql st now =>
    cases st with
    | hire => exact ha.elim
    | retire => exact ha.elim
    | setAccess => exact ha.elim
    | setStaffGroup => exact ha.elim
    | putIdea idea => exact h.of_eq (FactoryStore.staff_putIdea idea) rfl
    | putProposal proposalId topicId ideaId body => exact h.of_eq (FactoryStore.staff_putProposal ..) rfl
    | addTopic topicId text =>
      refine h.of_eq ?_ rfl
      change (Statement.exec now (.addTopic topicId text) w.store).2.staff = _
      unfold Statement.exec
      dsimp only
      split <;> rfl
    | event kind topicId staffId dedupe => exact h.of_eq (FactoryStore.staff_addEvent _) rfl
    | _ => exact h.of_eq rfl rfl
  | _ => exact ha.elim

theorem evalTask_activeStaff (ext : FactoryExternals π) (w : FactoryWorld π) (role : String) (env : Supply) :
    evalTask (FactoryWorld.handler ext) (Store.activeStaff role env) w =
      (match membersOf w.store.staff role with
        | [] => .error (.foreign "LookupError" ("no active staff for role " ++ role))
        | member :: _ => .ok member, w) := by
  refine (evalTask_bind_ok (a := membersOf w.store.staff role) rfl _).trans ?_
  cases membersOf w.store.staff role <;> rfl

theorem quiet_activeStaff (role : String) (env : Supply) : TaskRequests Quiet (Store.activeStaff role env) := by
  refine TaskRequests.bind (taskRequests_sql trivial) fun rows => ?_
  cases rows <;> trivial

variable {f : Factory} {model : String → String → String → ℕ → Except Exn PyValue}

/-- The part of a vote that asks the model and stores the answer. -/
theorem asking_model (hjournal : KeepsJournal ext journal)
    (hmodel : ∀ member system user t o, (ext.chatJson member system user t o).1 = model member.modelGroup system user t)
    (member : Staff) (prompt : String × String) (read : PyValue → Except Exn Vote) (row : Vote → CouncilRow)
    (topicId staffId dedupe : Option String) (env : Supply) (w : FactoryWorld π) {x : FactoryTask Vote}
    (hx : x = do
      let data ← chatJson member prompt.1 prompt.2 7
      let vote ← MonadExcept.ofExcept (read data)
      sql (.putVote (row vote)) (env.sub 1)
      sql (.event "council" topicId staffId dedupe) (env.sub 2)
      return vote) :
    (evalTask (FactoryWorld.handler ext) x w).1 = model member.modelGroup prompt.1 prompt.2 7 >>= read ∧
      (evalTask (FactoryWorld.handler ext) x w).2.store.staff = w.store.staff ∧
      journal (evalTask (FactoryWorld.handler ext) x w).2.outside = journal w.outside ∧
      ∀ vote, model member.modelGroup prompt.1 prompt.2 7 >>= read = .ok vote →
        asked (requests (FactoryWorld.handler ext) x.run w) = [(member, prompt)] := by
  have hchat : evalTask (FactoryWorld.handler ext) (chatJson member prompt.1 prompt.2 7) w =
      (model member.modelGroup prompt.1 prompt.2 7,
        { w with outside := (ext.chatJson member prompt.1 prompt.2 7 w.outside).2 }) := by
    rw [← hmodel member prompt.1 prompt.2 7 w.outside]
    rfl
  have hkeeps := hjournal.chatJson_keeps member prompt.1 prompt.2 7 w.outside
  subst hx
  cases hdata : model member.modelGroup prompt.1 prompt.2 7 with
  | error e =>
    rw [hdata] at hchat
    rw [evalTask_bind_error hchat]
    exact ⟨rfl, rfl, hkeeps, fun _ h => by cases h⟩
  | ok data =>
    rw [hdata] at hchat
    rw [evalTask_bind_ok hchat, requests_bind_ok hchat]
    change _ = read data ∧ _ ∧ _ ∧ ∀ vote, read data = .ok vote → _
    cases read data with
    | error e => exact ⟨rfl, rfl, hkeeps, fun _ h => by cases h⟩
    | ok vote => exact ⟨rfl, FactoryStore.staff_addEvent _, hkeeps, fun _ _ => rfl⟩

/-- One vote against a model that is a function of its prompt. -/
theorem councilVote_speaks (hjournal : KeepsJournal ext journal)
    (hmodel : ∀ member system user t o, (ext.chatJson member system user t o).1 = model member.modelGroup system user t)
    (idea : Idea) (roundNo : ℕ) (role : String) (transcript : List Vote) (snapshot : Snapshot) (env : Supply)
    (w : FactoryWorld π) :
    (evalTask (FactoryWorld.handler ext) (councilVote f idea roundNo role transcript snapshot env) w).1 =
        Speech.vote <$> speak f model w.store.staff idea snapshot roundNo role transcript ∧
      (evalTask (FactoryWorld.handler ext) (councilVote f idea roundNo role transcript snapshot env) w).2.store.staff =
        w.store.staff ∧
      journal (evalTask (FactoryWorld.handler ext) (councilVote f idea roundNo role transcript snapshot env) w).2.outside =
        journal w.outside ∧
      ∀ speech, speak f model w.store.staff idea snapshot roundNo role transcript = .ok speech →
        asked (requests (FactoryWorld.handler ext) (councilVote f idea roundNo role transcript snapshot env).run w) =
          [(speech.speaker, speech.prompt)] := by
  have hactive := evalTask_activeStaff ext w role (env.sub 0)
  unfold councilVote speak
  cases hmembers : membersOf w.store.staff role with
  | nil =>
    rw [hmembers] at hactive
    rw [evalTask_bind_error hactive]
    exact ⟨rfl, rfl, rfl, fun _ h => by cases h⟩
  | cons member others =>
    rw [hmembers] at hactive
    rw [evalTask_bind_ok hactive, requests_bind_ok hactive]
    cases roleBrief role with
    | error e => exact ⟨rfl, rfl, rfl, fun _ h => by cases h⟩
    | ok brief =>
      obtain ⟨hresult, hstaff, hkeeps, hasked⟩ := asking_model hjournal hmodel member
        (councilPrompt f idea roundNo brief member transcript snapshot)
        (voteOf f roundNo role member (sourcesOf member snapshot))
        (fun vote => ⟨idea.id, roundNo, member.id, vote.stance, vote.reason⟩) (some idea.topicId) (some member.id)
        (some ("vote:" ++ idea.id ++ ":" ++ toString roundNo ++ ":" ++ role)) env w rfl
      have hmap (answer : Except Exn Vote) (prompt : String × String) :
          answer = Speech.vote <$> (answer >>= fun vote => pure ⟨member, prompt, vote⟩) := by
        cases answer <;> rfl
      refine ⟨hresult.trans (hmap _ _), hstaff, hkeeps, fun speech hspeech => ?_⟩
      obtain ⟨_, hbrief, hspeech⟩ := except_bind_ok.mp hspeech
      cases hbrief
      obtain ⟨vote, hvote, hmade⟩ := except_bind_ok.mp hspeech
      cases hmade
      rw [asked_append, asked_of_quiet fun _ => OnlyRequests.mem_requests (quiet_activeStaff role (env.sub 0))]
      exact hasked vote hvote

/-! ## Durable steps -/

/-- A body that answers alike whenever it is executed answers so when it is retried, and the last execution is all that
is requested if it returns. -/
theorem retried_of_const {K : FactoryWorld π → Prop} {body : Supply → FactoryTask StepAnswer} {r : Except Exn StepAnswer}
    (hbody : ∀ env w, K w → (evalTask (FactoryWorld.handler ext) (body env) w).1 = r ∧
      K (evalTask (FactoryWorld.handler ext) (body env) w).2) (more : ℕ) (env : Supply) (hw : K w) :
    (evalTask (FactoryWorld.handler ext) (retried body more env) w).1 = r ∧
      K (evalTask (FactoryWorld.handler ext) (retried body more env) w).2 ∧
      ∀ answer, r = .ok answer → ∃ env', requests (FactoryWorld.handler ext) (retried body more env).run w =
        requests (FactoryWorld.handler ext) (body env').run w := by
  induction more generalizing env w with
  | zero => exact ⟨(hbody env w hw).1, (hbody env w hw).2, fun _ _ => ⟨env, rfl⟩⟩
  | succ more ih =>
    obtain ⟨hr, hK⟩ := hbody (env.sub 0) w hw
    have hattempt := evalTask_attempt (FactoryWorld.handler ext) (body (env.sub 0)) w
    unfold retried
    rw [evalTask_bind_ok hattempt]
    cases hresult : (evalTask (FactoryWorld.handler ext) (body (env.sub 0)) w).1 with
    | ok answer =>
      rw [hresult] at hr
      refine ⟨hr, hK, fun _ _ => ⟨env.sub 0, ?_⟩⟩
      rw [requests_bind_ok hattempt, hresult]
      change requests (FactoryWorld.handler ext) (Prog.attempt (body (env.sub 0))).run w ++ [] = _
      rw [List.append_nil]
      exact (requests_bind _ (body (env.sub 0)).run _ w).trans (List.append_nil _)
    | error e =>
      rw [hresult] at hr
      obtain ⟨hr', hK', -⟩ := ih (env.sub 1) hK
      exact ⟨hr', hK', fun answer hok => by cases hr.trans hok⟩

theorem asked_record {α : Type} (ext : FactoryExternals π) (n : ℕ) (name : String) (answer : Except Exn StepAnswer)
    (w : FactoryWorld π) {rest : Except Exn Unit → Prog FactoryAction FactoryAction.Answer α}
    (hrest : ∀ r, ∃ v, rest r = .done v) :
    asked (requests (FactoryWorld.handler ext) (.act (.record workflowId n name answer) rest) w) = [] := by
  obtain ⟨v, hv⟩ := hrest (FactoryWorld.handler ext (.record workflowId n name answer) w).1
  rw [requests, hv]
  rfl

variable {c : StepCall}

/-- A step that the journal does not hold is executed, and recorded as the next one. -/
theorem runStep_ok (hjournal : KeepsJournal ext journal) {env : Supply} (hw : Ready journal staff workflowId n w)
    (hbody : ∀ w', Ready journal staff workflowId n w' →
      Ready journal staff workflowId n (evalTask (FactoryWorld.handler ext) (retried (c.body f) (c.attempts - 1) env) w').2)
    {answer : Except Exn StepAnswer}
    (hrun : ((runStep f workflowId n c env).eval (FactoryWorld.handler ext) w).1 = .ok answer) :
    Ready journal staff workflowId (n + 1) ((runStep f workflowId n c env).eval (FactoryWorld.handler ext) w).2 ∧
      ∃ w', Ready journal staff workflowId n w' ∧
        answer = (evalTask (FactoryWorld.handler ext) (retried (c.body f) (c.attempts - 1) env) w').1 ∧
        asked (requests (FactoryWorld.handler ext) (runStep f workflowId n c env) w) =
          asked (requests (FactoryWorld.handler ext) (retried (c.body f) (c.attempts - 1) env).run w') := by
  have hw' : Ready journal staff workflowId n { w with outside := (ext.lookup workflowId n w.outside).2 } :=
    hw.of_eq rfl (hjournal.lookup_keeps workflowId n w.outside)
  have hlookup (result : Lookup) (h : (ext.lookup workflowId n w.outside).1 = result) :
      FactoryWorld.handler ext (.lookup workflowId n) w =
        (result, { w with outside := (ext.lookup workflowId n w.outside).2 }) := by
    rw [← h]
    rfl
  unfold runStep at hrun ⊢
  rcases hjournal.lookup workflowId n w.outside with ⟨e, hstopped⟩ | habsent
  · rw [eval_of_answer (hlookup _ hstopped)] at hrun
    cases hrun
  rw [hw.fresh n le_rfl] at habsent
  rw [eval_of_answer (hlookup _ habsent)] at hrun ⊢
  rw [requests_of_answer (hlookup _ habsent)]
  generalize { w with outside := (ext.lookup workflowId n w.outside).2 } = w' at hw' hrun ⊢
  dsimp only [Option.elim] at hrun ⊢
  have hbody := hbody w' hw'
  rw [eval_bind] at hrun ⊢
  rw [requests_bind]
  change Ready journal staff workflowId n
    ((retried (c.body f) (c.attempts - 1) env).run.eval (FactoryWorld.handler ext) w').2 at hbody
  suffices h : Ready journal staff workflowId (n + 1) _ ∧
      answer = ((retried (c.body f) (c.attempts - 1) env).run.eval (FactoryWorld.handler ext) w').1 by
    refine ⟨h.1, w', hw', h.2, ?_⟩
    change asked (requests _ _ _ ++ _) = _
    rw [asked_append, asked_record ext n c.name _ _ fun r => (by cases r <;> exact ⟨_, rfl⟩), List.append_nil]
  generalize (retried (c.body f) (c.attempts - 1) env).run.eval (FactoryWorld.handler ext) w' = result at hbody hrun ⊢
  obtain ⟨r, w''⟩ := result
  have hrecord (result : Except Exn Unit) (h : (ext.record workflowId n c.name r w''.outside).1 = result) :
      FactoryWorld.handler ext (.record workflowId n c.name r) w'' =
        (result, { w'' with outside := (ext.record workflowId n c.name r w''.outside).2 }) := by
    rw [← h]
    rfl
  cases hlost : (ext.record workflowId n c.name r w''.outside).1 with
  | error e =>
    rw [eval_of_answer (hrecord _ hlost)] at hrun
    cases hrun
  | ok _ =>
    rw [eval_of_answer (hrecord _ hlost)] at hrun ⊢
    refine ⟨⟨hbody.staff, fun k hk => ?_⟩, (Except.ok.inj hrun).symm⟩
    refine (hjournal.record workflowId n c.name r w''.outside hlost workflowId k).trans ?_
    rw [if_neg (by omega)]
    exact hbody.fresh k (by omega)

/-! ## The durable council -/

variable (ext journal f staff workflowId)

/-- What a workflow returns, and what was asked in its steps, from a journal that holds none of them. -/
def DurablySays {α : Type} (p : Prog StepCall (fun _ => Except Exn StepAnswer) (Except Exn α))
    (Q : α → List (Staff × String × String) → Prop) : Prop :=
  ∀ (n : ℕ) (env : Supply) (w : FactoryWorld π), Ready journal staff workflowId n w → ∀ value,
    ((durable f workflowId p n env).eval (FactoryWorld.handler ext) w).1 = .ok value →
      Q value (asked (requests (FactoryWorld.handler ext) (durable f workflowId p n env) w))

variable {ext journal f staff workflowId} {α β : Type} {Q : α → List (Staff × String × String) → Prop}

variable {rest : Except Exn StepAnswer → Prog StepCall (fun _ => Except Exn StepAnswer) (Except Exn α)}

theorem DurablySays.act (hjournal : KeepsJournal ext journal) (hready : ∀ n w env, Ready journal staff workflowId n w →
      Ready journal staff workflowId n (evalTask (FactoryWorld.handler ext) (retried (c.body f) (c.attempts - 1) env) w).2)
    (hrest : ∀ n (w : FactoryWorld π) env, Ready journal staff workflowId n w → ∀ r,
      r = (evalTask (FactoryWorld.handler ext) (retried (c.body f) (c.attempts - 1) env) w).1 →
        DurablySays ext journal staff workflowId f (rest r) fun v as =>
          Q v (asked (requests (FactoryWorld.handler ext) (retried (c.body f) (c.attempts - 1) env).run w) ++ as)) :
    DurablySays ext journal staff workflowId f (.act c rest) Q := by
  intro n env w hw value hrun
  unfold durable at hrun ⊢
  rw [eval_bind] at hrun
  rw [requests_bind, asked_append]
  cases hstep : ((runStep f workflowId n c (env.sub 0)).eval (FactoryWorld.handler ext) w).1 with
  | error e =>
    rw [hstep] at hrun
    cases hrun
  | ok answer =>
    obtain ⟨hnext, w', hw', hanswer, hasked⟩ := runStep_ok hjournal hw (fun w' hw' => hready n w' (env.sub 0) hw') hstep
    rw [hstep] at hrun
    rw [hasked]
    exact hrest n w' (env.sub 0) hw' answer hanswer (n + 1) (env.sub 1) _ hnext value hrun

def StepCall.Silent : StepCall → Prop
  | .readLoopState _ | .sleep => True
  | _ => False

theorem StepCall.Silent.quiet (hc : c.Silent) (env : Supply) :
    TaskRequests Quiet (retried (c.body f) (c.attempts - 1) env) := by
  cases c with
  | readLoopState topicId =>
    refine TaskRequests.bind (TaskRequests.bind (taskRequests_sql trivial) fun topic => ?_) fun _ => trivial
    split
    · trivial
    · exact TaskRequests.bind (taskRequests_sql trivial) fun _ => trivial
  | sleep => trivial
  | _ => exact hc.elim

theorem DurablySays.silent (hjournal : KeepsJournal ext journal) (hc : c.Silent)
    (hrest : ∀ r, DurablySays ext journal staff workflowId f (rest r) Q) : DurablySays ext journal staff workflowId f (.act c rest) Q := by
  refine DurablySays.act hjournal (fun n w env hw => ?_) fun n w env hw r _ => ?_
  · exact OnlyRequests.eval (fun a s ha hs => hs.handler ha) (hc.quiet env) hw
  · rw [asked_of_quiet fun _ => OnlyRequests.mem_requests (hc.quiet env)]
    exact hrest r

theorem DurablySays.bind (hjournal : KeepsJournal ext journal) {x : Workflow β} {k : β → Workflow α} (hx : TaskRequests StepCall.Silent x)
    (hk : ∀ v, DurablySays ext journal staff workflowId f (k v).run Q) : DurablySays ext journal staff workflowId f (x >>= k).run Q := by
  change OnlyRequests _ x.run at hx
  change DurablySays ext journal staff workflowId f (x.run >>= ExceptT.bindCont k) Q
  generalize x.run = p at hx
  induction p with
  | done r =>
    cases r with
    | ok v => exact hk v
    | error e =>
      intro n env w _ value hrun
      cases hrun
  | act c rest ih => exact DurablySays.silent hjournal hx.1 fun r => ih r (hx.2 r)

theorem silent_readLoopState (topicId : String) : TaskRequests StepCall.Silent (Workflow.readLoopState topicId) := by
  refine TaskRequests.bind ⟨trivial, fun _ => trivial⟩ fun answer => ?_
  cases answer <;> trivial

theorem silent_awaitState (topicId : String) (polls : ℕ) (state : LoopState) :
    TaskRequests StepCall.Silent (Workflow.awaitState topicId polls state) := by
  induction polls generalizing state with
  | zero => cases state <;> trivial
  | succ polls ih =>
    cases state with
    | paused => exact TaskRequests.bind ⟨trivial, fun _ => trivial⟩ fun _ => TaskRequests.bind (silent_readLoopState topicId) ih
    | _ => trivial

theorem silent_checkpoint (polls : ℕ) (topicId : String) : TaskRequests StepCall.Silent (Workflow.checkpoint polls topicId) :=
  TaskRequests.bind (silent_readLoopState topicId) fun _ =>
    TaskRequests.bind (silent_awaitState topicId polls _) fun _ => trivial

/-- The durable council computes the debate. -/
theorem councilVotes_debates (hjournal : KeepsJournal ext journal)
    (hmodel : ∀ member system user t o, (ext.chatJson member system user t o).1 = model member.modelGroup system user t)
    (polls : ℕ) (topicId : String) (idea : Idea) (snapshot : Snapshot) (turns : List (ℕ × String)) (transcript : List Vote) :
    DurablySays ext journal staff workflowId f (Workflow.councilVotes polls topicId idea snapshot turns transcript).run
      fun result as => ∀ votes, result = some votes →
        ∃ speeches, debate f model staff idea snapshot turns transcript = .ok speeches ∧
          votes = transcript ++ speeches.map Speech.vote ∧ as = speeches.map fun s => (s.speaker, s.prompt) := by
  induction turns generalizing transcript with
  | nil =>
    intro n env w _ value hrun votes hvotes
    cases hrun
    cases hvotes
    exact ⟨[], rfl, (List.append_nil _).symm, rfl⟩
  | cons turn rest ih =>
    obtain ⟨roundNo, role⟩ := turn
    refine DurablySays.bind hjournal (silent_checkpoint polls topicId) fun go => ?_
    cases go with
    | false =>
      intro n env w _ value hrun votes hvotes
      cases hrun
      cases hvotes
    | true =>
      have hvote (n : ℕ) (env : Supply) (w : FactoryWorld π) (hw : Ready journal staff workflowId n w) :
          (evalTask (FactoryWorld.handler ext) ((StepCall.councilVote idea roundNo role transcript snapshot).body f env) w).1 =
            (fun s => StepAnswer.vote s.vote) <$> speak f model staff idea snapshot roundNo role transcript ∧
          Ready journal staff workflowId n
            (evalTask (FactoryWorld.handler ext) ((StepCall.councilVote idea roundNo role transcript snapshot).body f env) w).2 := by
        obtain ⟨hresult, hstaff, hkeeps, -⟩ := councilVote_speaks (f := f) hjournal hmodel idea roundNo role transcript snapshot env w
        have hmap := evalTask_map (FactoryWorld.handler ext) (councilVote f idea roundNo role transcript snapshot env)
          StepAnswer.vote w
        change evalTask _ ((StepCall.councilVote idea roundNo role transcript snapshot).body f env) w = _ at hmap
        rw [hmap, hresult, hw.staff]
        refine ⟨?_, hw.of_eq hstaff hkeeps⟩
        cases speak f model staff idea snapshot roundNo role transcript <;> rfl
      refine DurablySays.act hjournal (fun n w env hw => (retried_of_const (hvote n) _ env hw).2.1) fun n w env hw r hr => ?_
      obtain ⟨hresult, -, hrequests⟩ := retried_of_const (hvote n)
        ((StepCall.councilVote idea roundNo role transcript snapshot).attempts - 1) env hw
      rw [hresult] at hr
      cases hspeech : speak f model staff idea snapshot roundNo role transcript with
      | error e =>
        rw [hspeech] at hr
        subst hr
        intro n env w _ value hrun
        cases hrun
      | ok speech =>
        rw [hspeech] at hr hrequests
        subst hr
        obtain ⟨env', hsame⟩ := hrequests _ rfl
        have hasked := (councilVote_speaks (f := f) hjournal hmodel idea roundNo role transcript snapshot env' w).2.2.2 speech
          (hw.staff.symm ▸ hspeech)
        have hbody := requests_map (FactoryWorld.handler ext) (councilVote f idea roundNo role transcript snapshot env')
          StepAnswer.vote w
        rw [hsame]
        change requests _ ((StepCall.councilVote idea roundNo role transcript snapshot).body f env').run w = _ at hbody
        rw [hbody, hasked]
        intro n env w hw value hrun votes hvotes
        obtain ⟨speeches, hdebate, hvotes, hasks⟩ := ih (transcript ++ [speech.vote]) n env w hw value hrun votes hvotes
        refine ⟨speech :: speeches, ?_, ?_, ?_⟩
        · unfold debate
          rw [hspeech]
          change (debate f model staff idea snapshot rest (transcript ++ [speech.vote]) >>= fun others => _) = _
          rw [hdebate]
          rfl
        · rw [hvotes, List.append_assoc]
          rfl
        · exact congrArg ((speech.speaker, speech.prompt) :: ·) hasks

end Runs

end AllTomorrow.IdeaFactory
