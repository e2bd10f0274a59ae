import AllTomorrow.ServiceRuns
import AllTomorrow.ExecutorRequests

/-!
# Runs that a resume call opens

Resume calls, executor cycles and answers over one store. A Run that a resume call
has opened stays STARTING: the executor moves only Runs that it created itself, and
another resume call that meets the Run asks for CANCEL_REQUESTED, which the table does
not allow. So no second Run of the Work is opened, and none is cancelled.
-/

namespace AllTomorrow

open MachineRuns (EveryStep positions_cases run_append run_cons)

open InMemoryStore Prog

/-- The calls around a Question: resuming, executing, answering and reading. -/
inductive ServiceCall.Handoff : ServiceCall → Prop where
  | resume (actor : Actor) (workId : WorkId) : Handoff (.resumeAnsweredWork actor workId)
  | cycle (loop : ExecutorLoop) (limit : ℤ) : Handoff (.runOneCycle loop limit)
  | answer (questionId : QuestionId) (rev : ℤ) (answerRef signalCorrelation : String) :
      Handoff (.operation (.answerQuestion questionId rev answerRef signalCorrelation))
  | read (op : StoreOp) (hread : op.isRead = true) : Handoff (.operation op)

def ServiceCall.IsResume (call : ServiceCall) : Prop := ∃ actor workId, call = .resumeAnsweredWork actor workId

variable {ι π : Type}

/-- Client `i`, a resume call, opens the Run `x` of the Work `k` with its next request. -/
def OpensRun (clients : Clients ι) (p : ServicePool ι π) (i : ι) (k : WorkId) (x : RunId) : Prop :=
  (clients.call i).IsResume ∧ ∃ run event env, p.Requests i (.store (.createRun run event) env) ∧ run.workId = k ∧
    run.runId = x ∧ Accepted p.state.store ⟨.createRun run event, env⟩

/-! ## What each client promises -/

section Promises

variable (clients : Clients ι) (opened : ι → WorkId → RunId → Prop)

/-- The Runs that are opened in the course of the run are not there yet or STARTING. -/
def OpenedStarting (s : InMemoryStore) : Prop :=
  s.WellFormed ∧ ∀ i k x, opened i k x → ∀ r, s.runs.get? x = some r → r.status = .starting ∧ r.workId = k

/-- An accepted creation of a Run by client `i` is known: those of resume calls are recorded in
`opened`, and no other creation has an identifier of these. -/
def CreationKnown (i : ι) (s : InMemoryStore) : ServiceAction → Prop
  | .store (.createRun run event) env => Accepted s ⟨.createRun run event, env⟩ →
      ((clients.call i).IsResume → opened i run.workId run.runId) ∧
      (¬(clients.call i).IsResume → ∀ j k, ¬opened j k run.runId)
  | _ => True

/-- The request moves no opened Run except to CANCEL_REQUESTED; a resume call creates Runs of its own
Work, which it moves only to RUNNING and once it has opened one; no other call moves a Work to RUNNING. -/
def KeepsOpened (i : ι) : ServiceAction → Prop
  | .store (.transitionRunStatus x target _ _ _) _ => (∃ j k, opened j k x) → target = .cancelRequested
  | .store (.createRun run _) _ =>
      run.status = .starting ∧ ∀ actor j, clients.call i = .resumeAnsweredWork actor j → run.workId = j
  | .store (.attachExecutionRef ..) _ => False
  | .store (.transitionWorkStatus k target _ _ _) _ =>
      (∀ actor j, clients.call i = .resumeAnsweredWork actor j → k = j ∧ target = .running ∧ ∃ x, opened i k x) ∧
        (¬(clients.call i).IsResume → target ≠ .running)
  | _ => True

/-- How client `i` treats the opened Runs; the others may do anything. -/
def handoffContract (π : Type) (i : ι) : Contract ServiceAction (ServiceWorld π) where
  rely _ _ := True
  assume w a := OpenedStarting opened w.store ∧ CreationKnown clients opened i w.store a
  guar _ a := KeepsOpened clients opened i a

end Promises

variable {clients : Clients ι} {opened : ι → WorkId → RunId → Prop} {i : ι} {ext : Externals π}
  {s : InMemoryStore} {env : Supply}

variable {event : SemanticEvent}

theorem createRun_accepted {run : RunRecord} (hs : s.WellFormed) (h : Accepted s ⟨.createRun run event, env⟩) :
    s.runs.get? run.runId = none ∧ (storeStep s ⟨.createRun run event, env⟩).runs.get? run.runId = some run ∧
      (run.isActive = true → ∀ r ∈ s.runs.values, r.workId = run.workId → r.isActive = false) := by
  obtain ⟨v, s', hrun⟩ := h
  have heffect := exec_effect env hs (.createRun run event)
  change ((StoreOp.createRun run event).exec env).run s = .ok v s' at hrun
  change _ ∧ (((StoreOp.createRun run event).exec env).run s).state.runs.get? run.runId = some run ∧ _
  rw [hrun] at heffect ⊢
  cases heffect with
  | read v hread => cases hread
  | runCreated _ _ hfresh hwork hactive => exact ⟨hfresh, InsertionDict.get?_set_self _ _ _, hactive⟩

theorem createRun_returns {run created : RunRecord} {s' : InMemoryStore} (hs : s.WellFormed)
    (h : ((StoreOp.createRun run event).exec env).run s = .ok created s') : created = run := by
  have heffect := exec_effect env hs (.createRun run event)
  rw [h] at heffect
  cases heffect with
  | read v hread => cases hread
  | runCreated _ _ hfresh hwork hactive => rfl

variable {ref : Option ExecutionRef} {r : RunRecord}

theorem runId_of_moved {x : RunId} {target : RunStatus} {rev : ℤ} (hs : s.WellFormed)
    (h : (((StoreOp.transitionRunStatus x target rev event ref).exec env).run s).outcome = .ok r) : r.runId = x := by
  have heffect := exec_effect env hs (.transitionRunStatus x target rev event ref)
  generalize ((StoreOp.transitionRunStatus x target rev event ref).exec env).run s = result at heffect h
  cases heffect with
  | raised e => cases h
  | read v hread => cases hread
  | @runMoved _ _ _ _ _ current hget hrev hterm hmem =>
    cases h
    exact hs.run_key x current hget

theorem triple_harmless {op : StoreOp} (hop : KeepsOpened clients opened i (.store op env)) :
    Triple (ServiceWorld.handler ext) (handoffContract clients opened π i) (fun _ => True) (callStore op env)
      (fun _ _ => True) (fun _ _ => True) := by
  apply triple_callStore (stable_const True) (fun _ => stable_const True) fun _ => stable_const True
  exact fun _ _ _ => ⟨hop, outcome_const.mpr trivial⟩

/-! ## The executor -/

def NotOpened (opened : ι → WorkId → RunId → Prop) (x : RunId) : Prop := ∀ j k, ¬opened j k x

variable {k : WorkId}

theorem keepsOpened_of_byExecutor (hi : ¬(clients.call i).IsResume) (a : ServiceAction)
    (ha : a.ByExecutor k (NotOpened opened)) : KeepsOpened clients opened i a := by
  cases a with
  | store op env =>
    cases op with
    | transitionRunStatus x target rev event ref =>
      rintro ⟨j, k', hopened⟩
      exact absurd hopened (ha.1 j k')
    | createRun run event => exact ⟨ha.2, fun actor j hcall => absurd ⟨actor, j, hcall⟩ hi⟩
    | attachExecutionRef x rev ref event => exact ha
    | transitionWorkStatus j target rev event evidence =>
      refine ⟨fun actor j hcall => absurd ⟨actor, j, hcall⟩ hi, ?_⟩
      rintro _ rfl
      exact absurd ha.2 (by decide)
    | _ => trivial
  | _ => trivial

theorem triple_byExecutor {α : Type} {x : ServiceTask α} (hi : ¬(clients.call i).IsResume)
    (hx : TaskRequests (ServiceAction.ByExecutor k (NotOpened opened)) x) :
    Triple (ServiceWorld.handler ext) (handoffContract clients opened π i) (fun _ => True) x (fun _ _ => True)
      (fun _ _ => True) :=
  triple_of_requests hx (fun _ _ _ _ h => h) (stable_const True) fun a _ ha _ => keepsOpened_of_byExecutor hi a ha

section Executor

variable (loop : ExecutorLoop) (work : WorkRecord)

/-- The Run of the executor is none of the opened ones. -/
theorem notOpened_createRunFor (hi : ¬(clients.call i).IsResume) :
    Triple (ServiceWorld.handler ext) (handoffContract clients opened π i) (fun _ => True)
      (loop.createRunFor env work) (fun run _ => NotOpened opened run.runId) (fun _ _ => True) := by
  have hE : ∀ _ : Exn, Stable (handoffContract clients opened π i) fun _ => True := fun _ => stable_const True
  apply Triple.bind (Q := fun created _ => NotOpened opened created.runId) _ hE
  · intro created
    apply Triple.bind (Q := fun _ _ => NotOpened opened created.runId) _ hE
    · intro rev
      apply triple_callStore (stable_const _) (fun _ => stable_const _) hE
      intro w hcreated hassume
      refine ⟨fun hopened => ?_, ?_⟩
      · obtain ⟨j, k, hopened⟩ := hopened
        exact absurd hopened (hcreated j k)
      · cases hout : (((StoreOp.transitionRunStatus created.runId .running rev _ none).exec
            (env.sub 5)).run w.store).outcome with
        | error e => trivial
        | ok r =>
          change NotOpened opened r.runId
          rw [runId_of_moved hassume.1.1 hout]
          exact hcreated
    · apply triple_callStore (stable_const _) (fun _ => stable_const _) hE
      exact fun w hcreated _ => ⟨trivial, hcreated⟩
  · apply triple_callStore (stable_const _) (fun _ => stable_const _) hE
    intro w _ hassume
    refine ⟨⟨rfl, fun actor j hcall => absurd ⟨actor, j, hcall⟩ hi⟩, ?_⟩
    cases hrun : ((StoreOp.createRun (newRunRecord (env.sub 0) work.workId)
        (evt (env.sub 1) loop.actor .runCreated none (some work.workId))).exec (env.sub 2)).run w.store with
    | error e s' => trivial
    | ok created s' =>
      change NotOpened opened created.runId
      rw [createRun_returns hassume.1.1 hrun]
      exact (hassume.2 ⟨created, s', hrun⟩).2 hi

theorem spares_executeClaimedWork (hi : ¬(clients.call i).IsResume) :
    Triple (ServiceWorld.handler ext) (handoffContract clients opened π i) (fun _ => True)
      (loop.executeClaimedWork env work) (fun _ _ => True) (fun _ _ => True) := by
  have hE : ∀ _ : Exn, Stable (handoffContract clients opened π i) fun _ => True := fun _ => stable_const True
  have hcreate : Triple (ServiceWorld.handler ext) (handoffContract clients opened π i) (fun _ => True)
      (Prog.attempt (loop.createRunFor (env.sub 0) work))
      (Outcome (fun run _ => NotOpened opened run.runId) fun _ _ => True) (fun _ _ => True) :=
    (notOpened_createRunFor loop work hi).attempt (fun _ => stable_const _) hE
  apply hcreate.bind hE
  intro created
  cases created with
  | error e =>
    have hnone : ∀ r, (none : Option RunRecord) = some r → NotOpened opened r.runId := fun _ hr => by cases hr
    exact (triple_byExecutor hi (requests_fail loop _ work hnone e)).weaken fun _ _ => trivial
  | ok run =>
    -- from here on the identifier of the Run is a fact about the program text
    by_cases hrun : NotOpened opened run.runId
    · have hdispatch : Triple (ServiceWorld.handler ext) (handoffContract clients opened π i) (fun _ => True)
          (Prog.attempt (loop.dispatch work run)) (fun _ _ => True) (fun _ _ => True) :=
        (triple_byExecutor hi (requests_dispatch loop work run)).attempt_const (stable_const True)
      apply (hdispatch.weaken fun _ _ => trivial).bind hE
      exact fun reply => triple_byExecutor hi (requests_settle loop _ work hrun reply)
    · exact fun _ hopened => absurd hopened hrun

theorem spares_executeEach (hi : ¬(clients.call i).IsResume) (works : List WorkRecord) :
    Triple (ServiceWorld.handler ext) (handoffContract clients opened π i) (fun _ => True)
      (loop.executeEach works env) (fun _ _ => True) (fun _ _ => True) := by
  have hE : ∀ _ : Exn, Stable (handoffContract clients opened π i) fun _ => True := fun _ => stable_const True
  induction works generalizing env with
  | nil => exact triple_pure (stable_const True) fun _ _ => trivial
  | cons work rest ih =>
    apply (spares_executeClaimedWork loop work hi).bind hE
    intro result
    apply ih.bind hE
    intro results
    exact triple_pure (stable_const True) fun _ _ => trivial

theorem spares_runOneCycle (hi : ¬(clients.call i).IsResume) (limit : ℤ) :
    Triple (ServiceWorld.handler ext) (handoffContract clients opened π i) (fun _ => True)
      (loop.runOneCycle env limit) (fun _ _ => True) (fun _ _ => True) := by
  have hE : ∀ _ : Exn, Stable (handoffContract clients opened π i) fun _ => True := fun _ => stable_const True
  apply Triple.bind (Q := fun _ _ => True) _ hE
  · intro claimed
    exact spares_executeEach loop hi claimed
  · exact triple_harmless trivial

end Executor

/-! ## The resume call -/

theorem not_opened_of_cancelRequested {x : RunId} {rev : ℤ} (hs : OpenedStarting opened s)
    (h : (((StoreOp.transitionRunStatus x .cancelRequested rev event ref).exec env).run s).outcome = .ok r) :
    NotOpened opened x := by
  intro j k hopened
  have heffect := exec_effect env hs.1 (.transitionRunStatus x .cancelRequested rev event ref)
  generalize ((StoreOp.transitionRunStatus x .cancelRequested rev event ref).exec env).run s = result at heffect h
  cases heffect with
  | raised e => cases h
  | read v hread => cases hread
  | runMoved hget hrev hterm hmem =>
    rw [(hs.2 j k x hopened _ hget).1] at hmem
    revert hmem
    decide

section Resume

variable (actor : Actor) (work : WorkRecord)

theorem spares_closePrior (prior : RunRecord) :
    Triple (ServiceWorld.handler ext) (handoffContract clients opened π i) (fun _ => True)
      (closePrior env actor work prior) (fun _ _ => True) (fun _ _ => True) := by
  have hE : ∀ _ : Exn, Stable (handoffContract clients opened π i) fun _ => True := fun _ => stable_const True
  have hread : ∀ (q : Prop) (e : Supply), Triple (ServiceWorld.handler ext) (handoffContract clients opened π i)
      (fun _ => q) (callStore (.runRevision prior.runId) e) (fun _ _ => q) (fun _ _ => True) := by
    intro q e
    apply triple_callStore (stable_const q) (fun _ => stable_const q) hE
    exact fun w hq _ => ⟨trivial, hq⟩
  apply (hread True _).bind hE
  intro rev
  apply Triple.bind (Q := fun _ _ => NotOpened opened prior.runId) _ hE
  · intro _
    apply (hread _ _).bind hE
    intro rev2
    apply Triple.bind (Q := fun _ _ => True) _ hE
    · exact fun _ => triple_pure (stable_const True) fun _ _ => trivial
    · apply triple_callStore (stable_const _) (fun _ => stable_const _) hE
      intro w hprior _
      refine ⟨?_, outcome_const.mpr trivial⟩
      rintro ⟨j, k, hopened⟩
      exact absurd hopened (hprior j k)
  · apply triple_callStore (stable_const _) (fun _ => stable_const _) hE
    intro w _ hassume
    refine ⟨fun _ => rfl, ?_⟩
    cases hout : (((StoreOp.transitionRunStatus prior.runId .cancelRequested rev _ none).exec
        (env.sub 2)).run w.store).outcome with
    | error e => trivial
    | ok r => exact not_opened_of_cancelRequested hassume.1 hout

theorem spares_closePriors (priors : List RunRecord) :
    Triple (ServiceWorld.handler ext) (handoffContract clients opened π i) (fun _ => True)
      (closePriors actor work priors env) (fun _ _ => True) (fun _ _ => True) := by
  induction priors generalizing env with
  | nil => exact triple_pure (stable_const True) fun _ _ => trivial
  | cons prior rest ih =>
    apply (spares_closePrior actor work prior).bind fun _ => stable_const True
    exact fun _ => ih

/-- A resume call moves its Work only when it has opened a Run of it. -/
theorem spares_resumeAnsweredWork {workId : WorkId} (hi : clients.call i = .resumeAnsweredWork actor workId) :
    Triple (ServiceWorld.handler ext) (handoffContract clients opened π i) (fun _ => True)
      (resumeAnsweredWork env actor workId) (fun _ _ => True) (fun _ _ => True) := by
  have hE : ∀ _ : Exn, Stable (handoffContract clients opened π i) fun _ => True := fun _ => stable_const True
  have hdone : ∀ b : Bool, Triple (ServiceWorld.handler ext) (handoffContract clients opened π i) (fun _ => True)
      (pure b : ServiceTask Bool) (fun _ _ => True) (fun _ _ => True) :=
    fun _ => triple_pure (stable_const True) fun _ _ => trivial
  have hown : ∀ actor' j, clients.call i = .resumeAnsweredWork actor' j → workId = j := by
    intro actor' j hcall
    rw [hi] at hcall
    cases hcall
    rfl
  apply Triple.bind (Q := fun found _ => ∀ work, found = some work → work.workId = workId) _ hE
  · intro found
    cases found with
    | none => exact (hdone false).weaken fun _ _ => trivial
    | some work =>
      dsimp only
      split
      · exact (hdone false).weaken fun _ _ => trivial
      · by_cases hkey : work.workId = workId
        · subst hkey
          apply Triple.bind (Q := fun _ _ => True) _ hE
          · intro runs
            apply (spares_closePriors actor work _).bind hE
            intro _
            apply Triple.bind (Q := fun _ _ => ∃ x, opened i work.workId x) _ hE
            · intro _
              apply Triple.bind (Q := fun _ _ => True) _ hE
              · exact fun _ => hdone true
              · apply triple_callStore (stable_const _) (fun _ => stable_const _) hE
                intro w hopened _
                refine ⟨⟨fun actor' j hcall => ⟨hown actor' j hcall, rfl, hopened⟩, ?_⟩, outcome_const.mpr trivial⟩
                exact fun hnot => absurd ⟨actor, work.workId, hi⟩ hnot
            · apply triple_callStore (stable_const _) (fun _ => stable_const _) hE
              intro w _ hassume
              refine ⟨⟨rfl, hown⟩, ?_⟩
              cases hrun : ((StoreOp.createRun (newRunRecord (env.sub 3) work.workId)
                  (evt (env.sub 4) actor .runCreated none (some work.workId))).exec (env.sub 5)).run w.store with
              | error e s' => trivial
              | ok created s' => exact ⟨_, (hassume.2 ⟨created, s', hrun⟩).1 ⟨actor, work.workId, hi⟩⟩
          · apply triple_callStore (stable_const _) (fun _ => stable_const _) hE
            exact fun _ _ _ => ⟨trivial, outcome_const.mpr trivial⟩
        · exact fun _ hfound => absurd (hfound work rfl) hkey
  · apply triple_callStore (stable_const _) (fun _ => stable_const _) hE
    intro w _ hassume
    exact ⟨trivial, fun work hfound => hassume.1.1.work_key workId work hfound⟩

end Resume

/-! ## Runs of the pool -/

theorem meets_of_handoff (ext : Externals π) {world : ServiceWorld π} (hcall : (clients.call i).Handoff) :
    Meets (ServiceWorld.handler ext) (handoffContract clients opened π i) (fun _ _ => True)
      ((clients.pool world).threads i) world := by
  have hmeets : Triple (ServiceWorld.handler ext) (handoffContract clients opened π i) (fun _ => True)
      ((clients.call i).task (clients.env i)) (fun _ _ => True) (fun _ _ => True) := by
    have hE : ∀ _ : Exn, Stable (handoffContract clients opened π i) fun _ => True := fun _ => stable_const True
    have hdone : ∀ u : Unit, Triple (ServiceWorld.handler ext) (handoffContract clients opened π i) (fun _ => True)
        (pure u : ServiceTask Unit) (fun _ _ => True) (fun _ _ => True) :=
      fun _ => triple_pure (stable_const True) fun _ _ => trivial
    generalize hc : clients.call i = call at hcall
    have hnot : ∀ c : ServiceCall, clients.call i = c → (∀ actor k, c ≠ .resumeAnsweredWork actor k) →
        ¬(clients.call i).IsResume := by
      rintro c hc hne ⟨actor, k, hresume⟩
      exact hne actor k (hc.symm.trans hresume)
    cases hcall with
    | resume actor k => exact (spares_resumeAnsweredWork actor hc).bind hE fun _ => hdone ()
    | cycle loop limit =>
      exact (spares_runOneCycle loop (hnot _ hc fun _ _ h => by cases h) limit).bind hE fun _ => hdone ()
    | answer questionId rev answerRef signalCorrelation =>
      exact Triple.bind (triple_harmless trivial) hE fun _ => hdone ()
    | read op hread =>
      refine Triple.bind (triple_harmless ?_) hE fun _ => hdone ()
      cases op <;> trivial
  exact (hmeets world trivial).mono fun _ _ _ => trivial

theorem accepted_of_new_run {c : StoreCall} {x : RunId} (hs : s.WellFormed)
    (hfresh : s.runs.get? x = none) (hr : (storeStep s c).runs.get? x = some r) : Accepted s c := by
  rcases accepted_or_same c hs with hacc | hsame
  · exact hacc
  · rw [hsame, hfresh] at hr
    cases hr

/-- The promises of the clients keep the opened Runs STARTING. -/
theorem openedStarting_step {op : StoreOp} (hunique : ∀ j j' k k' x, opened j k x → opened j' k' x → k = k')
    (hs : OpenedStarting opened s) (hknown : CreationKnown clients opened i s (.store op env))
    (hkeeps : KeepsOpened clients opened i (.store op env)) : OpenedStarting opened (storeStep s ⟨op, env⟩) := by
  refine ⟨wellFormed_step s _ hs.1, ?_⟩
  intro j k x hopened r hr
  have hnew : s.runs.get? x = none → Accepted s ⟨op, env⟩ := fun hfresh => accepted_of_new_run hs.1 hfresh hr
  have hchange := run_change_step ⟨op, env⟩ hs.1 x
  rw [hr] at hchange
  generalize hafter : some r = after at hchange
  cases hchange with
  | kept => exact hs.2 j k x hopened r hafter.symm
  | @created run event hkey hfresh hwork hactive =>
    cases hafter
    subst hkey
    refine ⟨hkeeps.1, ?_⟩
    by_cases hi : (clients.call i).IsResume
    · exact hunique i j _ _ _ ((hknown (hnew hfresh)).1 hi) hopened
    · exact absurd hopened ((hknown (hnew hfresh)).2 hi j k)
  | attached hget hrev => exact hkeeps.elim
  | moved hget hrev hmem =>
    rw [(hs.2 j k x hopened _ hget).1, hkeeps ⟨j, k, hopened⟩] at hmem
    exact absurd hmem (by decide)

def RunThere (x : RunId) (s : InMemoryStore) : Prop := ∃ r, s.runs.get? x = some r

theorem runThere_step (c : StoreCall) (hs : s.WellFormed) {x : RunId} (h : RunThere x s) : RunThere x (storeStep s c) := by
  obtain ⟨r, hr⟩ := h
  obtain ⟨op, env⟩ := c
  have hchange := run_change_step ⟨op, env⟩ hs x
  unfold RunThere
  generalize (storeStep s ⟨op, env⟩).runs.get? x = after at hchange ⊢
  cases hchange with
  | kept => exact ⟨r, hr⟩
  | created hkey hfresh hwork hactive => exact ⟨_, rfl⟩
  | attached hget hrev => exact ⟨_, rfl⟩
  | moved hget hrev hmem => exact ⟨_, rfl⟩

/-- Client `i` creates the Run `x` with its next request. -/
def CreatesRun (p : ServicePool ι π) (i : ι) (x : RunId) : Prop :=
  ∃ run event env, p.Requests i (.store (.createRun run event) env) ∧ run.runId = x ∧
    Accepted p.state.store ⟨.createRun run event, env⟩

theorem OpensRun.creates {p : ServicePool ι π} {x : RunId} (h : OpensRun clients p i k x) : CreatesRun p i x := by
  obtain ⟨_, run, event, env, hreq, _, hid, hacc⟩ := h
  exact ⟨run, event, env, hreq, hid, hacc⟩

section Runs

variable [DecidableEq ι] (ext) {p : ServicePool ι π} {x : RunId}

theorem runThere_serviceRun (hreach : StoreReachable p.state.store) (h : RunThere x p.state.store) (schedule : List ι) :
    RunThere x (MachineRuns.run (serviceStep ext) p schedule).state.store := by
  refine (MachineRuns.invariant_run
    (I := fun q : ServicePool ι π => StoreReachable q.state.store ∧ RunThere x q.state.store) ?_ ⟨hreach, h⟩ schedule).2
  rintro q i ⟨hq, hx⟩
  refine ⟨reachable_serviceStep ext q i hq, ?_⟩
  have hboth := serviceStep_keeps ext (I := fun t => t.WellFormed ∧ RunThere x t)
    (fun t c ht => ⟨wellFormed_step t c ht.1, runThere_step c ht.1 ht.2⟩) q i ⟨hq.wellFormed, hx⟩
  exact hboth.2

theorem CreatesRun.there (hreach : StoreReachable p.state.store)
    (h : CreatesRun p i x) : ¬RunThere x p.state.store ∧ RunThere x (serviceStep ext p i).state.store := by
  obtain ⟨run, event, env, ⟨rest, hthread⟩, rfl, hacc⟩ := h
  obtain ⟨hfresh, hstored, _⟩ := createRun_accepted hreach.wellFormed hacc
  refine ⟨?_, run, ?_⟩
  · rintro ⟨r, hr⟩
    rw [hfresh] at hr
    cases hr
  · simp only [Pool.step, hthread, advance]
    exact hstored

variable {before after before' after' : List ι}

theorem created_once (hreach : StoreReachable p.state.store)
    {i j : ι} (hsplit : before ++ i :: after = before' ++ j :: after')
    (hi : CreatesRun (MachineRuns.run (serviceStep ext) p before) i x)
    (hj : CreatesRun (MachineRuns.run (serviceStep ext) p before') j x) : before = before' ∧ i = j := by
  have hlater : ∀ (first second : List ι) (m n : ι) (between : List ι), second = first ++ m :: between →
      CreatesRun (MachineRuns.run (serviceStep ext) p first) m x →
      CreatesRun (MachineRuns.run (serviceStep ext) p second) n x → False := by
    rintro first second m n between rfl hm hn
    have hfirst := reachable_serviceRun ext hreach first
    have hthere := (hm.there ext hfirst).2
    have hkept := runThere_serviceRun ext (reachable_serviceStep ext _ m hfirst) hthere between
    rw [← run_cons, ← run_append] at hkept
    exact (hn.there ext (reachable_serviceRun ext hreach _)).1 hkept
  rcases positions_cases hsplit with hsame | ⟨between, hbetween⟩ | ⟨between, hbetween⟩
  · exact hsame
  · exact (hlater before before' i j between hbetween hi hj).elim
  · exact (hlater before' before j i between hbetween hj hi).elim

/-- In the course of the run, client `i` opens the Run `x` of the Work `k`. -/
def OpenedIn (ext : Externals π) (clients : Clients ι) (world : ServiceWorld π) (schedule : List ι) (i : ι) (k : WorkId)
    (x : RunId) : Prop :=
  ∃ before after, schedule = before ++ i :: after ∧
    OpensRun clients (MachineRuns.run (serviceStep ext) (clients.pool world) before) i k x

variable {world : ServiceWorld π} {schedule : List ι}

theorem openedIn_unique (hreach : StoreReachable world.store) {j j' : ι} {k k' : WorkId}
    (h : OpenedIn ext clients world schedule j k x) (h' : OpenedIn ext clients world schedule j' k' x) : k = k' := by
  obtain ⟨before, after, hsplit, hopens⟩ := h
  obtain ⟨before', after', hsplit', hopens'⟩ := h'
  obtain ⟨rfl, rfl⟩ := created_once ext (p := clients.pool world) hreach (hsplit.symm.trans hsplit') hopens.creates
    hopens'.creates
  obtain ⟨_, run, event, env, hreq, rfl, _, _⟩ := hopens
  obtain ⟨_, run', event', env', ⟨rest', hthread'⟩, rfl, _, _⟩ := hopens'
  cases hreq.eq hthread'
  rfl

/-- Every accepted creation of the run is known. -/
theorem creationKnown_serviceRun (hreach : StoreReachable world.store) : EveryStep (serviceStep ext)
      (fun q i => ∀ a, q.Requests i a → CreationKnown clients (OpenedIn ext clients world schedule) i q.state.store a)
      (clients.pool world) schedule := by
  intro before i after hsplit a hreq
  cases a with
  | store op env =>
    cases op with
    | createRun run event =>
      intro hacc
      constructor
      · intro hi
        exact ⟨before, after, hsplit, hi, run, event, env, hreq, rfl, rfl, hacc⟩
      · rintro hi j k ⟨before', after', hsplit', hopens'⟩
        have hcreates : CreatesRun (MachineRuns.run (serviceStep ext) (clients.pool world) before) i run.runId :=
          ⟨run, event, env, hreq, rfl, hacc⟩
        obtain ⟨rfl, rfl⟩ := created_once ext (p := clients.pool world) hreach (hsplit.symm.trans hsplit') hcreates
          hopens'.creates
        exact hi hopens'.1
    | _ => trivial
  | _ => trivial

theorem openedStarting_start (hreach : StoreReachable world.store) :
    OpenedStarting (OpenedIn ext clients world schedule) world.store := by
  refine ⟨hreach.wellFormed, ?_⟩
  rintro i k x ⟨before, after, _, hopens⟩ r hr
  have hthere := runThere_serviceRun ext (p := clients.pool world) hreach ⟨r, hr⟩ before
  exact absurd hthere (hopens.creates.there ext (reachable_serviceRun ext (p := clients.pool world) hreach before)).1

/-- At every point of a run the opened Runs are STARTING, and every request keeps the promise of
its client. -/
theorem handoff_run (hreach : StoreReachable world.store) (hcalls : ∀ i, (clients.call i).Handoff)
    {before after : List ι} (hsplit : schedule = before ++ after) : OpenedStarting (OpenedIn ext clients world schedule)
        (MachineRuns.run (serviceStep ext) (clients.pool world) before).state.store ∧
      ∀ i, Meets (ServiceWorld.handler ext) (handoffContract clients (OpenedIn ext clients world schedule) π i)
        (fun _ _ => True) ((MachineRuns.run (serviceStep ext) (clients.pool world) before).threads i)
        (MachineRuns.run (serviceStep ext) (clients.pool world) before).state := by
  have hknown : EveryStep (serviceStep ext) (fun q i => ∀ a, q.Requests i a →
      CreationKnown clients (OpenedIn ext clients world schedule) i q.state.store a) (clients.pool world) schedule :=
    creationKnown_serviceRun ext hreach
  apply Pool.parallel (J := fun w => OpenedStarting (OpenedIn ext clients world schedule) w.store)
    (P := fun (q : ServicePool ι π) i => ∀ a, q.Requests i a →
      CreationKnown clients (OpenedIn ext clients world schedule) i q.state.store a)
  · intro q i a rest hq hknown' hthread
    exact ⟨hq, hknown' a ⟨rest, hthread⟩⟩
  · intro i a w hw hassume hguar
    refine ⟨?_, fun _ _ => trivial⟩
    rw [handler_store]
    cases a with
    | store op env =>
      exact openedStarting_step (fun j j' k k' x h h' => openedIn_unique ext hreach h h') hw hassume.2 hguar
    | _ => exact hw
  · exact openedStarting_start ext hreach
  · intro i
    exact meets_of_handoff ext (hcalls i)
  · subst hsplit
    exact MachineRuns.everyStep_append_left hknown

theorem keepsOpened_serviceRun (hreach : StoreReachable world.store) (hcalls : ∀ i, (clients.call i).Handoff)
    {before after : List ι} (hsplit : schedule = before ++ i :: after) {a : ServiceAction}
    (hreq : (MachineRuns.run (serviceStep ext) (clients.pool world) before).Requests i a) :
    KeepsOpened clients (OpenedIn ext clients world schedule) i a := by
  obtain ⟨hstarting, hmeets⟩ := handoff_run ext hreach hcalls hsplit
  have hknown := creationKnown_serviceRun ext hreach before i after hsplit a hreq
  obtain ⟨rest, hthread⟩ := hreq
  have hi := hmeets i
  rw [hthread] at hi
  exact (hi.act ⟨hstarting, hknown⟩).1

theorem starting_after_opening (hreach : StoreReachable world.store) (hcalls : ∀ i, (clients.call i).Handoff)
    {before between after : List ι} (hsplit : schedule = before ++ i :: between ++ after) {k : WorkId}
    (hopens : OpensRun clients (MachineRuns.run (serviceStep ext) (clients.pool world) before) i k x) :
    ∃ r, (MachineRuns.run (serviceStep ext) (clients.pool world) (before ++ i :: between)).state.store.runs.get? x
      = some r ∧ r.status = .starting ∧ r.workId = k := by
  have hopened : OpenedIn ext clients world schedule i k x :=
    ⟨before, between ++ after, by rw [hsplit, List.append_assoc, List.cons_append], hopens⟩
  have hfirst := reachable_serviceRun ext (p := clients.pool world) hreach before
  have hthere := runThere_serviceRun ext (reachable_serviceStep ext _ i hfirst) (hopens.creates.there ext hfirst).2 between
  rw [← run_cons, ← run_append] at hthere
  obtain ⟨r, hr⟩ := hthere
  exact ⟨r, hr, (handoff_run ext hreach hcalls hsplit).1.2 i k x hopened r hr⟩

/-- At most one Run of a Work is opened in a run. -/
theorem opened_once (hreach : StoreReachable world.store) (hcalls : ∀ i, (clients.call i).Handoff) {i j : ι} {k : WorkId} {x y : RunId}
    (hsplit : before ++ i :: after = before' ++ j :: after')
    (hi : OpensRun clients (MachineRuns.run (serviceStep ext) (clients.pool world) before) i k x)
    (hj : OpensRun clients (MachineRuns.run (serviceStep ext) (clients.pool world) before') j k y) :
    before = before' ∧ i = j := by
  have hlater : ∀ (first second rest : List ι) (m n : ι) (u v : RunId) (between : List ι),
      second = first ++ m :: between →
      OpensRun clients (MachineRuns.run (serviceStep ext) (clients.pool world) first) m k u →
      OpensRun clients (MachineRuns.run (serviceStep ext) (clients.pool world) second) n k v → False := by
    rintro first second rest m n u v between rfl hm hn
    obtain ⟨r, hr, hstarting, hwork⟩ :=
      starting_after_opening ext hreach hcalls (rfl : _ = first ++ m :: between ++ n :: rest) hm
    obtain ⟨_, run, event, env, hreq, hrunWork, _, hacc⟩ := hn
    have hstatus : run.status = .starting :=
      (keepsOpened_serviceRun ext hreach hcalls (rfl : _ = first ++ m :: between ++ n :: rest) hreq).1
    have hs := (reachable_serviceRun ext (p := clients.pool world) hreach (first ++ m :: between)).wellFormed
    obtain ⟨_, _, hidle⟩ := createRun_accepted hs hacc
    have hactive : run.isActive = true := by simp [RunRecord.isActive, hstatus, activeRunStatuses]
    have hinactive := hidle hactive r (InsertionDict.mem_values_of_get? hr) (hwork.trans hrunWork.symm)
    simp [RunRecord.isActive, hstarting, activeRunStatuses] at hinactive
  rcases positions_cases hsplit with hsame | ⟨between, hbetween⟩ | ⟨between, hbetween⟩
  · exact hsame
  · exact (hlater before before' after' i j x y between hbetween hi hj).elim
  · exact (hlater before' before after j i y x between hbetween hj hi).elim

theorem opened_not_cancelled (hreach : StoreReachable world.store) (hcalls : ∀ i, (clients.call i).Handoff)
    {before between : List ι} {i j : ι} {k : WorkId}
    (hopens : OpensRun clients (MachineRuns.run (serviceStep ext) (clients.pool world) before) i k x)
    {target : RunStatus} {rev : ℤ} {ref : Option ExecutionRef}
    (hreq : (MachineRuns.run (serviceStep ext) (clients.pool world) (before ++ i :: between)).Requests j
      (.store (.transitionRunStatus x target rev event ref) env)) :
    ¬Accepted (MachineRuns.run (serviceStep ext) (clients.pool world) (before ++ i :: between)).state.store
      ⟨.transitionRunStatus x target rev event ref, env⟩ := by
  rintro ⟨v, s', hacc⟩
  have hopened : OpenedIn ext clients world (before ++ i :: between ++ [j]) i k x :=
    ⟨before, between ++ [j], by rw [List.append_assoc, List.cons_append], hopens⟩
  have htarget : target = .cancelRequested := keepsOpened_serviceRun ext hreach hcalls rfl hreq ⟨i, k, hopened⟩
  subst htarget
  have hstarting := (handoff_run ext hreach hcalls (rfl : _ = before ++ i :: between ++ [j])).1
  have hout := congrArg EStateM.Result.outcome hacc
  exact not_opened_of_cancelRequested hstarting hout i k hopened

end Runs

end AllTomorrow
