import AllTomorrow.ResumedRuns
import AllTomorrow.CycleOutcome
import AllTomorrow.AnsweredWork

/-!
# Resuming once per answer

Resume calls, executor cycles and answers over one store. The executor that has claimed
a Work is the only one to ask for it or to move it out of RUNNING, so a Work that a
resume call finds WAITING keeps waiting with the same latest Question until that call,
or another one that was quicker, opens a Run.
-/

namespace AllTomorrow

open MachineRuns (EveryStep invariant_run run_append)

open InMemoryStore Prog

variable {ι π : Type} {clients : Clients ι} {ext : Externals π} {s : InMemoryStore} {env : Supply} {k : WorkId}

/-! ## The latest Question -/

/-- The last of `list_questions`. -/
def latestQuestion (s : InMemoryStore) (k : WorkId) : Option QuestionRecordSemantic := (s.listQuestions k).getLast?

def LatestAnswered (k : WorkId) (s : InMemoryStore) : Prop := ∃ q, latestQuestion s k = some q ∧ q.status = .answered

def StoreOp.AsksFor (k : WorkId) : StoreOp → Prop
  | .createQuestion q => q.workId = some k
  | _ => False

theorem listQuestions_of_values (s' : InMemoryStore) {f : QuestionRecordSemantic → QuestionRecordSemantic}
    (hvalues : s'.questions.values = s.questions.values.map f)
    (hsame : ∀ q ∈ s.questions.values, (f q).workId = q.workId ∧ (f q).createdAt = q.createdAt) (k : WorkId) :
    s'.listQuestions k = (s.listQuestions k).map f := by
  have hfilter : (s'.questions.values.filter fun q => q.workId = some k) =
      (s.questions.values.filter fun q => q.workId = some k).map f := by
    rw [hvalues, List.filter_map]
    congr 1
    apply List.filter_congr
    intro q hq
    simp [(hsame q hq).1]
  unfold listQuestions
  rw [hfilter, List.map_insertionSort _ fun a b : QuestionRecordSemantic => a.createdAt ≤ b.createdAt]
  intro a ha b hb
  rw [(hsame a (List.mem_filter.mp ha).1).2, (hsame b (List.mem_filter.mp hb).1).2]

variable {q : QuestionRecordSemantic}

theorem mem_of_latestQuestion (h : latestQuestion s k = some q) : q ∈ s.questions.values := by
  have hmem : q ∈ s.listQuestions k := List.mem_of_getLast? h
  exact (List.mem_filter.mp ((List.mem_insertionSort _).mp hmem)).1

variable (c : StoreCall)

/-- What was answered stays the latest answered Question unless another one is asked. -/
theorem latestAnswered_step (hs : s.WellFormed) (hc : ¬c.op.AsksFor k) (h : LatestAnswered k s) :
    LatestAnswered k (storeStep s c) := by
  obtain ⟨q, hq, hanswered⟩ := h
  obtain ⟨op, env⟩ := c
  have heffect := exec_effect env hs op
  change LatestAnswered k ((op.exec env).run s).state
  generalize (op.exec env).run s = r at heffect
  cases heffect with
  | questionCreated question hfresh hclash =>
    have hne : ¬question.workId = some k := hc
    have hother : (List.filter (fun q => decide (q.workId = some k)) [question]) = [] := by
      simp [hne]
    refine ⟨q, ?_, hanswered⟩
    unfold latestQuestion listQuestions
    change ((s.questions.set question.questionId question).values.filter _ |>.insertionSort _).getLast? = _
    rw [InsertionDict.values_set_of_fresh hfresh, List.filter_append, hother, List.append_nil]
    exact hq
  | @questionAnswered questionId answerRef signalCorrelation current hget hpending =>
    have hkeyed : ∀ u ∈ s.questions.values, u.questionId = questionId → u = current := by
      intro u hu hid
      obtain ⟨j, hj⟩ := InsertionDict.mem_values_iff.mp hu
      rw [← hs.question_key j u hj, hid, hget, Option.some.injEq] at hj
      exact hj.symm
    have hvalues := InsertionDict.values_set_of_get? hs.question_key hget
      (current.answered env answerRef signalCorrelation)
    have hlist := listQuestions_of_values
      { s with questions := s.questions.set questionId (current.answered env answerRef signalCorrelation)
               deliverySignals := s.deliverySignals ++ [⟨questionId, signalCorrelation⟩] } hvalues ?_ k
    · refine ⟨q, ?_, hanswered⟩
      change List.getLast? _ = some q
      rw [EStateM.Result.state_ok, hlist, List.getLast?_map]
      have hlast : (s.listQuestions k).getLast? = some q := hq
      rw [hlast, Option.map_some, if_neg]
      intro hid
      rw [hkeyed q (mem_of_latestQuestion hq) hid, hpending] at hanswered
      cases hanswered
    · intro u hu
      split
      · rename_i hid
        rw [hkeyed u hu hid]
        exact ⟨rfl, rfl⟩
      · exact ⟨rfl, rfl⟩
  | _ => exact ⟨q, hq, hanswered⟩

/-! ## Who asks for a Work and who moves it -/

def StoreOp.Moves (k : WorkId) : StoreOp → Prop
  | .transitionWorkStatus j target _ _ _ => j = k ∧ target ≠ .running
  | _ => False

/-- The request asks for the Work or moves it to another status than RUNNING. -/
def ServiceAction.Concerns (k : WorkId) : ServiceAction → Prop
  | .store op _ => op.Moves k ∨ op.AsksFor k
  | _ => False

def IsRunning (k : WorkId) (s : InMemoryStore) : Prop := ∃ w, s.work.get? k = some w ∧ w.status = .running

theorem isRunning_step (hs : s.WellFormed) (hc : ¬c.op.Moves k) (h : IsRunning k s) : IsRunning k (storeStep s c) := by
  obtain ⟨w, hw, hrunning⟩ := h
  obtain ⟨op, env⟩ := c
  have hchange := work_change_step ⟨op, env⟩ hs k
  unfold IsRunning
  generalize (storeStep s ⟨op, env⟩).work.get? k = after at hchange ⊢
  cases hchange with
  | kept => exact ⟨w, hw, hrunning⟩
  | created hkey hfresh hgoal =>
    rw [hw] at hfresh
    cases hfresh
  | @moved v target event evidence hget hmem =>
    by_cases htarget : target = .running
    · exact ⟨_, rfl, htarget⟩
    · exact absurd ⟨rfl, htarget⟩ hc
  | claimed hget hmem env' => exact ⟨_, rfl, rfl⟩

/-- How the executor that has claimed the Work counts on the others: they leave it alone. It asks for
the Work and moves it only while it is RUNNING. -/
def ownerContract (π : Type) (k : WorkId) : Contract ServiceAction (ServiceWorld π) :=
  clientContract (fun _ c => ¬c.op.Moves k) (fun _ _ => True) fun w a => a.Concerns k → IsRunning k w.store

theorem stable_isRunning : Stable (ownerContract π k) fun w => IsRunning k w.store :=
  stable_of_calls fun _ c hs hc h => isRunning_step c hs hc h

theorem not_concerns_of_byExecutor {j : WorkId} {moved : RunId → Prop} (hne : j ≠ k) (a : ServiceAction)
    (ha : a.ByExecutor j moved) : ¬a.Concerns k := by
  cases a with
  | store op env =>
    rintro (hmoves | hasks)
    · cases op with
      | transitionWorkStatus i target rev event evidence => exact hne (ha.1.symm.trans hmoves.1)
      | _ => exact hmoves
    · cases op with
      | createQuestion q => exact hne (Option.some.inj (ha.symm.trans hasks))
      | _ => exact hasks
  | _ => exact id

theorem isRunning_own (a : ServiceAction) (w : ServiceWorld π) (ha : ¬a.Concerns k)
    (hassume : (ownerContract π k).assume w a) (h : IsRunning k w.store) :
    IsRunning k (ServiceWorld.handler ext a w).2.store := by
  rw [handler_store]
  cases a with
  | store op env => exact isRunning_step ⟨op, env⟩ hassume.1 (fun hmoves => ha (.inl hmoves)) h
  | _ => exact h

theorem triple_unconcerned {α : Type} {x : ServiceTask α} (hx : TaskRequests (fun a => ¬a.Concerns k) x) :
    Triple (ServiceWorld.handler ext) (ownerContract π k) (fun w => IsRunning k w.store) x
      (fun _ w => IsRunning k w.store) (fun _ w => IsRunning k w.store) :=
  triple_of_requests hx (fun a w ha hassume h => isRunning_own a w ha hassume h) stable_isRunning
    fun _ _ ha _ hconcerns => absurd hconcerns ha

section Owner

variable (loop : ExecutorLoop) (work : WorkRecord)

theorem not_concerns_store {op : StoreOp} (hmoves : ¬op.Moves k) (hasks : ¬op.AsksFor k) :
    ¬(ServiceAction.store op env).Concerns k := fun h => h.elim hmoves hasks

theorem unconcerned_createRunFor : TaskRequests (fun a => ¬a.Concerns k) (loop.createRunFor env work) := by
  apply TaskRequests.bind (taskRequests_callStore (not_concerns_store id id))
  intro created
  apply TaskRequests.bind (taskRequests_callStore (not_concerns_store id id))
  intro rev
  exact taskRequests_callStore (not_concerns_store id id)

variable (run : RunRecord)

theorem unconcerned_dispatch : TaskRequests (fun a => ¬a.Concerns k) (loop.dispatch work run) := by
  apply TaskRequests.bind (taskRequests_request id)
  intro available
  split
  · exact taskRequests_throw
  · apply TaskRequests.bind (taskRequests_request id)
    intro adapter
    apply taskRequests_ofExcept
    intro r _
    apply TaskRequests.bind (taskRequests_request id)
    exact fun _ => taskRequests_request id

theorem unconcerned_moveRun {x : RunId} {target : RunStatus} {event : SemanticEvent} {env' : Supply} :
    TaskRequests (fun a => ¬a.Concerns k) (do
      let rev ← callStore (.runRevision x) env
      callStore (.transitionRunStatus x target rev event none) env') := by
  apply TaskRequests.bind (taskRequests_callStore (not_concerns_store id id))
  exact fun rev => taskRequests_callStore (not_concerns_store id id)

theorem unconcerned_storeOutput (result : WorkerResult) :
    TaskRequests (fun a => ¬a.Concerns k) (loop.storeOutput work result) := by
  have houtput : TaskRequests (fun a => ¬a.Concerns k) (extractOutputText result) := by
    unfold extractOutputText
    split
    · exact taskRequests_throw
    · split
      · exact taskRequests_pure
      · split
        · exact taskRequests_pure
        · exact TaskRequests.bind (taskRequests_request id) fun _ => taskRequests_pure
  unfold ExecutorLoop.storeOutput
  split
  · apply houtput.bind
    intro output
    cases output with
    | none => exact taskRequests_pure
    | some text =>
      dsimp only
      split
      · exact taskRequests_pure
      · exact TaskRequests.bind (taskRequests_request id) fun _ => taskRequests_pure
  · exact taskRequests_pure

/-- From a state with `P` on, the program asks for the Work and moves it only while it is RUNNING. -/
def Owns (ext : Externals π) (k : WorkId) (P : InMemoryStore → Prop) {α : Type} (x : ServiceTask α) : Prop :=
  Triple (ServiceWorld.handler ext) (ownerContract π k) (fun w => P w.store) x (fun _ _ => True) (fun _ _ => True)

variable {P : InMemoryStore → Prop}

theorem Owns.bind {α β : Type} {x : ServiceTask α} {f : α → ServiceTask β}
    (hx : Owns ext k P x) (hf : ∀ a, Owns ext k (fun _ => True) (f a)) : Owns ext k P (x >>= f) :=
  Triple.bind hx (fun _ => stable_const True) hf

theorem Owns.after {α β : Type} {x : ServiceTask α} {f : α → ServiceTask β}
    (hx : TaskRequests (fun a => ¬a.Concerns k) x) (hf : ∀ a, Owns ext k (IsRunning k) (f a)) :
    Owns ext k (IsRunning k) (x >>= f) := by
  apply Triple.bind ((triple_unconcerned hx).conseq (fun _ _ h => h) fun _ _ _ => trivial) fun _ => stable_const True
  exact hf

variable {α : Type} {x : ServiceTask α}

theorem Owns.unconcerned (hx : TaskRequests (fun a => ¬a.Concerns k) x) : Owns ext k P x := by
  have htriple : Triple (ServiceWorld.handler ext) (ownerContract π k) (fun _ => True) x (fun _ _ => True)
      (fun _ _ => True) :=
    triple_of_requests hx (fun _ _ _ _ h => h) (stable_const True) fun _ _ ha _ hconcerns => absurd hconcerns ha
  exact htriple.weaken fun _ _ => trivial

theorem Owns.attempt (hx : Owns ext k P x) : Owns ext k P (Prog.attempt x) :=
  Triple.attempt_const hx (stable_const True)

theorem Owns.ignoreDomainErrors (hx : Owns ext k P x) : Owns ext k P (AllTomorrow.ignoreDomainErrors x) := by
  apply hx.attempt.bind
  intro r
  cases r with
  | ok a => exact Owns.unconcerned taskRequests_pure
  | error e =>
    dsimp only
    split
    · exact Owns.unconcerned taskRequests_pure
    · exact Owns.unconcerned taskRequests_throw

theorem owns_callStore {op : StoreOp} : Owns ext k (IsRunning k) (callStore op env) := by
  apply triple_callStore stable_isRunning (fun _ => stable_const True) fun _ => stable_const True
  exact fun w hw _ => ⟨fun _ => hw, outcome_const.mpr trivial⟩

theorem owns_revisionOf {found : Option WorkRecord} {f : ℤ → ServiceTask α}
    (hf : ∀ rev, Owns ext k (IsRunning k) (f rev)) : Owns ext k (IsRunning k) (revisionOf found >>= f) := by
  apply Owns.after _ hf
  exact taskRequests_revisionOf

theorem owns_fail (run : Option RunRecord) (exc : Exn) : Owns ext k (IsRunning k) (loop.fail env work run exc) := by
  have hwork : Owns ext k (IsRunning k) (do
      let workCur ← callStore (.getWork work.workId) (env.sub 1)
      ignoreDomainErrors (loop.failWork (env.sub 2) work workCur exc.text)
      return ({ workId := work.workId.val, outcome := "failed", detail := some exc.text } : ExecutorResult)) := by
    apply Owns.after (taskRequests_callStore (not_concerns_store id id))
    intro workCur
    apply Owns.bind
    · apply Owns.ignoreDomainErrors
      exact owns_revisionOf fun rev => owns_callStore
    · exact fun _ => Owns.unconcerned taskRequests_pure
  cases run with
  | none => exact hwork
  | some run =>
    apply Owns.after (taskRequests_ignoreDomainErrors unconcerned_moveRun)
    exact fun _ => hwork

theorem owns_succeed (result : WorkerResult) : Owns ext k (IsRunning k) (loop.succeed env work run result) := by
  apply Owns.after (taskRequests_callStore (not_concerns_store id id))
  intro rev
  apply Owns.after (taskRequests_callStore (not_concerns_store id id))
  intro _
  apply Owns.after (unconcerned_storeOutput loop work result)
  intro artifactRefs
  apply Owns.after (taskRequests_callStore (not_concerns_store id id))
  intro workCur
  apply owns_revisionOf
  intro revision
  apply owns_callStore.bind
  exact fun _ => Owns.unconcerned taskRequests_pure

theorem owns_toWaiting (prompt : String) : Owns ext k (IsRunning k) (loop.toWaiting env work run prompt) := by
  have hask : Triple (ServiceWorld.handler ext) (ownerContract π k) (fun w => IsRunning k w.store)
      (callStore (.createQuestion (ExecutorLoop.question (env.sub 0) work run prompt)) (env.sub 1))
      (fun _ w => IsRunning k w.store) (fun _ w => IsRunning k w.store) := by
    apply triple_callStore_const stable_isRunning stable_isRunning
    exact fun w hw hassume => ⟨fun _ => hw, isRunning_step _ hassume.1 id hw⟩
  apply Triple.bind (hask.conseq (fun _ _ h => h) fun _ _ _ => trivial) fun _ => stable_const True
  intro _
  apply Owns.after (taskRequests_callStore (not_concerns_store id id))
  intro workCur
  apply owns_revisionOf
  intro revision
  apply owns_callStore.bind
  intro _
  apply Owns.unconcerned
  apply TaskRequests.bind (taskRequests_ignoreDomainErrors unconcerned_moveRun)
  exact fun _ => taskRequests_pure

theorem owns_conclude (result : WorkerResult) : Owns ext k (IsRunning k) (loop.conclude env work run result) := by
  unfold ExecutorLoop.conclude
  split
  · exact owns_fail loop work _ _
  · split
    · exact Owns.unconcerned taskRequests_throw
    · split
      · split
        · apply Owns.after (taskRequests_request id)
          exact fun prompt => owns_toWaiting loop work run prompt
        · exact owns_succeed loop work run result
      · exact owns_succeed loop work run result

theorem owns_settle (reply : Except Exn WorkerReply) : Owns ext k (IsRunning k) (loop.settle env work run reply) := by
  cases reply with
  | error e => exact owns_fail loop work (some run) e
  | ok reply =>
    cases reply with
    | returns result => exact owns_conclude loop work run result
    | returnsOther e => exact Owns.unconcerned taskRequests_throw
    | raises e => exact owns_fail loop work (some run) e
    | aborts e => exact Owns.unconcerned taskRequests_throw

theorem owns_executeClaimedWork : Owns ext k (IsRunning k) (loop.executeClaimedWork env work) := by
  apply Owns.after (unconcerned_createRunFor loop work).attempt
  intro created
  cases created with
  | error e => exact owns_fail loop work none e
  | ok run =>
    apply Owns.after (unconcerned_dispatch loop work run).attempt
    exact owns_settle loop work run

variable {works : List WorkRecord}

theorem unconcerned_executeEach (hworks : ∀ v ∈ works, v.workId ≠ k) :
    TaskRequests (fun a => ¬a.Concerns k) (loop.executeEach works env) := by
  induction works generalizing env with
  | nil => exact taskRequests_pure
  | cons v rest ih =>
    have hv : TaskRequests (fun a => ¬a.Concerns k) (loop.executeClaimedWork (env.sub 0) v) :=
      (requests_executeClaimedWork loop (env.sub 0) v).mono
        (not_concerns_of_byExecutor (hworks v List.mem_cons_self))
    have hrest : TaskRequests (fun a => ¬a.Concerns k) (loop.executeEach rest (env.sub 1)) :=
      ih fun u hu => hworks u (List.mem_cons_of_mem v hu)
    exact hv.bind fun _ => hrest.bind fun _ => taskRequests_pure

theorem owns_executeEach (hnodup : (works.map WorkRecord.workId).Nodup) :
    Owns ext k (IsRunning k) (loop.executeEach works env) := by
  induction works generalizing env with
  | nil => exact Owns.unconcerned taskRequests_pure
  | cons v rest ih =>
    rw [List.map_cons, List.nodup_cons] at hnodup
    by_cases hv : v.workId = k
    · -- once the Work has been executed, it does not occur again
      apply (owns_executeClaimedWork loop v).bind
      intro result
      have hrest : ∀ u ∈ rest, u.workId ≠ k := fun u hu hkey => hnodup.1 (hv ▸ hkey ▸ List.mem_map_of_mem hu)
      apply Owns.unconcerned
      exact (unconcerned_executeEach loop hrest).bind fun _ => taskRequests_pure
    · have hfirst : TaskRequests (fun a => ¬a.Concerns k) (loop.executeClaimedWork (env.sub 0) v) :=
        (requests_executeClaimedWork loop (env.sub 0) v).mono (not_concerns_of_byExecutor hv)
      apply Owns.after hfirst
      intro result
      apply (ih hnodup.2).bind
      exact fun _ => Owns.unconcerned taskRequests_pure

end Owner

/-! ## One owner at a time -/

section Ownership

/-- The thread does not concern the Work, or is a cycle that has claimed nothing yet. -/
def HandsOff (k : WorkId) (p : ServicePool ι π) (i : ι) : Prop :=
  OnlyRequests (fun a => ¬a.Concerns k) (p.threads i) ∨
    ∃ loop limit env, p.threads i = ((ServiceCall.runOneCycle loop limit).task env).run

def Owned (ext : Externals π) (k : WorkId) (p : ServicePool ι π) (i : ι) : Prop :=
  Started k p.state.store ∧
    Meets (ServiceWorld.handler ext) (ownerContract π k) (fun _ _ => True) (p.threads i) p.state

def Ownership (ext : Externals π) (k : WorkId) (p : ServicePool ι π) : Prop :=
  (∀ i, HandsOff k p i) ∨ ∃ e, Owned ext k p e ∧ ∀ i, i ≠ e → HandsOff k p i

variable {p : ServicePool ι π} {a : ServiceAction} {i : ι}

theorem HandsOff.not_concerns (h : HandsOff k p i) (hreq : p.Requests i a) : ¬a.Concerns k := by
  obtain ⟨rest, hthread⟩ := hreq
  rcases h with honly | ⟨loop, limit, env, hcycle⟩
  · rw [hthread] at honly
    exact honly.1
  · rw [run_runOneCycle_task, hthread] at hcycle
    cases hcycle
    exact not_concerns_store id id

theorem not_handedOut_of_started {limit : ℤ} (hs : s.WellFormed) (h : Started k s) :
    ∀ v ∈ handedOut s ⟨.claimPendingWork limit, env⟩, v.workId ≠ k := by
  intro v hv hkey
  obtain ⟨⟨u, hu, heligible⟩, _, _⟩ := handedOut_taken hs hv
  obtain ⟨w, hw, hstarted⟩ := h
  have hget := heligible.1
  rw [hu, hkey, hw, Option.some.injEq] at hget
  exact hstarted (hget ▸ heligible.2.1)

theorem not_concerns_of_movesRun (a : ServiceAction) (ha : a.MovesRun) : ¬a.Concerns k := by
  cases a with
  | store op env =>
    cases op with
    | transitionRunStatus x target rev event ref => exact not_concerns_store id id
    | runRevision x => exact not_concerns_store id id
    | _ => exact ha.elim
  | _ => exact ha.elim

theorem requests_not_concerns_resume (actor : Actor) (workId : WorkId) :
    TaskRequests (fun a => ¬a.Concerns k) (resumeAnsweredWork env actor workId) := by
  apply TaskRequests.bind (taskRequests_callStore (not_concerns_store id id))
  intro found
  cases found with
  | none => exact taskRequests_pure
  | some work =>
    dsimp only
    split
    · exact taskRequests_pure
    · apply TaskRequests.bind (taskRequests_callStore (not_concerns_store id id))
      intro runs
      apply TaskRequests.bind ((requests_closePriors actor work _ _).mono not_concerns_of_movesRun)
      intro _
      apply TaskRequests.bind (taskRequests_callStore (not_concerns_store id id))
      intro _
      refine TaskRequests.bind (taskRequests_callStore (not_concerns_store ?_ id)) fun _ => taskRequests_pure
      exact fun hmoves => hmoves.2 rfl

variable {world : ServiceWorld π}

theorem handsOff_start (hcall : (clients.call i).Handoff) : HandsOff k (clients.pool world) i := by
  have hthread : (clients.pool world).threads i = ((clients.call i).task (clients.env i)).run := rfl
  unfold HandsOff
  rw [hthread]
  generalize clients.call i = call at hcall
  cases hcall with
  | resume actor workId =>
    exact .inl ((requests_not_concerns_resume actor workId).bind fun _ => taskRequests_pure)
  | cycle loop limit => exact .inr ⟨loop, limit, _, rfl⟩
  | answer questionId rev answerRef signalCorrelation =>
    exact .inl (TaskRequests.bind (taskRequests_callStore (not_concerns_store id id)) fun _ => taskRequests_pure)
  | read op hread =>
    refine .inl (TaskRequests.bind (taskRequests_callStore (not_concerns_store ?_ ?_)) fun _ => taskRequests_pure)
    · cases op <;> first | exact id | cases hread
    · cases op <;> first | exact id | cases hread

variable [DecidableEq ι]

theorem HandsOff.other {i j : ι} (h : HandsOff k p i) (hne : j ≠ i) : HandsOff k (serviceStep ext p j) i := by
  unfold HandsOff
  rwa [Pool.step_other p hne]

theorem HandsOff.step (h : HandsOff k p i) : HandsOff k (serviceStep ext p i) i ∨
      ∃ loop limit env, p.threads i = ((ServiceCall.runOneCycle loop limit).task env).run ∧
        ∃ v ∈ handedOut p.state.store ⟨.claimPendingWork limit, env.sub 0⟩, v.workId = k := by
  rcases h with honly | ⟨loop, limit, env, hcycle⟩
  · refine .inl (.inl ?_)
    rw [Pool.step_self]
    cases hthread : p.threads i with
    | done r => trivial
    | act a rest =>
      rw [hthread] at honly
      exact honly.2 _
  · by_cases hk : ∃ v ∈ handedOut p.state.store ⟨.claimPendingWork limit, env.sub 0⟩, v.workId = k
    · exact .inr ⟨loop, limit, env, hcycle, hk⟩
    · refine .inl (.inl ?_)
      rw [(step_runOneCycle ext hcycle).1]
      have hworks : ∀ v ∈ handedOut p.state.store ⟨.claimPendingWork limit, env.sub 0⟩, v.workId ≠ k :=
        fun v hv hkey => hk ⟨v, hv, hkey⟩
      exact (unconcerned_executeEach loop hworks).bind fun _ => taskRequests_pure

theorem owned_of_claim (hs : p.state.store.WellFormed) {loop : ExecutorLoop} {limit : ℤ} (hcycle : p.threads i = ((ServiceCall.runOneCycle loop limit).task env).run) {v : WorkRecord}
    (hv : v ∈ handedOut p.state.store ⟨.claimPendingWork limit, env.sub 0⟩) :
    Owned ext v.workId (serviceStep ext p i) i := by
  obtain ⟨hthread, hstore⟩ := step_runOneCycle ext hcycle
  obtain ⟨_, hrunning, hstored⟩ := handedOut_taken hs hv
  have hnodup : ((handedOut p.state.store ⟨.claimPendingWork limit, env.sub 0⟩).map WorkRecord.workId).Nodup := by
    rw [handedOut_claim, map_workId_claimedRecords]
    exact nodup_claimCandidates hs limit
  unfold Owned
  rw [hstore, hthread]
  refine ⟨⟨v, hstored, by rw [hrunning]; decide⟩, ?_⟩
  have howns : Owns ext v.workId (IsRunning v.workId) (do
      let _ ← loop.executeEach (handedOut p.state.store ⟨.claimPendingWork limit, env.sub 0⟩) (env.sub 1)) :=
    (owns_executeEach loop hnodup).bind fun _ => Owns.unconcerned taskRequests_pure
  have hnow : IsRunning v.workId (serviceStep ext p i).state.store := by
    rw [hstore]
    exact ⟨v, hstored, hrunning⟩
  exact (howns (serviceStep ext p i).state hnow).mono fun _ _ _ => trivial

theorem ownership_step (p : ServicePool ι π) (j : ι) (h : StoreReachable p.state.store ∧ Ownership ext k p) :
    StoreReachable (serviceStep ext p j).state.store ∧ Ownership ext k (serviceStep ext p j) := by
  obtain ⟨hreach, howner⟩ := h
  have hs := hreach.wellFormed
  refine ⟨reachable_serviceStep ext p j hreach, ?_⟩
  rcases howner with hall | ⟨e, howned, hothers⟩
  · rcases (hall j).step with hj | ⟨loop, limit, env, hcycle, v, hv, rfl⟩
    · refine .inl fun i => ?_
      by_cases hij : j = i
      · exact hij ▸ hj
      · exact (hall i).other hij
    · exact .inr ⟨j, owned_of_claim hs hcycle hv, fun i hi => (hall i).other (Ne.symm hi)⟩
  · obtain ⟨hstarted, hmeets⟩ := howned
    have hstarted' : Started k (serviceStep ext p j).state.store := by
      have hboth := serviceStep_keeps ext (I := fun t => t.WellFormed ∧ Started k t)
        (fun t c ht => ⟨wellFormed_step t c ht.1, started_step c ht.1 ht.2⟩) p j ⟨hs, hstarted⟩
      exact hboth.2
    have hrespects : Respects (ServiceWorld.handler ext) (ownerContract π k) e p j := by
      refine ⟨fun _ _ _ _ => ⟨hs, trivial⟩, ?_⟩
      intro hje
      apply Relation.ReflTransGen.single
      change othersRely π (fun _ c => ¬c.op.Moves k) p.state (serviceStep ext p j).state
      apply othersRely_step ext p j hs
      exact fun op env hreq hmoves => (hothers j hje).not_concerns hreq (.inl hmoves)
    refine .inr ⟨e, ⟨hstarted', hmeets.step hrespects⟩, ?_⟩
    intro i hi
    by_cases hij : j = i
    · subst hij
      rcases (hothers j hi).step with hj | ⟨loop, limit, env, hcycle, v, hv, hkey⟩
      · exact hj
      · exact absurd hkey (not_handedOut_of_started hs hstarted v hv)
    · exact (hothers i hi).other hij

theorem isRunning_of_concerns (hreach : StoreReachable world.store)
    (hcalls : ∀ i, (clients.call i).Handoff) (before : List ι)
    (hreq : (MachineRuns.run (serviceStep ext) (clients.pool world) before).Requests i a) (ha : a.Concerns k) :
    IsRunning k (MachineRuns.run (serviceStep ext) (clients.pool world) before).state.store := by
  have hrun := invariant_run
    (I := fun q : ServicePool ι π => StoreReachable q.state.store ∧ Ownership ext k q) ownership_step
    (s := clients.pool world) ⟨hreach, .inl fun j => handsOff_start (hcalls j)⟩ before
  generalize MachineRuns.run (serviceStep ext) (clients.pool world) before = q at hrun hreq ⊢
  obtain ⟨hq, hall | ⟨e, ⟨_, hmeets⟩, hothers⟩⟩ := hrun
  · exact absurd ha ((hall i).not_concerns hreq)
  · by_cases hie : i = e
    · subst hie
      obtain ⟨rest, hthread⟩ := hreq
      rw [hthread] at hmeets
      exact (hmeets.act ⟨hq.wellFormed, trivial⟩).1 ha
    · exact absurd ha ((hothers i hie).not_concerns hreq)

end Ownership

/-! ## From the read to the move -/

def IsWaiting (k : WorkId) (s : InMemoryStore) : Prop := ∃ w, s.work.get? k = some w ∧ w.status = .waiting

/-- The others ask for the Work and move it only while it is RUNNING, and none of them starts it. -/
def LeavesWaiting (k : WorkId) (s : InMemoryStore) (c : StoreCall) : Prop :=
  ((ServiceAction.store c.op c.env).Concerns k → IsRunning k s) ∧ ¬c.op.Starts k

theorem waitingAnswered_step (hs : s.WellFormed) (hc : LeavesWaiting k s c)
    (h : IsWaiting k s ∧ LatestAnswered k s) : IsWaiting k (storeStep s c) ∧ LatestAnswered k (storeStep s c) := by
  obtain ⟨⟨w, hw, hwaiting⟩, hanswered⟩ := h
  have hconcerns : ¬(ServiceAction.store c.op c.env).Concerns k := by
    intro hconcerns
    obtain ⟨v, hv, hrunning⟩ := hc.1 hconcerns
    rw [hw, Option.some.injEq] at hv
    rw [← hv, hwaiting] at hrunning
    cases hrunning
  refine ⟨?_, latestAnswered_step c hs (fun hasks => hconcerns (.inr hasks)) hanswered⟩
  obtain ⟨op, env⟩ := c
  have hchange := work_change_step ⟨op, env⟩ hs k
  unfold IsWaiting
  generalize (storeStep s ⟨op, env⟩).work.get? k = after at hchange ⊢
  cases hchange with
  | kept => exact ⟨w, hw, hwaiting⟩
  | created hkey hfresh hgoal =>
    rw [hw] at hfresh
    cases hfresh
  | @moved v target event evidence hget hmem =>
    by_cases htarget : target = .running
    · exact absurd ⟨rfl, htarget⟩ hc.2
    · exact absurd (.inl ⟨rfl, htarget⟩) hconcerns
  | claimed hget hmem env' =>
    rw [hw, Option.some.injEq] at hget
    rw [hget, (claimCandidates_pending hmem).2] at hwaiting
    cases hwaiting

def ServiceAction.Resumes : ServiceAction → Prop
  | .store (.createRun ..) _ => True
  | .store (.transitionWorkStatus ..) _ => True
  | _ => False

/-- A read of the Work that finds it WAITING finds its latest Question answered. -/
def ReadsAnsweredAt (k : WorkId) (s : InMemoryStore) : ServiceAction → Prop
  | .store (.getWork j) _ => j = k → IsWaiting k s → LatestAnswered k s
  | _ => True

/-- A resume call that finds the latest Question answered acts on that. -/
def resumeContract (π : Type) (k : WorkId) : Contract ServiceAction (ServiceWorld π) :=
  clientContract (LeavesWaiting k) (fun w a => ReadsAnsweredAt k w.store a)
    fun w a => a.Resumes → LatestAnswered k w.store

theorem stable_waitingAnswered : Stable (resumeContract π k) fun w => IsWaiting k w.store ∧ LatestAnswered k w.store :=
  stable_of_calls fun _ c hs hc h => waitingAnswered_step c hs hc h

theorem triple_beforeMove {op : StoreOp} (hop : ¬(ServiceAction.store op env).Concerns k) (hstarts : ¬op.Starts k) :
    Triple (ServiceWorld.handler ext) (resumeContract π k) (fun w => IsWaiting k w.store ∧ LatestAnswered k w.store)
      (callStore op env) (fun _ w => IsWaiting k w.store ∧ LatestAnswered k w.store) (fun _ _ => True) := by
  have hconst : Triple (ServiceWorld.handler ext) (resumeContract π k)
      (fun w => IsWaiting k w.store ∧ LatestAnswered k w.store) (callStore op env)
      (fun _ w => IsWaiting k w.store ∧ LatestAnswered k w.store)
      (fun _ w => IsWaiting k w.store ∧ LatestAnswered k w.store) := by
    apply triple_callStore_const (I := fun t => IsWaiting k t ∧ LatestAnswered k t) stable_waitingAnswered
      stable_waitingAnswered
    intro w hw hassume
    exact ⟨fun _ => hw.2, waitingAnswered_step _ hassume.1 ⟨fun h => absurd h hop, hstarts⟩ hw⟩
  exact hconst.conseq (fun _ _ h => h) fun _ _ _ => trivial

theorem acts_closePriors (actor : Actor) (work : WorkRecord) (priors : List RunRecord) :
    Triple (ServiceWorld.handler ext) (resumeContract π k) (fun w => IsWaiting k w.store ∧ LatestAnswered k w.store)
      (closePriors actor work priors env) (fun _ w => IsWaiting k w.store ∧ LatestAnswered k w.store) (fun _ _ => True) := by
  have hkept := triple_of_requests (h := ServiceWorld.handler ext) (c := resumeContract π k)
    (F := fun w => IsWaiting k w.store ∧ LatestAnswered k w.store) (requests_closePriors actor work priors env) ?_
    stable_waitingAnswered ?_
  · exact hkept.conseq (fun _ _ h => h) fun _ _ _ => trivial
  · intro a w ha hassume hw
    rw [handler_store]
    cases a with
    | store op env =>
      refine waitingAnswered_step ⟨op, env⟩ hassume.1 ⟨fun h => absurd h (not_concerns_of_movesRun _ ha), ?_⟩ hw
      cases op <;> first | exact ha.elim | exact id
    | _ => exact hw
  · intro a w ha _ hresumes
    cases a with
    | store op env => cases op <;> first | exact ha.elim | exact hresumes.elim
    | _ => exact ha.elim

def ReadAsAnswered (k : WorkId) (found : Option WorkRecord) (w : ServiceWorld π) : Prop :=
  ∀ work, found = some work → work.workId = k ∧
    (work.status = .waiting → IsWaiting k w.store ∧ LatestAnswered k w.store)

theorem stable_readAsAnswered (found : Option WorkRecord) : Stable (resumeContract π k) (ReadAsAnswered k found) := by
  intro w w' hstep h work hfound
  exact ⟨(h work hfound).1, fun hwaiting => stable_waitingAnswered w w' hstep ((h work hfound).2 hwaiting)⟩

theorem acts_getWork : Triple (ServiceWorld.handler ext) (resumeContract π k) (fun _ => True)
    (callStore (.getWork k) env) (ReadAsAnswered k) (fun _ _ => True) := by
  apply triple_callStore (stable_const True) stable_readAsAnswered fun _ => stable_const True
  intro w _ hassume
  refine ⟨False.elim, ?_⟩
  change ReadAsAnswered k (w.store.work.get? k) _
  intro work hfound
  refine ⟨hassume.1.work_key k work hfound, ?_⟩
  intro hwaiting
  have hnow : IsWaiting k w.store := ⟨work, hfound, hwaiting⟩
  exact ⟨hnow, hassume.2 rfl hnow⟩

theorem acts_resumeAnsweredWork (actor : Actor) :
    Triple (ServiceWorld.handler ext) (resumeContract π k) (fun _ => True) (resumeAnsweredWork env actor k)
      (fun _ _ => True) (fun _ _ => True) := by
  have hE : ∀ _ : Exn, Stable (resumeContract π k) fun _ => True := fun _ => stable_const True
  apply Triple.bind acts_getWork hE
  intro found
  cases found with
  | none => exact triple_pure (stable_const True) fun _ _ => trivial
  | some work =>
    dsimp only
    split
    · exact triple_pure (stable_const True) fun _ _ => trivial
    · rename_i hstatus
      have hwaiting : work.status = .waiting := not_not.mp hstatus
      have hnow : ∀ w : ServiceWorld π, ReadAsAnswered k (some work) w → IsWaiting k w.store ∧ LatestAnswered k w.store :=
        fun w hread => (hread work rfl).2 hwaiting
      apply Triple.weaken _ hnow
      apply Triple.bind (triple_beforeMove (not_concerns_store id id) id) hE
      intro runs
      apply Triple.bind (acts_closePriors actor work _) hE
      intro _
      apply Triple.bind (triple_beforeMove (not_concerns_store id id) id) hE
      intro _
      have hmove : Triple (ServiceWorld.handler ext) (resumeContract π k)
          (fun w => IsWaiting k w.store ∧ LatestAnswered k w.store)
          (callStore (.transitionWorkStatus work.workId .running work.revision
            (evt (env.sub 6) actor .workResumedAfterAnswer none (some work.workId)) none) (env.sub 7))
          (fun _ _ => True) (fun _ _ => True) := by
        apply triple_callStore stable_waitingAnswered (fun _ => stable_const True) hE
        exact fun w hw _ => ⟨fun _ => hw.2, outcome_const.mpr trivial⟩
      apply hmove.bind hE
      exact fun _ => triple_pure (stable_const True) fun _ _ => trivial

/-! ## Once per answer -/

def QuestionOf (id : QuestionId) (k : WorkId) (s : InMemoryStore) : Prop :=
  ∃ q, s.questions.get? id = some q ∧ q.workId = some k

theorem questionOf_latestQuestion (hs : s.WellFormed) (h : latestQuestion s k = some q) : QuestionOf q.questionId k s := by
  have hmem : q ∈ s.listQuestions k := List.mem_of_getLast? h
  have hof := (List.mem_filter.mp ((List.mem_insertionSort _).mp hmem)).2
  obtain ⟨id, hid⟩ := InsertionDict.mem_values_iff.mp (mem_of_latestQuestion h)
  rw [hs.question_key id q hid]
  exact ⟨q, hid, of_decide_eq_true hof⟩

/-- A Question stays with its Work. -/
theorem questionOf_step (hs : s.WellFormed) {id : QuestionId} (h : QuestionOf id k s) : QuestionOf id k (storeStep s c) := by
  obtain ⟨q, hq, hof⟩ := h
  obtain ⟨op, env⟩ := c
  have heffect := exec_effect env hs op
  change QuestionOf id k ((op.exec env).run s).state
  generalize (op.exec env).run s = r at heffect
  cases heffect with
  | questionCreated question hfresh hclash =>
    refine ⟨q, ?_, hof⟩
    change (s.questions.set question.questionId question).get? id = some q
    rw [InsertionDict.get?_set_of_ne, hq]
    rintro rfl
    rw [hq] at hfresh
    cases hfresh
  | @questionAnswered questionId answerRef signalCorrelation current hget hpending =>
    change ∃ u, (s.questions.set questionId (current.answered env answerRef signalCorrelation)).get? id = some u ∧ _
    by_cases hid : id = questionId
    · subst hid
      rw [hq, Option.some.injEq] at hget
      refine ⟨_, InsertionDict.get?_set_self _ _ _, ?_⟩
      rw [← hget]
      exact hof
    · refine ⟨q, ?_, hof⟩
      rw [InsertionDict.get?_set_of_ne _ _ hid, hq]
  | _ => exact ⟨q, hq, hof⟩

section Runs

variable (clients) in
/-- A resume call that is about to read its Work while it is WAITING does so with the latest
Question answered. -/
def ReadsAnswered (p : ServicePool ι π) (i : ι) : Prop :=
  ∀ actor k, clients.call i = .resumeAnsweredWork actor k → ∀ a, p.Requests i a → ReadsAnsweredAt k p.state.store a

variable (clients) in
/-- Client `i`, a resume call, moves the Work `k` with its next request. -/
def ResumesWork (p : ServicePool ι π) (i : ι) (k : WorkId) : Prop :=
  (clients.call i).IsResume ∧ ∃ target rev event evidence env,
    p.Requests i (.store (.transitionWorkStatus k target rev event evidence) env) ∧
      Accepted p.state.store ⟨.transitionWorkStatus k target rev event evidence, env⟩

/-- Client `j` cancels the Run `x` with its next request. -/
def CancelsRun (p : ServicePool ι π) (j : ι) (x : RunId) : Prop :=
  ∃ target rev event ref env, (target = .cancelRequested ∨ target = .cancelled) ∧
    p.Requests j (.store (.transitionRunStatus x target rev event ref) env) ∧
      Accepted p.state.store ⟨.transitionRunStatus x target rev event ref, env⟩

variable [DecidableEq ι] {world : ServiceWorld π}

/-- A resume call acts on an ANSWERED Question only, and once for each answer. -/
structure ActsOncePerAnswer (ext : Externals π) (clients : Clients ι) (world : ServiceWorld π) (schedule : List ι) :
    Prop where
  opened_answered : EveryStep (serviceStep ext)
    (fun p i => ∀ k x, OpensRun clients p i k x → LatestAnswered k p.state.store) (clients.pool world) schedule
  moved_answered : EveryStep (serviceStep ext)
    (fun p i => ∀ k, ResumesWork clients p i k → LatestAnswered k p.state.store) (clients.pool world) schedule
  once : ∀ before after before' after' i j k k' x y q q',
    schedule = before ++ i :: after → schedule = before' ++ j :: after' →
    OpensRun clients (MachineRuns.run (serviceStep ext) (clients.pool world) before) i k x →
    OpensRun clients (MachineRuns.run (serviceStep ext) (clients.pool world) before') j k' y →
    latestQuestion (MachineRuns.run (serviceStep ext) (clients.pool world) before).state.store k = some q →
    latestQuestion (MachineRuns.run (serviceStep ext) (clients.pool world) before').state.store k' = some q' →
    q.questionId = q'.questionId → before = before' ∧ i = j
  spared : ∀ before between after i j k x, schedule = before ++ i :: between ++ j :: after →
    OpensRun clients (MachineRuns.run (serviceStep ext) (clients.pool world) before) i k x →
    ¬CancelsRun (MachineRuns.run (serviceStep ext) (clients.pool world) (before ++ i :: between)) j x

theorem leavesWaiting_of_opened (hreach : StoreReachable world.store) (hcalls : ∀ i, (clients.call i).Handoff)
    {schedule earlier later : List ι} {i j : ι} {x : RunId} (hopened : OpenedIn ext clients world schedule i k x)
    (hsplit : schedule = earlier ++ j :: later) (hne : j ≠ i) {op : StoreOp}
    (hreq : (MachineRuns.run (serviceStep ext) (clients.pool world) earlier).Requests j (.store op env)) :
    LeavesWaiting k (MachineRuns.run (serviceStep ext) (clients.pool world) earlier).state.store ⟨op, env⟩ := by
  refine ⟨fun hconcerns => isRunning_of_concerns hreach hcalls earlier hreq hconcerns, ?_⟩
  intro hstarts
  have hkeeps := keepsOpened_serviceRun ext hreach hcalls hsplit hreq
  cases op with
  | transitionWorkStatus j' target rev event evidence =>
    obtain ⟨rfl, rfl⟩ : j' = k ∧ target = .running := hstarts
    by_cases hresume : (clients.call j).IsResume
    · obtain ⟨actor, m, hcall⟩ := hresume
      obtain ⟨_, _, y, before', after', hsplit', hopens'⟩ := hkeeps.1 actor m hcall
      obtain ⟨before, after, hsplit₀, hopens⟩ := hopened
      exact hne (opened_once ext hreach hcalls (hsplit₀.symm.trans hsplit') hopens hopens').2.symm
    · exact hkeeps.2 hresume rfl
  | _ => exact hstarts

/-- A resume call that opens a Run opens it, and moves the Work, on an answered Question. -/
theorem latestAnswered_of_resumes (hreach : StoreReachable world.store) (hcalls : ∀ i, (clients.call i).Handoff)
    {schedule before after : List ι} {i : ι} {actor : Actor} {x : RunId}
    (hreads : EveryStep (serviceStep ext) (ReadsAnswered clients) (clients.pool world) schedule)
    (hcall : clients.call i = .resumeAnsweredWork actor k) (hopened : OpenedIn ext clients world schedule i k x)
    (hsplit : schedule = before ++ i :: after) {a : ServiceAction}
    (hreq : (MachineRuns.run (serviceStep ext) (clients.pool world) before).Requests i a) (ha : a.Resumes) :
    LatestAnswered k (MachineRuns.run (serviceStep ext) (clients.pool world) before).state.store := by
  have hstart : Meets (ServiceWorld.handler ext) (resumeContract π k) (fun _ _ => True)
      ((clients.pool world).threads i) (clients.pool world).state := by
    change Meets _ _ _ ((clients.call i).task (clients.env i)).run world
    rw [hcall]
    have htask : Triple (ServiceWorld.handler ext) (resumeContract π k) (fun _ => True)
        ((ServiceCall.resumeAnsweredWork actor k).task (clients.env i)) (fun _ _ => True) (fun _ _ => True) :=
      (acts_resumeAnsweredWork actor).bind (fun _ => stable_const True)
        fun _ => triple_pure (stable_const True) fun _ _ => trivial
    exact (htask world trivial).mono fun _ _ _ => trivial
  have hrespects : EveryStep (serviceStep ext)
      (Respects (ServiceWorld.handler ext) (resumeContract π k) i) (clients.pool world) before := by
    apply everyStep_respects ext (p := clients.pool world) hreach
    · intro earlier j later hearlier hj b hb
      subst hj
      apply hreads earlier j (later ++ j :: after) _ actor k hcall b hb
      rw [hsplit, hearlier, List.append_assoc, List.cons_append]
    · intro earlier j later hearlier hj op env hb
      have hj' : schedule = earlier ++ j :: (later ++ i :: after) := by
        rw [hsplit, hearlier, List.append_assoc, List.cons_append]
      exact leavesWaiting_of_opened hreach hcalls hopened hj' hj hb
  have hmeets := hstart.run hrespects
  obtain ⟨rest, hthread⟩ := hreq
  have hs := (reachable_serviceRun ext (p := clients.pool world) hreach before).wellFormed
  have hassume : (resumeContract π k).assume (MachineRuns.run (serviceStep ext) (clients.pool world) before).state a := by
    refine ⟨hs, ?_⟩
    exact hreads before i after hsplit actor k hcall a ⟨rest, hthread⟩
  rw [hthread] at hmeets
  exact (hmeets.act hassume).1 ha

theorem questionOf_serviceRun {p : ServicePool ι π} (hreach : StoreReachable p.state.store) {id : QuestionId}
    (h : QuestionOf id k p.state.store) (schedule : List ι) :
    QuestionOf id k (MachineRuns.run (serviceStep ext) p schedule).state.store := by
  refine (invariant_run
    (I := fun q : ServicePool ι π => StoreReachable q.state.store ∧ QuestionOf id k q.state.store) ?_
    ⟨hreach, h⟩ schedule).2
  rintro q i ⟨hq, hid⟩
  refine ⟨reachable_serviceStep ext q i hq, ?_⟩
  have hboth := serviceStep_keeps ext (I := fun t => t.WellFormed ∧ QuestionOf id k t)
    (fun t c ht => ⟨wellFormed_step t c ht.1, questionOf_step c ht.1 ht.2⟩) q i ⟨hq.wellFormed, hid⟩
  exact hboth.2

theorem questionOf_unique (hreach : StoreReachable world.store) {schedule before after before' after' : List ι}
    (hsplit : schedule = before ++ after) (hsplit' : schedule = before' ++ after') {id : QuestionId} {k' : WorkId}
    (h : QuestionOf id k (MachineRuns.run (serviceStep ext) (clients.pool world) before).state.store)
    (h' : QuestionOf id k' (MachineRuns.run (serviceStep ext) (clients.pool world) before').state.store) : k = k' := by
  have hend : ∀ {j : WorkId} {first second : List ι}, schedule = first ++ second →
      QuestionOf id j (MachineRuns.run (serviceStep ext) (clients.pool world) first).state.store →
      QuestionOf id j (MachineRuns.run (serviceStep ext) (clients.pool world) schedule).state.store := by
    intro j first second hfirst hof
    rw [hfirst, run_append]
    exact questionOf_serviceRun (reachable_serviceRun ext (p := clients.pool world) hreach first) hof second
  obtain ⟨q, hq, hof⟩ := hend hsplit h
  obtain ⟨q', hq', hof'⟩ := hend hsplit' h'
  rw [hq, Option.some.injEq] at hq'
  rw [← hq', hof, Option.some.injEq] at hof'
  exact hof'

/-- If no resume call reads its Work WAITING with a Question that is still open, resume calls act once
per answer. -/
theorem actsOncePerAnswer_of_readsAnswered (hreach : StoreReachable world.store)
    (hcalls : ∀ i, (clients.call i).Handoff) {schedule : List ι}
    (hreads : EveryStep (serviceStep ext) (ReadsAnswered clients) (clients.pool world) schedule) :
    ActsOncePerAnswer ext clients world schedule where
  opened_answered := by
    intro before i after hsplit k x hopens
    have hopened : OpenedIn ext clients world schedule i k x := ⟨before, after, hsplit, hopens⟩
    obtain ⟨⟨actor, j, hcall⟩, run, event, env, hreq, hwork, _, _⟩ := hopens
    have hkeeps := keepsOpened_serviceRun ext hreach hcalls hsplit hreq
    obtain rfl : k = j := hwork.symm.trans (hkeeps.2 actor j hcall)
    exact latestAnswered_of_resumes hreach hcalls hreads hcall hopened hsplit hreq trivial
  moved_answered := by
    intro before i after hsplit k hmoves
    obtain ⟨⟨actor, j, hcall⟩, target, rev, event, evidence, env, hreq, _⟩ := hmoves
    have hkeeps := keepsOpened_serviceRun ext hreach hcalls hsplit hreq
    obtain ⟨rfl, _, x, hopened⟩ := hkeeps.1 actor j hcall
    exact latestAnswered_of_resumes hreach hcalls hreads hcall hopened hsplit hreq trivial
  once := by
    intro before after before' after' i j k k' x y q q' hsplit hsplit' hi hj hq hq' hid
    have hwf := (reachable_serviceRun ext (p := clients.pool world) hreach before).wellFormed
    have hwf' := (reachable_serviceRun ext (p := clients.pool world) hreach before').wellFormed
    have hof' := questionOf_latestQuestion hwf' hq'
    rw [← hid] at hof'
    obtain rfl : k = k' := questionOf_unique hreach hsplit hsplit' (questionOf_latestQuestion hwf hq) hof'
    exact opened_once ext hreach hcalls (hsplit.symm.trans hsplit') hi hj
  spared := by
    rintro before between after i j k x _ hopens ⟨target, rev, event, ref, env, _, hreq, hacc⟩
    exact opened_not_cancelled ext hreach hcalls hopens hreq hacc

end Runs

/-- One resume call on a Work whose Question is open: a Run is opened. -/
theorem run_opened_before_answer :
    ¬ActsOncePerAnswer (sampleExternals none (.ok "h")) (sampleClients [.resumeAnsweredWork executorActor ⟨"work_1"⟩])
      (sampleWorld waitingStore) [0, 0, 0] := by
  intro hacts
  obtain ⟨q, hlatest, hanswered⟩ := hacts.opened_answered [0, 0] 0 [] rfl ⟨"work_1"⟩ _
    ⟨⟨_, _, rfl⟩, _, _, _, ⟨_, rfl⟩, rfl, rfl, _, _, rfl⟩
  revert hanswered
  cases hlatest
  decide

theorem readsAnsweredAt_of_latestAnswered (h : LatestAnswered k s) (a : ServiceAction) : ReadsAnsweredAt k s a := by
  cases a with
  | store op env =>
    cases op with
    | getWork j => exact fun _ _ => h
    | _ => trivial
  | _ => trivial

/-- One resume call on a Work whose Question is answered. -/
theorem actsOncePerAnswer_of_answered :
    ActsOncePerAnswer (sampleExternals none (.ok "h")) (sampleClients [.resumeAnsweredWork executorActor ⟨"work_1"⟩])
      (sampleWorld answeredStore) [0, 0, 0, 0] := by
  have hcalls : ∀ i, ((sampleClients [.resumeAnsweredWork executorActor ⟨"work_1"⟩]).call i).Handoff := by
    intro i
    cases i with
    | zero => exact .resume _ _
    | succ i => exact .read _ rfl
  apply actsOncePerAnswer_of_readsAnswered ⟨answeredCalls, rfl⟩ hcalls
  have hread : ∀ p : ServicePool ℕ Unit, LatestAnswered ⟨"work_1"⟩ p.state.store →
      ReadsAnswered (sampleClients [.resumeAnsweredWork executorActor ⟨"work_1"⟩]) p 0 := by
    intro p hp actor k hcall a _
    cases hcall
    exact readsAnsweredAt_of_latestAnswered hp a
  simp only [MachineRuns.everyStep_cons]
  refine ⟨hread _ ⟨_, rfl, rfl⟩, hread _ ⟨_, rfl, rfl⟩, hread _ ⟨_, rfl, rfl⟩, hread _ ⟨_, rfl, rfl⟩, ?_⟩
  exact MachineRuns.everyStep_nil

end AllTomorrow
