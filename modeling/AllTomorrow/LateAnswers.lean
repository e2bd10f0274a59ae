import AllTomorrow.AnswerSignals
import AllTomorrow.SemanticStoreLifecycle

/-!
# No signal to finished Work

A call of the coordinator on a Question whose Work is terminal when the call begins, beside
any other programs on the same store. `answer` refuses; `answer_idempotent` does so too,
unless the Question is answered already: then it signals every reference that it finds.
-/

namespace AllTomorrow

open MachineRuns (EveryStep run_append)

open Prog NeedUserCoordinator

/-- The Work of the Question is terminal. -/
def LateFor (k : QuestionId) (s : InMemoryStore) : Prop :=
  ∃ q workId work, s.questions.get? k = some q ∧ q.workId = some workId ∧ s.work.get? workId = some work ∧
    work.status ∈ terminalWorkStatuses

def WorkOver (workId : WorkId) (s : InMemoryStore) : Prop :=
  ∃ work, s.work.get? workId = some work ∧ work.status ∈ terminalWorkStatuses

def findsNoRef (w : SignalWorld) : CoordinatorRequest → Bool
  | .store (.getRun runId) _ => ((w.store.runs.get? runId).bind RunRecord.executionRef).isNone
  | .store (.listRuns workId) _ => (openRef (w.store.listRuns workId)).isNone
  | _ => true

def CoordinatorRequest.OnlyReads : CoordinatorRequest → Prop
  | .getQuestion _ _ => True
  | .store op _ => op.isRead = true
  | .signal _ _ => False

variable {k : QuestionId} {port : SignalPort} {c : NeedUserCoordinator} {condition : SignalWorld → CoordinatorRequest → Prop}
  {s : InMemoryStore}

/-! ## What stays -/

theorem workOver_step {workId : WorkId} (hs : s.WellFormed) (h : WorkOver workId s) (call : StoreCall) :
    WorkOver workId (storeStep s call) := by
  obtain ⟨work, hwork, hterm⟩ := h
  obtain ⟨work', hwork', hstatus⟩ := (finalStatuses_step s call hs).work workId work hwork hterm
  exact ⟨work', hwork', by rwa [hstatus]⟩

theorem question_workId_step {q : QuestionRecordSemantic} (hs : s.WellFormed) (hq : s.questions.get? k = some q)
    (call : StoreCall) : ∃ q', (storeStep s call).questions.get? k = some q' ∧ q'.workId = q.workId := by
  have hchange := question_change_step (c := call) hs k
  generalize (storeStep s call).questions.get? k = found at hchange
  generalize hop : call.op = op at hchange
  cases hchange with
  | kept => exact ⟨q, hq, rfl⟩
  | created hkey hfresh _ =>
    rw [hq] at hfresh
    cases hfresh
  | answered hget hpending =>
    rw [hq, Option.some.injEq] at hget
    subst hget
    exact ⟨_, rfl, rfl⟩

theorem lateFor_step (hs : s.WellFormed) (h : LateFor k s) (call : StoreCall) : LateFor k (storeStep s call) := by
  obtain ⟨q, workId, work, hq, hworkId, hwork, hterm⟩ := h
  obtain ⟨q', hq', hsame⟩ := question_workId_step hs hq call
  obtain ⟨work', hwork', hterm'⟩ := workOver_step hs ⟨work, hwork, hterm⟩ call
  exact ⟨q', workId, work', hq', hsame.trans hworkId, hwork', hterm'⟩

/-! ## One late call -/

def StoreSteps (w w' : SignalWorld) : Prop := w'.store = w.store ∨ ∃ call, w'.store = storeStep w.store call

def lateContract (condition : SignalWorld → CoordinatorRequest → Prop) : Contract CoordinatorRequest SignalWorld where
  rely := fun w w' => w.store.WellFormed → w'.store.WellFormed ∧ StoreSteps w w'
  assume := fun w a => w.store.WellFormed ∧ condition w a
  guar := fun _ a => a.OnlyReads

theorem stable_of_storeSteps {I : InMemoryStore → Prop} (hI : ∀ s call, s.WellFormed → I s → I (storeStep s call)) :
    Stable (lateContract condition) fun w => w.store.WellFormed ∧ I w.store := by
  rintro w w' hrely ⟨hs, h⟩
  obtain ⟨hs', heq | ⟨call, heq⟩⟩ := hrely hs
  · refine ⟨hs', ?_⟩
    rwa [heq]
  · refine ⟨hs', ?_⟩
    rw [heq]
    exact hI w.store call hs h

def ReadLate (question : QuestionRecordSemantic) (s : InMemoryStore) : Prop :=
  ∃ workId, question.workId = some workId ∧ WorkOver workId s

theorem readLate_step {question : QuestionRecordSemantic} (hs : s.WellFormed) (h : ReadLate question s) (call : StoreCall) :
    ReadLate question (storeStep s call) := by
  obtain ⟨workId, hworkId, hover⟩ := h
  exact ⟨workId, hworkId, workOver_step hs hover call⟩

theorem stable_readLate (found : Option QuestionRecordSemantic) :
    Stable (lateContract condition) fun w => w.store.WellFormed ∧ ∃ q, found = some q ∧ ReadLate q w.store :=
  stable_of_storeSteps (I := fun s => ∃ q, found = some q ∧ ReadLate q s)
    fun _ call hs ⟨q, hfound, h⟩ => ⟨q, hfound, readLate_step hs h call⟩

theorem triple_readLate (read : QuestionRead) :
    Triple (SignalWorld.handler port) (lateContract condition) (fun w => w.store.WellFormed ∧ LateFor k w.store)
      (getQuestion read k) (fun found w => w.store.WellFormed ∧ ∃ q, found = some q ∧ ReadLate q w.store)
      (fun _ _ => False) := by
  have hlate : Stable (lateContract condition) fun w => w.store.WellFormed ∧ LateFor k w.store :=
    stable_of_storeSteps fun s call hs h => lateFor_step hs h call
  refine triple_request hlate (fun found => stable_readLate found) (fun _ => stable_const _) ?_
  rintro w ⟨hs, q, workId, work, hq, hworkId, hwork⟩ -
  exact ⟨trivial, hs, q, hq, workId, hworkId, work, hwork⟩

def IsLate (e : Exn) : Prop := ∃ message, e = .lateAnswerToTerminalWorkError message

variable (question : QuestionRecordSemantic)

theorem triple_refuseLate_late (env : Supply) :
    Triple (SignalWorld.handler port) (lateContract condition) (fun w => w.store.WellFormed ∧ ReadLate question w.store)
      (refuseLate env question k) (fun _ _ => False) (fun e _ => IsLate e) := by
  rintro w ⟨hs, workId, hworkId, hover⟩
  unfold refuseLate
  rw [hworkId]
  have hread : Triple (SignalWorld.handler port) (lateContract condition)
      (fun w => w.store.WellFormed ∧ WorkOver workId w.store) (callStore (.getWork workId) env)
      (fun found _ => ∃ work, found = some work ∧ work.status ∈ terminalWorkStatuses) (fun e _ => IsLate e) := by
    have hstable : Stable (lateContract condition) fun w => w.store.WellFormed ∧ WorkOver workId w.store :=
      stable_of_storeSteps fun s call hs h => workOver_step hs h call
    refine triple_request hstable (fun _ => stable_const _) (fun _ => stable_const _) ?_
    rintro w ⟨_, work, hwork, hterm⟩ -
    exact ⟨rfl, work, hwork, hterm⟩
  refine (hread.bind (fun _ => stable_const _) fun found => ?_) w ⟨hs, hover⟩
  rintro w' ⟨work, rfl, hterm⟩
  dsimp only
  rw [if_pos hterm]
  exact triple_throw (P := fun _ => True) (stable_const _) (fun _ _ => ⟨_, rfl⟩) w' trivial

theorem triple_answer_late (env : Supply) (rev : ℤ) (answerRef : String) :
    Triple (SignalWorld.handler port) (lateContract condition) (fun w => w.store.WellFormed ∧ LateFor k w.store)
      (c.answer env k rev answerRef) (fun _ _ => False) (fun e _ => IsLate e) := by
  unfold answer
  refine ((triple_readLate .answer).conseq (fun _ _ h => h) fun _ _ h => h.elim).bind (fun _ => stable_const _) fun found => ?_
  rintro w ⟨hs, q, rfl, hread⟩
  refine ((triple_refuseLate_late q (env.sub 0)).bind (fun _ => stable_const _) fun _ => ?_) w ⟨hs, hread⟩
  exact fun w h => h.elim

/-- A Question that is answered has no reference to be found. -/
theorem triple_deliver_unattached (env : Supply) (answerRef : String) :
    Triple (SignalWorld.handler port) (lateContract fun w a => findsNoRef w a = true) (fun _ => True)
      (c.deliver env question k answerRef) (fun _ _ => True) (fun _ _ => True) := by
  have hlookup : Triple (SignalWorld.handler port) (lateContract fun w a => findsNoRef w a = true) (fun _ => True)
      (executionRefForQuestion (env.sub 0) question) (fun found _ => found = none) (fun _ _ => True) := by
    unfold executionRefForQuestion
    cases question.runId with
    | some runId =>
      have hread : Triple (SignalWorld.handler port) (lateContract fun w a => findsNoRef w a = true) (fun _ => True)
          (callStore (.getRun runId) (env.sub 0)) (fun run _ => run.bind RunRecord.executionRef = none)
          (fun _ _ => True) := by
        refine triple_request (stable_const _) (fun _ => stable_const _) (fun _ => stable_const _) ?_
        rintro w - ⟨_, hnone⟩
        exact ⟨rfl, Option.isNone_iff_eq_none.mp hnone⟩
      exact hread.bind (fun _ => stable_const _) fun run => triple_pure (stable_const _) fun _ h => h
    | none =>
      dsimp only
      cases question.workId with
      | some workId =>
        have hread : Triple (SignalWorld.handler port) (lateContract fun w a => findsNoRef w a = true) (fun _ => True)
            (callStore (.listRuns workId) (env.sub 0)) (fun runs _ => openRef runs = none) (fun _ _ => True) := by
          refine triple_request (stable_const _) (fun _ => stable_const _) (fun _ => stable_const _) ?_
          rintro w - ⟨_, hnone⟩
          exact ⟨rfl, Option.isNone_iff_eq_none.mp hnone⟩
        exact hread.bind (fun _ => stable_const _) fun runs => triple_pure (stable_const _) fun _ h => h
      | none => exact triple_pure (stable_const _) fun _ _ => rfl
  unfold deliver
  refine hlookup.bind (fun _ => stable_const _) fun found => ?_
  rintro w rfl
  exact triple_pure (P := fun _ => True) (stable_const _) (fun _ _ => trivial) w trivial

/-- So does `answer_idempotent`, unless the Question is answered. -/
theorem triple_answerIdempotent_late (env : Supply) (answerRef : String) :
    Triple (SignalWorld.handler port) (lateContract fun w a => findsNoRef w a = true)
      (fun w => w.store.WellFormed ∧ LateFor k w.store) (c.answerIdempotent env k answerRef) (fun _ _ => True)
      (fun _ _ => True) := by
  have hlate : Stable (lateContract fun w a => findsNoRef w a = true) fun w => w.store.WellFormed ∧ LateFor k w.store :=
    stable_of_storeSteps fun s call hs h => lateFor_step hs h call
  have hread : Triple (SignalWorld.handler port) (lateContract fun w a => findsNoRef w a = true)
      (fun w => w.store.WellFormed ∧ LateFor k w.store) (getQuestion (.answerIdempotent answerRef) k)
      (fun _ w => w.store.WellFormed ∧ LateFor k w.store) (fun _ _ => True) := by
    refine triple_request hlate (fun _ => hlate) (fun _ => stable_const _) ?_
    exact fun w hw _ => ⟨trivial, hw⟩
  unfold answerIdempotent
  refine hread.bind (fun _ => stable_const _) fun found => ?_
  cases found with
  | none => exact triple_throw (stable_const _) fun _ _ => trivial
  | some question =>
    dsimp only
    split
    · exact (triple_deliver_unattached question _ answerRef).weaken fun _ _ => trivial
    · have hattempt : Triple (SignalWorld.handler port) (lateContract fun w a => findsNoRef w a = true)
          (fun w => w.store.WellFormed ∧ LateFor k w.store)
          (Prog.attempt (c.answer (env.sub 1) k question.revision answerRef))
          (Outcome (fun _ _ => False) fun e _ => IsLate e) (fun _ _ => True) :=
        (triple_answer_late _ _ _).attempt (fun _ => stable_const _) fun _ => stable_const _
      refine hattempt.bind (fun _ => stable_const _) fun result => ?_
      cases result with
      | ok result => exact fun w h => h.elim
      | error e =>
        rintro w ⟨message, rfl⟩
        exact triple_throw (P := fun _ => True) (stable_const _) (fun _ _ => trivial) w trivial

/-! ## A late call among others -/

section Runs

variable {ι : Type} [DecidableEq ι]

abbrev CoordinatorPool (ι : Type) := Pool ι CoordinatorRequest CoordinatorAnswer (Except Exn AnswerResult) SignalWorld

/-- The condition on the late call: a repeated answer finds no reference. -/
def Unattached (call : AnswerCall) (i : ι) (p : CoordinatorPool ι) (j : ι) : Prop :=
  match call with
  | .answer .. => True
  | .answerIdempotent .. => j = i → p.StepMeets (fun w a => findsNoRef w a = true) j

/-- The call sends nothing; if it is `answer`, it changes nothing and raises after its second request. -/
structure SendsNothing (port : SignalPort) (call : AnswerCall) (i : ι) (p : CoordinatorPool ι) (schedule : List ι) :
    Prop where
  silent : EveryStep (Pool.step (SignalWorld.handler port))
    (fun p j => j = i → ∀ x env rest, p.threads i ≠ .act (.signal x env) rest) p schedule
  refused : ∀ env rev answerRef, call = .answer env rev answerRef → EveryStep (Pool.step (SignalWorld.handler port))
      (fun p j => j = i → (p.step (SignalWorld.handler port) j).state = p.state) p schedule ∧
    (2 ≤ schedule.count i → ∃ e, IsLate e ∧
      (MachineRuns.run (Pool.step (SignalWorld.handler port)) p schedule).threads i = .done (.error e))

theorem handler_storeSteps (port : SignalPort) (a : CoordinatorRequest) (w : SignalWorld) : StoreSteps w (SignalWorld.handler port a w).2 := by
  cases a with
  | getQuestion read questionId => exact .inl rfl
  | store op env => exact .inr ⟨⟨op, env⟩, rfl⟩
  | signal x env => exact .inl rfl

theorem wellFormed_of_storeSteps {w w' : SignalWorld} (h : StoreSteps w w') (hs : w.store.WellFormed) :
    w'.store.WellFormed := by
  rcases h with heq | ⟨call, heq⟩
  · rwa [heq]
  · rw [heq]
    exact wellFormed_step w.store call hs

theorem step_storeSteps (port : SignalPort) (p : CoordinatorPool ι) (j : ι) :
    StoreSteps p.state (p.step (SignalWorld.handler port) j).state := by
  cases hthread : p.threads j with
  | done r =>
    rw [Pool.step_done hthread]
    exact .inl rfl
  | act a rest =>
    rw [(Pool.step_act hthread).2]
    exact handler_storeSteps port a p.state

variable {p : CoordinatorPool ι} {schedule : List ι}

/-- Along a run a call that keeps the contract makes only requests that read. -/
theorem onlyReads_of_meets {Q : Except Exn AnswerResult → SignalWorld → Prop} {i : ι} (hs : p.state.store.WellFormed)
    (hmeets : Meets (SignalWorld.handler port) (lateContract condition) Q (p.threads i) p.state)
    (hrun : EveryStep (Pool.step (SignalWorld.handler port)) (fun p j => j = i → p.StepMeets condition j) p schedule) :
    EveryStep (Pool.step (SignalWorld.handler port))
      (fun p j => j = i → ∀ a rest, p.threads i = .act a rest → a.OnlyReads) p schedule := by
  intro before j after hsplit hj a rest hact
  have hprefix := hrun
  rw [hsplit] at hprefix
  have hthere := MachineRuns.invariant_of_everyStep
    (I := fun q : CoordinatorPool ι => q.state.store.WellFormed ∧
      Meets (SignalWorld.handler port) (lateContract condition) Q (q.threads i) q.state)
    (fun q j hq hcondition => by
      refine ⟨wellFormed_of_storeSteps (step_storeSteps port q j) hq.1, hq.2.step ⟨?_, ?_⟩⟩
      · intro heq a rest hact
        subst heq
        exact ⟨hq.1, hcondition rfl a rest hact⟩
      · exact fun _ => .single fun hs => ⟨wellFormed_of_storeSteps (step_storeSteps port q j) hs, step_storeSteps port q j⟩)
    ⟨hs, hmeets⟩ (MachineRuns.everyStep_append_left hprefix)
  have hcondition := hrun before j after hsplit hj a rest (by rw [hj, hact])
  have hmeet := hthere.2
  rw [hact] at hmeet
  exact (hmeet.act ⟨hthere.1, hcondition⟩).1

theorem handler_of_onlyReads {a : CoordinatorRequest} (h : a.OnlyReads) (w : SignalWorld) :
    (SignalWorld.handler port a w).2 = w := by
  cases a with
  | getQuestion read questionId => rfl
  | store op env =>
    change { w with store := storeStep w.store ⟨op, env⟩ } = w
    rw [storeStep_of_isRead h w.store env]
  | signal x env => exact h.elim

theorem store_run (port : SignalPort) {I : InMemoryStore → Prop} (hI : ∀ s call, s.WellFormed → I s → I (storeStep s call)) (hs : p.state.store.WellFormed) (h : I p.state.store) (schedule : List ι) :
    (MachineRuns.run (Pool.step (SignalWorld.handler port)) p schedule).state.store.WellFormed ∧
      I (MachineRuns.run (Pool.step (SignalWorld.handler port)) p schedule).state.store := by
  refine MachineRuns.invariant_run (I := fun q : CoordinatorPool ι => q.state.store.WellFormed ∧ I q.state.store)
    ?_ ⟨hs, h⟩ schedule
  rintro q j ⟨hs, h⟩
  refine ⟨wellFormed_of_storeSteps (step_storeSteps port q j) hs, ?_⟩
  rcases step_storeSteps port q j with heq | ⟨call, heq⟩
  · rwa [heq]
  · rw [heq]
    exact hI _ call hs h

theorem refuseLate_request {α : Type} {question : QuestionRecordSemantic} {workId : WorkId}
    (hworkId : question.workId = some workId) (env : Supply) (f : Unit → CoordinatorM α) :
    ∃ rest, (refuseLate env question k >>= f).run = .act (.store (.getWork workId) env) rest ∧
      ∀ work, work.status ∈ terminalWorkStatuses → ∃ e, IsLate e ∧ rest (.ok (some work)) = .done (.error e) := by
  unfold refuseLate
  rw [hworkId]
  refine ⟨_, rfl, ?_⟩
  intro work hterm
  refine ⟨lateAnswer work workId k, ⟨_, rfl⟩, ?_⟩
  simp only [Prog.bind, ExceptT.bindCont, if_pos hterm]
  rfl

/-- `answer` reads the Question and its Work, and raises. -/
theorem answer_raises_late {i : ι} {env : Supply} {rev : ℤ} {answerRef : String}
    (hi : p.threads i = (c.answer env k rev answerRef).run) (hs : p.state.store.WellFormed)
    (hlate : LateFor k p.state.store) (hcount : 2 ≤ schedule.count i) : ∃ e, IsLate e ∧
      (MachineRuns.run (Pool.step (SignalWorld.handler port)) p schedule).threads i = .done (.error e) := by
  have hmem : i ∈ schedule := List.count_pos_iff.mp (by omega)
  obtain ⟨before, after, hsplit, hbefore, hthread, _⟩ := Pool.first_request (h := SignalWorld.handler port) hi hmem
  have hthere := store_run port (fun s call hs h => lateFor_step hs h call) hs hlate before
  obtain ⟨q, workId, work, hq, hworkId, hwork⟩ := hthere.2
  obtain ⟨rest, hrequest, hraises⟩ := refuseLate_request (k := k) hworkId (env.sub 0) fun _ => do
    let answered ← callStore (.answerQuestion k rev answerRef k.val) (env.sub 1)
    c.deliver (env.sub 2) answered k answerRef
  have hnext : (MachineRuns.run (Pool.step (SignalWorld.handler port)) p (before ++ [i])).threads i =
      .act (.store (.getWork workId) (env.sub 0)) rest := by
    rw [hthread, ← hrequest]
    simp only [SignalWorld.handler, hq]
    rfl
  have hafter : i ∈ after := by
    rw [hsplit, List.count_append, List.count_cons_self, List.count_eq_zero_of_not_mem hbefore] at hcount
    exact List.count_pos_iff.mp (by omega)
  obtain ⟨between, later, hlater, _, hthread', _⟩ := Pool.first_request (h := SignalWorld.handler port) hnext hafter
  -- the Work is still terminal when it is read
  have hover := store_run port (fun s call hs h => workOver_step hs h call) hthere.1 ⟨work, hwork⟩ ([i] ++ between)
  obtain ⟨work', hwork', hterm'⟩ := hover.2
  obtain ⟨e, he, hdone⟩ := hraises work' hterm'
  refine ⟨e, he, ?_⟩
  have hraised : (MachineRuns.run (Pool.step (SignalWorld.handler port)) p (before ++ [i] ++ (between ++ [i]))).threads i =
      .done (.error e) := by
    rw [run_append, hthread', ← hdone, ← run_append, List.append_assoc, run_append]
    change rest (.ok _) = _
    rw [← hwork']
  have hall : schedule = before ++ [i] ++ (between ++ [i]) ++ later := by
    rw [hsplit, hlater]
    simp
  rw [hall, run_append]
  exact Pool.run_done hraised later

/-- No signal is sent for a Question whose Work was terminal when the call began, on the condition that a repeated answer
finds no reference. -/
theorem sendsNothing_of_unattached {call : AnswerCall} {p : CoordinatorPool ι} {i : ι}
    (hi : p.threads i = (call.program c k).run) (hs : StoreReachable p.state.store) (hlate : LateFor k p.state.store)
    {schedule : List ι}
    (hrun : EveryStep (Pool.step (SignalWorld.handler port)) (Unattached call i) p schedule) :
    SendsNothing port call i p schedule := by
  have hreads : EveryStep (Pool.step (SignalWorld.handler port))
      (fun p j => j = i → ∀ a rest, p.threads i = .act a rest → a.OnlyReads) p schedule := by
    cases call with
    | answer env rev answerRef =>
      have hmeets : Meets (SignalWorld.handler port) (lateContract fun _ _ => True)
          (Outcome (fun _ _ => False) fun e _ => IsLate e) (p.threads i) p.state := by
        rw [hi]
        exact triple_answer_late env rev answerRef p.state ⟨hs.wellFormed, hlate⟩
      exact onlyReads_of_meets hs.wellFormed hmeets fun _ _ _ _ _ _ _ _ => trivial
    | answerIdempotent env answerRef =>
      have hmeets : Meets (SignalWorld.handler port) (lateContract fun w a => findsNoRef w a = true)
          (Outcome (fun _ _ => True) fun _ _ => True) (p.threads i) p.state := by
        rw [hi]
        exact triple_answerIdempotent_late env answerRef p.state ⟨hs.wellFormed, hlate⟩
      exact onlyReads_of_meets hs.wellFormed hmeets hrun
  refine ⟨?_, ?_⟩
  · intro before j after hsplit hj x env rest hact
    exact hreads before j after hsplit hj _ rest hact
  · rintro env rev answerRef rfl
    refine ⟨?_, fun hcount => answer_raises_late hi hs.wellFormed hlate hcount⟩
    intro before j after hsplit hj
    subst hj
    cases hthread : (MachineRuns.run (Pool.step (SignalWorld.handler port)) p before).threads j with
    | done r => rw [Pool.step_done hthread]
    | act a rest =>
      rw [(Pool.step_act hthread).2]
      exact handler_of_onlyReads (hreads before j after hsplit rfl a rest hthread) _

end Runs

def lateCalls : List StoreCall :=
  askingCalls ++ [⟨.answerQuestion ⟨"q_1"⟩ 1 "yes" "q_1", frozenSupply⟩,
     ⟨.transitionWorkStatus ⟨"work_1"⟩ .cancelled 1 sampleEvent none, frozenSupply⟩]

def lateStore : InMemoryStore := MachineRuns.run storeStep .empty lateCalls

theorem lateStore_late : LateFor ⟨"q_1"⟩ lateStore := ⟨_, _, _, rfl, rfl, rfl, by decide⟩

/-- A late answer is refused. -/
theorem late_answer_refused : SendsNothing deliveringPort (.answer frozenSupply 1 "yes") false
      (answerPool {} ⟨"q_1"⟩ (fun _ : Bool => .answer frozenSupply 1 "yes") lateStore) [false, true, false] :=
  sendsNothing_of_unattached rfl ⟨lateCalls, rfl⟩ lateStore_late fun _ _ _ _ => trivial

/-- A repeated answer signals the execution of the cancelled Work. -/
theorem repeated_answer_signals_late :
    ¬∀ (port : SignalPort) (c : NeedUserCoordinator) (k : QuestionId) (call : AnswerCall)
      (p : CoordinatorPool Bool) (i : Bool) (schedule : List Bool), p.threads i = (call.program c k).run →
        StoreReachable p.state.store → LateFor k p.state.store → SendsNothing port call i p schedule := by
  intro h
  have hsends := h deliveringPort {} ⟨"q_1"⟩ (.answerIdempotent frozenSupply "yes")
    (answerPool {} ⟨"q_1"⟩ (fun _ : Bool => .answerIdempotent frozenSupply "yes") lateStore) false
    [false, false, false] rfl ⟨lateCalls, rfl⟩ lateStore_late
  exact hsends.silent [false, false] false [] rfl rfl _ _ _ rfl

end AllTomorrow
