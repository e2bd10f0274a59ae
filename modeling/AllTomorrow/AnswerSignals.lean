import AllTomorrow.ExecutionRefHistory
import AllTomorrow.NeedUserCoordinator

/-!
# A signal carries the stored answer

Calls of `answer` and `answer_idempotent` on one Question, in any interleaving and cut off at
any request. Every signal carries the answer that is stored, and a call that returns leaves
the execution signalled, on two conditions: a repeated call repeats the stored answer, and a
call that has lost a race finds the signal of the winner.
-/

namespace AllTomorrow

open Prog NeedUserCoordinator

/-- The reference that `_execution_ref_for_question` finds in a store. -/
def InMemoryStore.refFor (s : InMemoryStore) (question : QuestionRecordSemantic) : Option ExecutionRef :=
  match question.runId with
  | some runId => (s.runs.get? runId).bind RunRecord.executionRef
  | none =>
      match question.workId with
      | some workId => openRef (s.listRuns workId)
      | none => none

/-- The signal is one for the Question, with the answer that is stored. -/
structure CarriesAnswer (k : QuestionId) (w : SignalWorld) (x : Signal) : Prop where
  signalId : x.signalId = k.val
  answer : ∃ q a, w.store.questions.get? k = some q ∧ q.status = .answered ∧ q.answerRef = some a ∧
    x.payload.get? "answer_ref" = some (.str a)

/-- The execution of the Question, if a reference to it is attached, has the signal. -/
def Signalled (k : QuestionId) (w : SignalWorld) : Prop :=
  ∀ q ref, w.store.questions.get? k = some q → w.store.refFor q = some ref →
    ∃ x ∈ w.signals, x.ref = ref ∧ CarriesAnswer k w x

/-- The condition on a read: `answer_idempotent` finds the Question open or with its own answer, and after a race that was
lost the execution has a signal already. -/
def CarefulRead (w : SignalWorld) : CoordinatorRequest → Prop
  | .getQuestion (.answerIdempotent answerRef) questionId =>
      ∀ q, w.store.questions.get? questionId = some q → q.status = .answered → q.answerRef = some answerRef
  | .getQuestion .refresh questionId =>
      ∀ q, w.store.questions.get? questionId = some q → ∀ ref, w.store.refFor q = some ref →
        ∃ x ∈ w.signals, x.ref = ref ∧ x.signalId = questionId.val
  | _ => True

instance decidableCarefulRead (w : SignalWorld) : (a : CoordinatorRequest) → Decidable (CarefulRead w a)
  | .getQuestion (.answerIdempotent answerRef) questionId =>
      inferInstanceAs (Decidable (∀ q ∈ w.store.questions.get? questionId, q.status = .answered →
        q.answerRef = some answerRef))
  | .getQuestion .refresh questionId =>
      inferInstanceAs (Decidable (∀ q ∈ w.store.questions.get? questionId, ∀ ref ∈ w.store.refFor q,
        ∃ x ∈ w.signals, x.ref = ref ∧ x.signalId = questionId.val))
  | .getQuestion .answer _ | .store _ _ | .signal _ _ => isTrue trivial

/-! ## What the calls do to each other -/

structure SignalRely (k : QuestionId) (w w' : SignalWorld) : Prop where
  runs : w'.store.runs = w.store.runs
  signals : ∃ more, w'.signals = w.signals ++ more
  linkage : ∀ q', w'.store.questions.get? k = some q' →
    ∃ q, w.store.questions.get? k = some q ∧ q'.runId = q.runId ∧ q'.workId = q.workId
  settled : ∀ q, w.store.questions.get? k = some q → q.status ≠ .pending → w'.store.questions.get? k = some q

structure SignalsCarry (k : QuestionId) (w : SignalWorld) : Prop where
  wellFormed : w.store.WellFormed
  carry : ∀ x ∈ w.signals, CarriesAnswer k w x

def answerContract (k : QuestionId) : Contract CoordinatorRequest SignalWorld where
  rely := SignalRely k
  assume := fun w a => SignalsCarry k w ∧ CarefulRead w a
  guar := fun w a =>
    match a with
    | .getQuestion _ _ => True
    | .store op _ => op.isRead = true ∨ ∃ rev answerRef, op = .answerQuestion k rev answerRef k.val
    | .signal x _ => CarriesAnswer k w x

variable {k : QuestionId} {port : SignalPort} {c : NeedUserCoordinator} {w w' : SignalWorld}

theorem refFor_of_same {s s' : InMemoryStore} {q q' : QuestionRecordSemantic} (hruns : s'.runs = s.runs)
    (hrun : q'.runId = q.runId) (hwork : q'.workId = q.workId) : s'.refFor q' = s.refFor q := by
  unfold InMemoryStore.refFor InMemoryStore.listRuns
  rw [hrun, hwork, hruns]

theorem CarriesAnswer.relied {x : Signal} (h : CarriesAnswer k w x) (hrely : SignalRely k w w') : CarriesAnswer k w' x := by
  obtain ⟨q, a, hq, hstatus, hanswer, hpayload⟩ := h.answer
  have hopen : q.status ≠ .pending := by
    rw [hstatus]
    decide
  exact ⟨h.signalId, q, a, hrely.settled q hq hopen, hstatus, hanswer, hpayload⟩

theorem stable_signalled : Stable (answerContract k) (Signalled k) := by
  intro w w' hrely h q' ref hq' href
  obtain ⟨q, hq, hrun, hwork⟩ := hrely.linkage q' hq'
  rw [refFor_of_same hrely.runs hrun hwork] at href
  obtain ⟨x, hx, hxref, hcarry⟩ := h q ref hq href
  obtain ⟨more, hmore⟩ := hrely.signals
  refine ⟨x, ?_, hxref, hcarry.relied hrely⟩
  rw [hmore]
  exact List.mem_append_left _ hx

structure StoredAnswer (k : QuestionId) (question : QuestionRecordSemantic) (a : String) (w : SignalWorld) : Prop where
  stored : w.store.questions.get? k = some question
  answered : question.status = .answered
  answer : question.answerRef = some a

theorem stable_storedAnswer (question : QuestionRecordSemantic) (a : String) :
    Stable (answerContract k) (StoredAnswer k question a) := by
  intro w w' hrely h
  have hopen : question.status ≠ .pending := by
    rw [h.answered]
    decide
  exact ⟨hrely.settled question h.stored hopen, h.answered, h.answer⟩

/-! ## One call -/

section Call

variable {question : QuestionRecordSemantic} {a : String} (env : Supply)

/-- The reference is the one that the store has. -/
theorem triple_executionRef : Triple (SignalWorld.handler port) (answerContract k) (StoredAnswer k question a)
      (executionRefForQuestion env question)
      (fun found w => StoredAnswer k question a w ∧ found = w.store.refFor question) (fun _ _ => True) := by
  have hstable : ∀ found : Option ExecutionRef,
      Stable (answerContract k) fun w => StoredAnswer k question a w ∧ found = w.store.refFor question := by
    intro found
    refine (stable_storedAnswer question a).and ?_
    intro w w' hrely h
    rw [h]
    exact (refFor_of_same hrely.runs rfl rfl).symm
  unfold executionRefForQuestion
  cases hrun : question.runId with
  | some runId =>
    have hread : Triple (SignalWorld.handler port) (answerContract k) (StoredAnswer k question a)
        (callStore (.getRun runId) env)
        (fun run w => StoredAnswer k question a w ∧ run.bind RunRecord.executionRef = w.store.refFor question)
        (fun _ _ => True) := by
      refine triple_request (stable_storedAnswer question a) (fun run => hstable _) (fun _ => stable_const _) ?_
      intro w hw _
      refine ⟨.inl rfl, hw, ?_⟩
      change (w.store.runs.get? runId).bind RunRecord.executionRef = w.store.refFor question
      rw [InMemoryStore.refFor, hrun]
    exact hread.bind (fun _ => stable_const _) fun run => triple_pure (hstable _) fun _ h => h
  | none =>
    dsimp only
    cases hwork : question.workId with
    | some workId =>
      have hread : Triple (SignalWorld.handler port) (answerContract k) (StoredAnswer k question a)
          (callStore (.listRuns workId) env)
          (fun runs w => StoredAnswer k question a w ∧ openRef runs = w.store.refFor question) (fun _ _ => True) := by
        refine triple_request (stable_storedAnswer question a) (fun run => hstable _) (fun _ => stable_const _) ?_
        intro w hw _
        refine ⟨.inl rfl, hw, ?_⟩
        change openRef (w.store.listRuns workId) = w.store.refFor question
        rw [InMemoryStore.refFor, hrun, hwork]
      exact hread.bind (fun _ => stable_const _) fun runs => triple_pure (hstable _) fun _ h => h
    | none =>
      refine triple_pure (hstable none) ?_
      intro w hw
      refine ⟨hw, ?_⟩
      rw [InMemoryStore.refFor, hrun, hwork]

theorem carriesAnswer_answerSignal (h : StoredAnswer k question a w) (ref : ExecutionRef) :
    CarriesAnswer k w (c.answerSignal ref k a) :=
  ⟨rfl, question, a, h.stored, h.answered, h.answer, InsertionDict.get?_set_self _ _ _⟩

/-- A stored answer is delivered. -/
theorem triple_deliver :
    Triple (SignalWorld.handler port) (answerContract k) (StoredAnswer k question a) (c.deliver env question k a)
      (fun _ => Signalled k) (fun _ _ => True) := by
  unfold deliver
  refine (triple_executionRef (env.sub 0)).bind (fun _ => stable_const _) fun found => ?_
  cases found with
  | none =>
    refine triple_pure stable_signalled ?_
    rintro w ⟨hw, hnone⟩ q ref hq href
    rw [hw.stored, Option.some.injEq] at hq
    rw [← hq, ← hnone] at href
    cases href
  | some ref =>
    have hsend : Triple (SignalWorld.handler port) (answerContract k)
        (fun w => StoredAnswer k question a w ∧ some ref = w.store.refFor question)
        (sendSignal (c.answerSignal ref k a) (env.sub 1)) (fun _ => Signalled k) (fun _ _ => True) := by
      refine triple_request ?_ (fun _ => stable_signalled) (fun _ => stable_const _) ?_
      · refine (stable_storedAnswer question a).and ?_
        intro w w' hrely h
        rw [h]
        exact (refFor_of_same hrely.runs rfl rfl).symm
      · rintro w ⟨hw, hsome⟩ _
        have hcarry := carriesAnswer_answerSignal (c := c) hw ref
        refine ⟨hcarry, ?_⟩
        have hsignalled : Signalled k { w with signals := w.signals ++ [c.answerSignal ref k a] } := by
          intro q ref' hq href'
          rw [hw.stored, Option.some.injEq] at hq
          rw [← hq] at href'
          have href : ref' = ref := Option.some.inj (href'.symm.trans hsome.symm)
          subst href
          refine ⟨c.answerSignal ref' k a, List.mem_append_right _ (List.mem_singleton_self _), rfl, ?_⟩
          exact ⟨hcarry.signalId, hcarry.answer⟩
        change Outcome _ _ (port w.signals (c.answerSignal ref k a) (env.sub 1)) _
        cases port w.signals (c.answerSignal ref k a) (env.sub 1) with
        | ok result => exact hsignalled
        | error e => trivial
    exact hsend.bind (fun _ => stable_const _) fun signal => triple_pure stable_signalled fun _ h => h

theorem run_answerQuestion_cases {s : InMemoryStore} (hs : s.WellFormed) (rev : ℤ) (a corr : String) (env : Supply) :
    (∃ e, ((StoreOp.answerQuestion k rev a corr).exec env).run s = .error e s) ∨
      ∃ q, s.questions.get? k = some q ∧ q.status = .pending ∧
        ((StoreOp.answerQuestion k rev a corr).exec env).run s = .ok (q.answered env a corr)
          { s with questions := s.questions.set k (q.answered env a corr)
                   deliverySignals := s.deliverySignals ++ [⟨k, corr⟩] } := by
  have heffect := exec_effect env hs (.answerQuestion k rev a corr)
  generalize ((StoreOp.answerQuestion k rev a corr).exec env).run s = r at heffect
  cases heffect with
  | raised e => exact .inl ⟨e, rfl⟩
  | read v h => cases h
  | questionAnswered hget hpending => exact .inr ⟨_, hget, hpending, rfl⟩

theorem triple_answerQuestion (rev : ℤ) (env : Supply) : Triple (SignalWorld.handler port) (answerContract k) (fun _ => True)
      (callStore (.answerQuestion k rev a k.val) env) (fun answered => StoredAnswer k answered a) (fun _ _ => True) := by
  refine triple_request (stable_const _) (fun answered => stable_storedAnswer answered a) (fun _ => stable_const _) ?_
  rintro w - ⟨hcarry, -⟩
  refine ⟨.inr ⟨rev, a, rfl⟩, ?_⟩
  change Outcome _ _ (((StoreOp.answerQuestion k rev a k.val).exec env).run w.store).outcome
    { w with store := (((StoreOp.answerQuestion k rev a k.val).exec env).run w.store).state }
  rcases run_answerQuestion_cases hcarry.wellFormed rev a k.val env with ⟨e, hrun⟩ | ⟨q, _, _, hrun⟩
  · rw [hrun]
    trivial
  · rw [hrun]
    exact ⟨InsertionDict.get?_set_self _ _ _, rfl, rfl⟩

theorem triple_refuseLate :
    Triple (SignalWorld.handler port) (answerContract k) (fun _ => True) (refuseLate env question k) (fun _ _ => True)
      (fun _ _ => True) := by
  unfold refuseLate
  cases question.workId with
  | none => exact triple_pure (stable_const _) fun _ h => h
  | some workId =>
    have hread : Triple (SignalWorld.handler port) (answerContract k) (fun _ => True) (callStore (.getWork workId) env)
        (fun _ _ => True) (fun _ _ => True) := by
      refine triple_request (stable_const _) (fun _ => stable_const _) (fun _ => stable_const _) ?_
      intro w _ _
      exact ⟨.inl rfl, outcome_const.mpr trivial⟩
    refine hread.bind (fun _ => stable_const _) fun found => ?_
    cases found with
    | none => exact triple_pure (stable_const _) fun _ h => h
    | some work =>
      dsimp only
      split
      · exact triple_throw (stable_const _) fun _ h => h
      · exact triple_pure (stable_const _) fun _ h => h

theorem triple_answer (rev : ℤ) :
    Triple (SignalWorld.handler port) (answerContract k) (fun _ => True) (c.answer env k rev a) (fun _ => Signalled k)
      (fun _ _ => True) := by
  have hread : Triple (SignalWorld.handler port) (answerContract k) (fun _ => True) (getQuestion .answer k)
      (fun _ _ => True) (fun _ _ => True) := by
    refine triple_request (stable_const _) (fun _ => stable_const _) (fun _ => stable_const _) ?_
    exact fun w _ _ => ⟨trivial, trivial⟩
  unfold answer
  refine hread.bind (fun _ => stable_const _) fun found => ?_
  cases found with
  | none => exact triple_throw (stable_const _) fun _ h => h
  | some question =>
    refine (triple_refuseLate _).bind (fun _ => stable_const _) fun _ => ?_
    refine (triple_answerQuestion rev _).bind (fun _ => stable_const _) fun answered => ?_
    exact triple_deliver _

theorem triple_converge :
    Triple (SignalWorld.handler port) (answerContract k) (fun _ => True) (converge k) (fun _ => Signalled k)
      (fun _ _ => True) := by
  have hread : Triple (SignalWorld.handler port) (answerContract k) (fun _ => True) (getQuestion .refresh k)
      (fun _ => Signalled k) (fun _ _ => True) := by
    refine triple_request (stable_const _) (fun _ => stable_signalled) (fun _ => stable_const _) ?_
    rintro w - ⟨hcarry, hcareful⟩
    refine ⟨trivial, ?_⟩
    intro q ref hq href
    obtain ⟨x, hx, hxref, _⟩ := hcareful q hq ref href
    exact ⟨x, hx, hxref, hcarry.carry x hx⟩
  unfold converge
  refine hread.bind (fun _ => stable_const _) fun found => ?_
  cases found with
  | none => exact triple_throw (stable_const _) fun _ _ => trivial
  | some refreshed => exact triple_pure stable_signalled fun _ h => h

theorem triple_answerIdempotent :
    Triple (SignalWorld.handler port) (answerContract k) (fun _ => True) (c.answerIdempotent env k a)
      (fun _ => Signalled k) (fun _ _ => True) := by
  have hread : Triple (SignalWorld.handler port) (answerContract k) (fun _ => True)
      (getQuestion (.answerIdempotent a) k)
      (fun found w => ∀ q, found = some q → q.status = .answered → StoredAnswer k q a w) (fun _ _ => True) := by
    refine triple_request (stable_const _) ?_ (fun _ => stable_const _) ?_
    · intro found
      refine stable_forall fun q => ?_
      intro w w' hrely h hfound hanswered
      exact stable_storedAnswer q a w w' hrely (h hfound hanswered)
    · rintro w - ⟨_, hcareful⟩
      refine ⟨trivial, ?_⟩
      intro q hq hanswered
      exact ⟨hq, hanswered, hcareful q hq hanswered⟩
  unfold answerIdempotent
  refine hread.bind (fun _ => stable_const _) fun found => ?_
  cases found with
  | none => exact triple_throw (stable_const _) fun _ _ => trivial
  | some question =>
    dsimp only
    split
    · rename_i hanswered
      exact (triple_deliver _).weaken fun w hw => hw question rfl hanswered
    · have hattempt : Triple (SignalWorld.handler port) (answerContract k) (fun _ => True)
          (Prog.attempt (c.answer (env.sub 1) k question.revision a)) (Outcome (fun _ => Signalled k) fun _ _ => True)
          (fun _ _ => True) :=
        (triple_answer _ _).attempt (fun _ => stable_signalled) fun _ => stable_const _
      refine (hattempt.weaken fun _ _ => trivial).bind (fun _ => stable_const _) fun result => ?_
      cases result with
      | ok result => exact triple_pure stable_signalled fun _ h => h
      | error e =>
        cases e with
        | storeConflictError message => exact triple_converge.weaken fun _ _ => trivial
        | _ => exact triple_throw (stable_const _) fun _ _ => trivial

end Call

/-! ## All calls -/

section Runs

variable {ι : Type} [DecidableEq ι]

def answerPool (c : NeedUserCoordinator) (k : QuestionId) (calls : ι → AnswerCall) (s : InMemoryStore) :
    Pool ι CoordinatorRequest CoordinatorAnswer (Except Exn AnswerResult) SignalWorld where
  threads := fun i => ((calls i).program c k).run
  state := ⟨s, []⟩

/-- Every signal carries the stored answer, and what has returned has signalled. -/
structure SignalLaw (k : QuestionId)
    (p : Pool ι CoordinatorRequest CoordinatorAnswer (Except Exn AnswerResult) SignalWorld) : Prop where
  carry : ∀ x ∈ p.state.signals, CarriesAnswer k p.state x
  returned : ∀ i result, p.threads i = .done (.ok result) → Signalled k p.state

theorem carriesAnswer_of_rely (hcarry : ∀ x ∈ w.signals, CarriesAnswer k w x)
    (hrely : SignalRely k w w') (hsignals : w'.signals = w.signals) : ∀ x ∈ w'.signals, CarriesAnswer k w' x := by
  intro x hx
  rw [hsignals] at hx
  exact (hcarry x hx).relied hrely

theorem storeStep_of_isRead {op : StoreOp} (h : op.isRead = true) (s : InMemoryStore) (env : Supply) :
    storeStep s ⟨op, env⟩ = s := by
  cases op with
  | appendEvent | createGoal | transitionGoalStatus | createWork | transitionWorkStatus | createRun | attachExecutionRef
  | transitionRunStatus | claimPendingWork | createQuestion | answerQuestion => cases h
  | _ => rfl

/-- A request that is promised keeps the invariant, and is one that the other calls rely on. -/
theorem answerContract_step (a : CoordinatorRequest) (w : SignalWorld) (hJ : SignalsCarry k w)
    (hguar : (answerContract k).guar w a) :
    SignalsCarry k (SignalWorld.handler port a w).2 ∧ SignalRely k w (SignalWorld.handler port a w).2 := by
  have hrefl : SignalRely k w w :=
    { runs := rfl, signals := ⟨[], (List.append_nil _).symm⟩, linkage := fun q hq => ⟨q, hq, rfl, rfl⟩
      settled := fun q hq _ => hq }
  cases a with
  | getQuestion read questionId => exact ⟨hJ, hrefl⟩
  | signal x env =>
    refine ⟨⟨hJ.wellFormed, ?_⟩, ⟨rfl, ⟨[x], rfl⟩, fun q hq => ⟨q, hq, rfl, rfl⟩, fun q hq _ => hq⟩⟩
    intro y hy
    rcases List.mem_append.mp hy with hy | hy
    · exact ⟨(hJ.carry y hy).signalId, (hJ.carry y hy).answer⟩
    · rw [List.mem_singleton.mp hy]
      exact ⟨hguar.signalId, hguar.answer⟩
  | store op env =>
    have hstep : SignalRely k w { w with store := storeStep w.store ⟨op, env⟩ } := by
      rcases hguar with hread | ⟨rev, answerRef, rfl⟩
      · rw [storeStep_of_isRead hread w.store env]
        exact hrefl
      · rcases run_answerQuestion_cases hJ.wellFormed rev answerRef k.val env with ⟨e, hrun⟩ | ⟨q, hq, hpending, hrun⟩
        · rw [storeStep, StoreCall.result, hrun]
          exact hrefl
        · rw [storeStep, StoreCall.result, hrun]
          refine ⟨rfl, ⟨[], (List.append_nil _).symm⟩, ?_, ?_⟩
          · intro q' hq'
            change (w.store.questions.set k _).get? k = some q' at hq'
            rw [InsertionDict.get?_set_self, Option.some.injEq] at hq'
            subst hq'
            exact ⟨q, hq, rfl, rfl⟩
          · intro q' hq' hopen
            rw [hq, Option.some.injEq] at hq'
            subst hq'
            exact absurd hpending hopen
    exact ⟨⟨wellFormed_step w.store ⟨op, env⟩ hJ.wellFormed, carriesAnswer_of_rely hJ.carry hstep rfl⟩, hstep⟩

/-- The stored answer is the one that is signalled, in every interleaving of careful calls, wherever they are cut off. -/
theorem signalLaw_of_careful {calls : ι → AnswerCall} {s : InMemoryStore} (hs : StoreReachable s) {schedule : List ι}
    (hrun : MachineRuns.EveryStep (Pool.step (SignalWorld.handler port)) (Pool.StepMeets CarefulRead) (answerPool c k calls s) schedule) :
    SignalLaw k (MachineRuns.run (Pool.step (SignalWorld.handler port)) (answerPool c k calls s) schedule) := by
  have hmeets : ∀ i, Meets (SignalWorld.handler port) (answerContract k) (Outcome (fun _ => Signalled k) fun _ _ => True)
      ((answerPool c k calls s).threads i) (answerPool c k calls s).state := by
    intro i
    change Meets _ _ _ ((calls i).program c k).run _
    cases calls i with
    | answer env rev answerRef => exact triple_answer env rev _ trivial
    | answerIdempotent env answerRef => exact triple_answerIdempotent env _ trivial
  have hinit : SignalsCarry k (answerPool c k calls s).state := ⟨hs.wellFormed, fun x hx => nomatch hx⟩
  have hassume : ∀ (p : Pool ι CoordinatorRequest CoordinatorAnswer (Except Exn AnswerResult) SignalWorld) (i : ι) a rest,
      SignalsCarry k p.state → p.StepMeets CarefulRead i → p.threads i = .act a rest → (answerContract k).assume p.state a :=
    fun p i a rest hJ hP hact => ⟨hJ, hP a rest hact⟩
  obtain ⟨hJ, hend⟩ := Pool.parallel hassume
    (fun i a w hJ _ hguar => ⟨(answerContract_step a w hJ hguar).1, fun _ _ => (answerContract_step a w hJ hguar).2⟩)
    hinit hmeets hrun
  refine ⟨hJ.carry, ?_⟩
  intro i result hdone
  have hmeet := hend i
  rw [hdone] at hmeet
  exact hmeet.done

end Runs

def runQuestion : QuestionRecordSemantic :=
  { questionId := ⟨"q_1"⟩, prompt := "p", workId := some ⟨"work_1"⟩, runId := some ⟨"run_1"⟩, createdAt := 0,
    updatedAt := 0 }

theorem execution_nonempty : PyText.isBlank "exec_a" = false := by decide

def askingCalls : List StoreCall :=
  seedCalls ++ [⟨.attachExecutionRef ⟨"run_1"⟩ 1 (sampleRef "exec_a" execution_nonempty) sampleEvent, frozenSupply⟩,
     ⟨.createQuestion runQuestion, frozenSupply⟩]

def askingStore : InMemoryStore := MachineRuns.run storeStep .empty askingCalls

def deliveringPort : SignalPort := fun _ _ _ => .ok { outcome := .delivered }

/-- Two deliveries of one answer, the second after the first. -/
theorem repeated_answer_signals : SignalLaw ⟨"q_1"⟩ (MachineRuns.run (Pool.step (SignalWorld.handler deliveringPort))
      (answerPool {} ⟨"q_1"⟩ (fun _ : Bool => .answerIdempotent frozenSupply "yes") askingStore)
      [false, false, false, false, false, false, true, true, true]) :=
  signalLaw_of_careful ⟨askingCalls, rfl⟩ (by decide +kernel)

/-- The first call stores its answer and is cut off; the second one finds it, and signals its own. -/
theorem repeated_call_signals_other_answer :
    ¬∀ (port : SignalPort) (c : NeedUserCoordinator) (k : QuestionId) (calls : Bool → AnswerCall) (s : InMemoryStore)
      (schedule : List Bool), StoreReachable s →
        SignalLaw k (MachineRuns.run (Pool.step (SignalWorld.handler port)) (answerPool c k calls s) schedule) := by
  intro h
  have hlaw := h deliveringPort {} ⟨"q_1"⟩ (fun i => .answerIdempotent frozenSupply (if i then "no" else "yes")) askingStore
    [false, false, false, false, true, true, true] ⟨askingCalls, rfl⟩
  have hsent : (MachineRuns.run (Pool.step (SignalWorld.handler deliveringPort))
      (answerPool {} ⟨"q_1"⟩ (fun i : Bool => .answerIdempotent frozenSupply (if i then "no" else "yes")) askingStore)
      [false, false, false, false, true, true, true]).state.signals =
        [NeedUserCoordinator.answerSignal {} (sampleRef "exec_a") ⟨"q_1"⟩ "no"] := by rfl
  obtain ⟨q, a, hq, _, ha, hpayload⟩ := (hlaw.carry _ (by rw [hsent]; exact List.mem_singleton_self _)).answer
  have hstored : ((MachineRuns.run (Pool.step (SignalWorld.handler deliveringPort))
      (answerPool {} ⟨"q_1"⟩ (fun i : Bool => .answerIdempotent frozenSupply (if i then "no" else "yes")) askingStore)
      [false, false, false, false, true, true, true]).state.store.questions.get? ⟨"q_1"⟩).bind
        QuestionRecordSemantic.answerRef = some "yes" := by rfl
  rw [hq, Option.bind_some, ha] at hstored
  cases hstored
  have hsame : "no" = "yes" := PyValue.str.inj (Option.some.inj hpayload)
  exact absurd hsame (by decide)

end AllTomorrow
