import AllTomorrow.ResearcherDecisions
import AllTomorrow.CrashTriples
import AllTomorrow.SemanticStoreChanges
import AllTomorrow.MachineRuns
import AllTomorrow.ExecutionRefHistory
import AllTomorrow.ExecutorLoop

/-!
# A decision is applied once

One Decision is materialized again and again, by one process or by several, one after the
other, each of which may stop at any call of the store; others use the store in between. At
most one record is created for it, unless the decision revises a terminal Work or asks a
question: these are only remembered in memory, so that a process that does not remember must
not try again.
-/

namespace AllTomorrow

namespace Researcher

open Prog

def creates : StoreOp → Bool
  | .createGoal .. | .createWork .. | .createQuestion _ => true
  | _ => false

/-- The store, and the creating calls for the decision that have succeeded. -/
structure ReplayWorld where
  store : InMemoryStore
  created : List StoreOp

def ReplayWorld.handler : Prog.Handler StoreCall (fun c => Except Exn c.op.Result) ReplayWorld := fun c w =>
  match c.result w.store with
  | .ok value s => (.ok value, ⟨s, if creates c.op then w.created ++ [c.op] else w.created⟩)
  | .error e s => (.error e, ⟨s, w.created⟩)

structure Memory where
  applied : InsertionDict String MaterializationResult
  proposals : InsertionDict String PyDict

def Memory.empty : Memory := ⟨.empty, .empty⟩

structure Replay where
  world : ReplayWorld
  memory : Memory

/-- What happens next. A crash stops a call after some calls of the store, and the memory is lost. -/
inductive ReplayInput where
  | other (call : StoreCall)
  | materialize (env : Supply)
  | crash (n : ℕ) (env : Supply)
  | restart

structure ReplayScope where
  sha256 : String → String
  userId : String
  actor : Actor
  decision : Decision

namespace ReplayScope

variable (o : ReplayScope)

def materializer (memory : Memory) : DecisionMaterializer := ⟨o.userId, o.actor, memory.applied, memory.proposals⟩

def call (memory : Memory) (env : Supply) : StoreTask (MaterializationResult × DecisionMaterializer) :=
  (o.materializer memory).materialize o.sha256 env o.decision

def step (w : Replay) : ReplayInput → Replay
  | .other call => { w with world := { w.world with store := storeStep w.world.store call } }
  | .materialize env =>
    match evalTask ReplayWorld.handler (o.call w.memory env) w.world with
    | (.ok (_, m), world) => ⟨world, ⟨m.applied, m.proposals⟩⟩
    | (.error _, world) => ⟨world, w.memory⟩
  | .crash n env => ⟨cutTask ReplayWorld.handler n (o.call w.memory env) w.world, .empty⟩
  | .restart => ⟨w.world, .empty⟩

/-- A question on the Work would be refused: the Work is missing or over, or one is pending. -/
def RefusesQuestion (s : InMemoryStore) : Prop :=
  ∀ workId, o.decision.payload.get? "target_work_id" = some (.str workId) →
    (∀ work, s.work.get? ⟨workId⟩ = some work → work.isTerminal = true) ∨
      ∃ q ∈ s.questions.values, q.workId = some ⟨workId⟩ ∧ q.status = .pending

/-- The condition on a call: the action is not one of the two that are only remembered in memory, or the process
remembers the decision, or nothing has been created for it; or it asks a question that would be refused. -/
def Remembered (w : Replay) : ReplayInput → Prop
  | .materialize _ | .crash _ _ => (o.decision.action ≠ .reviseWork ∧ o.decision.action ≠ .askUser) ∨
      w.memory.applied.contains o.decision.decisionId = true ∨ w.world.created.length = 0 ∨
      (o.decision.action = .askUser ∧ o.RefusesQuestion w.world.store)
  | _ => True

end ReplayScope

/-! ## The calls of a materializer -/

section Requests

variable {sha256 : String → String} {m : DecisionMaterializer} {d : Decision} {ok : StoreCall → Prop}

theorem taskRequests_ask {op : StoreOp} {env : Supply} (h : ok ⟨op, env⟩) : TaskRequests ok (ask op env) :=
  ⟨h, fun _ => trivial⟩

theorem taskRequests_lookupKey {α : Type} {v : PyValue} {find : String → StoreTask (Option α)}
    (h : ∀ s, TaskRequests ok (find s)) : TaskRequests ok (lookupKey v find) := by
  cases v with
  | str s => exact h s
  | list xs => exact taskRequests_throw
  | dict entries => exact taskRequests_throw
  | none => exact taskRequests_pure
  | bool b => exact taskRequests_pure
  | int n => exact taskRequests_pure

theorem taskRequests_recorded (hread : ∀ c, creates c.op = false → ok c) (env : Supply) :
    TaskRequests ok (m.recorded env d) := by
  unfold DecisionMaterializer.recorded
  split
  · exact TaskRequests.bind (taskRequests_ask (hread _ rfl)) fun _ => taskRequests_pure
  · exact taskRequests_pure

theorem taskRequests_createGoal
    (hgoal : ∀ goal event env, goal.goalId = ⟨"goal_" ++ m.identity sha256 d⟩ → ok ⟨.createGoal goal event, env⟩)
    (env : Supply) : TaskRequests ok (m.createGoal sha256 env d) := by
  refine taskRequests_ofExcept fun title _ => ?_
  exact TaskRequests.bind (taskRequests_ask (hgoal _ _ _ rfl)) fun _ => taskRequests_pure

theorem taskRequests_createWork (hread : ∀ c, creates c.op = false → ok c)
    (hwork : ∀ work event env, work.workId = ⟨"work_" ++ m.identity sha256 d⟩ → ok ⟨.createWork work event, env⟩)
    (env : Supply) : TaskRequests ok (m.createWork sha256 env d) := by
  refine taskRequests_ofExcept fun target _ => ?_
  refine TaskRequests.bind (taskRequests_lookupKey fun _ => taskRequests_ask (hread _ rfl)) fun found => ?_
  cases found with
  | none => exact taskRequests_throw
  | some goal =>
    dsimp only
    split
    · exact taskRequests_throw
    · refine taskRequests_ofExcept fun title _ => ?_
      exact TaskRequests.bind (taskRequests_ask (hwork _ _ _ rfl)) fun _ => taskRequests_pure

theorem taskRequests_propose : TaskRequests ok (m.propose d) := by
  refine taskRequests_ofExcept fun _ _ => ?_
  refine taskRequests_ofExcept fun _ _ => ?_
  exact taskRequests_ofExcept fun _ _ => taskRequests_pure

/-- Apart from the two actions, only reads and the creation of a record with the derived id. -/
theorem taskRequests_materialize (hread : ∀ c, creates c.op = false → ok c)
    (hgoal : d.action = .createGoal → ∀ goal event env, goal.goalId = ⟨"goal_" ++ m.identity sha256 d⟩ →
      ok ⟨.createGoal goal event, env⟩)
    (hwork : d.action = .createWork → ∀ work event env, work.workId = ⟨"work_" ++ m.identity sha256 d⟩ →
      ok ⟨.createWork work event, env⟩) (hrevise : d.action ≠ .reviseWork) (hask : d.action ≠ .askUser) (env : Supply) :
    TaskRequests ok (m.materialize sha256 env d) := by
  refine TaskRequests.bind (taskRequests_recorded hread _) fun found => ?_
  cases found with
  | some result => exact taskRequests_pure
  | none =>
    dsimp only
    cases m.applied.get? d.decisionId with
    | some result => exact taskRequests_pure
    | none =>
      refine TaskRequests.bind ?_ fun result => taskRequests_pure
      unfold DecisionMaterializer.dispatch
      cases haction : d.action with
      | noop => exact taskRequests_pure
      | createGoal => exact TaskRequests.bind (taskRequests_createGoal (hgoal haction) _) fun _ => taskRequests_pure
      | createWork => exact TaskRequests.bind (taskRequests_createWork hread (hwork haction) _) fun _ => taskRequests_pure
      | reviseWork => exact absurd haction hrevise
      | askUser => exact absurd haction hask
      | proposeImprovement => exact taskRequests_propose

theorem requestsAtMost_ofExcept {α β : Type} {x : Except Exn α} {f : α → StoreTask β} {n : ℕ}
    (hf : ∀ a, RequestsAtMost (fun c : StoreCall => creates c.op) n (f a).run) :
    RequestsAtMost (fun c : StoreCall => creates c.op) n ((MonadExcept.ofExcept x : StoreTask α) >>= f).run := by
  cases x with
  | ok a => exact hf a
  | error e => trivial

theorem requestsAtMost_ask {α : Type} (op : StoreOp) (env : Supply) (g : op.Result → α) :
    RequestsAtMost (fun c : StoreCall => creates c.op) 1 (ask op env >>= fun r => pure (g r)).run := by
  refine requestsAtMost_then ?_ fun _ => taskRequests_pure
  exact .inr ⟨0, rfl, fun _ => trivial⟩

theorem requestsAtMost_reviseWork (env : Supply) :
    RequestsAtMost (fun c : StoreCall => creates c.op) 1 (m.reviseWork env d).run := by
  refine requestsAtMost_ofExcept fun target => ?_
  refine requestsAtMost_task (taskRequests_lookupKey fun _ => taskRequests_ask rfl) fun found => ?_
  cases found with
  | none => trivial
  | some work =>
    dsimp only
    split
    · exact requestsAtMost_ask _ _ _
    · exact requestsAtMost_ask _ _ _

theorem requestsAtMost_askUser (env : Supply) :
    RequestsAtMost (fun c : StoreCall => creates c.op) 1 (DecisionMaterializer.askUser env d).run := by
  refine requestsAtMost_ofExcept fun target => ?_
  refine requestsAtMost_task (taskRequests_lookupKey fun _ => taskRequests_ask rfl) fun found => ?_
  cases found with
  | none => trivial
  | some work =>
    dsimp only
    split
    · trivial
    · refine requestsAtMost_ofExcept fun question => ?_
      exact requestsAtMost_ask _ _ _

theorem requestsAtMost_materialize (hcreate : d.action = .reviseWork ∨ d.action = .askUser) (env : Supply) :
    RequestsAtMost (fun c : StoreCall => creates c.op) 1 (m.materialize sha256 env d).run := by
  refine requestsAtMost_task (taskRequests_recorded (fun _ h => h) _) fun found => ?_
  cases found with
  | some result => trivial
  | none =>
    dsimp only
    cases m.applied.get? d.decisionId with
    | some result => trivial
    | none =>
      refine requestsAtMost_then ?_ fun result => taskRequests_pure
      unfold DecisionMaterializer.dispatch
      rcases hcreate with haction | haction
      · rw [haction]
        exact requestsAtMost_then (requestsAtMost_reviseWork _) fun _ => taskRequests_pure
      · rw [haction]
        exact requestsAtMost_then (requestsAtMost_askUser _) fun _ => taskRequests_pure

theorem materialize_of_applied (hcreate : d.action = .reviseWork ∨ d.action = .askUser) {result : MaterializationResult}
    (happlied : m.applied.get? d.decisionId = some result) (env : Supply) :
    m.materialize sha256 env d = pure ({ result with alreadyApplied := true }, m) := by
  have hnone : m.recorded (env.sub 0) d = pure none := by
    unfold DecisionMaterializer.recorded
    rcases hcreate with haction | haction <;> rw [haction, if_neg (by decide)]
  unfold DecisionMaterializer.materialize
  rw [hnone, happlied]
  rfl

end Requests

/-! ## What a call leaves -/

section Worlds

variable {w : ReplayWorld}

theorem handler_store (c : StoreCall) (w : ReplayWorld) : (ReplayWorld.handler c w).2.store = storeStep w.store c := by
  unfold ReplayWorld.handler storeStep
  cases c.result w.store <;> rfl

theorem handler_created_le (c : StoreCall) (w : ReplayWorld) :
    (ReplayWorld.handler c w).2.created.length ≤ w.created.length + if creates c.op then 1 else 0 := by
  unfold ReplayWorld.handler
  cases c.result w.store with
  | ok value s =>
    dsimp only
    split
    · rw [List.length_append, List.length_singleton]
    · exact Nat.le_refl _
  | error e s => exact Nat.le_add_right _ _

theorem handler_created_of_read {c : StoreCall} (h : creates c.op = false) (w : ReplayWorld) :
    (ReplayWorld.handler c w).2.created = w.created := by
  unfold ReplayWorld.handler
  cases c.result w.store with
  | ok value s => simp [h]
  | error e s => rfl

variable {s : InMemoryStore}

theorem goal_stays (hs : s.WellFormed) (c : StoreCall) {k : GoalId} (h : s.goals.get? k ≠ none) :
    (storeStep s c).goals.get? k ≠ none := by
  obtain ⟨op, env⟩ := c
  have hchange := goal_change_step (c := ⟨op, env⟩) hs k
  change GoalChange env s k op _ at hchange
  generalize (storeStep s ⟨op, env⟩).goals.get? k = found at hchange
  cases hchange with
  | kept => exact h
  | created hkey hfresh => exact Option.some_ne_none _
  | moved hget hmem => exact Option.some_ne_none _

theorem work_stays (hs : s.WellFormed) (c : StoreCall) {k : WorkId} (h : s.work.get? k ≠ none) :
    (storeStep s c).work.get? k ≠ none := by
  obtain ⟨op, env⟩ := c
  have hchange := work_change_step (c := ⟨op, env⟩) hs k
  change WorkChange env s k op _ at hchange
  generalize (storeStep s ⟨op, env⟩).work.get? k = found at hchange
  cases hchange with
  | kept => exact h
  | created hkey hfresh hgoal => exact Option.some_ne_none _
  | moved hget hmem => exact Option.some_ne_none _
  | claimed hget hmem env' => exact Option.some_ne_none _

theorem handler_createGoal (hs : w.store.WellFormed) (goal : GoalRecord) (event : SemanticEvent) (env : Supply) :
    (ReplayWorld.handler ⟨.createGoal goal event, env⟩ w).2 = w ∨ (w.store.goals.get? goal.goalId = none ∧
        (ReplayWorld.handler ⟨.createGoal goal event, env⟩ w).2.store.goals.get? goal.goalId ≠ none ∧
        (ReplayWorld.handler ⟨.createGoal goal event, env⟩ w).2.created = w.created ++ [.createGoal goal event]) := by
  have heffect : Effect env w.store (.createGoal goal event) ((StoreCall.mk (.createGoal goal event) env).result w.store) :=
    exec_effect env hs (.createGoal goal event)
  unfold ReplayWorld.handler
  generalize (StoreCall.mk (.createGoal goal event) env).result w.store = r at heffect
  cases heffect with
  | raised e => exact .inl rfl
  | read v h => cases h
  | goalCreated _ _ hfresh =>
    refine .inr ⟨hfresh, ?_, rfl⟩
    change (w.store.goals.set goal.goalId goal).get? goal.goalId ≠ none
    rw [InsertionDict.get?_set_self]
    exact Option.some_ne_none _

theorem handler_createWork (hs : w.store.WellFormed) (work : WorkRecord) (event : SemanticEvent) (env : Supply) :
    (ReplayWorld.handler ⟨.createWork work event, env⟩ w).2 = w ∨ (w.store.work.get? work.workId = none ∧
        (ReplayWorld.handler ⟨.createWork work event, env⟩ w).2.store.work.get? work.workId ≠ none ∧
        (ReplayWorld.handler ⟨.createWork work event, env⟩ w).2.created = w.created ++ [.createWork work event]) := by
  have heffect : Effect env w.store (.createWork work event) ((StoreCall.mk (.createWork work event) env).result w.store) :=
    exec_effect env hs (.createWork work event)
  unfold ReplayWorld.handler
  generalize (StoreCall.mk (.createWork work event) env).result w.store = r at heffect
  cases heffect with
  | raised e => exact .inl rfl
  | read v h => cases h
  | workCreated _ _ hfresh hgoal =>
    refine .inr ⟨hfresh, ?_, rfl⟩
    change (w.store.work.set work.workId work).get? work.workId ≠ none
    rw [InsertionDict.get?_set_self]
    exact Option.some_ne_none _

end Worlds

/-! ## The invariant -/

section Runs

variable (o : ReplayScope)

def ReplayScope.digest : String := (o.materializer .empty).identity o.sha256 o.decision

/-- At most one record was created, and one with a derived id is in the store. -/
structure AppliedOnce (w : ReplayWorld) : Prop where
  wellFormed : w.store.WellFormed
  once : w.created.length ≤ 1
  goal : w.created.length ≠ 0 → o.decision.action = .createGoal → w.store.goals.get? ⟨"goal_" ++ o.digest⟩ ≠ none
  work : w.created.length ≠ 0 → o.decision.action = .createWork → w.store.work.get? ⟨"work_" ++ o.digest⟩ ≠ none

variable {o} {w : ReplayWorld}

theorem AppliedOnce.read (h : AppliedOnce o w) {c : StoreCall} (hread : creates c.op = false) :
    AppliedOnce o (ReplayWorld.handler c w).2 := by
  have hcreated := handler_created_of_read hread w
  refine ⟨?_, ?_, ?_, ?_⟩
  · rw [handler_store]
    exact wellFormed_step _ c h.wellFormed
  · rw [hcreated]
    exact h.once
  · rw [hcreated, handler_store]
    exact fun hsome haction => goal_stays h.wellFormed c (h.goal hsome haction)
  · rw [hcreated, handler_store]
    exact fun hsome haction => work_stays h.wellFormed c (h.work hsome haction)

/-- A Goal with the derived id is created only if none was created before. -/
theorem AppliedOnce.createGoal (h : AppliedOnce o w) (haction : o.decision.action = .createGoal) {goal : GoalRecord}
    (hid : goal.goalId = ⟨"goal_" ++ o.digest⟩) (event : SemanticEvent) (env : Supply) :
    AppliedOnce o (ReplayWorld.handler ⟨.createGoal goal event, env⟩ w).2 := by
  have hwf : (ReplayWorld.handler ⟨.createGoal goal event, env⟩ w).2.store.WellFormed := by
    rw [handler_store]
    exact wellFormed_step _ _ h.wellFormed
  rcases handler_createGoal h.wellFormed goal event env with hsame | ⟨hfresh, hpresent, hcreated⟩
  · rw [hsame]
    exact h
  · have hnone : w.created.length = 0 := by
      by_contra hsome
      rw [hid] at hfresh
      exact h.goal hsome haction hfresh
    refine ⟨hwf, ?_, ?_, ?_⟩
    · rw [hcreated, List.length_append, hnone]
      exact Nat.le_refl _
    · rw [hid] at hpresent
      exact fun _ _ => hpresent
    · intro _ hwork
      rw [haction] at hwork
      cases hwork

theorem AppliedOnce.createWork (h : AppliedOnce o w) (haction : o.decision.action = .createWork) {work : WorkRecord}
    (hid : work.workId = ⟨"work_" ++ o.digest⟩) (event : SemanticEvent) (env : Supply) :
    AppliedOnce o (ReplayWorld.handler ⟨.createWork work event, env⟩ w).2 := by
  have hwf : (ReplayWorld.handler ⟨.createWork work event, env⟩ w).2.store.WellFormed := by
    rw [handler_store]
    exact wellFormed_step _ _ h.wellFormed
  rcases handler_createWork h.wellFormed work event env with hsame | ⟨hfresh, hpresent, hcreated⟩
  · rw [hsame]
    exact h
  · have hnone : w.created.length = 0 := by
      by_contra hsome
      rw [hid] at hfresh
      exact h.work hsome haction hfresh
    refine ⟨hwf, ?_, ?_, ?_⟩
    · rw [hcreated, List.length_append, hnone]
      exact Nat.le_refl _
    · intro _ hgoal
      rw [haction] at hgoal
      cases hgoal
    · rw [hid] at hpresent
      exact fun _ _ => hpresent

def DerivedCall (o : ReplayScope) (c : StoreCall) : Prop :=
  creates c.op = false ∨
    (o.decision.action = .createGoal ∧ ∃ goal event, c.op = .createGoal goal event ∧ goal.goalId = ⟨"goal_" ++ o.digest⟩) ∨
    (o.decision.action = .createWork ∧ ∃ work event, c.op = .createWork work event ∧ work.workId = ⟨"work_" ++ o.digest⟩)

theorem appliedOnce_derivedCall (c : StoreCall) (w : ReplayWorld) (hc : DerivedCall o c) (h : AppliedOnce o w) :
    AppliedOnce o (ReplayWorld.handler c w).2 := by
  obtain ⟨op, env⟩ := c
  rcases hc with hread | ⟨haction, goal, event, hop, hid⟩ | ⟨haction, work, event, hop, hid⟩
  · exact h.read hread
  · change op = _ at hop
    subst hop
    exact h.createGoal haction hid event env
  · change op = _ at hop
    subst hop
    exact h.createWork haction hid event env

theorem taskRequests_call (hrevise : o.decision.action ≠ .reviseWork) (hask : o.decision.action ≠ .askUser)
    (memory : Memory) (env : Supply) : TaskRequests (DerivedCall o) (o.call memory env) := by
  refine taskRequests_materialize (fun _ h => .inl h) ?_ ?_ hrevise hask env
  · exact fun haction goal event env hid => .inr (.inl ⟨haction, goal, event, rfl, hid⟩)
  · exact fun haction work event env hid => .inr (.inr ⟨haction, work, event, rfl, hid⟩)

theorem appliedOnce_of_le (hcreate : o.decision.action = .reviseWork ∨ o.decision.action = .askUser)
    (hwf : w.store.WellFormed) (hle : w.created.length ≤ 1) : AppliedOnce o w := by
  refine ⟨hwf, hle, ?_, ?_⟩
  · intro _ haction
    rw [haction] at hcreate
    rcases hcreate with h | h <;> cases h
  · intro _ haction
    rw [haction] at hcreate
    rcases hcreate with h | h <;> cases h

theorem wellFormed_handler (c : StoreCall) (w : ReplayWorld) (_ : True) (h : w.store.WellFormed) :
    (ReplayWorld.handler c w).2.store.WellFormed := by
  rw [handler_store]
  exact wellFormed_step _ c h

variable {P : ReplayWorld → Prop}

theorem crashSafe_ask {op : StoreOp} {env : Supply} {Q : op.Result → ReplayWorld → Prop}
    (hsame : (ReplayWorld.handler ⟨op, env⟩ w).2 = w) (hQ : P w → ∀ v, (ReplayWorld.handler ⟨op, env⟩ w).1 = .ok v → Q v w) :
    CrashSafe ReplayWorld.handler (fun w' => w' = w) (fun _ w' => w' = w) P (ask op env) Q := by
  rintro s rfl hP
  refine ⟨rfl, hsame, ?_⟩
  intro v hv
  rw [hsame]
  exact hQ hP v hv

theorem crashSafe_ofExcept {α β : Type} {x : Except Exn α} {f : α → StoreTask β} {Q : β → ReplayWorld → Prop}
    (hf : ∀ a, x = .ok a → CrashSafe ReplayWorld.handler (fun w' => w' = w) (fun _ w' => w' = w) P (f a) Q) :
    CrashSafe ReplayWorld.handler (fun w' => w' = w) (fun _ w' => w' = w) P
      ((MonadExcept.ofExcept x : StoreTask α) >>= f) Q := by
  cases x with
  | ok a => exact hf a rfl
  | error e => exact crashSafe_throw

theorem crashSafe_lookupWork (target : PyValue) (env : Supply) :
    CrashSafe ReplayWorld.handler (fun w' => w' = w) (fun _ w' => w' = w) (fun _ => True)
      (lookupKey target fun workId => ask (.getWork ⟨workId⟩) env)
      (fun found _ => ∀ work, found = some work → ∃ workId, target = .str workId ∧ w.store.work.get? ⟨workId⟩ = some work) := by
  unfold lookupKey
  cases target with
  | str workId =>
    refine crashSafe_ask rfl ?_
    rintro - v hv work rfl
    exact ⟨workId, rfl, Except.ok.inj hv⟩
  | list xs => exact crashSafe_throw
  | dict entries => exact crashSafe_throw
  | none => exact crashSafe_pure fun _ _ _ h => (nomatch h)
  | bool b => exact crashSafe_pure fun _ _ _ h => (nomatch h)
  | int n => exact crashSafe_pure fun _ _ _ h => (nomatch h)

theorem handler_createQuestion_pending (hwf : w.store.WellFormed) {question : QuestionRecordSemantic} {workId : WorkId}
    (hwork : question.workId = some workId) (hstatus : question.status = .pending)
    (hpending : ∃ q ∈ w.store.questions.values, q.workId = some workId ∧ q.status = .pending) (env : Supply) :
    (ReplayWorld.handler ⟨.createQuestion question, env⟩ w).2 = w := by
  have heffect : Effect env w.store (.createQuestion question) ((StoreCall.mk (.createQuestion question) env).result w.store) :=
    exec_effect env hwf (.createQuestion question)
  unfold ReplayWorld.handler
  generalize (StoreCall.mk (.createQuestion question) env).result w.store = r at heffect
  cases heffect with
  | raised e => rfl
  | read v h => cases h
  | questionCreated _ hfresh hclash =>
    obtain ⟨q, hq, hqwork, hqpending⟩ := hpending
    exact absurd hqpending (hclash hstatus workId hwork q hq hqwork)

/-- A question that is refused leaves everything as it is. -/
theorem crashSafe_refused (hwf : w.store.WellFormed) (hrefused : o.RefusesQuestion w.store) (env : Supply) :
    CrashSafe ReplayWorld.handler (fun w' => w' = w) (fun _ w' => w' = w) (fun _ => True)
      (DecisionMaterializer.askUser env o.decision) (fun _ _ => True) := by
  unfold DecisionMaterializer.askUser
  refine crashSafe_ofExcept fun target htarget => ?_
  refine (crashSafe_lookupWork target _).bind fun found => ?_
  cases found with
  | none => exact crashSafe_throw
  | some work =>
    dsimp only
    split
    · exact crashSafe_throw
    · next hopen =>
      refine crashSafe_ofExcept fun question _ => ?_
      refine CrashSafe.bind (Q := fun _ _ => True) ?_ fun _ => crashSafe_pure fun _ _ => trivial
      intro s hs hfound
      obtain ⟨workId, rfl, hwork⟩ := hfound work rfl
      have hpayload : o.decision.payload.get? "target_work_id" = some (.str workId) := by
        unfold Decision.value at htarget
        split at htarget
        · next v hv =>
          cases htarget
          exact hv
        · cases htarget
      rcases hrefused workId hpayload with hover | hpending
      · exact absurd (hover work hwork) hopen
      · refine crashSafe_ask (P := fun _ => True) (handler_createQuestion_pending hwf rfl rfl hpending _) ?_ s hs trivial
        exact fun _ _ _ => trivial

theorem materialize_of_unrecorded {m : DecisionMaterializer} {sha256 : String → String} {env : Supply} {d : Decision}
    (h : m.recorded (env.sub 0) d = pure none) :
    m.materialize sha256 env d = (match m.applied.get? d.decisionId with
      | some result => return ({ result with alreadyApplied := true }, m)
      | none => do
        let (result, m) ← m.dispatch sha256 (env.sub 1) d
        return (result, { m with applied := m.applied.set d.decisionId result })) := by
  unfold DecisionMaterializer.materialize
  rw [h]
  rfl

theorem crashSafe_call (haction : o.decision.action = .askUser) (hwf : w.store.WellFormed)
    (hrefused : o.RefusesQuestion w.store) (memory : Memory) (env : Supply) :
    CrashSafe ReplayWorld.handler (fun w' => w' = w) (fun _ w' => w' = w) (fun _ => True) (o.call memory env)
      (fun _ _ => True) := by
  have hnone : (o.materializer memory).recorded (env.sub 0) o.decision = pure none := by
    unfold DecisionMaterializer.recorded
    rw [haction, if_neg (by decide)]
  unfold ReplayScope.call
  rw [materialize_of_unrecorded hnone]
  cases (o.materializer memory).applied.get? o.decision.decisionId with
  | some result => exact crashSafe_pure fun _ _ => trivial
  | none =>
    dsimp only
    unfold DecisionMaterializer.dispatch
    rw [haction]
    refine CrashSafe.bind (Q := fun _ _ => True) ?_ fun _ => crashSafe_pure fun _ _ => trivial
    exact (crashSafe_refused hwf hrefused _).bind fun _ => crashSafe_pure fun _ _ => trivial

/-! ## Whole runs -/

/-- What a call leaves, whether it runs to its end or stops. -/
theorem appliedOnce_call (h : AppliedOnce o w) {memory : Memory}
    (hremembered : (o.decision.action ≠ .reviseWork ∧ o.decision.action ≠ .askUser) ∨
      memory.applied.contains o.decision.decisionId = true ∨ w.created.length = 0 ∨
      (o.decision.action = .askUser ∧ o.RefusesQuestion w.store)) (env : Supply) :
    AppliedOnce o (evalTask ReplayWorld.handler (o.call memory env) w).2 ∧
      ∀ n, AppliedOnce o (cutTask ReplayWorld.handler n (o.call memory env) w) := by
  by_cases hderived : o.decision.action ≠ .reviseWork ∧ o.decision.action ≠ .askUser
  · have hrequests := taskRequests_call hderived.1 hderived.2 memory env
    refine ⟨(OnlyRequests.allPoints appliedOnce_derivedCall hrequests h).eval, ?_⟩
    exact fun n => OnlyRequests.cut appliedOnce_derivedCall hrequests h n
  · have hcreate : o.decision.action = .reviseWork ∨ o.decision.action = .askUser := by
      rw [not_and_or, not_not, not_not] at hderived
      exact hderived
    rcases hremembered with hderived' | happlied | hnone | ⟨haction, hrefused⟩
    · exact absurd hderived' hderived
    · obtain ⟨result, hresult⟩ := Option.isSome_iff_exists.mp happlied
      have hpure : o.call memory env = pure ({ result with alreadyApplied := true }, o.materializer memory) :=
        materialize_of_applied hcreate hresult env
      rw [hpure]
      refine ⟨h, ?_⟩
      intro n
      cases n <;> exact h
    · have hwf : ∀ p : Prog StoreCall (fun c => Except Exn c.op.Result)
          (Except Exn (MaterializationResult × DecisionMaterializer)),
          (p.eval ReplayWorld.handler w).2.store.WellFormed ∧ ∀ n, (p.cut ReplayWorld.handler n w).store.WellFormed := by
        intro p
        have hall := onlyRequests_true p
        exact ⟨(OnlyRequests.allPoints wellFormed_handler hall h.wellFormed).eval,
          fun n => OnlyRequests.cut wellFormed_handler hall h.wellFormed n⟩
      have hone : RequestsAtMost _ 1 (o.call memory env).run := requestsAtMost_materialize hcreate env
      refine ⟨appliedOnce_of_le hcreate (hwf _).1 ?_, fun n => appliedOnce_of_le hcreate ((hwf _).2 n) ?_⟩
      · have hle := count_eval_le (f := fun w : ReplayWorld => w.created.length) handler_created_le hone w
        rwa [hnone] at hle
      · have hle := count_cut_le (f := fun w : ReplayWorld => w.created.length) handler_created_le hone w n
        rwa [hnone] at hle
    · have hsafe := crashSafe_call haction h.wellFormed hrefused memory env w rfl trivial
      refine ⟨?_, ?_⟩
      · have hend := hsafe.eval.1
        change (evalTask ReplayWorld.handler (o.call memory env) w).2 = w at hend
        rw [hend]
        exact h
      · intro n
        have hsame : cutTask ReplayWorld.handler n (o.call memory env) w = w := by
          rcases hsafe.cut n with ⟨_, -, hat⟩ | ⟨-, _, hat, -⟩
          · exact hat
          · exact hat
        rw [hsame]
        exact h

theorem appliedOnce_step (w : Replay) (input : ReplayInput) (h : AppliedOnce o w.world)
    (hremembered : o.Remembered w input) : AppliedOnce o (o.step w input).world := by
  cases input with
  | other call =>
    refine ⟨wellFormed_step _ call h.wellFormed, h.once, ?_, ?_⟩
    · exact fun hsome haction => goal_stays h.wellFormed call (h.goal hsome haction)
    · exact fun hsome haction => work_stays h.wellFormed call (h.work hsome haction)
  | materialize env =>
    have hcall := (appliedOnce_call h hremembered env).1
    unfold ReplayScope.step
    dsimp only
    generalize evalTask ReplayWorld.handler (o.call w.memory env) w.world = r at hcall
    obtain ⟨result, world⟩ := r
    cases result with
    | ok value => exact hcall
    | error e => exact hcall
  | crash n env => exact (appliedOnce_call h hremembered env).2 n
  | restart => exact h

/-- At most one record is created for a decision in a run in which no process that does not remember it repeats one of the
two actions. -/
theorem decision_applied_once (o : ReplayScope) (s : InMemoryStore) (hs : StoreReachable s) (inputs : List ReplayInput)
    (hrun : MachineRuns.EveryStep o.step o.Remembered ⟨⟨s, []⟩, .empty⟩ inputs) :
    (MachineRuns.run o.step ⟨⟨s, []⟩, .empty⟩ inputs).world.created.length ≤ 1 := by
  have hstart : AppliedOnce o ⟨s, []⟩ := by
    refine ⟨hs.wellFormed, Nat.zero_le 1, ?_, ?_⟩
    · exact fun hsome => absurd rfl hsome
    · exact fun hsome => absurd rfl hsome
  exact (MachineRuns.invariant_of_everyStep (I := fun w : Replay => AppliedOnce o w.world) appliedOnce_step hstart hrun).once

/-- A Goal is asked for twice, by two processes, of which the first stops before it returns. -/
def goalScope : ReplayScope where
  sha256 := fun text => text
  userId := "u1"
  actor := executorActor
  decision := { decisionId := "d1", action := .createGoal, summary := "s", reason := "r", evidenceRefs := []
                payload := InsertionDict.empty.set "title" (.str "Ship"), promptVersion := "p1" }

theorem goalScope_applied_once :
    (MachineRuns.run goalScope.step ⟨⟨.empty, []⟩, .empty⟩ [.crash 2 frozenSupply, .materialize frozenSupply]).world.created.length ≤
      1 := by
  refine decision_applied_once goalScope .empty (.refl _) [.crash 2 frozenSupply, .materialize frozenSupply] ?_
  rintro before (call | env | ⟨n, env⟩ | -) after -
  · trivial
  · exact .inl ⟨by decide, by decide⟩
  · exact .inl ⟨by decide, by decide⟩
  · trivial

def cancelledCalls : List StoreCall :=
  seedCalls ++ [⟨.transitionWorkStatus ⟨"work_1"⟩ .cancelled 1 sampleEvent none, frozenSupply⟩]

def reviseScope : ReplayScope where
  sha256 := fun text => text
  userId := "u1"
  actor := executorActor
  decision := { decisionId := "d1", action := .reviseWork, summary := "s", reason := "r", evidenceRefs := []
                payload := (InsertionDict.empty.set "target_work_id" (.str "work_1")).set "revision_intent" (.str "fix")
                promptVersion := "p1" }

theorem restart_creates_two_successors :
    ¬∀ (o : ReplayScope) (s : InMemoryStore), StoreReachable s → ∀ inputs : List ReplayInput,
      (MachineRuns.run o.step ⟨⟨s, []⟩, .empty⟩ inputs).world.created.length ≤ 1 := by
  intro h
  have hle := h reviseScope (MachineRuns.run storeStep .empty cancelledCalls) ⟨cancelledCalls, rfl⟩
    [.materialize (fun _ => ⟨0, "a"⟩), .restart, .materialize (fun _ => ⟨0, "b"⟩)]
  have htwo : (MachineRuns.run reviseScope.step ⟨⟨MachineRuns.run storeStep .empty cancelledCalls, []⟩, .empty⟩
      [.materialize (fun _ => ⟨0, "a"⟩), .restart, .materialize (fun _ => ⟨0, "b"⟩)]).world.created.length = 2 := by rfl
  rw [htwo] at hle
  omega

end Runs

end Researcher

end AllTomorrow
