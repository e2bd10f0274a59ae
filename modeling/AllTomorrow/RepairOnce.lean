import AllTomorrow.RepairRegister
import AllTomorrow.BrokenWork

/-!
# Broken Work, dealt with once

Operators list, retry and clean up the Works of a user, act on the repair register, and other parts
of the program call the store meanwhile. A retry makes a new Work. When a Work gets one replacement
at most, none after it was abandoned, and only if it is broken.
-/

namespace AllTomorrow

open InsertionDict (contains_eq_false_iff contains_iff get?_set_self)

open InMemoryStore Prog EStateM MachineRuns

def StoreOp.givenEvent : StoreOp → Option SemanticEvent
  | .appendEvent event | .createGoal _ event | .transitionGoalStatus _ _ _ event _ | .createWork _ event
  | .transitionWorkStatus _ _ _ event _ | .createRun _ event | .attachExecutionRef _ _ _ event
  | .transitionRunStatus _ _ _ event _ => some event
  | _ => none

/-- A store call of another part of the program: `retry_broken_work` alone writes `work.retried`. -/
structure OtherCall where
  call : StoreCall
  other : ∀ event, call.op.givenEvent = some event → event.type ≠ EventType.workRetried.value

inductive BrokenOp where
  | listBrokenWork (user : String)
  | retryBrokenWork (user workId operator : String)
  | cleanUpBrokenWork (user workId operator : String)
  | repair (op : RepairOp)
  | elsewhere (call : OtherCall)

structure BrokenCall where
  op : BrokenOp
  env : Supply

structure BrokenRun (π : Type) where
  world : ServiceWorld π
  /-- the Works that a retry has replaced, once for each replacement -/
  replaced : List String
  abandoned : List String

def InMemoryStore.creates (s s' : InMemoryStore) : Bool := s'.work.entries.any fun e => !s.work.contains e.1

namespace BrokenRun

variable {π : Type} (ext : Externals π)

def retried (h : BrokenRun π) (workId : String) (w : ServiceWorld π) : BrokenRun π :=
  { h with world := w, replaced := if h.world.store.creates w.store then h.replaced ++ [workId] else h.replaced }

def cleanedUp (h : BrokenRun π) (workId : String) (result : Except Exn Unit × ServiceWorld π) : BrokenRun π :=
  match result.1 with
  | .error (.notFound _) => { h with world := result.2 }
  | _ => { h with world := result.2, abandoned := h.abandoned ++ ["repair:" ++ workId] }

def repaired (h : BrokenRun π) (op : RepairOp) (result : EStateM.Result Exn RepairService Unit) : BrokenRun π :=
  let h' := { h with world := { h.world with repair := result.state } }
  match op, result.outcome with
  | .abandon repairId _, .ok _ => { h' with abandoned := h.abandoned ++ [repairId] }
  | _, _ => h'

def step (h : BrokenRun π) (c : BrokenCall) : BrokenRun π :=
  match c.op with
  | .listBrokenWork user =>
    { h with world := (evalTask (ServiceWorld.handler ext) (WebControl.listBrokenWork c.env user) h.world).2 }
  | .retryBrokenWork user workId operator =>
    h.retried workId (evalTask (ServiceWorld.handler ext) (WebControl.retryBrokenWork c.env user workId operator) h.world).2
  | .cleanUpBrokenWork user workId operator =>
    h.cleanedUp workId (evalTask (ServiceWorld.handler ext) (WebControl.cleanUpBrokenWork c.env user workId operator) h.world)
  | .repair op => h.repaired op (RepairService.call ⟨op, c.env⟩ h.world.repair)
  | .elsewhere other => { h with world := { h.world with store := storeStep h.world.store other.call } }

def start (devices : DeviceTables) (outside : π) : BrokenRun π :=
  ⟨⟨.empty, .empty, .init, devices, outside⟩, [], []⟩

def Replaces (h : BrokenRun π) (c : BrokenCall) (workId : String) : Prop :=
  ∃ user operator, c.op = .retryBrokenWork user workId operator ∧ h.world.store.creates (step ext h c).world.store = true

/-- A Work is replaced once, unless it was abandoned, and if it is broken. -/
def OnceOnly (h : BrokenRun π) (c : BrokenCall) : Prop :=
  ∀ workId, Replaces ext h c workId → workId ∉ h.replaced ∧ "repair:" ++ workId ∉ h.abandoned ∧
    ∃ work, h.world.store.work.get? ⟨workId⟩ = some work ∧ h.world.store.broken work = true

end BrokenRun

def InMemoryStore.Owned (s : InMemoryStore) (user workId : String) : Prop :=
  ∃ work goal, s.work.get? ⟨workId⟩ = some work ∧ s.goals.get? work.goalId = some goal ∧ goal.userId = user

structure RetryAccepted {π : Type} (w : ServiceWorld π) (env : Supply) (user workId operator : String) : Prop where
  owned : w.store.Owned user workId
  safe : ∀ item, w.repair.items.get? ("repair:" ++ workId) = some item → item.safeToRetry = true
  named : PyText.isBlank operator = false
  fresh : w.store.work.get? (newWorkId (env.sub 3)) = none

def SemanticEvent.IsRetryOf (event : SemanticEvent) (workId : String) : Prop :=
  event.type = EventType.workRetried.value ∧ event.payload.get? "retried_from" = some (.str workId)

def RepairService.Abandoned (r : RepairService) (repairId : String) : Prop :=
  ∃ a ∈ r.audit, a.repairId = repairId ∧ a.action = "abandon"

namespace BrokenRun

variable {π : Type}

/-- A retry that is let through meets a broken Work that the event log has no retry of and the audit trail no
abandonment. -/
def Careful (h : BrokenRun π) (c : BrokenCall) : Prop :=
  ∀ user workId operator, c.op = .retryBrokenWork user workId operator → RetryAccepted h.world c.env user workId operator →
    (∃ work, h.world.store.work.get? ⟨workId⟩ = some work ∧ h.world.store.broken work = true) ∧
      (∀ event ∈ h.world.store.events, ¬event.IsRetryOf workId) ∧ ¬h.world.repair.Abandoned ("repair:" ++ workId)

end BrokenRun

/-! ## What the store operations add -/

section Store

variable {s : InMemoryStore} {env : Supply}

theorem creates_iff {s' : InMemoryStore} : s.creates s' = true ↔ ∃ k v, s'.work.get? k = some v ∧ s.work.get? k = none := by
  unfold InMemoryStore.creates
  rw [List.any_eq_true]
  constructor
  · rintro ⟨⟨k, v⟩, hmem, hnew⟩
    rw [Bool.not_eq_true', contains_eq_false_iff] at hnew
    exact ⟨k, v, InsertionDict.get?_of_mem_entries hmem, hnew⟩
  · rintro ⟨k, v, hget, hnew⟩
    refine ⟨(k, v), InsertionDict.mem_entries_of_get? hget, ?_⟩
    rwa [Bool.not_eq_true', contains_eq_false_iff]

theorem creates_self : s.creates s = false := by
  rw [Bool.eq_false_iff]
  intro h
  obtain ⟨k, v, hget, hnone⟩ := creates_iff.mp h
  cases hnone.symm.trans hget

def InMemoryStore.Unretried (s s' : InMemoryStore) : Prop :=
  ∃ new, s'.events = s.events ++ new ∧ ∀ event ∈ new, event.type ≠ EventType.workRetried.value

theorem unretried_refl (s : InMemoryStore) : s.Unretried s := ⟨[], by rw [List.append_nil], by simp⟩

theorem type_claimedEvents (candidates : List WorkRecord) :
    ∀ event ∈ claimedEvents env candidates, event.type = "work.claimed" := by
  induction candidates generalizing env with
  | nil => intro event h; cases h
  | cons w rest ih =>
    intro event hevent
    rcases List.mem_cons.mp hevent with rfl | hrest
    · rfl
    · exact ih event hrest

theorem unretried_exec (hs : s.WellFormed) (op : StoreOp)
    (hother : ∀ event, op.givenEvent = some event → event.type ≠ EventType.workRetried.value) :
    s.Unretried ((op.exec env).run s).state := by
  have heffect := exec_effect env hs op
  generalize (op.exec env).run s = r at heffect
  have hgiven {event : SemanticEvent} (h : op.givenEvent = some event) {s' : InMemoryStore}
      (hevents : s'.events = s.events ++ [event]) : s.Unretried s' :=
    ⟨[event], hevents, by simpa using hother event h⟩
  cases heffect with
  | raised | read | eventRepeated | refReattached | questionCreated | questionAnswered => exact unretried_refl s
  | eventAppended | goalCreated | goalMoved | workCreated | workMoved | workSucceeded | runCreated | refAttached
  | runMoved => exact hgiven rfl rfl
  | workClaimed limit =>
    refine ⟨_, rfl, fun event hevent => ?_⟩
    rw [type_claimedEvents _ event hevent]
    decide

variable (event : SemanticEvent)

theorem run_createWork {work : WorkRecord} {goal : GoalRecord}
    (hfresh : s.work.get? work.workId = none) (hgoal : s.goals.get? work.goalId = some goal) :
    (InMemoryStore.createWork work event).run s =
      .ok work { s with work := s.work.set work.workId work, events := s.events ++ [event] } := by
  have hnew : s.work.contains work.workId = false := contains_eq_false_iff.mpr hfresh
  have hheld : s.goals.contains work.goalId = true := contains_iff.mpr ⟨goal, hgoal⟩
  unfold InMemoryStore.createWork
  simp only [EStateM.run_bind, EStateM.run_get, hnew, hheld, Bool.not_true, Bool.false_eq_true, ↓reduceIte,
    EStateM.run_modify]
  rfl

theorem run_createWork_again {work held : WorkRecord} (hget : s.work.get? work.workId = some held) :
    (InMemoryStore.createWork work event).run s = .error (.storeConflictError ("work already exists: " ++ work.workId.val)) s := by
  have hheld : s.work.contains work.workId = true := contains_iff.mpr ⟨held, hget⟩
  unfold InMemoryStore.createWork
  simp only [EStateM.run_bind, EStateM.run_get, hheld, ↓reduceIte]
  rfl

end Store

/-! ## What the two calls do -/

def WebControl.replacement (env : Supply) (work : WorkRecord) (workId operator : String) : ServiceTask WorkId := do
  let newWork : WorkRecord :=
    { workId := newWorkId (env.sub 3), goalId := work.goalId, title := work.title,
      createdAt := (env.sub 3).utcNow, updatedAt := (env.sub 3).utcNow }
  let actor ← WebControl.operatorActor operator
  let _ ← callStore
    (.createWork newWork
      (evt (env.sub 4) actor .workRetried (some work.goalId) (some newWork.workId) none
        (InsertionDict.empty.set "retried_from" (.str workId))))
    (env.sub 5)
  return newWork.workId

section Programs

variable {π : Type} {ext : Externals π} {w : ServiceWorld π} {env : Supply} {user workId operator : String}

structure Untouched (w w' : ServiceWorld π) : Prop where
  store : w'.store = w.store
  quiet : w.repair.Quiet w'.repair

theorem untouched_refl (w : ServiceWorld π) : Untouched w w := ⟨rfl, RepairService.quiet_of_audit_eq rfl⟩

variable {goal : GoalRecord}

theorem evalTask_ownedGoal {goalId : GoalId} (hget : w.store.goals.get? goalId = some goal) (howner : goal.userId = user) :
    evalTask (ServiceWorld.handler ext) (WebControl.ownedGoal env user goalId.val) w = (.ok goal, w) := by
  have hcall : evalTask (ServiceWorld.handler ext) (callStore (.getGoal ⟨goalId.val⟩) env) w =
      (.ok (w.store.goals.get? goalId), w) := rfl
  unfold WebControl.ownedGoal
  rw [evalTask_bind_ok hcall, hget]
  dsimp only
  rw [if_neg (not_not.mpr howner)]
  rfl

theorem evalTask_ownedGoal_raises {goalId : GoalId}
    (hno : ∀ goal, w.store.goals.get? goalId = some goal → goal.userId ≠ user) :
    evalTask (ServiceWorld.handler ext) (WebControl.ownedGoal env user goalId.val) w =
      (.error (.notFound goalId.val), w) := by
  have hcall : evalTask (ServiceWorld.handler ext) (callStore (.getGoal ⟨goalId.val⟩) env) w =
      (.ok (w.store.goals.get? goalId), w) := rfl
  unfold WebControl.ownedGoal
  rw [evalTask_bind_ok hcall]
  cases hget : w.store.goals.get? goalId with
  | none => rfl
  | some goal =>
    dsimp only
    rw [if_pos (hno goal hget)]
    rfl

/-- Both calls begin by looking for the Work and its Goal. -/
theorem evalTask_found (env : Supply) (user workId : String) {β : Type} {f : WorkRecord → GoalRecord → ServiceTask β} :
    (∃ work goal, w.store.work.get? ⟨workId⟩ = some work ∧ w.store.goals.get? work.goalId = some goal ∧
      goal.userId = user ∧ evalTask (ServiceWorld.handler ext) (do
        match ← callStore (.getWork ⟨workId⟩) (env.sub 0) with
        | none => throw (Exn.notFound workId)
        | some work =>
          let goal ← WebControl.ownedGoal (env.sub 1) user work.goalId.val
          f work goal) w = evalTask (ServiceWorld.handler ext) (f work goal) w) ∨
    (¬w.store.Owned user workId ∧ ∃ text, evalTask (ServiceWorld.handler ext) (do
        match ← callStore (.getWork ⟨workId⟩) (env.sub 0) with
        | none => throw (Exn.notFound workId)
        | some work =>
          let goal ← WebControl.ownedGoal (env.sub 1) user work.goalId.val
          f work goal) w = (.error (.notFound text), w)) := by
  have hcall : evalTask (ServiceWorld.handler ext) (callStore (.getWork ⟨workId⟩) (env.sub 0)) w =
      (.ok (w.store.work.get? ⟨workId⟩), w) := rfl
  rw [evalTask_bind_ok hcall]
  cases hwork : w.store.work.get? ⟨workId⟩ with
  | none =>
    refine .inr ⟨?_, workId, rfl⟩
    rintro ⟨work, goal, hget, -⟩
    cases hwork.symm.trans hget
  | some work =>
    dsimp only
    by_cases howned : ∃ goal, w.store.goals.get? work.goalId = some goal ∧ goal.userId = user
    · obtain ⟨goal, hgoal, howner⟩ := howned
      exact .inl ⟨work, goal, rfl, hgoal, howner, evalTask_bind_ok (evalTask_ownedGoal hgoal howner) _⟩
    · refine .inr ⟨?_, work.goalId.val, ?_⟩
      · rintro ⟨work', goal, hget, hgoal, howner⟩
        cases hwork.symm.trans hget
        exact howned ⟨goal, hgoal, howner⟩
      · refine evalTask_bind_error (evalTask_ownedGoal_raises fun goal hgoal howner => ?_) _
        exact howned ⟨goal, hgoal, howner⟩

structure Replaced (w : ServiceWorld π) (env : Supply) (workId : String) (w' : ServiceWorld π) : Prop where
  work : ∃ v, w'.store.work = w.store.work.set (newWorkId (env.sub 3)) v
  event : ∃ event : SemanticEvent, w'.store.events = w.store.events ++ [event] ∧ event.IsRetryOf workId
  quiet : w.repair.Quiet w'.repair
  wellFormed : w'.store.WellFormed

theorem Replaced.creates {w' : ServiceWorld π} (hr : Replaced w env workId w') (ha : RetryAccepted w env user workId operator) :
    w.store.creates w'.store = true := by
  obtain ⟨v, hv⟩ := hr.work
  exact creates_iff.mpr ⟨_, v, by rw [hv, get?_set_self], ha.fresh⟩

theorem evalTask_retryBroken (ext : Externals π) (w : ServiceWorld π) (env : Supply) (workId operator : String) :
    evalTask (ServiceWorld.handler ext) (request (.retryBroken env workId operator) id) w =
      (((RepairService.retryBroken env workId operator).run w.repair).outcome,
        { w with repair := ((RepairService.retryBroken env workId operator).run w.repair).state }) := rfl

/-- What follows after the register. -/
theorem evalTask_replacement (ext : Externals π) (env : Supply) (workId operator : String) (hs : w.store.WellFormed) {work : WorkRecord}
    (hgoal : w.store.goals.get? work.goalId = some goal) :
    (PyText.isBlank operator = false ∧ w.store.work.get? (newWorkId (env.sub 3)) = none ∧
        Replaced w env workId (evalTask (ServiceWorld.handler ext) (WebControl.replacement env work workId operator) w).2) ∨
      ¬(PyText.isBlank operator = false ∧ w.store.work.get? (newWorkId (env.sub 3)) = none) ∧
        (evalTask (ServiceWorld.handler ext) (WebControl.replacement env work workId operator) w).2 = w := by
  unfold WebControl.replacement WebControl.operatorActor
  by_cases hblank : PyText.isBlank operator = true
  · rw [dif_pos hblank]
    refine .inr ⟨fun h => ?_, rfl⟩
    cases hblank.symm.trans h.1
  rw [dif_neg hblank]
  have hstore (op : StoreOp) : evalTask (ServiceWorld.handler ext) (callStore op (env.sub 5)) w =
      (((op.exec (env.sub 5)).run w.store).outcome, { w with store := ((op.exec (env.sub 5)).run w.store).state }) := rfl
  let newWork : WorkRecord :=
    { workId := newWorkId (env.sub 3), goalId := work.goalId, title := work.title,
      createdAt := (env.sub 3).utcNow, updatedAt := (env.sub 3).utcNow }
  let event := evt (env.sub 4) ⟨operator, PyText.isBlank_eq_false hblank⟩ .workRetried (some work.goalId)
    (some newWork.workId) none (InsertionDict.empty.set "retried_from" (.str workId))
  cases hheld : w.store.work.get? (newWorkId (env.sub 3)) with
  | none =>
    have hrun : ((StoreOp.createWork newWork event).exec (env.sub 5)).run w.store = _ :=
      run_createWork event hheld hgoal
    have hcall := hstore (.createWork newWork event)
    rw [hrun] at hcall
    have heval := evalTask_bind_ok hcall fun _ => (pure newWork.workId : ServiceTask WorkId)
    have hstate : (evalTask (ServiceWorld.handler ext)
        (callStore (.createWork newWork event) (env.sub 5) >>= fun _ => (pure newWork.workId : ServiceTask WorkId)) w).2 =
        { w with store :=
            { w.store with work := w.store.work.set newWork.workId newWork, events := w.store.events ++ [event] } } :=
      congrArg Prod.snd heval
    refine .inl ⟨Bool.not_eq_true _ |>.mp hblank, rfl, ?_⟩
    change Replaced w env workId (evalTask (ServiceWorld.handler ext)
        (callStore (.createWork newWork event) (env.sub 5) >>= fun _ => (pure newWork.workId : ServiceTask WorkId)) w).2
    rw [hstate]
    have hkept := (exec_effect (env.sub 5) hs (.createWork newWork event)).wellFormed hs
    rw [hrun] at hkept
    exact ⟨⟨newWork, rfl⟩, ⟨event, rfl, rfl, get?_set_self _ _ _⟩, RepairService.quiet_of_audit_eq rfl, hkept⟩
  | some held =>
    have hrun : ((StoreOp.createWork newWork event).exec (env.sub 5)).run w.store = _ :=
      run_createWork_again event hheld
    have hcall := hstore (.createWork newWork event)
    rw [hrun] at hcall
    refine .inr ⟨fun h => (by cases h.2), ?_⟩
    exact congrArg Prod.snd (evalTask_bind_error hcall fun _ => (pure newWork.workId : ServiceTask WorkId))

theorem retryBrokenWork_cases (ext : Externals π) (env : Supply) (user workId operator : String) (hs : w.store.WellFormed) :
    RetryAccepted w env user workId operator ∧
        Replaced w env workId (evalTask (ServiceWorld.handler ext) (WebControl.retryBrokenWork env user workId operator) w).2 ∨
      ¬RetryAccepted w env user workId operator ∧
        Untouched w (evalTask (ServiceWorld.handler ext) (WebControl.retryBrokenWork env user workId operator) w).2 := by
  rcases evalTask_found (w := w) env user workId
      (f := fun work _ => do
        request (.retryBroken (env.sub 2) workId operator) id
        WebControl.replacement env work workId operator) with ⟨work, goal, hwork, hgoal, howner, heval⟩ | ⟨hno, text, heval⟩
  · change evalTask _ (WebControl.retryBrokenWork env user workId operator) w = _ at heval
    rw [heval]
    have howned : w.store.Owned user workId := ⟨work, goal, hwork, hgoal, howner⟩
    have hregister := RepairService.ends_retryBroken (r := w.repair) (env.sub 2) workId operator
    have hcall := evalTask_retryBroken ext w (env.sub 2) workId operator
    change evalTask (ServiceWorld.handler ext) _ w = ((RepairService.retryBroken (env.sub 2) workId operator w.repair).outcome,
      { w with repair := (RepairService.retryBroken (env.sub 2) workId operator w.repair).state }) at hcall
    unfold Ends at hregister
    generalize RepairService.retryBroken (env.sub 2) workId operator w.repair = register at hregister hcall
    cases register with
    | error e r' =>
      obtain ⟨hquiet, -, item, hitem, hunsafe⟩ := hregister
      rw [evalTask_bind_error hcall]
      refine .inr ⟨fun h => ?_, rfl, hquiet⟩
      cases hunsafe.symm.trans (h.safe item hitem)
    | ok _ r' =>
      obtain ⟨hquiet, -, hsafe⟩ := hregister
      rw [evalTask_bind_ok hcall]
      rcases evalTask_replacement (w := { w with repair := r' }) ext env workId operator hs hgoal with ⟨hnamed, hfresh, hreplaced⟩ | ⟨hno, hsame⟩
      · refine .inl ⟨⟨howned, hsafe, hnamed, hfresh⟩, hreplaced.work, hreplaced.event, ?_, hreplaced.wellFormed⟩
        exact RepairService.Quiet.trans hquiet hreplaced.quiet
      · refine .inr ⟨fun h => hno ⟨h.named, h.fresh⟩, ?_⟩
        change Untouched w (evalTask (ServiceWorld.handler ext) (WebControl.replacement env work workId operator)
          { w with repair := r' }).2
        rw [hsame]
        exact ⟨rfl, hquiet⟩
  · change evalTask _ (WebControl.retryBrokenWork env user workId operator) w = _ at heval
    rw [heval]
    exact .inr ⟨fun h => hno h.owned, untouched_refl w⟩

def WebControl.cancellation (env : Supply) (work : WorkRecord) (operator : String) : ServiceTask Unit :=
  if work.status = .running ∨ work.status = .waiting ∨ work.status = .pending then
    ignoreDomainErrors (WebControl.cancelBroken env work operator)
  else return ()

/-- The call did not end in `NotFound`, and the store has no new event of a retry. -/
structure Abandoning (w : ServiceWorld π) (result : Except Exn Unit × ServiceWorld π) : Prop where
  found : ∀ text, result.1 ≠ .error (.notFound text)
  wellFormed : result.2.store.WellFormed
  events : w.store.Unretried result.2.store
  repair : result.2.repair = w.repair

theorem evalTask_ignoreDomainErrors (ext : Externals π) (w : ServiceWorld π) {α : Type} (x : ServiceTask α) :
    (evalTask (ServiceWorld.handler ext) (ignoreDomainErrors x) w).2 = (evalTask (ServiceWorld.handler ext) x w).2 ∧
      ∀ e, (evalTask (ServiceWorld.handler ext) (ignoreDomainErrors x) w).1 = .error e → e.isDomainError = false := by
  unfold ignoreDomainErrors
  rw [evalTask_bind_ok (evalTask_attempt _ x w)]
  cases (evalTask (ServiceWorld.handler ext) x w).1 with
  | ok _ => exact ⟨rfl, fun e h => by cases h⟩
  | error e =>
    dsimp only
    cases hdomain : e.isDomainError with
    | true => exact ⟨rfl, fun e h => by cases h⟩
    | false =>
      refine ⟨rfl, fun e' h => ?_⟩
      cases h
      exact hdomain

theorem abandoning_cancellation (hs : w.store.WellFormed) (work : WorkRecord) :
    Abandoning w (evalTask (ServiceWorld.handler ext) (WebControl.cancellation env work operator) w) := by
  unfold WebControl.cancellation
  split
  swap
  · exact ⟨fun _ h => (by cases h), hs, unretried_refl _, rfl⟩
  obtain ⟨hstate, hraised⟩ := evalTask_ignoreDomainErrors ext w (WebControl.cancelBroken env work operator)
  have hcancel : (evalTask (ServiceWorld.handler ext) (WebControl.cancelBroken env work operator) w).2.store.WellFormed ∧
      w.store.Unretried (evalTask (ServiceWorld.handler ext) (WebControl.cancelBroken env work operator) w).2.store ∧
      (evalTask (ServiceWorld.handler ext) (WebControl.cancelBroken env work operator) w).2.repair = w.repair := by
    unfold WebControl.cancelBroken WebControl.operatorActor
    by_cases hblank : PyText.isBlank operator = true
    · rw [dif_pos hblank]
      exact ⟨hs, unretried_refl _, rfl⟩
    rw [dif_neg hblank]
    let event := evt (env.sub 0) ⟨operator, PyText.isBlank_eq_false hblank⟩ .workCleanedUp none (some work.workId)
    let op : StoreOp := .transitionWorkStatus work.workId .cancelled work.revision event none
    refine ⟨(exec_effect (env.sub 1) hs op).wellFormed hs, unretried_exec hs op ?_, rfl⟩
    intro event' hevent
    cases hevent
    exact (by decide : EventType.workCleanedUp.value ≠ EventType.workRetried.value)
  rw [← hstate] at hcancel
  refine ⟨fun text h => ?_, hcancel.1, hcancel.2.1, hcancel.2.2⟩
  cases hraised _ h

theorem cleanUpBrokenWork_cases (ext : Externals π) (env : Supply) (user workId operator : String) (hs : w.store.WellFormed) :
    (∃ r', w.repair.Continues r' ∧
        r'.audit = w.repair.audit ++ [⟨"repair:" ++ workId, "abandon", operator, ((env.sub 2).sub 1).utcNow⟩] ∧
        Abandoning { w with repair := r' }
          (evalTask (ServiceWorld.handler ext) (WebControl.cleanUpBrokenWork env user workId operator) w)) ∨
      ∃ text, evalTask (ServiceWorld.handler ext) (WebControl.cleanUpBrokenWork env user workId operator) w =
        (.error (.notFound text), w) := by
  rcases evalTask_found (w := w) env user workId
      (f := fun work _ => do
        request (.abandonBroken (env.sub 2) workId operator) id
        WebControl.cancellation (env.sub 3) work operator) with ⟨work, goal, -, -, -, heval⟩ | ⟨-, text, heval⟩
  · change evalTask _ (WebControl.cleanUpBrokenWork env user workId operator) w = _ at heval
    rw [heval]
    have hregister := RepairService.ends_abandonBroken (r := w.repair) (env.sub 2) workId operator
    obtain ⟨_, r', hrun, haudit, hcontinues⟩ := hregister.returns
    have hcall : evalTask (ServiceWorld.handler ext) (request (.abandonBroken (env.sub 2) workId operator) id) w =
        (((RepairService.abandonBroken (env.sub 2) workId operator).run w.repair).outcome,
          { w with repair := ((RepairService.abandonBroken (env.sub 2) workId operator).run w.repair).state }) := rfl
    rw [hrun] at hcall
    rw [evalTask_bind_ok hcall]
    exact .inl ⟨r', hcontinues, haudit, abandoning_cancellation (w := { w with repair := r' }) hs work⟩
  · exact .inr ⟨text, heval⟩

end Programs

/-! ## What a run knows of its retries and abandonments -/

section Runs

variable {π : Type} {ext : Externals π} {h : BrokenRun π}

namespace BrokenRun

/-- The event log and the audit trail tell the Works that were replaced and the items that were abandoned. -/
structure Known (h : BrokenRun π) : Prop where
  wellFormed : h.world.store.WellFormed
  replaced : ∀ workId, workId ∈ h.replaced ↔ ∃ event ∈ h.world.store.events, event.IsRetryOf workId
  abandoned : ∀ repairId, repairId ∈ h.abandoned ↔ h.world.repair.Abandoned repairId

theorem known_start (devices : DeviceTables) (outside : π) : Known (start devices outside) where
  wellFormed := wellFormed_empty
  replaced := fun workId => ⟨fun h => (by cases h), fun ⟨_, h, _⟩ => (by cases h)⟩
  abandoned := fun repairId => ⟨fun h => (by cases h), fun ⟨_, h, _⟩ => (by cases h)⟩

end BrokenRun

theorem InMemoryStore.Unretried.retried_iff {s s' : InMemoryStore} (h : s.Unretried s') (workId : String) :
    (∃ event ∈ s'.events, event.IsRetryOf workId) ↔ ∃ event ∈ s.events, event.IsRetryOf workId := by
  obtain ⟨new, hevents, hnew⟩ := h
  rw [hevents]
  constructor
  · rintro ⟨event, hmem, hretry⟩
    rcases List.mem_append.mp hmem with hold | hadded
    · exact ⟨event, hold, hretry⟩
    · exact absurd hretry.1 (hnew event hadded)
  · rintro ⟨event, hmem, hretry⟩
    exact ⟨event, List.mem_append_left _ hmem, hretry⟩

variable {r r' : RepairService}

theorem RepairService.Quiet.abandoned_iff (h : r.Quiet r') (repairId : String) :
    r'.Abandoned repairId ↔ r.Abandoned repairId := by
  obtain ⟨new, haudit, hnew⟩ := h
  unfold RepairService.Abandoned
  rw [haudit]
  constructor
  · rintro ⟨a, hmem, hid, haction⟩
    rcases List.mem_append.mp hmem with hold | hadded
    · exact ⟨a, hold, hid, haction⟩
    · exact absurd haction (hnew a hadded)
  · rintro ⟨a, hmem, hacted⟩
    exact ⟨a, List.mem_append_left _ hmem, hacted⟩

theorem RepairService.abandoned_append_iff {k operator : String} {at_ : Datetime}
    (haudit : r'.audit = r.audit ++ [⟨k, "abandon", operator, at_⟩]) (repairId : String) :
    r'.Abandoned repairId ↔ r.Abandoned repairId ∨ repairId = k := by
  unfold RepairService.Abandoned
  simp [haudit, or_and_right, exists_or, eq_comm]

namespace BrokenRun

theorem Known.kept (hk : Known h) {w : ServiceWorld π} (hs : w.store.WellFormed) (hevents : h.world.store.Unretried w.store)
    (hquiet : h.world.repair.Quiet w.repair) : Known { h with world := w } where
  wellFormed := hs
  replaced := fun workId => (hk.replaced workId).trans (hevents.retried_iff workId).symm
  abandoned := fun repairId => (hk.abandoned repairId).trans (hquiet.abandoned_iff repairId).symm

variable {user workId operator : String}

theorem Known.retried (hk : Known h) {env : Supply} : Known (h.retried workId
      (evalTask (ServiceWorld.handler ext) (WebControl.retryBrokenWork env user workId operator) h.world).2) := by
  unfold BrokenRun.retried
  rcases retryBrokenWork_cases ext env user workId operator
      hk.wellFormed with ⟨haccepted, hreplaced⟩ | ⟨-, huntouched⟩
  · generalize (evalTask (ServiceWorld.handler ext) (WebControl.retryBrokenWork env user workId operator) h.world).2 = w
      at hreplaced
    rw [if_pos (hreplaced.creates haccepted)]
    obtain ⟨event, hevents, hretry⟩ := hreplaced.event
    refine ⟨hreplaced.wellFormed, fun workId' => ?_, fun k => (hk.abandoned k).trans (hreplaced.quiet.abandoned_iff k).symm⟩
    change workId' ∈ h.replaced ++ [workId] ↔ ∃ event ∈ w.store.events, event.IsRetryOf workId'
    rw [List.mem_append, List.mem_singleton, hk.replaced, hevents]
    constructor
    · rintro (⟨event', hmem, hof⟩ | rfl)
      · exact ⟨event', List.mem_append_left _ hmem, hof⟩
      · exact ⟨event, by simp, hretry⟩
    · rintro ⟨event', hmem, hof⟩
      rcases List.mem_append.mp hmem with hold | hadded
      · exact .inl ⟨event', hold, hof⟩
      · rw [List.mem_singleton.mp hadded] at hof
        have hsame := hof.2.symm.trans hretry.2
        cases hsame
        exact .inr rfl
  · generalize (evalTask (ServiceWorld.handler ext) (WebControl.retryBrokenWork env user workId operator) h.world).2 = w
      at huntouched
    rw [huntouched.store, creates_self, if_neg Bool.false_ne_true]
    exact hk.kept (by rw [huntouched.store]; exact hk.wellFormed) (by rw [huntouched.store]; exact unretried_refl _)
      huntouched.quiet

theorem Known.cleanedUp (hk : Known h) {env : Supply} : Known (h.cleanedUp workId
      (evalTask (ServiceWorld.handler ext) (WebControl.cleanUpBrokenWork env user workId operator) h.world)) := by
  rcases cleanUpBrokenWork_cases ext env user workId operator
      hk.wellFormed with ⟨r', -, haudit, habandoning⟩ | ⟨text, heval⟩
  · generalize evalTask (ServiceWorld.handler ext) (WebControl.cleanUpBrokenWork env user workId operator) h.world = result
      at habandoning
    have hcleaned : h.cleanedUp workId result =
        { h with world := result.2, abandoned := h.abandoned ++ ["repair:" ++ workId] } := by
      unfold BrokenRun.cleanedUp
      split
      · rename_i text herror
        exact absurd herror (habandoning.found text)
      · rfl
    rw [hcleaned]
    refine ⟨habandoning.wellFormed, fun workId' => (hk.replaced workId').trans (habandoning.events.retried_iff workId').symm,
      fun k => ?_⟩
    change k ∈ h.abandoned ++ ["repair:" ++ workId] ↔ result.2.repair.Abandoned k
    rw [habandoning.repair, RepairService.abandoned_append_iff haudit, List.mem_append, List.mem_singleton, hk.abandoned]
  · rw [heval]
    exact hk

theorem Known.repaired (hk : Known h) (c : RepairCall) : Known (h.repaired c.op (RepairService.call c h.world.repair)) := by
  have hcall := RepairService.ends_call (r := h.world.repair) c
  unfold Ends at hcall
  have hquiet {r' : RepairService} (hq : h.world.repair.Quiet r') : Known { h with world := { h.world with repair := r' } } :=
    hk.kept hk.wellFormed (unretried_refl _) hq
  generalize RepairService.call c h.world.repair = result at hcall
  cases result with
  | error e r' =>
    have hrepaired : h.repaired c.op (.error e r') = { h with world := { h.world with repair := r' } } := by
      unfold BrokenRun.repaired
      cases c.op <;> rfl
    rw [hrepaired]
    exact hquiet hcall.1
  | ok _ r' =>
    obtain ⟨op, env⟩ := c
    cases op with
    | abandon repairId operator =>
      refine ⟨hk.wellFormed, hk.replaced, fun k => ?_⟩
      change k ∈ h.abandoned ++ [repairId] ↔ r'.Abandoned k
      rw [RepairService.abandoned_append_iff hcall.2, List.mem_append, List.mem_singleton, hk.abandoned]
    | authorize | recordRepairRequired | retry | reconcile | resolve | read => exact hquiet hcall.2

theorem known_step (hk : Known h) (c : BrokenCall) : Known (step ext h c) := by
  obtain ⟨op, env⟩ := c
  unfold step
  cases op with
  | listBrokenWork user =>
    dsimp only
    rw [evalTask_listBrokenWork]
    exact hk
  | retryBrokenWork user workId operator => exact hk.retried
  | cleanUpBrokenWork user workId operator => exact hk.cleanedUp
  | repair op => exact hk.repaired ⟨op, env⟩
  | elsewhere other =>
    refine hk.kept (wellFormed_step _ other.call hk.wellFormed) ?_ (RepairService.quiet_of_audit_eq rfl)
    exact unretried_exec hk.wellFormed other.call.op other.other

theorem replaces_iff (hk : Known h) (c : BrokenCall) (workId : String) : Replaces ext h c workId ↔
      ∃ user operator, c.op = .retryBrokenWork user workId operator ∧ RetryAccepted h.world c.env user workId operator := by
  obtain ⟨op, env⟩ := c
  unfold Replaces
  refine exists_congr fun user => exists_congr fun operator => and_congr_right fun hop => ?_
  cases hop
  change h.world.store.creates (evalTask (ServiceWorld.handler ext)
    (WebControl.retryBrokenWork env user workId operator) h.world).2.store = true ↔ _
  rcases retryBrokenWork_cases ext env user workId operator
      hk.wellFormed with ⟨haccepted, hreplaced⟩ | ⟨hno, huntouched⟩
  · exact iff_of_true (hreplaced.creates haccepted) haccepted
  · rw [huntouched.store, creates_self]
    exact iff_of_false Bool.false_ne_true hno

theorem onceOnly_iff (hk : Known h) (c : BrokenCall) : OnceOnly ext h c ↔ Careful h c := by
  unfold OnceOnly Careful
  constructor
  · intro honce user workId operator hop haccepted
    obtain ⟨hreplaced, habandoned, hbroken⟩ := honce workId ((replaces_iff hk c workId).mpr ⟨user, operator, hop, haccepted⟩)
    refine ⟨hbroken, fun event hmem hretry => ?_, fun h' => habandoned ((hk.abandoned _).mpr h')⟩
    exact hreplaced ((hk.replaced workId).mpr ⟨event, hmem, hretry⟩)
  · intro hcareful workId hreplaces
    obtain ⟨user, operator, hop, haccepted⟩ := (replaces_iff hk c workId).mp hreplaces
    obtain ⟨hbroken, hunretried, hkept⟩ := hcareful user workId operator hop haccepted
    refine ⟨fun hmem => ?_, fun hmem => hkept ((hk.abandoned _).mp hmem), hbroken⟩
    obtain ⟨event, hevent, hretry⟩ := (hk.replaced workId).mp hmem
    exact hunretried event hevent hretry

end BrokenRun

end Runs

/-- What operators do at the register leaves every item as it was recorded, lets it leave `REPAIR_REQUIRED` once and
refuses a retry that is not safe. A Work is replaced as it should be exactly in the runs whose retries, where they are
let through, meet a broken Work without an earlier retry or abandonment. -/
theorem dealt_with_once_iff (π : Type) (ext : Externals π) (devices : DeviceTables) (outside : π) (calls : List BrokenCall) :
    (∀ (calls later : List RepairCall), (run RepairService.step .init calls).Continues
        (run RepairService.step .init (calls ++ later))) ∧
      (∀ calls : List RepairCall, EveryStep RepairService.step RepairService.RetryRefused .init calls) ∧
      (EveryStep (BrokenRun.step ext) (BrokenRun.OnceOnly ext) (.start devices outside) calls ↔
        EveryStep (BrokenRun.step ext) BrokenRun.Careful (.start devices outside) calls) := by
  refine ⟨fun calls later => ?_, fun calls before c after _ => RepairService.retryRefused _ c, ?_⟩
  · rw [run_append]
    exact RepairService.continues_run _ later
  · exact everyStep_iff (K := BrokenRun.Known) (T := fun _ => True) (F := fun _ _ => True)
      (fun h c hk _ => BrokenRun.known_step hk c) (fun _ _ _ => trivial) (fun h c hk _ _ => BrokenRun.onceOnly_iff hk c)
      (BrokenRun.known_start devices outside) trivial (fun _ _ _ _ => trivial)

theorem sampleEvent_other : sampleEvent.type ≠ EventType.workRetried.value := by decide

theorem other_of_sample {op : StoreOp} (h : op.givenEvent = some sampleEvent) :
    ∀ event, op.givenEvent = some event → event.type ≠ EventType.workRetried.value := by
  intro event hevent
  cases h.symm.trans hevent
  exact sampleEvent_other

def sampleElsewhere (op : StoreOp) (h : op.givenEvent = some sampleEvent) : BrokenCall :=
  ⟨.elsewhere ⟨⟨op, frozenSupply⟩, other_of_sample h⟩, frozenSupply⟩

def retryTwice : List BrokenCall :=
  [sampleElsewhere (.createGoal sampleGoal sampleEvent) rfl, sampleElsewhere (.createWork sampleWork sampleEvent) rfl,
    sampleElsewhere (.transitionWorkStatus ⟨"work_1"⟩ .running 1 sampleEvent none) rfl,
    sampleElsewhere (.transitionWorkStatus ⟨"work_1"⟩ .failed 2 sampleEvent none) rfl,
    ⟨.retryBrokenWork "u1" "work_1" "op", fun _ => ⟨0, "a"⟩⟩]

/-- The second retry makes a second replacement. -/
theorem replaced_twice : ¬∀ (ext : Externals Unit) (calls : List BrokenCall),
      EveryStep (BrokenRun.step ext) (BrokenRun.OnceOnly ext) (.start .init ()) calls := by
  intro h
  let again : BrokenCall := ⟨.retryBrokenWork "u1" "work_1" "op", fun _ => ⟨0, "b"⟩⟩
  have hstep := h (sampleExternals none (.ok "")) (retryTwice ++ [again]) retryTwice again [] rfl
  have hcreates : (run (BrokenRun.step (sampleExternals none (.ok ""))) (.start .init ()) retryTwice).world.store.creates
      (BrokenRun.step (sampleExternals none (.ok ""))
        (run (BrokenRun.step (sampleExternals none (.ok ""))) (.start .init ()) retryTwice) again).world.store = true := by
    decide +kernel
  have hbefore : "work_1" ∈ (run (BrokenRun.step (sampleExternals none (.ok ""))) (.start .init ()) retryTwice).replaced := by
    decide +kernel
  exact (hstep "work_1" ⟨"u1", "op", rfl, hcreates⟩).1 hbefore

end AllTomorrow
