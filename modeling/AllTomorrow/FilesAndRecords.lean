import AllTomorrow.GoalCancellation
import AllTomorrow.LeaseCompletion
import AllTomorrow.OverseerExecution

/-!
# The files of a project and the records of its Work

The stages of a change write the project before the batch of `finish_work` moves the Run, the
Work and the Goal, and the batch is taken back as a whole if one of them may not move. When
the project and the records agree after an execution, beside any cancellations.
-/

namespace AllTomorrow.Overseer

open InsertionDict (get?_set_cases get?_set_self mem_values_iff mem_values_of_get?)

open EStateM Prog

/-! ## What the batch writes -/

section Batch

variable {s : InMemoryStore} {env : Supply} {artifact : String} {work : WorkRecord} {success question : Bool}
  {info : Info}

structure SameWork (s s' : InMemoryStore) : Prop where
  goals_eq : s'.goals = s.goals
  work_eq : s'.work = s.work
  wellFormed : s'.WellFormed

theorem ends_exec (hs : s.WellFormed) (op : StoreOp) {Q : op.Result → InMemoryStore → Prop}
    {E : Exn → InMemoryStore → Prop} (hok : ∀ a s', Effect env s op (.ok a s') → Q a s')
    (herror : ∀ e s', Effect env s op (.error e s') → E e s') : Ends (op.exec env) s Q E := by
  have heffect : Effect env s op (op.exec env s) := exec_effect env hs op
  unfold Ends
  cases hrun : op.exec env s with
  | ok a s' => exact hok a s' (hrun ▸ heffect)
  | error e s' => exact herror e s' (hrun ▸ heffect)

theorem ends_appendAttempts (hs : s.WellFormed) (attempts : List Attempt) (E : Exn → InMemoryStore → Prop) :
    Ends (appendAttempts env work attempts) s
      (fun _ s' => SameWork s s' ∧ s'.runs = s.runs ∧ s'.runRevisions = s.runRevisions) E := by
  induction attempts generalizing env s with
  | nil => exact ends_pure ⟨⟨rfl, rfl, hs⟩, rfl, rfl⟩
  | cons a rest ih =>
    unfold appendAttempts
    refine Ends.bind (Q := fun _ s' => SameWork s s' ∧ s'.runs = s.runs ∧ s'.runRevisions = s.runRevisions) ?_ ?_
    · unfold InMemoryStore.appendEvent
      refine ends_get_bind (ends_ite (fun _ => ends_modify ?_) fun _ => ends_pure ⟨⟨rfl, rfl, hs⟩, rfl, rfl⟩)
      exact ⟨⟨rfl, rfl, ⟨hs.goal_key, hs.work_key, hs.run_key, hs.question_key, hs.run_revision⟩⟩, rfl, rfl⟩
    · rintro _ s' ⟨hsame, hruns, hrevisions⟩
      refine (ih hsame.wellFormed).mono ?_ fun _ _ h => h
      rintro _ s'' ⟨hsame', hruns', hrevisions'⟩
      exact ⟨⟨hsame'.goals_eq.trans hsame.goals_eq, hsame'.work_eq.trans hsame.work_eq, hsame'.wellFormed⟩,
        hruns'.trans hruns, hrevisions'.trans hrevisions⟩

theorem ends_finishRuns (hs : s.WellFormed) (runs : List RunRecord) :
    Ends (finishRuns env work success runs) s (fun _ s' => SameWork s s') fun _ _ => True := by
  induction runs generalizing env s with
  | nil => exact ends_pure ⟨rfl, rfl, hs⟩
  | cons run rest ih =>
    have hrest : ∀ s', SameWork s s' → Ends (finishRuns (env.sub 2) work success rest) s'
        (fun _ s'' => SameWork s s'') fun _ _ => True := by
      intro s' hs'
      refine (ih hs'.wellFormed).mono ?_ fun _ _ _ => trivial
      intro _ s'' hs''
      exact ⟨hs''.goals_eq.trans hs'.goals_eq, hs''.work_eq.trans hs'.work_eq, hs''.wellFormed⟩
    unfold finishRuns
    refine ends_ite (fun _ => ends_get_bind ?_) fun _ => hrest s ⟨rfl, rfl, hs⟩
    refine Ends.bind (Q := fun _ s' => SameWork s s') ?_ fun _ s' hs' => hrest s' hs'
    refine ends_exec hs (.transitionRunStatus run.runId (if success then .succeeded else .failed)
      (s.runRevision run.runId) (event (env.sub 1) .runFinished none (some work.workId) (some run.runId)
        (InsertionDict.empty.set "success" (.bool success))) none) ?_ fun _ _ _ => trivial
    intro updated s' heffect
    have hwell : s'.WellFormed := heffect.wellFormed hs
    cases heffect with
    | read v hread => cases hread
    | runMoved hget hrev hterm hmem => exact ⟨rfl, rfl, hwell⟩

structure Recorded (success question : Bool) (work : WorkRecord) (s s' : InMemoryStore) : Prop where
  workMove : ∃ current, s.work.get? work.workId = some current ∧ current.revision = work.revision ∧
    finishedStatus success question ∈ workTransitions current.status
  goalMove : ∃ goal, s.goals.get? work.goalId = some goal ∧
    finishedGoalStatus success question ∈ goalTransitions goal.status
  nonblank : success = true → PyText.isBlank work.workId.val = false ∧ PyText.isBlank work.goalId.val = false
  workIs : s'.WorkIs work.workId (finishedStatus success question)
  goalIs : ∃ goal, s'.goals.get? work.goalId = some goal ∧ goal.status = finishedGoalStatus success question

theorem transitionGoal_nonblank {goal updated : GoalRecord} {evidence : CompletionEvidence}
    (h : transitionGoal env goal .succeeded (some (.completion evidence)) = .ok updated) :
    PyText.isBlank goal.goalId.val = false := by
  unfold transitionGoal at h
  obtain ⟨_, _, h⟩ := except_bind_ok.mp h
  rw [if_pos rfl] at h
  obtain ⟨outcome, hverify, _⟩ := except_bind_ok.mp h
  cases hblank : PyText.isBlank goal.goalId.val with
  | false => rfl
  | true => simp [verifyCompletionEvidence, OutcomeRecord.new, hblank] at hverify

/-- A move of a Goal that went through. -/
theorem ends_transitionGoal {goalId : GoalId} {target : GoalStatus} {rev : ℤ} {e : SemanticEvent}
    {evidence : Option Evidence} : Ends (InMemoryStore.transitionGoalStatus env goalId target rev e evidence) s
      (fun _ s' => ∃ goal updated, s.goals.get? goalId = some goal ∧ target ∈ goalTransitions goal.status ∧
        transitionGoal env goal target evidence = .ok updated ∧ updated.status = target ∧
        s' = { s with goals := s.goals.set goalId updated, events := s.events ++ [e] }) fun _ _ => True := by
  unfold InMemoryStore.transitionGoalStatus
  refine ends_get_bind ?_
  cases hget : s.goals.get? goalId with
  | none => exact ends_throw trivial
  | some current =>
    refine Ends.bind (ends_ofExcept (Q := fun _ s' => s' = s) (fun _ _ => rfl) fun _ _ => trivial) ?_
    rintro _ s rfl
    refine Ends.bind (ends_ofExcept (Q := fun updated s' => s' = s ∧
      transitionGoal env current target evidence = .ok updated) (fun _ h => ⟨rfl, h⟩) fun _ _ => trivial) ?_
    rintro updated s ⟨rfl, hmove⟩
    obtain ⟨_, hmem, hupdated⟩ := transitionGoal_ok hmove
    refine ends_modify_bind (Ends.bind (ends_modify (Q := fun _ s' => s' = { s with
      goals := s.goals.set goalId updated, events := s.events ++ [e] }) rfl) ?_)
    rintro _ _ rfl
    exact ends_pure ⟨current, updated, rfl, hmem, hmove, by rw [hupdated]; rfl, rfl⟩

theorem finishedGoalStatus_eq_succeeded : finishedGoalStatus success question = .succeeded ↔ success = true := by
  cases success <;> cases question <;> decide

theorem finishedStatus_eq_succeeded : finishedStatus success question = .succeeded ↔ success = true := by
  cases success <;> cases question <;> decide

/-- A batch that commits has moved the Work and the Goal. -/
theorem ends_finishWork (hs : s.WellFormed) : Ends (finishWork env artifact work success question info) s
      (fun _ s' => Recorded success question work s s') fun _ _ => True := by
  unfold finishWork
  refine Ends.bind (ends_appendAttempts hs info.attempts _) ?_
  rintro _ s₁ ⟨h₁, -, -⟩
  refine ends_get_bind (Ends.bind (ends_finishRuns h₁.wellFormed _) ?_)
  intro _ s₂ h₂
  have hgoals : s₂.goals = s.goals := h₂.goals_eq.trans h₁.goals_eq
  have hwork : s₂.work = s.work := h₂.work_eq.trans h₁.work_eq
  refine Ends.bind (Q := fun _ s₃ => s₃.goals = s.goals ∧
    (∃ current, s.work.get? work.workId = some current ∧ current.revision = work.revision ∧
      finishedStatus success question ∈ workTransitions current.status) ∧
    (success = true → PyText.isBlank work.workId.val = false) ∧
    s₃.WorkIs work.workId (finishedStatus success question)) ?_ ?_
  · refine ends_exec h₂.wellFormed (.transitionWorkStatus work.workId (finishedStatus success question) work.revision
      _ _) ?_ fun _ _ _ => trivial
    intro updated s₃ heffect
    rw [← hwork]
    generalize hrev : work.revision = rev at heffect
    generalize hstatus : finishedStatus success question = target at heffect
    cases heffect with
    | read v hread => cases hread
    | workMoved hget hterm hmem htarget =>
      refine ⟨hgoals, ⟨_, hget, rfl, hmem⟩, ?_, _, get?_set_self _ _ _, rfl⟩
      intro hsuccess
      exact absurd (hstatus.symm.trans (finishedStatus_eq_succeeded.mpr hsuccess)) htarget
    | @workSucceeded _ _ _ current outcome hget hterm hmem htype hid hsat hevidence =>
      refine ⟨hgoals, ⟨_, hget, rfl, hmem⟩, fun _ => ?_, _, get?_set_self _ _ _, rfl⟩
      rw [← hid]
      exact outcome.targetId_nonempty
  · rintro _ s₃ ⟨hgoals₃, hmove, hblank, hworkIs⟩
    refine ends_get_bind ?_
    rw [hgoals₃]
    cases hget : s.goals.get? work.goalId with
    | none => exact ends_throw trivial
    | some goal =>
      have hkey : goal.goalId = work.goalId := hs.goal_key _ goal hget
      refine Ends.bind ends_transitionGoal ?_
      rintro _ _ ⟨goal', updated, hget', hmem, hmoved, hstatus, rfl⟩
      rw [hgoals₃, hkey, hget, Option.some.injEq] at hget'
      subst hget'
      refine ends_pure ⟨hmove, ⟨goal, hget, hmem⟩, fun hsuccess => ⟨hblank hsuccess, ?_⟩, hworkIs, updated, ?_, hstatus⟩
      · rw [finishedGoalStatus_eq_succeeded.mpr hsuccess, if_pos hsuccess] at hmoved
        exact hkey ▸ transitionGoal_nonblank hmoved
      · rw [hkey]
        exact get?_set_self _ _ _

def RunsRunning (s : InMemoryStore) (workId : WorkId) : Prop :=
  ∀ r ∈ s.runs.values, r.workId = workId → r.isActive = true → r.status = .running

theorem ends_finishRuns_of_running (hs : s.WellFormed) {runs : List RunRecord}
    (hruns : ∀ r ∈ runs, s.runs.get? r.runId = some r ∧ (r.isActive = true → r.status = .running))
    (hnodup : (runs.map RunRecord.runId).Nodup) :
    Ends (finishRuns env work success runs) s (fun _ s' => SameWork s s') fun _ _ => False := by
  induction runs generalizing env s with
  | nil => exact ends_pure ⟨rfl, rfl, hs⟩
  | cons run rest ih =>
    rw [List.map_cons, List.nodup_cons] at hnodup
    have hrest : ∀ r ∈ rest, s.runs.get? r.runId = some r ∧ (r.isActive = true → r.status = .running) :=
      fun r hr => hruns r (List.mem_cons_of_mem run hr)
    unfold finishRuns
    refine ends_ite (fun hactive => ends_get_bind ?_) fun _ => ih hs hrest hnodup.2
    obtain ⟨hget, hrunning⟩ := hruns run List.mem_cons_self
    obtain ⟨rev, hrev⟩ := hs.run_revision _ run hget
    have hmem : (if success then RunStatus.succeeded else .failed) ∈ runTransitions run.status := by
      rw [hrunning hactive]
      cases success <;> decide
    have hmoved := run_transitionRunStatus (env.sub 0) (event (env.sub 1) .runFinished none (some work.workId)
      (some run.runId) (InsertionDict.empty.set "success" (.bool success))) none hget hrev hmem
    have hwell := wellFormed_step s ⟨.transitionRunStatus run.runId (if success then .succeeded else .failed) rev
      (event (env.sub 1) .runFinished none (some work.workId) (some run.runId)
        (InsertionDict.empty.set "success" (.bool success))) none, env.sub 0⟩ hs
    rw [storeStep, StoreCall.result, StoreOp.exec, hmoved, Result.state_ok] at hwell
    rw [InMemoryStore.runRevision_of_get? hrev]
    refine ends_run_bind hmoved ?_
    refine (ih hwell (fun r hr => ⟨?_, (hrest r hr).2⟩) hnodup.2).mono ?_ fun _ _ h => h
    · have hne : r.runId ≠ run.runId := fun h => hnodup.1 (h ▸ List.mem_map_of_mem hr)
      rw [InsertionDict.get?_set_of_ne _ _ hne]
      exact (hrest r hr).1
    · intro _ s'' hs''
      exact ⟨hs''.goals_eq, hs''.work_eq, hs''.wellFormed⟩

/-- The Work is at the revision that the execution knows and the Goal may still succeed. -/
structure Finishable (work : WorkRecord) (s : InMemoryStore) : Prop where
  workCurrent : ∃ current, s.work.get? work.workId = some current ∧ current.revision = work.revision
  goalOpen : ∃ goal, s.goals.get? work.goalId = some goal ∧ (goal.status = .active ∨ goal.status = .waiting)
  workId_nonblank : PyText.isBlank work.workId.val = false
  goalId_nonblank : PyText.isBlank work.goalId.val = false

theorem Recorded.finishable {s' : InMemoryStore} (h : Recorded true question work s s') : Finishable work s := by
  obtain ⟨current, hcurrent, hrev, -⟩ := h.workMove
  obtain ⟨goal, hgoal, hmem⟩ := h.goalMove
  obtain ⟨hblank, hblank'⟩ := h.nonblank rfl
  refine ⟨⟨current, hcurrent, hrev⟩, ⟨goal, hgoal, ?_⟩, hblank, hblank'⟩
  rw [finishedGoalStatus_eq_succeeded.mpr rfl] at hmem
  revert hmem
  cases goal.status <;> decide

/-- A legal move of a Goal to SUCCEEDED goes through with evidence. -/
theorem run_transitionGoal_succeeded {goal : GoalRecord} (e : SemanticEvent) (evidence : CompletionEvidence)
    (hget : s.goals.get? goal.goalId = some goal) (hopen : goal.status = .active ∨ goal.status = .waiting)
    (hblank : PyText.isBlank goal.goalId.val = false) (E : Exn → InMemoryStore → Prop) :
    Ends (InMemoryStore.transitionGoalStatus env goal.goalId .succeeded goal.revision e
      (some (.completion evidence))) s (fun _ _ => True) E := by
  obtain ⟨outcome, houtcome⟩ := verifyCompletionEvidence_completion (env.sub 0) .goal hblank evidence
  have hmove : ∃ updated, transitionGoal env goal .succeeded (some (.completion evidence)) = .ok updated := by
    unfold transitionGoal
    refine ⟨goal.moved env .succeeded, ?_⟩
    rw [except_bind_ok]
    refine ⟨(), guardTransition_ok.mpr ?_, ?_⟩
    · rcases hopen with hopen | hopen <;> rw [hopen] <;> decide
    · rw [if_pos rfl, houtcome]
      rfl
  obtain ⟨updated, hupdated⟩ := hmove
  unfold InMemoryStore.transitionGoalStatus
  refine ends_get_bind ?_
  rw [hget]
  dsimp only
  rw [checkRevision_self, hupdated]
  trivial

/-- A batch for a promoted change commits if the records let it. -/
theorem ends_finishWork_of_finishable (hs : s.WellFormed) (h : Finishable work s) (hruns : RunsRunning s work.workId)
    (hrunning : ∀ current, s.work.get? work.workId = some current → current.revision = work.revision →
      current.status = .running) :
    Ends (finishWork env artifact work true question info) s (fun _ _ => True) fun _ _ => False := by
  obtain ⟨current, hcurrent, hrev⟩ := h.workCurrent
  unfold finishWork
  refine Ends.bind (ends_appendAttempts hs info.attempts _) ?_
  rintro _ s₁ ⟨h₁, hruns₁, -⟩
  refine ends_get_bind (Ends.bind (ends_finishRuns_of_running h₁.wellFormed ?_ ?_) ?_)
  · intro r hr
    obtain ⟨hvalue, hwork⟩ := List.mem_filter.mp hr
    rw [hruns₁] at hvalue
    obtain ⟨j, hj⟩ := mem_values_iff.mp hvalue
    refine ⟨?_, hruns r hvalue (by simpa using hwork)⟩
    rw [hruns₁, hs.run_key j r hj]
    exact hj
  · refine List.Nodup.sublist (List.Sublist.map _ List.filter_sublist) ?_
    exact InsertionDict.nodup_map_values fun k v hk => h₁.wellFormed.run_key k v hk
  intro _ s₂ h₂
  have hgoals : s₂.goals = s.goals := h₂.goals_eq.trans h₁.goals_eq
  have hcurrent₂ : s₂.work.get? work.workId = some current := by rw [h₂.work_eq, h₁.work_eq, hcurrent]
  refine Ends.bind (Q := fun _ s₃ => s₃.goals = s.goals) ?_ ?_
  · have htakes : s₂.TakesWorkMove work.workId .succeeded work.revision := by
      refine ⟨current, hcurrent₂, hrev, ?_⟩
      rw [hrunning current hcurrent hrev]
      decide
    obtain ⟨updated, hupdated⟩ := ok_of_workSucceeded (env.sub 3) h₂.wellFormed
      (event (env.sub 4) (finishedEvent true question) (some work.goalId) (some work.workId) none
        (InsertionDict.empty.set "artifact" (.str artifact))) (promotionEvidence (env.sub 0) artifact) htakes
      h.workId_nonblank
    refine Ends.of_outcome (ends_exec h₂.wellFormed (.transitionWorkStatus work.workId .succeeded work.revision _ _)
      ?_ fun _ _ _ => trivial) hupdated
    intro _ s₃ heffect
    generalize hrev' : work.revision = rev at heffect
    cases heffect with
    | read v hread => cases hread
    | workMoved hget hterm hmem htarget => exact hgoals
    | workSucceeded => exact hgoals
  · intro _ s₃ hgoals₃
    obtain ⟨goal, hgoal, hopen⟩ := h.goalOpen
    have hkey : goal.goalId = work.goalId := hs.goal_key _ goal hgoal
    refine ends_get_bind ?_
    rw [hgoals₃, hgoal]
    refine Ends.bind (run_transitionGoal_succeeded _ _ ?_ hopen (hkey ▸ h.goalId_nonblank) _) fun _ _ _ => ends_pure trivial
    rw [hgoals₃, hkey, hgoal]

end Batch

/-! ## Cancellations by others -/

section Cancellations

/-- The operation asks for the cancellation of a Work or a Goal. -/
def Cancels : StoreOp → Prop
  | .transitionWorkStatus _ target _ _ _ => target = .cancelRequested ∨ target = .cancelled
  | .transitionGoalStatus _ target _ _ _ => target = .cancelRequested ∨ target = .cancelled
  | _ => False

def NeverSucceeds : StoreOp → Prop
  | .createGoal _ _ | .createWork _ _ => False
  | .transitionGoalStatus _ target _ _ _ => target ≠ .succeeded
  | .transitionWorkStatus _ target _ _ _ => target ≠ .succeeded
  | _ => True

theorem neverSucceeds_of_cancels {op : StoreOp} (h : Cancels op) : NeverSucceeds op := by
  cases op with
  | transitionWorkStatus _ target _ _ _ => rcases h with rfl | rfl <;> simp [NeverSucceeds]
  | transitionGoalStatus _ target _ _ _ => rcases h with rfl | rfl <;> simp [NeverSucceeds]
  | _ => exact h.elim

/-- The Goal has succeeded. -/
def GoalSucceeded (goalId : GoalId) (s : InMemoryStore) : Prop :=
  ∃ goal, s.goals.get? goalId = some goal ∧ goal.status = .succeeded

/-- The Work of this Goal has not succeeded, and the Goal has if and only if it had at the start. -/
structure Unfinished (workId : WorkId) (goalId : GoalId) (goalDone : Prop) (s : InMemoryStore) : Prop where
  wellFormed : s.WellFormed
  workOpen : ¬s.WorkIs workId .succeeded
  workGoal : ∀ w, s.work.get? workId = some w → w.goalId = goalId
  goal_iff : GoalSucceeded goalId s ↔ goalDone

variable {s : InMemoryStore} {workId : WorkId} {goalId : GoalId} {goalDone : Prop}

theorem unfinished_step (c : StoreCall) (hc : NeverSucceeds c.op) (h : Unfinished workId goalId goalDone s) :
    Unfinished workId goalId goalDone (storeStep s c) := by
  obtain ⟨op, env⟩ := c
  have hwork := work_change_step ⟨op, env⟩ h.wellFormed workId
  have hgoal := goal_change_step ⟨op, env⟩ h.wellFormed goalId
  refine ⟨wellFormed_step s ⟨op, env⟩ h.wellFormed, ?_, ?_, ?_⟩
  · rintro ⟨w, hw, hsucceeded⟩
    rw [hw] at hwork
    generalize hafter : some w = after at hwork
    cases hwork with
    | kept => exact h.workOpen ⟨w, hafter.symm, hsucceeded⟩
    | created => exact hc
    | moved hget hmem =>
      cases hafter
      exact hc hsucceeded
    | claimed hget hmem env' =>
      cases hafter
      cases hsucceeded
  · intro w hw
    rw [hw] at hwork
    generalize hafter : some w = after at hwork
    cases hwork with
    | kept => exact h.workGoal w hafter.symm
    | created => exact hc.elim
    | moved hget hmem =>
      cases hafter
      have hbefore := h.workGoal _ hget
      exact hbefore
    | claimed hget hmem env' =>
      cases hafter
      have hbefore := h.workGoal _ hget
      exact hbefore
  · rw [← h.goal_iff]
    unfold GoalSucceeded
    generalize (storeStep s ⟨op, env⟩).goals.get? goalId = after at hgoal ⊢
    cases hgoal with
    | kept => exact Iff.rfl
    | created => exact hc.elim
    | @moved g target _ _ hget hmem =>
      constructor
      · rintro ⟨goal, hgoal, hsucceeded⟩
        cases hgoal
        exact absurd hsucceeded hc
      · rintro ⟨goal, hgoal, hsucceeded⟩
        rw [hget, Option.some.injEq] at hgoal
        rw [hgoal, hsucceeded] at hmem
        cases hmem

theorem runs_cancel (c : StoreCall) (hc : Cancels c.op) (hs : s.WellFormed) : (storeStep s c).runs = s.runs := by
  obtain ⟨op, env⟩ := c
  have heffect : Effect env s op (StoreCall.result ⟨op, env⟩ s) := exec_effect env hs op
  change (StoreCall.result ⟨op, env⟩ s).state.runs = s.runs
  cases op with
  | transitionWorkStatus k target rev event evidence =>
    generalize StoreCall.result _ s = result at heffect ⊢
    cases heffect with
    | raised e => rfl
    | read v hread => cases hread
    | workMoved => rfl
    | workSucceeded => rfl
  | transitionGoalStatus k target rev event evidence =>
    generalize StoreCall.result _ s = result at heffect ⊢
    cases heffect with
    | raised e => rfl
    | read v hread => cases hread
    | goalMoved => rfl
  | _ => exact hc.elim

theorem run_cancels {I : InMemoryStore → Prop} (hI : ∀ s c, Cancels c.op → I s → I (storeStep s c))
    {calls : List StoreCall} (hcalls : ∀ c ∈ calls, Cancels c.op) (h : I s) : I (MachineRuns.run storeStep s calls) := by
  induction calls generalizing s with
  | nil => exact h
  | cons c rest ih =>
    exact ih (fun c' hc' => hcalls c' (List.mem_cons_of_mem c hc')) (hI s c (hcalls c List.mem_cons_self) h)

end Cancellations

/-! ## Up to the batch -/

section UntilFinish

/-- What the others do before the `n`th request. -/
def besideCancels (others : ℕ → List StoreCall) (n : ℕ) (w : OverseerWorld) : OverseerWorld :=
  { w with store := MachineRuns.run storeStep w.store (others n) }

variable {others : ℕ → List StoreCall} {n : ℕ} {w : OverseerWorld} {E : Exn → ℕ → OverseerWorld → Prop}

theorem endsBeside_askStore {op : StoreOp} {env : Supply} {Q : op.Result → ℕ → OverseerWorld → Prop} (hs : (besideCancels others n w).store.WellFormed)
    (hok : ∀ a s', storeStep (besideCancels others n w).store ⟨op, env⟩ = s' →
      Effect env (besideCancels others n w).store op (.ok a s') → Q a (n + 1) { w with store := s' })
    (herror : ∀ e, E e (n + 1) (besideCancels others n w)) :
    EndsBeside overseerHandler (besideCancels others) (askStore op env) n w Q E := by
  have heffect := exec_effect env hs op
  have hask : evalTaskBeside overseerHandler (besideCancels others) (askStore op env) n w =
      (((op.exec env).run (besideCancels others n w).store).outcome, n + 1,
        { w with store := ((op.exec env).run (besideCancels others n w).store).state }) := rfl
  unfold EndsBeside
  rw [hask]
  cases hrun : (op.exec env).run (besideCancels others n w).store with
  | ok a s' =>
    refine hok a s' ?_ (hrun ▸ heffect)
    rw [storeStep, StoreCall.result, hrun, Result.state_ok]
  | error e s' =>
    rw [hrun] at heffect
    cases heffect with
    | raised e => exact herror e

variable {workId : WorkId} {goalId : GoalId} {goalDone : Prop}

theorem unfinished_beside (hothers : ∀ n, ∀ c ∈ others n, Cancels c.op) (h : Unfinished workId goalId goalDone w.store) :
    Unfinished workId goalId goalDone (besideCancels others n w).store :=
  run_cancels (fun _ c hc hI => unfinished_step c (neverSucceeds_of_cancels hc) hI) (hothers n) h

variable {work : WorkRecord}

theorem tracked_beside (hothers : ∀ n, ∀ c ∈ others n, Cancels c.op)
    (hs : w.store.WellFormed) (h : Tracked work w.store) : Tracked work (besideCancels others n w).store :=
  (run_cancels (I := fun s => s.WellFormed ∧ Tracked work s)
    (fun s c _ hI => ⟨wellFormed_step s c hI.1, tracked_step c hI.1 hI.2⟩) (hothers n) ⟨hs, h⟩).2

theorem runs_beside (hothers : ∀ n, ∀ c ∈ others n, Cancels c.op) (hs : w.store.WellFormed) :
    (besideCancels others n w).store.runs = w.store.runs :=
  (run_cancels (I := fun s => s.WellFormed ∧ s.runs = w.store.runs)
    (fun s c hc hI => ⟨wellFormed_step s c hI.1, (runs_cancel c hc hI.1).trans hI.2⟩) (hothers n) ⟨hs, rfl⟩).2

/-- A started Work: the record that the execution holds is the stored one, or it has been moved since. -/
structure Started (workId : WorkId) (goalId : GoalId) (work : WorkRecord) (s : InMemoryStore) : Prop where
  workId_eq : work.workId = workId
  goalId_eq : work.goalId = goalId
  running : work.status = .running
  tracked : Tracked work s

theorem Started.beside (hothers : ∀ n, ∀ c ∈ others n, Cancels c.op)
    (hs : w.store.WellFormed) (h : Started workId goalId work w.store) :
    Started workId goalId work (besideCancels others n w).store :=
  ⟨h.workId_eq, h.goalId_eq, h.running, tracked_beside hothers hs h.tracked⟩

variable {s : InMemoryStore}

theorem Started.step (c : StoreCall) (hs : s.WellFormed)
    (h : Started workId goalId work s) : Started workId goalId work (storeStep s c) :=
  ⟨h.workId_eq, h.goalId_eq, h.running, tracked_step c hs h.tracked⟩

theorem endsBeside_startWork (hothers : ∀ n, ∀ c ∈ others n, Cancels c.op)
    (h : Unfinished workId goalId goalDone w.store) (hwork : work.workId = workId)
    (kind : MetacogEvent) (goal : Option GoalId) (env : Supply) :
    EndsBeside overseerHandler (besideCancels others) (startWork work kind goal env) n w
      (fun started _ w' => Unfinished workId goalId goalDone w'.store ∧ w'.files = w.files ∧
        ∀ work', started = some work' → Started workId goalId work' w'.store)
      fun _ _ w' => Unfinished workId goalId goalDone w'.store ∧ w'.files = w.files := by
  have hbeside : Unfinished workId goalId goalDone (besideCancels others n w).store := unfinished_beside hothers h
  unfold startWork
  refine EndsBeside.bind ((EndsBeside.attempt (Q := fun work' _ w' => Unfinished workId goalId goalDone w'.store ∧
    w'.files = w.files ∧ Started workId goalId work' w'.store)
    (E := fun _ _ w' => Unfinished workId goalId goalDone w'.store ∧ w'.files = w.files)
    (endsBeside_askStore hbeside.wellFormed ?_ ?_)).mono (fun _ _ _ h => h) fun _ _ _ h => h.elim) ?_
  · intro work' s' hstep heffect
    have hunfinished : Unfinished workId goalId goalDone s' :=
      hstep ▸ unfinished_step _ (by simp [NeverSucceeds]) hbeside
    generalize work.revision = rev at heffect
    cases heffect with
    | read v hread => cases hread
    | @workMoved _ _ _ _ current hget hterm hmem htarget =>
      rw [hwork] at hget
      have hkey : current.workId = workId := hbeside.wellFormed.work_key _ current hget
      refine ⟨hunfinished, rfl, hkey, hbeside.workGoal current hget, rfl, _, ?_, .inl rfl⟩
      change (InsertionDict.set _ work.workId _).get? current.workId = _
      rw [hwork, hkey]
      exact get?_set_self _ _ _
  · intro e
    exact ⟨hbeside, rfl⟩
  · rintro result n' w' (⟨work', rfl, hunfinished, hfiles, hstarted⟩ | ⟨e, rfl, hunfinished, hfiles⟩)
    · refine endsBeside_pure ⟨hunfinished, hfiles, ?_⟩
      rintro _ ⟨⟩
      exact hstarted
    · cases e with
      | storeConflictError message => exact endsBeside_pure ⟨hunfinished, hfiles, by simp⟩
      | _ => exact endsBeside_throw ⟨hunfinished, hfiles⟩

theorem endsBeside_workOnFiles {change : ProjectFiles → Execution} {Q : Execution → ℕ → OverseerWorld → Prop}
    (h : Q (change w.files) (n + 1) ⟨(besideCancels others n w).store, (change w.files).files⟩) :
    EndsBeside overseerHandler (besideCancels others) (workOnFiles change) n w Q E := h

def OnlyActive (workId : WorkId) (runId : RunId) (s : InMemoryStore) : Prop :=
  ∀ r ∈ s.runs.values, r.workId = workId → r.isActive = true → r.runId = runId

variable {s' : InMemoryStore}

theorem onlyActive_created {run : RunRecord} (hwork : run.workId = workId)
    (hactive : ∀ r ∈ s.runs.values, r.workId = run.workId → r.isActive = false)
    (hruns : s'.runs = s.runs.set run.runId run) : OnlyActive workId run.runId s' := by
  intro r hr hrwork hractive
  rw [hruns] at hr
  obtain ⟨j, hj⟩ := mem_values_iff.mp hr
  rcases get?_set_cases s.runs run.runId run j with ⟨_, hnew⟩ | ⟨_, hold⟩
  · rw [hnew, Option.some.injEq] at hj
    rw [hj]
  · rw [hold] at hj
    have hinactive := hactive r (mem_values_of_get? hj) (hrwork.trans hwork.symm)
    rw [hinactive] at hractive
    cases hractive

theorem runsRunning_started (hs : s.WellFormed) {runId : RunId} (h : OnlyActive workId runId s)
    {moved : RunRecord} (hmoved : moved.status = .running)
    (hruns : s'.runs = s.runs.set runId moved) : RunsRunning s' workId := by
  intro r hr hrwork hractive
  rw [hruns] at hr
  obtain ⟨j, hj⟩ := mem_values_iff.mp hr
  rcases get?_set_cases s.runs runId moved j with ⟨_, hnew⟩ | ⟨hne, hold⟩
  · rw [hnew, Option.some.injEq] at hj
    rw [← hj, hmoved]
  · rw [hold] at hj
    have hkey := h r (mem_values_of_get? hj) hrwork hractive
    exact absurd ((hs.run_key j r hj).symm.trans hkey) hne

variable {c : ProjectChange} {tools : Tools ChangeTask} {task : ChangeTask}

structure Reached (c : ProjectChange) (tools : Tools ChangeTask) (task : ChangeTask) (workId : WorkId)
    (goalId : GoalId) (goalDone : Prop) (root : Folder) (o : Outcome) (w : OverseerWorld) : Prop where
  unfinished : Unfinished workId goalId goalDone w.store
  started : Started workId goalId o.work w.store
  runs : o.success = true → RunsRunning w.store workId
  promoted : o.success = true → PromotedTested c tools task root w.files
  kept : o.success = false → ∀ p, hashAt c w.files.root p = hashAt c root p

theorem executed_kept {files : ProjectFiles} (hstate : NotApplying files)
    (h : (executed c tools task files).success = false) (p : String) :
    hashAt c (executed c tools task files).files.root p = hashAt c files.root p := by
  have hends : Ends (executeChange c tools task) (.start files)
      (fun _ s' => s'.success = false → NotApplying files → Unpromoted c files.root s'.files) fun _ s' =>
        s'.success = false → NotApplying files → Unpromoted c files.root s'.files :=
    (ends_executeChange files).mono (fun _ _ hs => hs.2) fun _ _ hs => hs.elim
  exact (hends.state h hstate).files p

theorem endsBeside_changeProject (hothers : ∀ n, ∀ c ∈ others n, Cancels c.op)
    (h : Unfinished workId goalId goalDone w.store) (hstate : NotApplying w.files)
    (hstarted : Started workId goalId work w.store) (env : Supply) :
    EndsBeside overseerHandler (besideCancels others) (changeProject c tools task work env) n w
      (fun o _ w' => Reached c tools task workId goalId goalDone w.files.root o w')
      fun _ _ w' => Unfinished workId goalId goalDone w'.store ∧ w'.files = w.files := by
  have hbeside : Unfinished workId goalId goalDone (besideCancels others n w).store := unfinished_beside hothers h
  have hstarted' : Started workId goalId work (besideCancels others n w).store := hstarted.beside hothers h.wellFormed
  unfold changeProject
  refine EndsBeside.bind (Q := fun _ _ w' => Unfinished workId goalId goalDone w'.store ∧ w'.files = w.files ∧
    Started workId goalId work w'.store ∧ OnlyActive workId (newRun work (env.sub 0)).runId w'.store)
    (endsBeside_askStore hbeside.wellFormed ?_ fun _ => ⟨hbeside, rfl⟩) ?_
  · intro run s' hstep heffect
    have hunfinished : Unfinished workId goalId goalDone s' := hstep ▸ unfinished_step _ trivial hbeside
    have hkept : Started workId goalId work s' := hstep ▸ hstarted'.step _ hbeside.wellFormed
    refine ⟨hunfinished, rfl, hkept, ?_⟩
    cases heffect with
    | read v hread => cases hread
    | runCreated _ _ hfresh hwork hactive =>
      exact onlyActive_created hstarted.workId_eq (hactive rfl) rfl
  rintro _ n₁ w₁ ⟨h₁, hfiles₁, hstarted₁, honly₁⟩
  have hbeside₁ : Unfinished workId goalId goalDone (besideCancels others n₁ w₁).store := unfinished_beside hothers h₁
  have hstarted₁' : Started workId goalId work (besideCancels others n₁ w₁).store :=
    hstarted₁.beside hothers h₁.wellFormed
  refine EndsBeside.bind (Q := fun _ _ w' => Unfinished workId goalId goalDone w'.store ∧ w'.files = w.files ∧
    Started workId goalId work w'.store ∧ RunsRunning w'.store workId)
    (endsBeside_askStore hbeside₁.wellFormed ?_ fun _ => ⟨hbeside₁, hfiles₁⟩) ?_
  · intro run s' hstep heffect
    have hunfinished : Unfinished workId goalId goalDone s' := hstep ▸ unfinished_step _ trivial hbeside₁
    have hkept : Started workId goalId work s' := hstep ▸ hstarted₁'.step _ hbeside₁.wellFormed
    refine ⟨hunfinished, hfiles₁, hkept, ?_⟩
    have honly : OnlyActive workId (newRun work (env.sub 0)).runId (besideCancels others n₁ w₁).store := by
      unfold OnlyActive
      rw [runs_beside hothers h₁.wellFormed]
      exact honly₁
    cases heffect with
    | read v hread => cases hread
    | runMoved hget hrev hterm hmem => exact runsRunning_started hbeside₁.wellFormed honly rfl rfl
  rintro _ n₂ w₂ ⟨h₂, hfiles₂, hstarted₂, hruns₂⟩
  have hbeside₂ : Unfinished workId goalId goalDone (besideCancels others n₂ w₂).store := unfinished_beside hothers h₂
  have hruns : RunsRunning (besideCancels others n₂ w₂).store workId := by
    unfold RunsRunning
    rw [runs_beside hothers h₂.wellFormed]
    exact hruns₂
  refine EndsBeside.bind (Q := fun execution _ w' => execution = executed c tools task w.files ∧
    w' = ⟨(besideCancels others n₂ w₂).store, execution.files⟩) (endsBeside_workOnFiles ?_) ?_
  · rw [hfiles₂]
    exact ⟨rfl, rfl⟩
  rintro _ n₃ _ ⟨rfl, rfl⟩
  refine endsBeside_pure ⟨hbeside₂, hstarted₂.beside hothers h₂.wellFormed, fun _ => hruns, ?_, ?_⟩
  · exact fun hsuccess => executed_promoted hsuccess
  · exact fun hfailed => executed_kept hstate hfailed

def NotStarted (workId : WorkId) (s : InMemoryStore) : Prop :=
  ∀ w, s.work.get? workId = some w → w.status = .pending ∨ w.status = .cancelled

theorem notStarted_cancel (c : StoreCall) (hc : Cancels c.op) (hs : s.WellFormed)
    (h : NotStarted workId s) : NotStarted workId (storeStep s c) := by
  obtain ⟨op, env⟩ := c
  have hwork := work_change_step ⟨op, env⟩ hs workId
  intro w hw
  rw [hw] at hwork
  generalize hafter : some w = after at hwork
  cases hwork with
  | kept => exact h w hafter.symm
  | created => exact hc.elim
  | @moved before target _ _ hget hmem =>
    cases hafter
    change target = .pending ∨ target = .cancelled
    rcases h before hget with hpending | hcancelled
    · rcases hc with rfl | rfl
      · rw [hpending] at hmem
        exact absurd hmem (by decide)
      · exact .inr rfl
    · rw [hcancelled] at hmem
      cases hmem
  | claimed => exact hc.elim

def CameTo (c : ProjectChange) (tools : Tools ChangeTask) (task : ChangeTask) (workId : WorkId) (goalId : GoalId)
    (goalDone : Prop) (w : OverseerWorld) (reached : Option Outcome) (w' : OverseerWorld) : Prop :=
  match reached with
  | none => Unfinished workId goalId goalDone w'.store ∧ w'.files = w.files
  | some o => Reached c tools task workId goalId goalDone w.files.root o w'

variable {project : Option RegisteredProject} {saved : Info}

theorem endsBeside_untilFinish (hothers : ∀ n, ∀ c ∈ others n, Cancels c.op)
    (h : Unfinished workId goalId goalDone w.store) (hnew : NotStarted workId w.store)
    (hstate : NotApplying w.files) (env : Supply) :
    EndsBeside overseerHandler (besideCancels others) (untilFinish c tools project task saved workId env) n w
      (fun reached _ w' => CameTo c tools task workId goalId goalDone w reached w')
      fun _ _ w' => Unfinished workId goalId goalDone w'.store ∧ w'.files = w.files := by
  have hbeside : Unfinished workId goalId goalDone (besideCancels others n w).store := unfinished_beside hothers h
  have hnew' : NotStarted workId (besideCancels others n w).store :=
    (run_cancels (I := fun s => s.WellFormed ∧ NotStarted workId s)
      (fun s c hc hI => ⟨wellFormed_step s c hI.1, notStarted_cancel c hc hI.1 hI.2⟩) (hothers n)
      ⟨h.wellFormed, hnew⟩).2
  unfold untilFinish
  refine EndsBeside.bind (Q := fun read _ w' => read = (besideCancels others n w).store.work.get? workId ∧
    w' = besideCancels others n w) ⟨rfl, rfl⟩ ?_
  rintro read n₁ _ ⟨hread, rfl⟩
  cases read with
  | none => exact endsBeside_pure ⟨hbeside, rfl⟩
  | some work =>
    have hkey : work.workId = workId := hbeside.wellFormed.work_key _ work hread.symm
    refine endsBeside_ite (fun _ => endsBeside_pure ⟨hbeside, rfl⟩) fun hopen => ?_
    have hpending : work.status = .pending := by
      rcases hnew' work hread.symm with hpending | hcancelled
      · exact hpending
      · exact absurd (by simp [WorkRecord.isTerminal, hcancelled, terminalWorkStatuses]) hopen
    refine endsBeside_ite (fun _ => endsBeside_ite (fun _ => ?_) fun hne => absurd hpending hne) fun _ =>
      endsBeside_ite (fun hrunning => absurd (hpending.symm.trans hrunning) (by decide)) fun _ => ?_
    · refine EndsBeside.bind (endsBeside_startWork hothers hbeside hkey _ _ _) ?_
      rintro started n₂ w₂ ⟨h₂, hfiles₂, hstarted₂⟩
      cases started with
      | none => exact endsBeside_pure ⟨h₂, hfiles₂⟩
      | some started =>
        refine endsBeside_pure ⟨h₂, hstarted₂ started rfl, fun hfalse => (Bool.false_ne_true hfalse).elim,
          fun hfalse => (Bool.false_ne_true hfalse).elim, fun _ p => ?_⟩
        rw [hfiles₂]
        rfl
    · refine EndsBeside.bind (endsBeside_startWork hothers hbeside hkey _ _ _) ?_
      rintro started n₂ w₂ ⟨h₂, hfiles₂, hstarted₂⟩
      cases started with
      | none => exact endsBeside_pure ⟨h₂, hfiles₂⟩
      | some started =>
        have hstate₂ : NotApplying w₂.files := hfiles₂ ▸ hstate
        refine EndsBeside.bind ((endsBeside_changeProject hothers h₂ hstate₂ (hstarted₂ started rfl) _).mono
          (fun _ _ _ h => h) fun _ _ w₃ h₃ => ⟨h₃.1, h₃.2.trans hfiles₂⟩) ?_
        intro o n₃ w₃ hreached
        rw [hfiles₂] at hreached
        exact endsBeside_pure hreached

end UntilFinish

/-! ## After the call -/

section Agreement

variable (c : ProjectChange) (tools : Tools ChangeTask) (project : Option RegisteredProject) (task : ChangeTask)
  (saved : Info) (artifact : String) (workId : WorkId) (env : Supply) (others : ℕ → List StoreCall) (w : OverseerWorld)

def afterExecution : OverseerWorld :=
  (evalTaskBeside overseerHandler (besideCancels others) (executeWork c tools project task saved artifact workId env)
    0 w).2.2

def ProjectDiffers (c : ProjectChange) (root : Folder) (files : ProjectFiles) : Prop :=
  ∃ p, hashAt c files.root p ≠ hashAt c root p

/-- The project has changed exactly if the Work has succeeded, and the Goal has exactly if the Work has. -/
def FilesAndRecordsAgree (c : ProjectChange) (root : Folder) (workId : WorkId) (goalId : GoalId) (w : OverseerWorld) :
    Prop :=
  (ProjectDiffers c root w.files ↔ w.store.WorkIs workId .succeeded) ∧
    (GoalSucceeded goalId w.store ↔ w.store.WorkIs workId .succeeded)

/-- If the change was promoted, its diagnostics can be redacted and, when the batch begins, the Work and the Goal may
still be finished. -/
def RecordsFollow : Prop :=
  match evalTaskBeside overseerHandler (besideCancels others)
      (untilFinish c tools project task saved workId (env.sub 0)) 0 w with
  | (.ok (some o), n', w') =>
    o.success = true → (∃ info, o.info = .ok info) ∧ Finishable o.work (besideCancels others n' w').store
  | _ => True

variable {c tools project task saved artifact workId env others w}
variable {goalId : GoalId} {goalDone : Prop} {root : Folder} {w' : OverseerWorld}

theorem agree_iff_of_unfinished (h : Unfinished workId goalId goalDone w'.store) :
    FilesAndRecordsAgree c root workId goalId w' ↔ ¬goalDone ∧ ¬ProjectDiffers c root w'.files := by
  unfold FilesAndRecordsAgree
  rw [h.goal_iff]
  simp only [h.workOpen, iff_false]
  exact and_comm

variable {o : Outcome}

theorem Reached.differs_iff (h : Reached c tools task workId goalId goalDone root o w') :
    ProjectDiffers c root w'.files ↔ o.success = true := by
  constructor
  · rintro ⟨p, hp⟩
    cases hsuccess : o.success with
    | true => rfl
    | false => exact absurd (h.kept hsuccess p) hp
  · intro hsuccess
    obtain ⟨names, data, hne, hchanges, -, -, hroot⟩ := (h.promoted hsuccess).tested
    obtain ⟨p, hp⟩ := List.exists_mem_of_ne_nil names hne
    refine ⟨p, ?_⟩
    have hdiffers := hchanges.mem_iff.mp hp
    rw [hashAt_copyVisible] at hdiffers
    have hsame : hashAt c w'.files.root p = hashAt c (testedCandidate tools task root) p :=
      hashAt_eq_of_content (by rw [hroot, if_pos hp])
    rw [hsame]
    exact hdiffers.symm

/-- A committed batch has made the Work and the Goal succeed, or neither of them. -/
theorem Recorded.agree {s : InMemoryStore} {w' w'' : OverseerWorld}
    (hrecorded : Recorded o.success o.question o.work s w''.store)
    (h : Reached c tools task workId goalId goalDone root o w') (hfiles : w''.files = w'.files) :
    FilesAndRecordsAgree c root workId goalId w'' := by
  have hwork : w''.store.WorkIs workId .succeeded ↔ o.success = true := by
    obtain ⟨work, hget, hstatus⟩ := hrecorded.workIs
    rw [h.started.workId_eq] at hget
    constructor
    · rintro ⟨work', hget', hsucceeded⟩
      rw [hget, Option.some.injEq] at hget'
      rw [← hget', hstatus, finishedStatus_eq_succeeded] at hsucceeded
      exact hsucceeded
    · intro hsuccess
      exact ⟨work, hget, hstatus.trans (finishedStatus_eq_succeeded.mpr hsuccess)⟩
  have hgoal : GoalSucceeded goalId w''.store ↔ o.success = true := by
    obtain ⟨goal, hget, hstatus⟩ := hrecorded.goalIs
    rw [h.started.goalId_eq] at hget
    constructor
    · rintro ⟨goal', hget', hsucceeded⟩
      rw [hget, Option.some.injEq] at hget'
      rw [← hget', hstatus, finishedGoalStatus_eq_succeeded] at hsucceeded
      exact hsucceeded
    · intro hsuccess
      exact ⟨goal, hget, hstatus.trans (finishedGoalStatus_eq_succeeded.mpr hsuccess)⟩
  exact ⟨by rw [hfiles, h.differs_iff, hwork], by rw [hgoal, hwork]⟩

theorem Recorded.goal_not_done {s s' : InMemoryStore} (hrecorded : Recorded o.success o.question o.work s s')
    (hgoal : o.work.goalId = goalId) (h : Unfinished workId goalId goalDone s) : ¬goalDone := by
  intro hdone
  obtain ⟨goal, hget, hsucceeded⟩ := h.goal_iff.mpr hdone
  obtain ⟨goal', hget', hmem⟩ := hrecorded.goalMove
  rw [hgoal, hget, Option.some.injEq] at hget'
  rw [← hget', hsucceeded] at hmem
  cases hmem

/-- The batch: it commits and records the change, or it leaves the records alone because they cannot be finished. -/
theorem batch_cases (hothers : ∀ n, ∀ c ∈ others n, Cancels c.op) {n : ℕ}
    (h : Reached c tools task workId goalId goalDone root o w') (env : Supply) (info : Info) :
    (∃ s', overseerHandler (.batch (finishWork env artifact o.work o.success o.question info)) (besideCancels others n w') =
        (.ok (), { w' with store := s' }) ∧
      Recorded o.success o.question o.work (besideCancels others n w').store s') ∨
    ∃ e, overseerHandler (.batch (finishWork env artifact o.work o.success o.question info)) (besideCancels others n w') =
        (.error e, besideCancels others n w') ∧
      (o.success = true → ¬Finishable o.work (besideCancels others n w').store) := by
  have hbeside : Unfinished workId goalId goalDone (besideCancels others n w').store :=
    unfinished_beside hothers h.unfinished
  have hends : Ends (finishWork env artifact o.work o.success o.question info) (besideCancels others n w').store
      (fun _ s' => Recorded o.success o.question o.work (besideCancels others n w').store s') fun _ _ => True :=
    ends_finishWork hbeside.wellFormed
  unfold Ends at hends
  cases hrun : finishWork env artifact o.work o.success o.question info (besideCancels others n w').store with
  | ok a s' =>
    rw [hrun] at hends
    refine .inl ⟨s', ?_, hends⟩
    simp only [overseerHandler, EStateM.run, hrun]
    rfl
  | error e s' =>
    refine .inr ⟨e, ?_, ?_⟩
    · simp only [overseerHandler, EStateM.run, hrun]
    · intro hsuccess hfinishable
      have htracked := tracked_beside (n := n) hothers h.unfinished.wellFormed h.started.tracked
      have hruns : RunsRunning (besideCancels others n w').store o.work.workId := by
        unfold RunsRunning
        rw [runs_beside hothers h.unfinished.wellFormed, h.started.workId_eq]
        exact h.runs hsuccess
      have hrunning : ∀ current, (besideCancels others n w').store.work.get? o.work.workId = some current →
          current.revision = o.work.revision → current.status = .running := by
        intro current hcurrent hrev
        obtain ⟨current', hcurrent', hsame⟩ := htracked
        rw [hcurrent, Option.some.injEq] at hcurrent'
        subst hcurrent'
        rcases hsame with rfl | hlt
        · exact h.started.running
        · omega
      have hcommits : Ends (finishWork env artifact o.work true o.question info) (besideCancels others n w').store
          (fun _ _ => True) fun _ _ => False :=
        ends_finishWork_of_finishable hbeside.wellFormed hfinishable hruns hrunning
      rw [hsuccess] at hrun
      unfold Ends at hcommits
      rw [hrun] at hcommits
      exact hcommits

theorem afterExecution_eq : afterExecution c tools project task saved artifact workId env others w =
      match evalTaskBeside overseerHandler (besideCancels others)
        (untilFinish c tools project task saved workId (env.sub 0)) 0 w with
      | (.ok reached, n', w') =>
        (evalTaskBeside overseerHandler (besideCancels others) (finish artifact (env.sub 1) reached) n' w').2.2
      | (.error _, _, w') => w' := by
  have hbind := evalBeside_bind overseerHandler (besideCancels others)
    (untilFinish c tools project task saved workId (env.sub 0)).run
    (ExceptT.bindCont (finish artifact (env.sub 1))) 0 w
  unfold afterExecution evalTaskBeside executeWork
  refine (congrArg (fun r => r.2.2) hbind).trans ?_
  generalize (untilFinish c tools project task saved workId (env.sub 0)).run.evalBeside overseerHandler
    (besideCancels others) 0 w = result
  obtain ⟨outcome, n', w'⟩ := result
  cases outcome with
  | ok reached => rfl
  | error e => rfl

/-- What `finish_work` makes of an outcome. -/
theorem agree_finish_iff (hothers : ∀ n, ∀ c ∈ others n, Cancels c.op) {n : ℕ}
    (h : Reached c tools task workId goalId goalDone root o w') (env : Supply) : FilesAndRecordsAgree c root workId goalId
        (evalTaskBeside overseerHandler (besideCancels others) (finish artifact env (some o)) n w').2.2 ↔
      ¬goalDone ∧ (o.success = true →
        (∃ info, o.info = .ok info) ∧ Finishable o.work (besideCancels others n w').store) := by
  cases hinfo : o.info with
  | error e =>
    have hfinish : (evalTaskBeside overseerHandler (besideCancels others)
        (finish artifact env (some o)) n w').2.2 = w' := by
      unfold finish
      dsimp only
      rw [hinfo]
      rfl
    rw [hfinish, agree_iff_of_unfinished h.unfinished, h.differs_iff]
    simp
  | ok info =>
    have hfinish : (evalTaskBeside overseerHandler (besideCancels others) (finish artifact env (some o)) n w').2.2 =
        (overseerHandler (.batch (finishWork env artifact o.work o.success o.question info))
          (besideCancels others n w')).2 := by
      unfold finish
      dsimp only
      rw [hinfo]
      rfl
    rw [hfinish]
    rcases batch_cases hothers h env info with ⟨s', hbatch, hrecorded⟩ | ⟨e, hbatch, hrefused⟩
    · rw [hbatch]
      have hagree : FilesAndRecordsAgree c root workId goalId { w' with store := s' } := hrecorded.agree h rfl
      refine iff_of_true hagree ⟨?_, fun hsuccess => ⟨⟨info, rfl⟩, ?_⟩⟩
      · exact hrecorded.goal_not_done h.started.goalId_eq (unfinished_beside hothers h.unfinished)
      · rw [hsuccess] at hrecorded
        exact hrecorded.finishable
    · have hbeside : Unfinished workId goalId goalDone (besideCancels others n w').store :=
        unfinished_beside hothers h.unfinished
      rw [hbatch, agree_iff_of_unfinished hbeside]
      change _ ∧ ¬ProjectDiffers c root w'.files ↔ _
      rw [h.differs_iff]
      refine and_congr_right fun _ => ⟨fun hno hsuccess => absurd hsuccess hno, fun hyes hsuccess => ?_⟩
      exact hrefused hsuccess (hyes hsuccess).2

theorem agree_untouched_iff (h : Unfinished workId goalId goalDone w'.store) (hfiles : w'.files = w.files) :
    FilesAndRecordsAgree c w.files.root workId goalId w' ↔ ¬goalDone ∧ True := by
  rw [agree_iff_of_unfinished h, hfiles]
  refine and_congr_right fun _ => iff_true_intro ?_
  rintro ⟨p, hp⟩
  exact hp rfl

end Agreement

/-- After the call the project and the records agree exactly if the Goal had not succeeded before and a promoted
change could be recorded. -/
theorem filesAndRecordsAgree_iff {c : ProjectChange} {tools : Tools ChangeTask} {project : Option RegisteredProject}
    {task : ChangeTask} {saved : Info} {artifact : String} {workId : WorkId} {env : Supply}
    {others : ℕ → List StoreCall} {w : OverseerWorld} {work : WorkRecord} (hreach : StoreReachable w.store)
    (hwork : w.store.work.get? workId = some work) (hpending : work.status = .pending) (hstate : NotApplying w.files)
    (hothers : ∀ n, ∀ call ∈ others n, Cancels call.op) :
    FilesAndRecordsAgree c w.files.root workId work.goalId
        (afterExecution c tools project task saved artifact workId env others w) ↔
      ¬GoalSucceeded work.goalId w.store ∧ RecordsFollow c tools project task saved workId env others w := by
  have hunfinished : Unfinished workId work.goalId (GoalSucceeded work.goalId w.store) w.store := by
    refine ⟨hreach.wellFormed, ?_, ?_, Iff.rfl⟩
    · rintro ⟨work', hwork', hsucceeded⟩
      rw [hwork, Option.some.injEq] at hwork'
      rw [← hwork', hpending] at hsucceeded
      cases hsucceeded
    · intro work' hwork'
      rw [hwork, Option.some.injEq] at hwork'
      rw [hwork']
  have hnew : NotStarted workId w.store := by
    intro work' hwork'
    rw [hwork, Option.some.injEq] at hwork'
    exact .inl (hwork' ▸ hpending)
  have hends : EndsBeside overseerHandler (besideCancels others)
      (untilFinish c tools project task saved workId (env.sub 0)) 0 w
      (fun reached _ w' => CameTo c tools task workId work.goalId (GoalSucceeded work.goalId w.store) w reached w')
      fun _ _ w' => Unfinished workId work.goalId (GoalSucceeded work.goalId w.store) w'.store ∧ w'.files = w.files :=
    endsBeside_untilFinish hothers hunfinished hnew hstate (env.sub 0)
  unfold EndsBeside at hends
  rw [afterExecution_eq]
  unfold RecordsFollow
  generalize evalTaskBeside overseerHandler (besideCancels others) _ 0 w = result at hends ⊢
  obtain ⟨outcome, n', w'⟩ := result
  cases outcome with
  | error e => exact agree_untouched_iff hends.1 hends.2
  | ok reached =>
    cases reached with
    | none => exact agree_untouched_iff hends.1 hends.2
    | some o => exact agree_finish_iff hothers hends (env.sub 1)

def webTask : ChangeTask := ⟨"/projects/web", false, ["pytest"]⟩

def webProject : RegisteredProject := ⟨"/projects/web", none⟩

/-- The worker rewrites the module, the reviewer agrees, the tests pass. -/
def changeTools : Tools ChangeTask where
  worker _ candidate := (.finished ⟨some "codex", [], []⟩, candidate.set "app.py" (.file [50]))
  reviewer _ _ _ := .ok true
  verifier _ candidate := (.ok true, candidate)
  redactInfo info := .ok info
  protectedPaths := []

def pendingCalls : List StoreCall :=
  [⟨.createGoal sampleGoal sampleEvent, frozenSupply⟩, ⟨.createWork sampleWork sampleEvent, frozenSupply⟩]

def pendingWorld : OverseerWorld := ⟨MachineRuns.run storeStep .empty pendingCalls, webFiles⟩

def webAfter (others : ℕ → List StoreCall) : OverseerWorld :=
  afterExecution webChange changeTools (some webProject) webTask .empty "changes/work_1" ⟨"work_1"⟩ frozenSupply
    others pendingWorld

/-- Nobody cancels: the change is promoted and recorded. -/
theorem undisturbedChange_recorded :
    FilesAndRecordsAgree webChange webRoot ⟨"work_1"⟩ ⟨"goal_1"⟩ (webAfter fun _ => []) ∧
      RecordsFollow webChange changeTools (some webProject) webTask .empty ⟨"work_1"⟩ frozenSupply (fun _ => [])
        pendingWorld := by
  have hdiffers : ProjectDiffers webChange webRoot (webAfter fun _ => []).files := ⟨"app.py", by decide +kernel⟩
  have hwork : (webAfter fun _ => []).store.WorkIs ⟨"work_1"⟩ .succeeded :=
    Option.map_eq_some_iff.mp (by decide +kernel :
      ((webAfter fun _ => []).store.work.get? ⟨"work_1"⟩).map WorkRecord.status = some .succeeded)
  have hgoal : GoalSucceeded ⟨"goal_1"⟩ (webAfter fun _ => []).store :=
    Option.map_eq_some_iff.mp (by decide +kernel :
      ((webAfter fun _ => []).store.goals.get? ⟨"goal_1"⟩).map GoalRecord.status = some .succeeded)
  have hagree : FilesAndRecordsAgree webChange webRoot ⟨"work_1"⟩ ⟨"goal_1"⟩ (webAfter fun _ => []) :=
    ⟨iff_of_true hdiffers hwork, iff_of_true hgoal hwork⟩
  exact ⟨hagree, ((filesAndRecordsAgree_iff ⟨pendingCalls, rfl⟩ (by rfl : _ = some sampleWork) rfl
    (by rintro data ⟨⟩) (by rintro n call ⟨⟩)).mp hagree).2⟩

/-- The Work is cancelled at the revision that the start gave it, right before the batch. -/
def cancelBeforeBatch (n : ℕ) : List StoreCall :=
  if n = 5 then [⟨.transitionWorkStatus ⟨"work_1"⟩ .cancelled 2 sampleEvent none, frozenSupply⟩] else []

/-- The change is promoted, the batch is refused, and the cancelled Work keeps the changed project. -/
theorem cancelledWork_disagrees :
    ¬∀ (c : ProjectChange) (tools : Tools ChangeTask) (project : Option RegisteredProject) (task : ChangeTask)
      (saved : Info) (artifact : String) (workId : WorkId) (env : Supply) (others : ℕ → List StoreCall)
      (w : OverseerWorld) (work : WorkRecord), StoreReachable w.store → w.store.work.get? workId = some work →
        work.status = .pending → ¬GoalSucceeded work.goalId w.store → NotApplying w.files →
        (∀ n, ∀ call ∈ others n, Cancels call.op) →
        FilesAndRecordsAgree c w.files.root workId work.goalId
          (afterExecution c tools project task saved artifact workId env others w) := by
  intro h
  have hgoal : ¬GoalSucceeded ⟨"goal_1"⟩ pendingWorld.store := by
    rintro ⟨goal, hget, hsucceeded⟩
    have hactive : (pendingWorld.store.goals.get? ⟨"goal_1"⟩).map GoalRecord.status = some .active := by decide +kernel
    rw [hget, Option.map_some, hsucceeded] at hactive
    cases hactive
  have hcancels : ∀ n, ∀ call ∈ cancelBeforeBatch n, Cancels call.op := by
    intro n call hcall
    unfold cancelBeforeBatch at hcall
    split at hcall
    · rw [List.mem_singleton] at hcall
      rw [hcall]
      exact .inr rfl
    · cases hcall
  have hagree : FilesAndRecordsAgree webChange webRoot ⟨"work_1"⟩ ⟨"goal_1"⟩ (webAfter cancelBeforeBatch) :=
    h webChange changeTools (some webProject) webTask .empty "changes/work_1" ⟨"work_1"⟩ frozenSupply
      cancelBeforeBatch pendingWorld sampleWork ⟨pendingCalls, rfl⟩ rfl rfl hgoal (by rintro data ⟨⟩) hcancels
  obtain ⟨work, hget, hsucceeded⟩ := hagree.1.mp ⟨"app.py", by decide +kernel⟩
  have hcancelled : ((webAfter cancelBeforeBatch).store.work.get? ⟨"work_1"⟩).map WorkRecord.status =
      some .cancelled := by decide +kernel
  rw [hget, Option.map_some, hsucceeded] at hcancelled
  cases hcancelled

end AllTomorrow.Overseer
