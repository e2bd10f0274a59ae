import AllTomorrow.SemanticStoreEffects

/-!
# What one store call can do to one record

For each kind of record, the ways in which a call can change what is stored under
one identifier: nothing, a creation, or one move allowed by the status table. All
other facts about single records are case analyses of these four lists.
-/

namespace AllTomorrow

open EStateM (run_bind run_get run_modify run_ofExcept_error run_ofExcept_ok run_throw_any)

open InMemoryStore

variable {env : Supply} {s : InMemoryStore} {op : StoreOp} {r : EStateM.Result Exn InMemoryStore op.Result}

inductive GoalChange (env : Supply) (s : InMemoryStore) (k : GoalId) : StoreOp → Option GoalRecord → Prop where
  | kept {op : StoreOp} : GoalChange env s k op (s.goals.get? k)
  | created {goal : GoalRecord} {event : SemanticEvent} (hkey : goal.goalId = k) (hfresh : s.goals.get? k = none) :
      GoalChange env s k (.createGoal goal event) (some goal)
  | moved {g : GoalRecord} {target : GoalStatus} {event : SemanticEvent} {evidence : Option Evidence}
      (hget : s.goals.get? k = some g) (hmem : target ∈ goalTransitions g.status) :
      GoalChange env s k (.transitionGoalStatus k target g.revision event evidence) (some (g.moved env target))

inductive WorkChange (env : Supply) (s : InMemoryStore) (k : WorkId) : StoreOp → Option WorkRecord → Prop where
  | kept {op : StoreOp} : WorkChange env s k op (s.work.get? k)
  | created {work : WorkRecord} {event : SemanticEvent} (hkey : work.workId = k) (hfresh : s.work.get? k = none)
      (hgoal : ∃ g, s.goals.get? work.goalId = some g) : WorkChange env s k (.createWork work event) (some work)
  | moved {w : WorkRecord} {target : WorkStatus} {event : SemanticEvent} {evidence : Option Evidence}
      (hget : s.work.get? k = some w) (hmem : target ∈ workTransitions w.status) :
      WorkChange env s k (.transitionWorkStatus k target w.revision event evidence)
        (some (w.moved (env.sub 0) target))
  | claimed {w : WorkRecord} {limit : ℤ} (hget : s.work.get? k = some w) (hmem : w ∈ s.claimCandidates limit)
      (env' : Supply) : WorkChange env s k (.claimPendingWork limit) (some (w.moved env' .running))

inductive RunChange (env : Supply) (s : InMemoryStore) (k : RunId) : StoreOp → Option RunRecord → Prop where
  | kept {op : StoreOp} : RunChange env s k op (s.runs.get? k)
  | created {run : RunRecord} {event : SemanticEvent} (hkey : run.runId = k) (hfresh : s.runs.get? k = none)
      (hwork : ∃ w, s.work.get? run.workId = some w)
      (hactive : run.isActive = true → ∀ r ∈ s.runs.values, r.workId = run.workId → r.isActive = false) :
      RunChange env s k (.createRun run event) (some run)
  | attached {x : RunRecord} {rev : ℤ} {ref : ExecutionRef} {event : SemanticEvent}
      (hget : s.runs.get? k = some x) (hrev : s.runRevisions.get? k = some rev) :
      RunChange env s k (.attachExecutionRef k rev ref event) (some (x.attached env ref))
  | moved {x : RunRecord} {target : RunStatus} {rev : ℤ} {event : SemanticEvent} {ref : Option ExecutionRef}
      (hget : s.runs.get? k = some x) (hrev : s.runRevisions.get? k = some rev)
      (hmem : target ∈ runTransitions x.status) :
      RunChange env s k (.transitionRunStatus k target rev event ref) (some (x.moved env target ref))

inductive QuestionChange (env : Supply) (s : InMemoryStore) (k : QuestionId) :
    StoreOp → Option QuestionRecordSemantic → Prop where
  | kept {op : StoreOp} : QuestionChange env s k op (s.questions.get? k)
  | created {question : QuestionRecordSemantic} (hkey : question.questionId = k)
      (hfresh : s.questions.get? k = none)
      (hclash : question.status = .pending → ∀ workId, question.workId = some workId →
        ∀ q ∈ s.questions.values, q.workId = some workId → q.status ≠ .pending) :
      QuestionChange env s k (.createQuestion question) (some question)
  | answered {q : QuestionRecordSemantic} {answerRef signalCorrelation : String}
      (hget : s.questions.get? k = some q) (hpending : q.status = .pending) :
      QuestionChange env s k (.answerQuestion k q.revision answerRef signalCorrelation)
        (some (q.answered env answerRef signalCorrelation))

theorem Effect.goal_change (h : Effect env s op r) (k : GoalId) : GoalChange env s k op (r.state.goals.get? k) := by
  cases h with
  | goalCreated goal event hfresh =>
    rcases s.goals.get?_set_cases goal.goalId goal k with ⟨rfl, hset⟩ | ⟨_, hset⟩
    · rw [EStateM.Result.state_ok, hset]
      exact .created rfl hfresh
    · rw [EStateM.Result.state_ok, hset]
      exact .kept
  | @goalMoved goalId target event evidence current hget hterm hmem =>
    rcases s.goals.get?_set_cases goalId (current.moved env target) k with ⟨rfl, hset⟩ | ⟨_, hset⟩
    · rw [EStateM.Result.state_ok, hset]
      exact .moved hget hmem
    · rw [EStateM.Result.state_ok, hset]
      exact .kept
  | _ => exact .kept

theorem get?_setAllWork_cases (d : InsertionDict WorkId WorkRecord) (ws : List WorkRecord) (k : WorkId) :
    (setAllWork d ws).get? k = d.get? k ∨ ∃ w ∈ ws, w.workId = k ∧ (setAllWork d ws).get? k = some w := by
  induction ws generalizing d with
  | nil => exact .inl rfl
  | cons w ws ih =>
    change (setAllWork (d.set w.workId w) ws).get? k = d.get? k ∨
      ∃ v ∈ w :: ws, v.workId = k ∧ (setAllWork (d.set w.workId w) ws).get? k = some v
    rcases ih (d.set w.workId w) with hkeep | ⟨v, hv, hkey, hget⟩
    · rcases d.get?_set_cases w.workId w k with ⟨rfl, hset⟩ | ⟨_, hset⟩
      · exact .inr ⟨w, List.mem_cons_self, rfl, hkeep.trans hset⟩
      · exact .inl (hkeep.trans hset)
    · exact .inr ⟨v, List.mem_cons_of_mem w hv, hkey, hget⟩

theorem get?_setAllWork_of_mem {d : InsertionDict WorkId WorkRecord} {ws : List WorkRecord}
    (hnodup : (ws.map WorkRecord.workId).Nodup) {w : WorkRecord} (hw : w ∈ ws) :
    (setAllWork d ws).get? w.workId = some w := by
  induction ws generalizing d with
  | nil => cases hw
  | cons v ws ih =>
    rw [List.map_cons, List.nodup_cons] at hnodup
    rcases List.mem_cons.mp hw with rfl | hw
    · rcases get?_setAllWork_cases (d.set w.workId w) ws w.workId with hkeep | ⟨u, hu, hkey, _⟩
      · exact hkeep.trans (d.get?_set_self _ _)
      · exact absurd (hkey ▸ List.mem_map_of_mem hu) hnodup.1
    · exact ih hnodup.2 hw

theorem Effect.work_change (h : Effect env s op r) (hs : s.WellFormed) (k : WorkId) :
    WorkChange env s k op (r.state.work.get? k) := by
  cases h with
  | workCreated work event hfresh hgoal =>
    rcases s.work.get?_set_cases work.workId work k with ⟨rfl, hset⟩ | ⟨_, hset⟩
    · rw [EStateM.Result.state_ok, hset]
      exact .created rfl hfresh hgoal
    · rw [EStateM.Result.state_ok, hset]
      exact .kept
  | @workMoved workId target event evidence current hget hterm hmem htarget =>
    rcases s.work.get?_set_cases workId (current.moved (env.sub 0) target) k with ⟨rfl, hset⟩ | ⟨_, hset⟩
    · rw [EStateM.Result.state_ok, hset]
      exact .moved hget hmem
    · rw [EStateM.Result.state_ok, hset]
      exact .kept
  | @workSucceeded workId event evidence current outcome hget hterm hmem htype hid hstatus hev =>
    rcases s.work.get?_set_cases workId (current.moved (env.sub 0) .succeeded) k with ⟨rfl, hset⟩ | ⟨_, hset⟩
    · rw [EStateM.Result.state_ok, hset]
      exact .moved hget hmem
    · rw [EStateM.Result.state_ok, hset]
      exact .kept
  | workClaimed limit =>
    rw [EStateM.Result.state_ok]
    rcases get?_setAllWork_cases s.work (claimedRecords env (s.claimCandidates limit)) k with
      hkeep | ⟨w, hw, hkey, hget⟩
    · rw [hkeep]
      exact .kept
    · obtain ⟨v, hv, env', rfl⟩ := mem_claimedRecords hw
      obtain ⟨j, hj⟩ := InsertionDict.mem_values_iff.mp (claimCandidates_pending hv).1
      have hkey' : j = k := (hs.work_key j v hj).symm.trans hkey
      subst hkey'
      rw [hget]
      exact .claimed hj hv env'
  | _ => exact .kept

theorem Effect.run_change (h : Effect env s op r) (k : RunId) : RunChange env s k op (r.state.runs.get? k) := by
  cases h with
  | runCreated run event hfresh hwork hactive =>
    rcases s.runs.get?_set_cases run.runId run k with ⟨rfl, hset⟩ | ⟨_, hset⟩
    · rw [EStateM.Result.state_ok, hset]
      exact .created rfl hfresh hwork hactive
    · rw [EStateM.Result.state_ok, hset]
      exact .kept
  | @refAttached runId rev ref event current hget hrev hnone =>
    rcases s.runs.get?_set_cases runId (current.attached env ref) k with ⟨rfl, hset⟩ | ⟨_, hset⟩
    · rw [EStateM.Result.state_ok, hset]
      exact .attached hget hrev
    · rw [EStateM.Result.state_ok, hset]
      exact .kept
  | @runMoved runId target rev event ref current hget hrev hterm hmem =>
    rcases s.runs.get?_set_cases runId (current.moved env target ref) k with ⟨rfl, hset⟩ | ⟨_, hset⟩
    · rw [EStateM.Result.state_ok, hset]
      exact .moved hget hrev hmem
    · rw [EStateM.Result.state_ok, hset]
      exact .kept
  | _ => exact .kept

theorem Effect.question_change (h : Effect env s op r) (k : QuestionId) :
    QuestionChange env s k op (r.state.questions.get? k) := by
  cases h with
  | questionCreated question hfresh hclash =>
    rcases s.questions.get?_set_cases question.questionId question k with ⟨rfl, hset⟩ | ⟨_, hset⟩
    · rw [EStateM.Result.state_ok, hset]
      exact .created rfl hfresh hclash
    · rw [EStateM.Result.state_ok, hset]
      exact .kept
  | @questionAnswered questionId answerRef correlation current hget hpending =>
    rcases s.questions.get?_set_cases questionId (current.answered env answerRef correlation) k with
      ⟨rfl, hset⟩ | ⟨_, hset⟩
    · rw [EStateM.Result.state_ok, hset]
      exact .answered hget hpending
    · rw [EStateM.Result.state_ok, hset]
      exact .kept
  | _ => exact .kept

def Accepted (s : InMemoryStore) (c : StoreCall) : Prop := ∃ v s', c.result s = .ok v s'

section Step

variable (c : StoreCall)

theorem accepted_or_same (hs : s.WellFormed) : Accepted s c ∨ storeStep s c = s := by
  obtain ⟨op, env⟩ := c
  have heffect := exec_effect env hs op
  simp only [Accepted, storeStep, StoreCall.result]
  generalize (op.exec env).run s = r at heffect
  cases r with
  | ok v s' => exact .inl ⟨v, s', rfl⟩
  | error e s' =>
    right
    cases heffect with
    | raised e' => rfl

theorem goal_change_step (hs : s.WellFormed) (k : GoalId) : GoalChange c.env s k c.op ((storeStep s c).goals.get? k) :=
  (exec_effect c.env hs c.op).goal_change k

theorem work_change_step (hs : s.WellFormed) (k : WorkId) : WorkChange c.env s k c.op ((storeStep s c).work.get? k) :=
  (exec_effect c.env hs c.op).work_change hs k

theorem run_change_step (hs : s.WellFormed) (k : RunId) : RunChange c.env s k c.op ((storeStep s c).runs.get? k) :=
  (exec_effect c.env hs c.op).run_change k

theorem question_change_step (hs : s.WellFormed) (k : QuestionId) :
    QuestionChange c.env s k c.op ((storeStep s c).questions.get? k) :=
  (exec_effect c.env hs c.op).question_change k

end Step

variable {target : WorkStatus}

theorem run_transitionWorkStatus (env : Supply) (event : SemanticEvent) (evidence : Option Evidence) {k : WorkId} {w : WorkRecord} (hget : s.work.get? k = some w)
    (hmem : target ∈ workTransitions w.status) (htarget : target ≠ .succeeded) :
    (InMemoryStore.transitionWorkStatus env k target w.revision event evidence).run s = .ok (w.moved (env.sub 0) target)
        { s with work := s.work.set k (w.moved (env.sub 0) target), events := s.events ++ [event] } := by
  have hterm : w.status ∉ terminalWorkStatuses := by
    intro hterm
    rw [workTransitions_terminal hterm] at hmem
    exact absurd hmem List.not_mem_nil
  have hmove : transitionWork (env.sub 0) w target evidence = .ok (w.moved (env.sub 0) target) := by
    unfold transitionWork
    rw [except_bind_ok]
    refine ⟨(), guardTransition_ok.mpr ⟨hterm, hmem⟩, ?_⟩
    rw [if_neg htarget]
    rfl
  simp only [InMemoryStore.transitionWorkStatus, run_bind, run_get, hget, checkRevision_self,
    run_ofExcept_ok, hmove, run_modify, run_pushEvent, htarget, if_false, EStateM.run_pure]

theorem pending_not_mem_workTransitions (status : WorkStatus) : WorkStatus.pending ∉ workTransitions status := by
  cases status <;> decide

/-! ## What a refused move raises -/

variable {e : Exn}

theorem guardTransition_error {S : Type} [DecidableEq S] {kind : String} {value : S → String} {terminal : List S}
    {table : S → List S} {ident : String} {status target : S}
    (h : guardTransition kind value terminal table ident status target = .error e) : e.isDomainError = true := by
  unfold guardTransition at h
  split at h
  · cases h
    rfl
  · split at h
    · cases h
      rfl
    · cases h

theorem checkRevision_error {actual expected : ℤ} {kind ident : String}
    (h : checkRevision actual expected kind ident = .error e) : e.isDomainError = true := by
  unfold checkRevision at h
  split at h
  · cases h
    rfl
  · cases h

variable {ref : Option ExecutionRef}

theorem transitionRun_error {run : RunRecord} {target : RunStatus}
    (h : transitionRun env run target ref = .error e) : e.isDomainError = true := by
  unfold transitionRun at h
  cases hguard : guardTransition "Run" RunStatus.value terminalRunStatuses runTransitions run.runId.val run.status
      target with
  | error e' =>
    rw [hguard] at h
    cases h
    exact guardTransition_error hguard
  | ok u =>
    rw [hguard] at h
    cases h

variable {evidence : Option Evidence}

theorem transitionWork_error {work : WorkRecord}
    (htarget : target ≠ .succeeded) (h : transitionWork env work target evidence = .error e) : e.isDomainError = true := by
  unfold transitionWork at h
  cases hguard : guardTransition "Work" WorkStatus.value terminalWorkStatuses workTransitions work.workId.val
      work.status target with
  | error e' =>
    rw [hguard] at h
    cases h
    exact guardTransition_error hguard
  | ok u =>
    rw [hguard, if_neg htarget] at h
    cases h

variable {event : SemanticEvent}

/-- A refused move of a Run raises a `DomainError`. -/
theorem transitionRunStatus_error (hs : s.WellFormed) {runId : RunId} {target : RunStatus} {rev : ℤ}
    (h : ((InMemoryStore.transitionRunStatus env runId target rev event ref).run s).outcome = .error e) :
    e.isDomainError = true := by
  unfold InMemoryStore.transitionRunStatus at h
  cases hget : s.runs.get? runId with
  | none =>
    simp only [run_bind, run_get, hget, run_throw_any] at h
    cases h
    rfl
  | some current =>
    obtain ⟨stored, hstored⟩ := hs.run_revision runId current hget
    cases hcheck : checkRevision stored rev "run" runId.val with
    | error e' =>
      simp only [run_bind, run_get, hget, run_storedRunRevision hstored, hcheck,
        run_ofExcept_error] at h
      cases h
      exact checkRevision_error hcheck
    | ok u =>
      cases hmove : transitionRun env current target ref with
      | error e' =>
        simp only [run_bind, run_get, hget, run_storedRunRevision hstored, hcheck, hmove,
          run_ofExcept_ok, run_ofExcept_error] at h
        cases h
        exact transitionRun_error hmove
      | ok updated =>
        simp only [run_bind, run_get, hget, run_storedRunRevision hstored, hcheck, hmove,
          run_ofExcept_ok, run_modify, run_pushEvent] at h
        cases h
/-- A refused move of a Work to another status than SUCCEEDED raises a `DomainError`. -/
theorem transitionWorkStatus_error {workId : WorkId} {rev : ℤ} (htarget : target ≠ .succeeded)
    (h : ((InMemoryStore.transitionWorkStatus env workId target rev event evidence).run s).outcome = .error e) :
    e.isDomainError = true := by
  unfold InMemoryStore.transitionWorkStatus at h
  cases hget : s.work.get? workId with
  | none =>
    simp only [run_bind, run_get, hget, run_throw_any] at h
    cases h
    rfl
  | some current =>
    cases hcheck : checkRevision current.revision rev "work" workId.val with
    | error e' =>
      simp only [run_bind, run_get, hget, hcheck, run_ofExcept_error] at h
      cases h
      exact checkRevision_error hcheck
    | ok u =>
      cases hmove : transitionWork (env.sub 0) current target evidence with
      | error e' =>
        simp only [run_bind, run_get, hget, hcheck, hmove, run_ofExcept_ok,
          run_ofExcept_error] at h
        cases h
        exact transitionWork_error htarget hmove
      | ok updated =>
        simp only [run_bind, run_get, hget, hcheck, hmove, run_ofExcept_ok,
          run_modify, run_pushEvent, htarget, if_false] at h
        cases h

end AllTomorrow
