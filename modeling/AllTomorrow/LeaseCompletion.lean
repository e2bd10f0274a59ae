import AllTomorrow.BrokenWork
import AllTomorrow.DeviceTableChanges
import AllTomorrow.ExecutorRequests
import AllTomorrow.LeaseIndex
import AllTomorrow.ReplanBudget

/-!
# What a completed lease says about the Work

`complete_work` closes the lease first and moves the Run and the Work afterwards, each with a
store call of its own. From the closed lease on nothing is undone: a call that the store refuses
leaves the lease COMPLETED, and the two moves of a failure are refused in silence. The call keeps
its word exactly if the store takes every request that it makes after it has closed the lease.
-/

namespace AllTomorrow

open MachineRuns (EveryStep invariant_run run_append run_cons run_nil)

open InMemoryStore Prog

/-! ## Requests that the store takes -/

namespace InMemoryStore

def TakesRunMove (s : InMemoryStore) (runId : RunId) (target : RunStatus) (rev : ℤ) : Prop :=
  ∃ run, s.runs.get? runId = some run ∧ s.runRevisions.get? runId = some rev ∧ target ∈ runTransitions run.status

def TakesWorkMove (s : InMemoryStore) (workId : WorkId) (target : WorkStatus) (rev : ℤ) : Prop :=
  ∃ work, s.work.get? workId = some work ∧ work.revision = rev ∧ target ∈ workTransitions work.status

def WorkIs (s : InMemoryStore) (workId : WorkId) (status : WorkStatus) : Prop :=
  ∃ work, s.work.get? workId = some work ∧ work.status = status

end InMemoryStore

/-- The store takes the request. The move of the Run to FAILED may be refused, and that of the Work if it is
FAILED already. -/
def ServiceAction.Taken (s : InMemoryStore) : ServiceAction → Prop
  | .store (.getWork workId) _ => ∃ work, s.work.get? workId = some work
  | .store (.createRun run _) _ => s.TakesRun run.runId run.workId
  | .store (.transitionRunStatus runId target rev _ _) _ => target = .failed ∨ s.TakesRunMove runId target rev
  | .store (.transitionWorkStatus workId target rev _ _) _ =>
    (s.TakesWorkMove workId target rev ∧ (target = .succeeded → PyText.isBlank workId.val = false)) ∨
      (target = .failed ∧ s.WorkIs workId .failed)
  | _ => True

variable {s : InMemoryStore} {env : Supply} {rev : ℤ}

variable {event : SemanticEvent} {target : RunStatus}

theorem runMove_of_ok (hs : s.WellFormed) {runId : RunId} {ref : Option ExecutionRef} {run : RunRecord}
    (h : ((InMemoryStore.transitionRunStatus env runId target rev event ref).run s).outcome = .ok run) :
    s.TakesRunMove runId target rev := by
  have heffect : Effect env s (.transitionRunStatus runId target rev event ref)
      ((InMemoryStore.transitionRunStatus env runId target rev event ref).run s) :=
    exec_effect env hs (.transitionRunStatus runId target rev event ref)
  generalize (InMemoryStore.transitionRunStatus env runId target rev event ref).run s = result at heffect h
  cases heffect with
  | raised e => cases h
  | read v hread => cases hread
  | runMoved hget hrev hterm hmem => exact ⟨_, hget, hrev, hmem⟩

theorem ok_of_runMove {runId : RunId} (event : SemanticEvent) (ref : Option ExecutionRef)
    (h : s.TakesRunMove runId target rev) :
    ∃ run, ((InMemoryStore.transitionRunStatus env runId target rev event ref).run s).outcome = .ok run := by
  obtain ⟨run, hget, hrev, hmem⟩ := h
  exact ⟨_, congrArg EStateM.Result.outcome (run_transitionRunStatus env event ref hget hrev hmem)⟩

/-- A move of a Work that the store accepts. -/
theorem workMove_of_ok (hs : s.WellFormed) {workId : WorkId} {target : WorkStatus}
    {evidence : Option Evidence} {work : WorkRecord}
    (h : ((InMemoryStore.transitionWorkStatus env workId target rev event evidence).run s).outcome = .ok work) :
    s.TakesWorkMove workId target rev ∧ (target = .succeeded → PyText.isBlank workId.val = false) ∧
      (storeStep s ⟨.transitionWorkStatus workId target rev event evidence, env⟩).WorkIs workId target := by
  have heffect : Effect env s (.transitionWorkStatus workId target rev event evidence)
      ((InMemoryStore.transitionWorkStatus env workId target rev event evidence).run s) :=
    exec_effect env hs (.transitionWorkStatus workId target rev event evidence)
  change _ ∧ _ ∧ ((InMemoryStore.transitionWorkStatus env workId target rev event evidence).run s).state.WorkIs _ _
  generalize (InMemoryStore.transitionWorkStatus env workId target rev event evidence).run s = result at heffect h ⊢
  cases heffect with
  | raised e => cases h
  | read v hread => cases hread
  | workMoved hget hterm hmem htarget =>
    refine ⟨⟨_, hget, rfl, hmem⟩, fun hsucceeded => absurd hsucceeded htarget, ?_⟩
    exact ⟨_, InsertionDict.get?_set_self _ _ _, rfl⟩
  | @workSucceeded _ _ _ current outcome hget hterm hmem htype hid hstatus hevidence =>
    refine ⟨⟨_, hget, rfl, hmem⟩, ?_, ?_⟩
    · intro _
      rw [← hid]
      exact outcome.targetId_nonempty
    · exact ⟨_, InsertionDict.get?_set_self _ _ _, rfl⟩

theorem ok_of_workFailed (env : Supply) {workId : WorkId} (event : SemanticEvent) (h : s.TakesWorkMove workId .failed rev) :
    ∃ work, ((InMemoryStore.transitionWorkStatus env workId .failed rev event none).run s).outcome = .ok work := by
  obtain ⟨work, hget, rfl, hmem⟩ := h
  exact ⟨_, congrArg EStateM.Result.outcome (run_transitionWorkStatus env event none hget hmem (by decide))⟩

theorem verifyCompletionEvidence_completion (env : Supply) (targetType : TargetType) {targetId : String}
    (h : PyText.isBlank targetId = false) (evidence : CompletionEvidence) :
    ∃ outcome, verifyCompletionEvidence env targetType targetId (some (.completion evidence)) = .ok outcome := by
  simp [verifyCompletionEvidence, OutcomeRecord.new, h]

theorem ok_of_workSucceeded (env : Supply) (hs : s.WellFormed) {workId : WorkId} (event : SemanticEvent)
    (evidence : CompletionEvidence) (h : s.TakesWorkMove workId .succeeded rev)
    (hblank : PyText.isBlank workId.val = false) :
    ∃ work, ((InMemoryStore.transitionWorkStatus env workId .succeeded rev event
      (some (.completion evidence))).run s).outcome = .ok work := by
  obtain ⟨work, hget, rfl, hmem⟩ := h
  have hkey : work.workId = workId := hs.work_key _ work hget
  have hterm : work.status ∉ terminalWorkStatuses := by
    intro hterm
    rw [workTransitions_terminal hterm] at hmem
    cases hmem
  obtain ⟨first, hfirst⟩ := verifyCompletionEvidence_completion ((env.sub 0).sub 0) .work
    (hkey ▸ hblank : PyText.isBlank work.workId.val = false) evidence
  obtain ⟨second, hsecond⟩ := verifyCompletionEvidence_completion (env.sub 1) .work hblank evidence
  have hmove : transitionWork (env.sub 0) work .succeeded (some (.completion evidence)) =
      .ok (work.moved (env.sub 0) .succeeded) := by
    unfold transitionWork
    rw [except_bind_ok]
    refine ⟨(), guardTransition_ok.mpr ⟨hterm, hmem⟩, ?_⟩
    rw [if_pos rfl, hfirst]
    rfl
  refine ⟨work.moved (env.sub 0) .succeeded, ?_⟩
  simp only [InMemoryStore.transitionWorkStatus, EStateM.run_bind, EStateM.run_get, hget, checkRevision_self,
    EStateM.run_ofExcept_ok, hmove, EStateM.run_modify, run_pushEvent, if_true, hsecond, EStateM.run_pure]
  rfl

theorem workIs_step {workId : WorkId} {status : WorkStatus} (hterm : status ∈ terminalWorkStatuses) (c : StoreCall)
    (hs : s.WellFormed) (h : s.WorkIs workId status) : (storeStep s c).WorkIs workId status := by
  obtain ⟨work, hget, rfl⟩ := h
  exact ⟨work, terminalWork_step c hs hget (decide_eq_true hterm), rfl⟩

/-! ## A call whose requests are all taken -/

def DeviceCompletion.Holds (workId : String) (s : InMemoryStore) : DeviceCompletion → Prop
  | .succeeded k => k = workId ∧ s.WorkIs ⟨workId⟩ .succeeded
  | .failed k _ => k = workId ∧ s.WorkIs ⟨workId⟩ .failed

section Taken

variable {π : Type} {ext : Externals π} (actor : Actor)

/-- The client makes requests that the store takes, and the others do what they want. -/
abbrev takenContract (π : Type) : Contract ServiceAction (ServiceWorld π) :=
  clientContract (fun _ _ => True) (fun w a => a.Taken w.store) fun _ _ => True

abbrev neverRaises (π : Type) (_ : Exn) (_ : ServiceWorld π) : Prop := False

theorem stable_workIs {workId : WorkId} {status : WorkStatus} (hterm : status ∈ terminalWorkStatuses) :
    Stable (takenContract π) fun w => w.store.WorkIs workId status :=
  stable_of_calls fun _ c hs _ h => workIs_step hterm c hs h

theorem triple_taken {op : StoreOp} {Q : op.Result → InMemoryStore → Prop}
    (hQ : ∀ v, Stable (takenContract π) fun w => Q v w.store)
    (hok : ∀ s : InMemoryStore, s.WellFormed → (ServiceAction.store op env).Taken s →
      ∃ v, ((op.exec env).run s).outcome = .ok v ∧ Q v (storeStep s ⟨op, env⟩)) :
    Triple (ServiceWorld.handler ext) (takenContract π) (fun _ => True) (callStore op env) (fun v w => Q v w.store)
      (neverRaises π) := by
  refine triple_callStore (stable_const True) hQ (fun _ => stable_const False) ?_
  intro w _ hassume
  obtain ⟨v, hv, hpost⟩ := hok w.store hassume.1 hassume.2
  rw [hv]
  exact ⟨trivial, hpost⟩

theorem triple_runRevision (runId : RunId) (env : Supply) :
    Triple (ServiceWorld.handler ext) (takenContract π) (fun _ => True) (callStore (.runRevision runId) env)
      (fun _ _ => True) (neverRaises π) :=
  triple_taken (Q := fun _ _ => True) (fun _ => stable_const True) fun s _ _ => ⟨s.runRevision runId, rfl, trivial⟩

theorem triple_findWork (workId : WorkId) (env : Supply) :
    Triple (ServiceWorld.handler ext) (takenContract π) (fun _ => True) (callStore (.getWork workId) env)
      (fun found _ => ∃ work, found = some work ∧ work.workId = workId) (neverRaises π) := by
  refine triple_taken
    (Q := fun (found : (StoreOp.getWork workId).Result) _ => ∃ work, found = some work ∧ work.workId = workId)
    (fun _ => stable_const _) ?_
  rintro s hs ⟨work, hget⟩
  exact ⟨s.work.get? workId, rfl, work, hget, hs.work_key workId work hget⟩

theorem triple_moveRun {runId : RunId} {target : RunStatus} {event : SemanticEvent} (htarget : target ≠ .failed) :
    Triple (ServiceWorld.handler ext) (takenContract π) (fun _ => True)
      (callStore (.transitionRunStatus runId target rev event none) env) (fun _ _ => True) (neverRaises π) := by
  refine triple_taken (Q := fun _ _ => True) (fun _ => stable_const True) ?_
  intro s _ htaken
  obtain ⟨run, hrun⟩ := ok_of_runMove event none (htaken.resolve_left htarget)
  exact ⟨run, hrun, trivial⟩

theorem triple_obtainRun (env : Supply) (work : WorkRecord) (runs : List RunRecord) :
    Triple (ServiceWorld.handler ext) (takenContract π) (fun _ => True)
      (DeviceAgentService.obtainRun actor env work runs) (fun _ _ => True) (neverRaises π) := by
  cases runs with
  | cons run rest => exact triple_pure (stable_const True) fun _ _ => trivial
  | nil =>
    have hcreate : Triple (ServiceWorld.handler ext) (takenContract π) (fun _ => True)
        (callStore (.createRun (newRunRecord (env.sub 0) work.workId)
          (evt (env.sub 1) actor .runCreated none (some work.workId))) (env.sub 2))
        (fun _ _ => True) (neverRaises π) := by
      refine triple_taken (Q := fun _ _ => True) (fun _ => stable_const True) ?_
      exact fun s _ htaken => ⟨_, createRun_of_takesRun _ htaken, trivial⟩
    apply hcreate.bind (fun _ => stable_const False)
    intro run
    apply (triple_runRevision run.runId (env.sub 3)).bind (fun _ => stable_const False)
    exact fun rev => triple_moveRun (by decide)

theorem triple_reportSuccess (env : Supply) (deviceId : String) (work : WorkRecord) (run : RunRecord)
    (report : DeviceReport) : Triple (ServiceWorld.handler ext) (takenContract π) (fun _ => True)
      (DeviceAgentService.reportSuccess actor env deviceId work run report)
      (fun _ w => w.store.WorkIs work.workId .succeeded) (neverRaises π) := by
  apply (triple_runRevision run.runId (env.sub 0)).bind (fun _ => stable_const False)
  intro rev
  apply (triple_moveRun (by decide)).bind (fun _ => stable_const False)
  intro _
  apply (triple_findWork work.workId (env.sub 4)).bind (fun _ => stable_const False)
  rintro found w ⟨current, rfl, _⟩
  have hmove : ∀ (event : SemanticEvent) (evidence : CompletionEvidence) (env : Supply),
      Triple (ServiceWorld.handler ext) (takenContract π) (fun _ => True)
        (callStore (.transitionWorkStatus work.workId .succeeded current.revision event (some (.completion evidence)))
          env)
        (fun _ w => w.store.WorkIs work.workId .succeeded) (neverRaises π) := by
    intro event evidence env
    refine triple_taken (Q := fun _ s => s.WorkIs work.workId .succeeded) (fun _ => stable_workIs (by decide)) ?_
    intro s hs htaken
    rcases htaken with ⟨htakes, hblank⟩ | ⟨hfailed, _⟩
    · obtain ⟨v, hv⟩ := ok_of_workSucceeded env hs event evidence htakes (hblank rfl)
      exact ⟨v, hv, (workMove_of_ok hs hv).2.2⟩
    · cases hfailed
  exact (hmove _ _ _).bind (fun _ => stable_const False)
    (fun _ => triple_pure (stable_workIs (by decide)) fun _ h => h) w trivial

/-- Both moves of a failure may be refused; then the Work is FAILED already. -/
theorem triple_reportFailure (env : Supply) (deviceId : String) (work : WorkRecord) (run : RunRecord)
    (report : DeviceReport) : Triple (ServiceWorld.handler ext) (takenContract π) (fun _ => True)
      (DeviceAgentService.reportFailure actor env deviceId work run report)
      (fun _ w => w.store.WorkIs work.workId .failed) (neverRaises π) := by
  have hany : ∀ {α : Type} (x : ServiceTask α), Triple (ServiceWorld.handler ext) (takenContract π) (fun _ => True) x
      (fun _ _ => True) (fun _ _ => True) := by
    intro α x
    exact triple_of_requests (onlyRequests_true x.run) (fun _ _ _ _ _ => trivial) (stable_const True)
      fun _ _ _ _ => trivial
  apply ((hany _).attempt_const (stable_const True)).bind (fun _ => stable_const False)
  intro _
  apply (triple_findWork work.workId (env.sub 3)).bind (fun _ => stable_const False)
  rintro found w ⟨current, rfl, _⟩
  have hfailed : Stable (takenContract π) fun w => w.store.WorkIs work.workId .failed := stable_workIs (by decide)
  have hmove : ∀ (event : SemanticEvent) (env : Supply),
      Triple (ServiceWorld.handler ext) (takenContract π) (fun _ => True)
        (callStore (.transitionWorkStatus work.workId .failed current.revision event none) env)
        (fun _ w => w.store.WorkIs work.workId .failed) (fun _ w => w.store.WorkIs work.workId .failed) := by
    intro event env
    refine triple_callStore_const (I := fun s => s.WorkIs work.workId .failed) (stable_const True) hfailed ?_
    intro w _ hassume
    refine ⟨trivial, ?_⟩
    rcases hassume.2 with ⟨htakes, _⟩ | ⟨_, halready⟩
    · obtain ⟨v, hv⟩ := ok_of_workFailed env event htakes
      exact (workMove_of_ok hassume.1 hv).2.2
    · exact workIs_step (by decide) _ hassume.1 halready
  exact ((hmove _ _).attempt_const hfailed).bind (fun _ => stable_const False)
    (fun _ => triple_pure hfailed fun _ h => h) w trivial

/-- If the store takes all its requests, the call returns, and what it returns holds. -/
theorem triple_settleWork (env : Supply) (deviceId workId : String) (report : DeviceReport) :
    Triple (ServiceWorld.handler ext) (takenContract π) (fun _ => True)
      (DeviceAgentService.settleWork actor env deviceId workId report)
      (fun completion w => completion.Holds workId w.store) (neverRaises π) := by
  apply (triple_findWork ⟨workId⟩ (env.sub 1)).bind (fun _ => stable_const False)
  rintro found w ⟨work, rfl, hkey⟩
  have hruns : Triple (ServiceWorld.handler ext) (takenContract π) (fun _ => True)
      (callStore (.listRuns work.workId) (env.sub 2)) (fun _ _ => True) (neverRaises π) :=
    triple_taken (Q := fun _ _ => True) (fun _ => stable_const True) fun s _ _ => ⟨s.listRuns work.workId, rfl, trivial⟩
  refine (?_ : Triple (ServiceWorld.handler ext) (takenContract π) (fun _ => True) _ _ (neverRaises π)) w trivial
  apply hruns.bind (fun _ => stable_const False)
  intro runs
  apply (triple_obtainRun actor (env.sub 3) work _).bind (fun _ => stable_const False)
  intro run
  split
  · apply (triple_reportSuccess actor (env.sub 4) deviceId work run report).bind (fun _ => stable_const False)
    intro _
    apply triple_pure
    · exact Stable.and (stable_const (workId = workId)) (stable_workIs (by decide))
    · exact fun _ h => ⟨rfl, hkey ▸ h⟩
  · apply (triple_reportFailure actor (env.sub 5) deviceId work run report).bind (fun _ => stable_const False)
    intro _
    apply triple_pure
    · exact Stable.and (stable_const (workId = workId)) (stable_workIs (by decide))
    · exact fun _ h => ⟨rfl, hkey ▸ h⟩

end Taken

/-! ## A request that is not taken -/

section Refused

variable {π : Type} (ext : Externals π) (actor : Actor)

/-- A program that ends in `fails` at once when the store does not take a request. -/
abbrev FailsWhenRefused {α : Type} (fails : Except Exn α → ServiceWorld π → Prop) (x : ServiceTask α) : Prop :=
  FailsOn (ServiceWorld.handler ext) (fun w => w.store.WellFormed) (fun w a => ¬a.Taken w.store) fails x.run

abbrev RaisesWhenRefused {α : Type} (x : ServiceTask α) : Prop := FailsWhenRefused ext (fun r _ => ∃ e, r = .error e) x

variable {ext}

theorem raises_callStore {op : StoreOp}
    (hrefused : ∀ s : InMemoryStore, s.WellFormed → ¬(ServiceAction.store op env).Taken s →
      ∃ e, ((op.exec env).run s).outcome = .error e) : RaisesWhenRefused ext (callStore op env) := by
  intro w hs
  refine ⟨?_, trivial⟩
  intro hnot
  obtain ⟨e, he⟩ := hrefused w.store hs hnot
  exact ⟨.error e, congrArg Prog.done he, e, rfl⟩

theorem raises_runRevision (runId : RunId) (env : Supply) : RaisesWhenRefused ext (callStore (.runRevision runId) env) :=
  raises_callStore fun _ _ hnot => absurd trivial hnot

theorem error_of_not_ok {α : Type} {x : Except Exn α} (h : ∀ v, x ≠ .ok v) : ∃ e, x = .error e := by
  cases x with
  | ok v => exact absurd rfl (h v)
  | error e => exact ⟨e, rfl⟩

theorem raises_moveRun {runId : RunId} {target : RunStatus} {event : SemanticEvent} :
    RaisesWhenRefused ext (callStore (.transitionRunStatus runId target rev event none) env) := by
  apply raises_callStore
  intro s hs hnot
  apply error_of_not_ok
  exact fun v hv => hnot (.inr (runMove_of_ok hs hv))

theorem fails_findWork {α : Type} {workId : WorkId} {fails : Except Exn α → ServiceWorld π → Prop}
    {f : Option WorkRecord → ServiceTask α}
    (hnone : ∃ r, (f none).run = .done r ∧ ∀ w, w.store.work.get? workId = none → fails r w)
    (hsome : ∀ work, work.workId = workId → FailsWhenRefused ext fails (f (some work))) :
    FailsWhenRefused ext fails (callStore (.getWork workId) env >>= f) := by
  intro w hs
  obtain ⟨r, hr, hfails⟩ := hnone
  change (_ → ∃ r, (f (w.store.work.get? workId)).run = .done r ∧ _) ∧
    FailsOn _ _ _ fails (f (w.store.work.get? workId)).run
  cases hget : w.store.work.get? workId with
  | none =>
    refine ⟨fun _ => ⟨r, hr, hfails w hget⟩, ?_⟩
    rw [hr]
    trivial
  | some work => exact ⟨fun hnot => absurd ⟨work, hget⟩ hnot, hsome work (hs.work_key workId work hget)⟩

theorem raises_obtainRun (env : Supply) (work : WorkRecord) (runs : List RunRecord) :
    RaisesWhenRefused ext (DeviceAgentService.obtainRun actor env work runs) := by
  cases runs with
  | cons run rest => trivial
  | nil =>
    have hcreate : RaisesWhenRefused ext (callStore (.createRun (newRunRecord (env.sub 0) work.workId)
        (evt (env.sub 1) actor .runCreated none (some work.workId))) (env.sub 2)) :=
      raises_callStore fun s _ hnot => createRun_of_not_takesRun (env.sub 2) _ rfl hnot
    apply failsOn_bind hcreate _ fun e _ => ⟨e, rfl⟩
    intro run
    apply failsOn_bind (raises_runRevision run.runId (env.sub 3)) _ fun e _ => ⟨e, rfl⟩
    exact fun rev => raises_moveRun

theorem raises_reportSuccess (env : Supply) (deviceId : String) (work : WorkRecord) (run : RunRecord)
    (report : DeviceReport) : RaisesWhenRefused ext (DeviceAgentService.reportSuccess actor env deviceId work run report) := by
  apply failsOn_bind (raises_runRevision run.runId (env.sub 0)) _ fun e _ => ⟨e, rfl⟩
  intro rev
  apply failsOn_bind raises_moveRun _ fun e _ => ⟨e, rfl⟩
  intro _
  apply fails_findWork
  · exact ⟨_, rfl, fun _ _ => ⟨_, rfl⟩⟩
  · intro current _
    refine failsOn_bind trivial (fun revision => ?_) fun e _ => ⟨e, rfl⟩
    refine failsOn_bind (raises_callStore ?_) (fun _ => trivial) fun e _ => ⟨e, rfl⟩
    intro s hs hnot
    apply error_of_not_ok
    intro v hv
    obtain ⟨htakes, hblank, _⟩ := workMove_of_ok hs hv
    exact hnot (.inl ⟨htakes, hblank⟩)

def NotFailed (workId : WorkId) : Except Exn Unit → ServiceWorld π → Prop
  | .ok _, w => ¬w.store.WorkIs workId .failed
  | .error _, _ => True

theorem not_failed_of_notTaken (hs : s.WellFormed) {workId : WorkId} {event : SemanticEvent}
    (hnot : ¬(ServiceAction.store (.transitionWorkStatus workId .failed rev event none) env).Taken s) :
    ¬(storeStep s ⟨.transitionWorkStatus workId .failed rev event none, env⟩).WorkIs workId .failed := by
  rcases accepted_or_same ⟨.transitionWorkStatus workId .failed rev event none, env⟩ hs with ⟨v, s', hv⟩ | hsame
  · have hok : ((InMemoryStore.transitionWorkStatus env workId .failed rev event none).run s).outcome = .ok v :=
      congrArg EStateM.Result.outcome hv
    obtain ⟨htakes, hblank, _⟩ := workMove_of_ok hs hok
    exact absurd (.inl ⟨htakes, hblank⟩) hnot
  · rw [hsame]
    exact fun hfailed => hnot (.inr ⟨rfl, hfailed⟩)

theorem fails_reportFailure (env : Supply) (deviceId : String) (work : WorkRecord) (run : RunRecord)
    (report : DeviceReport) : FailsWhenRefused ext (NotFailed work.workId)
      (DeviceAgentService.reportFailure actor env deviceId work run report) := by
  refine failsOn_bind (failsOn_attempt (?_ : TaskRequests (fun a => ∀ s, ServiceAction.Taken s a) _) ?_) ?_
    fun _ _ => trivial
  · refine TaskRequests.bind (taskRequests_callStore fun _ => trivial) fun _ => taskRequests_callStore ?_
    exact fun _ => .inl rfl
  · exact fun a ha w hnot => hnot (ha w.store)
  · intro _
    apply fails_findWork
    · refine ⟨_, rfl, ?_⟩
      rintro w hnone ⟨current, hget, _⟩
      rw [hnone] at hget
      cases hget
    · intro current _ w hs
      -- whatever the store answers, the failure is reported
      refine ⟨fun hnot => ⟨.ok (), rfl, ?_⟩, ?_⟩
      · rw [NotFailed, handler_store]
        exact not_failed_of_notTaken hs hnot
      · trivial

def BreaksWord (workId : String) : Except Exn DeviceCompletion → ServiceWorld π → Prop
  | .ok completion, w => ¬completion.Holds workId w.store
  | .error _, _ => True

theorem fails_settleWork (env : Supply) (deviceId workId : String) (report : DeviceReport) :
    FailsWhenRefused ext (BreaksWord workId) (DeviceAgentService.settleWork actor env deviceId workId report) := by
  apply fails_findWork
  · exact ⟨_, rfl, fun _ _ => trivial⟩
  · intro work hkey
    have hruns : RaisesWhenRefused ext (callStore (.listRuns work.workId) (env.sub 2)) :=
      raises_callStore fun _ _ hnot => absurd trivial hnot
    apply failsOn_bind hruns _ fun _ _ => trivial
    intro runs
    apply failsOn_bind (raises_obtainRun actor (env.sub 3) work _) _ fun _ _ => trivial
    intro run
    split
    · exact failsOn_bind (raises_reportSuccess actor (env.sub 4) deviceId work run report) (fun _ => trivial)
        fun _ _ => trivial
    · refine failsOn_map (fails_reportFailure actor (env.sub 5) deviceId work run report) ?_ fun _ _ => trivial
      rintro _ w hnot ⟨_, hfailed⟩
      exact hnot (hkey ▸ hfailed)

end Refused

/-! ## The call beside other clients -/

section Pools

variable {ι π : Type} (ext : Externals π)

/-- One client completes a lease; the others are any programs of the services. -/
abbrev CompletionPool (ι π : Type) :=
  Pool ι ServiceAction ServiceAction.Answer (Except Exn DeviceCompletion) (ServiceWorld π)

theorem run_completeWork (actor : Actor) (env : Supply) (deviceId token leaseId : String) (report : DeviceReport) :
    (DeviceAgentService.completeWork actor env deviceId token leaseId report).run =
      .act (.completeLease (env.sub 0) deviceId token leaseId) fun answer =>
        match answer with
        | .ok workId => (DeviceAgentService.settleWork actor env deviceId workId report).run
        | .error e => .done (.error e) := by
  refine congrArg (Prog.act (ServiceAction.completeLease (env.sub 0) deviceId token leaseId)) ?_
  funext answer
  cases answer <;> rfl

/-- The first request closes the lease, or raises and leaves everything as it is. -/
theorem handler_completeLease (env : Supply) (deviceId token leaseId : String) (w : ServiceWorld π) :
    (∃ lease, (ServiceWorld.handler ext (.completeLease env deviceId token leaseId) w).1 = .ok lease.workId ∧
      w.devices.leases.get? leaseId = some lease ∧ lease.status = .active ∧
      (ServiceWorld.handler ext (.completeLease env deviceId token leaseId) w).2.devices.leases.get? leaseId =
        some (lease.completed env.utcNow)) ∨
    ∃ e, ServiceWorld.handler ext (.completeLease env deviceId token leaseId) w = (.error e, w) := by
  have hends : EStateM.Ends (DeviceTables.completeLease ext.hashDeviceToken env deviceId token leaseId) w.devices _ _ :=
    DeviceTables.ends_completeLease env deviceId token leaseId
  unfold EStateM.Ends at hends
  cases hresult : DeviceTables.completeLease ext.hashDeviceToken env deviceId token leaseId w.devices with
  | ok workId t' =>
    rw [hresult] at hends
    obtain ⟨_, lease, _, hget, _, hactive, rfl, rfl⟩ := hends
    have hrun : (DeviceTables.completeLease ext.hashDeviceToken env deviceId token leaseId).run w.devices = _ := hresult
    simp only [ServiceWorld.handler, hrun]
    exact .inl ⟨lease, rfl, hget, hactive, InsertionDict.get?_set_self _ _ _⟩
  | error e t' =>
    rw [hresult] at hends
    have hrun : (DeviceTables.completeLease ext.hashDeviceToken env deviceId token leaseId).run w.devices = _ := hresult
    simp only [ServiceWorld.handler, hrun]
    exact .inr ⟨e, congrArg (fun devices => (_, ({ w with devices := devices } : ServiceWorld π))) hends⟩

variable [DecidableEq ι]

abbrev completionStep : CompletionPool ι π → ι → CompletionPool ι π := Pool.step (ServiceWorld.handler ext)

theorem completionStep_store (p : CompletionPool ι π) (i : ι) : (completionStep ext p i).state.store = p.state.store ∨
      ∃ c, (completionStep ext p i).state.store = storeStep p.state.store c := by
  cases hthread : p.threads i with
  | done r =>
    rw [completionStep, Pool.step_done hthread]
    exact .inl rfl
  | act a rest =>
    rw [completionStep, (Pool.step_act hthread).2, handler_store]
    rcases onStore_cases a p.state.store with hsame | ⟨c, _, hcall⟩
    · exact .inl hsame
    · exact .inr ⟨c, hcall⟩

theorem reachable_completionStep (p : CompletionPool ι π) (i : ι) (h : StoreReachable p.state.store) :
    StoreReachable (completionStep ext p i).state.store := by
  rcases completionStep_store ext p i with hsame | ⟨c, hcall⟩
  · rwa [hsame]
  · rw [hcall]
    exact h.next c

/-- A client whose next request, if the step is its own, the store takes. -/
def TakenByStore (i : ι) (p : CompletionPool ι π) (j : ι) : Prop :=
  j = i → ∀ a rest, p.threads i = .act a rest → a.Taken p.state.store

variable {p : CompletionPool ι π} {i : ι} {actor : Actor} {env : Supply} {deviceId workId : String} {report : DeviceReport}

variable {schedule : List ι}

/-- From the closed lease on, the call keeps its word if the store takes its requests. -/
theorem meets_settling (hreach : StoreReachable p.state.store)
    (hi : p.threads i = (DeviceAgentService.settleWork actor env deviceId workId report).run)
    (htaken : EveryStep (completionStep ext) (TakenByStore i) p schedule) :
    Meets (ServiceWorld.handler ext) (takenContract π)
      (Outcome (fun completion w => completion.Holds workId w.store) (neverRaises π))
      ((MachineRuns.run (completionStep ext) p schedule).threads i)
      (MachineRuns.run (completionStep ext) p schedule).state := by
  have hmeets : Meets (ServiceWorld.handler ext) (takenContract π) _
      (DeviceAgentService.settleWork actor env deviceId workId report).run p.state :=
    triple_settleWork actor env deviceId workId report p.state trivial
  rw [← hi] at hmeets
  apply hmeets.run
  intro before j after hsplit
  have hs := (invariant_run (reachable_completionStep ext) hreach before).wellFormed
  constructor
  · exact fun hj a rest hact => ⟨hs, htaken before j after hsplit hj a rest hact⟩
  · intro _
    refine .single ?_
    rcases completionStep_store ext (MachineRuns.run (completionStep ext) p before) j with hsame | ⟨c, hcall⟩
    · exact .inl hsame
    · exact .inr ⟨hs, c, trivial, hcall⟩

/-- From the closed lease on, a request that is not taken ends the call. -/
theorem fails_settling (hreach : StoreReachable p.state.store)
    (hi : p.threads i = (DeviceAgentService.settleWork actor env deviceId workId report).run) (schedule : List ι) :
    FailsOn (ServiceWorld.handler ext) (fun w => w.store.WellFormed) (fun w a => ¬a.Taken w.store) (BreaksWord workId)
      ((MachineRuns.run (completionStep ext) p schedule).threads i) := by
  refine (invariant_run (I := fun q : CompletionPool ι π => StoreReachable q.state.store ∧
    FailsOn (ServiceWorld.handler ext) (fun w => w.store.WellFormed) (fun w a => ¬a.Taken w.store) (BreaksWord workId)
      (q.threads i)) ?_ ⟨hreach, ?_⟩ schedule).2
  · rintro q j ⟨hq, hfails⟩
    refine ⟨reachable_completionStep ext q j hq, ?_⟩
    by_cases hji : j = i
    · subst hji
      cases hthread : q.threads j with
      | done r =>
        rw [completionStep, Pool.step_done hthread, hthread]
        trivial
      | act a rest =>
        rw [hthread] at hfails
        rw [completionStep, (Pool.step_act hthread).1]
        exact (hfails q.state hq.wellFormed).2
    · rwa [completionStep, Pool.step_other q hji]
  · rw [hi]
    exact fails_settleWork actor env deviceId workId report

/-- The property of one interleaving in which client `i` completes a lease. -/
structure CompletionSettled (p : CompletionPool ι π) (i : ι) (leaseId : String) (schedule : List ι) : Prop where
  /-- what the call returns is the status of the Work of the lease that it found -/
  returned : ∀ before after completion, schedule = before ++ after →
    (MachineRuns.run (completionStep ext) p before).threads i = .done (.ok completion) →
      ∃ earlier later lease, before = earlier ++ i :: later ∧ i ∉ earlier ∧
        (MachineRuns.run (completionStep ext) p earlier).state.devices.leases.get? leaseId = some lease ∧
        completion.Holds lease.workId (MachineRuns.run (completionStep ext) p before).state.store
  /-- a call that raises has changed neither the lease nor Works and Runs in any of its steps -/
  raised : ∀ before after e, schedule = before ++ after →
    (MachineRuns.run (completionStep ext) p before).threads i = .done (.error e) →
      ∀ earlier later, before = earlier ++ i :: later →
        (MachineRuns.run (completionStep ext) p (earlier ++ [i])).state.devices.leases.get? leaseId =
            (MachineRuns.run (completionStep ext) p earlier).state.devices.leases.get? leaseId ∧
          (MachineRuns.run (completionStep ext) p (earlier ++ [i])).state.store.work =
            (MachineRuns.run (completionStep ext) p earlier).state.store.work ∧
          (MachineRuns.run (completionStep ext) p (earlier ++ [i])).state.store.runs =
            (MachineRuns.run (completionStep ext) p earlier).state.store.runs

variable {token leaseId : String}

/-- The first step of the call, after the others have made some of theirs: the lease is closed and the Work
is to be settled, or the call has raised and nothing is changed. -/
theorem first_completionStep
    (hi : p.threads i = (DeviceAgentService.completeWork actor env deviceId token leaseId report).run)
    {before : List ι} (hbefore : i ∉ before) :
    (∃ lease, (MachineRuns.run (completionStep ext) p before).state.devices.leases.get? leaseId = some lease ∧
      lease.status = .active ∧ (MachineRuns.run (completionStep ext) p (before ++ [i])).state.devices.leases.get? leaseId =
        some (lease.completed (env.sub 0).utcNow) ∧ (MachineRuns.run (completionStep ext) p (before ++ [i])).threads i =
        (DeviceAgentService.settleWork actor env deviceId lease.workId report).run) ∨
    ∃ e, (MachineRuns.run (completionStep ext) p (before ++ [i])).state =
        (MachineRuns.run (completionStep ext) p before).state ∧
      (MachineRuns.run (completionStep ext) p (before ++ [i])).threads i = .done (.error e) := by
  have hthread := (Pool.run_other (h := ServiceWorld.handler ext) p hbefore).trans
    (hi.trans (run_completeWork actor env deviceId token leaseId report))
  rw [run_append, run_cons, run_nil]
  obtain ⟨hself, hstate⟩ := Pool.step_act hthread
  rw [completionStep, hself, hstate]
  rcases handler_completeLease ext (env.sub 0) deviceId token leaseId
    (MachineRuns.run (completionStep ext) p before).state with ⟨lease, hanswer, hget, hactive, hclosed⟩ | ⟨e, hraised⟩
  · refine .inl ⟨lease, hget, hactive, hclosed, ?_⟩
    rw [hanswer]
  · refine .inr ⟨e, ?_, ?_⟩
    · rw [hraised]
    · rw [hraised]

theorem run_completionStep_join (earlier later : List ι) : MachineRuns.run (completionStep ext) p (earlier ++ i :: later) =
      MachineRuns.run (completionStep ext) (MachineRuns.run (completionStep ext) p (earlier ++ [i])) later := by
  rw [← run_append, List.append_assoc, List.singleton_append]

/-- A request that is not taken ends the call, and what has become of the lease then tells against it. -/
theorem taken_of_completionSettled (hreach : StoreReachable p.state.store)
    (hi : p.threads i = (DeviceAgentService.completeWork actor env deviceId token leaseId report).run) (h : CompletionSettled ext p i leaseId schedule) :
    EveryStep (completionStep ext) (TakenByStore i) p schedule := by
  have hstore := invariant_run (I := fun q : CompletionPool ι π => StoreReachable q.state.store)
    (reachable_completionStep ext) hreach
  rintro before j after hsplit rfl a rest hact
  by_cases hmem : j ∈ before
  · obtain ⟨earlier, later, rfl, hfirst⟩ := List.eq_append_cons_of_mem hmem
    rcases first_completionStep ext hi hfirst with ⟨lease, hget, hactive, hclosed, hsettling⟩ | ⟨e, _, hdone⟩
    · by_contra hnot
      have hfails := fails_settling ext (hstore _) hsettling later
      rw [← run_completionStep_join, hact] at hfails
      obtain ⟨r, hr, hbroken⟩ := (hfails _ (hstore _).wellFormed).1 hnot
      obtain ⟨hself, hstate⟩ := Pool.step_act (h := ServiceWorld.handler ext) hact
      have hstep : Pool.step (ServiceWorld.handler ext) (MachineRuns.run (completionStep ext) p (earlier ++ j :: later)) j =
          MachineRuns.run (completionStep ext) p (earlier ++ j :: (later ++ [j])) := by
        rw [← List.cons_append, ← List.append_assoc, run_append _ _ (earlier ++ j :: later)]
        rfl
      rw [hstep, hr] at hself
      rw [← hstate, hstep] at hbroken
      have hschedule : schedule = (earlier ++ j :: (later ++ [j])) ++ after := by
        simp [hsplit]
      cases r with
      | ok completion =>
        obtain ⟨earlier', later', lease', hbefore, hfirst', hget', hholds⟩ :=
          h.returned _ after completion hschedule hself
        have hsame := MachineRuns.first_unique hbefore hfirst hfirst'
        subst hsame
        rw [hget, Option.some.injEq] at hget'
        subst hget'
        exact hbroken hholds
      | error e =>
        have hkept := (h.raised _ after e hschedule hself earlier (later ++ [j]) rfl).1
        rw [hclosed, hget, Option.some.injEq] at hkept
        rw [← hkept] at hactive
        cases hactive
    · rw [run_completionStep_join, Pool.run_done hdone] at hact
      cases hact
  · rw [Pool.run_other p hmem, hi, run_completeWork] at hact
    cases hact
    trivial

theorem settled_of_taken (hreach : StoreReachable p.state.store) {earlier later after : List ι}
    (htaken : EveryStep (completionStep ext) (TakenByStore i) p ((earlier ++ i :: later) ++ after))
    (hsettling : (MachineRuns.run (completionStep ext) p (earlier ++ [i])).threads i =
      (DeviceAgentService.settleWork actor env deviceId workId report).run) {r : Except Exn DeviceCompletion}
    (hdone : (MachineRuns.run (completionStep ext) p (earlier ++ i :: later)).threads i = .done r) :
    Outcome (fun (completion : DeviceCompletion) w => completion.Holds workId w.store) (neverRaises π) r
      (MachineRuns.run (completionStep ext) p (earlier ++ i :: later)).state := by
  have hlater : EveryStep (completionStep ext) (TakenByStore i)
      (MachineRuns.run (completionStep ext) p (earlier ++ [i])) later := by
    rw [← List.singleton_append, ← List.append_assoc] at htaken
    exact MachineRuns.everyStep_append_right (MachineRuns.everyStep_append_left htaken)
  have hstore := invariant_run (I := fun q : CompletionPool ι π => StoreReachable q.state.store)
    (reachable_completionStep ext) hreach (earlier ++ [i])
  have hmeets := meets_settling ext hstore hsettling hlater
  rw [← run_completionStep_join, hdone] at hmeets
  exact hmeets.done

theorem completionSettled_of_taken (hreach : StoreReachable p.state.store)
    (hi : p.threads i = (DeviceAgentService.completeWork actor env deviceId token leaseId report).run) (htaken : EveryStep (completionStep ext) (TakenByStore i) p schedule) :
    CompletionSettled ext p i leaseId schedule := by
  have hstart := hi.trans (run_completeWork actor env deviceId token leaseId report)
  constructor
  · rintro before after completion rfl hdone
    obtain ⟨earlier, later, rfl, hfirst, _, _⟩ := Pool.split_request hstart hdone
    rcases first_completionStep ext hi hfirst with ⟨lease, hget, _, _, hsettling⟩ | ⟨e, _, hraised⟩
    · exact ⟨earlier, later, lease, rfl, hfirst, hget, settled_of_taken ext hreach htaken hsettling hdone⟩
    · rw [run_completionStep_join, Pool.run_done hraised] at hdone
      cases hdone
  · rintro before after e rfl hdone earlier' later' hbefore'
    obtain ⟨earlier, later, rfl, hfirst, _, _⟩ := Pool.split_request hstart hdone
    rcases first_completionStep ext hi hfirst with ⟨lease, _, _, _, hsettling⟩ | ⟨e', hstate, hraised⟩
    · exact (settled_of_taken ext hreach htaken hsettling hdone).elim
    · have hsame : (MachineRuns.run (completionStep ext) p (earlier' ++ [i])).state =
          (MachineRuns.run (completionStep ext) p earlier').state := by
        rcases MachineRuns.positions_cases hbefore' with ⟨rfl, _⟩ | ⟨between, rfl⟩ | ⟨between, rfl⟩
        · exact hstate
        · -- the call had ended before
          rw [run_append, run_cons, run_nil, completionStep, Pool.step_done]
          rw [run_completionStep_join, Pool.run_done hraised]
        · exact absurd (List.mem_append_right earlier' List.mem_cons_self) hfirst
      rw [hsame]
      exact ⟨rfl, rfl, rfl⟩

/-- Whatever the other clients do: when the call has returned the Work has the status that it reports, and when
it has raised it has changed nothing, exactly if the store takes every request that it makes after it has
closed the lease. -/
theorem completionSettled_iff_taken (hreach : StoreReachable p.state.store)
    (hi : p.threads i = (DeviceAgentService.completeWork actor env deviceId token leaseId report).run)
    (schedule : List ι) :
    CompletionSettled ext p i leaseId schedule ↔ EveryStep (completionStep ext) (TakenByStore i) p schedule :=
  ⟨taken_of_completionSettled ext hreach hi, completionSettled_of_taken ext hreach hi⟩

end Pools

def claimedCalls : List StoreCall := pendingCalls ++ [⟨.claimPendingWork 1, frozenSupply⟩]

def leasedWorld : ServiceWorld Unit :=
  { deviceWorld (MachineRuns.run storeStep .empty claimedCalls) with
    devices := { (deviceWorld .empty).devices with
      leases := InsertionDict.empty.set "lease_1" (.new frozenSupply "work_1" "dev_1" defaultLeaseTtlSeconds)
      leaseByWork := InsertionDict.empty.set "work_1" "lease_1" } }

def completionAndCancel (report : DeviceReport) : CompletionPool Bool Unit where
  threads
    | true => (DeviceAgentService.completeWork executorActor frozenSupply "dev_1" "t" "lease_1" report).run
    | false => (do
        let _ ← ExecutionService.cancelGoal ⟨3, executorActor⟩ frozenSupply ⟨"goal_1"⟩ 1
        return .succeeded "" : ServiceTask DeviceCompletion).run
  state := leasedWorld

def cancelledMeanwhile : List Bool :=
  [true, false, false, false, true, true, true, true, true, true, true, true, true]

/-- The report of a success raises with the lease COMPLETED, and that of a failure returns although the Work
is CANCEL_REQUESTED. -/
theorem completion_overtaken : StoreReachable leasedWorld.store ∧
      ¬CompletionSettled (sampleExternals none (.ok "h")) (completionAndCancel ⟨true, none, 0, []⟩) true "lease_1"
        cancelledMeanwhile ∧
      ¬CompletionSettled (sampleExternals none (.ok "h")) (completionAndCancel ⟨false, none, 0, []⟩) true "lease_1"
        cancelledMeanwhile := by
  refine ⟨⟨claimedCalls, rfl⟩, ?_, ?_⟩
  · intro h
    have hkept := (h.raised cancelledMeanwhile [] _ rfl rfl [] _ rfl).1
    have hstatus := congrArg (Option.map DeviceLeaseRecord.status) hkept
    revert hstatus
    decide
  · intro h
    obtain ⟨_, _, lease, _, _, _, hlease, work, hwork, hfailed⟩ := h.returned cancelledMeanwhile [] _ rfl rfl
    rw [← hlease] at hwork
    have hcancelled : ∃ v, (MachineRuns.run (completionStep (sampleExternals none (.ok "h")))
        (completionAndCancel ⟨false, none, 0, []⟩) cancelledMeanwhile).state.store.work.get? ⟨"work_1"⟩ = some v ∧
        v.status = .cancelRequested := ⟨_, rfl, rfl⟩
    obtain ⟨v, hv, hstatus⟩ := hcancelled
    have hsame : v = work := Option.some.inj (hv.symm.trans hwork)
    rw [hsame, hfailed] at hstatus
    cases hstatus

theorem takenByStore_of {ι π : Type} {p : CompletionPool ι π} {i j : ι} {a : ServiceAction}
    {rest : a.Answer → Prog ServiceAction ServiceAction.Answer (Except Exn DeviceCompletion)}
    (hthread : p.threads i = .act a rest) (htaken : a.Taken p.state.store) : TakenByStore i p j := by
  intro _ a' rest' hact
  rw [hthread] at hact
  cases hact
  exact htaken

/-- The report of a failure, without a cancellation. -/
theorem completionSettled_alone : StoreReachable leasedWorld.store ∧
      CompletionSettled (sampleExternals none (.ok "h")) (completionAndCancel ⟨false, none, 0, []⟩) true "lease_1"
        (List.replicate 10 true) := by
  have hreach : StoreReachable leasedWorld.store := ⟨claimedCalls, rfl⟩
  refine ⟨hreach, (completionSettled_iff_taken _ hreach rfl _).mpr ?_⟩
  simp only [List.replicate, MachineRuns.everyStep_cons, MachineRuns.everyStep_nil, and_true]
  refine ⟨takenByStore_of rfl trivial, takenByStore_of rfl ⟨_, rfl⟩, takenByStore_of rfl trivial,
    takenByStore_of rfl ⟨rfl, ⟨_, rfl⟩, ?_⟩, takenByStore_of rfl trivial,
    takenByStore_of rfl (.inr ⟨_, rfl, rfl, by decide⟩), takenByStore_of rfl trivial,
    takenByStore_of rfl (.inl rfl), takenByStore_of rfl ⟨_, rfl⟩,
    takenByStore_of rfl (.inl ⟨⟨_, rfl, rfl, by decide⟩, fun h => by cases h⟩)⟩
  intro r hr
  cases hr

end AllTomorrow
