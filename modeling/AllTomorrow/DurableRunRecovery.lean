import AllTomorrow.DurablePorts

/-!
# Reconciliation of one STARTING Run

What `_reconcile_one` does when it runs alone: a STARTING Run without a reference
is brought to RUNNING with the reference the port holds for it, unless the port
raises or the attempts run out, and in no case is another Run touched.
-/

namespace AllTomorrow

open EStateM (run_bind run_get run_ofExcept_error run_ofExcept_ok run_pure)

open InMemoryStore

variable {π : Type} {P : DurablePort π} {b : DurableRunBridge} {env : Supply}
variable {s s' : InMemoryStore} {p p' : π} {runId : RunId} {rev : ℤ}

/-! ## Single requests -/

theorem evalTask_store (op : StoreOp) (w : InMemoryStore × π) : Prog.evalTask P.handler (portDeps.store op env) w =
      (((op.exec env).run w.1).outcome, ((op.exec env).run w.1).state, w.2) := rfl

theorem evalTask_start (name : String) (payload : PyDict) (key : String) (w : InMemoryStore × π) :
    Prog.evalTask P.handler (portDeps.start env runId name payload key) w = P.start env runId name payload key w := rfl

theorem evalTask_findByRunId (w : InMemoryStore × π) :
    Prog.evalTask P.handler (portDeps.findByRunId runId) w = P.findByRunId runId w := rfl

theorem evalTask_getRun :
    Prog.evalTask P.handler (portDeps.store (.getRun runId) env) (s, p) = (.ok (s.runs.get? runId), (s, p)) := rfl

theorem evalTask_runRevision (h : s.runRevisions.get? runId = some rev) :
    Prog.evalTask P.handler (portDeps.store (.runRevision runId) env) (s, p) = (.ok rev, (s, p)) := by
  rw [← runRevision_of_get? h]
  rfl

structure OnlyRun (runId : RunId) (s s' : InMemoryStore) : Prop where
  runs : ∀ j, j ≠ runId → s'.runs.get? j = s.runs.get? j
  revisions : ∀ j, j ≠ runId → s'.runRevisions.get? j = s.runRevisions.get? j

theorem OnlyRun.refl (runId : RunId) (s : InMemoryStore) : OnlyRun runId s s :=
  ⟨fun _ _ => rfl, fun _ _ => rfl⟩

theorem OnlyRun.trans {a c d : InMemoryStore} (h : OnlyRun runId a c) (h' : OnlyRun runId c d) : OnlyRun runId a d :=
  ⟨fun j hj => (h'.runs j hj).trans (h.runs j hj), fun j hj => (h'.revisions j hj).trans (h.revisions j hj)⟩

def InMemoryStore.writeRun (s : InMemoryStore) (runId : RunId) (r : RunRecord) (rev : ℤ) (event : SemanticEvent) :
    InMemoryStore :=
  { s with
    runs := s.runs.set runId r
    runRevisions := s.runRevisions.set runId rev
    events := s.events ++ [event] }

theorem onlyRun_writeRun (s : InMemoryStore) (runId : RunId) (r : RunRecord) (rev : ℤ) (event : SemanticEvent) :
    OnlyRun runId s (s.writeRun runId r rev event) :=
  ⟨fun _ hj => InsertionDict.get?_set_of_ne _ _ hj, fun _ hj => InsertionDict.get?_set_of_ne _ _ hj⟩

/-- The store holds this Run at this revision. -/
structure StoredRun (s : InMemoryStore) (runId : RunId) (r : RunRecord) (rev : ℤ) : Prop where
  get : s.runs.get? runId = some r
  revision : s.runRevisions.get? runId = some rev

theorem storedRun_writeRun (s : InMemoryStore) (runId : RunId) (r : RunRecord) (rev : ℤ) (event : SemanticEvent) :
    StoredRun (s.writeRun runId r rev event) runId r rev :=
  ⟨InsertionDict.get?_set_self _ _ _, InsertionDict.get?_set_self _ _ _⟩

variable (env) {r : RunRecord}

theorem evalTask_attach (h : StoredRun s runId r rev) (hnone : r.executionRef = none) (ref : ExecutionRef)
    (event : SemanticEvent) :
    ∃ s', Prog.evalTask P.handler (portDeps.store (.attachExecutionRef runId rev ref event) env) (s, p) =
        (.ok (r.attached env ref), (s', p)) ∧ StoredRun s' runId (r.attached env ref) (rev + 1) ∧ OnlyRun runId s s' := by
  have hrun := run_attachExecutionRef env ref event h.get h.revision hnone
  refine ⟨s.writeRun runId (r.attached env ref) (rev + 1) event, ?_, storedRun_writeRun _ _ _ _ _,
    onlyRun_writeRun _ _ _ _ _⟩
  rw [evalTask_store]
  simp only [StoreOp.exec, hrun, EStateM.Result.outcome_ok, EStateM.Result.state_ok, writeRun]

theorem evalTask_attach_stale (h : StoredRun s runId r rev) {expected : ℤ} (hne : rev ≠ expected)
    (ref : ExecutionRef) (event : SemanticEvent) :
    ∃ message, Prog.evalTask P.handler (portDeps.store (.attachExecutionRef runId expected ref event) env) (s, p) =
      (.error (.storeConflictError message), (s, p)) := by
  obtain ⟨message, hcheck⟩ := checkRevision_of_ne hne "run" runId.val
  refine ⟨message, ?_⟩
  rw [evalTask_store]
  simp only [StoreOp.exec, InMemoryStore.attachExecutionRef, run_bind, run_get, h.get,
    run_storedRunRevision h.revision, hcheck, run_ofExcept_error, EStateM.Result.outcome_error,
    EStateM.Result.state_error]

variable {ref : ExecutionRef}

theorem evalTask_reattach (h : StoredRun s runId r rev) {attached : ExecutionRef}
    (hsome : r.executionRef = some attached) (hsame : attached.triple = ref.triple) (event : SemanticEvent) :
    Prog.evalTask P.handler (portDeps.store (.attachExecutionRef runId rev ref event) env) (s, p) = (.ok r, (s, p)) := by
  rw [evalTask_store]
  simp only [StoreOp.exec, InMemoryStore.attachExecutionRef, run_bind, run_get, h.get,
    run_storedRunRevision h.revision, checkRevision_self, run_ofExcept_ok, hsome, sameRef_iff.mpr hsame,
    if_true, run_pure, EStateM.Result.outcome_ok, EStateM.Result.state_ok]

variable {target : RunStatus}

theorem evalTask_transition (h : StoredRun s runId r rev) (hmem : target ∈ runTransitions r.status) (event : SemanticEvent) :
    ∃ s', Prog.evalTask P.handler (portDeps.store (.transitionRunStatus runId target rev event none) env) (s, p) =
        (.ok (r.moved env target none), (s', p)) ∧
      StoredRun s' runId (r.moved env target none) (rev + 1) ∧ OnlyRun runId s s' := by
  have hrun := run_transitionRunStatus env event none h.get h.revision hmem
  refine ⟨s.writeRun runId (r.moved env target none) (rev + 1) event, ?_, storedRun_writeRun _ _ _ _ _,
    onlyRun_writeRun _ _ _ _ _⟩
  rw [evalTask_store]
  simp only [StoreOp.exec, hrun, EStateM.Result.outcome_ok, EStateM.Result.state_ok, writeRun]

/-- A transition with a stale revision or to a status that the table excludes raises. -/
theorem evalTask_transition_raises (h : StoredRun s runId r rev) (expected : ℤ)
    (hraises : rev ≠ expected ∨ target ∉ runTransitions r.status) (event : SemanticEvent) :
    ∃ e, Prog.evalTask P.handler (portDeps.store (.transitionRunStatus runId target expected event none) env) (s, p) =
      (.error e, (s, p)) := by
  rw [evalTask_store]
  by_cases hrev : rev = expected
  · subst hrev
    cases hmove : transitionRun env r target none with
    | ok updated =>
      obtain ⟨_, hmem, _⟩ := transitionRun_ok_iff.mp hmove
      exact absurd hmem (hraises.resolve_left (by simp))
    | error e =>
      refine ⟨e, ?_⟩
      simp only [StoreOp.exec, InMemoryStore.transitionRunStatus, run_bind, run_get, h.get,
        run_storedRunRevision h.revision, checkRevision_self, run_ofExcept_ok, hmove,
        run_ofExcept_error, EStateM.Result.outcome_error, EStateM.Result.state_error]
  · obtain ⟨message, hcheck⟩ := checkRevision_of_ne hrev "run" runId.val
    refine ⟨.storeConflictError message, ?_⟩
    simp only [StoreOp.exec, InMemoryStore.transitionRunStatus, run_bind, run_get, h.get,
      run_storedRunRevision h.revision, hcheck, run_ofExcept_error, EStateM.Result.outcome_error,
      EStateM.Result.state_error]

theorem running_mem_of_starting (h : r.status = .starting) : RunStatus.running ∈ runTransitions r.status := by
  rw [h]
  decide

theorem failed_mem_of_starting (h : r.status = .starting) : RunStatus.failed ∈ runTransitions r.status := by
  rw [h]
  decide

theorem evalTask_runAttached (h : StoredRun s runId r rev) (hstatus : r.status = .starting)
    (ref : ExecutionRef) (recovered : Bool) (attached : RunRecord) :
    ∃ r' s', Prog.evalTask P.handler (b.runAttached portDeps env runId ref recovered attached) (s, p) =
        (.ok ⟨r', some ref, recovered⟩, (s', p)) ∧
      StoredRun s' runId r' (rev + 1) ∧ r'.status = .running ∧ r'.executionRef = r.executionRef ∧ OnlyRun runId s s' := by
  obtain ⟨s', hmove, hstored, honly⟩ := evalTask_transition (P := P) (p := p) (env.sub 2) h
    (running_mem_of_starting hstatus) (b.event (env.sub 1) "run.running" attached .empty)
  refine ⟨r.moved (env.sub 2) .running none, s', ?_, hstored, rfl, Option.none_or, honly⟩
  rw [DurableRunBridge.runAttached, Prog.evalTask_bind_ok (evalTask_runRevision h.revision),
    Prog.evalTask_bind_ok hmove, Prog.evalTask_pure]

theorem evalTask_finishRecovered (h : StoredRun s r.runId r rev) (hstatus : r.status = .starting) (href : r.executionRef = some ref) :
    ∃ r' s', Prog.evalTask P.handler (b.finishRecovered portDeps env r) (s, p) =
        (.ok ⟨r', some ref, true⟩, (s', p)) ∧ OnlyRun r.runId s s' := by
  obtain ⟨s', hmove, _, honly⟩ := evalTask_transition (P := P) (p := p) (env.sub 2) h
    (running_mem_of_starting hstatus) (b.event (env.sub 1) "run.running" r .empty)
  have hkept : (r.moved (env.sub 2) .running none).executionRef = some ref := Option.none_or.trans href
  refine ⟨r.moved (env.sub 2) .running none, s', ?_, honly⟩
  rw [DurableRunBridge.finishRecovered]
  simp only [href, Option.isNone_some, Bool.false_eq_true, if_false, hstatus, if_true]
  rw [Prog.evalTask_bind_ok (evalTask_runRevision h.revision), Prog.evalTask_bind_ok hmove, Prog.evalTask_pure,
    hkept]

theorem evalTask_exhausted {run : RunRecord} (h : StoredRun s run.runId r rev) (hstatus : r.status = .starting) :
    ∃ e r' s', Prog.evalTask P.handler (b.reconcileAttempts portDeps run 0 env) (s, p) = (.error e, (s', p)) ∧
      StoredRun s' run.runId r' (rev + 1) ∧ r'.status = .failed ∧ OnlyRun run.runId s s' := by
  obtain ⟨s', hmove, hstored, honly⟩ := evalTask_transition (P := P) (p := p) ((env.sub 0).sub 3) h
    (failed_mem_of_starting hstatus) (b.event ((env.sub 0).sub 2) "run.reconciliation_failed" r
      (InsertionDict.empty.set "reason" (.str "reconciliation_exhausted")))
  have hmark : Prog.evalTask P.handler (b.markFailedExhausted portDeps (env.sub 0) run) (s, p) =
      (.ok (), (s', p)) := by
    rw [DurableRunBridge.markFailedExhausted, Prog.evalTask_bind_ok (evalTask_getRun (p := p)), h.get]
    simp only [hstatus, ne_eq, not_true_eq_false, if_false]
    rw [Prog.evalTask_bind_ok (evalTask_runRevision h.revision),
      Prog.evalTask_bind_ok (Prog.evalTask_attempt _ _ _), Prog.evalTask_pure, hmove]
  exact ⟨_, _, s', (Prog.evalTask_bind_ok hmark _).trans (Prog.evalTask_throw _ _ _), hstored, rfl, honly⟩

/-! ## One candidate over a port with faults -/

section Faults

variable {valid : π → Prop} {held : π → RunId → Option Execution} {faults : RunId → PortFault}

/-- Only one Run differs, in the store and in the port, and the port keeps what it held. -/
structure Confined (valid : π → Prop) (held : π → RunId → Option Execution) (runId : RunId)
    (w w' : InMemoryStore × π) : Prop where
  store : OnlyRun runId w.1 w'.1
  port_valid : valid w'.2
  port : ∀ j, j ≠ runId → held w'.2 j = held w.2 j
  keeps : ∀ e, held w.2 runId = some e → held w'.2 runId = some e

theorem confined_of_held_eq (hstore : OnlyRun runId s s') (hvalid : valid p') (hheld : held p' = held p) :
    Confined valid held runId (s, p) (s', p') :=
  ⟨hstore, hvalid, fun _ _ => by rw [hheld], fun _ h => by rw [hheld, h]⟩

theorem confined_of_held_update {e : Execution} (hstore : OnlyRun runId s s') (hvalid : valid p')
    (hheld : held p' = Function.update (held p) runId (some e))
    (hwhich : held p runId = some e ∨ held p runId = none) : Confined valid held runId (s, p) (s', p') := by
  refine ⟨hstore, hvalid, ?_, ?_⟩
  · intro j hj
    rw [hheld, Function.update_of_ne hj]
  · intro e' he'
    rw [hheld, Function.update_self]
    rcases hwhich with h | h
    · rw [← h, he']
    · exact absurd (h.symm.trans he') (by simp)

/-- The Run is RUNNING with the reference of the execution that the port holds for it. -/
def Recovered (held : π → RunId → Option Execution) (runId : RunId) (w : InMemoryStore × π) : Prop :=
  ∃ r e, w.1.runs.get? runId = some r ∧ r.status = .running ∧ held w.2 runId = some e ∧ r.executionRef = some e.ref

theorem not_recovered {w : InMemoryStore × π} (hget : w.1.runs.get? runId = some r) (hstatus : r.status ≠ .running) :
    ¬Recovered held runId w := by
  rintro ⟨r', _, hget', hrunning, _⟩
  cases hget.symm.trans hget'
  exact hstatus hrunning

structure AwaitsRef (s : InMemoryStore) (r : RunRecord) (rev : ℤ) : Prop where
  stored : StoredRun s r.runId r rev
  starting : r.status = .starting
  no_ref : r.executionRef = none

def PortFault.Raises (fault : PortFault) (heldFor : Option Execution) : Prop :=
  fault.findRaises.isSome = true ∨ (heldFor = none ∧ fault.startRaises.isSome = true)

/-- The candidates on which `_reconcile_one` raises. -/
def DurableRunBridge.BlockedBy (b : DurableRunBridge) (fault : PortFault) (heldFor : Option Execution) : Prop :=
  b.maxReconcileAttempts ≤ 0 ∨ fault.Raises heldFor ∨ (fault.attaches.isSome = true ∧ b.maxReconcileAttempts = 1)

inductive Disturbed (fault : PortFault) (s : InMemoryStore) (r : RunRecord) (rev : ℤ) : InMemoryStore → Prop where
  | calm (h : fault.attaches = none) : Disturbed fault s r rev s
  | attached {s' : InMemoryStore} (a : ForeignAttach) (h : fault.attaches = some a)
      (stored : StoredRun s' r.runId (r.attached a.env a.ref) (rev + 1)) (only : OnlyRun r.runId s s') :
      Disturbed fault s r rev s'

variable {fault : PortFault}

theorem Disturbed.onlyRun (h : Disturbed fault s r rev s') : OnlyRun r.runId s s' := by
  cases h with
  | calm h => exact OnlyRun.refl _ _
  | attached a h stored only => exact only

theorem Disturbed.starting (h : Disturbed fault s r rev s') (hr : AwaitsRef s r rev) :
    ∃ r', s'.runs.get? r.runId = some r' ∧ r'.status = .starting := by
  cases h with
  | calm h => exact ⟨r, hr.stored.get, hr.starting⟩
  | attached a h stored only => exact ⟨_, stored.get, hr.starting⟩

theorem disturbed_disturb (h : AwaitsRef s r rev) (fault : PortFault) :
    Disturbed fault s r rev (fault.disturb r.runId s) := by
  cases ha : fault.attaches with
  | none =>
    simp only [PortFault.disturb, ha]
    exact .calm ha
  | some a =>
    have hrun := run_attachExecutionRef a.env a.ref a.event h.stored.get
      h.stored.revision h.no_ref
    simp only [PortFault.disturb, ha, runRevision_of_get? h.stored.revision, hrun, EStateM.Result.state_ok]
    exact .attached a ha (storedRun_writeRun s _ _ _ a.event) (onlyRun_writeRun s _ _ _ a.event)

theorem Disturbed.again (h : Disturbed fault s r rev s') : Disturbed fault s r rev (fault.disturb r.runId s') := by
  cases h with
  | calm h =>
    simp only [PortFault.disturb, h]
    exact .calm h
  | attached a h stored only =>
    have hsame : fault.disturb r.runId s' = s' := by
      simp only [PortFault.disturb, h, runRevision_of_get? stored.revision, InMemoryStore.attachExecutionRef,
        run_bind, run_get, stored.get, run_storedRunRevision stored.revision, checkRevision_self,
        run_ofExcept_ok, RunRecord.attached, sameRef_self, if_true, run_pure, EStateM.Result.state_ok]
    rw [hsame]
    exact .attached a h stored only

variable (hP : P.Honours valid held r.runId) (hp : valid p) (h : AwaitsRef s r rev)

include hP hp h

theorem evalTask_find (hfind : (faults r.runId).findRaises = none) :
    ∃ s' p', Prog.evalTask (P.withFaults faults).handler (portDeps.findByRunId r.runId) (s, p) =
        (.ok ((held p r.runId).map Execution.ref), (s', p')) ∧
      Disturbed (faults r.runId) s r rev s' ∧ valid p' ∧ held p' = held p := by
  obtain ⟨p', hanswer, hp', hheld⟩ := hP.find ((faults r.runId).disturb r.runId s) p hp
  refine ⟨_, p', ?_, disturbed_disturb h (faults r.runId), hp', hheld⟩
  rw [evalTask_findByRunId]
  simp only [DurablePort.withFaults, hfind, hanswer]

/-- A port that raises ends the call with its exception. -/
theorem evalTask_obtainRef_raises (hraises : (faults r.runId).Raises (held p r.runId)) :
    ∃ e s' p', Prog.evalTask (P.withFaults faults).handler (DurableRunBridge.obtainRef portDeps env r r.runId) (s, p) =
        (.error e, (s', p')) ∧ Disturbed (faults r.runId) s r rev s' ∧ valid p' ∧ held p' = held p := by
  cases hfind : (faults r.runId).findRaises with
  | some e =>
    have hanswer : Prog.evalTask (P.withFaults faults).handler (portDeps.findByRunId r.runId) (s, p) =
        (.error e, ((faults r.runId).disturb r.runId s, p)) := by
      rw [evalTask_findByRunId]
      simp only [DurablePort.withFaults, hfind]
    exact ⟨e, _, p, Prog.evalTask_bind_error hanswer _, disturbed_disturb h _, hp, rfl⟩
  | none =>
    rw [PortFault.Raises, hfind] at hraises
    obtain ⟨hnone, hstart⟩ := hraises.resolve_left (by simp)
    obtain ⟨e, he⟩ := Option.isSome_iff_exists.mp hstart
    obtain ⟨s₁, p₁, hanswer, hdist, hp₁, hheld⟩ := evalTask_find hP hp h hfind
    rw [hnone, Option.map_none] at hanswer
    have hraise : Prog.evalTask (P.withFaults faults).handler
        (portDeps.start (env.sub 0) r.runId (recoveryWorkflowName r) .empty r.runId.val) (s₁, p₁) =
          (.error e, ((faults r.runId).disturb r.runId s₁, p₁)) := by
      rw [evalTask_start]
      simp only [DurablePort.withFaults, he]
    refine ⟨e, _, p₁, ?_, hdist.again, hp₁, hheld⟩
    rw [DurableRunBridge.obtainRef, Prog.evalTask_bind_ok hanswer]
    exact Prog.evalTask_bind_error hraise _

/-- What recovery obtains from the port: the execution that it held, or a generic one. -/
theorem evalTask_obtainRef (hraises : ¬(faults r.runId).Raises (held p r.runId)) : ∃ e recovered s' p',
      Prog.evalTask (P.withFaults faults).handler (DurableRunBridge.obtainRef portDeps env r r.runId) (s, p) =
        (.ok (e.ref, recovered), (s', p')) ∧
      Disturbed (faults r.runId) s r rev s' ∧ valid p' ∧ held p' = Function.update (held p) r.runId (some e) ∧
      (held p r.runId = some e ∨ (held p r.runId = none ∧ e.workflowName = "at_generic_workflow" ∧ e.payload = .empty)) := by
  obtain ⟨hfind, hstart⟩ := not_or.mp hraises
  have hfind : (faults r.runId).findRaises = none := by simpa using hfind
  obtain ⟨s₁, p₁, hanswer, hdist, hp₁, hheld₁⟩ := evalTask_find hP hp h hfind
  cases hheld : held p r.runId with
  | some e =>
    rw [hheld, Option.map_some] at hanswer
    refine ⟨e, true, s₁, p₁, ?_, hdist, hp₁, ?_, .inl rfl⟩
    · rw [DurableRunBridge.obtainRef, Prog.evalTask_bind_ok hanswer]
      exact Prog.evalTask_pure _ _ _
    · rw [hheld₁, ← hheld, Function.update_eq_self]
  | none =>
    rw [hheld, Option.map_none] at hanswer
    have hclear : (faults r.runId).startRaises = none := by simpa [hheld] using hstart
    obtain ⟨ref, p₂, hstarted, hp₂, hheld₂⟩ := hP.start_new (env.sub 0) (recoveryWorkflowName r) .empty r.runId.val
      ((faults r.runId).disturb r.runId s₁) p₁ hp₁ (by rw [hheld₁, hheld])
    have hnew : Prog.evalTask (P.withFaults faults).handler
        (portDeps.start (env.sub 0) r.runId (recoveryWorkflowName r) .empty r.runId.val) (s₁, p₁) =
          (.ok ref, ((faults r.runId).disturb r.runId s₁, p₂)) := by
      rw [evalTask_start]
      simp only [DurablePort.withFaults, hclear, hstarted]
    refine ⟨⟨ref, recoveryWorkflowName r, .empty⟩, false, _, p₂, ?_, hdist.again, hp₂, ?_, .inr ⟨rfl, rfl, rfl⟩⟩
    · rw [DurableRunBridge.obtainRef, Prog.evalTask_bind_ok hanswer]
      exact (Prog.evalTask_bind_ok hnew _).trans (Prog.evalTask_pure _ _ _)
    · rw [hheld₂, hheld₁]

omit hP hp in
/-- Another actor's attach makes the call lose the revision race; the next attempt, if there
is one, converges on that actor's reference. -/
theorem evalTask_retry {a : ForeignAttach} (hstored : StoredRun s' r.runId (r.attached a.env a.ref) (rev + 1)) (n : ℕ) :
    ∃ result s'', Prog.evalTask P.handler (b.reconcileAttempts portDeps r (n + 1) env) (s', p) =
        (.ok result, (s'', p)) ∧ OnlyRun r.runId s' s'' := by
  have hstarting : (r.attached a.env a.ref).status = .starting := h.starting
  obtain ⟨r', s'', hfinish, honly⟩ := evalTask_finishRecovered (P := P) (p := p) (b := b) (env.sub 1) hstored hstarting
    rfl
  refine ⟨⟨r', some a.ref, true⟩, s'', ?_, honly⟩
  rw [DurableRunBridge.reconcileAttempts, Prog.evalTask_bind_ok (evalTask_getRun (p := p)), hstored.get]
  exact hfinish

theorem evalTask_attempt_raises (hraises : (faults r.runId).Raises (held p r.runId)) (n : ℕ) :
    ∃ e s' p', Prog.evalTask (P.withFaults faults).handler (b.reconcileAttempts portDeps r (n + 1) env) (s, p) =
        (.error e, (s', p')) ∧ Disturbed (faults r.runId) s r rev s' ∧ valid p' ∧ held p' = held p := by
  obtain ⟨e, s', p', hobtain, hdist, hp', hheld⟩ := evalTask_obtainRef_raises (env.sub 3) hP hp h hraises
  refine ⟨e, s', p', ?_, hdist, hp', hheld⟩
  rw [DurableRunBridge.reconcileAttempts, Prog.evalTask_bind_ok (evalTask_getRun (p := p)), h.stored.get]
  simp only [h.no_ref, Option.isSome_none, Bool.false_eq_true, if_false]
  rw [Prog.evalTask_bind_ok (evalTask_runRevision h.stored.revision)]
  exact Prog.evalTask_bind_error hobtain _

/-- An attempt whose attach goes through brings the Run to RUNNING. -/
theorem evalTask_attempt_calm (hraises : ¬(faults r.runId).Raises (held p r.runId))
    (hcalm : (faults r.runId).attaches = none) (n : ℕ) : ∃ result r' e s' p',
      Prog.evalTask (P.withFaults faults).handler (b.reconcileAttempts portDeps r (n + 1) env) (s, p) =
        (.ok result, (s', p')) ∧ OnlyRun r.runId s s' ∧ valid p' ∧ held p' = Function.update (held p) r.runId (some e) ∧
      s'.runs.get? r.runId = some r' ∧ r'.status = .running ∧ r'.executionRef = some e.ref ∧ (held p r.runId = some e ∨
        (held p r.runId = none ∧ e.workflowName = "at_generic_workflow" ∧ e.payload = .empty)) := by
  obtain ⟨e, recovered, s₁, p₁, hobtain, hdist, hp₁, hheld, hwhich⟩ :=
    evalTask_obtainRef (env.sub 3) hP hp h hraises
  cases hdist with
  | attached a ha => exact absurd (hcalm.symm.trans ha) (by simp)
  | calm _ =>
    obtain ⟨s₂, hattach, hstored₂, honly₂⟩ := evalTask_attach (P := P.withFaults faults) (p := p₁) (env.sub 5)
      h.stored h.no_ref e.ref
      (b.event (env.sub 4) "run.reconciled_attach" r (InsertionDict.empty.set "recovered" (.bool recovered)))
    obtain ⟨r₃, s₃, hrunning, hstored₃, hstatus₃, href₃, honly₃⟩ := evalTask_runAttached (P := P.withFaults faults)
      (p := p₁) (b := b) (env.sub 6) hstored₂ h.starting e.ref recovered (r.attached (env.sub 5) e.ref)
    refine ⟨⟨r₃, some e.ref, recovered⟩, r₃, e, s₃, p₁, ?_, honly₂.trans honly₃, hp₁, hheld, hstored₃.get, hstatus₃,
      href₃, hwhich⟩
    rw [DurableRunBridge.reconcileAttempts, Prog.evalTask_bind_ok (evalTask_getRun (p := p)), h.stored.get]
    simp only [h.no_ref, Option.isSome_none, Bool.false_eq_true, if_false]
    rw [Prog.evalTask_bind_ok (evalTask_runRevision h.stored.revision), Prog.evalTask_bind_ok hobtain,
      Prog.evalTask_bind_ok (Prog.evalTask_attempt _ _ _), hattach]
    exact hrunning

/-- An attempt during which another actor attaches its reference leaves the rest to the
attempts that remain. -/
theorem evalTask_attempt_attached (hraises : ¬(faults r.runId).Raises (held p r.runId)) {a : ForeignAttach}
    (ha : (faults r.runId).attaches = some a) (n : ℕ) : ∃ e s' p',
      Prog.evalTask (P.withFaults faults).handler (b.reconcileAttempts portDeps r (n + 1) env) (s, p) =
        Prog.evalTask (P.withFaults faults).handler (b.reconcileAttempts portDeps r n (env.sub 7)) (s', p') ∧
      StoredRun s' r.runId (r.attached a.env a.ref) (rev + 1) ∧ OnlyRun r.runId s s' ∧ valid p' ∧
      held p' = Function.update (held p) r.runId (some e) ∧ (held p r.runId = some e ∨ held p r.runId = none) := by
  obtain ⟨e, recovered, s₁, p₁, hobtain, hdist, hp₁, hheld, hwhich⟩ :=
    evalTask_obtainRef (env.sub 3) hP hp h hraises
  cases hdist with
  | calm hcalm => exact absurd (hcalm.symm.trans ha) (by simp)
  | attached a' ha' hstored honly =>
    cases ha'.symm.trans ha
    have hne : rev + 1 ≠ rev := by omega
    obtain ⟨message, hstale⟩ := evalTask_attach_stale (P := P.withFaults faults) (p := p₁) (env.sub 5)
      hstored hne e.ref
      (b.event (env.sub 4) "run.reconciled_attach" r (InsertionDict.empty.set "recovered" (.bool recovered)))
    refine ⟨e, s₁, p₁, ?_, hstored, honly, hp₁, hheld, hwhich.imp_right And.left⟩
    rw [DurableRunBridge.reconcileAttempts, Prog.evalTask_bind_ok (evalTask_getRun (p := p)), h.stored.get]
    simp only [h.no_ref, Option.isSome_none, Bool.false_eq_true, if_false]
    rw [Prog.evalTask_bind_ok (evalTask_runRevision h.stored.revision), Prog.evalTask_bind_ok hobtain,
      Prog.evalTask_bind_ok (Prog.evalTask_attempt _ _ _), hstale]

/-- A candidate that nothing blocks is dealt with, and recovered if its port calls are calm. -/
theorem evalTask_reconcileOne (hclear : ¬b.BlockedBy (faults r.runId) (held p r.runId)) : ∃ result e s' p',
      Prog.evalTask (P.withFaults faults).handler (b.reconcileOne portDeps env r) (s, p) = (.ok result, (s', p')) ∧
      Confined valid held r.runId (s, p) (s', p') ∧ held p' r.runId = some e ∧
      ((faults r.runId).attaches = none → Recovered held r.runId (s', p') ∧ (held p r.runId = some e ∨
          (held p r.runId = none ∧ e.workflowName = "at_generic_workflow" ∧ e.payload = .empty))) := by
  obtain ⟨hpos, hrest⟩ := not_or.mp hclear
  obtain ⟨hraises, honce⟩ := not_or.mp hrest
  obtain ⟨n, hn⟩ : ∃ n, b.maxReconcileAttempts.toNat = n + 1 := ⟨b.maxReconcileAttempts.toNat - 1, by omega⟩
  rw [DurableRunBridge.reconcileOne, hn]
  cases ha : (faults r.runId).attaches with
  | none =>
    obtain ⟨result, r', e, s', p', heval, honly, hp', hheld, hget, hstatus, href, hwhich⟩ :=
      evalTask_attempt_calm (b := b) env hP hp h hraises ha n
    have hself : held p' r.runId = some e := by rw [hheld, Function.update_self]
    exact ⟨result, e, s', p', heval, confined_of_held_update honly hp' hheld (hwhich.imp_right And.left), hself,
      fun _ => ⟨⟨r', e, hget, hstatus, hself, href⟩, hwhich⟩⟩
  | some a =>
    -- the first attempt loses the race, so a second one must be left
    have htwo : n ≠ 0 := by
      rintro rfl
      exact honce ⟨by rw [ha]; rfl, by omega⟩
    obtain ⟨m, rfl⟩ := Nat.exists_eq_succ_of_ne_zero htwo
    obtain ⟨e, s₁, p₁, heval, hstored, honly, hp₁, hheld, hwhich⟩ :=
      evalTask_attempt_attached (b := b) env hP hp h hraises ha (m + 1)
    obtain ⟨result, s₂, hretry, honly₂⟩ := evalTask_retry (P := P.withFaults faults) (p := p₁) (b := b)
      (env.sub 7) h hstored m
    refine ⟨result, e, s₂, p₁, heval.trans hretry,
      confined_of_held_update (honly.trans honly₂) hp₁ hheld hwhich, ?_, fun h => by simp at h⟩
    rw [hheld, Function.update_self]

/-- A blocked candidate makes the call raise and is not brought to RUNNING. -/
theorem evalTask_reconcileOne_blocked (hblocked : b.BlockedBy (faults r.runId) (held p r.runId)) : ∃ e s' p',
      Prog.evalTask (P.withFaults faults).handler (b.reconcileOne portDeps env r) (s, p) = (.error e, (s', p')) ∧
      Confined valid held r.runId (s, p) (s', p') ∧ ¬Recovered held r.runId (s', p') := by
  rw [DurableRunBridge.reconcileOne]
  by_cases hpos : b.maxReconcileAttempts ≤ 0
  · rw [show b.maxReconcileAttempts.toNat = 0 by omega]
    obtain ⟨e, r', s', heval, hstored, hstatus, honly⟩ := evalTask_exhausted (P := P.withFaults faults) (p := p)
      (b := b) env h.stored h.starting
    exact ⟨e, s', p, heval, confined_of_held_eq honly hp rfl, not_recovered hstored.get (by rw [hstatus]; decide)⟩
  · obtain ⟨n, hn⟩ : ∃ n, b.maxReconcileAttempts.toNat = n + 1 := ⟨b.maxReconcileAttempts.toNat - 1, by omega⟩
    rw [hn]
    by_cases hraises : (faults r.runId).Raises (held p r.runId)
    · obtain ⟨e, s', p', heval, hdist, hp', hheld⟩ :=
        evalTask_attempt_raises (b := b) env hP hp h hraises n
      obtain ⟨r', hget, hstarting⟩ := hdist.starting h
      exact ⟨e, s', p', heval, confined_of_held_eq hdist.onlyRun hp' hheld,
        not_recovered hget (by rw [hstarting]; decide)⟩
    · obtain ⟨hattaches, hone⟩ := (hblocked.resolve_left hpos).resolve_left hraises
      obtain ⟨a, ha⟩ := Option.isSome_iff_exists.mp hattaches
      obtain rfl : n = 0 := by omega
      obtain ⟨e, s₁, p₁, heval, hstored, honly, hp₁, hheld, hwhich⟩ :=
        evalTask_attempt_attached (b := b) env hP hp h hraises ha 0
      obtain ⟨exn, r', s', hexhausted, hstored', hstatus, honly'⟩ := evalTask_exhausted (P := P.withFaults faults)
        (p := p₁) (b := b) (env.sub 7) hstored h.starting
      exact ⟨exn, s', p₁, heval.trans hexhausted, confined_of_held_update (honly.trans honly') hp₁ hheld hwhich,
        not_recovered hstored'.get (by rw [hstatus]; decide)⟩

end Faults

end AllTomorrow
