import AllTomorrow.ReconciliationLoop
import AllTomorrow.ExecutionRefHistory

/-!
# Crashes of `start_run` and one later reconciliation

`start_run` can stop before `port.start`, after it, or after the attach has been
committed. One pass of `reconcile_starting_runs` then recovers the Run in the first
two cases and overlooks it in the third, where the Run is STARTING but no longer a
candidate.
-/

namespace AllTomorrow

open InMemoryStore

variable {π : Type} {P : DurablePort π} {b : DurableRunBridge} {env env' : Supply}
variable {s : InMemoryStore} {p : π} {run : RunRecord} {rev : ℤ}
variable {valid : π → Prop} {held : π → RunId → Option Execution}

/-! ## A pass without faults -/

theorem blockedBy_none {heldFor : Option Execution} : b.BlockedBy {} heldFor ↔ b.maxReconcileAttempts ≤ 0 := by
  simp [DurableRunBridge.BlockedBy, PortFault.Raises]

theorem sameFor_afterPass (env : Supply) (hP : ∀ j, P.Honours valid held j) (hs : s.WellFormed) (hp : valid p)
    (hstored : StoredRun s run.runId run rev) (href : run.executionRef ≠ none) :
    SameFor held run.runId (s, p) (b.afterPass P env (s, p)) := by
  rw [afterPass_eq, ← P.withFaults_none]
  refine sameFor_afterEach _ _ hP _ hp (allAwait_candidates hs) ?_
  intro hmem
  obtain ⟨r, hr, hid⟩ := List.mem_map.mp hmem
  obtain ⟨rev', hawaits⟩ := (allAwait_candidates hs).awaits r hr
  have hget := hawaits.stored.get
  rw [hid, hstored.get, Option.some.injEq] at hget
  exact href (hget ▸ hawaits.no_ref)

/-- One pass recovers a STARTING Run exactly when it has no reference and an attempt is made. -/
theorem recovered_afterPass_iff (env : Supply) (hP : ∀ j, P.Honours valid held j) (hs : s.WellFormed) (hp : valid p)
    (hstored : StoredRun s run.runId run rev) (hstarting : run.status = .starting) :
    Recovered held run.runId (b.afterPass P env (s, p)) ↔ run.executionRef = none ∧ 1 ≤ b.maxReconcileAttempts := by
  constructor
  · intro hrec
    have hnone : run.executionRef = none := by
      by_contra href
      have hsame := sameFor_afterPass (b := b) env hP hs hp hstored href
      exact not_recovered (hsame.run.trans hstored.get) (by rw [hstarting]; decide) hrec
    refine ⟨hnone, ?_⟩
    by_contra hpos
    have hawait := allAwait_candidates hs
    have hmem := mem_candidates ⟨hstored, hstarting, hnone⟩
    rw [afterPass_eq, ← P.withFaults_none] at hrec
    dsimp only at hrec
    cases hcandidates : s.findReconciliationCandidates with
    | nil => exact absurd (hcandidates ▸ hmem) List.not_mem_nil
    | cons c after =>
      rw [hcandidates] at hawait hmem hrec
      have hblocked : b.BlockedBy {} (held p c.runId) := blockedBy_none.mpr (by omega)
      exact not_recovered_afterEach _ _ hP [] hp hawait (by simp) hblocked hmem hrec
  · rintro ⟨hnone, hpos⟩
    have hawait := allAwait_candidates hs
    obtain ⟨before, after, hsplit⟩ := List.append_of_mem (mem_candidates ⟨hstored, hstarting, hnone⟩)
    rw [afterPass_eq, ← P.withFaults_none]
    dsimp only
    rw [hsplit] at hawait ⊢
    exact (recovered_afterEach _ _ hP hp hawait (fun c _ h => by have := blockedBy_none.mp h; omega) rfl).1

theorem generic_afterPass (hP : ∀ j, P.Honours valid held j) (hs : s.WellFormed) (hp : valid p)
    (hawaits : AwaitsRef s run rev) (hpos : 1 ≤ b.maxReconcileAttempts) (hnone : held p run.runId = none) :
    ∃ e, held (b.afterPass P env (s, p)).2 run.runId = some e ∧ e.workflowName = "at_generic_workflow" ∧
      e.payload = .empty := by
  have hawait := allAwait_candidates hs
  obtain ⟨before, after, hsplit⟩ := List.append_of_mem (mem_candidates hawaits)
  rw [afterPass_eq, ← P.withFaults_none]
  dsimp only
  rw [hsplit] at hawait ⊢
  obtain ⟨_, e, hheld, hwhich⟩ :=
    recovered_afterEach (b := b) (env.sub 1) (fun _ => {}) hP hp hawait
      (fun c _ h => by have := blockedBy_none.mp h; omega) rfl
  rcases hwhich with hkept | ⟨_, hgeneric⟩
  · exact absurd (hnone.symm.trans hkept) (by simp)
  · exact ⟨e, hheld, hgeneric⟩

variable {runId : RunId}

theorem held_afterPass (hP : ∀ j, P.Honours valid held j) (hs : s.WellFormed) (hp : valid p) {e : Execution} (hheld : held p runId = some e) : held (b.afterPass P env (s, p)).2 runId = some e := by
  rw [afterPass_eq, ← P.withFaults_none]
  exact held_afterEach _ _ hP _ hp (allAwait_candidates hs) hheld

/-! ## Crash points -/

/-- Where `start_run` stops. -/
inductive CrashPoint where
  | beforeStart | afterStart | afterAttach
  deriving DecidableEq, Repr

/-- The requests that `start_run` has made at a crash point. -/
def CrashPoint.requests : CrashPoint → ℕ
  | .beforeStart => 0
  | .afterStart => 1
  | .afterAttach => 2

/-- The world in which a crash of `start_run` leaves the store and the port. -/
def DurableRunBridge.afterCrash (b : DurableRunBridge) (P : DurablePort π) (point : CrashPoint) (env : Supply)
    (run : RunRecord) (workflowName : String) (payload : PyDict) (runRevision : ℤ) (w : InMemoryStore × π) :
    InMemoryStore × π :=
  Prog.cutTask P.handler point.requests (b.startRun portDeps env run workflowName payload runRevision) w

/-- The world after a `start_run` that is not interrupted. -/
def DurableRunBridge.afterStartRun (b : DurableRunBridge) (P : DurablePort π) (env : Supply) (run : RunRecord)
    (workflowName : String) (payload : PyDict) (runRevision : ℤ) (w : InMemoryStore × π) : InMemoryStore × π :=
  (Prog.evalTask P.handler (b.startRun portDeps env run workflowName payload runRevision) w).2

section StartRun

variable {workflowName : String} {payload : PyDict} {ref : ExecutionRef} {w w' : InMemoryStore × π}

theorem afterCrash_beforeStart : b.afterCrash P .beforeStart env run workflowName payload rev w = w :=
  Prog.cutTask_zero _ _ _

variable {α : Type}

theorem cutTask_start {runId : RunId} {key : String}
    (hstart : P.start env runId workflowName payload key w = (.ok ref, w')) (f : ExecutionRef → BridgeTask α) (n : ℕ) :
    Prog.cutTask P.handler (n + 1) (portDeps.start env runId workflowName payload key >>= f) w =
      Prog.cutTask P.handler n (f ref) w' := by
  change Prog.cut P.handler n (ExceptT.bindCont f (P.start env runId workflowName payload key w).1)
    (P.start env runId workflowName payload key w).2 = _
  rw [hstart]
  rfl

theorem cutTask_store (op : StoreOp) (f : op.Result → BridgeTask α) :
    Prog.cutTask P.handler 1 (portDeps.store op env >>= f) w = (storeStep w.1 ⟨op, env⟩, w.2) := by
  change Prog.cut P.handler 0 (ExceptT.bindCont f (P.handler (.store op env) w).1) _ = _
  rw [Prog.cut_zero]
  rfl

theorem port_of_store_bind (op : StoreOp) {f : op.Result → BridgeTask α} (w : InMemoryStore × π)
    (hf : ∀ v s, (Prog.evalTask P.handler (f v) (s, w.2)).2.2 = w.2) :
    (Prog.evalTask P.handler (portDeps.store op env >>= f) w).2.2 = w.2 := by
  rw [Prog.evalTask_bind, evalTask_store]
  cases ((op.exec env).run w.1).outcome with
  | error e => rfl
  | ok v => exact hf v _

variable (hstarting : run.status = .starting)
variable (hstart : P.start (env.sub 0) run.runId workflowName payload run.runId.val w = (.ok ref, w'))

include hstarting hstart

theorem afterCrash_afterStart : b.afterCrash P .afterStart env run workflowName payload rev w = w' := by
  rw [DurableRunBridge.afterCrash, DurableRunBridge.startRun, if_neg (by simp [hstarting])]
  exact (cutTask_start hstart _ 0).trans (Prog.cutTask_zero _ _ _)

theorem afterCrash_afterAttach : b.afterCrash P .afterAttach env run workflowName payload rev w = (storeStep w'.1
        ⟨.attachExecutionRef run.runId rev ref (b.event (env.sub 1) "run.execution_ref_attached" run
            (InsertionDict.empty.set "backend" (.str ref.backend))), env.sub 2⟩, w'.2) := by
  rw [DurableRunBridge.afterCrash, DurableRunBridge.startRun, if_neg (by simp [hstarting])]
  exact (cutTask_start hstart _ 1).trans (cutTask_store _ _)

theorem port_afterStartRun : (b.afterStartRun P env run workflowName payload rev w).2 = w'.2 := by
  rw [DurableRunBridge.afterStartRun, DurableRunBridge.startRun, if_neg (by simp [hstarting]),
    Prog.evalTask_bind_ok ((evalTask_start _ _ _ _).trans hstart)]
  refine port_of_store_bind _ _ fun attached s₁ => ?_
  refine port_of_store_bind _ _ fun newRev s₂ => ?_
  exact port_of_store_bind _ _ fun running s₃ => rfl

end StartRun

theorem DurablePort.Honours.start (hP : P.Honours valid held runId) (hp : valid p) (env : Supply)
    (workflowName : String) (payload : PyDict) (key : String) (s : InMemoryStore) :
    ∃ ref p' e, P.start env runId workflowName payload key (s, p) = (.ok ref, (s, p')) ∧ valid p' ∧
      held p' runId = some e ∧ ∀ e', held p runId = some e' → e = e' := by
  cases hheld : held p runId with
  | some e =>
    obtain ⟨p', hstart, hp', hsame⟩ := hP.start_held env workflowName payload key s p e hp hheld
    exact ⟨e.ref, p', e, hstart, hp', hsame ▸ hheld, fun e' he' => Option.some.inj he'⟩
  | none =>
    obtain ⟨ref, p', hstart, hp', hupdate⟩ := hP.start_new env workflowName payload key s p hp hheld
    exact ⟨ref, p', ⟨ref, workflowName, payload⟩, hstart, hp', by rw [hupdate, Function.update_self], by simp⟩

theorem storeStep_attach_of_ref {r : RunRecord} {ref : ExecutionRef} {event : SemanticEvent}
    (hs : s.WellFormed) (hget : s.runs.get? runId = some r) (href : r.executionRef ≠ none) :
    storeStep s ⟨.attachExecutionRef runId rev ref event, env⟩ = s := by
  have heff := exec_effect env hs (.attachExecutionRef runId rev ref event)
  unfold storeStep StoreCall.result
  generalize (StoreOp.exec env (.attachExecutionRef runId rev ref event)).run s = result at heff
  cases heff with
  | raised e => rfl
  | read v h => rfl
  | refReattached hget' hrev hsome hsame => rfl
  | refAttached hget' hrev hnone =>
    cases hget.symm.trans hget'
    exact absurd hnone href

theorem starting_after_attach (env : Supply) (ref : ExecutionRef) (event : SemanticEvent) (hs : s.WellFormed)
    (hstored : StoredRun s run.runId run rev) (hstarting : run.status = .starting) :
    ∃ r rev', StoredRun (storeStep s ⟨.attachExecutionRef run.runId rev ref event, env⟩) r.runId r rev' ∧
      r.runId = run.runId ∧ r.status = .starting ∧ r.executionRef ≠ none := by
  by_cases href : run.executionRef = none
  · have hrun := run_attachExecutionRef env ref event hstored.get hstored.revision href
    refine ⟨run.attached env ref, rev + 1, ?_, rfl, hstarting, by simp [RunRecord.attached]⟩
    unfold storeStep StoreCall.result
    simp only [StoreOp.exec, hrun, EStateM.Result.state_ok]
    exact storedRun_writeRun s _ _ _ event
  · rw [storeStep_attach_of_ref hs hstored.get href]
    exact ⟨run, rev, hstored, rfl, hstarting, href⟩

/-! ## What one pass makes of a crash -/

/-- After a crash at any point, one pass brings the Run to RUNNING with the reference the port
holds exactly when the attach had not been committed, for a Run that had no reference and a
bridge that makes an attempt. -/
theorem recovered_after_crash_iff (hP : ∀ j, P.Honours valid held j) (hs : StoreReachable s) (hp : valid p)
    (hstored : StoredRun s run.runId run rev) (hstarting : run.status = .starting) (b : DurableRunBridge)
    (point : CrashPoint) (env env' : Supply) (workflowName : String) (payload : PyDict) :
    Recovered held run.runId
        (b.afterPass P env' (b.afterCrash P point env run workflowName payload rev (s, p))) ↔
      point ≠ .afterAttach ∧ run.executionRef = none ∧ 1 ≤ b.maxReconcileAttempts := by
  obtain ⟨ref, p₁, e, hstart, hp₁, _⟩ := (hP run.runId).start hp (env.sub 0) workflowName payload run.runId.val s
  cases point with
  | beforeStart =>
    rw [afterCrash_beforeStart, recovered_afterPass_iff env' hP hs.wellFormed hp hstored hstarting]
    simp
  | afterStart =>
    rw [afterCrash_afterStart hstarting hstart, recovered_afterPass_iff env' hP hs.wellFormed hp₁ hstored hstarting]
    simp
  | afterAttach =>
    rw [afterCrash_afterAttach hstarting hstart]
    obtain ⟨r, rev', hstored', hid, hstarting', href⟩ := starting_after_attach (env.sub 2) ref
      (b.event (env.sub 1) "run.execution_ref_attached" run
        (InsertionDict.empty.set "backend" (.str ref.backend))) hs.wellFormed hstored hstarting
    have hwf := wellFormed_step s ⟨.attachExecutionRef run.runId rev ref
      (b.event (env.sub 1) "run.execution_ref_attached" run
        (InsertionDict.empty.set "backend" (.str ref.backend))), env.sub 2⟩ hs.wellFormed
    have hiff := recovered_afterPass_iff (b := b) env' hP hwf hp₁ hstored' hstarting'
    rw [hid] at hiff
    refine hiff.trans ?_
    simp [href]

def researchPayload : PyDict := InsertionDict.empty.set "topic" (.str "batteries")

/-- A crash right after `port.start` is recovered. -/
theorem recovered_after_start : Recovered FakeDurableAdapter.held ⟨"run_1"⟩
      (({} : DurableRunBridge).afterPass FakeDurableAdapter.port frozenSupply
        (({} : DurableRunBridge).afterCrash FakeDurableAdapter.port .afterStart frozenSupply sampleRun
          "research_workflow" researchPayload 1 (seededStore, .init))) :=
  (recovered_after_crash_iff FakeDurableAdapter.honours ⟨seedCalls, rfl⟩ FakeDurableAdapter.valid_init ⟨rfl, rfl⟩ rfl
    {} .afterStart frozenSupply frozenSupply "research_workflow" researchPayload).mpr ⟨by decide, rfl, by decide⟩

/-- A crash after the attach leaves the Run in STARTING for good. -/
theorem not_recovered_after_attach : ¬Recovered FakeDurableAdapter.held ⟨"run_1"⟩
      (({} : DurableRunBridge).afterPass FakeDurableAdapter.port frozenSupply
        (({} : DurableRunBridge).afterCrash FakeDurableAdapter.port .afterAttach frozenSupply sampleRun
          "research_workflow" researchPayload 1 (seededStore, .init))) := by
  rintro ⟨r, e, hget, hrunning, _⟩
  have hstatus : (some r).map RunRecord.status = some .starting := by
    rw [← hget]
    decide
  rw [Option.map_some, hrunning] at hstatus
  exact absurd hstatus (by decide)

/-- From `port.start` on, and whenever the port holds an execution already, recovery ends with the
execution of an uninterrupted `start_run`. A crash before `port.start` loses the request: recovery
starts the generic workflow with an empty payload. -/
theorem recovered_execution (hP : ∀ j, P.Honours valid held j) (hs : StoreReachable s) (hp : valid p)
    (hstored : StoredRun s run.runId run rev) (hstarting : run.status = .starting) (b : DurableRunBridge)
    (point : CrashPoint) (env env' : Supply) (workflowName : String) (payload : PyDict) :
    (point ≠ .beforeStart ∨ held p run.runId ≠ none →
      ∃ e, held (b.afterStartRun P env run workflowName payload rev (s, p)).2 run.runId = some e ∧
        held (b.afterPass P env' (b.afterCrash P point env run workflowName payload rev (s, p))).2 run.runId = some e) ∧
    (point = .beforeStart → held p run.runId = none → run.executionRef = none → 1 ≤ b.maxReconcileAttempts →
      ∃ e, held (b.afterPass P env' (b.afterCrash P point env run workflowName payload rev (s, p))).2 run.runId =
          some e ∧ e.workflowName = "at_generic_workflow" ∧ e.payload = .empty) := by
  obtain ⟨ref, p₁, e, hstart, hp₁, hheld₁, hkept⟩ :=
    (hP run.runId).start hp (env.sub 0) workflowName payload run.runId.val s
  constructor
  · intro hpoint
    refine ⟨e, by rw [port_afterStartRun hstarting hstart, hheld₁], ?_⟩
    cases point with
    | beforeStart =>
      obtain ⟨e', he'⟩ := Option.ne_none_iff_exists'.mp (hpoint.resolve_left (by simp))
      rw [afterCrash_beforeStart, hkept e' he']
      exact held_afterPass hP hs.wellFormed hp he'
    | afterStart =>
      rw [afterCrash_afterStart hstarting hstart]
      exact held_afterPass hP hs.wellFormed hp₁ hheld₁
    | afterAttach =>
      rw [afterCrash_afterAttach hstarting hstart]
      exact held_afterPass hP (wellFormed_step s _ hs.wellFormed) hp₁ hheld₁
  · rintro rfl hnone href hpos
    rw [afterCrash_beforeStart]
    exact generic_afterPass hP hs.wellFormed hp ⟨hstored, hstarting, href⟩ hpos hnone

/-- The requested workflow survives a crash right after `port.start`. -/
theorem requested_execution_after_start :
    ∃ e, FakeDurableAdapter.held (({} : DurableRunBridge).afterStartRun FakeDurableAdapter.port frozenSupply sampleRun
        "research_workflow" researchPayload 1 (seededStore, .init)).2 ⟨"run_1"⟩ = some e ∧
      FakeDurableAdapter.held (({} : DurableRunBridge).afterPass FakeDurableAdapter.port frozenSupply
        (({} : DurableRunBridge).afterCrash FakeDurableAdapter.port .afterStart frozenSupply sampleRun
          "research_workflow" researchPayload 1 (seededStore, .init))).2 ⟨"run_1"⟩ = some e :=
  (recovered_execution FakeDurableAdapter.honours ⟨seedCalls, rfl⟩ FakeDurableAdapter.valid_init ⟨rfl, rfl⟩ rfl
    {} .afterStart frozenSupply frozenSupply "research_workflow" researchPayload).1 (.inl (by decide))

/-- After a crash before `port.start` the port holds another workflow than was requested. -/
theorem request_lost_before_start :
    (FakeDurableAdapter.held (({} : DurableRunBridge).afterStartRun FakeDurableAdapter.port frozenSupply sampleRun
        "research_workflow" researchPayload 1 (seededStore, .init)).2 ⟨"run_1"⟩).map Execution.workflowName ≠
      (FakeDurableAdapter.held (({} : DurableRunBridge).afterPass FakeDurableAdapter.port frozenSupply
        (({} : DurableRunBridge).afterCrash FakeDurableAdapter.port .beforeStart frozenSupply sampleRun
          "research_workflow" researchPayload 1 (seededStore, .init))).2 ⟨"run_1"⟩).map Execution.workflowName := by
  decide

end AllTomorrow
