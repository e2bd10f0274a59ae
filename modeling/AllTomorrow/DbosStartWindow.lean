import AllTomorrow.CrashTriples
import AllTomorrow.DbosAdapter
import AllTomorrow.ExecutionRefHistory

/-!
# Crashes inside the DBOS adapter

Between the commit of the mapping row and `DBOS.start_workflow` the row names an
execution that does not exist. A process that stops there leaves the row behind, and
the next reconciliation takes it for an execution. If no call stops in that window,
every reference that is attached to a Run has its workflow, at every point of every run.
-/

namespace AllTomorrow

open InMemoryStore Prog

def HasWorkflow (w : DbosWorld) (executionId : String) : Prop := ∃ wf, w.2.workflows.get? executionId = some wf

structure RefsBacked (w : DbosWorld) : Prop where
  wellFormed : w.1.WellFormed
  ref : ∀ runId r ref, w.1.runs.get? runId = some r → r.executionRef = some ref → HasWorkflow w ref.executionId

def RowsBacked (w : DbosWorld) : Prop := ∀ key row, w.2.rows.get? key = some row → HasWorkflow w row.executionId

/-- Every mapping row has its workflow, apart from those of one execution id. -/
def RowsBackedBut (executionId : String) (w : DbosWorld) : Prop :=
  ∀ key row, w.2.rows.get? key = some row → row.executionId = executionId ∨ HasWorkflow w row.executionId

variable {w : DbosWorld} {executionId : String}

theorem RowsBackedBut.all (h : RowsBackedBut executionId w) (hself : HasWorkflow w executionId) : RowsBacked w := by
  intro key row hrow
  rcases h key row hrow with rfl | hhas
  · exact hself
  · exact hhas

structure Backed (w : DbosWorld) : Prop where
  refs : RefsBacked w
  rows : RowsBacked w

def Exposed (w : DbosWorld) : DbosAction → Prop
  | .getWorkflowStatus executionId => ¬HasWorkflow w executionId
  | .startWorkflow executionId _ _ => ¬HasWorkflow w executionId
  | _ => False

def BackedUnlessExposed (a : DbosAction) (w : DbosWorld) : Prop := RefsBacked w ∧ (¬Exposed w a → RowsBacked w)

theorem Backed.atRequest (h : Backed w) (a : DbosAction) : BackedUnlessExposed a w :=
  ⟨h.refs, fun _ => h.rows⟩

/-- The program keeps references and rows backed, except that a row may wait for its workflow while
the adapter is between the two. -/
abbrev KeepsBacked {α : Type} (x : DbosTask α) : Prop :=
  CrashSafe dbosHandler Backed BackedUnlessExposed (fun _ => True) x fun _ _ => True

theorem KeepsBacked.then {α β : Type} {x : DbosTask α} {f : α → DbosTask β} (hx : KeepsBacked x)
    (hf : ∀ a, KeepsBacked (f a)) : KeepsBacked (x >>= f) := hx.bind hf

variable {adapter : DBOSDurableAdapter} {b : DurableRunBridge} {env : Supply}

/-! ## The adapter -/

theorem crashSafe_store (op : StoreOp) : CrashSafe dbosHandler Backed BackedUnlessExposed
      (fun w => ∀ ref, op.bringsRef = some ref → HasWorkflow w ref.executionId) (adapter.deps.store op env)
      fun _ _ => True := by
  intro w hw hop
  refine ⟨hw.atRequest _, ⟨⟨wellFormed_step w.1 ⟨op, env⟩ hw.refs.wellFormed, ?_⟩, hw.rows⟩, fun _ _ => trivial⟩
  intro runId r ref hget href
  rcases (exec_effect env hw.refs.wellFormed op).ref_origin hget href with ⟨r', hget', href'⟩ | hbrings
  · exact hw.refs.ref runId r' ref hget' href'
  · exact hop ref hbrings

theorem keepsBacked_store {op : StoreOp} (h : op.bringsRef = none) : KeepsBacked (adapter.deps.store op env) :=
  (crashSafe_store op).weaken fun _ _ ref href => by rw [h] at href; cases href

theorem crashSafe_ref {P : DbosWorld → Prop} (adapter : DBOSDurableAdapter)
    (createdAt : Datetime) (hP : ∀ w, P w → HasWorkflow w executionId) : CrashSafe dbosHandler Backed BackedUnlessExposed P
      (ExceptT.mk (.done (ExecutionRef.new adapter.backendName executionId 1 createdAt)) : DbosTask ExecutionRef)
      fun ref w => HasWorkflow w ref.executionId := by
  intro w hw hPw
  refine ⟨hw, ?_⟩
  intro ref href
  have hid : ref.executionId = executionId := by
    unfold ExecutionRef.new at href
    split at href
    · cases href
    · split at href
      · cases href
      · split at href
        · cases href
        · cases href
          rfl
  rw [hid]
  exact hP w hPw

theorem upsertRow_backed (env : Supply) (hw : Backed w) (runKey executionId workflowName : String) :
    ∃ row w', dbosHandler (.upsertRow env runKey executionId workflowName) w = (.ok row, w') ∧ RefsBacked w' ∧
      RowsBackedBut row.1 w' := by
  cases hrow : w.2.rows.get? runKey with
  | some row =>
    refine ⟨(row.executionId, row.createdAt), w, ?_, hw.refs, fun key row' h => .inr (hw.rows key row' h)⟩
    simp only [dbosHandler, hrow]
  | none =>
    refine ⟨(executionId, env.utcNow),
      (w.1, { w.2 with rows := w.2.rows.set runKey ⟨executionId, workflowName, env.utcNow⟩ }), ?_,
      ⟨hw.refs.wellFormed, hw.refs.ref⟩, ?_⟩
    · simp only [dbosHandler, hrow]
    · exact InsertionDict.forall_set (fun key row' h => .inr (hw.rows key row' h)) (.inl rfl)

theorem startWorkflow_backed (hrefs : RefsBacked w)
    (hrows : RowsBackedBut executionId w) (fn : WorkflowFn) (payload : PyDict) :
    ∃ w', dbosHandler (.startWorkflow executionId fn payload) w = (.ok (), w') ∧ Backed w' ∧ HasWorkflow w' executionId := by
  cases hwf : w.2.workflows.get? executionId with
  | some wf =>
    exact ⟨w, by simp only [dbosHandler, hwf], ⟨hrefs, hrows.all ⟨wf, hwf⟩⟩, ⟨wf, hwf⟩⟩
  | none =>
    have hself : HasWorkflow (w.1, ⟨w.2.rows, w.2.workflows.set executionId ⟨fn, payload⟩⟩) executionId :=
      ⟨_, InsertionDict.get?_set_self _ _ _⟩
    refine ⟨(w.1, ⟨w.2.rows, w.2.workflows.set executionId ⟨fn, payload⟩⟩), by simp only [dbosHandler, hwf],
      ⟨⟨hrefs.wellFormed, ?_⟩, RowsBackedBut.all ?_ hself⟩, hself⟩
    · intro runId r ref hget href
      exact InsertionDict.exists_get?_set (hrefs.ref runId r ref hget href) _ _
    · intro key row hrow
      exact (hrows key row hrow).imp_right fun hhas => InsertionDict.exists_get?_set hhas _ _

/-- After a start the workflow of its reference exists. -/
theorem crashSafe_syncStart (runKey workflowName : String) (payload : PyDict) :
    CrashSafe dbosHandler Backed BackedUnlessExposed (fun _ => True) (adapter.syncStart env runKey workflowName payload)
      fun ref w => HasWorkflow w ref.executionId := by
  intro w hw _
  obtain ⟨row, w₁, hupsert, hrefs, hrows⟩ := upsertRow_backed env hw runKey ("dbos_" ++ runKey) workflowName
  refine ⟨hw.atRequest _, ?_⟩
  rw [hupsert]
  -- the row is committed: whether the workflow exists decides what a crash leaves behind
  have hwindow : BackedUnlessExposed (.getWorkflowStatus row.1) w₁ := ⟨hrefs, fun h => hrows.all (not_not.mp h)⟩
  refine ⟨hwindow, ?_⟩
  cases hwf : w₁.2.workflows.get? row.1 with
  | some wf =>
    have hbacked : Backed w₁ := ⟨hrefs, hrows.all ⟨wf, hwf⟩⟩
    have href := crashSafe_ref (P := fun w => HasWorkflow w row.1) adapter row.2
      (fun _ h => h) w₁ hbacked ⟨wf, hwf⟩
    simp only [dbosHandler, hwf]
    exact href
  | none =>
    obtain ⟨w₂, hstart, hbacked, hself⟩ := startWorkflow_backed hrefs hrows (adapter.workflowFn workflowName) payload
    have href := crashSafe_ref (P := fun w => HasWorkflow w row.1) adapter row.2
      (fun _ h => h) w₂ hbacked hself
    simp only [dbosHandler, hwf]
    refine ⟨⟨hrefs, fun h => hrows.all (not_not.mp h)⟩, ?_⟩
    rw [hstart]
    exact href

theorem crashSafe_selectRow (runKey : String) : CrashSafe dbosHandler Backed BackedUnlessExposed (fun _ => True)
      (ExceptT.mk (.act (.selectRow runKey) .done) : DbosTask (Option (String × Datetime)))
      fun row w => ∀ r, row = some r → HasWorkflow w r.1 := by
  intro w hw _
  refine ⟨hw.atRequest _, hw, ?_⟩
  intro found hfound r hr
  subst hr
  obtain ⟨row, hrow, rfl⟩ := Option.map_eq_some_iff.mp (Except.ok.inj hfound)
  exact hw.rows runKey row hrow

theorem crashSafe_syncFindByRunId (runKey : String) :
    CrashSafe dbosHandler Backed BackedUnlessExposed (fun _ => True) (adapter.syncFindByRunId runKey)
      fun found w => ∀ ref, found = some ref → HasWorkflow w ref.executionId := by
  refine (crashSafe_selectRow runKey).bind fun found => ?_
  cases found with
  | none => exact crashSafe_pure fun _ _ ref href => by cases href
  | some row =>
    refine (crashSafe_ref adapter row.2 fun w hw => hw row rfl).bind fun ref => ?_
    refine crashSafe_pure fun w hw ref' href' => ?_
    cases href'
    exact hw

/-! ## The bridge over the adapter -/

theorem crashSafe_attach {runId : RunId} {rev : ℤ} {ref : ExecutionRef} {event : SemanticEvent} :
    CrashSafe dbosHandler Backed BackedUnlessExposed (fun w => HasWorkflow w ref.executionId)
      (adapter.deps.store (.attachExecutionRef runId rev ref event) env) fun _ _ => True := by
  refine (crashSafe_store _).weaken ?_
  intro w hw ref' href'
  cases href'
  exact hw

variable (run : RunRecord)

theorem keepsBacked_startRun (workflowName : String) (payload : PyDict) (rev : ℤ) :
    KeepsBacked (b.startRun adapter.deps env run workflowName payload rev) := by
  unfold DurableRunBridge.startRun
  split
  · exact crashSafe_throw
  · refine (crashSafe_syncStart _ _ _).bind fun ref => ?_
    refine crashSafe_attach.bind fun attached => ?_
    refine (keepsBacked_store rfl).then fun newRev => ?_
    refine (keepsBacked_store rfl).then fun running => ?_
    exact crashSafe_pure fun _ _ => trivial

theorem keepsBacked_finishRecovered : KeepsBacked (b.finishRecovered adapter.deps env run) := by
  unfold DurableRunBridge.finishRecovered
  split
  · exact crashSafe_throw
  · split
    · refine (keepsBacked_store rfl).then fun rev => ?_
      refine (keepsBacked_store rfl).then fun run' => ?_
      exact crashSafe_pure fun _ _ => trivial
    · exact crashSafe_pure fun _ _ => trivial

theorem keepsBacked_markFailedExhausted : KeepsBacked (b.markFailedExhausted adapter.deps env run) := by
  unfold DurableRunBridge.markFailedExhausted
  refine (keepsBacked_store rfl).then fun current => ?_
  cases current with
  | none => exact crashSafe_pure fun _ _ => trivial
  | some current =>
    dsimp only
    split
    · exact crashSafe_pure fun _ _ => trivial
    · refine (keepsBacked_store rfl).then fun rev => ?_
      refine (keepsBacked_store rfl).attempt.bind fun _ => ?_
      exact crashSafe_pure fun _ _ => trivial

theorem crashSafe_obtainRef (current : RunRecord) (runId : RunId) :
    CrashSafe dbosHandler Backed BackedUnlessExposed (fun _ => True)
      (DurableRunBridge.obtainRef adapter.deps env current runId)
      fun obtained w => HasWorkflow w obtained.1.executionId := by
  unfold DurableRunBridge.obtainRef
  refine (crashSafe_syncFindByRunId _).bind fun found => ?_
  cases found with
  | some ref => exact crashSafe_pure fun w hw => hw ref rfl
  | none =>
    refine ((crashSafe_syncStart _ _ _).weaken fun _ _ => trivial).bind fun ref => ?_
    exact crashSafe_pure fun w hw => hw

theorem keepsBacked_runAttached (runId : RunId) (ref : ExecutionRef) (recovered : Bool) (attached : RunRecord) :
    KeepsBacked (b.runAttached adapter.deps env runId ref recovered attached) := by
  unfold DurableRunBridge.runAttached
  refine (keepsBacked_store rfl).then fun newRev => ?_
  refine (keepsBacked_store rfl).then fun running => ?_
  exact crashSafe_pure fun _ _ => trivial

theorem keepsBacked_resolveRefConflict (runId : RunId) (ref : ExecutionRef) (message : String) :
    KeepsBacked (b.resolveRefConflict adapter.deps env runId ref message) := by
  unfold DurableRunBridge.resolveRefConflict
  refine (keepsBacked_store rfl).then fun final => ?_
  cases final with
  | none => exact crashSafe_throw
  | some final =>
    dsimp only
    split
    · exact crashSafe_throw
    · split
      · exact keepsBacked_finishRecovered final
      · exact crashSafe_throw

theorem keepsBacked_reconcileAttempts (n : ℕ) : KeepsBacked (b.reconcileAttempts adapter.deps run n env) := by
  induction n generalizing env with
  | zero =>
    unfold DurableRunBridge.reconcileAttempts
    exact (keepsBacked_markFailedExhausted run).then fun _ => crashSafe_throw
  | succ n ih =>
    unfold DurableRunBridge.reconcileAttempts
    refine (keepsBacked_store rfl).then fun current => ?_
    cases current with
    | none => exact crashSafe_throw
    | some current =>
      dsimp only
      split
      · exact keepsBacked_finishRecovered current
      · refine (keepsBacked_store rfl).then fun rev => ?_
        refine (crashSafe_obtainRef current run.runId).bind fun obtained => ?_
        refine crashSafe_attach.attempt.bind fun outcome => ?_
        split
        · exact keepsBacked_runAttached _ _ _ _
        · exact ih
        · exact keepsBacked_resolveRefConflict _ _ _
        · exact crashSafe_throw

theorem keepsBacked_reconcileEach (runs : List RunRecord) : KeepsBacked (b.reconcileEach adapter.deps runs env) := by
  induction runs generalizing env with
  | nil => exact crashSafe_pure fun _ _ => trivial
  | cons run rest ih =>
    unfold DurableRunBridge.reconcileEach
    refine KeepsBacked.then (keepsBacked_reconcileAttempts run _) fun result => ?_
    refine KeepsBacked.then ih fun results => ?_
    exact crashSafe_pure fun _ _ => trivial

theorem keepsBacked_reconcileStartingRuns : KeepsBacked (b.reconcileStartingRuns adapter.deps env) := by
  unfold DurableRunBridge.reconcileStartingRuns
  exact (keepsBacked_store rfl).then fun candidates => keepsBacked_reconcileEach candidates

/-! ## Runs of the system -/

/-- A step of the system: a client's store call, or a bridge call that runs to its end or stops
after some requests. -/
inductive DbosStep where
  | store (call : StoreCall)
  | startRun (b : DurableRunBridge) (env : Supply) (run : RunRecord) (workflowName : String) (payload : PyDict)
      (runRevision : ℤ) (crashAfter : Option ℕ)
  | reconcileStartingRuns (b : DurableRunBridge) (env : Supply) (crashAfter : Option ℕ)

def afterCall {α : Type} (x : DbosTask α) (crashAfter : Option ℕ) (w : DbosWorld) : DbosWorld :=
  match crashAfter with
  | none => (evalTask dbosHandler x w).2
  | some n => cutTask dbosHandler n x w

def dbosStep (adapter : DBOSDurableAdapter) (w : DbosWorld) : DbosStep → DbosWorld
  | .store call => (storeStep w.1 call, w.2)
  | .startRun b env run workflowName payload rev crashAfter =>
    afterCall (b.startRun adapter.deps env run workflowName payload rev) crashAfter w
  | .reconcileStartingRuns b env crashAfter => afterCall (b.reconcileStartingRuns adapter.deps env) crashAfter w

/-- The call does not stop between the commit of a row and the start of its missing workflow. -/
def StopsClear {α : Type} (x : DbosTask α) (crashAfter : Option ℕ) (w : DbosWorld) : Prop :=
  ∀ n a, crashAfter = some n → pending dbosHandler n x.run w = some a → ¬Exposed (cutTask dbosHandler n x w) a

/-- References enter the store through the bridge only, and no bridge call stops in the window. -/
def ClearStep (adapter : DBOSDurableAdapter) (w : DbosWorld) : DbosStep → Prop
  | .store call => call.op.bringsRef = none
  | .startRun b env run workflowName payload rev crashAfter =>
    StopsClear (b.startRun adapter.deps env run workflowName payload rev) crashAfter w
  | .reconcileStartingRuns b env crashAfter => StopsClear (b.reconcileStartingRuns adapter.deps env) crashAfter w

def emptyWorld : DbosWorld := (.empty, ⟨.empty, .empty⟩)

theorem backed_emptyWorld : Backed emptyWorld := by
  refine ⟨⟨InMemoryStore.wellFormed_empty, ?_⟩, ?_⟩
  · intro runId r ref h
    simp [emptyWorld, InMemoryStore.empty] at h
  · intro key row h
    simp [emptyWorld] at h

theorem KeepsBacked.refs_cut {α : Type} {x : DbosTask α} (hx : KeepsBacked x) (hw : Backed w) (n : ℕ) :
    RefsBacked (cutTask dbosHandler n x w) := by
  rcases (hx w hw trivial).cut n with ⟨a, _, hrefs, _⟩ | ⟨_, _, hend, _⟩
  · exact hrefs
  · exact hend.refs

theorem KeepsBacked.backed_afterCall {α : Type} {x : DbosTask α} (hx : KeepsBacked x) (hw : Backed w)
    {crashAfter : Option ℕ} (hclear : StopsClear x crashAfter w) : Backed (afterCall x crashAfter w) := by
  cases crashAfter with
  | none => exact hx.evalTask hw trivial
  | some n =>
    rcases (hx w hw trivial).cut n with ⟨a, hpending, hrefs, hrows⟩ | ⟨_, _, hend, _⟩
    · exact ⟨hrefs, hrows (hclear n a rfl hpending)⟩
    · exact hend

theorem backed_step (w : DbosWorld) (step : DbosStep) (hw : Backed w) (hclear : ClearStep adapter w step) :
    Backed (dbosStep adapter w step) := by
  cases step with
  | store call =>
    have hkeeps : KeepsBacked (adapter.deps.store call.op call.env) := keepsBacked_store hclear
    exact hkeeps.evalTask hw trivial
  | startRun b env run workflowName payload rev crashAfter =>
    exact (keepsBacked_startRun run workflowName payload rev).backed_afterCall hw hclear
  | reconcileStartingRuns b env crashAfter => exact keepsBacked_reconcileStartingRuns.backed_afterCall hw hclear

/-- Every RUNNING Run with a reference has the DBOS workflow of that execution id. -/
def RunningBacked (w : DbosWorld) : Prop :=
  ∀ runId r ref, w.1.runs.get? runId = some r → r.status = .running → r.executionRef = some ref →
    HasWorkflow w ref.executionId

theorem RefsBacked.running (h : RefsBacked w) : RunningBacked w :=
  fun runId r ref hget _ href => h.ref runId r ref hget href

/-- If no step stops in the window, every RUNNING Run has its workflow after every run of the
system, and at every point of the next call. -/
theorem running_backed_of_clear (adapter : DBOSDurableAdapter) (steps : List DbosStep)
    (hclear : MachineRuns.EveryStep (dbosStep adapter) (ClearStep adapter) emptyWorld steps) :
    RunningBacked (MachineRuns.run (dbosStep adapter) emptyWorld steps) ∧ (∀ b env run workflowName payload rev n,
        RunningBacked (cutTask dbosHandler n (DurableRunBridge.startRun b adapter.deps env run workflowName payload rev)
          (MachineRuns.run (dbosStep adapter) emptyWorld steps))) ∧
      ∀ b env n,
        RunningBacked (cutTask dbosHandler n (DurableRunBridge.reconcileStartingRuns b adapter.deps env)
          (MachineRuns.run (dbosStep adapter) emptyWorld steps)) := by
  have hbacked : Backed (MachineRuns.run (dbosStep adapter) emptyWorld steps) :=
    MachineRuns.invariant_of_everyStep backed_step backed_emptyWorld hclear
  refine ⟨hbacked.refs.running, ?_, ?_⟩
  · intro b env run workflowName payload rev n
    exact ((keepsBacked_startRun run workflowName payload rev).refs_cut hbacked n).running
  · intro b env n
    exact (keepsBacked_reconcileStartingRuns.refs_cut hbacked n).running

/-- `create_goal`, `create_work` and `create_run` for one STARTING Run. -/
def seedSteps : List DbosStep := seedCalls.map .store

/-- `start_run` stops after a number of requests, and a pass follows. -/
def crashAndReconcile (crashAfter : ℕ) : List DbosStep :=
  seedSteps ++ [.startRun defaultBridge frozenSupply sampleRun "wf" .empty 1 (some crashAfter),
     .reconcileStartingRuns defaultBridge frozenSupply none]

/-- A crash after the workflow was started, followed by a pass. -/
theorem crashAfterStart_backed : RunningBacked (MachineRuns.run (dbosStep {}) emptyWorld (crashAndReconcile 3)) := by
  refine (running_backed_of_clear {} (crashAndReconcile 3) ?_).1
  have hcons {w : DbosWorld} {step : DbosStep} {steps : List DbosStep} :
      ClearStep {} w step ∧ MachineRuns.EveryStep (dbosStep {}) (ClearStep {}) (dbosStep {} w step) steps →
        MachineRuns.EveryStep (dbosStep {}) (ClearStep {}) w (step :: steps) :=
    MachineRuns.everyStep_cons.mpr
  refine hcons ⟨rfl, hcons ⟨rfl, hcons ⟨rfl, hcons ⟨?_, hcons ⟨?_, MachineRuns.everyStep_nil⟩⟩⟩⟩⟩
  · -- the next request is the attach
    intro n a hn hpending
    cases hn
    cases hpending
    exact id
  · intro n a hn
    cases hn

/-- A crash after the commit of the row, followed by a pass, makes a Run RUNNING without a workflow. -/
theorem crashInWindow_not_backed : ¬RunningBacked (MachineRuns.run (dbosStep {}) emptyWorld (crashAndReconcile 1)) := by
  intro h
  obtain ⟨wf, hwf⟩ := h ⟨"run_1"⟩ _ _ rfl rfl rfl
  cases hwf

end AllTomorrow
