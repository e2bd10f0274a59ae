import AllTomorrow.DeliveryProgress
import AllTomorrow.SkeletonTogether

/-!
# Attempts to start a Run

`reconcile_run_start` of the walking skeleton: the intent that the delivery store holds is reconciled,
and the execution it started is attached to the Run. Only the orchestrator without a database is
modelled: the delivery store is a dictionary and the records are those of the process.
-/

namespace AllTomorrow.Skeleton

open EStateM (ends_get_bind ends_ite ends_ofExcept ends_pure ends_throw ends_throw_bind)

open DeliveryReconciler Prog MachineRuns

/-! ## Calls -/

/-- A call of `reconcile_run_start`, with what `find_by_run_id` answers after the reconciliation. -/
structure StartCall where
  reconcile : ReconcileCall
  env : Supply
  found : Except Exn (Option ExecutionRef)
  /-- the built-in `str` of an error or None -/
  showError : Option CanonicalError → String

def reconcileRunStart (c : StartCall) (runId : RunId) (intent : DeliveryRecord) : SkeletonM (RunRecord × ExecutionRef) := do
  let reconciled := c.reconcile.result intent
  if reconciled.status ≠ .delivered then
    throw (.runtimeError ("Delivery failed with status " ++ reconciled.status.value ++ ": " ++
      c.showError reconciled.lastError))
  match ← MonadExcept.ofExcept c.found with
  | none => throw (.runtimeError ("ExecutionRef not found for started run " ++ runId.val))
  | some execRef =>
    let _ ← casAttachExecutionRef c.env runId execRef
    let run ← runAt runId
    return (run, execRef)

/-- The orchestrator, what was requested of the port, and what the last reconciliation returned. -/
structure StartWorld where
  skeleton : SkeletonState
  events : List PortEvent
  last : Option DeliveryRecord

def startStep (runId : RunId) (deliveryId : DeliveryId) (w : StartWorld) (c : StartCall) : StartWorld :=
  match w.skeleton.deliveries.getDelivery deliveryId with
  | none => w
  | some intent =>
    { skeleton := ((reconcileRunStart c runId intent).run w.skeleton).state
      events := w.events ++ c.reconcile.events intent
      last := some (c.reconcile.result intent) }

def isStart (e : PortEvent) : Bool :=
  match e.action with
  | .start .. => true
  | _ => false

/-- The store holds what the last reconciliation returned, and there are at most as many starts as attempts, after which
the record is terminal. -/
structure AttemptsCounted (intent : DeliveryRecord) (w : StartWorld) : Prop where
  stored : ∀ record, w.last = some record → w.skeleton.deliveries.getDelivery intent.deliveryId = some record
  bounded : (w.events.countP isStart : ℤ) ≤ intent.maxAttempts
  terminal : (w.events.countP isStart : ℤ) = intent.maxAttempts →
    ∀ record, w.skeleton.deliveries.getDelivery intent.deliveryId = some record → record.isTerminal = true

section

variable {s : SkeletonState}

def SameDeliveries {α : Type} (s : SkeletonState) (x : SkeletonM α) : Prop :=
  EStateM.Ends x s (fun _ s' => s'.deliveries = s.deliveries) fun _ s' => s'.deliveries = s.deliveries

theorem SameDeliveries.bind {α β : Type} {x : SkeletonM α} {f : α → SkeletonM β} (hx : SameDeliveries s x)
    (hf : ∀ a s', s'.deliveries = s.deliveries → SameDeliveries s' (f a)) : SameDeliveries s (x >>= f) := by
  refine EStateM.Ends.bind hx fun a s' hsame => ?_
  exact (hf a s' hsame).mono (fun _ _ h => h.trans hsame) fun _ _ h => h.trans hsame

theorem sameDeliveries_ofExcept {α : Type} (r : Except Exn α) : SameDeliveries s (MonadExcept.ofExcept r : SkeletonM α) :=
  ends_ofExcept (fun _ _ => rfl) fun _ _ => rfl

theorem sameDeliveries_putRun (runId : RunId) (r : RunRecord) : SameDeliveries s (putRun runId r) :=
  EStateM.ends_modify rfl

theorem sameDeliveries_runAt (runId : RunId) : SameDeliveries s (runAt runId) := by
  unfold SameDeliveries runAt
  refine ends_get_bind ?_
  cases s.runs.get? runId with
  | none => exact ends_throw rfl
  | some r => exact ends_pure rfl

theorem sameDeliveries_casAttachExecutionRef (env : Supply) (runId : RunId) (execRef : ExecutionRef) :
    SameDeliveries s (casAttachExecutionRef env runId execRef) := by
  have hattach (r : RunRecord) : SameDeliveries s (do
      let r' ← MonadExcept.ofExcept (transitionRun env r .running (some execRef))
      putRun runId r'
      return true) := by
    refine (sameDeliveries_ofExcept _).bind fun r' s' _ => ?_
    exact (sameDeliveries_putRun runId r').bind fun _ s'' _ => ends_pure rfl
  unfold SameDeliveries casAttachExecutionRef
  refine ends_get_bind ?_
  cases s.runs.get? runId with
  | none => exact ends_pure rfl
  | some r =>
    dsimp only
    cases r.executionRef with
    | none => exact hattach r
    | some attached => exact ends_ite (fun _ => ends_throw_bind rfl) fun _ => hattach r

theorem sameDeliveries_reconcileRunStart (c : StartCall) (runId : RunId) (intent : DeliveryRecord) :
    SameDeliveries s (reconcileRunStart c runId intent) := by
  have hattach : SameDeliveries s (do
      match ← MonadExcept.ofExcept c.found with
      | none => throw (.runtimeError ("ExecutionRef not found for started run " ++ runId.val))
      | some execRef =>
        let _ ← casAttachExecutionRef c.env runId execRef
        let r ← runAt runId
        return (r, execRef)) := by
    refine (sameDeliveries_ofExcept c.found).bind fun found s' _ => ?_
    cases found with
    | none => exact ends_throw rfl
    | some execRef =>
      refine (sameDeliveries_casAttachExecutionRef c.env runId execRef).bind fun _ s'' _ => ?_
      exact (sameDeliveries_runAt runId).bind fun r s₃ _ => ends_pure rfl
  unfold SameDeliveries reconcileRunStart
  exact ends_ite (fun _ => ends_throw_bind rfl) fun _ => hattach

end

theorem deliveries_startStep (runId : RunId) (deliveryId : DeliveryId) (w : StartWorld) (c : StartCall) :
    (startStep runId deliveryId w c).skeleton.deliveries = w.skeleton.deliveries := by
  unfold startStep
  cases w.skeleton.deliveries.getDelivery deliveryId with
  | none => rfl
  | some intent => exact (sameDeliveries_reconcileRunStart c runId intent).state

structure Committed (deliveries : DeliveryStore) (intent : DeliveryRecord) : Prop where
  stored : deliveries.getDelivery intent.deliveryId = some intent
  kind : intent.kind = .runStart
  status : intent.status = .pending
  attempts : intent.attempts = 0

theorem ends_onDeliveries {α : Type} {x : DeliveryStoreM α} {s : SkeletonState} {Q : α → DeliveryStore → Prop}
    {E : Exn → DeliveryStore → Prop} (h : EStateM.Ends x s.deliveries Q E) :
    EStateM.Ends (onDeliveries x) s (fun a s' => Q a s'.deliveries) fun e s' => E e s'.deliveries := by
  unfold EStateM.Ends at h ⊢
  unfold onDeliveries
  cases hrun : x s.deliveries with
  | ok a deliveries =>
    rw [hrun] at h
    exact h
  | error e deliveries =>
    rw [hrun] at h
    exact h

theorem ends_atomicAppTransaction (str : Datetime → String) (env : Supply) (intent : DeliveryRecord)
    (action : Except Exn PyValue) (deliveries : DeliveryStore) :
    EStateM.Ends (DeliveryStore.atomicAppTransaction str env intent action) deliveries
      (fun r s' => r.1 ≠ .none → r.2 = intent ∧ s'.getDelivery intent.deliveryId = some intent) fun _ _ => True := by
  unfold DeliveryStore.atomicAppTransaction
  refine ends_ite (fun _ => ends_throw_bind trivial) fun _ => ?_
  refine ends_get_bind ?_
  cases deliveries.recordsByIdempotencyKey.get? intent.idempotencyKey with
  | some existingId =>
    refine EStateM.Ends.bind (Q := fun _ _ => True) (E := fun _ _ => True) ?_ fun existing s' _ => ?_
    · unfold EStateM.Ends
      cases DeliveryStore.existingFor str env.utcNow intent.idempotencyKey existingId deliveries <;> trivial
    · exact ends_ite (fun _ => ends_throw_bind trivial) fun _ => ends_pure fun hnone => absurd rfl hnone
  | none =>
    refine EStateM.Ends.bind (ends_ofExcept (fun _ _ => trivial) fun _ _ => trivial) fun result s' (_ : True) => ?_
    refine EStateM.ends_modify_bind (ends_pure fun _ => ⟨rfl, ?_⟩)
    exact InsertionDict.get?_set_self _ _ _

theorem startIntent_fresh {o : Orchestrator} {env : Supply} {workId : WorkId} {name : String} {payload : PyDict}
    {intent : DeliveryRecord} (h : startIntent o env workId name payload = .ok intent) :
    intent.kind = .runStart ∧ intent.status = .pending ∧ intent.attempts = 0 := by
  unfold startIntent DeliveryRecord.new at h
  dsimp only at h
  split at h
  · cases h
  · split at h
    · cases h
    · split at h
      · cases h
      · cases h
        exact ⟨rfl, rfl, rfl⟩

theorem committed_of_createStartingRun {o : Orchestrator} {env : Supply} {s s' : SkeletonState} {workId : WorkId}
    {name : String} {payload : PyDict} {started : RunRecord} {intent : DeliveryRecord}
    (h : (createStartingRun o env workId name payload).run s = .ok (some started, intent) s') :
    Committed s'.deliveries intent := by
  have hends : EStateM.Ends (createStartingRun o env workId name payload) s
      (fun r s' => r.1.isSome = true → Committed s'.deliveries r.2) fun _ _ => True := by
    unfold createStartingRun
    refine EStateM.Ends.bind (Q := fun _ _ => True) ?_ fun work s₁ _ => ends_claim ?_
    · exact ends_workAt.mono (fun _ _ _ => trivial) fun _ _ _ => trivial
    refine EStateM.Ends.bind (Q := fun _ _ => True) (ends_ofExcept (fun _ _ => trivial) fun _ _ => trivial)
      fun _ s₂ _ => ?_
    refine EStateM.Ends.bind (Q := fun intent _ => startIntent o env workId name payload = .ok intent)
      (ends_ofExcept (fun _ h => h) fun _ _ => trivial) fun intent s₃ hintent => ?_
    obtain ⟨hkind, hstatus, hattempts⟩ := startIntent_fresh hintent
    refine EStateM.Ends.bind (ends_onDeliveries (ends_atomicAppTransaction _ _ _ _ _)) fun r s₄ hcommit => ?_
    obtain ⟨saved, committed⟩ := r
    dsimp only at hcommit ⊢
    cases saved with
    | none => exact ends_pure fun hsome => by cases hsome
    | _ =>
      refine EStateM.ends_modify_bind (ends_pure fun _ => ?_)
      obtain ⟨rfl, hstored⟩ := hcommit nofun
      exact ⟨hstored, hkind, hstatus, hattempts⟩
  unfold EStateM.Ends at hends
  rw [show createStartingRun o env workId name payload s = _ from h] at hends
  exact hends rfl

/-! ## Runs of calls -/

section

variable {w : StartWorld} {intent : DeliveryRecord} {runId : RunId}

theorem startStep_stored (h : w.skeleton.deliveries.getDelivery intent.deliveryId = some intent) (c : StartCall) :
    startStep runId intent.deliveryId w c =
      ⟨((reconcileRunStart c runId intent).run w.skeleton).state, w.events ++ c.reconcile.events intent,
        some (c.reconcile.result intent)⟩ := by
  unfold startStep
  rw [h]

theorem Committed.startStep (h : Committed w.skeleton.deliveries intent) (c : StartCall) :
    Committed (startStep runId intent.deliveryId w c).skeleton.deliveries intent := by
  rw [deliveries_startStep]
  exact h

theorem isTerminal_eq_false (h : Committed w.skeleton.deliveries intent) : intent.isTerminal = false := by
  rw [DeliveryRecord.isTerminal, h.status]
  rfl

/-- Each call before the end of the intent starts the Run once more. -/
theorem countP_events (h : Committed w.skeleton.deliveries intent) (c : ReconcileCall) :
    (c.events intent).countP isStart = if intent.isExpired c.now then 0 else 1 := by
  have hattempts : ¬ intent.attempts + 1 > intent.maxAttempts := by
    rw [h.attempts]
    have hpos := intent.maxAttempts_pos
    omega
  have hstatus : ¬ intent.status = .ambiguous := by
    rw [h.status]
    nofun
  unfold ReconcileCall.events reconcile
  rw [if_neg (by rw [isTerminal_eq_false h]; exact Bool.false_ne_true)]
  have hnow : c.now = (c.env.sub 0).utcNow := rfl
  rw [hnow]
  dsimp only
  rw [if_neg hstatus, if_neg hattempts]
  split
  · rfl
  · next hlive =>
    have hdispatch : dispatch c.reconciler (c.env.sub 1) intent (c.env.sub 0).utcNow =
        dispatchRunStart intent (c.env.sub 0).utcNow := by rw [dispatch, h.kind]
    rw [hdispatch]
    obtain ⟨es, r, heval, hends⟩ := yields_dispatchRunStart (c := c) intent (c.env.sub 0).utcNow []
    rw [eval_bind_task heval]
    have hone : es.countP isStart = 1 := by
      cases hends with
      | ok ref => rfl
      | raised exc => rfl
    cases r with
    | ok result => exact hone
    | error exc => exact hone

theorem starts_run (h : Committed w.skeleton.deliveries intent) (calls : List StartCall) :
    (run (startStep runId intent.deliveryId) w calls).events.countP isStart =
      w.events.countP isStart + calls.countP fun c => !intent.isExpired c.reconcile.now := by
  induction calls generalizing w with
  | nil => rfl
  | cons c calls ih =>
    rw [run_cons, ih (h.startStep c), startStep_stored h.stored, List.countP_append, countP_events h, List.countP_cons]
    cases intent.isExpired c.reconcile.now with
    | true =>
      simp only [Bool.not_true, if_true, Bool.false_eq_true, if_false]
      omega
    | false =>
      simp only [Bool.not_false, if_true, Bool.false_eq_true, if_false]
      omega

theorem committed_run (h : Committed w.skeleton.deliveries intent) (calls : List StartCall) :
    Committed (run (startStep runId intent.deliveryId) w calls).skeleton.deliveries intent := by
  induction calls generalizing w with
  | nil => exact h
  | cons c calls ih => exact ih (h.startStep c)

theorem result_ne (h : Committed w.skeleton.deliveries intent) (c : ReconcileCall) : c.result intent ≠ intent := by
  intro hsame
  have hrevision := revision_step (isTerminal_eq_false h) (c := c)
  rw [reconcileStep, hsame] at hrevision
  omega

theorem attemptsCounted_start (intent : DeliveryRecord) (s : SkeletonState) : AttemptsCounted intent ⟨s, [], none⟩ := by
  have hpos : 1 ≤ intent.maxAttempts := intent.maxAttempts_pos
  have hcount : (([] : List PortEvent).countP isStart : ℤ) = 0 := rfl
  constructor
  · intro record hlast
    cases hlast
  · exact hcount.trans_le (Int.le_trans (by decide) hpos)
  · intro hmax
    have hzero : (0 : ℤ) = intent.maxAttempts := hcount.symm.trans hmax
    rw [← hzero] at hpos
    exact absurd hpos (by decide)

end

/-- The result of a reconciliation is never written back, so the law holds exactly as long as there is none. -/
theorem attemptsCounted_iff {o : Orchestrator} {env : Supply} {s s' : SkeletonState} {workId : WorkId} {name : String}
    {payload : PyDict} {started : RunRecord} {intent : DeliveryRecord}
    (h : (createStartingRun o env workId name payload).run s = .ok (some started, intent) s') (calls : List StartCall) :
    (∀ before after, calls = before ++ after →
      AttemptsCounted intent (run (startStep started.runId intent.deliveryId) ⟨s', [], none⟩ before)) ↔ calls = [] := by
  have hcommitted : Committed (⟨s', [], none⟩ : StartWorld).skeleton.deliveries intent := committed_of_createStartingRun h
  constructor
  · intro hall
    cases calls with
    | nil => rfl
    | cons c calls =>
      have hlast := (hall [c] calls rfl).stored (c.reconcile.result intent)
      rw [run_cons, run_nil, startStep_stored hcommitted.stored] at hlast
      have hstored := (@committed_run _ _ started.runId hcommitted [c]).stored
      rw [run_cons, run_nil, startStep_stored hcommitted.stored] at hstored
      have hsame := Option.some.inj ((hlast rfl).symm.trans hstored)
      exact absurd hsame (result_ne hcommitted c.reconcile)
  · rintro rfl before after hsplit
    obtain ⟨rfl, -⟩ := List.append_eq_nil_iff.mp hsplit.symm
    rw [run_nil]
    exact attemptsCounted_start intent s'

def oneWork : SkeletonState :=
  ((initiateGoalAndWork (taggedSupply "a") "user_1" "a goal" "a work").run .empty).state

def timedOutStart : StartCall := ⟨raisingCall timedOut, taggedSupply "c", .ok none, fun _ => "error"⟩

def sampleStart : EStateM.Result Exn SkeletonState (Option RunRecord × DeliveryRecord) :=
  (createStartingRun sampleOrchestrator (taggedSupply "b") ⟨"work_a"⟩ "walking_skeleton_workflow" .empty).run oneWork

theorem sampleStart_ok : ∃ started intent s', sampleStart = .ok (some started, intent) s' ∧
    intent.isExpired 0 = false ∧ intent.maxAttempts = 3 :=
  ⟨_, _, _, rfl, rfl, rfl⟩

theorem attemptsCounted_noCall : ∃ started intent s', sampleStart = .ok (some started, intent) s' ∧
    AttemptsCounted intent (run (startStep started.runId intent.deliveryId) ⟨s', [], none⟩ []) := by
  obtain ⟨started, intent, s', hstart, -⟩ := sampleStart_ok
  exact ⟨started, intent, s', hstart, (attemptsCounted_iff hstart []).mpr rfl [] [] rfl⟩

/-- Four calls start the Run four times, although the intent allows three attempts. -/
theorem fourth_start : ∃ started intent s', sampleStart = .ok (some started, intent) s' ∧ intent.maxAttempts = 3 ∧
    (run (startStep started.runId intent.deliveryId) ⟨s', [], none⟩ (List.replicate 4 timedOutStart)).events.countP isStart
      = 4 ∧
    ¬ AttemptsCounted intent
      (run (startStep started.runId intent.deliveryId) ⟨s', [], none⟩ (List.replicate 4 timedOutStart)) := by
  obtain ⟨started, intent, s', hstart, hlive, hmax⟩ := sampleStart_ok
  have hcommitted : Committed (⟨s', [], none⟩ : StartWorld).skeleton.deliveries intent := committed_of_createStartingRun hstart
  have hfour := @starts_run _ _ started.runId hcommitted (List.replicate 4 timedOutStart)
  have hlive' : intent.isExpired timedOutStart.reconcile.now = false := hlive
  have hcalls : (List.replicate 4 timedOutStart).countP (fun c => !intent.isExpired c.reconcile.now) = 4 := by
    simp [hlive']
  rw [hcalls, List.countP_nil] at hfour
  refine ⟨started, intent, s', hstart, hmax, hfour, fun hcounted => ?_⟩
  have hbounded := hcounted.bounded
  rw [hfour, hmax] at hbounded
  exact absurd hbounded (by decide)

end AllTomorrow.Skeleton
