import AllTomorrow.ServiceRuns
import AllTomorrow.ExecutorRequests
import AllTomorrow.WorkClaims

/-!
# What a cycle of the executor leaves behind

`run_one_cycle` claims a batch of Works and executes one after the other. Requests
that stand outside its handlers raise out of the whole batch; the batch is settled
when the call ends exactly if no such request raises while a Work of it is RUNNING.
-/

namespace AllTomorrow

open MachineRuns (EveryStep everyStep_append_left run_append run_cons run_nil)

open InMemoryStore Prog

/-! ## Settled Works -/

/-- What a Work of the batch may be when the cycle ends: finished or waiting, or asked to cancel or
cancelled, to which the executor itself moves none. -/
def settledStatuses : List WorkStatus := [.succeeded, .failed, .waiting, .cancelRequested, .cancelled]

def Settled (k : WorkId) (s : InMemoryStore) : Prop :=
  ∃ w, s.work.get? k = some w ∧ w.status ∈ settledStatuses

def AllSettled (claimed : List WorkRecord) (s : InMemoryStore) : Prop := ∀ v ∈ claimed, Settled v.workId s

def Started (k : WorkId) (s : InMemoryStore) : Prop := ∃ w, s.work.get? k = some w ∧ w.status ≠ .pending

def StoreOp.Starts (k : WorkId) : StoreOp → Prop
  | .transitionWorkStatus j target _ _ _ => j = k ∧ target = .running
  | _ => False

def AsRead (u : WorkRecord) (s : InMemoryStore) : Prop :=
  Settled u.workId s ∨ (s.work.get? u.workId = some u ∧ u.status = .running)

variable {s : InMemoryStore} {k : WorkId}

theorem mem_settledStatuses {status target : WorkStatus} (hmem : target ∈ workTransitions status)
    (hrunning : target ≠ .running) : target ∈ settledStatuses := by
  revert hmem hrunning
  cases status <;> cases target <;> decide

variable (c : StoreCall)

theorem started_step (hs : s.WellFormed) (h : Started k s) : Started k (storeStep s c) := by
  obtain ⟨w, hw, hstarted⟩ := h
  obtain ⟨op, env⟩ := c
  have hchange := work_change_step ⟨op, env⟩ hs k
  unfold Started
  generalize (storeStep s ⟨op, env⟩).work.get? k = after at hchange ⊢
  cases hchange with
  | kept => exact ⟨w, hw, hstarted⟩
  | created hkey hfresh hgoal =>
    rw [hw] at hfresh
    cases hfresh
  | @moved v target event evidence hget hmem =>
    refine ⟨_, rfl, ?_⟩
    intro hpending
    exact pending_not_mem_workTransitions v.status (hpending ▸ hmem)
  | claimed hget hmem env' => exact ⟨_, rfl, by simp [WorkRecord.moved]⟩

theorem kept_or_settled_step (hs : s.WellFormed) (hc : ¬c.op.Starts k) {w : WorkRecord}
    (hw : s.work.get? k = some w) (hstarted : w.status ≠ .pending) :
    (storeStep s c).work.get? k = some w ∨ Settled k (storeStep s c) := by
  obtain ⟨op, env⟩ := c
  have hchange := work_change_step ⟨op, env⟩ hs k
  unfold Settled
  generalize (storeStep s ⟨op, env⟩).work.get? k = after at hchange ⊢
  cases hchange with
  | kept => exact .inl hw
  | created hkey hfresh hgoal =>
    rw [hw] at hfresh
    cases hfresh
  | moved hget hmem => exact .inr ⟨_, rfl, mem_settledStatuses hmem fun hrunning => hc ⟨rfl, hrunning⟩⟩
  | claimed hget hmem env' =>
    rw [hw, Option.some.injEq] at hget
    rw [hget] at hstarted
    exact absurd (claimCandidates_pending hmem).2 hstarted

theorem settled_step (hs : s.WellFormed) (hc : ¬c.op.Starts k) (h : Settled k s) : Settled k (storeStep s c) := by
  obtain ⟨w, hw, hsettled⟩ := h
  have hstarted : w.status ≠ .pending := by
    intro hpending
    rw [hpending] at hsettled
    revert hsettled
    decide
  rcases kept_or_settled_step c hs hc hw hstarted with hkept | hsettled'
  · exact ⟨w, hkept, hsettled⟩
  · exact hsettled'

variable {u : WorkRecord}

theorem asRead_step (hs : s.WellFormed) (hc : ¬c.op.Starts u.workId) (h : AsRead u s) : AsRead u (storeStep s c) := by
  rcases h with hsettled | ⟨hget, hrunning⟩
  · exact .inl (settled_step c hs hc hsettled)
  · have hstarted : u.status ≠ .pending := by
      rw [hrunning]
      decide
    rcases kept_or_settled_step c hs hc hget hstarted with hkept | hsettled
    · exact .inr ⟨hkept, hrunning⟩
    · exact .inl hsettled

theorem asRead_of_started {w : WorkRecord} (hs : s.WellFormed) (hget : s.work.get? k = some w)
    (hstarted : w.status ≠ .pending) : AsRead w s := by
  have hkey := hs.work_key k w hget
  by_cases hrunning : w.status = .running
  · exact .inr ⟨hkey ▸ hget, hrunning⟩
  · refine .inl ⟨w, hkey ▸ hget, ?_⟩
    revert hstarted hrunning
    cases w.status <;> decide

variable {evidence : Option Evidence} {event : SemanticEvent} {target : WorkStatus}

theorem settled_of_accepted {rev : ℤ} {env : Supply} (hs : s.WellFormed) (htarget : target ≠ .running) {v : WorkRecord}
    (h : (((StoreOp.transitionWorkStatus u.workId target rev event evidence).exec env).run s).outcome = .ok v) :
    Settled u.workId (storeStep s ⟨.transitionWorkStatus u.workId target rev event evidence, env⟩) := by
  have heffect := exec_effect env hs (.transitionWorkStatus u.workId target rev event evidence)
  change Settled u.workId (((StoreOp.transitionWorkStatus u.workId target rev event evidence).exec env).run s).state
  generalize ((StoreOp.transitionWorkStatus u.workId target rev event evidence).exec env).run s = r at heffect h
  cases heffect with
  | raised e => cases h
  | read v hread => cases hread
  | workMoved hget hterm hmem hne =>
    exact ⟨_, InsertionDict.get?_set_self _ _ _, mem_settledStatuses hmem htarget⟩
  | workSucceeded hget hterm hmem htype hid hstatus hevidence =>
    exact ⟨_, InsertionDict.get?_set_self _ _ _, mem_settledStatuses hmem htarget⟩

theorem settled_of_refused {env : Supply} {e : Exn} (hread : AsRead u s) (hmem : target ∈ workTransitions .running)
    (hne : target ≠ .succeeded)
    (h : (((StoreOp.transitionWorkStatus u.workId target u.revision event evidence).exec env).run s).outcome
      = .error e) : Settled u.workId s := by
  rcases hread with hsettled | ⟨hget, hrunning⟩
  · exact hsettled
  · have hrun := run_transitionWorkStatus env event evidence hget (hrunning ▸ hmem) hne
    rw [StoreOp.exec, hrun] at h
    cases h

/-! ## The requests of a cycle -/

def ServiceAction.Unguarded : ServiceAction → Prop
  | .store (.createQuestion _) _ => True
  | .store (.transitionRunStatus _ target _ _ _) _ => target = .succeeded
  | .store (.transitionWorkStatus _ target _ _ _) _ => target = .succeeded ∨ target = .waiting
  | .execute .. | .storeArtifact .. | .jsonDumps _ => True
  | _ => False

def ServiceAction.Refused : (a : ServiceAction) → a.Answer → Prop
  | .store _ _, r => ∃ e, r = .error e
  | .execute .., r => r.Escapes
  | .storeArtifact .., r => ∃ e, r = .error e
  | .jsonDumps _, r => ∃ e, r = .error e
  | .takeReplan .., r => ∃ e, r = .error e
  | .retryBroken .., r => ∃ e, r = .error e
  | .abandonBroken .., r => ∃ e, r = .error e
  | .completeLease .., r => ∃ e, r = .error e
  | .adapter _, _ | .str _, _ => False

variable {π : Type}

/-- A request outside the handlers that raises finds no Work of the batch RUNNING. -/
def RaisesSettled (ext : Externals π) (claimed : List WorkRecord) (w : ServiceWorld π) (a : ServiceAction) : Prop :=
  a.Unguarded → a.Refused (ServiceWorld.handler ext a w).1 → AllSettled claimed w.store

def StartsNone (claimed : List WorkRecord) (_ : InMemoryStore) (c : StoreCall) : Prop :=
  ∀ v ∈ claimed, ¬c.op.Starts v.workId

def cycleContract (ext : Externals π) (claimed : List WorkRecord) : Contract ServiceAction (ServiceWorld π) :=
  clientContract (StartsNone claimed) (RaisesSettled ext claimed) fun _ _ => True

def Kept (claimed : List WorkRecord) (I : InMemoryStore → Prop) : Prop :=
  ∀ s c, s.WellFormed → StartsNone claimed s c → I s → I (storeStep s c)

variable {ext : Externals π} {claimed : List WorkRecord} {I : InMemoryStore → Prop} {v : WorkRecord}

theorem kept_started : Kept claimed (Started k) := fun _ c hs _ h => started_step c hs h

theorem kept_settled (hv : v ∈ claimed) : Kept claimed (Settled v.workId) :=
  fun _ c hs hc h => settled_step c hs (hc v hv) h

theorem kept_allSettled : Kept claimed (AllSettled claimed) :=
  fun s c hs hc h v hv => kept_settled hv s c hs hc (h v hv)

theorem kept_asRead (hv : v ∈ claimed) (hu : u.workId = v.workId) : Kept claimed (AsRead u) :=
  fun _ c hs hc h => asRead_step c hs (hu ▸ hc v hv) h

theorem Kept.stable (hI : Kept claimed I) : Stable (cycleContract ext claimed) fun w => I w.store :=
  stable_of_calls fun s c hs hc h => hI s c hs hc h

theorem startsNone_of_byExecutor {op : StoreOp} {env : Supply} (hop : op.ByExecutor k fun _ => True) :
    StartsNone claimed s ⟨op, env⟩ := by
  intro v _ hstarts
  cases op with
  | transitionWorkStatus j target rev event evidence =>
    have hmem := hop.2
    rw [hstarts.2] at hmem
    revert hmem
    decide
  | _ => exact hstarts

theorem Kept.own (hI : Kept claimed I) (a : ServiceAction) (w : ServiceWorld π) (ha : a.ByExecutor k fun _ => True)
    (hassume : (cycleContract ext claimed).assume w a) (h : I w.store) : I (ServiceWorld.handler ext a w).2.store := by
  rw [handler_store]
  cases a with
  | store op env => exact hI w.store ⟨op, env⟩ hassume.1 (startsNone_of_byExecutor ha) h
  | _ => exact h

theorem Kept.triple (hI : Kept claimed I) {α : Type} {x : ServiceTask α}
    (hx : TaskRequests (ServiceAction.ByExecutor k fun _ => True) x) :
    Triple (ServiceWorld.handler ext) (cycleContract ext claimed) (fun w => I w.store) x (fun _ w => I w.store)
      (fun _ w => I w.store) :=
  triple_of_requests hx (fun a w ha hassume h => hI.own a w ha hassume h) hI.stable fun _ _ _ _ => trivial

abbrev EndsSettled (π : Type) (claimed : List WorkRecord) (_ : Exn) (w : ServiceWorld π) : Prop :=
  AllSettled claimed w.store

theorem Kept.unguarded (hI : Kept claimed I) {op : StoreOp} {env : Supply} (hop : op.ByExecutor k fun _ => True)
    (hunguarded : (ServiceAction.store op env).Unguarded) :
    Triple (ServiceWorld.handler ext) (cycleContract ext claimed) (fun w => I w.store) (callStore op env)
      (fun _ w => I w.store) (EndsSettled π claimed) := by
  refine triple_callStore hI.stable (fun _ => hI.stable) (fun _ => kept_allSettled.stable) ?_
  intro w hw hassume
  refine ⟨trivial, ?_⟩
  cases hout : ((op.exec env).run w.store).outcome with
  | ok r => exact hI _ _ hassume.1 (startsNone_of_byExecutor hop) hw
  | error e =>
    exact kept_allSettled _ _ hassume.1 (startsNone_of_byExecutor hop) (hassume.2 hunguarded ⟨e, hout⟩)

section Parts

variable {E : Exn → ServiceWorld π → Prop} (loop : ExecutorLoop) (env : Supply)

theorem Kept.runRevision (hI : Kept claimed I) (hE : ∀ e, Stable (cycleContract ext claimed) (E e)) (runId : RunId) :
    Triple (ServiceWorld.handler ext) (cycleContract ext claimed) (fun w => I w.store)
      (callStore (.runRevision runId) env) (fun _ w => I w.store) E := by
  refine triple_callStore hI.stable (fun _ => hI.stable) hE ?_
  exact fun _ hw _ => ⟨trivial, hw⟩

def Found (v : WorkRecord) (found : Option WorkRecord) (s : InMemoryStore) : Prop :=
  ∃ u, found = some u ∧ u.workId = v.workId ∧ AsRead u s

theorem kept_found (hv : v ∈ claimed) (found : Option WorkRecord) : Kept claimed (Found v found) := by
  rintro s c hs hc ⟨u, hfound, hkey, hread⟩
  exact ⟨u, hfound, hkey, kept_asRead hv hkey s c hs hc hread⟩

theorem triple_getWork (hv : v ∈ claimed) (hE : ∀ e, Stable (cycleContract ext claimed) (E e)) :
    Triple (ServiceWorld.handler ext) (cycleContract ext claimed) (fun w => Started v.workId w.store)
      (callStore (.getWork v.workId) env) (fun found w => Found v found w.store) E := by
  refine triple_callStore kept_started.stable (fun found => (kept_found hv found).stable) hE ?_
  rintro w ⟨u, hu, hstarted⟩ hassume
  refine ⟨trivial, u, hu, hassume.1.work_key _ u hu, ?_⟩
  exact asRead_of_started hassume.1 hu hstarted

variable {α : Type}

theorem triple_revisionOf {f : ℤ → ServiceTask α} {found : Option WorkRecord} {Q : α → ServiceWorld π → Prop}
    (hf : ∀ u, u.workId = v.workId →
      Triple (ServiceWorld.handler ext) (cycleContract ext claimed) (fun w => AsRead u w.store) (f u.revision) Q E) :
    Triple (ServiceWorld.handler ext) (cycleContract ext claimed) (fun w => Found v found w.store)
      (revisionOf found >>= f) Q E := by
  rintro w ⟨u, rfl, hu, hread⟩
  exact hf u hu w hread

/-- A move of the Work that was found. -/
theorem triple_moveFound (hv : v ∈ claimed) (hu : u.workId = v.workId) (target : WorkStatus)
    (htarget : target ∈ executorWorkTargets) {event : SemanticEvent} {evidence : Option Evidence} (hE : ∀ e, Stable (cycleContract ext claimed) (E e))
    (hrefused : ∀ w, AsRead u w.store → (cycleContract ext claimed).assume w
        (.store (.transitionWorkStatus v.workId target u.revision event evidence) env) →
      ∀ e, (((StoreOp.transitionWorkStatus v.workId target u.revision event evidence).exec env).run w.store).outcome
        = .error e →
      E e { w with store := storeStep w.store ⟨.transitionWorkStatus v.workId target u.revision event evidence, env⟩ }) :
    Triple (ServiceWorld.handler ext) (cycleContract ext claimed) (fun w => AsRead u w.store)
      (callStore (.transitionWorkStatus v.workId target u.revision event evidence) env)
      (fun _ w => Settled v.workId w.store) E := by
  refine triple_callStore (kept_asRead hv hu).stable (fun _ => (kept_settled hv).stable) hE ?_
  intro w hw hassume
  refine ⟨trivial, ?_⟩
  have hrunning : target ≠ .running := by
    intro hrunning
    rw [hrunning] at htarget
    revert htarget
    decide
  cases hout : (((StoreOp.transitionWorkStatus v.workId target u.revision event evidence).exec env).run
      w.store).outcome with
  | ok r => exact settled_of_accepted hassume.1 hrunning hout
  | error e => exact hrefused w hw hassume e hout

theorem triple_ignoreDomainErrors {c : Contract ServiceAction (ServiceWorld π)} {x : ServiceTask α}
    {P J : ServiceWorld π → Prop}
    (hx : Triple (ServiceWorld.handler ext) c P x (fun _ => J) (fun e w => J w ∧ e.isDomainError = true))
    (hJ : Stable c J) (hE : ∀ e, Stable c (E e)) :
    Triple (ServiceWorld.handler ext) c P (ignoreDomainErrors x) (fun _ => J) E := by
  have hend : Triple (ServiceWorld.handler ext) c P (Prog.attempt x)
      (Outcome (fun _ => J) fun e w => J w ∧ e.isDomainError = true) E :=
    hx.attempt (fun _ => hJ) fun _ => hJ.and (stable_const _)
  refine hend.bind hE ?_
  intro r
  cases r with
  | ok a => exact triple_pure hJ fun _ h => h
  | error e =>
    dsimp only
    split
    · exact triple_pure hJ fun _ h => h.1
    · rename_i hdomain
      exact fun w hw => absurd hw.2 hdomain

theorem Kept.moveRun (hI : Kept claimed I) {runId : RunId} {target : RunStatus} {rev : ℤ} {event : SemanticEvent} :
    Triple (ServiceWorld.handler ext) (cycleContract ext claimed) (fun w => I w.store)
      (callStore (.transitionRunStatus runId target rev event none) env) (fun _ w => I w.store)
      (fun e w => I w.store ∧ e.isDomainError = true) := by
  refine triple_callStore hI.stable (fun _ => hI.stable) (fun _ => hI.stable.and (stable_const _)) ?_
  intro w hw hassume
  have hnext := hI w.store ⟨.transitionRunStatus runId target rev event none, env⟩ hassume.1 (fun _ _ h => h) hw
  refine ⟨trivial, ?_⟩
  cases hout : (((StoreOp.transitionRunStatus runId target rev event none).exec env).run w.store).outcome with
  | ok r => exact hnext
  | error e => exact ⟨hnext, transitionRunStatus_error hassume.1 hout⟩

theorem settles_fail (hv : v ∈ claimed) (run : Option RunRecord) (exc : Exn) :
    Triple (ServiceWorld.handler ext) (cycleContract ext claimed) (fun w => Started v.workId w.store)
      (loop.fail env v run exc) (fun _ w => Settled v.workId w.store) (EndsSettled π claimed) := by
  have hE : ∀ e, Stable (cycleContract ext claimed) (EndsSettled π claimed e) := fun _ => kept_allSettled.stable
  have hwork : Triple (ServiceWorld.handler ext) (cycleContract ext claimed) (fun w => Started v.workId w.store)
      (do
        let workCur ← callStore (.getWork v.workId) (env.sub 1)
        ignoreDomainErrors (loop.failWork (env.sub 2) v workCur exc.text)
        return ({ workId := v.workId.val, outcome := "failed", detail := some exc.text } : ExecutorResult))
      (fun _ w => Settled v.workId w.store) (EndsSettled π claimed) := by
    refine (triple_getWork (env.sub 1) hv hE).bind hE ?_
    rintro found
    refine Triple.bind (Q := fun _ w => Settled v.workId w.store) ?_ hE
      fun _ => triple_pure (kept_settled hv).stable fun _ h => h
    refine triple_ignoreDomainErrors ?_ (kept_settled hv).stable hE
    refine triple_revisionOf fun u hu => ?_
    refine triple_moveFound _ hv hu .failed (by decide)
      (fun _ => (kept_settled hv).stable.and (stable_const _)) ?_
    intro w' hread' hassume e hout
    refine ⟨?_, transitionWorkStatus_error (by decide) hout⟩
    rw [← hu] at hout ⊢
    refine settled_step _ hassume.1 ?_ (settled_of_refused hread' (by decide) (by decide) hout)
    rintro ⟨_, hrunning⟩
    cases hrunning
  cases run with
  | none => exact hwork
  | some run =>
    refine Triple.bind (Q := fun _ w => Started v.workId w.store) ?_ hE fun _ => hwork
    refine triple_ignoreDomainErrors ?_ kept_started.stable hE
    refine (kept_started.runRevision _ (fun _ => kept_started.stable.and (stable_const _)) run.runId).bind
      (fun _ => kept_started.stable.and (stable_const _)) ?_
    exact fun rev => kept_started.moveRun _

theorem triple_outside {a : ServiceAction} {answer : a.Answer → Except Exn α} (hI : Kept claimed I)
    (hstore : ∀ t, a.onStore t = t) (hunguarded : a.Unguarded) (hanswer : ∀ r e, answer r = .error e → a.Refused r) :
    Triple (ServiceWorld.handler ext) (cycleContract ext claimed) (fun w => I w.store) (request a answer)
      (fun _ w => I w.store) (EndsSettled π claimed) := by
  refine triple_request hI.stable (fun _ => hI.stable) (fun _ => kept_allSettled.stable) ?_
  intro w hw hassume
  have hsame : (ServiceWorld.handler ext a w).2.store = w.store := by rw [handler_store, hstore]
  refine ⟨trivial, ?_⟩
  cases hout : answer (ServiceWorld.handler ext a w).1 with
  | ok r =>
    change I _
    rwa [hsame]
  | error e =>
    change AllSettled claimed _
    rw [hsame]
    exact hassume.2 hunguarded (hanswer _ e hout)

theorem settles_extractOutputText (hI : Kept claimed I) {result : WorkerResult} {payload : PyDict}
    (hpayload : result.payload.get = .ok payload) : Triple (ServiceWorld.handler ext) (cycleContract ext claimed) (fun w => I w.store) (extractOutputText result)
      (fun _ w => I w.store) (EndsSettled π claimed) := by
  unfold extractOutputText
  rw [hpayload]
  dsimp only
  split
  · exact triple_pure hI.stable fun _ h => h
  · split
    · exact triple_pure hI.stable fun _ h => h
    · refine (triple_outside (a := .jsonDumps payload) hI (fun _ => rfl) trivial fun r e hr => ⟨e, hr⟩).bind (fun _ => kept_allSettled.stable) ?_
      exact fun _ => triple_pure hI.stable fun _ h => h

theorem settles_storeOutput (hI : Kept claimed I) {result : WorkerResult} {payload : PyDict}
    (hpayload : result.payload.get = .ok payload) : Triple (ServiceWorld.handler ext) (cycleContract ext claimed) (fun w => I w.store) (loop.storeOutput v result)
      (fun _ w => I w.store) (EndsSettled π claimed) := by
  unfold ExecutorLoop.storeOutput
  split
  · refine (settles_extractOutputText hI hpayload).bind (fun _ => kept_allSettled.stable) ?_
    intro output
    cases output with
    | none => exact triple_pure hI.stable fun _ h => h
    | some text =>
      dsimp only
      split
      · exact triple_pure hI.stable fun _ h => h
      · refine (triple_outside (a := .storeArtifact text "text/plain" v.workId.val) hI (fun _ => rfl) trivial
          fun r e hr => ⟨e, hr⟩).bind (fun _ => kept_allSettled.stable) ?_
        exact fun _ => triple_pure hI.stable fun _ h => h
  · exact triple_pure hI.stable fun _ h => h

theorem settles_succeed (hv : v ∈ claimed) (run : RunRecord) {result : WorkerResult} {payload : PyDict}
    (hpayload : result.payload.get = .ok payload) : Triple (ServiceWorld.handler ext) (cycleContract ext claimed) (fun w => Started v.workId w.store)
      (loop.succeed env v run result) (fun _ w => Settled v.workId w.store) (EndsSettled π claimed) := by
  have hE : ∀ e, Stable (cycleContract ext claimed) (EndsSettled π claimed e) := fun _ => kept_allSettled.stable
  refine (kept_started.runRevision _ hE run.runId).bind hE fun rev => ?_
  refine Triple.bind (kept_started.unguarded (k := v.workId) ⟨trivial, by decide⟩ (by rfl)) hE fun _ => ?_
  refine (settles_storeOutput loop kept_started hpayload).bind hE fun artifactRefs => ?_
  refine (triple_getWork _ hv hE).bind hE fun found => triple_revisionOf fun u hu => ?_
  refine Triple.bind (Q := fun _ w => Settled v.workId w.store) ?_ hE
    fun _ => triple_pure (kept_settled hv).stable fun _ h => h
  refine triple_moveFound _ hv hu .succeeded (by decide) hE ?_
  intro w' hread' hassume e hout
  refine kept_allSettled _ _ hassume.1 ?_ (hassume.2 (.inl rfl) ⟨e, hout⟩)
  rintro x _ ⟨_, hrunning⟩
  cases hrunning

theorem settles_toWaiting (hv : v ∈ claimed) (run : RunRecord) (prompt : String) :
    Triple (ServiceWorld.handler ext) (cycleContract ext claimed) (fun w => Started v.workId w.store)
      (loop.toWaiting env v run prompt) (fun _ w => Settled v.workId w.store) (EndsSettled π claimed) := by
  have hE : ∀ e, Stable (cycleContract ext claimed) (EndsSettled π claimed e) := fun _ => kept_allSettled.stable
  have hdomain : ∀ e : Exn, Stable (cycleContract ext claimed)
      fun w => Settled v.workId w.store ∧ e.isDomainError = true := fun _ => (kept_settled hv).stable.and (stable_const _)
  refine Triple.bind (kept_started.unguarded (k := v.workId) (by rfl) trivial) hE fun _ => ?_
  refine (triple_getWork _ hv hE).bind hE fun found => triple_revisionOf fun u hu => ?_
  refine Triple.bind (Q := fun _ w => Settled v.workId w.store) ?_ hE ?_
  · refine triple_moveFound _ hv hu .waiting (by decide) hE ?_
    intro w' hread' hassume e hout
    refine kept_allSettled _ _ hassume.1 ?_ (hassume.2 (.inr rfl) ⟨e, hout⟩)
    rintro x _ ⟨_, hrunning⟩
    cases hrunning
  · intro _
    refine Triple.bind (Q := fun _ w => Settled v.workId w.store) ?_ hE
      fun _ => triple_pure (kept_settled hv).stable fun _ h => h
    refine triple_ignoreDomainErrors ?_ (kept_settled hv).stable hE
    refine ((kept_settled hv).runRevision _ hdomain run.runId).bind hdomain ?_
    exact fun rev => (kept_settled hv).moveRun _

/-- Between the call of the worker and what follows it; a reply that escapes finds the batch settled. -/
def Replied (claimed : List WorkRecord) (v : WorkRecord) (reply : WorkerReply) (s : InMemoryStore) : Prop :=
  Started v.workId s ∧ (reply.Escapes → AllSettled claimed s)

theorem kept_replied (reply : WorkerReply) : Kept claimed (Replied claimed v reply) :=
  fun s c hs hc h => ⟨kept_started s c hs hc h.1, fun hreply => kept_allSettled s c hs hc (h.2 hreply)⟩

theorem settles_dispatch (run : RunRecord) :
    Triple (ServiceWorld.handler ext) (cycleContract ext claimed) (fun w => Started v.workId w.store)
      (loop.dispatch v run) (fun reply w => Replied claimed v reply w.store) (fun _ w => Started v.workId w.store) := by
  have hE : ∀ _ : Exn, Stable (cycleContract ext claimed) fun w => Started v.workId w.store :=
    fun _ => kept_started.stable
  have hadapter : Triple (ServiceWorld.handler ext) (cycleContract ext claimed) (fun w => Started v.workId w.store)
      (getAdapter (loop.selectWorkerId v)) (fun _ w => Started v.workId w.store)
      (fun _ w => Started v.workId w.store) :=
    kept_started.triple (k := v.workId) (taskRequests_request (a := .adapter (loop.selectWorkerId v)) trivial)
  have hworker : Triple (ServiceWorld.handler ext) (cycleContract ext claimed) (fun w => Started v.workId w.store)
      (hasWorker (loop.selectWorkerId v)) (fun _ w => Started v.workId w.store)
      (fun _ w => Started v.workId w.store) :=
    kept_started.triple (k := v.workId) (taskRequests_request (a := .adapter (loop.selectWorkerId v)) trivial)
  refine hworker.bind hE fun available => ?_
  split
  · exact triple_throw (hE .assertionError) fun _ h => h
  · refine hadapter.bind hE fun adapter => ?_
    generalize WorkerRequest.new _ _ _ _ _ = created
    cases created with
    | error e => exact triple_throw (hE e) fun _ h => h
    | ok r =>
      refine hadapter.bind hE fun _ => ?_
      refine triple_request kept_started.stable (fun reply => (kept_replied reply).stable) hE ?_
      exact fun w hw hassume => ⟨trivial, hw, fun hreply => hassume.2 trivial hreply⟩

theorem settles_conclude (hv : v ∈ claimed) (run : RunRecord) (result : WorkerResult) :
    Triple (ServiceWorld.handler ext) (cycleContract ext claimed)
      (fun w => Replied claimed v (.returns result) w.store) (loop.conclude env v run result)
      (fun _ w => Settled v.workId w.store) (EndsSettled π claimed) := by
  unfold ExecutorLoop.conclude
  split
  · exact (settles_fail loop _ hv _ _).weaken fun _ h => h.1
  · rename_i hsuccess
    cases hpayload : result.payload.get with
    | error e => exact triple_throw kept_allSettled.stable fun _ h => h.2 ⟨not_not.mp hsuccess, e, hpayload⟩
    | ok payload =>
      refine Triple.weaken (P := fun w => Started v.workId w.store) ?_ fun _ h => h.1
      dsimp only
      split
      · split
        · refine Triple.bind (Q := fun _ w => Started v.workId w.store) ?_ (fun _ => kept_allSettled.stable) ?_
          · exact triple_request kept_started.stable (fun _ => kept_started.stable)
              (fun _ => kept_allSettled.stable) fun _ hw _ => ⟨trivial, hw⟩
          · exact fun prompt => settles_toWaiting loop _ hv run prompt
        · exact settles_succeed loop _ hv run hpayload
      · exact settles_succeed loop _ hv run hpayload

theorem settles_settle (hv : v ∈ claimed) (run : RunRecord) (reply : Except Exn WorkerReply) :
    Triple (ServiceWorld.handler ext) (cycleContract ext claimed)
      (fun w => Outcome (fun reply w => Replied claimed v reply w.store) (fun _ w => Started v.workId w.store) reply w)
      (loop.settle env v run reply) (fun _ w => Settled v.workId w.store) (EndsSettled π claimed) := by
  cases reply with
  | error e => exact settles_fail loop _ hv (some run) e
  | ok reply =>
    cases reply with
    | returns result => exact settles_conclude loop _ hv run result
    | returnsOther e => exact triple_throw kept_allSettled.stable fun _ h => h.2 trivial
    | raises e => exact (settles_fail loop _ hv (some run) e).weaken fun _ h => h.1
    | aborts e => exact triple_throw kept_allSettled.stable fun _ h => h.2 trivial

theorem settles_executeClaimedWork (hv : v ∈ claimed) :
    Triple (ServiceWorld.handler ext) (cycleContract ext claimed) (fun w => Started v.workId w.store)
      (loop.executeClaimedWork env v) (fun _ w => Settled v.workId w.store) (EndsSettled π claimed) := by
  have hE : ∀ e, Stable (cycleContract ext claimed) (EndsSettled π claimed e) := fun _ => kept_allSettled.stable
  have hstarted : Kept claimed (Started v.workId) := kept_started
  have hstable : Stable (cycleContract ext claimed) fun w => Started v.workId w.store := hstarted.stable
  have hcreate := (hstarted.triple (requests_createRunFor loop (env.sub 0) v)).attempt_const
    (E := EndsSettled π claimed) hstable
  refine hcreate.bind hE ?_
  intro created
  cases created with
  | error e => exact settles_fail loop _ hv none e
  | ok run =>
    refine ((settles_dispatch loop run).attempt (fun reply => (kept_replied reply).stable) fun _ => hstable).bind hE ?_
    exact settles_settle loop _ hv run

/-- What holds of the batch while the Works of `rest` are still to be executed. -/
def BatchProgress (claimed rest : List WorkRecord) (s : InMemoryStore) : Prop :=
  ∀ v ∈ claimed, Started v.workId s ∧ (v ∈ rest ∨ Settled v.workId s)

variable (rest : List WorkRecord)

theorem kept_batchProgress : Kept claimed (BatchProgress claimed rest) := by
  intro s c hs hc h v hv
  obtain ⟨hstarted, hrest⟩ := h v hv
  exact ⟨started_step c hs hstarted, hrest.imp id fun hsettled => settled_step c hs (hc v hv) hsettled⟩

theorem settles_executeEach (hrest : ∀ v ∈ rest, v ∈ claimed) :
    Triple (ServiceWorld.handler ext) (cycleContract ext claimed) (fun w => BatchProgress claimed rest w.store)
      (loop.executeEach rest env) (fun _ w => AllSettled claimed w.store) (EndsSettled π claimed) := by
  have hE : ∀ e, Stable (cycleContract ext claimed) (EndsSettled π claimed e) := fun _ => kept_allSettled.stable
  induction rest generalizing env with
  | nil =>
    refine triple_pure kept_allSettled.stable ?_
    exact fun w hw v hv => (hw v hv).2.resolve_left List.not_mem_nil
  | cons v rest ih =>
    have hv := hrest v List.mem_cons_self
    have hkept : Kept claimed (BatchProgress claimed (v :: rest)) := kept_batchProgress (v :: rest)
    have hstable : Stable (cycleContract ext claimed) fun w => BatchProgress claimed (v :: rest) w.store := hkept.stable
    have hfirst : Triple (ServiceWorld.handler ext) (cycleContract ext claimed)
        (fun w => BatchProgress claimed (v :: rest) w.store) (loop.executeClaimedWork (env.sub 0) v)
        (fun _ w => BatchProgress claimed rest w.store) (EndsSettled π claimed) := by
      have hframed := (settles_executeClaimedWork loop (env.sub 0) hv).frame
        (requests_executeClaimedWork loop (env.sub 0) v) (fun a w ha hassume h => hkept.own a w ha hassume h)
        hstable
      refine (hframed.weaken ?_).conseq ?_ fun _ _ h => h.1
      · exact fun w hw => ⟨(hw v hv).1, hw⟩
      · rintro _ w ⟨hsettled, hw⟩ u hu
        refine ⟨(hw u hu).1, ?_⟩
        rcases (hw u hu).2 with hmem | hsettled'
        · rcases List.mem_cons.mp hmem with rfl | hmem
          · exact .inr hsettled
          · exact .inl hmem
        · exact .inr hsettled'
    refine hfirst.bind hE fun result => ?_
    refine (ih (env.sub 1) fun u hu => hrest u (List.mem_cons_of_mem v hu)).bind hE fun results => ?_
    exact triple_pure kept_allSettled.stable fun _ h => h

end Parts

/-! ## Where an exception leaves the cycle -/

def ServiceAction.Breaks (a : ServiceAction) (r : a.Answer) : Prop := a.Unguarded ∧ a.Refused r

section Stops

variable (loop : ExecutorLoop) (env : Supply) (work : WorkRecord)

theorem stopsOn_request {α : Type} {a : ServiceAction} {answer : a.Answer → Except Exn α}
    (hanswer : ∀ r, a.Refused r → ∃ e, answer r = .error e) : StopsOn ServiceAction.Breaks (request a answer).run := by
  refine ⟨?_, fun _ => trivial⟩
  intro r hr
  obtain ⟨e, he⟩ := hanswer r hr.2
  exact ⟨e, congrArg Prog.done he⟩

theorem stopsOn_callStore {op : StoreOp} : StopsOn ServiceAction.Breaks (callStore op env).run :=
  stopsOn_request fun _ hr => hr

theorem stopsOn_revisionOf {found : Option WorkRecord} : StopsOn ServiceAction.Breaks (revisionOf found).run := by
  cases found <;> trivial

theorem stopsOn_ignoreDomainErrors {α : Type} {x : ServiceTask α}
    (hx : TaskRequests (fun a => ¬a.Unguarded) x) : StopsOn ServiceAction.Breaks (ignoreDomainErrors x).run := by
  refine stopsOn_bind (stopsOn_attempt hx fun a ha r hr => ha hr.1) ?_
  intro r
  cases r with
  | ok a => trivial
  | error e =>
    dsimp only
    split <;> trivial

theorem guarded_createRunFor : TaskRequests (fun a => ¬a.Unguarded) (loop.createRunFor env work) := by
  refine TaskRequests.bind (taskRequests_callStore id) fun _ => ?_
  refine TaskRequests.bind (taskRequests_callStore id) fun _ => ?_
  refine taskRequests_callStore ?_
  intro h
  cases h

variable (run : RunRecord)

theorem guarded_failRun (reason : String) : TaskRequests (fun a => ¬a.Unguarded) (loop.failRun env work run reason) := by
  refine TaskRequests.bind (taskRequests_callStore id) fun _ => taskRequests_callStore ?_
  intro h
  cases h

theorem guarded_failWork (found : Option WorkRecord) (reason : String) :
    TaskRequests (fun a => ¬a.Unguarded) (loop.failWork env work found reason) := by
  refine taskRequests_revisionOf.bind fun _ => taskRequests_callStore ?_
  rintro (h | h) <;> cases h

theorem guarded_waitRun : TaskRequests (fun a => ¬a.Unguarded) (loop.waitRun env work run) := by
  refine TaskRequests.bind (taskRequests_callStore id) fun _ => taskRequests_callStore ?_
  intro h
  cases h

theorem stopsOn_fail (run : Option RunRecord) (exc : Exn) :
    StopsOn ServiceAction.Breaks (loop.fail env work run exc).run := by
  have hwork : StopsOn ServiceAction.Breaks (do
      let workCur ← callStore (.getWork work.workId) (env.sub 1)
      ignoreDomainErrors (loop.failWork (env.sub 2) work workCur exc.text)
      return ({ workId := work.workId.val, outcome := "failed", detail := some exc.text } : ExecutorResult) :
        ServiceTask ExecutorResult).run := by
    refine stopsOn_bind (stopsOn_callStore _) fun workCur => ?_
    exact stopsOn_bind (stopsOn_ignoreDomainErrors (guarded_failWork loop _ work workCur _)) fun _ => trivial
  cases run with
  | none => exact hwork
  | some run => exact stopsOn_bind (stopsOn_ignoreDomainErrors (guarded_failRun loop _ work run _)) fun _ => hwork

theorem stopsOn_storeOutput (result : WorkerResult) : StopsOn ServiceAction.Breaks (loop.storeOutput work result).run := by
  have houtput : StopsOn ServiceAction.Breaks (extractOutputText result).run := by
    unfold extractOutputText
    split
    · trivial
    · split
      · trivial
      · split
        · trivial
        · exact stopsOn_bind (stopsOn_request fun _ hr => hr) fun _ => trivial
  unfold ExecutorLoop.storeOutput
  split
  · refine stopsOn_bind houtput fun output => ?_
    cases output with
    | none => trivial
    | some text =>
      dsimp only
      split
      · trivial
      · exact stopsOn_bind (stopsOn_request fun _ hr => hr) fun _ => trivial
  · trivial

theorem stopsOn_succeed (result : WorkerResult) : StopsOn ServiceAction.Breaks (loop.succeed env work run result).run := by
  refine stopsOn_bind (stopsOn_callStore _) fun rev => ?_
  refine stopsOn_bind (stopsOn_callStore _) fun _ => ?_
  refine stopsOn_bind (stopsOn_storeOutput loop work result) fun artifactRefs => ?_
  refine stopsOn_bind (stopsOn_callStore _) fun workCur => ?_
  refine stopsOn_bind stopsOn_revisionOf fun revision => ?_
  exact stopsOn_bind (stopsOn_callStore _) fun _ => trivial

theorem stopsOn_toWaiting (prompt : String) : StopsOn ServiceAction.Breaks (loop.toWaiting env work run prompt).run := by
  refine stopsOn_bind (stopsOn_callStore _) fun _ => ?_
  refine stopsOn_bind (stopsOn_callStore _) fun workCur => ?_
  refine stopsOn_bind stopsOn_revisionOf fun revision => ?_
  refine stopsOn_bind (stopsOn_callStore _) fun _ => ?_
  exact stopsOn_bind (stopsOn_ignoreDomainErrors (guarded_waitRun loop _ work run)) fun _ => trivial

theorem stopsOn_conclude (result : WorkerResult) : StopsOn ServiceAction.Breaks (loop.conclude env work run result).run := by
  unfold ExecutorLoop.conclude
  split
  · exact stopsOn_fail loop _ work _ _
  · split
    · trivial
    · split
      · split
        · refine stopsOn_bind (stopsOn_request fun _ hr => hr.elim) fun prompt => ?_
          exact stopsOn_toWaiting loop _ work run prompt
        · exact stopsOn_succeed loop _ work run result
      · exact stopsOn_succeed loop _ work run result

theorem stopsOn_settle (reply : Except Exn WorkerReply) :
    StopsOn ServiceAction.Breaks (loop.settle env work run reply).run := by
  cases reply with
  | error e => exact stopsOn_fail loop _ work (some run) e
  | ok reply =>
    cases reply with
    | returns result => exact stopsOn_conclude loop _ work run result
    | returnsOther e => trivial
    | raises e => exact stopsOn_fail loop _ work (some run) e
    | aborts e => trivial

/-- After a reply that escapes nothing more is requested. -/
theorem settle_of_escapes {reply : WorkerReply} (h : reply.Escapes) :
    ∃ e, (loop.settle env work run (.ok reply)).run = .done (.error e) := by
  cases reply with
  | returns result =>
    obtain ⟨hsuccess, e, he⟩ := h
    refine ⟨e, ?_⟩
    simp only [ExecutorLoop.settle, ExecutorLoop.conclude, hsuccess, he, ne_eq, not_true_eq_false, if_false]
    rfl
  | returnsOther e => exact ⟨e, rfl⟩
  | raises e => exact h.elim
  | aborts e => exact ⟨e, rfl⟩

variable {α β : Type} {f : Except Exn β → ServiceTask ExecutorResult}

/-- Inside a handler only the requests of the first part are safe from breaking. -/
theorem stopsOn_attempt_bind {x : ServiceTask α} {g : α → ServiceTask β} (hx : TaskRequests (fun a => ¬a.Unguarded) x)
    (hg : ∀ a, StopsOn ServiceAction.Breaks (Prog.attempt (g a) >>= f).run)
    (hf : ∀ e, StopsOn ServiceAction.Breaks (f (.error e)).run) :
    StopsOn ServiceAction.Breaks (Prog.attempt (x >>= g) >>= f).run := by
  change OnlyRequests (fun a => ¬a.Unguarded) x.run at hx
  change StopsOn ServiceAction.Breaks (((x.run >>= ExceptT.bindCont g) >>= fun r => Prog.done (.ok r)) >>= ExceptT.bindCont f)
  generalize x.run = p at hx
  induction p with
  | done r =>
    cases r with
    | ok a => exact hg a
    | error e => exact hf e
  | act a rest ih => exact ⟨fun r hr => absurd hr.1 hx.1, fun r => ih r (hx.2 r)⟩

/-- The call of the worker is the last request of `dispatch`. -/
theorem stopsOn_dispatch : StopsOn ServiceAction.Breaks (do
    let reply ← Prog.attempt (loop.dispatch work run)
    loop.settle env work run reply : ServiceTask ExecutorResult).run := by
  have hf (e : Exn) := stopsOn_settle loop env work run (.error e)
  refine stopsOn_attempt_bind (taskRequests_request id) (fun available => ?_) hf
  split
  · exact hf _
  · refine stopsOn_attempt_bind (taskRequests_request id) (fun adapter => ?_) hf
    have hcreated (created : Except Exn WorkerRequest) :
        TaskRequests (fun a => ¬a.Unguarded) (MonadExcept.ofExcept created : ServiceTask WorkerRequest) := by
      cases created <;> trivial
    refine stopsOn_attempt_bind (hcreated _) (fun r => ?_) hf
    refine stopsOn_attempt_bind (taskRequests_request id) (fun _ => ?_) hf
    exact ⟨fun reply hreply => settle_of_escapes loop env work run hreply.2,
      fun reply => stopsOn_settle loop env work run (.ok reply)⟩

theorem stopsOn_executeClaimedWork : StopsOn ServiceAction.Breaks (loop.executeClaimedWork env work).run := by
  refine stopsOn_bind (stopsOn_attempt (guarded_createRunFor loop _ work) fun a ha r hr => ha hr.1) fun created => ?_
  cases created with
  | error e => exact stopsOn_fail loop _ work none e
  | ok run =>
    exact stopsOn_dispatch loop _ work run

theorem stopsOn_executeEach (works : List WorkRecord) : StopsOn ServiceAction.Breaks (loop.executeEach works env).run := by
  induction works generalizing env with
  | nil => trivial
  | cons work rest ih =>
    refine stopsOn_bind (stopsOn_executeClaimedWork loop _ work) fun result => ?_
    exact stopsOn_bind (ih (env.sub 1)) fun results => trivial

end Stops

theorem store_of_breaks {a : ServiceAction} {w : ServiceWorld π} (hs : w.store.WellFormed)
    (h : a.Breaks (ServiceWorld.handler ext a w).1) : (ServiceWorld.handler ext a w).2.store = w.store := by
  rw [handler_store]
  cases a with
  | store op env =>
    obtain ⟨e, he⟩ := h.2
    rcases accepted_or_same ⟨op, env⟩ hs with ⟨v, s', hok⟩ | hsame
    · change ((op.exec env).run w.store).outcome = .error e at he
      change (op.exec env).run w.store = .ok v s' at hok
      rw [hok] at he
      cases he
    · exact hsame
  | _ => rfl

/-! ## Cycles beside other clients -/

section Cycles

variable {ι : Type} [DecidableEq ι]

/-- Whenever the call of client `i` has returned or raised, the batch is settled. -/
def BatchSettled (ext : Externals π) (claimed : List WorkRecord) (i : ι) (p : ServicePool ι π) (schedule : List ι) : Prop :=
  ∀ earlier later, schedule = earlier ++ later →
    ∀ r, (MachineRuns.run (serviceStep ext) p earlier).threads i = .done r →
      AllSettled claimed (MachineRuns.run (serviceStep ext) p earlier).state.store

/-- No other client than `i` moves a Work of the batch into RUNNING. -/
def OthersStartNone (ext : Externals π) (claimed : List WorkRecord) (i : ι) (p : ServicePool ι π)
    (schedule : List ι) : Prop :=
  EveryStep (serviceStep ext)
    (fun q j => j ≠ i → ∀ op env, q.Requests j (.store op env) → StartsNone claimed q.state.store ⟨op, env⟩) p schedule

/-- No request of client `i` outside the handlers raises while a Work of the batch is RUNNING. -/
def RaisesOnlySettled (ext : Externals π) (claimed : List WorkRecord) (i : ι) (p : ServicePool ι π)
    (schedule : List ι) : Prop :=
  EveryStep (serviceStep ext)
    (fun q j => j = i → ∀ a, q.Requests i a → RaisesSettled ext claimed q.state a) p schedule

variable {p : ServicePool ι π}

theorem stopsOn_serviceRun (ext : Externals π) {i : ι} (h : StopsOn ServiceAction.Breaks (p.threads i))
    (schedule : List ι) : StopsOn ServiceAction.Breaks ((MachineRuns.run (serviceStep ext) p schedule).threads i) := by
  refine MachineRuns.invariant_run (I := fun q : ServicePool ι π => StopsOn ServiceAction.Breaks (q.threads i))
    ?_ h schedule
  intro q j hq
  by_cases hji : j = i
  · subst hji
    rw [Pool.step_self]
    cases hthread : q.threads j with
    | done r => trivial
    | act a rest =>
      rw [hthread] at hq
      exact hq.2 _
  · rwa [Pool.step_other q hji]

/-- A settled batch at the end means that the requests outside the handlers raised only when it
was settled. -/
theorem raisesOnlySettled_of_settled {i : ι} {schedule : List ι}
    (hreach : StoreReachable p.state.store) (hstops : StopsOn ServiceAction.Breaks (p.threads i))
    (h : BatchSettled ext claimed i p schedule) : RaisesOnlySettled ext claimed i p schedule := by
  rintro earlier j later rfl hj a ⟨rest, hthread⟩ hunguarded hrefused
  subst hj
  have hs := (reachable_serviceRun ext hreach earlier).wellFormed
  have hstops' := stopsOn_serviceRun ext hstops earlier
  have hnext := h (earlier ++ [j]) later (by simp)
  rw [run_append, run_cons, run_nil] at hnext
  generalize MachineRuns.run (serviceStep ext) p earlier = q at *
  rw [hthread] at hstops'
  obtain ⟨e, he⟩ := hstops'.1 _ ⟨hunguarded, hrefused⟩
  have hend : (serviceStep ext q j).threads j = .done (.error e) := by
    rw [Pool.step_self, hthread]
    exact he
  have hstore : (serviceStep ext q j).state.store = q.state.store := by
    simp only [Pool.step, hthread, advance]
    exact store_of_breaks hs ⟨hunguarded, hrefused⟩
  rw [← hstore]
  exact hnext _ hend

theorem batchProgress_handedOut {c : StoreCall} (hs : s.WellFormed) :
    BatchProgress (handedOut s c) (handedOut s c) (storeStep s c) := by
  intro v hv
  obtain ⟨_, hrunning, hstored⟩ := handedOut_taken hs hv
  refine ⟨⟨v, hstored, ?_⟩, .inl hv⟩
  rw [hrunning]
  decide

theorem run_runOneCycle_task (loop : ExecutorLoop) (limit : ℤ) (env : Supply) :
    ((ServiceCall.runOneCycle loop limit).task env).run = .act (.store (.claimPendingWork limit) (env.sub 0)) fun
        | .error e => .done (.error e)
        | .ok claimed => (do let _ ← loop.executeEach claimed (env.sub 1) : ServiceTask Unit).run := by
  simp only [ServiceCall.task]
  refine congrArg (Prog.act _) ?_
  funext r
  cases r with
  | error e => rfl
  | ok claimed => rfl

theorem step_runOneCycle (ext : Externals π) {i : ι} {loop : ExecutorLoop} {limit : ℤ} {env : Supply}
    (hthread : p.threads i = ((ServiceCall.runOneCycle loop limit).task env).run) :
    (serviceStep ext p i).threads i =
        (do let _ ← loop.executeEach (handedOut p.state.store ⟨.claimPendingWork limit, env.sub 0⟩) (env.sub 1) :
          ServiceTask Unit).run ∧
      (serviceStep ext p i).state.store = storeStep p.state.store ⟨.claimPendingWork limit, env.sub 0⟩ := by
  rw [run_runOneCycle_task] at hthread
  have hanswer : (ServiceWorld.handler ext (.store (.claimPendingWork limit) (env.sub 0)) p.state).1 =
      .ok (handedOut p.state.store ⟨.claimPendingWork limit, env.sub 0⟩) :=
    outcome_claim p.state.store limit (env.sub 0)
  constructor
  · rw [Pool.step_self, hthread, advance, hanswer]
  · simp only [Pool.step, hthread, advance]
    rfl

end Cycles

def fullDisk : Externals Unit :=
  sampleExternals (some (InsertionDict.empty.set "output" (.str "x"))) (.error (.foreign "OSError" "disk full"))

def cycleClients : Clients ℕ := sampleClients [.runOneCycle ⟨"kiro", executorActor, true⟩ 1]

def cycleBatch : List WorkRecord := handedOut pendingStore ⟨.claimPendingWork 1, (cycleClients.env 0).sub 0⟩

def claimedPool : ServicePool ℕ Unit := serviceStep fullDisk (cycleClients.pool (sampleWorld pendingStore)) 0

end AllTomorrow
