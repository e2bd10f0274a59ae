import AllTomorrow.ServiceRuns
import AllTomorrow.ExecutorRequests
import AllTomorrow.CrashTriples
import AllTomorrow.WorkClaims

/-!
# Executing an answered Work

`resume_answered_work` leaves the Work RUNNING, and a cycle of the executor claims
only PENDING Works: the resumed attempt is never handed to a worker.
-/

namespace AllTomorrow

open InMemoryStore Prog

/-! ## A resumed Work beside a cycle -/

/-- `resume_answered_work` followed by `run_one_cycle`. -/
def resumeThenCycle (loop : ExecutorLoop) (actor : Actor) (workId : WorkId) (limit : ℤ) (env : Supply) :
    ServiceTask (List ExecutorResult) := do
  let _ ← resumeAnsweredWork (env.sub 0) actor workId
  loop.runOneCycle (env.sub 1) limit

section Resumed

variable {π : Type} (ext : Externals π) (world : ServiceWorld π) (loop : ExecutorLoop) (actor : Actor) (k : WorkId)
  (limit : ℤ) (env : Supply)

/-- The cycle has the resumed Work executed and it succeeds. -/
structure AnsweredWorkExecuted : Prop where
  succeeded : ∃ w, (evalTask (ServiceWorld.handler ext) (resumeThenCycle loop actor k limit env) world).2.store.work.get? k
    = some w ∧ w.status = .succeeded
  invoked : ∃ n workerId r, pending (ServiceWorld.handler ext) n (resumeThenCycle loop actor k limit env).run world
    = some (.execute workerId r) ∧ r.requestId = k.val

def WaitingOrResumed (w : ServiceWorld π) : Prop :=
  w.store.WellFormed ∧ ∃ v, w.store.work.get? k = some v ∧ (v.status = .waiting ∨ v.status = .running)

/-- The request calls no worker for the Work and moves it to no other status than RUNNING. -/
def OnlyResumes : ServiceAction → Prop
  | .store (.transitionWorkStatus j target _ _ _) _ => j = k → target = .running
  | .execute _ r => r.requestId ≠ k.val
  | _ => True

theorem waitingOrResumed_storeStep {s : InMemoryStore} (op : StoreOp) (hs : s.WellFormed)
    (hop : OnlyResumes k (.store op env)) {v : WorkRecord} (hv : s.work.get? k = some v)
    (hstatus : v.status = .waiting ∨ v.status = .running) :
    ∃ v', (storeStep s ⟨op, env⟩).work.get? k = some v' ∧ (v'.status = .waiting ∨ v'.status = .running) := by
  have hchange := work_change_step ⟨op, env⟩ hs k
  generalize (storeStep s ⟨op, env⟩).work.get? k = after at hchange ⊢
  cases hchange with
  | kept => exact ⟨v, hv, hstatus⟩
  | created hkey hfresh hgoal =>
    rw [hv] at hfresh
    cases hfresh
  | moved hget hmem => exact ⟨_, rfl, .inr (hop rfl)⟩
  | claimed hget hmem env' => exact ⟨_, rfl, .inr rfl⟩

theorem waitingOrResumed_handler (a : ServiceAction) (w : ServiceWorld π) (ha : OnlyResumes k a)
    (hw : WaitingOrResumed k w) : WaitingOrResumed k (ServiceWorld.handler ext a w).2 := by
  obtain ⟨hs, v, hv, hstatus⟩ := hw
  unfold WaitingOrResumed
  rw [handler_store]
  cases a with
  | store op env => exact ⟨wellFormed_step _ _ hs, waitingOrResumed_storeStep k env op hs ha hv hstatus⟩
  | _ => exact ⟨hs, v, hv, hstatus⟩

theorem onlyResumes_of_movesRun (a : ServiceAction) (ha : a.MovesRun) : OnlyResumes k a := by
  cases a with
  | store op env =>
    cases op with
    | transitionWorkStatus i target rev event evidence => exact ha.elim
    | _ => trivial
  | execute workerId r => exact ha.elim
  | _ => trivial

theorem requests_resumeAnsweredWork : TaskRequests (OnlyResumes k) (resumeAnsweredWork env actor k) := by
  refine (taskRequests_callStore trivial).bind ?_
  intro found
  cases found with
  | none => exact taskRequests_pure
  | some work =>
    dsimp only
    split
    · exact taskRequests_pure
    · refine (taskRequests_callStore trivial).bind fun runs => ?_
      refine TaskRequests.bind ((requests_closePriors actor work _ _).mono (onlyResumes_of_movesRun k)) fun _ => ?_
      refine (taskRequests_callStore trivial).bind fun _ => ?_
      exact TaskRequests.bind (taskRequests_callStore fun _ => rfl) fun _ => taskRequests_pure

theorem onlyResumes_of_byExecutor {j : WorkId} {moved : RunId → Prop} (hne : j ≠ k) (a : ServiceAction)
    (ha : a.ByExecutor j moved) : OnlyResumes k a := by
  cases a with
  | store op env =>
    cases op with
    | transitionWorkStatus i target rev event evidence => exact fun hi => absurd (ha.1.symm.trans hi) hne
    | _ => trivial
  | execute workerId r =>
    intro hid
    refine hne ?_
    cases j
    cases k
    exact congrArg WorkId.mk (ha.symm.trans hid)
  | _ => trivial

theorem requests_executeEach (claimed : List WorkRecord) (hclaimed : ∀ v ∈ claimed, v.workId ≠ k) :
    TaskRequests (OnlyResumes k) (loop.executeEach claimed env) := by
  induction claimed generalizing env with
  | nil => exact taskRequests_pure
  | cons v rest ih =>
    have hv : TaskRequests (OnlyResumes k) (loop.executeClaimedWork (env.sub 0) v) :=
      (requests_executeClaimedWork loop (env.sub 0) v).mono
        (onlyResumes_of_byExecutor k (hclaimed v List.mem_cons_self))
    have hrest := ih (env.sub 1) fun u hu => hclaimed u (List.mem_cons_of_mem v hu)
    exact hv.bind fun _ => hrest.bind fun _ => taskRequests_pure

theorem crashSafe_claim {P : ServiceWorld π → Prop} :
    CrashSafe (ServiceWorld.handler ext) (WaitingOrResumed k) (fun a _ => OnlyResumes k a) P
      (callStore (.claimPendingWork limit) env) (fun claimed _ => ∀ v ∈ claimed, v.workId ≠ k) := by
  intro w hw _
  refine ⟨trivial, waitingOrResumed_handler ext k _ w trivial hw, ?_⟩
  intro claimed hclaimed u hu hkey
  obtain ⟨hs, v, hv, hstatus⟩ := hw
  have hlist : handedOut w.store ⟨.claimPendingWork limit, env⟩ = claimed :=
    Except.ok.inj ((outcome_claim w.store limit env).symm.trans hclaimed)
  rw [← hlist] at hu
  obtain ⟨⟨x, hx, heligible⟩, _, _⟩ := handedOut_taken hs hu
  have hsame : x = v := by
    have hget := heligible.1
    rw [hx, hkey, hv, Option.some.injEq] at hget
    exact hget.symm
  have hpending : v.status = .pending := hsame ▸ heligible.2.1
  rw [hpending] at hstatus
  rcases hstatus with hstatus | hstatus <;> cases hstatus

/-- No part of it is achieved. -/
theorem resumed_work_not_executed {w : WorkRecord} (hreach : StoreReachable world.store)
    (hget : world.store.work.get? k = some w) (hwaiting : w.status = .waiting) :
    (∃ v, (evalTask (ServiceWorld.handler ext) (resumeThenCycle loop actor k limit env) world).2.store.work.get? k
        = some v ∧ (v.status = .waiting ∨ v.status = .running)) ∧
      ∀ n workerId r, pending (ServiceWorld.handler ext) n (resumeThenCycle loop actor k limit env).run world
        = some (.execute workerId r) → r.requestId ≠ k.val := by
  have hsafe : CrashSafe (ServiceWorld.handler ext) (WaitingOrResumed k) (fun a _ => OnlyResumes k a) (fun _ => True)
      (resumeThenCycle loop actor k limit env) fun _ _ => True := by
    have hresume := (requests_resumeAnsweredWork actor k (env.sub 0)).crashSafe (P := fun _ => True)
      (waitingOrResumed_handler ext k)
    refine hresume.bind fun _ => (crashSafe_claim ext k limit _).bind fun claimed => ?_
    intro w' hw' hclaimed
    exact (requests_executeEach loop k _ claimed hclaimed).crashSafe (P := fun _ => True)
      (waitingOrResumed_handler ext k) w' hw' trivial
  have hpoints := hsafe world ⟨hreach.wellFormed, w, hget, .inl hwaiting⟩ trivial
  refine ⟨hpoints.eval.1.2, ?_⟩
  intro n workerId r hpending
  rcases hpoints.cut n with ⟨a, ha, honly⟩ | ⟨hnone, _⟩
  · rw [hpending, Option.some.injEq] at ha
    subst ha
    exact honly
  · rw [hpending] at hnone
    cases hnone

/-- Whatever the store, the worker and the limit, a WAITING Work that is resumed and followed by a
cycle does not end SUCCEEDED with a worker called for it. -/
theorem answeredWork_never_executed {w : WorkRecord} (hreach : StoreReachable world.store)
    (hget : world.store.work.get? k = some w) (hwaiting : w.status = .waiting) :
    ¬AnsweredWorkExecuted ext world loop actor k limit env := by
  obtain ⟨⟨v, hv, hstatus⟩, _⟩ := resumed_work_not_executed ext world loop actor k limit env hreach hget hwaiting
  rintro ⟨⟨u, hu, hsucceeded⟩, _⟩
  rw [hv, Option.some.injEq] at hu
  rw [hu, hsucceeded] at hstatus
  rcases hstatus with hstatus | hstatus <;> cases hstatus

end Resumed

/-- The Work of `waitingCalls`, with its Question answered. -/
def answeredCalls : List StoreCall :=
  waitingCalls ++ [⟨.answerQuestion ⟨"q_1"⟩ 1 "answer:1" "signal:1", frozenSupply⟩]

def answeredStore : InMemoryStore := MachineRuns.run storeStep .empty answeredCalls

/-- The only Work waits, its only Question is answered, nothing can be claimed and the worker
succeeds; the Work is not executed. -/
theorem answered_work_left_running :
    (∃ w, answeredStore.work.get? ⟨"work_1"⟩ = some w ∧ w.status = .waiting) ∧
      (∃ q, answeredStore.questions.values = [q] ∧ q.workId = some ⟨"work_1"⟩ ∧ q.status = .answered) ∧
      ¬AnsweredWorkExecuted (sampleExternals none (.ok "h")) (sampleWorld answeredStore) ⟨"kiro", executorActor, true⟩
        executorActor ⟨"work_1"⟩ 1 frozenSupply := by
  refine ⟨⟨_, rfl, rfl⟩, ⟨_, rfl, rfl, rfl⟩, ?_⟩
  rintro ⟨⟨w, hw, hstatus⟩, _⟩
  revert hstatus
  cases hw
  decide

theorem answeredWork_never_executed_sample :
    StoreReachable answeredStore ∧
      ¬AnsweredWorkExecuted (sampleExternals none (.ok "h")) (sampleWorld answeredStore) ⟨"kiro", executorActor, true⟩
        executorActor ⟨"work_1"⟩ 1 frozenSupply := by
  have hreach : StoreReachable answeredStore := ⟨answeredCalls, rfl⟩
  exact ⟨hreach, answeredWork_never_executed _ (sampleWorld answeredStore) _ _ _ _ _ hreach rfl rfl⟩

end AllTomorrow
