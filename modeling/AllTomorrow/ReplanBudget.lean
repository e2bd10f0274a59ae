import AllTomorrow.ServiceRuns

/-!
# The replan budget

`replan` of `execution_service.py` advances its counter, which also numbers the attempts,
before the store decides whether the Work may have a new Run. A history of calls keeps what
every `replan` has returned or raised and the counter on both sides of it.
-/

namespace AllTomorrow

open Prog

/-! ## When the store takes a Run -/

structure InMemoryStore.TakesRun (s : InMemoryStore) (runId : RunId) (workId : WorkId) : Prop where
  fresh : s.runs.get? runId = none
  work : ∃ work, s.work.get? workId = some work
  idle : ∀ r ∈ s.runs.values, r.workId = workId → r.isActive = false

theorem assertActiveRunsInvariant_idle {existing : List RunRecord} (run : RunRecord)
    (h : ∀ r ∈ existing, r.isActive = false) : assertActiveRunsInvariant (existing ++ [run]) 1 = .ok () := by
  have hnone : existing.filter RunRecord.isActive = [] := by
    rw [List.filter_eq_nil_iff]
    intro r hr
    simp [h r hr]
  have hlength : ((existing ++ [run]).filter RunRecord.isActive).length ≤ 1 := by
    rw [List.filter_append, hnone, List.nil_append]
    exact List.length_filter_le _ _
  unfold assertActiveRunsInvariant
  dsimp only
  rw [if_neg (Nat.not_lt.mpr hlength)]

section CreateRun

variable {s : InMemoryStore} {run : RunRecord}

theorem createRun_of_takesRun (event : SemanticEvent) (h : s.TakesRun run.runId run.workId) :
    ((InMemoryStore.createRun run event).run s).outcome = .ok run := by
  have hfresh : s.runs.contains run.runId = false := InsertionDict.contains_eq_false_iff.mpr h.fresh
  have hwork : s.work.contains run.workId = true := InsertionDict.contains_iff.mpr h.work
  have hidle : assertActiveRunsInvariant ((s.runs.values.filter fun r => r.workId = run.workId) ++ [run]) 1 = .ok () := by
    apply assertActiveRunsInvariant_idle
    intro r hr
    rw [List.mem_filter, decide_eq_true_eq] at hr
    exact h.idle r hr.1 hr.2
  unfold InMemoryStore.createRun
  simp only [EStateM.run_bind, EStateM.run_get, hfresh, Bool.false_eq_true, ↓reduceIte, hwork, Bool.not_true, hidle,
    EStateM.run_ofExcept_ok, EStateM.run_modify]
  rfl

theorem createRun_of_not_takesRun (env : Supply) (event : SemanticEvent) (hactive : run.isActive = true)
    (h : ¬s.TakesRun run.runId run.workId) : ∃ e, ((InMemoryStore.createRun run event).run s).outcome = .error e := by
  have heffect : Effect env s (.createRun run event) ((InMemoryStore.createRun run event).run s) :=
    createRun_effect run event
  generalize (InMemoryStore.createRun run event).run s = result at heffect
  cases heffect with
  | raised e => exact ⟨e, rfl⟩
  | read v hread => cases hread
  | runCreated _ _ hfresh hwork hidle => exact absurd ⟨hfresh, hwork, hidle hactive⟩ h

end CreateRun

/-! ## One call -/

variable {π : Type}

/-- `replans_used`. -/
def ServiceWorld.replansUsed (w : ServiceWorld π) (workId : WorkId) : ℤ := (w.replans.get? workId).getD 0

namespace ExecutionService

variable (ext : Externals π) (service : ExecutionService) (env : Supply) (workId : WorkId)

/-- What `start_run` asks of the store. -/
def create (attemptNumber : ℤ) : StoreM RunRecord :=
  InMemoryStore.createRun (newRunRecord (env.sub 0) workId attemptNumber)
    (evt (env.sub 1) service.actor .runCreated none (some workId) (some (newRunId (env.sub 0))))

/-- The answer of the store, as `start_run` passes it on. -/
def startAnswer (run : RunRecord) : Except Exn RunRecord → Except Exn RunRecord
  | .ok _ => .ok run
  | .error e =>
    if e.isInvariantViolation then
      .error (.invariantViolationError ("work " ++ workId.val ++ " already has an active Run"))
    else .error e

theorem evalTask_startRun (w : ServiceWorld π) (attemptNumber : ℤ) :
    evalTask (ServiceWorld.handler ext) (service.startRun env workId attemptNumber) w =
      (startAnswer workId (newRunRecord (env.sub 0) workId attemptNumber)
          ((service.create env workId attemptNumber).run w.store).outcome,
        { w with store := ((service.create env workId attemptNumber).run w.store).state }) := by
  have hcreate : evalTask (ServiceWorld.handler ext) (attempt (callStore
      (.createRun (newRunRecord (env.sub 0) workId attemptNumber)
        (evt (env.sub 1) service.actor .runCreated none (some workId) (some (newRunId (env.sub 0))))) (env.sub 2))) w =
      (.ok ((service.create env workId attemptNumber).run w.store).outcome,
        { w with store := ((service.create env workId attemptNumber).run w.store).state }) :=
    evalTask_attempt _ _ _
  refine (evalTask_bind_ok hcreate _).trans ?_
  generalize (service.create env workId attemptNumber).run w.store = result
  cases result with
  | ok run s => rfl
  | error e s =>
    simp only [EStateM.Result.outcome_error, startAnswer]
    split <;> rfl

variable {w : ServiceWorld π}

/-- The store takes the Run that `replan` starts. -/
def Takes (env : Supply) (workId : WorkId) (w : ServiceWorld π) : Prop :=
  w.store.TakesRun (newRunId ((env.sub 0).sub 0)) workId

theorem replan_over_budget (h : service.maxReplans < w.replansUsed workId + 1) :
    ∃ e, evalTask (ServiceWorld.handler ext) (service.replan env workId) w = (.error e, w) := by
  have htake : evalTask (ServiceWorld.handler ext) (request (.takeReplan workId service.maxReplans) id) w =
      (.error (.replanBudgetExceededError ("replan budget exhausted for " ++ workId.val)), w) := if_pos h
  exact ⟨_, evalTask_bind_error htake _⟩

/-- Within the budget the counter is advanced, whatever the store answers. -/
theorem replan_within_budget (h : w.replansUsed workId + 1 ≤ service.maxReplans) :
    ∃ answer store, evalTask (ServiceWorld.handler ext) (service.replan env workId) w =
        (answer, { w with store := store, replans := w.replans.set workId (w.replansUsed workId + 1) }) ∧
      (Takes env workId w → ∃ run, answer = .ok run ∧ run.attemptNumber = w.replansUsed workId + 2) ∧
      (¬Takes env workId w → ∃ e, answer = .error e) := by
  have htake : evalTask (ServiceWorld.handler ext) (request (.takeReplan workId service.maxReplans) id) w =
      (.ok (w.replansUsed workId), { w with replans := w.replans.set workId (w.replansUsed workId + 1) }) :=
    if_neg (Int.not_lt.mpr h)
  have hstart := evalTask_bind_ok htake fun used => service.startRun (env.sub 0) workId (used + 2)
  rw [evalTask_startRun] at hstart
  refine ⟨_, _, hstart, ?_, ?_⟩
  · intro htakes
    have hcreated : ((service.create (env.sub 0) workId (w.replansUsed workId + 2)).run w.store).outcome = .ok _ :=
      createRun_of_takesRun _ htakes
    rw [hcreated]
    exact ⟨_, rfl, rfl⟩
  · intro htakes
    obtain ⟨e, hcreated⟩ : ∃ e, ((service.create (env.sub 0) workId (w.replansUsed workId + 2)).run w.store).outcome =
        .error e := createRun_of_not_takesRun env _ rfl htakes
    rw [hcreated]
    simp only [startAnswer]
    split
    · exact ⟨_, rfl⟩
    · exact ⟨e, rfl⟩

end ExecutionService

/-! ## Histories of calls -/

/-- A call of the service, or an operation of the store such as the completion of a Run. -/
inductive ReplanCall where
  | replan (workId : WorkId)
  | startRun (workId : WorkId) (attemptNumber : ℤ)
  | operation (op : StoreOp)

/-- How one `replan` has ended, with the counter before and after it. -/
structure ReplanEntry where
  workId : WorkId
  usedBefore : ℤ
  usedAfter : ℤ
  result : Except Exn RunRecord

structure ReplanHistory (π : Type) where
  world : ServiceWorld π
  replans : List ReplanEntry

def replanStep (ext : Externals π) (service : ExecutionService) (h : ReplanHistory π) (call : ReplanCall × Supply) :
    ReplanHistory π :=
  match call.1 with
  | .replan k =>
    let ended := evalTask (ServiceWorld.handler ext) (service.replan call.2 k) h.world
    ⟨ended.2, h.replans ++ [⟨k, h.world.replansUsed k, ended.2.replansUsed k, ended.1⟩]⟩
  | .startRun k n => { h with world := (evalTask (ServiceWorld.handler ext) (service.startRun call.2 k n) h.world).2 }
  | .operation op => { h with world := (evalTask (ServiceWorld.handler ext) (callStore op call.2) h.world).2 }

namespace ReplanHistory

variable {h : ReplanHistory π}

/-- The Runs that the successful replans of a Work have made, in order. -/
def created (h : ReplanHistory π) (k : WorkId) : List RunRecord :=
  h.replans.filterMap fun e => if e.workId = k then e.result.toOption else none

def RaisesUnchanged (h : ReplanHistory π) (k : WorkId) : Prop :=
  ∀ e ∈ h.replans, e.workId = k → ∀ exc, e.result = .error exc → e.usedAfter = e.usedBefore

/-- The Runs of a Work stay within the budget and are numbered one by one. -/
structure Accounted (service : ExecutionService) (h : ReplanHistory π) : Prop where
  unchanged : ∀ k, h.RaisesUnchanged k
  within : ∀ k, (h.created k).length ≤ service.maxReplans.toNat
  numbered : ∀ k, (h.created k).map RunRecord.attemptNumber =
    (List.range (h.created k).length).map fun n : ℕ => (n : ℤ) + 2

/-- The counter of a Work is the number of its successful replans, as long as those that raised have left it. -/
def CountsCreated (h : ReplanHistory π) : Prop :=
  ∀ k, h.RaisesUnchanged k → h.world.replansUsed k = (h.created k).length

/-- A replan that the budget allows finds that the store takes its Run. -/
def ReplanFits (service : ExecutionService) (h : ReplanHistory π) (call : ReplanCall × Supply) : Prop :=
  match call.1 with
  | .replan k => h.world.replansUsed k + 1 ≤ service.maxReplans → ExecutionService.Takes call.2 k h.world
  | _ => True

inductive Continues (service : ExecutionService) (h : ReplanHistory π) (call : ReplanCall × Supply) :
    ReplanHistory π → Prop
  | other (world : ServiceWorld π) (hcall : ∀ k, call.1 ≠ .replan k) (hsame : world.replans = h.world.replans) :
      Continues service h call ⟨world, h.replans⟩
  | exhausted (k : WorkId) (e : Exn) (hcall : call.1 = .replan k)
      (hover : service.maxReplans < h.world.replansUsed k + 1) :
      Continues service h call
        ⟨h.world, h.replans ++ [⟨k, h.world.replansUsed k, h.world.replansUsed k, .error e⟩]⟩
  | succeeded (k : WorkId) (run : RunRecord) (store : InMemoryStore) (hcall : call.1 = .replan k)
      (hwithin : h.world.replansUsed k + 1 ≤ service.maxReplans) (htakes : ExecutionService.Takes call.2 k h.world)
      (hnumber : run.attemptNumber = h.world.replansUsed k + 2) :
      Continues service h call
        ⟨{ h.world with store := store, replans := h.world.replans.set k (h.world.replansUsed k + 1) },
          h.replans ++ [⟨k, h.world.replansUsed k, h.world.replansUsed k + 1, .ok run⟩]⟩
  | rejected (k : WorkId) (e : Exn) (store : InMemoryStore) (hcall : call.1 = .replan k)
      (hwithin : h.world.replansUsed k + 1 ≤ service.maxReplans)
      (htakes : ¬ExecutionService.Takes call.2 k h.world) :
      Continues service h call
        ⟨{ h.world with store := store, replans := h.world.replans.set k (h.world.replansUsed k + 1) },
          h.replans ++ [⟨k, h.world.replansUsed k, h.world.replansUsed k + 1, .error e⟩]⟩

variable (w : ServiceWorld π)

theorem replansUsed_set (store : InMemoryStore) (k : WorkId) (n : ℤ) (k' : WorkId) :
    ({ w with store := store, replans := w.replans.set k n } : ServiceWorld π).replansUsed k' =
      if k' = k then n else w.replansUsed k' := by
  unfold ServiceWorld.replansUsed
  rcases w.replans.get?_set_cases k n k' with ⟨rfl, hset⟩ | ⟨hne, hset⟩
  · simp [hset]
  · simp [hset, hne]

theorem continues_replanStep (ext : Externals π) (service : ExecutionService) (h : ReplanHistory π)
    (call : ReplanCall × Supply) : Continues service h call (replanStep ext service h call) := by
  obtain ⟨c, env⟩ := call
  cases c with
  | startRun k n =>
    refine .other _ (fun _ hcall => by cases hcall) ?_
    rw [ExecutionService.evalTask_startRun]
  | operation op => exact .other _ (fun _ hcall => by cases hcall) rfl
  | replan k =>
    by_cases hwithin : h.world.replansUsed k + 1 ≤ service.maxReplans
    · obtain ⟨answer, store, heval, hok, herror⟩ := service.replan_within_budget ext env k hwithin
      have hstep : replanStep ext service h (.replan k, env) =
          ⟨{ h.world with store := store, replans := h.world.replans.set k (h.world.replansUsed k + 1) },
            h.replans ++ [⟨k, h.world.replansUsed k, h.world.replansUsed k + 1, answer⟩]⟩ := by
        simp only [replanStep, heval, replansUsed_set, if_true]
      rw [hstep]
      by_cases htakes : ExecutionService.Takes env k h.world
      · obtain ⟨run, rfl, hnumber⟩ := hok htakes
        exact .succeeded k run store rfl hwithin htakes hnumber
      · obtain ⟨e, rfl⟩ := herror htakes
        exact .rejected k e store rfl hwithin htakes
    · rw [Int.not_le] at hwithin
      obtain ⟨e, heval⟩ := service.replan_over_budget ext env k hwithin
      have hstep : replanStep ext service h (.replan k, env) =
          ⟨h.world, h.replans ++ [⟨k, h.world.replansUsed k, h.world.replansUsed k, .error e⟩]⟩ := by
        simp only [replanStep, heval]
      rw [hstep]
      exact .exhausted k e rfl hwithin

/-! ### One more entry -/

theorem created_append (h : ReplanHistory π) (w : ServiceWorld π) (e : ReplanEntry) (k : WorkId) :
    created ⟨w, h.replans ++ [e]⟩ k = h.created k ++ if e.workId = k then e.result.toOption.toList else [] := by
  unfold created
  rw [List.filterMap_append]
  congr 1
  by_cases hk : e.workId = k
  · cases hresult : e.result.toOption <;> simp [hk, hresult]
  · simp [hk]

theorem raisesUnchanged_append {w : ServiceWorld π} {e : ReplanEntry} {k : WorkId} :
    RaisesUnchanged ⟨w, h.replans ++ [e]⟩ k ↔ h.RaisesUnchanged k ∧
      (e.workId = k → ∀ exc, e.result = .error exc → e.usedAfter = e.usedBefore) := by
  unfold RaisesUnchanged
  simp only [List.mem_append, List.mem_singleton]
  constructor
  · intro hall
    exact ⟨fun x hx => hall x (.inl hx), hall e (.inr rfl)⟩
  · rintro ⟨hall, he⟩ x (hx | rfl)
    · exact hall x hx
    · exact he

variable {service : ExecutionService} {h' : ReplanHistory π} {call : ReplanCall × Supply}

theorem Continues.countsCreated (hstep : Continues service h call h') (hcounts : h.CountsCreated) : h'.CountsCreated := by
  intro k hraises
  cases hstep with
  | other world hcall hsame =>
    have hused : world.replansUsed k = h.world.replansUsed k := by
      unfold ServiceWorld.replansUsed
      rw [hsame]
    exact hused.trans (hcounts k hraises)
  | exhausted j e hcall hover =>
    have hbefore := hcounts k (raisesUnchanged_append.mp hraises).1
    rw [created_append h]
    simpa [Except.toOption] using hbefore
  | succeeded j run store hcall hwithin htakes hnumber =>
    have hbefore := hcounts k (raisesUnchanged_append.mp hraises).1
    rw [created_append h, replansUsed_set]
    by_cases hk : k = j
    · subst hk
      simp [Except.toOption, hbefore]
    · simp [hk, Ne.symm hk, hbefore]
  | rejected j e store hcall hwithin htakes =>
    obtain ⟨hold, hnew⟩ := raisesUnchanged_append.mp hraises
    rw [created_append h, replansUsed_set]
    by_cases hk : k = j
    · -- the counter has moved although the call has raised
      have hsame : h.world.replansUsed j + 1 = h.world.replansUsed j := hnew hk.symm e rfl
      omega
    · simpa [hk, Except.toOption] using hcounts k hold

/-- One call keeps the accounting exactly if it fits. -/
theorem Continues.accounted_iff (hstep : Continues service h call h') (hcounts : h.CountsCreated)
    (hacc : h.Accounted service) : h'.Accounted service ↔ h.ReplanFits service call := by
  obtain ⟨c, env⟩ := call
  cases hstep with
  | other world hcall hsame =>
    have hfits : h.ReplanFits service (c, env) := by
      cases c with
      | replan k => exact absurd rfl (hcall k)
      | startRun k n => trivial
      | operation op => trivial
    exact ⟨fun _ => hfits, fun _ => ⟨hacc.unchanged, hacc.within, hacc.numbered⟩⟩
  | exhausted j e hcall hover =>
    cases hcall
    constructor
    · intro _ hwithin
      omega
    · intro _
      have hcreated : ∀ k, created ⟨h.world, h.replans ++ [⟨j, h.world.replansUsed j, h.world.replansUsed j,
          .error e⟩]⟩ k = h.created k := by
        intro k
        rw [created_append h]
        simp [Except.toOption]
      refine ⟨fun k => raisesUnchanged_append.mpr ⟨hacc.unchanged k, fun _ _ _ => rfl⟩, ?_, ?_⟩
      · intro k
        rw [hcreated]
        exact hacc.within k
      · intro k
        rw [hcreated]
        exact hacc.numbered k
  | succeeded j run store hcall hwithin htakes hnumber =>
    cases hcall
    refine ⟨fun _ _ => htakes, fun _ => ⟨?_, ?_, ?_⟩⟩
    · intro k
      refine raisesUnchanged_append.mpr ⟨hacc.unchanged k, ?_⟩
      intro _ exc hexc
      cases hexc
    · intro k
      rw [created_append h]
      have hbefore := hacc.within k
      by_cases hk : j = k
      · subst hk
        have hcount := hcounts j (hacc.unchanged j)
        simp only [if_true, Except.toOption, Option.toList_some, List.length_append, List.length_singleton]
        omega
      · simpa [hk] using hbefore
    · intro k
      rw [created_append h]
      by_cases hk : j = k
      · subst hk
        have hcount := hcounts j (hacc.unchanged j)
        simp only [if_true, Except.toOption, Option.toList_some, List.length_append, List.length_singleton,
          List.map_append, List.range_succ, List.map_singleton]
        rw [hacc.numbered j, hnumber, hcount]
      · simpa [hk] using hacc.numbered k
  | rejected j e store hcall hwithin htakes =>
    cases hcall
    constructor
    · intro hafter
      have hsame : h.world.replansUsed j + 1 = h.world.replansUsed j :=
        (raisesUnchanged_append.mp (hafter.unchanged j)).2 rfl e rfl
      omega
    · intro hfits
      exact absurd (hfits hwithin) htakes

def start (w : ServiceWorld π) : ReplanHistory π := ⟨{ w with replans := .empty }, []⟩

theorem countsCreated_start : (start w).CountsCreated := fun _ _ => rfl

theorem accounted_start (service : ExecutionService) (w : ServiceWorld π) : (start w).Accounted service := by
  refine ⟨?_, fun _ => Nat.zero_le _, fun _ => rfl⟩
  intro k e he
  cases he

end ReplanHistory

/-- The accounting holds throughout a history exactly if every replan within the budget is one that
the store takes. -/
theorem replan_accounting (ext : Externals π) (service : ExecutionService) (w : ServiceWorld π)
    (calls : List (ReplanCall × Supply)) :
    (∀ before after, calls = before ++ after →
      (MachineRuns.run (replanStep ext service) (.start w) before).Accounted service) ↔
      MachineRuns.EveryStep (replanStep ext service) (ReplanHistory.ReplanFits service) (.start w) calls := by
  apply MachineRuns.always_iff_everyStep (K := ReplanHistory.CountsCreated)
  · exact fun h call hcounts => (ReplanHistory.continues_replanStep ext service h call).countsCreated hcounts
  · exact fun h call hcounts hacc => (ReplanHistory.continues_replanStep ext service h call).accounted_iff hcounts hacc
  · exact ReplanHistory.countsCreated_start w
  · exact ReplanHistory.accounted_start service w

/-- A Run is started, the first replan meets it, and a second one follows when the Run has failed. -/
def rejectedReplan : List (ReplanCall × Supply) :=
  [(.startRun ⟨"work_1"⟩ 1, fun _ => ⟨0, "1"⟩), (.replan ⟨"work_1"⟩, fun _ => ⟨0, "2"⟩),
   (.operation (.transitionRunStatus ⟨"run_1"⟩ .failed 1 sampleEvent none), fun _ => ⟨0, "3"⟩),
   (.replan ⟨"work_1"⟩, fun _ => ⟨0, "4"⟩)]

/-- The replan that raised is counted, and the Run of the other one is attempt 3 where no attempt 2 exists. -/
theorem rejected_replan_counted : ¬(MachineRuns.run (replanStep (sampleExternals none (.ok "h")) ⟨3, executorActor⟩)
      (.start (sampleWorld pendingStore)) rejectedReplan).Accounted ⟨3, executorActor⟩ := by
  intro h
  have hnumbered := h.numbered ⟨"work_1"⟩
  revert hnumbered
  decide

end AllTomorrow
