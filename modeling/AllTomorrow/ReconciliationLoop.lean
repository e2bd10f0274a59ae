import AllTomorrow.DurableRunRecovery
import AllTomorrow.ExecutionRefHistory

/-!
# The reconciliation loop

`reconcile_starting_runs` goes through its candidates in order and lets an
exception of one candidate leave the loop. Candidates before the first blocked
one are dealt with; those after it are not looked at.
-/

namespace AllTomorrow

open InMemoryStore

variable {π : Type} {P : DurablePort π} {b : DurableRunBridge} {env : Supply}
variable {s s' : InMemoryStore} {p p' : π} {rev : ℤ} {r : RunRecord}
variable {valid : π → Prop} {held : π → RunId → Option Execution} {faults : RunId → PortFault}

structure SameFor (held : π → RunId → Option Execution) (j : RunId) (w w' : InMemoryStore × π) : Prop where
  run : w'.1.runs.get? j = w.1.runs.get? j
  revision : w'.1.runRevisions.get? j = w.1.runRevisions.get? j
  port : held w'.2 j = held w.2 j

theorem SameFor.refl (j : RunId) (w : InMemoryStore × π) : SameFor held j w w := ⟨rfl, rfl, rfl⟩

theorem SameFor.trans {j : RunId} {w w' w'' : InMemoryStore × π} (h : SameFor held j w w')
    (h' : SameFor held j w' w'') : SameFor held j w w'' :=
  ⟨h'.run.trans h.run, h'.revision.trans h.revision, h'.port.trans h.port⟩

variable {w w' : InMemoryStore × π}

theorem Confined.sameFor {runId j : RunId} (h : Confined valid held runId w w') (hj : j ≠ runId) : SameFor held j w w' :=
  ⟨h.store.runs j hj, h.store.revisions j hj, h.port j hj⟩

theorem Confined.keeps_all {runId j : RunId} (h : Confined valid held runId w w')
    {e : Execution} (hj : held w.2 j = some e) : held w'.2 j = some e := by
  by_cases hne : j = runId
  · subst hne
    exact h.keeps e hj
  · exact (h.port j hne).trans hj

theorem Recovered.congr {j : RunId} (h : SameFor held j w w') (hr : Recovered held j w) : Recovered held j w' := by
  obtain ⟨r, e, hget, hstatus, hheld, href⟩ := hr
  exact ⟨r, e, h.run.trans hget, hstatus, h.port.trans hheld, href⟩

theorem AwaitsRef.congr (hr : AwaitsRef w.1 r rev) (h : SameFor held r.runId w w') : AwaitsRef w'.1 r rev :=
  ⟨⟨h.run.trans hr.stored.get, h.revision.trans hr.stored.revision⟩, hr.starting, hr.no_ref⟩

structure AllAwait (s : InMemoryStore) (runs : List RunRecord) : Prop where
  awaits : ∀ r ∈ runs, ∃ rev, AwaitsRef s r rev
  nodup : (runs.map RunRecord.runId).Nodup

theorem allAwait_candidates (hs : s.WellFormed) : AllAwait s s.findReconciliationCandidates := by
  constructor
  · intro r hr
    obtain ⟨hmem, hfilter⟩ := List.mem_filter.mp hr
    obtain ⟨k, hget⟩ := InsertionDict.mem_values_iff.mp hmem
    obtain ⟨rev, hrev⟩ := hs.run_revision k r hget
    have hkey := hs.run_key k r hget
    subst hkey
    simp only [Bool.and_eq_true, decide_eq_true_eq, Option.isNone_iff_eq_none] at hfilter
    exact ⟨rev, ⟨hget, hrev⟩, hfilter.1, hfilter.2⟩
  · exact (InsertionDict.nodup_map_values hs.run_key).sublist (List.filter_sublist.map RunRecord.runId)

theorem mem_candidates (h : AwaitsRef s r rev) : r ∈ s.findReconciliationCandidates := by
  refine List.mem_filter.mpr ⟨InsertionDict.mem_values_of_get? h.stored.get, ?_⟩
  simp [h.starting, h.no_ref]

theorem AllAwait.tail {rest : List RunRecord} (h : AllAwait w.1 (r :: rest))
    (hconf : Confined valid held r.runId w w') : AllAwait w'.1 rest := by
  obtain ⟨hnot, hnodup⟩ := List.nodup_cons.mp h.nodup
  refine ⟨?_, hnodup⟩
  intro q hq
  obtain ⟨rev, hawaits⟩ := h.awaits q (List.mem_cons_of_mem r hq)
  have hne : q.runId ≠ r.runId := fun he => hnot (he ▸ List.mem_map_of_mem hq)
  exact ⟨rev, hawaits.congr (hconf.sameFor hne)⟩

theorem exists_first_of_exists {α : Type*} {Q : α → Prop} {l : List α} (h : ∃ x ∈ l, Q x) :
    ∃ before x after, l = before ++ x :: after ∧ Q x ∧ ∀ y ∈ before, ¬Q y := by
  classical
  have hfind : (l.find? fun x => decide (Q x)).isSome = true := List.find?_isSome.mpr (by simpa using h)
  obtain ⟨x, hx⟩ := Option.isSome_iff_exists.mp hfind
  obtain ⟨hQ, before, after, rfl, hbefore⟩ := List.find?_eq_some_iff_append.mp hx
  exact ⟨before, x, after, rfl, by simpa using hQ, by simpa using hbefore⟩

section Loop

/-- The world after `_reconcile_one` for each Run of a list. -/
def DurableRunBridge.afterEach (b : DurableRunBridge) (P : DurablePort π) (runs : List RunRecord) (env : Supply)
    (w : InMemoryStore × π) : InMemoryStore × π :=
  (Prog.evalTask P.handler (b.reconcileEach portDeps runs env) w).2

variable {rest : List RunRecord}

theorem afterEach_cons_ok {result : BridgeResult}
    (h : Prog.evalTask P.handler (b.reconcileOne portDeps (env.sub 0) r) w = (.ok result, w')) :
    b.afterEach P (r :: rest) env w = b.afterEach P rest (env.sub 1) w' := by
  rw [DurableRunBridge.afterEach, DurableRunBridge.reconcileEach, Prog.evalTask_bind_ok h,
    Prog.evalTask_bind_pure_state, DurableRunBridge.afterEach]

theorem afterEach_cons_error {e : Exn}
    (h : Prog.evalTask P.handler (b.reconcileOne portDeps (env.sub 0) r) w = (.error e, w')) :
    b.afterEach P (r :: rest) env w = w' := by
  rw [DurableRunBridge.afterEach, DurableRunBridge.reconcileEach, Prog.evalTask_bind_error h]

variable (env faults) (hP : ∀ j, P.Honours valid held j)

include hP

theorem afterEach_cons_cases (hp : valid p) (h : AllAwait s (r :: rest)) :
    ∃ s' p', Confined valid held r.runId (s, p) (s', p') ∧
      (b.afterEach (P.withFaults faults) (r :: rest) env (s, p) = (s', p') ∨
        b.afterEach (P.withFaults faults) (r :: rest) env (s, p) =
          b.afterEach (P.withFaults faults) rest (env.sub 1) (s', p')) := by
  obtain ⟨rev, hawaits⟩ := h.awaits r List.mem_cons_self
  by_cases hblocked : b.BlockedBy (faults r.runId) (held p r.runId)
  · obtain ⟨e, s', p', heval, hconf, _⟩ := evalTask_reconcileOne_blocked (env.sub 0) (hP _) hp hawaits hblocked
    exact ⟨s', p', hconf, .inl (afterEach_cons_error heval)⟩
  · obtain ⟨result, e, s', p', heval, hconf, _⟩ := evalTask_reconcileOne (env.sub 0) (hP _) hp hawaits hblocked
    exact ⟨s', p', hconf, .inr (afterEach_cons_ok heval)⟩

variable (runs : List RunRecord)

theorem sameFor_afterEach (hp : valid p) (h : AllAwait s runs) {j : RunId} (hj : j ∉ runs.map RunRecord.runId) :
    SameFor held j (s, p) (b.afterEach (P.withFaults faults) runs env (s, p)) := by
  induction runs generalizing env s p with
  | nil => exact SameFor.refl j (s, p)
  | cons r rest ih =>
    rw [List.map_cons, List.mem_cons, not_or] at hj
    obtain ⟨s', p', hconf, hend | hnext⟩ := afterEach_cons_cases (b := b) env faults hP hp h
    · rw [hend]
      exact hconf.sameFor hj.1
    · rw [hnext]
      exact (hconf.sameFor hj.1).trans (ih _ hconf.port_valid (h.tail hconf) hj.2)

theorem held_afterEach (hp : valid p) (h : AllAwait s runs) {j : RunId} {e : Execution}
    (hj : held p j = some e) : held (b.afterEach (P.withFaults faults) runs env (s, p)).2 j = some e := by
  induction runs generalizing env s p with
  | nil => exact hj
  | cons r rest ih =>
    obtain ⟨s', p', hconf, hend | hnext⟩ := afterEach_cons_cases (b := b) env faults hP hp h
    · rw [hend]
      exact hconf.keeps_all hj
    · rw [hnext]
      exact ih _ hconf.port_valid (h.tail hconf) (hconf.keeps_all hj)

/-- Candidates that nothing blocks are passed through, and the loop goes on with the rest. -/
theorem afterEach_append (before rest : List RunRecord) (hp : valid p) (h : AllAwait s (before ++ rest))
    (hclear : ∀ c ∈ before, ¬b.BlockedBy (faults c.runId) (held p c.runId)) :
    ∃ env' s' p', b.afterEach (P.withFaults faults) (before ++ rest) env (s, p) =
        b.afterEach (P.withFaults faults) rest env' (s', p') ∧
      valid p' ∧ AllAwait s' rest ∧ ∀ q ∈ rest, SameFor held q.runId (s, p) (s', p') := by
  induction before generalizing env s p with
  | nil => exact ⟨env, s, p, rfl, hp, h, fun q _ => SameFor.refl _ _⟩
  | cons r before ih =>
    obtain ⟨rev, hawaits⟩ := h.awaits r List.mem_cons_self
    obtain ⟨hnot, _⟩ := List.nodup_cons.mp h.nodup
    have hne : ∀ q ∈ before ++ rest, q.runId ≠ r.runId := fun q hq he => hnot (he ▸ List.mem_map_of_mem hq)
    obtain ⟨result, e, s₁, p₁, heval, hconf, _⟩ := evalTask_reconcileOne (env.sub 0) (hP _) hp hawaits
      (hclear r List.mem_cons_self)
    have hclear₁ : ∀ c ∈ before, ¬b.BlockedBy (faults c.runId) (held p₁ c.runId) := by
      intro c hc
      rw [hconf.port c.runId (hne c (List.mem_append_left rest hc))]
      exact hclear c (List.mem_cons_of_mem r hc)
    obtain ⟨env', s', p', hloop, hp', hawait', hsame⟩ := ih (env.sub 1) hconf.port_valid (h.tail hconf) hclear₁
    refine ⟨env', s', p', ?_, hp', hawait', ?_⟩
    · rw [List.cons_append, afterEach_cons_ok heval, hloop]
    · intro q hq
      exact (hconf.sameFor (hne q (List.mem_append_right before hq))).trans (hsame q hq)

/-- A calm candidate that the loop gets to is recovered. -/
theorem recovered_afterEach {before after : List RunRecord} {d : RunRecord} (hp : valid p)
    (h : AllAwait s (before ++ d :: after)) (hclear : ∀ c ∈ before ++ [d], ¬b.BlockedBy (faults c.runId) (held p c.runId))
    (hcalm : (faults d.runId).attaches = none) :
    Recovered held d.runId (b.afterEach (P.withFaults faults) (before ++ d :: after) env (s, p)) ∧
      ∃ e, held (b.afterEach (P.withFaults faults) (before ++ d :: after) env (s, p)).2 d.runId = some e ∧
        (held p d.runId = some e ∨
          (held p d.runId = none ∧ e.workflowName = "at_generic_workflow" ∧ e.payload = .empty)) := by
  obtain ⟨env', s₁, p₁, hloop, hp₁, hawait₁, hsame⟩ := afterEach_append env faults hP before (d :: after) hp h
    fun c hc => hclear c (List.mem_append_left [d] hc)
  have hheld := (hsame d List.mem_cons_self).port
  obtain ⟨rev, hawaits⟩ := hawait₁.awaits d List.mem_cons_self
  have hd := hclear d (List.mem_append_right before List.mem_cons_self)
  rw [← hheld] at hd
  obtain ⟨result, e, s₂, p₂, heval, hconf, hself, hrec⟩ := evalTask_reconcileOne (env'.sub 0) (hP _) hp₁ hawaits
    hd
  obtain ⟨hnot, _⟩ := List.nodup_cons.mp hawait₁.nodup
  have hkept := sameFor_afterEach (b := b) (env'.sub 1) faults hP after hconf.port_valid
    (hawait₁.tail hconf) hnot
  obtain ⟨hrecovered, hwhich⟩ := hrec hcalm
  rw [hloop, afterEach_cons_ok heval, ← hheld]
  exact ⟨hrecovered.congr hkept, e, hkept.port.trans hself, hwhich⟩

theorem not_recovered_afterEach (before : List RunRecord) {after : List RunRecord} {c : RunRecord} (hp : valid p)
    (h : AllAwait s (before ++ c :: after)) (hclear : ∀ q ∈ before, ¬b.BlockedBy (faults q.runId) (held p q.runId))
    (hblocked : b.BlockedBy (faults c.runId) (held p c.runId)) {d : RunRecord} (hd : d ∈ c :: after) :
    ¬Recovered held d.runId (b.afterEach (P.withFaults faults) (before ++ c :: after) env (s, p)) := by
  obtain ⟨env', s₁, p₁, hloop, hp₁, hawait₁, hsame⟩ := afterEach_append env faults hP before (c :: after) hp h hclear
  obtain ⟨rev, hawaits⟩ := hawait₁.awaits c List.mem_cons_self
  rw [← (hsame c List.mem_cons_self).port] at hblocked
  obtain ⟨e, s₂, p₂, heval, hconf, hnot⟩ := evalTask_reconcileOne_blocked (env'.sub 0) (hP _) hp₁ hawaits
    hblocked
  rw [hloop, afterEach_cons_error heval]
  rcases List.mem_cons.mp hd with rfl | hafter
  · exact hnot
  · obtain ⟨rev', hd'⟩ := hawait₁.awaits d (List.mem_cons_of_mem c hafter)
    obtain ⟨hfresh, _⟩ := List.nodup_cons.mp hawait₁.nodup
    have hne : d.runId ≠ c.runId := fun he => hfresh (he ▸ List.mem_map_of_mem hafter)
    have hkept := hd'.congr (hconf.sameFor hne)
    exact not_recovered hkept.stored.get (by rw [hkept.starting]; decide)

end Loop

/-! ## A pass over the candidates of a store -/

/-- The world after one call of `reconcile_starting_runs`. -/
def DurableRunBridge.afterPass (b : DurableRunBridge) (P : DurablePort π) (env : Supply) (w : InMemoryStore × π) :
    InMemoryStore × π :=
  (Prog.evalTask P.handler (b.reconcileStartingRuns portDeps env) w).2

theorem afterPass_eq (w : InMemoryStore × π) :
    b.afterPass P env w = b.afterEach P w.1.findReconciliationCandidates (env.sub 1) w := rfl

/-- The candidates that the port serves without faults are all recovered exactly when no
candidate at or before one of them makes its reconciliation raise. -/
theorem all_recovered_iff_none_blocked (hP : ∀ j, P.Honours valid held j) (hs : StoreReachable s) (hp : valid p)
    (faults : RunId → PortFault) (b : DurableRunBridge) (env : Supply) :
    (∀ d ∈ s.findReconciliationCandidates, faults d.runId = {} →
        Recovered held d.runId (b.afterPass (P.withFaults faults) env (s, p))) ↔
      ∀ before d after, s.findReconciliationCandidates = before ++ d :: after → faults d.runId = {} →
        ∀ c ∈ before ++ [d], ¬b.BlockedBy (faults c.runId) (held p c.runId) := by
  have hawait := allAwait_candidates hs.wellFormed
  rw [afterPass_eq]
  constructor
  · intro hall before d after hsplit hclean
    have hrec := hall d (by rw [hsplit]; simp) hclean
    rw [hsplit] at hawait hrec
    have hbefore : ∀ c ∈ before, ¬b.BlockedBy (faults c.runId) (held p c.runId) := by
      by_contra hnot
      push Not at hnot
      -- the first blocked candidate ends the loop before `d`
      obtain ⟨pre, c, mid, rfl, hblocked, hpre⟩ := exists_first_of_exists hnot
      rw [List.append_assoc, List.cons_append] at hawait hrec
      exact not_recovered_afterEach _ faults hP _ hp hawait hpre hblocked (by simp) hrec
    intro c hc
    rcases List.mem_append.mp hc with hc | hc
    · exact hbefore c hc
    · rw [List.mem_singleton] at hc
      subst hc
      intro hblocked
      exact not_recovered_afterEach _ faults hP _ hp hawait hbefore hblocked List.mem_cons_self hrec
  · intro hnone d hd hclean
    obtain ⟨before, after, hsplit⟩ := List.append_of_mem hd
    have hclear := hnone before d after hsplit hclean
    rw [hsplit] at hawait ⊢
    exact (recovered_afterEach _ faults hP hp hawait hclear (by rw [hclean])).1

def secondWork : WorkRecord :=
  { workId := ⟨"work_2"⟩, goalId := ⟨"goal_1"⟩, title := "w2", createdAt := 0, updatedAt := 0 }

def secondRun : RunRecord :=
  { runId := ⟨"run_2"⟩, workId := ⟨"work_2"⟩, createdAt := 0, updatedAt := 0 }

/-- Two candidates, `run_1` before `run_2`. -/
def twoRunCalls : List StoreCall :=
  seedCalls ++ [⟨.createWork secondWork sampleEvent, frozenSupply⟩, ⟨.createRun secondRun sampleEvent, frozenSupply⟩]

def twoRunStore : InMemoryStore := MachineRuns.run storeStep .empty twoRunCalls

def unavailableFor (runId : RunId) : RunId → PortFault := fun j =>
  if j = runId then { findRaises := some (.connectionError "Simulated backend unavailable") } else {}

/-- When the bad Run comes last, the other one is recovered. -/
theorem recovered_before_bad_run : Recovered FakeDurableAdapter.held ⟨"run_1"⟩
      (({} : DurableRunBridge).afterPass (FakeDurableAdapter.port.withFaults (unavailableFor ⟨"run_2"⟩))
        frozenSupply (twoRunStore, .init)) := by
  have hclean : unavailableFor ⟨"run_2"⟩ sampleRun.runId = {} := by simp [unavailableFor, sampleRun]
  refine (all_recovered_iff_none_blocked FakeDurableAdapter.honours ⟨twoRunCalls, rfl⟩ FakeDurableAdapter.valid_init
    (unavailableFor ⟨"run_2"⟩) {} frozenSupply).mpr ?_ sampleRun List.mem_cons_self hclean
  intro before d after hsplit hserved c hc
  have hcandidates : [sampleRun, secondRun] = before ++ d :: after := hsplit
  match before, hcandidates with
  | [], hcandidates =>
    cases hcandidates
    rw [List.nil_append, List.mem_singleton] at hc
    subst hc
    simp [DurableRunBridge.BlockedBy, PortFault.Raises, unavailableFor, sampleRun]
  | [_], hcandidates =>
    cases hcandidates
    simp [unavailableFor, secondRun] at hserved
  | _ :: _ :: before, hcandidates => simp at hcandidates

/-- When the bad Run comes first, the good one is not reached. -/
theorem bad_run_blocks_the_other :
    ¬∀ d ∈ twoRunStore.findReconciliationCandidates, unavailableFor ⟨"run_1"⟩ d.runId = {} →
      Recovered FakeDurableAdapter.held d.runId
        (({} : DurableRunBridge).afterPass (FakeDurableAdapter.port.withFaults (unavailableFor ⟨"run_1"⟩))
          frozenSupply (twoRunStore, .init)) := by
  intro h
  have hmem : secondRun ∈ twoRunStore.findReconciliationCandidates := List.mem_cons_of_mem sampleRun List.mem_cons_self
  obtain ⟨r, e, hget, hrunning, _⟩ := h secondRun hmem (by simp [unavailableFor, secondRun])
  have hstatus : (some r).map RunRecord.status = some .starting := by
    rw [← hget]
    decide
  rw [Option.map_some, hrunning] at hstatus
  exact absurd hstatus (by decide)

end AllTomorrow
