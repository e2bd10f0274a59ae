import AllTomorrow.SemanticStoreEffects

/-!
# How long a Run keeps its execution reference

`attach_execution_ref` compares before it writes. `transition_run_status` hands an
optional reference to the pure transition function, which replaces the stored one.
A run of the store keeps every reference exactly when none of its status
transitions that takes effect brings a different one.
-/

namespace AllTomorrow

open InMemoryStore

def InMemoryStore.refTriple (s : InMemoryStore) (runId : RunId) : Option (String × String × ℤ) :=
  (s.runs.get? runId).bind fun r => r.executionRef.map ExecutionRef.triple

/-- Over a sequence of calls, a reference that is set is neither replaced nor reset. -/
def RefsWriteOnce (calls : List StoreCall) : Prop :=
  ∀ earlier later rest runId triple, calls = earlier ++ later ++ rest →
    (MachineRuns.run storeStep .empty earlier).refTriple runId = some triple →
    (MachineRuns.run storeStep .empty (earlier ++ later)).refTriple runId = some triple

/-- A status transition that passes the revision check and the transition table brings no
reference other than the one already stored. -/
def KeepsRef (s : InMemoryStore) : StoreOp → Prop
  | .transitionRunStatus runId target rev _ (some ref) =>
      ∀ current attached, s.runs.get? runId = some current → current.executionRef = some attached →
        s.runRevisions.get? runId = some rev → target ∈ runTransitions current.status →
        attached.triple = ref.triple
  | _ => True

variable {env : Supply} {s : InMemoryStore} {runId : RunId}

theorem refTriple_of_get? {r : RunRecord} (h : s.runs.get? runId = some r) :
    s.refTriple runId = r.executionRef.map ExecutionRef.triple := by
  simp [refTriple, h]

variable {triple : String × String × ℤ}

private theorem refTriple_set {s' : InMemoryStore} {k runId : RunId} {upd : RunRecord} (hruns : s'.runs = s.runs.set k upd)
    (hk : s.refTriple k = some triple → upd.executionRef.map ExecutionRef.triple = some triple)
    (h : s.refTriple runId = some triple) : s'.refTriple runId = some triple := by
  by_cases heq : runId = k
  · subst heq
    rw [refTriple_of_get? (r := upd) (by rw [hruns, InsertionDict.get?_set_self])]
    exact hk h
  · rw [refTriple, hruns, InsertionDict.get?_set_of_ne _ _ heq]
    exact h

theorem Effect.keeps_refTriple {op : StoreOp} {r : EStateM.Result Exn InMemoryStore op.Result}
    (h : Effect env s op r) (hkeep : KeepsRef s op)
    (hset : s.refTriple runId = some triple) : r.state.refTriple runId = some triple := by
  cases h with
  | runCreated run event hfresh hwork hactive =>
    refine refTriple_set rfl ?_ hset
    intro hrun
    simp [refTriple, hfresh] at hrun
  | refAttached hget hrev hnone =>
    refine refTriple_set rfl ?_ hset
    intro hrun
    simp [refTriple_of_get? hget, hnone] at hrun
  | @runMoved k target rev event ref current hget hrev hterm hmem =>
    refine refTriple_set rfl ?_ hset
    intro hrun
    rw [refTriple_of_get? hget] at hrun
    cases ref with
    | none => simpa [RunRecord.moved] using hrun
    | some ref =>
      obtain ⟨attached, hattached, rfl⟩ := Option.map_eq_some_iff.mp hrun
      have hsame := hkeep current attached hget hattached hrev hmem
      simp [RunRecord.moved, hsame]
  | _ => exact hset

def StoreOp.bringsRef : StoreOp → Option ExecutionRef
  | .createRun run _ => run.executionRef
  | .attachExecutionRef _ _ ref _ => some ref
  | .transitionRunStatus _ _ _ _ ref => ref
  | _ => none

variable {ref : ExecutionRef}

/-- A stored reference was there before or the call brought it. -/
theorem Effect.ref_origin {op : StoreOp} {result : EStateM.Result Exn InMemoryStore op.Result}
    (h : Effect env s op result) {r : RunRecord}
    (hget : result.state.runs.get? runId = some r) (href : r.executionRef = some ref) :
    (∃ r', s.runs.get? runId = some r' ∧ r'.executionRef = some ref) ∨ op.bringsRef = some ref := by
  have hset : ∀ k upd, (s.runs.set k upd).get? runId = some r →
      (∃ r', s.runs.get? runId = some r' ∧ r'.executionRef = some ref) ∨ (runId = k ∧ upd = r) := by
    intro k upd hupd
    rw [InsertionDict.get?_set] at hupd
    split at hupd
    · rename_i hk
      exact .inr ⟨hk, Option.some.inj hupd⟩
    · exact .inl ⟨r, hupd, href⟩
  cases h with
  | runCreated run event hfresh hwork hactive =>
    refine (hset _ _ hget).imp_right ?_
    rintro ⟨_, rfl⟩
    exact href
  | refAttached hget' hrev hnone =>
    refine (hset _ _ hget).imp_right ?_
    rintro ⟨_, rfl⟩
    exact href
  | @runMoved k target rev event brought current hget' hrev hterm hmem =>
    rcases hset _ _ hget with hold | ⟨rfl, rfl⟩
    · exact .inl hold
    · cases brought with
      | some ref' => exact .inr href
      | none => exact .inl ⟨current, hget', href⟩
  | _ => exact .inl ⟨r, hget, href⟩

theorem refTriple_transition {target : RunStatus} {rev : ℤ} {event : SemanticEvent} {current : RunRecord} (hget : s.runs.get? runId = some current)
    (hrev : s.runRevisions.get? runId = some rev) (hmem : target ∈ runTransitions current.status) :
    (storeStep s ⟨.transitionRunStatus runId target rev event (some ref), env⟩).refTriple runId = some ref.triple := by
  have hrun := run_transitionRunStatus env event (some ref) hget hrev hmem
  rw [storeStep, StoreCall.result, StoreOp.exec, hrun, EStateM.Result.state_ok,
    refTriple_of_get? (InsertionDict.get?_set_self _ _ _)]
  rfl

/-- A sequence of calls keeps every reference exactly when each status transition that
takes effect along it brings no reference other than the stored one. -/
theorem refsWriteOnce_iff_keepsRef (calls : List StoreCall) :
    RefsWriteOnce calls ↔ MachineRuns.EveryStep storeStep (fun s c => KeepsRef s c.op) .empty calls := by
  constructor
  · intro honce before c after hcalls
    obtain ⟨op, env⟩ := c
    match op with
    | .transitionRunStatus runId target rev event (some ref) =>
      intro current attached hget hattached hrev hmem
      have hset : (MachineRuns.run storeStep .empty before).refTriple runId = some attached.triple := by
        rw [refTriple_of_get? hget, hattached, Option.map_some]
      have hnext := honce before [⟨.transitionRunStatus runId target rev event (some ref), env⟩] after
        runId attached.triple (by rw [hcalls, List.append_assoc, List.singleton_append]) hset
      rw [MachineRuns.run_append, MachineRuns.run_cons, MachineRuns.run_nil,
        refTriple_transition hget hrev hmem, Option.some.injEq] at hnext
      exact hnext.symm
    | .transitionRunStatus runId target rev event none => trivial
    | .appendEvent _ | .createGoal _ _ | .transitionGoalStatus .. | .createWork _ _
    | .transitionWorkStatus .. | .createRun _ _ | .attachExecutionRef .. | .claimPendingWork _
    | .createQuestion _ | .answerQuestion .. | .getGoal _ | .listGoals _ | .getWork _ | .listWork _
    | .getRun _ | .listRuns _ | .runRevision _ | .findReconciliationCandidates | .listEvents ..
    | .getOutcome _ | .getQuestion _ | .listQuestions _ => trivial
  · rintro hkeep earlier later rest runId triple rfl hset
    have hmiddle := MachineRuns.everyStep_append_right (MachineRuns.everyStep_append_left hkeep)
    have hs : (MachineRuns.run storeStep .empty earlier).WellFormed := StoreReachable.wellFormed ⟨earlier, rfl⟩
    rw [MachineRuns.run_append]
    refine MachineRuns.relation_run (I := InMemoryStore.WellFormed)
      (R := fun a b : InMemoryStore => ∀ t, a.refTriple runId = some t → b.refTriple runId = some t)
      wellFormed_step (fun _ _ h => h) (fun hab hbc t h => hbc t (hab t h)) ?_ hs hmiddle triple hset
    intro a c ha hc t ht
    exact (exec_effect c.env ha c.op).keeps_refTriple hc ht

/-! ## A transition that replaces the reference -/

/-- A supply that always reads the same instant and the same identifier. -/
def frozenSupply : Supply := fun _ => ⟨0, "0"⟩

def sampleEvent : SemanticEvent :=
  { eventId := ⟨"evt_1"⟩, actor := "test", type := "test.event", occurredAt := 0 }

def sampleGoal : GoalRecord :=
  { goalId := ⟨"goal_1"⟩, userId := "u1", title := "g", createdAt := 0, updatedAt := 0 }

def sampleWork : WorkRecord :=
  { workId := ⟨"work_1"⟩, goalId := ⟨"goal_1"⟩, title := "w", createdAt := 0, updatedAt := 0 }

def sampleRun : RunRecord :=
  { runId := ⟨"run_1"⟩, workId := ⟨"work_1"⟩, createdAt := 0, updatedAt := 0 }

def sampleRef (executionId : String) (h : PyText.isBlank executionId = false := by decide) : ExecutionRef :=
  ⟨"fake_durable", executionId, 1, 0, [], by decide, h, by decide⟩

def seedCalls : List StoreCall :=
  [⟨.createGoal sampleGoal sampleEvent, frozenSupply⟩, ⟨.createWork sampleWork sampleEvent, frozenSupply⟩,
   ⟨.createRun sampleRun sampleEvent, frozenSupply⟩]

/-- The store after `seedCalls`. -/
def seededStore : InMemoryStore := MachineRuns.run storeStep .empty seedCalls

/-- Attach one reference, then pass a different one to the transition to RUNNING. -/
def replacingCalls : List StoreCall :=
  seedCalls ++ [⟨.attachExecutionRef ⟨"run_1"⟩ 1 (sampleRef "exec_a") sampleEvent, frozenSupply⟩,
     ⟨.transitionRunStatus ⟨"run_1"⟩ .running 2 sampleEvent (some (sampleRef "exec_b")), frozenSupply⟩]

theorem replacingCalls_not_writeOnce : ¬RefsWriteOnce replacingCalls := by
  intro h
  have hlast := h (replacingCalls.take 4) (replacingCalls.drop 4) [] ⟨"run_1"⟩
    ("fake_durable", "exec_a", 1) rfl (by decide)
  revert hlast
  decide

end AllTomorrow
