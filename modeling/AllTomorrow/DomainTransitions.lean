import AllTomorrow.DomainRecords

/-!
# Status tables and pure transition functions

The transition maps and the functions `transition_goal`, `transition_work`,
`transition_run` and `verify_completion_evidence`, each with one inversion lemma
that says what a successful call returned and which guards it passed.
-/

namespace AllTomorrow

def terminalGoalStatuses : List GoalStatus := [.succeeded, .failed, .cancelled]

def terminalWorkStatuses : List WorkStatus := [.succeeded, .failed, .cancelled]

def terminalRunStatuses : List RunStatus := [.succeeded, .failed, .cancelled]

def activeRunStatuses : List RunStatus := [.starting, .running, .waiting, .cancelRequested]

def goalTransitions : GoalStatus → List GoalStatus
  | .active => [.waiting, .succeeded, .failed, .cancelRequested, .cancelled]
  | .waiting => [.active, .succeeded, .failed, .cancelRequested, .cancelled]
  | .cancelRequested => [.cancelled]
  | .succeeded => []
  | .failed => []
  | .cancelled => []

def workTransitions : WorkStatus → List WorkStatus
  | .pending => [.running, .cancelled]
  | .running => [.waiting, .succeeded, .failed, .cancelRequested, .cancelled]
  | .waiting => [.running, .cancelRequested, .cancelled]
  | .cancelRequested => [.cancelled]
  | .succeeded => []
  | .failed => []
  | .cancelled => []

def runTransitions : RunStatus → List RunStatus
  | .starting => [.running, .failed, .cancelled]
  | .running => [.waiting, .succeeded, .failed, .cancelRequested, .cancelled]
  | .waiting => [.running, .cancelRequested, .cancelled]
  | .cancelRequested => [.cancelled]
  | .succeeded => []
  | .failed => []
  | .cancelled => []

def GoalRecord.isTerminal (goal : GoalRecord) : Bool := goal.status ∈ terminalGoalStatuses

def WorkRecord.isTerminal (work : WorkRecord) : Bool := work.status ∈ terminalWorkStatuses

def RunRecord.isTerminal (run : RunRecord) : Bool := run.status ∈ terminalRunStatuses

def RunRecord.isActive (run : RunRecord) : Bool := run.status ∈ activeRunStatuses

theorem RunRecord.isActive_eq_not_isTerminal (run : RunRecord) : run.isActive = !run.isTerminal := by
  obtain ⟨_, _, status, _, _, _, _, _⟩ := run
  cases status <;> rfl

/-- Verifies that the number of active runs does not exceed `maxActive`. -/
def assertActiveRunsInvariant (runs : List RunRecord) (maxActive : ℕ) : Except Exn Unit :=
  let activeRuns := runs.filter RunRecord.isActive
  if maxActive < activeRuns.length then
    .error (.activeRunLimitExceededError ("Active run limit exceeded: max allowed=" ++ toString maxActive ++
      ", found " ++ toString activeRuns.length ++ " (" ++
      PyText.reprList (activeRuns.map fun r => r.runId.val) ++ ")"))
  else .ok ()

/-- Validates that completion evidence is provided and satisfied before allowing
the SUCCEEDED transition. -/
def verifyCompletionEvidence (env : Supply) (targetType : TargetType) (targetId : String) :
    Option Evidence → Except Exn OutcomeRecord
  | none => .error (.missingCompletionEvidenceError ("Cannot transition " ++ targetType.value ++ " '" ++
      targetId ++ "' to SUCCEEDED without completion evidence"))
  | some (.completion evidence) =>
      OutcomeRecord.new env (newOutcomeId env) targetType targetId .satisfied (some evidence)
  | some (.outcome record) =>
      if record.targetType ≠ targetType ∨ record.targetId ≠ targetId then
        .error (.missingCompletionEvidenceError ("OutcomeRecord target mismatch: expected " ++
          targetType.value ++ ":" ++ targetId ++ ", got " ++ record.targetType.value ++ ":" ++ record.targetId))
      else if record.status ≠ .satisfied ∨ record.evidence.isSome = false then
        .error (.missingCompletionEvidenceError ("OutcomeRecord for " ++ targetType.value ++ ":" ++ targetId ++
          " is not SATISFIED (status=" ++ record.status.value ++ ")"))
      else .ok record

def guardTransition {S : Type} [DecidableEq S] (kind : String) (value : S → String)
    (terminal : List S) (table : S → List S) (ident : String) (status target : S) : Except Exn Unit :=
  if status ∈ terminal then
    .error (.terminalReviveError ("Cannot transition terminal " ++ kind ++ " '" ++ ident ++ "' (status=" ++
      value status ++ ") to '" ++ value target ++ "'"))
  else if target ∉ table status then
    .error (.invalidStateTransitionError ("Illegal " ++ kind ++ " transition from '" ++ value status ++
      "' to '" ++ value target ++ "'"))
  else .ok ()

def transitionGoal (env : Supply) (goal : GoalRecord) (target : GoalStatus)
    (evidence : Option Evidence := none) : Except Exn GoalRecord := do
  guardTransition "Goal" GoalStatus.value terminalGoalStatuses goalTransitions goal.goalId.val goal.status target
  if target = .succeeded then
    let _ ← verifyCompletionEvidence (env.sub 0) .goal goal.goalId.val evidence
  let now := env.utcNow
  return { goal with
    status := target
    revision := goal.revision + 1
    updatedAt := now
    terminalAt := if target ∈ terminalGoalStatuses then some now else none }

def transitionWork (env : Supply) (work : WorkRecord) (target : WorkStatus)
    (evidence : Option Evidence := none) : Except Exn WorkRecord := do
  guardTransition "Work" WorkStatus.value terminalWorkStatuses workTransitions work.workId.val work.status target
  if target = .succeeded then
    let _ ← verifyCompletionEvidence (env.sub 0) .work work.workId.val evidence
  let now := env.utcNow
  return { work with
    status := target
    revision := work.revision + 1
    updatedAt := now
    terminalAt := if target ∈ terminalWorkStatuses then some now else none }

def transitionRun (env : Supply) (run : RunRecord) (target : RunStatus)
    (executionRef : Option ExecutionRef := none) : Except Exn RunRecord := do
  guardTransition "Run" RunStatus.value terminalRunStatuses runTransitions run.runId.val run.status target
  let now := env.utcNow
  return { run with
    status := target
    -- a reference that is passed in replaces the stored one without a comparison
    executionRef := executionRef.or run.executionRef
    updatedAt := now
    terminalAt := if target ∈ terminalRunStatuses then some now else none }

/-! ## What a successful call returned -/

variable {evidence : Option Evidence} {env : Supply} {targetType : TargetType} {targetId : String}

theorem verifyCompletionEvidence_ok {outcome : OutcomeRecord}
    (h : verifyCompletionEvidence env targetType targetId evidence = .ok outcome) :
    outcome.targetType = targetType ∧ outcome.targetId = targetId ∧ outcome.status = .satisfied ∧
      outcome.evidence.isSome = true := by
  match evidence with
  | none => simp [verifyCompletionEvidence] at h
  | some (.completion e) =>
    simp only [verifyCompletionEvidence, OutcomeRecord.new] at h
    split at h
    · simp at h
    · split at h
      · simp at h
      · cases h
        exact ⟨rfl, rfl, rfl, rfl⟩
  | some (.outcome record) =>
    simp only [verifyCompletionEvidence] at h
    split at h
    · simp at h
    · rename_i htarget
      split at h
      · simp at h
      · rename_i hstatus
        cases h
        push Not at htarget hstatus
        exact ⟨htarget.1, htarget.2, hstatus.1, Bool.eq_true_of_not_eq_false hstatus.2⟩

theorem verifyCompletionEvidence_outcome {record outcome : OutcomeRecord}
    (h : verifyCompletionEvidence env targetType targetId (some (.outcome record)) = .ok outcome) : outcome = record := by
  simp only [verifyCompletionEvidence] at h
  split at h
  · simp at h
  · split at h
    · simp at h
    · exact (Except.ok.inj h).symm

theorem verifyCompletionEvidence_resupply {outcome : OutcomeRecord}
    (h : verifyCompletionEvidence env targetType targetId evidence = .ok outcome) (env' : Supply) :
    ∃ outcome', verifyCompletionEvidence env' targetType targetId evidence = .ok outcome' := by
  match evidence with
  | none => simp [verifyCompletionEvidence] at h
  | some (.completion e) =>
    simp only [verifyCompletionEvidence, OutcomeRecord.new] at h ⊢
    split at h
    · simp at h
    · rename_i hblank
      simp [hblank]
  | some (.outcome record) => exact ⟨outcome, h⟩

theorem guardTransition_ok {S : Type} [DecidableEq S] {kind : String} {value : S → String}
    {terminal : List S} {table : S → List S} {ident : String} {status target : S} {u : Unit} :
    guardTransition kind value terminal table ident status target = .ok u ↔ status ∉ terminal ∧ target ∈ table status := by
  unfold guardTransition
  by_cases hterm : status ∈ terminal
  · simp [hterm]
  · by_cases hmem : target ∈ table status
    · simp [hterm, hmem]
    · simp [hterm, hmem]

theorem except_bind_ok {ε α β : Type} {x : Except ε α} {f : α → Except ε β} {b : β} :
    (x >>= f) = .ok b ↔ ∃ a, x = .ok a ∧ f a = .ok b := by
  cases x with
  | error e => simp [bind, Except.bind]
  | ok a => simp [bind, Except.bind]

def GoalRecord.moved (env : Supply) (goal : GoalRecord) (target : GoalStatus) : GoalRecord :=
  { goal with
    status := target
    revision := goal.revision + 1
    updatedAt := env.utcNow
    terminalAt := if target ∈ terminalGoalStatuses then some env.utcNow else none }

def WorkRecord.moved (env : Supply) (work : WorkRecord) (target : WorkStatus) : WorkRecord :=
  { work with
    status := target
    revision := work.revision + 1
    updatedAt := env.utcNow
    terminalAt := if target ∈ terminalWorkStatuses then some env.utcNow else none }

def RunRecord.moved (env : Supply) (run : RunRecord) (target : RunStatus) (executionRef : Option ExecutionRef) : RunRecord :=
  { run with
    status := target
    executionRef := executionRef.or run.executionRef
    updatedAt := env.utcNow
    terminalAt := if target ∈ terminalRunStatuses then some env.utcNow else none }

theorem transitionGoal_ok {goal updated : GoalRecord} {target : GoalStatus} (h : transitionGoal env goal target evidence = .ok updated) :
    goal.status ∉ terminalGoalStatuses ∧ target ∈ goalTransitions goal.status ∧ updated = goal.moved env target := by
  obtain ⟨_, hguard, h⟩ := except_bind_ok.mp h
  obtain ⟨hterm, hmem⟩ := guardTransition_ok.mp hguard
  by_cases hs : target = .succeeded
  · simp only [hs, if_true] at h
    obtain ⟨_, _, h⟩ := except_bind_ok.mp h
    cases h
    exact ⟨hterm, hmem, by simp [GoalRecord.moved, hs]⟩
  · simp only [hs, if_false] at h
    cases h
    exact ⟨hterm, hmem, rfl⟩

theorem transitionWork_ok {work updated : WorkRecord} {target : WorkStatus} (h : transitionWork env work target evidence = .ok updated) :
    work.status ∉ terminalWorkStatuses ∧ target ∈ workTransitions work.status ∧ updated = work.moved env target ∧
      (target = .succeeded → ∃ outcome,
        verifyCompletionEvidence (env.sub 0) .work work.workId.val evidence = .ok outcome) := by
  obtain ⟨_, hguard, h⟩ := except_bind_ok.mp h
  obtain ⟨hterm, hmem⟩ := guardTransition_ok.mp hguard
  by_cases hs : target = .succeeded
  · simp only [hs, if_true] at h
    obtain ⟨outcome, hverify, h⟩ := except_bind_ok.mp h
    cases h
    exact ⟨hterm, hmem, by simp [WorkRecord.moved, hs], fun _ => ⟨outcome, hverify⟩⟩
  · simp only [hs, if_false] at h
    cases h
    exact ⟨hterm, hmem, rfl, fun h => absurd h hs⟩

theorem transitionRun_ok_iff {run updated : RunRecord} {target : RunStatus} {executionRef : Option ExecutionRef} :
    transitionRun env run target executionRef = .ok updated ↔
      run.status ∉ terminalRunStatuses ∧ target ∈ runTransitions run.status ∧
        updated = run.moved env target executionRef := by
  unfold transitionRun
  rw [except_bind_ok]
  constructor
  · rintro ⟨_, hguard, h⟩
    obtain ⟨hterm, hmem⟩ := guardTransition_ok.mp hguard
    cases h
    exact ⟨hterm, hmem, rfl⟩
  · rintro ⟨hterm, hmem, rfl⟩
    exact ⟨(), guardTransition_ok.mpr ⟨hterm, hmem⟩, rfl⟩

theorem transitionWork_claim (env : Supply) {work : WorkRecord} (h : work.status = .pending) :
    transitionWork env work .running = .ok (work.moved env .running) := by
  unfold transitionWork
  rw [except_bind_ok]
  refine ⟨(), guardTransition_ok.mpr ?_, rfl⟩
  rw [h]
  decide

theorem workTransitions_terminal {status : WorkStatus} (h : status ∈ terminalWorkStatuses) :
    workTransitions status = [] := by
  revert h
  cases status <;> decide

theorem runTransitions_terminal {status : RunStatus} (h : status ∈ terminalRunStatuses) : runTransitions status = [] := by
  revert h
  cases status <;> decide

end AllTomorrow
