import AllTomorrow.ExecutionRefHistory

/-!
# The autonomous batch of the in-memory store

`autonomous_batch` copies every field of the store when it is entered and puts the
copy back when its body raises. It holds a lock of its own, which no ordinary
operation takes, so other tasks read and write the store while a batch is open.
-/

namespace AllTomorrow

open InMemoryStore

/-- The store and the copy that the open batch has made, if one is open. -/
structure BatchedStore where
  store : InMemoryStore
  before : Option InMemoryStore

/-- What can happen next: the batch is entered, its body or another task makes a call, or the
body ends, with or without an exception. -/
inductive BatchStep where
  | enter
  | body (call : StoreCall)
  | other (call : StoreCall)
  | leave
  | fail

/-- The context manager `autonomous_batch` around the calls of its body and of other tasks. -/
def autonomousBatch (b : BatchedStore) : BatchStep → BatchedStore
  | .enter =>
    match b.before with
    | none => { b with before := some b.store }
    -- the autonomy lock is taken: the second batch waits
    | some _ => b
  | .body call => { b with store := storeStep b.store call }
  | .other call => { b with store := storeStep b.store call }
  | .leave => { b with before := none }
  | .fail =>
    match b.before with
    | none => b
    | some copy => ⟨copy, none⟩

inductive BatchCall where
  | body (call : StoreCall)
  | other (call : StoreCall)

def BatchCall.step : BatchCall → BatchStep
  | .body call => .body call
  | .other call => .other call

/-- The calls of the other tasks, in the order in which they took effect. -/
def otherCalls : List BatchCall → List StoreCall
  | [] => []
  | .body _ :: rest => otherCalls rest
  | .other call :: rest => call :: otherCalls rest

def failedBatch (calls : List BatchCall) : List BatchStep := .enter :: (calls.map BatchCall.step ++ [.fail])

/-- The store after a batch that is entered on `s` and whose body raises. -/
def afterFailedBatch (s : InMemoryStore) (calls : List BatchCall) : InMemoryStore :=
  (MachineRuns.run autonomousBatch ⟨s, none⟩ (failedBatch calls)).store

theorem before_run_calls (b : BatchedStore) (calls : List BatchCall) :
    (MachineRuns.run autonomousBatch b (calls.map BatchCall.step)).before = b.before := by
  induction calls generalizing b with
  | nil => rfl
  | cons call rest ih =>
    rw [List.map_cons, MachineRuns.run_cons, ih]
    cases call <;> rfl

theorem afterFailedBatch_eq (s : InMemoryStore) (calls : List BatchCall) : afterFailedBatch s calls = s := by
  have hopen := before_run_calls ⟨s, some s⟩ calls
  rw [afterFailedBatch, failedBatch, MachineRuns.run_cons, MachineRuns.run_append, MachineRuns.run_cons,
    MachineRuns.run_nil]
  change (autonomousBatch (MachineRuns.run autonomousBatch ⟨s, some s⟩ _) .fail).store = s
  rw [autonomousBatch, hopen]

/-- The events, Questions and delivery signals of the store. Nothing removes one, and every
write adds one. -/
def InMemoryStore.recordCount (s : InMemoryStore) : ℕ :=
  s.events.length + s.questions.entries.length + s.deliverySignals.length

theorem Effect.recordCount_lt {env : Supply} {s : InMemoryStore} {op : StoreOp}
    {r : EStateM.Result Exn InMemoryStore op.Result} (h : Effect env s op r) :
    r.state = s ∨ s.recordCount < r.state.recordCount := by
  cases h with
  | raised e => exact .inl rfl
  | read v hv => exact .inl rfl
  | eventRepeated event => exact .inl rfl
  | refReattached hget hrev hsome hsame => exact .inl rfl
  | workClaimed limit =>
    cases hc : s.claimCandidates limit with
    | nil => exact .inl (by simp [claimedRecords, claimedEvents, setAllWork])
    | cons w rest =>
      right
      simp only [recordCount, EStateM.Result.state_ok, claimedEvents, List.length_append, List.length_cons]
      omega
  | questionCreated question hfresh hclash =>
    right
    have hgrow := InsertionDict.length_set_of_fresh hfresh question
    simp only [recordCount, EStateM.Result.state_ok, hgrow]
    omega
  | @questionAnswered questionId answerRef correlation current hget hpending =>
    right
    have hkeep := InsertionDict.length_set_of_get? hget (current.answered env answerRef correlation)
    simp only [recordCount, EStateM.Result.state_ok, hkeep, List.length_append, List.length_singleton]
    omega
  | _ =>
    right
    simp only [recordCount, EStateM.Result.state_ok, List.length_append, List.length_singleton]
    omega

theorem recordCount_step (s : InMemoryStore) (c : StoreCall) (hs : s.WellFormed) :
    storeStep s c = s ∨ s.recordCount < (storeStep s c).recordCount :=
  (exec_effect c.env hs c.op).recordCount_lt

/-- A failed batch leaves what the other tasks' calls alone would have left exactly when each
of these calls changes nothing on the store as the batch found it. -/
theorem failedBatch_isolated_iff {s : InMemoryStore} (hs : StoreReachable s) (calls : List BatchCall) :
    afterFailedBatch s calls = MachineRuns.run storeStep s (otherCalls calls) ↔
      ∀ c ∈ otherCalls calls, storeStep s c = s := by
  rw [afterFailedBatch_eq, eq_comm]
  exact MachineRuns.run_eq_self_iff wellFormed_step recordCount_step hs.wellFormed

/-- One interleaving in which another task only reads. -/
theorem readDuringBatch_isolated :
    StoreReachable seededStore ∧ afterFailedBatch seededStore
        [.body ⟨.createGoal { sampleGoal with goalId := ⟨"goal_2"⟩ } sampleEvent, frozenSupply⟩,
         .other ⟨.getWork ⟨"work_1"⟩, frozenSupply⟩] =
      MachineRuns.run storeStep seededStore [⟨.getWork ⟨"work_1"⟩, frozenSupply⟩] := by
  have hreach : StoreReachable seededStore := ⟨seedCalls, rfl⟩
  refine ⟨hreach, (failedBatch_isolated_iff hreach _).mpr ?_⟩
  intro c hc
  rw [List.mem_singleton.mp hc]
  rfl

/-- Another task creates a Goal while the batch is open; the rollback takes it away. -/
def createDuringBatch : List BatchCall := [.other ⟨.createGoal sampleGoal sampleEvent, frozenSupply⟩]

theorem createDuringBatch_lost :
    ¬afterFailedBatch .empty createDuringBatch = MachineRuns.run storeStep .empty (otherCalls createDuringBatch) := by
  intro h
  have hgoal := congrArg (fun s : InMemoryStore => s.goals.contains ⟨"goal_1"⟩) h
  revert hgoal
  decide

end AllTomorrow
