import AllTomorrow.SemanticStoreEffects
import Mathlib.Data.String.Basic

/-!
# Observation snapshots

`researcher/observation.py`: a snapshot holds the events of an observer's open Goals after
its cursor, in the order of `(occurred_at, event_id)`, and the cursor is moved to the last of
them by a compare-and-set on its revision. The builder reads the in-memory store, whose reads
never suspend, so that a build sees one state of it.
-/

namespace AllTomorrow

structure EventCursor where
  lastEventAt : Option Datetime
  lastEventId : Option String
  revision : ℤ := 1
  deriving DecidableEq

def EventCursor.isBefore (cursor : EventCursor) (event : SemanticEvent) : Bool :=
  match cursor.lastEventAt with
  | none => true
  | some lastEventAt =>
    if event.occurredAt > lastEventAt then true
    else if event.occurredAt = lastEventAt then decide (cursor.lastEventId.getD "" < event.eventId.val)
    else false

/-- The sort key `(occurred_at, event_id)`. -/
def EventBefore (a b : SemanticEvent) : Prop :=
  a.occurredAt < b.occurredAt ∨ (a.occurredAt = b.occurredAt ∧ a.eventId.val ≤ b.eventId.val)

instance (a b : SemanticEvent) : Decidable (EventBefore a b) :=
  inferInstanceAs (Decidable (a.occurredAt < b.occurredAt ∨ (a.occurredAt = b.occurredAt ∧ a.eventId.val ≤ b.eventId.val)))

structure ObservationSnapshot where
  snapshotId : String
  createdAt : Datetime
  observerId : String
  userId : String
  projectId : Option String
  activeGoalRefs : List GoalId
  openWorkRefs : List WorkId
  recentRunRefs : List RunId
  lowerCursor : EventCursor
  upperCursor : EventCursor
  eventRefs : List EventId
  pendingQuestionRefs : List String
  projectionVersion : String := "1"

structure ObservationBuilder where
  recentLimit : ℤ := 20
  cursors : InsertionDict (String × String) EventCursor := .empty

namespace ObservationBuilder

def getCursor (b : ObservationBuilder) (observerId userId : String) : EventCursor :=
  (b.cursors.get? (observerId, userId)).getD ⟨none, none, 0⟩

def activeGoals (s : InMemoryStore) (userId : String) : List GoalRecord :=
  (s.listGoals (some userId)).filter fun g => g.status = .active ∨ g.status = .waiting

def ranged (s : InMemoryStore) (userId : String) (lower : EventCursor) : List SemanticEvent :=
  (((activeGoals s userId).flatMap fun g => s.listEvents (some g.goalId) none none).filter lower.isBefore).insertionSort
    EventBefore

/-- The last event of the range, or where the range begins if there is none. -/
def upperOf (lower : EventCursor) (range : List SemanticEvent) : EventCursor :=
  match range.getLast? with
  | some last => ⟨some last.occurredAt, some last.eventId.val, lower.revision + 1⟩
  | none => lower

def build (b : ObservationBuilder) (env : Supply) (observerId userId : String) (projectId : Option String)
    (s : InMemoryStore) : ObservationSnapshot :=
  let lower := b.getCursor observerId userId
  let active := activeGoals s userId
  let works := active.flatMap fun g => s.listWork g.goalId
  let range := ranged s userId lower
  { snapshotId := (env.sub 0).newId "snap"
    createdAt := (env.sub 1).utcNow
    observerId, userId, projectId
    activeGoalRefs := active.map GoalRecord.goalId
    openWorkRefs := (works.filter fun w => w.status = .pending ∨ w.status = .running ∨ w.status = .waiting).map
      WorkRecord.workId
    recentRunRefs := works.flatMap fun w => (pySliceTo (s.listRuns w.workId) b.recentLimit).map RunRecord.runId
    lowerCursor := lower
    upperCursor := upperOf lower range
    eventRefs := range.map SemanticEvent.eventId
    pendingQuestionRefs := [] }

def advanceCursor (observerId userId : String) (target : EventCursor) (expectedRevision : ℤ) :
    EStateM Exn ObservationBuilder EventCursor := do
  let b ← get
  let current := b.getCursor observerId userId
  if current.revision ≠ expectedRevision then
    throw (.cursorConflictError ("cursor revision conflict for ('" ++ observerId ++ "', '" ++ userId ++ "'): expected " ++
      toString expectedRevision ++ ", found " ++ toString current.revision))
  set { b with cursors := b.cursors.set (observerId, userId) target }
  return target

end ObservationBuilder

/-! ## Wakes of one observer -/

/-- What happens next: a call of the store by anyone, or a wake of the observer builds its snapshot or advances the cursor
to the end of it. -/
inductive WatchInput (ι : Type) where
  | store (call : StoreCall)
  | build (wake : ι) (env : Supply)
  | advance (wake : ι)

structure Observer where
  observerId : String
  userId : String
  projectId : Option String := none

structure Watch (ι : Type) where
  store : InMemoryStore
  builder : ObservationBuilder
  built : ι → Option ObservationSnapshot
  /-- what `advance_cursor` has returned to them -/
  advances : ι → Option (Except Exn EventCursor)

namespace Watch

variable {ι : Type}

def init (recentLimit : ℤ) : Watch ι := ⟨.empty, { recentLimit }, fun _ => none, fun _ => none⟩

def cursor (o : Observer) (w : Watch ι) : EventCursor := w.builder.getCursor o.observerId o.userId

/-- `advance_cursor(upper_cursor, lower_cursor.revision)`. -/
def advance [DecidableEq ι] (o : Observer) (w : Watch ι) (i : ι) (snapshot : ObservationSnapshot) : Watch ι :=
  let r := (ObservationBuilder.advanceCursor o.observerId o.userId snapshot.upperCursor snapshot.lowerCursor.revision).run
    w.builder
  { w with builder := r.state, advances := Function.update w.advances i (some r.outcome) }

def step [DecidableEq ι] (o : Observer) (w : Watch ι) : WatchInput ι → Watch ι
  | .store call => { w with store := storeStep w.store call }
  | .build i env =>
    match w.built i with
    | some _ => w
    | none =>
      { w with
        built := Function.update w.built i (some (w.builder.build env o.observerId o.userId o.projectId w.store)) }
  | .advance i =>
    match w.built i, w.advances i with
    | some snapshot, none => w.advance o i snapshot
    | _, _ => w

end Watch

end AllTomorrow
