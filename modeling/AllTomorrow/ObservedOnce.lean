import AllTomorrow.ResearcherObservation
import AllTomorrow.SemanticStoreIntegrity
import AllTomorrow.ExecutionRefHistory
import AllTomorrow.MachineRuns
import Mathlib.Data.Fintype.Basic
import Mathlib.Data.Int.ConditionallyCompleteOrder
import Mathlib.Data.Prod.Lex
import Mathlib.Order.WithBot

/-!
# Every event is observed once

Appends, builds and advances of one observer in any order. An event of a Goal that stays open,
appended before a build whose advance succeeds, is in exactly one snapshot whose advance has
succeeded. This needs that an event with the timestamp of a cursor has a greater id than the
cursor's: the cursor orders by `(occurred_at, event_id)`, the log grows in the order of arrival.
-/

namespace AllTomorrow

open MachineRuns

/-! ## Positions -/

def SemanticEvent.position (e : SemanticEvent) : Datetime ×ₗ String := toLex (e.occurredAt, e.eventId.val)

def EventCursor.position (c : EventCursor) : WithBot (Datetime ×ₗ String) :=
  match c.lastEventAt with
  | none => ⊥
  | some t => ↑(toLex (t, c.lastEventId.getD ""))

theorem isBefore_iff (c : EventCursor) (e : SemanticEvent) : c.isBefore e = true ↔ c.position < ↑e.position := by
  unfold EventCursor.isBefore EventCursor.position
  cases c.lastEventAt with
  | none => simp
  | some t =>
    dsimp only
    rw [WithBot.coe_lt_coe, SemanticEvent.position, Prod.Lex.toLex_lt_toLex]
    by_cases hlt : e.occurredAt > t
    · rw [if_pos hlt]
      exact ⟨fun _ => .inl hlt, fun _ => rfl⟩
    · rw [if_neg hlt]
      by_cases heq : e.occurredAt = t
      · rw [if_pos heq, decide_eq_true_eq]
        exact ⟨fun h => .inr ⟨heq.symm, h⟩, fun h => h.elim (fun h => absurd h hlt) And.right⟩
      · rw [if_neg heq]
        constructor
        · exact fun h => absurd h Bool.false_ne_true
        · rintro (h | ⟨h, -⟩)
          · exact absurd h hlt
          · exact absurd h.symm heq

theorem eventBefore_iff (a b : SemanticEvent) : EventBefore a b ↔ a.position ≤ b.position := by
  rw [SemanticEvent.position, SemanticEvent.position, Prod.Lex.toLex_le_toLex]
  rfl

instance : Std.Total EventBefore := ⟨fun a b => by
  rw [eventBefore_iff, eventBefore_iff]
  exact le_total _ _⟩

instance : IsTrans SemanticEvent EventBefore := ⟨fun a b c hab hbc => by
  rw [eventBefore_iff] at *
  exact hab.trans hbc⟩

/-! ## One build -/

namespace ObservationBuilder

variable {s : InMemoryStore} {userId : String} {lower : EventCursor} {e : SemanticEvent}

theorem mem_ranged : e ∈ ranged s userId lower ↔
      (∃ g ∈ activeGoals s userId, e ∈ s.events ∧ e.goalId = some g.goalId) ∧ lower.isBefore e = true := by
  unfold ranged InMemoryStore.listEvents
  rw [List.mem_insertionSort, List.mem_filter, List.mem_flatMap]
  simp

theorem position_le_upperOf (he : e ∈ ranged s userId lower) :
    ↑e.position ≤ (upperOf lower (ranged s userId lower)).position := by
  have hsorted : (ranged s userId lower).Pairwise EventBefore := List.pairwise_insertionSort ..
  generalize ranged s userId lower = range at he hsorted
  unfold upperOf
  cases hlast : range.getLast? with
  | none =>
    rw [List.getLast?_eq_none_iff] at hlast
    subst hlast
    cases he
  | some last =>
    obtain ⟨front, rfl⟩ := List.getLast?_eq_some_iff.mp hlast
    have hle : e.position ≤ last.position := by
      rcases List.mem_append.mp he with hfront | hself
      · exact (eventBefore_iff _ _).mp ((List.pairwise_append.mp hsorted).2.2 e hfront last List.mem_cons_self)
      · rw [List.mem_singleton.mp hself]
    exact WithBot.coe_le_coe.mpr hle

theorem upperOf_cases (lower : EventCursor) (range : List SemanticEvent) : (range = [] ∧ upperOf lower range = lower) ∨
      ∃ e ∈ range, upperOf lower range = ⟨some e.occurredAt, some e.eventId.val, lower.revision + 1⟩ := by
  unfold upperOf
  cases hlast : range.getLast? with
  | none => exact .inl ⟨List.getLast?_eq_none_iff.mp hlast, rfl⟩
  | some last => exact .inr ⟨last, List.mem_of_getLast? hlast, rfl⟩

theorem position_le_upper : lower.position ≤ (upperOf lower (ranged s userId lower)).position := by
  rcases upperOf_cases lower (ranged s userId lower) with ⟨-, heq⟩ | ⟨e, he, -⟩
  · rw [heq]
  · exact ((isBefore_iff _ _).mp (mem_ranged.mp he).2).le.trans (position_le_upperOf he)

theorem run_advanceCursor_cases (b : ObservationBuilder) (observerId userId : String) (target : EventCursor) (expected : ℤ) :
    ((b.getCursor observerId userId).revision ≠ expected ∧
        ∃ e, (advanceCursor observerId userId target expected).run b = .error e b) ∨
      ((b.getCursor observerId userId).revision = expected ∧
        ∃ b', (advanceCursor observerId userId target expected).run b = .ok target b' ∧
          b'.getCursor observerId userId = target) := by
  by_cases hrev : (b.getCursor observerId userId).revision = expected
  · let b' : ObservationBuilder := { b with cursors := b.cursors.set (observerId, userId) target }
    refine .inr ⟨hrev, b', ?_, ?_⟩
    · simp only [advanceCursor, EStateM.run_bind, EStateM.run_get, hrev, ne_eq, not_true_eq_false, if_false]
      rfl
    · change ((b.cursors.set (observerId, userId) target).get? (observerId, userId)).getD _ = target
      rw [InsertionDict.get?_set_self]
      rfl
  · refine .inl ⟨hrev, ?_⟩
    simp only [advanceCursor, EStateM.run_bind, EStateM.run_get, ne_eq, hrev, not_false_eq_true, if_true]
    exact ⟨_, rfl⟩

end ObservationBuilder

section Watching

variable {ι : Type} [DecidableEq ι] (o : Observer)

def appended (s : InMemoryStore) (call : StoreCall) : List SemanticEvent :=
  (storeStep s call).events.drop s.events.length

/-- The log stays in the order of `occurred_at`, and its ids are distinct. -/
def Chronological (w : Watch ι) (input : WatchInput ι) : Prop :=
  (w.step o input).store.events.Pairwise (fun x y => x.occurredAt ≤ y.occurredAt) ∧
    ((w.step o input).store.events.map SemanticEvent.eventId).Nodup

def StaysOpen (goalId : GoalId) (w : Watch ι) : WatchInput ι → Prop
  | .build _ _ => goalId ∈ (ObservationBuilder.activeGoals w.store o.userId).map GoalRecord.goalId
  | _ => True

def AfterTie (c : EventCursor) (e : SemanticEvent) : Prop :=
  c.lastEventAt = some e.occurredAt → c.lastEventId.getD "" < e.eventId.val

/-- Every event that is appended is after the events with its timestamp that the cursor has passed, or that a wake has
read which can still advance the cursor. -/
def TiesAfter (w : Watch ι) : WatchInput ι → Prop
  | .store call => ∀ e ∈ appended w.store call, AfterTie (w.cursor o) e ∧
      ∀ i, ∀ snapshot ∈ w.built i, w.advances i = none → snapshot.lowerCursor.revision = (w.cursor o).revision →
        AfterTie snapshot.upperCursor e
  | _ => True

/-- The event is in the snapshot of this build, whose advance was accepted. -/
def ObservedIn (w : Watch ι) (e : SemanticEvent) (i : ι) : Prop :=
  ∃ snapshot c, w.built i = some snapshot ∧ w.advances i = some (.ok c) ∧ e.eventId ∈ snapshot.eventRefs

def SeenAt (log : List SemanticEvent) (c : EventCursor) : Prop :=
  ∀ t, c.lastEventAt = some t → ∃ x ∈ log, x.occurredAt = t

/-- A snapshot that can still advance the cursor: it begins at the cursor, and has all events of the Goal up to its end. -/
structure Live (goalId : GoalId) (log : List SemanticEvent) (cursor : EventCursor) (snapshot : ObservationSnapshot) :
    Prop where
  lower : snapshot.lowerCursor = cursor
  upper : snapshot.upperCursor = cursor ∨ snapshot.upperCursor.revision = cursor.revision + 1
  forward : cursor.position ≤ snapshot.upperCursor.position
  seen : SeenAt log snapshot.upperCursor
  within : ∀ x ∈ log, x.eventId ∈ snapshot.eventRefs →
    cursor.position < ↑x.position ∧ ↑x.position ≤ snapshot.upperCursor.position
  complete : ∀ x ∈ log, x.goalId = some goalId → cursor.position < ↑x.position →
    ↑x.position ≤ snapshot.upperCursor.position → x.eventId ∈ snapshot.eventRefs

structure WatchHeld (goalId : GoalId) (w : Watch ι) : Prop where
  wellFormed : w.store.WellFormed
  seen : SeenAt w.store.events (w.cursor o)
  unbuilt : ∀ i, w.built i = none → w.advances i = none
  earlier : ∀ i snapshot, w.built i = some snapshot → snapshot.lowerCursor.revision ≤ (w.cursor o).revision
  refs : ∀ i snapshot, w.built i = some snapshot → ∀ id ∈ snapshot.eventRefs, ∃ x ∈ w.store.events, x.eventId = id
  live : ∀ i snapshot, w.built i = some snapshot → w.advances i = none →
    snapshot.lowerCursor.revision = (w.cursor o).revision → Live goalId w.store.events (w.cursor o) snapshot
  passed : ∀ i snapshot c, w.built i = some snapshot → w.advances i = some (.ok c) →
    snapshot.upperCursor.position ≤ (w.cursor o).position
  observed : ∀ x ∈ w.store.events, x.goalId = some goalId → ↑x.position ≤ (w.cursor o).position → ∃! i, ObservedIn w x i
  unobserved : ∀ x ∈ w.store.events, (w.cursor o).position < ↑x.position → ∀ i, ¬ObservedIn w x i

variable {o} {goalId : GoalId} {w : Watch ι}

/-! ## The steps -/

omit [DecidableEq ι] in
theorem events_storeStep (hs : w.store.WellFormed) (call : StoreCall) :
    (storeStep w.store call).events = w.store.events ++ appended w.store call := by
  obtain ⟨new, hnew⟩ := (exec_effect call.env hs call.op).events_grow
  change w.store.events ++ new = (storeStep w.store call).events at hnew
  rw [appended, ← hnew, List.drop_left]

variable {e : SemanticEvent}

theorem position_lt_of_appended {log new : List SemanticEvent} {c : EventCursor} (hseen : SeenAt log c)
    (hordered : (log ++ new).Pairwise fun x y => x.occurredAt ≤ y.occurredAt) (he : e ∈ new)
    (htie : AfterTie c e) : c.position < ↑e.position := by
  rw [← isBefore_iff]
  unfold EventCursor.isBefore
  cases ht : c.lastEventAt with
  | none => rfl
  | some t =>
    dsimp only
    obtain ⟨x, hx, rfl⟩ := hseen t ht
    have hle := (List.pairwise_append.mp hordered).2.2 x hx e he
    rcases lt_or_eq_of_le hle with hlt | heq
    · rw [if_pos hlt]
    · rw [if_neg heq.not_lt, if_pos heq.symm, decide_eq_true_eq]
      rw [heq] at ht
      exact htie ht

theorem SeenAt.append {log : List SemanticEvent} {c : EventCursor} (h : SeenAt log c) (new : List SemanticEvent) :
    SeenAt (log ++ new) c := by
  intro t ht
  obtain ⟨x, hx, hat⟩ := h t ht
  exact ⟨x, List.mem_append_left _ hx, hat⟩

theorem held_store (h : WatchHeld o goalId w) (call : StoreCall)
    (hchron : Chronological o w (.store call)) (hties : TiesAfter o w (.store call)) :
    WatchHeld o goalId (w.step o (.store call)) := by
  obtain ⟨hordered, hids⟩ := hchron
  have hevents := events_storeStep h.wellFormed call
  change (storeStep w.store call).events.Pairwise _ at hordered
  change ((storeStep w.store call).events.map _).Nodup at hids
  rw [hevents] at hordered hids
  -- no snapshot has an event that was not in the log when it was built
  have hnew : ∀ i snapshot, w.built i = some snapshot → ∀ e ∈ appended w.store call, e.eventId ∉ snapshot.eventRefs := by
    intro i snapshot hbuilt e he href
    obtain ⟨x, hx, hid⟩ := h.refs i snapshot hbuilt _ href
    rw [List.map_append] at hids
    exact (List.nodup_append.mp hids).2.2 _ (List.mem_map_of_mem hx) _ (List.mem_map_of_mem he) hid
  have hcursor : ∀ e ∈ appended w.store call, (w.cursor o).position < ↑e.position :=
    fun e he => position_lt_of_appended h.seen hordered he (hties e he).1
  constructor
  case wellFormed => exact wellFormed_step w.store call h.wellFormed
  case seen =>
    change SeenAt (storeStep w.store call).events (w.cursor o)
    rw [hevents]
    exact h.seen.append _
  case unbuilt => exact h.unbuilt
  case earlier => exact h.earlier
  case refs =>
    intro i snapshot hbuilt id hid
    obtain ⟨x, hx, hxid⟩ := h.refs i snapshot hbuilt id hid
    change ∃ x ∈ (storeStep w.store call).events, x.eventId = id
    rw [hevents]
    exact ⟨x, List.mem_append_left _ hx, hxid⟩
  case live =>
    intro i snapshot hbuilt hopen hrevision
    have hlive := h.live i snapshot hbuilt hopen hrevision
    change Live goalId (storeStep w.store call).events (w.cursor o) snapshot
    rw [hevents]
    refine ⟨hlive.lower, hlive.upper, hlive.forward, hlive.seen.append _, ?_, ?_⟩
    · intro x hx href
      rcases List.mem_append.mp hx with hx | hx
      · exact hlive.within x hx href
      · exact absurd href (hnew i snapshot hbuilt x hx)
    · intro x hx hgoal hlt hle
      rcases List.mem_append.mp hx with hx | hx
      · exact hlive.complete x hx hgoal hlt hle
      · have hafter := position_lt_of_appended hlive.seen hordered hx
          ((hties x hx).2 i snapshot hbuilt hopen hrevision)
        exact absurd hle (not_le_of_gt hafter)
  case passed => exact h.passed
  case observed =>
    intro x hx hgoal hle
    change x ∈ (storeStep w.store call).events at hx
    rw [hevents] at hx
    rcases List.mem_append.mp hx with hx | hx
    · exact h.observed x hx hgoal hle
    · exact absurd hle (not_le_of_gt (hcursor x hx))
  case unobserved =>
    intro x hx hlt i hobserved
    change x ∈ (storeStep w.store call).events at hx
    rw [hevents] at hx
    rcases List.mem_append.mp hx with hx | hx
    · exact h.unobserved x hx hlt i hobserved
    · obtain ⟨snapshot, c, hbuilt, -, href⟩ := hobserved
      exact hnew i snapshot hbuilt x hx href

omit [DecidableEq ι] in
/-- A snapshot that has just been built. -/
theorem live_build (hseen : SeenAt w.store.events (w.cursor o)) (hids : (w.store.events.map SemanticEvent.eventId).Nodup)
    (hopen : goalId ∈ (ObservationBuilder.activeGoals w.store o.userId).map GoalRecord.goalId) (env : Supply) :
    Live goalId w.store.events (w.cursor o) (w.builder.build env o.observerId o.userId o.projectId w.store) := by
  have hrange : ∀ x ∈ w.store.events,
      x.eventId ∈ (ObservationBuilder.ranged w.store o.userId (w.cursor o)).map SemanticEvent.eventId →
      x ∈ ObservationBuilder.ranged w.store o.userId (w.cursor o) := by
    intro x hx hid
    obtain ⟨y, hy, hyx⟩ := List.mem_map.mp hid
    obtain ⟨⟨g, -, hlog, -⟩, -⟩ := ObservationBuilder.mem_ranged.mp hy
    rwa [← List.inj_on_of_nodup_map hids hlog hx hyx]
  constructor
  case lower => rfl
  case upper =>
    rcases ObservationBuilder.upperOf_cases (w.cursor o) (ObservationBuilder.ranged w.store o.userId (w.cursor o)) with
      ⟨-, hupper⟩ | ⟨e, -, hupper⟩
    · exact .inl hupper
    · exact .inr (congrArg EventCursor.revision hupper)
  case forward => exact ObservationBuilder.position_le_upper
  case seen =>
    intro t ht
    change (ObservationBuilder.upperOf (w.cursor o) (ObservationBuilder.ranged w.store o.userId (w.cursor o))).lastEventAt =
      some t at ht
    rcases ObservationBuilder.upperOf_cases (w.cursor o) (ObservationBuilder.ranged w.store o.userId (w.cursor o)) with
      ⟨-, hupper⟩ | ⟨e, he, hupper⟩
    · rw [hupper] at ht
      exact hseen t ht
    · rw [hupper] at ht
      obtain ⟨⟨g, -, hlog, -⟩, -⟩ := ObservationBuilder.mem_ranged.mp he
      exact ⟨e, hlog, Option.some.inj ht⟩
  case within =>
    intro x hx hid
    have hin := hrange x hx hid
    exact ⟨(isBefore_iff _ _).mp (ObservationBuilder.mem_ranged.mp hin).2, ObservationBuilder.position_le_upperOf hin⟩
  case complete =>
    intro x hx hgoal hlt _
    obtain ⟨g, hg, rfl⟩ := List.mem_map.mp hopen
    exact List.mem_map_of_mem (ObservationBuilder.mem_ranged.mpr ⟨⟨g, hg, hx, hgoal⟩, (isBefore_iff _ _).mpr hlt⟩)

theorem held_build (hheld : WatchHeld o goalId w) (i : ι) (env : Supply)
    (hids : (w.store.events.map SemanticEvent.eventId).Nodup) (hopen : StaysOpen o goalId w (.build i env)) :
    WatchHeld o goalId (w.step o (.build i env)) := by
  cases hbuilt : w.built i with
  | some snapshot =>
    have hstep : w.step o (.build i env) = w := by
      simp only [Watch.step, hbuilt]
    rw [hstep]
    exact hheld
  | none =>
    let new := w.builder.build env o.observerId o.userId o.projectId w.store
    have hstep : w.step o (.build i env) = { w with built := Function.update w.built i (some new) } := by
      simp only [Watch.step, hbuilt, new]
    have hcases : ∀ j snapshot, Function.update w.built i (some new) j = some snapshot →
        (j = i ∧ snapshot = new) ∨ w.built j = some snapshot := by
      intro j snapshot hj
      by_cases hji : j = i
      · subst hji
        rw [Function.update_self, Option.some.injEq] at hj
        exact .inl ⟨rfl, hj.symm⟩
      · rw [Function.update_of_ne hji] at hj
        exact .inr hj
    -- a wake that has just built has not advanced
    have hsame : ∀ x j, ObservedIn { w with built := Function.update w.built i (some new) } x j ↔ ObservedIn w x j := by
      intro x j
      constructor
      · rintro ⟨snapshot, c, hj, hadvanced, href⟩
        rcases hcases j snapshot hj with ⟨rfl, -⟩ | hj
        · rw [hheld.unbuilt j hbuilt] at hadvanced
          cases hadvanced
        · exact ⟨snapshot, c, hj, hadvanced, href⟩
      · rintro ⟨snapshot, c, hj, hadvanced, href⟩
        refine ⟨snapshot, c, ?_, hadvanced, href⟩
        have hji : j ≠ i := by
          rintro rfl
          rw [hbuilt] at hj
          cases hj
        exact (Function.update_of_ne hji _ _).trans hj
    have hlive := live_build hheld.seen hids hopen env
    rw [hstep]
    constructor
    case wellFormed => exact hheld.wellFormed
    case seen => exact hheld.seen
    case unbuilt =>
      intro j hj
      refine hheld.unbuilt j ?_
      by_cases hji : j = i
      · subst hji
        exact hbuilt
      · exact (Function.update_of_ne hji _ _).symm.trans hj
    case earlier =>
      intro j snapshot hj
      rcases hcases j snapshot hj with ⟨-, rfl⟩ | hj
      · exact le_refl _
      · exact hheld.earlier j snapshot hj
    case refs =>
      intro j snapshot hj id hid
      rcases hcases j snapshot hj with ⟨-, rfl⟩ | hj
      · obtain ⟨x, hx, rfl⟩ := List.mem_map.mp hid
        obtain ⟨⟨g, -, hevent, -⟩, -⟩ := ObservationBuilder.mem_ranged.mp hx
        exact ⟨x, hevent, rfl⟩
      · exact hheld.refs j snapshot hj id hid
    case live =>
      intro j snapshot hj hadvances hrevision
      rcases hcases j snapshot hj with ⟨-, rfl⟩ | hj
      · exact hlive
      · exact hheld.live j snapshot hj hadvances hrevision
    case passed =>
      intro j snapshot c hj hadvanced
      rcases hcases j snapshot hj with ⟨rfl, -⟩ | hj
      · rw [hheld.unbuilt j hbuilt] at hadvanced
        cases hadvanced
      · exact hheld.passed j snapshot c hj hadvanced
    case observed =>
      intro x hx hgoal hle
      simp only [hsame]
      exact hheld.observed x hx hgoal hle
    case unobserved =>
      intro x hx hlt j
      rw [hsame]
      exact hheld.unobserved x hx hlt j

variable {built : ObservationSnapshot} {i : ι}

theorem unbuilt_update (hi : w.built i = some built)
    (h : ∀ j, w.built j = none → w.advances j = none) {r : Option (Except Exn EventCursor)} (j : ι)
    (hj : w.built j = none) : Function.update w.advances i r j = none := by
  have hji : j ≠ i := by
    rintro rfl
    rw [hi] at hj
    cases hj
  rw [Function.update_of_ne hji, h j hj]

/-- An advance that is refused changes nothing. -/
theorem held_refused (h : WatchHeld o goalId w) (hi : w.built i = some built) (hopen : w.advances i = none) (e : Exn) :
    WatchHeld o goalId { w with advances := Function.update w.advances i (some (.error e)) } := by
  have hcases : ∀ j c, Function.update w.advances i (some (.error e)) j = some (.ok c) → w.advances j = some (.ok c) := by
    intro j c hj
    by_cases hji : j = i
    · subst hji
      rw [Function.update_self, Option.some.injEq] at hj
      cases hj
    · rwa [Function.update_of_ne hji] at hj
  have hnone : ∀ j, Function.update w.advances i (some (.error e)) j = none → w.advances j = none := by
    intro j hj
    by_cases hji : j = i
    · rw [hji]
      exact hopen
    · rwa [Function.update_of_ne hji] at hj
  have hsame : ∀ x j, ObservedIn { w with advances := Function.update w.advances i (some (.error e)) } x j ↔
      ObservedIn w x j := by
    intro x j
    constructor
    · rintro ⟨snapshot, c, hbuilt, hj, href⟩
      exact ⟨snapshot, c, hbuilt, hcases j c hj, href⟩
    · rintro ⟨snapshot, c, hbuilt, hj, href⟩
      have hji : j ≠ i := by
        rintro rfl
        rw [hopen] at hj
        cases hj
      exact ⟨snapshot, c, hbuilt, (Function.update_of_ne hji _ _).trans hj, href⟩
  constructor
  case wellFormed => exact h.wellFormed
  case seen => exact h.seen
  case unbuilt => exact unbuilt_update hi h.unbuilt
  case earlier => exact h.earlier
  case refs => exact h.refs
  case live => exact fun j snapshot hbuilt hj => h.live j snapshot hbuilt (hnone j hj)
  case passed => exact fun j snapshot c hbuilt hj => h.passed j snapshot c hbuilt (hcases j c hj)
  case observed =>
    intro x hx hgoal hle
    simp only [hsame]
    exact h.observed x hx hgoal hle
  case unobserved =>
    intro x hx hlt j
    rw [hsame]
    exact h.unobserved x hx hlt j

variable {snapshot : ObservationSnapshot}

/-- An accepted advance adds the events of its own snapshot to what has been observed. -/
theorem observedIn_advanced {w' : Watch ι} {c : EventCursor} (hi : w.built i = some snapshot) (hopen : w.advances i = none)
    (hbuilt : w'.built = w.built) (hself : w'.advances i = some (.ok c))
    (hother : ∀ j, j ≠ i → w'.advances j = w.advances j) (x : SemanticEvent) (j : ι) :
    ObservedIn w' x j ↔ ObservedIn w x j ∨ (j = i ∧ x.eventId ∈ snapshot.eventRefs) := by
  unfold ObservedIn
  rw [hbuilt]
  by_cases hji : j = i
  · subst hji
    rw [hi, hself, hopen]
    constructor
    · rintro ⟨built, c', ⟨⟩, -, href⟩
      exact .inr ⟨rfl, href⟩
    · rintro (⟨_, _, _, ⟨⟩, _⟩ | ⟨-, href⟩)
      exact ⟨snapshot, c, rfl, rfl, href⟩
  · rw [hother j hji, or_iff_left fun h => hji h.1]

/-- An advance that succeeds passes the events of its snapshot, which no other snapshot has. -/
theorem held_advanced (h : WatchHeld o goalId w) (hi : w.built i = some snapshot)
    (hopen : w.advances i = none) (hlive : Live goalId w.store.events (w.cursor o) snapshot) {b : ObservationBuilder}
    (hb : b.getCursor o.observerId o.userId = snapshot.upperCursor) (c : EventCursor) :
    WatchHeld o goalId { w with builder := b, advances := Function.update w.advances i (some (.ok c)) } := by
  let w' : Watch ι := { w with builder := b, advances := Function.update w.advances i (some (.ok c)) }
  have hcursor : w'.cursor o = snapshot.upperCursor := hb
  have hother : ∀ j, j ≠ i → w'.advances j = w.advances j := fun j hji => Function.update_of_ne hji _ _
  have hself : w'.advances i = some (.ok c) := Function.update_self ..
  have hrevision : (w.cursor o).revision ≤ snapshot.upperCursor.revision := by
    rcases hlive.upper with heq | heq
    · rw [heq]
    · rw [heq]
      omega
  have hobserved : ∀ x j, ObservedIn w' x j ↔ ObservedIn w x j ∨ (j = i ∧ x.eventId ∈ snapshot.eventRefs) :=
    observedIn_advanced hi hopen rfl hself hother
  change WatchHeld o goalId w'
  constructor
  case wellFormed => exact h.wellFormed
  case seen =>
    rw [hcursor]
    exact hlive.seen
  case unbuilt => exact unbuilt_update hi h.unbuilt
  case earlier =>
    intro j built hj
    rw [hcursor]
    exact (h.earlier j built hj).trans hrevision
  case refs => exact h.refs
  case live =>
    intro j built hj hadvances hsame
    have hji : j ≠ i := by
      rintro rfl
      rw [hself] at hadvances
      cases hadvances
    rw [hother j hji] at hadvances
    rw [hcursor] at hsame ⊢
    rcases hlive.upper with heq | heq
    · rw [heq] at hsame ⊢
      exact h.live j built hj hadvances hsame
    · -- the cursor has moved on, past every snapshot that was built before
      have hle := h.earlier j built hj
      omega
  case passed =>
    intro j built c' hj hadvanced
    rw [hcursor]
    by_cases hji : j = i
    · subst hji
      cases hi.symm.trans hj
      exact le_refl _
    · rw [hother j hji] at hadvanced
      exact (h.passed j built c' hj hadvanced).trans hlive.forward
  case observed =>
    intro x hx hgoal hle
    rw [hcursor] at hle
    simp only [hobserved x]
    by_cases hbefore : ↑x.position ≤ (w.cursor o).position
    · -- it was observed before, and is not in this snapshot
      obtain ⟨j, hj, hsole⟩ := h.observed x hx hgoal hbefore
      refine ⟨j, .inl hj, ?_⟩
      rintro k (hk | ⟨-, href⟩)
      · exact hsole k hk
      · exact absurd hbefore (not_le_of_gt (hlive.within x hx href).1)
    · have hlt := lt_of_not_ge hbefore
      refine ⟨i, .inr ⟨rfl, hlive.complete x hx hgoal hlt hle⟩, ?_⟩
      rintro k (hk | ⟨rfl, -⟩)
      · exact absurd hk (h.unobserved x hx hlt k)
      · rfl
  case unobserved =>
    intro x hx hlt j
    rw [hcursor] at hlt
    rw [hobserved x]
    rintro (hj | ⟨-, href⟩)
    · exact h.unobserved x hx (hlive.forward.trans_lt hlt) j hj
    · exact absurd (hlive.within x hx href).2 (not_le_of_gt hlt)

theorem held_advance (h : WatchHeld o goalId w) (i : ι) : WatchHeld o goalId (w.step o (.advance i)) := by
  dsimp only [Watch.step]
  cases hi : w.built i with
  | none => exact h
  | some snapshot =>
    cases hopen : w.advances i with
    | some r => exact h
    | none =>
      dsimp only [Watch.advance]
      rcases ObservationBuilder.run_advanceCursor_cases w.builder o.observerId o.userId snapshot.upperCursor
        snapshot.lowerCursor.revision with ⟨-, e, hrun⟩ | ⟨hrevision, b, hrun, hb⟩
      · rw [hrun]
        exact held_refused h hi hopen e
      · rw [hrun]
        exact held_advanced h hi hopen (h.live i snapshot hi hopen hrevision.symm) hb _

/-- Events come in the order of time and behind the cursor, while the Goal stays open. -/
def OrderlyWatch (o : Observer) (goalId : GoalId) (w : Watch ι) (input : WatchInput ι) : Prop :=
  Chronological o w input ∧ StaysOpen o goalId w input ∧ TiesAfter o w input

theorem held_step (w : Watch ι) (input : WatchInput ι) (h : WatchHeld o goalId w) (horderly : OrderlyWatch o goalId w input) :
    WatchHeld o goalId (w.step o input) := by
  obtain ⟨hchron, hopen, hties⟩ := horderly
  cases input with
  | store call => exact held_store h call hchron hties
  | build i env =>
    refine held_build h i env ?_ hopen
    have hids := hchron.2
    simp only [Watch.step] at hids
    split at hids <;> exact hids
  | advance i => exact held_advance h i

omit [DecidableEq ι] in
theorem held_init (recentLimit : ℤ) : WatchHeld o goalId (Watch.init recentLimit : Watch ι) := by
  constructor
  case wellFormed => exact InMemoryStore.wellFormed_empty
  case seen => exact fun t ht => (nomatch ht)
  case unbuilt => exact fun _ _ => rfl
  case earlier => exact fun _ _ h => (nomatch h)
  case refs => exact fun _ _ h => (nomatch h)
  case live => exact fun _ _ h => (nomatch h)
  case passed => exact fun _ _ _ h => (nomatch h)
  case observed => exact fun _ h => (nomatch h)
  case unobserved => exact fun _ h => (nomatch h)

theorem step_built (h : w.built i = some snapshot) (input : WatchInput ι) : (w.step o input).built i = some snapshot := by
  cases input with
  | store call => exact h
  | build j env =>
    simp only [Watch.step]
    split
    · exact h
    · next hj =>
      have hij : i ≠ j := by
        rintro rfl
        rw [h] at hj
        cases hj
      exact (Function.update_of_ne hij _ _).trans h
  | advance j =>
    simp only [Watch.step]
    split
    · exact h
    · exact h

theorem step_events (hs : w.store.WellFormed) (he : e ∈ w.store.events) (input : WatchInput ι) :
    e ∈ (w.step o input).store.events := by
  cases input with
  | store call =>
    change e ∈ (storeStep w.store call).events
    rw [events_storeStep hs]
    exact List.mem_append_left _ he
  | build j env =>
    simp only [Watch.step]
    split <;> exact he
  | advance j =>
    simp only [Watch.step]
    split <;> exact he

omit [DecidableEq ι] in
theorem position_le_of_build (hopen : goalId ∈ (ObservationBuilder.activeGoals w.store o.userId).map GoalRecord.goalId) (he : e ∈ w.store.events) (hgoal : e.goalId = some goalId) (env : Supply) :
    ↑e.position ≤ (w.builder.build env o.observerId o.userId o.projectId w.store).upperCursor.position := by
  change _ ≤ (ObservationBuilder.upperOf (w.cursor o) (ObservationBuilder.ranged w.store o.userId (w.cursor o))).position
  by_cases hbefore : ↑e.position ≤ (w.cursor o).position
  · exact hbefore.trans ObservationBuilder.position_le_upper
  · obtain ⟨g, hg, rfl⟩ := List.mem_map.mp hopen
    refine ObservationBuilder.position_le_upperOf (ObservationBuilder.mem_ranged.mpr ⟨⟨g, hg, he, hgoal⟩, ?_⟩)
    exact (isBefore_iff _ _).mpr (lt_of_not_ge hbefore)

/-- An event of a Goal that stays open, appended before a build whose advance succeeds, is observed exactly once. -/
theorem observed_once (goalId : GoalId) (recentLimit : ℤ) (before after : List (WatchInput ι)) (i : ι) (env : Supply)
    (hrun : EveryStep (Watch.step o) (OrderlyWatch o goalId) (Watch.init recentLimit) (before ++ .build i env :: after))
    (hfirst : (run (Watch.step o) (Watch.init recentLimit) before).built i = none) {c : EventCursor}
    (hadvanced : (run (Watch.step o) (Watch.init recentLimit) (before ++ .build i env :: after)).advances i = some (.ok c))
    {e : SemanticEvent} (he : e ∈ (run (Watch.step o) (Watch.init recentLimit) before).store.events)
    (hgoal : e.goalId = some goalId) :
    ∃! j, ObservedIn (run (Watch.step o) (Watch.init recentLimit) (before ++ .build i env :: after)) e j := by
  have hhere : WatchHeld o goalId (run (Watch.step o) (Watch.init recentLimit) before) :=
    invariant_of_everyStep held_step (held_init recentLimit) (everyStep_append_left hrun)
  obtain ⟨hbuild, hafter⟩ := everyStep_cons.mp (everyStep_append_right hrun)
  rw [run_append, run_cons] at hadvanced ⊢
  generalize run (Watch.step o) (Watch.init recentLimit) before = w at *
  let snapshot := w.builder.build env o.observerId o.userId o.projectId w.store
  have hbuilt : (w.step o (.build i env)).built i = some snapshot := by
    simp only [Watch.step, hfirst, Function.update_self, snapshot]
  have hend := invariant_of_everyStep
    (I := fun w' : Watch ι => WatchHeld o goalId w' ∧ w'.built i = some snapshot ∧ e ∈ w'.store.events)
    (fun w' input h horderly => ⟨held_step w' input h.1 horderly, step_built h.2.1 input, step_events h.1.wellFormed h.2.2 input⟩)
    ⟨held_step w _ hhere hbuild, hbuilt, step_events hhere.wellFormed he _⟩ hafter
  obtain ⟨hheld, hkept, hlog⟩ := hend
  have hread : ↑e.position ≤ snapshot.upperCursor.position := position_le_of_build hbuild.2.1 he hgoal env
  exact hheld.observed e hlog hgoal (hread.trans (hheld.passed i snapshot c hkept hadvanced))

end Watching

instance decidableAfterTie (c : EventCursor) (e : SemanticEvent) : Decidable (AfterTie c e) :=
  inferInstanceAs (Decidable (c.lastEventAt = some e.occurredAt → c.lastEventId.getD "" < e.eventId.val))

instance decidableTiesAfter {ι : Type} [Fintype ι] (o : Observer) (w : Watch ι) :
    (input : WatchInput ι) → Decidable (TiesAfter o w input)
  | .store call => inferInstanceAs (Decidable (∀ e ∈ appended w.store call, AfterTie (w.cursor o) e ∧
      ∀ i, ∀ snapshot ∈ w.built i, w.advances i = none → snapshot.lowerCursor.revision = (w.cursor o).revision →
        AfterTie snapshot.upperCursor e))
  | .build _ _ | .advance _ => isTrue trivial

instance decidableStaysOpen {ι : Type} (o : Observer) (goalId : GoalId) (w : Watch ι) :
    (input : WatchInput ι) → Decidable (StaysOpen o goalId w input)
  | .build _ _ =>
      inferInstanceAs (Decidable (goalId ∈ (ObservationBuilder.activeGoals w.store o.userId).map GoalRecord.goalId))
  | .store _ | .advance _ => isTrue trivial

instance decidableChronological {ι : Type} [DecidableEq ι] (o : Observer) (w : Watch ι) (input : WatchInput ι) :
    Decidable (Chronological o w input) :=
  inferInstanceAs (Decidable (_ ∧ _))

instance decidableOrderlyWatch {ι : Type} [DecidableEq ι] [Fintype ι] (o : Observer) (goalId : GoalId) (w : Watch ι)
    (input : WatchInput ι) : Decidable (OrderlyWatch o goalId w input) :=
  inferInstanceAs (Decidable (_ ∧ _ ∧ _))

def sampleObserver : Observer := { observerId := "researcher", userId := "u1" }

def goalEvent (id : String) : SemanticEvent :=
  { eventId := ⟨id⟩, actor := "test", type := "test.event", occurredAt := 0, goalId := some ⟨"goal_1"⟩
    actor_nonempty := sampleEvent.actor_nonempty, type_nonempty := sampleEvent.type_nonempty }

def wakeThenAppend (first second : String) : List (WatchInput Bool) :=
  [.store ⟨.createGoal sampleGoal (goalEvent first), frozenSupply⟩, .build false frozenSupply, .advance false,
   .store ⟨.appendEvent (goalEvent second), frozenSupply⟩]

/-- The second event has the greater id, and the next wake observes it. -/
theorem greater_id_observed : ∃! j, ObservedIn (run (Watch.step sampleObserver) (Watch.init 20)
      (wakeThenAppend "evt_1" "evt_2" ++ .build true frozenSupply :: [.advance true])) (goalEvent "evt_2") j :=
  observed_once ⟨"goal_1"⟩ 20 (wakeThenAppend "evt_1" "evt_2") [.advance true] true frozenSupply (by decide +kernel) rfl rfl
    (List.mem_cons_of_mem _ List.mem_cons_self) rfl

/-- The second event has the smaller id. It is never observed, though both advances succeed. -/
theorem smaller_id_never_observed :
    ¬∀ (o : Observer) (goalId : GoalId) (recentLimit : ℤ) (before after : List (WatchInput Bool)) (i : Bool) (env : Supply)
      (c : EventCursor) (e : SemanticEvent),
      EveryStep (Watch.step o) (fun w input => Chronological o w input ∧ StaysOpen o goalId w input)
        (Watch.init recentLimit) (before ++ .build i env :: after) →
      (run (Watch.step o) (Watch.init recentLimit) before).built i = none →
      (run (Watch.step o) (Watch.init recentLimit) (before ++ .build i env :: after)).advances i = some (.ok c) →
      e ∈ (run (Watch.step o) (Watch.init recentLimit) before).store.events → e.goalId = some goalId →
      ∃! j, ObservedIn (run (Watch.step o) (Watch.init recentLimit) (before ++ .build i env :: after)) e j := by
  intro h
  obtain ⟨j, ⟨snapshot, c, hbuilt, -, href⟩, -⟩ := h sampleObserver ⟨"goal_1"⟩ 20 (wakeThenAppend "evt_2" "evt_1")
    [.advance true] true frozenSupply ⟨some 0, some "evt_2", 1⟩ (goalEvent "evt_1") (by decide +kernel) rfl rfl
    (List.mem_cons_of_mem _ List.mem_cons_self) rfl
  have hrefs : ∀ j, ((run (Watch.step sampleObserver) (Watch.init 20)
      (wakeThenAppend "evt_2" "evt_1" ++ .build true frozenSupply :: [.advance true])).built j).all
        (fun snapshot => ⟨"evt_1"⟩ ∉ snapshot.eventRefs) = true := by decide +kernel
  have hj := hrefs j
  rw [hbuilt] at hj
  exact absurd href (of_decide_eq_true hj)

end AllTomorrow
