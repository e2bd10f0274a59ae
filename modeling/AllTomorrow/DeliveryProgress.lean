import AllTomorrow.DeliveryRuns
import AllTomorrow.ExecutionRefHistory

/-!
# What a sequence of reconcile calls keeps and where it ends

Every call on an open record counts an attempt, ends in REPAIR_REQUIRED or finds the
record expired. An AMBIGUOUS record has an attempt left, so the number of attempts stays
within its bound, and a record that no call finds expired comes to rest.
-/

namespace AllTomorrow

open MachineRuns (EveryStep invariant_run run_cons)

open DeliveryReconciler

/-- `reconcile` can deliver a record of this kind. -/
def DeliveryReconciler.HasPath (reconciler : DeliveryReconciler) (kind : DeliveryKind) : Prop :=
  kind = .runStart ∨ kind = .questionSignal ∨ reconciler.handles kind = true

variable {record : DeliveryRecord} {c : ReconcileCall}

/-! ## One call -/

structure StepsTo (record : DeliveryRecord) (c : ReconcileCall) (result : DeliveryRecord) : Prop where
  next : ∃ made status error deliveredAt now, result = record.next made status error deliveredAt now
  delivered : result.deliveredAt.isSome = true ↔ result.status = .delivered
  counted :
    (result.attempts = record.attempts + 1 ∧ (record.status = .ambiguous ∨ record.attempts + 1 ≤ record.maxAttempts)) ∨
    (result.attempts = record.attempts ∧
      (result.status = .repairRequired ∨ result.status = .failed ∧ record.isExpired c.now = true))
  ambiguous : result.status = .ambiguous → result.attempts < result.maxAttempts
  path : result.status = .delivered → c.reconciler.HasPath record.kind

section OneCall

variable {now : Datetime} {status : DeliveryStatus} {error : Option CanonicalError}

theorem stepsTo_counted (hroom : record.status = .ambiguous ∨ record.attempts + 1 ≤ record.maxAttempts)
    (hdelivered : status ≠ .delivered) (hambiguous : status = .ambiguous → record.attempts + 1 < record.maxAttempts) :
    StepsTo record c (record.next 1 status error none now) where
  next := ⟨1, status, error, none, now, rfl⟩
  delivered := ⟨fun h => absurd h Bool.false_ne_true, fun h => absurd h hdelivered⟩
  counted := .inl ⟨rfl, hroom⟩
  ambiguous := hambiguous
  path := fun h => absurd h hdelivered

theorem stepsTo_delivered (hroom : record.status = .ambiguous ∨ record.attempts + 1 ≤ record.maxAttempts)
    (hpath : c.reconciler.HasPath record.kind) : StepsTo record c (record.next 1 .delivered error (some now) now) where
  next := ⟨1, .delivered, error, some now, now, rfl⟩
  delivered := ⟨fun _ => rfl, fun _ => rfl⟩
  counted := .inl ⟨rfl, hroom⟩
  ambiguous := by
    intro h
    cases h
  path := fun _ => hpath

theorem lt_of_lastAttempt (h : ¬lastAttempt record = true) : record.attempts + 1 < record.maxAttempts := by
  simp only [lastAttempt, ge_iff_le, decide_eq_true_eq] at h
  omega

theorem stepsTo_stillUnknown (hroom : record.status = .ambiguous ∨ record.attempts + 1 ≤ record.maxAttempts) :
    StepsTo record c (record.next 1 (stillUnknown record) error none now) := by
  unfold stillUnknown
  split
  · apply stepsTo_counted hroom
    · decide
    · intro h
      cases h
  · next hlast =>
    apply stepsTo_counted hroom
    · decide
    · exact fun _ => lt_of_lastAttempt hlast

theorem stepsTo_dispatchRaised (hroom : record.attempts + 1 ≤ record.maxAttempts) (exc : Raised) :
    StepsTo record c (dispatchRaised record now exc) := by
  unfold dispatchRaised
  dsimp only
  split
  · apply stepsTo_counted (.inr hroom)
    · decide
    · intro h
      cases h
  · next hlast =>
    apply stepsTo_counted (.inr hroom)
    · split <;> decide
    · exact fun _ => lt_of_lastAttempt hlast

theorem stepsTo_executionFound (hroom : record.status = .ambiguous) (hkind : record.kind = .runStart)
    (res : ExecutionStatusResult) : StepsTo record c (executionFound record now res) := by
  unfold executionFound
  split
  · exact stepsTo_delivered (.inl hroom) (.inl hkind)
  · apply stepsTo_counted (.inl hroom)
    · decide
    · intro h
      cases h

variable {r : Except Raised DeliveryRecord} {es : List PortEvent}

theorem stepsTo_started {settle : Except Raised DeliveryRecord → DeliveryRecord} (hroom : record.status = .ambiguous ∨ record.attempts + 1 ≤ record.maxAttempts)
    (hkind : record.kind = .runStart) (hok : ∀ result, settle (.ok result) = result)
    (hraised : ∀ exc, StepsTo record c (settle (.error exc))) (h : StartEnds record now es r) :
    StepsTo record c (settle r) := by
  cases h with
  | ok ref =>
    rw [hok]
    exact stepsTo_delivered hroom (.inl hkind)
  | raised exc => exact hraised exc

theorem stepsTo_dispatched
    (hroom : record.attempts + 1 ≤ record.maxAttempts) (h : DispatchEnds record c.reconciler now es r) :
    StepsTo record c (settleDispatch record now r) := by
  cases h with
  | run hkind h => exact stepsTo_started (.inr hroom) hkind (fun _ => rfl) (stepsTo_dispatchRaised hroom) h
  | badRef text hkind => exact stepsTo_dispatchRaised hroom _
  | signalled ref res hkind hres => exact stepsTo_delivered (.inr hroom) (.inr (.inl hkind))
  | refused ref res hkind hres =>
    apply stepsTo_counted (.inr hroom)
    · decide
    · intro h
      cases h
  | signalRaised ref exc hkind => exact stepsTo_dispatchRaised hroom exc
  | handled error hkind hhandles => exact stepsTo_delivered (.inr hroom) (.inr (.inr hhandles))
  | handlerFailed error hkind hhandles =>
    apply stepsTo_counted (.inr hroom)
    · decide
    · intro h
      cases h
  | handlerRaised exc hkind hhandles => exact stepsTo_dispatchRaised hroom exc
  | unsupported =>
    apply stepsTo_counted (.inr hroom)
    · decide
    · intro h
      cases h

theorem stepsTo_probed (hstatus : record.status = .ambiguous)
    (hkind : record.kind = .runStart) (h : ProbeEnds record now es r) : StepsTo record c (settleProbe record now r) := by
  have hraised : ∀ exc, StepsTo record c (settleProbe record now (.error exc)) :=
    fun _ => stepsTo_stillUnknown (.inl hstatus)
  cases h with
  | findRaised exc => exact hraised exc
  | absent h => exact stepsTo_started (.inl hstatus) hkind (fun _ => rfl) hraised h
  | statusRaised ref exc => exact hraised exc
  | gone ref res error herror hcategory h => exact stepsTo_started (.inl hstatus) hkind (fun _ => rfl) hraised h
  | unreachable ref res error herror hcategory => exact stepsTo_stillUnknown (.inl hstatus)
  | found ref res hcategory => exact stepsTo_executionFound hstatus hkind res

theorem stepsTo_uncounted (hstatus : status = .repairRequired ∨ status = .failed ∧ record.isExpired c.now = true) :
    StepsTo record c (record.next 0 status error none now) where
  next := ⟨0, status, error, none, now, rfl⟩
  delivered := by
    refine ⟨fun h => absurd h Bool.false_ne_true, ?_⟩
    rintro rfl
    rcases hstatus with h | ⟨h, _⟩ <;> cases h
  counted := .inr ⟨Int.add_zero _, hstatus⟩
  ambiguous := by
    rintro rfl
    rcases hstatus with h | ⟨h, _⟩ <;> cases h
  path := by
    rintro rfl
    rcases hstatus with h | ⟨h, _⟩ <;> cases h

end OneCall

theorem reconcileStep_terminal (h : record.isTerminal = true) : reconcileStep record c = record := by
  unfold reconcileStep ReconcileCall.result reconcile
  rw [if_pos h]
  rfl

variable {result : DeliveryRecord}

theorem stepsTo_of_reconciled {es : List PortEvent} (h : Reconciled record c es result)
    (hopen : record.isTerminal = false) : StepsTo record c result := by
  cases h with
  | terminal h =>
    rw [hopen] at h
    cases h
  | expired _ h => exact stepsTo_uncounted (.inr ⟨rfl, h⟩)
  | exhausted _ _ _ _ => exact stepsTo_uncounted (.inl rfl)
  | dispatched _ _ _ hattempts h => exact stepsTo_dispatched hattempts h
  | probed now _ _ hstatus hkind h => exact stepsTo_probed hstatus hkind h
  | unprobed now _ _ hstatus _ =>
    apply stepsTo_counted (.inl hstatus)
    · decide
    · intro h
      cases h

theorem stepsTo_reconcileStep (hopen : record.isTerminal = false) : StepsTo record c (reconcileStep record c) :=
  stepsTo_of_reconciled (reconciled record c) hopen

/-! ## Sequences of calls -/

/-- The attempts are within the bound, and an AMBIGUOUS record has one left. -/
structure AttemptsBounded (record : DeliveryRecord) : Prop where
  le : record.attempts ≤ record.maxAttempts
  ambiguous : record.status = .ambiguous → record.attempts < record.maxAttempts

theorem attemptsBounded_of_zero (h : record.attempts = 0) : AttemptsBounded record := by
  have hpos := record.maxAttempts_pos
  exact ⟨by omega, fun _ => by omega⟩

theorem StepsTo.maxAttempts (h : StepsTo record c result) : result.maxAttempts = record.maxAttempts := by
  obtain ⟨made, status, error, deliveredAt, now, rfl⟩ := h.next
  rfl

theorem attemptsBounded_step (record : DeliveryRecord) (c : ReconcileCall) (h : AttemptsBounded record) :
    AttemptsBounded (reconcileStep record c) := by
  cases hterminal : record.isTerminal with
  | true =>
    rw [reconcileStep_terminal hterminal]
    exact h
  | false =>
    have hstep := stepsTo_reconcileStep hterminal (c := c)
    refine ⟨?_, hstep.ambiguous⟩
    rw [hstep.maxAttempts]
    rcases hstep.counted with ⟨hattempts, hambiguous | hroom⟩ | ⟨hattempts, _⟩
    · have hlt := h.ambiguous hambiguous
      omega
    · omega
    · rw [hattempts]
      exact h.le

structure SameIntent (fresh record : DeliveryRecord) : Prop where
  deliveryId : record.deliveryId = fresh.deliveryId
  kind : record.kind = fresh.kind
  subjectRefs : record.subjectRefs = fresh.subjectRefs
  destinationAdapter : record.destinationAdapter = fresh.destinationAdapter
  idempotencyKey : record.idempotencyKey = fresh.idempotencyKey
  payload : record.payload = fresh.payload
  idempotencyScope : record.idempotencyScope = fresh.idempotencyScope
  retentionClass : record.retentionClass = fresh.retentionClass
  validUntil : record.validUntil = fresh.validUntil
  maxAttempts : record.maxAttempts = fresh.maxAttempts
  createdAt : record.createdAt = fresh.createdAt

theorem SameIntent.refl (record : DeliveryRecord) : SameIntent record record :=
  ⟨rfl, rfl, rfl, rfl, rfl, rfl, rfl, rfl, rfl, rfl, rfl⟩

variable {fresh : DeliveryRecord}

theorem SameIntent.next (h : SameIntent fresh record) (made : ℕ) (status : DeliveryStatus)
    (error : Option CanonicalError) (deliveredAt : Option Datetime) (now : Datetime) :
    SameIntent fresh (record.next made status error deliveredAt now) :=
  ⟨h.deliveryId, h.kind, h.subjectRefs, h.destinationAdapter, h.idempotencyKey, h.payload, h.idempotencyScope,
    h.retentionClass, h.validUntil, h.maxAttempts, h.createdAt⟩

theorem sameIntent_step (record : DeliveryRecord) (c : ReconcileCall)
    (h : SameIntent fresh record) : SameIntent fresh (reconcileStep record c) := by
  cases hterminal : record.isTerminal with
  | true =>
    rw [reconcileStep_terminal hterminal]
    exact h
  | false =>
    obtain ⟨made, status, error, deliveredAt, now, hnext⟩ := (stepsTo_reconcileStep hterminal (c := c)).next
    rw [hnext]
    exact h.next made status error deliveredAt now

/-- The record as it is created, before any attempt. -/
structure DeliveryRecord.IsFresh (record : DeliveryRecord) : Prop where
  status : record.status = .pending
  attempts : record.attempts = 0
  deliveredAt : record.deliveredAt = none

/-- What a record has kept through the calls that led to it. -/
structure RecordInvariant (fresh : DeliveryRecord) (calls : List ReconcileCall) (record : DeliveryRecord) : Prop where
  attempts_le : record.attempts ≤ record.maxAttempts
  attempts_grow : ∀ c, record.attempts ≤ (reconcileStep record c).attempts
  delivered : record.deliveredAt.isSome = true ↔ record.status = .delivered
  intent : SameIntent fresh record
  revision : ∀ c, record.isTerminal = false → (reconcileStep record c).revision = record.revision + 1
  path : (∀ c ∈ calls, ¬c.reconciler.HasPath fresh.kind) → record.status ≠ .delivered

theorem attempts_le_step (record : DeliveryRecord) (c : ReconcileCall) :
    record.attempts ≤ (reconcileStep record c).attempts := by
  cases hterminal : record.isTerminal with
  | true => rw [reconcileStep_terminal hterminal]
  | false =>
    rcases (stepsTo_reconcileStep hterminal (c := c)).counted with ⟨h, _⟩ | ⟨h, _⟩
    · omega
    · omega

theorem revision_step (hopen : record.isTerminal = false) : (reconcileStep record c).revision = record.revision + 1 := by
  obtain ⟨made, status, error, deliveredAt, now, hnext⟩ := (stepsTo_reconcileStep hopen (c := c)).next
  rw [hnext]
  rfl

theorem delivered_step (record : DeliveryRecord) (c : ReconcileCall)
    (h : record.deliveredAt.isSome = true ↔ record.status = .delivered) :
    (reconcileStep record c).deliveredAt.isSome = true ↔ (reconcileStep record c).status = .delivered := by
  cases hterminal : record.isTerminal with
  | true =>
    rw [reconcileStep_terminal hterminal]
    exact h
  | false => exact (stepsTo_reconcileStep hterminal).delivered

variable (calls : List ReconcileCall)

theorem not_delivered_run (h : record.status ≠ .delivered) (hpath : ∀ c ∈ calls, ¬c.reconciler.HasPath record.kind) :
    (MachineRuns.run reconcileStep record calls).status ≠ .delivered := by
  induction calls generalizing record with
  | nil => exact h
  | cons c calls ih =>
    have hkind := (sameIntent_step record c (.refl record)).kind
    apply ih
    · cases hterminal : record.isTerminal with
      | true =>
        rw [reconcileStep_terminal hterminal]
        exact h
      | false =>
        intro hdelivered
        exact hpath c List.mem_cons_self ((stepsTo_reconcileStep hterminal).path hdelivered)
    · intro c' hc'
      rw [hkind]
      exact hpath c' (List.mem_cons_of_mem c hc')

/-- Every record that a sequence of calls leads to from a fresh one. -/
theorem recordInvariant_run {fresh : DeliveryRecord} (hfresh : fresh.IsFresh) (calls : List ReconcileCall) :
    RecordInvariant fresh calls (MachineRuns.run reconcileStep fresh calls) where
  attempts_le :=
    (invariant_run attemptsBounded_step (attemptsBounded_of_zero hfresh.attempts) calls).le
  attempts_grow := attempts_le_step _
  delivered := by
    apply invariant_run delivered_step
    rw [hfresh.deliveredAt, hfresh.status]
    decide
  intent := invariant_run sameIntent_step (SameIntent.refl fresh) calls
  revision := fun _ => revision_step
  path := by
    apply not_delivered_run
    rw [hfresh.status]
    decide

/-! ## Coming to rest -/

/-- The call finds the open record past the instant until which it is valid. -/
def FindsExpired (record : DeliveryRecord) (c : ReconcileCall) : Prop :=
  record.isTerminal = false ∧ record.isExpired c.now = true

theorem terminal_step (record : DeliveryRecord) (c : ReconcileCall) (h : record.isTerminal = true) :
    (reconcileStep record c).isTerminal = true := by
  rw [reconcileStep_terminal h]
  exact h

/-- As long as a record is not found expired, every call counts an attempt or ends the delivery. -/
theorem terminal_or_counted (hvalid : EveryStep reconcileStep (fun r c => ¬FindsExpired r c) record calls) :
    (MachineRuns.run reconcileStep record calls).isTerminal = true ∨
      (MachineRuns.run reconcileStep record calls).attempts = record.attempts + calls.length := by
  induction calls generalizing record with
  | nil => exact .inr (Int.add_zero _).symm
  | cons c calls ih =>
    obtain ⟨hc, htail⟩ := MachineRuns.everyStep_cons.mp hvalid
    rw [run_cons]
    cases hterminal : record.isTerminal with
    | true => exact .inl (invariant_run terminal_step (terminal_step record c hterminal) calls)
    | false =>
      rcases (stepsTo_reconcileStep hterminal (c := c)).counted with ⟨hattempts, _⟩ | ⟨_, hstatus | ⟨_, hexpired⟩⟩
      · rcases ih htail with hrest | hcounted
        · exact .inl hrest
        · right
          rw [hcounted, hattempts, List.length_cons]
          omega
      · left
        apply invariant_run terminal_step
        unfold DeliveryRecord.isTerminal
        rw [hstatus]
        decide
      · exact absurd ⟨hterminal, hexpired⟩ hc

theorem failed_of_findsExpired (h : FindsExpired record c) :
    c.events record = [] ∧ (reconcileStep record c).status = .failed ∧
      (reconcileStep record c).attempts = record.attempts := by
  unfold reconcileStep ReconcileCall.events ReconcileCall.result reconcile
  have hexpired : record.isExpired (c.env.sub 0).utcNow = true := h.2
  rw [if_neg (by rw [h.1]; decide), if_pos hexpired]
  exact ⟨rfl, rfl, Int.add_zero _⟩

/-- After `max_attempts + 1` calls a record is at rest, unless one of them finds it expired. -/
theorem terminal_unless_expired (record : DeliveryRecord) (h0 : record.attempts = 0) (calls : List ReconcileCall)
    (hlength : record.maxAttempts + 1 ≤ calls.length) :
    ((MachineRuns.run reconcileStep record calls).isTerminal = true ∨
      ∃ before c after, calls = before ++ c :: after ∧ FindsExpired (MachineRuns.run reconcileStep record before) c) ∧
    ∀ r c, FindsExpired r c →
      c.events r = [] ∧ (reconcileStep r c).status = .failed ∧ (reconcileStep r c).attempts = r.attempts := by
  refine ⟨?_, fun r c hexpired => failed_of_findsExpired hexpired⟩
  by_cases hvalid : EveryStep reconcileStep (fun r c => ¬FindsExpired r c) record calls
  · left
    rcases terminal_or_counted calls hvalid with hrest | hcounted
    · exact hrest
    · exfalso
      have hbounded := invariant_run attemptsBounded_step (attemptsBounded_of_zero h0) calls
      have hmax := (invariant_run sameIntent_step (SameIntent.refl record) calls).maxAttempts
      have hle := hbounded.le
      omega
  · right
    simp only [EveryStep, not_forall, not_not] at hvalid
    obtain ⟨before, c, after, hsplit, hexpired⟩ := hvalid
    exact ⟨before, c, after, hsplit, hexpired⟩

theorem sampleKey_nonempty : PyText.isBlank "k" = false := by decide

theorem attemptLimit_pos : (1 : ℤ) ≤ 3 := by decide

theorem noAttempts_nonneg : (0 : ℤ) ≤ 0 := by decide

theorem validUntil_given (validUntil : Datetime) (h : some validUntil = none) :
    retentionTtl (retentionOf "standard") = none := by
  cases h

def runStartRecord (validUntil : Datetime) : DeliveryRecord where
  deliveryId := ⟨"deliv_1"⟩
  kind := .runStart
  subjectRefs := InsertionDict.empty.set "run_id" "run_1"
  destinationAdapter := "k"
  idempotencyKey := "k"
  payload := .empty
  validUntil := some validUntil
  createdAt := 0
  updatedAt := 0
  idempotencyKey_nonempty := sampleKey_nonempty
  destinationAdapter_nonempty := sampleKey_nonempty
  maxAttempts_pos := attemptLimit_pos
  attempts_nonneg := noAttempts_nonneg
  validUntil_set := validUntil_given validUntil

def plainReconciler : DeliveryReconciler := ⟨fun _ => false, fun _ => ""⟩

def raisingCall (exc : Raised) : ReconcileCall := ⟨plainReconciler, frozenSupply, fun _ => .error exc⟩

def timedOut : Raised := { type := ⟨"TimeoutError", [.timeoutError]⟩, text := "" }

/-- The record of the example expired before the first call: four calls with `max_attempts = 3` leave it
FAILED. -/
theorem expired_not_at_rest :
    ¬(MachineRuns.run reconcileStep (runStartRecord (-1)) (List.replicate 4 (raisingCall timedOut))).isTerminal = true := by
  decide

/-- A record that stays valid, and a port that times out at every request. -/
theorem timing_out_at_rest :
    (MachineRuns.run reconcileStep (runStartRecord 0) (List.replicate 4 (raisingCall timedOut))).isTerminal = true := by
  rcases (terminal_unless_expired (runStartRecord 0) rfl (List.replicate 4 (raisingCall timedOut)) (by decide)).1 with
    h | ⟨before, c, after, hsplit, hexpired⟩
  · exact h
  · have hc : c = raisingCall timedOut := by
      apply List.eq_of_mem_replicate (n := 4)
      rw [hsplit]
      simp
    have hvalid := (invariant_run sameIntent_step (SameIntent.refl (runStartRecord 0)) before).validUntil
    have hfound := hexpired.2
    rw [hc] at hfound
    unfold DeliveryRecord.isExpired at hfound
    rw [hvalid] at hfound
    exact absurd hfound (by decide)

/-- A fresh record and one call that times out. -/
theorem recordInvariant_timedOut : RecordInvariant (runStartRecord 0) [raisingCall timedOut]
      (MachineRuns.run reconcileStep (runStartRecord 0) [raisingCall timedOut]) :=
  recordInvariant_run ⟨rfl, rfl, rfl⟩ _

end AllTomorrow
