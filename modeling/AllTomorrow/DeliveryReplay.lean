import AllTomorrow.DeliveryProgress

/-!
# Blind replays

A request whose effect is unknown may be repeated only after the port has said that there
is no such execution. The reconciler keeps to that for exceptions, which lead to AMBIGUOUS;
an ambiguous error that is returned, a probe under another name, or a probe that finds the
execution in another state leads to FAILED, from where the request is repeated. A call that is
left by an exception which is no `Exception` changes no record.
-/

namespace AllTomorrow

open MachineRuns (EveryStep everyStep_cons)

open DeliveryReconciler

/-! ## Calls that return and calls that are left -/

inductive DeliveryCall where
  | returns (call : ReconcileCall)
  /-- after so many answered requests the next one, if there is one, ends in an exception that
  `except Exception` does not catch, such as a `CancelledError` -/
  | left (call : ReconcileCall) (answered : ℕ) (exc : Raised)

def DeliveryCall.events (record : DeliveryRecord) : DeliveryCall → List PortEvent
  | .returns c => c.events record
  | .left c answered exc => (c.events record).take answered ++
      ((c.events record)[answered]?.map fun e => (⟨e.action, .error exc⟩ : PortEvent)).toList

/-- The caller of a call that is left still has the record that it gave. -/
def deliveryStep (record : DeliveryRecord) : DeliveryCall → DeliveryRecord
  | .returns c => reconcileStep record c
  | .left .. => record

/-- The events of a sequence of calls, each on the record that the last one to return has returned. -/
def deliveryEvents : DeliveryRecord → List DeliveryCall → List PortEvent
  | _, [] => []
  | record, d :: calls => d.events record ++ deliveryEvents (deliveryStep record d) calls

/-! ## Effects and probes -/

namespace PortEvent

def isEffect (e : PortEvent) : Bool :=
  match e.action with
  | .start .. | .signal .. | .handleDelivery _ => true
  | .findByRunId _ | .getStatus _ => false

/-- The request ended with an error of `ambiguity=True`, raised or returned. -/
def endsAmbiguous : PortEvent → Bool
  | ⟨.start .., .error exc⟩ => (normalizeException exc).ambiguity
  | ⟨.signal .., .error exc⟩ => (normalizeException exc).ambiguity
  | ⟨.signal .., .ok res⟩ => res.error.any CanonicalError.ambiguity
  | ⟨.handleDelivery _, .error exc⟩ => (normalizeException exc).ambiguity
  | ⟨.handleDelivery _, .ok answer⟩ => answer.2.any CanonicalError.ambiguity
  | _ => false

/-- An ambiguous error that is returned as a value, by a signal or handler that has not delivered. -/
def returnsAmbiguous : PortEvent → Bool
  | ⟨.signal .., .ok res⟩ =>
    (res.outcome ≠ .delivered && res.outcome ≠ .duplicateIgnored) && res.error.any CanonicalError.ambiguity
  | ⟨.handleDelivery _, .ok answer⟩ => !answer.1 && answer.2.any CanonicalError.ambiguity
  | _ => false

def startedRun (e : PortEvent) : Option RunId :=
  match e.action with
  | .start runId .. => some runId
  | _ => none

end PortEvent

def ReportsAbsent (runId : RunId) (es : List PortEvent) : Prop :=
  [(⟨.findByRunId runId, .ok none⟩ : PortEvent)].Sublist es ∨
    ∃ ref res error, [(⟨.findByRunId runId, .ok (some ref)⟩ : PortEvent), ⟨.getStatus ref, .ok res⟩].Sublist es ∧
      res.error = some error ∧ error.category = .notFound

/-- A probe has reported that the very Run which the request started has no execution. -/
def AbsentFor (e : PortEvent) (es : List PortEvent) : Prop := ∃ runId, e.startedRun = some runId ∧ ReportsAbsent runId es

/-- No effect of `es` comes before such a probe. -/
def Guards (e : PortEvent) (es : List PortEvent) : Prop :=
  ∀ between e' after, es = between ++ e' :: after → e'.isEffect = true → AbsentFor e between

/-- After an effect that ended ambiguously there is no other one before such a probe. -/
def NoBlindReplay (es : List PortEvent) : Prop :=
  ∀ before e after, es = before ++ e :: after → e.isEffect = true → e.endsAmbiguous = true → Guards e after

theorem ReportsAbsent.mono {runId : RunId} {es es' : List PortEvent} (h : ReportsAbsent runId es)
    (hsub : es.Sublist es') : ReportsAbsent runId es' := by
  rcases h with h | ⟨ref, res, error, h, herror, hcategory⟩
  · exact .inl (h.trans hsub)
  · exact .inr ⟨ref, res, error, h.trans hsub, herror, hcategory⟩

theorem AbsentFor.mono {e : PortEvent} {es es' : List PortEvent} (h : AbsentFor e es) (hsub : es.Sublist es') :
    AbsentFor e es' := by
  obtain ⟨runId, hrun, habsent⟩ := h
  exact ⟨runId, hrun, habsent.mono hsub⟩

theorem guards_nil (e : PortEvent) : Guards e [] := by
  intro between e' after h
  cases between <;> cases h

theorem append_split {α : Type} {xs ys before after : List α} {a : α} (h : xs ++ ys = before ++ a :: after) :
    (∃ rest, xs = before ++ a :: rest ∧ after = rest ++ ys) ∨ ∃ rest, before = xs ++ rest ∧ ys = rest ++ a :: after := by
  rcases List.append_eq_append_iff.mp h with ⟨mid, hbefore, hys⟩ | ⟨mid, hxs, hafter⟩
  · exact .inr ⟨mid, hbefore, hys⟩
  · cases mid with
    | nil =>
      rw [List.nil_append] at hafter
      exact .inr ⟨[], by rw [List.append_nil]; rw [List.append_nil] at hxs; exact hxs.symm, hafter.symm⟩
    | cons b mid =>
      rw [List.cons_append, List.cons.injEq] at hafter
      exact .inl ⟨mid, by rw [hxs, hafter.1], hafter.2⟩

theorem Guards.append {e : PortEvent} {es es' : List PortEvent} (h : Guards e es)
    (h' : AbsentFor e es ∨ Guards e es') : Guards e (es ++ es') := by
  intro between e' after hsplit heffect
  rcases append_split hsplit with ⟨rest, hes, _⟩ | ⟨rest, hbetween, hes'⟩
  · exact h between e' rest hes heffect
  · rw [hbetween]
    rcases h' with habsent | hguards
    · exact habsent.mono (List.sublist_append_left es rest)
    · exact (hguards rest e' after hes' heffect).mono (List.sublist_append_right es rest)

/-- A call with the events `es` that leaves no effect unknown without saying so. -/
structure CarefulWith (record : DeliveryRecord) (c : ReconcileCall) (es : List PortEvent) : Prop where
  /-- an ambiguous error is returned at the last attempt only -/
  returned : ∀ e ∈ es, e.returnsAmbiguous = true → lastAttempt record = true
  /-- a start that ends ambiguously is of a Run that can be asked for -/
  named : ∀ e ∈ es, e.endsAmbiguous = true → e.startedRun = some (dispatchedRun record) →
    (record.subjectRefs.get? "run_id").isSome = true
  /-- a status that is neither absent nor unreachable is live or completed, or the attempt is the last -/
  found : ∀ ref res, (⟨.getStatus ref, .ok res⟩ : PortEvent) ∈ es →
    (∃ error, res.error = some error ∧ (error.category = .notFound ∨ error.category = .unavailable)) ∨
      (res.state = .running ∨ res.state = .waiting ∨ res.state = .completed) ∨ lastAttempt record = true
  /-- the clock does not go back to before the end of a record that was found expired -/
  clock : record.isExpired record.updatedAt = true → record.isExpired c.now = true

/-- A call that is left must not be left by an effect that may have happened. -/
def Careful (record : DeliveryRecord) : DeliveryCall → Prop
  | .returns c => CarefulWith record c (c.events record)
  | .left c answered exc => (record.isExpired record.updatedAt = true → record.isExpired c.now = true) ∧
      ∀ e ∈ (DeliveryCall.left c answered exc).events record, e.isEffect = true → e.endsAmbiguous = false

/-- The record stands in the way of another effect before a probe for the given one. -/
def Blocks (record : DeliveryRecord) (e : PortEvent) : Prop :=
  record.isTerminal = true ∨
  (record.maxAttempts ≤ record.attempts ∧ record.status ≠ .ambiguous) ∨
  (record.status = .ambiguous ∧ (record.kind = .runStart → e.startedRun = some (probedRun record))) ∨
  record.isExpired record.updatedAt = true

variable {record result : DeliveryRecord} {c : ReconcileCall} {es : List PortEvent} {e : PortEvent} {now : Datetime}

theorem lastAttempt_le (h : lastAttempt record = true) : record.maxAttempts ≤ record.attempts + 1 := by
  simpa only [lastAttempt, ge_iff_le, decide_eq_true_eq] using h

variable {error : Option CanonicalError}

theorem blocks_terminal {status : DeliveryStatus} {deliveredAt : Option Datetime}
    (made : ℕ) (h : status ∈ terminalDeliveryStatuses) : Blocks (record.next made status error deliveredAt now) e :=
  .inl (decide_eq_true h)

theorem blocks_failed (h : lastAttempt record = true) : Blocks (record.next 1 .failed error none now) e := by
  right
  left
  refine ⟨lastAttempt_le h, ?_⟩
  change DeliveryStatus.failed ≠ .ambiguous
  decide

theorem blocks_stillUnknown (h : record.kind = .runStart → e.startedRun = some (probedRun record)) :
    Blocks (record.next 1 (stillUnknown record) error none now) e := by
  unfold stillUnknown
  split
  · exact blocks_terminal 1 (by decide)
  · exact .inr (.inr (.inl ⟨rfl, h⟩))

theorem blocks_expired (error : Option CanonicalError) (h : record.isExpired c.now = true) :
    Blocks (record.next 0 .failed error none c.now) e :=
  .inr (.inr (.inr h))

/-! ## One call on a record that blocks -/

variable {r : Except Raised DeliveryRecord}

theorem guards_started {pre : List PortEvent} (h : StartEnds record now es r)
    (hpre : ∀ x ∈ pre, x.isEffect = false) (habsent : AbsentFor e pre) : Guards e (pre ++ es) := by
  have hsingle : ∃ x, es = [x] := by
    cases h with
    | ok ref => exact ⟨_, rfl⟩
    | raised exc => exact ⟨_, rfl⟩
  obtain ⟨x, rfl⟩ := hsingle
  intro between e' after hsplit heffect
  rcases append_split hsplit with ⟨rest, hpre', _⟩ | ⟨rest, hbetween, hrest⟩
  · have hnot := hpre e' (by rw [hpre']; simp)
    rw [hnot] at heffect
    cases heffect
  · rw [hbetween]
    exact habsent.mono (List.sublist_append_left pre rest)

theorem guards_of_no_effect (h : ∀ x ∈ es, x.isEffect = false) : Guards e es := by
  intro between e' after hsplit heffect
  have hnot := h e' (by rw [hsplit]; simp)
  rw [hnot] at heffect
  cases heffect

theorem absentFor_find (hrun : e.startedRun = some (probedRun record)) :
    AbsentFor e [⟨.findByRunId (probedRun record), .ok none⟩] :=
  ⟨_, hrun, .inl (List.Sublist.refl _)⟩

theorem absentFor_status {ref : ExecutionRef} {res : ExecutionStatusResult} {error : CanonicalError}
    (herror : res.error = some error) (hcategory : error.category = .notFound)
    (hrun : e.startedRun = some (probedRun record)) :
    AbsentFor e [⟨.findByRunId (probedRun record), .ok (some ref)⟩, ⟨.getStatus ref, .ok res⟩] :=
  ⟨_, hrun, .inr ⟨ref, res, error, List.Sublist.refl _, herror, hcategory⟩⟩

/-- A probe of the Run that the request started. -/
theorem guards_probe (h : ProbeEnds record now es r) (hrun : e.startedRun = some (probedRun record)) : Guards e es := by
  cases h with
  | absent h => exact guards_started h (by simp [PortEvent.isEffect]) (absentFor_find hrun)
  | gone ref res error herror hcategory h =>
    exact guards_started h (by simp [PortEvent.isEffect]) (absentFor_status herror hcategory hrun)
  | _ => exact guards_of_no_effect (by simp [PortEvent.isEffect])

theorem blocked_probe (h : ProbeEnds record now es r)
    (hrun : e.startedRun = some (probedRun record)) (hcareful : CarefulWith record c es) :
    AbsentFor e es ∨ Blocks (settleProbe record now r) e := by
  cases h with
  | findRaised exc => exact .inr (blocks_stillUnknown fun _ => hrun)
  | absent h => exact .inl ((absentFor_find hrun).mono (List.sublist_append_left [_] _))
  | statusRaised ref exc => exact .inr (blocks_stillUnknown fun _ => hrun)
  | gone ref res error herror hcategory h =>
    exact .inl ((absentFor_status herror hcategory hrun).mono (List.sublist_append_left [_, _] _))
  | unreachable ref res error herror hcategory => exact .inr (blocks_stillUnknown fun _ => hrun)
  | found ref res hcategory =>
    right
    change Blocks (executionFound record now res) e
    unfold executionFound
    rcases hcareful.found ref res (by simp) with ⟨error, herror, hor⟩ | hlive | hlast
    · obtain ⟨hpresent, hreachable⟩ := hcategory error herror
      rcases hor with h | h
      · exact absurd h hpresent
      · exact absurd h hreachable
    · rw [if_pos hlive]
      exact blocks_terminal 1 (by decide)
    · split
      · exact blocks_terminal 1 (by decide)
      · exact blocks_failed hlast

/-- An open record that is not found expired blocks because it is full or to be probed. -/
theorem Blocks.of_open (hblocks : Blocks record e) (hopen : record.isTerminal = false)
    (hvalid : record.isExpired c.now = false)
    (hclock : record.isExpired record.updatedAt = true → record.isExpired c.now = true) :
    (record.maxAttempts ≤ record.attempts ∧ record.status ≠ .ambiguous) ∨
      (record.status = .ambiguous ∧ (record.kind = .runStart → e.startedRun = some (probedRun record))) := by
  rcases hblocks with hterminal | hfull | hambiguous | hexpired
  · rw [hopen] at hterminal
    cases hterminal
  · exact .inl hfull
  · exact .inr hambiguous
  · have hnow := hclock hexpired
    rw [hvalid] at hnow
    cases hnow

/-- A record that blocks asks for no effect before the probe. -/
theorem guards_step (h : Reconciled record c es result) (hblocks : Blocks record e)
    (hclock : record.isExpired record.updatedAt = true → record.isExpired c.now = true) : Guards e es := by
  cases h with
  | dispatched hopen hvalid hstatus hattempts h =>
    -- a record that is dispatched blocks nothing
    exfalso
    rcases hblocks.of_open hopen hvalid hclock with ⟨hfull, _⟩ | ⟨hambiguous, _⟩
    · omega
    · exact hstatus hambiguous
  | probed now hopen hvalid hstatus hkind h =>
    rcases hblocks.of_open hopen hvalid hclock with ⟨_, hnot⟩ | ⟨_, hrun⟩
    · exact absurd hstatus hnot
    · exact guards_probe h (hrun hkind)
  | _ => exact guards_nil e

/-- And it blocks until then. -/
theorem blocked_step (h : Reconciled record c es result) (hblocks : Blocks record e) (hcareful : CarefulWith record c es) :
    AbsentFor e es ∨ Blocks result e := by
  cases h with
  | terminal h => exact .inr (.inl h)
  | expired hopen h => exact .inr (blocks_expired _ h)
  | exhausted hopen hvalid hstatus h => exact .inr (blocks_terminal 0 (by decide))
  | unprobed now hopen hvalid hstatus hkind => exact .inr (blocks_terminal 1 (by decide))
  | dispatched hopen hvalid hstatus hattempts h =>
    exfalso
    rcases hblocks.of_open hopen hvalid hcareful.clock with ⟨hfull, _⟩ | ⟨hambiguous, _⟩
    · omega
    · exact hstatus hambiguous
  | probed now hopen hvalid hstatus hkind h =>
    rcases hblocks.of_open hopen hvalid hcareful.clock with ⟨_, hnot⟩ | ⟨_, hrun⟩
    · exact absurd hstatus hnot
    · exact blocked_probe h (hrun hkind) hcareful

/-- A call that is left has made the requests of the call up to there. -/
theorem guards_left (h : Guards e (c.events record)) (answered : ℕ) (exc : Raised) :
    Guards e ((DeliveryCall.left c answered exc).events record) := by
  intro between e' after hsplit heffect
  have hfull := (List.take_append_drop answered (c.events record)).symm
  rcases append_split hsplit with ⟨rest, htake, _⟩ | ⟨rest, hbetween, hlast⟩
  · refine h between e' (rest ++ (c.events record).drop answered) ?_ heffect
    rw [htake, List.append_assoc, List.cons_append] at hfull
    exact hfull
  · cases hget : (c.events record)[answered]? with
    | none =>
      rw [hget] at hlast
      cases rest <;> cases hlast
    | some x =>
      rw [hget] at hlast
      cases rest with
      | cons y rest => cases rest <;> cases hlast
      | nil =>
        cases hlast
        obtain ⟨hlt, hx⟩ := List.getElem?_eq_some_iff.mp hget
        rw [List.drop_eq_getElem_cons hlt, hx] at hfull
        rw [hbetween, List.append_nil]
        exact h _ x _ hfull heffect

/-! ## The effect of a call -/

theorem last_effect {probes before after : List PortEvent} {x : PortEvent} (hprobes : ∀ y ∈ probes, y.isEffect = false)
    (hsplit : probes ++ [x] = before ++ e :: after) (heffect : e.isEffect = true) : e = x ∧ after = [] := by
  rcases append_split hsplit with ⟨rest, hin, _⟩ | ⟨rest, _, hlast⟩
  · have hnot := hprobes e (by rw [hin]; simp)
    rw [hnot] at heffect
    cases heffect
  · cases rest with
    | nil =>
      cases hlast
      exact ⟨rfl, rfl⟩
    | cons y rest =>
      rw [List.cons_append, List.cons.injEq] at hlast
      cases rest <;> cases hlast.2

theorem startedRun_eq_probed (hcareful : CarefulWith record c es) (hmem : e ∈ es) (hambiguous : e.endsAmbiguous = true)
    (hrun : e.startedRun = some (dispatchedRun record)) : e.startedRun = some (probedRun record) := by
  have hnamed := hcareful.named e hmem hambiguous hrun
  obtain ⟨runId, hget⟩ := Option.isSome_iff_exists.mp hnamed
  rw [hrun]
  unfold dispatchedRun probedRun
  rw [hget]
  rfl

variable {before after : List PortEvent}

theorem blocks_started (probes : List PortEvent) (settle : Except Raised DeliveryRecord → DeliveryRecord) (h : StartEnds record now es r) (hcareful : CarefulWith record c (probes ++ es))
    (hprobes : ∀ y ∈ probes, y.isEffect = false)
    (hraised : ∀ exc, e.startedRun = some (probedRun record) → (normalizeException exc).ambiguity = true →
      Blocks (settle (.error exc)) e) (hsplit : probes ++ es = before ++ e :: after) (heffect : e.isEffect = true) :
    after = [] ∧ (e.endsAmbiguous = true → Blocks (settle r) e) := by
  cases h with
  | ok ref =>
    obtain ⟨rfl, hafter⟩ := last_effect hprobes hsplit heffect
    exact ⟨hafter, fun hambiguous => absurd hambiguous Bool.false_ne_true⟩
  | raised exc =>
    obtain ⟨rfl, hafter⟩ := last_effect hprobes hsplit heffect
    refine ⟨hafter, ?_⟩
    intro hambiguous
    exact hraised exc (startedRun_eq_probed hcareful (by simp) hambiguous rfl) hambiguous

theorem blocks_dispatchRaised {exc : Raised} (hambiguous : (normalizeException exc).ambiguity = true)
    (h : record.kind = .runStart → e.startedRun = some (probedRun record)) : Blocks (dispatchRaised record now exc) e := by
  unfold dispatchRaised
  dsimp only
  split
  · exact blocks_terminal 1 (by decide)
  · exact .inr (.inr (.inl ⟨rfl, h⟩))

theorem effect_dispatched (h : DispatchEnds record c.reconciler now es r)
    (hcareful : CarefulWith record c es) (hsplit : es = before ++ e :: after) (heffect : e.isEffect = true) :
    after = [] ∧ (e.endsAmbiguous = true → Blocks (settleDispatch record now r) e) := by
  have hnone : ∀ y ∈ ([] : List PortEvent), y.isEffect = false := fun _ hy => absurd hy List.not_mem_nil
  cases h with
  | run hkind h =>
    apply blocks_started [] (settleDispatch record now) h hcareful hnone _ hsplit heffect
    intro exc hrun hambiguous
    exact blocks_dispatchRaised hambiguous fun _ => hrun
  | badRef text hkind => cases before <;> cases hsplit
  | signalled ref res hkind hres =>
    obtain ⟨rfl, hafter⟩ := last_effect hnone hsplit heffect
    exact ⟨hafter, fun _ => blocks_terminal 1 (by decide)⟩
  | refused ref res hkind hres =>
    obtain ⟨rfl, hafter⟩ := last_effect hnone hsplit heffect
    refine ⟨hafter, ?_⟩
    intro hambiguous
    apply blocks_failed
    apply hcareful.returned _ List.mem_cons_self
    rw [not_or] at hres
    simpa [PortEvent.returnsAmbiguous, PortEvent.endsAmbiguous, signalRequest, hres.1, hres.2] using hambiguous
  | signalRaised ref exc hkind =>
    obtain ⟨rfl, hafter⟩ := last_effect hnone hsplit heffect
    refine ⟨hafter, ?_⟩
    intro hambiguous
    apply blocks_dispatchRaised hambiguous
    intro hstart
    rw [hkind] at hstart
    cases hstart
  | handled error hkind hhandles =>
    obtain ⟨rfl, hafter⟩ := last_effect hnone hsplit heffect
    exact ⟨hafter, fun _ => blocks_terminal 1 (by decide)⟩
  | handlerFailed error hkind hhandles =>
    obtain ⟨rfl, hafter⟩ := last_effect hnone hsplit heffect
    refine ⟨hafter, ?_⟩
    intro hambiguous
    apply blocks_failed
    apply hcareful.returned _ List.mem_cons_self
    simpa [PortEvent.returnsAmbiguous, PortEvent.endsAmbiguous] using hambiguous
  | handlerRaised exc hkind hhandles =>
    obtain ⟨rfl, hafter⟩ := last_effect hnone hsplit heffect
    refine ⟨hafter, ?_⟩
    intro hambiguous
    apply blocks_dispatchRaised hambiguous
    exact fun hstart => absurd hstart hkind
  | unsupported => cases before <;> cases hsplit

theorem effect_probed (h : ProbeEnds record now es r)
    (hcareful : CarefulWith record c es) (hsplit : es = before ++ e :: after)
    (heffect : e.isEffect = true) : after = [] ∧ (e.endsAmbiguous = true → Blocks (settleProbe record now r) e) := by
  have hprobe : (∀ y ∈ es, y.isEffect = false) → False := by
    intro hes
    have hnot := hes e (by rw [hsplit]; simp)
    rw [hnot] at heffect
    cases heffect
  cases h with
  | findRaised exc => exact absurd (by simp [PortEvent.isEffect]) hprobe
  | absent h =>
    apply blocks_started [_] (settleProbe record now) h hcareful (by simp [PortEvent.isEffect]) _
      hsplit heffect
    intro exc hrun _
    exact blocks_stillUnknown fun _ => hrun
  | statusRaised ref exc => exact absurd (by simp [PortEvent.isEffect]) hprobe
  | gone ref res error herror hcategory h =>
    apply blocks_started [_, _] (settleProbe record now) h hcareful
      (by simp [PortEvent.isEffect]) _ hsplit heffect
    intro exc hrun _
    exact blocks_stillUnknown fun _ => hrun
  | unreachable ref res error herror hcategory => exact absurd (by simp [PortEvent.isEffect]) hprobe
  | found ref res hcategory => exact absurd (by simp [PortEvent.isEffect]) hprobe

theorem effect_step (h : Reconciled record c es result) (hcareful : CarefulWith record c es) (hsplit : es = before ++ e :: after) (heffect : e.isEffect = true) :
    after = [] ∧ (e.endsAmbiguous = true → Blocks result e) := by
  cases h with
  | dispatched hopen hvalid hstatus hattempts h => exact effect_dispatched h hcareful hsplit heffect
  | probed now hopen hvalid hstatus hkind h => exact effect_probed h hcareful hsplit heffect
  | _ => cases before <;> cases hsplit

theorem guards_run (calls : List DeliveryCall) (hblocks : Blocks record e)
    (hcareful : EveryStep deliveryStep Careful record calls) : Guards e (deliveryEvents record calls) := by
  induction calls generalizing record with
  | nil => exact guards_nil e
  | cons d calls ih =>
    obtain ⟨hd, htail⟩ := everyStep_cons.mp hcareful
    cases d with
    | returns c =>
      have hguards := guards_step (reconciled record c) hblocks hd.clock
      rcases blocked_step (reconciled record c) hblocks hd with habsent | hnext
      · exact hguards.append (.inl habsent)
      · exact hguards.append (.inr (ih hnext htail))
    | left c answered exc =>
      have hguards := guards_left (guards_step (reconciled record c) hblocks hd.1) answered exc
      exact hguards.append (.inr (ih hblocks htail))

/-- Careful calls never repeat an effect whose outcome is unknown. -/
theorem noBlindReplay_of_careful (record : DeliveryRecord) (calls : List DeliveryCall)
    (hcareful : EveryStep deliveryStep Careful record calls) :
    NoBlindReplay (deliveryEvents record calls) := by
  induction calls generalizing record with
  | nil =>
    intro before e after hsplit
    cases before <;> cases hsplit
  | cons d calls ih =>
    obtain ⟨hd, htail⟩ := everyStep_cons.mp hcareful
    intro before e after hsplit heffect hambiguous
    rcases append_split hsplit with ⟨rest, hin, hafter⟩ | ⟨rest, _, hin⟩
    · cases d with
      | returns c =>
        obtain ⟨rfl, hblocks⟩ := effect_step (reconciled record c) hd hin heffect
        rw [hafter]
        exact guards_run calls (hblocks hambiguous) htail
      | left c answered exc =>
        have hnot := hd.2 e (by rw [hin]; simp) heffect
        rw [hambiguous] at hnot
        cases hnot
    · exact ih (deliveryStep record d) htail rest e after hin heffect hambiguous

/-- A QUESTION_SIGNAL record for the execution `exec_1`. -/
def signalRecord : DeliveryRecord :=
  { runStartRecord 0 with kind := .questionSignal, subjectRefs := InsertionDict.empty.set "execution_id" "exec_1" }

theorem execId_nonempty : PyText.isBlank "exec_1" = false := by decide

theorem execVersion_pos : (1 : ℤ) ≤ 1 := le_refl 1

def execRef : ExecutionRef := ⟨"k", "exec_1", 1, 0, [], sampleKey_nonempty, execId_nonempty, execVersion_pos⟩

/-- A signal that is answered with NOT_FOUND and an ambiguous error, as after a lost connection. -/
def lostSignal : ReconcileCall where
  reconciler := plainReconciler
  env := frozenSupply
  port
    | .signal .. => .ok ⟨.notFound, some (normalizeException timedOut)⟩
    | _ => .error timedOut

/-- The signal ends with an ambiguous error, and the next call sends it again. -/
theorem signal_replayed : ¬NoBlindReplay (deliveryEvents signalRecord [.returns lostSignal, .returns lostSignal]) := by
  intro h
  let e : PortEvent := ⟨signalRequest signalRecord execRef, .ok ⟨.notFound, some (normalizeException timedOut)⟩⟩
  have hevents : deliveryEvents signalRecord [.returns lostSignal, .returns lostSignal] = [e, e] := by rfl
  rw [hevents] at h
  obtain ⟨runId, hrun, _⟩ := h [] e [e] rfl rfl (by decide) [] e [] rfl rfl
  cases hrun

def absentThenStarted : ReconcileCall where
  reconciler := plainReconciler
  env := frozenSupply
  port
    | .start .. => .ok execRef
    | .findByRunId _ => .ok none
    | _ => .error timedOut

def cancelled : Raised := { type := ⟨"CancelledError", []⟩, text := "" }

/-- A start that times out is repeated after a probe; a first probe is cancelled. -/
theorem noBlindReplay_of_timedOut : NoBlindReplay (deliveryEvents (runStartRecord 0)
      [.returns (raisingCall timedOut), .left absentThenStarted 0 cancelled, .returns absentThenStarted]) := by
  apply noBlindReplay_of_careful
  have hfirst : (raisingCall timedOut).events (runStartRecord 0) =
      [⟨startRequest (runStartRecord 0), .error timedOut⟩] := by rfl
  have hlater : absentThenStarted.events (reconcileStep (runStartRecord 0) (raisingCall timedOut)) =
      [⟨.findByRunId ⟨"run_1"⟩, .ok none⟩, ⟨startRequest (runStartRecord 0), .ok execRef⟩] := by rfl
  simp only [everyStep_cons, deliveryStep, Careful, DeliveryCall.events, hfirst, hlater]
  refine ⟨?_, ⟨by decide, ?_⟩, ?_, MachineRuns.everyStep_nil⟩
  · constructor
    · simp [PortEvent.returnsAmbiguous, startRequest]
    · exact fun _ _ _ _ => rfl
    · simp [startRequest]
    · decide
  · simp [PortEvent.isEffect]
  · constructor
    · simp [PortEvent.returnsAmbiguous, startRequest]
    · simp [PortEvent.endsAmbiguous, startRequest]
    · simp [startRequest]
    · decide

end AllTomorrow
