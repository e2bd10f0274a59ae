import AllTomorrow.DeliveryReconciler
import AllTomorrow.MachineRuns

/-!
# Runs of the reconciler

A record goes through one `reconcile` call after the other. Within one call no request is
made twice, so what the port and the handlers do in a call is a function of the request;
from call to call it may be any other one. Every call is one of the cases of `Reconciled`.
-/

namespace AllTomorrow

open DeliveryReconciler Prog

structure PortEvent where
  action : DeliveryAction
  answer : action.Answer

/-- One call: the reconciler, its readings of the clock and what the port and the handlers answer. -/
structure ReconcileCall where
  reconciler : DeliveryReconciler
  env : Supply
  port : (a : DeliveryAction) → a.Answer

namespace ReconcileCall

def now (c : ReconcileCall) : Datetime := (c.env.sub 0).utcNow

def logged (c : ReconcileCall) : Handler DeliveryAction DeliveryAction.Answer (List PortEvent) :=
  fun a log => (c.port a, log ++ [⟨a, c.port a⟩])

def events (c : ReconcileCall) (record : DeliveryRecord) : List PortEvent :=
  ((c.reconciler.reconcile c.env record).eval c.logged []).2

def result (c : ReconcileCall) (record : DeliveryRecord) : DeliveryRecord :=
  ((c.reconciler.reconcile c.env record).eval c.logged []).1

end ReconcileCall

def reconcileStep (record : DeliveryRecord) (c : ReconcileCall) : DeliveryRecord := c.result record

section Cases

variable (record : DeliveryRecord)

/-- The request of `_dispatch_run_start`. -/
def startRequest : DeliveryAction :=
  .start (dispatchedRun record) ((record.payload.get? "workflow_name").getD (.str "default_workflow"))
    ((record.payload.get? "workflow_payload").getD (.dict [])) record.idempotencyKey

/-- The request of `_dispatch_question_signal`. -/
def signalRequest (ref : ExecutionRef) : DeliveryAction :=
  .signal ref ((record.payload.get? "signal_name").getD (.str "user_answer"))
    ((record.subjectRefs.get? "signal_id").getD record.idempotencyKey)
    ((record.payload.get? "signal_payload").getD (.dict []))

/-- `_dispatch_run_start`: the request, and what comes of it. -/
inductive StartEnds (now : Datetime) : List PortEvent → Except Raised DeliveryRecord → Prop
  | ok (ref : ExecutionRef) :
      StartEnds now [⟨startRequest record, .ok ref⟩] (.ok (record.next 1 .delivered none (some now) now))
  | raised (exc : Raised) : StartEnds now [⟨startRequest record, .error exc⟩] (.error exc)

/-- The body of the `try` in `reconcile`. -/
inductive DispatchEnds (reconciler : DeliveryReconciler) (now : Datetime) :
    List PortEvent → Except Raised DeliveryRecord → Prop
  | run {es : List PortEvent} {r : Except Raised DeliveryRecord} (hkind : record.kind = .runStart)
      (h : StartEnds record now es r) : DispatchEnds reconciler now es r
  | badRef (text : String) (hkind : record.kind = .questionSignal) : DispatchEnds reconciler now [] (.error (.valueError text))
  | signalled (ref : ExecutionRef) (res : SignalResult) (hkind : record.kind = .questionSignal)
      (hres : res.outcome = .delivered ∨ res.outcome = .duplicateIgnored) :
      DispatchEnds reconciler now [⟨signalRequest record ref, .ok res⟩] (.ok (record.next 1 .delivered none (some now) now))
  | refused (ref : ExecutionRef) (res : SignalResult) (hkind : record.kind = .questionSignal)
      (hres : ¬(res.outcome = .delivered ∨ res.outcome = .duplicateIgnored)) :
      DispatchEnds reconciler now [⟨signalRequest record ref, .ok res⟩] (.ok (record.next 1 .failed res.error none now))
  | signalRaised (ref : ExecutionRef) (exc : Raised) (hkind : record.kind = .questionSignal) :
      DispatchEnds reconciler now [⟨signalRequest record ref, .error exc⟩] (.error exc)
  | handled (error : Option CanonicalError) (hkind : record.kind ≠ .runStart)
      (hhandles : reconciler.handles record.kind = true) :
      DispatchEnds reconciler now [⟨.handleDelivery record, .ok (true, error)⟩]
        (.ok (record.next 1 .delivered error (some now) now))
  | handlerFailed (error : Option CanonicalError) (hkind : record.kind ≠ .runStart)
      (hhandles : reconciler.handles record.kind = true) :
      DispatchEnds reconciler now [⟨.handleDelivery record, .ok (false, error)⟩] (.ok (record.next 1 .failed error none now))
  | handlerRaised (exc : Raised) (hkind : record.kind ≠ .runStart)
      (hhandles : reconciler.handles record.kind = true) :
      DispatchEnds reconciler now [⟨.handleDelivery record, .error exc⟩] (.error exc)
  | unsupported : DispatchEnds reconciler now [] (.ok (record.next 1 .failed (some (unsupportedKind record)) none now))

/-- The body of the `try` in `_reconcile_ambiguous`. -/
inductive ProbeEnds (now : Datetime) : List PortEvent → Except Raised DeliveryRecord → Prop
  | findRaised (exc : Raised) : ProbeEnds now [⟨.findByRunId (probedRun record), .error exc⟩] (.error exc)
  | absent {es : List PortEvent} {r : Except Raised DeliveryRecord} (h : StartEnds record now es r) :
      ProbeEnds now (⟨.findByRunId (probedRun record), .ok none⟩ :: es) r
  | statusRaised (ref : ExecutionRef) (exc : Raised) :
      ProbeEnds now [⟨.findByRunId (probedRun record), .ok (some ref)⟩, ⟨.getStatus ref, .error exc⟩] (.error exc)
  | gone {es : List PortEvent} {r : Except Raised DeliveryRecord} (ref : ExecutionRef) (res : ExecutionStatusResult)
      (error : CanonicalError) (herror : res.error = some error) (hcategory : error.category = .notFound)
      (h : StartEnds record now es r) :
      ProbeEnds now (⟨.findByRunId (probedRun record), .ok (some ref)⟩ :: ⟨.getStatus ref, .ok res⟩ :: es) r
  | unreachable (ref : ExecutionRef) (res : ExecutionStatusResult) (error : CanonicalError)
      (herror : res.error = some error) (hcategory : error.category = .unavailable) :
      ProbeEnds now [⟨.findByRunId (probedRun record), .ok (some ref)⟩, ⟨.getStatus ref, .ok res⟩]
        (.ok (record.next 1 (stillUnknown record) (some error) none now))
  | found (ref : ExecutionRef) (res : ExecutionStatusResult)
      (hcategory : ∀ error, res.error = some error → error.category ≠ .notFound ∧ error.category ≠ .unavailable) :
      ProbeEnds now [⟨.findByRunId (probedRun record), .ok (some ref)⟩, ⟨.getStatus ref, .ok res⟩]
        (.ok (executionFound record now res))

/-- What follows the `try` in `reconcile`. -/
def settleDispatch (now : Datetime) : Except Raised DeliveryRecord → DeliveryRecord
  | .ok result => result
  | .error exc => dispatchRaised record now exc

/-- What follows the `try` in `_reconcile_ambiguous`. -/
def settleProbe (now : Datetime) : Except Raised DeliveryRecord → DeliveryRecord
  | .ok result => result
  | .error exc => record.next 1 (stillUnknown record) (some (normalizeException exc)) none now

/-- Everything that one call of `reconcile` can do. -/
inductive Reconciled (c : ReconcileCall) : List PortEvent → DeliveryRecord → Prop
  | terminal (h : record.isTerminal = true) : Reconciled c [] record
  | expired (hopen : record.isTerminal = false) (h : record.isExpired c.now = true) :
      Reconciled c [] (record.next 0 .failed (some (c.reconciler.ttlExpired record)) none c.now)
  | exhausted (hopen : record.isTerminal = false) (hvalid : record.isExpired c.now = false)
      (hstatus : record.status ≠ .ambiguous) (h : record.maxAttempts < record.attempts + 1) :
      Reconciled c [] (record.next 0 .repairRequired record.lastError none c.now)
  | dispatched {es : List PortEvent} {r : Except Raised DeliveryRecord} (hopen : record.isTerminal = false)
      (hvalid : record.isExpired c.now = false) (hstatus : record.status ≠ .ambiguous)
      (hattempts : record.attempts + 1 ≤ record.maxAttempts) (h : DispatchEnds record c.reconciler c.now es r) :
      Reconciled c es (settleDispatch record c.now r)
  | probed {es : List PortEvent} {r : Except Raised DeliveryRecord} (now : Datetime) (hopen : record.isTerminal = false)
      (hvalid : record.isExpired c.now = false) (hstatus : record.status = .ambiguous) (hkind : record.kind = .runStart)
      (h : ProbeEnds record now es r) : Reconciled c es (settleProbe record now r)
  | unprobed (now : Datetime) (hopen : record.isTerminal = false) (hvalid : record.isExpired c.now = false)
      (hstatus : record.status = .ambiguous) (hkind : record.kind ≠ .runStart) :
      Reconciled c [] (record.next 1 .repairRequired (some (cannotProbe record)) none now)

end Cases

/-! ## Every call is one of the cases -/

variable {record : DeliveryRecord} {c : ReconcileCall} {now : Datetime}

/-- Whatever is answered, the task makes the requests and ends as `P` says. -/
def Yields {α : Type} (c : ReconcileCall) (x : DeliveryTask α) (P : List PortEvent → Except Raised α → Prop) : Prop :=
  ∀ log, ∃ es r, evalTask c.logged x log = (r, log ++ es) ∧ P es r

theorem yields_pure {α : Type} {a : α} {P : List PortEvent → Except Raised α → Prop} (h : P [] (.ok a)) :
    Yields c (pure a) P := by
  intro log
  exact ⟨[], .ok a, by rw [List.append_nil]; rfl, h⟩

theorem yields_await {α : Type} {a : DeliveryAction} {f : a.Value → DeliveryTask α}
    {P : List PortEvent → Except Raised α → Prop} (hok : ∀ v, Yields c (f v) fun es r => P (⟨a, .ok v⟩ :: es) r)
    (hraised : ∀ exc, P [⟨a, .error exc⟩] (.error exc)) : Yields c (a.await >>= f) P := by
  intro log
  have hawait : evalTask c.logged a.await log = (c.port a, log ++ [⟨a, c.port a⟩]) := rfl
  cases hanswer : c.port a with
  | ok v =>
    rw [hanswer] at hawait
    obtain ⟨es, r, hrest, hP⟩ := hok v (log ++ [⟨a, .ok v⟩])
    refine ⟨⟨a, .ok v⟩ :: es, r, ?_, hP⟩
    rw [evalTask_bind_ok hawait, hrest, List.append_assoc, List.singleton_append]
  | error exc =>
    rw [hanswer] at hawait
    exact ⟨[⟨a, .error exc⟩], .error exc, evalTask_bind_error hawait f, hraised exc⟩

theorem yields_dispatchRunStart (record : DeliveryRecord) (now : Datetime) :
    Yields c (dispatchRunStart record now) (StartEnds record now) := by
  apply yields_await
  · intro ref
    exact yields_pure (.ok ref)
  · exact .raised

theorem Yields.mono {α : Type} {x : DeliveryTask α} {P Q : List PortEvent → Except Raised α → Prop}
    (h : Yields c x P) (hPQ : ∀ es r, P es r → Q es r) : Yields c x Q := by
  intro log
  obtain ⟨es, r, heval, hP⟩ := h log
  exact ⟨es, r, heval, hPQ es r hP⟩

theorem yields_dispatchQuestionSignal (env : Supply) (now : Datetime) (hkind : record.kind = .questionSignal) :
    Yields c (dispatchQuestionSignal env record now) (DispatchEnds record c.reconciler now) := by
  unfold dispatchQuestionSignal
  cases href : signalRef env record with
  | error exc =>
    -- the reference is rejected by its constructor before the port is asked
    intro log
    have hvalue : ∃ text, exc = .valueError text := by
      unfold signalRef at href
      split at href
      · cases href
      · cases href
        exact ⟨_, rfl⟩
    obtain ⟨text, rfl⟩ := hvalue
    exact ⟨[], .error (.valueError text), by rw [List.append_nil]; rfl, .badRef text hkind⟩
  | ok ref =>
    have hsignal : Yields c (do
        let sigRes ← (signalRequest record ref).await
        if sigRes.outcome = .delivered ∨ sigRes.outcome = .duplicateIgnored then
          return record.next 1 .delivered none (some now) now
        else return record.next 1 .failed sigRes.error none now) (DispatchEnds record c.reconciler now) := by
      apply yields_await
      · intro res
        split
        · next hres => exact yields_pure (.signalled ref res hkind hres)
        · next hres => exact yields_pure (.refused ref res hkind hres)
      · exact fun exc => .signalRaised ref exc hkind
    exact hsignal

theorem yields_handler (c : ReconcileCall) (now : Datetime) (hkind : record.kind ≠ .runStart) :
    Yields c (if c.reconciler.handles record.kind then do
        let answer ← (DeliveryAction.handleDelivery record).await
        if answer.1 then return record.next 1 .delivered answer.2 (some now) now
        else return record.next 1 .failed answer.2 none now
      else return record.next 1 .failed (some (unsupportedKind record)) none now)
      (DispatchEnds record c.reconciler now) := by
  split
  · next hhandles =>
    apply yields_await
    · rintro ⟨success, error⟩
      cases success with
      | true => exact yields_pure (.handled error hkind hhandles)
      | false => exact yields_pure (.handlerFailed error hkind hhandles)
    · exact fun exc => .handlerRaised exc hkind hhandles
  · exact yields_pure .unsupported

theorem yields_dispatch (record : DeliveryRecord) (env : Supply) (now : Datetime) :
    Yields c (c.reconciler.dispatch env record now) (DispatchEnds record c.reconciler now) := by
  have hhandler : record.kind ≠ .runStart → _ := yields_handler c now
  unfold dispatch
  cases hkind : record.kind with
  | runStart => exact (yields_dispatchRunStart record now).mono fun _ _ h => .run hkind h
  | questionSignal => exact yields_dispatchQuestionSignal env now hkind
  | _ =>
    rw [hkind] at hhandler
    exact hhandler (by decide)

theorem yields_probe (record : DeliveryRecord) (now : Datetime) : Yields c (probe record now) (ProbeEnds record now) := by
  apply yields_await
  · intro found
    cases found with
    | none => exact (yields_dispatchRunStart record now).mono fun _ _ h => .absent h
    | some ref =>
      apply yields_await
      · intro result
        cases herror : result.error with
        | none =>
          apply yields_pure
          apply ProbeEnds.found ref result
          intro error h
          rw [herror] at h
          cases h
        | some error =>
          dsimp only
          split
          · next hcategory =>
            exact (yields_dispatchRunStart record now).mono fun _ _ h => .gone ref result error herror hcategory h
          · next hpresent =>
            split
            · next hcategory => exact yields_pure (.unreachable ref result error herror hcategory)
            · next hcategory =>
              apply yields_pure
              apply ProbeEnds.found ref result
              intro e h
              rw [herror] at h
              cases h
              exact ⟨hpresent, hcategory⟩
      · exact .statusRaised ref
  · exact .findRaised

theorem eval_bind_task {α β : Type} {x : DeliveryTask α} {f : Except Raised α → DeliveryProg β} {log : List PortEvent}
    {es : List PortEvent} {r : Except Raised α} (h : evalTask c.logged x log = (r, log ++ es)) :
    (x.run >>= f).eval c.logged log = (f r).eval c.logged (log ++ es) := by
  have hrun : x.run.eval c.logged log = (r, log ++ es) := h
  rw [eval_bind, hrun]

/-- Every call of `reconcile` is one of the cases. -/
theorem reconciled (record : DeliveryRecord) (c : ReconcileCall) : Reconciled record c (c.events record) (c.result record) := by
  unfold ReconcileCall.events ReconcileCall.result reconcile
  split
  · next h => exact .terminal h
  · next hopen =>
    rw [Bool.not_eq_true] at hopen
    dsimp only
    split
    · next h => exact .expired hopen h
    · next hvalid =>
      rw [Bool.not_eq_true] at hvalid
      split
      · next hstatus =>
        unfold reconcileAmbiguous
        dsimp only
        split
        · next hkind =>
          obtain ⟨es, r, heval, hends⟩ := yields_probe record (c.env.sub 1).utcNow []
          rw [eval_bind_task heval]
          cases r with
          | ok result => exact .probed _ hopen hvalid hstatus hkind hends
          | error exc => exact .probed _ hopen hvalid hstatus hkind hends
        · next hkind => exact .unprobed _ hopen hvalid hstatus hkind
      · next hstatus =>
        split
        · next h => exact .exhausted hopen hvalid hstatus h
        · next hattempts =>
          obtain ⟨es, r, heval, hends⟩ := yields_dispatch (c := c) record (c.env.sub 1) (c.env.sub 0).utcNow []
          rw [eval_bind_task heval]
          cases r with
          | ok result => exact .dispatched hopen hvalid hstatus (by omega) hends
          | error exc => exact .dispatched hopen hvalid hstatus (by omega) hends

end AllTomorrow
