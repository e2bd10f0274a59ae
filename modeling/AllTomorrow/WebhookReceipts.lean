import AllTomorrow.DomainRecords
import AllTomorrow.MachineRuns
import Mathlib.Data.Fintype.EquivFin
import Mathlib.Data.Int.ConditionallyCompleteOrder
import Mathlib.Data.Rat.Lemmas

/-!
# Webhooks

`WebhookReceiver` of `watchers.py`. The signature is that of the body alone. The time window and the set of nonces
read values that it does not cover, which a caller chooses freely.
-/

namespace AllTomorrow.Watchers

/-- A `datetime`, with a time zone or without, by its microseconds. -/
inductive WebhookTime where
  | aware (micros : ℤ)
  | naive (micros : ℤ)
  deriving DecidableEq

/-- `now - timestamp` -/
def WebhookTime.sub : WebhookTime → WebhookTime → Except Exn ℤ
  | .aware a, .aware b | .naive a, .naive b => .ok (a - b)
  | _, _ => .error (.foreign "TypeError" "can't subtract offset-naive and offset-aware datetimes")

@[simp] theorem WebhookTime.sub_self (t : WebhookTime) : t.sub t = .ok 0 := by cases t <;> simp [sub]

structure WebhookReceiver where
  secret : String
  maxBodyBytes : ℤ := 65536
  replayWindow : ℤ := 300000000
  seenNonces : Finset String := ∅

/-- The arguments of a call; `now` is the argument or the reading of the clock. -/
structure WebhookCall where
  body : List UInt8
  signature : String
  nonce : String
  timestamp : WebhookTime
  contentType : String := "application/json"
  now : WebhookTime

def webhookError (message : String) : Exn := .foreign "WebhookError" message

/-- `hmac.compare_digest` on texts. -/
def compareDigest (a b : String) : Except Exn Bool :=
  if (a.toList ++ b.toList).all fun c => c.toNat < 128 then .ok (a = b)
  else .error (.foreign "TypeError" "comparing strings with non-ASCII characters is not supported")

/-- `total_seconds()` of a number of microseconds, which rounds to a `float` and keeps the order. -/
structure TotalSeconds where
  of : ℤ → ℚ
  mono : Monotone of

/-! ## The receiver

`hexdigest` is HMAC-SHA256 in hexadecimal digits. -/

variable (hexdigest : List UInt8 → List UInt8 → String) (totalSeconds : TotalSeconds)

namespace WebhookReceiver

def verify (r : WebhookReceiver) (c : WebhookCall) : Except Exn Unit := do
  if (c.body.length : ℤ) > r.maxBodyBytes then
    throw (webhookError "body too large")
  if c.contentType ≠ "application/json" then
    throw (webhookError "unsupported content type")
  let same ← compareDigest (hexdigest r.secret.toUTF8.data.toList c.body) c.signature
  if !same then
    throw (webhookError "bad signature")
  let age ← c.now.sub c.timestamp
  if totalSeconds.of age.natAbs > totalSeconds.of r.replayWindow then
    throw (webhookError "timestamp outside replay window")

def verifyAndAccept (r : WebhookReceiver) (c : WebhookCall) : Except Exn Bool × WebhookReceiver :=
  match r.verify hexdigest totalSeconds c with
  | .error e => (.error e, r)
  | .ok () =>
    if c.nonce ∈ r.seenNonces then (.ok false, r)
    else (.ok true, { r with seenNonces := insert c.nonce r.seenNonces })

/-- The receiver accepts the call. -/
def Accepts (r : WebhookReceiver) (c : WebhookCall) : Prop :=
  (r.verifyAndAccept hexdigest totalSeconds c).1 = .ok true

def step (r : WebhookReceiver) (c : WebhookCall) : WebhookReceiver := (r.verifyAndAccept hexdigest totalSeconds c).2

/-- Once the receiver has accepted a body with a signature, it accepts the two with no other nonce or timestamp. -/
def RefusesReplays (r : WebhookReceiver) : Prop :=
  ∀ c between c', r.Accepts hexdigest totalSeconds c → c'.body = c.body → c'.signature = c.signature →
    (c'.nonce ≠ c.nonce ∨ c'.timestamp ≠ c.timestamp) →
    ¬(MachineRuns.run (step hexdigest totalSeconds) r (c :: between)).Accepts hexdigest totalSeconds c'

variable {hexdigest totalSeconds} {r : WebhookReceiver}

/-- The parts of a call that `verify` looks at, one after the other. -/
theorem verify_iff (c : WebhookCall) : r.verify hexdigest totalSeconds c = .ok () ↔
      ((c.body.length : ℤ) ≤ r.maxBodyBytes ∧ c.contentType = "application/json" ∧
          compareDigest (hexdigest r.secret.toUTF8.data.toList c.body) c.signature = .ok true) ∧
        ∃ age, c.now.sub c.timestamp = .ok age ∧ totalSeconds.of age.natAbs ≤ totalSeconds.of r.replayWindow := by
  unfold verify
  by_cases hlength : (c.body.length : ℤ) ≤ r.maxBodyBytes
  · by_cases htype : c.contentType = "application/json"
    · cases hdigest : compareDigest (hexdigest r.secret.toUTF8.data.toList c.body) c.signature with
      | error e => simp [hlength, not_lt.mpr hlength, htype, bind, Except.bind]
      | ok same =>
        cases same with
        | false => simp [hlength, not_lt.mpr hlength, htype, bind, Except.bind, throw, throwThe, MonadExceptOf.throw]
        | true =>
          cases hage : c.now.sub c.timestamp with
          | error e => simp [hlength, not_lt.mpr hlength, htype, bind, Except.bind]
          | ok age =>
            by_cases hwindow : totalSeconds.of |age| ≤ totalSeconds.of r.replayWindow
            · simp [hlength, not_lt.mpr hlength, htype, hwindow, not_lt.mpr hwindow, bind, Except.bind, pure, Except.pure]
            · simp [hlength, not_lt.mpr hlength, htype, hwindow, not_le.mp hwindow, bind, Except.bind, throw, throwThe,
                MonadExceptOf.throw]
    · simp [hlength, not_lt.mpr hlength, htype, bind, Except.bind, throw, throwThe, MonadExceptOf.throw]
  · simp [hlength, not_le.mp hlength, bind, Except.bind, throw, throwThe, MonadExceptOf.throw]

theorem accepts_iff (c : WebhookCall) :
    r.Accepts hexdigest totalSeconds c ↔ r.verify hexdigest totalSeconds c = .ok () ∧ c.nonce ∉ r.seenNonces := by
  unfold Accepts verifyAndAccept
  cases r.verify hexdigest totalSeconds c with
  | error e => simp
  | ok u => by_cases hseen : c.nonce ∈ r.seenNonces <;> simp [hseen]

theorem step_settings (c : WebhookCall) : ∃ nonces, r.step hexdigest totalSeconds c = { r with seenNonces := nonces } := by
  unfold step verifyAndAccept
  cases r.verify hexdigest totalSeconds c with
  | error e => exact ⟨r.seenNonces, rfl⟩
  | ok u =>
    by_cases hseen : c.nonce ∈ r.seenNonces
    · exact ⟨r.seenNonces, by simp [hseen]⟩
    · exact ⟨insert c.nonce r.seenNonces, by simp [hseen]⟩

theorem run_settings (calls : List WebhookCall) :
    ∃ nonces, MachineRuns.run (step hexdigest totalSeconds) r calls = { r with seenNonces := nonces } := by
  refine MachineRuns.invariant_run (I := fun t : WebhookReceiver => ∃ nonces, t = { r with seenNonces := nonces }) ?_ ⟨r.seenNonces, rfl⟩ calls
  rintro _ c ⟨nonces, rfl⟩
  exact step_settings c

theorem verify_again {c : WebhookCall} (h : r.verify hexdigest totalSeconds c = .ok ()) (nonces : Finset String)
    (nonce : String) (now : WebhookTime) :
    { r with seenNonces := nonces }.verify hexdigest totalSeconds { c with nonce, timestamp := now, now } = .ok () := by
  obtain ⟨hfixed, age, _, hwindow⟩ := (verify_iff c).mp h
  refine (verify_iff _).mpr ⟨hfixed, 0, now.sub_self, ?_⟩
  exact (totalSeconds.mono (Int.natCast_nonneg _)).trans hwindow

/-- After any further calls and at any time, a body that was accepted is accepted again with its signature. -/
theorem replay_accepted {c : WebhookCall} (h : r.Accepts hexdigest totalSeconds c) (between : List WebhookCall)
    (now : WebhookTime) :
    ∃ c', c'.body = c.body ∧ c'.signature = c.signature ∧ c'.nonce ≠ c.nonce ∧ c'.now = now ∧
      (MachineRuns.run (step hexdigest totalSeconds) r (c :: between)).Accepts hexdigest totalSeconds c' := by
  obtain ⟨nonces, hrun⟩ := @run_settings hexdigest totalSeconds r (c :: between)
  obtain ⟨nonce, hfresh⟩ := Infinite.exists_notMem_finset (insert c.nonce nonces)
  rw [Finset.mem_insert, not_or] at hfresh
  refine ⟨{ c with nonce, timestamp := now, now }, rfl, rfl, hfresh.1, rfl, ?_⟩
  rw [hrun, accepts_iff]
  exact ⟨verify_again ((accepts_iff c).mp h).1 nonces nonce now, hfresh.2⟩

/-! One signed body, and the same a day later. -/

def wholeSeconds : TotalSeconds where
  of n := n / 1000000
  mono := by
    intro a b h
    have hcast : (a : ℚ) ≤ b := by exact_mod_cast h
    exact div_le_div_of_nonneg_right hcast (by norm_num)

def bracesDigest : String := "adbde1ce40c89c14215687d5d762a47df6dfaefcfad61e2e86718ffc8498571b"

def signedReceiver : WebhookReceiver := { secret := "s3cret" }

def signedCall : WebhookCall where
  body := [0x7b, 0x7d]
  signature := bracesDigest
  nonce := "n1"
  timestamp := .aware 0
  now := .aware 0

theorem accepts_signedCall : signedReceiver.Accepts (fun _ _ => bracesDigest) wholeSeconds signedCall := by
  refine (accepts_iff _).mpr ⟨(verify_iff _).mpr ⟨⟨by decide, rfl, by decide +kernel⟩, 0, rfl, ?_⟩, by simp [signedReceiver]⟩
  exact wholeSeconds.mono (by decide)

theorem replay_accepted_signedCall :
    ∃ c' : WebhookCall, c'.body = signedCall.body ∧ c'.signature = signedCall.signature ∧ c'.nonce ≠ signedCall.nonce ∧
      c'.now = .aware 86400000000 ∧
      (MachineRuns.run (step (fun _ _ => bracesDigest) wholeSeconds) signedReceiver [signedCall]).Accepts
        (fun _ _ => bracesDigest) wholeSeconds c' :=
  replay_accepted accepts_signedCall [] (.aware 86400000000)

def replayedCall : WebhookCall :=
  { signedCall with nonce := "n2", timestamp := .aware 86400000000, now := .aware 86400000000 }

theorem signedReceiver_not_refusesReplays :
    ¬signedReceiver.RefusesReplays (fun _ _ => bracesDigest) wholeSeconds := by
  intro h
  refine h signedCall [] replayedCall accepts_signedCall rfl rfl (.inl (by decide)) ?_
  obtain ⟨hverify, hfresh⟩ := (accepts_iff _).mp accepts_signedCall
  have hstep : step (fun _ _ => bracesDigest) wholeSeconds signedReceiver signedCall =
      { signedReceiver with seenNonces := insert signedCall.nonce signedReceiver.seenNonces } := by
    rw [step, verifyAndAccept, hverify]
    simp only [hfresh, if_false]
  rw [MachineRuns.run_cons, MachineRuns.run_nil, hstep]
  exact (accepts_iff _).mpr ⟨verify_again hverify _ "n2" (.aware 86400000000), by decide⟩

end WebhookReceiver

end AllTomorrow.Watchers
