import AllTomorrow.RaisingState
import AllTomorrow.InsertionDict
import AllTomorrow.MachineRuns
import AllTomorrow.DomainRecords
import Mathlib.Data.Finset.Insert

/-!
# Outbound messages

`OutboundStore` checks the policy of a message when it is enqueued and attempts the delivery at any
later time. What its operations keep, and which enqueues and deliveries respect the user.
-/

namespace AllTomorrow.Outbound

open InsertionDict (get?_set_cases get?_set_of_ne get?_set_self)

open EStateM MachineRuns

inductive DeliveryStatus where
  | pending | delivered | failed
  | suppressed
  deriving DecidableEq, Repr

structure OutboundDelivery where
  deliveryId : String
  channel : String
  recipientId : String
  idempotencyKey : String
  payloadRef : String
  sensitive : Bool := false
  status : DeliveryStatus := .pending
  receipt : Option String := none
  attempts : ℤ := 0
  createdAt : Datetime
  deriving DecidableEq

structure OutboundStore where
  byId : InsertionDict String OutboundDelivery
  byKey : InsertionDict String String
  optedOut : Finset (String × String)
  sensitiveChannels : Finset String

abbrev OutboundM := EStateM Exn OutboundStore

namespace OutboundStore

def init : OutboundStore := ⟨.empty, .empty, ∅, ∅⟩

def allowSensitive (channel : String) : OutboundM Unit :=
  modify fun s => { s with sensitiveChannels := insert channel s.sensitiveChannels }

def optOut (recipientId channel : String) : OutboundM Unit :=
  modify fun s => { s with optedOut := insert (recipientId, channel) s.optedOut }

def admitted (s : OutboundStore) (d : OutboundDelivery) : OutboundDelivery :=
  if (d.recipientId, d.channel) ∈ s.optedOut then { d with status := .suppressed }
  else if d.sensitive = true ∧ d.channel ∉ s.sensitiveChannels then { d with status := .suppressed }
  else d

/-- `self._by_id[delivery_id]`. -/
def lookup (deliveryId : String) : OutboundM OutboundDelivery := do
  match (← get).byId.get? deliveryId with
  | none => throw (.keyError deliveryId)
  | some d => return d

def enqueue (d : OutboundDelivery) : OutboundM OutboundDelivery := do
  let s ← get
  match s.byKey.get? d.idempotencyKey with
  | some existingId => lookup existingId
  | none =>
    let d := s.admitted d
    modify fun s => { s with byId := s.byId.set d.deliveryId d, byKey := s.byKey.set d.idempotencyKey d.deliveryId }
    return d

def deliver (env : Supply) (deliveryId : String) (transportOk : Bool) : OutboundM OutboundDelivery := do
  let d ← lookup deliveryId
  if d.status = .delivered ∨ d.status = .suppressed then
    return d
  else
    let attempts := d.attempts + 1
    let updated : OutboundDelivery :=
      if transportOk then { d with status := .delivered, receipt := some (env.newId "rcpt"), attempts := attempts }
      else { d with status := .failed, attempts := attempts }
    modify fun s => { s with byId := s.byId.set deliveryId updated }
    return updated

end OutboundStore

/-! ## Calls -/

inductive OutboundOp where
  | enqueue (d : OutboundDelivery)
  | deliver (deliveryId : String) (transportOk : Bool)
  | optOut (recipientId channel : String)
  | allowSensitive (channel : String)
  | read

structure OutboundCall where
  op : OutboundOp
  env : Supply

def OutboundStore.step (s : OutboundStore) (c : OutboundCall) : OutboundStore :=
  match c.op with
  | .enqueue d => (enqueue d s).state
  | .deliver deliveryId transportOk => (deliver c.env deliveryId transportOk s).state
  | .optOut recipientId channel => (optOut recipientId channel s).state
  | .allowSensitive channel => (allowSensitive channel s).state
  | .read => s

/-- The call makes the record of `k` a delivered one. -/
def Delivers (s : OutboundStore) (c : OutboundCall) (k : String) (d : OutboundDelivery) : Prop :=
  (s.step c).byId.get? k = some d ∧ d.status = .delivered ∧ s.byId.get? k ≠ some d

/-- What the call delivers respects opt-outs, sensitivity and keys. -/
structure Respectful (s : OutboundStore) (c : OutboundCall) : Prop where
  optedOut : ∀ k d, Delivers s c k d → (d.recipientId, d.channel) ∉ s.optedOut
  sensitive : ∀ k d, Delivers s c k d → d.sensitive = true → d.channel ∈ s.sensitiveChannels
  oncePerKey : ∀ k d, Delivers s c k d → ∀ k' d', s.byId.get? k' = some d' → d'.status = .delivered →
    d'.idempotencyKey ≠ d.idempotencyKey
  kept : ∀ k d, s.byId.get? k = some d → d.status = .delivered → (s.step c).byId.get? k = some d

/-- What a call must respect: a new message replaces none that was delivered, and a message goes out only to a recipient
who has not opted out meanwhile. -/
def Careful (s : OutboundStore) (c : OutboundCall) : Prop :=
  match c.op with
  | .enqueue d => s.byKey.get? d.idempotencyKey = none →
      ∀ old, s.byId.get? d.deliveryId = some old → old.status ≠ .delivered
  | .deliver deliveryId true => ∀ d, s.byId.get? deliveryId = some d → d.status = .pending ∨ d.status = .failed →
      (d.recipientId, d.channel) ∉ s.optedOut
  | .deliver _ false | .optOut _ _ | .allowSensitive _ | .read => True

/-! ## What holds in every state -/

structure Sound (s : OutboundStore) : Prop where
  keyed : ∀ k d, s.byId.get? k = some d → s.byKey.get? d.idempotencyKey = some k
  allowed : ∀ k d, s.byId.get? k = some d → d.status ≠ .suppressed → d.status ≠ .delivered → d.sensitive = true →
    d.channel ∈ s.sensitiveChannels

section Steps

variable {s : OutboundStore} {env : Supply} (d : OutboundDelivery)

theorem admitted_fields : (s.admitted d).deliveryId = d.deliveryId ∧ (s.admitted d).idempotencyKey = d.idempotencyKey ∧
      (s.admitted d).recipientId = d.recipientId ∧ (s.admitted d).channel = d.channel ∧
      (s.admitted d).sensitive = d.sensitive := by
  unfold OutboundStore.admitted
  split
  · exact ⟨rfl, rfl, rfl, rfl, rfl⟩
  · split <;> exact ⟨rfl, rfl, rfl, rfl, rfl⟩

theorem admitted_allowed {d : OutboundDelivery} (h : (s.admitted d).status ≠ .suppressed) :
    (d.recipientId, d.channel) ∉ s.optedOut ∧ (d.sensitive = true → d.channel ∈ s.sensitiveChannels) := by
  unfold OutboundStore.admitted at h
  split at h
  · exact absurd rfl h
  · rename_i hopted
    split at h
    · exact absurd rfl h
    · rename_i hsensitive
      exact ⟨hopted, fun hs => not_not.mp fun hc => hsensitive ⟨hs, hc⟩⟩

variable (deliveryId : String)

theorem ends_lookup : Ends (OutboundStore.lookup deliveryId) s (fun d s' => s' = s ∧ s.byId.get? deliveryId = some d)
      fun _ s' => s' = s ∧ s.byId.get? deliveryId = none := by
  unfold OutboundStore.lookup
  refine ends_get_bind ?_
  cases s.byId.get? deliveryId with
  | none => exact ends_throw ⟨rfl, rfl⟩
  | some d => exact ends_pure ⟨rfl, rfl⟩

theorem enqueue_state : (OutboundStore.enqueue d s).state =
    match s.byKey.get? d.idempotencyKey with
    | some _ => s
    | none => { s with
        byId := s.byId.set d.deliveryId (s.admitted d), byKey := s.byKey.set d.idempotencyKey d.deliveryId } := by
  refine Ends.state (P := fun s' => s' = _) ?_
  unfold OutboundStore.enqueue
  refine ends_get_bind ?_
  cases hkey : s.byKey.get? d.idempotencyKey with
  | some existingId => exact (ends_lookup existingId).mono (fun _ _ h => h.1) fun _ _ h => h.1
  | none =>
    obtain ⟨hid, hkey, -⟩ := admitted_fields (s := s) d
    refine ends_modify_bind (ends_pure ?_)
    rw [hid, hkey]

def attempted (env : Supply) (d : OutboundDelivery) (transportOk : Bool) : OutboundDelivery :=
  if transportOk then { d with status := .delivered, receipt := some (env.newId "rcpt"), attempts := d.attempts + 1 }
  else { d with status := .failed, attempts := d.attempts + 1 }

theorem attempted_fields (env : Supply) (d : OutboundDelivery) (transportOk : Bool) :
    (attempted env d transportOk).idempotencyKey = d.idempotencyKey ∧
      (attempted env d transportOk).recipientId = d.recipientId ∧ (attempted env d transportOk).channel = d.channel ∧
      (attempted env d transportOk).sensitive = d.sensitive ∧
      (attempted env d transportOk).status = if transportOk then .delivered else .failed := by
  cases transportOk <;> exact ⟨rfl, rfl, rfl, rfl, rfl⟩

theorem deliver_state (transportOk : Bool) : (OutboundStore.deliver env deliveryId transportOk s).state =
    match s.byId.get? deliveryId with
    | none => s
    | some d => if d.status = .delivered ∨ d.status = .suppressed then s
      else { s with byId := s.byId.set deliveryId (attempted env d transportOk) } := by
  refine Ends.state (P := fun s' => s' = _) ?_
  unfold OutboundStore.deliver
  refine Ends.bind ((ends_lookup deliveryId).mono (fun _ _ h => h) ?_) ?_
  · rintro _ s ⟨rfl, hnone⟩
    rw [hnone]
  · rintro d s ⟨rfl, hget⟩
    rw [hget]
    refine ends_ite (fun h => ends_pure ?_) fun h => ends_modify_bind (ends_pure ?_)
    · dsimp only
      rw [if_pos h]
    · dsimp only
      rw [if_neg h]
      rfl

theorem sound_init : Sound .init where
  keyed := fun _ _ h => by cases h
  allowed := fun _ _ h => by cases h

theorem Sound.set (h : Sound s) {k : String} {d : OutboundDelivery} {byKey : InsertionDict String String}
    (hkey : byKey.get? d.idempotencyKey = some k)
    (hkept : ∀ k' d', k' ≠ k → s.byId.get? k' = some d' → byKey.get? d'.idempotencyKey = some k')
    (hallowed : d.status ≠ .suppressed → d.status ≠ .delivered → d.sensitive = true → d.channel ∈ s.sensitiveChannels) :
    Sound { s with byId := s.byId.set k d, byKey := byKey } where
  keyed := by
    intro k' d' hget
    rcases get?_set_cases s.byId k d k' with ⟨rfl, hk⟩ | ⟨hne, hk⟩
    · cases hk.symm.trans hget
      exact hkey
    · exact hkept k' d' hne (hk ▸ hget)
  allowed := by
    intro k' d' hget
    rcases get?_set_cases s.byId k d k' with ⟨rfl, hk⟩ | ⟨hne, hk⟩
    · cases hk.symm.trans hget
      exact hallowed
    · exact h.allowed k' d' (hk ▸ hget)

theorem sound_step (h : Sound s) (c : OutboundCall) : Sound (s.step c) := by
  obtain ⟨op, env⟩ := c
  cases op with
  | enqueue d =>
    change Sound (OutboundStore.enqueue d s).state
    rw [enqueue_state]
    cases hkey : s.byKey.get? d.idempotencyKey with
    | some existingId => exact h
    | none =>
      obtain ⟨-, hsame, -⟩ := admitted_fields (s := s) d
      refine h.set ?_ (fun k' d' hne hget => ?_) fun hsuppressed _ hsensitive => ?_
      · rw [hsame]
        exact get?_set_self _ _ _
      · have hold := h.keyed k' d' hget
        rw [get?_set_of_ne, hold]
        intro heq
        rw [heq, hkey] at hold
        cases hold
      · obtain ⟨-, -, -, hchannel, hfield⟩ := admitted_fields (s := s) d
        rw [hchannel]
        exact (admitted_allowed hsuppressed).2 (hfield ▸ hsensitive)
  | deliver deliveryId transportOk =>
    change Sound (OutboundStore.deliver env deliveryId transportOk s).state
    rw [deliver_state]
    cases hget : s.byId.get? deliveryId with
    | none => exact h
    | some d =>
      dsimp only
      split
      · exact h
      · rename_i hopen
        rw [not_or] at hopen
        obtain ⟨hkey, -, hchannel, hsensitive, -⟩ := attempted_fields env d transportOk
        refine h.set (hkey ▸ h.keyed deliveryId d hget) (fun k' d' _ hget' => h.keyed k' d' hget') fun _ _ hs => ?_
        rw [hchannel]
        exact h.allowed deliveryId d hget hopen.2 hopen.1 (hsensitive ▸ hs)
  | optOut recipientId channel => exact ⟨h.keyed, h.allowed⟩
  | allowSensitive channel =>
    refine ⟨h.keyed, fun k d hget hsuppressed hdelivered hsensitive => ?_⟩
    exact Finset.mem_insert_of_mem (h.allowed k d hget hsuppressed hdelivered hsensitive)
  | read => exact h

theorem respectful_of_same {c : OutboundCall} (hsame : (s.step c).byId = s.byId) : Respectful s c := by
  have hnone (k : String) (d : OutboundDelivery) : ¬Delivers s c k d := by
    rintro ⟨hget, -, hnew⟩
    rw [hsame] at hget
    exact hnew hget
  exact ⟨fun k d h => absurd h (hnone k d), fun k d h => absurd h (hnone k d), fun k d h => absurd h (hnone k d),
    fun k d hget _ => hsame ▸ hget⟩

theorem respectful_enqueue_iff (h : Sound s) (d : OutboundDelivery) :
    Respectful s ⟨.enqueue d, env⟩ ↔ Careful s ⟨.enqueue d, env⟩ := by
  have hstep : s.step ⟨.enqueue d, env⟩ = _ := enqueue_state d
  cases hkey : s.byKey.get? d.idempotencyKey with
  | some existingId =>
    rw [hkey] at hstep
    refine ⟨fun _ hnone => ?_, fun _ => respectful_of_same (by rw [hstep])⟩
    rw [hkey] at hnone
    cases hnone
  | none =>
    rw [hkey] at hstep
    obtain ⟨-, hsame, hrecipient, hchannel, hsensitive⟩ := admitted_fields (s := s) d
    have hget (k : String) : (s.step ⟨.enqueue d, env⟩).byId.get? k = (s.byId.set d.deliveryId (s.admitted d)).get? k := by
      rw [hstep]
    constructor
    · intro hrespectful _ old hold hdelivered
      have hkept := hrespectful.kept _ old hold hdelivered
      rw [hget, get?_set_self] at hkept
      have hused := h.keyed _ old hold
      rw [← Option.some.inj hkept, hsame, hkey] at hused
      cases hused
    · intro hcareful
      have hdelivers (k : String) (d' : OutboundDelivery) (hd : Delivers s ⟨.enqueue d, env⟩ k d') : d' = s.admitted d := by
        obtain ⟨hafter, -, hnew⟩ := hd
        rw [hget] at hafter
        rcases get?_set_cases s.byId d.deliveryId (s.admitted d) k with ⟨-, hk⟩ | ⟨-, hk⟩
        · exact Option.some.inj (hafter.symm.trans hk)
        · exact absurd (hk.symm.trans hafter) hnew
      refine ⟨fun k d' hd => ?_, fun k d' hd hs => ?_, fun k d' hd k' old hold _ => ?_, fun k old hold hdelivered => ?_⟩
      · have hstatus := hd.2.1
        rw [hdelivers k d' hd] at hstatus ⊢
        rw [hrecipient, hchannel]
        exact (admitted_allowed (by rw [hstatus]; decide)).1
      · have hstatus := hd.2.1
        rw [hdelivers k d' hd] at hstatus hs ⊢
        rw [hchannel]
        exact (admitted_allowed (by rw [hstatus]; decide)).2 (hsensitive ▸ hs)
      · rw [hdelivers k d' hd, hsame]
        intro heq
        have hused := h.keyed k' old hold
        rw [heq, hkey] at hused
        cases hused
      · rw [hget]
        refine (get?_set_of_ne _ _ ?_).trans hold
        rintro rfl
        exact hcareful hkey old hold hdelivered

theorem respectful_deliver_iff (h : Sound s) (deliveryId : String) (transportOk : Bool) :
    Respectful s ⟨.deliver deliveryId transportOk, env⟩ ↔ Careful s ⟨.deliver deliveryId transportOk, env⟩ := by
  have hstep : s.step ⟨.deliver deliveryId transportOk, env⟩ = _ := deliver_state deliveryId transportOk
  by_cases hopen : ∃ d, s.byId.get? deliveryId = some d ∧ ¬(d.status = .delivered ∨ d.status = .suppressed)
  · obtain ⟨d, hd, hstatus⟩ := hopen
    rw [hd] at hstep
    dsimp only at hstep
    rw [if_neg hstatus] at hstep
    rw [not_or] at hstatus
    obtain ⟨hkey, hrecipient, hchannel, hsensitive, hafter⟩ := attempted_fields env d transportOk
    have hget (k : String) : (s.step ⟨.deliver deliveryId transportOk, env⟩).byId.get? k =
        (s.byId.set deliveryId (attempted env d transportOk)).get? k := by rw [hstep]
    have hdelivers (k : String) (d' : OutboundDelivery) (hd' : Delivers s ⟨.deliver deliveryId transportOk, env⟩ k d') :
        d' = attempted env d transportOk ∧ transportOk = true := by
      obtain ⟨hafter', hdelivered, hnew⟩ := hd'
      rw [hget] at hafter'
      rcases get?_set_cases s.byId deliveryId (attempted env d transportOk) k with ⟨-, hk⟩ | ⟨-, hk⟩
      · have heq := Option.some.inj (hafter'.symm.trans hk)
        refine ⟨heq, ?_⟩
        rw [heq, hafter] at hdelivered
        by_contra hfailed
        rw [if_neg hfailed] at hdelivered
        cases hdelivered
      · exact absurd (hk.symm.trans hafter') hnew
    have hcareful : Careful s ⟨.deliver deliveryId transportOk, env⟩ ↔
        (transportOk = true → (d.recipientId, d.channel) ∉ s.optedOut) := by
      cases transportOk with
      | false => exact ⟨fun _ h => (by cases h), fun _ => trivial⟩
      | true =>
        refine ⟨fun hc _ => hc d hd ?_, fun hc d' hd' _ => ?_⟩
        · cases hs : d.status with
          | pending => exact .inl rfl
          | failed => exact .inr rfl
          | delivered => exact absurd hs hstatus.1
          | suppressed => exact absurd hs hstatus.2
        · cases hd.symm.trans hd'
          exact hc rfl
    rw [hcareful]
    constructor
    · rintro hrespectful rfl
      have hopted := hrespectful.optedOut deliveryId (attempted env d true) ⟨?_, rfl, ?_⟩
      · rwa [hrecipient, hchannel] at hopted
      · rw [hget]
        exact get?_set_self _ _ _
      · rw [hd]
        intro heq
        exact hstatus.1 (congrArg OutboundDelivery.status (Option.some.inj heq))
    · intro hc
      refine ⟨fun k d' hd' => ?_, fun k d' hd' hs => ?_, fun k d' hd' k' old hold hdelivered => ?_,
        fun k old hold hdelivered => ?_⟩
      · obtain ⟨rfl, hok⟩ := hdelivers k d' hd'
        rw [hrecipient, hchannel]
        exact hc hok
      · obtain ⟨rfl, -⟩ := hdelivers k d' hd'
        rw [hchannel]
        exact h.allowed deliveryId d hd hstatus.2 hstatus.1 (hsensitive ▸ hs)
      · obtain ⟨rfl, -⟩ := hdelivers k d' hd'
        rw [hkey]
        intro heq
        have hsame := h.keyed k' old hold
        rw [heq, h.keyed deliveryId d hd] at hsame
        cases hsame
        cases hd.symm.trans hold
        exact hstatus.1 hdelivered
      · rw [hget]
        refine (get?_set_of_ne _ _ ?_).trans hold
        rintro rfl
        cases hd.symm.trans hold
        exact hstatus.1 hdelivered
  · have hsame : (s.step ⟨.deliver deliveryId transportOk, env⟩).byId = s.byId := by
      rw [hstep]
      cases hd : s.byId.get? deliveryId with
      | none => rfl
      | some d =>
        dsimp only
        rw [if_pos (not_not.mp fun hstatus => hopen ⟨d, hd, hstatus⟩)]
    refine ⟨fun _ => ?_, fun _ => respectful_of_same hsame⟩
    cases transportOk with
    | false => trivial
    | true =>
      intro d hd hstatus
      refine absurd ⟨d, hd, fun hclosed => ?_⟩ hopen
      rcases hstatus with hs | hs <;> rcases hclosed with hs' | hs' <;> rw [hs] at hs' <;> cases hs'

theorem respectful_iff_careful (h : Sound s) (c : OutboundCall) : Respectful s c ↔ Careful s c := by
  obtain ⟨op, env⟩ := c
  cases op with
  | enqueue d => exact respectful_enqueue_iff h d
  | deliver deliveryId transportOk => exact respectful_deliver_iff h deliveryId transportOk
  | optOut recipientId channel => exact ⟨fun _ => trivial, fun _ => respectful_of_same rfl⟩
  | allowSensitive channel => exact ⟨fun _ => trivial, fun _ => respectful_of_same rfl⟩
  | read => exact ⟨fun _ => trivial, fun _ => respectful_of_same rfl⟩

end Steps

/-- A run respects the user exactly if each of its calls is careful. -/
theorem respectful_run_iff (calls : List OutboundCall) :
    EveryStep OutboundStore.step Respectful .init calls ↔ EveryStep OutboundStore.step Careful .init calls :=
  everyStep_iff (K := Sound) (T := fun _ => True) (F := fun _ _ => True) (fun _ c h _ => sound_step h c)
    (fun _ _ _ => trivial) (fun _ c h _ _ => respectful_iff_careful h c) sound_init trivial fun _ _ _ _ => trivial

def sampleDelivery : OutboundDelivery :=
  { deliveryId := "d1", channel := "discord", recipientId := "u1", idempotencyKey := "k1", payloadRef := "report:1"
    createdAt := 0 }

def lateOptOut : List OutboundCall :=
  [⟨.enqueue sampleDelivery, fun _ => ⟨0, "a"⟩⟩, ⟨.optOut "u1" "discord", fun _ => ⟨1, "b"⟩⟩,
    ⟨.deliver "d1" true, fun _ => ⟨2, "c"⟩⟩]

theorem delivered_after_optOut : ¬∀ calls : List OutboundCall, EveryStep OutboundStore.step Respectful .init calls := by
  intro h
  have hrespectful := h lateOptOut (lateOptOut.take 2) ⟨.deliver "d1" true, fun _ => ⟨2, "c"⟩⟩ [] rfl
  have hopted := hrespectful.optedOut "d1" (attempted (fun _ => ⟨2, "c"⟩) sampleDelivery true) ⟨rfl, rfl, by decide⟩
  exact hopted (by decide)

end AllTomorrow.Outbound
