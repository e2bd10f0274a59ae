import AllTomorrow.ApprovalAuthority
import AllTomorrow.MachineRuns
import Mathlib

/-!
# The exits of an apply

Every exit of `apply_protected_change` before the capability is one constructor of
`Admission`, with what the exit tells about the state. Single use, the binding to the
approved request and the audit trail are read off these exits.
-/

namespace AllTomorrow

open EStateM (run_bind run_get run_pure)

namespace Approval

open EStateM MachineRuns
open PyText (Printable)

variable {sha256 : String → String} {env : Supply} {w : ApprovalWorld}

def ApprovalWorld.logged (w : ApprovalWorld) (entry : AuditEntry) : ApprovalWorld :=
  { w with authority := { w.authority with audit := w.authority.audit ++ [entry] } }

/-- The call raises, with one entry if the request can be written down and with none if it cannot. -/
inductive Refused {α : Type} (request : ProtectedChangeRequest) (w : ApprovalWorld) :
    Result ApprovalExn ApprovalWorld α → Prop
  | logged {e : ApprovalExn} {entry : AuditEntry} (hprintable : Printable request.proposalRevision)
      (hdenied : entry.decision = .denied) : Refused request w (.error e (w.logged entry))
  | silent {e : ApprovalExn} (hunprintable : ¬Printable request.proposalRevision) : Refused request w (.error e w)

theorem Refused.bind {α β : Type} {request : ProtectedChangeRequest} {x : ApprovalM α} {f : α → ApprovalM β}
    (h : Refused request w (x.run w)) : Refused request w ((x >>= f).run w) := by
  rw [run_bind]
  generalize x.run w = r at h
  cases h with
  | logged hprintable hdenied => exact .logged hprintable hdenied
  | silent hunprintable => exact .silent hunprintable

/-! ## Entries -/

theorem run_log_of_printable (sha256 : String → String) (env : Supply) (w : ApprovalWorld)
    {request : ProtectedChangeRequest} (h : Printable request.proposalRevision)
    (decision : Decision) (accountId nonceState : String) (applyResultRef reason : Option String) :
    ∃ entry : AuditEntry, entry.decision = decision ∧
      (log sha256 env request decision accountId nonceState applyResultRef reason).run w = .ok () (w.logged entry) := by
  simp only [log, ProtectedChangeRequest.bindingDigest, if_pos h, run_bind, run_ofExcept_ok]
  exact ⟨_, rfl, rfl⟩

theorem run_log_of_unprintable (sha256 : String → String) (env : Supply) (w : ApprovalWorld)
    {request : ProtectedChangeRequest} (h : ¬Printable request.proposalRevision)
    (decision : Decision) (accountId nonceState : String) (applyResultRef reason : Option String) :
    ∃ e, (log sha256 env request decision accountId nonceState applyResultRef reason).run w = .error e w := by
  simp [log, ProtectedChangeRequest.bindingDigest, if_neg h, run_bind]

theorem refused_deny {α : Type} (request : ProtectedChangeRequest) (accountId nonceState reason : String)
    (denied : ApprovalExn) :
    Refused request w ((deny (α := α) sha256 env request accountId nonceState reason denied).run w) := by
  rw [deny, run_bind]
  by_cases hprintable : Printable request.proposalRevision
  · obtain ⟨entry, hdenied, hlog⟩ := run_log_of_printable sha256 env w hprintable .denied
      accountId nonceState none (some reason)
    rw [hlog]
    exact .logged hprintable hdenied
  · obtain ⟨e, hlog⟩ := run_log_of_unprintable sha256 env w hprintable .denied
      accountId nonceState none (some reason)
    rw [hlog]
    exact .silent hprintable

/-- The context proves a fresh reauthentication of the account, as the authority checks it. -/
structure Fresh (reauth : ReauthContext) (accountId : String) : Prop where
  account : reauth.accountId = accountId
  verified : reauth.verified = true
  originOk : reauth.originOk = true
  csrfOk : reauth.csrfOk = true

theorem run_requireFreshReauth_of_fresh {reauth : ReauthContext} {accountId : String} (h : Fresh reauth accountId)
    (request : ProtectedChangeRequest) : (requireFreshReauth sha256 env reauth accountId request).run w = .ok () w := by
  simp [requireFreshReauth, h.account, h.verified, h.originOk, h.csrfOk]

theorem refused_requireFreshReauth (sha256 : String → String) (env : Supply)
    {reauth : ReauthContext} {accountId : String} (h : ¬Fresh reauth accountId) (request : ProtectedChangeRequest) :
    Refused request w ((requireFreshReauth sha256 env reauth accountId request).run w) := by
  unfold requireFreshReauth
  by_cases haccount : reauth.accountId = accountId
  · cases hverified : reauth.verified with
    | false =>
      simp only [haccount, ne_eq, not_true_eq_false, if_false, Bool.not_false, if_true]
      exact (refused_deny request accountId "n/a" "reauth_required" _).bind
    | true =>
      have hgate : (!reauth.originOk || !reauth.csrfOk) = true := by
        by_contra hpassed
        simp only [Bool.or_eq_true, Bool.not_eq_true', not_or, Bool.not_eq_false] at hpassed
        exact h ⟨haccount, hverified, hpassed.1, hpassed.2⟩
      simp only [haccount, hgate, ne_eq, not_true_eq_false, if_false, Bool.not_true, Bool.false_eq_true, if_true]
      exact refused_deny request accountId "n/a" "csrf_or_origin" _
  · simp only [haccount, ne_eq, not_false_eq_true, if_true]
    exact (refused_deny request reauth.accountId "n/a" "account_mismatch" _).bind

/-! ## Admission -/

section Admission

variable {approvalId : String} {present : ProtectedChangeRequest} {reauth : ReauthContext} {record : ApprovalRecord}

structure Valid (w : ApprovalWorld) (now : Datetime) (approvalId : String) (reauth : ReauthContext)
    (record : ApprovalRecord) : Prop where
  online : w.authority.online = true
  stored : w.authority.records.get? approvalId = some record
  issued : record.state = .issued
  unused : record.nonce ∉ w.authority.consumedNonces
  unexpired : record.isExpired now = false
  fresh : Fresh reauth record.accountId

/-- All checks before the capability pass. -/
structure Passes (sha256 : String → String) (w : ApprovalWorld) (now : Datetime) (approvalId : String)
    (present : ProtectedChangeRequest) (reauth : ReauthContext) (record : ApprovalRecord) : Prop where
  valid : Valid w now approvalId reauth record
  presented : Printable present.proposalRevision
  approved : Printable record.request.proposalRevision
  bound : sha256 present.bindingText = sha256 record.request.bindingText

/-- The exits of `checkApply`. -/
inductive Admission (sha256 : String → String) (w : ApprovalWorld) (now : Datetime) (approvalId : String)
    (present : ProtectedChangeRequest) (reauth : ReauthContext) : Result ApprovalExn ApprovalWorld ApprovalRecord → Prop
  | offline {e : ApprovalExn} (hoffline : w.authority.online = false) :
      Admission sha256 w now approvalId present reauth (.error e w)
  | unknown {r : Result ApprovalExn ApprovalWorld ApprovalRecord} (honline : w.authority.online = true)
      (hunknown : w.authority.records.get? approvalId = none) (hrefused : Refused present w r) :
      Admission sha256 w now approvalId present reauth r
  /-- the approval is not issued, expired or for another account, or the reauthentication is not fresh -/
  | invalid {record : ApprovalRecord} {r : Result ApprovalExn ApprovalWorld ApprovalRecord}
      (honline : w.authority.online = true) (hstored : w.authority.records.get? approvalId = some record)
      (hinvalid : record.state = .issued → record.nonce ∉ w.authority.consumedNonces ∧
        ¬Valid w now approvalId reauth record) (hrefused : Refused record.request w r) :
      Admission sha256 w now approvalId present reauth r
  | replayed {record : ApprovalRecord} {e : ApprovalExn} (hstored : w.authority.records.get? approvalId = some record)
      (hissued : record.state = .issued) (hused : record.nonce ∈ w.authority.consumedNonces) :
      Admission sha256 w now approvalId present reauth (.error e w)
  | unprintable {record : ApprovalRecord} {e : ApprovalExn} (hvalid : Valid w now approvalId reauth record)
      (hunprintable : ¬(Printable present.proposalRevision ∧ Printable record.request.proposalRevision)) :
      Admission sha256 w now approvalId present reauth (.error e w)
  | unbound {record : ApprovalRecord} {r : Result ApprovalExn ApprovalWorld ApprovalRecord}
      (hvalid : Valid w now approvalId reauth record) (hpresented : Printable present.proposalRevision)
      (happroved : Printable record.request.proposalRevision)
      (hunbound : sha256 present.bindingText ≠ sha256 record.request.bindingText) (hrefused : Refused present w r) :
      Admission sha256 w now approvalId present reauth r
  | passes {record : ApprovalRecord} (hpasses : Passes sha256 w now approvalId present reauth record) :
      Admission sha256 w now approvalId present reauth (.ok record w)

theorem admission_of_valid (hvalid : Valid w env.utcNow approvalId reauth record) :
    Admission sha256 w env.utcNow approvalId present reauth ((checkApply sha256 env approvalId present reauth).run w) := by
  have hnonce : w.authority.consumedNonces.contains record.nonce = false := by
    simpa using hvalid.unused
  rw [checkApply, run_bind, run_get]
  simp only [run_bind, hvalid.online, hvalid.stored, hvalid.issued, hnonce,
    hvalid.unexpired, run_requireFreshReauth_of_fresh hvalid.fresh, Bool.not_true, Bool.false_eq_true, if_false, ne_eq,
    not_true_eq_false]
  by_cases hpresented : Printable present.proposalRevision
  · by_cases happroved : Printable record.request.proposalRevision
    · simp only [ProtectedChangeRequest.bindingDigest, if_pos hpresented, if_pos happroved, run_ofExcept_ok]
      by_cases hbound : sha256 present.bindingText = sha256 record.request.bindingText
      · simp only [hbound, not_true_eq_false, if_false, run_pure]
        exact .passes ⟨hvalid, hpresented, happroved, hbound⟩
      · simp only [hbound, not_false_eq_true, if_true]
        exact .unbound hvalid hpresented happroved hbound (refused_deny present _ _ _ _).bind
    · simp only [ProtectedChangeRequest.bindingDigest, if_pos hpresented, if_neg happroved, run_ofExcept_ok, run_ofExcept_error]
      exact .unprintable hvalid fun h => happroved h.2
  · simp only [ProtectedChangeRequest.bindingDigest, if_neg hpresented, run_ofExcept_error]
    exact .unprintable hvalid fun h => hpresented h.1

theorem admission_checkApply (sha256 : String → String) (w : ApprovalWorld) (env : Supply) (approvalId : String)
    (present : ProtectedChangeRequest) (reauth : ReauthContext) :
    Admission sha256 w env.utcNow approvalId present reauth ((checkApply sha256 env approvalId present reauth).run w) := by
  cases honline : w.authority.online with
  | false =>
    rw [checkApply, run_bind, run_get]
    simp only [honline, Bool.not_false, if_true]
    exact .offline honline
  | true =>
    cases hstored : w.authority.records.get? approvalId with
    | none =>
      rw [checkApply, run_bind, run_get]
      simp only [honline, hstored, Bool.not_true, Bool.false_eq_true, if_false]
      exact .unknown honline hstored (refused_deny present _ _ _ _)
    | some record =>
      by_cases hvalid : Valid w env.utcNow approvalId reauth record
      · exact admission_of_valid hvalid
      · by_cases hissued : record.state = .issued
        · by_cases hused : record.nonce ∈ w.authority.consumedNonces
          · have hcontains : w.authority.consumedNonces.contains record.nonce = true := by
              simpa using hused
            rw [checkApply, run_bind, run_get]
            simp only [honline, hstored, hissued, hcontains, Bool.not_true,
              Bool.false_eq_true, if_false, if_true, ne_eq, not_true_eq_false]
            exact .replayed hstored hissued hused
          · have hnonce : w.authority.consumedNonces.contains record.nonce = false := by
              simpa using hused
            refine .invalid honline hstored (fun _ => ⟨hused, hvalid⟩) ?_
            cases hexpired : record.isExpired env.utcNow with
            | true =>
              rw [checkApply, run_bind, run_get]
              simp only [honline, hstored, hissued, hnonce, hexpired,
                Bool.not_true, Bool.false_eq_true, if_false, if_true, ne_eq, not_true_eq_false]
              exact (refused_deny record.request _ _ _ _).bind
            | false =>
              have hfresh : ¬Fresh reauth record.accountId :=
                fun h => hvalid ⟨honline, hstored, hissued, hused, hexpired, h⟩
              rw [checkApply, run_bind, run_get]
              simp only [honline, hstored, hissued, hnonce, hexpired,
                Bool.not_true, Bool.false_eq_true, if_false, ne_eq, not_true_eq_false]
              exact (refused_requireFreshReauth sha256 _ hfresh record.request).bind
        · refine .invalid honline hstored (fun h => absurd h hissued) ?_
          rw [checkApply, run_bind, run_get]
          simp only [honline, hstored, hissued, Bool.not_true,
            Bool.false_eq_true, if_false, if_true, ne_eq, not_false_eq_true]
          exact (refused_deny record.request _ _ _ _).bind

theorem checkApply_error_of_not_passes (h : ∀ record, ¬Passes sha256 w env.utcNow approvalId present reauth record) :
    ∃ e w', (checkApply sha256 env approvalId present reauth).run w = .error e w' ∧ (w' = w ∨ ∃ entry, w' = w.logged entry) := by
  have hadmission := admission_checkApply sha256 w env approvalId present reauth
  generalize (checkApply sha256 env approvalId present reauth).run w = r at hadmission
  have hrefused : ∀ request : ProtectedChangeRequest, Refused request w r →
      ∃ e w', r = .error e w' ∧ (w' = w ∨ ∃ entry, w' = w.logged entry) := by
    intro request hr
    cases hr with
    | logged _ _ => exact ⟨_, _, rfl, .inr ⟨_, rfl⟩⟩
    | silent _ => exact ⟨_, _, rfl, .inl rfl⟩
  cases hadmission with
  | offline _ => exact ⟨_, _, rfl, .inl rfl⟩
  | unknown _ _ hr => exact hrefused present hr
  | invalid _ _ _ hr => exact hrefused _ hr
  | replayed _ _ _ => exact ⟨_, _, rfl, .inl rfl⟩
  | unprintable _ _ => exact ⟨_, _, rfl, .inl rfl⟩
  | unbound _ _ _ _ hr => exact hrefused present hr
  | passes hpasses => exact absurd hpasses (h _)

theorem run_checkApply_of_passes (h : Passes sha256 w env.utcNow approvalId present reauth record) :
    (checkApply sha256 env approvalId present reauth).run w = .ok record w := by
  have hnonce : w.authority.consumedNonces.contains record.nonce = false := by
    simpa using h.valid.unused
  rw [checkApply, run_bind, run_get]
  simp only [run_bind, h.valid.online, h.valid.stored, h.valid.issued, hnonce, h.valid.unexpired,
    run_requireFreshReauth_of_fresh h.valid.fresh, ProtectedChangeRequest.bindingDigest, if_pos h.presented,
    if_pos h.approved, run_ofExcept_ok, h.bound, Bool.not_true, Bool.false_eq_true, if_false, ne_eq, not_true_eq_false,
    run_pure]

variable {outcome : CapabilityOutcome}

def ApprovalWorld.invoked (w : ApprovalWorld) (event : ApprovalEvent) : ApprovalWorld :=
  { w with history := w.history ++ [event] }

def ApprovalWorld.used (w : ApprovalWorld) (approvalId : String) (record : ApprovalRecord) : ApprovalWorld :=
  { w with authority :=
      { w.authority with
        records := w.authority.records.set approvalId { record with state := .consumed }
        consumedNonces := record.nonce :: w.authority.consumedNonces } }

theorem run_applyCapability_returns (resultText : Except Exn String) (event : ApprovalEvent) :
    (applyCapability (.returns resultText) event).run w = .ok resultText (w.invoked event) := rfl

theorem run_modifyAuthority (f : LaptopApprovalAuthority → LaptopApprovalAuthority) :
    (modifyAuthority f).run w = .ok () { w with authority := f w.authority } := rfl

theorem run_applyProtectedChange_of_not_passes (outcome : CapabilityOutcome)
    (h : ∀ record, ¬Passes sha256 w env.utcNow approvalId present reauth record) :
    ∃ e w', (applyProtectedChange sha256 env approvalId present reauth outcome).run w = .error e w' ∧
      (w' = w ∨ ∃ entry, w' = w.logged entry) := by
  obtain ⟨e, w', hcheck, hw'⟩ := checkApply_error_of_not_passes h
  refine ⟨e, w', ?_, hw'⟩
  rw [applyProtectedChange, run_bind, hcheck]

section Passing

variable (h : Passes sha256 w env.utcNow approvalId present reauth record)

include h

theorem run_applyProtectedChange_of_raises (e : Exn) :
    (applyProtectedChange sha256 env approvalId present reauth (.raises e)).run w =
      .error (.capability e) (w.invoked (.invoked approvalId record present reauth env.utcNow)) := by
  rw [applyProtectedChange, run_bind, run_checkApply_of_passes h]
  rfl

theorem run_applyProtectedChange_of_unshown (e : Exn) :
    (applyProtectedChange sha256 env approvalId present reauth (.returns (.error e))).run w = .error (.capability e)
        ((w.invoked (.invoked approvalId record present reauth env.utcNow)).used approvalId record) := by
  rw [applyProtectedChange, run_bind, run_checkApply_of_passes h]
  rfl

theorem run_applyProtectedChange_of_returns (resultText : String) : ∃ entry : AuditEntry, entry.decision = .applied ∧
      (applyProtectedChange sha256 env approvalId present reauth (.returns (.ok resultText))).run w = .ok ()
        (((w.invoked (.invoked approvalId record present reauth env.utcNow)).used approvalId record).logged entry) := by
  obtain ⟨entry, hdecision, hlog⟩ := run_log_of_printable sha256 (env.sub 1)
    ((w.invoked (.invoked approvalId record present reauth env.utcNow)).used approvalId record) h.approved .applied
    record.accountId "consumed" (some resultText) none
  refine ⟨entry, hdecision, ?_⟩
  rw [applyProtectedChange, run_bind, run_checkApply_of_passes h]
  simp only [run_bind, run_applyCapability_returns, run_modifyAuthority]
  exact hlog

end Passing

end Admission

/-! ## Issuing and revoking -/

section Issuance

variable {request : ProtectedChangeRequest} {reauth : ReauthContext} {token accountId : String}

/-- Texts that `hmac.compare_digest` compares. -/
def Comparable (a b : String) : Prop := ((a.toList ++ b.toList).all fun c => c.toNat < 128) = true

instance (a b : String) : Decidable (Comparable a b) :=
  inferInstanceAs (Decidable (((a.toList ++ b.toList).all fun c => c.toNat < 128) = true))

def ApprovalWorld.issued (w : ApprovalWorld) (record : ApprovalRecord) : ApprovalWorld :=
  { w with authority := { w.authority with records := w.authority.records.set record.approvalId record } }

/-- The record that `approve` makes. -/
def newRecord (env : Supply) (request : ProtectedChangeRequest) (accountId : String) (expiresAt : Datetime) :
    ApprovalRecord where
  approvalId := tokenHex (env.sub 2)
  request := request
  accountId := accountId
  nonce := tokenHex (env.sub 3)
  issuedAt := (env.sub 4).utcNow
  expiresAt := expiresAt

/-- The checks of `approve` are passed. -/
structure Admitted (w : ApprovalWorld) (reauth : ReauthContext) (token accountId : String) : Prop where
  ours : token = w.authority.writeToken
  fresh : Fresh reauth accountId

/-- The exits of `approve`, by the deadline that it computes and the record that it makes. -/
inductive Issuance (w : ApprovalWorld) (expires : Except ApprovalExn Datetime) (record : Datetime → ApprovalRecord)
    (request : ProtectedChangeRequest) (reauth : ReauthContext) (token accountId : String) :
    Result ApprovalExn ApprovalWorld ApprovalRecord → Prop
  | uncomparable {e : ApprovalExn} (huncomparable : ¬Comparable token w.authority.writeToken) :
      Issuance w expires record request reauth token accountId (.error e w)
  | refused {r : Result ApprovalExn ApprovalWorld ApprovalRecord} (hcomparable : Comparable token w.authority.writeToken)
      (hnot : ¬Admitted w reauth token accountId) (hrefused : Refused request w r) :
      Issuance w expires record request reauth token accountId r
  | overflowed {e : ApprovalExn} (hadmitted : Admitted w reauth token accountId) (hexpires : expires = .error e) :
      Issuance w expires record request reauth token accountId (.error e w)
  | unlogged {e : ApprovalExn} {expiresAt : Datetime} (hunprintable : ¬Printable request.proposalRevision) :
      Issuance w expires record request reauth token accountId (.error e (w.issued (record expiresAt)))
  | issued {entry : AuditEntry} {expiresAt : Datetime} (hcomparable : Comparable token w.authority.writeToken)
      (hexpires : expires = .ok expiresAt) (hprintable : Printable request.proposalRevision)
      (happroved : entry.decision = .approved) : Issuance w expires record request reauth token accountId
        (.ok (record expiresAt) ((w.issued (record expiresAt)).logged entry))

theorem compareDigest_of_eq {a b : String} (hcomparable : Comparable a b) (h : a = b) : compareDigest a b = .ok true := by
  have hcompare : compareDigest a b = .ok (a = b) := if_pos hcomparable
  rw [hcompare, decide_eq_true h]

theorem run_approve_of_admitted (hcomparable : Comparable token w.authority.writeToken)
    (hadmitted : Admitted w reauth token accountId) :
    (approve sha256 env request reauth token accountId).run w =
      (do
        let expiresAt ← MonadExcept.ofExcept (deadline (env.sub 5).utcNow w.authority.ttl)
        modifyAuthority fun a =>
          { a with records := a.records.set (tokenHex (env.sub 2)) (newRecord env request accountId expiresAt) }
        log sha256 (env.sub 6) request .approved accountId "issued" none none
        return newRecord env request accountId expiresAt : ApprovalM ApprovalRecord).run w := by
  have hcompare := compareDigest_of_eq hcomparable hadmitted.ours
  rw [approve, run_bind, run_get]
  simp only [hcompare, Bool.not_true, Bool.false_eq_true, if_false, run_bind, run_ofExcept_ok,
    run_requireFreshReauth_of_fresh hadmitted.fresh, newRecord]

theorem run_approve_issued (sha256 : String → String) (env : Supply) {expiresAt : Datetime}
    (hcomparable : Comparable token w.authority.writeToken) (hadmitted : Admitted w reauth token accountId)
    (hexpires : deadline (env.sub 5).utcNow w.authority.ttl = .ok expiresAt)
    (hprintable : Printable request.proposalRevision) : ∃ entry : AuditEntry, entry.decision = .approved ∧
      (approve sha256 env request reauth token accountId).run w = .ok (newRecord env request accountId expiresAt)
        ((w.issued (newRecord env request accountId expiresAt)).logged entry) := by
  obtain ⟨entry, happroved, hlog⟩ := run_log_of_printable sha256 (env.sub 6)
    (w.issued (newRecord env request accountId expiresAt)) hprintable .approved accountId "issued" none none
  refine ⟨entry, happroved, ?_⟩
  rw [run_approve_of_admitted hcomparable hadmitted, hexpires, run_bind, run_ofExcept_ok]
  dsimp only
  rw [run_bind, run_modifyAuthority]
  change ((log sha256 (env.sub 6) request .approved accountId "issued" none none >>= fun _ => pure _ :
    ApprovalM ApprovalRecord).run (w.issued (newRecord env request accountId expiresAt))) = _
  rw [run_bind, hlog]
  rfl

theorem issuance_of_admitted (sha256 : String → String) (env : Supply)
    (hcomparable : Comparable token w.authority.writeToken) (hadmitted : Admitted w reauth token accountId) :
    Issuance w (deadline (env.sub 5).utcNow w.authority.ttl) (newRecord env request accountId) request reauth token
      accountId ((approve sha256 env request reauth token accountId).run w) := by
  cases hexpires : deadline (env.sub 5).utcNow w.authority.ttl with
  | error e =>
    rw [run_approve_of_admitted hcomparable hadmitted, hexpires]
    exact .overflowed hadmitted rfl
  | ok expiresAt =>
    by_cases hprintable : Printable request.proposalRevision
    · obtain ⟨entry, happroved, hrun⟩ := run_approve_issued sha256 env hcomparable hadmitted hexpires hprintable
      rw [hrun]
      exact .issued hcomparable rfl hprintable happroved
    · obtain ⟨e, hlog⟩ := run_log_of_unprintable sha256 (env.sub 6)
        (w.issued (newRecord env request accountId expiresAt)) hprintable .approved accountId "issued" none none
      rw [run_approve_of_admitted hcomparable hadmitted, hexpires, run_bind, run_ofExcept_ok]
      dsimp only
      rw [run_bind, run_modifyAuthority]
      change Issuance w _ _ _ _ _ _ ((log sha256 (env.sub 6) request .approved accountId "issued" none none >>= fun _ =>
        pure _ : ApprovalM ApprovalRecord).run (w.issued (newRecord env request accountId expiresAt)))
      rw [run_bind, hlog]
      exact .unlogged hprintable

theorem issuance_approve (sha256 : String → String) (w : ApprovalWorld) (env : Supply) (request : ProtectedChangeRequest)
    (reauth : ReauthContext) (token accountId : String) :
    Issuance w (deadline (env.sub 5).utcNow w.authority.ttl) (newRecord env request accountId) request reauth token
      accountId ((approve sha256 env request reauth token accountId).run w) := by
  by_cases hcomparable : Comparable token w.authority.writeToken
  · have hcompare : compareDigest token w.authority.writeToken = .ok (token = w.authority.writeToken) := if_pos hcomparable
    by_cases hours : token = w.authority.writeToken
    · by_cases hfresh : Fresh reauth accountId
      · exact issuance_of_admitted sha256 env hcomparable ⟨hours, hfresh⟩
      · have hrefused := refused_requireFreshReauth sha256 (env.sub 1) (w := w) hfresh request
        refine .refused hcomparable (fun h => hfresh h.fresh) ?_
        rw [approve, run_bind, run_get]
        simp only [compareDigest_of_eq hcomparable hours, Bool.not_true, Bool.false_eq_true, if_false, run_bind, run_ofExcept_ok]
        generalize (requireFreshReauth sha256 (env.sub 1) reauth accountId request).run w = r at hrefused
        cases hrefused with
        | logged hprintable hdenied => exact .logged hprintable hdenied
        | silent hunprintable => exact .silent hunprintable
    · rw [approve, run_bind, run_get]
      simp only [hcompare]
      rw [run_bind, run_ofExcept_ok]
      simp only [hours, decide_false, Bool.not_false, if_true]
      exact .refused hcomparable (fun h => hours h.ours) (refused_deny request _ _ _ _).bind
  · obtain ⟨e, hcompare⟩ : ∃ e, compareDigest token w.authority.writeToken = .error e := ⟨_, if_neg hcomparable⟩
    rw [approve, run_bind, run_get]
    simp only [hcompare, run_bind, run_ofExcept_error]
    exact .uncomparable hcomparable

end Issuance

def ApprovalWorld.withdrawn (w : ApprovalWorld) (approvalId : String) (record : ApprovalRecord) : ApprovalWorld where
  authority := { w.authority with records := w.authority.records.set approvalId { record with state := .revoked } }
  history := w.history ++ [.revoked approvalId]

theorem state_log_cases (request : ProtectedChangeRequest) (decision : Decision) (accountId nonceState : String)
    (applyResultRef reason : Option String) :
    ((log sha256 env request decision accountId nonceState applyResultRef reason).run w).state = w ∨
      ∃ entry, ((log sha256 env request decision accountId nonceState applyResultRef reason).run w).state =
        w.logged entry := by
  by_cases hprintable : Printable request.proposalRevision
  · obtain ⟨entry, _, hlog⟩ := run_log_of_printable sha256 env w hprintable decision accountId
      nonceState applyResultRef reason
    exact .inr ⟨entry, by rw [hlog, Result.state_ok]⟩
  · obtain ⟨e, hlog⟩ := run_log_of_unprintable sha256 env w hprintable decision accountId
      nonceState applyResultRef reason
    exact .inl (by rw [hlog, Result.state_error])

theorem state_revoke_cases (sha256 : String → String) (w : ApprovalWorld) (env : Supply) (approvalId : String) :
    ((revoke sha256 env approvalId).run w).state = w ∨ ∃ record, w.authority.records.get? approvalId = some record ∧
        (((revoke sha256 env approvalId).run w).state = w.withdrawn approvalId record ∨
          ∃ entry, ((revoke sha256 env approvalId).run w).state = (w.withdrawn approvalId record).logged entry) := by
  rw [revoke, run_bind, run_get]
  cases hstored : w.authority.records.get? approvalId with
  | none =>
    refine .inl ?_
    simp only [hstored, run_pure, Result.state_ok]
  | some record =>
    by_cases hissued : record.state = .issued
    · refine .inr ⟨record, rfl, ?_⟩
      simp only [hstored, if_pos hissued, run_bind, run_modifyAuthority, EStateM.run_modify]
      exact state_log_cases (w := w.withdrawn approvalId record) record.request .rejected record.accountId "revoked" none none
    · refine .inl ?_
      simp only [hstored, if_neg hissued, run_pure, Result.state_ok]

/-! ## Single use -/

def ApprovalEvent.approvalId : ApprovalEvent → String
  | .revoked approvalId => approvalId
  | .invoked approvalId _ _ _ _ => approvalId

/-- The capability is invoked for approvals that have not expired, and that were neither revoked nor invoked before. -/
def SingleUse (history : List ApprovalEvent) : Prop :=
  ∀ before approvalId record request reauth now after,
    history = before ++ .invoked approvalId record request reauth now :: after →
      (∀ earlier ∈ before, earlier.approvalId ≠ approvalId) ∧ record.isExpired now = false

theorem singleUse_nil : SingleUse [] := by
  intro before approvalId record request reauth now after h
  simp at h

variable {event : ApprovalEvent}

theorem SingleUse.snoc {history : List ApprovalEvent} (h : SingleUse history)
    (hevent : ∀ approvalId record request reauth now, event = .invoked approvalId record request reauth now →
      (∀ earlier ∈ history, earlier.approvalId ≠ approvalId) ∧ record.isExpired now = false) :
    SingleUse (history ++ [event]) := by
  intro before approvalId record request reauth now after hsplit
  rcases List.eq_nil_or_concat after with rfl | ⟨after, last, rfl⟩
  · obtain ⟨rfl, hlast⟩ := List.append_inj' hsplit rfl
    exact hevent approvalId record request reauth now (List.cons.inj hlast).1
  · rw [List.concat_eq_append, ← List.cons_append, ← List.append_assoc] at hsplit
    obtain ⟨rfl, _⟩ := List.append_inj' hsplit rfl
    exact h before approvalId record request reauth now after rfl

def Spent (w : ApprovalWorld) (approvalId : String) : Prop :=
  ∃ record, w.authority.records.get? approvalId = some record ∧ record.state ≠ .issued

structure Accounted (w : ApprovalWorld) : Prop where
  lawful : SingleUse w.history
  spent : ∀ event ∈ w.history, Spent w event.approvalId

/-- An approval gets an id that is not in use, and a capability that is invoked does not raise. -/
def Orderly (sha256 : String → String) (w : ApprovalWorld) : ApprovalCall → Prop
  | .approve env _ _ _ _ => w.authority.records.get? (tokenHex (env.sub 2)) = none
  | .revoke _ _ => True
  | .applyProtectedChange env approvalId present reauth outcome =>
      ∀ record, Passes sha256 w env.utcNow approvalId present reauth record → ∃ resultText, outcome = .returns resultText

variable {w' : ApprovalWorld}

theorem Spent.set {approvalId : String} (h : Spent w approvalId) {record : ApprovalRecord} {j : String}
    (hset : w'.authority.records = w.authority.records.set j record) (hrecord : j = approvalId → record.state ≠ .issued) :
    Spent w' approvalId := by
  obtain ⟨old, hget, hstate⟩ := h
  by_cases hj : approvalId = j
  · subst hj
    exact ⟨record, by rw [hset, InsertionDict.get?_set_self], hrecord rfl⟩
  · exact ⟨old, by rw [hset, InsertionDict.get?_set_of_ne _ _ hj, hget], hstate⟩

theorem Accounted.of_same (h : Accounted w) (hhistory : w'.history = w.history)
    (hrecords : w'.authority.records = w.authority.records) : Accounted w' where
  lawful := hhistory ▸ h.lawful
  spent := by
    intro event hevent
    rw [hhistory] at hevent
    obtain ⟨record, hget, hstate⟩ := h.spent event hevent
    exact ⟨record, by rw [hrecords, hget], hstate⟩

theorem Accounted.snoc (h : Accounted w) (record : ApprovalRecord) (hhistory : w'.history = w.history ++ [event])
    (hset : w'.authority.records = w.authority.records.set event.approvalId record) (hstate : record.state ≠ .issued)
    (hevent : ∀ approvalId record request reauth now, event = .invoked approvalId record request reauth now →
      (∀ earlier ∈ w.history, earlier.approvalId ≠ approvalId) ∧ record.isExpired now = false) : Accounted w' where
  lawful := by
    rw [hhistory]
    exact h.lawful.snoc hevent
  spent := by
    intro earlier hearlier
    rw [hhistory, List.mem_append, List.mem_singleton] at hearlier
    rcases hearlier with hold | rfl
    · exact (h.spent earlier hold).set hset fun _ => hstate
    · exact ⟨record, by rw [hset, InsertionDict.get?_set_self], hstate⟩

theorem Accounted.issued (h : Accounted w) {record : ApprovalRecord}
    (hhistory : w'.history = w.history) (hset : w'.authority.records = w.authority.records.set record.approvalId record)
    (hfresh : w.authority.records.get? record.approvalId = none) : Accounted w' where
  lawful := hhistory ▸ h.lawful
  spent := by
    intro event hevent
    rw [hhistory] at hevent
    have hspent := h.spent event hevent
    refine hspent.set hset ?_
    intro hid
    obtain ⟨old, hget, _⟩ := hspent
    rw [← hid, hfresh] at hget
    cases hget

theorem Accounted.of_logged (h : Accounted w) (hw' : w' = w ∨ ∃ entry, w' = w.logged entry) : Accounted w' := by
  rcases hw' with rfl | ⟨entry, rfl⟩
  · exact h
  · exact h.of_same rfl rfl

theorem accounted_approve (h : Accounted w) (request : ProtectedChangeRequest) (reauth : ReauthContext)
    (token accountId : String) (hfresh : w.authority.records.get? (tokenHex (env.sub 2)) = none) :
    Accounted ((approve sha256 env request reauth token accountId).run w).state := by
  have hissuance := issuance_approve sha256 w env request reauth token accountId
  generalize (approve sha256 env request reauth token accountId).run w = r at hissuance
  cases hissuance with
  | uncomparable _ => exact h
  | refused _ _ hrefused =>
    cases hrefused with
    | logged _ _ => exact h.of_same rfl rfl
    | silent _ => exact h
  | overflowed _ _ => exact h
  | unlogged _ => exact h.issued rfl rfl hfresh
  | issued _ _ _ _ => exact h.issued rfl rfl hfresh

theorem accounted_revoke (h : Accounted w) (approvalId : String) :
    Accounted ((revoke sha256 env approvalId).run w).state := by
  rcases state_revoke_cases sha256 w env approvalId with hsame | ⟨record, _, hstate⟩
  · rw [hsame]
    exact h
  · have hwithdrawn : Accounted (w.withdrawn approvalId record) := by
      refine h.snoc { record with state := .revoked } rfl rfl (by simp) ?_
      intro id r q a n hevent
      cases hevent
    exact hwithdrawn.of_logged hstate

theorem accounted_applyProtectedChange (h : Accounted w) {approvalId : String} {present : ProtectedChangeRequest}
    {reauth : ReauthContext} {outcome : CapabilityOutcome}
    (horderly : Orderly sha256 w (.applyProtectedChange env approvalId present reauth outcome)) :
    Accounted ((applyProtectedChange sha256 env approvalId present reauth outcome).run w).state := by
  by_cases hpasses : ∃ record, Passes sha256 w env.utcNow approvalId present reauth record
  · obtain ⟨record, hpasses⟩ := hpasses
    obtain ⟨resultText, rfl⟩ := horderly record hpasses
    have hused : Accounted
        ((w.invoked (.invoked approvalId record present reauth env.utcNow)).used approvalId record) := by
      refine h.snoc { record with state := .consumed } rfl rfl (by simp) ?_
      intro id r q a n hevent
      cases hevent
      refine ⟨?_, hpasses.valid.unexpired⟩
      -- an event of this approval would have spent it
      rintro earlier hearlier rfl
      obtain ⟨old, hget, hstate⟩ := h.spent earlier hearlier
      rw [hpasses.valid.stored, Option.some.injEq] at hget
      exact hstate (hget ▸ hpasses.valid.issued)
    cases resultText with
    | error e =>
      rw [run_applyProtectedChange_of_unshown hpasses e]
      exact hused
    | ok resultText =>
      obtain ⟨entry, _, hrun⟩ := run_applyProtectedChange_of_returns hpasses resultText
      rw [hrun]
      exact hused.of_same rfl rfl
  · obtain ⟨e, w', hrun, hw'⟩ := run_applyProtectedChange_of_not_passes outcome (not_exists.mp hpasses)
    rw [hrun]
    exact h.of_logged hw'

theorem approvalStep_approve (request : ProtectedChangeRequest) (reauth : ReauthContext) (token accountId : String) :
    approvalStep sha256 w (.approve env request reauth token accountId) =
      ((approve sha256 env request reauth token accountId).run w).state := by
  change ((approve sha256 env request reauth token accountId >>= fun _ => pure ()).run w).state = _
  rw [run_bind]
  cases (approve sha256 env request reauth token accountId).run w with
  | ok _ _ => rfl
  | error _ _ => rfl

theorem accounted_step (h : Accounted w) {c : ApprovalCall} (horderly : Orderly sha256 w c) :
    Accounted (approvalStep sha256 w c) := by
  cases c with
  | approve env request reauth token accountId =>
    rw [approvalStep_approve]
    exact accounted_approve h request reauth token accountId horderly
  | revoke env approvalId => exact accounted_revoke h approvalId
  | applyProtectedChange env approvalId present reauth outcome => exact accounted_applyProtectedChange h horderly

/-- In a run whose invoked capabilities return, every approval is used at most once. -/
theorem approvals_single_use (sha256 : String → String) (authority : LaptopApprovalAuthority)
    {calls : List ApprovalCall} (horderly : EveryStep (approvalStep sha256) (Orderly sha256) (.start authority) calls) :
    SingleUse (run (approvalStep sha256) (.start authority) calls).history := by
  have hstart : Accounted (.start authority) :=
    { lawful := singleUse_nil, spent := by simp [ApprovalWorld.start] }
  have hkeeps : ∀ w c, Accounted w → Orderly sha256 w c → Accounted (approvalStep sha256 w c) :=
    fun _ _ h hcall => accounted_step h hcall
  have hend : Accounted (run (approvalStep sha256) (.start authority) calls) :=
    invariant_of_everyStep hkeeps hstart horderly
  exact hend.lawful

/-! ### A run of one approval -/

def sampleRequest : ProtectedChangeRequest where
  proposalId := "proposal_1"
  proposalRevision := 1
  candidateArtifactHash := "cand"
  baselineArtifactHash := "base"
  requestedAuthorityChangeHash := "auth"

def sampleReauth : ReauthContext where
  accountId := "owner"
  verified := true
  originOk := true
  csrfOk := true
  reauthenticatedAt := 0

def sampleSupply (now : Datetime) : Supply := fun path =>
  match path with
  | [2] => ⟨now, "5f1d7a8c0b2e4f6890a1b2c3d4e5f607"⟩
  | [3] => ⟨now, "a0b1c2d3e4f5061728394a5b6c7d8e9f"⟩
  | _ => ⟨now, ""⟩

def sampleToken : String := "authority-secret"

theorem sampleToken_strong : 16 ≤ sampleToken.length := by decide

def sampleAuthority : LaptopApprovalAuthority :=
  ⟨sampleToken, true, 300 * 1000000, .empty, [], [], sampleToken_strong⟩

theorem sampleAuthority_new : LaptopApprovalAuthority.new sampleToken true 300 = .ok sampleAuthority := by
  rw [LaptopApprovalAuthority.new, dif_pos sampleToken_strong]
  rfl

def sampleApprove : ApprovalCall := .approve (sampleSupply 0) sampleRequest sampleReauth sampleToken "owner"

def sampleApply (outcome : CapabilityOutcome) : ApprovalCall :=
  .applyProtectedChange (sampleSupply 1) "5f1d7a8c0b2e4f6890a1b2c3d4e5f607" sampleRequest sampleReauth outcome

theorem approvals_single_use_sample :
    SingleUse (run (approvalStep id) (.start sampleAuthority) [sampleApprove, sampleApply (.returns (.ok "ref"))]).history := by
  refine approvals_single_use id sampleAuthority ?_
  refine everyStep_cons.mpr ⟨rfl, everyStep_cons.mpr ⟨?_, everyStep_nil⟩⟩
  intro record _
  exact ⟨_, rfl⟩

theorem printable_one : Printable 1 := by
  have hone : ∀ k, k ≠ 0 → (1 : ℤ).natAbs < 10 ^ k := fun k hk => Nat.one_lt_pow hk (by decide)
  unfold Printable
  apply hone
  decide

theorem fresh_sampleReauth : Fresh sampleReauth "owner" := ⟨rfl, rfl, rfl, rfl⟩

def sampleRecord : ApprovalRecord := newRecord (sampleSupply 0) sampleRequest "owner" (300 * 1000000)

theorem sampleApprove_step (sha256 : String → String) : ∃ entry, approvalStep sha256 (.start sampleAuthority) sampleApprove =
      ((ApprovalWorld.start sampleAuthority).issued sampleRecord).logged entry := by
  obtain ⟨entry, _, hrun⟩ := run_approve_issued sha256 (sampleSupply 0) (w := .start sampleAuthority)
    (show Comparable sampleToken sampleToken from by decide) ⟨rfl, fresh_sampleReauth⟩ rfl
    (show Printable sampleRequest.proposalRevision from printable_one)
  refine ⟨entry, ?_⟩
  rw [sampleApprove, approvalStep_approve]
  exact congrArg Result.state hrun

theorem sampleApply_passes (sha256 : String → String) (honline : w.authority.online = true)
    (hstored : w.authority.records.get? "5f1d7a8c0b2e4f6890a1b2c3d4e5f607" = some sampleRecord)
    (hunused : w.authority.consumedNonces = []) :
    Passes sha256 w (sampleSupply 1).utcNow "5f1d7a8c0b2e4f6890a1b2c3d4e5f607" sampleRequest sampleReauth sampleRecord where
  valid :=
    { online := honline
      stored := hstored
      issued := rfl
      unused := by simp [hunused]
      unexpired := by decide
      fresh := fresh_sampleReauth }
  presented := printable_one
  approved := printable_one
  bound := rfl

/-- A capability that raises leaves its approval to be used again. -/
theorem raised_capability_invoked_again : ¬∀ sha256 writeToken online approvalTtlSeconds authority,
      LaptopApprovalAuthority.new writeToken online approvalTtlSeconds = .ok authority →
        ∀ calls, SingleUse (run (approvalStep sha256) (.start authority) calls).history := by
  intro h
  have hlawful := h id sampleToken true 300 sampleAuthority sampleAuthority_new
    [sampleApprove, sampleApply (.raises (.connectionError "reset")), sampleApply (.returns (.ok "ref"))]
  obtain ⟨entry, happrove⟩ := sampleApprove_step id
  rw [run_cons, happrove, run_cons] at hlawful
  have hpasses := sampleApply_passes id (w := ((ApprovalWorld.start sampleAuthority).issued sampleRecord).logged entry)
    rfl rfl rfl
  have hraised := run_applyProtectedChange_of_raises hpasses (.connectionError "reset")
  have hstep : approvalStep id (((ApprovalWorld.start sampleAuthority).issued sampleRecord).logged entry)
      (sampleApply (.raises (.connectionError "reset"))) = _ := congrArg Result.state hraised
  rw [hstep, run_cons] at hlawful
  have hpasses' := sampleApply_passes id
    (w := (((ApprovalWorld.start sampleAuthority).issued sampleRecord).logged entry).invoked
      (.invoked "5f1d7a8c0b2e4f6890a1b2c3d4e5f607" sampleRecord sampleRequest sampleReauth (sampleSupply 1).utcNow))
    rfl rfl rfl
  obtain ⟨entry', _, hreturned⟩ := run_applyProtectedChange_of_returns hpasses' "ref"
  have hstep' : approvalStep id _ (sampleApply (.returns (.ok "ref"))) = _ := congrArg Result.state hreturned
  rw [Result.state_error, hstep', run_nil] at hlawful
  have htwice := hlawful
    [.invoked "5f1d7a8c0b2e4f6890a1b2c3d4e5f607" sampleRecord sampleRequest sampleReauth (sampleSupply 1).utcNow]
    "5f1d7a8c0b2e4f6890a1b2c3d4e5f607" sampleRecord sampleRequest sampleReauth (sampleSupply 1).utcNow [] rfl
  exact htwice.1 _ List.mem_cons_self rfl

/-! ## The binding to the approved request -/

section Binding

variable {approvalId : String} {present : ProtectedChangeRequest} {reauth : ReauthContext} {outcome : CapabilityOutcome}

/-- If the call invokes the capability, it does so for the approved request in every field, and after a
reauthentication that is no older than the approval. -/
def ExactApply (sha256 : String → String) (w : ApprovalWorld) (env : Supply) (approvalId : String)
    (present : ProtectedChangeRequest) (reauth : ReauthContext) (outcome : CapabilityOutcome) : Prop :=
  ∀ id record request proof now,
    ((applyProtectedChange sha256 env approvalId present reauth outcome).run w).state.history =
      w.history ++ [.invoked id record request proof now] →
    request = record.request ∧ record.issuedAt ≤ proof.reauthenticatedAt

/-- Corresponding parts of the two requests hold the same number of separators. -/
def SameSeparators (a b : ProtectedChangeRequest) : Prop :=
  a.parts.map (fun part => part.toList.count unitSeparator) = b.parts.map (fun part => part.toList.count unitSeparator)

theorem eq_of_bindingText {a b : ProtectedChangeRequest} (hseparators : SameSeparators a b)
    (htext : a.bindingText = b.bindingText) (hrefs : a.evaluationRefs = b.evaluationRefs) : a = b := by
  have hjoined : [unitSeparator].intercalate (a.parts.map String.toList) =
      [unitSeparator].intercalate (b.parts.map String.toList) := by
    simpa [ProtectedChangeRequest.bindingText] using congrArg String.toList htext
  have hcount : (a.parts.map String.toList).map (List.count unitSeparator) =
      (b.parts.map String.toList).map (List.count unitSeparator) := by
    simpa [SameSeparators, Function.comp_def] using hseparators
  have hparts : a.parts = b.parts :=
    List.map_injective_iff.mpr (fun _ _ => String.toList_inj.mp) (intercalate_inj_of_count hcount hjoined)
  obtain ⟨proposalId, proposalRevision, candidate, baseline, authority, refs, policy⟩ := a
  obtain ⟨proposalId', proposalRevision', candidate', baseline', authority', refs', policy'⟩ := b
  simp only [ProtectedChangeRequest.parts, List.cons.injEq, and_true] at hparts
  obtain ⟨rfl, hrevision, rfl, rfl, rfl, rfl⟩ := hparts
  obtain rfl : proposalRevision = proposalRevision' := Int.repr_injective hrevision
  obtain rfl : refs = refs' := hrefs
  rfl

theorem history_applyProtectedChange_of_passes {record : ApprovalRecord}
    (h : Passes sha256 w env.utcNow approvalId present reauth record) :
    ((applyProtectedChange sha256 env approvalId present reauth outcome).run w).state.history =
      w.history ++ [.invoked approvalId record present reauth env.utcNow] := by
  cases outcome with
  | raises e =>
    rw [run_applyProtectedChange_of_raises h e]
    rfl
  | returns resultText =>
    cases resultText with
    | error e =>
      rw [run_applyProtectedChange_of_unshown h e]
      rfl
    | ok resultText =>
      obtain ⟨entry, _, hrun⟩ := run_applyProtectedChange_of_returns h resultText
      rw [hrun]
      rfl

theorem history_applyProtectedChange_of_not_passes
    (h : ∀ record, ¬Passes sha256 w env.utcNow approvalId present reauth record) :
    ((applyProtectedChange sha256 env approvalId present reauth outcome).run w).state.history = w.history := by
  obtain ⟨e, w', hrun, hw'⟩ := run_applyProtectedChange_of_not_passes outcome h
  rw [hrun]
  rcases hw' with rfl | ⟨entry, rfl⟩
  · rfl
  · rfl

/-- An apply is exact if and only if, in case its checks pass, it presents the same evaluation references and the same
separators as the approved request, and a reauthentication that is no older than the approval. -/
theorem exactApply_iff {sha256 : String → String} (hsha256 : Function.Injective sha256) (w : ApprovalWorld) (env : Supply)
    (approvalId : String) (present : ProtectedChangeRequest) (reauth : ReauthContext) (outcome : CapabilityOutcome) :
    ExactApply sha256 w env approvalId present reauth outcome ↔
      ∀ record, Passes sha256 w env.utcNow approvalId present reauth record →
        SameSeparators present record.request ∧ present.evaluationRefs = record.request.evaluationRefs ∧
          record.issuedAt ≤ reauth.reauthenticatedAt := by
  constructor
  · intro hexact record hpasses
    obtain ⟨hsame, hfresh⟩ := hexact approvalId record present reauth env.utcNow
      (history_applyProtectedChange_of_passes hpasses)
    rw [hsame]
    exact ⟨rfl, rfl, hfresh⟩
  · intro hcondition id record request proof now hhistory
    by_cases hpasses : ∃ record, Passes sha256 w env.utcNow approvalId present reauth record
    · obtain ⟨stored, hpasses⟩ := hpasses
      rw [history_applyProtectedChange_of_passes hpasses] at hhistory
      have hlast := List.append_cancel_left hhistory
      cases hlast
      obtain ⟨hseparators, hrefs, hfresh⟩ := hcondition record hpasses
      exact ⟨eq_of_bindingText hseparators (hsha256 hpasses.bound) hrefs, hfresh⟩
    · rw [history_applyProtectedChange_of_not_passes (not_exists.mp hpasses)] at hhistory
      have hlength := congrArg List.length hhistory
      simp at hlength

def sampleBinding : String := sampleRequest.bindingText

def sampleDigest : String := "cd3d21a364c65fb1332e7df2b389257e49af21f66fb221020f29c02c078658fd"

def sampleApproved : ApprovalWorld := (ApprovalWorld.start sampleAuthority).issued sampleRecord

theorem exactApply_sample : Function.Injective (Equiv.swap sampleBinding sampleDigest) ∧
      ExactApply (Equiv.swap sampleBinding sampleDigest) sampleApproved (sampleSupply 1) "5f1d7a8c0b2e4f6890a1b2c3d4e5f607"
        sampleRequest sampleReauth (.returns (.ok "ref")) := by
  refine ⟨(Equiv.swap sampleBinding sampleDigest).injective, ?_⟩
  refine (exactApply_iff (Equiv.swap sampleBinding sampleDigest).injective _ _ _ _ _ _).mpr ?_
  intro record hpasses
  have hstored : sampleApproved.authority.records.get? "5f1d7a8c0b2e4f6890a1b2c3d4e5f607" = some sampleRecord := rfl
  obtain rfl : sampleRecord = record := Option.some.inj (hstored.symm.trans hpasses.valid.stored)
  exact ⟨rfl, rfl, Int.le_refl 0⟩

/-- The digest leaves out the evaluation references. -/
theorem other_evaluation_applied :
    ¬∀ sha256 : String → String, Function.Injective sha256 → ∀ w env approvalId present reauth outcome,
      ExactApply sha256 w env approvalId present reauth outcome := by
  intro h
  have hsha256 := (Equiv.swap sampleBinding sampleDigest).injective
  have hexact := h (Equiv.swap sampleBinding sampleDigest) hsha256 sampleApproved (sampleSupply 1)
    "5f1d7a8c0b2e4f6890a1b2c3d4e5f607" { sampleRequest with evaluationRefs := ["eval_2"] } sampleReauth
    (.returns (.ok "ref"))
  have hsample := sampleApply_passes (Equiv.swap sampleBinding sampleDigest) (w := sampleApproved) rfl rfl rfl
  have hpasses : Passes (Equiv.swap sampleBinding sampleDigest) sampleApproved (sampleSupply 1).utcNow
      "5f1d7a8c0b2e4f6890a1b2c3d4e5f607" { sampleRequest with evaluationRefs := ["eval_2"] } sampleReauth sampleRecord :=
    ⟨hsample.valid, hsample.presented, hsample.approved, hsample.bound⟩
  have hsame := hexact _ _ _ _ _ (history_applyProtectedChange_of_passes hpasses)
  have hrefs := congrArg ProtectedChangeRequest.evaluationRefs hsame.1
  exact List.cons_ne_nil _ _ hrefs

end Binding

/-! ## The audit trail -/

section Audit

variable {approvalId token accountId : String} {request present : ProtectedChangeRequest} {reauth : ReauthContext}
  {outcome : CapabilityOutcome}

/-- The call adds one entry, with the decision of a success or the denial. -/
def Audited {α : Type} (w : ApprovalWorld) (success : Decision) (r : Result ApprovalExn ApprovalWorld α) : Prop :=
  ∃ entry : AuditEntry, r.state.authority.audit = w.authority.audit ++ [entry] ∧
    entry.decision = match r with
      | .ok _ _ => success
      | .error _ _ => .denied

/-- The approvals that end without an entry: a token that cannot be compared, a revision that has no text,
and one that is granted with a deadline after the last day of the calendar. -/
inductive IssueUnlogged (w : ApprovalWorld) (now : Datetime) (request : ProtectedChangeRequest) (reauth : ReauthContext)
    (token accountId : String) : Prop
  | uncomparable (h : ¬Comparable token w.authority.writeToken)
  | unprintable (h : ¬Printable request.proposalRevision)
  | overflowed (hadmitted : Admitted w reauth token accountId) (h : ∀ expiresAt, addDelta now w.authority.ttl ≠ .ok expiresAt)

/-- The exits of `apply_protected_change` without an audit entry. -/
inductive ApplyUnlogged (sha256 : String → String) (w : ApprovalWorld) (now : Datetime) (approvalId : String)
    (present : ProtectedChangeRequest) (reauth : ReauthContext) (outcome : CapabilityOutcome) : Prop
  | offline (h : w.authority.online = false)
  /-- neither the approval nor a text of the presented request exists -/
  | unknown (hunknown : w.authority.records.get? approvalId = none) (h : ¬Printable present.proposalRevision)
  | approved {record : ApprovalRecord} (hstored : w.authority.records.get? approvalId = some record)
      (h : ¬Printable record.request.proposalRevision)
  | replayed {record : ApprovalRecord} (hstored : w.authority.records.get? approvalId = some record)
      (hissued : record.state = .issued) (h : record.nonce ∈ w.authority.consumedNonces)
  | presented {record : ApprovalRecord} (hvalid : Valid w now approvalId reauth record)
      (h : ¬Printable present.proposalRevision)
  /-- the capability raises, or `str` does on its result -/
  | raised {record : ApprovalRecord} (hpasses : Passes sha256 w now approvalId present reauth record)
      (h : ∀ resultText, outcome ≠ .returns (.ok resultText))

variable {success : Decision} {α : Type}

variable {r : Result ApprovalExn ApprovalWorld α}

theorem audited_of_refused
    (hprintable : Printable request.proposalRevision) (h : Refused request w r) : Audited w success r := by
  cases h with
  | logged _ hdenied => exact ⟨_, rfl, hdenied⟩
  | silent hunprintable => exact absurd hprintable hunprintable

theorem not_audited_of_same (h : r.state.authority.audit = w.authority.audit) : ¬Audited w success r := by
  rintro ⟨entry, haudit, _⟩
  rw [h] at haudit
  have hlength := congrArg List.length haudit
  simp at hlength

theorem not_audited_of_refused
    (hunprintable : ¬Printable request.proposalRevision) (h : Refused request w r) : ¬Audited w success r := by
  cases h with
  | logged hprintable _ => exact absurd hprintable hunprintable
  | silent _ => exact not_audited_of_same rfl

theorem deadline_ok_iff {now expiresAt : Datetime} {ttl : ℤ} :
    deadline now ttl = .ok expiresAt ↔ addDelta now ttl = .ok expiresAt := by
  unfold deadline
  cases addDelta now ttl <;> simp [Except.mapError]

theorem audited_approve_iff :
    Audited w .approved ((approve sha256 env request reauth token accountId).run w) ↔
      ¬IssueUnlogged w (env.sub 5).utcNow request reauth token accountId := by
  have hissuance := issuance_approve sha256 w env request reauth token accountId
  generalize (approve sha256 env request reauth token accountId).run w = r at hissuance
  cases hissuance with
  | uncomparable huncomparable => exact iff_of_false (not_audited_of_same rfl) (not_not_intro (.uncomparable huncomparable))
  | refused hcomparable hnot hrefused =>
    by_cases hprintable : Printable request.proposalRevision
    · refine iff_of_true (audited_of_refused hprintable hrefused) ?_
      intro h
      cases h with
      | uncomparable h => exact h hcomparable
      | unprintable h => exact h hprintable
      | overflowed h _ => exact hnot h
    · exact iff_of_false (not_audited_of_refused hprintable hrefused) (not_not_intro (.unprintable hprintable))
  | overflowed hadmitted hexpires =>
    refine iff_of_false (not_audited_of_same rfl) (not_not_intro (.overflowed hadmitted fun expiresAt hok => ?_))
    rw [deadline_ok_iff.mpr hok] at hexpires
    cases hexpires
  | unlogged hunprintable => exact iff_of_false (not_audited_of_same rfl) (not_not_intro (.unprintable hunprintable))
  | issued hcomparable hexpires hprintable happroved =>
    refine iff_of_true ⟨_, rfl, happroved⟩ ?_
    intro h
    cases h with
    | uncomparable h => exact h hcomparable
    | unprintable h => exact h hprintable
    | overflowed _ h => exact h _ (deadline_ok_iff.mp hexpires)

theorem not_applyUnlogged_of_passes {record : ApprovalRecord}
    (hpasses : Passes sha256 w env.utcNow approvalId present reauth record) (resultText : String) :
    ¬ApplyUnlogged sha256 w env.utcNow approvalId present reauth (.returns (.ok resultText)) := by
  have hone : ∀ other, w.authority.records.get? approvalId = some other → other = record := by
    intro other hother
    exact Option.some.inj (hother.symm.trans hpasses.valid.stored)
  intro h
  cases h with
  | offline hoffline => exact Bool.false_ne_true (hoffline.symm.trans hpasses.valid.online)
  | unknown hunknown _ => exact Option.some_ne_none _ (hpasses.valid.stored.symm.trans hunknown)
  | approved hstored h => exact h (hone _ hstored ▸ hpasses.approved)
  | replayed hstored _ h => exact hpasses.valid.unused (hone _ hstored ▸ h)
  | presented _ h => exact h hpasses.presented
  | raised _ h => exact h resultText rfl

/-- A refused apply has its entry exactly if the request it writes down has a text. -/
theorem audited_checkApply_iff (success : Decision)
    (hpasses : ∀ record, ¬Passes sha256 w env.utcNow approvalId present reauth record) :
    Audited w success ((checkApply sha256 env approvalId present reauth).run w) ↔
      ¬ApplyUnlogged sha256 w env.utcNow approvalId present reauth outcome := by
  have hadmission := admission_checkApply sha256 w env approvalId present reauth
  generalize (checkApply sha256 env approvalId present reauth).run w = r at hadmission
  cases hadmission with
  | offline hoffline => exact iff_of_false (not_audited_of_same rfl) (not_not_intro (.offline hoffline))
  | unknown honline hunknown hrefused =>
    by_cases hprintable : Printable present.proposalRevision
    · refine iff_of_true (audited_of_refused hprintable hrefused) ?_
      intro h
      cases h with
      | offline hoffline => exact Bool.false_ne_true (hoffline.symm.trans honline)
      | unknown _ h => exact h hprintable
      | approved hstored _ => exact Option.some_ne_none _ (hstored.symm.trans hunknown)
      | replayed hstored _ _ => exact Option.some_ne_none _ (hstored.symm.trans hunknown)
      | presented _ h => exact h hprintable
      | raised h _ => exact hpasses _ h
    · exact iff_of_false (not_audited_of_refused hprintable hrefused) (not_not_intro (.unknown hunknown hprintable))
  | @invalid record _ honline hstored hinvalid hrefused =>
    have hone : ∀ other, w.authority.records.get? approvalId = some other → other = record := by
      intro other hother
      exact Option.some.inj (hother.symm.trans hstored)
    by_cases hprintable : Printable record.request.proposalRevision
    · refine iff_of_true (audited_of_refused hprintable hrefused) ?_
      intro h
      cases h with
      | offline hoffline => exact Bool.false_ne_true (hoffline.symm.trans honline)
      | unknown hunknown _ => exact Option.some_ne_none _ (hstored.symm.trans hunknown)
      | approved hother h => exact h (hone _ hother ▸ hprintable)
      | replayed hother hissued hused =>
        obtain rfl := hone _ hother
        exact (hinvalid hissued).1 hused
      | presented hvalid _ =>
        obtain rfl := hone _ hvalid.stored
        exact (hinvalid hvalid.issued).2 hvalid
      | raised h _ => exact hpasses _ h
    · exact iff_of_false (not_audited_of_refused hprintable hrefused) (not_not_intro (.approved hstored hprintable))
  | replayed hstored hissued hused =>
    exact iff_of_false (not_audited_of_same rfl) (not_not_intro (.replayed hstored hissued hused))
  | unprintable hvalid hunprintable =>
    refine iff_of_false (not_audited_of_same rfl) (not_not_intro ?_)
    by_cases hpresented : Printable present.proposalRevision
    · exact .approved hvalid.stored fun happroved => hunprintable ⟨hpresented, happroved⟩
    · exact .presented hvalid hpresented
  | @unbound record _ hvalid hpresented happroved hunbound hrefused =>
    refine iff_of_true (audited_of_refused hpresented hrefused) ?_
    intro h
    cases h with
    | offline hoffline => exact Bool.false_ne_true (hoffline.symm.trans hvalid.online)
    | unknown hunknown _ => exact Option.some_ne_none _ (hvalid.stored.symm.trans hunknown)
    | approved hstored h =>
      obtain rfl := Option.some.inj (hstored.symm.trans hvalid.stored)
      exact h happroved
    | replayed hstored _ hused =>
      obtain rfl := Option.some.inj (hstored.symm.trans hvalid.stored)
      exact hvalid.unused hused
    | presented _ h => exact h hpresented
    | raised h _ => exact hpasses _ h
  | passes h => exact absurd h (hpasses _)

theorem audited_applyProtectedChange_iff :
    Audited w .applied ((applyProtectedChange sha256 env approvalId present reauth outcome).run w) ↔
      ¬ApplyUnlogged sha256 w env.utcNow approvalId present reauth outcome := by
  by_cases hpasses : ∃ record, Passes sha256 w env.utcNow approvalId present reauth record
  · obtain ⟨record, hpasses⟩ := hpasses
    cases outcome with
    | raises e =>
      rw [run_applyProtectedChange_of_raises hpasses e]
      refine iff_of_false (not_audited_of_same rfl) (not_not_intro (.raised hpasses ?_))
      intro resultText h
      cases h
    | returns resultText =>
      cases resultText with
      | error e =>
        rw [run_applyProtectedChange_of_unshown hpasses e]
        refine iff_of_false (not_audited_of_same rfl) (not_not_intro (.raised hpasses ?_))
        intro resultText h
        cases h
      | ok resultText =>
        obtain ⟨entry, happlied, hrun⟩ := run_applyProtectedChange_of_returns hpasses resultText
        rw [hrun]
        exact iff_of_true ⟨entry, rfl, happlied⟩ (not_applyUnlogged_of_passes hpasses resultText)
  · rw [not_exists] at hpasses
    rw [← audited_checkApply_iff .applied hpasses]
    obtain ⟨e, w', hcheck, _⟩ := checkApply_error_of_not_passes hpasses
    have hrun : (applyProtectedChange sha256 env approvalId present reauth outcome).run w = .error e w' := by
      rw [applyProtectedChange, run_bind, hcheck]
    rw [hrun, hcheck]
    exact Iff.rfl

end Audit

end Approval

end AllTomorrow
