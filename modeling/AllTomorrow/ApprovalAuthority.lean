import AllTomorrow.DomainRecords
import AllTomorrow.RaisingState

/-!
# The laptop approval authority

`LaptopApprovalAuthority` of `approval.py`. Beside the authority stands the history of
what has become of its approvals, with every invocation of the apply capability: the
capability belongs to the caller, and all the authority knows of it is how it ends.
-/

namespace AllTomorrow

namespace Approval

open PyText (Printable)

inductive ApprovalExn where
  | approvalDenied (reason message : String)
  | valueError (message : String)
  | typeError (message : String)
  | overflowError (message : String)
  /-- an exception of the apply capability, or of `str` on what it has returned -/
  | capability (e : Exn)
  deriving DecidableEq

inductive ApprovalState where
  | issued | consumed | revoked
  deriving DecidableEq

def ApprovalState.value : ApprovalState → String
  | .issued => "ISSUED"
  | .consumed => "CONSUMED"
  | .revoked => "REVOKED"

structure ProtectedChangeRequest where
  proposalId : String
  proposalRevision : ℤ
  candidateArtifactHash : String
  baselineArtifactHash : String
  requestedAuthorityChangeHash : String
  evaluationRefs : List String := []
  protectionPolicyVersion : String := "1"
  deriving DecidableEq

/-- The separator of the parts, `"\x1f"`. -/
def unitSeparator : Char := Char.ofNat 0x1f

namespace ProtectedChangeRequest

def parts (request : ProtectedChangeRequest) : List String :=
  [request.proposalId, toString request.proposalRevision, request.candidateArtifactHash,
    request.baselineArtifactHash, request.requestedAuthorityChangeHash, request.protectionPolicyVersion]

/-- `"\x1f".join(parts)`. -/
def bindingText (request : ProtectedChangeRequest) : String :=
  (String.singleton unitSeparator).intercalate request.parts

/-- `hashlib.sha256(...).hexdigest()` is the parameter `sha256`. -/
def bindingDigest (sha256 : String → String) (request : ProtectedChangeRequest) : Except ApprovalExn String :=
  if Printable request.proposalRevision then .ok (sha256 request.bindingText)
  else .error (.valueError "Exceeds the limit (4300 digits) for integer string conversion")

end ProtectedChangeRequest

structure ApprovalRecord where
  approvalId : String
  request : ProtectedChangeRequest
  accountId : String
  nonce : String
  issuedAt : Datetime
  expiresAt : Datetime
  state : ApprovalState := .issued

def ApprovalRecord.isExpired (record : ApprovalRecord) (now : Datetime) : Bool := record.expiresAt ≤ now

inductive Decision where
  | approved | rejected | applied | denied
  deriving DecidableEq

structure AuditEntry where
  proposalId : String
  proposalRevision : ℤ
  bindingDigest : String
  decision : Decision
  accountId : String
  nonceState : String
  recordedAt : Datetime
  applyResultRef : Option String := none
  reason : Option String := none

structure ReauthContext where
  accountId : String
  verified : Bool
  originOk : Bool
  csrfOk : Bool
  reauthenticatedAt : Datetime

/-- The fields of the authority; `writeToken` has passed the check of the constructor. -/
structure LaptopApprovalAuthority where
  writeToken : String
  online : Bool
  ttl : ℤ
  records : InsertionDict String ApprovalRecord
  consumedNonces : List String
  audit : List AuditEntry
  writeToken_strong : 16 ≤ writeToken.length

def LaptopApprovalAuthority.new (writeToken : String) (online : Bool) (approvalTtlSeconds : ℤ) :
    Except ApprovalExn LaptopApprovalAuthority :=
  if h : 16 ≤ writeToken.length then
    match timedelta approvalTtlSeconds with
    | .error e => .error (.overflowError e.text)
    | .ok ttl => .ok ⟨writeToken, online, ttl, .empty, [], [], h⟩
  else .error (.valueError "authority_write_token must be a strong secret")

inductive ApprovalEvent where
  | revoked (approvalId : String)
  /-- the capability was invoked with the request, for the record that was stored -/
  | invoked (approvalId : String) (record : ApprovalRecord) (request : ProtectedChangeRequest) (reauth : ReauthContext)
      (now : Datetime)

structure ApprovalWorld where
  authority : LaptopApprovalAuthority
  history : List ApprovalEvent

abbrev ApprovalM := EStateM ApprovalExn ApprovalWorld

inductive CapabilityOutcome where
  | raises (e : Exn)
  /-- it returns; `resultText` is what `str` makes of the result -/
  | returns (resultText : Except Exn String)

/-- `secrets.token_hex(16)`. -/
def tokenHex (env : Supply) : String := (env []).uuid

/-- `hmac.compare_digest` on texts. -/
def compareDigest (a b : String) : Except ApprovalExn Bool :=
  if (a.toList ++ b.toList).all fun c => c.toNat < 128 then .ok (a = b)
  else .error (.typeError "comparing strings with non-ASCII characters is not supported")

section Methods

variable (sha256 : String → String)

def modifyAuthority (f : LaptopApprovalAuthority → LaptopApprovalAuthority) : ApprovalM Unit :=
  modify fun w => { w with authority := f w.authority }

/-- `_log`. -/
def log (env : Supply) (request : ProtectedChangeRequest) (decision : Decision) (accountId nonceState : String)
    (applyResultRef reason : Option String) : ApprovalM Unit := do
  let bindingDigest ← MonadExcept.ofExcept (request.bindingDigest sha256)
  let entry : AuditEntry :=
    { proposalId := request.proposalId, proposalRevision := request.proposalRevision, bindingDigest, decision,
      accountId, nonceState, recordedAt := env.utcNow, applyResultRef, reason }
  modifyAuthority fun a => { a with audit := a.audit ++ [entry] }

def deny {α : Type} (env : Supply) (request : ProtectedChangeRequest) (accountId nonceState reason : String)
    (denied : ApprovalExn) : ApprovalM α := do
  log sha256 env request .denied accountId nonceState none (some reason)
  throw denied

/-- `_require_fresh_reauth`. -/
def requireFreshReauth (env : Supply) (reauth : ReauthContext) (accountId : String) (request : ProtectedChangeRequest) :
    ApprovalM Unit := do
  if reauth.accountId ≠ accountId then
    deny sha256 env request reauth.accountId "n/a" "account_mismatch" (.approvalDenied "account_mismatch" "account_mismatch")
  if !reauth.verified then
    deny sha256 env request accountId "n/a" "reauth_required"
      (.approvalDenied "reauth_required" "fresh reauthentication required")
  if !reauth.originOk || !reauth.csrfOk then
    deny sha256 env request accountId "n/a" "csrf_or_origin"
      (.approvalDenied "csrf_or_origin" "cross-origin / CSRF check failed")

/-- `utc_now() + self.ttl`. -/
def deadline (now : Datetime) (ttl : ℤ) : Except ApprovalExn Datetime :=
  (addDelta now ttl).mapError fun e => .overflowError e.text

def approve (env : Supply) (request : ProtectedChangeRequest) (reauth : ReauthContext)
    (authorityWriteToken accountId : String) : ApprovalM ApprovalRecord := do
  let w ← get
  let ours ← MonadExcept.ofExcept (compareDigest authorityWriteToken w.authority.writeToken)
  if !ours then
    deny sha256 (env.sub 0) request accountId "n/a" "authority_write_denied"
      (.approvalDenied "authority_write_denied" "not the authority write credential")
  requireFreshReauth sha256 (env.sub 1) reauth accountId request
  let expiresAt ← MonadExcept.ofExcept (deadline (env.sub 5).utcNow w.authority.ttl)
  let record : ApprovalRecord :=
    { approvalId := tokenHex (env.sub 2), request, accountId, nonce := tokenHex (env.sub 3)
      issuedAt := (env.sub 4).utcNow, expiresAt }
  modifyAuthority fun a => { a with records := a.records.set record.approvalId record }
  log sha256 (env.sub 6) request .approved accountId "issued" none none
  return record

def revoke (env : Supply) (approvalId : String) : ApprovalM Unit := do
  let w ← get
  match w.authority.records.get? approvalId with
  | none => return ()
  | some record =>
    if record.state = .issued then
      modifyAuthority fun a => { a with records := a.records.set approvalId { record with state := .revoked } }
      modify fun w => { w with history := w.history ++ [.revoked approvalId] }
      log sha256 env record.request .rejected record.accountId "revoked" none none

def checkApply (env : Supply) (approvalId : String) (present : ProtectedChangeRequest) (reauth : ReauthContext) :
    ApprovalM ApprovalRecord := do
  let w ← get
  if !w.authority.online then
    throw (.approvalDenied "offline" "laptop authority offline; cannot apply")
  match w.authority.records.get? approvalId with
  | none =>
    deny sha256 (env.sub 0) present reauth.accountId "missing" "unknown_approval"
      (.approvalDenied "unknown_approval" "unknown_approval")
  | some record =>
    let now := env.utcNow
    if record.state ≠ .issued then
      deny sha256 (env.sub 0) record.request record.accountId record.state.value "not_issued"
        (.approvalDenied "approval_not_issued" ("state=" ++ record.state.value))
    -- a nonce that is used already leaves no entry
    if w.authority.consumedNonces.contains record.nonce then
      throw (.approvalDenied "nonce_replay" "nonce_replay")
    if record.isExpired now then
      deny sha256 (env.sub 0) record.request record.accountId "expired" "expired" (.approvalDenied "expired" "expired")
    requireFreshReauth sha256 (env.sub 0) reauth record.accountId record.request
    let presented ← MonadExcept.ofExcept (present.bindingDigest sha256)
    let approved ← MonadExcept.ofExcept (record.request.bindingDigest sha256)
    if presented ≠ approved then
      deny sha256 (env.sub 0) present record.accountId "issued" "binding_mismatch"
        (.approvalDenied "binding_mismatch" "candidate/request differs from approved")
    return record

/-- `apply_capability(present_request)`. -/
def applyCapability (outcome : CapabilityOutcome) (event : ApprovalEvent) : ApprovalM (Except Exn String) := do
  modify fun w => { w with history := w.history ++ [event] }
  match outcome with
  | .raises e => throw (.capability e)
  | .returns resultText => return resultText

def applyProtectedChange (env : Supply) (approvalId : String) (present : ProtectedChangeRequest) (reauth : ReauthContext)
    (outcome : CapabilityOutcome) : ApprovalM Unit := do
  let record ← checkApply sha256 env approvalId present reauth
  let resultText ← applyCapability outcome (.invoked approvalId record present reauth env.utcNow)
  modifyAuthority fun a =>
    { a with
      records := a.records.set approvalId { record with state := .consumed }
      consumedNonces := record.nonce :: a.consumedNonces }
  match resultText with
  | .error e => throw (.capability e)
  | .ok resultText =>
    log sha256 (env.sub 1) record.request .applied record.accountId "consumed" (some resultText) none

end Methods

/-! ## Calls as data -/

inductive ApprovalCall where
  | approve (env : Supply) (request : ProtectedChangeRequest) (reauth : ReauthContext)
      (authorityWriteToken accountId : String)
  | revoke (env : Supply) (approvalId : String)
  | applyProtectedChange (env : Supply) (approvalId : String) (present : ProtectedChangeRequest)
      (reauth : ReauthContext) (outcome : CapabilityOutcome)

def ApprovalCall.exec (sha256 : String → String) : ApprovalCall → ApprovalM Unit
  | .approve env request reauth token accountId => do
      let _ ← Approval.approve sha256 env request reauth token accountId
  | .revoke env approvalId => Approval.revoke sha256 env approvalId
  | .applyProtectedChange env approvalId present reauth outcome =>
      Approval.applyProtectedChange sha256 env approvalId present reauth outcome

def approvalStep (sha256 : String → String) (w : ApprovalWorld) (c : ApprovalCall) : ApprovalWorld :=
  (c.exec sha256 w).state

def ApprovalWorld.start (authority : LaptopApprovalAuthority) : ApprovalWorld := ⟨authority, []⟩

end Approval

end AllTomorrow
