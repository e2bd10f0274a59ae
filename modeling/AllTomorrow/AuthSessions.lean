import Mathlib.Data.List.Chain
import Mathlib.Data.List.Induction
import AllTomorrow.DomainRecords
import AllTomorrow.InsertionDict
import AllTomorrow.MachineRuns

/-!
# Sessions and lockouts

`auth.py`: which uses of a session are accepted after any sequence of calls, and how often a wrong password
is checked.
-/

namespace AllTomorrow.Auth

open InsertionDict (get?_erase get?_set_cases get?_set_of_ne)

open MachineRuns

inductive Role where
  | viewer | editor | owner
  deriving DecidableEq, Repr

structure PasswordHash where
  salt : String
  digest : String
  rounds : ℕ
  deriving DecidableEq

structure Session where
  sessionId : String
  userId : String
  role : Role
  csrfToken : String
  createdAt : Datetime
  lastSeenAt : Datetime
  idleTtl : ℤ
  absoluteTtl : ℤ
  revoked : Bool := false
  deriving DecidableEq

def Session.isValid (s : Session) (now : Datetime) : Bool :=
  if s.revoked then false
  else if now - s.lastSeenAt > s.idleTtl then false
  else if now - s.createdAt > s.absoluteTtl then false
  else true

/-- `_Account` -/
structure Account where
  userId : String
  password : PasswordHash
  role : Role
  failedAttempts : ℕ := 0
  lockedUntil : Option Datetime := none
  deriving DecidableEq

structure AuthEngine where
  accounts : InsertionDict String Account
  sessions : InsertionDict String Session
  idleTtl : ℤ
  absoluteTtl : ℤ
  maxFailed : ℤ
  lockout : ℤ

def authError (message : String) : Exn := .foreign "AuthError" message

namespace AuthEngine

-- the hex digits of `hashlib.pbkdf2_hmac("sha256", password, salt, rounds)`
variable (pbkdf2 : String → String → ℕ → String)

def new (idleTtlSeconds absoluteTtlSeconds maxFailed lockoutSeconds : ℤ) : Except Exn AuthEngine := do
  let idleTtl ← timedelta idleTtlSeconds
  let absoluteTtl ← timedelta absoluteTtlSeconds
  let lockout ← timedelta lockoutSeconds
  return { accounts := .empty, sessions := .empty, idleTtl, absoluteTtl, maxFailed, lockout }

def hashPassword (password salt : String) : Except Exn PasswordHash :=
  if password = "" then .error (authError "password must be non-empty")
  else .ok ⟨salt, pbkdf2 password salt 200000, 200000⟩

def verifyPassword (password : String) (ph : PasswordHash) : Bool := pbkdf2 password ph.salt ph.rounds = ph.digest

def register (s : AuthEngine) (env : Supply) (userId password : String) (role : Role) : Except Exn Unit × AuthEngine :=
  match hashPassword pbkdf2 password (env []).uuid with
  | .error e => (.error e, s)
  | .ok hash => (.ok (), { s with accounts := s.accounts.set userId { userId, password := hash, role } })

/-- `self._sessions.pop(prior_session_id, None)` where there is a prior session -/
def dropPrior (sessions : InsertionDict String Session) : Option String → InsertionDict String Session
  | none => sessions
  | some prior => sessions.erase prior

def login (s : AuthEngine) (env : Supply) (userId password : String) (priorSessionId : Option String) :
    Except Exn Session × AuthEngine :=
  let now := env.utcNow
  match s.accounts.get? userId with
  | none => (.error (authError "invalid credentials"), s)
  | some acct =>
    if acct.lockedUntil.any fun until_ => now < until_ then (.error (authError "account temporarily locked"), s)
    else if ¬verifyPassword pbkdf2 password acct.password then
      let acct := { acct with failedAttempts := acct.failedAttempts + 1 }
      if s.maxFailed ≤ acct.failedAttempts then
        match addDelta now s.lockout with
        -- the attempt is counted, and the account stays open
        | .error e => (.error e, { s with accounts := s.accounts.set userId acct })
        | .ok until_ =>
          (.error (authError "invalid credentials"),
            { s with accounts := s.accounts.set userId { acct with lockedUntil := some until_ } })
      else (.error (authError "invalid credentials"), { s with accounts := s.accounts.set userId acct })
    else
      let session : Session :=
        { sessionId := (env.sub 0 []).uuid, userId, role := acct.role, csrfToken := (env.sub 1 []).uuid, createdAt := now
          lastSeenAt := now, idleTtl := s.idleTtl, absoluteTtl := s.absoluteTtl }
      (.ok session, { s with
        accounts := s.accounts.set userId { acct with failedAttempts := 0, lockedUntil := none }
        sessions := (dropPrior s.sessions priorSessionId).set session.sessionId session })

/-- `hmac.compare_digest` only compares texts of ASCII characters. -/
def checkCsrf (csrfToken : Option String) (expected : String) : Except Exn Unit :=
  match csrfToken with
  | none => .error (authError "CSRF token invalid")
  | some token =>
    if ¬(token.toList ++ expected.toList).all fun c => c.toNat < 128 then
      .error (.foreign "TypeError" "comparing strings with non-ASCII characters is not supported")
    else if token = expected then .ok () else .error (authError "CSRF token invalid")

def authenticate (s : AuthEngine) (env : Supply) (sessionId : String) (csrfToken : Option String) (mutating : Bool) :
    Except Exn Session × AuthEngine :=
  let now := env.utcNow
  match s.sessions.get? sessionId with
  | none => (.error (authError "invalid or expired session"), s)
  | some session =>
    if ¬session.isValid now then (.error (authError "invalid or expired session"), s)
    else
      match (if mutating then checkCsrf csrfToken session.csrfToken else .ok ()) with
      | .error e => (.error e, s)
      | .ok () =>
        let refreshed := { session with lastSeenAt := now }
        (.ok refreshed, { s with sessions := s.sessions.set sessionId refreshed })

def revoke (s : AuthEngine) (sessionId : String) : AuthEngine :=
  match s.sessions.get? sessionId with
  | none => s
  | some session => { s with sessions := s.sessions.set sessionId { session with revoked := true } }

end AuthEngine

/-! ## Calls -/

inductive AuthOp where
  | register (userId password : String) (role : Role)
  | login (userId password : String) (priorSessionId : Option String)
  | authenticate (sessionId : String) (csrfToken : Option String) (mutating : Bool)
  | revoke (sessionId : String)

structure AuthCall where
  op : AuthOp
  env : Supply

def AuthCall.now (c : AuthCall) : ℤ := c.env.utcNow

namespace AuthEngine

variable (pbkdf2 : String → String → ℕ → String)

def step (s : AuthEngine) (c : AuthCall) : AuthEngine :=
  match c.op with
  | .register userId password role => (s.register pbkdf2 c.env userId password role).2
  | .login userId password prior => (s.login pbkdf2 c.env userId password prior).2
  | .authenticate sessionId csrfToken mutating => (s.authenticate c.env sessionId csrfToken mutating).2
  | .revoke sessionId => s.revoke sessionId

def Issues (s : AuthEngine) (c : AuthCall) (session : Session) : Prop :=
  ∃ userId password prior, c.op = .login userId password prior ∧ (s.login pbkdf2 c.env userId password prior).1 = .ok session

/-- The call is a login that returns and drops the session as the prior one. -/
def RotatesOut (s : AuthEngine) (c : AuthCall) (sessionId : String) : Prop :=
  ∃ userId password session, c.op = .login userId password (some sessionId) ∧
    (s.login pbkdf2 c.env userId password (some sessionId)).1 = .ok session

def uses (s : AuthEngine) (c : AuthCall) (sessionId : String) : Bool :=
  match c.op with
  | .authenticate id csrfToken mutating => id = sessionId && (s.authenticate c.env id csrfToken mutating).1.isOk
  | _ => false

def useTimes (s : AuthEngine) (sessionId : String) : List AuthCall → List Datetime
  | [] => []
  | c :: ops =>
    (if s.uses c sessionId then [c.now] else []) ++ useTimes (step pbkdf2 s c) sessionId ops

def checksWrong (s : AuthEngine) (c : AuthCall) (userId : String) : Bool :=
  match c.op with
  | .login user password _ => user = userId && (s.accounts.get? user).any fun acct =>
      !(acct.lockedUntil.any fun until_ => c.now < until_) && !verifyPassword pbkdf2 password acct.password
  | _ => false

def wrongChecks (s : AuthEngine) (userId : String) : List AuthCall → ℕ
  | [] => 0
  | c :: ops => (if s.checksWrong pbkdf2 c userId then 1 else 0) + wrongChecks (step pbkdf2 s c) userId ops

/-- What the next wrong password makes of `locked_until`. -/
def lockedAfter (s : AuthEngine) (acct : Account) (now : Datetime) : Option Datetime :=
  if s.maxFailed ≤ (acct.failedAttempts + 1 : ℕ) then ((addDelta now s.lockout).toOption <|> acct.lockedUntil)
  else acct.lockedUntil

/-- A wrong password that has to lock the account does so before the last day of the calendar. -/
def LocksInTime (s : AuthEngine) (c : AuthCall) : Prop :=
  ∀ userId acct, s.checksWrong pbkdf2 c userId = true → s.accounts.get? userId = some acct →
    s.maxFailed ≤ (acct.failedAttempts + 1 : ℕ) → ∃ until_, addDelta c.now s.lockout = .ok until_

/-- The call makes a new account of the user, or lets the user in. -/
def Resets (s : AuthEngine) (c : AuthCall) (userId : String) : Prop :=
  (∃ password role, c.op = .register userId password role ∧ (s.register pbkdf2 c.env userId password role).1 = .ok ()) ∨
    ∃ password prior session, c.op = .login userId password prior ∧ (s.login pbkdf2 c.env userId password prior).1 = .ok session

/-! ## One call -/

theorem checkCsrf_ok {csrfToken : Option String} {expected : String} (h : checkCsrf csrfToken expected = .ok ()) :
    csrfToken = some expected := by
  unfold checkCsrf at h
  cases csrfToken with
  | none => cases h
  | some token =>
    dsimp only at h
    split_ifs at h with hascii hsame
    rw [hsame]

/-- An accepted use finds a valid session, and moves its window. -/
theorem authenticate_cases (s : AuthEngine) (env : Supply) (sessionId : String) (csrfToken : Option String) (mutating : Bool) :
    (∃ e, s.authenticate env sessionId csrfToken mutating = (.error e, s)) ∨
      ∃ session, s.sessions.get? sessionId = some session ∧ session.isValid env.utcNow = true ∧
        (mutating = true → csrfToken = some session.csrfToken) ∧
        s.authenticate env sessionId csrfToken mutating = (.ok { session with lastSeenAt := env.utcNow },
          { s with sessions := s.sessions.set sessionId { session with lastSeenAt := env.utcNow } }) := by
  unfold authenticate
  cases hsession : s.sessions.get? sessionId with
  | none => exact .inl ⟨_, rfl⟩
  | some session =>
    dsimp only
    by_cases hvalid : session.isValid env.utcNow = true
    · rw [if_neg (not_not.mpr hvalid)]
      cases hcheck : (if mutating then checkCsrf csrfToken session.csrfToken else .ok ()) with
      | error e => exact .inl ⟨_, rfl⟩
      | ok _ =>
        refine .inr ⟨session, rfl, hvalid, fun hmutating => ?_, rfl⟩
        rw [if_pos hmutating] at hcheck
        exact checkCsrf_ok hcheck
    · rw [if_pos hvalid]
      exact .inl ⟨_, rfl⟩

theorem isValid_iff (session : Session) (now : Datetime) :
    session.isValid now = true ↔
      session.revoked = false ∧ now - session.lastSeenAt ≤ session.idleTtl ∧ now - session.createdAt ≤ session.absoluteTtl := by
  unfold Session.isValid
  split_ifs with hrevoked hidle habsolute
  · simp [hrevoked]
  · exact ⟨fun h => (by cases h), fun h => absurd h.2.1 (Int.not_le.mpr hidle)⟩
  · exact ⟨fun h => (by cases h), fun h => absurd h.2.2 (Int.not_le.mpr habsolute)⟩
  · exact ⟨fun _ => ⟨Bool.eq_false_of_not_eq_true hrevoked, Int.not_lt.mp hidle, Int.not_lt.mp habsolute⟩, fun _ => rfl⟩

/-- A login is refused, checks a wrong password, or returns a new session. -/
theorem login_cases (s : AuthEngine) (env : Supply) (userId password : String) (prior : Option String) :
    ((∃ e, s.login pbkdf2 env userId password prior = (.error e, s)) ∧
        s.checksWrong pbkdf2 ⟨.login userId password prior, env⟩ userId = false) ∨
      ∃ acct, s.accounts.get? userId = some acct ∧ (∀ until_, acct.lockedUntil = some until_ → until_ ≤ env.utcNow) ∧
        ((s.checksWrong pbkdf2 ⟨.login userId password prior, env⟩ userId = true ∧
            ∃ e, s.login pbkdf2 env userId password prior = (.error e, { s with
              accounts := s.accounts.set userId { acct with
                failedAttempts := acct.failedAttempts + 1, lockedUntil := s.lockedAfter acct env.utcNow } })) ∨
          ∃ session : Session, session.createdAt = env.utcNow ∧ session.lastSeenAt = env.utcNow ∧ session.idleTtl = s.idleTtl ∧
            session.absoluteTtl = s.absoluteTtl ∧
            s.login pbkdf2 env userId password prior = (.ok session, { s with
              accounts := s.accounts.set userId { acct with failedAttempts := 0, lockedUntil := none }
              sessions := (dropPrior s.sessions prior).set session.sessionId session })) := by
  unfold login
  cases hacct : s.accounts.get? userId with
  | none =>
    refine .inl ⟨⟨_, rfl⟩, ?_⟩
    simp [checksWrong, hacct]
  | some acct =>
    dsimp only
    by_cases hlocked : (acct.lockedUntil.any fun until_ => env.utcNow < until_) = true
    · rw [if_pos hlocked]
      refine .inl ⟨⟨_, rfl⟩, ?_⟩
      unfold checksWrong AuthCall.now
      dsimp only
      rw [hacct, Option.any_some, hlocked]
      simp
    · rw [if_neg hlocked]
      refine .inr ⟨acct, rfl, fun until_ huntil => ?_, ?_⟩
      · rw [huntil] at hlocked
        simpa using hlocked
      by_cases hpassword : verifyPassword pbkdf2 password acct.password = true
      · rw [if_neg (not_not.mpr hpassword)]
        exact .inr ⟨_, rfl, rfl, rfl, rfl, rfl⟩
      · rw [if_pos hpassword]
        refine .inl ⟨?_, ?_⟩
        · unfold checksWrong AuthCall.now
          dsimp only
          rw [hacct, Option.any_some]
          simp [hlocked, hpassword]
        · unfold lockedAfter
          by_cases hlocks : s.maxFailed ≤ (acct.failedAttempts + 1 : ℕ)
          · rw [if_pos hlocks, if_pos hlocks]
            cases addDelta env.utcNow s.lockout with
            | error e => exact ⟨e, rfl⟩
            | ok until_ => exact ⟨_, rfl⟩
          · rw [if_neg hlocks, if_neg hlocks]
            exact ⟨_, rfl⟩

/-! ## Histories of sessions -/

theorem useTimes_append (s : AuthEngine) (sessionId : String) (ops ops' : List AuthCall) :
    s.useTimes pbkdf2 sessionId (ops ++ ops') =
      s.useTimes pbkdf2 sessionId ops ++ (run (step pbkdf2) s ops).useTimes pbkdf2 sessionId ops' := by
  induction ops generalizing s with
  | nil => rfl
  | cons c ops ih => simp only [List.cons_append, useTimes, ih, run_cons, List.append_assoc]

structure SinceLogin (s₁ : AuthEngine) (issued : Session) (after : List AuthCall) (session : Session) : Prop where
  token : session.csrfToken = issued.csrfToken
  created : session.createdAt = issued.createdAt
  idleTtl : session.idleTtl = issued.idleTtl
  absoluteTtl : session.absoluteTtl = issued.absoluteTtl
  unrevoked : session.revoked = false → ∀ c ∈ after, c.op ≠ .revoke issued.sessionId
  unrotated : EveryStep (step pbkdf2) (fun s c => ¬s.RotatesOut pbkdf2 c issued.sessionId) s₁ after
  gaps : List.IsChain (fun a b => b - a ≤ issued.idleTtl) (issued.createdAt :: s₁.useTimes pbkdf2 issued.sessionId after)
  last : (issued.createdAt :: s₁.useTimes pbkdf2 issued.sessionId after).getLast? = some session.lastSeenAt

variable {pbkdf2} {c : AuthCall}

/-- A call that does not rotate the session out, and that does not revoke it unless it says so. -/
theorem SinceLogin.snoc {s₁ : AuthEngine} {issued session : Session} {after : List AuthCall}
    (h : SinceLogin pbkdf2 s₁ issued after session) {session' : Session}
    (htoken : session'.csrfToken = session.csrfToken) (hcreated : session'.createdAt = session.createdAt)
    (hidle : session'.idleTtl = session.idleTtl) (habsolute : session'.absoluteTtl = session.absoluteTtl)
    (hrevoked : session'.revoked = false → session.revoked = false ∧ c.op ≠ .revoke issued.sessionId)
    (hrotated : ¬(run (step pbkdf2) s₁ after).RotatesOut pbkdf2 c issued.sessionId)
    (hused : if (run (step pbkdf2) s₁ after).uses c issued.sessionId then
      session'.lastSeenAt = c.now ∧ c.now - session.lastSeenAt ≤ session.idleTtl else session'.lastSeenAt = session.lastSeenAt) :
    SinceLogin pbkdf2 s₁ issued (after ++ [c]) session' := by
  have htimes : s₁.useTimes pbkdf2 issued.sessionId (after ++ [c]) = s₁.useTimes pbkdf2 issued.sessionId after ++
      if (run (step pbkdf2) s₁ after).uses c issued.sessionId then [c.now] else [] := by
    rw [useTimes_append]
    simp only [useTimes, List.append_nil]
  refine ⟨htoken.trans h.token, hcreated.trans h.created, hidle.trans h.idleTtl, habsolute.trans h.absoluteTtl, ?_,
    everyStep_snoc h.unrotated hrotated, ?_, ?_⟩
  · intro hlive c' hc'
    obtain ⟨hbefore, hnow⟩ := hrevoked hlive
    rcases List.mem_append.mp hc' with hold | hnew
    · exact h.unrevoked hbefore c' hold
    · rw [List.mem_singleton.mp hnew]
      exact hnow
  · rw [htimes, ← List.cons_append]
    split at hused
    · next huse =>
      rw [if_pos huse]
      refine h.gaps.append (List.isChain_singleton _) ?_
      intro x hx y hy
      rw [h.last] at hx
      cases hx
      cases hy
      rw [← h.idleTtl]
      exact hused.2
    · next huse =>
      rw [if_neg huse, List.append_nil]
      exact h.gaps
  · rw [htimes, ← List.cons_append]
    split at hused
    · next huse =>
      rw [if_pos huse, List.getLast?_append]
      simp [hused.1]
    · next huse =>
      rw [if_neg huse, List.append_nil, hused]
      exact h.last

/-- Each stored session was returned by a login, and is what the calls since then made of it. -/
def Issued (pbkdf2 : String → String → ℕ → String) (init : AuthEngine) (ops : List AuthCall) (session : Session) (sessionId : String) :
    Prop :=
  ∃ before c after issued, ops = before ++ c :: after ∧ Issues pbkdf2 (run (step pbkdf2) init before) c issued ∧
    issued.sessionId = sessionId ∧ issued.createdAt = c.now ∧ issued.idleTtl = init.idleTtl ∧ issued.absoluteTtl = init.absoluteTtl ∧
    SinceLogin pbkdf2 (run (step pbkdf2) init (before ++ [c])) issued after session

theorem register_cases (pbkdf2 : String → String → ℕ → String) (s : AuthEngine) (env : Supply) (userId password : String)
    (role : Role) :
    (∃ e, s.register pbkdf2 env userId password role = (.error e, s)) ∨
      ∃ acct : Account, acct.failedAttempts = 0 ∧ acct.lockedUntil = none ∧
        s.register pbkdf2 env userId password role = (.ok (), { s with accounts := s.accounts.set userId acct }) := by
  unfold register hashPassword
  split_ifs
  · exact .inl ⟨_, rfl⟩
  · exact .inr ⟨_, rfl, rfl, rfl⟩

variable (pbkdf2) in
theorem step_limits (s : AuthEngine) (c : AuthCall) :
    (step pbkdf2 s c).idleTtl = s.idleTtl ∧ (step pbkdf2 s c).absoluteTtl = s.absoluteTtl ∧
      (step pbkdf2 s c).maxFailed = s.maxFailed ∧ (step pbkdf2 s c).lockout = s.lockout := by
  obtain ⟨op, env⟩ := c
  cases op with
  | register userId password role =>
    rcases register_cases pbkdf2 s env userId password role with ⟨e, h⟩ | ⟨acct, -, -, h⟩ <;>
      exact ⟨by simp only [step, h], by simp only [step, h], by simp only [step, h], by simp only [step, h]⟩
  | login userId password prior =>
    rcases login_cases pbkdf2 s env userId password prior with ⟨⟨e, h⟩, -⟩ | ⟨acct, -, -, ⟨-, e, h⟩ | ⟨session, -, -, -, -, h⟩⟩ <;>
      exact ⟨by simp only [step, h], by simp only [step, h], by simp only [step, h], by simp only [step, h]⟩
  | authenticate sessionId csrfToken mutating =>
    rcases authenticate_cases s env sessionId csrfToken mutating with ⟨e, h⟩ | ⟨session, -, -, -, h⟩ <;>
      exact ⟨by simp only [step, h], by simp only [step, h], by simp only [step, h], by simp only [step, h]⟩
  | revoke sessionId =>
    simp only [step, revoke]
    cases s.sessions.get? sessionId <;> exact ⟨rfl, rfl, rfl, rfl⟩

variable (pbkdf2) in
theorem run_limits (s : AuthEngine) (ops : List AuthCall) :
    (run (step pbkdf2) s ops).idleTtl = s.idleTtl ∧ (run (step pbkdf2) s ops).absoluteTtl = s.absoluteTtl ∧
      (run (step pbkdf2) s ops).maxFailed = s.maxFailed ∧ (run (step pbkdf2) s ops).lockout = s.lockout := by
  refine invariant_run (I := fun s' : AuthEngine => s'.idleTtl = s.idleTtl ∧ s'.absoluteTtl = s.absoluteTtl ∧
    s'.maxFailed = s.maxFailed ∧ s'.lockout = s.lockout) (fun s' c h => ?_) ⟨rfl, rfl, rfl, rfl⟩ ops
  obtain ⟨hidle, habsolute, hmax, hlockout⟩ := step_limits pbkdf2 s' c
  exact ⟨hidle.trans h.1, habsolute.trans h.2.1, hmax.trans h.2.2.1, hlockout.trans h.2.2.2⟩

variable {ops : List AuthCall} {init : AuthEngine} {sessionId : String}

theorem Issued.changed {session session' : Session}
    (h : Issued pbkdf2 init ops session sessionId)
    (htoken : session'.csrfToken = session.csrfToken) (hcreated : session'.createdAt = session.createdAt)
    (hidle : session'.idleTtl = session.idleTtl) (habsolute : session'.absoluteTtl = session.absoluteTtl)
    (hrevoked : session'.revoked = false → session.revoked = false ∧ c.op ≠ .revoke sessionId)
    (hrotated : ¬(run (step pbkdf2) init ops).RotatesOut pbkdf2 c sessionId)
    (hused : if (run (step pbkdf2) init ops).uses c sessionId then
      session'.lastSeenAt = c.now ∧ c.now - session.lastSeenAt ≤ session.idleTtl else session'.lastSeenAt = session.lastSeenAt) :
    Issued pbkdf2 init (ops ++ [c]) session' sessionId := by
  obtain ⟨before, login, after, issued, rfl, hissues, rfl, hissuedAt, hissuedIdle, hissuedAbsolute, hsince⟩ := h
  have hstate : run (step pbkdf2) init (before ++ login :: after) =
      run (step pbkdf2) (run (step pbkdf2) init (before ++ [login])) after := by
    rw [← run_append, List.append_assoc, List.singleton_append]
  rw [hstate] at hrotated hused
  exact ⟨before, login, after ++ [c], issued, by rw [List.append_assoc, List.cons_append], hissues, rfl, hissuedAt, hissuedIdle,
    hissuedAbsolute, hsince.snoc htoken hcreated hidle habsolute hrevoked hrotated hused⟩

variable {session : Session}

theorem Issued.same (h : Issued pbkdf2 init ops session sessionId)
    (hrotated : ¬(run (step pbkdf2) init ops).RotatesOut pbkdf2 c sessionId)
    (hused : (run (step pbkdf2) init ops).uses c sessionId = false) (hrevoked : c.op ≠ .revoke sessionId) :
    Issued pbkdf2 init (ops ++ [c]) session sessionId := by
  refine h.changed rfl rfl rfl rfl (fun hlive => ⟨hlive, hrevoked⟩) hrotated ?_
  rw [hused]
  rfl

theorem not_rotatesOut_of_error {s : AuthEngine} {env : Supply} {userId password : String} {prior : Option String} {e : Exn}
    {s' : AuthEngine} (h : s.login pbkdf2 env userId password prior = (.error e, s')) :
    ¬s.RotatesOut pbkdf2 ⟨.login userId password prior, env⟩ sessionId := by
  rintro ⟨_, _, _, hop, hreturns⟩
  cases hop
  rw [h] at hreturns
  cases hreturns

theorem get?_dropPrior {sessions : InsertionDict String Session} {prior : Option String}
    (h : (dropPrior sessions prior).get? sessionId = some session) : sessions.get? sessionId = some session ∧ prior ≠ some sessionId := by
  cases prior with
  | none => exact ⟨h, fun hprior => (by cases hprior)⟩
  | some id =>
    rw [dropPrior, get?_erase] at h
    split at h
    · cases h
    · next hne => exact ⟨h, fun hprior => hne (Option.some.inj hprior).symm⟩

def AllIssued (pbkdf2 : String → String → ℕ → String) (init : AuthEngine) (ops : List AuthCall) : Prop :=
  ∀ sessionId session, (run (step pbkdf2) init ops).sessions.get? sessionId = some session → Issued pbkdf2 init ops session sessionId

section AllIssued

variable (hissued : AllIssued pbkdf2 init ops)
include hissued

theorem AllIssued.register {env : Supply} {userId password : String} {role : Role}
    (h : (step pbkdf2 (run (step pbkdf2) init ops) ⟨.register userId password role, env⟩).sessions.get? sessionId = some session) :
    Issued pbkdf2 init (ops ++ [⟨.register userId password role, env⟩]) session sessionId := by
  have hsame : (step pbkdf2 (run (step pbkdf2) init ops) ⟨.register userId password role, env⟩).sessions =
      (run (step pbkdf2) init ops).sessions := by
    rcases register_cases pbkdf2 (run (step pbkdf2) init ops) env userId password role with ⟨e, herror⟩ | ⟨acct, -, -, hok⟩
    · simp only [step, herror]
    · simp only [step, hok]
  rw [hsame] at h
  refine (hissued sessionId session h).same ?_ rfl (fun hop => by cases hop)
  rintro ⟨_, _, _, hop, -⟩
  cases hop

theorem AllIssued.login {env : Supply} {userId password : String} {prior : Option String}
    (h : (step pbkdf2 (run (step pbkdf2) init ops) ⟨.login userId password prior, env⟩).sessions.get? sessionId = some session) :
    Issued pbkdf2 init (ops ++ [⟨.login userId password prior, env⟩]) session sessionId := by
  have hlimits := run_limits pbkdf2 init ops
  rcases login_cases pbkdf2 (run (step pbkdf2) init ops) env userId password prior with ⟨⟨e, herror⟩, -⟩ |
    ⟨acct, -, -, ⟨-, e, herror⟩ | ⟨new, hcreated, hseen, hidle, habsolute, hok⟩⟩
  · simp only [step, herror] at h
    exact (hissued sessionId session h).same (not_rotatesOut_of_error herror) rfl (fun hop => by cases hop)
  · simp only [step, herror] at h
    exact (hissued sessionId session h).same (not_rotatesOut_of_error herror) rfl (fun hop => by cases hop)
  simp only [step, hok] at h
  rcases get?_set_cases (dropPrior (run (step pbkdf2) init ops).sessions prior) new.sessionId new sessionId with
    ⟨rfl, hset⟩ | ⟨hother, hset⟩
  · -- the session that this login returns
    rw [hset] at h
    cases h
    refine ⟨ops, _, [], session, rfl, ⟨userId, password, prior, rfl, by rw [hok]⟩, rfl, hcreated, hidle.trans hlimits.1,
      habsolute.trans hlimits.2.1, ⟨rfl, rfl, rfl, rfl, fun _ c hc => (by cases hc), everyStep_nil,
      List.isChain_singleton _, ?_⟩⟩
    rw [hseen, hcreated]
    rfl
  · rw [hset] at h
    obtain ⟨hkept, hprior⟩ := get?_dropPrior h
    refine (hissued sessionId session hkept).same ?_ rfl (fun hop => by cases hop)
    rintro ⟨_, _, _, hop, -⟩
    cases hop
    exact hprior rfl

theorem AllIssued.authenticate {env : Supply} {id : String} {csrfToken : Option String} {mutating : Bool}
    (h : (step pbkdf2 (run (step pbkdf2) init ops) ⟨.authenticate id csrfToken mutating, env⟩).sessions.get? sessionId =
      some session) : Issued pbkdf2 init (ops ++ [⟨.authenticate id csrfToken mutating, env⟩]) session sessionId := by
  have hrotated : ¬(run (step pbkdf2) init ops).RotatesOut pbkdf2 ⟨.authenticate id csrfToken mutating, env⟩ sessionId := by
    rintro ⟨_, _, _, hop, -⟩
    cases hop
  rcases authenticate_cases (run (step pbkdf2) init ops) env id csrfToken mutating with ⟨e, herror⟩ |
    ⟨found, hfound, hvalid, -, hok⟩
  · simp only [step, herror] at h
    refine (hissued sessionId session h).same hrotated ?_ (fun hop => by cases hop)
    simp only [uses, herror, Except.isOk, Except.toBool, Bool.and_false]
  simp only [step, hok] at h
  rcases get?_set_cases (run (step pbkdf2) init ops).sessions id { found with lastSeenAt := env.utcNow } sessionId
    with ⟨rfl, hset⟩ | ⟨hother, hset⟩
  · rw [hset] at h
    cases h
    have hused : (run (step pbkdf2) init ops).uses ⟨.authenticate sessionId csrfToken mutating, env⟩ sessionId = true := by
      simp only [uses, hok, Except.isOk, Except.toBool, decide_true, Bool.and_true]
    refine (hissued sessionId found hfound).changed rfl rfl rfl rfl (fun hlive => ⟨hlive, fun hop => by cases hop⟩) hrotated ?_
    rw [if_pos hused]
    exact ⟨rfl, ((isValid_iff found env.utcNow).mp hvalid).2.1⟩
  · rw [hset] at h
    refine (hissued sessionId session h).same hrotated ?_ (fun hop => by cases hop)
    have hne : ¬id = sessionId := fun he => hother he.symm
    simp only [uses, hne, decide_false, Bool.false_and]

theorem AllIssued.revoke {env : Supply} {id : String}
    (h : (step pbkdf2 (run (step pbkdf2) init ops) ⟨.revoke id, env⟩).sessions.get? sessionId = some session) :
    Issued pbkdf2 init (ops ++ [⟨.revoke id, env⟩]) session sessionId := by
  have hrotated : ¬(run (step pbkdf2) init ops).RotatesOut pbkdf2 ⟨.revoke id, env⟩ sessionId := by
    rintro ⟨_, _, _, hop, -⟩
    cases hop
  simp only [step, AuthEngine.revoke] at h
  cases hfound : (run (step pbkdf2) init ops).sessions.get? id with
  | none =>
    rw [hfound] at h
    refine (hissued sessionId session h).same hrotated rfl (fun hop => ?_)
    cases hop
    rw [hfound] at h
    cases h
  | some found =>
    rw [hfound] at h
    dsimp only at h
    rcases get?_set_cases (run (step pbkdf2) init ops).sessions id { found with revoked := true } sessionId
      with ⟨rfl, hset⟩ | ⟨hother, hset⟩
    · rw [hset] at h
      cases h
      exact (hissued sessionId found hfound).changed rfl rfl rfl rfl (fun hlive => by cases hlive) hrotated rfl
    · rw [hset] at h
      exact (hissued sessionId session h).same hrotated rfl (fun hop => hother (AuthOp.revoke.inj hop).symm)

end AllIssued

theorem issued_run (hinit : init.sessions = .empty) (ops : List AuthCall) : AllIssued pbkdf2 init ops := by
  induction ops using List.reverseRecOn with
  | nil =>
    intro sessionId session h
    rw [run_nil, hinit] at h
    cases h
  | append_singleton ops c ih =>
    intro sessionId session h
    rw [run_append] at h
    obtain ⟨op, env⟩ := c
    cases op with
    | register userId password role => exact ih.register h
    | login userId password prior => exact ih.login h
    | authenticate id csrfToken mutating => exact ih.authenticate h
    | revoke id => exact ih.revoke h

/-- What an accepted use of a session says about the calls before it. -/
theorem use_accepted (hinit : init.sessions = .empty) (ops : List AuthCall) (env : Supply) (sessionId : String)
    (csrfToken : Option String) (mutating : Bool)
    (hok : ((run (step pbkdf2) init ops).authenticate env sessionId csrfToken mutating).1 = .ok session) :
    ∃ before c after issued, ops = before ++ c :: after ∧ Issues pbkdf2 (run (step pbkdf2) init before) c issued ∧
      issued.sessionId = sessionId ∧ (∀ c' ∈ after, c'.op ≠ .revoke sessionId) ∧
      EveryStep (step pbkdf2) (fun s c => ¬s.RotatesOut pbkdf2 c sessionId) (run (step pbkdf2) init (before ++ [c])) after ∧
      env.utcNow - c.now ≤ init.absoluteTtl ∧
      List.IsChain (fun a b => b - a ≤ init.idleTtl)
        (c.now :: (run (step pbkdf2) init (before ++ [c])).useTimes pbkdf2 sessionId after ++ [env.utcNow]) ∧
      (mutating = true → csrfToken = some issued.csrfToken) := by
  rcases authenticate_cases (run (step pbkdf2) init ops) env sessionId csrfToken mutating with ⟨e, herror⟩ |
    ⟨found, hfound, hvalid, hcsrf, -⟩
  · rw [herror] at hok
    cases hok
  obtain ⟨before, c, after, issued, hsplit, hissues, rfl, hcreated, hidle, habsolute, hsince⟩ :=
    issued_run hinit ops sessionId found hfound
  obtain ⟨hlive, hgap, hage⟩ := (isValid_iff found env.utcNow).mp hvalid
  rw [hsince.idleTtl, hidle] at hgap
  rw [hsince.created, hcreated, hsince.absoluteTtl, habsolute] at hage
  have hgaps := hsince.gaps
  have hlast := hsince.last
  rw [hcreated, hidle] at hgaps
  rw [hcreated] at hlast
  refine ⟨before, c, after, issued, hsplit, hissues, rfl, hsince.unrevoked hlive, hsince.unrotated, hage, ?_, ?_⟩
  · refine hgaps.append (List.isChain_singleton _) fun x hx y hy => ?_
    rw [hlast] at hx
    cases hx
    cases hy
    exact hgap
  · intro hmutating
    rw [← hsince.token]
    exact hcsrf hmutating

/-! ## Wrong passwords -/

/-- A call that does not reset the account of the user leaves it, or checks a wrong password of it. -/
theorem account_step (s : AuthEngine) (c : AuthCall) (userId : String) (hreset : ¬s.Resets pbkdf2 c userId) :
    (s.checksWrong pbkdf2 c userId = false ∧ (step pbkdf2 s c).accounts.get? userId = s.accounts.get? userId) ∨
      (s.checksWrong pbkdf2 c userId = true ∧ ∃ acct, s.accounts.get? userId = some acct ∧
        (∀ until_, acct.lockedUntil = some until_ → until_ ≤ c.now) ∧
        (step pbkdf2 s c).accounts.get? userId = some { acct with
          failedAttempts := acct.failedAttempts + 1, lockedUntil := s.lockedAfter acct c.now }) := by
  obtain ⟨op, env⟩ := c
  cases op with
  | register user password role =>
    refine .inl ⟨rfl, ?_⟩
    rcases register_cases pbkdf2 s env user password role with ⟨e, herror⟩ | ⟨acct, -, -, hok⟩
    · simp only [step, herror]
    · simp only [step, hok]
      refine get?_set_of_ne _ _ ?_
      rintro rfl
      exact hreset (.inl ⟨password, role, rfl, by rw [hok]⟩)
  | login user password prior =>
    by_cases huser : user = userId
    · subst huser
      rcases login_cases pbkdf2 s env user password prior with ⟨⟨e, herror⟩, hchecks⟩ |
        ⟨acct, hacct, hopen, ⟨hchecks, e, herror⟩ | ⟨session, -, -, -, -, hok⟩⟩
      · exact .inl ⟨hchecks, by simp only [step, herror]⟩
      · refine .inr ⟨hchecks, acct, hacct, hopen, ?_⟩
        simp only [step, herror]
        exact InsertionDict.get?_set_self _ _ _
      · exact absurd (.inr ⟨password, prior, session, rfl, by rw [hok]⟩) hreset
    · refine .inl ⟨by simp [checksWrong, huser], ?_⟩
      have hne : userId ≠ user := fun he => huser he.symm
      rcases login_cases pbkdf2 s env user password prior with ⟨⟨e, herror⟩, -⟩ |
        ⟨acct, -, -, ⟨-, e, herror⟩ | ⟨session, -, -, -, -, hok⟩⟩
      · simp only [step, herror]
      · simp only [step, herror]
        exact get?_set_of_ne _ _ hne
      · simp only [step, hok]
        exact get?_set_of_ne _ _ hne
  | authenticate id csrfToken mutating =>
    refine .inl ⟨rfl, ?_⟩
    rcases authenticate_cases s env id csrfToken mutating with ⟨e, herror⟩ | ⟨session, -, -, -, hok⟩
    · simp only [step, herror]
    · simp only [step, hok]
  | revoke id =>
    refine .inl ⟨rfl, ?_⟩
    simp only [step, revoke]
    cases s.sessions.get? id <;> rfl

variable {s : AuthEngine}

theorem wrongChecks_unknown {userId : String} (h : s.accounts.get? userId = none)
    (hreset : EveryStep (step pbkdf2) (fun s c => ¬s.Resets pbkdf2 c userId) s ops) : s.wrongChecks pbkdf2 userId ops = 0 := by
  induction ops generalizing s with
  | nil => rfl
  | cons c ops ih =>
    obtain ⟨hc, hrest⟩ := everyStep_cons.mp hreset
    rcases account_step s c userId hc with ⟨hfalse, hsame⟩ | ⟨-, acct, hacct, -⟩
    · rw [wrongChecks, hfalse, ih (hsame.trans h) hrest]
      rfl
    · rw [h] at hacct
      cases hacct

/-- No password is checked before `t`: either no call is earlier, or the account is locked until then. -/
def ClosedBefore (acct : Account) (ops : List AuthCall) (t : ℤ) : Prop :=
  (∀ c ∈ ops, t ≤ c.now) ∨ ∃ until_, acct.lockedUntil = some until_ ∧ t ≤ until_

theorem addDelta_ok {now delta until_ : ℤ} (h : addDelta now delta = .ok until_) : until_ = now + delta := by
  unfold addDelta at h
  split_ifs at h
  cases h
  rfl

/-- By induction over the calls: a wrong password that does not lock uses up one of those that are left, and one that locks
closes the account for the time of a lockout. -/
theorem wrongChecks_le (hlockout : 0 < s.lockout) {userId : String} {acct : Account}
    (hacct : s.accounts.get? userId = some acct) {t stop : ℤ} (hstop : ∀ c ∈ ops, c.now ≤ stop)
    (hsorted : ops.Pairwise fun c c' => c.now ≤ c'.now) (hclosed : ClosedBefore acct ops t) (ht : t - s.lockout ≤ stop)
    (hlocks : EveryStep (step pbkdf2) (LocksInTime pbkdf2) s ops)
    (hreset : EveryStep (step pbkdf2) (fun s c => ¬s.Resets pbkdf2 c userId) s ops) :
    (s.wrongChecks pbkdf2 userId ops : ℤ) ≤ max 1 (s.maxFailed - acct.failedAttempts) + (stop - t) / s.lockout := by
  induction ops generalizing s acct t with
  | nil =>
    have hfloor : -1 ≤ (stop - t) / s.lockout := by
      rw [Int.le_ediv_iff_mul_le hlockout]
      omega
    have hone : (1 : ℤ) ≤ max 1 (s.maxFailed - acct.failedAttempts) := le_max_left _ _
    simp only [wrongChecks]
    omega
  | cons c ops ih =>
    obtain ⟨hc, hrest⟩ := everyStep_cons.mp hreset
    obtain ⟨hlocksNow, hlocks'⟩ := everyStep_cons.mp hlocks
    obtain ⟨hfirst, hsorted'⟩ := List.pairwise_cons.mp hsorted
    have hstop' : ∀ c ∈ ops, c.now ≤ stop := fun c' hc' => hstop c' (List.mem_cons_of_mem _ hc')
    obtain ⟨-, -, hmax, hlock⟩ := step_limits pbkdf2 s c
    rcases account_step s c userId hc with ⟨hfalse, hsame⟩ | ⟨htrue, acct', hacct', hopen, hnew⟩
    · have hclosed' : ClosedBefore acct ops t :=
        hclosed.imp_left fun h c' hc' => h c' (List.mem_cons_of_mem _ hc')
      have hle := ih (by rw [hlock]; exact hlockout) (hsame.trans hacct) hstop' hsorted' hclosed' (by rw [hlock]; exact ht) hlocks' hrest
      rw [hmax, hlock] at hle
      rw [wrongChecks, hfalse]
      simpa using hle
    · rw [hacct] at hacct'
      cases hacct'
      -- the account is open, so the check is not before `t`
      have htime : t ≤ c.now := by
        rcases hclosed with h | ⟨until_, huntil, hle⟩
        · exact h c (List.mem_cons_self ..)
        · exact hle.trans (hopen until_ huntil)
      have hcstop : c.now ≤ stop := hstop c (List.mem_cons_self ..)
      have hcount : (s.wrongChecks pbkdf2 userId (c :: ops) : ℤ) = 1 + ((step pbkdf2 s c).wrongChecks pbkdf2 userId ops : ℤ) := by
        rw [wrongChecks, htrue]
        push_cast
        rfl
      rw [hcount]
      by_cases hreached : s.maxFailed ≤ (acct.failedAttempts + 1 : ℕ)
      · obtain ⟨until_, huntil⟩ := hlocksNow userId acct htrue hacct hreached
        rw [lockedAfter, if_pos hreached, huntil, addDelta_ok huntil] at hnew
        have hle := ih (t := c.now + s.lockout) (by rw [hlock]; exact hlockout) hnew hstop' hsorted'
          (.inr ⟨_, rfl, le_refl _⟩) (by rw [hlock]; omega) hlocks' hrest
        rw [hmax, hlock] at hle
        have hshift : (stop - (c.now + s.lockout)) / s.lockout = (stop - c.now) / s.lockout - 1 := by
          rw [show stop - (c.now + s.lockout) = stop - c.now + -1 * s.lockout by omega,
            Int.add_mul_ediv_right _ _ hlockout.ne']
          rfl
        have hmono : (stop - c.now) / s.lockout ≤ (stop - t) / s.lockout := Int.ediv_le_ediv hlockout (by omega)
        have hone : (1 : ℤ) ≤ max 1 (s.maxFailed - acct.failedAttempts) := le_max_left _ _
        rw [hshift] at hle
        dsimp only at hle
        rw [max_eq_left (by omega)] at hle
        omega
      · rw [lockedAfter, if_neg hreached] at hnew
        have hle := ih (t := t) (by rw [hlock]; exact hlockout) hnew hstop' hsorted'
          (.inl fun c' hc' => htime.trans (hfirst c' hc')) (by rw [hlock]; exact ht) hlocks' hrest
        rw [hmax, hlock] at hle
        dsimp only at hle
        rw [max_eq_right (by omega)] at hle
        rw [max_eq_right (by omega)]
        push_cast at hle
        omega

theorem wrongChecks_span (hmax : 1 ≤ s.maxFailed) (hlockout : 0 < s.lockout) (userId : String)
    {span : List AuthCall} {t d : ℤ} (hd : 0 ≤ d) (hspan : ∀ c ∈ span, t ≤ c.now ∧ c.now ≤ t + d)
    (hsorted : span.Pairwise fun c c' => c.now ≤ c'.now) (hlocks : EveryStep (step pbkdf2) (LocksInTime pbkdf2) s span)
    (hreset : EveryStep (step pbkdf2) (fun s c => ¬s.Resets pbkdf2 c userId) s span) :
    (s.wrongChecks pbkdf2 userId span : ℤ) ≤ s.maxFailed + d / s.lockout := by
  have hfloor : 0 ≤ d / s.lockout := Int.ediv_nonneg hd hlockout.le
  cases hacct : s.accounts.get? userId with
  | none =>
    rw [wrongChecks_unknown hacct hreset]
    omega
  | some acct =>
    have hle := wrongChecks_le hlockout hacct (fun c hc => (hspan c hc).2) hsorted (.inl fun c hc => (hspan c hc).1)
      (by omega) hlocks hreset
    rw [show t + d - t = d by omega] at hle
    have hleft : max 1 (s.maxFailed - acct.failedAttempts) ≤ s.maxFailed := max_le hmax (by omega)
    omega

variable (pbkdf2)

/-- An accepted use belongs to a login that has returned, and comes within its limits. -/
def SessionLaw (init : AuthEngine) (ops : List AuthCall) : Prop :=
  ∀ uses env sessionId csrfToken mutating rest session, ops = uses ++ ⟨.authenticate sessionId csrfToken mutating, env⟩ :: rest →
    ((run (step pbkdf2) init uses).authenticate env sessionId csrfToken mutating).1 = .ok session →
    ∃ before c after issued, uses = before ++ c :: after ∧ Issues pbkdf2 (run (step pbkdf2) init before) c issued ∧
      issued.sessionId = sessionId ∧ (∀ c' ∈ after, c'.op ≠ .revoke sessionId) ∧
      EveryStep (step pbkdf2) (fun s c => ¬s.RotatesOut pbkdf2 c sessionId) (run (step pbkdf2) init (before ++ [c])) after ∧
      env.utcNow - c.now ≤ init.absoluteTtl ∧
      List.IsChain (fun a b => b - a ≤ init.idleTtl)
        (c.now :: (run (step pbkdf2) init (before ++ [c])).useTimes pbkdf2 sessionId after ++ [env.utcNow]) ∧
      (mutating = true → csrfToken = some issued.csrfToken)

/-- In a time without a login of the user, no more wrong passwords are checked than the lockouts leave time for. -/
def LockoutLaw (init : AuthEngine) (ops : List AuthCall) : Prop :=
  ∀ userId before span after t d, ops = before ++ span ++ after → 0 ≤ d → (∀ c ∈ span, t ≤ c.now ∧ c.now ≤ t + d) →
    EveryStep (step pbkdf2) (fun s c => ¬s.Resets pbkdf2 c userId) (run (step pbkdf2) init before) span →
    ((run (step pbkdf2) init before).wrongChecks pbkdf2 userId span : ℤ) ≤ init.maxFailed + d / init.lockout

theorem new_sessions {init : AuthEngine} {idleTtlSeconds absoluteTtlSeconds maxFailed lockoutSeconds : ℤ}
    (h : new idleTtlSeconds absoluteTtlSeconds maxFailed lockoutSeconds = .ok init) : init.sessions = .empty := by
  unfold new at h
  cases hidle : timedelta idleTtlSeconds with
  | error e => simp [hidle, bind, Except.bind] at h
  | ok idleTtl =>
    cases habsolute : timedelta absoluteTtlSeconds with
    | error e => simp [hidle, habsolute, bind, Except.bind] at h
    | ok absoluteTtl =>
      cases hlockout : timedelta lockoutSeconds with
      | error e => simp [hidle, habsolute, hlockout, bind, Except.bind] at h
      | ok lockout =>
        simp only [hidle, habsolute, hlockout, bind, Except.bind, pure, Except.pure, Except.ok.injEq] at h
        rw [← h]

/-- Sessions are used as issued, and passwords are tried within the limit if every lock has a date. -/
theorem auth_safety_of_locksInTime {init : AuthEngine} {idleTtlSeconds absoluteTtlSeconds maxFailed lockoutSeconds : ℤ}
    (hinit : new idleTtlSeconds absoluteTtlSeconds maxFailed lockoutSeconds = .ok init) (ops : List AuthCall)
    (hsorted : ops.Pairwise fun c c' => c.now ≤ c'.now) (hlocks : EveryStep (step pbkdf2) (LocksInTime pbkdf2) init ops) :
    SessionLaw pbkdf2 init ops ∧ (1 ≤ init.maxFailed → 0 < init.lockout → LockoutLaw pbkdf2 init ops) := by
  refine ⟨fun uses env sessionId csrfToken mutating rest session _ hok =>
    use_accepted (new_sessions hinit) uses env sessionId csrfToken mutating hok, ?_⟩
  intro hmax hlockout userId before span after t d hsplit hd hspan hreset
  obtain ⟨-, -, hmax', hlockout'⟩ := run_limits pbkdf2 init before
  rw [hsplit, List.append_assoc] at hsorted hlocks
  have hspanSorted : span.Pairwise fun c c' => c.now ≤ c'.now :=
    (List.pairwise_append.mp (List.pairwise_append.mp hsorted).2.1).1
  have hle := wrongChecks_span (by rw [hmax']; exact hmax) (by rw [hlockout']; exact hlockout) userId hd hspan hspanSorted
    (everyStep_append_left (everyStep_append_right hlocks)) hreset
  rw [hmax', hlockout'] at hle
  exact hle

def sampleKdf (password salt : String) (rounds : ℕ) : String :=
  if password = "secret" ∧ salt = "00" ∧ rounds = 200000 then "b68ff78bb02b795a0c8b6b5184694f92ec23475e61695ae365b61f3f28633a04"
  else if password = "guess" ∧ salt = "00" ∧ rounds = 200000 then "2b0d453087f0abbb430088cd6c635341adb5eddd43891664f3edddb223a14f78"
  else password

def clockAt (now : ℤ) (uuid : String) : Supply := fun _ => ⟨now, uuid⟩

def defaultEngine : AuthEngine := ⟨.empty, .empty, 1800 * 1000000, 43200 * 1000000, 5, 300 * 1000000⟩

def guessThenLogin : List AuthCall :=
  [⟨.register "u" "secret" .owner, clockAt 0 "00"⟩, ⟨.login "u" "guess" none, clockAt 1 "01"⟩,
    ⟨.login "u" "secret" none, clockAt 2 "02"⟩, ⟨.authenticate "02" (some "02") true, clockAt 3 "03"⟩]

theorem locksInTime_of_clock {s : AuthEngine} {c : AuthCall} (h : -62135596800000000 ≤ c.now + s.lockout)
    (h' : c.now + s.lockout ≤ 253402300799999999) : LocksInTime pbkdf2 s c := by
  intro userId acct _ _ _
  have hrange : ¬(c.now + s.lockout < -62135596800000000 ∨ 253402300799999999 < c.now + s.lockout) := by omega
  exact ⟨_, if_neg hrange⟩

theorem not_resets_of_refused {s : AuthEngine} {env : Supply} {user userId password : String} {prior : Option String}
    (h : (s.login pbkdf2 env user password prior).1.isOk = false) : ¬s.Resets pbkdf2 ⟨.login user password prior, env⟩ userId := by
  rintro (⟨_, _, hop, -⟩ | ⟨_, _, session, hop, hreturns⟩)
  · cases hop
  · cases hop
    rw [hreturns] at h
    cases h

theorem auth_safety_guessThenLogin :
    (∃ before c after, guessThenLogin.take 3 = before ++ c :: after ∧ 3 - c.now ≤ 43200 * 1000000) ∧
      ((run (step sampleKdf) defaultEngine (guessThenLogin.take 1)).wrongChecks sampleKdf "u"
        [⟨.login "u" "guess" none, clockAt 1 "01"⟩] : ℤ) ≤ 5 + 0 / (300 * 1000000) := by
  have hsorted : guessThenLogin.Pairwise fun c c' => c.now ≤ c'.now := by decide
  have hlocks : EveryStep (step sampleKdf) (LocksInTime sampleKdf) defaultEngine guessThenLogin := by
    intro before c after hsplit
    obtain ⟨-, -, -, hlockout⟩ := run_limits sampleKdf defaultEngine before
    have hclock : ∀ c ∈ guessThenLogin, 0 ≤ c.now ∧ c.now ≤ 3 := by decide
    obtain ⟨hearliest, hlatest⟩ := hclock c (by rw [hsplit]; simp)
    have hlockout' : (run (step sampleKdf) defaultEngine before).lockout = 300 * 1000000 := hlockout
    exact locksInTime_of_clock sampleKdf (by omega) (by omega)
  have hnew : new 1800 43200 5 300 = .ok defaultEngine := rfl
  obtain ⟨huses, hchecks⟩ := auth_safety_of_locksInTime sampleKdf hnew guessThenLogin hsorted hlocks
  refine ⟨?_, hchecks (by decide) (by decide) "u" (guessThenLogin.take 1) [⟨.login "u" "guess" none, clockAt 1 "01"⟩]
    (guessThenLogin.drop 2) 1 0 rfl (le_refl _) (by decide) (everyStep_cons.mpr ⟨?_, everyStep_nil⟩)⟩
  · have hok : ((run (step sampleKdf) defaultEngine (guessThenLogin.take 3)).authenticate (clockAt 3 "03") "02"
        (some "02") true).1.toOption.isSome = true := by decide +kernel
    obtain ⟨session, hsession⟩ := Option.isSome_iff_exists.mp hok
    cases hanswer : ((run (step sampleKdf) defaultEngine (guessThenLogin.take 3)).authenticate (clockAt 3 "03") "02"
        (some "02") true).1 with
    | error e =>
      rw [hanswer] at hsession
      cases hsession
    | ok accepted =>
      obtain ⟨before, c, after, -, hsplit, -, -, -, -, hage, -⟩ :=
        huses (guessThenLogin.take 3) (clockAt 3 "03") "02" (some "02") true [] accepted rfl hanswer
      exact ⟨before, c, after, hsplit, hage⟩
  · exact not_resets_of_refused sampleKdf (by decide +kernel)

def eternalLockout : AuthEngine := ⟨.empty, .empty, 1800 * 1000000, 43200 * 1000000, 1, 1000000000000 * 1000000⟩

def guess : AuthCall := ⟨.login "u" "guess" none, clockAt 1 "01"⟩

/-- A lockout that would end after the last day of the calendar does not begin. -/
theorem eternal_lockout_never_begins : ¬∀ pbkdf2 idleTtlSeconds absoluteTtlSeconds maxFailed lockoutSeconds init,
      new idleTtlSeconds absoluteTtlSeconds maxFailed lockoutSeconds = .ok init →
        ∀ ops : List AuthCall, ops.Pairwise (fun c c' => c.now ≤ c'.now) →
          SessionLaw pbkdf2 init ops ∧ (1 ≤ init.maxFailed → 0 < init.lockout → LockoutLaw pbkdf2 init ops) := by
  intro h
  obtain ⟨-, hlockout⟩ := h sampleKdf 1800 43200 1 1000000000000 eternalLockout rfl
    [⟨.register "u" "secret" .owner, clockAt 0 "00"⟩, guess, guess] (by decide)
  have hle := hlockout (by decide) (by decide) "u" [⟨.register "u" "secret" .owner, clockAt 0 "00"⟩] [guess, guess] [] 1 0 rfl
    (le_refl _) (by decide) ?_
  · have hchecks : (run (step sampleKdf) eternalLockout [⟨.register "u" "secret" .owner, clockAt 0 "00"⟩]).wrongChecks sampleKdf "u"
        [guess, guess] = 2 := by decide +kernel
    rw [hchecks] at hle
    exact absurd hle (by decide)
  · exact everyStep_cons.mpr ⟨not_resets_of_refused sampleKdf (by decide +kernel),
      everyStep_cons.mpr ⟨not_resets_of_refused sampleKdf (by decide +kernel), everyStep_nil⟩⟩

end AuthEngine

end AllTomorrow.Auth
