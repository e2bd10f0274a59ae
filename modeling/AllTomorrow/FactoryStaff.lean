import AllTomorrow.FactoryWorld

/-!
# The staff of the idea factory

`configure`, which hires the first generation of each role of the roster, and the evaluation of the
staff with its promotions and retirements (`idea_factory/evaluation.py`).
-/

namespace AllTomorrow.IdeaFactory

namespace Store

def hire (role name modelGroup : String) (generation : ℕ) (accessLevel : ℤ) (accessScopes : List String) (env : Supply) :
    FactoryTask String := do
  sql (.hire role name modelGroup generation accessLevel accessScopes) env
  return staffId role generation

def setAccess (staffId : String) (baseLevel : ℤ) (scopes : List String) (bonus : Option ℤ) (env : Supply) :
    FactoryTask ℤ := do
  let bonus ← match bonus with
    | some bonus => pure bonus
    | none => (fun row => row.getD 0) <$> sql (.promotionBonus staffId) (env.sub 0)
  let level := max 0 (min 3 (baseLevel + bonus))
  sql (.setAccess staffId level scopes bonus) (env.sub 1)
  return level

end Store

/-! ## Configuration -/

/-- `DIGESTERS` -/
def digesters : List String := ["rows", "workload", "sections", "deadlines"]

/-- The checks of one source; `repr` is the text of its dictionary. -/
def validateSource (repr : ProfileSource → String) (source : ProfileSource) : Except Exn Unit := do
  if source.kind ∉ digesters then
    throw (.valueError ("profile source needs a name and kind in ['deadlines', 'rows', 'sections', 'workload']: " ++
      repr source))
  if ¬(1 ≤ source.level ∧ source.level ≤ 3) then
    throw (.valueError ("profile source level must be 1..3: " ++ source.name))

def validateMember (member : RosterMember) : Except Exn Unit :=
  if 0 ≤ member.accessLevel ∧ member.accessLevel ≤ 3 then .ok ()
  else .error (.valueError ("staff access_level must be 0..3: " ++ member.role))

/-- `profile.validate` -/
def validate (repr : ProfileSource → String) (sources : List ProfileSource) (staff : List RosterMember) : Except Exn Unit := do
  sources.forM (validateSource repr)
  staff.forM validateMember

def checkRoster (repr : ProfileSource → String) (roster : Roster) : Except Exn Unit := do
  validate repr roster.profileSources roster.staff
  if roster.councilShare = none then
    throw (.valueError "council_share must be one of ('summary', 'full', 'filtered')")

/-- Each member is hired if it was never hired, and the active generation of its role gets the access of the roster. -/
def hireEach : List RosterMember → Supply → FactoryTask Unit
  | [], _ => return ()
  | member :: rest, env => do
    let _ ← Store.hire member.role member.name member.modelGroup 1 member.accessLevel member.accessScopes (env.sub 0)
    let active ← Store.activeStaff member.role (env.sub 1)
    let _ ← Store.setAccess active.id member.accessLevel member.accessScopes none (env.sub 2)
    hireEach rest (env.sub 3)

def configure (repr : ProfileSource → String) (roster : Roster) (env : Supply) : FactoryTask Unit := do
  MonadExcept.ofExcept (checkRoster repr roster)
  hireEach roster.staff env

/-- `COUNCIL_ROLES` -/
def councilRoles : List String := ["visionary", "operator", "advocate", "skeptic"]

/-- `time > since`; no order is defined on a missing time. -/
def isLater (since : Datetime) : Option Datetime → Except Exn Bool
  | some time => .ok (since < time)
  | none => .error (.foreign "TypeError" "'>' not supported between instances of 'NoneType' and 'str'")

/-- The proposals that the user decided on after the last change of a member. -/
def decidedSince (since : Datetime) (proposals : List Proposal) : Except Exn (List Proposal) :=
  proposals.filterM fun p => if p.status = .pending then .ok false else isLater since p.decidedAt

/-- Whether each final vote of the member agrees with the decision; a conditional vote counts for neither. -/
def votedRight (p : Proposal) (finals : List CouncilRow) : List Bool :=
  finals.filterMap fun vote => match vote.stance with
    | .support => some (decide (p.status = .approved))
    | .oppose => some (decide (p.status = .rejected))
    | .conditional => none

def voteSamples (roster : Roster) (member : Staff) : List Proposal → Supply → FactoryTask (List Bool)
  | [], _ => return []
  | p :: rest, env => do
    let votes ← sql (.votes p.ideaId) (env.sub 0)
    let finals := votes.filter fun v => v.staffId = member.id && v.round = roster.councilRounds
    let others ← voteSamples roster member rest (env.sub 1)
    return votedRight p finals ++ others

/-- `_samples` -/
def samples (roster : Roster) (member : Staff) (env : Supply) : FactoryTask (List Bool) := do
  let proposals ← sql (.proposals none) (env.sub 0)
  let decided ← MonadExcept.ofExcept (decidedSince member.changedAt proposals)
  if member.role = "ideator" then
    let ideas ← sql (.ideas none none 100000) (env.sub 1)
    let own := decided.filter fun p => ideas.any fun i => i.id = p.ideaId && i.ideatorId = member.id
    return own.map fun p => decide (p.status = .approved)
  else if member.role = "synthesizer" then
    let ideas ← sql (.ideas none (some .killed) 100000) (env.sub 1)
    let reviewed ← MonadExcept.ofExcept (ideas.filterM fun i =>
      if i.synthId = some member.id ∧ i.review ≠ none then isLater member.changedAt i.reviewedAt else .ok false)
    return reviewed.map fun i => decide (i.review = some .correct)
  else if member.role ∈ councilRoles then voteSamples roster member decided (env.sub 1)
  else return []

inductive StaffVerdict where
  | evaluating | promote | retire | keep
  deriving DecidableEq, Repr

/-- The verdict on a number of samples of which `right` were right. There is no score without samples. -/
def staffVerdict (roster : Roster) (right total : ℕ) : Except Exn StaffVerdict :=
  if total < roster.evaluationMinSamples then .ok .evaluating
  else if total = 0 then .error (.foreign "TypeError" "'>' not supported between instances of 'NoneType' and 'float'")
  else if roster.promotes right total then .ok .promote
  else if roster.retires right total then .ok .retire
  else .ok .keep

structure StaffReport extends Staff where
  samples : ℕ
  right : ℕ
  verdict : StaffVerdict

def reportEach (roster : Roster) : List Staff → Supply → FactoryTask (List StaffReport)
  | [], _ => return []
  | member :: rest, env => do
    let found ← samples roster member (env.sub 0)
    let verdict ← MonadExcept.ofExcept (staffVerdict roster (found.count true) found.length)
    let others ← reportEach roster rest (env.sub 1)
    return { toStaff := member, samples := found.length, right := found.count true, verdict := verdict } :: others

def evaluate (roster : Roster) (env : Supply) : FactoryTask (List StaffReport) := do
  let members ← sql (.staff false) (env.sub 0)
  reportEach roster members (env.sub 1)

/-- `tiers[0]` -/
def firstTier (roster : Roster) : Except Exn String :=
  match roster.tiers with
  | [] => .error (.foreign "IndexError" "list index out of range")
  | tier :: _ => .ok tier

/-- `_next_tier` -/
def nextTier (roster : Roster) (current : String) : Except Exn (Option String) :=
  if current ∈ roster.tiers then .ok roster.tiers[roster.tiers.idxOf current + 1]? else some <$> firstTier roster

/-- The group of a replacement: the next tier, or the first one where that is none, empty or the same. -/
def replacementTier (roster : Roster) (current : String) : Except Exn String := do
  let next ← nextTier roster current
  let target ← match next with
    | none | some "" => firstTier roster
    | some target => .ok target
  if target = current then firstTier roster else return target

/-- What `apply_policy` reports of an action. -/
inductive StaffAction where
  | promote (staffId : String) (samples right : ℕ) (fromGroup toGroup : String)
  | retire (staffId : String) (samples right : ℕ) (fromGroup replacement toGroup : String)
  deriving DecidableEq

def baseAccess (roster : Roster) (role : String) : ℤ × List String :=
  match roster.staff.find? fun m => m.role = role with
  | some base => (base.accessLevel, base.accessScopes)
  | none => (0, [])

def applyRow (roster : Roster) (actor : String) (row : StaffReport) (env : Supply) : FactoryTask (List StaffAction) :=
  match row.verdict with
  | .promote => do
    match ← MonadExcept.ofExcept (nextTier roster row.modelGroup) with
    | none => return []
    | some target =>
      sql (.setStaffGroup row.id target) (env.sub 0)
      let base := baseAccess roster row.role
      let _ ← Store.setAccess row.id base.1 base.2 (some (row.promotionBonus + 1)) (env.sub 1)
      sql (.audit actor "staff_promote") (env.sub 2)
      sql (.event "staff" none (some row.id) none) (env.sub 3)
      return [.promote row.id row.samples row.right row.modelGroup target]
  | .retire => do
    let target ← MonadExcept.ofExcept (replacementTier roster row.modelGroup)
    sql (.retire row.id) (env.sub 0)
    let base := baseAccess roster row.role
    let newId ← Store.hire row.role row.name target (row.generation + 1) base.1 base.2 (env.sub 1)
    sql (.audit actor "staff_retire") (env.sub 2)
    sql (.event "staff" none (some newId) none) (env.sub 3)
    return [.retire row.id row.samples row.right row.modelGroup newId target]
  | .evaluating | .keep => return []

def applyEach (roster : Roster) (actor : String) : List StaffReport → Supply → FactoryTask (List StaffAction)
  | [], _ => return []
  | row :: rest, env => do
    let actions ← applyRow roster actor row (env.sub 0)
    let others ← applyEach roster actor rest (env.sub 1)
    return actions ++ others

def applyPolicy (roster : Roster) (actor : String) (env : Supply) : FactoryTask (List StaffAction) := do
  let report ← evaluate roster (env.sub 0)
  applyEach roster actor report (env.sub 1)

end AllTomorrow.IdeaFactory
