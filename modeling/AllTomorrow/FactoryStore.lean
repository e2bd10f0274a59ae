import Mathlib.Data.List.Sort
import AllTomorrow.DomainRecords
import AllTomorrow.ResumptionPrograms

/-!
# The store of the idea factory

The tables of `idea_factory/store.py` and its SQL statements, each of which commits on its own. The
methods of the store are programs over the statements, so that a crash or another call can come
between any two of them.
-/

namespace AllTomorrow.IdeaFactory

inductive LoopState where
  | run | paused | killed
  deriving DecidableEq, Repr

inductive TopicStatus where
  | running | done | killed
  deriving DecidableEq, Repr

inductive IdeaStatus where
  | generated | inCouncil | killed | held | proposed | rejected
  deriving DecidableEq, Repr

inductive ProposalStatus where
  | pending | approved | rejected
  deriving DecidableEq, Repr

inductive StaffStatus where
  | active | retired
  deriving DecidableEq, Repr

inductive Stance where
  | support | oppose | conditional
  deriving DecidableEq, Repr

inductive Review where
  | correct | overkill
  deriving DecidableEq, Repr

structure Topic where
  id : String
  text : String
  createdAt : Datetime
  status : TopicStatus := .running
  finishedAt : Option Datetime := none
  deriving DecidableEq

structure Idea where
  id : String
  topicId : String
  idx : ℕ
  title : String
  problem : String
  approach : String
  ideatorId : String
  deriving DecidableEq

/-- A patent that overlaps, and the element of the idea it overlaps with. -/
structure Evidence where
  number : String
  title : String
  snippet : String
  source : String
  url : String
  element : String
  deriving DecidableEq

structure IdeaRow extends Idea where
  status : IdeaStatus := .generated
  synthId : Option String := none
  evidence : Option (List Evidence) := none
  verdictReason : Option String := none
  review : Option Review := none
  reviewedAt : Option Datetime := none
  deriving DecidableEq

structure CouncilRow where
  ideaId : String
  round : ℕ
  staffId : String
  stance : Stance
  reason : String
  deriving DecidableEq

structure Proposal where
  id : String
  topicId : String
  ideaId : String
  body : String
  status : ProposalStatus := .pending
  createdAt : Datetime
  decidedAt : Option Datetime := none
  reason : Option String := none
  deriving DecidableEq

structure Staff where
  id : String
  role : String
  name : String
  modelGroup : String
  generation : ℕ
  status : StaffStatus := .active
  hiredAt : Datetime
  retiredAt : Option Datetime := none
  changedAt : Datetime
  accessLevel : ℤ
  accessScopes : List String
  promotionBonus : ℤ := 0
  deriving DecidableEq

structure EventRow where
  kind : String
  topicId : Option String
  staffId : Option String
  dedupe : Option String
  deriving DecidableEq

structure AuditRow where
  actor : String
  action : String
  deriving DecidableEq

structure FactoryStore where
  /-- the row `loop` of the table `control` -/
  loop : Option LoopState
  topics : InsertionDict String Topic
  ideas : InsertionDict String IdeaRow
  council : InsertionDict (String × ℕ × String) CouncilRow
  proposals : InsertionDict String Proposal
  staff : InsertionDict String Staff
  events : List EventRow
  audit : List AuditRow

def FactoryStore.empty : FactoryStore := ⟨none, .empty, .empty, .empty, .empty, .empty, [], []⟩

/-! ## Statements -/

inductive Statement where
  | loopState
  | setLoop (state : LoopState)
  | addTopic (topicId text : String)
  | setTopicStatus (topicId : String) (status : TopicStatus)
  | topics (limit : ℕ)
  | topic (topicId : String)
  | putIdea (idea : Idea)
  | setIdeaVerdict (ideaId : String) (status : IdeaStatus) (synthId : Option String) (evidence : Option (List Evidence))
      (reason : Option String)
  | ideas (topicId : Option String) (status : Option IdeaStatus) (limit : ℕ)
  | setReview (ideaId : String) (verdict : Review)
  | putVote (vote : CouncilRow)
  | votes (ideaId : String)
  | putProposal (proposalId topicId ideaId body : String)
  | proposals (status : Option ProposalStatus)
  | decideProposal (proposalId : String) (decision : ProposalStatus) (reason : String)
  | hire (role name modelGroup : String) (generation : ℕ) (accessLevel : ℤ) (accessScopes : List String)
  | promotionBonus (staffId : String)
  | setAccess (staffId : String) (level : ℤ) (scopes : List String) (bonus : ℤ)
  | staff (includeRetired : Bool)
  | activeStaff (role : String)
  | setStaffGroup (staffId modelGroup : String)
  | retire (staffId : String)
  | event (kind : String) (topicId staffId dedupe : Option String)
  | audit (actor action : String)

@[reducible] def Statement.Answer : Statement → Type
  | .loopState => Option LoopState
  | .topics _ => List Topic
  | .topic _ => Option Topic
  | .ideas .. => List IdeaRow
  | .votes _ => List CouncilRow
  | .proposals _ => List Proposal
  /- the number of rows changed -/
  | .decideProposal .. => ℕ
  | .promotionBonus _ => Option ℤ
  | .staff _ | .activeStaff _ => List Staff
  | _ => Unit

/-- `f"{role}-g{generation}"`. -/
def staffId (role : String) (generation : ℕ) : String := role ++ "-g" ++ toString generation

namespace FactoryStore

variable (s : FactoryStore)

/-- `UPDATE … WHERE id=?` on one table. -/
def updateWhere {ν : Type} (d : InsertionDict String ν) (k : String) (f : ν → ν) : InsertionDict String ν :=
  match d.get? k with
  | none => d
  | some row => d.set k (f row)

theorem get?_updateWhere {ν : Type} (d : InsertionDict String ν) (k : String) (f : ν → ν) (j : String) :
    (updateWhere d k f).get? j = if j = k then (d.get? k).map f else d.get? j := by
  unfold updateWhere
  cases hk : d.get? k with
  | none =>
    by_cases hj : j = k
    · subst hj
      rw [if_pos rfl, hk]
      rfl
    · rw [if_neg hj]
  | some row => rw [InsertionDict.get?_set]; rfl

def putIdea (idea : Idea) : FactoryStore :=
  match s.ideas.get? idea.id with
  | none => { s with ideas := s.ideas.set idea.id { toIdea := idea } }
  | some row =>
    let row := { row with title := idea.title, problem := idea.problem, approach := idea.approach }
    { s with ideas := s.ideas.set idea.id row }

def setIdeaVerdict (ideaId : String) (status : IdeaStatus) (synthId : Option String) (evidence : Option (List Evidence))
    (reason : Option String) : FactoryStore :=
  { s with ideas := updateWhere s.ideas ideaId fun row => { row with
      status := status, synthId := synthId.or row.synthId, evidence := evidence.or row.evidence
      verdictReason := reason.or row.verdictReason } }

def putProposal (now : Datetime) (proposalId topicId ideaId body : String) : FactoryStore :=
  match s.proposals.get? proposalId with
  | none => { s with proposals := s.proposals.set proposalId ⟨proposalId, topicId, ideaId, body, .pending, now, none, none⟩ }
  | some row => { s with proposals := s.proposals.set proposalId { row with body := body } }

def decideProposal (now : Datetime) (proposalId : String) (decision : ProposalStatus) (reason : String) : FactoryStore :=
  { s with proposals := updateWhere s.proposals proposalId fun row => { row with
      status := decision, decidedAt := some now, reason := some reason } }

/-- `INSERT OR IGNORE`: a generation that was hired before stays as it is. -/
def hire (now : Datetime) (role name modelGroup : String) (generation : ℕ) (accessLevel : ℤ)
    (accessScopes : List String) : FactoryStore :=
  let row : Staff :=
    { id := staffId role generation, role := role, name := name, modelGroup := modelGroup, generation := generation,
      hiredAt := now, changedAt := now, accessLevel := accessLevel, accessScopes := accessScopes }
  if s.staff.contains row.id then s else { s with staff := s.staff.set row.id row }

/-- `ORDER BY role, generation`. -/
def StaffBefore (m n : Staff) : Prop := m.role < n.role ∨ m.role = n.role ∧ m.generation ≤ n.generation

instance : DecidableRel StaffBefore := fun m n =>
  inferInstanceAs (Decidable (m.role < n.role ∨ m.role = n.role ∧ m.generation ≤ n.generation))

def listStaff (includeRetired : Bool) : List Staff :=
  (s.staff.values.filter fun m => includeRetired || m.status = .active).insertionSort StaffBefore

def activeStaff (role : String) : List Staff :=
  (s.staff.values.filter fun m => m.role = role && m.status = .active).insertionSort fun m n => n.generation ≤ m.generation

def listProposals (status : Option ProposalStatus) : List Proposal :=
  (s.proposals.values.filter fun p => s.topics.contains p.topicId && status.all fun wanted => p.status = wanted).insertionSort
    fun p q => q.createdAt ≤ p.createdAt

def listIdeas (topicId : Option String) (status : Option IdeaStatus) (limit : ℕ) : List IdeaRow :=
  ((s.ideas.values.filter fun i =>
    (topicId.all fun t => t = "" || i.topicId = t) && status.all fun wanted => i.status = wanted).reverse).take limit

def listVotes (ideaId : String) : List CouncilRow :=
  (s.council.values.filter fun v => v.ideaId = ideaId).insertionSort fun v u =>
    v.round < u.round ∨ v.round = u.round ∧ v.staffId ≤ u.staffId

/-- `INSERT OR IGNORE` under a unique key. -/
def addEvent (row : EventRow) : FactoryStore :=
  if row.dedupe.isSome && s.events.any fun e => e.dedupe = row.dedupe then s
  else { s with events := s.events ++ [row] }

variable {s}

@[simp] theorem topics_putIdea (idea : Idea) : (s.putIdea idea).topics = s.topics := by
  unfold putIdea
  cases s.ideas.get? idea.id <;> rfl

@[simp] theorem topics_putProposal (now : Datetime) (proposalId topicId ideaId body : String) :
    (s.putProposal now proposalId topicId ideaId body).topics = s.topics := by
  unfold putProposal
  cases s.proposals.get? proposalId <;> rfl

@[simp] theorem staff_putIdea (idea : Idea) : (s.putIdea idea).staff = s.staff := by
  unfold putIdea
  cases s.ideas.get? idea.id <;> rfl

@[simp] theorem staff_putProposal (now : Datetime) (proposalId topicId ideaId body : String) :
    (s.putProposal now proposalId topicId ideaId body).staff = s.staff := by
  unfold putProposal
  cases s.proposals.get? proposalId <;> rfl

@[simp] theorem staff_addEvent (row : EventRow) : (s.addEvent row).staff = s.staff := by
  unfold addEvent
  split <;> rfl

@[simp] theorem topics_hire (now : Datetime) (role name modelGroup : String) (generation : ℕ) (accessLevel : ℤ)
    (accessScopes : List String) :
    (s.hire now role name modelGroup generation accessLevel accessScopes).topics = s.topics := by
  unfold hire
  dsimp only
  split <;> rfl

@[simp] theorem topics_addEvent (row : EventRow) : (s.addEvent row).topics = s.topics := by
  unfold addEvent
  split <;> rfl

end FactoryStore

open FactoryStore in
/-- What a statement answers and leaves. Only the insertion of a topic that is there raises. -/
def Statement.exec (now : Datetime) : (st : Statement) → FactoryStore → Except Exn st.Answer × FactoryStore
  | .loopState, s => (.ok s.loop, s)
  | .setLoop state, s => (.ok (), { s with loop := some state })
  | .addTopic topicId text, s =>
    if s.topics.contains topicId then (.error (.foreign "IntegrityError" "UNIQUE constraint failed: topics.id"), s)
    else (.ok (), { s with topics := s.topics.set topicId { id := topicId, text := text, createdAt := now } })
  | .setTopicStatus topicId status, s => (.ok (), { s with topics := updateWhere s.topics topicId fun t =>
      { t with status := status, finishedAt := some now } })
  | .topics limit, s => (.ok ((s.topics.values.insertionSort fun t u => u.createdAt ≤ t.createdAt).take limit), s)
  | .topic topicId, s => (.ok (s.topics.get? topicId), s)
  | .putIdea idea, s => (.ok (), s.putIdea idea)
  | .setIdeaVerdict ideaId status synthId evidence reason, s =>
    (.ok (), s.setIdeaVerdict ideaId status synthId evidence reason)
  | .ideas topicId status limit, s => (.ok (s.listIdeas topicId status limit), s)
  | .setReview ideaId verdict, s => (.ok (), { s with ideas := updateWhere s.ideas ideaId fun row =>
      { row with review := some verdict, reviewedAt := some now } })
  | .putVote vote, s => (.ok (), { s with council := s.council.set (vote.ideaId, vote.round, vote.staffId) vote })
  | .votes ideaId, s => (.ok (s.listVotes ideaId), s)
  | .putProposal proposalId topicId ideaId body, s => (.ok (), s.putProposal now proposalId topicId ideaId body)
  | .proposals status, s => (.ok (s.listProposals status), s)
  | .decideProposal proposalId decision reason, s =>
    (.ok (if s.proposals.contains proposalId then 1 else 0), s.decideProposal now proposalId decision reason)
  | .hire role name modelGroup generation accessLevel accessScopes, s =>
    (.ok (), s.hire now role name modelGroup generation accessLevel accessScopes)
  | .promotionBonus staffId, s => (.ok ((s.staff.get? staffId).map Staff.promotionBonus), s)
  | .setAccess staffId level scopes bonus, s => (.ok (), { s with staff := updateWhere s.staff staffId fun m =>
      { m with accessLevel := level, accessScopes := scopes, promotionBonus := bonus } })
  | .staff includeRetired, s => (.ok (s.listStaff includeRetired), s)
  | .activeStaff role, s => (.ok (s.activeStaff role), s)
  | .setStaffGroup staffId modelGroup, s => (.ok (), { s with staff := updateWhere s.staff staffId fun m =>
      { m with modelGroup := modelGroup, changedAt := now } })
  | .retire staffId, s => (.ok (), { s with staff := updateWhere s.staff staffId fun m =>
      { m with status := .retired, retiredAt := some now } })
  | .event kind topicId staffId dedupe, s => (.ok (), s.addEvent ⟨kind, topicId, staffId, dedupe⟩)
  | .audit actor action, s => (.ok (), { s with audit := s.audit ++ [⟨actor, action⟩] })

end AllTomorrow.IdeaFactory
