import AllTomorrow.DomainRecords
import AllTomorrow.MachineRuns
import AllTomorrow.RaisingState

/-!
# Improvement proposals and their evaluation

`ImprovementStore` keeps proposals, the criteria by which they are evaluated and the
evaluations in three maps. `ImprovementEffect` lists what one operation can do to them.
-/

namespace AllTomorrow.Improve

inductive ProposalStatus where
  | proposed | sandboxed | evaluated | accepted | rejected | promoted | rolledBack | approvalRequired | stale
  deriving DecidableEq, Repr

def ProposalStatus.value : ProposalStatus → String
  | .proposed => "PROPOSED"
  | .sandboxed => "SANDBOXED"
  | .evaluated => "EVALUATED"
  | .accepted => "ACCEPTED"
  | .rejected => "REJECTED"
  | .promoted => "PROMOTED"
  | .rolledBack => "ROLLED_BACK"
  | .approvalRequired => "APPROVAL_REQUIRED"
  | .stale => "STALE"

/-- `_TRANSITIONS`. -/
def proposalTransitions : ProposalStatus → List ProposalStatus
  | .proposed => [.sandboxed, .rejected, .stale]
  | .sandboxed => [.evaluated, .rejected, .stale]
  | .evaluated => [.accepted, .rejected, .approvalRequired, .stale]
  | .approvalRequired => [.accepted, .rejected, .stale]
  | .accepted => [.promoted, .stale, .rejected]
  | .promoted => [.rolledBack]
  | .rejected => []
  | .rolledBack => []
  | .stale => []

structure ImprovementProposal where
  proposalId : String
  targetType : String
  targetId : String
  baselineHash : String
  reason : String
  protectionClass : String
  status : ProposalStatus := .proposed
  candidateHash : Option String := none
  criteriaRef : Option String := none
  evidenceRefs : List String := []
  sourceGoalId : Option String := none
  revision : ℤ := 1
  createdAt : Datetime
  updatedAt : Datetime
  deriving DecidableEq

structure EvaluationCriteria where
  criteriaId : String
  proposalId : String
  requiredMetrics : List String
  hardInvariants : List String
  contentHash : String
  frozenAt : Datetime
  deriving DecidableEq

structure EvaluationRun where
  evaluationId : String
  proposalId : String
  criteriaRef : String
  baselineHash : String
  candidateHash : String
  decision : String
  reason : String
  evaluatorVersion : String
  createdAt : Datetime
  deriving DecidableEq

structure ImprovementStore where
  proposals : InsertionDict String ImprovementProposal
  criteria : InsertionDict String EvaluationCriteria
  evaluations : InsertionDict String (List EvaluationRun)

abbrev ImprovementM := EStateM Exn ImprovementStore

def proposalError (message : String) : Exn := .foreign "ProposalError" message

def ImprovementProposal.moved (p : ImprovementProposal) (env : Supply) (target : ProposalStatus) : ImprovementProposal :=
  { p with status := target, revision := p.revision + 1, updatedAt := env.utcNow }

namespace ImprovementStore

def empty : ImprovementStore := ⟨.empty, .empty, .empty⟩

/-- `self._proposals[proposal_id]`. -/
def proposal (proposalId : String) : ImprovementM ImprovementProposal := do
  match (← get).proposals.get? proposalId with
  | none => throw (.keyError proposalId)
  | some p => return p

def putProposal (proposalId : String) (p : ImprovementProposal) : ImprovementM Unit :=
  modify fun s => { s with proposals := s.proposals.set proposalId p }

def createProposal (p : ImprovementProposal) : ImprovementM ImprovementProposal := do
  if (← get).proposals.contains p.proposalId then
    throw (proposalError ("proposal exists: " ++ p.proposalId))
  putProposal p.proposalId p
  return p

def transition (env : Supply) (proposalId : String) (target : ProposalStatus) (expectedRevision : ℤ) :
    ImprovementM ImprovementProposal := do
  let cur ← proposal proposalId
  if cur.revision ≠ expectedRevision then
    throw (proposalError ("proposal " ++ proposalId ++ " revision conflict"))
  if target ∉ proposalTransitions cur.status then
    throw (.invalidStateTransitionError
      ("illegal proposal transition " ++ cur.status.value ++ "->" ++ target.value))
  let updated := cur.moved env target
  putProposal proposalId updated
  return updated

def sandboxCandidate (env : Supply) (proposalId candidateHash : String) (expectedRevision : ℤ) :
    ImprovementM ImprovementProposal := do
  let cur ← proposal proposalId
  if cur.revision ≠ expectedRevision then
    throw (proposalError "revision conflict")
  let moved ← transition env proposalId .sandboxed expectedRevision
  let updated := { moved with candidateHash := some candidateHash }
  putProposal proposalId updated
  return updated

def freezeCriteria (criteria : EvaluationCriteria) (_expectedRevision : ℤ) : ImprovementM EvaluationCriteria := do
  let p ← proposal criteria.proposalId
  if p.status ≠ .sandboxed then
    throw (proposalError ("criteria must be frozen before evaluation (status=" ++ p.status.value ++ ")"))
  modify fun s => { s with criteria := s.criteria.set criteria.criteriaId criteria }
  putProposal criteria.proposalId { p with criteriaRef := some criteria.criteriaId, revision := p.revision + 1 }
  return criteria

/-- `self._evaluations.get(proposal_id, [])`. -/
def evaluationsOf (s : ImprovementStore) (proposalId : String) : List EvaluationRun :=
  (s.evaluations.get? proposalId).getD []

def recordEvaluation (ev : EvaluationRun) : ImprovementM EvaluationRun := do
  let p ← proposal ev.proposalId
  -- a candidate hash that no longer matches the proposal invalidates the run
  if p.candidateHash.isSome ∧ p.candidateHash ≠ some ev.candidateHash then
    throw (proposalError "evaluation candidate hash does not match proposal candidate")
  modify fun s => { s with evaluations := s.evaluations.set ev.proposalId (s.evaluationsOf ev.proposalId ++ [ev]) }
  return ev

def invalidated : List ProposalStatus := [.accepted, .evaluated, .approvalRequired]

def invalidateIfCandidateChanged (env : Supply) (proposalId newCandidateHash : String) :
    ImprovementM ImprovementProposal := do
  let p ← proposal proposalId
  if p.candidateHash.isSome ∧ p.candidateHash ≠ some newCandidateHash ∧ p.status ∈ invalidated then
    let stale := p.moved env .stale
    putProposal proposalId stale
    return stale
  return p

end ImprovementStore

open ImprovementStore EStateM

/-! ## The operations as data -/

inductive ImprovementOp where
  | createProposal (p : ImprovementProposal)
  | transition (env : Supply) (proposalId : String) (target : ProposalStatus) (expectedRevision : ℤ)
  | sandboxCandidate (env : Supply) (proposalId candidateHash : String) (expectedRevision : ℤ)
  | freezeCriteria (criteria : EvaluationCriteria) (expectedRevision : ℤ)
  | recordEvaluation (ev : EvaluationRun)
  | invalidateIfCandidateChanged (env : Supply) (proposalId newCandidateHash : String)
  | get (proposalId : String)
  | evaluations (proposalId : String)

def ImprovementOp.exec : ImprovementOp → ImprovementM Unit
  | .createProposal p => do let _ ← ImprovementStore.createProposal p
  | .transition env proposalId target rev => do let _ ← ImprovementStore.transition env proposalId target rev
  | .sandboxCandidate env proposalId hash rev => do let _ ← ImprovementStore.sandboxCandidate env proposalId hash rev
  | .freezeCriteria criteria rev => do let _ ← ImprovementStore.freezeCriteria criteria rev
  | .recordEvaluation ev => do let _ ← ImprovementStore.recordEvaluation ev
  | .invalidateIfCandidateChanged env proposalId hash => do let _ ← ImprovementStore.invalidateIfCandidateChanged env proposalId hash
  -- the two reads leave the store alone
  | .get _ | .evaluations _ => return ()

def improvementStep (s : ImprovementStore) (op : ImprovementOp) : ImprovementStore := (op.exec.run s).state

def Succeeds (s : ImprovementStore) (op : ImprovementOp) : Prop := (op.exec.run s).outcome = .ok ()

inductive ImprovementEffect (s : ImprovementStore) : ImprovementOp → ImprovementStore → Prop where
  | raised {op : ImprovementOp} (h : ¬Succeeds s op) : ImprovementEffect s op s
  | readProposal (proposalId : String) : ImprovementEffect s (.get proposalId) s
  | readEvaluations (proposalId : String) : ImprovementEffect s (.evaluations proposalId) s
  | stillValid (env : Supply) (proposalId newCandidateHash : String) :
      ImprovementEffect s (.invalidateIfCandidateChanged env proposalId newCandidateHash) s
  | created {p : ImprovementProposal} (hfresh : s.proposals.get? p.proposalId = none) :
      ImprovementEffect s (.createProposal p) { s with proposals := s.proposals.set p.proposalId p }
  | moved {env : Supply} {proposalId : String} {target : ProposalStatus} {cur : ImprovementProposal}
      (hget : s.proposals.get? proposalId = some cur) (hmem : target ∈ proposalTransitions cur.status) :
      ImprovementEffect s (.transition env proposalId target cur.revision)
        { s with proposals := s.proposals.set proposalId (cur.moved env target) }
  | sandboxed {env : Supply} {proposalId candidateHash : String} {cur : ImprovementProposal}
      (hget : s.proposals.get? proposalId = some cur) (hstatus : cur.status = .proposed) :
      ImprovementEffect s (.sandboxCandidate env proposalId candidateHash cur.revision)
        { s with proposals := (s.proposals.set proposalId (cur.moved env .sandboxed)).set proposalId
                   { cur.moved env .sandboxed with candidateHash := some candidateHash } }
  | frozen {criteria : EvaluationCriteria} {rev : ℤ} {p : ImprovementProposal}
      (hget : s.proposals.get? criteria.proposalId = some p) (hstatus : p.status = .sandboxed) :
      ImprovementEffect s (.freezeCriteria criteria rev)
        { s with criteria := s.criteria.set criteria.criteriaId criteria
                 proposals := s.proposals.set criteria.proposalId
                   { p with criteriaRef := some criteria.criteriaId, revision := p.revision + 1 } }
  | recorded {ev : EvaluationRun} {p : ImprovementProposal} (hget : s.proposals.get? ev.proposalId = some p)
      (hhash : ∀ hash, p.candidateHash = some hash → ev.candidateHash = hash) :
      ImprovementEffect s (.recordEvaluation ev)
        { s with evaluations := s.evaluations.set ev.proposalId (s.evaluationsOf ev.proposalId ++ [ev]) }
  | staled {env : Supply} {proposalId newCandidateHash : String} {p : ImprovementProposal}
      (hget : s.proposals.get? proposalId = some p) (hstatus : p.status ∈ invalidated) :
      ImprovementEffect s (.invalidateIfCandidateChanged env proposalId newCandidateHash)
        { s with proposals := s.proposals.set proposalId (p.moved env .stale) }

/-! ## Every operation does one of these -/

variable {s : ImprovementStore}

theorem ends_proposal {proposalId : String} :
    Ends (proposal proposalId) s (fun p s' => s' = s ∧ s.proposals.get? proposalId = some p) fun _ s' => s' = s := by
  unfold proposal
  refine ends_get_bind ?_
  cases hget : s.proposals.get? proposalId with
  | none => exact ends_throw rfl
  | some p => exact ends_pure ⟨rfl, rfl⟩

theorem ends_transition {env : Supply} {proposalId : String} {target : ProposalStatus} {rev : ℤ} :
    Ends (transition env proposalId target rev) s
      (fun p s' => ∃ cur, s.proposals.get? proposalId = some cur ∧ cur.revision = rev ∧
        target ∈ proposalTransitions cur.status ∧ p = cur.moved env target ∧
        s' = { s with proposals := s.proposals.set proposalId (cur.moved env target) }) fun _ s' => s' = s := by
  unfold transition
  refine Ends.bind ends_proposal ?_
  rintro cur s ⟨rfl, hget⟩
  refine ends_ite (fun _ => ends_throw_bind rfl) fun hrev => ?_
  refine ends_ite (fun _ => ends_throw_bind rfl) fun hmem => ends_modify_bind (ends_pure ?_)
  exact ⟨cur, hget, not_not.mp hrev, not_not.mp hmem, rfl, rfl⟩

/-- An operation that was run, by what it can return and where it raises. -/
theorem effect_of_ends {op : ImprovementOp} {α : Type} {x : ImprovementM α} {P : ImprovementStore → Prop}
    (hop : op.exec = do let _ ← x) (hx : Ends x s (fun _ s' => P s') fun _ s' => s' = s)
    (h : ∀ s', P s' → ImprovementEffect s op s') : ImprovementEffect s op (improvementStep s op) := by
  have hrun : op.exec.run s = (do let _ ← x : ImprovementM Unit) s := by rw [hop]; rfl
  unfold Ends at hx
  unfold improvementStep
  have hresult : (do let _ ← x : ImprovementM Unit) s = match x s with
      | .ok _ s' => .ok () s'
      | .error e s' => .error e s' := by
    change EStateM.bind x (fun _ => pure ()) s = _
    unfold EStateM.bind
    cases x s <;> rfl
  cases hxs : x s with
  | ok a s' =>
    rw [hxs] at hx hresult
    rw [hrun, hresult]
    exact h s' hx
  | error e s' =>
    rw [hxs] at hx hresult
    rw [hrun, hresult]
    change ImprovementEffect s op s'
    rw [hx]
    refine .raised ?_
    unfold Succeeds
    rw [hrun, hresult]
    nofun

theorem improvement_effect (s : ImprovementStore) (op : ImprovementOp) : ImprovementEffect s op (improvementStep s op) := by
  cases op with
  | createProposal p =>
    refine effect_of_ends (x := ImprovementStore.createProposal p) rfl (P := fun s' =>
      s.proposals.get? p.proposalId = none ∧ s' = { s with proposals := s.proposals.set p.proposalId p }) ?_ ?_
    · unfold ImprovementStore.createProposal
      refine ends_get_bind (ends_ite (fun _ => ends_throw_bind rfl) fun hfresh => ends_modify_bind (ends_pure ?_))
      exact ⟨InsertionDict.contains_eq_false_iff.mp (by simpa using hfresh), rfl⟩
    · rintro s' ⟨hfresh, rfl⟩
      exact .created hfresh
  | transition env proposalId target rev =>
    refine effect_of_ends (x := ImprovementStore.transition env proposalId target rev) rfl
      (P := fun s' => ∃ cur, s.proposals.get? proposalId = some cur ∧ cur.revision = rev ∧
        target ∈ proposalTransitions cur.status ∧
        s' = { s with proposals := s.proposals.set proposalId (cur.moved env target) }) ?_ ?_
    · refine ends_transition.mono ?_ fun _ _ h => h
      rintro p s' ⟨cur, hget, hrev, hmem, -, rfl⟩
      exact ⟨cur, hget, hrev, hmem, rfl⟩
    · rintro s' ⟨cur, hget, rfl, hmem, rfl⟩
      exact .moved hget hmem
  | sandboxCandidate env proposalId hash rev =>
    refine effect_of_ends (x := ImprovementStore.sandboxCandidate env proposalId hash rev) rfl
      (P := fun s' => ∃ cur, s.proposals.get? proposalId = some cur ∧ cur.revision = rev ∧
        ProposalStatus.sandboxed ∈ proposalTransitions cur.status ∧
        s' = { s with proposals := (s.proposals.set proposalId (cur.moved env .sandboxed)).set proposalId
                        { cur.moved env .sandboxed with candidateHash := some hash } }) ?_ ?_
    · unfold ImprovementStore.sandboxCandidate
      refine Ends.bind ends_proposal ?_
      rintro cur s ⟨rfl, hget⟩
      refine ends_ite (fun _ => ends_throw_bind rfl) fun _ => Ends.bind ends_transition ?_
      rintro p s' ⟨cur', hget', hrev, hmem, rfl, rfl⟩
      exact ends_modify_bind (ends_pure ⟨cur', hget', hrev, hmem, rfl⟩)
    · rintro s' ⟨cur, hget, rfl, hmem, rfl⟩
      refine .sandboxed hget ?_
      revert hmem
      cases cur.status <;> decide
  | freezeCriteria criteria rev =>
    refine effect_of_ends (x := ImprovementStore.freezeCriteria criteria rev) rfl
      (P := fun s' => ∃ p, s.proposals.get? criteria.proposalId = some p ∧ p.status = .sandboxed ∧
        s' = { s with criteria := s.criteria.set criteria.criteriaId criteria
                      proposals := s.proposals.set criteria.proposalId
                        { p with criteriaRef := some criteria.criteriaId, revision := p.revision + 1 } }) ?_ ?_
    · unfold ImprovementStore.freezeCriteria
      refine Ends.bind ends_proposal ?_
      rintro p s ⟨rfl, hget⟩
      refine ends_ite (fun _ => ends_throw_bind rfl) fun hstatus => ends_modify_bind (ends_modify_bind (ends_pure ?_))
      exact ⟨p, hget, not_not.mp hstatus, rfl⟩
    · rintro s' ⟨p, hget, hstatus, rfl⟩
      exact .frozen hget hstatus
  | recordEvaluation ev =>
    refine effect_of_ends (x := ImprovementStore.recordEvaluation ev) rfl
      (P := fun s' => ∃ p, s.proposals.get? ev.proposalId = some p ∧
        (∀ hash, p.candidateHash = some hash → ev.candidateHash = hash) ∧
        s' = { s with evaluations := s.evaluations.set ev.proposalId (s.evaluationsOf ev.proposalId ++ [ev]) }) ?_ ?_
    · unfold ImprovementStore.recordEvaluation
      refine Ends.bind ends_proposal ?_
      rintro p s ⟨rfl, hget⟩
      refine ends_ite (fun _ => ends_throw_bind rfl) fun hhash => ends_modify_bind (ends_pure ⟨p, hget, ?_, rfl⟩)
      intro hash hsome
      simp only [hsome, Option.isSome_some, true_and, ne_eq, Option.some.injEq, not_not] at hhash
      exact hhash.symm
    · rintro s' ⟨p, hget, hhash, rfl⟩
      exact .recorded hget hhash
  | invalidateIfCandidateChanged env proposalId hash =>
    refine effect_of_ends (x := ImprovementStore.invalidateIfCandidateChanged env proposalId hash) rfl
      (P := fun s' => s' = s ∨ ∃ p, s.proposals.get? proposalId = some p ∧ p.status ∈ invalidated ∧
        s' = { s with proposals := s.proposals.set proposalId (p.moved env .stale) }) ?_ ?_
    · unfold ImprovementStore.invalidateIfCandidateChanged
      refine Ends.bind ends_proposal ?_
      rintro p s ⟨rfl, hget⟩
      refine ends_ite (fun hstale => ends_modify_bind (ends_pure ?_)) fun _ => ends_pure (.inl rfl)
      exact .inr ⟨p, hget, hstale.2.2, rfl⟩
    · rintro s' (rfl | ⟨p, hget, hstatus, rfl⟩)
      · exact .stillValid env proposalId hash
      · exact .staled hget hstatus
  | get proposalId => exact .readProposal proposalId
  | evaluations proposalId => exact .readEvaluations proposalId

end AllTomorrow.Improve
