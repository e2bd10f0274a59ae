import AllTomorrow.ImprovementProposals
import Mathlib.Data.List.Induction
import Mathlib.Data.List.Infix

/-!
# What the improvement store keeps

Over whole runs of the store: which part of the yardstick of a proposal can change, and which
way a proposal has gone when it is accepted.
-/

namespace AllTomorrow.Improve

open InsertionDict (get?_set_cases get?_set_self)
open MachineRuns (EveryStep everyStep_append_left invariant_of_everyStep run_append)

open ImprovementStore EStateM

def improvementRun (ops : List ImprovementOp) : ImprovementStore := MachineRuns.run improvementStep .empty ops

/-- A proposal is created as PROPOSED. -/
def CreatesProposed : ImprovementOp → Prop
  | .createProposal p => p.status = .proposed
  | _ => True

variable {s : ImprovementStore} {op : ImprovementOp}

/-! ## What is stored after an operation -/

theorem proposed_not_mem_transitions (status : ProposalStatus) : ProposalStatus.proposed ∉ proposalTransitions status := by
  cases status <;> decide

inductive ProposalChange (s : ImprovementStore) (k : String) : ImprovementOp → Option ImprovementProposal → Prop where
  | kept {op : ImprovementOp} : ProposalChange s k op (s.proposals.get? k)
  | created {p : ImprovementProposal} (hkey : p.proposalId = k) (hfresh : s.proposals.get? k = none) :
      ProposalChange s k (.createProposal p) (some p)
  | moved {env : Supply} {target : ProposalStatus} {p : ImprovementProposal} (hget : s.proposals.get? k = some p)
      (hmem : target ∈ proposalTransitions p.status) :
      ProposalChange s k (.transition env k target p.revision) (some (p.moved env target))
  | sandboxed {env : Supply} {hash : String} {p : ImprovementProposal} (hget : s.proposals.get? k = some p)
      (hstatus : p.status = .proposed) :
      ProposalChange s k (.sandboxCandidate env k hash p.revision)
        (some { p.moved env .sandboxed with candidateHash := some hash })
  | frozen {criteria : EvaluationCriteria} {rev : ℤ} {p : ImprovementProposal} (hkey : criteria.proposalId = k)
      (hget : s.proposals.get? k = some p) (hstatus : p.status = .sandboxed) :
      ProposalChange s k (.freezeCriteria criteria rev)
        (some { p with criteriaRef := some criteria.criteriaId, revision := p.revision + 1 })
  | staled {env : Supply} {hash : String} {p : ImprovementProposal} (hget : s.proposals.get? k = some p)
      (hstatus : p.status ∈ invalidated) :
      ProposalChange s k (.invalidateIfCandidateChanged env k hash) (some (p.moved env .stale))

theorem proposal_change (s : ImprovementStore) (op : ImprovementOp) (k : String) :
    ProposalChange s k op ((improvementStep s op).proposals.get? k) := by
  have heffect := improvement_effect s op
  generalize improvementStep s op = s' at heffect ⊢
  cases heffect with
  | raised | readProposal | readEvaluations | stillValid | recorded => exact .kept
  | @created p hfresh =>
    rcases get?_set_cases s.proposals p.proposalId p k with ⟨rfl, hnew⟩ | ⟨_, hold⟩
    · exact hnew ▸ .created rfl hfresh
    · exact hold ▸ .kept
  | @moved env proposalId target cur hget hmem =>
    rcases get?_set_cases s.proposals proposalId (cur.moved env target) k with ⟨rfl, hnew⟩ | ⟨_, hold⟩
    · exact hnew ▸ .moved hget hmem
    · exact hold ▸ .kept
  | @sandboxed env proposalId hash cur hget hstatus =>
    rcases get?_set_cases (s.proposals.set proposalId (cur.moved env .sandboxed)) proposalId
      { cur.moved env .sandboxed with candidateHash := some hash } k with ⟨rfl, hnew⟩ | ⟨hne, hold⟩
    · exact hnew ▸ .sandboxed hget hstatus
    · exact hold.trans (InsertionDict.get?_set_of_ne _ _ hne) ▸ .kept
  | @frozen criteria rev p hget hstatus =>
    rcases get?_set_cases s.proposals criteria.proposalId
      { p with criteriaRef := some criteria.criteriaId, revision := p.revision + 1 } k with ⟨rfl, hnew⟩ | ⟨_, hold⟩
    · exact hnew ▸ .frozen rfl hget hstatus
    · exact hold ▸ .kept
  | @staled env proposalId hash p hget hstatus =>
    rcases get?_set_cases s.proposals proposalId (p.moved env .stale) k with ⟨rfl, hnew⟩ | ⟨_, hold⟩
    · exact hnew ▸ .staled hget hstatus
    · exact hold ▸ .kept

theorem criteria_change (s : ImprovementStore) (op : ImprovementOp) (k : String) :
    (improvementStep s op).criteria.get? k = s.criteria.get? k ∨
      ∃ criteria rev p, op = .freezeCriteria criteria rev ∧ criteria.criteriaId = k ∧
        s.proposals.get? criteria.proposalId = some p ∧ p.status = .sandboxed ∧
        (improvementStep s op).criteria.get? k = some criteria := by
  have heffect := improvement_effect s op
  generalize improvementStep s op = s' at heffect ⊢
  cases heffect with
  | @frozen criteria rev p hget hstatus =>
    rcases get?_set_cases s.criteria criteria.criteriaId criteria k with ⟨rfl, hnew⟩ | ⟨_, hold⟩
    · exact .inr ⟨criteria, rev, p, rfl, rfl, hget, hstatus, hnew⟩
    · exact .inl hold
  | _ => exact .inl rfl

/-- An evaluation that is recorded after an operation was recorded before, or it is the one that was passed. -/
theorem evaluation_change (s : ImprovementStore) (op : ImprovementOp) (k : String) :
    (improvementStep s op).evaluationsOf k = s.evaluationsOf k ∨
      ∃ ev p, op = .recordEvaluation ev ∧ ev.proposalId = k ∧ s.proposals.get? k = some p ∧
        (∀ hash, p.candidateHash = some hash → ev.candidateHash = hash) ∧
        (improvementStep s op).evaluationsOf k = s.evaluationsOf k ++ [ev] := by
  have heffect := improvement_effect s op
  generalize improvementStep s op = s' at heffect ⊢
  cases heffect with
  | @recorded ev p hget hhash =>
    rcases get?_set_cases s.evaluations ev.proposalId (s.evaluationsOf ev.proposalId ++ [ev]) k with
      ⟨rfl, hnew⟩ | ⟨_, hold⟩
    · exact .inr ⟨ev, p, rfl, rfl, hget, hhash, congrArg (·.getD []) hnew⟩
    · exact .inl (congrArg (·.getD []) hold)
  | _ => exact .inl rfl

/-! ## The yardstick of a candidate -/

variable {p : ImprovementProposal} {k : String}

theorem run_proposal (hget : s.proposals.get? k = some p) : (proposal k).run s = .ok p s := by
  simp [proposal, hget]

theorem succeeds_of_ends (h : Ends op.exec s (fun _ _ => True) fun _ _ => False) : Succeeds s op := by
  obtain ⟨_, s', hrun, -⟩ := h.returns
  unfold Succeeds
  rw [hrun]
  rfl

variable {c : EvaluationCriteria}

theorem succeeds_of_sandboxed {rev : ℤ} (hget : s.proposals.get? c.proposalId = some p) (hstatus : p.status = .sandboxed) :
    Succeeds s (.freezeCriteria c rev) := by
  refine succeeds_of_ends (Ends.bind (Q := fun _ _ => True) ?_ fun _ _ _ => ends_pure trivial)
  refine ends_run_bind (run_proposal hget) (ends_ite (fun hne => absurd hstatus hne) fun _ => ?_)
  exact ends_modify_bind (ends_modify_bind (ends_pure trivial))

variable {ev : EvaluationRun}

theorem succeeds_of_matching (hget : s.proposals.get? ev.proposalId = some p)
    (hhash : ∀ hash, p.candidateHash = some hash → ev.candidateHash = hash) : Succeeds s (.recordEvaluation ev) := by
  refine succeeds_of_ends (Ends.bind (Q := fun _ _ => True) ?_ fun _ _ _ => ends_pure trivial)
  refine ends_run_bind (run_proposal hget) (ends_ite (fun hother => ?_) fun _ => ends_modify_bind (ends_pure trivial))
  obtain ⟨hash, hsome⟩ := Option.isSome_iff_exists.mp hother.1
  exact absurd (hsome.trans (congrArg some (hhash hash hsome).symm)) hother.2

def Frozen (s : ImprovementStore) (c : EvaluationCriteria) : Prop :=
  s.criteria.get? c.criteriaId = some c ∧
    ∃ p, s.proposals.get? c.proposalId = some p ∧ p.criteriaRef = some c.criteriaId

theorem frozen_of_succeeds {rev : ℤ} (h : Succeeds s (.freezeCriteria c rev)) :
    Frozen (improvementStep s (.freezeCriteria c rev)) c := by
  have heffect := improvement_effect s (.freezeCriteria c rev)
  generalize improvementStep s (.freezeCriteria c rev) = s' at heffect ⊢
  cases heffect with
  | raised hraised => exact absurd h hraised
  | frozen => exact ⟨get?_set_self _ _ _, _, get?_set_self _ _ _, rfl⟩

theorem recorded_of_succeeds (h : Succeeds s (.recordEvaluation ev)) :
    ∃ p, s.proposals.get? ev.proposalId = some p ∧ (∀ hash, p.candidateHash = some hash → ev.candidateHash = hash) ∧
      ev ∈ (improvementStep s (.recordEvaluation ev)).evaluationsOf ev.proposalId := by
  have heffect := improvement_effect s (.recordEvaluation ev)
  generalize improvementStep s (.recordEvaluation ev) = s' at heffect ⊢
  cases heffect with
  | raised hraised => exact absurd h hraised
  | @recorded _ p hget hhash =>
    refine ⟨p, hget, hhash, ?_⟩
    have hnew := get?_set_self s.evaluations ev.proposalId (s.evaluationsOf ev.proposalId ++ [ev])
    rw [show evaluationsOf _ ev.proposalId = _ from congrArg (·.getD []) hnew]
    exact List.mem_append_right _ (List.mem_singleton_self ev)

/-- The evaluation is one of this proposal, by criteria that were frozen for it. -/
def JudgedBy (s : ImprovementStore) (ev : EvaluationRun) (p : ImprovementProposal) : Prop :=
  p.criteriaRef = some ev.criteriaRef ∧ p.baselineHash = ev.baselineHash ∧ p.candidateHash = some ev.candidateHash ∧
    ∃ c, s.criteria.get? ev.criteriaRef = some c ∧ c.proposalId = ev.proposalId

/-- What the store leaves to its caller. Criteria that share their identifier or their proposal with stored
ones are the same criteria, and an evaluation is of the frozen criteria, the baseline and the candidate. -/
def RespectsYardstick (s : ImprovementStore) : ImprovementOp → Prop
  | .freezeCriteria c _ => ∀ p, s.proposals.get? c.proposalId = some p → p.status = .sandboxed →
      ∀ k c', s.criteria.get? k = some c' → c'.criteriaId = c.criteriaId ∨ c'.proposalId = c.proposalId → c' = c
  | .recordEvaluation ev => ∀ p, s.proposals.get? ev.proposalId = some p →
      (∀ hash, p.candidateHash = some hash → ev.candidateHash = hash) → JudgedBy s ev p
  | _ => True

/-- Stored criteria are those to which their proposal refers, and a recorded evaluation is of the proposal. -/
structure Yardstick (s : ImprovementStore) : Prop where
  frozen : ∀ k c, s.criteria.get? k = some c → c.criteriaId = k ∧
    ∃ p, s.proposals.get? c.proposalId = some p ∧ p.criteriaRef = some k ∧ p.status ≠ .proposed
  judged : ∀ k, ∀ ev ∈ s.evaluationsOf k, ev.proposalId = k ∧ ∃ p, s.proposals.get? k = some p ∧ JudgedBy s ev p

theorem yardstick_empty : Yardstick .empty := by
  refine ⟨fun k c h => ?_, fun k ev h => ?_⟩
  · cases h
  · cases h

/-- A proposal that has left PROPOSED keeps its hashes, and its criteria unless they are frozen. -/
theorem proposal_kept (op : ImprovementOp) (hget : s.proposals.get? k = some p) (hleft : p.status ≠ .proposed) :
    ∃ p', (improvementStep s op).proposals.get? k = some p' ∧ p'.status ≠ .proposed ∧
      p'.baselineHash = p.baselineHash ∧ p'.candidateHash = p.candidateHash ∧
      (p'.criteriaRef = p.criteriaRef ∨ ∃ c rev, op = .freezeCriteria c rev ∧ c.proposalId = k ∧ p.status = .sandboxed ∧
          p'.criteriaRef = some c.criteriaId) := by
  have hchange := proposal_change s op k
  generalize (improvementStep s op).proposals.get? k = stored at hchange ⊢
  cases hchange with
  | kept => exact ⟨p, hget, hleft, rfl, rfl, .inl rfl⟩
  | created _ hfresh => exact absurd (hfresh.symm.trans hget) (by nofun)
  | @moved env target q hq hmem =>
    cases hq.symm.trans hget
    refine ⟨_, rfl, ?_, rfl, rfl, .inl rfl⟩
    rintro rfl
    exact proposed_not_mem_transitions _ hmem
  | @sandboxed env hash q hq hstatus =>
    cases hq.symm.trans hget
    exact absurd hstatus hleft
  | @frozen c rev q hkey hq hstatus =>
    cases hq.symm.trans hget
    exact ⟨_, rfl, hleft, rfl, rfl, .inr ⟨c, rev, rfl, hkey, hstatus, rfl⟩⟩
  | @staled env hash q hq hstatus =>
    cases hq.symm.trans hget
    exact ⟨_, rfl, by nofun, rfl, rfl, .inl rfl⟩

theorem criteria_kept (h : Yardstick s) (hop : RespectsYardstick s op)
    (hget : s.criteria.get? k = some c) : (improvementStep s op).criteria.get? k = some c := by
  rcases criteria_change s op k with hsame | ⟨c', rev, p, rfl, rfl, hp, hstatus, hnew⟩
  · exact hsame.trans hget
  · have hcc : c = c' := hop p hp hstatus _ c hget (.inl (h.frozen _ _ hget).1)
    rw [hnew, hcc]

theorem criteriaRef_kept (h : Yardstick s) (hop : RespectsYardstick s op) (hget : s.criteria.get? k = some c) :
    ∃ p p', s.proposals.get? c.proposalId = some p ∧ p.criteriaRef = some k ∧
      (improvementStep s op).proposals.get? c.proposalId = some p' ∧ p'.criteriaRef = some k ∧
      p'.status ≠ .proposed ∧ p'.baselineHash = p.baselineHash ∧ p'.candidateHash = p.candidateHash := by
  obtain ⟨hkey, p, hp, href, hleft⟩ := h.frozen k c hget
  obtain ⟨p', hp', hleft', hbaseline, hcandidate, hsame | ⟨c', rev, rfl, hproposal, hstatus, hnew⟩⟩ :=
    proposal_kept op hp hleft
  · exact ⟨p, p', hp, href, hp', hsame.trans href, hleft', hbaseline, hcandidate⟩
  · have hcc : c = c' := hop p (hproposal ▸ hp) hstatus k c hget (.inr hproposal.symm)
    exact ⟨p, p', hp, href, hp', by rw [hnew, ← hcc, hkey], hleft', hbaseline, hcandidate⟩

theorem judged_kept (h : Yardstick s)
    (hop : RespectsYardstick s op) (hkey : ev.proposalId = k) (hp : s.proposals.get? k = some p)
    (hjudged : JudgedBy s ev p) :
    ∃ p', (improvementStep s op).proposals.get? k = some p' ∧ JudgedBy (improvementStep s op) ev p' := by
  obtain ⟨href, hbaseline, hcandidate, c, hc, hproposal⟩ := hjudged
  obtain ⟨q, p', hq, -, hp', href', -, hbaseline', hcandidate'⟩ := criteriaRef_kept h hop hc
  have hck : c.proposalId = k := hproposal.trans hkey
  rw [hck] at hq hp'
  cases hq.symm.trans hp
  exact ⟨p', hp', href', hbaseline'.trans hbaseline, hcandidate'.trans hcandidate, c, criteria_kept h hop hc, hproposal⟩

theorem yardstick_step (h : Yardstick s) (hop : RespectsYardstick s op) : Yardstick (improvementStep s op) := by
  refine ⟨fun k c hget => ?_, fun k ev hev => ?_⟩
  · rcases criteria_change s op k with hsame | ⟨c', rev, p, rfl, rfl, hp, hstatus, hnew⟩
    · obtain ⟨_, p', _, _, hp', href, hleft, -⟩ := criteriaRef_kept h hop (hsame ▸ hget)
      exact ⟨(h.frozen k c (hsame ▸ hget)).1, p', hp', href, hleft⟩
    · cases hnew.symm.trans hget
      obtain ⟨p', hp', hleft, -⟩ := proposal_kept (.freezeCriteria c rev) hp (by rw [hstatus]; nofun)
      have hsucceeds : Succeeds s (.freezeCriteria c rev) := succeeds_of_sandboxed hp hstatus
      obtain ⟨-, p'', hp'', href⟩ := frozen_of_succeeds hsucceeds
      cases hp''.symm.trans hp'
      exact ⟨rfl, p', hp', href, hleft⟩
  · rcases evaluation_change s op k with hsame | ⟨ev', p, rfl, rfl, hp, hhash, hnew⟩
    · obtain ⟨hkey, p, hp, hjudged⟩ := h.judged k ev (hsame ▸ hev)
      exact ⟨hkey, judged_kept h hop hkey hp hjudged⟩
    · rw [hnew] at hev
      rcases List.mem_append.mp hev with hold | hlast
      · obtain ⟨hkey, p, hp, hjudged⟩ := h.judged _ ev hold
        exact ⟨hkey, judged_kept h hop hkey hp hjudged⟩
      · cases List.mem_singleton.mp hlast
        exact ⟨rfl, judged_kept h hop rfl hp (hop p hp hhash)⟩

/-! ## Whole runs -/

theorem improvementRun_snoc (ops : List ImprovementOp) (op : ImprovementOp) :
    improvementRun (ops ++ [op]) = improvementStep (improvementRun ops) op := run_append _ _ _ _

theorem improvementRun_append (ops ops' : List ImprovementOp) :
    improvementRun (ops ++ ops') = MachineRuns.run improvementStep (improvementRun ops) ops' :=
  run_append _ _ _ _

def FrozenIn (ops : List ImprovementOp) (c : EvaluationCriteria) : Prop :=
  ∃ before rev after, ops = before ++ .freezeCriteria c rev :: after ∧
    Succeeds (improvementRun before) (.freezeCriteria c rev)

/-- Criteria stay as they were frozen, and every evaluation is by them. -/
structure YardstickKept (ops : List ImprovementOp) : Prop where
  frozen : ∀ before after c, ops = before ++ after → FrozenIn before c → Frozen (improvementRun before) c
  recorded : ∀ before ev after, ops = before ++ .recordEvaluation ev :: after →
    Succeeds (improvementRun before) (.recordEvaluation ev) → ∃ c, FrozenIn before c ∧ c.proposalId = ev.proposalId
  matching : ∀ before after k, ops = before ++ after → ∀ ev ∈ (improvementRun before).evaluationsOf k,
    ∃ p, (improvementRun before).proposals.get? k = some p ∧ p.criteriaRef = some ev.criteriaRef ∧
      p.baselineHash = ev.baselineHash ∧ p.candidateHash = some ev.candidateHash

theorem FrozenIn.append {ops : List ImprovementOp} (h : FrozenIn ops c) (ops' : List ImprovementOp) :
    FrozenIn (ops ++ ops') c := by
  obtain ⟨before, rev, after, rfl, hsucceeds⟩ := h
  exact ⟨before, rev, after ++ ops', by simp, hsucceeds⟩

theorem frozenIn_of_stored {ops : List ImprovementOp}
    (h : (improvementRun ops).criteria.get? k = some c) : FrozenIn ops c := by
  induction ops using List.reverseRecOn with
  | nil => cases h
  | append_singleton ops op ih =>
    rw [improvementRun_snoc] at h
    rcases criteria_change (improvementRun ops) op k with hsame | ⟨c', rev, p, rfl, rfl, hp, hstatus, hnew⟩
    · exact (ih (hsame ▸ h)).append [op]
    · cases hnew.symm.trans h
      exact ⟨ops, rev, [], rfl, succeeds_of_sandboxed hp hstatus⟩

section Respected

variable {ops : List ImprovementOp} (hops : EveryStep improvementStep RespectsYardstick .empty ops)

include hops

theorem yardstick_run : Yardstick (improvementRun ops) :=
  invariant_of_everyStep (fun _ _ h hop => yardstick_step h hop) yardstick_empty hops

theorem stored_of_frozenIn (h : FrozenIn ops c) : (improvementRun ops).criteria.get? c.criteriaId = some c := by
  obtain ⟨before, rev, after, rfl, hsucceeds⟩ := h
  rw [← List.singleton_append, ← List.append_assoc] at hops ⊢
  have hbefore := everyStep_append_left hops
  have hafter := MachineRuns.everyStep_append_right hops
  rw [improvementRun_append]
  -- the criteria stay stored together with the invariant that keeps them
  refine (invariant_of_everyStep
    (I := fun s => Yardstick s ∧ s.criteria.get? c.criteriaId = some c) ?_ ?_ hafter).2
  · intro s op h hop
    exact ⟨yardstick_step h.1 hop, criteria_kept h.1 hop h.2⟩
  · refine ⟨yardstick_run hbefore, ?_⟩
    change (improvementRun _).criteria.get? _ = _
    rw [improvementRun_snoc]
    exact (frozen_of_succeeds hsucceeds).1

theorem frozen_of_frozenIn (h : FrozenIn ops c) : Frozen (improvementRun ops) c := by
  have hstored := stored_of_frozenIn hops h
  obtain ⟨-, p, hp, href, -⟩ := (yardstick_run hops).frozen _ c hstored
  exact ⟨hstored, p, hp, href⟩

theorem yardstickKept_of_respected : YardstickKept ops := by
  refine ⟨?_, ?_, ?_⟩
  · rintro before after c rfl hfrozen
    exact frozen_of_frozenIn (everyStep_append_left hops) hfrozen
  · intro before ev after hsplit hsucceeds
    obtain ⟨p, hp, hhash, -⟩ := recorded_of_succeeds hsucceeds
    obtain ⟨-, -, -, c, hc, hproposal⟩ := hops before _ after hsplit p hp hhash
    exact ⟨c, frozenIn_of_stored hc, hproposal⟩
  · rintro before after k rfl ev hev
    obtain ⟨-, p, hp, href, hbaseline, hcandidate, -⟩ :=
      (yardstick_run (everyStep_append_left hops)).judged k ev hev
    exact ⟨p, hp, href, hbaseline, hcandidate⟩

end Respected

theorem proposals_recordEvaluation (s : ImprovementStore) (ev : EvaluationRun) :
    (improvementStep s (.recordEvaluation ev)).proposals = s.proposals := by
  have heffect := improvement_effect s (.recordEvaluation ev)
  generalize improvementStep s (.recordEvaluation ev) = s' at heffect ⊢
  cases heffect <;> rfl

/-- A run in which the yardstick is kept meets the condition at every step. -/
theorem respected_of_yardstickKept {ops : List ImprovementOp} (h : YardstickKept ops) :
    EveryStep improvementStep RespectsYardstick .empty ops := by
  intro before op after hsplit
  have hlonger : ops = (before ++ [op]) ++ after := by rw [hsplit, List.append_assoc, List.singleton_append]
  cases op with
  | freezeCriteria c rev =>
    intro p hp hstatus k c' hget hshared
    have hsucceeds : Succeeds (improvementRun before) (.freezeCriteria c rev) := succeeds_of_sandboxed hp hstatus
    obtain ⟨hstored, q, hq, href⟩ := h.frozen _ after c hlonger ⟨before, rev, [], rfl, hsucceeds⟩
    obtain ⟨hstored', q', hq', href'⟩ := h.frozen _ after c' hlonger ((frozenIn_of_stored hget).append _)
    have hid : c'.criteriaId = c.criteriaId := by
      rcases hshared with hid | hproposal
      · exact hid
      · rw [hproposal] at hq'
        cases hq'.symm.trans hq
        exact Option.some.inj (href'.symm.trans href)
    rw [hid] at hstored'
    exact Option.some.inj (hstored'.symm.trans hstored)
  | recordEvaluation ev =>
    intro p hp hhash
    have hsucceeds : Succeeds (improvementRun before) (.recordEvaluation ev) := succeeds_of_matching hp hhash
    obtain ⟨c, hfrozen, hproposal⟩ := h.recorded before ev after hsplit hsucceeds
    obtain ⟨hstored, q, hq, href⟩ := h.frozen before _ c hsplit hfrozen
    rw [hproposal] at hq
    cases hq.symm.trans hp
    obtain ⟨-, -, -, hev⟩ := recorded_of_succeeds hsucceeds
    rw [← improvementRun_snoc] at hev
    obtain ⟨p', hp', href', hbaseline, hcandidate⟩ := h.matching _ after _ hlonger ev hev
    rw [improvementRun_snoc, proposals_recordEvaluation] at hp'
    cases hp'.symm.trans hp
    have hid : c.criteriaId = ev.criteriaRef := Option.some.inj (href.symm.trans href')
    exact ⟨href', hbaseline, hcandidate, c, hid ▸ hstored, hproposal⟩
  | _ => trivial

/-- Exactly the runs whose caller freezes criteria once under an identifier of their own, and records only
evaluations of what is frozen, keep the yardstick. -/
theorem yardstickKept_iff (ops : List ImprovementOp) :
    YardstickKept ops ↔ EveryStep improvementStep RespectsYardstick .empty ops :=
  ⟨respected_of_yardstickKept, yardstickKept_of_respected⟩

def skillProposal : ImprovementProposal where
  proposalId := "prop_1"
  targetType := "skill"
  targetId := "skill_1"
  baselineHash := "base"
  reason := "slow"
  protectionClass := "ORDINARY"
  createdAt := 0
  updatedAt := 0

def skillCriteria (criteriaId : String) (requiredMetrics : List String) : EvaluationCriteria where
  criteriaId := criteriaId
  proposalId := "prop_1"
  requiredMetrics := requiredMetrics
  hardInvariants := []
  contentHash := "hash"
  frozenAt := 0

def stoppedClock : Supply := fun _ => ⟨0, "a"⟩

/-- The criteria are frozen a second time, under the same identifier and without the metric. -/
def refrozen : List ImprovementOp :=
  [.createProposal skillProposal, .sandboxCandidate stoppedClock "prop_1" "cand" 1,
    .freezeCriteria (skillCriteria "crit_1" ["latency"]) 2, .freezeCriteria (skillCriteria "crit_1" []) 2]

theorem refrozen_not_kept : ¬∀ ops, (∀ op ∈ ops, CreatesProposed op) → YardstickKept ops := by
  intro h
  have hcreates : ∀ op ∈ refrozen, CreatesProposed op := by
    simp [refrozen, CreatesProposed, skillProposal]
  have hfrozen : FrozenIn refrozen (skillCriteria "crit_1" ["latency"]) := ⟨refrozen.take 2, 2, refrozen.drop 3, rfl, rfl⟩
  have hstored := ((h refrozen hcreates).frozen refrozen [] _ rfl hfrozen).1
  revert hstored
  decide +kernel

/-! ## The way of an accepted proposal -/

def statusAfter (ops : List ImprovementOp) (k : String) : Option ProposalStatus :=
  ((improvementRun ops).proposals.get? k).map (·.status)

/-- The statuses a proposal has had, one for each operation since it was created. -/
def statuses (ops : List ImprovementOp) (k : String) : List ProposalStatus :=
  ops.inits.filterMap fun before => statusAfter before k

def wayTo : ProposalStatus → List ProposalStatus
  | .proposed => [.proposed]
  | .sandboxed => [.proposed, .sandboxed]
  | .evaluated => [.proposed, .sandboxed, .evaluated]
  | .approvalRequired => [.proposed, .sandboxed, .evaluated, .approvalRequired]
  | .accepted => [.proposed, .sandboxed, .evaluated, .accepted]
  | .promoted => [.proposed, .sandboxed, .evaluated, .accepted, .promoted]
  | .rolledBack => [.proposed, .sandboxed, .evaluated, .accepted, .promoted, .rolledBack]
  | .rejected => [.proposed, .rejected]
  | .stale => [.proposed, .stale]

theorem wayTo_sublist_of_mem {status target : ProposalStatus} (h : target ∈ proposalTransitions status) :
    (wayTo target).Sublist (wayTo status ++ [target]) := by
  revert h
  cases status <;> cases target <;> decide

variable {status : ProposalStatus}

theorem stale_mem_of_invalidated (h : status ∈ invalidated) : ProposalStatus.stale ∈ proposalTransitions status := by
  revert h
  cases status <;> decide

/-- An operation leaves the status, moves it along the table, or creates the proposal. -/
theorem status_change (s : ImprovementStore) (op : ImprovementOp) (k : String) (hop : CreatesProposed op)
    {p' : ImprovementProposal} (hget : (improvementStep s op).proposals.get? k = some p') :
    (∃ p, s.proposals.get? k = some p ∧ (p'.status = p.status ∨ p'.status ∈ proposalTransitions p.status)) ∨
      s.proposals.get? k = none ∧ p'.status = .proposed := by
  have hchange := proposal_change s op k
  generalize (improvementStep s op).proposals.get? k = stored at hchange hget
  cases hchange with
  | kept => exact .inl ⟨p', hget, .inl rfl⟩
  | created _ hfresh =>
    cases hget
    exact .inr ⟨hfresh, hop⟩
  | moved hp hmem =>
    cases hget
    exact .inl ⟨_, hp, .inr hmem⟩
  | sandboxed hp hstatus =>
    cases hget
    exact .inl ⟨_, hp, .inr (hstatus ▸ List.mem_cons_self)⟩
  | frozen _ hp =>
    cases hget
    exact .inl ⟨_, hp, .inl rfl⟩
  | staled hp hstatus =>
    cases hget
    exact .inl ⟨_, hp, .inr (stale_mem_of_invalidated hstatus)⟩

theorem statuses_snoc (ops : List ImprovementOp) (op : ImprovementOp) (k : String) :
    statuses (ops ++ [op]) k = statuses ops k ++ (statusAfter (ops ++ [op]) k).toList := by
  unfold statuses
  rw [List.inits_append, List.filterMap_append]
  congr 1

theorem wayTo_sublist_statuses {ops : List ImprovementOp} (hops : ∀ op ∈ ops, CreatesProposed op) (h : statusAfter ops k = some status) : (wayTo status).Sublist (statuses ops k) := by
  induction ops using List.reverseRecOn generalizing status with
  | nil => cases h
  | append_singleton ops op ih =>
    have hbefore : ∀ op ∈ ops, CreatesProposed op := fun op hmem => hops op (List.mem_append_left _ hmem)
    obtain ⟨p', hp', rfl⟩ := Option.map_eq_some_iff.mp h
    rw [statuses_snoc, h]
    rw [improvementRun_snoc] at hp'
    rcases status_change (improvementRun ops) op k (hops op (by simp)) hp' with ⟨p, hp, hsame | hmem⟩ | ⟨_, hnew⟩
    · have hstatus : statusAfter ops k = some p'.status := by
        rw [statusAfter, hp, hsame]
        rfl
      exact (ih hbefore hstatus).trans (List.sublist_append_left _ _)
    · have hstatus : statusAfter ops k = some p.status := by
        rw [statusAfter, hp]
        rfl
      exact (wayTo_sublist_of_mem hmem).trans ((ih hbefore hstatus).append_right _)
    · rw [hnew]
      exact List.sublist_append_right _ _

/-- Evaluations that are recorded after a proposal has left PROPOSED carry its candidate hash. -/
theorem evaluations_since {early : List ImprovementOp}
    (hp : (improvementRun early).proposals.get? k = some p) (hleft : p.status ≠ .proposed) (late : List ImprovementOp) :
    ∃ p' new, (improvementRun (early ++ late)).proposals.get? k = some p' ∧ p'.status ≠ .proposed ∧
      p'.candidateHash = p.candidateHash ∧
      (improvementRun (early ++ late)).evaluationsOf k = (improvementRun early).evaluationsOf k ++ new ∧
      ∀ ev ∈ new, ∀ hash, p.candidateHash = some hash → ev.candidateHash = hash := by
  induction late using List.reverseRecOn with
  | nil => exact ⟨p, [], by rwa [List.append_nil], hleft, rfl, by simp, by nofun⟩
  | append_singleton late op ih =>
    obtain ⟨q, new, hq, hqleft, hqhash, hnew, hall⟩ := ih
    rw [← List.append_assoc, improvementRun_snoc]
    obtain ⟨p', hp', hleft', -, hhash', -⟩ := proposal_kept op hq hqleft
    rcases evaluation_change (improvementRun (early ++ late)) op k with hsame | ⟨ev, q', rfl, rfl, hq', hev, hadded⟩
    · exact ⟨p', new, hp', hleft', hhash'.trans hqhash, hsame.trans hnew, hall⟩
    · cases hq'.symm.trans hq
      refine ⟨p', new ++ [ev], hp', hleft', hhash'.trans hqhash, by rw [hadded, hnew, List.append_assoc], ?_⟩
      intro ev' hmem hash hsome
      rcases List.mem_append.mp hmem with hold | hlast
      · exact hall ev' hold hash hsome
      · cases List.mem_singleton.mp hlast
        exact hev hash (hqhash.trans hsome)

/-- An accepted or promoted proposal has come the whole way. -/
structure Earned (ops : List ImprovementOp) (k : String) (p : ImprovementProposal) : Prop where
  accepted : p.status = .accepted →
    [ProposalStatus.proposed, .sandboxed, .evaluated, .accepted].Sublist (statuses ops k)
  promoted : p.status = .promoted →
    [ProposalStatus.proposed, .sandboxed, .evaluated, .accepted, .promoted].Sublist (statuses ops k)
  entered : ∀ before op after, ops = before ++ op :: after → statusAfter (before ++ [op]) k = some .accepted →
    statusAfter before k ∈ [some ProposalStatus.accepted, some .evaluated, some .approvalRequired]
  evaluations : ∀ early late status, ops = early ++ late → statusAfter early k = some status → status ≠ .proposed →
    ∃ new, (improvementRun ops).evaluationsOf k = (improvementRun early).evaluationsOf k ++ new ∧
      ∀ ev ∈ new, ∀ hash, p.candidateHash = some hash → ev.candidateHash = hash

theorem mem_of_accepted_mem (h : ProposalStatus.accepted ∈ proposalTransitions status) :
    some status ∈ [some ProposalStatus.accepted, some .evaluated, some .approvalRequired] := by
  revert h
  cases status <;> decide

/-- In every run an accepted or promoted proposal has earned its status. -/
theorem earned_of_run (ops : List ImprovementOp) (hops : ∀ op ∈ ops, CreatesProposed op) (k : String)
    (p : ImprovementProposal) (hp : (improvementRun ops).proposals.get? k = some p) : Earned ops k p := by
  have hway : (wayTo p.status).Sublist (statuses ops k) :=
    wayTo_sublist_statuses hops (by rw [statusAfter, hp]; rfl)
  refine ⟨fun hstatus => ?_, fun hstatus => ?_, ?_, ?_⟩
  · rwa [hstatus] at hway
  · rwa [hstatus] at hway
  · rintro before op after rfl haccepted
    obtain ⟨p', hp', hstatus⟩ := Option.map_eq_some_iff.mp haccepted
    rw [improvementRun_snoc] at hp'
    rcases status_change (improvementRun before) op k (hops op (by simp)) hp' with ⟨q, hq, hsame | hmem⟩ | ⟨_, hnew⟩
    · rw [statusAfter, hq, Option.map_some, ← hsame, hstatus]
      exact List.mem_cons_self
    · rw [statusAfter, hq]
      exact mem_of_accepted_mem (hstatus ▸ hmem)
    · exact absurd (hnew.symm.trans hstatus) (by nofun)
  · rintro early late status rfl hearly hleft
    obtain ⟨q, hq, rfl⟩ := Option.map_eq_some_iff.mp hearly
    obtain ⟨p', new, hp', -, hhash, hnew, hall⟩ := evaluations_since hq hleft late
    cases hp'.symm.trans hp
    exact ⟨new, hnew, by rwa [hhash]⟩

/-- The steps of the store's own lifecycle, without an evaluation and without an approval. -/
def plainLifecycle : List ImprovementOp :=
  [.createProposal { skillProposal with protectionClass := "PROTECTED" },
    .sandboxCandidate stoppedClock "prop_1" "cand" 1, .transition stoppedClock "prop_1" .evaluated 2,
    .transition stoppedClock "prop_1" .accepted 3, .transition stoppedClock "prop_1" .promoted 4]

theorem plainLifecycle_earned :
    ∃ p, (improvementRun plainLifecycle).proposals.get? "prop_1" = some p ∧ p.status = .promoted ∧
      Earned plainLifecycle "prop_1" p := by
  have hcreates : ∀ op ∈ plainLifecycle, CreatesProposed op := by
    simp [plainLifecycle, CreatesProposed, skillProposal]
  obtain ⟨p, hp, hstatus⟩ : ∃ p, (improvementRun plainLifecycle).proposals.get? "prop_1" = some p ∧
      p.status = .promoted := ⟨_, rfl, rfl⟩
  exact ⟨p, hp, hstatus, earned_of_run plainLifecycle hcreates "prop_1" p hp⟩

/-- Accepted and promoted proposals have a recorded evaluation that accepts their candidate. -/
def EvaluatedWhereAccepted (ops : List ImprovementOp) : Prop :=
  ∀ k p, (improvementRun ops).proposals.get? k = some p → p.status = .accepted ∨ p.status = .promoted →
    ∃ ev ∈ (improvementRun ops).evaluationsOf k, ev.decision = "ACCEPT" ∧ p.candidateHash = some ev.candidateHash

/-- Accepted proposals of another class than ORDINARY have been APPROVAL_REQUIRED. -/
def ApprovedWhereProtected (ops : List ImprovementOp) : Prop :=
  ∀ k p, (improvementRun ops).proposals.get? k = some p → p.protectionClass ≠ "ORDINARY" →
    ProposalStatus.accepted ∈ statuses ops k → ProposalStatus.approvalRequired ∈ statuses ops k

theorem plainLifecycle_unearned : ¬(∀ ops, (∀ op ∈ ops, CreatesProposed op) → EvaluatedWhereAccepted ops) ∧
      ¬(∀ ops, (∀ op ∈ ops, CreatesProposed op) → ApprovedWhereProtected ops) := by
  have hcreates : ∀ op ∈ plainLifecycle, CreatesProposed op := by
    simp [plainLifecycle, CreatesProposed, skillProposal]
  have hstatuses : ProposalStatus.accepted ∈ statuses plainLifecycle "prop_1" ∧
      ProposalStatus.approvalRequired ∉ statuses plainLifecycle "prop_1" := by decide +kernel
  refine ⟨fun h => ?_, fun h => ?_⟩
  · obtain ⟨ev, hev, -⟩ := h plainLifecycle hcreates "prop_1" _ rfl (.inr rfl)
    cases hev
  · exact hstatuses.2 (h plainLifecycle hcreates "prop_1" _ rfl (by decide +kernel) hstatuses.1)

end AllTomorrow.Improve
