import AllTomorrow.AnsweredPrograms
import AllTomorrow.FactoryWorld
import AllTomorrow.MachineRuns

/-!
# Decided proposals

Steps of the workflow are executed any number of times and in any order, beside the decisions of the
user, one statement at a time. When the body of a proposal and the status of its idea stay as the
user decided on them.
-/

namespace AllTomorrow.IdeaFactory

open Prog MachineRuns

/-! ## Calls -/

inductive UserCall where
  /-- an execution of a step: the first one, a retry or a replay -/
  | step (c : StepCall)
  | decideProposal (proposalId : String) (decision : ProposalStatus) (reason actor : String)
  | reviewKill (ideaId : String) (verdict : Review) (actor : String)

def UserCall.program (f : Factory) (env : Supply) : UserCall → FactoryTask Unit
  | .step c => do let _ ← c.body f env
  | .decideProposal proposalId decision reason actor => Store.decideProposal proposalId decision reason actor env
  | .reviewKill ideaId verdict actor => Store.reviewKill ideaId verdict actor env

def userPool {ι π : Type} (f : ι → Factory) (calls : ι → UserCall) (env : ι → Supply) (s : FactoryStore) (outside : π) :
    FactoryPool ι π :=
  ⟨fun i => ((calls i).program (f i) (env i)).run, ⟨s, outside⟩⟩

def Proposal.decided (row : Proposal) : Bool := row.status ≠ .pending

/-- How far an idea has come: generated, through the patents, through the council. -/
def IdeaStatus.stage : IdeaStatus → ℕ
  | .generated => 0
  | .inCouncil | .killed | .held => 1
  | .proposed | .rejected => 2

def IdeaStatus.MovesBack (old new : IdeaStatus) : Prop := new ≠ old ∧ new.stage ≤ old.stage

/-- A decided proposal keeps its text, and its idea does not move back. -/
structure KeepsDecided (s s' : FactoryStore) : Prop where
  body : ∀ k row, s.proposals.get? k = some row → row.decided = true →
    ∃ row', s'.proposals.get? k = some row' ∧ row'.decided = true ∧ row'.ideaId = row.ideaId ∧ row'.body = row.body
  status : ∀ k row idea, s.proposals.get? k = some row → row.decided = true → s.ideas.get? row.ideaId = some idea →
    ∃ idea', s'.ideas.get? row.ideaId = some idea' ∧ ¬idea.status.MovesBack idea'.status

theorem KeepsDecided.decided_body {s s' : FactoryStore} (h : KeepsDecided s s') {k body : String}
    (hk : (s.proposals.get? k).map (fun row => (row.decided, row.body)) = some (true, body)) :
    (s'.proposals.get? k).map (fun row => (row.decided, row.body)) = some (true, body) := by
  obtain ⟨row, hget, hrow⟩ := Option.map_eq_some_iff.mp hk
  obtain ⟨row', hget', hdecided', -, hsame⟩ := h.body k row hget (congrArg Prod.fst hrow)
  have hbody : row.body = body := congrArg Prod.snd hrow
  rw [hget', Option.map_some, hdecided', hsame, hbody]

theorem KeepsDecided.refl (s : FactoryStore) : KeepsDecided s s :=
  ⟨fun _ row hget hdecided => ⟨row, hget, hdecided, rfl, rfl⟩, fun _ _ idea _ _ hidea => ⟨idea, hidea, fun h => h.1 rfl⟩⟩

theorem not_movesBack_trans {old new last : IdeaStatus} (h : ¬old.MovesBack new) (h' : ¬new.MovesBack last) :
    ¬old.MovesBack last := by
  rintro ⟨hne, hle⟩
  by_cases hsame : new = old
  · subst hsame
    exact h' ⟨hne, hle⟩
  · have hlater : old.stage < new.stage := Nat.lt_of_not_le fun hstage => h ⟨hsame, hstage⟩
    refine h' ⟨fun heq => ?_, by omega⟩
    rw [heq] at hle
    omega

theorem KeepsDecided.trans {s s' s'' : FactoryStore} (h : KeepsDecided s s') (h' : KeepsDecided s' s'') : KeepsDecided s s'' where
  body := by
    intro k row hget hdecided
    obtain ⟨row', hget', hdecided', hidea', hbody'⟩ := h.body k row hget hdecided
    obtain ⟨row'', hget'', hdecided'', hidea'', hbody''⟩ := h'.body k row' hget' hdecided'
    exact ⟨row'', hget'', hdecided'', hidea''.trans hidea', hbody''.trans hbody'⟩
  status := by
    intro k row idea hget hdecided hidea
    obtain ⟨row', hget', hdecided', hsame, -⟩ := h.body k row hget hdecided
    obtain ⟨idea', hidea', hforward⟩ := h.status k row idea hget hdecided hidea
    rw [← hsame] at hidea'
    obtain ⟨idea'', hidea'', hforward'⟩ := h'.status k row' idea' hget' hdecided' hidea'
    rw [hsame] at hidea''
    exact ⟨idea'', hidea'', not_movesBack_trans hforward hforward'⟩

/-- It writes the row of a decided proposal, or the row of its idea. -/
def Statement.Overwrites (s : FactoryStore) : Statement → Prop
  | .putProposal k _ _ _ => ∃ row, s.proposals.get? k = some row ∧ row.decided = true
  | .setIdeaVerdict ideaId _ _ _ _ => ∃ k row, s.proposals.get? k = some row ∧ row.decided = true ∧ row.ideaId = ideaId
  | _ => False

/-- `put_proposal` or `set_idea_verdict` -/
def Statement.Upserts : Statement → Prop
  | .putProposal .. | .setIdeaVerdict .. => True
  | _ => False

def UserCall.ownIdea : UserCall → Option String
  | .step c => c.ownIdea
  | .decideProposal .. | .reviewKill .. => none

section Pools

variable {ι π : Type} [DecidableEq ι]

/-- An execution of a step writes of its idea only before the user has decided on the proposal of the idea. -/
def WritesInTime (calls : ι → UserCall) (p : FactoryPool ι π) (i : ι) : Prop :=
  ∀ ideaId st, (calls i).ownIdea = some ideaId → Executes p i st → st.Upserts →
    ∀ k row, p.state.store.proposals.get? k = some row → row.decided = true → k ≠ proposalId ideaId ∧ row.ideaId ≠ ideaId

end Pools

/-! ## Statements -/

section Statements

variable {s : FactoryStore} {now : Datetime}

theorem not_movesBack_self (status : IdeaStatus) : ¬status.MovesBack status := fun h => h.1 rfl

theorem keepsDecided_of_same {s' : FactoryStore} (hproposals : s'.proposals = s.proposals)
    (hideas : ∀ k idea, s.ideas.get? k = some idea → ∃ idea', s'.ideas.get? k = some idea' ∧ idea'.status = idea.status) :
    KeepsDecided s s' where
  body := fun k row hget hdecided => ⟨row, by rw [hproposals, hget], hdecided, rfl, rfl⟩
  status := by
    intro k row idea _ _ hidea
    obtain ⟨idea', hget', hsame⟩ := hideas row.ideaId idea hidea
    exact ⟨idea', hget', by rw [hsame]; exact not_movesBack_self _⟩

theorem keepsDecided_of_tables {s' : FactoryStore} (hproposals : s'.proposals = s.proposals) (hideas : s'.ideas = s.ideas) :
    KeepsDecided s s' :=
  keepsDecided_of_same hproposals fun _ idea hget => ⟨idea, by rw [hideas, hget], rfl⟩

theorem keepsDecided_updateIdea {k : String} {g : IdeaRow → IdeaRow} (hg : ∀ row, (g row).status = row.status) :
    KeepsDecided s { s with ideas := FactoryStore.updateWhere s.ideas k g } := by
  refine keepsDecided_of_same rfl fun j idea hget => ?_
  change ∃ idea', (FactoryStore.updateWhere s.ideas k g).get? j = some idea' ∧ _
  rw [FactoryStore.get?_updateWhere]
  by_cases hj : j = k
  · subst hj
    rw [if_pos rfl, hget]
    exact ⟨g idea, rfl, hg idea⟩
  · rw [if_neg hj]
    exact ⟨idea, hget, rfl⟩

theorem keepsDecided_putIdea (idea : Idea) : KeepsDecided s (s.putIdea idea) := by
  unfold FactoryStore.putIdea
  cases hrow : s.ideas.get? idea.id with
  | none =>
    refine keepsDecided_of_same rfl fun j old hget => ⟨old, ?_, rfl⟩
    have hne : j ≠ idea.id := by
      rintro rfl
      cases hrow.symm.trans hget
    exact (InsertionDict.get?_set_of_ne _ _ hne).trans hget
  | some row =>
    refine keepsDecided_of_same rfl fun j old hget => ?_
    rcases InsertionDict.get?_set_cases s.ideas idea.id
      { row with title := idea.title, problem := idea.problem, approach := idea.approach } j with ⟨rfl, hj⟩ | ⟨-, hj⟩
    · cases hrow.symm.trans hget
      exact ⟨_, hj, rfl⟩
    · exact ⟨old, hj.trans hget, rfl⟩

theorem keepsDecided_setIdeaVerdict {ideaId : String} {status : IdeaStatus} {synthId : Option String}
    {evidence : Option (List Evidence)} {reason : Option String}
    (h : ¬(Statement.setIdeaVerdict ideaId status synthId evidence reason).Overwrites s) :
    KeepsDecided s (s.setIdeaVerdict ideaId status synthId evidence reason) := by
  refine ⟨fun k row hget hdecided => ⟨row, hget, hdecided, rfl, rfl⟩, fun k row idea hget hdecided hidea => ?_⟩
  have hother : row.ideaId ≠ ideaId := fun heq => h ⟨k, row, hget, hdecided, heq⟩
  refine ⟨idea, ?_, not_movesBack_self _⟩
  change (FactoryStore.updateWhere s.ideas ideaId _).get? row.ideaId = _
  rw [FactoryStore.get?_updateWhere, if_neg hother, hidea]

theorem keepsDecided_putProposal {k topicId ideaId body : String}
    (h : ¬(Statement.putProposal k topicId ideaId body).Overwrites s) :
    KeepsDecided s (s.putProposal now k topicId ideaId body) := by
  have hother : ∀ j row, s.proposals.get? j = some row → row.decided = true → j ≠ k := by
    rintro j row hget hdecided rfl
    exact h ⟨row, hget, hdecided⟩
  refine ⟨fun j row hget hdecided => ⟨row, ?_, hdecided, rfl, rfl⟩, fun j row idea _ _ hidea => ⟨idea, ?_, not_movesBack_self _⟩⟩
  · unfold FactoryStore.putProposal
    split
    · exact (InsertionDict.get?_set_of_ne _ _ (hother j row hget hdecided)).trans hget
    · exact (InsertionDict.get?_set_of_ne _ _ (hother j row hget hdecided)).trans hget
  · unfold FactoryStore.putProposal
    split
    · exact hidea
    · exact hidea

theorem keepsDecided_decideProposal {k : String} {decision : ProposalStatus} {reason : String} (hdecision : decision ≠ .pending) :
    KeepsDecided s (s.decideProposal now k decision reason) := by
  refine ⟨fun j row hget hdecided => ?_, fun _ _ idea _ _ hidea => ⟨idea, hidea, not_movesBack_self _⟩⟩
  change ∃ row', (FactoryStore.updateWhere s.proposals k _).get? j = some row' ∧ _
  rw [FactoryStore.get?_updateWhere]
  by_cases hj : j = k
  · subst hj
    rw [if_pos rfl, hget]
    exact ⟨_, rfl, decide_eq_true hdecision, rfl, rfl⟩
  · rw [if_neg hj]
    exact ⟨row, hget, hdecided, rfl, rfl⟩

def Statement.Decides : Statement → Prop
  | .decideProposal _ decision _ => decision ≠ .pending
  | _ => True

theorem keepsDecided_exec (now : Datetime) {st : Statement} (hdecides : st.Decides) (h : ¬st.Overwrites s) :
    KeepsDecided s (st.exec now s).2 := by
  cases st with
  | putIdea idea => exact keepsDecided_putIdea idea
  | setIdeaVerdict => exact keepsDecided_setIdeaVerdict h
  | setReview => exact keepsDecided_updateIdea fun _ => rfl
  | putProposal => exact keepsDecided_putProposal h
  | decideProposal => exact keepsDecided_decideProposal hdecides
  | addTopic topicId text =>
    by_cases hheld : s.topics.contains topicId = true
    · exact keepsDecided_of_tables (by simp [Statement.exec, hheld]) (by simp [Statement.exec, hheld])
    · exact keepsDecided_of_tables (by simp [Statement.exec, hheld]) (by simp [Statement.exec, hheld])
  | hire role name modelGroup generation accessLevel accessScopes =>
    refine keepsDecided_of_tables ?_ ?_
    · change (s.hire now role name modelGroup generation accessLevel accessScopes).proposals = _
      unfold FactoryStore.hire
      dsimp only
      split <;> rfl
    · change (s.hire now role name modelGroup generation accessLevel accessScopes).ideas = _
      unfold FactoryStore.hire
      dsimp only
      split <;> rfl
  | event kind topicId staffId dedupe =>
    refine keepsDecided_of_tables ?_ ?_
    · change (s.addEvent _).proposals = _
      unfold FactoryStore.addEvent
      split <;> rfl
    · change (s.addEvent _).ideas = _
      unfold FactoryStore.addEvent
      split <;> rfl
  | _ => exact keepsDecided_of_tables rfl rfl

end Statements

/-! ## Clients -/

section Clients

variable {ι π : Type} [DecidableEq ι] {ext : FactoryExternals π} {p : FactoryPool ι π}

/-- What a call requests: it decides for or against, and it writes of its own idea only. -/
def Deciding (own : Option String) : FactoryAction → Prop
  | .sql st _ => st.Decides ∧ match st with
    | .setIdeaVerdict ideaId .. => own = some ideaId
    | .putProposal k _ ideaId _ => own = some ideaId ∧ k = proposalId ideaId
    | _ => True
  | _ => True

theorem Aside.deciding {own : Option String} {a : FactoryAction} (ha : Aside own a) : Deciding own a := by
  cases a with
  | sql st now =>
    cases st with
    | decideProposal => exact ha.elim
    | setIdeaVerdict => exact ⟨trivial, ha⟩
    | putProposal => exact ⟨trivial, ha⟩
    | _ => exact ⟨trivial, trivial⟩
  | _ => trivial

theorem requests_program (f : Factory) (c : UserCall) (env : Supply) : TaskRequests (Deciding c.ownIdea) (c.program f env) := by
  cases c with
  | step c =>
    have hstep : TaskRequests (Deciding c.ownIdea) (c.body f env) :=
      requests_step (fun _ ha => ha.deciding) (fun _ _ _ => ⟨trivial, trivial⟩) (fun _ _ _ _ => ⟨trivial, trivial⟩) env
    unfold UserCall.program UserCall.ownIdea
    dsimp only
    generalize c.body f env = x at hstep
    exact TaskRequests.bind hstep fun _ => trivial
  | decideProposal proposalId decision reason actor =>
    unfold UserCall.program Store.decideProposal
    dsimp only
    by_cases hpending : decision = .pending
    · rw [if_pos hpending]
      trivial
    · rw [if_neg hpending]
      refine TaskRequests.bind (taskRequests_sql ⟨hpending, trivial⟩) fun rowcount => ?_
      split
      · trivial
      · exact taskRequests_sql ⟨trivial, trivial⟩
  | reviewKill ideaId verdict actor =>
    refine TaskRequests.bind (TaskRequests.bind (taskRequests_sql ⟨trivial, trivial⟩) fun _ => trivial) fun row => ?_
    cases row with
    | none => trivial
    | some row =>
      dsimp only
      split
      · trivial
      · refine TaskRequests.bind (taskRequests_sql ⟨trivial, trivial⟩) fun _ => ?_
        exact taskRequests_sql ⟨trivial, trivial⟩

variable {calls : ι → UserCall}

omit [DecidableEq ι] in
/-- A statement of a step that is in time overwrites nothing that was decided. -/
theorem not_overwrites {i : ι} {st : Statement} {now : Datetime} (hrequests : Deciding (calls i).ownIdea (.sql st now))
    (hexecutes : Executes p i st) (htime : WritesInTime calls p i) : ¬st.Overwrites p.state.store := by
  cases st with
  | putProposal k topicId ideaId body =>
    obtain ⟨-, hown, rfl⟩ := hrequests
    rintro ⟨row, hget, hdecided⟩
    exact (htime ideaId _ hown hexecutes trivial _ row hget hdecided).1 rfl
  | setIdeaVerdict ideaId status synthId evidence reason =>
    obtain ⟨-, hown⟩ := hrequests
    rintro ⟨k, row, hget, hdecided, hidea⟩
    exact (htime ideaId _ hown hexecutes trivial k row hget hdecided).2 hidea
  | _ => exact id

theorem keepsDecided_step {i : ι} (hp : OnlyRequests (Deciding (calls i).ownIdea) (p.threads i)) (htime : WritesInTime calls p i) :
    KeepsDecided p.state.store (p.step (FactoryWorld.handler ext) i).state.store := by
  rcases step_cases ext p i with hsame | ⟨st, now, hexecutes, hexec⟩
  · rw [hsame]
    exact KeepsDecided.refl _
  · obtain ⟨now', rest, hi⟩ := id hexecutes
    rw [hi] at hp
    rw [hexec]
    exact keepsDecided_exec now hp.1.1 (not_overwrites hp.1 hexecutes htime)

end Clients

/-- What the user decided on stays in every run in which no step writes of an idea after the decision on its proposal. -/
theorem decided_stays_of_writesInTime {ι π : Type} [DecidableEq ι] (f : ι → Factory) (ext : FactoryExternals π)
    (calls : ι → UserCall) (env : ι → Supply) (s : FactoryStore) (outside : π) (schedule : List ι)
    (htime : EveryStep (Pool.step (FactoryWorld.handler ext)) (WritesInTime calls) (userPool f calls env s outside) schedule) :
    ∀ before between after, schedule = before ++ between ++ after →
      KeepsDecided (run (Pool.step (FactoryWorld.handler ext)) (userPool f calls env s outside) before).state.store
        (run (Pool.step (FactoryWorld.handler ext)) (userPool f calls env s outside) (before ++ between)).state.store := by
  rintro before between after rfl
  have hrequests : ∀ (p : FactoryPool ι π) (j : ι), (∀ i, OnlyRequests (Deciding (calls i).ownIdea) (p.threads i)) →
      ∀ i, OnlyRequests (Deciding (calls i).ownIdea) ((p.step (FactoryWorld.handler ext) j).threads i) :=
    fun p j hp i => onlyRequests_step (hp i) j
  have hbefore := invariant_run (I := fun p : FactoryPool ι π => ∀ i, OnlyRequests (Deciding (calls i).ownIdea) (p.threads i))
    hrequests (s := userPool f calls env s outside) (fun i => requests_program (f i) (calls i) (env i)) before
  rw [run_append]
  refine relation_run (R := fun p p' : FactoryPool ι π => KeepsDecided p.state.store p'.state.store) hrequests
    (fun p => KeepsDecided.refl _) KeepsDecided.trans (fun p i hp htime => keepsDecided_step (hp i) htime) hbefore ?_
  exact everyStep_append_right (everyStep_append_left htime)

def decidedRoster : Roster where
  ideasPerTopic := 1
  councilRounds := 1
  councilPassVotes := 0
  evaluationMinSamples := 1
  promotes _ _ := false
  retires _ _ := false
  tiers := []
  staff := []
  profileSources := []
  councilShare := some .filtered

def titleText (body : PyDict) : String :=
  match body.get? "title" with
  | some (.str title) => "\x7b\"title\": \"" ++ title ++ "\"\x7d"
  | _ => "\x7b\x7d"

def titleFactory : Factory where
  roster := decidedRoster
  patents := ⟨"특허 미검사", true⟩
  classes := ⟨fun c => c.isDigit, fun c => c.isAlphanum⟩
  str
    | .str s => s
    | _ => ""
  lower := id
  jsonDumps := titleText

def renamingModel : FactoryExternals ℕ where
  chatJson _ _ _ _ n := (.ok (.dict [("title", .str ("v" ++ toString n))]), n + 1)
  search _ _ n := (.ok [], n)
  sources n := (none, n)
  lookup _ _ n := (.absent, n)
  record _ _ _ _ n := (.ok (), n)
  startWorkflow _ n := (.ok (), n)
  cancelWorkflow _ n := (.ok (), n)

def decidedIdea : Idea := ⟨"t1-i1", "t1", 1, "a", "", "", "ideator-g1"⟩

def operatorStore : FactoryStore :=
  { FactoryStore.empty with
    staff := (InsertionDict.empty : InsertionDict String Staff).set "operator-g1"
      { id := "operator-g1", role := "operator", name := "o", modelGroup := "free", generation := 1, hiredAt := 0
        changedAt := 0, accessLevel := 0, accessScopes := [] } }

/-- Two executions of `write_proposal` for an idea, the decision of the user, and one for another idea. -/
def writeDecideWrite : ℕ → UserCall
  | 1 => .decideProposal "t1-i1-p" .approved "" "user"
  | 3 => .step (.writeProposal { decidedIdea with id := "t1-i2" } [] 0 .empty)
  | _ => .step (.writeProposal decidedIdea [] 0 .empty)

def writeDecideStart : FactoryPool ℕ ℕ := userPool (fun _ => titleFactory) writeDecideWrite (fun _ _ => ⟨0, ""⟩) operatorStore 0

def writeDecideRun (schedule : List ℕ) : FactoryPool ℕ ℕ := run (Pool.step (FactoryWorld.handler renamingModel)) writeDecideStart schedule

def firstBody (p : FactoryPool ℕ ℕ) : Option (Bool × String) :=
  (p.state.store.proposals.get? "t1-i1-p").map fun row => (row.decided, row.body)

/-- Every decided proposal is one of another idea. -/
def OtherDecided (p : FactoryPool ℕ ℕ) (i : ℕ) : Prop :=
  ∀ ideaId ∈ (writeDecideWrite i).ownIdea, ∀ entry ∈ p.state.store.proposals.entries, entry.2.decided = true →
    entry.1 ≠ proposalId ideaId ∧ entry.2.ideaId ≠ ideaId

instance decidableOtherDecided (p : FactoryPool ℕ ℕ) (i : ℕ) : Decidable (OtherDecided p i) :=
  inferInstanceAs (Decidable (∀ ideaId ∈ (writeDecideWrite i).ownIdea, ∀ entry ∈ p.state.store.proposals.entries,
    entry.2.decided = true → entry.1 ≠ proposalId ideaId ∧ entry.2.ideaId ≠ ideaId))

/-- The first execution ends, the user approves, and another proposal is written. -/
theorem body_kept_beside_another : firstBody (writeDecideRun (List.replicate 5 0 ++ List.replicate 2 1 ++ List.replicate 5 3)) =
    some (true, "\x7b\"title\": \"v0\"\x7d") := by
  have hother : EveryStep (Pool.step (FactoryWorld.handler renamingModel)) OtherDecided writeDecideStart
      (List.replicate 5 0 ++ List.replicate 2 1 ++ List.replicate 5 3) := by
    decide +kernel
  have hkeeps := decided_stays_of_writesInTime (fun _ => titleFactory) renamingModel writeDecideWrite (fun _ _ => ⟨0, ""⟩)
    operatorStore 0 (List.replicate 5 0 ++ List.replicate 2 1 ++ List.replicate 5 3)
    (fun before i after hsplit ideaId st hown _ _ k row hget hdecided =>
      hother before i after hsplit ideaId hown (k, row) (InsertionDict.mem_entries_iff.mpr hget) hdecided)
    (List.replicate 5 0 ++ List.replicate 2 1) (List.replicate 5 3) [] rfl
  have hbefore : firstBody (writeDecideRun (List.replicate 5 0 ++ List.replicate 2 1)) =
      some (true, "\x7b\"title\": \"v0\"\x7d") := by
    decide +kernel
  exact hkeeps.decided_body hbefore

/-- The execution is cut off before it is recorded, the user approves, and the repeated execution writes its own body. -/
theorem body_after_decision : ¬∀ schedule before between after, schedule = before ++ between ++ after →
      KeepsDecided (writeDecideRun before).state.store (writeDecideRun (before ++ between)).state.store := by
  intro h
  have hkeeps := h _ (List.replicate 5 0 ++ List.replicate 2 1) (List.replicate 3 2) [] rfl
  have hbefore : firstBody (writeDecideRun (List.replicate 5 0 ++ List.replicate 2 1)) =
      some (true, "\x7b\"title\": \"v0\"\x7d") := by
    decide +kernel
  have hafter : firstBody (writeDecideRun (List.replicate 5 0 ++ List.replicate 2 1 ++ List.replicate 3 2)) =
      some (true, "\x7b\"title\": \"v1\"\x7d") := by
    decide +kernel
  exact absurd (hafter.symm.trans (hkeeps.decided_body hbefore)) (by decide)

end AllTomorrow.IdeaFactory
