import AllTomorrow.SemanticStoreEffects

/-!
# Optimistic concurrency of the in-memory store

A Goal, Work, Run or Question is a versioned cell: whatever call changes it raises
its revision by exactly one. A call that presents an expected revision changes its
entity only at that revision, so over any interleaving of clients at most one of
the calls that present the same revision of the same entity takes effect.
-/

namespace AllTomorrow

open InsertionDict (get?_set_of_ne get?_set_self)

open InMemoryStore

inductive Entity where
  | goal (id : GoalId)
  | work (id : WorkId)
  | run (id : RunId)
  | question (id : QuestionId)
  deriving DecidableEq, Repr

/-- A stored record; that of a Run comes with the revision the store keeps for it. -/
inductive EntityRecord where
  | goal (g : GoalRecord)
  | work (w : WorkRecord)
  | run (r : RunRecord) (revision : ℤ)
  | question (q : QuestionRecordSemantic)

def EntityRecord.revision : EntityRecord → ℤ
  | .goal g => g.revision
  | .work w => w.revision
  | .run _ revision => revision
  | .question q => q.revision

def InMemoryStore.entity? (s : InMemoryStore) : Entity → Option EntityRecord
  | .goal id => (s.goals.get? id).map .goal
  | .work id => (s.work.get? id).map .work
  | .run id => (s.runs.get? id).map fun r => .run r (s.runRevision id)
  | .question id => (s.questions.get? id).map .question

def StoreOp.presents : StoreOp → Option (Entity × ℤ)
  | .transitionGoalStatus goalId _ rev _ _ => some (.goal goalId, rev)
  | .transitionWorkStatus workId _ rev _ _ => some (.work workId, rev)
  | .attachExecutionRef runId rev _ _ => some (.run runId, rev)
  | .transitionRunStatus runId _ rev _ _ => some (.run runId, rev)
  | .answerQuestion questionId rev _ _ => some (.question questionId, rev)
  | _ => none

variable {env : Supply} {s : InMemoryStore} {op : StoreOp} {r : EStateM.Result Exn InMemoryStore op.Result}

section Dictionary

variable {κ ν : Type} [DecidableEq κ] {d : InsertionDict κ ν} {revision : ν → ℤ}

private theorem versioned_fresh {k : κ} {u : ν} (hk : d.get? k = none) {j : κ} {v : ν}
    (hv : d.get? j = some v) : (d.set k u).get? j = some v := by
  have hne : j ≠ k := by
    rintro rfl
    rw [hk] at hv
    cases hv
  rw [d.get?_set_of_ne u hne, hv]

private theorem versioned_update {k : κ} {v u : ν} (hk : d.get? k = some v)
    (hu : revision u = revision v + 1) {j : κ} {w : ν} (hw : d.get? j = some w) :
    ∃ w', (d.set k u).get? j = some w' ∧ (w' = w ∨ revision w' = revision w + 1) := by
  by_cases hj : j = k
  · subst hj
    rw [hk] at hw
    cases hw
    exact ⟨u, d.get?_set_self j u, .inr hu⟩
  · exact ⟨w, by rw [d.get?_set_of_ne u hj, hw], .inl rfl⟩

end Dictionary

theorem Effect.goal_versioned (h : Effect env s op r) {id : GoalId} {g : GoalRecord} (hg : s.goals.get? id = some g) :
    ∃ g', r.state.goals.get? id = some g' ∧ (g' = g ∨ g'.revision = g.revision + 1) := by
  cases h with
  | goalCreated goal event hfresh => exact ⟨g, versioned_fresh hfresh hg, .inl rfl⟩
  | goalMoved hget hterm hmem => exact versioned_update hget rfl hg
  | _ => exact ⟨g, hg, .inl rfl⟩

variable {q : QuestionRecordSemantic}

theorem Effect.question_versioned (h : Effect env s op r) {id : QuestionId} (hq : s.questions.get? id = some q) :
    ∃ q', r.state.questions.get? id = some q' ∧ (q' = q ∨ q'.revision = q.revision + 1) := by
  cases h with
  | questionCreated question hfresh hclash => exact ⟨q, versioned_fresh hfresh hq, .inl rfl⟩
  | questionAnswered hget hpending => exact versioned_update hget rfl hq
  | _ => exact ⟨q, hq, .inl rfl⟩

variable {w : WorkRecord}

theorem claimed_versioned (hs : s.WellFormed) {limit : ℤ} {id : WorkId} (hw : s.work.get? id = some w) :
    ∃ w', (setAllWork s.work (claimedRecords env (s.claimCandidates limit))).get? id = some w' ∧
      (w' = w ∨ w'.revision = w.revision + 1) := by
  obtain ⟨w', hw'⟩ := exists_get?_setAllWork ⟨w, hw⟩ (claimedRecords env (s.claimCandidates limit))
  refine ⟨w', hw', ?_⟩
  have hclaim := forall_claimed env limit
    (P := fun k v => ∀ u, s.work.get? k = some u → v = u ∨ v.revision = u.revision + 1) hs
    (fun k v hv u hu => .inl (Option.some.inj (hv.symm.trans hu)))
    (fun k v env' hv _ u hu => .inr (by rw [← Option.some.inj (hv.symm.trans hu)]; rfl))
  exact hclaim id w' hw' w hw

theorem Effect.work_versioned (h : Effect env s op r) (hs : s.WellFormed) {id : WorkId} (hw : s.work.get? id = some w) :
    ∃ w', r.state.work.get? id = some w' ∧ (w' = w ∨ w'.revision = w.revision + 1) := by
  cases h with
  | workCreated work event hfresh hgoal => exact ⟨w, versioned_fresh hfresh hw, .inl rfl⟩
  | workMoved hget hterm hmem htarget => exact versioned_update hget rfl hw
  | workSucceeded hget hterm hmem htype hid hstatus hev => exact versioned_update hget rfl hw
  | workClaimed limit => exact claimed_versioned hs hw
  | _ => exact ⟨w, hw, .inl rfl⟩

variable {x : RunRecord} {rev : ℤ}

private theorem run_versioned_update {s' : InMemoryStore} {k : RunId} {cur upd : RunRecord}
    (hget : s.runs.get? k = some cur) (hrev : s.runRevisions.get? k = some rev)
    (hruns : s'.runs = s.runs.set k upd) (hrevs : s'.runRevisions = s.runRevisions.set k (rev + 1))
    {id : RunId} (hx : s.runs.get? id = some x) :
    ∃ x', s'.runs.get? id = some x' ∧ ((x' = x ∧ s'.runRevision id = s.runRevision id) ∨
      s'.runRevision id = s.runRevision id + 1) := by
  by_cases hid : id = k
  · subst hid
    refine ⟨upd, by rw [hruns, get?_set_self], .inr ?_⟩
    rw [runRevision_of_get? hrev, runRevision, hrevs, get?_set_self, Option.getD_some]
  · refine ⟨x, by rw [hruns, get?_set_of_ne _ _ hid, hx], .inl ⟨rfl, ?_⟩⟩
    rw [runRevision, hrevs, get?_set_of_ne _ _ hid, ← runRevision]

theorem Effect.run_versioned (h : Effect env s op r) {id : RunId} (hx : s.runs.get? id = some x) :
    ∃ x', r.state.runs.get? id = some x' ∧ ((x' = x ∧ r.state.runRevision id = s.runRevision id) ∨
      r.state.runRevision id = s.runRevision id + 1) := by
  cases h with
  | runCreated run event hfresh hwork hactive =>
    have hne : id ≠ run.runId := by
      rintro rfl
      rw [hfresh] at hx
      cases hx
    refine ⟨x, versioned_fresh hfresh hx, .inl ⟨rfl, ?_⟩⟩
    simp only [EStateM.Result.state_ok, runRevision, get?_set_of_ne _ _ hne]
  | refAttached hget hrev hnone => exact run_versioned_update hget hrev rfl rfl hx
  | runMoved hget hrev hterm hmem => exact run_versioned_update hget hrev rfl rfl hx
  | _ => exact ⟨x, hx, .inl ⟨rfl, rfl⟩⟩

theorem entity?_goal {k : GoalId} {g : GoalRecord} (h : s.goals.get? k = some g) :
    s.entity? (.goal k) = some (.goal g) := congrArg (Option.map EntityRecord.goal) h

theorem entity?_work {k : WorkId} (h : s.work.get? k = some w) :
    s.entity? (.work k) = some (.work w) := congrArg (Option.map EntityRecord.work) h

theorem entity?_run {k : RunId} (h : s.runs.get? k = some x)
    (hrev : s.runRevisions.get? k = some rev) : s.entity? (.run k) = some (.run x rev) := by
  rw [entity?, h, Option.map_some, runRevision_of_get? hrev]

theorem entity?_question {k : QuestionId} (h : s.questions.get? k = some q) :
    s.entity? (.question k) = some (.question q) := congrArg (Option.map EntityRecord.question) h

variable {e : Entity}

/-- A stored entity stays stored; a call leaves it alone or raises its revision by one. -/
theorem Effect.entity_versioned (h : Effect env s op r) (hs : s.WellFormed) {x : EntityRecord} (hx : s.entity? e = some x) :
    ∃ x', r.state.entity? e = some x' ∧ (x' = x ∨ x'.revision = x.revision + 1) := by
  cases e with
  | goal k =>
    obtain ⟨g, hg, rfl⟩ := Option.map_eq_some_iff.mp hx
    obtain ⟨g', hg', hrev⟩ := h.goal_versioned hg
    refine ⟨.goal g', entity?_goal hg', ?_⟩
    exact hrev.imp (congrArg EntityRecord.goal) id
  | work k =>
    obtain ⟨w, hw, rfl⟩ := Option.map_eq_some_iff.mp hx
    obtain ⟨w', hw', hrev⟩ := h.work_versioned hs hw
    refine ⟨.work w', entity?_work hw', ?_⟩
    exact hrev.imp (congrArg EntityRecord.work) id
  | run k =>
    obtain ⟨y, hy, rfl⟩ := Option.map_eq_some_iff.mp hx
    obtain ⟨y', hy', hrev⟩ := h.run_versioned hy
    refine ⟨.run y' (r.state.runRevision k), by simp [entity?, hy'], ?_⟩
    rcases hrev with ⟨rfl, heq⟩ | heq
    · exact .inl (by rw [heq])
    · exact .inr heq
  | question k =>
    obtain ⟨q, hq, rfl⟩ := Option.map_eq_some_iff.mp hx
    obtain ⟨q', hq', hrev⟩ := h.question_versioned hq
    refine ⟨.question q', entity?_question hq', ?_⟩
    exact hrev.imp (congrArg EntityRecord.question) id

/-- The call changes the entity that is stored. -/
def Changes (s : InMemoryStore) (c : StoreCall) (e : Entity) : Prop :=
  (storeStep s c).entity? e ≠ s.entity? e

/-- The call attaches to a Run the reference that the Run already has, and does nothing else. -/
def Reattaches (s : InMemoryStore) (c : StoreCall) : Prop :=
  ∃ runId rev ref event current attached, c.op = .attachExecutionRef runId rev ref event ∧
    s.runs.get? runId = some current ∧ current.executionRef = some attached ∧
    attached.triple = ref.triple ∧ storeStep s c = s

private theorem changes_of_revision {c : StoreCall} {x x' : EntityRecord}
    (hx : s.entity? e = some x) (hx' : (storeStep s c).entity? e = some x')
    (hrev : x'.revision = x.revision + 1) : Changes s c e := by
  intro heq
  rw [hx, hx', Option.some.injEq] at heq
  rw [heq] at hrev
  omega

/-- A call that presents a revision of an entity finds the entity at that revision and
changes it, or raises, or attaches the same reference again. -/
theorem Effect.presents_cases (h : Effect env s op r) (hp : op.presents = some (e, rev)) :
    (∃ x x', s.entity? e = some x ∧ x.revision = rev ∧ r.state.entity? e = some x' ∧ x'.revision = rev + 1) ∨
      (∃ exn, r = .error exn s) ∨ ∃ runId ref event current attached, op = .attachExecutionRef runId rev ref event ∧
        s.runs.get? runId = some current ∧ current.executionRef = some attached ∧
        attached.triple = ref.triple ∧ r.state = s := by
  cases h with
  | raised exn => exact .inr (.inl ⟨exn, rfl⟩)
  | read v hv => cases op <;> simp [StoreOp.isRead, StoreOp.presents] at hv hp
  | goalMoved hget hterm hmem =>
    cases hp
    exact .inl ⟨_, _, entity?_goal hget, rfl, entity?_goal (get?_set_self _ _ _), rfl⟩
  | workMoved hget hterm hmem htarget =>
    cases hp
    exact .inl ⟨_, _, entity?_work hget, rfl, entity?_work (get?_set_self _ _ _), rfl⟩
  | workSucceeded hget hterm hmem htype hid hstatus hev =>
    cases hp
    exact .inl ⟨_, _, entity?_work hget, rfl, entity?_work (get?_set_self _ _ _), rfl⟩
  | refAttached hget hrev hnone =>
    cases hp
    exact .inl ⟨_, _, entity?_run hget hrev, rfl,
      entity?_run (get?_set_self _ _ _) (get?_set_self _ _ _), rfl⟩
  | refReattached hget hrev hsome hsame =>
    cases hp
    exact .inr (.inr ⟨_, _, _, _, _, rfl, hget, hsome, hsame, rfl⟩)
  | runMoved hget hrev hterm hmem =>
    cases hp
    exact .inl ⟨_, _, entity?_run hget hrev, rfl,
      entity?_run (get?_set_self _ _ _) (get?_set_self _ _ _), rfl⟩
  | questionAnswered hget hpending =>
    cases hp
    exact .inl ⟨_, _, entity?_question hget, rfl, entity?_question (get?_set_self _ _ _), rfl⟩
  | _ => cases hp

/-! ## Interleavings of clients -/

def clientStep {Client : Type} (s : InMemoryStore) (c : Client × StoreCall) : InMemoryStore := storeStep s c.2

section Clients

variable {Client : Type}

def afterHistory (history : List (Client × StoreCall)) : InMemoryStore :=
  MachineRuns.run clientStep .empty history

theorem wellFormed_clientStep (s : InMemoryStore) (c : Client × StoreCall) (hs : s.WellFormed) :
    (clientStep s c).WellFormed := wellFormed_step s c.2 hs

theorem wellFormed_afterHistory (history : List (Client × StoreCall)) : (afterHistory history).WellFormed :=
  MachineRuns.invariant_run wellFormed_clientStep InMemoryStore.wellFormed_empty history

theorem entity_versioned (e : Entity) :
    MachineRuns.Versioned (@clientStep Client) InMemoryStore.WellFormed (fun s => s.entity? e) (fun _ x => x.revision) := by
  intro s c x hs hx
  obtain ⟨x', hx', hrev⟩ := (exec_effect c.2.env hs c.2.op).entity_versioned hs hx
  refine ⟨x', hx', ?_⟩
  rcases hrev with rfl | hrev
  · exact .inl ⟨rfl, rfl⟩
  · exact .inr hrev

theorem revision_of_changes {c : StoreCall} {e : Entity} {rev : ℤ} (hs : s.WellFormed)
    (hp : c.op.presents = some (e, rev)) (hc : Changes s c e) : ∃ x, s.entity? e = some x ∧ x.revision = rev := by
  rcases (exec_effect c.env hs c.op).presents_cases hp with h | h | h
  · obtain ⟨x, _, hx, hrev, _⟩ := h
    exact ⟨x, hx, hrev⟩
  · obtain ⟨exn, hexn⟩ := h
    refine absurd ?_ hc
    rw [storeStep, StoreCall.result, hexn, EStateM.Result.state_error]
  · obtain ⟨_, _, _, _, _, _, _, _, _, hstate⟩ := h
    refine absurd ?_ hc
    rw [storeStep, StoreCall.result, hstate]

/-- No lost update, for any interleaving of any number of clients: a change raises the
revision by exactly one; of two calls that present the same revision of the same entity
at most one changes it; and one that does not change it raises or attaches the same
reference again. -/
theorem no_lost_update (history : List (Client × StoreCall)) :
    (∀ before c after e x, history = before ++ c :: after → (afterHistory before).entity? e = some x →
      ∃ x', (afterHistory (before ++ [c])).entity? e = some x' ∧ (x' = x ∨ x'.revision = x.revision + 1)) ∧
    (∀ before c between d after e rev, history = before ++ c :: (between ++ d :: after) →
      c.2.op.presents = some (e, rev) → d.2.op.presents = some (e, rev) →
      ¬(Changes (afterHistory before) c.2 e ∧ Changes (afterHistory (before ++ c :: between)) d.2 e)) ∧
    (∀ before c after e rev, history = before ++ c :: after → c.2.op.presents = some (e, rev) →
      Changes (afterHistory before) c.2 e ∨
      (∃ exn, c.2.result (afterHistory before) = .error exn (afterHistory before)) ∨
      Reattaches (afterHistory before) c.2) := by
  refine ⟨?_, ?_, ?_⟩
  · intro before c after e x _ hx
    have hs := wellFormed_afterHistory before
    rw [afterHistory, MachineRuns.run_append]
    exact (exec_effect c.2.env hs c.2.op).entity_versioned hs hx
  · rintro before c between d after e rev _ hc hd ⟨hchange, hlate⟩
    have hs := wellFormed_afterHistory before
    obtain ⟨x, hx, _⟩ := revision_of_changes hs hc hchange
    have hcas : ∀ (t : InMemoryStore) (i : Client × StoreCall) (y : EntityRecord), t.WellFormed →
        i.2.op.presents = some (e, rev) → t.entity? e = some y → (clientStep t i).entity? e ≠ some y →
        y.revision = rev := by
      intro t i y ht hi hy hne
      obtain ⟨z, hz, hzrev⟩ := revision_of_changes ht hi (by rw [Changes, hy]; exact hne)
      rw [hy, Option.some.injEq] at hz
      rw [hz, hzrev]
    have hsame := (entity_versioned e).second_unchanged wellFormed_clientStep hcas hs hc hd hx
      (fun h => hchange (h.trans hx.symm)) between
    refine hlate ?_
    rw [afterHistory, MachineRuns.run_append, MachineRuns.run_cons]
    exact hsame
  · intro before c after e rev _ hp
    have hs := wellFormed_afterHistory before
    rcases (exec_effect c.2.env hs c.2.op).presents_cases hp with h | h | h
    · obtain ⟨x, x', hx, hrev, hx', hrev'⟩ := h
      exact .inl (changes_of_revision hx hx' (by rw [hrev, hrev']))
    · exact .inr (.inl h)
    · obtain ⟨runId, ref, event, current, attached, hop, hget, hsome, hsame, hstate⟩ := h
      exact .inr (.inr ⟨runId, rev, ref, event, current, attached, hop, hget, hsome, hsame, hstate⟩)

end Clients

end AllTomorrow
