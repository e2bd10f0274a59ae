import AllTomorrow.ExecutionRefHistory
import AllTomorrow.ResearcherDecisions
import AllTomorrow.InterferenceTriples
import AllTomorrow.SemanticStoreChanges

/-!
# What a decision may touch

An accepted decision refers to nothing outside its scope, if it has one; without a scope only
the evidence is checked, against what was surfaced. A Work is created for a decision under a
Goal of the materializer's user, whatever others do to the store in between.
-/

namespace AllTomorrow

namespace Researcher

open Prog

/-! ## Validation -/

theorem checkAll_ok {α : Type} {check : α → Except Exn Unit} {xs : List α} (h : checkAll check xs = .ok ()) :
    ∀ x ∈ xs, check x = .ok () := by
  induction xs with
  | nil => exact fun _ hx => nomatch hx
  | cons y xs ih =>
    unfold checkAll at h
    cases hy : check y with
    | error e =>
      rw [hy] at h
      cases h
    | ok u =>
      rw [hy] at h
      intro x hx
      rcases List.mem_cons.mp hx with rfl | hx
      · exact hy
      · exact ih h x hx

variable {known scope : Finset String}

theorem checkEvidence_ok {ref : String} (h : checkEvidence known scope ref = .ok ()) :
    ref ∈ known ∧ (scope ≠ ∅ → ref ∈ scope) := by
  unfold checkEvidence at h
  split at h
  · cases h
  · next hknown =>
    split at h
    · cases h
    · next hscope => exact ⟨not_not.mp hknown, fun hne => not_not.mp fun hout => hscope ⟨hne, hout⟩⟩

theorem checkTarget_ok {payload : PyDict} {key : String} (h : checkTarget scope payload key = .ok ()) (hscope : scope ≠ ∅)
    {value : PyValue} (hvalue : payload.get? key = some value) (hsome : value ≠ .none) :
    ∃ ref ∈ scope, value = .str ref := by
  unfold checkTarget at h
  rw [if_neg hscope, hvalue] at h
  cases value with
  | none => exact absurd rfl hsome
  | str ref =>
    dsimp only at h
    split at h
    · next hin => exact ⟨ref, hin, rfl⟩
    · cases h
  | bool b => cases h
  | int n => cases h
  | list xs => cases h
  | dict entries => cases h

theorem validateDecision_ok {raw : UntrustedDecision} {d : Decision} (h : validateDecision known scope raw = .ok d) :
    (∀ ref ∈ d.evidenceRefs, checkEvidence known scope ref = .ok ()) ∧
      ∀ key ∈ targetKeys, checkTarget scope d.payload key = .ok () := by
  unfold validateDecision at h
  cases hact : Action.ofValue raw.action with
  | none =>
    rw [hact] at h
    cases h
  | some act =>
    rw [hact] at h
    dsimp only at h
    obtain ⟨-, -, h⟩ := except_bind_ok.mp h
    obtain ⟨_, hevidence, h⟩ := except_bind_ok.mp h
    obtain ⟨_, htargets, h⟩ := except_bind_ok.mp h
    cases h
    exact ⟨checkAll_ok hevidence, checkAll_ok htargets⟩

/-! ## Materialization -/

def OwnGoal (user : String) (goalId : GoalId) (s : InMemoryStore) : Prop :=
  ∃ g, s.goals.get? goalId = some g ∧ g.userId = user

def CreatesUnder (user : String) (s : InMemoryStore) : StoreOp → Prop
  | .createWork work _ => OwnGoal user work.goalId s
  | .createQuestion question => ∀ workId, question.workId = some workId →
      ∃ work, s.work.get? workId = some work ∧ OwnGoal user work.goalId s
  | _ => True

def authorityContract (user : String) : Contract StoreCall InMemoryStore where
  rely := fun s s' => StoreReachable s ∧ ∃ call, s' = storeStep s call
  assume := fun _ _ => True
  guar := fun s call => CreatesUnder user s call.op

variable {user : String}

theorem stable_ownGoal (goalId : GoalId) : Stable (authorityContract user) (OwnGoal user goalId) := by
  rintro s s' ⟨hreachable, ⟨op, env⟩, rfl⟩ ⟨g, hg, huser⟩
  have hchange := goal_change_step (c := ⟨op, env⟩) hreachable.wellFormed goalId
  unfold OwnGoal
  generalize (storeStep s ⟨op, env⟩).goals.get? goalId = found at hchange
  change GoalChange env s goalId op found at hchange
  cases hchange with
  | kept => exact ⟨g, hg, huser⟩
  | created hkey hfresh =>
    rw [hfresh] at hg
    cases hg
  | moved hget hmem =>
    rw [hg, Option.some.injEq] at hget
    subst hget
    exact ⟨_, rfl, huser⟩

theorem triple_ask {op : StoreOp} {env : Supply} {P : InMemoryStore → Prop} (hP : Stable (authorityContract user) P)
    (hop : ∀ s, P s → CreatesUnder user s op) :
    Triple storeHandler (authorityContract user) P (ask op env) (fun _ _ => True) (fun _ _ => True) := by
  refine triple_request hP (fun _ => stable_const _) (fun _ => stable_const _) ?_
  exact fun s hs _ => ⟨hop s hs, outcome_const.mpr trivial⟩

theorem triple_getGoal (target : PyValue) (env : Supply) : Triple storeHandler (authorityContract user) (fun _ => True)
      (lookupKey target fun goalId => ask (.getGoal ⟨goalId⟩) env)
      (fun found s => ∀ g, found = some g → g.userId = user → OwnGoal user ⟨asText target⟩ s) (fun _ _ => True) := by
  have hstable : ∀ found : Option GoalRecord, Stable (authorityContract user)
      fun s => ∀ g, found = some g → g.userId = user → OwnGoal user ⟨asText target⟩ s := by
    intro found
    refine stable_forall fun g => ?_
    intro s s' hrely h hfound huser
    exact stable_ownGoal _ s s' hrely (h hfound huser)
  unfold lookupKey
  cases target with
  | str goalId =>
    refine triple_request (stable_const _) hstable (fun _ => stable_const _) ?_
    intro s _ _
    exact ⟨trivial, fun g hg huser => ⟨g, hg, huser⟩⟩
  | list xs => exact triple_throw (stable_const _) fun _ _ => trivial
  | dict entries => exact triple_throw (stable_const _) fun _ _ => trivial
  | none => exact triple_pure (hstable none) fun _ _ _ hfalse => (nomatch hfalse)
  | bool b => exact triple_pure (hstable none) fun _ _ _ hfalse => (nomatch hfalse)
  | int n => exact triple_pure (hstable none) fun _ _ _ hfalse => (nomatch hfalse)

theorem triple_ofExcept {α β : Type} {x : Except Exn α} {f : α → StoreTask β} {P : InMemoryStore → Prop}
    {Q : β → InMemoryStore → Prop} (hf : ∀ a, x = .ok a → Triple storeHandler (authorityContract user) P (f a) Q fun _ _ => True) :
    Triple storeHandler (authorityContract user) P ((MonadExcept.ofExcept x : StoreTask α) >>= f) Q (fun _ _ => True) := by
  cases x with
  | ok a => exact hf a rfl
  | error e => exact triple_throw (stable_const _) fun _ _ => trivial

variable (sha256 : String → String) (m : DecisionMaterializer) (env : Supply) (d : Decision)

/-- The Goal that a Work is created under was read, and is the user's. -/
theorem triple_createWork :
    Triple storeHandler (authorityContract m.userId) (fun _ => True) (m.createWork sha256 env d) (fun _ _ => True)
      (fun _ _ => True) := by
  unfold DecisionMaterializer.createWork
  refine triple_ofExcept fun target _ => ?_
  refine (triple_getGoal target (env.sub 0)).bind (fun _ => stable_const _) fun found => ?_
  cases found with
  | none => exact triple_throw (stable_const _) fun _ _ => trivial
  | some goal =>
    dsimp only
    split
    · exact triple_throw (stable_const _) fun _ _ => trivial
    · next hvalid =>
      have huser : goal.userId = m.userId := not_not.mp fun hne => hvalid (.inr hne)
      refine triple_ofExcept fun title _ => ?_
      have hown : Triple storeHandler (authorityContract m.userId) (OwnGoal m.userId ⟨asText target⟩)
          (ask (.createWork (m.workOf sha256 (env.sub 1) d ⟨asText target⟩ title)
            (evt (env.sub 2) m.actor .createWork d.decisionId (some ⟨asText target⟩)
              (some (m.workOf sha256 (env.sub 1) d ⟨asText target⟩ title).workId)
              (((m.evidencePayload d).set "executor" ((d.payload.get? "executor").getD .none)).set "fingerprint"
                ((d.payload.get? "fingerprint").getD .none)))) (env.sub 3))
          (fun _ _ => True) (fun _ _ => True) := triple_ask (stable_ownGoal _) fun _ hs => hs
      refine (hown.weaken fun s hs => hs goal rfl huser).bind (fun _ => stable_const _) fun _ => ?_
      exact triple_pure (stable_const _) fun _ _ => trivial

theorem triple_createGoal :
    Triple storeHandler (authorityContract m.userId) (fun _ => True) (m.createGoal sha256 env d) (fun _ _ => True)
      (fun _ _ => True) := by
  unfold DecisionMaterializer.createGoal
  refine triple_ofExcept fun title _ => ?_
  refine Triple.bind (triple_ask (stable_const _) ?_) (fun _ => stable_const _) fun _ => ?_
  · exact fun _ _ => trivial
  · exact triple_pure (stable_const _) fun _ _ => trivial

theorem triple_propose : Triple storeHandler (authorityContract m.userId) (fun _ => True) (m.propose d) (fun _ _ => True)
      (fun _ _ => True) := by
  unfold DecisionMaterializer.propose
  refine triple_ofExcept fun targetType _ => ?_
  refine triple_ofExcept fun targetId _ => ?_
  refine triple_ofExcept fun intent _ => ?_
  exact triple_pure (stable_const _) fun _ _ => trivial

theorem triple_dispatch (hrevise : d.action ≠ .reviseWork) (hask : d.action ≠ .askUser) :
    Triple storeHandler (authorityContract m.userId) (fun _ => True) (m.dispatch sha256 env d) (fun _ _ => True)
      (fun _ _ => True) := by
  have hpure : ∀ result : MaterializationResult, Triple storeHandler (authorityContract m.userId) (fun _ => True)
      (pure (result, m) : StoreTask (MaterializationResult × DecisionMaterializer)) (fun _ _ => True) (fun _ _ => True) :=
    fun result => triple_pure (stable_const _) fun _ _ => trivial
  unfold DecisionMaterializer.dispatch
  cases haction : d.action with
  | noop => exact hpure _
  | createGoal => exact (triple_createGoal sha256 m env d).bind (fun _ => stable_const _) hpure
  | createWork => exact (triple_createWork sha256 m env d).bind (fun _ => stable_const _) hpure
  | reviseWork => exact absurd haction hrevise
  | askUser => exact absurd haction hask
  | proposeImprovement => exact triple_propose m d

theorem triple_recorded :
    Triple storeHandler (authorityContract m.userId) (fun _ => True) (m.recorded env d) (fun _ _ => True)
      (fun _ _ => True) := by
  unfold DecisionMaterializer.recorded
  split
  · refine Triple.bind (triple_ask (stable_const _) ?_) (fun _ => stable_const _) fun events => ?_
    · exact fun _ _ => trivial
    · exact triple_pure (stable_const _) fun _ _ => trivial
  · exact triple_pure (stable_const _) fun _ _ => trivial

theorem triple_materialize (hrevise : d.action ≠ .reviseWork) (hask : d.action ≠ .askUser) :
    Triple storeHandler (authorityContract m.userId) (fun _ => True) (m.materialize sha256 env d) (fun _ _ => True)
      (fun _ _ => True) := by
  unfold DecisionMaterializer.materialize
  refine (triple_recorded m (env.sub 0) d).bind (fun _ => stable_const _) fun found => ?_
  cases found with
  | some result => exact triple_pure (stable_const _) fun _ _ => trivial
  | none =>
    dsimp only
    cases m.applied.get? d.decisionId with
    | some result => exact triple_pure (stable_const _) fun _ _ => trivial
    | none =>
      refine (triple_dispatch sha256 m (env.sub 1) d hrevise hask).bind (fun _ => stable_const _) fun result => ?_
      exact triple_pure (stable_const _) fun _ _ => trivial

/-- What an accepted decision refers to, and what it is materialized under. -/
theorem decisions_keep_authority :
    (∀ (known scope : Finset String) (raw : UntrustedDecision) (d : Decision), validateDecision known scope raw = .ok d →
      (∀ ref ∈ d.evidenceRefs, ref ∈ known) ∧
      (scope ≠ ∅ → (∀ ref ∈ d.evidenceRefs, ref ∈ scope) ∧
        ∀ key ∈ targetKeys, ∀ value, d.payload.get? key = some value → value ≠ .none → ∃ ref ∈ scope, value = .str ref)) ∧
    ∀ (sha256 : String → String) (m : DecisionMaterializer) (env : Supply) (d : Decision) (s : InMemoryStore),
      d.action ≠ .reviseWork → d.action ≠ .askUser →
        Meets storeHandler (authorityContract m.userId) (fun _ _ => True) (m.materialize sha256 env d).run s := by
  refine ⟨?_, ?_⟩
  · intro known scope raw d hvalid
    obtain ⟨hevidence, htargets⟩ := validateDecision_ok hvalid
    refine ⟨fun ref href => (checkEvidence_ok (hevidence ref href)).1, ?_⟩
    intro hscope
    refine ⟨fun ref href => (checkEvidence_ok (hevidence ref href)).2 hscope, ?_⟩
    intro key hkey value hvalue hsome
    exact checkTarget_ok (htargets key hkey) hscope hvalue hsome
  · intro sha256 m env d s hrevise hask
    refine (triple_materialize sha256 m env d hrevise hask s trivial).mono ?_
    exact fun _ _ _ => trivial

def scopedPayload : PyDict :=
  ((InsertionDict.empty.set "target_goal_id" (.str "goal_1")).set "title" (.str "Ship")).set "objective" (.str "o")

def scopedDecision : UntrustedDecision where
  decisionId := "d1"
  action := "CREATE_WORK"
  summary := "s"
  reason := "r"
  evidenceRefs := ["ev1"]
  payload := scopedPayload
  promptVersion := "p1"

def scopedWork : Decision where
  decisionId := "d1"
  action := .createWork
  summary := "s"
  reason := "r"
  evidenceRefs := ["ev1"]
  payload := scopedPayload
  promptVersion := "p1"

theorem researcher_nonempty : PyText.isBlank "researcher" = false := by decide

def sampleMaterializer : DecisionMaterializer := { userId := "u1", actor := ⟨"researcher", researcher_nonempty⟩ }

def goalStore : InMemoryStore := MachineRuns.run storeStep .empty [⟨.createGoal sampleGoal sampleEvent, frozenSupply⟩]

/-- A Work for a Goal in the scope. -/
theorem scopedDecision_keeps_authority :
    (∀ ref ∈ scopedWork.evidenceRefs, ref ∈ ({"ev1", "ev2"} : Finset String)) ∧
      (∃ ref ∈ ({"ev1", "goal_1"} : Finset String), PyValue.str "goal_1" = .str ref) ∧
      Meets storeHandler (authorityContract "u1") (fun _ _ => True)
        (sampleMaterializer.materialize (fun text => text) (fun _ => ⟨0, "0"⟩) scopedWork).run goalStore := by
  have hvalid := decisions_keep_authority.1 {"ev1", "ev2"} {"ev1", "goal_1"} scopedDecision scopedWork rfl
  refine ⟨hvalid.1, (hvalid.2 (by decide)).2 "target_goal_id" (by decide) (.str "goal_1") rfl nofun, ?_⟩
  exact decisions_keep_authority.2 (fun text => text) sampleMaterializer (fun _ => ⟨0, "0"⟩) scopedWork goalStore (by decide)
    (by decide)

/-- Without a scope every reference that is known is accepted, and every target. -/
theorem empty_scope_accepts :
    ¬∀ (known scope : Finset String) (raw : UntrustedDecision) (d : Decision), validateDecision known scope raw = .ok d →
      ∀ ref ∈ d.evidenceRefs, ref ∈ scope := by
  intro h
  have hin := h {"ev1"} ∅ scopedDecision scopedWork rfl "ev1" List.mem_cons_self
  cases hin

end Researcher

end AllTomorrow
