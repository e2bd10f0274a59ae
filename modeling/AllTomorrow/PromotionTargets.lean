import AllTomorrow.ProjectChanges

/-!
# Promotion of an arbitrary target

`Promoter` drives a target through the six calls of a protocol. What the target is and what its
methods do is left open: a state of any type and six computations on it that may raise.
-/

namespace AllTomorrow.Improve

open Overseer EStateM

structure PromotionTarget (σ : Type) where
  inspectCurrent : EStateM Exn σ String
  validateCandidate : String → EStateM Exn σ Bool
  plan : String → String → EStateM Exn σ DeploymentPlan
  apply : DeploymentPlan → EStateM Exn σ DeploymentRef
  verify : DeploymentRef → EStateM Exn σ Bool
  rollback : String → DeploymentRef → EStateM Exn σ String

/-- The arguments of `promote`. -/
structure Promotion where
  candidateRef : String
  acceptedBaselineRef : String
  protectionClass : ProtectionClass
  monitoringPolicy : Option MonitoringPolicy

variable {σ : Type} (t : PromotionTarget σ) (a : Promotion) (s : σ)

def Promoter.promote : EStateM Exn σ PromotionResult := do
  if a.protectionClass ≠ .ordinary then
    throw (.foreign "ProtectedChangeError"
      (a.protectionClass.value ++ " candidate requires approval, no auto-promote"))
  if a.monitoringPolicy.isNone then
    throw (.foreign "MissingMonitoringPolicyError" "monitoring policy required for auto-promotion")
  let current ← t.inspectCurrent
  if current ≠ a.acceptedBaselineRef then
    throw (.foreign "StaleBaselineError"
      ("baseline drifted: current=" ++ current ++ " accepted=" ++ a.acceptedBaselineRef))
  if !(← t.validateCandidate a.candidateRef) then
    throw (.foreign "PromotionError" "candidate validation failed")
  let plan ← t.plan a.candidateRef current
  let deployment ← t.apply plan
  if !(← t.verify deployment) then
    let _ ← t.rollback current deployment
    return { promoted := false, deployment := some deployment, rolledBack := true
             reason := some "verify failed; rolled back" }
  return { promoted := true, deployment := some deployment }

def projectTarget (c : ProjectChange) : PromotionTarget ProjectFiles where
  inspectCurrent := c.inspectCurrent
  validateCandidate := c.validateCandidate
  plan := c.plan
  apply := c.apply
  verify := c.verify
  rollback _ _ := c.rollback

theorem promote_projectTarget (c : ProjectChange) : Promoter.promote (projectTarget c) a =
      c.promote a.candidateRef a.acceptedBaselineRef a.protectionClass a.monitoringPolicy := rfl

/-- What `inspect_current` gives in a state. -/
def PromotionTarget.shows : Except Exn String := (t.inspectCurrent s).outcome

/-- `rollback(previous)` returns, and the target then shows that ref. -/
def PromotionTarget.RestoresRef : Prop :=
  ∀ previous deployment s, ∃ ref s', t.rollback previous deployment s = .ok ref s' ∧ t.shows s' = .ok previous

/-- The calls that only read leave what `inspect_current` gives. -/
structure PromotionTarget.ReadsOnly : Prop where
  inspecting : ∀ s, t.shows (t.inspectCurrent s).state = t.shows s
  validating : ∀ candidateRef s, t.shows (t.validateCandidate candidateRef s).state = t.shows s
  planning : ∀ candidateRef currentRef s, t.shows (t.plan candidateRef currentRef s).state = t.shows s

def Promotion.Allowed : Prop := a.protectionClass = .ordinary ∧ a.monitoringPolicy.isSome

/-! ## The calls, one after the other -/

def Inspected (s₁ : σ) : Prop := t.inspectCurrent s = .ok a.acceptedBaselineRef s₁

def Validated (s₂ : σ) : Prop := ∃ s₁, Inspected t a s s₁ ∧ t.validateCandidate a.candidateRef s₁ = .ok true s₂

def Planned (plan : DeploymentPlan) (s₃ : σ) : Prop :=
  ∃ s₂, Validated t a s s₂ ∧ t.plan a.candidateRef a.acceptedBaselineRef s₂ = .ok plan s₃

def Applied (deployment : DeploymentRef) (s₄ : σ) : Prop :=
  ∃ plan s₃, Planned t a s plan s₃ ∧ t.apply plan s₃ = .ok deployment s₄

/-- The calls at which a promotion ends without a verdict of `verify`, with the state they leave. -/
inductive Stops : σ → Prop where
  | inspecting {e : Exn} {s' : σ} (h : t.inspectCurrent s = .error e s') : Stops s'
  | stale {current : String} {s' : σ} (h : t.inspectCurrent s = .ok current s') (hne : current ≠ a.acceptedBaselineRef) :
      Stops s'
  | validating {e : Exn} {s₁ s' : σ} (h₁ : Inspected t a s s₁) (h : t.validateCandidate a.candidateRef s₁ = .error e s') :
      Stops s'
  | invalid {s₁ s' : σ} (h₁ : Inspected t a s s₁) (h : t.validateCandidate a.candidateRef s₁ = .ok false s') : Stops s'
  | planning {e : Exn} {s₂ s' : σ} (h₂ : Validated t a s s₂)
      (h : t.plan a.candidateRef a.acceptedBaselineRef s₂ = .error e s') : Stops s'
  | applying {e : Exn} {plan : DeploymentPlan} {s₃ s' : σ} (h₃ : Planned t a s plan s₃)
      (h : t.apply plan s₃ = .error e s') : Stops s'
  | verifying {e : Exn} {deployment : DeploymentRef} {s₄ s' : σ} (h₄ : Applied t a s deployment s₄)
      (h : t.verify deployment s₄ = .error e s') : Stops s'

/-! ## How a promotion ends -/

variable {t a s}

theorem Promotion.Allowed.not_isNone (h : a.Allowed) : ¬a.monitoringPolicy.isNone = true := by
  rw [Option.isNone_iff_eq_none, ← Option.not_isSome_iff_eq_none, not_not]
  exact h.2

theorem promote_of_stops (hallowed : a.Allowed) {s' : σ} (h : Stops t a s s') :
    ∃ e, Promoter.promote t a s = .error e s' := by
  have hends : Ends (Promoter.promote t a) s (fun _ _ => False) fun _ s'' => s'' = s' := by
    unfold Promoter.promote
    refine ends_ite (fun hclass => absurd hallowed.1 hclass) fun _ => ?_
    refine ends_ite (fun hpolicy => absurd hpolicy hallowed.not_isNone) fun _ => ?_
    cases h with
    | inspecting h => exact ends_error_bind h rfl
    | stale h hne => exact ends_run_bind h (ends_ite (fun _ => ends_throw_bind rfl) fun heq => absurd hne heq)
    | validating h₁ h =>
      refine ends_run_bind h₁ (ends_ite (fun hne => absurd rfl hne) fun _ => ?_)
      exact ends_error_bind h rfl
    | invalid h₁ h =>
      refine ends_run_bind h₁ (ends_ite (fun hne => absurd rfl hne) fun _ => ?_)
      exact ends_run_bind h (ends_throw_bind rfl)
    | planning h₂ h =>
      obtain ⟨s₁, h₁, h₂⟩ := h₂
      refine ends_run_bind h₁ (ends_ite (fun hne => absurd rfl hne) fun _ => ends_run_bind h₂ ?_)
      exact ends_error_bind h rfl
    | applying h₃ h =>
      obtain ⟨s₂, ⟨s₁, h₁, h₂⟩, h₃⟩ := h₃
      refine ends_run_bind h₁ (ends_ite (fun hne => absurd rfl hne) fun _ => ends_run_bind h₂ (ends_run_bind h₃ ?_))
      exact ends_error_bind h rfl
    | verifying h₄ h =>
      obtain ⟨plan, s₃, ⟨s₂, ⟨s₁, h₁, h₂⟩, h₃⟩, h₄⟩ := h₄
      refine ends_run_bind h₁ (ends_ite (fun hne => absurd rfl hne) fun _ => ends_run_bind h₂ (ends_run_bind h₃ ?_))
      exact ends_run_bind h₄ (ends_error_bind h rfl)
  obtain ⟨e, s'', hrun, rfl⟩ := hends.raises
  exact ⟨e, hrun⟩

/-- A promotion that returns has been applied and either verified or rolled back. -/
def Settled (t : PromotionTarget σ) (a : Promotion) (s : σ) (result : PromotionResult) (s' : σ) : Prop :=
  ∃ deployment s₄, Applied t a s deployment s₄ ∧
    (result.promoted = true ∧ result.deployment = some deployment ∧ t.verify deployment s₄ = .ok true s' ∨
      result.promoted = false ∧
        ∃ s₅ ref, t.verify deployment s₄ = .ok false s₅ ∧ t.rollback a.acceptedBaselineRef deployment s₅ = .ok ref s')

def Raised (t : PromotionTarget σ) (a : Promotion) (s s' : σ) : Prop := s' = s ∨ a.Allowed ∧ Stops t a s s'

theorem ends_call {α β : Type} {x : EStateM Exn σ α} {f : α → EStateM Exn σ β} {Q : β → σ → Prop} {E : Exn → σ → Prop}
    {s : σ} (hok : ∀ v s', x s = .ok v s' → Ends (f v) s' Q E) (herror : ∀ e s', x s = .error e s' → E e s') :
    Ends (x >>= f) s Q E := by
  cases hrun : x s with
  | ok v s' => exact ends_run_bind hrun (hok v s' hrun)
  | error e s' => exact ends_error_bind hrun (herror e s' hrun)

theorem ends_promote (ht : t.RestoresRef) (a : Promotion) (s : σ) :
    Ends (Promoter.promote t a) s (Settled t a s) fun _ => Raised t a s := by
  unfold Promoter.promote
  refine ends_ite (fun _ => ends_throw_bind (.inl rfl)) fun hclass => ?_
  refine ends_ite (fun _ => ends_throw_bind (.inl rfl)) fun hpolicy => ?_
  have hallowed : a.Allowed := ⟨not_not.mp hclass, by simpa [Option.isSome_iff_ne_none] using hpolicy⟩
  refine ends_call (fun current s₁ h => ?_) fun e s' h => .inr ⟨hallowed, .inspecting h⟩
  refine ends_ite (fun hne => ends_throw_bind (.inr ⟨hallowed, .stale h hne⟩)) fun heq => ?_
  have h₁ : Inspected t a s s₁ := by rw [Inspected, h, not_not.mp heq]
  refine ends_call (fun valid s₂ h => ?_) fun e s' h => .inr ⟨hallowed, .validating h₁ h⟩
  cases valid with
  | false => exact ends_throw_bind (.inr ⟨hallowed, .invalid h₁ h⟩)
  | true =>
    have h₂ : Validated t a s s₂ := ⟨s₁, h₁, h⟩
    rw [not_not.mp heq]
    refine ends_call (fun plan s₃ h => ?_) fun e s' h => .inr ⟨hallowed, .planning h₂ h⟩
    have h₃ : Planned t a s plan s₃ := ⟨s₂, h₂, h⟩
    refine ends_call (fun deployment s₄ h => ?_) fun e s' h => .inr ⟨hallowed, .applying h₃ h⟩
    have h₄ : Applied t a s deployment s₄ := ⟨plan, s₃, h₃, h⟩
    refine ends_call (fun verified s₅ h => ?_) fun e s' h => .inr ⟨hallowed, .verifying h₄ h⟩
    cases verified with
    | false =>
      obtain ⟨ref, s', hrollback, -⟩ := ht a.acceptedBaselineRef deployment s₅
      exact ends_run_bind hrollback (ends_pure ⟨deployment, s₄, h₄, .inr ⟨rfl, s₅, ref, h, hrollback⟩⟩)
    | true => exact ends_pure ⟨deployment, s₄, h₄, .inl ⟨rfl, rfl, h⟩⟩

/-- A failed promotion leaves the target at its previous ref, and success is reported of a verified deployment. -/
def NoFailedDeployment (t : PromotionTarget σ) (a : Promotion) (s : σ) : Prop :=
  Ends (Promoter.promote t a) s
    (fun result s' => (result.promoted = false → t.shows s' = t.shows s) ∧
      (result.promoted = true → ∃ deployment s₄, Applied t a s deployment s₄ ∧
        t.verify deployment s₄ = .ok true s' ∧ result.deployment = some deployment))
    fun _ s' => t.shows s' = t.shows s

theorem shows_of_applied {deployment : DeploymentRef} {s₄ : σ} (h : Applied t a s deployment s₄) :
    t.shows s = .ok a.acceptedBaselineRef := by
  obtain ⟨plan, s₃, ⟨s₂, ⟨s₁, h₁, -⟩, -⟩, -⟩ := h
  unfold PromotionTarget.shows
  rw [show t.inspectCurrent s = _ from h₁]
  rfl

/-- The target has made the plan itself, for a candidate that it takes. -/
def PromotionTarget.Made (t : PromotionTarget σ) (plan : DeploymentPlan) (s : σ) : Prop := ∃ a s₀, Planned t a s₀ plan s

/-- `apply` and `verify` restore the ref before they raise. -/
structure PromotionTarget.Undoes (t : PromotionTarget σ) : Prop where
  applying : ∀ plan s e s', t.Made plan s → t.apply plan s = .error e s' → t.shows s' = t.shows s
  verifying : ∀ plan s deployment s₁ e s', t.Made plan s → t.apply plan s = .ok deployment s₁ →
    t.verify deployment s₁ = .error e s' → t.shows s' = t.shows s

section ReadsOnly

variable (hreads : t.ReadsOnly)
include hreads

theorem shows_of_inspected {s₁ : σ} (h : Inspected t a s s₁) : t.shows s₁ = t.shows s := by
  have hkept := hreads.inspecting s
  rwa [show t.inspectCurrent s = _ from h] at hkept

theorem shows_of_validated {s₂ : σ} (h : Validated t a s s₂) : t.shows s₂ = t.shows s := by
  obtain ⟨s₁, h₁, h₂⟩ := h
  have hkept := hreads.validating a.candidateRef s₁
  rw [h₂] at hkept
  exact hkept.trans (shows_of_inspected hreads h₁)

theorem shows_of_planned {plan : DeploymentPlan} {s₃ : σ} (h : Planned t a s plan s₃) : t.shows s₃ = t.shows s := by
  obtain ⟨s₂, h₂, h₃⟩ := h
  have hkept := hreads.planning a.candidateRef a.acceptedBaselineRef s₂
  rw [h₃] at hkept
  exact hkept.trans (shows_of_validated hreads h₂)

theorem shows_of_stops (hundoes : t.Undoes) {s' : σ} (h : Stops t a s s') : t.shows s' = t.shows s := by
  cases h with
  | inspecting h =>
    have hkept := hreads.inspecting s
    rwa [h] at hkept
  | stale h hne =>
    have hkept := hreads.inspecting s
    rwa [h] at hkept
  | @validating e s₁ _ h₁ h =>
    have hkept := hreads.validating a.candidateRef s₁
    rw [h] at hkept
    exact hkept.trans (shows_of_inspected hreads h₁)
  | @invalid s₁ _ h₁ h =>
    have hkept := hreads.validating a.candidateRef s₁
    rw [h] at hkept
    exact hkept.trans (shows_of_inspected hreads h₁)
  | @planning e s₂ _ h₂ h =>
    have hkept := hreads.planning a.candidateRef a.acceptedBaselineRef s₂
    rw [h] at hkept
    exact hkept.trans (shows_of_validated hreads h₂)
  | applying h₃ h => exact (hundoes.applying _ _ _ _ ⟨a, s, h₃⟩ h).trans (shows_of_planned hreads h₃)
  | verifying h₄ h =>
    obtain ⟨plan, s₃, h₃, h₄⟩ := h₄
    exact (hundoes.verifying plan s₃ _ _ _ _ ⟨a, s, h₃⟩ h₄ h).trans (shows_of_planned hreads h₃)

end ReadsOnly

theorem noFailedDeployment_of_stops (ht : t.RestoresRef) (h : ∀ s', Stops t a s s' → t.shows s' = t.shows s) :
    NoFailedDeployment t a s := by
  refine (ends_promote ht a s).mono ?_ ?_
  · rintro result s' ⟨deployment, s₄, happlied, ⟨hpromoted, hdeployment, hverify⟩ | ⟨hfailed, s₅, ref, hverify, hrollback⟩⟩
    · exact ⟨fun hfalse => by simp [hpromoted] at hfalse, fun _ => ⟨deployment, s₄, happlied, hverify, hdeployment⟩⟩
    · refine ⟨fun _ => ?_, fun htrue => by simp [hfailed] at htrue⟩
      obtain ⟨ref', s'', hrollback', hshows⟩ := ht a.acceptedBaselineRef deployment s₅
      cases hrollback.symm.trans hrollback'
      rw [hshows, shows_of_applied happlied]
  · rintro e s' (rfl | ⟨-, hstops⟩)
    · rfl
    · exact h s' hstops

theorem shows_of_noFailedDeployment (hallowed : a.Allowed) (h : NoFailedDeployment t a s) {s' : σ} (hstops : Stops t a s s') :
    t.shows s' = t.shows s := by
  obtain ⟨e, hrun⟩ := promote_of_stops hallowed hstops
  unfold NoFailedDeployment Ends at h
  rw [hrun] at h
  exact h

/-- The promotion of the same candidate that nothing forbids. -/
def Promotion.permitted (a : Promotion) : Promotion :=
  { a with protectionClass := .ordinary, monitoringPolicy := some ⟨3, ["error_rate"], 0⟩ }

/-- A target that is only an alias for a ref. Its check of a deployment is open. -/
def aliasTarget (verify : EStateM Exn String Bool) : PromotionTarget String where
  inspectCurrent := get
  validateCandidate _ := return true
  plan candidateRef currentRef := return ⟨candidateRef, currentRef, []⟩
  apply plan := do
    set plan.candidateRef
    return ⟨"d1", plan.candidateRef, plan.previousRef⟩
  verify _ := verify
  rollback previousRef _ := do
    set previousRef
    return previousRef

theorem aliasTarget_restoresRef (verify : EStateM Exn String Bool) : (aliasTarget verify).RestoresRef := by
  intro previous deployment s
  exact ⟨previous, previous, rfl, rfl⟩

def ordinaryPromotion : Promotion := ⟨"v2", "v1", .ordinary, some ⟨3, ["error_rate"], 0⟩⟩

theorem aliasTarget_readsOnly (verify : EStateM Exn String Bool) : (aliasTarget verify).ReadsOnly :=
  ⟨fun _ => rfl, fun _ _ => rfl, fun _ _ _ => rfl⟩

end AllTomorrow.Improve
