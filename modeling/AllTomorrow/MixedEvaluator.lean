import AllTomorrow.InsertionDict
import Mathlib.Algebra.Order.Ring.Rat
import Mathlib.Data.List.Infix
import Mathlib.Data.List.Perm.Basic

/-!
# The mixed evaluator

`improve/evaluator.py`: one pass over the criteria collects reasons as texts, and the decision is read off these
texts. The policy it stands for is a statement about the criteria, without order and without texts.
-/

namespace AllTomorrow.Improve

/-! ## The evaluator -/

inductive Direction where
  | higherBetter | lowerBetter
  deriving DecidableEq

inductive Decision where
  | accept | reject | needMoreEvidence
  deriving DecidableEq

structure Criterion where
  id : String
  direction : Direction
  required : Bool
  isHardInvariant : Bool
  tolerance : ℚ := 0
  optionalUnknownOk : Bool := false

/-- A metric that is `none` is unknown, and not 0. -/
structure MetricObservation where
  criterionId : String
  baseline : Option ℚ
  candidate : Option ℚ

structure UserEvidence where
  contradicts : Bool := false
  correctionRefs : List String := []

/-- The flags of a call of `evaluate`. -/
structure EvidenceIntegrity where
  integrityOk : Bool := true
  candidateTamperedCriteria : Bool := false
  caseSetsMatch : Bool := true
  protectedViolation : Bool := false

structure EvaluationDecision where
  decision : Decision
  reasons : List String
  improvedSignals : List String
  unknownCriteria : List String
  deriving DecidableEq

abbrev Observations := InsertionDict String MetricObservation

def improved (c : Criterion) (o : MetricObservation) : Option Bool :=
  match o.baseline, o.candidate with
  | some baseline, some candidate =>
    match c.direction with
    | .higherBetter => some (baseline < candidate)
    | .lowerBetter => some (candidate < baseline)
  | _, _ => none

def regressedBeyondTolerance (c : Criterion) (o : MetricObservation) : Option Bool :=
  match o.baseline, o.candidate with
  | some baseline, some candidate =>
    let drop := match c.direction with
      | .higherBetter => baseline - candidate
      | .lowerBetter => candidate - baseline
    some (c.tolerance < drop)
  | _, _ => none

structure Collected where
  reasons : List String := []
  improved : List String := []
  unknown : List String := []

def Collected.addUnknown (found : Collected) (c : Criterion) : Collected :=
  { found with
    reasons := if c.isHardInvariant then found.reasons ++ ["hard invariant " ++ c.id ++ " UNKNOWN"] else found.reasons
    unknown := found.unknown ++ [c.id] }

def Collected.add (observations : Observations) (found : Collected) (c : Criterion) : Collected :=
  match observations.get? c.id with
  | none => found.addUnknown c
  | some o =>
    if o.baseline.isNone || o.candidate.isNone then found.addUnknown c
    else
      let reasons :=
        if regressedBeyondTolerance c o = some true ∧ (c.isHardInvariant || c.required) = true then
          found.reasons ++ ["hard regression on " ++ c.id]
        else found.reasons
      { found with
        reasons := reasons
        improved := if Improve.improved c o = some true then found.improved ++ [c.id] else found.improved }

/-- `r.startswith("hard regression")` -/
def isRegression (reason : String) : Bool := "hard regression".toList.isPrefixOf reason.toList

/-- `"hard invariant" in r` -/
def namesInvariant (reason : String) : Bool := decide ("hard invariant".toList <:+: reason.toList)

def decideCollected (criteria : List Criterion) (user : Option UserEvidence) (found : Collected) : EvaluationDecision :=
  if found.reasons.any isRegression then ⟨.reject, found.reasons, found.improved, found.unknown⟩
  else if found.reasons.any namesInvariant then ⟨.reject, found.reasons, found.improved, found.unknown⟩
  else
    match criteria.find? fun c => c.required && found.unknown.contains c.id && !c.optionalUnknownOk with
    | some c =>
      ⟨.needMoreEvidence, found.reasons ++ ["required criterion " ++ c.id ++ " UNKNOWN (not pre-declared optional)"],
        found.improved, found.unknown⟩
    | none =>
      if user.any UserEvidence.contradicts then
        ⟨.needMoreEvidence, found.reasons ++ ["user evidence contradicts; needs more evidence to resolve"],
          found.improved, found.unknown⟩
      else if found.improved = [] then
        ⟨.needMoreEvidence, found.reasons ++ ["no observed predeclared improvement signal"], found.improved, found.unknown⟩
      else ⟨.accept, ["required pass, no hard regression, improvement observed"], found.improved, found.unknown⟩

def evaluate (criteria : List Criterion) (observations : Observations) (user : Option UserEvidence)
    (integrity : EvidenceIntegrity) : EvaluationDecision :=
  if !integrity.integrityOk then ⟨.reject, ["evidence integrity failure"], [], []⟩
  else if integrity.candidateTamperedCriteria then ⟨.reject, ["candidate tampered frozen criteria/evaluator"], [], []⟩
  else if !integrity.caseSetsMatch then ⟨.reject, ["baseline/candidate case set mismatch"], [], []⟩
  else if integrity.protectedViolation then ⟨.reject, ["protected/security boundary violation"], [], []⟩
  else decideCollected criteria user (criteria.foldl (Collected.add observations) {})

def measured (observations : Observations) (c : Criterion) : Option (ℚ × ℚ) := do
  let o ← observations.get? c.id
  let baseline ← o.baseline
  let candidate ← o.candidate
  return (baseline, candidate)

def Criterion.gain (c : Criterion) (metrics : ℚ × ℚ) : ℚ :=
  match c.direction with
  | .higherBetter => metrics.2 - metrics.1
  | .lowerBetter => metrics.1 - metrics.2

def Criterion.Unknown (observations : Observations) (c : Criterion) : Prop := measured observations c = none

def Criterion.Improved (observations : Observations) (c : Criterion) : Prop :=
  ∃ metrics, measured observations c = some metrics ∧ 0 < c.gain metrics

def Criterion.Regressed (observations : Observations) (c : Criterion) : Prop :=
  ∃ metrics, measured observations c = some metrics ∧ c.gain metrics < -c.tolerance

def EvidenceIntegrity.Good (integrity : EvidenceIntegrity) : Prop :=
  integrity = { integrityOk := true, candidateTamperedCriteria := false, caseSetsMatch := true, protectedViolation := false }

def Criterion.Rejects (observations : Observations) (c : Criterion) : Prop :=
  (c.isHardInvariant = true ∨ c.required = true) ∧ c.Regressed observations ∨
    c.isHardInvariant = true ∧ c.Unknown observations

structure Acceptable (criteria : List Criterion) (observations : Observations) (user : Option UserEvidence)
    (integrity : EvidenceIntegrity) : Prop where
  integrity : integrity.Good
  noRegression : ∀ c ∈ criteria, c.isHardInvariant = true ∨ c.required = true → ¬c.Regressed observations
  invariantsKnown : ∀ c ∈ criteria, c.isHardInvariant = true → ¬c.Unknown observations
  requiredKnown : ∀ c ∈ criteria, c.required = true → c.Unknown observations → c.optionalUnknownOk = true
  noContradiction : ∀ evidence, user = some evidence → evidence.contradicts = false
  improvement : ∃ c ∈ criteria, c.Improved observations

/-- The decision follows the policy, in any order, and no gain offsets a loss. -/
structure DecidesPolicy (criteria : List Criterion) (observations : Observations) (user : Option UserEvidence)
    (integrity : EvidenceIntegrity) : Prop where
  accepts : (evaluate criteria observations user integrity).decision = .accept ↔
    Acceptable criteria observations user integrity
  unordered : ∀ criteria', criteria'.Perm criteria →
    (evaluate criteria' observations user integrity).decision = (evaluate criteria observations user integrity).decision
  /-- More criteria that only improved, with their observations, wherever they stand. -/
  notOffset : ∀ further all observations', all.Perm (criteria ++ further) →
    (∀ c ∈ criteria, observations'.get? c.id = observations.get? c.id) →
    (∀ c ∈ further, c.Improved observations' ∧ ¬c.Regressed observations') →
    (evaluate criteria observations user integrity).decision = .reject →
    (evaluate all observations' user integrity).decision = .reject

/-! ## What the pass collects -/

section

variable {criteria : List Criterion} {observations : Observations} {user : Option UserEvidence}
  {integrity : EvidenceIntegrity} {c : Criterion}

def reasonsOf (observations : Observations) (c : Criterion) : List String :=
  match measured observations c with
  | none => if c.isHardInvariant then ["hard invariant " ++ c.id ++ " UNKNOWN"] else []
  | some metrics =>
    if c.gain metrics < -c.tolerance ∧ (c.isHardInvariant || c.required) = true then ["hard regression on " ++ c.id] else []

def signalsOf (observations : Observations) (c : Criterion) : List String :=
  match measured observations c with
  | none => []
  | some metrics => if 0 < c.gain metrics then [c.id] else []

def unknownOf (observations : Observations) (c : Criterion) : List String :=
  if measured observations c = none then [c.id] else []

variable {baseline candidate : ℚ} {o : MetricObservation}

theorem improved_eq (hbaseline : o.baseline = some baseline)
    (hcandidate : o.candidate = some candidate) : Improve.improved c o = some (decide (0 < c.gain (baseline, candidate))) := by
  unfold Improve.improved Criterion.gain
  rw [hbaseline, hcandidate]
  cases c.direction with
  | higherBetter => simp [sub_pos]
  | lowerBetter => simp [sub_pos]

theorem regressed_eq (hbaseline : o.baseline = some baseline) (hcandidate : o.candidate = some candidate) :
    regressedBeyondTolerance c o = some (decide (c.gain (baseline, candidate) < -c.tolerance)) := by
  have hdrop (x y : ℚ) : (c.tolerance < x - y) = (y - x < -c.tolerance) := by
    rw [lt_neg, neg_sub]
  unfold regressedBeyondTolerance Criterion.gain
  rw [hbaseline, hcandidate]
  cases c.direction with
  | higherBetter => simp only [hdrop]
  | lowerBetter => simp only [hdrop]

theorem addUnknown_eq (h : measured observations c = none) (found : Collected) :
    found.addUnknown c = ⟨found.reasons ++ reasonsOf observations c, found.improved ++ signalsOf observations c,
      found.unknown ++ unknownOf observations c⟩ := by
  unfold Collected.addUnknown reasonsOf signalsOf unknownOf
  rw [h]
  cases c.isHardInvariant <;> simp

theorem add_eq (observations : Observations) (found : Collected) (c : Criterion) :
    found.add observations c = ⟨found.reasons ++ reasonsOf observations c, found.improved ++ signalsOf observations c,
      found.unknown ++ unknownOf observations c⟩ := by
  cases hobserved : observations.get? c.id with
  | none =>
    have hnone : measured observations c = none := by simp [measured, hobserved]
    rw [← addUnknown_eq hnone]
    simp [Collected.add, hobserved]
  | some o =>
    cases hbaseline : o.baseline with
    | none =>
      have hnone : measured observations c = none := by simp [measured, hobserved, hbaseline]
      rw [← addUnknown_eq hnone]
      simp [Collected.add, hobserved, hbaseline]
    | some baseline =>
      cases hcandidate : o.candidate with
      | none =>
        have hnone : measured observations c = none := by simp [measured, hobserved, hbaseline, hcandidate]
        rw [← addUnknown_eq hnone]
        simp [Collected.add, hobserved, hcandidate]
      | some candidate =>
        have hsome : measured observations c = some (baseline, candidate) := by
          simp [measured, hobserved, hbaseline, hcandidate]
        have hreasons := regressed_eq (c := c) hbaseline hcandidate
        have hsignals := improved_eq (c := c) hbaseline hcandidate
        unfold Collected.add reasonsOf signalsOf unknownOf
        rw [hsome, hobserved]
        simp only [hbaseline, hcandidate, hreasons, hsignals, Option.isNone_some, Bool.or_false, Bool.false_eq_true,
          if_false, Option.some.injEq, decide_eq_true_eq, reduceCtorEq, List.append_nil]
        congr 1
        · split <;> simp
        · split <;> simp

theorem foldl_add (observations : Observations) (criteria : List Criterion) (found : Collected) :
    criteria.foldl (Collected.add observations) found =
      ⟨found.reasons ++ criteria.flatMap (reasonsOf observations), found.improved ++ criteria.flatMap (signalsOf observations),
        found.unknown ++ criteria.flatMap (unknownOf observations)⟩ := by
  induction criteria generalizing found with
  | nil => simp
  | cons c criteria ih => simp [ih, add_eq]

theorem isRegression_hardRegression (id : String) : isRegression ("hard regression on " ++ id) = true := by
  unfold isRegression
  rw [List.isPrefixOf_iff_prefix, String.toList_append]
  exact ⟨" on ".toList ++ id.toList, by simp⟩

theorem namesInvariant_unknown (id : String) : namesInvariant ("hard invariant " ++ id ++ " UNKNOWN") = true := by
  unfold namesInvariant
  rw [decide_eq_true_eq, String.toList_append, String.toList_append]
  exact ⟨[], " ".toList ++ id.toList ++ " UNKNOWN".toList, by simp⟩

theorem reasonsOf_ne_nil_iff : reasonsOf observations c ≠ [] ↔ c.Rejects observations := by
  unfold reasonsOf Criterion.Rejects Criterion.Regressed Criterion.Unknown
  cases hmeasured : measured observations c with
  | none => simp
  | some metrics => simp [and_comm]

theorem tested_of_mem_reasonsOf {reason : String} (h : reason ∈ reasonsOf observations c) :
    isRegression reason = true ∨ namesInvariant reason = true := by
  unfold reasonsOf at h
  split at h
  · split at h
    · rw [List.mem_singleton.mp h]
      exact .inr (namesInvariant_unknown c.id)
    · cases h
  · split at h
    · rw [List.mem_singleton.mp h]
      exact .inl (isRegression_hardRegression c.id)
    · cases h

theorem exists_tested_iff : (criteria.flatMap (reasonsOf observations)).any isRegression = true ∨
        (criteria.flatMap (reasonsOf observations)).any namesInvariant = true ↔ ∃ c ∈ criteria, c.Rejects observations := by
  simp only [List.any_eq_true, List.mem_flatMap]
  constructor
  · intro h
    have hreason : ∃ reason c, c ∈ criteria ∧ reason ∈ reasonsOf observations c := by
      rcases h with ⟨reason, ⟨c, hc, hmem⟩, -⟩ | ⟨reason, ⟨c, hc, hmem⟩, -⟩
      · exact ⟨reason, c, hc, hmem⟩
      · exact ⟨reason, c, hc, hmem⟩
    obtain ⟨reason, c, hc, hmem⟩ := hreason
    exact ⟨c, hc, reasonsOf_ne_nil_iff.mp (List.ne_nil_of_mem hmem)⟩
  · rintro ⟨c, hc, hrejects⟩
    obtain ⟨reason, hmem⟩ := List.exists_mem_of_ne_nil _ (reasonsOf_ne_nil_iff.mpr hrejects)
    rcases tested_of_mem_reasonsOf hmem with htested | htested
    · exact .inl ⟨reason, ⟨c, hc, hmem⟩, htested⟩
    · exact .inr ⟨reason, ⟨c, hc, hmem⟩, htested⟩

theorem mem_unknown_iff (hc : c ∈ criteria) : c.id ∈ criteria.flatMap (unknownOf observations) ↔ c.Unknown observations := by
  rw [List.mem_flatMap]
  constructor
  · rintro ⟨c', -, hmem⟩
    unfold unknownOf at hmem
    split at hmem
    · next hunknown =>
      have hid : c.id = c'.id := List.mem_singleton.mp hmem
      unfold Criterion.Unknown measured at *
      rw [hid]
      exact hunknown
    · cases hmem
  · intro hunknown
    have hnone : measured observations c = none := hunknown
    refine ⟨c, hc, ?_⟩
    rw [unknownOf, if_pos hnone]
    exact List.mem_singleton_self _

theorem signals_ne_nil_iff : criteria.flatMap (signalsOf observations) ≠ [] ↔ ∃ c ∈ criteria, c.Improved observations := by
  have hone (c : Criterion) : signalsOf observations c ≠ [] ↔ c.Improved observations := by
    unfold signalsOf Criterion.Improved
    cases measured observations c with
    | none => simp
    | some metrics => simp
  rw [ne_eq, List.flatMap_eq_nil_iff]
  push Not
  simp only [hone]

/-! ## The decision -/

theorem evaluate_of_good (h : integrity.Good) : evaluate criteria observations user integrity =
      decideCollected criteria user (criteria.foldl (Collected.add observations) {}) := by
  rw [h]
  rfl

theorem evaluate_of_not_good (h : ¬integrity.Good) : (evaluate criteria observations user integrity).decision = .reject := by
  obtain ⟨ok, tampered, matching, violation⟩ := integrity
  unfold evaluate
  cases ok with
  | false => rfl
  | true =>
    cases tampered with
    | true => rfl
    | false =>
      cases matching with
      | false => rfl
      | true =>
        cases violation with
        | true => rfl
        | false => exact absurd rfl h

theorem find?_required_eq_none_iff : (criteria.find? fun c =>
        c.required && (criteria.flatMap (unknownOf observations)).contains c.id && !c.optionalUnknownOk) = none ↔
      ∀ c ∈ criteria, c.required = true → c.Unknown observations → c.optionalUnknownOk = true := by
  rw [List.find?_eq_none]
  refine forall₂_congr fun c hc => ?_
  have hunknown := @mem_unknown_iff criteria observations c hc
  simp only [Bool.and_eq_true, List.contains_eq_mem, decide_eq_true_eq, hunknown, Bool.not_eq_true', not_and,
    Bool.not_eq_false, and_imp]

theorem reject_iff : (evaluate criteria observations user integrity).decision = .reject ↔
    ¬integrity.Good ∨ ∃ c ∈ criteria, c.Rejects observations := by
  by_cases hgood : integrity.Good
  · rw [evaluate_of_good hgood, ← exists_tested_iff, foldl_add]
    unfold decideCollected
    dsimp only [List.nil_append]
    split
    · next hregression => simp [hregression]
    · next hregression =>
      split
      · next hinvariant => simp [hinvariant]
      · next hinvariant =>
        simp only [hgood, not_true_eq_false, false_or, hregression, hinvariant, or_self]
        split
        · simp
        · split
          · simp
          · split <;> simp
  · simp [evaluate_of_not_good hgood, hgood]

theorem accept_iff : (evaluate criteria observations user integrity).decision = .accept ↔
    Acceptable criteria observations user integrity := by
  constructor
  · intro h
    have hnot : ¬(evaluate criteria observations user integrity).decision = .reject := by rw [h]; nofun
    rw [reject_iff, not_or, not_not] at hnot
    obtain ⟨hgood, hrejects⟩ := hnot
    have hnone (c : Criterion) (hc : c ∈ criteria) : ¬c.Rejects observations := fun hc' => hrejects ⟨c, hc, hc'⟩
    rw [evaluate_of_good hgood, foldl_add] at h
    unfold decideCollected at h
    dsimp only [List.nil_append] at h
    split at h
    · cases h
    · split at h
      · cases h
      · split at h
        · cases h
        · next hfind =>
          split at h
          · cases h
          · next huser =>
            split at h
            · cases h
            · next himproved =>
              exact
                { integrity := hgood
                  noRegression := fun c hc hhard hregressed => hnone c hc (.inl ⟨hhard, hregressed⟩)
                  invariantsKnown := fun c hc hhard hunknown => hnone c hc (.inr ⟨hhard, hunknown⟩)
                  requiredKnown := find?_required_eq_none_iff.mp hfind
                  noContradiction := fun evidence hevidence => by simpa [hevidence] using huser
                  improvement := signals_ne_nil_iff.mp himproved }
  · intro h
    have hrejects : ¬∃ c ∈ criteria, c.Rejects observations := by
      rintro ⟨c, hc, ⟨hhard, hregressed⟩ | ⟨hhard, hunknown⟩⟩
      · exact h.noRegression c hc hhard hregressed
      · exact h.invariantsKnown c hc hhard hunknown
    rw [← exists_tested_iff, not_or] at hrejects
    have huser : user.any UserEvidence.contradicts = false := by
      cases hevidence : user with
      | none => rfl
      | some evidence => simp [h.noContradiction evidence hevidence]
    have hfind := find?_required_eq_none_iff.mpr h.requiredKnown
    have hsignals := signals_ne_nil_iff.mpr h.improvement
    rw [evaluate_of_good h.integrity, foldl_add]
    unfold decideCollected
    dsimp only [List.nil_append]
    rw [if_neg hrejects.1, if_neg hrejects.2, hfind]
    simp [huser, hsignals]

variable {criteria' : List Criterion}

theorem Acceptable.perm (hperm : criteria'.Perm criteria)
    (h : Acceptable criteria observations user integrity) : Acceptable criteria' observations user integrity where
  integrity := h.integrity
  noRegression := fun c hc => h.noRegression c (hperm.mem_iff.mp hc)
  invariantsKnown := fun c hc => h.invariantsKnown c (hperm.mem_iff.mp hc)
  requiredKnown := fun c hc => h.requiredKnown c (hperm.mem_iff.mp hc)
  noContradiction := h.noContradiction
  improvement := by
    obtain ⟨c, hc, himproved⟩ := h.improvement
    exact ⟨c, hperm.mem_iff.mpr hc, himproved⟩

theorem decision_perm (hperm : criteria'.Perm criteria) :
    (evaluate criteria' observations user integrity).decision = (evaluate criteria observations user integrity).decision := by
  have haccept : (evaluate criteria' observations user integrity).decision = .accept ↔
      (evaluate criteria observations user integrity).decision = .accept := by
    rw [accept_iff, accept_iff]
    exact ⟨Acceptable.perm hperm.symm, Acceptable.perm hperm⟩
  have hreject : (evaluate criteria' observations user integrity).decision = .reject ↔
      (evaluate criteria observations user integrity).decision = .reject := by
    rw [reject_iff, reject_iff]
    simp only [hperm.mem_iff]
  cases hdecision : (evaluate criteria observations user integrity).decision with
  | accept => exact haccept.mpr hdecision
  | reject => exact hreject.mpr hdecision
  | needMoreEvidence =>
    cases hdecision' : (evaluate criteria' observations user integrity).decision with
    | accept => rw [haccept.mp hdecision'] at hdecision; cases hdecision
    | reject => rw [hreject.mp hdecision'] at hdecision; cases hdecision
    | needMoreEvidence => rfl

theorem Criterion.Rejects.congr {observations' : Observations} (hsame : observations'.get? c.id = observations.get? c.id)
    (h : c.Rejects observations) : c.Rejects observations' := by
  have hmeasured : measured observations' c = measured observations c := by
    unfold measured
    rw [hsame]
  unfold Criterion.Rejects Criterion.Regressed Criterion.Unknown at *
  rwa [hmeasured]

/-- For every list of criteria and every observation. -/
theorem evaluate_decidesPolicy (criteria : List Criterion) (observations : Observations) (user : Option UserEvidence)
    (integrity : EvidenceIntegrity) : DecidesPolicy criteria observations user integrity where
  accepts := accept_iff
  unordered := fun _ hperm => decision_perm hperm
  notOffset := fun further all observations' hperm hsame _ hreject => by
    rw [reject_iff] at hreject ⊢
    refine hreject.imp_right ?_
    rintro ⟨c, hc, hrejects⟩
    exact ⟨c, hperm.mem_iff.mpr (List.mem_append_left _ hc), hrejects.congr (hsame c hc)⟩

/-- A hard regression is not offset by an improvement. -/
example : (evaluate
    [⟨"latency", .lowerBetter, true, false, 1 / 2, false⟩, ⟨"quality", .higherBetter, true, false, 0, false⟩]
    ((InsertionDict.empty.set "latency" ⟨"latency", some 1, some 2⟩).set "quality" ⟨"quality", some 0, some 9⟩) none {}).decision
      = .reject := by decide +kernel

end

end AllTomorrow.Improve
