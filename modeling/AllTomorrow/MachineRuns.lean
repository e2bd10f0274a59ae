import Mathlib.Order.Basic
import Mathlib.Algebra.Order.Ring.Int
import Mathlib.Tactic.Linarith

/-!
# Runs of a deterministic machine and versioned cells

A machine takes one input at a time. What one step preserves holds along every
run, possibly under a condition that each step of the run meets. A versioned
cell is a part of the state with a revision that every change raises by one;
then a compare-and-set on one expected revision succeeds at most once in a run.
-/

namespace MachineRuns

variable {σ ι : Type*} (step : σ → ι → σ)

def run (s : σ) (ops : List ι) : σ := ops.foldl step s

@[simp] theorem run_nil (s : σ) : run step s [] = s := rfl

@[simp] theorem run_cons (s : σ) (i : ι) (ops : List ι) :
    run step s (i :: ops) = run step (step s i) ops := rfl

theorem run_append (s : σ) (ops ops' : List ι) :
    run step s (ops ++ ops') = run step (run step s ops) ops' := List.foldl_append

def Reachable (init s : σ) : Prop := ∃ ops, run step init ops = s

/-- Every step of a run from `s` meets the condition `P`. -/
def EveryStep (P : σ → ι → Prop) (s : σ) (ops : List ι) : Prop :=
  ∀ before i after, ops = before ++ i :: after → P (run step s before) i

variable {step}

theorem Reachable.refl (init : σ) : Reachable step init init := ⟨[], rfl⟩

theorem Reachable.run {init s : σ} (h : Reachable step init s) (ops : List ι) : Reachable step init (run step s ops) := by
  obtain ⟨before, rfl⟩ := h
  exact ⟨before ++ ops, run_append step init before ops⟩

theorem Reachable.next {init s : σ} (h : Reachable step init s) (i : ι) : Reachable step init (step s i) := h.run [i]

variable {s : σ}

theorem invariant_run {I : σ → Prop} (hs : ∀ s i, I s → I (step s i)) (h : I s) (ops : List ι) :
    I (MachineRuns.run step s ops) := by
  induction ops generalizing s with
  | nil => exact h
  | cons i ops ih => exact ih (hs s i h)

theorem Reachable.invariant {I : σ → Prop} {init s : σ} (h : Reachable step init s) (h0 : I init)
    (hs : ∀ s i, I s → I (step s i)) : I s := by
  obtain ⟨ops, rfl⟩ := h
  exact invariant_run hs h0 ops

variable {P : σ → ι → Prop}

theorem everyStep_nil : EveryStep step P s [] := by
  intro before i after h
  simp at h

variable {ops : List ι}

theorem everyStep_cons {i : ι} : EveryStep step P s (i :: ops) ↔ P s i ∧ EveryStep step P (step s i) ops := by
  constructor
  · intro h
    refine ⟨h [] i ops rfl, ?_⟩
    intro before j after he
    exact h (i :: before) j after (by rw [he, List.cons_append])
  · rintro ⟨hi, h⟩ before j after he
    cases before with
    | nil =>
      cases he
      exact hi
    | cons i' before =>
      cases he
      exact h before j after rfl

instance decidableEveryStep {P : σ → ι → Prop} [∀ s i, Decidable (P s i)] :
    (s : σ) → (ops : List ι) → Decidable (EveryStep step P s ops)
  | _, [] => isTrue everyStep_nil
  | s, i :: ops =>
      @decidable_of_iff _ _ everyStep_cons.symm (@instDecidableAnd _ _ inferInstance (decidableEveryStep (step s i) ops))

theorem everyStep_append_left {ops ops' : List ι} (h : EveryStep step P s (ops ++ ops')) : EveryStep step P s ops := by
  intro before i after he
  exact h before i (after ++ ops') (by rw [he, List.append_assoc, List.cons_append])

theorem everyStep_append_right {ops ops' : List ι}
    (h : EveryStep step P s (ops ++ ops')) : EveryStep step P (run step s ops) ops' := by
  intro before i after he
  have hp := h (ops ++ before) i after (by rw [he, List.append_assoc])
  rwa [run_append] at hp

theorem everyStep_snoc {i : ι} (h : EveryStep step P s ops)
    (hi : P (run step s ops) i) : EveryStep step P s (ops ++ [i]) := by
  induction ops generalizing s with
  | nil => exact everyStep_cons.mpr ⟨hi, everyStep_nil⟩
  | cons j ops ih =>
    obtain ⟨hj, htail⟩ := everyStep_cons.mp h
    exact everyStep_cons.mpr ⟨hj, ih htail hi⟩

variable {R : σ → σ → Prop}

/-- A preorder that every step of the run respects holds between its ends. `I` is an
invariant of the machine and `P` the condition that the steps of this run meet. -/
theorem relation_run {I : σ → Prop}
    (hI : ∀ s i, I s → I (step s i)) (hrefl : ∀ s, R s s) (htrans : ∀ {a b c}, R a b → R b c → R a c)
    (hR : ∀ s i, I s → P s i → R s (step s i)) (hs : I s) (hP : EveryStep step P s ops) : R s (run step s ops) := by
  induction ops generalizing s with
  | nil => exact hrefl s
  | cons i ops ih =>
    obtain ⟨hi, htail⟩ := everyStep_cons.mp hP
    exact htrans (hR s i hs hi) (ih (hI s i hs) htail)

/-- Where a preorder relates the two sides of a step exactly under the condition `P`, it relates any two moments of a
run exactly when each of its steps meets `P`. -/
theorem related_iff_everyStep {I : σ → Prop} {F P : σ → ι → Prop} (hrefl : ∀ s, R s s)
    (htrans : ∀ {a b c}, R a b → R b c → R a c) (hI : ∀ s i, I s → F s i → P s i → I (step s i))
    (hR : ∀ s i, I s → F s i → (R s (step s i) ↔ P s i)) (hs : I s) (hF : EveryStep step F s ops) :
    (∀ before between after, ops = before ++ between ++ after →
      R (MachineRuns.run step s before) (MachineRuns.run step s (before ++ between))) ↔ EveryStep step P s ops := by
  induction ops generalizing s with
  | nil =>
    refine ⟨fun _ => everyStep_nil, fun _ before between after hsplit => ?_⟩
    obtain ⟨hleft, -⟩ := List.append_eq_nil_iff.mp hsplit.symm
    obtain ⟨rfl, rfl⟩ := List.append_eq_nil_iff.mp hleft
    exact hrefl s
  | cons i ops ih =>
    obtain ⟨hi, htail⟩ := everyStep_cons.mp hF
    rw [everyStep_cons]
    constructor
    · intro hall
      have hP : P s i := (hR s i hs hi).mp (hall [] [i] ops rfl)
      refine ⟨hP, (ih (hI s i hs hi hP) htail).mp fun before between after hsplit => ?_⟩
      exact hall (i :: before) between after (by rw [hsplit, List.cons_append, List.cons_append])
    · rintro ⟨hP, hsteps⟩ before between after hsplit
      have hlater := (ih (hI s i hs hi hP) htail).mpr hsteps
      cases before with
      | cons j before =>
        cases hsplit
        exact hlater before between after rfl
      | nil =>
        cases between with
        | nil => exact hrefl s
        | cons j between =>
          cases hsplit
          exact htrans ((hR s i hs hi).mpr hP) (hlater [] between after rfl)

theorem invariant_of_everyStep {I : σ → Prop} (hs : ∀ s i, I s → P s i → I (step s i)) (h : I s) (hP : EveryStep step P s ops) : I (MachineRuns.run step s ops) := by
  induction ops generalizing s with
  | nil => exact h
  | cons i ops ih =>
    obtain ⟨hi, htail⟩ := everyStep_cons.mp hP
    exact ih (hs s i h hi) htail

/-- Where a step keeps `I` exactly under the condition `P`, a run stays in `I` throughout exactly
when each of its steps meets `P`. -/
theorem always_iff_everyStep {K I : σ → Prop} (hK : ∀ s i, K s → K (step s i))
    (hstep : ∀ s i, K s → I s → (I (step s i) ↔ P s i)) (hs : K s) (h : I s) :
    (∀ before after, ops = before ++ after → I (MachineRuns.run step s before)) ↔ EveryStep step P s ops := by
  induction ops generalizing s with
  | nil =>
    refine ⟨fun _ => everyStep_nil, ?_⟩
    intro _ before after hsplit
    rw [(List.nil_eq_append_iff.mp hsplit).1]
    exact h
  | cons i ops ih =>
    rw [everyStep_cons, ← hstep s i hs h]
    constructor
    · intro hall
      have hnext : I (step s i) := hall [i] ops rfl
      refine ⟨hnext, (ih (hK s i hs) hnext).mp ?_⟩
      intro before after hsplit
      exact hall (i :: before) after (by rw [hsplit, List.cons_append])
    · rintro ⟨hnext, htail⟩ before after hsplit
      cases before with
      | nil => exact h
      | cons j before =>
        cases hsplit
        exact (ih (hK s i hs) hnext).mpr htail before after rfl

/-- A law that follows from an invariant of the steps that meet `P`, and does not hold after any other step, holds
throughout a run exactly when each of its steps meets `P`. -/
theorem always_iff_of_invariant {I J : σ → Prop} (hI : ∀ s, J s → I s)
    (hJ : ∀ s i, J s → P s i → J (step s i)) (hP : ∀ s i, J s → I (step s i) → P s i) (hs : J s) :
    (∀ before after, ops = before ++ after → I (MachineRuns.run step s before)) ↔ EveryStep step P s ops := by
  constructor
  · intro hall
    induction ops generalizing s with
    | nil => exact everyStep_nil
    | cons i ops ih =>
      have hi : P s i := hP s i hs (hall [i] ops rfl)
      refine everyStep_cons.mpr ⟨hi, ih (hJ s i hs hi) ?_⟩
      rintro before after rfl
      exact hall (i :: before) after rfl
  · rintro hsteps before after rfl
    exact hI _ (invariant_of_everyStep hJ hs (everyStep_append_left hsteps))

/-- Two conditions that agree on the steps that meet `F`, and of which one keeps the invariant, are met by the
same runs. -/
theorem everyStep_iff {K T : σ → Prop} {F P Q : σ → ι → Prop} (hK : ∀ s i, K s → F s i → K (step s i))
    (hT : ∀ s i, Q s i → T (step s i)) (hstep : ∀ s i, K s → T s → F s i → (Q s i ↔ P s i)) (hs : K s) (h : T s) (hF : EveryStep step F s ops) : EveryStep step Q s ops ↔ EveryStep step P s ops := by
  induction ops generalizing s with
  | nil => exact ⟨fun _ => everyStep_nil, fun _ => everyStep_nil⟩
  | cons i ops ih =>
    obtain ⟨hi, htail⟩ := everyStep_cons.mp hF
    rw [everyStep_cons, everyStep_cons, ← hstep s i hs h hi]
    refine and_congr_right fun hQ => ?_
    exact ih (hK s i hs hi) (hT s i hQ) htail

/-- What a step leaves as it is or brings about holds at the end of a run exactly if it held at the start or
some step brought it about. -/
theorem holds_run_iff {I P : σ → Prop} {E : σ → ι → Prop} (hI : ∀ s i, I s → I (step s i))
    (hstep : ∀ s i, I s → (P (step s i) ↔ P s ∨ E s i)) (hs : I s) (ops : List ι) : P (MachineRuns.run step s ops) ↔
      P s ∨ ∃ before i after, ops = before ++ i :: after ∧ E (MachineRuns.run step s before) i := by
  induction ops generalizing s with
  | nil => simp
  | cons i ops ih =>
    rw [run_cons, ih (hI s i hs), hstep s i hs, or_assoc]
    refine or_congr_right ?_
    constructor
    · rintro (hnow | ⟨before, j, after, rfl, hlater⟩)
      · exact ⟨[], i, ops, rfl, hnow⟩
      · exact ⟨i :: before, j, after, rfl, hlater⟩
    · rintro ⟨before, j, after, hsplit, hevent⟩
      cases before with
      | nil =>
        cases hsplit
        exact .inl hevent
      | cons i' before =>
        cases hsplit
        exact .inr ⟨before, j, after, rfl, hevent⟩

/-- If every step that changes the state raises a measure, then a run ends where it began
exactly when each of its inputs leaves the first state as it is. -/
theorem run_eq_self_iff {I : σ → Prop} (hI : ∀ s i, I s → I (step s i)) {measure : σ → ℕ}
    (hgrow : ∀ s i, I s → step s i = s ∨ measure s < measure (step s i)) (hs : I s) :
    MachineRuns.run step s ops = s ↔ ∀ i ∈ ops, step s i = s := by
  have hle : ∀ (ops : List ι) (t : σ), I t → measure t ≤ measure (MachineRuns.run step t ops) := by
    intro ops
    induction ops with
    | nil => exact fun t _ => Nat.le_refl _
    | cons i ops ih =>
      intro t ht
      have htail := ih (step t i) (hI t i ht)
      rcases hgrow t i ht with hsame | hlt
      · rw [hsame] at htail
        rwa [run_cons, hsame]
      · exact hlt.le.trans htail
  induction ops with
  | nil => simp
  | cons i ops ih =>
    rw [run_cons, List.forall_mem_cons]
    constructor
    · intro hend
      have htail := hle ops (step s i) (hI s i hs)
      rw [hend] at htail
      rcases hgrow s i hs with hsame | hlt
      · rw [hsame] at hend
        exact ⟨hsame, ih.mp hend⟩
      · omega
    · rintro ⟨hsame, hrest⟩
      rw [hsame]
      exact ih.mpr hrest

variable {before after before' after' : List ι}

theorem positions_cases {i j : ι} (h : before ++ i :: after = before' ++ j :: after') :
    (before = before' ∧ i = j) ∨ (∃ between, before' = before ++ i :: between) ∨
      ∃ between, before = before' ++ j :: between := by
  rcases List.append_eq_append_iff.mp h with ⟨between, hbefore, hafter⟩ | ⟨between, hbefore, hafter⟩
  · cases between with
    | nil =>
      rw [List.nil_append, List.cons.injEq] at hafter
      exact .inl ⟨by rw [hbefore, List.append_nil], hafter.1⟩
    | cons i' between =>
      rw [List.cons_append, List.cons.injEq] at hafter
      exact .inr (.inl ⟨between, by rw [hbefore, hafter.1]⟩)
  · cases between with
    | nil =>
      rw [List.nil_append, List.cons.injEq] at hafter
      exact .inl ⟨by rw [hbefore, List.append_nil], hafter.1.symm⟩
    | cons j' between =>
      rw [List.cons_append, List.cons.injEq] at hafter
      exact .inr (.inr ⟨between, by rw [hbefore, hafter.1]⟩)

theorem first_unique {i : ι} (h : before ++ i :: after = before' ++ i :: after')
    (hi : i ∉ before) (hi' : i ∉ before') : before = before' := by
  rcases positions_cases h with ⟨hsame, _⟩ | ⟨between, rfl⟩ | ⟨between, rfl⟩
  · exact hsame
  · exact absurd (List.mem_append_right before List.mem_cons_self) hi'
  · exact absurd (List.mem_append_right before' List.mem_cons_self) hi

/-- After every input that commits `d` the state is `lasting`, and `settled` once the inputs before it
have ended what they began. -/
def FinalSince {δ : Type*} (step : σ → ι → σ) (commits : σ → ι → δ → Prop) (lasting settled : δ → σ → Prop)
    (ended : σ → ι → Prop) (s : σ) (ops : List ι) : Prop :=
  ∀ before i between after d, ops = before ++ i :: (between ++ after) → commits (MachineRuns.run step s before) i d →
    lasting d (MachineRuns.run step s (before ++ i :: between)) ∧
      ((∀ j ∈ before, ended (MachineRuns.run step s (before ++ i :: between)) j) →
        settled d (MachineRuns.run step s (before ++ i :: between)))

theorem finalSince_of_everyStep {δ : Type*} {commits : σ → ι → δ → Prop} {lasting settled : δ → σ → Prop}
    {ended : σ → ι → Prop} (hcommits : ∀ s i d, commits s i d → lasting d (step s i) ∧ settled d (step s i))
    (hkeeps : ∀ s i d, P s i → lasting d s ∧ settled d s → lasting d (step s i) ∧ settled d (step s i)) (hP : EveryStep step P s ops) : FinalSince step commits lasting settled ended s ops := by
  intro before i between after d hsplit hcommit
  rw [hsplit] at hP
  have htail := everyStep_append_left (everyStep_cons.mp (everyStep_append_right hP)).2
  have hboth : lasting d (MachineRuns.run step s (before ++ i :: between)) ∧
      settled d (MachineRuns.run step s (before ++ i :: between)) := by
    rw [run_append, run_cons]
    exact invariant_of_everyStep (I := fun t => lasting d t ∧ settled d t) (fun t j ht hj => hkeeps t j d hj ht)
      (hcommits _ i d hcommit) htail
  exact ⟨hboth.1, fun _ => hboth.2⟩

/-! ## Versioned cells -/

section Versioned

variable {β : Type*}

/-- A step leaves the cell alone, or fills it, or changes it and raises its revision by one. -/
def Versioned (step : σ → ι → σ) (I : σ → Prop) (cell : σ → Option β) (revision : σ → β → ℤ) : Prop :=
  ∀ s i b, I s → cell s = some b → ∃ b', cell (step s i) = some b' ∧
    ((b' = b ∧ revision (step s i) b' = revision s b) ∨ revision (step s i) b' = revision s b + 1)

variable {I : σ → Prop} {cell : σ → Option β} {revision : σ → β → ℤ}

theorem Versioned.revision_le (hv : Versioned step I cell revision) (hI : ∀ s i, I s → I (step s i)) (hs : I s) {b : β} (hb : cell s = some b) (ops : List ι) :
    ∃ b', cell (run step s ops) = some b' ∧ revision s b ≤ revision (run step s ops) b' := by
  induction ops generalizing s b with
  | nil => exact ⟨b, hb, Int.le_refl _⟩
  | cons i ops ih =>
    obtain ⟨b₁, hb₁, hrev⟩ := hv s i b hs hb
    obtain ⟨b₂, hb₂, hle⟩ := ih (hI s i hs) hb₁
    refine ⟨b₂, hb₂, ?_⟩
    rcases hrev with ⟨_, heq⟩ | heq
    · rw [← heq]
      exact hle
    · have hlt : revision s b ≤ revision (step s i) b₁ := by omega
      exact hlt.trans hle

/-- Of two inputs that present the same expected revision to a versioned cell, the later
one leaves the cell unchanged if the earlier one changed it. -/
theorem Versioned.second_unchanged (hv : Versioned step I cell revision) (hI : ∀ s i, I s → I (step s i))
    {expected : ℤ} {presents : ι → Prop}
    (hcas : ∀ s i b, I s → presents i → cell s = some b → cell (step s i) ≠ some b → revision s b = expected) (hs : I s) {i j : ι} (hi : presents i) (hj : presents j) {b : β} (hb : cell s = some b)
    (hchanged : cell (step s i) ≠ some b) (between : List ι) :
    cell (step (run step (step s i) between) j) = cell (run step (step s i) between) := by
  have hrev := hcas s i b hs hi hb hchanged
  obtain ⟨b₁, hb₁, hstep⟩ := hv s i b hs hb
  have hone : revision (step s i) b₁ = expected + 1 := by
    rcases hstep with ⟨rfl, _⟩ | heq
    · exact absurd hb₁ hchanged
    · rw [heq, hrev]
  obtain ⟨b₂, hb₂, hle⟩ := hv.revision_le hI (hI s i hs) hb₁ between
  rw [hb₂]
  by_contra hne
  have hlast := hcas _ j b₂ (invariant_run hI (hI s i hs) between) hj hb₂ hne
  omega

/-- A step that leaves the cell alone, or fills it, or replaces its content by the next revision. -/
def Advances (cell : σ → Option β) (revision : β → ℤ) (s s' : σ) : Prop :=
  ∀ b, cell s = some b → ∃ b', cell s' = some b' ∧ (b' = b ∨ revision b' = revision b + 1)

def Raises (cell : σ → Option β) (revision : β → ℤ) (n : ℤ) (s s' : σ) : Prop :=
  ∃ b b', cell s = some b ∧ revision b = n ∧ cell s' = some b' ∧ revision b' = n + 1

section Advances

variable {cell : σ → Option β} {revision : β → ℤ}

theorem revision_le_of_advances
    (h : EveryStep step (fun t i => Advances cell revision t (step t i)) s ops) {b : β} (hb : cell s = some b) :
    ∃ b', cell (run step s ops) = some b' ∧ revision b ≤ revision b' := by
  induction ops generalizing s b with
  | nil => exact ⟨b, hb, Int.le_refl _⟩
  | cons i ops ih =>
    obtain ⟨hi, htail⟩ := everyStep_cons.mp h
    obtain ⟨b₁, hb₁, hrev⟩ := hi b hb
    obtain ⟨b₂, hb₂, hle⟩ := ih htail hb₁
    refine ⟨b₂, hb₂, ?_⟩
    rcases hrev with rfl | hrev
    · exact hle
    · omega

/-- A run that passes a revision raises it in exactly one of its steps. -/
theorem existsUnique_raises (h : EveryStep step (fun t i => Advances cell revision t (step t i)) s ops) {n : ℤ} {b b' : β}
    (hb : cell s = some b) (hle : revision b ≤ n) (hend : cell (run step s ops) = some b') (hlt : n < revision b') :
    ∃! before, ∃ i after, ops = before ++ i :: after ∧
      Raises cell revision n (run step s before) (step (run step s before) i) := by
  induction ops generalizing s b with
  | nil =>
    rw [run_nil, hb, Option.some.injEq] at hend
    subst hend
    omega
  | cons i ops ih =>
    obtain ⟨hi, htail⟩ := everyStep_cons.mp h
    obtain ⟨b₁, hb₁, hrev⟩ := hi b hb
    rw [run_cons] at hend
    by_cases hpassed : revision b₁ ≤ n
    · -- the first step stays below, so the step is one of the others
      obtain ⟨before, ⟨j, after, hsplit, hraises⟩, hunique⟩ := ih htail hb₁ hpassed hend
      refine ⟨i :: before, ⟨j, after, by rw [hsplit, List.cons_append], hraises⟩, ?_⟩
      rintro before' ⟨j', after', hsplit', hraises'⟩
      cases before' with
      | nil =>
        cases hsplit'
        obtain ⟨x, y, _, _, hy, hrevy⟩ := hraises'
        rw [run_nil, hb₁, Option.some.injEq] at hy
        subst hy
        omega
      | cons i' before' =>
        cases hsplit'
        rw [hunique before' ⟨j', after', rfl, hraises'⟩]
    · -- the first step is the one, and no later state has the revision any more
      have hone : revision b = n ∧ revision b₁ = n + 1 := by
        rcases hrev with rfl | hrev
        · exact absurd hle hpassed
        · omega
      refine ⟨[], ⟨i, ops, rfl, b, b₁, hb, hone.1, hb₁, hone.2⟩, ?_⟩
      rintro before' ⟨j', after', hsplit', hraises'⟩
      cases before' with
      | nil => rfl
      | cons i' before' =>
        cases hsplit'
        obtain ⟨x, y, hx, hrevx, _, _⟩ := hraises'
        obtain ⟨z, hz, hlez⟩ := revision_le_of_advances (everyStep_append_left htail) hb₁
        rw [run_cons, hz, Option.some.injEq] at hx
        subst hx
        omega

end Advances

end Versioned

end MachineRuns
