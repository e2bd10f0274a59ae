import AllTomorrow.ResumptionPrograms
import AllTomorrow.MachineRuns
import Mathlib.Logic.Relation

/-!
# Programs that run beside others

A contract says what the steps of other programs may do to the state, on which
condition a program makes its own requests, and what it promises of each. `Meets`
is the predicate that a program keeps its contract from a state on; it survives the
steps of a pool, and triples derive it from the parts of a program.
-/

namespace Prog

open MachineRuns (EveryStep invariant_of_everyStep run_append run_cons run_nil)

variable {A : Type} {R : A → Type} {α β σ ε ι : Type}

/-- `rely` bounds the steps of others, `assume` is the condition under which a request is
made, and `guar` what holds whenever one is made. -/
structure Contract (A σ : Type) where
  rely : σ → σ → Prop
  assume : σ → A → Prop
  guar : σ → A → Prop

abbrev Contract.Relied (c : Contract A σ) : σ → σ → Prop := Relation.ReflTransGen c.rely

/-- From this state on the program keeps its promises, and ends in `Q`. -/
def Meets (h : Handler A R σ) (c : Contract A σ) (Q : α → σ → Prop) : Prog A R α → σ → Prop
  | .done a, s => ∀ s', c.Relied s s' → Q a s'
  | .act a rest, s => ∀ s', c.Relied s s' → c.assume s' a → c.guar s' a ∧ Meets h c Q (rest (h a s').1) (h a s').2

variable {h : Handler A R σ} {c : Contract A σ} {Q : α → σ → Prop}

theorem Meets.relied {p : Prog A R α} {s s' : σ} (hp : Meets h c Q p s) (hs : c.Relied s s') : Meets h c Q p s' := by
  cases p with
  | done a => exact fun s'' hs'' => hp s'' (hs.trans hs'')
  | act a rest => exact fun s'' hs'' => hp s'' (hs.trans hs'')

variable {s : σ}

theorem Meets.act {a : A} {rest : R a → Prog A R α} (hp : Meets h c Q (.act a rest) s) (ha : c.assume s a) :
    c.guar s a ∧ Meets h c Q (rest (h a s).1) (h a s).2 := hp s .refl ha

theorem Meets.done {a : α} (hp : Meets h c Q (.done a) s) : Q a s := hp s .refl

theorem Meets.mono {S : α → σ → Prop} {p : Prog A R α} (hp : Meets h c Q p s) (hQ : ∀ a s, Q a s → S a s) :
    Meets h c S p s := by
  induction p generalizing s with
  | done a => exact fun s' hs => hQ a s' (hp s' hs)
  | act a rest ih => exact fun s' hs ha => ⟨(hp s' hs ha).1, ih _ (hp s' hs ha).2⟩

theorem Meets.bind {S : β → σ → Prop} {p : Prog A R α} {f : α → Prog A R β} (hp : Meets h c Q p s)
    (hf : ∀ a s', Q a s' → Meets h c S (f a) s') : Meets h c S (p >>= f) s := by
  induction p generalizing s with
  | done a => exact hf a s hp.done
  | act a rest ih => exact fun s' hs ha => ⟨(hp s' hs ha).1, ih _ (hp s' hs ha).2⟩

/-! ## One program alone -/

/-- Every request that the program makes when it runs alone from this state meets the condition. -/
def EveryRequest (h : Handler A R σ) (P : σ → A → Prop) : Prog A R α → σ → Prop
  | .done _, _ => True
  | .act a rest, s => P s a ∧ EveryRequest h P (rest (h a s).1) (h a s).2

instance decidableEveryRequest {P : σ → A → Prop} [∀ s a, Decidable (P s a)] :
    (p : Prog A R α) → (s : σ) → Decidable (EveryRequest h P p s)
  | .done _, _ => isTrue trivial
  | .act a rest, s => @instDecidableAnd _ _ inferInstance (decidableEveryRequest (rest (h a s).1) (h a s).2)

theorem everyRequest_true (p : Prog A R α) (s : σ) : EveryRequest h (fun _ _ => True) p s := by
  induction p generalizing s with
  | done a => trivial
  | act a rest ih => exact ⟨trivial, ih _ _⟩

/-- A program that runs alone, and makes its requests on the condition of its contract, keeps its promises. -/
theorem Meets.alone {p : Prog A R α} (hp : Meets h c Q p s) (hrequests : EveryRequest h c.assume p s) :
    EveryRequest h c.guar p s ∧ Q (p.eval h s).1 (p.eval h s).2 := by
  induction p generalizing s with
  | done a => exact ⟨trivial, hp.done⟩
  | act a rest ih =>
    obtain ⟨hguar, hnext⟩ := hp.act hrequests.1
    obtain ⟨hrest, hend⟩ := ih _ hnext hrequests.2
    exact ⟨⟨hguar, hrest⟩, hend⟩

/-! ## Pools -/

section Pools

/-- The request that a step makes meets the condition, in the state in which it is made. -/
def Pool.StepMeets (P : σ → A → Prop) (p : Pool ι A R α σ) (i : ι) : Prop :=
  ∀ a rest, p.threads i = .act a rest → P p.state a

variable {p : Pool ι A R α σ} {i : ι}

theorem stepMeets_of_thread {P : σ → A → Prop} :
    (match p.threads i with
      | .done _ => True
      | .act a _ => P p.state a) ↔ p.StepMeets P i := by
  unfold Pool.StepMeets
  cases p.threads i with
  | done r => simp
  | act a rest =>
    constructor
    · intro h b rest' heq
      cases heq
      exact h
    · intro h
      exact h a rest rfl

instance decidableStepMeets {P : σ → A → Prop} [∀ s a, Decidable (P s a)] (p : Pool ι A R α σ) (i : ι) :
    Decidable (p.StepMeets P i) :=
  @decidable_of_iff _ _ stepMeets_of_thread
    (match p.threads i with
      | .done _ => isTrue trivial
      | .act a _ => inferInstanceAs (Decidable (P p.state a)))

variable [DecidableEq ι]

/-- The condition that a contract for thread `i` puts on a step of a pool. -/
def Respects (h : Handler A R σ) (c : Contract A σ) (i : ι) (p : Pool ι A R α σ) (j : ι) : Prop :=
  (j = i → ∀ a rest, p.threads i = .act a rest → c.assume p.state a) ∧ (j ≠ i → c.Relied p.state (p.step h j).state)

theorem Pool.step_self (p : Pool ι A R α σ) (i : ι) : (p.step h i).threads i = (advance h (p.threads i) p.state).1 := by
  rw [Pool.step_threads, Function.update_self]

theorem Pool.step_other (p : Pool ι A R α σ) {i j : ι} (hne : j ≠ i) : (p.step h j).threads i = p.threads i := by
  rw [Pool.step_threads, Function.update_of_ne hne.symm]

theorem Pool.step_done {r : α} (hdone : p.threads i = .done r) : p.step h i = p := by
  simp only [Pool.step, hdone, advance]
  rw [← hdone, Function.update_eq_self]

theorem Pool.step_act {a : A} {rest : R a → Prog A R α} (hact : p.threads i = .act a rest) :
    (p.step h i).threads i = rest (h a p.state).1 ∧ (p.step h i).state = (h a p.state).2 := by
  rw [Pool.step_self]
  simp only [Pool.step, hact, advance, and_self]

theorem Meets.step {i j : ι} (hp : Meets h c Q (p.threads i) p.state)
    (hj : Respects h c i p j) : Meets h c Q ((p.step h j).threads i) (p.step h j).state := by
  by_cases hji : j = i
  · subst hji
    rw [Pool.step_self]
    change Meets h c Q _ (advance h (p.threads j) p.state).2
    have hassume := hj.1 rfl
    cases hthread : p.threads j with
    | done a =>
      rw [hthread] at hp
      exact hp
    | act a rest =>
      rw [hthread] at hp
      exact (hp.act (hassume a rest hthread)).2
  · rw [Pool.step_other p hji]
    exact hp.relied (hj.2 hji)

variable {schedule : List ι}

theorem Meets.run (hp : Meets h c Q (p.threads i) p.state) (hrun : EveryStep (Pool.step h) (Respects h c i) p schedule) :
    Meets h c Q ((MachineRuns.run (Pool.step h) p schedule).threads i) (MachineRuns.run (Pool.step h) p schedule).state :=
  invariant_of_everyStep (I := fun p : Pool ι A R α σ => Meets h c Q (p.threads i) p.state)
    (fun _ _ hm hstep => hm.step hstep) hp hrun

/-- Parallel composition: `J` holds throughout and every thread keeps its contract, if each step
that a contract promises keeps `J` and is one that the other contracts rely on. -/
theorem Pool.parallel {contract : ι → Contract A σ} {J : σ → Prop} {P : Pool ι A R α σ → ι → Prop} {post : ι → α → σ → Prop}
    (hassume : ∀ p i a rest, J p.state → P p i → p.threads i = .act a rest → (contract i).assume p.state a)
    (hstep : ∀ i a s, J s → (contract i).assume s a → (contract i).guar s a →
      J (h a s).2 ∧ ∀ j, j ≠ i → (contract j).rely s (h a s).2) (hJ : J p.state) (hp : ∀ i, Meets h (contract i) (post i) (p.threads i) p.state) (hrun : EveryStep (Pool.step h) P p schedule) :
    J (MachineRuns.run (Pool.step h) p schedule).state ∧
      ∀ i, Meets h (contract i) (post i) ((MachineRuns.run (Pool.step h) p schedule).threads i)
        (MachineRuns.run (Pool.step h) p schedule).state := by
  refine invariant_of_everyStep
    (I := fun q : Pool ι A R α σ => J q.state ∧ ∀ i, Meets h (contract i) (post i) (q.threads i) q.state)
    ?_ ⟨hJ, hp⟩ hrun
  rintro q i ⟨hq, hmeets⟩ hP
  cases hthread : q.threads i with
  | done r =>
    rw [Pool.step_done hthread]
    exact ⟨hq, hmeets⟩
  | act a rest =>
    have ha := hassume q i a rest hq hP hthread
    have hi := hmeets i
    rw [hthread] at hi
    obtain ⟨hguar, hnext⟩ := hi.act ha
    have hstate : (q.step h i).state = (h a q.state).2 := (Pool.step_act hthread).2
    obtain ⟨hJ', hothers⟩ := hstep i a q.state hq ha hguar
    rw [hstate]
    refine ⟨hJ', ?_⟩
    intro j
    by_cases hji : j = i
    · subst hji
      rw [Pool.step_self, hthread]
      exact hnext
    · rw [Pool.step_other q (Ne.symm hji)]
      exact (hmeets j).relied (.single (hothers j hji))

theorem Pool.run_other (p : Pool ι A R α σ) (hi : i ∉ schedule) :
    (MachineRuns.run (Pool.step h) p schedule).threads i = p.threads i := by
  induction schedule generalizing p with
  | nil => rfl
  | cons j schedule ih =>
    rw [List.mem_cons, not_or] at hi
    rw [run_cons, ih _ hi.2, Pool.step_other p (Ne.symm hi.1)]

theorem Pool.run_done {r : α} (hdone : p.threads i = .done r) (schedule : List ι) :
    (MachineRuns.run (Pool.step h) p schedule).threads i = .done r := by
  induction schedule generalizing p with
  | nil => exact hdone
  | cons j schedule ih =>
    refine ih ?_
    by_cases hji : j = i
    · subst hji
      rw [Pool.step_self, hdone]
      rfl
    · rw [Pool.step_other p hji, hdone]

theorem Pool.first_request {a : A} {rest : R a → Prog A R α} (hstart : p.threads i = .act a rest) (hmem : i ∈ schedule) :
    ∃ before after, schedule = before ++ i :: after ∧ i ∉ before ∧
      (MachineRuns.run (Pool.step h) p (before ++ [i])).threads i =
        rest (h a (MachineRuns.run (Pool.step h) p before).state).1 ∧
      (MachineRuns.run (Pool.step h) p (before ++ [i])).state = (h a (MachineRuns.run (Pool.step h) p before).state).2 := by
  obtain ⟨before, after, hsplit, hi⟩ := List.eq_append_cons_of_mem hmem
  have hthread : (MachineRuns.run (Pool.step h) p before).threads i = .act a rest := by
    rw [Pool.run_other p hi, hstart]
  refine ⟨before, after, hsplit, hi, ?_, ?_⟩
  · rw [run_append, run_cons, run_nil, Pool.step_self, hthread]
    rfl
  · rw [run_append, run_cons, run_nil, Pool.step, hthread]
    rfl

theorem Pool.split_request {a : A} {rest : R a → Prog A R α} (hstart : p.threads i = .act a rest) {r : α}
    (hend : (MachineRuns.run (Pool.step h) p schedule).threads i = .done r) :
    ∃ before after, schedule = before ++ i :: after ∧ i ∉ before ∧
      (MachineRuns.run (Pool.step h) p (before ++ [i])).threads i =
        rest (h a (MachineRuns.run (Pool.step h) p before).state).1 ∧
      (MachineRuns.run (Pool.step h) p (before ++ [i])).state = (h a (MachineRuns.run (Pool.step h) p before).state).2 := by
  refine Pool.first_request hstart ?_
  by_contra hi
  rw [Pool.run_other p hi, hstart] at hend
  cases hend

end Pools

/-! ## Triples -/

/-- `P` is not disturbed by the others. -/
def Stable (c : Contract A σ) (P : σ → Prop) : Prop := ∀ s s', c.rely s s' → P s → P s'

theorem Stable.relied {P : σ → Prop} (hP : Stable c P) {s s' : σ} (hs : c.Relied s s') (hs₀ : P s) : P s' := by
  induction hs with
  | refl => exact hs₀
  | tail _ hstep ih => exact hP _ _ hstep ih

theorem Stable.and {P P' : σ → Prop} (hP : Stable c P) (hP' : Stable c P') : Stable c fun s => P s ∧ P' s :=
  fun s s' hs h => ⟨hP s s' hs h.1, hP' s s' hs h.2⟩

theorem Stable.or {P P' : σ → Prop} (hP : Stable c P) (hP' : Stable c P') : Stable c fun s => P s ∨ P' s :=
  fun s s' hs h => h.imp (hP s s' hs) (hP' s s' hs)

theorem stable_const (q : Prop) : Stable c fun _ => q := fun _ _ _ hq => hq

theorem stable_forall {κ : Sort*} {P : κ → σ → Prop} (hP : ∀ k, Stable c (P k)) : Stable c fun s => ∀ k, P k s :=
  fun s s' hs h k => hP k s s' hs (h k)

def Outcome (Q : α → σ → Prop) (E : ε → σ → Prop) : Except ε α → σ → Prop
  | .ok a, s => Q a s
  | .error e, s => E e s

theorem outcome_const {I : σ → Prop} {r : Except ε α} : Outcome (fun _ => I) (fun _ => I) r s ↔ I s := by
  cases r <;> exact Iff.rfl

/-- From `P` the program keeps its contract and ends in `Q`, or raises in `E`. -/
def Triple (h : Handler A R σ) (c : Contract A σ) (P : σ → Prop) (x : ExceptT ε (Prog A R) α) (Q : α → σ → Prop)
    (E : ε → σ → Prop) : Prop :=
  ∀ s, P s → Meets h c (Outcome Q E) x.run s

section Triples

variable {P P' : σ → Prop} {S : β → σ → Prop} {E : ε → σ → Prop}

theorem triple_pure {a : α} (hstable : Stable c (Q a)) (ha : ∀ s, P s → Q a s) :
    Triple h c P (pure a : ExceptT ε (Prog A R) α) Q E :=
  fun s hs _ hs' => hstable.relied hs' (ha s hs)

theorem triple_throw {e : ε} (hstable : Stable c (E e)) (he : ∀ s, P s → E e s) :
    Triple h c P (throw e : ExceptT ε (Prog A R) α) Q E :=
  fun s hs _ hs' => hstable.relied hs' (he s hs)

variable {x : ExceptT ε (Prog A R) α}

theorem Triple.bind {f : α → ExceptT ε (Prog A R) β} (hx : Triple h c P x Q E)
    (hE : ∀ e, Stable c (E e)) (hf : ∀ a, Triple h c (Q a) (f a) S E) : Triple h c P (x >>= f) S E := by
  intro s hs
  refine (hx s hs).bind ?_
  intro r s' hr
  cases r with
  | ok a => exact hf a s' hr
  | error e => exact fun s'' hs'' => (hE e).relied hs'' hr

theorem Triple.weaken (hx : Triple h c P x Q E) (hP : ∀ s, P' s → P s) : Triple h c P' x Q E := fun s hs => hx s (hP s hs)

variable {E' : ε → σ → Prop}

theorem Triple.conseq {Q' : α → σ → Prop} (hx : Triple h c P x Q E)
    (hQ : ∀ a s, Q a s → Q' a s) (hE : ∀ e s, E e s → E' e s) : Triple h c P x Q' E' := by
  intro s hs
  refine (hx s hs).mono ?_
  intro r s' hr
  cases r with
  | ok a => exact hQ a s' hr
  | error e => exact hE e s' hr

theorem Triple.attempt (hx : Triple h c P x Q E) (hQ : ∀ a, Stable c (Q a))
    (hE : ∀ e, Stable c (E e)) : Triple h c P (Prog.attempt x) (Outcome Q E) E' := by
  intro s hs
  refine (hx s hs).bind ?_
  intro r s' hr s'' hs''
  cases r with
  | ok a => exact (hQ a).relied hs'' hr
  | error e => exact (hE e).relied hs'' hr

theorem Triple.attempt_const {I : σ → Prop} (hx : Triple h c P x (fun _ => I) (fun _ => I)) (hI : Stable c I) :
    Triple h c P (Prog.attempt x) (fun _ => I) E :=
  (hx.attempt (fun _ => hI) fun _ => hI).conseq (fun _ _ hr => outcome_const.mp hr) fun _ _ he => he

section Frames

variable {ok : A → Prop} {F : σ → Prop}

theorem Meets.frame {p : Prog A R α} (hp : Meets h c Q p s) (hreq : OnlyRequests ok p)
    (hown : ∀ a s, ok a → c.assume s a → F s → F (h a s).2) (hF : Stable c F) (hs : F s) :
    Meets h c (fun a s => Q a s ∧ F s) p s := by
  induction p generalizing s with
  | done a => exact fun s' hs' => ⟨hp s' hs', hF.relied hs' hs⟩
  | act a rest ih =>
    intro s' hs' ha
    obtain ⟨hguar, hnext⟩ := hp s' hs' ha
    exact ⟨hguar, ih _ hnext (hreq.2 _) (hown a s' hreq.1 ha (hF.relied hs' hs))⟩

theorem Triple.frame {x : ExceptT ε (Prog A R) α} (hx : Triple h c P x Q E) (hreq : TaskRequests ok x)
    (hown : ∀ a s, ok a → c.assume s a → F s → F (h a s).2) (hF : Stable c F) :
    Triple h c (fun s => P s ∧ F s) x (fun a s => Q a s ∧ F s) (fun e s => E e s ∧ F s) := by
  rintro s ⟨hP, hs⟩
  refine ((hx s hP).frame hreq hown hF hs).mono ?_
  intro r s' hr
  cases r with
  | ok a => exact hr
  | error e => exact hr

theorem triple_of_requests {x : ExceptT ε (Prog A R) α} (hreq : TaskRequests ok x)
    (hown : ∀ a s, ok a → c.assume s a → F s → F (h a s).2) (hF : Stable c F)
    (hguar : ∀ a s, ok a → c.assume s a → c.guar s a) : Triple h c F x (fun _ => F) (fun _ => F) := by
  have hmeets : ∀ (p : Prog A R (Except ε α)) (s : σ), OnlyRequests ok p → Meets h c (fun _ _ => True) p s := by
    intro p
    induction p with
    | done a => exact fun _ _ _ _ => trivial
    | act a rest ih => exact fun s hp s' _ ha => ⟨hguar a s' hp.1 ha, ih _ _ (hp.2 _)⟩
  intro s hs
  refine ((hmeets x.run s hreq).frame hreq hown hF hs).mono ?_
  exact fun _ _ hr => outcome_const.mpr hr.2

end Frames

theorem triple_request {a : A} {answer : R a → Except ε α} (hP : Stable c P) (hQ : ∀ v, Stable c (Q v))
    (hE : ∀ e, Stable c (E e)) (hstep : ∀ s, P s → c.assume s a → c.guar s a ∧ Outcome Q E (answer (h a s).1) (h a s).2) :
    Triple h c P (ExceptT.mk (.act a fun r => .done (answer r)) : ExceptT ε (Prog A R) α) Q E := by
  intro s hs s' hs' ha
  obtain ⟨hguar, hout⟩ := hstep s' (hP.relied hs' hs) ha
  refine ⟨hguar, ?_⟩
  intro s'' hs''
  cases hanswer : answer (h a s').1 with
  | ok v =>
    rw [hanswer] at hout
    exact (hQ v).relied hs'' hout
  | error e =>
    rw [hanswer] at hout
    exact (hE e).relied hs'' hout

end Triples

end Prog
