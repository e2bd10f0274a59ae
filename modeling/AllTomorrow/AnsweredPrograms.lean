import AllTomorrow.ResumptionPrograms

/-!
# What a program does after an answer

`AfterAnswer` states that from a certain answer on a program only makes requests of one kind and
only returns values of another: an answer that rules out what would follow otherwise.
-/

namespace Prog

variable {A : Type} {R : A → Type} {α β ε : Type}

/-- After an answer of `bad` the program only makes requests of `ok` and only returns values of `Q`. -/
def AfterAnswer (bad : (a : A) → R a → Prop) (ok : A → Prop) (Q : α → Prop) : Prog A R α → Prop
  | .done _ => True
  | .act a rest => (∀ r, bad a r → OnlyRequests ok (rest r) ∧ OnlyReturns Q (rest r)) ∧
      ∀ r, AfterAnswer bad ok Q (rest r)

variable {bad : (a : A) → R a → Prop} {ok : A → Prop} {Q : α → Prop} {S : β → Prop}

theorem OnlyReturns.mono {Q' : α → Prop} {p : Prog A R α} (hp : OnlyReturns Q p) (h : ∀ a, Q a → Q' a) :
    OnlyReturns Q' p := by
  induction p with
  | done a => exact h a hp
  | act a rest ih => exact fun r => ih r (hp r)

theorem onlyReturns_true (p : Prog A R α) : OnlyReturns (fun _ => True) p := by
  induction p with
  | done a => trivial
  | act a rest ih => exact ih

theorem afterAnswer_of_requests {free : A → Prop} {p : Prog A R α} (hp : OnlyRequests free p)
    (hfree : ∀ a, free a → ∀ r, ¬bad a r) : AfterAnswer bad ok Q p := by
  induction p with
  | done a => trivial
  | act a rest ih => exact ⟨fun r hr => absurd hr (hfree a hp.1 r), fun r => ih r (hp.2 r)⟩

theorem afterAnswer_of_only {p : Prog A R α} (hp : OnlyRequests ok p) (hQ : OnlyReturns Q p) : AfterAnswer bad ok Q p := by
  induction p with
  | done a => trivial
  | act a rest ih => exact ⟨fun r _ => ⟨hp.2 r, hQ r⟩, fun r => ih r (hp.2 r) (hQ r)⟩

theorem AfterAnswer.mono {Q' : α → Prop} {p : Prog A R α} (hp : AfterAnswer bad ok Q p) (h : ∀ a, Q a → Q' a) :
    AfterAnswer bad ok Q' p := by
  induction p with
  | done a => trivial
  | act a rest ih => exact ⟨fun r hr => ⟨(hp.1 r hr).1, (hp.1 r hr).2.mono h⟩, fun r => ih r (hp.2 r)⟩

theorem AfterAnswer.bind {p : Prog A R α} {f : α → Prog A R β} (hp : AfterAnswer bad ok Q p)
    (hf : ∀ a, AfterAnswer bad ok S (f a)) (hQ : ∀ a, Q a → OnlyRequests ok (f a) ∧ OnlyReturns S (f a)) :
    AfterAnswer bad ok S (p >>= f) := by
  induction p with
  | done a => exact hf a
  | act a rest ih =>
    refine ⟨fun r hr => ?_, fun r => ih r (hp.2 r)⟩
    obtain ⟨hrequests, hreturns⟩ := hp.1 r hr
    change OnlyRequests ok (rest r >>= f) ∧ OnlyReturns S (rest r >>= f)
    clear hp ih
    generalize rest r = p at hrequests hreturns
    induction p with
    | done a => exact hQ a hreturns
    | act b rest' ih =>
      refine ⟨⟨hrequests.1, fun r' => (ih r' (hrequests.2 r') (hreturns r')).1⟩, fun r' => ?_⟩
      exact (ih r' (hrequests.2 r') (hreturns r')).2

/-! ## Raising programs -/

/-- A raising program that after such an answer raises or returns a value of `Q`. -/
def TaskAfter (bad : (a : A) → R a → Prop) (ok : A → Prop) (Q : α → Prop) (x : ExceptT ε (Prog A R) α) : Prop :=
  AfterAnswer bad ok (fun result => ∀ a, result = .ok a → Q a) x.run

/-- It raises or returns a value of `Q`. -/
def TaskReturns (Q : α → Prop) (x : ExceptT ε (Prog A R) α) : Prop :=
  OnlyReturns (fun result => ∀ a, result = .ok a → Q a) x.run

theorem taskReturns_pure {a : α} (h : Q a) : TaskReturns Q (pure a : ExceptT ε (Prog A R) α) := by
  rintro b ⟨⟩
  exact h

variable {x : ExceptT ε (Prog A R) α} {f : α → ExceptT ε (Prog A R) β}

theorem TaskReturns.bind (hx : TaskReturns Q x) (hf : ∀ a, Q a → TaskReturns S (f a)) : TaskReturns S (x >>= f) := by
  refine OnlyReturns.bind hx ?_
  intro result hresult
  cases result with
  | ok a => exact hf a (hresult a rfl)
  | error e =>
    rintro b ⟨⟩

theorem taskReturns_true (x : ExceptT ε (Prog A R) α) : TaskReturns (fun _ => True) x :=
  (onlyReturns_true x.run).mono fun _ _ _ _ => trivial

theorem taskAfter_of_requests {free : A → Prop} (hx : TaskRequests free x)
    (hfree : ∀ a, free a → ∀ r, ¬bad a r) : TaskAfter bad ok Q x := afterAnswer_of_requests hx hfree

theorem taskAfter_of_only (hx : TaskRequests ok x) (hQ : TaskReturns Q x) : TaskAfter bad ok Q x := afterAnswer_of_only hx hQ

theorem taskAfter_pure {a : α} : TaskAfter bad ok Q (pure a : ExceptT ε (Prog A R) α) := trivial

theorem taskAfter_throw {e : ε} : TaskAfter bad ok Q (throw e : ExceptT ε (Prog A R) α) := trivial

theorem TaskAfter.bind (hx : TaskAfter bad ok Q x)
    (hf : ∀ a, TaskAfter bad ok S (f a)) (hQ : ∀ a, Q a → TaskRequests ok (f a) ∧ TaskReturns S (f a)) :
    TaskAfter bad ok S (x >>= f) := by
  refine AfterAnswer.bind hx ?_ ?_
  · intro result
    cases result with
    | ok a => exact hf a
    | error e => trivial
  · intro result hresult
    cases result with
    | ok a => exact hQ a (hresult a rfl)
    | error e =>
      refine ⟨trivial, ?_⟩
      rintro b ⟨⟩

/-- After a request of `last` the program returns a value of `Q` of that request, and without one a value of `N`. -/
def ClosesWith (last : A → Prop) (Q : A → α → Prop) (N : α → Prop) : Prog A R α → Prop
  | .done a => N a
  | .act a rest => (last a → ∀ r, ∃ value, rest r = .done value ∧ Q a value) ∧
      (¬last a → ∀ r, ClosesWith last Q N (rest r))

variable {last : A → Prop} {N : β → Prop}

variable {C : A → β → Prop}

theorem closesWith_bind {p : Prog A R α} {f : α → Prog A R β} (hp : OnlyRequests (fun a => ¬last a) p)
    (hQ : OnlyReturns Q p) (hf : ∀ a, Q a → ClosesWith last C N (f a)) : ClosesWith last C N (p >>= f) := by
  induction p with
  | done a => exact hf a hQ
  | act a rest ih => exact ⟨fun ha => absurd ha hp.1, fun _ r => ih r (hp.2 r) (hQ r)⟩

/-- A raising program that returns a value of `C` after such a request, and without one raises or returns a value of
`N`. -/
def TaskCloses (last : A → Prop) (C : A → α → Prop) (N : α → Prop) (x : ExceptT ε (Prog A R) α) : Prop :=
  ClosesWith last (fun a result => ∃ value, result = .ok value ∧ C a value) (fun result => ∀ value, result = .ok value → N value)
    x.run

theorem taskCloses_pure {b : β} (h : N b) : TaskCloses last C N (pure b : ExceptT ε (Prog A R) β) := by
  rintro value ⟨⟩
  exact h

theorem taskCloses_throw {e : ε} : TaskCloses last C N (throw e : ExceptT ε (Prog A R) β) := by
  rintro value ⟨⟩

theorem taskCloses_bind
    (hx : TaskRequests (fun a => ¬last a) x) (hQ : TaskReturns Q x) (hf : ∀ a, Q a → TaskCloses last C N (f a)) :
    TaskCloses last C N (x >>= f) := by
  refine closesWith_bind hx hQ fun result hresult => ?_
  cases result with
  | ok a => exact hf a (hresult a rfl)
  | error e =>
    rintro value ⟨⟩

section Pools

variable {σ ι : Type} [DecidableEq ι] {h : Handler A R σ} {p : Pool ι A R α σ}

theorem onlyRequests_step {i : ι} (hi : OnlyRequests ok (p.threads i)) (j : ι) :
    OnlyRequests ok ((p.step h j).threads i) := by
  rw [Pool.step_threads]
  by_cases hij : i = j
  · subst hij
    rw [Function.update_self]
    cases hp : p.threads i with
    | done a => trivial
    | act a rest =>
      rw [hp] at hi
      exact hi.2 _
  · rwa [Function.update_of_ne hij]

theorem afterAnswer_step {i : ι} (hi : AfterAnswer bad ok Q (p.threads i)) (j : ι) :
    AfterAnswer bad ok Q ((p.step h j).threads i) := by
  rw [Pool.step_threads]
  by_cases hij : i = j
  · subst hij
    rw [Function.update_self]
    cases hp : p.threads i with
    | done a => trivial
    | act a rest =>
      rw [hp] at hi
      exact hi.2 _
  · rwa [Function.update_of_ne hij]

end Pools

end Prog
