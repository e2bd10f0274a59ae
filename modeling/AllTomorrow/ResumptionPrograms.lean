import Mathlib.Data.Nat.Notation
import Mathlib.Logic.Function.Basic

/-!
# Programs as trees of requests

A program either has finished or requests one action and continues with its
answer. A handler answers each action against a shared state. One program can
then be run to its end, stopped after any number of actions (a crash), or
interleaved with others, one request at a time.
-/

/-- Requests `a : A` are answered by a value of `R a`. -/
inductive Prog (A : Type) (R : A → Type) (α : Type) : Type where
  | done (value : α) : Prog A R α
  | act (a : A) (rest : R a → Prog A R α) : Prog A R α

namespace Prog

variable {A : Type} {R : A → Type} {α β σ ε : Type}

def bind : Prog A R α → (α → Prog A R β) → Prog A R β
  | .done a, f => f a
  | .act a rest, f => .act a fun r => (rest r).bind f

instance : Monad (Prog A R) where
  pure := .done
  bind := Prog.bind

abbrev Handler (A : Type) (R : A → Type) (σ : Type) := (a : A) → σ → R a × σ

def eval (h : Handler A R σ) : Prog A R α → σ → α × σ
  | .done a, s => (a, s)
  | .act a rest, s => (rest (h a s).1).eval h (h a s).2

/-- The state in which a program stands after at most `n` actions. -/
def cut (h : Handler A R σ) : ℕ → Prog A R α → σ → σ
  | 0, _, s => s
  | _ + 1, .done _, s => s
  | n + 1, .act a rest, s => cut h n (rest (h a s).1) (h a s).2

@[simp] theorem cut_zero (h : Handler A R σ) (p : Prog A R α) (s : σ) : p.cut h 0 s = s := by
  cases p <;> rfl

theorem eval_bind (h : Handler A R σ) (p : Prog A R α) (f : α → Prog A R β) (s : σ) :
    (p >>= f).eval h s = (f (p.eval h s).1).eval h (p.eval h s).2 := by
  induction p generalizing s with
  | done a => rfl
  | act a rest ih => exact ih (h a s).1 (h a s).2

/-- The same program where its requests are requests of a larger system. -/
def relabel {B : Type} {S : B → Type} (f : A → B) (back : (a : A) → S (f a) → R a) : Prog A R α → Prog B S α
  | .done a => .done a
  | .act a rest => .act (f a) fun r => (rest (back a r)).relabel f back

/-! ## Programs that raise -/

def attempt (x : ExceptT ε (Prog A R) α) : ExceptT ε (Prog A R) (Except ε α) :=
  ExceptT.lift x.run

def evalTask (h : Handler A R σ) (x : ExceptT ε (Prog A R) α) (s : σ) : Except ε α × σ := x.run.eval h s

/-- The state in which a raising program stands after at most `n` actions. -/
def cutTask (h : Handler A R σ) (n : ℕ) (x : ExceptT ε (Prog A R) α) (s : σ) : σ := x.run.cut h n s

@[simp] theorem cutTask_zero (h : Handler A R σ) (x : ExceptT ε (Prog A R) α) (s : σ) : cutTask h 0 x s = s :=
  cut_zero h x.run s

@[simp] theorem evalTask_pure (h : Handler A R σ) (a : α) (s : σ) :
    evalTask h (pure a : ExceptT ε (Prog A R) α) s = (.ok a, s) := rfl

@[simp] theorem evalTask_throw (h : Handler A R σ) (e : ε) (s : σ) :
    evalTask h (throw e : ExceptT ε (Prog A R) α) s = (.error e, s) := rfl

theorem evalTask_bind (h : Handler A R σ) (x : ExceptT ε (Prog A R) α) (f : α → ExceptT ε (Prog A R) β) (s : σ) :
    evalTask h (x >>= f) s =
      match evalTask h x s with
      | (.ok a, s') => evalTask h (f a) s'
      | (.error e, s') => (.error e, s') := by
  refine (eval_bind h x.run (ExceptT.bindCont f) s).trans ?_
  unfold evalTask
  cases x.run.eval h s with
  | mk result s' => cases result <;> rfl

variable {x : ExceptT ε (Prog A R) α}

theorem evalTask_bind_ok {h : Handler A R σ} {s s' : σ} {a : α}
    (hx : evalTask h x s = (.ok a, s')) (f : α → ExceptT ε (Prog A R) β) : evalTask h (x >>= f) s = evalTask h (f a) s' := by
  rw [evalTask_bind, hx]

theorem evalTask_bind_error {h : Handler A R σ} {s s' : σ} {e : ε}
    (hx : evalTask h x s = (.error e, s')) (f : α → ExceptT ε (Prog A R) β) : evalTask h (x >>= f) s = (.error e, s') := by
  rw [evalTask_bind, hx]

theorem evalTask_bind_pure_state (h : Handler A R σ) (x : ExceptT ε (Prog A R) α) (f : α → β) (s : σ) :
    (evalTask h (x >>= fun a => pure (f a)) s).2 = (evalTask h x s).2 := by
  rw [evalTask_bind]
  cases evalTask h x s with
  | mk result s' => cases result <;> rfl

theorem evalTask_attempt (h : Handler A R σ) (x : ExceptT ε (Prog A R) α) (s : σ) :
    evalTask h (attempt x) s = (.ok (evalTask h x s).1, (evalTask h x s).2) :=
  eval_bind h x.run (fun result => Prog.done (Except.ok result)) s

/-! ## What a program can request -/

/-- Whatever it is answered, the program only returns values of `ok`. -/
def OnlyReturns (ok : α → Prop) : Prog A R α → Prop
  | .done a => ok a
  | .act _ rest => ∀ r, OnlyReturns ok (rest r)

variable {p : Prog A R α}

theorem OnlyReturns.bind {ok : α → Prop} {ok' : β → Prop} {f : α → Prog A R β}
    (hp : OnlyReturns ok p) (hf : ∀ a, ok a → OnlyReturns ok' (f a)) : OnlyReturns ok' (p >>= f) := by
  induction p with
  | done a => exact hf a hp
  | act a rest ih => exact fun r => ih r (hp r)

/-- Whatever it is answered, the program only makes requests of `ok`. -/
def OnlyRequests (ok : A → Prop) : Prog A R α → Prop
  | .done _ => True
  | .act a rest => ok a ∧ ∀ r, OnlyRequests ok (rest r)

def TaskRequests (ok : A → Prop) (x : ExceptT ε (Prog A R) α) : Prop := OnlyRequests ok x.run

variable {ok : A → Prop}

theorem OnlyRequests.bind {f : α → Prog A R β} (hp : OnlyRequests ok p)
    (hf : ∀ a, OnlyRequests ok (f a)) : OnlyRequests ok (p >>= f) := by
  induction p with
  | done a => exact hf a
  | act a rest ih => exact ⟨hp.1, fun r => ih r (hp.2 r)⟩

theorem OnlyRequests.mono {ok' : A → Prop} (hp : OnlyRequests ok p) (h : ∀ a, ok a → ok' a) : OnlyRequests ok' p := by
  induction p with
  | done a => trivial
  | act a rest ih => exact ⟨h a hp.1, fun r => ih r (hp.2 r)⟩

theorem onlyRequests_true (p : Prog A R α) : OnlyRequests (fun _ => True) p := by
  induction p with
  | done a => trivial
  | act a rest ih => exact ⟨trivial, ih⟩

theorem onlyRequests_relabel {B : Type} {S : B → Type} {ok : B → Prop} {f : A → B} {back : (a : A) → S (f a) → R a}
    (hf : ∀ a, ok (f a)) (p : Prog A R α) : OnlyRequests ok (p.relabel f back) := by
  induction p with
  | done a => trivial
  | act a rest ih => exact ⟨hf a, fun r => ih (back a r)⟩

theorem taskRequests_pure {a : α} : TaskRequests ok (pure a : ExceptT ε (Prog A R) α) := trivial

theorem taskRequests_throw {e : ε} : TaskRequests ok (throw e : ExceptT ε (Prog A R) α) := trivial

variable {f : α → ExceptT ε (Prog A R) β}

theorem TaskRequests.bind (hx : TaskRequests ok x) (hf : ∀ a, TaskRequests ok (f a)) : TaskRequests ok (x >>= f) := by
  refine OnlyRequests.bind hx ?_
  intro r
  cases r with
  | ok a => exact hf a
  | error e => trivial

theorem TaskRequests.attempt (hx : TaskRequests ok x) : TaskRequests ok (Prog.attempt x) :=
  OnlyRequests.bind hx fun _ => trivial

theorem taskRequests_ofExcept {x : Except ε α} (hf : ∀ a, x = .ok a → TaskRequests ok (f a)) :
    TaskRequests ok ((MonadExcept.ofExcept x : ExceptT ε (Prog A R) α) >>= f) := by
  cases x with
  | ok a => exact hf a rfl
  | error e => trivial

/-- Whatever it is answered, the program raises at once when an answer is one of `bad`. -/
def StopsOn (bad : (a : A) → R a → Prop) : Prog A R (Except ε α) → Prop
  | .done _ => True
  | .act a rest => (∀ r, bad a r → ∃ e, rest r = .done (.error e)) ∧ ∀ r, StopsOn bad (rest r)

variable {bad : (a : A) → R a → Prop}

theorem stopsOn_bind (hx : StopsOn bad x.run) (hf : ∀ a, StopsOn bad (f a).run) : StopsOn bad (x >>= f).run := by
  change StopsOn bad (x.run >>= ExceptT.bindCont f)
  generalize x.run = p at hx
  induction p with
  | done r =>
    cases r with
    | ok a => exact hf a
    | error e => trivial
  | act a rest ih =>
    refine ⟨?_, fun r => ih r (hx.2 r)⟩
    intro r hr
    obtain ⟨e, he⟩ := hx.1 r hr
    exact ⟨e, congrArg (fun q : Prog A R (Except ε α) => q >>= ExceptT.bindCont f) he⟩

theorem stopsOn_attempt (hx : TaskRequests ok x) (hok : ∀ a, ok a → ∀ r, ¬bad a r) : StopsOn bad (Prog.attempt x).run := by
  change OnlyRequests ok x.run at hx
  change StopsOn bad (x.run >>= fun r => (Prog.done (.ok r) : Prog A R (Except ε (Except ε α))))
  generalize x.run = p at hx
  induction p with
  | done r => trivial
  | act a rest ih => exact ⟨fun r hr => absurd hr (hok a hx.1 r), fun r => ih r (hx.2 r)⟩

/-- A program that, answered in states of `J`, ends in `fails` at once when it makes a request that is `bad` in
the state in which it makes it. -/
def FailsOn (h : Handler A R σ) (J : σ → Prop) (bad : σ → A → Prop) (fails : α → σ → Prop) : Prog A R α → Prop
  | .done _ => True
  | .act a rest => ∀ s, J s → (bad s a → ∃ r, rest (h a s).1 = .done r ∧ fails r (h a s).2) ∧
      FailsOn h J bad fails (rest (h a s).1)

section FailsOn

variable {h : Handler A R σ} {J : σ → Prop} {bad : σ → A → Prop}

theorem failsOn_bind {fails : Except ε β → σ → Prop} {x : ExceptT ε (Prog A R) α} {f : α → ExceptT ε (Prog A R) β}
    (hx : FailsOn h J bad (fun r _ => ∃ e, r = .error e) x.run) (hf : ∀ a, FailsOn h J bad fails (f a).run)
    (hraised : ∀ e s, fails (.error e) s) : FailsOn h J bad fails (x >>= f).run := by
  change FailsOn h J bad fails (x.run >>= ExceptT.bindCont f)
  generalize x.run = p at hx
  induction p with
  | done r =>
    cases r with
    | ok a => exact hf a
    | error e => trivial
  | act a rest ih =>
    intro s hs
    refine ⟨?_, ih _ (hx s hs).2⟩
    intro hbad
    obtain ⟨r, hr, e, rfl⟩ := (hx s hs).1 hbad
    exact ⟨.error e, congrArg (fun q : Prog A R (Except ε α) => q >>= ExceptT.bindCont f) hr, hraised e _⟩

theorem failsOn_map {fails : Except ε α → σ → Prop} {fails' : Except ε β → σ → Prop} {x : ExceptT ε (Prog A R) α}
    {g : α → β} (hx : FailsOn h J bad fails x.run) (hok : ∀ a s, fails (.ok a) s → fails' (.ok (g a)) s)
    (hraised : ∀ e s, fails' (.error e) s) : FailsOn h J bad fails' (x >>= fun a => pure (g a)).run := by
  change FailsOn h J bad fails' (x.run >>= ExceptT.bindCont fun a => pure (g a))
  generalize x.run = p at hx
  induction p with
  | done r =>
    cases r with
    | ok a => trivial
    | error e => trivial
  | act a rest ih =>
    intro s hs
    refine ⟨?_, ih _ (hx s hs).2⟩
    intro hbad
    obtain ⟨r, hr, hfails⟩ := (hx s hs).1 hbad
    have hend := congrArg (fun q : Prog A R (Except ε α) => q >>= ExceptT.bindCont fun a => pure (g a)) hr
    cases r with
    | ok v => exact ⟨.ok (g v), hend, hok v _ hfails⟩
    | error e => exact ⟨.error e, hend, hraised e _⟩

theorem failsOn_attempt {fails : Except ε (Except ε α) → σ → Prop} {x : ExceptT ε (Prog A R) α}
    (hx : TaskRequests ok x) (hok : ∀ a, ok a → ∀ s, ¬bad s a) : FailsOn h J bad fails (Prog.attempt x).run := by
  change OnlyRequests ok x.run at hx
  change FailsOn h J bad fails (x.run >>= fun r => (Prog.done (.ok r) : Prog A R (Except ε (Except ε α))))
  generalize x.run = p at hx
  induction p with
  | done r => trivial
  | act a rest ih => exact fun s _ => ⟨fun hbad => absurd hbad (hok a hx.1 s), ih _ (hx.2 _)⟩

end FailsOn

section Interleaving

variable (h : Handler A R σ)

/-- A program after its next request, if it has not finished, and the state that the request leaves. -/
def advance : Prog A R α → σ → Prog A R α × σ
  | .done a, s => (.done a, s)
  | .act a rest, s => (rest (h a s).1, (h a s).2)

theorem advance_of_answer {h : Handler A R σ} {a : A} {s s' : σ} {r : R a} (ha : h a s = (r, s'))
    (rest : R a → Prog A R α) : advance h (.act a rest) s = (rest r, s') := by
  rw [advance, ha]

structure Pool (ι A : Type) (R : A → Type) (α σ : Type) where
  threads : ι → Prog A R α
  state : σ

/-- Thread `i` makes its next request. -/
def Pool.step {ι : Type} [DecidableEq ι] (p : Pool ι A R α σ) (i : ι) : Pool ι A R α σ :=
  ⟨Function.update p.threads i (advance h (p.threads i) p.state).1, (advance h (p.threads i) p.state).2⟩

theorem Pool.step_threads {ι : Type} [DecidableEq ι] (p : Pool ι A R α σ) (i : ι) :
    (p.step h i).threads = Function.update p.threads i (advance h (p.threads i) p.state).1 := rfl

end Interleaving

end Prog
