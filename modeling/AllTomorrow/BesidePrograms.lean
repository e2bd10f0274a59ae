import AllTomorrow.ResumptionPrograms

/-!
# A program beside others

A program is run while others act on the same state. They act between its requests, and
what they do there is any given function of the state.
-/

namespace Prog

variable {A : Type} {R : A → Type} {α β σ ε : Type}

/-- Run a program to its end. Before its `n`th request the others do `others n`; the result has the number of
the next request. -/
def evalBeside (h : Handler A R σ) (others : ℕ → σ → σ) : Prog A R α → ℕ → σ → α × ℕ × σ
  | .done a, n, s => (a, n, s)
  | .act a rest, n, s => (rest (h a (others n s)).1).evalBeside h others (n + 1) (h a (others n s)).2

theorem evalBeside_bind (h : Handler A R σ) (others : ℕ → σ → σ) (p : Prog A R α) (f : α → Prog A R β) (n : ℕ) (s : σ) :
    (p >>= f).evalBeside h others n s = (f (p.evalBeside h others n s).1).evalBeside h others (p.evalBeside h others n s).2.1
        (p.evalBeside h others n s).2.2 := by
  induction p generalizing n s with
  | done a => rfl
  | act a rest ih => exact ih (h a (others n s)).1 (n + 1) (h a (others n s)).2

def evalTaskBeside (h : Handler A R σ) (others : ℕ → σ → σ) (x : ExceptT ε (Prog A R) α) (n : ℕ) (s : σ) :
    Except ε α × ℕ × σ :=
  x.run.evalBeside h others n s

/-- Beside the others the program returns in `Q` or raises in `E`. -/
def EndsBeside (h : Handler A R σ) (others : ℕ → σ → σ) (x : ExceptT ε (Prog A R) α) (n : ℕ) (s : σ)
    (Q : α → ℕ → σ → Prop) (E : ε → ℕ → σ → Prop) : Prop :=
  match evalTaskBeside h others x n s with
  | (.ok a, n', s') => Q a n' s'
  | (.error e, n', s') => E e n' s'

section EndsBeside

variable {h : Handler A R σ} {others : ℕ → σ → σ} {x : ExceptT ε (Prog A R) α} {n : ℕ} {s : σ}
  {Q : α → ℕ → σ → Prop} {E : ε → ℕ → σ → Prop}

theorem endsBeside_pure {a : α} (hQ : Q a n s) : EndsBeside h others (pure a : ExceptT ε (Prog A R) α) n s Q E := hQ

theorem endsBeside_throw {e : ε} (hE : E e n s) : EndsBeside h others (throw e : ExceptT ε (Prog A R) α) n s Q E := hE

theorem endsBeside_ite {p : Prop} [Decidable p] {y : ExceptT ε (Prog A R) α}
    (hx : p → EndsBeside h others x n s Q E) (hy : ¬p → EndsBeside h others y n s Q E) :
    EndsBeside h others (if p then x else y) n s Q E := by
  by_cases hp : p
  · simpa only [if_pos hp] using hx hp
  · simpa only [if_neg hp] using hy hp

theorem EndsBeside.bind {f : α → ExceptT ε (Prog A R) β} {S : β → ℕ → σ → Prop} (hx : EndsBeside h others x n s Q E)
    (hf : ∀ a n' s', Q a n' s' → EndsBeside h others (f a) n' s' S E) : EndsBeside h others (x >>= f) n s S E := by
  have hbind := evalBeside_bind h others x.run (ExceptT.bindCont f) n s
  unfold EndsBeside evalTaskBeside at hx ⊢
  change match (x.run >>= ExceptT.bindCont f).evalBeside h others n s with
    | (.ok a, n', s') => S a n' s'
    | (.error e, n', s') => E e n' s'
  rw [hbind]
  cases hrun : x.run.evalBeside h others n s with
  | mk result rest =>
    obtain ⟨n', s'⟩ := rest
    rw [hrun] at hx
    cases result with
    | ok a => exact hf a n' s' hx
    | error e => exact hx

theorem EndsBeside.mono {Q' : α → ℕ → σ → Prop} {E' : ε → ℕ → σ → Prop} (hx : EndsBeside h others x n s Q E)
    (hQ : ∀ a n' s', Q a n' s' → Q' a n' s') (hE : ∀ e n' s', E e n' s' → E' e n' s') : EndsBeside h others x n s Q' E' := by
  unfold EndsBeside at hx ⊢
  generalize evalTaskBeside h others x n s = result at hx ⊢
  obtain ⟨outcome, n', s'⟩ := result
  cases outcome with
  | ok a => exact hQ a n' s' hx
  | error e => exact hE e n' s' hx

theorem evalTaskBeside_attempt : evalTaskBeside h others (attempt x) n s =
      ((.ok (evalTaskBeside h others x n s).1 : Except ε (Except ε α)), (evalTaskBeside h others x n s).2) :=
  evalBeside_bind h others x.run (fun result => Prog.done (Except.ok result)) n s

theorem EndsBeside.attempt (hx : EndsBeside h others x n s Q E) : EndsBeside h others (attempt x) n s
      (fun result n' s' => (∃ a, result = .ok a ∧ Q a n' s') ∨ ∃ e, result = .error e ∧ E e n' s') fun _ _ _ => False := by
  unfold EndsBeside at hx ⊢
  rw [evalTaskBeside_attempt]
  cases hrun : evalTaskBeside h others x n s with
  | mk result rest =>
    obtain ⟨n', s'⟩ := rest
    rw [hrun] at hx
    cases result with
    | ok a => exact .inl ⟨a, rfl, hx⟩
    | error e => exact .inr ⟨e, rfl, hx⟩

end EndsBeside

end Prog
