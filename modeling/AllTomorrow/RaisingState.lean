import Mathlib.Init

/-!
# Computations that raise with a state

In `EStateM` an exception carries the state at the point where it was raised. The
two projections of a result and the rules by which a raise and a pure `Except`
computation run.
-/

namespace EStateM

universe u

variable {ε σ α : Type u}

def Result.state : Result ε σ α → σ
  | .ok _ s => s
  | .error _ s => s

def Result.outcome : Result ε σ α → Except ε α
  | .ok a _ => .ok a
  | .error e _ => .error e

@[simp] theorem Result.state_ok (a : α) (s : σ) : (Result.ok a s : Result ε σ α).state = s := rfl

@[simp] theorem Result.state_error (e : ε) (s : σ) : (Result.error e s : Result ε σ α).state = s := rfl

@[simp] theorem Result.outcome_ok (a : α) (s : σ) : (Result.ok a s : Result ε σ α).outcome = .ok a := rfl

@[simp] theorem Result.outcome_error (e : ε) (s : σ) :
    (Result.error e s : Result ε σ α).outcome = .error e := rfl

@[simp] theorem run_throw_any (e : ε) (s : σ) : EStateM.run (throw e : EStateM ε σ α) s = .error e s := rfl

@[simp] theorem run_ofExcept_ok (a : α) (s : σ) :
    EStateM.run (MonadExcept.ofExcept (.ok a) : EStateM ε σ α) s = .ok a s := rfl

@[simp] theorem run_ofExcept_error (e : ε) (s : σ) :
    EStateM.run (MonadExcept.ofExcept (.error e) : EStateM ε σ α) s = .error e s := rfl

/-! ## Where a computation ends -/

variable {β : Type u}

/-- From this state the computation returns in `Q` or raises in `E`. -/
def Ends (x : EStateM ε σ α) (s : σ) (Q : α → σ → Prop) (E : ε → σ → Prop) : Prop :=
  match x s with
  | .ok a s' => Q a s'
  | .error e s' => E e s'

section Ends

variable {x : EStateM ε σ α} {s : σ} {Q : α → σ → Prop} {E : ε → σ → Prop}

theorem ends_pure {a : α} (h : Q a s) : Ends (pure a : EStateM ε σ α) s Q E := h

theorem ends_throw {e : ε} (h : E e s) : Ends (throw e : EStateM ε σ α) s Q E := h

theorem ends_ofExcept {r : Except ε α} (hok : ∀ a, r = .ok a → Q a s) (herror : ∀ e, r = .error e → E e s) :
    Ends (MonadExcept.ofExcept r : EStateM ε σ α) s Q E := by
  cases r with
  | ok a => exact hok a rfl
  | error e => exact herror e rfl

theorem ends_modify {f : σ → σ} {Q : PUnit → σ → Prop} (h : Q ⟨⟩ (f s)) : Ends (modify f : EStateM ε σ PUnit) s Q E := h

theorem ends_get_bind {f : σ → EStateM ε σ α} (h : Ends (f s) s Q E) : Ends (get >>= f) s Q E := h

theorem ends_modify_bind {f : σ → σ} {k : PUnit → EStateM ε σ α} (h : Ends (k ⟨⟩) (f s) Q E) :
    Ends (modify f >>= k) s Q E := h

theorem ends_throw_bind {e : ε} {f : β → EStateM ε σ α} (h : E e s) : Ends (throw e >>= f) s Q E := h

theorem ends_ite {p : Prop} [Decidable p] {y : EStateM ε σ α} (hx : p → Ends x s Q E) (hy : ¬p → Ends y s Q E) :
    Ends (if p then x else y) s Q E := by
  by_cases h : p
  · simpa only [if_pos h] using hx h
  · simpa only [if_neg h] using hy h

theorem ends_tryCatch {handle : ε → EStateM ε σ α} {F : ε → σ → Prop} (hx : Ends x s Q F)
    (hhandle : ∀ e s', F e s' → Ends (handle e) s' Q E) : Ends (tryCatch x handle) s Q E := by
  unfold Ends at hx ⊢
  change match EStateM.tryCatch x handle s with
    | .ok a s' => Q a s'
    | .error e s' => E e s'
  unfold EStateM.tryCatch
  cases hrun : x s with
  | ok a s' =>
    rw [hrun] at hx
    exact hx
  | error e s' =>
    rw [hrun] at hx
    exact hhandle e s' hx

variable {f : α → EStateM ε σ β} {S : β → σ → Prop}

theorem Ends.bind (hx : Ends x s Q E) (hf : ∀ a s', Q a s' → Ends (f a) s' S E) : Ends (x >>= f) s S E := by
  unfold Ends at hx ⊢
  change match EStateM.bind x f s with
    | .ok a s' => S a s'
    | .error e s' => E e s'
  unfold EStateM.bind
  cases hrun : x s with
  | ok a s' =>
    rw [hrun] at hx
    exact hf a s' hx
  | error e s' =>
    rw [hrun] at hx
    exact hx

theorem bind_returns_iff : (∃ b s', (x >>= f) s = .ok b s') ↔ ∃ a s₁, x s = .ok a s₁ ∧ ∃ b s', f a s₁ = .ok b s' := by
  change (∃ b s', EStateM.bind x f s = .ok b s') ↔ _
  unfold EStateM.bind
  cases x s with
  | ok a s₁ => exact ⟨fun h => ⟨a, s₁, rfl, h⟩, fun ⟨_, _, hx, h⟩ => (by cases hx; exact h)⟩
  | error e s₁ => exact ⟨fun ⟨_, _, h⟩ => (by cases h), fun ⟨_, _, h, _⟩ => (by cases h)⟩

theorem ends_run_bind {a : α} {s' : σ} (h : x.run s = .ok a s') (hf : Ends (f a) s' S E) : Ends (x >>= f) s S E := by
  unfold Ends at hf ⊢
  change match EStateM.bind x f s with
    | .ok b t => S b t
    | .error e t => E e t
  unfold EStateM.bind
  rw [show x s = .ok a s' from h]
  exact hf

theorem ends_error_bind {e : ε} {s' : σ} (h : x.run s = .error e s') (he : E e s') : Ends (x >>= f) s S E := by
  unfold Ends
  change match EStateM.bind x f s with
    | .ok b t => S b t
    | .error e t => E e t
  unfold EStateM.bind
  rw [show x s = .error e s' from h]
  exact he

theorem Ends.of_outcome {F : ε → σ → Prop} {a : α} (hx : Ends x s Q F) (h : (x.run s).outcome = .ok a) : Ends x s Q E := by
  unfold Ends at hx ⊢
  change (x s).outcome = .ok a at h
  cases hrun : x s with
  | ok b s' =>
    rw [hrun] at hx
    exact hx
  | error e s' =>
    rw [hrun] at h
    cases h

theorem Ends.mono {Q' : α → σ → Prop} {E' : ε → σ → Prop} (hx : Ends x s Q E) (hQ : ∀ a s', Q a s' → Q' a s')
    (hE : ∀ e s', E e s' → E' e s') : Ends x s Q' E' := by
  unfold Ends at hx ⊢
  cases hrun : x s with
  | ok a s' =>
    rw [hrun] at hx
    exact hQ a s' hx
  | error e s' =>
    rw [hrun] at hx
    exact hE e s' hx

theorem Ends.state {P : σ → Prop} (hx : Ends x s (fun _ => P) fun _ => P) : P (x s).state := by
  unfold Ends at hx
  cases hrun : x s with
  | ok a s' =>
    rw [hrun] at hx
    exact hx
  | error e s' =>
    rw [hrun] at hx
    exact hx

theorem Ends.raises (hx : Ends x s (fun _ _ => False) E) : ∃ e s', x.run s = .error e s' ∧ E e s' := by
  unfold Ends at hx
  change ∃ e s', x s = .error e s' ∧ E e s'
  cases hrun : x s with
  | ok a s' =>
    rw [hrun] at hx
    exact hx.elim
  | error e s' =>
    rw [hrun] at hx
    exact ⟨e, s', rfl, hx⟩

theorem Ends.returns (hx : Ends x s Q fun _ _ => False) : ∃ a s', x.run s = .ok a s' ∧ Q a s' := by
  unfold Ends at hx
  change ∃ a s', x s = .ok a s' ∧ Q a s'
  cases hrun : x s with
  | ok a s' =>
    rw [hrun] at hx
    exact ⟨a, s', rfl, hx⟩
  | error e s' =>
    rw [hrun] at hx
    exact hx.elim

end Ends

end EStateM
