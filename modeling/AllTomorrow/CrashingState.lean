import AllTomorrow.RaisingState

/-!
# Computations that can be cut off

Besides its result, a computation has the states in which it can stop for good when power or the
process is lost. An atomic step stops before or after itself, any other step may also stop in a
torn state. `Runs` is the rule of pre- and postconditions with a third condition for those states.
-/

universe u

/-- A raising computation, and from each state the states in which it can be cut off. -/
structure CrashM (ε σ α : Type u) where
  run : EStateM ε σ α
  stops : σ → σ → Prop

namespace CrashM

open EStateM

variable {ε σ α β : Type u}

protected def pure (a : α) : CrashM ε σ α := ⟨Pure.pure a, fun s d => d = s⟩

protected def bind (x : CrashM ε σ α) (f : α → CrashM ε σ β) : CrashM ε σ β where
  run := x.run >>= fun a => (f a).run
  stops s d := x.stops s d ∨ ∃ a s', x.run s = .ok a s' ∧ (f a).stops s' d

instance : Monad (CrashM ε σ) where
  pure := CrashM.pure
  bind := CrashM.bind

instance : MonadExceptOf ε (CrashM ε σ) where
  throw e := ⟨throw e, fun s d => d = s⟩
  tryCatch x handle :=
    { run := tryCatch x.run fun e => (handle e).run
      stops := fun s d => x.stops s d ∨ ∃ e s', x.run s = .error e s' ∧ (handle e).stops s' d }

def atomic (x : EStateM ε σ α) : CrashM ε σ α := ⟨x, fun s d => d = s ∨ d = (x s).state⟩

def torn (x : EStateM ε σ α) (half : σ → σ → Prop) : CrashM ε σ α :=
  ⟨x, fun s d => d = s ∨ d = (x s).state ∨ half s d⟩

def look : CrashM ε σ σ := ⟨get, fun s d => d = s⟩

/-! ## Rules -/

/-- From this state the computation returns in `Q` or raises in `E`, and is cut off only in `C`. -/
structure Runs (x : CrashM ε σ α) (s : σ) (Q : α → σ → Prop) (E : ε → σ → Prop) (C : σ → Prop) : Prop where
  ends : Ends x.run s Q E
  stops : ∀ d, x.stops s d → C d

variable {x : CrashM ε σ α} {s : σ} {Q : α → σ → Prop} {E : ε → σ → Prop} {C : σ → Prop}

theorem runs_pure {a : α} (h : Q a s) (hC : C s) : Runs (pure a : CrashM ε σ α) s Q E C :=
  ⟨ends_pure h, fun _ hd => hd ▸ hC⟩

theorem runs_throw {e : ε} (h : E e s) (hC : C s) : Runs (throw e : CrashM ε σ α) s Q E C :=
  ⟨ends_throw h, fun _ hd => hd ▸ hC⟩

theorem runs_ofExcept {r : Except ε α} (hok : ∀ a, r = .ok a → Q a s) (herror : ∀ e, r = .error e → E e s) (hC : C s) :
    Runs (MonadExcept.ofExcept r : CrashM ε σ α) s Q E C := by
  cases r with
  | ok a => exact runs_pure (hok a rfl) hC
  | error e => exact runs_throw (herror e rfl) hC

theorem runs_look {Q : σ → σ → Prop} (h : Q s s) (hC : C s) : Runs (look : CrashM ε σ σ) s Q E C :=
  ⟨h, fun _ hd => hd ▸ hC⟩

theorem runs_atomic {y : EStateM ε σ α} (h : Ends y s (fun a s' => Q a s' ∧ C s') fun e s' => E e s' ∧ C s') (hC : C s) :
    Runs (atomic y) s Q E C := by
  refine ⟨h.mono (fun _ _ hq => hq.1) fun _ _ he => he.1, ?_⟩
  rintro d (rfl | rfl)
  · exact hC
  · exact (h.mono (fun _ _ hq => hq.2) fun _ _ he => he.2).state

theorem runs_torn {y : EStateM ε σ α} {half : σ → σ → Prop}
    (h : Ends y s (fun a s' => Q a s' ∧ C s') fun e s' => E e s' ∧ C s') (hC : C s) (hhalf : ∀ d, half s d → C d) :
    Runs (torn y half) s Q E C := by
  refine ⟨h.mono (fun _ _ hq => hq.1) fun _ _ he => he.1, ?_⟩
  rintro d (rfl | rfl | hd)
  · exact hC
  · exact (h.mono (fun _ _ hq => hq.2) fun _ _ he => he.2).state
  · exact hhalf d hd

theorem runs_ite {p : Prop} [Decidable p] {y : CrashM ε σ α} (hx : p → Runs x s Q E C) (hy : ¬p → Runs y s Q E C) :
    Runs (if p then x else y) s Q E C := by
  by_cases h : p
  · simpa only [if_pos h] using hx h
  · simpa only [if_neg h] using hy h

theorem Runs.bind {f : α → CrashM ε σ β} {S : β → σ → Prop} (hx : Runs x s Q E C)
    (hf : ∀ a s', Q a s' → Runs (f a) s' S E C) : Runs (x >>= f) s S E C := by
  refine ⟨Ends.bind hx.ends fun a s' hq => (hf a s' hq).ends, ?_⟩
  rintro d (hd | ⟨a, s', hrun, hd⟩)
  · exact hx.stops d hd
  · have hq := hx.ends
    unfold Ends at hq
    rw [hrun] at hq
    exact (hf a s' hq).stops d hd

theorem runs_throw_bind {f : β → CrashM ε σ α} {e : ε} (h : E e s) (hC : C s) : Runs (throw e >>= f) s Q E C :=
  Runs.bind (runs_throw (Q := fun _ _ => False) h hC) fun _ _ hfalse => hfalse.elim

theorem runs_tryCatch {handle : ε → CrashM ε σ α} {F : ε → σ → Prop} (hx : Runs x s Q F C)
    (hhandle : ∀ e s', F e s' → Runs (handle e) s' Q E C) : Runs (tryCatch x handle) s Q E C := by
  refine ⟨ends_tryCatch hx.ends fun e s' he => (hhandle e s' he).ends, ?_⟩
  rintro d (hd | ⟨e, s', hrun, hd⟩)
  · exact hx.stops d hd
  · have he := hx.ends
    unfold Ends at he
    rw [hrun] at he
    exact (hhandle e s' he).stops d hd

theorem Runs.mono {Q' : α → σ → Prop} {E' : ε → σ → Prop} {C' : σ → Prop} (hx : Runs x s Q E C)
    (hQ : ∀ a s', Q a s' → Q' a s') (hE : ∀ e s', E e s' → E' e s') (hC : ∀ d, C d → C' d) : Runs x s Q' E' C' :=
  ⟨hx.ends.mono hQ hE, fun d hd => hC d (hx.stops d hd)⟩

end CrashM
