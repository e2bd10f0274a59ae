import AllTomorrow.ResumptionPrograms

/-!
# What holds at every request of a program

A program can stop before any of its requests. `AllPoints` states what holds whenever
a request is about to be made and what holds at the end, and `CrashSafe` is a triple
for raising programs: an invariant `J` holds before and after, whether the program
returns or raises, and `I` at every point in between.
-/

namespace Prog

variable {A : Type} {R : A → Type} {α β σ ε : Type}

/-- `I a s` holds whenever `a` is about to be requested in `s`, and `Q` at the end. -/
def AllPoints (h : Handler A R σ) (I : A → σ → Prop) (Q : α → σ → Prop) : Prog A R α → σ → Prop
  | .done a, s => Q a s
  | .act a rest, s => I a s ∧ AllPoints h I Q (rest (h a s).1) (h a s).2

/-- The request that a program is about to make after `n` actions. -/
def pending (h : Handler A R σ) : ℕ → Prog A R α → σ → Option A
  | _, .done _, _ => none
  | 0, .act a _, _ => some a
  | n + 1, .act a rest, s => pending h n (rest (h a s).1) (h a s).2

variable {h : Handler A R σ} {I : A → σ → Prop} {p : Prog A R α} {s : σ}

theorem AllPoints.bind {Q : α → σ → Prop} {S : β → σ → Prop} {f : α → Prog A R β}
    (hp : AllPoints h I Q p s) (hf : ∀ a s', Q a s' → AllPoints h I S (f a) s') : AllPoints h I S (p >>= f) s := by
  induction p generalizing s with
  | done a => exact hf a s hp
  | act a rest ih => exact ⟨hp.1, ih _ hp.2⟩

theorem AllPoints.mono {Q S : α → σ → Prop} (hp : AllPoints h I Q p s)
    (hQ : ∀ a s', Q a s' → S a s') : AllPoints h I S p s := by
  induction p generalizing s with
  | done a => exact hQ a s hp
  | act a rest ih => exact ⟨hp.1, ih _ hp.2⟩

theorem AllPoints.eval {Q : α → σ → Prop} (hp : AllPoints h I Q p s) : Q (p.eval h s).1 (p.eval h s).2 := by
  induction p generalizing s with
  | done a => exact hp
  | act a rest ih => exact ih _ hp.2

theorem AllPoints.cut {Q : α → σ → Prop} (hp : AllPoints h I Q p s) (n : ℕ) :
    (∃ a, pending h n p s = some a ∧ I a (p.cut h n s)) ∨ (pending h n p s = none ∧ ∃ v, Q v (p.cut h n s)) := by
  induction n generalizing p s with
  | zero =>
    cases p with
    | done a => exact .inr ⟨rfl, a, hp⟩
    | act a rest => exact .inl ⟨a, rfl, hp.1⟩
  | succ n ih =>
    cases p with
    | done a => exact .inr ⟨rfl, a, hp⟩
    | act a rest => exact ih hp.2

variable {ok : A → Prop}

theorem OnlyRequests.allPoints {J : σ → Prop} (hok : ∀ a s, ok a → J s → J (h a s).2)
    (hp : OnlyRequests ok p) (hJ : J s) : AllPoints h (fun a _ => ok a) (fun _ s' => J s') p s := by
  induction p generalizing s with
  | done a => exact hJ
  | act a rest ih => exact ⟨hp.1, ih _ (hp.2 _) (hok a s hp.1 hJ)⟩

theorem OnlyRequests.cut {J : σ → Prop} (hok : ∀ a s, ok a → J s → J (h a s).2)
    (hp : OnlyRequests ok p) (hJ : J s) (n : ℕ) : J (p.cut h n s) := by
  induction n generalizing p s with
  | zero => rwa [cut_zero]
  | succ n ih =>
    cases p with
    | done a => exact hJ
    | act a rest => exact ih (hp.2 _) (hok a s hp.1 hJ)

/-! ## The requests of a run -/

def requests (h : Handler A R σ) : Prog A R α → σ → List A
  | .done _, _ => []
  | .act a rest, s => a :: requests h (rest (h a s).1) (h a s).2

theorem eval_of_answer {a : A} {s s' : σ} {r : R a} (ha : h a s = (r, s')) (rest : R a → Prog A R α) :
    (Prog.act a rest).eval h s = (rest r).eval h s' := by
  rw [Prog.eval, ha]

theorem requests_of_answer {a : A} {s s' : σ} {r : R a} (ha : h a s = (r, s'))
    (rest : R a → Prog A R α) : requests h (.act a rest) s = a :: requests h (rest r) s' := by
  rw [requests, ha]

theorem requests_bind (h : Handler A R σ) (p : Prog A R α) (f : α → Prog A R β) (s : σ) :
    requests h (p >>= f) s = requests h p s ++ requests h (f (p.eval h s).1) (p.eval h s).2 := by
  induction p generalizing s with
  | done a => rfl
  | act a rest ih => exact congrArg (a :: ·) (ih (h a s).1 (h a s).2)

theorem requests_bind_ok {x : ExceptT ε (Prog A R) α} {s s' : σ} {a : α}
    (hx : evalTask h x s = (.ok a, s')) (f : α → ExceptT ε (Prog A R) β) :
    requests h (x >>= f).run s = requests h x.run s ++ requests h (f a).run s' := by
  refine (requests_bind h x.run (ExceptT.bindCont f) s).trans ?_
  change x.run.eval h s = _ at hx
  rw [hx]
  rfl

theorem evalTask_map (h : Handler A R σ) (x : ExceptT ε (Prog A R) α) (g : α → β) (s : σ) :
    evalTask h (x >>= fun a => pure (g a)) s = (g <$> (evalTask h x s).1, (evalTask h x s).2) := by
  rw [evalTask_bind]
  cases evalTask h x s with
  | mk result s' => cases result <;> rfl

theorem requests_map (h : Handler A R σ) (x : ExceptT ε (Prog A R) α) (g : α → β) (s : σ) :
    requests h (x >>= fun a => pure (g a)).run s = requests h x.run s := by
  refine (requests_bind h x.run (ExceptT.bindCont fun a => pure (g a)) s).trans ?_
  cases (x.run.eval h s).1 <;> exact List.append_nil _

theorem OnlyRequests.mem_requests (hp : OnlyRequests ok p) {a : A} (ha : a ∈ requests h p s) : ok a := by
  induction p generalizing s with
  | done v => cases ha
  | act b rest ih =>
    rcases List.mem_cons.mp ha with rfl | hrest
    · exact hp.1
    · exact ih _ (hp.2 _) hrest

theorem OnlyRequests.eval {J : σ → Prop} (hok : ∀ a s, ok a → J s → J (h a s).2)
    (hp : OnlyRequests ok p) (hJ : J s) : J (p.eval h s).2 :=
  (OnlyRequests.allPoints hok hp hJ).eval

/-- Whatever it is answered, the program makes at most `n` requests that count. -/
def RequestsAtMost (counts : A → Bool) : ℕ → Prog A R α → Prop
  | _, .done _ => True
  | n, .act a rest => (counts a = false ∧ ∀ r, RequestsAtMost counts n (rest r)) ∨
      ∃ k, n = k + 1 ∧ ∀ r, RequestsAtMost counts k (rest r)

section RequestsAtMost

variable {counts : A → Bool} {n : ℕ}

theorem requestsAtMost_of_none (hp : OnlyRequests (fun a => counts a = false) p) : RequestsAtMost counts n p := by
  induction p with
  | done a => trivial
  | act a rest ih => exact .inl ⟨hp.1, fun r => ih r (hp.2 r)⟩

variable {x : ExceptT ε (Prog A R) α}

theorem requestsAtMost_then {f : α → ExceptT ε (Prog A R) β}
    (hx : RequestsAtMost counts n x.run) (hf : ∀ a, TaskRequests (fun a => counts a = false) (f a)) :
    RequestsAtMost counts n (x >>= f).run := by
  change RequestsAtMost counts n (x.run >>= ExceptT.bindCont f)
  generalize x.run = p at hx
  induction p generalizing n with
  | done r =>
    cases r with
    | ok a => exact requestsAtMost_of_none (hf a)
    | error e => trivial
  | act a rest ih =>
    rcases hx with ⟨hfree, hrest⟩ | ⟨i, rfl, hrest⟩
    · exact .inl ⟨hfree, fun r => ih r (hrest r)⟩
    · exact .inr ⟨i, rfl, fun r => ih r (hrest r)⟩

theorem requestsAtMost_task {f : α → ExceptT ε (Prog A R) β}
    (hx : TaskRequests (fun a => counts a = false) x) (hf : ∀ a, RequestsAtMost counts n (f a).run) :
    RequestsAtMost counts n (x >>= f).run := by
  change RequestsAtMost counts n (x.run >>= ExceptT.bindCont f)
  change OnlyRequests _ x.run at hx
  generalize x.run = p at hx
  induction p with
  | done r =>
    cases r with
    | ok a => exact hf a
    | error e => trivial
  | act a rest ih => exact .inl ⟨hx.1, fun r => ih r (hx.2 r)⟩

variable {f : σ → ℕ}

theorem count_cut_le (hcount : ∀ a s, f (h a s).2 ≤ f s + if counts a then 1 else 0)
    (hp : RequestsAtMost counts n p) (s : σ) (k : ℕ) : f (p.cut h k s) ≤ f s + n := by
  induction k generalizing n p s with
  | zero =>
    rw [cut_zero]
    omega
  | succ k ih =>
    cases p with
    | done a => exact Nat.le_add_right _ _
    | act a rest =>
      have hstep := hcount a s
      rcases hp with ⟨hfree, hrest⟩ | ⟨i, rfl, hrest⟩
      · have hle := ih (hrest (h a s).1) (h a s).2
        rw [hfree] at hstep
        exact Nat.le_trans hle (Nat.add_le_add_right hstep n)
      · have hle : f (cut h k (rest (h a s).1) (h a s).2) ≤ _ := ih (hrest (h a s).1) (h a s).2
        change f (cut h k (rest (h a s).1) (h a s).2) ≤ f s + (i + 1)
        split at hstep <;> omega

theorem count_eval_le (hcount : ∀ a s, f (h a s).2 ≤ f s + if counts a then 1 else 0)
    (hp : RequestsAtMost counts n p) (s : σ) : f (p.eval h s).2 ≤ f s + n := by
  induction p generalizing n s with
  | done a => exact Nat.le_add_right _ _
  | act a rest ih =>
    have hstep := hcount a s
    rcases hp with ⟨hfree, hrest⟩ | ⟨i, rfl, hrest⟩
    · have hle := ih _ (hrest (h a s).1) (h a s).2
      rw [hfree] at hstep
      exact Nat.le_trans hle (Nat.add_le_add_right hstep n)
    · have hle := ih _ (hrest (h a s).1) (h a s).2
      change f (eval h (rest (h a s).1) (h a s).2).2 ≤ f s + (i + 1)
      split at hstep <;> omega

end RequestsAtMost

section Triples

variable (h : Handler A R σ) (J : σ → Prop) (I : A → σ → Prop)

/-- From `J` and `P`, the program keeps `I` at every request and ends in `J`, with `Q` if it returns. -/
def CrashSafe (P : σ → Prop) (x : ExceptT ε (Prog A R) α) (Q : α → σ → Prop) : Prop :=
  ∀ s, J s → P s → AllPoints h I (fun r s' => J s' ∧ ∀ a, r = .ok a → Q a s') x.run s

variable {h J I} {P : σ → Prop} {Q : α → σ → Prop} {S : β → σ → Prop}

theorem crashSafe_pure {a : α} (ha : ∀ s, P s → Q a s) : CrashSafe h J I P (pure a : ExceptT ε (Prog A R) α) Q := by
  intro s hJ hP
  refine ⟨hJ, ?_⟩
  intro a' ha'
  cases ha'
  exact ha s hP

theorem crashSafe_throw {e : ε} : CrashSafe h J I P (throw e : ExceptT ε (Prog A R) α) Q :=
  fun _ hJ _ => ⟨hJ, fun _ ha => by cases ha⟩

variable {x : ExceptT ε (Prog A R) α} {f : α → ExceptT ε (Prog A R) β}

theorem CrashSafe.bind
    (hx : CrashSafe h J I P x Q) (hf : ∀ a, CrashSafe h J I (Q a) (f a) S) : CrashSafe h J I P (x >>= f) S := by
  intro s hJ hP
  refine AllPoints.bind (hx s hJ hP) ?_
  rintro (e | a) s' ⟨hJ', hQ⟩
  · exact ⟨hJ', fun _ ha => by cases ha⟩
  · exact hf a s' hJ' (hQ a rfl)

theorem crashSafe_ofExcept {x : Except ε α} (hf : ∀ a, x = .ok a → CrashSafe h J I P (f a) S) :
    CrashSafe h J I P ((MonadExcept.ofExcept x : ExceptT ε (Prog A R) α) >>= f) S := by
  cases x with
  | ok a => exact hf a rfl
  | error e => exact crashSafe_throw

theorem CrashSafe.weaken {P' : σ → Prop} (hx : CrashSafe h J I P x Q) (hP : ∀ s, P' s → P s) : CrashSafe h J I P' x Q :=
  fun s hJ hP' => hx s hJ (hP s hP')

theorem CrashSafe.attempt (hx : CrashSafe h J I P x Q) : CrashSafe h J I P (Prog.attempt x) (fun _ _ => True) := by
  intro s hJ hP
  refine AllPoints.bind (hx s hJ hP) ?_
  rintro r s' ⟨hJ', _⟩
  exact ⟨hJ', fun _ _ => trivial⟩

theorem TaskRequests.crashSafe (hok : ∀ a s, ok a → J s → J (h a s).2) (hx : TaskRequests ok x) :
    CrashSafe h J (fun a _ => ok a) P x fun _ _ => True := by
  intro s hJ _
  refine (OnlyRequests.allPoints hok hx hJ).mono ?_
  exact fun _ _ hJ' => ⟨hJ', fun _ _ => trivial⟩

theorem TaskRequests.crashSafe_frame (hok : ∀ a s, ok a → J s → P s → J (h a s).2 ∧ P (h a s).2)
    (hI : ∀ a s, ok a → J s → I a s) (hx : TaskRequests ok x) : CrashSafe h J I P x fun _ => P := by
  intro s hJ hP
  change OnlyRequests ok x.run at hx
  generalize x.run = p at hx
  induction p generalizing s with
  | done r => exact ⟨hJ, fun _ _ => hP⟩
  | act a rest ih =>
    obtain ⟨hJ', hP'⟩ := hok a s hx.1 hJ hP
    exact ⟨hI a s hx.1 hJ, ih _ _ hJ' hP' (hx.2 _)⟩

theorem CrashSafe.evalTask (hx : CrashSafe h J I P x Q) (hJ : J s) (hP : P s) : J (evalTask h x s).2 := (hx s hJ hP).eval.1

end Triples

end Prog
