import Mathlib.Data.Nat.Notation
import Mathlib.Logic.Basic
import Mathlib.Tactic.Common

/-!
# The race of two calls that start the same Run

An abstract protocol. A Run is linked to an execution once and then becomes running
once. A call first sees to it that the Run is linked, and from then on it is
committed to the running transition, for which it presents the stage it read. Two
calls get in each other's way exactly when both are committed at once, or one
commits after the Run is running, or a start loses its first write.
-/

namespace RunStartRace

inductive LinkStage where
  | unlinked | linked | running
  deriving DecidableEq, Repr

def LinkStage.rank : LinkStage → ℕ
  | .unlinked => 0
  | .linked => 1
  | .running => 2

/-- The next thing a call does. A stage that it carries is the one whose revision it presents. -/
inductive CallPosition where
  -- a start: ask the backend, then link with the revision it was given
  | request
  | link
  -- a recovery: look at the Run (for the first time or again), read its revision, find an
  -- execution or launch one, then link with the revision that was read
  | look (first : Bool)
  | readRevision
  | find (seen : LinkStage)
  | launch (seen : LinkStage)
  | attach (seen : LinkStage)
  -- both: read the new revision and make the running transition
  | readLinked
  | finish (seen : LinkStage)
  | returned
  | raised
  deriving DecidableEq, Repr

open LinkStage CallPosition

def CallPosition.committed : CallPosition → Bool
  | .readLinked => true
  | .finish _ => true
  | _ => false

/-- One step of a call. `initial` is the stage at which both calls were made. -/
inductive Step (initial : LinkStage) : LinkStage → CallPosition → LinkStage → CallPosition → Prop where
  | request {g} : Step initial g request g link
  | linkFirst (h : initial = unlinked) : Step initial unlinked link linked readLinked
  | linkAgain (h : initial = linked) : Step initial linked link linked readLinked
  | linkStale {g} (h : g ≠ initial) : Step initial g link g raised
  | lookUnlinked : Step initial unlinked (look true) unlinked readRevision
  | lookLinked {first} : Step initial linked (look first) linked readLinked
  | lookRunning {first} : Step initial running (look first) running returned
  | readRevision {g} : Step initial g readRevision g (find g)
  | found {g v} : Step initial g (find v) g (attach v)
  | notFound {g v} : Step initial g (find v) g (launch v)
  | launched {g v} : Step initial g (launch v) g (attach v)
  | attachFirst : Step initial unlinked (attach unlinked) linked readLinked
  | attachAgain {g} (h : g ≠ unlinked) : Step initial g (attach g) g readLinked
  | attachStale {g v} (h : v ≠ g) : Step initial g (attach v) g (look false)
  | readLinked {g} : Step initial g readLinked g (finish g)
  | finishFirst : Step initial linked (finish linked) running returned
  | finishLate {g v} (h : v ≠ g ∨ g = running) : Step initial g (finish v) g raised
  | returned {g} : Step initial g returned g returned
  | raised {g} : Step initial g raised g raised

def Sane (g : LinkStage) : CallPosition → Prop
  | .look false => g ≠ unlinked
  | .find v | .launch v | .attach v => v.rank ≤ g.rank
  | .readLinked => g ≠ unlinked
  | .finish v => v ≠ unlinked ∧ v.rank ≤ g.rank
  | .returned => g = running
  | _ => True

/-- The steps that do not get in the way of the other call, which stands at `d`. -/
def Allowed (initial g : LinkStage) (c d : CallPosition) : Prop :=
  match c with
  | .link => g = initial ∧ d.committed = false
  | .look _ => g = linked → d.committed = false
  | .attach v => v = g → g ≠ running ∧ d.committed = false
  | _ => True

def Doomed (g : LinkStage) (c d : CallPosition) : Prop :=
  c = .raised ∨ d = .raised ∨ (c.committed = true ∧ d.committed = true) ∨
    (g = running ∧ (c.committed = true ∨ d.committed = true))

variable {initial g g' : LinkStage} {c c' d : CallPosition}

theorem Doomed.symm (h : Doomed g c d) : Doomed g d c := by
  unfold Doomed at *
  tauto

theorem Step.rank_le (h : Step initial g c g' c') : g.rank ≤ g'.rank := by
  cases h <;> simp [rank]

theorem eq_running_of_rank_le (h : running.rank ≤ g.rank) : g = running := by
  cases g <;> simp_all [rank]

theorem ne_unlinked_of_rank_le (h : g.rank ≤ g'.rank) (hg : g ≠ unlinked) : g' ≠ unlinked := by
  cases g <;> cases g' <;> simp_all [rank]

theorem Sane.mono (h : Sane g d) (hle : g.rank ≤ g'.rank) : Sane g' d := by
  cases d with
  | look first =>
    cases first with
    | false => exact ne_unlinked_of_rank_le hle h
    | true => trivial
  | find v | launch v | attach v => exact Nat.le_trans h hle
  | readLinked => exact ne_unlinked_of_rank_le hle h
  | finish v => exact ⟨h.1, Nat.le_trans h.2 hle⟩
  | returned => exact eq_running_of_rank_le (h ▸ hle)
  | request | link | readRevision | raised => trivial

theorem ne_unlinked_of_stale {v : LinkStage} (hle : v.rank ≤ g.rank) (hne : v ≠ g) : g ≠ unlinked := by
  cases v <;> cases g <;> simp_all [rank]

theorem Step.sane (h : Step initial g c g' c') (hc : Sane g c) : Sane g' c' := by
  cases h with
  | readRevision => exact Nat.le_refl _
  | found | notFound | launched => exact hc
  | attachStale hne => exact ne_unlinked_of_stale hc hne
  | attachAgain hne => exact hne
  | readLinked => exact ⟨hc, Nat.le_refl _⟩
  | returned => exact hc
  | lookRunning | finishFirst => rfl
  | linkFirst | linkAgain | lookLinked | attachFirst => exact fun h => by cases h
  | request | linkStale | lookUnlinked | finishLate | raised => trivial

theorem Step.committed (h : Step initial g c g' c') (hc : c.committed = true) :
    (c'.committed = true ∧ g' = g) ∨ (g = linked ∧ g' = running) ∨ c' = .raised := by
  cases h <;> simp_all [CallPosition.committed]

theorem Step.doomed (h : Step initial g c g' c') (hd : Doomed g c d) : Doomed g' c' d := by
  rcases hd with hc | hd | ⟨hc, hd⟩ | ⟨hg, hcd⟩
  · subst hc
    cases h
    exact .inl rfl
  · exact .inr (.inl hd)
  · rcases h.committed hc with ⟨hc', _⟩ | ⟨_, hg'⟩ | hraised
    · exact .inr (.inr (.inl ⟨hc', hd⟩))
    · exact .inr (.inr (.inr ⟨hg', .inr hd⟩))
    · exact .inl hraised
  · subst hg
    have hg' : g' = running := eq_running_of_rank_le h.rank_le
    rcases hcd with hc | hd
    · rcases h.committed hc with ⟨hc', _⟩ | ⟨hlinked, _⟩ | hraised
      · exact .inr (.inr (.inr ⟨hg', .inl hc'⟩))
      · cases hlinked
      · exact .inl hraised
    · exact .inr (.inr (.inr ⟨hg', .inr hd⟩))

theorem Sane.ne_unlinked (h : Sane g d) (hd : d.committed = true) : g ≠ unlinked := by
  cases d with
  | readLinked => exact h
  | finish v => exact ne_unlinked_of_rank_le h.2 h.1
  | _ => simp [CallPosition.committed] at hd

theorem Sane.seen_linked {v : LinkStage} (h : Sane linked (finish v)) : v = linked := by
  obtain ⟨hne, hle⟩ := h
  cases v <;> simp_all [rank]

theorem Step.doomed_iff (h : Step initial g c g' c') (hc : Sane g c) (hd : Sane g d) (hclear : ¬Doomed g c d) :
    Doomed g' c' d ↔ ¬Allowed initial g c d := by
  have hunlinked := hd.ne_unlinked
  cases h with
  | finishLate hlate =>
    -- a clear pair has a committed call only at the linked stage, with its revision
    have hg : g = linked := by
      have hne := hc.ne_unlinked rfl
      cases g with
      | unlinked => exact absurd rfl hne
      | linked => rfl
      | running => exact absurd (.inr (.inr (.inr ⟨rfl, .inl rfl⟩))) hclear
    subst hg
    have hseen := hc.seen_linked
    subst hseen
    simp at hlate
  | _ => cases hcd : d.committed <;> simp_all [Doomed, Allowed, CallPosition.committed]

/-! ## Termination -/

def CallPosition.finished : CallPosition → Bool
  | .returned => true
  | .raised => true
  | _ => false

def CallPosition.remaining : CallPosition → ℕ
  | .look true => 8
  | .readRevision => 7
  | .find _ => 6
  | .launch _ => 5
  | .attach _ => 4
  | .request => 4
  | .look false => 3
  | .link => 3
  | .readLinked => 2
  | .finish _ => 1
  | .returned => 0
  | .raised => 0

theorem Step.remaining_le (h : Step initial g c g' c') : c'.remaining ≤ c.remaining - 1 := by
  cases h with
  | lookLinked | lookRunning =>
    rename_i first
    cases first <;> simp [remaining]
  | _ => simp [remaining]

theorem returned_of_finished (hclear : ¬Doomed g c d) (hc : c.finished = true) : c = .returned := by
  cases c <;> simp_all [Doomed, finished]

theorem doomed_of_finished (hdoomed : Doomed g c d) (hc : c.finished = true) (hd : d.finished = true) :
    c = .raised ∨ d = .raised := by
  cases c <;> cases d <;> simp_all [Doomed, finished, committed]

end RunStartRace
