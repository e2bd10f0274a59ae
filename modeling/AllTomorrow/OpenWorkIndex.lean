import AllTomorrow.DomainRecords
import AllTomorrow.MachineRuns
import AllTomorrow.RaisingState

/-!
# One open Work for each fingerprint

`OpenWorkDedupIndex` of `researcher/lineage.py`, and Works that claim their fingerprints, end and release them. Each
call holds the lock, so the calls of all Works come one after another. `release` names the fingerprint and not the
Work: the release of a Work that has ended may take away the entry of the Work that claimed after it.
-/

namespace AllTomorrow.Researcher

/-- `OpenWorkDedupIndex._open`, from fingerprints to Works. -/
abbrev OpenWorkDedupIndex := InsertionDict String String

namespace OpenWorkDedupIndex

def claim (fingerprint workId : String) : EStateM Exn OpenWorkDedupIndex Unit := do
  match (← get).get? fingerprint with
  | some existing =>
    if existing ≠ workId then
      throw (.foreign "DedupConflictError"
        ("open autonomous Work already exists for fingerprint " ++ String.ofList (fingerprint.toList.take 12) ++ "…"))
    else
      modify fun s => s.set fingerprint workId
  | none => modify fun s => s.set fingerprint workId

def release (fingerprint : String) : EStateM Exn OpenWorkDedupIndex Unit := modify fun s => s.erase fingerprint

theorem claim_cases (s : OpenWorkDedupIndex) (fingerprint workId : String) :
    ((∀ w, s.get? fingerprint = some w → w = workId) ∧
        (claim fingerprint workId).run s = .ok () (s.set fingerprint workId)) ∨
      ((∃ w, s.get? fingerprint = some w ∧ w ≠ workId) ∧ ∃ e, (claim fingerprint workId).run s = .error e s) := by
  cases hget : s.get? fingerprint with
  | none =>
    refine .inl ⟨fun w h => (by cases h), ?_⟩
    simp [claim, hget]
  | some existing =>
    by_cases hsame : existing = workId
    · refine .inl ⟨fun w h => (by rw [← hsame]; exact (Option.some.inj h).symm), ?_⟩
      simp [claim, hget, hsame]
    · refine .inr ⟨⟨existing, rfl, hsame⟩, ?_⟩
      simp [claim, hget, hsame]

end OpenWorkDedupIndex

/-! ## Works -/

/-- The index, the Works that have called `claim`, those whose call returned, and those that have ended. -/
structure DedupRun where
  index : OpenWorkDedupIndex
  callers : List String
  claimed : List String
  ended : List String

inductive DedupStep where
  | claim (workId : String)
  | terminate (workId : String)
  | release (workId : String)

namespace DedupRun

def init : DedupRun := ⟨.empty, [], [], []⟩

variable (fingerprint : String → String)

def step (s : DedupRun) : DedupStep → DedupRun
  | .claim w =>
    if w ∈ s.ended then s
    else match (OpenWorkDedupIndex.claim (fingerprint w) w).run s.index with
      | .ok _ index => { s with index, callers := w :: s.callers, claimed := w :: s.claimed }
      | .error _ index => { s with index, callers := w :: s.callers }
  | .terminate w => { s with ended := w :: s.ended }
  | .release w =>
    if w ∈ s.ended ∧ w ∈ s.callers then
      { s with index := ((OpenWorkDedupIndex.release (fingerprint w)).run s.index).state }
    else s

def Holds (s : DedupRun) (w : String) : Prop := w ∈ s.claimed ∧ w ∉ s.ended

instance (s : DedupRun) (w : String) : Decidable (s.Holds w) := inferInstanceAs (Decidable (_ ∧ _))

/-- A fingerprint is held by one Work at most. -/
def OneHolder (s : DedupRun) : Prop := ∀ w w', s.Holds w → s.Holds w' → fingerprint w = fingerprint w' → w = w'

/-- Whoever claims a fingerprint that another open Work holds finds it in the index: no release has taken it away. -/
def Guarded (s : DedupRun) : DedupStep → Prop
  | .claim w => w ∉ s.ended → ∀ w', s.Holds w' → fingerprint w' = fingerprint w → w' ≠ w →
      s.index.contains (fingerprint w) = true
  | _ => True

def Recorded (s : DedupRun) : Prop := ∀ key w, s.index.get? key = some w → w ∈ s.claimed ∧ fingerprint w = key

variable {fingerprint}

theorem recorded_step {s : DedupRun} (h : s.Recorded fingerprint) (i : DedupStep) :
    (s.step fingerprint i).Recorded fingerprint := by
  cases i with
  | terminate w => exact h
  | release w =>
    simp only [step]
    split
    · intro key w' hget
      change (s.index.erase (fingerprint w)).get? key = some w' at hget
      rw [InsertionDict.get?_erase] at hget
      split at hget
      · cases hget
      · exact h key w' hget
    · exact h
  | claim w =>
    simp only [step]
    split
    · exact h
    · rcases OpenWorkDedupIndex.claim_cases s.index (fingerprint w) w with ⟨_, hrun⟩ | ⟨_, e, hrun⟩
      · rw [hrun]
        refine InsertionDict.forall_set (fun key w' hget => ?_) ⟨List.mem_cons_self, rfl⟩
        exact ⟨List.mem_cons_of_mem w (h key w' hget).1, (h key w' hget).2⟩
      · rw [hrun]
        exact h

theorem oneHolder_claimed {s : DedupRun} {w : String} (h : s.OneHolder fingerprint) (hw : w ∉ s.ended)
    (index : OpenWorkDedupIndex) (callers : List String) :
    OneHolder fingerprint { s with index, callers, claimed := w :: s.claimed } ↔
      ∀ w', s.Holds w' → fingerprint w' = fingerprint w → w' = w := by
  constructor
  · intro hnew w' hholds hkey
    exact hnew w' w ⟨List.mem_cons_of_mem w hholds.1, hholds.2⟩ ⟨List.mem_cons_self, hw⟩ hkey
  · rintro hfree a b ⟨ha, hopen⟩ ⟨hb, hopen'⟩ hkey
    rcases List.mem_cons.mp ha with rfl | hclaimed
    · rcases List.mem_cons.mp hb with rfl | hclaimed'
      · rfl
      · exact (hfree b ⟨hclaimed', hopen'⟩ hkey.symm).symm
    · rcases List.mem_cons.mp hb with rfl | hclaimed'
      · exact hfree a ⟨hclaimed, hopen⟩ hkey
      · exact h a b ⟨hclaimed, hopen⟩ ⟨hclaimed', hopen'⟩ hkey

theorem oneHolder_step_iff {s : DedupRun} (hrecorded : s.Recorded fingerprint) (h : s.OneHolder fingerprint)
    (i : DedupStep) : (s.step fingerprint i).OneHolder fingerprint ↔ s.Guarded fingerprint i := by
  cases i with
  | terminate w =>
    refine iff_of_true ?_ trivial
    intro a b ha hb
    exact h a b ⟨ha.1, fun he => ha.2 (List.mem_cons_of_mem w he)⟩ ⟨hb.1, fun he => hb.2 (List.mem_cons_of_mem w he)⟩
  | release w =>
    refine iff_of_true ?_ trivial
    simp only [step]
    split <;> exact h
  | claim w =>
    simp only [step, Guarded]
    by_cases hw : w ∈ s.ended
    · rw [if_pos hw]
      exact iff_of_true h fun hopen => absurd hw hopen
    · rw [if_neg hw]
      rcases OpenWorkDedupIndex.claim_cases s.index (fingerprint w) w with ⟨hown, hrun⟩ | ⟨⟨w', hget, _⟩, e, hrun⟩
      · rw [hrun]
        rw [oneHolder_claimed h hw]
        constructor
        · intro hfree _ w' hholds hkey hne
          exact absurd (hfree w' hholds hkey) hne
        · intro hguard w' hholds hkey
          by_contra hne
          obtain ⟨x, hx⟩ := InsertionDict.contains_iff.mp (hguard hw w' hholds hkey hne)
          obtain rfl := hown x hx
          exact hne (h w' x hholds ⟨(hrecorded _ _ hx).1, hw⟩ hkey)
      · rw [hrun]
        exact iff_of_true h fun _ _ _ _ _ => InsertionDict.contains_iff.mpr ⟨w', hget⟩

/-- At no time do two open Works hold one fingerprint, exactly if no Work claims a fingerprint that a release has
taken from another Work that is still open. -/
theorem oneHolder_always_iff (fingerprint : String → String) (ops : List DedupStep) :
    (∀ before after, ops = before ++ after → (MachineRuns.run (step fingerprint) init before).OneHolder fingerprint) ↔
      MachineRuns.EveryStep (step fingerprint) (Guarded fingerprint) init ops := by
  refine MachineRuns.always_iff_everyStep (K := Recorded fingerprint) (fun s i h => recorded_step h i)
    (fun s i hrecorded h => oneHolder_step_iff hrecorded h i) ?_ ?_
  · intro key w hget
    cases hget
  · intro w w' hw
    cases hw.1

/-- The first Work releases twice, and the second time takes the entry of the second Work. -/
def secondRelease : List DedupStep :=
  [.claim "w1", .terminate "w1", .release "w1", .claim "w2", .release "w1", .claim "w3"]

theorem secondRelease_not_oneHolder :
    ¬∀ (fingerprint : String → String) (ops before after : List DedupStep), ops = before ++ after →
      (MachineRuns.run (step fingerprint) init before).OneHolder fingerprint := by
  intro h
  have hboth := h (fun _ => "f") secondRelease secondRelease [] rfl "w2" "w3" (by decide +kernel) (by decide +kernel) rfl
  exact absurd hboth (by decide)

end DedupRun

end AllTomorrow.Researcher
