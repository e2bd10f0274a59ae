import Mathlib
import AllTomorrow.AnsweredPrograms
import AllTomorrow.CrashTriples
import AllTomorrow.FactoryStaff
import AllTomorrow.MachineRuns

/-!
# Staffed roles

Configuration, policy and the judgements of the user follow each other, and each call may stop after
any of its statements. When each configured role has exactly one active member, and the factory can be
configured again.
-/

namespace AllTomorrow.IdeaFactory

open Prog MachineRuns

/-! ## Generations -/

theorem isDigit_of_mem_toString {n : ℕ} {c : Char} (h : c ∈ (toString n).toList) : c.isDigit = true :=
  Nat.isDigit_of_mem_toDigits (b := 10) (by decide) (by decide) (by
    rw [Nat.toString_eq_repr, Nat.toList_repr] at h
    exact h)

theorem takeWhile_staffId (role : String) (generation : ℕ) :
    (staffId role generation).toList.reverse.takeWhile Char.isDigit = (toString generation).toList.reverse ∧
      (staffId role generation).toList.reverse.dropWhile Char.isDigit = 'g' :: '-' :: role.toList.reverse := by
  have hid : (staffId role generation).toList.reverse =
      (toString generation).toList.reverse ++ 'g' :: '-' :: role.toList.reverse := by
    simp [staffId]
  have hdigits : ∀ c ∈ (toString generation).toList.reverse, c.isDigit = true :=
    fun c hc => isDigit_of_mem_toString (List.mem_reverse.mp hc)
  rw [hid, List.takeWhile_append_of_pos hdigits, List.dropWhile_append_of_pos hdigits]
  exact ⟨by simp [List.takeWhile], by simp [List.dropWhile]⟩

theorem staffId_inj {role role' : String} {g g' : ℕ} : staffId role g = staffId role' g' ↔ role = role' ∧ g = g' := by
  refine ⟨fun h => ?_, fun ⟨hrole, hg⟩ => by rw [hrole, hg]⟩
  have htake := (takeWhile_staffId role g).1.symm.trans (h ▸ (takeWhile_staffId role' g').1)
  have hdrop := (takeWhile_staffId role g).2.symm.trans (h ▸ (takeWhile_staffId role' g').2)
  injection hdrop with _ hdrop
  injection hdrop with _ hdrop
  exact ⟨String.toList_injective (List.reverse_injective hdrop),
    Nat.repr_injective (String.toList_injective (List.reverse_injective htake))⟩

namespace FactoryStore

variable {s s' : FactoryStore}

/-- A role has the generations 1 to `n`, of which the last has this status and the others are retired. -/
def Generations (s : FactoryStore) (role : String) (n : ℕ) (last : StaffStatus) : Prop :=
  ∀ g, (s.staff.get? (staffId role g)).map Staff.status =
    if g = 0 ∨ n < g then none else if g = n then some last else some .retired

/-- The rows stand under the ids that belong to their roles and generations. -/
def StaffKeyed (s : FactoryStore) : Prop :=
  ∀ k m, s.staff.get? k = some m → m.id = k ∧ k = staffId m.role m.generation

/-- Every role has its generations in order, the last one active; these roles have some. -/
structure Orderly (roles : List String) (s : FactoryStore) : Prop where
  keyed : s.StaffKeyed
  staffed : ∀ role, ∃ n, s.Generations role n .active ∧ (role ∈ roles → n ≠ 0)

theorem Orderly.mono {roles roles' : List String} (h : s.Orderly roles) (hroles : roles' ⊆ roles) : s.Orderly roles' := by
  refine ⟨h.keyed, fun role => ?_⟩
  obtain ⟨n, hn, hpos⟩ := h.staffed role
  exact ⟨n, hn, fun hrole => hpos (hroles hrole)⟩

def SameStaff (s s' : FactoryStore) : Prop :=
  ∀ k, (s'.staff.get? k).map (fun m => (m.id, m.role, m.generation, m.status)) =
    (s.staff.get? k).map fun m => (m.id, m.role, m.generation, m.status)

theorem sameStaff_of_eq (h : s'.staff = s.staff) : SameStaff s s' := fun k => by rw [h]

theorem sameStaff_updateWhere (k : String) {f : Staff → Staff} (hid : ∀ m, (f m).id = m.id) (hrole : ∀ m, (f m).role = m.role)
    (hgeneration : ∀ m, (f m).generation = m.generation) (hstatus : ∀ m, (f m).status = m.status) :
    SameStaff s { s with staff := updateWhere s.staff k f } := by
  intro j
  rw [get?_updateWhere]
  split
  · next hj =>
    rw [hj]
    cases s.staff.get? k with
    | none => rfl
    | some m => simp only [Option.map_some, hid, hrole, hgeneration, hstatus]
  · rfl

theorem SameStaff.status (h : SameStaff s s') (k : String) :
    (s'.staff.get? k).map Staff.status = (s.staff.get? k).map Staff.status := by
  have hk := congrArg (Option.map fun p : String × String × ℕ × StaffStatus => p.2.2.2) (h k)
  rwa [Option.map_map, Option.map_map] at hk

variable {role : String} {last : StaffStatus} {n : ℕ}

theorem SameStaff.generations (h : SameStaff s s')
    (hn : s.Generations role n last) : s'.Generations role n last := fun g => (h.status _).trans (hn g)

theorem SameStaff.row (h : SameStaff s s') {k : String} {m' : Staff} (hm : s'.staff.get? k = some m') :
    ∃ m, s.staff.get? k = some m ∧ m.id = m'.id ∧ m.role = m'.role ∧ m.generation = m'.generation ∧ m.status = m'.status := by
  have hk := h k
  rw [hm] at hk
  obtain ⟨m, hget, heq⟩ := Option.map_eq_some_iff.mp hk.symm
  obtain ⟨hid, hrole, hgeneration, hstatus⟩ := by simpa only [Prod.mk.injEq] using heq
  exact ⟨m, hget, hid, hrole, hgeneration, hstatus⟩

theorem SameStaff.symm (h : SameStaff s s') : SameStaff s' s := fun k => (h k).symm

theorem SameStaff.keyed (h : SameStaff s s') (hs : s.StaffKeyed) : s'.StaffKeyed := by
  intro k m' hm'
  obtain ⟨m, hget, hid, hrole, hgeneration, -⟩ := h.row hm'
  have hk := hs k m hget
  rwa [hid, hrole, hgeneration] at hk

variable {roles : List String}

theorem SameStaff.orderly (h : SameStaff s s') (hs : s.Orderly roles) : s'.Orderly roles := by
  refine ⟨h.keyed hs.keyed, fun role => ?_⟩
  obtain ⟨n, hn, hpos⟩ := hs.staffed role
  exact ⟨n, h.generations hn, hpos⟩

/-! ### Hiring and retiring -/

theorem get?_staff_hire (now : Datetime) (role name modelGroup : String) (g : ℕ) (level : ℤ) (scopes : List String)
    (k : String) :
    (s.hire now role name modelGroup g level scopes).staff.get? k =
      if k = staffId role g then (s.staff.get? k).or (some
        { id := staffId role g, role := role, name := name, modelGroup := modelGroup, generation := g, hiredAt := now
          changedAt := now, accessLevel := level, accessScopes := scopes })
      else s.staff.get? k := by
  unfold hire
  dsimp only
  split
  · next hcontains =>
    obtain ⟨m, hm⟩ := InsertionDict.contains_iff.mp hcontains
    split
    · next hk => rw [hk, hm, Option.some_or]
    · rfl
  · next hfresh =>
    rw [InsertionDict.get?_set]
    split
    · next hk =>
      have hnone := InsertionDict.contains_eq_false_iff.mp (Bool.not_eq_true _ ▸ hfresh)
      rw [hk, hnone, Option.none_or]
    · rfl

theorem StaffKeyed.hire (hs : s.StaffKeyed) (now : Datetime) (role name modelGroup : String) (g : ℕ) (level : ℤ)
    (scopes : List String) : (s.hire now role name modelGroup g level scopes).StaffKeyed := by
  intro k m hm
  rw [get?_staff_hire] at hm
  split at hm
  · next hk =>
    rcases Option.or_eq_some_iff.mp hm with hold | ⟨-, hnew⟩
    · exact hs k m hold
    · cases hnew
      exact ⟨hk.symm, hk⟩
  · exact hs k m hm

theorem Generations.hire (h : s.Generations role n .retired) (now : Datetime)
    (name modelGroup : String) (level : ℤ) (scopes : List String) :
    (s.hire now role name modelGroup (n + 1) level scopes).Generations role (n + 1) .active := by
  intro g
  rw [get?_staff_hire]
  have hg := h g
  by_cases hnext : g = n + 1
  · have hfresh : s.staff.get? (staffId role g) = none := by
      rw [if_pos (.inr (by omega))] at hg
      exact Option.map_eq_none_iff.mp hg
    rw [if_pos (by rw [hnext]), hfresh, if_neg (by omega), if_pos hnext]
    rfl
  · have hbeyond : (g = 0 ∨ n < g) ↔ (g = 0 ∨ n + 1 < g) := by omega
    rw [if_neg (fun hid => hnext (staffId_inj.mp hid).2), hg, if_neg hnext]
    simp only [hbeyond, ite_self]

theorem generations_hire_of_ne {role role' : String} (hne : role ≠ role')
    (h : s.Generations role n last) (now : Datetime) (name modelGroup : String) (g : ℕ) (level : ℤ) (scopes : List String) :
    (s.hire now role' name modelGroup g level scopes).Generations role n last := by
  intro j
  rw [get?_staff_hire, if_neg fun hid => hne (staffId_inj.mp hid).1]
  exact h j

theorem generations_zero {last last' : StaffStatus} (h : s.Generations role 0 last) : s.Generations role 0 last' := by
  intro g
  rw [h g]
  split
  · rfl
  · next hsome => exact absurd (Nat.eq_zero_or_pos g) (by tauto)

theorem hire_eq_self (h : s.Generations role n last) {g : ℕ} (hg : g ≠ 0)
    (hn : g ≤ n) (now : Datetime) (name modelGroup : String) (level : ℤ) (scopes : List String) :
    s.hire now role name modelGroup g level scopes = s := by
  have hsome := h g
  rw [if_neg (by omega)] at hsome
  have hcontains : s.staff.contains (staffId role g) = true := by
    refine InsertionDict.contains_iff.mpr ?_
    cases hget : s.staff.get? (staffId role g) with
    | none =>
      rw [hget] at hsome
      split at hsome <;> cases hsome
    | some m => exact ⟨m, rfl⟩
  unfold FactoryStore.hire
  dsimp only
  rw [if_pos hcontains]

theorem Orderly.hireFirst (h : s.Orderly roles) (now : Datetime) (role name modelGroup : String)
    (level : ℤ) (scopes : List String) : (s.hire now role name modelGroup 1 level scopes).Orderly (role :: roles) := by
  refine ⟨h.keyed.hire now role name modelGroup 1 level scopes, fun other => ?_⟩
  obtain ⟨n, hn, hpos⟩ := h.staffed other
  by_cases hrole : other = role
  · subst hrole
    cases n with
    | zero => exact ⟨1, (generations_zero hn).hire now name modelGroup level scopes, fun _ => Nat.one_ne_zero⟩
    | succ n =>
      rw [hire_eq_self hn Nat.one_ne_zero (by omega)]
      exact ⟨n + 1, hn, fun _ => Nat.succ_ne_zero n⟩
  · refine ⟨n, generations_hire_of_ne hrole hn now name modelGroup 1 level scopes, fun hmem => hpos ?_⟩
    exact (List.mem_cons.mp hmem).resolve_left hrole

theorem get?_staff_retire (now : Datetime) (id k : String) :
    ((Statement.retire id).exec now s).2.staff.get? k =
      if k = id then (s.staff.get? id).map fun m => { m with status := .retired, retiredAt := some now }
      else s.staff.get? k := get?_updateWhere ..

theorem StaffKeyed.retire (hs : s.StaffKeyed) (now : Datetime) (id : String) :
    ((Statement.retire id).exec now s).2.StaffKeyed := by
  intro k m hm
  rw [get?_staff_retire] at hm
  split at hm
  · next hk =>
    obtain ⟨m', hget, rfl⟩ := Option.map_eq_some_iff.mp hm
    exact hk ▸ hs id m' hget
  · exact hs k m hm

theorem Generations.retire (h : s.Generations role n .active) (now : Datetime) :
    ((Statement.retire (staffId role n)).exec now s).2.Generations role n .retired := by
  intro g
  rw [get?_staff_retire]
  have hg := h g
  split
  · next hid =>
    obtain rfl := (staffId_inj.mp hid).2
    rw [Option.map_map]
    by_cases hzero : g = 0
    · rw [if_pos (.inl hzero)] at hg ⊢
      rw [Option.map_eq_none_iff] at hg ⊢
      exact hg
    · rw [if_neg (by omega), if_pos rfl] at hg ⊢
      obtain ⟨m, hm, -⟩ := Option.map_eq_some_iff.mp hg
      rw [hm]
      rfl
  · next hid =>
    have hne : g ≠ n := fun he => hid (by rw [he])
    rw [hg]
    simp only [hne, if_false]

theorem generations_retire_of_ne {role role' : String} (hne : role ≠ role') {n g : ℕ}
    (h : s.Generations role n last) (now : Datetime) :
    ((Statement.retire (staffId role' g)).exec now s).2.Generations role n last := by
  intro j
  rw [get?_staff_retire, if_neg fun hid => hne (staffId_inj.mp hid).1]
  exact h j

variable {m : Staff}

theorem mem_activeStaff : m ∈ s.activeStaff role ↔ ∃ k, s.staff.get? k = some m ∧ m.role = role ∧ m.status = .active := by
  unfold activeStaff
  rw [List.mem_insertionSort, List.mem_filter, InsertionDict.mem_values_iff]
  simp

theorem mem_listStaff : m ∈ s.listStaff false ↔ ∃ k, s.staff.get? k = some m ∧ m.status = .active := by
  unfold listStaff
  rw [List.mem_insertionSort, List.mem_filter, InsertionDict.mem_values_iff]
  simp

def OneActive (s : FactoryStore) (role : String) : Prop :=
  ∃! k, ∃ m, s.staff.get? k = some m ∧ m.role = role ∧ m.status = .active

theorem Generations.active_row (h : s.Generations role n last)
    (hkeyed : s.StaffKeyed) {k : String} (hm : s.staff.get? k = some m) (hrole : m.role = role)
    (hactive : m.status = .active) : k = staffId role n ∧ m.generation = n ∧ n ≠ 0 ∧ last = .active := by
  obtain ⟨-, hk⟩ := hkeyed k m hm
  rw [hrole] at hk
  have hg := h m.generation
  rw [← hk, hm, Option.map_some, hactive] at hg
  split at hg
  · cases hg
  · next hsome =>
    split at hg
    · next he => exact ⟨he ▸ hk, he, by omega, (Option.some.inj hg).symm⟩
    · cases hg

theorem Generations.last_row (h : s.Generations role n last) (hn : n ≠ 0) :
    ∃ m, s.staff.get? (staffId role n) = some m ∧ m.status = last := by
  have hg := h n
  rw [if_neg (by omega), if_pos rfl] at hg
  exact Option.map_eq_some_iff.mp hg

theorem Orderly.oneActive (h : s.Orderly roles) (hrole : role ∈ roles) : s.OneActive role := by
  obtain ⟨n, hn, hpos⟩ := h.staffed role
  obtain ⟨m, hm, hactive⟩ := hn.last_row (hpos hrole)
  have hid := (h.keyed _ m hm).2
  refine ⟨staffId role n, ⟨m, hm, (staffId_inj.mp hid).1.symm, hactive⟩, ?_⟩
  rintro k ⟨m', hm', hrole', hactive'⟩
  exact (hn.active_row h.keyed hm' hrole' hactive').1

theorem Orderly.activeStaff_ne_nil (h : s.Orderly roles) (hrole : role ∈ roles) : s.activeStaff role ≠ [] := by
  obtain ⟨k, ⟨m, hm⟩, -⟩ := h.oneActive hrole
  exact List.ne_nil_of_mem (mem_activeStaff.mpr ⟨k, hm⟩)

theorem Generations.activeStaff_eq_nil (h : s.Generations role n .retired)
    (hkeyed : s.StaffKeyed) : s.activeStaff role = [] := by
  refine List.eq_nil_iff_forall_not_mem.mpr fun m hm => ?_
  obtain ⟨k, hget, hrole, hactive⟩ := mem_activeStaff.mp hm
  cases (h.active_row hkeyed hget hrole hactive).2.2.2

end FactoryStore

open FactoryStore

def Replaces : FactoryAction → Prop
  | .sql (.hire _ _ _ generation _ _) _ => generation ≠ 1
  | _ => False

def LeavesStaff : FactoryAction → Prop
  | .sql (.hire ..) _ | .sql (.retire _) _ => False
  | _ => True

theorem LeavesStaff.not_replaces {a : FactoryAction} (h : LeavesStaff a) : ¬Replaces a := by
  rintro hreplaces
  cases a with
  | sql st now => cases st <;> first | exact h.elim | exact hreplaces.elim
  | _ => exact hreplaces

section Calls

variable {π : Type} {ext : FactoryExternals π}

theorem sameStaff_handler (ext : FactoryExternals π) {a : FactoryAction} (h : LeavesStaff a) (w : FactoryWorld π) :
    SameStaff w.store (FactoryWorld.handler ext a w).2.store := by
  cases a with
  | sql st now =>
    cases st with
    | hire => exact h.elim
    | retire => exact h.elim
    | setAccess id level scopes bonus =>
      exact sameStaff_updateWhere id (fun _ => rfl) (fun _ => rfl) (fun _ => rfl) fun _ => rfl
    | setStaffGroup id modelGroup =>
      exact sameStaff_updateWhere id (fun _ => rfl) (fun _ => rfl) (fun _ => rfl) fun _ => rfl
    | putIdea idea => exact sameStaff_of_eq (staff_putIdea idea)
    | putProposal proposalId topicId ideaId body => exact sameStaff_of_eq (staff_putProposal ..)
    | addTopic topicId text =>
      refine sameStaff_of_eq ?_
      change (Statement.exec now (.addTopic topicId text) w.store).2.staff = _
      unfold Statement.exec
      dsimp only
      split <;> rfl
    | event kind topicId staffId dedupe => exact sameStaff_of_eq (staff_addEvent _)
    | _ => exact sameStaff_of_eq rfl
  | _ => exact sameStaff_of_eq rfl

variable (roster : Roster)

theorem requests_voteSamples (member : Staff) (ps : List Proposal) (env : Supply) :
    TaskRequests LeavesStaff (voteSamples roster member ps env) := by
  induction ps generalizing env with
  | nil => trivial
  | cons p rest ih => exact TaskRequests.bind (taskRequests_sql trivial) fun _ => TaskRequests.bind (ih _) fun _ => trivial

theorem requests_samples (member : Staff) (env : Supply) : TaskRequests LeavesStaff (samples roster member env) := by
  refine TaskRequests.bind (taskRequests_sql trivial) fun proposals => taskRequests_ofExcept fun decided _ => ?_
  dsimp only
  split
  · exact TaskRequests.bind (taskRequests_sql trivial) fun _ => trivial
  split
  · exact TaskRequests.bind (taskRequests_sql trivial) fun _ => taskRequests_ofExcept fun _ _ => trivial
  split
  · exact requests_voteSamples ..
  · trivial

/-- Before a replacement is hired some role has nobody, before any other request all is in order. -/
def Between (roles : List String) (a : FactoryAction) (w : FactoryWorld π) : Prop :=
  (¬Replaces a ∧ w.store.Orderly roles) ∨
    (Replaces a ∧ w.store.StaffKeyed ∧ ∃ role n, n ≠ 0 ∧ w.store.Generations role n .retired)

variable {roles : List String} {P : FactoryWorld π → Prop}

theorem crashSafe_leavesStaff {α : Type} {x : FactoryTask α} (hx : TaskRequests LeavesStaff x) (hP : ∀ w w', SameStaff w.store w'.store → P w → P w') :
    CrashSafe (FactoryWorld.handler ext) (fun w => w.store.Orderly roles) (Between roles) P x fun _ => P := by
  refine TaskRequests.crashSafe_frame (fun a w ha hJ hPw => ?_) (fun a w ha hJ => .inl ⟨ha.not_replaces, hJ⟩) hx
  have hsame := sameStaff_handler ext ha w
  exact ⟨hsame.orderly hJ, hP w _ hsame hPw⟩

structure Serving (members : List Staff) (s : FactoryStore) : Prop where
  active : ∀ m ∈ members, ∃ m', s.staff.get? m.id = some m' ∧ m'.role = m.role ∧ m'.generation = m.generation ∧
    m'.status = .active
  roles : members.Pairwise fun m m' => m.role ≠ m'.role

variable {members : List Staff}

theorem Serving.of_same {s s' : FactoryStore} (hsame : SameStaff s s') (h : Serving members s) : Serving members s' := by
  refine ⟨fun m hm => ?_, h.roles⟩
  obtain ⟨m', hget, hrole, hgeneration, hactive⟩ := h.active m hm
  obtain ⟨m'', hget'', -, hrole'', hgeneration'', hactive''⟩ := hsame.symm.row hget
  exact ⟨m'', hget'', hrole''.trans hrole, hgeneration''.trans hgeneration, hactive''.trans hactive⟩

theorem serving_listStaff {s : FactoryStore} (h : s.Orderly roles) : Serving (s.listStaff false) s := by
  refine ⟨fun m hm => ?_, ?_⟩
  · obtain ⟨k, hget, hactive⟩ := mem_listStaff.mp hm
    exact ⟨m, (h.keyed k m hget).1 ▸ hget, rfl, rfl, hactive⟩
  · have hnodup : (s.listStaff false).Pairwise fun m m' => m.id ≠ m'.id := by
      unfold listStaff
      refine (List.Perm.pairwise_iff (fun h => h.symm) (List.perm_insertionSort _ _)).mpr (List.Pairwise.filter _ ?_)
      exact List.pairwise_map.mp (InsertionDict.nodup_map_values fun k m hm => (h.keyed k m hm).1)
    refine List.Pairwise.imp_of_mem (fun {m m'} hm hm' hid hrole => hid ?_) hnodup
    obtain ⟨k, hget, hactive⟩ := mem_listStaff.mp hm
    obtain ⟨k', hget', hactive'⟩ := mem_listStaff.mp hm'
    obtain ⟨n, hn, -⟩ := h.staffed m.role
    have hk := (hn.active_row h.keyed hget rfl hactive).1
    have hk' := (hn.active_row h.keyed hget' hrole.symm hactive').1
    rw [(h.keyed k m hget).1, (h.keyed k' m' hget').1, hk, hk']

theorem crashSafe_reportEach (members : List Staff) (env : Supply) (hP : ∀ w w', SameStaff w.store w'.store → P w → P w') :
    CrashSafe (FactoryWorld.handler ext) (fun w => w.store.Orderly roles) (Between roles) P (reportEach roster members env)
      fun report w => P w ∧ report.map StaffReport.toStaff = members := by
  induction members generalizing env with
  | nil => exact crashSafe_pure fun w hw => ⟨hw, rfl⟩
  | cons member rest ih =>
    refine CrashSafe.bind (crashSafe_leavesStaff (requests_samples ..) hP) fun found => ?_
    refine crashSafe_ofExcept fun verdict _ => CrashSafe.bind (ih _) fun others => crashSafe_pure fun w hw => ⟨hw.1, ?_⟩
    exact congrArg (member :: ·) hw.2

theorem crashSafe_evaluate (env : Supply) :
    CrashSafe (FactoryWorld.handler ext) (fun w => w.store.Orderly roles) (Between roles) (fun _ => True)
      (evaluate roster env) fun report w => Serving (report.map StaffReport.toStaff) w.store := by
  intro w hJ _
  refine ⟨.inl ⟨id, hJ⟩, ?_⟩
  have hstable (w₁ w₂ : FactoryWorld π) (hsame : SameStaff w₁.store w₂.store)
      (h : Serving (w.store.listStaff false) w₁.store) : Serving (w.store.listStaff false) w₂.store := h.of_same hsame
  refine (crashSafe_reportEach roster (w.store.listStaff false) (env.sub 1) hstable w hJ (serving_listStaff hJ)).mono ?_
  rintro result w' ⟨hJ', hserving⟩
  refine ⟨hJ', fun report hreport => ?_⟩
  obtain ⟨hserves, hreported⟩ := hserving report hreport
  rwa [hreported]

/-! ## Promotion and retirement -/

theorem requests_setAccess (id : String) (level : ℤ) (scopes : List String) (bonus : ℤ) (env : Supply) :
    TaskRequests LeavesStaff (Store.setAccess id level scopes (some bonus) env) :=
  TaskRequests.bind taskRequests_pure fun _ => TaskRequests.bind (taskRequests_sql trivial) fun _ => trivial

theorem Serving.of_others {s s' : FactoryStore} (h : Serving members s) {role : String}
    (hroles : ∀ m ∈ members, m.role ≠ role)
    (hsame : ∀ k m, s.staff.get? k = some m → m.role ≠ role → s'.staff.get? k = some m) : Serving members s' := by
  refine ⟨fun m hm => ?_, h.roles⟩
  obtain ⟨m', hget, hrole, hrest⟩ := h.active m hm
  exact ⟨m', hsame _ m' hget (hrole ▸ hroles m hm), hrole, hrest⟩

section Retirement

variable {row : Staff} {others : List Staff} {s : FactoryStore} (hs : s.Orderly roles) (hserving : Serving (row :: others) s)

include hs hserving

theorem retired (now : Datetime) : ((Statement.retire row.id).exec now s).2.StaffKeyed ∧ row.generation ≠ 0 ∧
      ((Statement.retire row.id).exec now s).2.Generations row.role row.generation .retired := by
  obtain ⟨m, hget, hrole, hgeneration, hactive⟩ := hserving.active row List.mem_cons_self
  obtain ⟨n, hn, -⟩ := hs.staffed row.role
  obtain ⟨hid, hlast, hpos, -⟩ := hn.active_row hs.keyed hget hrole hactive
  obtain rfl : n = row.generation := hlast.symm.trans hgeneration
  refine ⟨hs.keyed.retire now row.id, hpos, ?_⟩
  rw [hid]
  exact hn.retire now

/-- The replacement restores the order, and the other members go on serving. -/
theorem replaced (now later : Datetime) (name target : String) (level : ℤ) (scopes : List String) :
    (((Statement.retire row.id).exec now s).2.hire later row.role name target (row.generation + 1) level scopes).Orderly roles ∧
      Serving others
        (((Statement.retire row.id).exec now s).2.hire later row.role name target (row.generation + 1) level scopes) := by
  obtain ⟨hkeyed, hpos, hretired⟩ := retired hs hserving now
  have hid : row.id = staffId row.role row.generation := by
    obtain ⟨m, hget, hrole, hgeneration, -⟩ := hserving.active row List.mem_cons_self
    rw [(hs.keyed _ m hget).2, hrole, hgeneration]
  refine ⟨⟨hkeyed.hire later row.role name target _ level scopes, fun role => ?_⟩, ?_⟩
  · by_cases hrole : role = row.role
    · rw [hrole]
      exact ⟨row.generation + 1, hretired.hire later name target level scopes, fun _ => Nat.succ_ne_zero _⟩
    · obtain ⟨n, hn, hroles⟩ := hs.staffed role
      have hkept := generations_retire_of_ne (g := row.generation) hrole hn now
      rw [← hid] at hkept
      exact ⟨n, generations_hire_of_ne hrole hkept later name target _ level scopes, hroles⟩
  · obtain ⟨hfirst, hrest⟩ := List.pairwise_cons.mp hserving.roles
    refine Serving.of_others ⟨fun m hm => hserving.active m (List.mem_cons_of_mem _ hm), hrest⟩
      (fun m hm => (hfirst m hm).symm) fun k m hget hne => ?_
    have hk := (hs.keyed k m hget).2
    rw [get?_staff_hire, if_neg (fun h => hne (staffId_inj.mp (hk.symm.trans h)).1), get?_staff_retire,
      if_neg (fun h => hne (staffId_inj.mp (hk.symm.trans (h.trans hid))).1)]
    exact hget

end Retirement

theorem crashSafe_applyRow (actor : String) (row : StaffReport) (others : List Staff) (env : Supply) :
    CrashSafe (FactoryWorld.handler ext) (fun w => w.store.Orderly roles) (Between roles)
      (fun w => Serving (row.toStaff :: others) w.store) (applyRow roster actor row env)
      fun _ w => Serving others w.store := by
  have hstable : ∀ w w' : FactoryWorld π, SameStaff w.store w'.store → Serving others w.store → Serving others w'.store :=
    fun _ _ hsame h => h.of_same hsame
  have hothers : ∀ w : FactoryWorld π, Serving (row.toStaff :: others) w.store → Serving others w.store := fun w h =>
    ⟨fun m hm => h.active m (List.mem_cons_of_mem _ hm), (List.pairwise_cons.mp h.roles).2⟩
  unfold applyRow
  cases row.verdict with
  | evaluating => exact crashSafe_pure hothers
  | keep => exact crashSafe_pure hothers
  | promote =>
    refine (crashSafe_ofExcept fun next _ => ?_).weaken hothers
    cases next with
    | none => exact crashSafe_pure fun _ h => h
    | some target =>
      refine crashSafe_leavesStaff ?_ hstable
      refine TaskRequests.bind (taskRequests_sql trivial) fun _ => TaskRequests.bind (requests_setAccess ..) fun _ => ?_
      exact TaskRequests.bind (taskRequests_sql trivial) fun _ => TaskRequests.bind (taskRequests_sql trivial) fun _ => trivial
  | retire =>
    refine crashSafe_ofExcept fun target _ w hJ hserving => ?_
    obtain ⟨hkeyed, hpos, hretired⟩ := retired hJ hserving (env.sub 0).utcNow
    obtain ⟨hordered, hserves⟩ := replaced hJ hserving (env.sub 0).utcNow (env.sub 1).utcNow row.name target
      (baseAccess roster row.role).1 (baseAccess roster row.role).2
    refine ⟨.inl ⟨id, hJ⟩, .inr ⟨fun h => hpos (Nat.succ.inj h), hkeyed, _, _, hpos, hretired⟩, ?_⟩
    have htail : TaskRequests LeavesStaff (do
        sql (.audit actor "staff_retire") (env.sub 2)
        sql (.event "staff" none (some (staffId row.role (row.generation + 1))) none) (env.sub 3)
        return [.retire row.id row.samples row.right row.modelGroup (staffId row.role (row.generation + 1)) target] :
          FactoryTask (List StaffAction)) :=
      TaskRequests.bind (taskRequests_sql trivial) fun _ => TaskRequests.bind (taskRequests_sql trivial) fun _ => trivial
    exact crashSafe_leavesStaff htail hstable ⟨_, w.outside⟩ hordered hserves

theorem crashSafe_applyEach (actor : String) (report : List StaffReport) (env : Supply) :
    CrashSafe (FactoryWorld.handler ext) (fun w => w.store.Orderly roles) (Between roles)
      (fun w => Serving (report.map StaffReport.toStaff) w.store) (applyEach roster actor report env) fun _ _ => True := by
  induction report generalizing env with
  | nil => exact crashSafe_pure fun _ _ => trivial
  | cons row rest ih =>
    exact CrashSafe.bind (crashSafe_applyRow roster actor row _ _) fun _ => CrashSafe.bind (ih _) fun _ =>
      crashSafe_pure fun _ _ => trivial

theorem crashSafe_applyPolicy (actor : String) (env : Supply) :
    CrashSafe (FactoryWorld.handler ext) (fun w => w.store.Orderly roles) (Between roles) (fun _ => True)
      (applyPolicy roster actor env) fun _ _ => True :=
  CrashSafe.bind (crashSafe_evaluate roster _) fun report => crashSafe_applyEach roster actor report _

variable {w : FactoryWorld π}

/-- Each member of the roster can be hired, and then is. -/
theorem allPoints_hireEach (members : List RosterMember) (env : Supply) {roles' : List String} (hroles : roles ⊆ roles') (hw : w.store.Orderly roles') :
    AllPoints (FactoryWorld.handler ext) (Between roles)
      (fun r w' => r = .ok () ∧ w'.store.Orderly (members.map RosterMember.role ++ roles')) (hireEach members env).run w := by
  induction members generalizing env roles' w with
  | nil => exact ⟨rfl, hw⟩
  | cons member rest ih =>
    have hhired := hw.hireFirst (env.sub 0).utcNow member.role member.name member.modelGroup member.accessLevel
      member.accessScopes
    have hsub : roles ⊆ member.role :: roles' := List.subset_cons_of_subset _ hroles
    refine ⟨.inl ⟨fun h => h rfl, hw.mono hroles⟩, .inl ⟨id, hhired.mono hsub⟩, ?_⟩
    have hactive := hhired.activeStaff_ne_nil List.mem_cons_self
    have hend {w' : FactoryWorld π} (hw' : w'.store.Orderly (member.role :: roles')) :=
      (ih (env.sub 3) hsub hw').mono fun r w'' hr => (⟨hr.1, hr.2.mono (by simp)⟩ :
        r = .ok () ∧ w''.store.Orderly ((member :: rest).map RosterMember.role ++ roles'))
    dsimp only [FactoryWorld.handler, Statement.exec, id]
    cases hfound : FactoryStore.activeStaff _ member.role with
    | nil => exact absurd hfound hactive
    | cons active _ =>
      refine ⟨.inl ⟨id, hhired.mono hsub⟩, .inl ⟨id, hhired.mono hsub⟩, hend ?_⟩
      refine SameStaff.orderly ?_ hhired
      exact sameStaff_updateWhere active.id (fun _ => rfl) (fun _ => rfl) (fun _ => rfl) fun _ => rfl

theorem allPoints_configure {repr : ProfileSource → String} {roster : Roster} (hroster : checkRoster repr roster = .ok ())
    (env : Supply) (hw : w.store.Orderly roles) : AllPoints (FactoryWorld.handler ext) (Between roles)
      (fun r w' => r = .ok () ∧ w'.store.Orderly (roster.staff.map RosterMember.role ++ roles))
      (configure repr roster env).run w := by
  unfold configure
  rw [hroster]
  exact allPoints_hireEach roster.staff env (List.Subset.refl roles) hw

def onlyRole (role : String) : Roster where
  ideasPerTopic := 1
  councilRounds := 1
  councilPassVotes := 0
  evaluationMinSamples := 1
  promotes _ _ := false
  retires _ _ := false
  tiers := []
  staff := [{ role := role, name := "", modelGroup := "" }]
  profileSources := []
  councilShare := some .summary

theorem checkRoster_onlyRole (repr : ProfileSource → String) (role : String) : checkRoster repr (onlyRole role) = .ok () := rfl

theorem configure_vacant (repr : ProfileSource → String) (hkeyed : w.store.StaffKeyed) {role : String}
    {n : ℕ} (hn : n ≠ 0) (hvacant : w.store.Generations role n .retired) (env : Supply) :
    (evalTask (FactoryWorld.handler ext) (configure repr (onlyRole role) env) w).1 =
      .error (.foreign "LookupError" ("no active staff for role " ++ role)) := by
  have hsame := hire_eq_self hvacant Nat.one_ne_zero (Nat.pos_of_ne_zero hn) (env.sub 0).utcNow "" "" 0 []
  have hnone := hvacant.activeStaff_eq_nil hkeyed
  have hhire : evalTask (FactoryWorld.handler ext) (Store.hire role "" "" 1 0 [] (env.sub 0)) w =
      (.ok (staffId role 1), w) := by
    change (Except.ok _, { w with store := w.store.hire (env.sub 0).utcNow role "" "" 1 0 [] }) = _
    rw [hsame]
  have hactive : evalTask (FactoryWorld.handler ext) (Store.activeStaff role (env.sub 1)) w =
      (.error (.foreign "LookupError" ("no active staff for role " ++ role)), w) := by
    refine (evalTask_bind_ok (a := []) ?_ _).trans rfl
    change (Except.ok (w.store.activeStaff role), w) = _
    rw [hnone]
  unfold configure
  rw [checkRoster_onlyRole]
  change (evalTask _ (hireEach [{ role := role, name := "", modelGroup := "" }] env) w).1 = _
  unfold hireEach
  rw [evalTask_bind_ok hhire, evalTask_bind_error hactive]

end Calls

/-! ## Runs -/

inductive OfficeCall where
  | configure (roster : Roster)
  | applyPolicy (roster : Roster) (actor : String)
  | decideProposal (proposalId : String) (decision : ProposalStatus) (reason actor : String)
  | reviewKill (ideaId : String) (verdict : Review) (actor : String)

def OfficeCall.program (repr : ProfileSource → String) (env : Supply) : OfficeCall → FactoryTask Unit
  | .configure roster => IdeaFactory.configure repr roster env
  | .applyPolicy roster actor => do let _ ← IdeaFactory.applyPolicy roster actor env
  | .decideProposal proposalId decision reason actor => Store.decideProposal proposalId decision reason actor env
  | .reviewKill ideaId verdict actor => Store.reviewKill ideaId verdict actor env

def OfficeCall.roles : OfficeCall → List String
  | .configure roster => roster.staff.map RosterMember.role
  | _ => []

structure Office (π : Type) where
  world : FactoryWorld π
  /-- the roles of the rosters whose configuration has returned -/
  configured : List String

inductive OfficeEvent where
  /-- a call, which stops after a number of statements or ends -/
  | call (c : OfficeCall) (env : Supply) (stop : Option ℕ)
  /-- what the workflow does to the other tables in the meantime -/
  | meanwhile (store : FactoryStore)

section Runs

variable {π : Type} (ext : FactoryExternals π) (repr : ProfileSource → String)

def Office.start (store : FactoryStore) (outside : π) : Office π := ⟨⟨{ store with staff := .empty }, outside⟩, []⟩

def Office.step (s : Office π) : OfficeEvent → Office π
  | .call c env none =>
    let result := evalTask (FactoryWorld.handler ext) (c.program repr env) s.world
    ⟨result.2, match result.1 with
      | .ok _ => c.roles ++ s.configured
      | .error _ => s.configured⟩
  | .call c env (some n) => { s with world := cutTask (FactoryWorld.handler ext) n (c.program repr env) s.world }
  | .meanwhile store => { s with world := { s.world with store := { store with staff := s.world.store.staff } } }

/-- The call stops between a retirement and the hiring of the replacement. -/
def StopsUnreplaced (s : Office π) : OfficeEvent → Prop
  | .call c env (some n) => ∃ a, pending (FactoryWorld.handler ext) n (c.program repr env).run s.world = some a ∧ Replaces a
  | _ => False

/-- Each configured role has exactly one active member, and every roster that passes its checks can be configured. -/
structure Office.Staffed (s : Office π) : Prop where
  active : ∀ role ∈ s.configured, s.world.store.OneActive role
  configures : ∀ roster env, checkRoster repr roster = .ok () →
    (evalTask (FactoryWorld.handler ext) (configure repr roster env) s.world).1 = .ok ()

variable {ext repr} {roles : List String}

theorem requests_decideProposal (proposalId : String) (decision : ProposalStatus) (reason actor : String) (env : Supply) :
    TaskRequests LeavesStaff (Store.decideProposal proposalId decision reason actor env) := by
  unfold Store.decideProposal
  split
  · trivial
  · refine TaskRequests.bind (taskRequests_sql trivial) fun rowcount => ?_
    split
    · trivial
    · exact taskRequests_sql trivial

theorem requests_reviewKill (ideaId : String) (verdict : Review) (actor : String) (env : Supply) :
    TaskRequests LeavesStaff (Store.reviewKill ideaId verdict actor env) := by
  refine TaskRequests.bind (TaskRequests.bind (taskRequests_sql trivial) fun _ => trivial) fun row => ?_
  cases row with
  | none => trivial
  | some row =>
    dsimp only
    split
    · trivial
    · exact TaskRequests.bind (taskRequests_sql trivial) fun _ => taskRequests_sql trivial

/-- A call keeps the order of the staff at every point but between a retirement and its replacement. -/
theorem allPoints_program (ext : FactoryExternals π) (repr : ProfileSource → String) (c : OfficeCall) (env : Supply) {w : FactoryWorld π} (hw : w.store.Orderly roles) :
    AllPoints (FactoryWorld.handler ext) (Between roles)
      (fun r w' => w'.store.Orderly roles ∧ (r = .ok () → w'.store.Orderly (c.roles ++ roles))) (c.program repr env).run w := by
  have hquiet {x : FactoryTask Unit} (hx : CrashSafe (FactoryWorld.handler ext) (fun w => w.store.Orderly roles)
      (Between roles) (fun _ => True) x fun _ _ => True) :
      AllPoints (FactoryWorld.handler ext) (Between roles)
        (fun r w' => w'.store.Orderly roles ∧ (r = .ok () → w'.store.Orderly ([] ++ roles))) x.run w :=
    (hx w hw trivial).mono fun _ _ h => ⟨h.1, fun _ => h.1⟩
  cases c with
  | configure roster =>
    cases hroster : checkRoster repr roster with
    | ok _ =>
      refine (allPoints_configure hroster env hw).mono fun r w' h => ⟨h.2.mono ?_, fun _ => h.2⟩
      exact List.subset_append_right _ _
    | error e =>
      change AllPoints _ _ _ (configure repr roster env).run w
      unfold configure
      rw [hroster]
      exact ⟨hw, fun h => by cases h⟩
  | applyPolicy roster actor =>
    exact hquiet (CrashSafe.bind (crashSafe_applyPolicy roster actor env) fun _ => crashSafe_pure fun _ _ => trivial)
  | decideProposal proposalId decision reason actor =>
    exact hquiet (crashSafe_leavesStaff (requests_decideProposal ..) fun _ _ _ h => h)
  | reviewKill ideaId verdict actor =>
    exact hquiet (crashSafe_leavesStaff (requests_reviewKill ..) fun _ _ _ h => h)

variable {s : Office π}

theorem orderly_step (hs : s.world.store.Orderly s.configured) {e : OfficeEvent} (he : ¬StopsUnreplaced ext repr s e) :
    (s.step ext repr e).world.store.Orderly (s.step ext repr e).configured := by
  cases e with
  | meanwhile store =>
    have hsame : SameStaff s.world.store (s.step ext repr (.meanwhile store)).world.store := sameStaff_of_eq rfl
    exact hsame.orderly hs
  | call c env stop =>
    have hpoints := allPoints_program ext repr c env hs
    cases stop with
    | none =>
      have hend := hpoints.eval
      unfold Office.step evalTask
      dsimp only
      generalize (c.program repr env).run.eval (FactoryWorld.handler ext) s.world = result at hend
      obtain ⟨r, w'⟩ := result
      cases r with
      | ok _ => exact hend.2 rfl
      | error e => exact hend.1
    | some n =>
      rcases hpoints.cut n with ⟨a, ha, hbetween⟩ | ⟨-, r, horderly, -⟩
      · rcases hbetween with ⟨-, horderly⟩ | ⟨hreplaces, -⟩
        · exact horderly
        · exact absurd ⟨a, ha, hreplaces⟩ he
      · exact horderly

theorem staffed_of_orderly (hs : s.world.store.Orderly s.configured) : s.Staffed ext repr :=
  ⟨fun _ hrole => hs.oneActive hrole, fun _ env hroster => (allPoints_configure hroster env hs).eval.1⟩

theorem not_staffed_of_stop (hs : s.world.store.Orderly s.configured) {e : OfficeEvent}
    (he : StopsUnreplaced ext repr s e) : ¬(s.step ext repr e).Staffed ext repr := by
  cases e with
  | meanwhile store => exact he.elim
  | call c env stop =>
    cases stop with
    | none => exact he.elim
    | some n =>
      obtain ⟨a, ha, hreplaces⟩ := he
      rcases (allPoints_program ext repr c env hs).cut n with ⟨b, hb, hbetween⟩ | ⟨hnone, -⟩
      · cases ha.symm.trans hb
        rcases hbetween with ⟨hno, -⟩ | ⟨-, hkeyed, role, n, hn, hvacant⟩
        · exact absurd hreplaces hno
        · intro hstaffed
          have hok := hstaffed.configures (onlyRole role) env (checkRoster_onlyRole repr role)
          cases (configure_vacant repr hkeyed hn hvacant env).symm.trans hok
      · cases ha.symm.trans hnone

end Runs

/-- Roles stay staffed, and the factory can be configured, in exactly the runs in which no call stops between a
retirement and the hiring of the replacement. -/
theorem staffed_iff {π : Type} (ext : FactoryExternals π) (repr : ProfileSource → String) (store : FactoryStore) (outside : π)
    (events : List OfficeEvent) :
    (∀ before after, events = before ++ after →
        (run (Office.step ext repr) (Office.start store outside) before).Staffed ext repr) ↔
      EveryStep (Office.step ext repr) (fun s e => ¬StopsUnreplaced ext repr s e) (Office.start store outside) events := by
  refine always_iff_of_invariant (J := fun s => s.world.store.Orderly s.configured) (fun s => staffed_of_orderly)
    (fun s e hs he => orderly_step hs he) (fun s e hs hstaffed he => not_staffed_of_stop hs he hstaffed) ?_
  refine ⟨fun k m hm => (by cases hm), fun role => ⟨0, fun g => ?_, fun hrole => (by cases hrole)⟩⟩
  rw [if_pos (by omega)]
  rfl

def strictRoster : Roster :=
  { onlyRole "ideator" with retires := fun right _ => right = 0, tiers := ["free"] }

def silentExternals : FactoryExternals Unit where
  chatJson _ _ _ _ s := (.ok .none, s)
  search _ _ s := (.ok [], s)
  sources s := (none, s)
  lookup _ _ s := (.absent, s)
  record _ _ _ _ s := (.ok (), s)
  startWorkflow _ s := (.ok (), s)
  cancelWorkflow _ s := (.ok (), s)

def proposedStore : FactoryStore :=
  { FactoryStore.empty with
    topics := (InsertionDict.empty : InsertionDict String Topic).set "t1" { id := "t1", text := "주제", createdAt := 0 }
    ideas := (InsertionDict.empty : InsertionDict String IdeaRow).set "t1-i1"
      { toIdea := ⟨"t1-i1", "t1", 1, "a", "", "", "ideator-g1"⟩, status := .proposed }
    proposals := (InsertionDict.empty : InsertionDict String Proposal).set "t1-i1-p"
      { id := "t1-i1-p", topicId := "t1", ideaId := "t1-i1", body := "\x7b\x7d", createdAt := 0 } }

/-- The proposal is rejected, and the policy stops once it has retired the ideator. -/
def retiredOnly : List OfficeEvent :=
  [.call (.configure strictRoster) (fun _ => ⟨1, ""⟩) none,
    .call (.decideProposal "t1-i1-p" .rejected "" "user") (fun _ => ⟨2, ""⟩) none,
    .call (.applyPolicy strictRoster "policy") (fun _ => ⟨3, ""⟩) (some 4)]

/-- The factory cannot be configured again. -/
theorem retired_unreplaced : ¬∀ events before after : List OfficeEvent, events = before ++ after →
    (run (Office.step silentExternals fun _ => "") (Office.start proposedStore ()) before).Staffed silentExternals fun _ => "" := by
  intro h
  have hok := (h retiredOnly retiredOnly [] (List.append_nil _).symm).configures strictRoster (fun _ => ⟨4, ""⟩) rfl
  have hraises : (evalTask (FactoryWorld.handler silentExternals) (configure (fun _ => "") strictRoster fun _ => ⟨4, ""⟩)
      (run (Office.step silentExternals fun _ => "") (Office.start proposedStore ()) retiredOnly).world).1.toOption = none := by
    decide +kernel
  rw [hok] at hraises
  cases hraises

end AllTomorrow.IdeaFactory
