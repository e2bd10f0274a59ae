import AllTomorrow.TerminalWork
import AllTomorrow.WorkClaims

/-!
# The list of broken Work

`WebControl.list_broken_work` reads the store once for the Goals of a user, once for the Works
of each Goal, and once for the Runs of each Work that is RUNNING or WAITING. On a store that
stays as it is the list has the FAILED Works and the stuck ones: those whose Runs have all
ended. A Work without a Run is not stuck.
-/

namespace AllTomorrow

open InsertionDict (get?_set_self mem_values_iff mem_values_of_get?)

open InMemoryStore Prog

structure BrokenWorkEntry where
  workId : String
  goalId : String
  title : String
  status : String
  stuck : Bool

namespace WebControl

/-- `bool(runs) and not any(r.is_active() for r in runs)`, for a Work that is RUNNING or WAITING. -/
def isStuck (env : Supply) (work : WorkRecord) : ServiceTask Bool := do
  if work.status = .running ∨ work.status = .waiting then
    let runs ← callStore (.listRuns work.workId) env
    return !runs.isEmpty && !runs.any RunRecord.isActive
  else return false

def brokenEntry (goal : GoalRecord) (work : WorkRecord) (stuck : Bool) : BrokenWorkEntry :=
  ⟨work.workId.val, goal.goalId.val, work.title, work.status.value, stuck⟩

def brokenOfGoal (goal : GoalRecord) : List WorkRecord → Supply → ServiceTask (List BrokenWorkEntry)
  | [], _ => return []
  | work :: rest, env => do
    let stuck ← isStuck (env.sub 0) work
    let others ← brokenOfGoal goal rest (env.sub 1)
    if work.status = .failed ∨ stuck = true then return brokenEntry goal work stuck :: others
    else return others

def brokenOfGoals : List GoalRecord → Supply → ServiceTask (List BrokenWorkEntry)
  | [], _ => return []
  | goal :: rest, env => do
    let works ← callStore (.listWork goal.goalId) (env.sub 0)
    let broken ← brokenOfGoal goal works (env.sub 1)
    let others ← brokenOfGoals rest (env.sub 2)
    return broken ++ others

def listBrokenWork (env : Supply) (user : String) : ServiceTask (List BrokenWorkEntry) := do
  let goals ← callStore (.listGoals (some user)) (env.sub 0)
  brokenOfGoals goals (env.sub 1)

end WebControl

namespace InMemoryStore

/-- The Work is RUNNING or WAITING and its Runs, of which it has some, have all ended. -/
def stuck (s : InMemoryStore) (work : WorkRecord) : Bool :=
  decide (work.status = .running ∨ work.status = .waiting) &&
    (!(s.listRuns work.workId).isEmpty && !(s.listRuns work.workId).any RunRecord.isActive)

def broken (s : InMemoryStore) (work : WorkRecord) : Bool := decide (work.status = .failed) || s.stuck work

end InMemoryStore

/-! ## What the list contains -/

section Listed

variable {π : Type} (ext : Externals π) (w : ServiceWorld π)

theorem evalTask_isStuck (env : Supply) (work : WorkRecord) :
    evalTask (ServiceWorld.handler ext) (WebControl.isStuck env work) w = (.ok (w.store.stuck work), w) := by
  unfold WebControl.isStuck InMemoryStore.stuck
  by_cases hrunning : work.status = .running ∨ work.status = .waiting
  · rw [if_pos hrunning, decide_eq_true hrunning, Bool.true_and]
    rfl
  · rw [if_neg hrunning, decide_eq_false hrunning, Bool.false_and]
    rfl

theorem evalTask_brokenOfGoal (goal : GoalRecord) (works : List WorkRecord) (env : Supply) :
    evalTask (ServiceWorld.handler ext) (WebControl.brokenOfGoal goal works env) w =
      (.ok ((works.filter w.store.broken).map fun work => WebControl.brokenEntry goal work (w.store.stuck work)), w) := by
  induction works generalizing env with
  | nil => rfl
  | cons work works ih =>
    unfold WebControl.brokenOfGoal
    rw [evalTask_bind_ok (evalTask_isStuck ext w (env.sub 0) work), evalTask_bind_ok (ih (env.sub 1))]
    by_cases hbroken : work.status = .failed ∨ w.store.stuck work = true
    · have hkept : w.store.broken work = true := by simpa [InMemoryStore.broken] using hbroken
      rw [if_pos hbroken, List.filter_cons_of_pos hkept]
      rfl
    · have hdropped : ¬w.store.broken work = true := by simpa [InMemoryStore.broken] using hbroken
      rw [if_neg hbroken, List.filter_cons_of_neg hdropped]
      rfl

theorem evalTask_brokenOfGoals (goals : List GoalRecord) (env : Supply) :
    evalTask (ServiceWorld.handler ext) (WebControl.brokenOfGoals goals env) w =
      (.ok (goals.flatMap fun goal => ((w.store.listWork goal.goalId).filter w.store.broken).map fun work =>
        WebControl.brokenEntry goal work (w.store.stuck work)), w) := by
  induction goals generalizing env with
  | nil => rfl
  | cons goal goals ih =>
    have hworks : evalTask (ServiceWorld.handler ext) (callStore (.listWork goal.goalId) (env.sub 0)) w =
        (.ok (w.store.listWork goal.goalId), w) := rfl
    unfold WebControl.brokenOfGoals
    rw [evalTask_bind_ok hworks, evalTask_bind_ok (evalTask_brokenOfGoal ext w goal _ (env.sub 1)),
      evalTask_bind_ok (ih (env.sub 2)), List.flatMap_cons]
    rfl

def brokenWork (s : InMemoryStore) (user : String) : List BrokenWorkEntry :=
  (s.listGoals (some user)).flatMap fun goal => ((s.listWork goal.goalId).filter s.broken).map fun work =>
    WebControl.brokenEntry goal work (s.stuck work)

theorem evalTask_listBrokenWork (env : Supply) (user : String) :
    evalTask (ServiceWorld.handler ext) (WebControl.listBrokenWork env user) w = (.ok (brokenWork w.store user), w) := by
  have hgoals : evalTask (ServiceWorld.handler ext) (callStore (.listGoals (some user)) (env.sub 0)) w =
      (.ok (w.store.listGoals (some user)), w) := rfl
  unfold WebControl.listBrokenWork
  rw [evalTask_bind_ok hgoals, evalTask_brokenOfGoals]
  rfl

end Listed

variable {s : InMemoryStore} {work : WorkRecord}

theorem stuck_iff : s.stuck work = true ↔ (work.status = .running ∨ work.status = .waiting) ∧
      (∃ j r, s.runs.get? j = some r ∧ r.workId = work.workId) ∧ NoActiveRun s work.workId := by
  have hsome : (s.listRuns work.workId).isEmpty = false ↔ ∃ j r, s.runs.get? j = some r ∧ r.workId = work.workId := by
    rw [List.isEmpty_eq_false_iff_exists_mem]
    simp only [InMemoryStore.listRuns, List.mem_filter, mem_values_iff, decide_eq_true_eq]
    constructor
    · rintro ⟨r, ⟨j, hget⟩, hkey⟩
      exact ⟨j, r, hget, hkey⟩
    · rintro ⟨j, r, hget, hkey⟩
      exact ⟨r, ⟨j, hget⟩, hkey⟩
  have hnone : (s.listRuns work.workId).any RunRecord.isActive = false ↔ NoActiveRun s work.workId := by
    rw [List.any_eq_false]
    simp only [InMemoryStore.listRuns, List.mem_filter, mem_values_iff, decide_eq_true_eq,
      Bool.not_eq_true]
    constructor
    · exact fun h j r hget hkey => h r ⟨⟨j, hget⟩, hkey⟩
    · rintro h r ⟨⟨j, hget⟩, hkey⟩
      exact h j r hget hkey
  unfold InMemoryStore.stuck
  rw [Bool.and_eq_true, Bool.and_eq_true, decide_eq_true_iff, Bool.not_eq_true', Bool.not_eq_true', hsome, hnone]

variable {k : WorkId}

/-- A stored Work is in the list of the owner of its Goal exactly if it is broken. -/
theorem listed_iff (hs : s.WellFormed) {goal : GoalRecord}
    (hwork : s.work.get? k = some work) (hgoal : s.goals.get? work.goalId = some goal) :
    (∃ entry ∈ brokenWork s goal.userId, entry.workId = k.val) ↔ s.broken work = true := by
  have hkey : work.workId = k := hs.work_key k work hwork
  have hgoalKey : goal.goalId = work.goalId := hs.goal_key _ goal hgoal
  have hmem : ∀ entry, entry ∈ brokenWork s goal.userId ↔ ∃ g ∈ s.listGoals (some goal.userId),
      ∃ v ∈ (s.listWork g.goalId).filter s.broken, WebControl.brokenEntry g v (s.stuck v) = entry := by
    intro entry
    rw [brokenWork, List.mem_flatMap]
    simp only [List.mem_map]
  constructor
  · rintro ⟨entry, hentry, hid⟩
    obtain ⟨g, _, v, hv, rfl⟩ := (hmem entry).mp hentry
    obtain ⟨hv, hbroken⟩ := List.mem_filter.mp hv
    obtain ⟨j, hj⟩ := mem_values_iff.mp (List.mem_filter.mp hv).1
    have hsame : j = k := by
      rw [← hs.work_key j v hj]
      exact congrArg WorkId.mk hid
    subst hsame
    rw [hwork, Option.some.injEq] at hj
    rwa [hj]
  · intro hbroken
    refine ⟨WebControl.brokenEntry goal work (s.stuck work), (hmem _).mpr ⟨goal, ?_, work, ?_, rfl⟩, ?_⟩
    · exact List.mem_filter.mpr ⟨mem_values_of_get? hgoal, decide_eq_true rfl⟩
    · refine List.mem_filter.mpr ⟨List.mem_filter.mpr ⟨mem_values_of_get? hwork, ?_⟩, hbroken⟩
      exact decide_eq_true hgoalKey.symm
    · rw [← hkey]
      rfl

/-! ## A Work that stays in sight -/

def InSight (s : InMemoryStore) (k : WorkId) : Prop :=
  ∃ work, s.work.get? k = some work ∧ (work.isTerminal = true ∨ s.stuck work = true)

/-- The call opens an active Run of the Work while it is open, or requests its cancellation. -/
def StoreCall.Hides (s : InMemoryStore) (c : StoreCall) (k : WorkId) : Prop :=
  Accepted s c ∧ match c.op with
    | .createRun run _ => run.workId = k ∧ run.isActive = true ∧
        ∃ work, s.work.get? k = some work ∧ work.isTerminal = false
    | .transitionWorkStatus j target _ _ _ => j = k ∧ target = .cancelRequested
    | _ => False

variable (c : StoreCall)

/-- A Run stays, with its Work, and one that has ended stays ended. -/
theorem run_kept_step (hs : s.WellFormed) {j : RunId} {r : RunRecord} (hget : s.runs.get? j = some r) :
    ∃ r', (storeStep s c).runs.get? j = some r' ∧ r'.workId = r.workId ∧ (r.isActive = false → r'.isActive = false) := by
  have hchange := run_change_step c hs j
  generalize (storeStep s c).runs.get? j = after at hchange
  generalize c.op = op at hchange
  cases hchange with
  | kept => exact ⟨r, hget, rfl, id⟩
  | created hkey hfresh hwork hactive =>
    rw [hfresh] at hget
    cases hget
  | attached hget' hrev =>
    rw [hget', Option.some.injEq] at hget
    subst hget
    exact ⟨_, rfl, rfl, id⟩
  | moved hget' hrev hmem =>
    rw [hget', Option.some.injEq] at hget
    subst hget
    refine ⟨_, rfl, rfl, ?_⟩
    intro hended
    rw [isActive_of_moves hmem] at hended
    cases hended

theorem noActiveRun_step (hs : s.WellFormed) (h : NoActiveRun s k)
    (hc : ∀ run event, c.op = .createRun run event → run.workId = k → run.isActive = false) :
    NoActiveRun (storeStep s c) k := by
  intro j r' hget' hkey
  have hchange := run_change_step c hs j
  generalize hop : c.op = op at hchange
  generalize (storeStep s c).runs.get? j = after at hchange hget'
  cases hchange with
  | kept => exact h j r' hget' hkey
  | created hid hfresh hwork hactive =>
    cases hget'
    exact hc _ _ hop hkey
  | @attached x rev ref event hget hrev =>
    cases hget'
    exact h j x hget hkey
  | @moved x target rev event ref hget hrev hmem =>
    cases hget'
    have hended := h j x hget hkey
    rw [isActive_of_moves hmem] at hended
    cases hended

theorem running_targets {status target : WorkStatus} (hstatus : status = .running ∨ status = .waiting)
    (hmem : target ∈ workTransitions status) (htarget : target ≠ .cancelRequested) :
    target ∈ terminalWorkStatuses ∨ target = .running ∨ target = .waiting := by
  rcases hstatus with rfl | rfl
  · cases target <;> simp_all [workTransitions, terminalWorkStatuses]
  · cases target <;> simp_all [workTransitions, terminalWorkStatuses]

/-- A Work that is in sight is moved to a status in which it is terminal or may be stuck, or to
CANCEL_REQUESTED. -/
theorem work_inSight_step (hs : s.WellFormed)
    (hget : s.work.get? k = some work) (hstatus : work.status = .running ∨ work.status = .waiting)
    (hc : ∀ rev event evidence, c.op ≠ .transitionWorkStatus k .cancelRequested rev event evidence) :
    ∃ work', (storeStep s c).work.get? k = some work' ∧ work'.workId = work.workId ∧
      (work'.isTerminal = true ∨ work'.status = .running ∨ work'.status = .waiting) := by
  have hchange := work_change_step c hs k
  generalize hop : c.op = op at hchange
  generalize (storeStep s c).work.get? k = after at hchange
  cases hchange with
  | kept => exact ⟨work, hget, rfl, .inr hstatus⟩
  | created hkey hfresh hgoal =>
    rw [hfresh] at hget
    cases hget
  | @moved v target event evidence hget' hmem =>
    rw [hget', Option.some.injEq] at hget
    subst hget
    refine ⟨_, rfl, rfl, ?_⟩
    have htarget : target ≠ .cancelRequested := by
      rintro rfl
      exact hc _ _ _ hop
    rcases running_targets hstatus hmem htarget with hterm | hrunning
    · exact .inl (decide_eq_true hterm)
    · exact .inr hrunning
  | claimed hget' hmem env' =>
    rw [hget', Option.some.injEq] at hget
    subst hget
    exact ⟨_, rfl, rfl, .inr (.inl rfl)⟩

theorem terminalWork_step (hs : s.WellFormed) (hget : s.work.get? k = some work) (hterm : work.isTerminal = true) :
    (storeStep s c).work.get? k = some work := by
  have hstatus : work.status ∈ terminalWorkStatuses := of_decide_eq_true hterm
  have hchange := work_change_step c hs k
  generalize c.op = op at hchange
  generalize (storeStep s c).work.get? k = after at hchange
  cases hchange with
  | kept => exact hget
  | created hkey hfresh hgoal =>
    rw [hfresh] at hget
    cases hget
  | moved hget' hmem =>
    rw [hget', Option.some.injEq] at hget
    subst hget
    rw [workTransitions_terminal hstatus] at hmem
    cases hmem
  | claimed hget' hmem env' =>
    rw [hget', Option.some.injEq] at hget
    subst hget
    rw [(claimCandidates_pending hmem).2] at hstatus
    exact absurd hstatus (by decide)

/-- A Work in sight stays in sight unless the call hides it. -/
theorem inSight_step (hs : s.WellFormed) (h : InSight s k) (hc : ¬c.Hides s k) : InSight (storeStep s c) k := by
  rcases accepted_or_same c hs with haccepted | hsame
  · obtain ⟨work, hget, hterm | hstuck⟩ := h
    · exact ⟨work, terminalWork_step c hs hget hterm, .inl hterm⟩
    · have hkey : work.workId = k := hs.work_key k work hget
      obtain ⟨hstatus, ⟨j, r, hrun, hof⟩, hidle⟩ := stuck_iff.mp hstuck
      have hopen : work.isTerminal = false := by
        rcases hstatus with hstatus | hstatus <;> simp [WorkRecord.isTerminal, hstatus, terminalWorkStatuses]
      have hmove : ∀ rev event evidence, c.op ≠ .transitionWorkStatus k .cancelRequested rev event evidence := by
        intro rev event evidence hop
        refine hc ⟨haccepted, ?_⟩
        rw [hop]
        exact ⟨rfl, rfl⟩
      have hcreate : ∀ run event, c.op = .createRun run event → run.workId = work.workId → run.isActive = false := by
        intro run event hop hof
        by_contra hactive
        refine hc ⟨haccepted, ?_⟩
        rw [hop]
        exact ⟨hof.trans hkey, Bool.of_not_eq_false hactive, work, hget, hopen⟩
      obtain ⟨work', hget', hkey', hterm' | hstatus'⟩ := work_inSight_step c hs hget hstatus hmove
      · exact ⟨work', hget', .inl hterm'⟩
      · refine ⟨work', hget', .inr (stuck_iff.mpr ⟨hstatus', ?_, ?_⟩)⟩
        · obtain ⟨r', hrun', hof', _⟩ := run_kept_step c hs hrun
          exact ⟨j, r', hrun', by rw [hof', hof, hkey']⟩
        · rw [hkey']
          exact noActiveRun_step c hs hidle hcreate
  · rwa [hsame]

/-- A Work that a call hides is in no list. -/
theorem not_inSight_of_hides (hs : s.WellFormed) (hc : c.Hides s k) : ¬InSight (storeStep s c) k := by
  obtain ⟨op, env⟩ := c
  obtain ⟨⟨v, s', haccepted⟩, hhides⟩ := hc
  have heffect := exec_effect env hs op
  change ¬InSight ((op.exec env).run s).state k
  change (op.exec env).run s = .ok v s' at haccepted
  rw [haccepted] at heffect ⊢
  rintro ⟨work', hget', hseen⟩
  cases op with
  | createRun run event =>
    obtain ⟨rfl, hactive, work, hget, hopen⟩ := hhides
    cases heffect with
    | read v hread => cases hread
    | runCreated _ _ hfresh hwork hone =>
      change s.work.get? run.workId = some work' at hget'
      rw [hget, Option.some.injEq] at hget'
      subst hget'
      rcases hseen with hterm | hstuck
      · rw [hopen] at hterm
        cases hterm
      · have hended := (stuck_iff.mp hstuck).2.2 run.runId run (get?_set_self _ _ _)
          (hs.work_key _ work hget).symm
        rw [hactive] at hended
        cases hended
  | transitionWorkStatus j target rev event evidence =>
    obtain ⟨rfl, rfl⟩ := hhides
    cases heffect with
    | read v hread => cases hread
    | @workMoved _ _ _ _ current hget hopen hmem htarget =>
      change (s.work.set j _).get? j = some work' at hget'
      rw [get?_set_self, Option.some.injEq] at hget'
      have hstatus : work'.status = .cancelRequested := by rw [← hget']; rfl
      rcases hseen with hterm | hstuck
      · rw [WorkRecord.isTerminal, hstatus] at hterm
        exact absurd hterm (by decide)
      · have hrunning := (stuck_iff.mp hstuck).1
        rw [hstatus] at hrunning
        exact absurd hrunning (by decide)
  | _ => exact hhides.elim

end AllTomorrow
