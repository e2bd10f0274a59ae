import AllTomorrow.WalkingSkeleton

/-!
# Runs and Works of the walking skeleton

A Work has at most one active Run, a waiting or succeeded Run has a waiting or succeeded Work, and a
call that raises changes nothing. The orchestrator does not see to this by itself: it writes the Run
before it knows that the Work can follow. The calls for which it holds are exactly described.
-/

namespace AllTomorrow.Skeleton

open InsertionDict (get?_set_cases get?_set_of_ne get?_set_self set_get?)
open MachineRuns (EveryStep everyStep_cons everyStep_nil run_append)

def BothActive (run run' : RunRecord) : Prop := run.isActive = true ∧ run'.isActive = true ∧ run.workId = run'.workId

def Tied (runStatus : RunStatus) (workStatus : WorkStatus) (r : Records) : Prop :=
  ∀ i run, r.runs.get? i = some run → run.status = runStatus →
    ∃ work, r.works.get? run.workId = some work ∧ work.status = workStatus

structure Together (r : Records) : Prop where
  oneActive : r.runs.Exclusive BothActive
  waiting : Tied .waiting .waiting r
  succeeded : Tied .succeeded .succeeded r

def Known (r : Records) : Prop := ∀ i run, r.runs.get? i = some run → ∃ work, r.works.get? run.workId = some work

/-- The drawn identifier is not in use. -/
def Fresh (s : SkeletonState) : SkeletonOp → Prop
  | .initiateGoalAndWork env .. => s.works.get? (newWorkId (env.sub 1)) = none
  | .createStartingRun env .. => s.runs.get? (newRunId (env.sub 1)) = none
  | _ => True

/-- The Work can follow where the call moves the Run. -/
def KeepsTogether (o : Orchestrator) (s : SkeletonState) : SkeletonOp → Prop
  | .createStartingRun env workId name payload => ∀ work, s.works.get? workId = some work →
      (work.status = .pending → Commits o s env workId name payload) ∧
      (Saves o s env workId name payload → ∀ i run, s.runs.get? i = some run → run.workId = workId → run.isActive = false)
  | .suspendNeedUser env runId _ _ => ∀ run work, s.records.Holds runId run work →
      RunCan (env.sub 0) run .waiting → WorkCan (env.sub 1) work .waiting
  | .resumeWithUserSignal env runId questionId payload signal => ∀ run work, s.records.Holds runId run work →
      run.executionRef ≠ none →
      (Delivered signal → RunCan (env.sub 0) run .running → WorkCan (env.sub 1) work .running) ∧
      ∀ q, s.questions.get? questionId = some q → q.answered env payload ≠ q →
        Delivered signal ∧ RunCan (env.sub 0) run .running
  | .completeRunAndWork env runId evidence => ∀ run work, s.records.Holds runId run work →
      RunCan (env.sub 0) run .succeeded → WorkCan (env.sub 1) work .succeeded (some (.completion evidence))
  | .initiateGoalAndWork .. | .casAttachExecutionRef .. => True

variable {r : Records} {runId : RunId} {run run' : RunRecord} {work work' : WorkRecord}
  {runStatus : RunStatus} {workStatus : WorkStatus}

/-! ## Writing one map or both -/

theorem bothActive_symm : ∀ a b, BothActive a b → BothActive b a := fun _ _ h => ⟨h.2.1, h.1, h.2.2.symm⟩

variable {target : RunStatus}

theorem isActive_of_mem (h : target ∈ runTransitions run.status) : run.isActive = true := by
  rw [RunRecord.isActive_eq_not_isTerminal]
  unfold RunRecord.isTerminal
  by_contra hterminal
  have hmem : run.status ∈ terminalRunStatuses := by simpa using hterminal
  rw [runTransitions_terminal hmem] at h
  cases h

variable {env : Supply} {ref : Option ExecutionRef}

theorem exclusive_moved (h : r.runs.Exclusive BothActive)
    (hget : r.runs.get? runId = some run) (hmem : target ∈ runTransitions run.status) :
    (r.runs.set runId (run.moved env target ref)).Exclusive BothActive :=
  h.replace bothActive_symm hget fun _ hclash => ⟨isActive_of_mem hmem, hclash.2.1, hclash.2.2⟩

theorem Tied.set_run (h : Tied runStatus workStatus r)
    (hnew : run'.status = runStatus → ∃ work, r.works.get? run'.workId = some work ∧ work.status = workStatus) :
    Tied runStatus workStatus { r with runs := r.runs.set runId run' } := by
  intro i run hget hstatus
  rcases get?_set_cases r.runs runId run' i with ⟨rfl, hset⟩ | ⟨_, hold⟩
  · cases hset.symm.trans hget
    exact hnew hstatus
  · exact h i run (hold.symm.trans hget) hstatus

variable {workId : WorkId}

theorem Tied.set_work (h : Tied runStatus workStatus r) (hnone : work'.status = workStatus ∨
      ∀ i run, r.runs.get? i = some run → run.workId = workId → run.status ≠ runStatus) :
    Tied runStatus workStatus { r with works := r.works.set workId work' } := by
  intro i run hget hstatus
  obtain ⟨work, hwork, hworkStatus⟩ := h i run hget hstatus
  rcases get?_set_cases r.works workId work' run.workId with ⟨hid, hset⟩ | ⟨_, hold⟩
  · rcases hnone with hsame | hnone
    · exact ⟨work', hset, hsame⟩
    · exact absurd hstatus (hnone i run hget hid)
  · exact ⟨work, hold.trans hwork, hworkStatus⟩

theorem Tied.none_of_ne (h : Tied runStatus workStatus r) (hwork : r.works.get? workId = some work)
    (hne : work.status ≠ workStatus) : ∀ i run, r.runs.get? i = some run → run.workId = workId → run.status ≠ runStatus := by
  rintro i run hget rfl hstatus
  obtain ⟨work₂, hwork₂, hstatus₂⟩ := h i run hget hstatus
  cases hwork.symm.trans hwork₂
  exact hne hstatus₂

theorem Known.set_run (h : Known r) (hnew : ∃ work, r.works.get? run'.workId = some work) :
    Known { r with runs := r.runs.set runId run' } := by
  intro i run hget
  rcases get?_set_cases r.runs runId run' i with ⟨rfl, hset⟩ | ⟨_, hold⟩
  · cases hset.symm.trans hget
    exact hnew
  · exact h i run (hold.symm.trans hget)

theorem Known.set_work (h : Known r) : Known { r with works := r.works.set workId work' } := by
  intro i run hget
  rcases get?_set_cases r.works workId work' run.workId with ⟨_, hset⟩ | ⟨_, hold⟩
  · exact ⟨work', hset⟩
  · obtain ⟨work, hwork⟩ := h i run hget
    exact ⟨work, hold.trans hwork⟩

theorem Known.moved (h : Known r)
    (hget : r.runs.get? runId = some run) : Known { r with runs := r.runs.set runId (run.moved env target ref) } :=
  h.set_run (h runId run hget)

variable {r' : Records}

theorem Known.congr (h : Known r) (hruns : r'.runs = r.runs) (hworks : r'.works = r.works) : Known r' := by
  intro i run hget
  rw [hruns] at hget
  rw [hworks]
  exact h i run hget

theorem Tied.set_both (h : Tied runStatus workStatus r) (hid : run'.workId = run.workId)
    (hnew : run'.status = runStatus → work'.status = workStatus)
    (hothers : ∀ i other, r.runs.get? i = some other → i ≠ runId → other.workId = run.workId → other.status ≠ runStatus) :
    Tied runStatus workStatus { r with runs := r.runs.set runId run', works := r.works.set run.workId work' } := by
  intro i other hget hstatus
  rcases get?_set_cases r.runs runId run' i with ⟨rfl, hset⟩ | ⟨hne, hold⟩
  · cases hset.symm.trans hget
    exact ⟨work', hid ▸ get?_set_self _ _ _, hnew hstatus⟩
  · have hbefore := hold.symm.trans hget
    obtain ⟨work, hwork, hworkStatus⟩ := h i other hbefore hstatus
    have hother : other.workId ≠ run.workId := fun hsame => hothers i other hbefore hne hsame hstatus
    exact ⟨work, (get?_set_of_ne _ _ hother).trans hwork, hworkStatus⟩

theorem status_ne_of_mem {target status : WorkStatus} (h : target ∈ workTransitions work.status)
    (hstatus : status ∈ terminalWorkStatuses) : work.status ≠ status := by
  rintro rfl
  rw [workTransitions_terminal hstatus] at h
  cases h

theorem Together.moveBoth {env envWork : Supply} {runTarget : RunStatus} {workTarget : WorkStatus} (h : Together r)
    (hholds : r.Holds runId run work) (hrun : runTarget ∈ runTransitions run.status)
    (hwork : workTarget ∈ workTransitions work.status) (hwaiting : runTarget = .waiting → workTarget = .waiting)
    (hsucceeded : runTarget = .succeeded → workTarget = .succeeded) :
    Together { r with runs := r.runs.set runId (run.moved env runTarget none)
                      works := r.works.set run.workId (work.moved envWork workTarget) } := by
  refine ⟨exclusive_moved h.oneActive hholds.1 hrun, h.waiting.set_both rfl hwaiting ?_, h.succeeded.set_both rfl hsucceeded ?_⟩
  · -- another waiting Run of the Work would be a second active one
    intro i other hget hne hid hstatus
    have hactive : other.isActive = true := by
      unfold RunRecord.isActive
      rw [hstatus]
      rfl
    exact hne (h.oneActive i runId other run hget hholds.1 ⟨hactive, isActive_of_mem hrun, hid⟩)
  · intro i other hget _ hid
    exact h.succeeded.none_of_ne hholds.2 (status_ne_of_mem hwork (by decide)) i other hget hid

theorem Together.claimed (h : Together r) (hwork : r.works.get? workId = some work) :
    Together (claimed r env workId work) := by
  unfold Skeleton.claimed
  split
  · rename_i hpending
    have hne : ∀ {status}, status ≠ WorkStatus.pending → work.status ≠ status := by
      intro status hstatus hsame
      exact hstatus (hsame.symm.trans hpending)
    exact ⟨h.oneActive, h.waiting.set_work (.inr (h.waiting.none_of_ne hwork (hne (by decide)))),
      h.succeeded.set_work (.inr (h.succeeded.none_of_ne hwork (hne (by decide))))⟩
  · exact h

theorem runs_claimed (env : Supply) (workId : WorkId) : (Skeleton.claimed r env workId work).runs = r.runs := by
  unfold Skeleton.claimed
  split <;> rfl

theorem together_starting_iff (h : Together r) (hfresh : r.runs.get? (newRunId (env.sub 1)) = none) :
    Together { r with runs := r.runs.set (newRunId (env.sub 1)) (startingRun env workId) } ↔
      ∀ i run, r.runs.get? i = some run → run.workId = workId → run.isActive = false := by
  constructor
  · intro hafter i run hget hid
    by_contra hactive
    have hne : i ≠ newRunId (env.sub 1) := by
      rintro rfl
      exact absurd (hfresh.symm.trans hget) (by nofun)
    refine hne (hafter.oneActive i _ run (startingRun env workId) ?_ (get?_set_self _ _ _) ?_)
    · exact (get?_set_of_ne _ _ hne).trans hget
    · exact ⟨by simpa using hactive, rfl, hid⟩
  · intro hnone
    refine ⟨h.oneActive.set bothActive_symm ?_, h.waiting.set_run (by nofun), h.succeeded.set_run (by nofun)⟩
    rintro i run hget - ⟨-, hactive, hid⟩
    rw [hnone i run hget hid.symm] at hactive
    cases hactive

theorem target_ne_of_mem (h : target ∈ runTransitions run.status) : run.status ≠ target := by
  revert h
  cases run.status <;> cases target <;> decide

theorem set_moved_ne (hget : r.runs.get? runId = some run)
    (hmem : target ∈ runTransitions run.status) : r.runs.set runId (run.moved env target ref) ≠ r.runs := by
  intro hsame
  have hmoved : r.runs.get? runId = some (run.moved env target ref) := by
    rw [← hsame]
    exact get?_set_self _ _ _
  have hrecord : run = run.moved env target ref := Option.some.inj (hget.symm.trans hmoved)
  exact target_ne_of_mem hmem (congrArg RunRecord.status hrecord)

/-! ## One call -/

variable {o : Orchestrator} {s : SkeletonState} {op : SkeletonOp}

/-- After the call the records are together, and they are as before if it raised. -/
def StepKept (o : Orchestrator) (s : SkeletonState) (op : SkeletonOp) : Prop :=
  Together (skeletonStep o s op).records ∧ (Raises o s op → (skeletonStep o s op).records = s.records)

theorem RunCan.mem (h : RunCan env run target) : target ∈ runTransitions run.status := by
  obtain ⟨run', hok⟩ := h
  exact (transitionRun_ok_iff.mp hok).2.1

theorem WorkCan.mem {target : WorkStatus} {evidence : Option Evidence} (h : WorkCan env work target evidence) :
    target ∈ workTransitions work.status := by
  obtain ⟨work', hok⟩ := h
  exact (transitionWork_ok hok).2.1

theorem projected_eq_iff {questionId : QuestionId} {payload : PyDict} :
    projected r env questionId payload = r ↔ ∀ q, r.questions.get? questionId = some q → q.answered env payload = q := by
  unfold projected
  cases hget : r.questions.get? questionId with
  | none => simp
  | some q =>
    constructor
    · rintro hsame q' hq'
      cases hq'
      have hquestions : r.questions.set questionId (q.answered env payload) = r.questions := congrArg Records.questions hsame
      have hanswered : r.questions.get? questionId = some (q.answered env payload) := by
        rw [← hquestions]
        exact get?_set_self _ _ _
      exact Option.some.inj (hanswered.symm.trans hget)
    · intro h
      dsimp only
      rw [h q rfl, set_get? hget]

theorem projected_runs (env : Supply) (questionId : QuestionId) (payload : PyDict) :
    (projected r env questionId payload).runs = r.runs ∧ (projected r env questionId payload).works = r.works := by
  unfold projected
  split
  · exact ⟨rfl, rfl⟩
  · exact ⟨rfl, rfl⟩

theorem Together.congr (h : Together r) (hruns : r'.runs = r.runs) (hworks : r'.works = r.works) : Together r' := by
  obtain ⟨works, runs, questions⟩ := r
  obtain ⟨works', runs', questions'⟩ := r'
  cases hruns
  cases hworks
  exact ⟨h.oneActive, h.waiting, h.succeeded⟩

theorem claimed_eq_iff (hwork : r.works.get? workId = some work) :
    claimed r env workId work = r ↔ work.status ≠ .pending := by
  unfold claimed
  constructor
  · intro hsame hpending
    rw [if_pos hpending] at hsame
    have hworks : r.works.set workId (work.moved (env.sub 0) .running) = r.works := congrArg Records.works hsame
    have hmoved : r.works.get? workId = some (work.moved (env.sub 0) .running) := by
      rw [← hworks]
      exact get?_set_self _ _ _
    have hrecord : work = work.moved (env.sub 0) .running := Option.some.inj (hwork.symm.trans hmoved)
    exact absurd (hpending.symm.trans (congrArg WorkRecord.status hrecord)) (by nofun)
  · intro hnot
    rw [if_neg hnot]

/-- What a call may have made of the records: they are as before if it raised, and together if not. -/
def KeptBy (s : SkeletonState) (r' : Records) : Bool → Prop
  | true => r' = s.records
  | false => Together r'

variable {raised : Bool}

theorem stepKept_iff_keptBy (h : Together s.records) (hraised : raised = true ↔ Raises o s op)
    (hr' : (skeletonStep o s op).records = r') : StepKept o s op ↔ KeptBy s r' raised := by
  unfold StepKept
  rw [hr']
  cases raised with
  | true =>
    refine ⟨fun hkept => hkept.2 (hraised.mp rfl), ?_⟩
    intro hsame
    exact ⟨Eq.substr hsame h, fun _ => hsame⟩
  | false =>
    refine ⟨fun hkept => hkept.1, fun htogether => ⟨htogether, fun hraises => ?_⟩⟩
    cases hraised.mpr hraises

theorem Records.Holds.forall_iff {C : RunRecord → WorkRecord → Prop} (h : r.Holds runId run work) :
    (∀ run work, r.Holds runId run work → C run work) ↔ C run work := by
  refine ⟨fun hall => hall run work h, fun hc run' work' h' => ?_⟩
  cases h.1.symm.trans h'.1
  cases h.2.symm.trans h'.2
  exact hc

variable {name : String} {payload : PyDict} {questionId : QuestionId} {signal : Except Exn SignalOutcome}

theorem keptBy_initiate {userId goalTitle workTitle : String} (h : Together s.records) (hknown : Known s.records)
    (hfresh : s.works.get? (newWorkId (env.sub 1)) = none)
    (heffect : SkeletonEffect o s (.initiateGoalAndWork env userId goalTitle workTitle) raised r') :
    KeptBy s r' raised := by
  cases heffect with
  | @initiated _ _ _ _ work _ hid =>
    have hunknown : ∀ i run, s.records.runs.get? i = some run → run.workId = work.workId → False := by
      intro i run hget hsame
      obtain ⟨work₂, hwork₂⟩ := hknown i run hget
      rw [hsame, hid] at hwork₂
      exact absurd (hfresh.symm.trans hwork₂) (by nofun)
    exact ⟨h.oneActive, h.waiting.set_work (.inr fun i run hget hsame => (hunknown i run hget hsame).elim),
      h.succeeded.set_work (.inr fun i run hget hsame => (hunknown i run hget hsame).elim)⟩

theorem keptBy_start_iff (h : Together s.records) (hfresh : s.runs.get? (newRunId (env.sub 1)) = none)
    (heffect : SkeletonEffect o s (.createStartingRun env workId name payload) raised r') :
    KeptBy s r' raised ↔ KeepsTogether o s (.createStartingRun env workId name payload) := by
  cases heffect with
  | noWork hnone =>
    refine iff_of_true rfl ?_
    intro work hwork
    exact absurd (hnone.symm.trans hwork) (by nofun)
  | @notCommitted _ _ _ _ work hwork hcommits =>
    refine (claimed_eq_iff hwork).trans ⟨fun hnot => ?_, fun hkeeps hpending => ?_⟩
    · intro work' hwork'
      cases hwork.symm.trans hwork'
      refine ⟨fun hpending => absurd hpending hnot, ?_⟩
      rintro ⟨saved, committed, deliveries, -, hok⟩
      exact absurd ⟨_, _, hok⟩ hcommits
    · exact hcommits ((hkeeps work hwork).1 hpending)
  | notSaved hwork hcommits hsaves =>
    refine iff_of_true (h.claimed hwork) ?_
    intro work' hwork'
    exact ⟨fun _ => hcommits, fun hsaves' => absurd hsaves' hsaves⟩
  | @started _ _ _ _ work hwork hcommits hsaves =>
    have hclaimed : Together (claimed s.records env workId work) := h.claimed hwork
    have hfresh' : (claimed s.records env workId work).runs.get? (newRunId (env.sub 1)) = none := by
      rw [runs_claimed]
      exact hfresh
    have hstarting := @together_starting_iff _ env workId hclaimed hfresh'
    rw [runs_claimed] at hstarting
    refine hstarting.trans ⟨fun hnone => ?_, fun hkeeps => (hkeeps work hwork).2 hsaves⟩
    intro work' _
    exact ⟨fun _ => hcommits, fun _ => hnone⟩

theorem keptBy_attach {execRef : ExecutionRef} (h : Together s.records)
    (heffect : SkeletonEffect o s (.casAttachExecutionRef env runId execRef) raised r') : KeptBy s r' raised := by
  cases heffect with
  | notAttached =>
    cases raised with
    | true => rfl
    | false => exact h
  | attached hrun hmem =>
    exact ⟨exclusive_moved h.oneActive hrun hmem, h.waiting.set_run (by nofun), h.succeeded.set_run (by nofun)⟩

theorem keptBy_suspend_iff {question : String} {options : List String} (h : Together s.records)
    (heffect : SkeletonEffect o s (.suspendNeedUser env runId question options) raised r') :
    KeptBy s r' raised ↔ KeepsTogether o s (.suspendNeedUser env runId question options) := by
  cases heffect with
  | notSuspended hnone =>
    refine iff_of_true rfl ?_
    intro run work hholds hcan
    exact absurd hcan (hnone run work hholds)
  | halfSuspended hholds hrun hwork =>
    refine iff_of_false ?_ fun hkeeps => hwork (hkeeps _ _ hholds hrun)
    intro hsame
    exact set_moved_ne hholds.1 hrun.mem (congrArg Records.runs hsame)
  | suspended hholds hrun hwork =>
    refine iff_of_true ?_ (hholds.forall_iff.mpr fun _ => hwork)
    exact (h.moveBoth hholds hrun.mem hwork.mem (fun _ => rfl) (by nofun)).congr rfl rfl

theorem keptBy_resume_iff (h : Together s.records)
    (heffect : SkeletonEffect o s (.resumeWithUserSignal env runId questionId payload signal) raised r') :
    KeptBy s r' raised ↔ KeepsTogether o s (.resumeWithUserSignal env runId questionId payload signal) := by
  cases heffect with
  | noReference hnone =>
    refine iff_of_true rfl ?_
    intro run work hholds href
    exact absurd (hnone run work hholds) href
  | notResumed hholds href hrun =>
    refine projected_eq_iff.trans (Iff.trans ⟨fun hsame _ => ?_, fun hkeeps q hq => ?_⟩ hholds.forall_iff.symm)
    · exact ⟨fun hdelivered hcan => absurd ⟨hdelivered, hcan⟩ hrun, fun q hq hne => absurd (hsame q hq) hne⟩
    · by_contra hne
      exact hrun ((hkeeps href).2 q hq hne)
  | halfResumed hholds href hsignal hrun hwork =>
    refine iff_of_false ?_ fun hkeeps => hwork ((hkeeps _ _ hholds href).1 hsignal hrun)
    intro hsame
    exact set_moved_ne hholds.1 hrun.mem (congrArg Records.runs hsame)
  | resumed hholds href hsignal hrun hwork =>
    refine iff_of_true ?_ (hholds.forall_iff.mpr fun _ => ⟨fun _ _ => hwork, fun _ _ _ => ⟨hsignal, hrun⟩⟩)
    exact (h.moveBoth hholds hrun.mem hwork.mem (by nofun) (by nofun)).congr rfl rfl

theorem keptBy_complete_iff {evidence : CompletionEvidence} (h : Together s.records)
    (heffect : SkeletonEffect o s (.completeRunAndWork env runId evidence) raised r') :
    KeptBy s r' raised ↔ KeepsTogether o s (.completeRunAndWork env runId evidence) := by
  cases heffect with
  | notCompleted hnone =>
    refine iff_of_true rfl ?_
    intro run work hholds hcan
    exact absurd hcan (hnone run work hholds)
  | halfCompleted hholds hrun hwork =>
    refine iff_of_false ?_ fun hkeeps => hwork (hkeeps _ _ hholds hrun)
    intro hsame
    exact set_moved_ne hholds.1 hrun.mem (congrArg Records.runs hsame)
  | completed hholds hrun hwork =>
    refine iff_of_true ?_ (hholds.forall_iff.mpr fun _ => hwork)
    exact h.moveBoth hholds hrun.mem hwork.mem (by nofun) fun _ => rfl

/-- A call keeps the records together exactly where the condition on it holds. -/
theorem stepKept_iff (h : Together s.records) (hknown : Known s.records) (hfresh : Fresh s op) :
    StepKept o s op ↔ KeepsTogether o s op := by
  obtain ⟨raised, hraised, heffect⟩ := skeleton_effect o s op
  refine (stepKept_iff_keptBy h hraised rfl).trans ?_
  cases op with
  | initiateGoalAndWork env userId goalTitle workTitle =>
    exact iff_of_true (keptBy_initiate h hknown hfresh heffect) trivial
  | createStartingRun env workId name payload => exact keptBy_start_iff h hfresh heffect
  | casAttachExecutionRef env runId execRef => exact iff_of_true (keptBy_attach h heffect) trivial
  | suspendNeedUser env runId question options => exact keptBy_suspend_iff h heffect
  | resumeWithUserSignal env runId questionId payload signal => exact keptBy_resume_iff h heffect
  | completeRunAndWork env runId evidence => exact keptBy_complete_iff h heffect

theorem known_claimed (h : Known r) : Known (claimed r env workId work) := by
  unfold claimed
  split
  · exact h.set_work
  · exact h

theorem known_projected {questionId : QuestionId} {payload : PyDict} (h : Known r) :
    Known (projected r env questionId payload) := by
  obtain ⟨hruns, hworks⟩ := @projected_runs r env questionId payload
  exact h.congr hruns hworks

theorem works_claimed (h : r.works.get? workId = some work) :
    ∃ work', (claimed r env workId work).works.get? workId = some work' := by
  unfold claimed
  split
  · exact ⟨_, get?_set_self _ _ _⟩
  · exact ⟨work, h⟩

/-- Every Run still has its Work. -/
theorem known_step (o : Orchestrator) (hknown : Known s.records) (op : SkeletonOp) :
    Known (skeletonStep o s op).records := by
  obtain ⟨raised, -, heffect⟩ := skeleton_effect o s op
  generalize (skeletonStep o s op).records = r' at heffect
  cases heffect with
  | initiated => exact hknown.set_work
  | noWork | notAttached | notSuspended | noReference | notCompleted => exact hknown
  | notCommitted | notSaved => exact known_claimed hknown
  | @started env workId _ _ work hwork =>
    have hclaimed : Known (claimed s.records env workId work) := known_claimed hknown
    have hstarted : Known { claimed s.records env workId work with
        runs := (claimed s.records env workId work).runs.set (newRunId (env.sub 1)) (startingRun env workId) } :=
      hclaimed.set_run (works_claimed hwork)
    exact hstarted.congr (by rw [runs_claimed]; rfl) rfl
  | attached hrun => exact hknown.moved hrun
  | halfSuspended hholds => exact hknown.moved hholds.1
  | suspended hholds => exact ((hknown.moved hholds.1).set_work).congr rfl rfl
  | notResumed => exact known_projected hknown
  | @halfResumed env _ questionId payload _ _ _ hholds =>
    exact (hknown.moved hholds.1).congr rfl (projected_runs env questionId payload).2
  | resumed hholds => exact ((hknown.moved hholds.1).set_work).congr rfl rfl
  | halfCompleted hholds => exact hknown.moved hholds.1
  | completed hholds => exact (hknown.moved hholds.1).set_work

/-! ## Whole sequences of calls -/

def skeletonRun (o : Orchestrator) (ops : List SkeletonOp) : SkeletonState :=
  MachineRuns.run (skeletonStep o) .empty ops

/-- In every state that the calls lead to the records are together, and calls that raise change nothing. -/
structure KeptTogether (o : Orchestrator) (ops : List SkeletonOp) : Prop where
  together : ∀ before after, ops = before ++ after → Together (skeletonRun o before).records
  unchanged : ∀ before op after, ops = before ++ op :: after → Raises o (skeletonRun o before) op →
    (skeletonRun o (before ++ [op])).records = (skeletonRun o before).records

theorem no_run_empty {P : Prop} (i : RunId) (run : RunRecord) (h : SkeletonState.empty.records.runs.get? i = some run) : P :=
  absurd ((InsertionDict.get?_empty i).symm.trans h) (by simp)

theorem together_empty : Together SkeletonState.empty.records :=
  ⟨InsertionDict.exclusive_empty _, fun i run h => no_run_empty i run h, fun i run h => no_run_empty i run h⟩

theorem known_empty : Known SkeletonState.empty.records := fun i run h => no_run_empty i run h

theorem skeletonRun_snoc (o : Orchestrator) (ops : List SkeletonOp) (op : SkeletonOp) :
    skeletonRun o (ops ++ [op]) = skeletonStep o (skeletonRun o ops) op := run_append _ _ _ _

theorem keptTogether_iff_everyStep (o : Orchestrator) (ops : List SkeletonOp) :
    KeptTogether o ops ↔ EveryStep (skeletonStep o) (StepKept o) .empty ops := by
  constructor
  · intro h before op after hsplit
    have hafter := h.together (before ++ [op]) after (by rw [hsplit, List.append_assoc, List.singleton_append])
    have hunchanged := h.unchanged before op after hsplit
    rw [skeletonRun_snoc] at hafter hunchanged
    exact ⟨hafter, hunchanged⟩
  · intro h
    refine ⟨fun before after hsplit => ?_, fun before op after hsplit hraises => ?_⟩
    · rcases List.eq_nil_or_concat before with rfl | ⟨before, op, rfl⟩
      · exact together_empty
      · rw [List.concat_eq_append] at hsplit ⊢
        rw [skeletonRun_snoc]
        exact (h before op after (by rw [hsplit, List.append_assoc, List.singleton_append])).1
    · rw [skeletonRun_snoc]
      exact (h before op after hsplit).2 hraises

/-- With new identifiers, the records are kept together by exactly the sequences whose calls meet the condition. -/
theorem keptTogether_iff (o : Orchestrator) (ops : List SkeletonOp)
    (hfresh : EveryStep (skeletonStep o) Fresh .empty ops) :
    KeptTogether o ops ↔ EveryStep (skeletonStep o) (KeepsTogether o) .empty ops := by
  rw [keptTogether_iff_everyStep]
  exact MachineRuns.everyStep_iff (K := fun s => Known s.records) (T := fun s => Together s.records)
    (fun s op hknown _ => known_step o hknown op) (fun s op hkept => hkept.1)
    (fun s op hknown h hop => stepKept_iff h hknown hop) known_empty together_empty hfresh

def sampleOrchestrator : Orchestrator := ⟨"fake_durable", id, fun _ => "now"⟩

/-- Readings whose identifiers end in `tag`. -/
def taggedSupply (tag : String) : Supply := fun _ => ⟨0, tag⟩

theorem fakeDurable_nonempty : PyText.isBlank "fake_durable" = false := by decide +kernel

theorem exec1_nonempty : PyText.isBlank "exec_1" = false := by decide +kernel

def fakeRef : ExecutionRef := ⟨"fake_durable", "exec_1", 1, 0, [], fakeDurable_nonempty, exec1_nonempty, le_refl 1⟩

def oneRunCalls : List SkeletonOp :=
  [.initiateGoalAndWork (taggedSupply "a") "user_1" "a goal" "a work",
    .createStartingRun (taggedSupply "b") ⟨"work_a"⟩ "walking_skeleton_workflow" .empty,
    .casAttachExecutionRef (taggedSupply "c") ⟨"run_b"⟩ fakeRef,
    .suspendNeedUser (taggedSupply "d") ⟨"run_b"⟩ "which one?" [],
    .resumeWithUserSignal (taggedSupply "e") ⟨"run_b"⟩ ⟨"q_d"⟩ .empty (.ok .delivered)]

theorem oneRunCalls_keptTogether : KeptTogether sampleOrchestrator oneRunCalls := by
  have hfresh : EveryStep (skeletonStep sampleOrchestrator) Fresh .empty oneRunCalls := by
    simp only [oneRunCalls, everyStep_cons]
    exact ⟨rfl, rfl, trivial, trivial, trivial, everyStep_nil⟩
  refine (keptTogether_iff sampleOrchestrator oneRunCalls hfresh).mpr ?_
  simp only [oneRunCalls, everyStep_cons]
  refine ⟨trivial, ?_, trivial, ?_, ?_, everyStep_nil⟩
  · intro work _
    exact ⟨fun _ => ⟨_, _, rfl⟩, fun _ i run hget => nomatch hget⟩
  · rintro run work ⟨hrun, hwork⟩ _
    cases hrun
    cases hwork
    exact ⟨_, rfl⟩
  · rintro run work ⟨hrun, hwork⟩ _
    cases hrun
    cases hwork
    exact ⟨fun _ _ => ⟨_, rfl⟩, fun _ _ _ => ⟨.inl rfl, _, rfl⟩⟩

def twoRunCalls : List SkeletonOp :=
  [.initiateGoalAndWork (taggedSupply "a") "user_1" "a goal" "a work",
    .createStartingRun (taggedSupply "b") ⟨"work_a"⟩ "walking_skeleton_workflow" .empty,
    .createStartingRun (taggedSupply "c") ⟨"work_a"⟩ "walking_skeleton_workflow" .empty]

theorem secondRun_not_together :
    ¬∀ o ops, EveryStep (skeletonStep o) Fresh .empty ops → KeptTogether o ops := by
  intro h
  have hfresh : EveryStep (skeletonStep sampleOrchestrator) Fresh .empty twoRunCalls := by
    simp only [twoRunCalls, everyStep_cons]
    exact ⟨rfl, rfl, rfl, everyStep_nil⟩
  have htogether := (h sampleOrchestrator twoRunCalls hfresh).together twoRunCalls [] rfl
  have hsame : (⟨"run_b"⟩ : RunId) = ⟨"run_c"⟩ :=
    htogether.oneActive _ _ _ _ rfl rfl ⟨rfl, rfl, rfl⟩
  exact absurd hsame (by decide)

end AllTomorrow.Skeleton
