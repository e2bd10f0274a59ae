import AllTomorrow.InterferenceTriples
import AllTomorrow.PipelineRuntime

/-!
# A rule for the loop of the runtime

`_drive` writes its run in three ways: it goes on to a step, it ends the run, or it asks a
question. What a contract says of these writes, and of the requests between them, is enough
for the whole loop: the rule follows every branch of a round once, for whatever is to be
shown of it.
-/

namespace AllTomorrow

namespace Pipeline

open Prog

/-! ## What a round makes of a run -/

/-- The loop gets from the reply of a node to its next write without an exception of its own. -/
def NodeReply.Handled (floatRepr : PyFloat → String) (objects : Objects) (run : RunRecord) (step : PipelineStep) :
    NodeReply → Prop
  | .aborts _ => False
  | .raises _ text => ∃ t, text = .ok t
  | .returns result =>
      (∃ message, checkEvents floatRepr objects run.spec step result.events = .ok message) ∧
        (checkEvents floatRepr objects run.spec step result.events = .ok none → result.status = .success →
          (∃ contextVariables, withStepOutput run.context.contextVariables step result.output = .ok contextVariables) ∧
          ∃ target, chooseTarget objects run.spec step result = .ok target)

/-- What a run has gained in a round, by a reply that is `good`. -/
inductive Gained (floatRepr : PyFloat → String) (objects : Objects) (good : RunRecord → PipelineStep → NodeReply → Prop)
    (run : RunRecord) : RunRecord → Prop
  | nothing : Gained floatRepr objects good run run
  | attempt (step : PipelineStep) :
      Gained floatRepr objects good run
        { run with attempts := run.attempts.set step.id ((run.attempts.get? step.id).getD 0 + 1) }
  | output (step : PipelineStep) (result : NodeResult) (contextVariables : PyEntries)
      (hgood : good run step (.returns result))
      (hevents : checkEvents floatRepr objects run.spec step result.events = .ok none) (hstatus : result.status = .success)
      (hvariables : withStepOutput run.context.contextVariables step result.output = .ok contextVariables) :
      Gained floatRepr objects good run (run.withOutput step result contextVariables)

def RunRecord.goingOn (run : RunRecord) (id : String) : RunRecord := { run with currentStepId := id }

def RunRecord.ended (run : RunRecord) (status : RunStatus) (error : Option String) : RunRecord :=
  { run with status := status, error := error }

def RunRecord.asking (run : RunRecord) (question : UserQuestion) : RunRecord :=
  { run with status := .needUser, question := some (question.withResumeToken none) }

def finalStatuses : List RunStatus := [.succeeded, .failed, .waiting, .cancelled]

section Rule

variable {σ : Type} {floatRepr : PyFloat → String} {objects : Objects} {hashToken : String → String}
  {registered : String → Bool}

/-- What the rule needs. `K rounds run` holds at the head of the loop, `I` after it. -/
structure DriveRule (h : Handler RuntimeRequest RuntimeAnswer σ) (c : Contract RuntimeRequest σ)
    (floatRepr : PyFloat → String) (objects : Objects) (K : ℕ → RunRecord → σ → Prop) (I : σ → Prop)
    (good : RunRecord → PipelineStep → NodeReply → Prop) : Prop where
  stable : ∀ rounds run, Stable c (K rounds run)
  stableEnd : Stable c I
  running : ∀ rounds run s, K rounds run s → run.status = .running
  atStep : ∀ rounds run s, K rounds run s → run.currentStepId ∈ run.spec.stepIds
  fewer : ∀ rounds run s, K (rounds + 1) run s → K rounds run s
  conditionMatches : ∀ rounds run step s, K (rounds + 1) run s → c.assume s (.conditionMatches step run) →
    c.guar s (.conditionMatches step run) ∧ K (rounds + 1) run (h (.conditionMatches step run) s).2 ∧
      ∀ e, (h (.conditionMatches step run) s).1 = .error e → contractText e = none →
        I (h (.conditionMatches step run) s).2
  resolve : ∀ rounds run step s, K (rounds + 1) run s → c.assume s (.resolve step run) →
    c.guar s (.resolve step run) ∧ K (rounds + 1) run (h (.resolve step run) s).2 ∧
      ∀ e, (h (.resolve step run) s).1 = .error e → contractText e = none → I (h (.resolve step run) s).2
  node : ∀ rounds run step config inputs s, K (rounds + 1) run s → step ∈ run.spec.steps →
    c.assume s (.node ⟨run, step, config, inputs⟩) →
    c.guar s (.node ⟨run, step, config, inputs⟩) ∧ K rounds run (h (.node ⟨run, step, config, inputs⟩) s).2 ∧
      good run step (h (.node ⟨run, step, config, inputs⟩) s).1 ∧
      ((h (.node ⟨run, step, config, inputs⟩) s).1.Handled floatRepr objects run step ∨
        I (h (.node ⟨run, step, config, inputs⟩) s).2)
  goesOn : ∀ rounds run base id, Gained floatRepr objects good run base → id ∈ run.spec.stepIds →
    Triple h c (K rounds run) (RuntimeM.updateRun (base.goingOn id) run.revision)
      (fun revision => K rounds { base.goingOn id with revision := revision }) fun _ => I
  ends : ∀ rounds run base status error, Gained floatRepr objects good run base → status ∈ finalStatuses →
    Triple h c (K rounds run) (RuntimeM.updateRun (base.ended status error) run.revision) (fun _ => I) fun _ => I
  asks : ∀ rounds env run step question tokenHash, step ∈ run.spec.steps → run.currentStepId = step.id →
    ∃ asked : σ → Prop,
      Triple h c (K rounds run)
        (RuntimeM.createQuestion (questionRecord env (run.asking question) step question tokenHash))
        (fun _ => asked) (fun _ => I) ∧
      Triple h c asked (RuntimeM.updateRun (run.asking question) run.revision) (fun _ => I) fun _ => I

variable {h : Handler RuntimeRequest RuntimeAnswer σ} {c : Contract RuntimeRequest σ} {K : ℕ → RunRecord → σ → Prop}
  {I : σ → Prop} {good : RunRecord → PipelineStep → NodeReply → Prop} {rounds : ℕ} {run : RunRecord}
  {next : RunRecord → RuntimeM RunResult}

variable {base : RunRecord}

theorem gained_revision (hbase : Gained floatRepr objects good run base) : base.revision = run.revision := by
  cases hbase <;> rfl

theorem gained_spec (hbase : Gained floatRepr objects good run base) : base.spec = run.spec := by
  cases hbase <;> rfl

theorem DriveRule.stablePost (rule : DriveRule h c floatRepr objects K I good) :
    ∀ e : PipelineExn, Stable c ((fun _ => I : PipelineExn → σ → Prop) e) := fun _ => rule.stableEnd

theorem DriveRule.triple_finish (rule : DriveRule h c floatRepr objects K I good)
    (hbase : Gained floatRepr objects good run base) {status : RunStatus} (hstatus : status ∈ finalStatuses) (error : Option String) :
    Triple h c (K rounds run) (finish (base.ended status error)) (fun _ => I) (fun _ => I) := by
  have hupdate := rule.ends rounds run base status error hbase hstatus
  unfold finish
  have hrevision : (base.ended status error).revision = run.revision := by
    change base.revision = run.revision
    exact gained_revision hbase
  rw [hrevision]
  exact hupdate.bind rule.stablePost fun revision => triple_pure rule.stableEnd fun _ hs => hs

theorem DriveRule.triple_fail (rule : DriveRule h c floatRepr objects K I good)
    (hbase : Gained floatRepr objects good run base) (error : String) :
    Triple h c (K rounds run) (fail base error) (fun _ => I) (fun _ => I) :=
  rule.triple_finish hbase (by decide) (some error)

theorem DriveRule.triple_succeed (rule : DriveRule h c floatRepr objects K I good)
    (hbase : Gained floatRepr objects good run base) : Triple h c (K rounds run) (succeed base) (fun _ => I) (fun _ => I) :=
  rule.triple_finish hbase (by decide) base.error

theorem DriveRule.triple_raise (rule : DriveRule h c floatRepr objects K I good) (e : PipelineExn) :
    Triple h c I (throw e : RuntimeM RunResult) (fun _ => I) (fun _ => I) :=
  triple_throw rule.stableEnd fun _ hs => hs

variable {id : String}

theorem DriveRule.triple_proceed (rule : DriveRule h c floatRepr objects K I good)
    (hnext : ∀ run, Triple h c (K rounds run) (next run) (fun _ => I) (fun _ => I))
    (hbase : Gained floatRepr objects good run base) (hid : id ∈ run.spec.stepIds) :
    Triple h c (K rounds run) (proceed next (base.goingOn id)) (fun _ => I) (fun _ => I) := by
  have hupdate := rule.goesOn rounds run base id hbase hid
  unfold proceed
  have hrevision : (base.goingOn id).revision = run.revision := by
    change base.revision = run.revision
    exact gained_revision hbase
  rw [hrevision]
  exact hupdate.bind rule.stablePost fun revision => hnext _

variable {step : PipelineStep} {spec : PipelineSpec}

theorem defaultNext_mem (h : spec.defaultNext step = some id) : id ∈ spec.stepIds := List.mem_of_getElem? h

theorem DriveRule.triple_skip (rule : DriveRule h c floatRepr objects K I good)
    (hnext : ∀ run, Triple h c (K rounds run) (next run) (fun _ => I) (fun _ => I)) (step : PipelineStep) :
    Triple h c (K rounds run) (skip next run step) (fun _ => I) (fun _ => I) := by
  unfold skip
  split
  · exact rule.triple_succeed .nothing
  · rename_i id hid
    exact rule.triple_proceed hnext .nothing (defaultNext_mem hid)

theorem DriveRule.triple_retry (rule : DriveRule h c floatRepr objects K I good)
    (hnext : ∀ run, Triple h c (K rounds run) (next run) (fun _ => I) (fun _ => I)) (step : PipelineStep)
    (hstep : run.currentStepId ∈ run.spec.stepIds) (error : Option String) :
    Triple h c (K rounds run) (retry next run step error) (fun _ => I) (fun _ => I) := by
  unfold retry
  dsimp only
  split
  · exact rule.triple_proceed hnext (.attempt step) hstep
  · exact rule.triple_fail (.attempt step) _

variable {env : Supply}

theorem DriveRule.triple_askUser (rule : DriveRule h c floatRepr objects K I good)
    {question : UserQuestion} (hmem : step ∈ run.spec.steps) (hcurrent : run.currentStepId = step.id) :
    Triple h c (K rounds run) (askUser hashToken env run step question) (fun _ => I) (fun _ => I) := by
  obtain ⟨asked, hcreate, hupdate⟩ :=
    rule.asks rounds env run step question (hashToken ((env.sub 0).newId "resume")) hmem hcurrent
  unfold askUser
  refine hcreate.bind rule.stablePost fun _ => ?_
  exact hupdate.bind rule.stablePost fun revision => triple_pure rule.stableEnd fun _ hs => hs

theorem DriveRule.triple_compute (rule : DriveRule h c floatRepr objects K I good) {α : Type} {P : σ → Prop}
    {x : Except PipelineExn α} {f : α → RuntimeM RunResult} (hP : ∀ s, P s → (∃ a, x = .ok a) ∨ I s)
    (hf : ∀ a, x = .ok a → Triple h c P (f a) (fun _ => I) (fun _ => I)) :
    Triple h c P ((MonadExcept.ofExcept x : RuntimeM α) >>= f) (fun _ => I) (fun _ => I) := by
  cases hx : x with
  | ok a => exact hf a hx
  | error e =>
    intro s hs
    rcases hP s hs with ⟨a, ha⟩ | hend
    · rw [hx] at ha
      cases ha
    · exact rule.triple_raise e s hend

variable {result : NodeResult}

theorem chooseTarget_step (h : chooseTarget objects spec step result = .ok (.step id)) : id ∈ spec.stepIds := by
  unfold chooseTarget at h
  split at h
  · split at h
    · cases h
    · rename_i id' hid'
      cases h
      exact defaultNext_mem hid'
  · split at h
    · rename_i hmem
      cases h
      exact hmem
    · cases hrepr : objects.repr _ with
      | error e =>
        rw [hrepr] at h
        cases h
      | ok text =>
        rw [hrepr] at h
        cases h
  · split at h
    · cases hrepr : objects.repr _ with
      | error e =>
        rw [hrepr] at h
        cases h
      | ok text =>
        rw [hrepr] at h
        cases h
    · cases h

theorem DriveRule.triple_advance (rule : DriveRule h c floatRepr objects K I good)
    (hnext : ∀ run, Triple h c (K rounds run) (next run) (fun _ => I) (fun _ => I)) (hgood : good run step (.returns result))
    (hevents : checkEvents floatRepr objects run.spec step result.events = .ok none) (hstatus : result.status = .success) :
    Triple h c (fun s => K rounds run s ∧ ((NodeReply.returns result).Handled floatRepr objects run step ∨ I s))
      (advance objects next run step result) (fun _ => I) (fun _ => I) := by
  unfold advance
  refine rule.triple_compute ?_ ?_
  · rintro s ⟨_, hhandled | hend⟩
    · exact .inl (hhandled.2 hevents hstatus).1
    · exact .inr hend
  · intro contextVariables hvariables
    have hbase := Gained.output step result contextVariables hgood hevents hstatus hvariables
    refine rule.triple_compute ?_ ?_
    · rintro s ⟨_, hhandled | hend⟩
      · exact .inl (hhandled.2 hevents hstatus).2
      · exact .inr hend
    · intro target htarget
      cases target with
      | done => exact (rule.triple_succeed hbase).weaken fun s hs => hs.1
      | unknown message => exact (rule.triple_fail hbase message).weaken fun s hs => hs.1
      | step id => exact (rule.triple_proceed hnext hbase (chooseTarget_step htarget)).weaken fun s hs => hs.1

theorem DriveRule.triple_settle (rule : DriveRule h c floatRepr objects K I good)
    (hnext : ∀ run, Triple h c (K rounds run) (next run) (fun _ => I) (fun _ => I)) (hmem : step ∈ run.spec.steps) (hcurrent : run.currentStepId = step.id)
    (hgood : good run step (.returns result))
    (hevents : checkEvents floatRepr objects run.spec step result.events = .ok none) : Triple h c
      (fun s => K rounds run s ∧ ((NodeReply.returns result).Handled floatRepr objects run step ∨ I s))
      (settle objects hashToken env next run step result) (fun _ => I) (fun _ => I) := by
  have hstep : run.currentStepId ∈ run.spec.stepIds := by
    rw [hcurrent]
    exact List.mem_map_of_mem hmem
  unfold settle
  cases hstatus : result.status with
  | retry => exact (rule.triple_retry hnext step hstep result.error).weaken fun s hs => hs.1
  | needUser =>
    have hasked := result.asks.mp hstatus
    cases hquestion : result.userQuestion with
    | none =>
      rw [hquestion] at hasked
      cases hasked
    | some question => exact (rule.triple_askUser hmem hcurrent).weaken fun s hs => hs.1
  | waiting => exact (rule.triple_finish .nothing (by decide) run.error).weaken fun s hs => hs.1
  | cancelled => exact (rule.triple_finish .nothing (by decide) run.error).weaken fun s hs => hs.1
  | failed => exact (rule.triple_fail .nothing _).weaken fun s hs => hs.1
  | success => exact rule.triple_advance hnext hgood hevents hstatus

theorem DriveRule.triple_receive (rule : DriveRule h c floatRepr objects K I good)
    (hnext : ∀ run, Triple h c (K rounds run) (next run) (fun _ => I) (fun _ => I))
    {reply : NodeReply} (hmem : step ∈ run.spec.steps) (hcurrent : run.currentStepId = step.id)
    (hgood : good run step reply) : Triple h c (fun s => K rounds run s ∧ (reply.Handled floatRepr objects run step ∨ I s))
      (receive floatRepr objects hashToken env next run step reply) (fun _ => I) (fun _ => I) := by
  unfold receive
  cases reply with
  | aborts e =>
    refine (rule.triple_raise e).weaken ?_
    rintro s ⟨_, hhandled | hend⟩
    · exact hhandled.elim
    · exact hend
  | raises name text =>
    refine rule.triple_compute ?_ fun text _ => (rule.triple_fail .nothing _).weaken fun s hs => hs.1
    rintro s ⟨_, hhandled | hend⟩
    · exact .inl hhandled
    · exact .inr hend
  | returns result =>
    refine rule.triple_compute ?_ ?_
    · rintro s ⟨_, hhandled | hend⟩
      · exact .inl hhandled.1
      · exact .inr hend
    · intro message hmessage
      cases message with
      | some message => exact (rule.triple_fail .nothing message).weaken fun s hs => hs.1
      | none => exact rule.triple_settle hnext hmem hcurrent hgood hmessage

theorem DriveRule.triple_failOrRaise (rule : DriveRule h c floatRepr objects K I good) (rounds : ℕ) (e : PipelineExn) :
    Triple h c (fun s => K rounds run s ∧ (contractText e = none → I s)) (failOrRaise run e) (fun _ => I) (fun _ => I) := by
  unfold failOrRaise
  split
  · exact (rule.triple_fail .nothing _).weaken fun s hs => hs.1
  · rename_i hnone
    exact (rule.triple_raise e).weaken fun s hs => hs.2 hnone

theorem DriveRule.stable_raised (rule : DriveRule h c floatRepr objects K I good) (rounds : ℕ) (run : RunRecord)
    {α : Type} (r : Except PipelineExn α) :
    Stable c fun s => K rounds run s ∧ ∀ e, r = .error e → contractText e = none → I s := by
  refine (rule.stable rounds run).and (stable_forall fun e => ?_)
  exact fun s s' hs hend herror hnone => rule.stableEnd s s' hs (hend herror hnone)

theorem DriveRule.triple_visitNode (rule : DriveRule h c floatRepr objects K I good)
    (hnext : ∀ run, Triple h c (K rounds run) (next run) (fun _ => I) (fun _ => I))
    (hmem : step ∈ run.spec.steps) (hcurrent : run.currentStepId = step.id) :
    Triple h c (K (rounds + 1) run) (visitNode floatRepr objects hashToken registered env next run step) (fun _ => I)
      (fun _ => I) := by
  have hfewer : ∀ s, K (rounds + 1) run s → K rounds run s := rule.fewer rounds run
  unfold visitNode
  split
  · have hresolve : Triple h c (K (rounds + 1) run) (RuntimeM.resolve step run)
        (fun r s => K (rounds + 1) run s ∧ ∀ e, r = .error e → contractText e = none → I s) (fun _ => I) := by
      refine triple_request (rule.stable _ _) ?_ (fun _ => rule.stableEnd) ?_
      · exact fun r => rule.stable_raised (rounds + 1) run r
      · intro s hs ha
        obtain ⟨hguar, hkept, hraised⟩ := rule.resolve rounds run step s hs ha
        exact ⟨hguar, hkept, hraised⟩
    refine hresolve.bind rule.stablePost ?_
    intro r
    cases r with
    | error e =>
      refine (rule.triple_failOrRaise rounds e).weaken ?_
      exact fun s hs => ⟨hfewer s hs.1, hs.2 e rfl⟩
    | ok resolved =>
      obtain ⟨inputs, config⟩ := resolved
      have hnode : Triple h c (K (rounds + 1) run) (RuntimeM.node ⟨run, step, config, inputs⟩)
          (fun reply s => good run step reply ∧ K rounds run s ∧ (reply.Handled floatRepr objects run step ∨ I s))
          (fun _ => I) := by
        refine triple_request (rule.stable _ _) ?_ (fun _ => rule.stableEnd) ?_
        · intro reply
          exact (stable_const _).and ((rule.stable _ _).and ((stable_const _).or rule.stableEnd))
        · intro s hs ha
          obtain ⟨hguar, hkept, hgood, hhandled⟩ := rule.node rounds run step config inputs s hs hmem ha
          exact ⟨hguar, hgood, hkept, hhandled⟩
      refine (hnode.weaken fun s hs => hs.1).bind rule.stablePost ?_
      rintro reply s ⟨hgood, hs⟩
      exact rule.triple_receive hnext hmem hcurrent hgood s hs
  · exact (rule.triple_fail .nothing _).weaken hfewer

theorem DriveRule.triple_visitStep (rule : DriveRule h c floatRepr objects K I good)
    (hnext : ∀ run, Triple h c (K rounds run) (next run) (fun _ => I) (fun _ => I))
    (hmem : step ∈ run.spec.steps) (hcurrent : run.currentStepId = step.id) :
    Triple h c (K (rounds + 1) run) (visitStep floatRepr objects hashToken registered env next run step) (fun _ => I)
      (fun _ => I) := by
  have hfewer : ∀ s, K (rounds + 1) run s → K rounds run s := rule.fewer rounds run
  have hcondition : Triple h c (K (rounds + 1) run) (RuntimeM.conditionMatches step run)
      (fun r s => K (rounds + 1) run s ∧ ∀ e, r = .error e → contractText e = none → I s) (fun _ => I) := by
    refine triple_request (rule.stable _ _) ?_ (fun _ => rule.stableEnd) ?_
    · exact fun r => rule.stable_raised (rounds + 1) run r
    · intro s hs ha
      obtain ⟨hguar, hkept, hraised⟩ := rule.conditionMatches rounds run step s hs ha
      exact ⟨hguar, hkept, hraised⟩
  unfold visitStep
  refine hcondition.bind rule.stablePost ?_
  intro r
  cases r with
  | error e =>
    refine (rule.triple_failOrRaise rounds e).weaken ?_
    exact fun s hs => ⟨hfewer s hs.1, hs.2 e rfl⟩
  | ok matched =>
    cases matched with
    | false => exact (rule.triple_skip hnext step).weaken fun s hs => hfewer s hs.1
    | true => exact (rule.triple_visitNode hnext hmem hcurrent).weaken fun s hs => hs.1

theorem DriveRule.triple_drive (rule : DriveRule h c floatRepr objects K I good) (env : Supply) (rounds : ℕ)
    (run : RunRecord) : Triple h c (K rounds run) (drive floatRepr objects hashToken registered env rounds run) (fun _ => I)
      (fun _ => I) := by
  induction rounds generalizing run with
  | zero =>
    intro s hs
    rw [drive, if_pos (rule.running _ _ s hs)]
    exact rule.triple_fail .nothing _ s hs
  | succ rounds ih =>
    intro s hs
    rw [drive, if_pos (rule.running _ _ s hs)]
    obtain ⟨step, hmem, hid⟩ := List.mem_map.mp (rule.atStep _ _ s hs)
    cases hfind : run.spec.steps.find? fun step => step.id = run.currentStepId with
    | none =>
      have hnone := List.find?_eq_none.mp hfind step hmem
      exact absurd (decide_eq_true hid) hnone
    | some found =>
      have hfound := List.find?_some hfind
      exact rule.triple_visitStep ih (List.mem_of_find?_eq_some hfind) (of_decide_eq_true hfound).symm s hs

end Rule

end Pipeline

end AllTomorrow
