import AllTomorrow.PipelineDrive
import AllTomorrow.ResumeTokens
import AllTomorrow.StoredDefinitions

/-!
# No run is left running

With no concurrent caller, a call of the runtime ends after a bounded number of rounds and
leaves no run with the status running, on the condition that its requests meet: what a node
returns can be encoded, nothing raises where the loop does not expect it, and a token that
is drawn is new.
-/

namespace AllTomorrow

open InsertionDict (get?_set_of_ne get?_set_self)

namespace Pipeline

open Prog EStateM RunStateStore
open MachineRuns (EveryStep everyStep_cons everyStep_nil)

/-! ## Conditions -/

section Conditions

variable (floatRepr : PyFloat → String) (objects : Objects) (nodes : List Visit → Visit → NodeReply)

/-- The output of a node that succeeds, with events that are well formed, can be encoded. -/
def NodeReply.OutputEncodes (run : RunRecord) (step : PipelineStep) : NodeReply → Prop
  | .returns result =>
      checkEvents floatRepr objects run.spec step result.events = .ok none → result.status = .success →
        ∃ copy, jsonCopy floatRepr result.output = .ok copy
  | _ => True

def Fits (w : World) : RuntimeRequest → Prop
  | .conditionMatches step run =>
      ∀ e, Pipeline.conditionMatches objects step.when run = .error e → contractText e ≠ none
  | .resolve step run => ∀ e, resolveStep objects step run = .error e → contractText e ≠ none
  | .node visit =>
      (nodes w.visits visit).Handled floatRepr objects visit.run visit.step ∧
        (nodes w.visits visit).OutputEncodes floatRepr objects visit.run visit.step
  | .createQuestion question => w.store.questions.get? question.resumeTokenHash = none
  | .updateRun run expectedRevision =>
      PyText.Printable (expectedRevision + 1) ∧ ∀ attempt ∈ run.attempts.entries, PyText.Printable attempt.2
  | _ => True

variable {ε α : Type}

theorem isOk_iff {x : Except ε α} : x.isOk = true ↔ ∃ a, x = .ok a := by
  cases x with
  | ok a => exact ⟨fun _ => ⟨a, rfl⟩, fun _ => rfl⟩
  | error e => exact ⟨(nomatch ·), fun ⟨_, h⟩ => nomatch h⟩

theorem toOption_eq_some_iff {x : Except ε α} {a : α} : x.toOption = some a ↔ x = .ok a := by
  cases x with
  | ok b => simp [Except.toOption]
  | error e => simp [Except.toOption]

theorem forall_error_iff {x : Except ε α} {P : ε → Prop} :
    (match x with
      | .ok _ => True
      | .error e => P e) ↔ ∀ e, x = .error e → P e := by
  cases x with
  | ok a => simp
  | error e => simp

instance decidableOk {ε α : Type} (x : Except ε α) : Decidable (∃ a, x = .ok a) := decidable_of_iff _ isOk_iff

instance (priority := low) decidableEqOk {ε α : Type} [DecidableEq α] (x : Except ε α) (a : α) : Decidable (x = .ok a) :=
  decidable_of_iff _ toOption_eq_some_iff

instance decidableForallError {ε α : Type} {P : ε → Prop} [DecidablePred P] (x : Except ε α) :
    Decidable (∀ e, x = .error e → P e) :=
  @decidable_of_iff _ _ forall_error_iff
    (match x with
      | .ok _ => isTrue trivial
      | .error e => inferInstanceAs (Decidable (P e)))

instance decidableHandled (run : RunRecord) (step : PipelineStep) :
    (reply : NodeReply) → Decidable (reply.Handled floatRepr objects run step)
  | .aborts _ => isFalse id
  | .raises _ text => inferInstanceAs (Decidable (∃ t, text = .ok t))
  | .returns result =>
      inferInstanceAs (Decidable ((∃ message, checkEvents floatRepr objects run.spec step result.events = .ok message) ∧
        (checkEvents floatRepr objects run.spec step result.events = .ok none → result.status = .success →
          (∃ contextVariables, withStepOutput run.context.contextVariables step result.output = .ok contextVariables) ∧
          ∃ target, chooseTarget objects run.spec step result = .ok target)))

instance decidableOutputEncodes (run : RunRecord) (step : PipelineStep) :
    (reply : NodeReply) → Decidable (reply.OutputEncodes floatRepr objects run step)
  | .aborts _ | .raises _ _ => isTrue trivial
  | .returns result =>
      inferInstanceAs (Decidable (checkEvents floatRepr objects run.spec step result.events = .ok none →
        result.status = .success → ∃ copy, jsonCopy floatRepr result.output = .ok copy))

instance decidableFits (w : World) : (a : RuntimeRequest) → Decidable (Fits floatRepr objects nodes w a)
  | .conditionMatches step run =>
      inferInstanceAs (Decidable (∀ e, Pipeline.conditionMatches objects step.when run = .error e → contractText e ≠ none))
  | .resolve step run =>
      inferInstanceAs (Decidable (∀ e, resolveStep objects step run = .error e → contractText e ≠ none))
  | .node visit =>
      inferInstanceAs (Decidable ((nodes w.visits visit).Handled floatRepr objects visit.run visit.step ∧
        (nodes w.visits visit).OutputEncodes floatRepr objects visit.run visit.step))
  | .createQuestion question =>
      decidable_of_iff ((w.store.questions.get? question.resumeTokenHash).isNone = true) Option.isNone_iff_eq_none
  | .updateRun run expectedRevision =>
      inferInstanceAs (Decidable (PyText.Printable (expectedRevision + 1) ∧
        ∀ attempt ∈ run.attempts.entries, PyText.Printable attempt.2))
  | .createRun _ | .getRun _ | .cancelPendingQuestions _ | .resumeRun _ _ _ => isTrue trivial

end Conditions

def RuntimeRequest.AtStep : RuntimeRequest → Prop
  | .createRun run | .updateRun run _ | .conditionMatches _ run | .resolve _ run => run.currentStepId ∈ run.spec.stepIds
  | .node visit => visit.run.currentStepId ∈ visit.run.spec.stepIds
  | _ => True

/-- A stored run that does not run, at a step of the definition that its version holds. -/
structure SettledRun (s : RunStateStore) (runId : String) (data : RunSnapshot) : Prop where
  runId : data.runId = runId
  status : data.status ≠ .running
  atStep : ∃ ids, Held s (data.pipelineId, data.pipelineVersion.value) ids ∧ data.currentStepId ∈ ids

def RunStateStore.Settled (s : RunStateStore) : Prop :=
  ∀ runId data, s.runs.get? runId = some data → SettledRun s runId data

variable {floatRepr : PyFloat → String} {objects : Objects} {nodes : List Visit → Visit → NodeReply}
  {hashToken : String → String} {registered : String → Bool}

variable {data : RunSnapshot}

theorem SettledRun.of_held {s t : RunStateStore} {runId : String} (h : SettledRun s runId data)
    (hheld : ∀ key ids, Held s key ids → Held t key ids) : SettledRun t runId data where
  runId := h.runId
  status := h.status
  atStep := by
    obtain ⟨ids, hids, hmem⟩ := h.atStep
    exact ⟨ids, hheld _ _ hids, hmem⟩

theorem RunStateStore.Settled.of_held {s t : RunStateStore} (h : s.Settled) (hruns : t.runs = s.runs)
    (hheld : ∀ key ids, Held s key ids → Held t key ids) : t.Settled := by
  intro runId data hdata
  rw [hruns] at hdata
  exact (h runId data hdata).of_held hheld

theorem settled_set {s : RunStateStore} {r : String}
    (hothers : ∀ runId data, runId ≠ r → s.runs.get? runId = some data → SettledRun s runId data)
    (hdata : SettledRun s r data) : Settled { s with runs := s.runs.set r data } := by
  have hheld : ∀ key ids, Held s key ids → Held { s with runs := s.runs.set r data } key ids :=
    fun key ids h => h.of_same rfl rfl
  intro runId data' hdata'
  by_cases hne : runId = r
  · subst hne
    rw [get?_set_self, Option.some.injEq] at hdata'
    subst hdata'
    exact hdata.of_held hheld
  · rw [get?_set_of_ne _ _ hne] at hdata'
    exact (hothers runId data' hne hdata').of_held hheld

/-! ## A run that is driven -/

structure RunRecord.Storable (floatRepr : PyFloat → String) (run : RunRecord) : Prop where
  context : ∃ context, executionContextToDict floatRepr run.context = .ok context
  outputs : ∃ outputs, jsonCopyEntries floatRepr run.outputs = .ok outputs
  document : ∃ document, pipelineSpecToDict floatRepr run.spec = .ok document

theorem storable_of_runRecordToDict {run : RunRecord} (h : runRecordToDict floatRepr run = .ok data) :
    run.Storable floatRepr := by
  unfold runRecordToDict at h
  simp only [except_bind_ok] at h
  obtain ⟨context, hcontext, document, hdocument, outputs, houtputs, _⟩ := h
  exact ⟨⟨context, hcontext⟩, ⟨outputs, houtputs⟩, ⟨document, hdocument⟩⟩

theorem exists_data {run : RunRecord} (h : run.Storable floatRepr) (hrevision : PyText.Printable run.revision)
    (hattempts : ∀ attempt ∈ run.attempts.entries, PyText.Printable attempt.2) :
    ∃ data, runRecordToDict floatRepr run = .ok data := by
  obtain ⟨document, hdocument⟩ := h.document
  have hencodable : run.Encodable floatRepr :=
    { context := h.context, outputs := h.outputs, attempts := intTexts_ok hattempts
      revision := ⟨_, if_pos hrevision⟩ }
  obtain ⟨data, hdata, _⟩ := runRecordToDict_of_encodable hencodable hdocument
  exact ⟨data, hdata⟩

theorem executionContextToDict_ok_iff {context : ExecutionContext} :
    (∃ data, executionContextToDict floatRepr context = .ok data) ↔
      (∃ fs, jsonCopyEntries floatRepr context.request.edgeAnalysis = .ok fs) ∧
        (∃ fs, jsonCopyEntries floatRepr context.contextVariables = .ok fs) ∧
        ∃ fs, jsonCopyEntries floatRepr context.budget = .ok fs := by
  unfold executionContextToDict
  simp only [except_bind_ok]
  constructor
  · rintro ⟨_, edge, hedge, contextVariables, hvariables, budget, hbudget, _⟩
    exact ⟨⟨edge, hedge⟩, ⟨contextVariables, hvariables⟩, ⟨budget, hbudget⟩⟩
  · rintro ⟨⟨edge, hedge⟩, ⟨contextVariables, hvariables⟩, ⟨budget, hbudget⟩⟩
    exact ⟨_, edge, hedge, contextVariables, hvariables, budget, hbudget, rfl⟩

theorem exists_copy_withStepOutput {contextVariables contextVariables' : PyEntries} {step : PipelineStep} {output : PyObj}
    (h : withStepOutput contextVariables step output = .ok contextVariables')
    (hvariables : ∃ fs, jsonCopyEntries floatRepr contextVariables = .ok fs)
    (houtput : ∃ copy, jsonCopy floatRepr output = .ok copy) :
    ∃ fs, jsonCopyEntries floatRepr contextVariables' = .ok fs := by
  have hentry : ∃ copy, jsonCopy floatRepr (.dict [(.str "output", output)]) = .ok copy := by
    obtain ⟨copy, hcopy⟩ := houtput
    exact exists_copy_dict.mpr ⟨_, jsonCopyEntries_cons_ok.mpr ⟨"output", copy, [], rfl, hcopy, rfl, rfl⟩⟩
  unfold withStepOutput at h
  dsimp only at h
  split at h
  · cases h
    have hempty : ∃ fs, jsonCopyEntries floatRepr [] = .ok fs := ⟨[], rfl⟩
    exact exists_copy_set hvariables "steps" (exists_copy_dict.mpr (exists_copy_set hempty step.id hentry))
  · rename_i steps hsteps
    cases h
    have hold := exists_copy_dict.mp (exists_copy_of_get? hvariables hsteps)
    exact exists_copy_set hvariables "steps" (exists_copy_dict.mpr (exists_copy_set hold step.id hentry))
  · cases h

theorem storable_gained {run base : RunRecord} (hrun : run.Storable floatRepr)
    (hbase : Gained floatRepr objects (fun run step reply => reply.OutputEncodes floatRepr objects run step) run base) : base.Storable floatRepr := by
  cases hbase with
  | nothing => exact hrun
  | attempt step => exact ⟨hrun.context, hrun.outputs, hrun.document⟩
  | output step result contextVariables hgood hevents hstatus hvariables =>
    obtain ⟨hedge, hold, hbudget⟩ := executionContextToDict_ok_iff.mp hrun.context
    have hcopy := hgood hevents hstatus
    exact
      { context := executionContextToDict_ok_iff.mpr ⟨hedge, exists_copy_withStepOutput hvariables hold hcopy, hbudget⟩
        outputs := exists_copy_set hrun.outputs step.id hcopy
        document := hrun.document }

def FewVisits (w₀ : World) (spec : PipelineSpec) (rounds : ℕ) (w : World) : Prop :=
  ∃ visits, w.visits = w₀.visits ++ visits ∧ visits.length + rounds ≤ roundLimit spec ∧ ∀ v ∈ visits, v.run.spec = spec

structure Driving (floatRepr : PyFloat → String) (w₀ : World) (spec : PipelineSpec) (rounds : ℕ) (run : RunRecord)
    (w : World) : Prop where
  sameSpec : run.spec = spec
  running : run.status = .running
  atStep : run.currentStepId ∈ run.spec.stepIds
  stored : ∃ data, w.store.runs.get? run.runId = some data ∧ data.revision = run.revision
  others : ∀ runId data, runId ≠ run.runId → w.store.runs.get? runId = some data → SettledRun w.store runId data
  storable : run.Storable floatRepr
  held : Held w.store run.spec.key run.spec.stepIds
  visits : FewVisits w₀ spec rounds w

structure Done (w₀ : World) (spec : PipelineSpec) (w : World) : Prop where
  settled : w.store.Settled
  visits : FewVisits w₀ spec 0 w

def aloneContract (floatRepr : PyFloat → String) (objects : Objects) (nodes : List Visit → Visit → NodeReply) :
    Contract RuntimeRequest World where
  rely := fun _ _ => False
  assume := Fits floatRepr objects nodes
  guar := fun _ a => a.AtStep

theorem stable_alone (P : World → Prop) : Stable (aloneContract floatRepr objects nodes) P :=
  fun _ _ h => h.elim

theorem FewVisits.mono {w₀ w : World} {spec : PipelineSpec} {rounds rounds' : ℕ} (h : FewVisits w₀ spec rounds w)
    (hle : rounds' ≤ rounds) : FewVisits w₀ spec rounds' w := by
  obtain ⟨visits, happend, hlength, hspec⟩ := h
  exact ⟨visits, happend, by omega, hspec⟩

/-! ## The rule for the loop -/

section Loop

variable {w₀ w : World} {spec : PipelineSpec} {rounds : ℕ} {run : RunRecord} {record : RunRecord}

theorem Driving.update (h : Driving floatRepr w₀ spec rounds run w)
    (hfits : Fits floatRepr objects nodes w (.updateRun record run.revision)) (hid : record.runId = run.runId)
    (hspec : record.spec = run.spec) (hstorable : record.Storable floatRepr) :
    ∃ data, handler floatRepr objects nodes (.updateRun record run.revision) w =
        (.ok (run.revision + 1), { w with store := { w.store with runs := w.store.runs.set run.runId data } }) ∧
      data.runId = run.runId ∧ data.status = record.status ∧ data.currentStepId = record.currentStepId ∧
      data.revision = run.revision + 1 ∧ (data.pipelineId, data.pipelineVersion.value) = run.spec.key := by
  obtain ⟨existing, hexisting, hrevision⟩ := h.stored
  have hencoded : ∃ data, runRecordToDict floatRepr { record with revision := run.revision + 1 } = .ok data :=
    exists_data ⟨hstorable.context, hstorable.outputs, hstorable.document⟩ hfits.1 hfits.2
  obtain ⟨data, hdata⟩ := hencoded
  have hrun := run_updateRun_ok (by rw [hid, hexisting]) hrevision hdata
  obtain ⟨hdataId, hstatus, hcurrent, hdataRevision, hpipeline, hversion⟩ := runRecordToDict_fields hdata
  refine ⟨data, ?_, hdataId.trans hid, hstatus, hcurrent, hdataRevision, ?_⟩
  · change w.call (updateRun floatRepr record run.revision) = _
    rw [World.call, hrun, hid]
    rfl
  · rw [hpipeline, hversion]
    change record.spec.key = run.spec.key
    rw [hspec]

theorem Driving.others_update (h : Driving floatRepr w₀ spec rounds run w) (data : RunSnapshot) {runId : String}
    {data' : RunSnapshot} (hne : runId ≠ run.runId) (hdata' : (w.store.runs.set run.runId data).get? runId = some data') :
    SettledRun { w.store with runs := w.store.runs.set run.runId data } runId data' := by
  rw [get?_set_of_ne _ _ hne] at hdata'
  exact (h.others runId data' hne hdata').of_held fun key ids hheld => hheld.of_same rfl rfl

theorem Driving.done_of_update (h : Driving floatRepr w₀ spec rounds run w)
    (hfits : Fits floatRepr objects nodes w (.updateRun record run.revision)) (hid : record.runId = run.runId)
    (hspec : record.spec = run.spec) (hstorable : record.Storable floatRepr) (hstatus : record.status ≠ .running)
    (hcurrent : record.currentStepId ∈ run.spec.stepIds) : Outcome (fun _ => Done w₀ spec) (fun _ => Done w₀ spec)
      (handler floatRepr objects nodes (.updateRun record run.revision) w).1
      (handler floatRepr objects nodes (.updateRun record run.revision) w).2 := by
  obtain ⟨data, hrun, hdataId, hdataStatus, hdataCurrent, _, hkey⟩ := h.update hfits hid hspec hstorable
  rw [hrun]
  refine { settled := settled_set h.others ?_, visits := h.visits.mono (Nat.zero_le _) }
  refine ⟨hdataId, by rwa [hdataStatus], run.spec.stepIds, ?_, by rwa [hdataCurrent]⟩
  rw [hkey]
  exact h.held

variable {good : RunRecord → PipelineStep → NodeReply → Prop} {base : RunRecord}

theorem gained_runId (hbase : Gained floatRepr objects good run base) : base.runId = run.runId := by
  cases hbase <;> rfl

theorem gained_currentStepId (hbase : Gained floatRepr objects good run base) : base.currentStepId = run.currentStepId := by
  cases hbase <;> rfl

theorem gained_status (hbase : Gained floatRepr objects good run base) : base.status = run.status := by
  cases hbase <;> rfl

theorem handler_createQuestion {question : QuestionRecord}
    (hnew : w.store.questions.get? question.resumeTokenHash = none) (hanswer : question.answer = none) :
    handler floatRepr objects nodes (.createQuestion question) w = (.ok question.questionId,
      { w with store := { w.store with questions := w.store.questions.set question.resumeTokenHash question } }) := by
  change w.call (createQuestion floatRepr question) = _
  rw [World.call, run_createQuestion_ok hnew hanswer]
  rfl

theorem driveRule (floatRepr : PyFloat → String) (objects : Objects) (nodes : List Visit → Visit → NodeReply) (w₀ : World)
    (spec : PipelineSpec) :
    DriveRule (handler floatRepr objects nodes) (aloneContract floatRepr objects nodes) floatRepr objects
      (Driving floatRepr w₀ spec) (Done w₀ spec) (fun run step reply => reply.OutputEncodes floatRepr objects run step) where
  stable := fun _ _ => stable_alone _
  stableEnd := stable_alone _
  running := fun _ _ _ h => h.running
  atStep := fun _ _ _ h => h.atStep
  fewer := fun _ _ _ h => { h with visits := h.visits.mono (Nat.le_succ _) }
  conditionMatches := by
    intro rounds run step w h hfits
    exact ⟨h.atStep, h, fun e he hnone => absurd hnone (hfits e he)⟩
  resolve := by
    intro rounds run step w h hfits
    exact ⟨h.atStep, h, fun e he hnone => absurd hnone (hfits e he)⟩
  node := by
    intro rounds run step config inputs w h _ hfits
    refine ⟨h.atStep, ?_, hfits.2, .inl hfits.1⟩
    obtain ⟨visits, happend, hlength, hvisits⟩ := h.visits
    refine { h with visits := ⟨visits ++ [⟨run, step, config, inputs⟩], ?_, ?_, ?_⟩ }
    · change w.visits ++ [_] = _
      rw [happend, List.append_assoc]
    · rw [List.length_append, List.length_singleton]
      omega
    · intro v hv
      rcases List.mem_append.mp hv with hv | hv
      · exact hvisits v hv
      · rw [List.mem_singleton.mp hv]
        exact h.sameSpec
  goesOn := by
    intro rounds run base id hbase hid
    refine triple_request (stable_alone _) (fun _ => stable_alone _) (fun _ => stable_alone _) ?_
    intro w h hfits
    have hspec : base.spec = run.spec := gained_spec hbase
    have hguar : id ∈ base.spec.stepIds := by rwa [hspec]
    refine ⟨hguar, ?_⟩
    have hbaseStorable := storable_gained h.storable hbase
    have hid : (base.goingOn id).runId = run.runId := by
      change base.runId = run.runId
      exact gained_runId hbase
    obtain ⟨data, hrun, _, _, _, hrevision, _⟩ := h.update hfits hid hspec
      ⟨hbaseStorable.context, hbaseStorable.outputs, hbaseStorable.document⟩
    rw [hrun]
    have hself : (w.store.runs.set run.runId data).get? base.runId = some data := by
      rw [gained_runId hbase, get?_set_self]
    exact
      { sameSpec := hspec.trans h.sameSpec
        running := (gained_status hbase).trans h.running
        atStep := hguar
        stored := ⟨data, hself, hrevision⟩
        others := fun runId data' hne hdata' => h.others_update data (by rwa [← gained_runId hbase]) hdata'
        storable := ⟨hbaseStorable.context, hbaseStorable.outputs, hbaseStorable.document⟩
        held := by
          change Held _ base.spec.key base.spec.stepIds
          rw [hspec]
          exact h.held.of_same rfl rfl
        visits := h.visits }
  ends := by
    intro rounds run base status error hbase hstatus
    refine triple_request (stable_alone _) (fun _ => stable_alone _) (fun _ => stable_alone _) ?_
    intro w h hfits
    have hspec : base.spec = run.spec := gained_spec hbase
    have hcurrent : base.currentStepId ∈ run.spec.stepIds := by
      rw [gained_currentStepId hbase]
      exact h.atStep
    have hguar : base.currentStepId ∈ base.spec.stepIds := by rwa [hspec]
    have hnot : status ≠ .running := by
      rintro rfl
      revert hstatus
      decide
    have hbaseStorable := storable_gained h.storable hbase
    have hid : (base.ended status error).runId = run.runId := by
      change base.runId = run.runId
      exact gained_runId hbase
    exact ⟨hguar, h.done_of_update hfits hid hspec
      ⟨hbaseStorable.context, hbaseStorable.outputs, hbaseStorable.document⟩ hnot hcurrent⟩
  asks := by
    intro rounds env run step question tokenHash _ _
    refine ⟨Driving floatRepr w₀ spec rounds run, ?_, ?_⟩
    · refine triple_request (stable_alone _) (fun _ => stable_alone _) (fun _ => stable_alone _) ?_
      intro w h hfits
      refine ⟨trivial, ?_⟩
      rw [handler_createQuestion hfits rfl]
      exact
        { h with
          others := fun runId data hne hdata =>
            (h.others runId data hne hdata).of_held fun key ids hheld => hheld.of_same rfl rfl
          held := h.held.of_same rfl rfl }
    · refine triple_request (stable_alone _) (fun _ => stable_alone _) (fun _ => stable_alone _) ?_
      intro w h hfits
      exact ⟨h.atStep, h.done_of_update hfits rfl rfl ⟨h.storable.context, h.storable.outputs, h.storable.document⟩
        (fun hstatus => RunStatus.noConfusion hstatus) h.atStep⟩

end Loop

/-! ## Calls -/

section Calls

/-- What is left of a call: no run is running, and its visits of nodes were within the limit. -/
structure Finished (w₀ w : World) : Prop where
  notRunning : ∀ runId data, w.store.runs.get? runId = some data → data.status ≠ .running
  visits : ∃ visits, w.visits = w₀.visits ++ visits ∧ ∀ v ∈ visits, visits.length ≤ roundLimit v.run.spec

structure Ended (w₀ w : World) : Prop where
  settled : w.store.Settled
  visits : ∃ visits, w.visits = w₀.visits ++ visits ∧ ∀ v ∈ visits, visits.length ≤ roundLimit v.run.spec

theorem Ended.finished {w₀ w : World} (h : Ended w₀ w) : Finished w₀ w where
  notRunning := fun runId data hdata => (h.settled runId data hdata).status
  visits := h.visits

variable {spec : PipelineSpec}

theorem Done.ended {w₀ w : World} (h : Done w₀ spec w) : Ended w₀ w where
  settled := h.settled
  visits := by
    obtain ⟨visits, happend, hlength, hspec⟩ := h.visits
    refine ⟨visits, happend, ?_⟩
    intro v hv
    rw [hspec v hv]
    exact hlength

variable {s : RunStateStore}

theorem ended_of_settled {w₀ : World} (h : s.Settled) : Ended w₀ { w₀ with store := s } where
  settled := h
  visits := ⟨[], (List.append_nil _).symm, fun _ hv => nomatch hv⟩

theorem fewVisits_nil {w₀ w : World} (h : w.visits = w₀.visits) : FewVisits w₀ spec (roundLimit spec) w :=
  ⟨[], by rw [h, List.append_nil], by rw [List.length_nil, Nat.zero_add], fun _ hv => nomatch hv⟩

theorem exists_identity {document : PyEntries}
    (h : pipelineSpecToDict floatRepr spec = .ok document) : ∃ identity, spec.identity floatRepr = .ok identity := by
  rw [pipelineSpecToDict] at h
  obtain ⟨os, _, hcopy⟩ := except_bind_ok.mp h
  obtain ⟨version, hversion, _⟩ := get?_copy_of_some hcopy rfl "version" rfl
  have hnumber : ∃ text, numberText floatRepr spec.version = .ok text := by
    cases hv : spec.version with
    | bool b => exact ⟨_, rfl⟩
    | float x => exact ⟨_, rfl⟩
    | int n =>
      rw [hv] at hversion
      change jsonCopy floatRepr (.int n) = _ at hversion
      rw [jsonCopy] at hversion
      obtain ⟨text, htext, _⟩ := except_bind_ok.mp hversion
      exact ⟨text, htext⟩
  obtain ⟨text, htext⟩ := hnumber
  exact ⟨_, except_bind_ok.mpr ⟨text, htext, rfl⟩⟩

variable (w₀ : World)

/-- `create_run` stores the run that is driven from its first step. -/
theorem triple_createRun (env : Supply) (spec : PipelineSpec) (context : ExecutionContext) :
    Triple (handler floatRepr objects nodes) (aloneContract floatRepr objects nodes)
      (fun w => w = w₀ ∧ w₀.store.Settled) (RuntimeM.createRun (newRun env spec context))
      (fun _ => Driving floatRepr w₀ spec (roundLimit spec) (newRun env spec context)) (fun _ => Ended w₀) := by
  refine triple_request (stable_alone _) (fun _ => stable_alone _) (fun _ => stable_alone _) ?_
  rintro w ⟨rfl, hsettled⟩ _
  have hfirst : (newRun env spec context).currentStepId ∈ spec.stepIds :=
    List.mem_map_of_mem (List.head_mem spec.steps_ne)
  refine ⟨hfirst, ?_⟩
  have hheld : ∀ key ids, Held w.store key ids → Held
      ((createRun floatRepr (newRun env spec context)).run w.store).state key ids := fun _ _ h => held_createRun h _
  change Outcome _ _ (w.call (createRun floatRepr (newRun env spec context))).1
    (w.call (createRun floatRepr (newRun env spec context))).2
  rw [World.call]
  rcases run_createRun_cases floatRepr (newRun env spec context) w.store with
    ⟨e, t, hrun, hruns, _⟩ | ⟨data, t, hnew, hdata, hrun, hruns, _⟩
  · rw [hrun] at hheld ⊢
    exact ended_of_settled (hsettled.of_held hruns hheld)
  · have hdefined := held_of_createRun hrun
    rw [hrun] at hheld ⊢
    refine
      { sameSpec := rfl
        running := rfl
        atStep := hfirst
        stored := ⟨data, ?_, (runRecordToDict_fields hdata).2.2.2.1⟩
        others := ?_
        storable := storable_of_runRecordToDict hdata
        held := hdefined
        visits := fewVisits_nil rfl }
    · change t.runs.get? (newRun env spec context).runId = some data
      rw [hruns, get?_set_self]
    · intro runId data' hne hdata'
      change t.runs.get? runId = some data' at hdata'
      rw [hruns, get?_set_of_ne _ _ hne] at hdata'
      exact (hsettled runId data' hdata').of_held hheld

theorem triple_driveAlone (spec : PipelineSpec) (env : Supply) (rounds : ℕ) (run : RunRecord) :
    Triple (handler floatRepr objects nodes) (aloneContract floatRepr objects nodes) (Driving floatRepr w₀ spec rounds run)
      (drive floatRepr objects hashToken registered env rounds run) (fun _ => Ended w₀) (fun _ => Ended w₀) :=
  ((driveRule floatRepr objects nodes w₀ spec).triple_drive env rounds run).conseq (fun _ _ h => h.ended)
    fun _ _ h => h.ended

theorem triple_start (env : Supply) (spec : PipelineSpec) (context : ExecutionContext) :
    Triple (handler floatRepr objects nodes) (aloneContract floatRepr objects nodes)
      (fun w => w = w₀ ∧ w₀.store.Settled) (start floatRepr objects hashToken registered env spec context)
      (fun _ => Ended w₀) (fun _ => Ended w₀) := by
  have hkept : ∀ w, w = w₀ ∧ w₀.store.Settled → Ended w₀ w := by
    rintro w ⟨rfl, hsettled⟩
    exact ended_of_settled hsettled
  unfold start
  dsimp only
  split
  · refine (triple_createRun w₀ _ spec context).bind (fun _ => stable_alone _) fun _ => ?_
    cases hidentity : spec.identity floatRepr with
    | ok identity => exact triple_driveAlone w₀ spec _ _ _
    | error e =>
      intro w hw
      obtain ⟨document, hdocument⟩ := hw.storable.document
      obtain ⟨identity, hok⟩ := exists_identity hdocument
      have hboth : (Except.error e : Except PipelineExn String) = .ok identity := hidentity.symm.trans hok
      cases hboth
  · cases spec.identity floatRepr with
    | ok identity => exact triple_throw (stable_alone _) hkept
    | error e => exact triple_throw (stable_alone _) hkept

variable {runId : String}

theorem SettledRun.read (h : SettledRun s runId data) (hspec : specFromData (s.spec? (data.pipelineId, data.pipelineVersion.value)) = .ok (some spec)) :
    Held s spec.key spec.stepIds ∧ spec.key = (data.pipelineId, data.pipelineVersion.value) ∧
      data.currentStepId ∈ spec.stepIds := by
  obtain ⟨ids, hheld, hmem⟩ := h.atStep
  rcases hheld.read with ⟨e, herror⟩ | ⟨spec', hok, hkey, hids⟩
  · rw [herror] at hspec
    cases hspec
  · rw [hok] at hspec
    cases hspec
    rw [hkey, hids]
    exact ⟨hheld, rfl, hmem⟩

theorem Resuming.settled {env : Supply} {tokenHash : String} {answer : PyObj} {s t : RunStateStore} {entries : PyEntries}
    {question : QuestionRecord} {snapshot : RunSnapshot} {record : RunRecord} {contextVariables : PyEntries}
    (h : Resuming env tokenHash answer s entries question snapshot spec record contextVariables t) (hs : s.Settled) :
    t.Settled ∧ Held t spec.key spec.stepIds ∧ record.runId = question.runId ∧ record.spec = spec ∧
      record.currentStepId ∈ spec.stepIds := by
  obtain ⟨hstored, hstatus, _, hspec⟩ := resumableRun_ok h.waiting
  have hrun := hs question.runId snapshot hstored
  obtain ⟨hid, hrecordSpec, _, _, _, hcurrent, _⟩ := runRecordFromDict_ok h.read
  obtain ⟨hheld, _, hat⟩ := hrun.read hspec
  rw [← hcurrent] at hat
  have hwritten := h.written
  rcases run_writeAnswer_cases question.runId snapshot entries s with ⟨e, hwrite⟩ | ⟨_, hwrite⟩ | ⟨_, _, hwrite⟩
  · rw [hwrite] at hwritten
    cases hwritten
  · rw [hwrite] at hwritten
    cases hwritten
    exact ⟨hs, hheld, hid.trans hrun.runId, hrecordSpec, hat⟩
  · rw [hwrite] at hwritten
    cases hwritten
    refine ⟨?_, hheld.of_same rfl rfl, hid.trans hrun.runId, hrecordSpec, hat⟩
    exact settled_set (fun runId data _ hdata => hs runId data hdata) ⟨hrun.runId, hrun.status, hrun.atStep⟩

theorem triple_resumeRun (env : Supply) (tokenHash : String) (answer : PyObj) :
    Triple (handler floatRepr objects nodes) (aloneContract floatRepr objects nodes)
      (fun w => w = w₀ ∧ w₀.store.Settled) (RuntimeM.resumeRun env tokenHash answer)
      (fun run => Driving floatRepr w₀ run.spec (roundLimit run.spec) run) (fun _ => Ended w₀) := by
  refine triple_request (stable_alone _) (fun _ => stable_alone _) (fun _ => stable_alone _) ?_
  rintro w ⟨rfl, hsettled⟩ _
  refine ⟨trivial, ?_⟩
  change Outcome _ _ (w.call (resumeRun floatRepr env tokenHash answer)).1
    (w.call (resumeRun floatRepr env tokenHash answer)).2
  rw [World.call]
  rcases run_resumeRun_cases floatRepr env tokenHash answer w.store with ⟨e, hrun⟩ |
    ⟨entries, question, snapshot, spec, record, contextVariables, t, hresuming, ⟨e, hrun, _⟩ | ⟨data, copy, hdata, _, hrun⟩⟩
  · rw [hrun]
    exact ended_of_settled hsettled
  · rw [hrun]
    exact ended_of_settled (hresuming.settled hsettled).1
  · rw [hrun]
    obtain ⟨ht, hheld, hid, hspec, hat⟩ := hresuming.settled hsettled
    refine
      { sameSpec := rfl
        running := rfl
        atStep := ?_
        stored := ⟨data, ?_, (runRecordToDict_fields hdata).2.2.2.1⟩
        others := ?_
        storable := storable_of_runRecordToDict hdata
        held := ?_
        visits := fewVisits_nil rfl }
    · change record.currentStepId ∈ record.spec.stepIds
      rwa [hspec]
    · change (t.runs.set question.runId data).get? record.runId = some data
      rw [hid, get?_set_self]
    · intro runId data' hne hdata'
      change runId ≠ record.runId at hne
      rw [hid] at hne
      change (t.runs.set question.runId data).get? runId = some data' at hdata'
      rw [get?_set_of_ne _ _ hne] at hdata'
      exact (ht runId data' hdata').of_held fun _ _ h => h.of_same rfl rfl
    · change Held _ record.spec.key record.spec.stepIds
      rw [hspec]
      exact hheld.of_same rfl rfl

theorem triple_resume (env : Supply) (resumeToken : String) (answer : PyObj) :
    Triple (handler floatRepr objects nodes) (aloneContract floatRepr objects nodes)
      (fun w => w = w₀ ∧ w₀.store.Settled) (resume floatRepr objects hashToken registered env resumeToken answer)
      (fun _ => Ended w₀) (fun _ => Ended w₀) := by
  unfold resume
  split
  · refine triple_throw (stable_alone _) ?_
    rintro w ⟨rfl, hsettled⟩
    exact ended_of_settled hsettled
  · refine (triple_resumeRun w₀ _ _ answer).bind (fun _ => stable_alone _) fun run => ?_
    exact triple_driveAlone w₀ run.spec _ _ run

def freeContract : Contract RuntimeRequest World where
  rely := fun _ _ => False
  assume := fun _ _ => True
  guar := fun _ a => a.AtStep

theorem stable_free (P : World → Prop) : Stable freeContract P := fun _ _ h => h.elim

structure ReadRun (s : RunStateStore) (runId : String) (run : RunRecord) : Prop where
  runId : run.runId = runId
  atStep : run.currentStepId ∈ run.spec.stepIds
  held : Held s run.spec.key run.spec.stepIds

theorem readRun_of_getRun {s t : RunStateStore} {run : RunRecord} (hs : s.Settled)
    (h : (getRun runId).run s = .ok (some run) t) : ReadRun s runId run := by
  rcases run_getRun_cases runId s with ⟨e, hrun⟩ | ⟨_, hrun⟩ | ⟨data, found, record, hdata, hspec, hrecord, hrun⟩
  · rw [hrun] at h
    cases h
  · rw [hrun] at h
    cases h
  · rw [hrun] at h
    cases h
    have hstored := hs runId data hdata
    cases found with
    | none =>
      obtain ⟨ids, hheld, _⟩ := hstored.atStep
      rcases hheld.read with ⟨e, herror⟩ | ⟨spec, hok, _⟩
      · rw [hspec] at herror
        cases herror
      · rw [hspec] at hok
        cases hok
    | some spec =>
      obtain ⟨hheld, _, hat⟩ := hstored.read hspec
      obtain ⟨hid, hrecordSpec, _, _, _, hcurrent, _⟩ := runRecordFromDict_ok hrecord
      refine ⟨hid.trans hstored.runId, ?_, ?_⟩
      · rw [hcurrent, hrecordSpec]
        exact hat
      · rw [hrecordSpec]
        exact hheld

theorem getRun_state (runId : String) (s : RunStateStore) : ((getRun runId).run s).state = s := by
  rcases run_getRun_cases runId s with ⟨e, hrun⟩ | ⟨_, hrun⟩ | ⟨_, _, _, _, _, _, hrun⟩ <;> rw [hrun] <;> rfl

theorem settled_updateRun {run : RunRecord} (hs : s.Settled)
    (hread : ReadRun s runId run) (hstatus : run.status ≠ .running) (expected : ℤ) :
    ((updateRun floatRepr run expected).run s).state.Settled := by
  rcases run_updateRun_cases floatRepr run expected s with ⟨e, hrun⟩ | ⟨existing, data, _, _, hdata, hrun⟩
  · rw [hrun]
    exact hs
  · rw [hrun]
    obtain ⟨hid, hdataStatus, hcurrent, _, hpipeline, hversion⟩ := runRecordToDict_fields hdata
    refine settled_set (fun runId data _ hdata => hs runId data hdata) ⟨hid, by rwa [hdataStatus], run.spec.stepIds, ?_, ?_⟩
    · rw [hpipeline, hversion]
      exact hread.held
    · rw [hcurrent]
      exact hread.atStep

theorem triple_cancel (runId : String) :
    Triple (handler floatRepr objects nodes) freeContract (fun w => w = w₀ ∧ w₀.store.Settled) (cancel runId)
      (fun _ => Ended w₀) (fun _ => Ended w₀) := by
  have hget : Triple (handler floatRepr objects nodes) freeContract (fun w => w = w₀ ∧ w₀.store.Settled)
      (RuntimeM.getRun runId)
      (fun found w => Ended w₀ w ∧ ∀ run, found = some run → ReadRun w.store runId run) (fun _ => Ended w₀) := by
    refine triple_request (stable_free _) (fun _ => stable_free _) (fun _ => stable_free _) ?_
    rintro w ⟨rfl, hsettled⟩ _
    refine ⟨trivial, ?_⟩
    change Outcome _ _ (w.call (getRun runId)).1 (w.call (getRun runId)).2
    rw [World.call, getRun_state]
    cases hrun : (getRun runId).run w.store with
    | error e t => exact ended_of_settled hsettled
    | ok found t =>
      refine ⟨ended_of_settled hsettled, ?_⟩
      rintro run rfl
      exact readRun_of_getRun hsettled hrun
  unfold cancel
  refine hget.bind (fun _ => stable_free _) fun found => ?_
  cases found with
  | none => exact triple_throw (stable_free _) fun w hw => hw.1
  | some run =>
    dsimp only
    split
    · exact triple_throw (stable_free _) fun w hw => hw.1
    · have hquestions : Triple (handler floatRepr objects nodes) freeContract
          (fun w => Ended w₀ w ∧ ∀ run', some run = some run' → ReadRun w.store runId run')
          (RuntimeM.cancelPendingQuestions runId) (fun _ w => Ended w₀ w ∧ ReadRun w.store runId run)
          (fun _ => Ended w₀) := by
        refine triple_request (stable_free _) (fun _ => stable_free _) (fun _ => stable_free _) ?_
        rintro w ⟨hended, hread⟩ _
        refine ⟨trivial, ⟨?_, hended.visits⟩, ?_⟩
        · exact hended.settled.of_held rfl fun _ _ h => h.of_same rfl rfl
        · obtain ⟨hid, hat, hheld⟩ := hread run rfl
          exact ⟨hid, hat, hheld.of_same rfl rfl⟩
      refine hquestions.bind (fun _ => stable_free _) fun _ => ?_
      unfold finish
      have hupdate : Triple (handler floatRepr objects nodes) freeContract
          (fun w => Ended w₀ w ∧ ReadRun w.store runId run)
          (RuntimeM.updateRun { run with status := .cancelled } run.revision) (fun _ => Ended w₀) (fun _ => Ended w₀) := by
        refine triple_request (stable_free _) (fun _ => stable_free _) (fun _ => stable_free _) ?_
        rintro w ⟨hended, hread⟩ _
        refine ⟨hread.atStep, outcome_const.mpr ⟨?_, hended.visits⟩⟩
        have hagain : ReadRun w.store runId { run with status := .cancelled } := ⟨hread.runId, hread.atStep, hread.held⟩
        exact settled_updateRun hended.settled hagain (fun h => RunStatus.noConfusion h) _
      exact hupdate.bind (fun _ => stable_free _) fun _ => triple_pure (stable_free _) fun _ h => h

end Calls

/-! ## Sequences of calls -/

inductive ClientCall where
  | savePipeline (spec : PipelineSpec) (raw : Option ℕ)
  | publishPipeline (spec : PipelineSpec) (raw : Option ℕ)
  | runtime (call : RuntimeCall)

section Sequences

variable (floatRepr : PyFloat → String) (objects : Objects) (hashToken : String → String) (registered : String → Bool)
  (nodes : List Visit → Visit → NodeReply)

def clientStep (w : World) : ClientCall → World
  | .savePipeline spec raw => (w.call (savePipeline floatRepr spec raw)).2
  | .publishPipeline spec raw => (w.call (publishPipeline floatRepr spec raw)).2
  | .runtime call =>
      (evalTask (handler floatRepr objects nodes) (call.program floatRepr objects hashToken registered) w).2

/-- Every request of a call that drives a run is made on its condition. -/
def ClientCall.Fitting (w : World) : ClientCall → Prop
  | .runtime (.cancel _) | .savePipeline _ _ | .publishPipeline _ _ => True
  | .runtime call =>
      EveryRequest (handler floatRepr objects nodes) (Fits floatRepr objects nodes)
        (call.program floatRepr objects hashToken registered).run w

/-- No run is left dangling by a call: it visits few nodes, whenever it asks anything the run is at a step of its spec,
and no run is running after it. -/
structure NoneDangles (w : World) (call : ClientCall) : Prop where
  finished : Finished w (clientStep floatRepr objects hashToken registered nodes w call)
  atStep : ∀ runtimeCall, call = .runtime runtimeCall →
    EveryRequest (handler floatRepr objects nodes) (fun _ a => a.AtStep)
      (runtimeCall.program floatRepr objects hashToken registered).run w

def World.new (documents : List PyEntries) : World := ⟨.new documents, []⟩

end Sequences

theorem settled_new (documents : List PyEntries) : (World.new documents).store.Settled := by
  intro runId data hdata
  cases hdata

/-- One call on a settled store. -/
theorem noneDangles_of_fitting {w : World} {call : ClientCall} (hw : w.store.Settled)
    (hfitting : call.Fitting floatRepr objects hashToken registered nodes w) :
    NoneDangles floatRepr objects hashToken registered nodes w call ∧
      (clientStep floatRepr objects hashToken registered nodes w call).store.Settled := by
  cases call with
  | savePipeline spec raw =>
    have hended : Ended w (w.call (savePipeline floatRepr spec raw)).2 :=
      ended_of_settled (hw.of_held (save_frame floatRepr spec raw w.store).1 fun _ _ h => held_savePipeline h spec raw)
    exact ⟨⟨hended.finished, fun _ h => nomatch h⟩, hended.settled⟩
  | publishPipeline spec raw =>
    have hended : Ended w (w.call (publishPipeline floatRepr spec raw)).2 :=
      ended_of_settled (hw.of_held (publish_frame floatRepr spec raw w.store).1 fun _ _ h => held_publishPipeline h spec raw)
    exact ⟨⟨hended.finished, fun _ h => nomatch h⟩, hended.settled⟩
  | runtime call =>
    have hmeets : EveryRequest (handler floatRepr objects nodes) (fun _ a => a.AtStep)
          (call.program floatRepr objects hashToken registered).run w ∧
        Ended w (clientStep floatRepr objects hashToken registered nodes w (.runtime call)) := by
      cases call with
      | start env spec context =>
        obtain ⟨hat, hend⟩ := (triple_start w env spec context w ⟨rfl, hw⟩).alone hfitting
        exact ⟨hat, outcome_const.mp hend⟩
      | resume env resumeToken answer =>
        obtain ⟨hat, hend⟩ := (triple_resume w env resumeToken answer w ⟨rfl, hw⟩).alone hfitting
        exact ⟨hat, outcome_const.mp hend⟩
      | cancel runId =>
        have hfree := everyRequest_true (h := handler floatRepr objects nodes) (cancel runId).run w
        obtain ⟨hat, hend⟩ := (triple_cancel w runId w ⟨rfl, hw⟩).alone hfree
        exact ⟨hat, outcome_const.mp hend⟩
    refine ⟨⟨hmeets.2.finished, ?_⟩, hmeets.2.settled⟩
    rintro runtimeCall heq
    cases heq
    exact hmeets.1

/-- No run is left dangling, in every sequence of calls whose requests fit. -/
theorem none_dangles {documents : List PyEntries} {calls : List ClientCall}
    (hcalls : EveryStep (clientStep floatRepr objects hashToken registered nodes)
      (fun w call => call.Fitting floatRepr objects hashToken registered nodes w) (.new documents) calls) :
    EveryStep (clientStep floatRepr objects hashToken registered nodes)
      (NoneDangles floatRepr objects hashToken registered nodes) (.new documents) calls := by
  intro before call after hsplit
  have hprefix : EveryStep (clientStep floatRepr objects hashToken registered nodes)
      (fun w call => call.Fitting floatRepr objects hashToken registered nodes w) (.new documents) before := by
    rw [hsplit] at hcalls
    exact MachineRuns.everyStep_append_left hcalls
  have hsettled := MachineRuns.invariant_of_everyStep (I := fun w : World => w.store.Settled)
    (fun w call hw hfitting => (noneDangles_of_fitting hw hfitting).2) (settled_new documents) hprefix
  exact (noneDangles_of_fitting hsettled (hcalls before call after hsplit)).1

theorem reply_asks : (NodeStatus.success = .needUser) ↔ (none : Option UserQuestion).isSome = true := by decide

theorem reply_explains (h : NodeStatus.success = .failed) : ∃ text, (none : Option String) = some text ∧ text ≠ "" :=
  nomatch h

def succeeding (output : PyObj) : NodeReply :=
  .returns ⟨.success, output, [], [], .none, none, none, reply_asks, reply_explains⟩

def plainObjects : Objects where
  str := fun _ => .ok ""
  repr := fun _ => .ok ""
  equals := fun _ _ => .ok false
  getAttr := fun _ _ => .ok none

def startedReview : List ClientCall :=
  [.runtime (.start sampleSupply (reviewSpec 1 .active version_one) sampleContext)]

theorem startedReview_fitting :
    EveryStep (clientStep (fun _ => "") plainObjects id (fun _ => true) fun _ _ => succeeding (.str "done"))
      (fun w call => call.Fitting (fun _ => "") plainObjects id (fun _ => true) (fun _ _ => succeeding (.str "done")) w)
      (.new []) startedReview := by
  refine everyStep_cons.mpr ⟨?_, everyStep_nil⟩
  change EveryRequest _ _ _ _
  decide +kernel

/-- The review ends, with its output. -/
theorem startedReview_ends :
    EveryStep (clientStep (fun _ => "") plainObjects id (fun _ => true) fun _ _ => succeeding (.str "done"))
      (NoneDangles (fun _ => "") plainObjects id (fun _ => true) fun _ _ => succeeding (.str "done")) (.new [])
      startedReview :=
  none_dangles startedReview_fitting

/-- A node that succeeds with an object that JSON has no text for: the run cannot be written, and stays running. -/
theorem unencodable_output_dangles : ¬∀ floatRepr objects hashToken registered nodes documents calls,
      EveryStep (clientStep floatRepr objects hashToken registered nodes)
        (NoneDangles floatRepr objects hashToken registered nodes) (.new documents) calls := by
  intro h
  have hends := everyStep_cons.mp (h (fun _ => "") plainObjects id (fun _ => true) (fun _ _ => succeeding (.object [])) []
    startedReview)
  have hrunning : ((clientStep (fun _ => "") plainObjects id (fun _ => true) (fun _ _ => succeeding (.object []))
      (.new []) (.runtime (.start sampleSupply (reviewSpec 1 .active version_one) sampleContext))).store.runs.get?
        "run_a").map RunSnapshot.status = some .running := by
    decide +kernel
  obtain ⟨data, hdata, hstatus⟩ := Option.map_eq_some_iff.mp hrunning
  exact hends.1.finished.notRunning "run_a" data hdata hstatus

end Pipeline

end AllTomorrow
