import AllTomorrow.RunSnapshots

/-!
# Snapshots read back

A constructor accepts exactly the fields of the record it returns. What `to_dict` writes of
JSON values is therefore read back as the same record, apart from the plain text of a
resume token, which is not written.
-/

namespace AllTomorrow

namespace Pipeline

variable {floatRepr : PyFloat → String}

/-! ## Constructors -/

theorem except_bind_ok {ε α β : Type} {x : Except ε α} {f : α → Except ε β} {b : β} :
    (x >>= f) = .ok b ↔ ∃ a, x = .ok a ∧ f a = .ok b := by
  cases x with
  | error e =>
    constructor
    · intro h
      cases h
    · rintro ⟨a, h, _⟩
      cases h
  | ok a =>
    constructor
    · exact fun h => ⟨a, rfl, h⟩
    · rintro ⟨a', h, hf⟩
      cases h
      exact hf

variable {value : PyObj}

theorem requireText_ok_iff {path : String} {text : { s : String // ¬PyText.isBlank s = true }} :
    requireText value path = .ok text ↔ value = .str text.val := by
  obtain ⟨s, hs⟩ := text
  cases value with
  | str s' =>
    rw [requireText]
    split
    · rename_i hblank
      constructor
      · intro h
        cases h
      · intro h
        cases h
        exact absurd hblank hs
    · rename_i hblank
      simp
  | _ => simp [requireText]

theorem toNumber_ok_iff {n : PyNumber} : toNumber value = .ok n ↔ value = n.toObj := by
  cases value <;> cases n <;> simp [toNumber, PyNumber.toObj]

theorem requireStatus_ok_iff {status : PipelineStatus} : requireStatus value = .ok status ↔ value = .str status.value := by
  constructor
  · intro h
    unfold requireStatus at h
    split at h
    · cases h
      rfl
    · cases h
      rfl
    · cases h
      rfl
    · split at h <;> cases h
  · rintro rfl
    cases status <;> rfl

variable {step : PipelineStep}

theorem PipelineStep.new_ok_iff {id type when nextStep maxRetries : PyObj} {config inputs onStatus : PyEntries} :
    PipelineStep.new id type config inputs when nextStep onStatus maxRetries = .ok step ↔
      id = .str step.id ∧ type = .str step.type ∧ config = step.config ∧ inputs = step.inputs ∧ when = step.when ∧
        nextStep = step.nextStep ∧ onStatus = step.onStatus ∧ maxRetries = step.maxRetries.toObj := by
  unfold PipelineStep.new
  simp only [except_bind_ok, requireText_ok_iff, toNumber_ok_iff]
  constructor
  · rintro ⟨idText, rfl, typeText, rfl, retries, rfl, h⟩
    split at h
    · cases h
    · cases h
      exact ⟨rfl, rfl, rfl, rfl, rfl, rfl, rfl, rfl⟩
  · rintro ⟨rfl, rfl, rfl, rfl, rfl, rfl, rfl, rfl⟩
    refine ⟨⟨step.id, step.id_text⟩, rfl, ⟨step.type, step.type_text⟩, rfl, step.maxRetries, rfl, ?_⟩
    rw [dif_neg step.maxRetries_nonneg]
    rfl

variable {steps : List PipelineStep} {spec : PipelineSpec}

theorem PipelineSpec.new_ok_iff {pipelineId version status parentVersion changeReason : PyObj} {trigger : PyEntries} :
    PipelineSpec.new pipelineId version status steps parentVersion changeReason trigger = .ok spec ↔
      pipelineId = .str spec.pipelineId ∧ version = spec.version.toObj ∧ status = .str spec.status.value ∧
        steps = spec.steps ∧ parentVersion = spec.parentVersion ∧ changeReason = spec.changeReason ∧
        trigger = spec.trigger := by
  unfold PipelineSpec.new
  simp only [except_bind_ok, requireText_ok_iff, toNumber_ok_iff]
  constructor
  · rintro ⟨idText, rfl, number, rfl, h⟩
    split at h
    · cases h
    · obtain ⟨known, hstatus, hrest⟩ := except_bind_ok.mp h
      rw [requireStatus_ok_iff] at hstatus
      subst hstatus
      split at hrest
      · cases hrest
      · split at hrest
        · split at hrest
          · cases hrest
          · cases hrest
            exact ⟨rfl, rfl, rfl, rfl, rfl, rfl, rfl⟩
        · cases hrest
  · rintro ⟨rfl, rfl, rfl, rfl, rfl, rfl, rfl⟩
    refine ⟨⟨spec.pipelineId, spec.pipelineId_text⟩, rfl, spec.version, rfl, ?_⟩
    rw [dif_neg spec.version_pos]
    refine except_bind_ok.mpr ⟨spec.status, requireStatus_ok_iff.mpr rfl, ?_⟩
    rw [dif_neg spec.steps_ne, dif_pos spec.ids_nodup]
    split
    · rename_i e herror
      rw [spec.targets_known] at herror
      cases herror
    · rfl

/-! ## Specs -/

structure PipelineStep.IsJson (step : PipelineStep) : Prop where
  config : PyEntries.isJson step.config = true
  inputs : PyEntries.isJson step.inputs = true
  when : step.when.isJson = true
  nextStep : step.nextStep.isJson = true
  onStatus : PyEntries.isJson step.onStatus = true
  maxRetries : step.maxRetries.toObj.isJson = true

/-- The objects of the spec are JSON values. -/
structure PipelineSpec.IsJson (spec : PipelineSpec) : Prop where
  version : spec.version.toObj.isJson = true
  parentVersion : spec.parentVersion.isJson = true
  changeReason : spec.changeReason.isJson = true
  trigger : PyEntries.isJson spec.trigger = true
  steps : ∀ step ∈ spec.steps, step.IsJson

/-- A condition is `None` or a mapping, as it is declared. -/
def PipelineStep.Conditional (step : PipelineStep) : Prop := step.when = .none ∨ ∃ entries, step.when = .dict entries

/-- A next step is `None` or not empty, and a condition `None` or a mapping. -/
structure PipelineStep.Restorable (step : PipelineStep) : Prop where
  nextStep : step.nextStep = .none ∨ step.nextStep.truthy = true
  when : step.when = .none ∨ ∃ entries, step.when = .dict entries

theorem PipelineStep.Restorable.conditional (h : step.Restorable) : step.Conditional := h.when

def stepEntries (step : PipelineStep) : PyEntries :=
  [(.str "id", .str step.id), (.str "type", .str step.type), (.str "config", .dict step.config),
    (.str "inputs", .dict step.inputs), (.str "when", step.when), (.str "next_step", step.nextStep),
    (.str "on_status", .dict step.onStatus), (.str "max_retries", step.maxRetries.toObj)]

def specEntries (spec : PipelineSpec) : PyEntries :=
  [(.str "pipeline_id", .str spec.pipelineId), (.str "version", spec.version.toObj),
    (.str "status", .str spec.status.value), (.str "parent_version", spec.parentVersion),
    (.str "change_reason", spec.changeReason), (.str "trigger", .dict spec.trigger),
    (.str "steps", .list (spec.steps.map fun step => .dict (stepEntries step)))]

theorem stepToDict_eq (h : step.Conditional) : stepToDict step = .ok (.dict (stepEntries step)) := by
  rw [stepToDict]
  rcases h with hwhen | ⟨entries, hwhen⟩
  · rw [stepEntries, hwhen]
    rfl
  · rw [stepEntries, hwhen]
    rfl

theorem stepsToDict_eq (h : ∀ step ∈ steps, step.Conditional) :
    stepsToDict steps = .ok (steps.map fun step => .dict (stepEntries step)) := by
  induction steps with
  | nil => rfl
  | cons step steps ih =>
    rw [List.forall_mem_cons] at h
    rw [stepsToDict, stepToDict_eq h.1, ih h.2]
    rfl

theorem isJson_stepEntries (h : step.IsJson) : PyEntries.isJson (stepEntries step) = true := by
  have hwhen : step.when.isPlain false = true := h.when
  have hnext : step.nextStep.isPlain false = true := h.nextStep
  have hretries : step.maxRetries.toObj.isPlain false = true := h.maxRetries
  have hconfig : plainEntries false step.config = true := h.config
  have hinputs : plainEntries false step.inputs = true := h.inputs
  have honStatus : plainEntries false step.onStatus = true := h.onStatus
  simp [PyEntries.isJson, stepEntries, plainEntries, freshKey, PyEntries.get?, PyObj.isText, PyObj.isPlain, hwhen, hnext,
    hretries, hconfig, hinputs, honStatus]

theorem isJson_steps (h : ∀ step ∈ steps, step.IsJson) :
    plainList false (steps.map fun step => .dict (stepEntries step)) = true := by
  induction steps with
  | nil => rfl
  | cons step steps ih =>
    rw [List.forall_mem_cons] at h
    have hstep : plainEntries false (stepEntries step) = true := isJson_stepEntries h.1
    rw [List.map_cons, plainList, PyObj.isPlain, hstep, ih h.2, Bool.and_self]

theorem isJson_specEntries (h : spec.IsJson) : PyEntries.isJson (specEntries spec) = true := by
  have hversion : spec.version.toObj.isPlain false = true := h.version
  have hparent : spec.parentVersion.isPlain false = true := h.parentVersion
  have hreason : spec.changeReason.isPlain false = true := h.changeReason
  have htrigger : plainEntries false spec.trigger = true := h.trigger
  have hsteps := isJson_steps h.steps
  simp [PyEntries.isJson, specEntries, plainEntries, freshKey, PyEntries.get?, PyObj.isText, PyObj.isPlain, hversion,
    hparent, hreason, htrigger, hsteps]

theorem plain_specEntries (h : spec.IsJson) : plainEntries true (specEntries spec) = true :=
  plainEntries_of_json (isJson_specEntries h)

theorem pipelineSpecToDict_eq (floatRepr : PyFloat → String) (hjson : spec.IsJson)
    (h : ∀ step ∈ spec.steps, step.Conditional) : pipelineSpecToDict floatRepr spec = .ok (specEntries spec) := by
  rw [pipelineSpecToDict, stepsToDict_eq h]
  exact jsonCopyEntries_of_plain (plain_specEntries hjson)

theorem orElse_none (h : step.Restorable) : orElse step.nextStep .none = step.nextStep := by
  unfold orElse
  rcases h.nextStep with hnone | htruthy
  · rw [hnone]
    split <;> rfl
  · rw [if_pos htruthy]

theorem stepFromDict_stepEntries (h : step.Restorable) : stepFromDict (.dict (stepEntries step)) = .ok step := by
  have hnext := orElse_none h
  simp [stepFromDict, stepFromEntries, stepEntries, item, getOrNone, PyEntries.get?, PyObj.isText, dictOf, hnext,
    except_bind_ok, PipelineStep.new_ok_iff]

theorem stepsFromDict_steps (h : ∀ step ∈ steps, step.Restorable) :
    stepsFromDict (steps.map fun step => .dict (stepEntries step)) = .ok steps := by
  induction steps with
  | nil => rfl
  | cons step steps ih =>
    rw [List.forall_mem_cons] at h
    rw [List.map_cons, stepsFromDict, stepFromDict_stepEntries h.1, ih h.2]
    rfl

theorem pipelineSpecFromDict_specEntries (h : ∀ step ∈ spec.steps, step.Restorable) :
    pipelineSpecFromDict (specEntries spec) = .ok spec := by
  have hid : orElse (.str spec.pipelineId) (.str "") = .str spec.pipelineId := by
    have hne : spec.pipelineId ≠ "" := by
      intro hempty
      exact spec.pipelineId_text (by rw [hempty]; rfl)
    simp [orElse, PyObj.truthy, hne]
  simp [pipelineSpecFromDict, specEntries, item, getOrNone, PyEntries.get?, PyObj.isText, dictOf, iterate, hid,
    except_bind_ok, stepsFromDict_steps h, PipelineSpec.new_ok_iff]

/-! ## Runs -/

structure ExecutionContext.IsJson (context : ExecutionContext) : Prop where
  edgeAnalysis : PyEntries.isJson context.request.edgeAnalysis = true
  contextVariables : PyEntries.isJson context.contextVariables = true
  budget : PyEntries.isJson context.budget = true

/-- The objects of the Run are JSON values. -/
structure RunRecord.IsJson (run : RunRecord) : Prop where
  spec : run.spec.IsJson
  context : run.context.IsJson
  outputs : PyEntries.isJson run.outputs = true
  attempts : ∀ attempt ∈ run.attempts.entries, PyText.Printable attempt.2
  revision : PyText.Printable run.revision

def contextSnapshot (context : ExecutionContext) : ContextSnapshot where
  request :=
    { message := context.request.message, source := context.request.source
      requestId := context.request.requestId, receivedAt := context.request.receivedAt.isoformat
      attachments := context.request.attachments, sessionRef := context.request.sessionRef
      edgeAnalysis := context.request.edgeAnalysis, candidateProjectId := context.request.candidateProjectId
      centralReason := context.request.centralReason }
  userRef := context.userRef
  traceId := context.traceId
  projectRef := context.projectRef
  sessionRef := context.sessionRef
  memoryRefs := context.memoryRefs
  artifactRefs := context.artifactRefs
  contextVariables := context.contextVariables
  budget := context.budget
  permissions := context.permissions.sort (· ≤ ·)

theorem executionContextToDict_eq (floatRepr : PyFloat → String) {context : ExecutionContext} (h : context.IsJson) :
    executionContextToDict floatRepr context = .ok (contextSnapshot context) := by
  rw [executionContextToDict, jsonCopyEntries_of_plain (plainEntries_of_json h.edgeAnalysis),
    jsonCopyEntries_of_plain (plainEntries_of_json h.contextVariables),
    jsonCopyEntries_of_plain (plainEntries_of_json h.budget)]
  rfl

theorem RequestEnvelope.new_self (request : RequestEnvelope) :
    RequestEnvelope.new request.message request.source request.requestId request.receivedAt request.attachments
      request.sessionRef request.edgeAnalysis request.candidateProjectId request.centralReason = .ok request := by
  unfold RequestEnvelope.new
  simp only [except_bind_ok, requireText_ok_iff]
  exact ⟨⟨request.message, request.message_text⟩, rfl, ⟨request.source, request.source_text⟩, rfl,
    ⟨request.requestId, request.requestId_text⟩, rfl, rfl⟩

variable (context : ExecutionContext)

theorem ExecutionContext.new_self :
    ExecutionContext.new context.request context.userRef context.traceId context.projectRef context.sessionRef
      context.memoryRefs context.artifactRefs context.contextVariables context.budget context.permissions = .ok context := by
  unfold ExecutionContext.new
  simp only [except_bind_ok, requireText_ok_iff]
  exact ⟨⟨context.userRef, context.userRef_text⟩, rfl, ⟨context.traceId, context.traceId_text⟩, rfl, rfl⟩

theorem executionContextFromDict_contextSnapshot : executionContextFromDict (contextSnapshot context) = .ok context := by
  have hinstant := IsoTimestamps.Timestamp.fromisoformat_isoformat context.request.receivedAt
  have hpermissions : (context.permissions.sort (· ≤ ·)).toFinset = context.permissions := Finset.sort_toFinset _ _
  simp only [executionContextFromDict, contextSnapshot, hinstant, context.request.new_self, hpermissions]
  exact context.new_self

theorem checkFields_ok {fields : List String} (h : ∀ field ∈ fields, ¬PyText.isBlank field = true) (index : ℕ) :
    checkFields index fields = .ok () := by
  induction fields generalizing index with
  | nil => rfl
  | cons field fields ih =>
    rw [List.forall_mem_cons] at h
    rw [checkFields, requireText, dif_neg h.1]
    exact ih h.2 (index + 1)

theorem userQuestionFromDict_toDict (question : UserQuestion) :
    userQuestionFromDict (userQuestionToDict question) = .ok (question.withResumeToken none) := by
  have hfields := checkFields_ok question.requiredFields_text 0
  unfold userQuestionFromDict userQuestionToDict UserQuestion.new
  simp only [except_bind_ok, requireText_ok_iff]
  refine ⟨⟨question.question, question.question_text⟩, rfl, ⟨question.reason, question.reason_text⟩, rfl,
    ⟨question.blockedStep, question.blockedStep_text⟩, rfl, ?_⟩
  rw [dif_neg question.requiredFields_ne]
  split
  · rename_i e herror
    rw [hfields] at herror
    cases herror
  · rfl

theorem questionFromDict_map (question : Option UserQuestion) :
    questionFromDict (question.map userQuestionToDict) = .ok (question.map fun q => q.withResumeToken none) := by
  cases question with
  | none => rfl
  | some question =>
    rw [Option.map_some, questionFromDict, userQuestionFromDict_toDict]
    rfl

theorem intTexts_ok {entries : List (String × ℤ)} (h : ∀ e ∈ entries, PyText.Printable e.2) : intTexts entries = .ok () := by
  induction entries with
  | nil => rfl
  | cons e entries ih =>
    obtain ⟨name, n⟩ := e
    rw [List.forall_mem_cons] at h
    rw [intTexts, intText, if_pos h.1]
    exact ih h.2

def runSnapshot (run : RunRecord) : RunSnapshot where
  runId := run.runId
  requestId := run.context.request.requestId
  traceId := run.context.traceId
  userId := run.context.userRef
  projectId := run.context.projectRef
  sessionId := run.context.sessionRef
  pipelineId := run.spec.pipelineId
  pipelineVersion := run.spec.version
  status := run.status
  currentStepId := run.currentStepId
  context := contextSnapshot run.context
  outputs := run.outputs
  attempts := run.attempts
  error := run.error
  revision := run.revision
  question := run.question.map userQuestionToDict
  spec := specEntries run.spec

theorem runRecordToDict_eq (floatRepr : PyFloat → String) {run : RunRecord} (hjson : run.IsJson)
    (hsteps : ∀ step ∈ run.spec.steps, step.Conditional) : runRecordToDict floatRepr run = .ok (runSnapshot run) := by
  have hrevision : intText run.revision = .ok (toString run.revision) := if_pos hjson.revision
  rw [runRecordToDict, executionContextToDict_eq floatRepr hjson.context,
    pipelineSpecToDict_eq floatRepr hjson.spec hsteps, jsonCopyEntries_of_plain (plainEntries_of_json hjson.outputs),
    intTexts_ok hjson.attempts, hrevision]
  rfl

def RunRecord.withoutToken (run : RunRecord) : RunRecord :=
  { run with question := run.question.map fun q => q.withResumeToken none }

/-- Snapshots of runs and documents of specs, made of JSON values, are read back as what they were made of. -/
theorem snapshots_read_back (floatRepr : PyFloat → String) :
    (∀ run : RunRecord, run.IsJson → (∀ step ∈ run.spec.steps, step.Restorable) →
      ∃ data, runRecordToDict floatRepr run = .ok data ∧ runRecordFromDict data none = .ok run.withoutToken) ∧
    ∀ spec : PipelineSpec, spec.IsJson → (∀ step ∈ spec.steps, step.Restorable) →
      ∃ data, pipelineSpecToDict floatRepr spec = .ok data ∧ pipelineSpecFromDict data = .ok spec := by
  constructor
  · intro run hjson hsteps
    refine ⟨runSnapshot run, runRecordToDict_eq floatRepr hjson fun step hstep => (hsteps step hstep).conditional, ?_⟩
    simp only [runRecordFromDict, runSnapshot, pipelineSpecFromDict_specEntries hsteps,
      executionContextFromDict_contextSnapshot, questionFromDict_map]
    rfl
  · intro spec hjson hsteps
    exact ⟨specEntries spec, pipelineSpecToDict_eq floatRepr hjson fun step hstep => (hsteps step hstep).conditional,
      pipelineSpecFromDict_specEntries hsteps⟩

/-! ### A pipeline of one step -/

theorem step_name_text : ¬PyText.isBlank "review" = true := by decide

theorem node_name_text : ¬PyText.isBlank "agent.run" = true := by decide

theorem zero_retries : ¬(PyNumber.int 0).value.lt 0 = true := by decide +kernel

def reviewStep : PipelineStep :=
  ⟨"review", "agent.run", [], [], .none, .none, [], .int 0, step_name_text, node_name_text, zero_retries⟩

theorem pipeline_name_text : ¬PyText.isBlank "reviews" = true := by decide

theorem one_step : ¬[reviewStep] = [] := List.cons_ne_nil reviewStep []

theorem one_step_nodup : ([reviewStep].map PipelineStep.id).Nodup := List.nodup_singleton "review"

theorem no_targets : checkTargets ([reviewStep].map PipelineStep.id) [reviewStep] = .ok () := rfl

def reviewSpec (version : ℤ) (status : PipelineStatus) (h : ¬(PyNumber.int version).value.lt 1 = true) : PipelineSpec :=
  ⟨"reviews", .int version, status, [reviewStep], .none, .none, [], pipeline_name_text, h, one_step, one_step_nodup,
    no_targets⟩

theorem version_one : ¬(PyNumber.int 1).value.lt 1 = true := by decide +kernel

theorem version_two : ¬(PyNumber.int 2).value.lt 1 = true := by decide +kernel

theorem printable_small {n : ℤ} (h : n.natAbs < 10) : PyText.Printable n := by
  have hpow : ∀ k, k ≠ 0 → n.natAbs < 10 ^ k := fun k hk => h.trans_le (Nat.le_self_pow hk 10)
  unfold PyText.Printable
  apply hpow
  decide

theorem isPlain_of_printable {n : ℤ} (h : PyText.Printable n) : (PyObj.int n).isPlain false = true := by
  rw [PyObj.isPlain]
  exact decide_eq_true h

theorem reviewSpec_isJson {version : ℤ} (hversion : version.natAbs < 10) (status : PipelineStatus)
    (h : ¬(PyNumber.int version).value.lt 1 = true) : (reviewSpec version status h).IsJson where
  version := isPlain_of_printable (printable_small hversion)
  parentVersion := rfl
  changeReason := rfl
  trigger := rfl
  steps := by
    intro step hstep
    obtain rfl := List.mem_singleton.mp hstep
    exact
      { config := rfl, inputs := rfl, when := rfl, nextStep := rfl, onStatus := rfl
        maxRetries := isPlain_of_printable (printable_small (n := 0) (by decide)) }

theorem reviewSpec_restorable (version : ℤ) (status : PipelineStatus) (h : ¬(PyNumber.int version).value.lt 1 = true) :
    ∀ step ∈ (reviewSpec version status h).steps, step.Restorable := by
  intro step hstep
  obtain rfl := List.mem_singleton.mp hstep
  exact ⟨.inl rfl, .inl rfl⟩

theorem sample_year : 1 ≤ 2026 ∧ 2026 ≤ 9999 := by decide

theorem sample_month : 1 ≤ 1 ∧ 1 ≤ 12 := by decide

theorem sample_day : 1 ≤ 5 ∧ 5 ≤ IsoTimestamps.daysInMonth 2026 1 := by decide

theorem sample_clock : 8 < 24 ∧ 30 < 60 ∧ 0 < 60 ∧ 0 < 1000000 := by decide

theorem sample_offset : 0 < 24 ∧ 0 < 60 ∧ 0 < 60 ∧ 0 < 1000000 := by decide

def sampleInstant : IsoTimestamps.Timestamp :=
  ⟨2026, 1, 5, 8, 30, 0, 0, some ⟨false, 0, 0, 0, 0, sample_offset.1, sample_offset.2.1, sample_offset.2.2.1,
    sample_offset.2.2.2⟩, sample_year, sample_month, sample_day, sample_clock⟩

theorem message_text : ¬PyText.isBlank "please review" = true := by decide

theorem source_text : ¬PyText.isBlank "cli" = true := by decide

theorem request_text : ¬PyText.isBlank "req_1" = true := by decide

theorem user_text : ¬PyText.isBlank "user_1" = true := by decide

theorem trace_text : ¬PyText.isBlank "trace_1" = true := by decide

def sampleRequest : RequestEnvelope :=
  ⟨"please review", "cli", "req_1", sampleInstant, [], none, [], none, none, message_text, source_text, request_text⟩

def sampleContext : ExecutionContext :=
  ⟨sampleRequest, "user_1", "trace_1", none, none, [], [], [], [], ∅, user_text, trace_text⟩

def sampleRun : RunRecord where
  runId := "run_1"
  spec := reviewSpec 1 .active version_one
  context := sampleContext
  currentStepId := "review"
  outputs := [(.str "review", .str "done")]
  attempts := .empty
  status := .waiting
  question := none
  error := none
  revision := 1

theorem sampleRun_isJson : sampleRun.IsJson where
  spec := reviewSpec_isJson (by decide) .active version_one
  context := { edgeAnalysis := rfl, contextVariables := rfl, budget := rfl }
  outputs := by decide
  attempts := by simp [sampleRun, InsertionDict.empty]
  revision := printable_small (by decide)

/-- The sample run and its spec. -/
theorem sample_read_back : (∃ data, runRecordToDict (fun _ => "") sampleRun = .ok data ∧
      runRecordFromDict data none = .ok sampleRun.withoutToken) ∧
    ∃ data, pipelineSpecToDict (fun _ => "") sampleRun.spec = .ok data ∧
      pipelineSpecFromDict data = .ok sampleRun.spec :=
  ⟨(snapshots_read_back fun _ => "").1 sampleRun sampleRun_isJson (reviewSpec_restorable 1 .active version_one),
    (snapshots_read_back fun _ => "").2 sampleRun.spec sampleRun_isJson.spec
      (reviewSpec_restorable 1 .active version_one)⟩

def tupleStep : PipelineStep :=
  ⟨"review", "agent.run", [(.str "limits", .tuple [.str "low"])], [], .none, .none, [], .int 0, step_name_text,
    node_name_text, zero_retries⟩

theorem tuple_step : ¬[tupleStep] = [] := List.cons_ne_nil tupleStep []

theorem tuple_step_nodup : ([tupleStep].map PipelineStep.id).Nodup := List.nodup_singleton "review"

theorem tuple_no_targets : checkTargets ([tupleStep].map PipelineStep.id) [tupleStep] = .ok () := rfl

def tupleSpec : PipelineSpec :=
  ⟨"reviews", .int 1, .active, [tupleStep], .none, .none, [], pipeline_name_text, version_one, tuple_step,
    tuple_step_nodup, tuple_no_targets⟩

def holdsTuple : Except PipelineExn PipelineSpec → Bool
  | .ok spec =>
      match spec.steps with
      | step :: _ =>
          match step.config with
          | (_, .tuple _) :: _ => true
          | _ => false
      | [] => false
  | .error _ => false

/-- A constructor takes any objects, and JSON has no tuples. -/
theorem tuple_becomes_list :
    ¬((∀ floatRepr run, run.spec.IsJson → PyEntries.isJson run.context.contextVariables = true →
        PyEntries.isJson run.context.budget = true → PyEntries.isJson run.outputs = true →
        ∃ data, runRecordToDict floatRepr run = .ok data ∧ runRecordFromDict data none = .ok run.withoutToken) ∧
      ∀ floatRepr spec, ∃ data, pipelineSpecToDict floatRepr spec = .ok data ∧ pipelineSpecFromDict data = .ok spec) := by
  rintro ⟨_, hspec⟩
  obtain ⟨data, hto, hfrom⟩ := hspec (fun _ => "") tupleSpec
  have hcopy : holdsTuple (pipelineSpecToDict (fun _ => "") tupleSpec >>= pipelineSpecFromDict) = false := by
    decide +kernel
  rw [hto] at hcopy
  change holdsTuple (pipelineSpecFromDict data) = false at hcopy
  rw [hfrom] at hcopy
  exact absurd hcopy (by decide)

end Pipeline

end AllTomorrow
