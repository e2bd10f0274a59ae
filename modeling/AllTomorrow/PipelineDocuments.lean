import AllTomorrow.RunStoreCalls

/-!
# The two readers of a pipeline document

A document that `parse_pipeline` accepts is stored as it is by `publish_pipeline` and read
by `pipeline_spec_from_dict` from then on. The two read some keys differently. What a
document must be like for both to read the same, and for the runs of its spec to be stored
and read back, is said here on the document alone.
-/

namespace AllTomorrow

open EStateM (run_bind run_get run_modify run_pure)
open PyEntries (get?_cons isText_iff)

namespace Pipeline

open EStateM RunStateStore

variable {floatRepr : PyFloat → String}

/-! ## What a document must be like -/

/-- The mapping under `retry`. -/
def retryOf (s : PyEntries) : PyEntries :=
  match getOrNone s "retry" with
  | .dict retry => retry
  | _ => []

structure StepAgrees (s : PyEntries) : Prop where
  config : s.get? "config" ≠ some .none
  inputs : s.get? "inputs" ≠ some .none
  onStatus : s.get? "on_status" ≠ some .none
  nextStep : (getOrNone s "next_step").truthy = true → (getOrNone s "next_step").eqv (getOrNone s "next") = true
  maxRetries : ∃ retries, (((retryOf s).get? "max_attempts").getD (.int 1)).minusOne = .ok retries ∧
    retries.eqv ((s.get? "max_retries").getD (.int 0)) = true

structure StepKept (s : PyEntries) : Prop where
  next : getOrNone s "next" = .none ∨ (getOrNone s "next").truthy = true
  when : getOrNone s "when" = .none ∨ ∃ entries, getOrNone s "when" = .dict entries

structure RootAgrees (raw : PyEntries) : Prop where
  status : raw.get? "status" ≠ none
  trigger : raw.get? "trigger" ≠ some .none
  pipelineId : (getOrNone raw "pipeline_id").truthy = true → getOrNone raw "pipeline_id" = getOrNone raw "id"

/-- The root and the steps of the document mean the same to both readers. -/
structure Compatible (raw : PyEntries) : Prop where
  root : RootAgrees raw
  steps : ∀ rawSteps, raw.get? "steps" = some (.list rawSteps) → ∀ s, .dict s ∈ rawSteps → StepAgrees s ∧ StepKept s

/-! ## Steps -/

variable {entries : PyEntries}

theorem mapping_ok_iff {value : PyObj} {path : String} :
    mapping value path = .ok entries ↔ (value = .none ∧ entries = []) ∨ value = .dict entries := by
  cases value <;> simp [mapping, eq_comm]

theorem dictOf_none : dictOf .none = .error (.typeError "object is not iterable") := rfl

variable {name path : String}

theorem dictOf_of_mapping {s : PyEntries} (h : mapping (getOrNone s name) path = .ok entries) {entries' : PyEntries} :
    dictOf ((s.get? name).getD (.dict [])) = .ok entries' ↔ s.get? name ≠ some .none ∧ entries' = entries := by
  rw [mapping_ok_iff, getOrNone] at h
  cases hget : s.get? name with
  | none =>
    simp only [hget, Option.getD_none, true_and, reduceCtorEq, or_false] at h
    simp [dictOf, h, eq_comm]
  | some v =>
    rw [hget, Option.getD_some] at h
    rcases h with ⟨rfl, _⟩ | rfl
    · simp [dictOf_none]
    · simp [dictOf, eq_comm]

variable {v : PyObj}

theorem item_ok_iff {s : PyEntries} {name : String} : item s name = .ok v ↔ s.get? name = some v := by
  unfold item
  cases s.get? name <;> simp

theorem PyNumber.number_toObj (n : PyNumber) : n.toObj.number? = some n.value := by
  cases n <;> rfl

variable {o : PyObj}

theorem exists_toObj {x : PyFloat} (h : o.number? = some x) : ∃ n : PyNumber, o = n.toObj ∧ n.value = x := by
  cases o with
  | bool b => exact ⟨.bool b, rfl, Option.some.inj h⟩
  | int n => exact ⟨.int n, rfl, Option.some.inj h⟩
  | float x => exact ⟨.float x, rfl, Option.some.inj h⟩
  | _ => cases h

theorem getD_str_iff {o : Option PyObj} {s : String} (h : s ≠ "") : o.getD (.str "") = .str s ↔ o = some (.str s) := by
  cases o with
  | none => simp [h.symm]
  | some v => simp

theorem ne_empty_of_text {s : String} (h : ¬PyText.isBlank s = true) : s ≠ "" := by
  rintro rfl
  exact h rfl

/-- What `parse_pipeline` reads of a step. -/
structure ParsedStep (s : PyEntries) (p : PipelineStep) : Prop where
  id : s.get? "id" = some (.str p.id)
  type : s.get? "type" = some (.str p.type)
  config : ∃ path, mapping (getOrNone s "config") path = .ok p.config
  inputs : ∃ path, mapping (getOrNone s "inputs") path = .ok p.inputs
  onStatus : ∃ path, mapping (getOrNone s "on_status") path = .ok p.onStatus
  when : getOrNone s "when" = p.when
  nextStep : getOrNone s "next" = p.nextStep
  maxRetries : (((retryOf s).get? "max_attempts").getD (.int 1)).minusOne = .ok p.maxRetries.toObj

theorem retryOf_eq {s retry : PyEntries} {path : String} (h : mapping (getOrNone s "retry") path = .ok retry) :
    retryOf s = retry := by
  unfold retryOf
  rcases mapping_ok_iff.mp h with ⟨hnone, rfl⟩ | hdict
  · rw [hnone]
  · rw [hdict]

variable {p : PipelineStep} {index : ℕ}

theorem parsedStep_of_parseStep (h : parseStep index o = .ok p) : ∃ s, o = .dict s ∧ ParsedStep s p := by
  unfold parseStep at h
  simp only [except_bind_ok, PipelineStep.new_ok_iff] at h
  obtain ⟨s, hitem, retry, hretry, config, hconfig, inputs, hinputs, onStatus, honStatus, maxRetries, hmax, hid, htype,
    rfl, rfl, hwhen, hnext, rfl, rfl⟩ := h
  rw [getD_str_iff (ne_empty_of_text p.id_text)] at hid
  rw [getD_str_iff (ne_empty_of_text p.type_text)] at htype
  rcases mapping_ok_iff.mp hitem with ⟨_, rfl⟩ | rfl
  · cases hid
  · exact ⟨s, rfl,
      { id := hid, type := htype, config := ⟨_, hconfig⟩, inputs := ⟨_, hinputs⟩, onStatus := ⟨_, honStatus⟩
        when := hwhen, nextStep := hnext, maxRetries := by rw [retryOf_eq hretry, hmax] }⟩

theorem stepFromEntries_iff {s : PyEntries} {p q : PipelineStep} (h : ParsedStep s p) : stepFromEntries s = .ok q ↔
      (s.get? "config" ≠ some .none ∧ s.get? "inputs" ≠ some .none ∧ s.get? "on_status" ≠ some .none) ∧
        q.id = p.id ∧ q.type = p.type ∧ q.config = p.config ∧ q.inputs = p.inputs ∧ q.onStatus = p.onStatus ∧
        q.when = p.when ∧ q.nextStep = orElse (getOrNone s "next_step") p.nextStep ∧
        (s.get? "max_retries").getD (.int 0) = q.maxRetries.toObj := by
  obtain ⟨_, hconfig⟩ := h.config
  obtain ⟨_, hinputs⟩ := h.inputs
  obtain ⟨_, honStatus⟩ := h.onStatus
  unfold stepFromEntries
  simp only [except_bind_ok, PipelineStep.new_ok_iff, item_ok_iff, h.id, h.type, dictOf_of_mapping hconfig,
    dictOf_of_mapping hinputs, dictOf_of_mapping honStatus, h.when, h.nextStep, Option.some.injEq]
  constructor
  · rintro ⟨_, rfl, _, rfl, _, ⟨hc, rfl⟩, _, ⟨hi, rfl⟩, _, ⟨ho, rfl⟩, hid, htype, h1, h2, h3, h4, h5, h6⟩
    exact ⟨⟨hc, hi, ho⟩, (PyObj.str.inj hid).symm, (PyObj.str.inj htype).symm, h1.symm, h2.symm, h5.symm, h3.symm,
      h4.symm, h6⟩
  · rintro ⟨⟨hc, hi, ho⟩, hid, htype, h1, h2, h5, h3, h4, h6⟩
    exact ⟨_, rfl, _, rfl, _, ⟨hc, rfl⟩, _, ⟨hi, rfl⟩, _, ⟨ho, rfl⟩, by rw [hid], by rw [htype], h1.symm, h2.symm,
      h3.symm, h4.symm, h5.symm, h6⟩

theorem PipelineStep.eqv_iff {q p : PipelineStep} :
    q.eqv p = true ↔ q.id = p.id ∧ q.type = p.type ∧ (PyObj.dict q.config).eqv (.dict p.config) = true ∧
      (PyObj.dict q.inputs).eqv (.dict p.inputs) = true ∧ q.when.eqv p.when = true ∧
      q.nextStep.eqv p.nextStep = true ∧ (PyObj.dict q.onStatus).eqv (.dict p.onStatus) = true ∧
      q.maxRetries.value.eqv p.maxRetries.value = true := by
  simp only [PipelineStep.eqv, Bool.and_eq_true, decide_eq_true_eq, and_assoc]

theorem stepAgrees_of_eqv {s : PyEntries} {p q : PipelineStep} (h : ParsedStep s p) (hq : stepFromEntries s = .ok q)
    (heqv : q.eqv p = true) : StepAgrees s := by
  obtain ⟨⟨hconfig, hinputs, honStatus⟩, _, _, _, _, _, _, hnext, hretries⟩ := (stepFromEntries_iff h).mp hq
  obtain ⟨_, _, _, _, _, hnextEqv, _, hvalue⟩ := PipelineStep.eqv_iff.mp heqv
  refine { config := hconfig, inputs := hinputs, onStatus := honStatus, nextStep := ?_, maxRetries := ?_ }
  · intro htruthy
    rw [hnext, orElse, if_pos htruthy] at hnextEqv
    rw [h.nextStep]
    exact hnextEqv
  · refine ⟨p.maxRetries.toObj, h.maxRetries, ?_⟩
    obtain ⟨hnan, heq⟩ := PyFloat.eqv_iff.mp hvalue
    rw [hretries, PyObj.eqv_number_iff p.maxRetries.number_toObj, q.maxRetries.number_toObj, ← heq]
    exact ⟨hnan, rfl⟩

theorem eqv_none_right (h : o.eqv .none = true) : o = .none := by
  cases o with
  | none => rfl
  | _ => cases h

theorem eqv_str_right {t : String} (h : o.eqv (.str t) = true) : o = .str t := by
  cases o with
  | str t' =>
    rw [PyObj.eqv, decide_eq_true_eq] at h
    rw [h]
  | _ => cases h

theorem orElse_next {a b : PyObj} (hagree : a.truthy = true → a.eqv b = true) (hkept : b = .none ∨ b.truthy = true)
    (htext : b.truthy = true → ∃ t, b = .str t) : orElse a b = b := by
  unfold orElse
  split
  · rename_i htruthy
    rcases hkept with rfl | hb
    · rw [eqv_none_right (hagree htruthy)] at htruthy
      cases htruthy
    · obtain ⟨t, rfl⟩ := htext hb
      exact eqv_str_right (hagree htruthy)
  · rfl

variable {es : PyEntries}

theorem isJson_getOrNone (h : PyEntries.isJson es = true) (name : String) : (getOrNone es name).isJson = true := by
  unfold getOrNone
  cases hname : es.get? name with
  | none => rfl
  | some v => exact isPlain_of_get? h hname

theorem isJson_of_mapping {es entries : PyEntries} (h : PyEntries.isJson es = true)
    (hentries : mapping (getOrNone es name) path = .ok entries) : PyEntries.isJson entries = true := by
  rcases mapping_ok_iff.mp hentries with ⟨_, rfl⟩ | hdict
  · rfl
  · have hvalue := isJson_getOrNone h name
    rwa [hdict, PyObj.isJson, PyObj.isPlain] at hvalue

theorem ParsedStep.isPlain {s : PyEntries} (h : ParsedStep s p) (hs : PyEntries.isJson s = true) :
    PyEntries.isJson p.config = true ∧ PyEntries.isJson p.inputs = true ∧ PyEntries.isJson p.onStatus = true ∧
      p.when.isJson = true ∧ p.nextStep.isJson = true := by
  obtain ⟨_, hconfig⟩ := h.config
  obtain ⟨_, hinputs⟩ := h.inputs
  obtain ⟨_, honStatus⟩ := h.onStatus
  refine ⟨isJson_of_mapping hs hconfig, isJson_of_mapping hs hinputs, isJson_of_mapping hs honStatus, ?_, ?_⟩
  · rw [← h.when]
    exact isJson_getOrNone hs "when"
  · rw [← h.nextStep]
    exact isJson_getOrNone hs "next"

theorem eqv_refl_dict (h : PyEntries.isJson es = true) : (PyObj.dict es).eqv (.dict es) = true :=
  PyObj.eqv_refl (by rwa [PyObj.isPlain])

/-- The step that is read of the stored document: the same up to the number that `max_retries` is. -/
theorem exists_eqv_of_agrees {s : PyEntries} (hs : PyEntries.isJson s = true) (h : ParsedStep s p)
    (hagrees : StepAgrees s) (hkept : StepKept s) (htext : p.nextStep.truthy = true → ∃ t, p.nextStep = .str t) :
    ∃ q, stepFromEntries s = .ok q ∧ q.eqv p = true ∧ q.id = p.id ∧ q.targets = p.targets := by
  obtain ⟨retries, hretries, hequal⟩ := hagrees.maxRetries
  rw [h.maxRetries, Except.ok.injEq] at hretries
  subst hretries
  obtain ⟨hnan, hnumber⟩ := (PyObj.eqv_number_iff p.maxRetries.number_toObj).mp hequal
  obtain ⟨n, hobj, hvalue⟩ := exists_toObj hnumber
  have hnonneg : ¬n.value.lt 0 = true := by
    rw [hvalue]
    exact p.maxRetries_nonneg
  obtain ⟨hconfig, hinputs, honStatus, hwhen, hnextJson⟩ := h.isPlain hs
  have hnext : orElse (getOrNone s "next_step") p.nextStep = p.nextStep := by
    have hnextAgrees := hagrees.nextStep
    have hnextKept := hkept.next
    rw [h.nextStep] at hnextAgrees hnextKept
    exact orElse_next hnextAgrees hnextKept htext
  refine ⟨⟨p.id, p.type, p.config, p.inputs, p.when, p.nextStep, p.onStatus, n, p.id_text, p.type_text, hnonneg⟩, ?_, ?_,
    rfl, rfl⟩
  · rw [stepFromEntries_iff h]
    exact ⟨⟨hagrees.config, hagrees.inputs, hagrees.onStatus⟩, rfl, rfl, rfl, rfl, rfl, rfl, hnext.symm, hobj⟩
  · rw [PipelineStep.eqv_iff]
    refine ⟨rfl, rfl, eqv_refl_dict hconfig, eqv_refl_dict hinputs, PyObj.eqv_refl hwhen, PyObj.eqv_refl hnextJson,
      eqv_refl_dict honStatus, ?_⟩
    rw [PyFloat.eqv_iff, hvalue]
    exact ⟨hnan, rfl⟩

/-! ### Lists of steps -/

variable {os : List PyObj} {steps : List PipelineStep}

theorem parseSteps_cons_ok (h : parseSteps index (o :: os) = .ok steps) :
    ∃ s p ps, o = .dict s ∧ ParsedStep s p ∧ parseSteps (index + 1) os = .ok ps ∧ steps = p :: ps := by
  rw [parseSteps] at h
  simp only [except_bind_ok] at h
  obtain ⟨p, hp, ps, hps, hsteps⟩ := h
  obtain ⟨s, rfl, hparsed⟩ := parsedStep_of_parseStep hp
  cases hsteps
  exact ⟨s, p, ps, rfl, hparsed, hps, rfl⟩

theorem stepsFromDict_cons_ok {s : PyEntries} : stepsFromDict (.dict s :: os) = .ok steps ↔
      ∃ q qs, stepFromEntries s = .ok q ∧ stepsFromDict os = .ok qs ∧ steps = q :: qs := by
  rw [stepsFromDict]
  simp only [except_bind_ok, stepFromDict]
  constructor
  · rintro ⟨q, hq, qs, hqs, hsteps⟩
    cases hsteps
    exact ⟨q, qs, hq, hqs, rfl⟩
  · rintro ⟨q, qs, hq, hqs, rfl⟩
    exact ⟨q, hq, qs, hqs, rfl⟩

variable {qs ps : List PipelineStep}

theorem stepsEqv_cons_iff {q p : PipelineStep} :
    stepsEqv (q :: qs) (p :: ps) = true ↔ q.eqv p = true ∧ stepsEqv qs ps = true := by
  rw [stepsEqv, Bool.and_eq_true]

theorem stepAgrees_of_stepsEqv {ps qs : List PipelineStep}
    (hps : parseSteps index os = .ok ps) (hqs : stepsFromDict os = .ok qs) (heqv : stepsEqv qs ps = true) :
    ∀ s, .dict s ∈ os → StepAgrees s := by
  induction os generalizing index ps qs with
  | nil =>
    intro s hs
    cases hs
  | cons o os ih =>
    obtain ⟨s, p, ps, rfl, hparsed, hrest, rfl⟩ := parseSteps_cons_ok hps
    obtain ⟨q, qs, hq, hqsRest, rfl⟩ := stepsFromDict_cons_ok.mp hqs
    rw [stepsEqv_cons_iff] at heqv
    intro s' hs'
    rcases List.mem_cons.mp hs' with heq | htail
    · cases heq
      exact stepAgrees_of_eqv hparsed hq heqv.1
    · exact ih hrest hqsRest heqv.2 s' htail

def SameTargets (qs ps : List PipelineStep) : Prop :=
  List.Forall₂ (fun q p : PipelineStep => q.id = p.id ∧ q.targets = p.targets) qs ps

theorem SameTargets.ids (h : SameTargets qs ps) : qs.map PipelineStep.id = ps.map PipelineStep.id := by
  induction h with
  | nil => rfl
  | cons hhead _ ih => rw [List.map_cons, List.map_cons, hhead.1, ih]

theorem SameTargets.checkTargets_eq (h : SameTargets qs ps) (known : List String) :
    checkTargets known qs = checkTargets known ps := by
  induction h with
  | nil => rfl
  | cons hhead _ ih => rw [checkTargets, checkTargets, hhead.1, hhead.2, ih]

theorem exists_stepsEqv {ps : List PipelineStep} (hjson : plainList false os = true)
    (hps : parseSteps index os = .ok ps) (hagrees : ∀ s, .dict s ∈ os → StepAgrees s ∧ StepKept s)
    (htext : ∀ p ∈ ps, p.nextStep.truthy = true → ∃ t, p.nextStep = .str t) :
    ∃ qs, stepsFromDict os = .ok qs ∧ stepsEqv qs ps = true ∧ SameTargets qs ps := by
  induction os generalizing index ps with
  | nil =>
    cases hps
    exact ⟨[], rfl, rfl, .nil⟩
  | cons o os ih =>
    obtain ⟨s, p, ps, rfl, hparsed, hrest, rfl⟩ := parseSteps_cons_ok hps
    rw [plainList, Bool.and_eq_true, PyObj.isPlain] at hjson
    obtain ⟨hstep, hkept⟩ := hagrees s List.mem_cons_self
    obtain ⟨q, hq, heqv, hsame⟩ := exists_eqv_of_agrees hjson.1 hparsed hstep hkept (htext p List.mem_cons_self)
    obtain ⟨qs, hqs, heqvs, hsames⟩ := ih hjson.2 hrest (fun s hs => hagrees s (List.mem_cons_of_mem _ hs))
      fun p hp => htext p (List.mem_cons_of_mem _ hp)
    exact ⟨q :: qs, stepsFromDict_cons_ok.mpr ⟨q, qs, hq, hqs, rfl⟩, stepsEqv_cons_iff.mpr ⟨heqv, heqvs⟩,
      .cons hsame hsames⟩

theorem nextStep_text {known : List String} (h : checkTargets known steps = .ok ()) (hp : p ∈ steps) (htruthy : p.nextStep.truthy = true) : ∃ t, p.nextStep = .str t := by
  induction steps with
  | nil => cases hp
  | cons step steps ih =>
    rw [checkTargets] at h
    obtain ⟨_, hstep, hsteps⟩ := except_bind_ok.mp h
    rcases List.mem_cons.mp hp with rfl | hp
    · rw [PipelineStep.targets, if_pos htruthy, List.singleton_append] at hstep
      cases hnext : p.nextStep with
      | str t => exact ⟨t, rfl⟩
      | _ =>
        rw [hnext, checkEach] at hstep
        · split at hstep <;> cases hstep
        · intro t ht
          cases ht
    · exact ih hsteps hp

/-! ## Specs -/

/-- What `parse_pipeline` reads of a document. -/
structure ParsedRoot (raw : PyEntries) (spec : PipelineSpec) (rawSteps : List PyObj) : Prop where
  list : raw.get? "steps" = some (.list rawSteps)
  steps : parseSteps 0 rawSteps = .ok spec.steps
  trigger : mapping (getOrNone raw "trigger") "pipeline.trigger" = .ok spec.trigger
  id : raw.get? "id" = some (.str spec.pipelineId)
  version : raw.get? "version" = some spec.version.toObj
  status : (raw.get? "status").getD (.str "draft") = .str spec.status.value
  parentVersion : getOrNone raw "parent_version" = spec.parentVersion
  changeReason : getOrNone raw "change_reason" = spec.changeReason

variable {n : PyNumber}

theorem version_given {o : Option PyObj} (hpos : ¬n.value.lt 1 = true) (h : o.getD (.int 0) = n.toObj) :
    o = some n.toObj := by
  cases o with
  | none =>
    refine absurd ?_ hpos
    have hvalue : n.value = .finite 0 := by
      have hnumber := n.number_toObj
      rw [← h] at hnumber
      exact (Option.some.inj hnumber).symm
    rw [hvalue]
    decide +kernel
  | some v => exact congrArg some h

theorem parsedRoot_of_parsePipeline {raw : PyEntries} {spec : PipelineSpec}
    (h : parsePipeline (.dict raw) = .ok spec) : ∃ rawSteps, ParsedRoot raw spec rawSteps := by
  rw [parsePipeline, mapping] at h
  obtain ⟨_, hroot, h⟩ := except_bind_ok.mp h
  cases hroot
  split at h
  · rename_i rawSteps hrawSteps
    simp only [except_bind_ok, PipelineSpec.new_ok_iff] at h
    obtain ⟨steps, hsteps, trigger, htrigger, hid, hversion, hstatus, rfl, hparent, hchange, rfl⟩ := h
    exact ⟨rawSteps,
      { list := hrawSteps, steps := hsteps, trigger := htrigger
        id := (getD_str_iff (ne_empty_of_text spec.pipelineId_text)).mp hid
        version := version_given spec.version_pos hversion
        status := hstatus, parentVersion := hparent, changeReason := hchange }⟩
  · cases h

theorem pipelineSpecFromDict_iff {raw : PyEntries} {spec : PipelineSpec} {rawSteps : List PyObj}
    (h : ParsedRoot raw spec rawSteps) {spec' : PipelineSpec} : pipelineSpecFromDict raw = .ok spec' ↔
      stepsFromDict rawSteps = .ok spec'.steps ∧ raw.get? "status" = some (.str spec'.status.value) ∧
        raw.get? "trigger" ≠ some .none ∧ spec'.trigger = spec.trigger ∧
        orElse (getOrNone raw "pipeline_id") (.str spec.pipelineId) = .str spec'.pipelineId ∧
        spec.version.toObj = spec'.version.toObj ∧ spec'.parentVersion = spec.parentVersion ∧
        spec'.changeReason = spec.changeReason := by
  unfold pipelineSpecFromDict
  simp only [except_bind_ok, PipelineSpec.new_ok_iff, item_ok_iff, h.list, h.id, h.version,
    dictOf_of_mapping h.trigger, h.parentVersion, h.changeReason, Option.some.injEq, Option.getD_some]
  constructor
  · rintro ⟨_, rfl, _, hiter, _, hsteps, _, rfl, _, hstatus, _, ⟨hnull, rfl⟩, hid, hversion, rfl, rfl, hparent, hchange,
      htrigger⟩
    cases hiter
    exact ⟨hsteps, hstatus, hnull, htrigger.symm, hid, hversion, hparent.symm, hchange.symm⟩
  · rintro ⟨hsteps, hstatus, hnull, htrigger, hid, hversion, hparent, hchange⟩
    exact ⟨_, rfl, _, rfl, _, hsteps, _, rfl, _, hstatus, _, ⟨hnull, rfl⟩, hid, hversion, rfl, rfl, hparent.symm,
      hchange.symm, htrigger.symm⟩

variable {a b : PipelineSpec}

theorem PipelineSpec.sameDefinition_iff :
    a.sameDefinition b = true ↔ a.pipelineId = b.pipelineId ∧ a.version.value.eqv b.version.value = true ∧
      a.parentVersion.eqv b.parentVersion = true ∧ a.changeReason.eqv b.changeReason = true ∧
      (PyObj.dict a.trigger).eqv (.dict b.trigger) = true ∧ stepsEqv a.steps b.steps = true := by
  simp only [PipelineSpec.sameDefinition, Bool.and_eq_true, decide_eq_true_eq, and_assoc]

theorem PipelineSpec.eqv_iff : a.eqv b = true ↔ a.sameDefinition b = true ∧ a.status = b.status := by
  simp only [PipelineSpec.eqv, Bool.and_eq_true, decide_eq_true_eq]

/-- `pipeline_spec_from_dict` reads the document as the same spec. -/
def ReadersAgree (raw : PyEntries) (spec : PipelineSpec) : Prop :=
  ∃ spec', pipelineSpecFromDict raw = .ok spec' ∧ spec'.eqv spec = true

theorem rootAgrees_of_readersAgree {raw : PyEntries} {spec : PipelineSpec} {rawSteps : List PyObj}
    (h : ParsedRoot raw spec rawSteps) (hagree : ReadersAgree raw spec) :
    RootAgrees raw ∧ ∀ s, .dict s ∈ rawSteps → StepAgrees s := by
  obtain ⟨spec', hfrom, heqv⟩ := hagree
  obtain ⟨hsteps, hstatus, htrigger, _, hid, _⟩ := (pipelineSpecFromDict_iff h).mp hfrom
  obtain ⟨hname, _, _, _, _, hstepsEqv⟩ := PipelineSpec.sameDefinition_iff.mp (PipelineSpec.eqv_iff.mp heqv).1
  refine ⟨{ status := ?_, trigger := htrigger, pipelineId := ?_ }, stepAgrees_of_stepsEqv h.steps hsteps hstepsEqv⟩
  · rw [hstatus]
    exact Option.some_ne_none _
  · intro htruthy
    rw [orElse, if_pos htruthy, hname] at hid
    rw [hid, getOrNone, h.id, Option.getD_some]

theorem value_eqv_self (h : n.toObj.isJson = true) : n.value.eqv n.value = true := by
  have heqv := PyObj.eqv_refl h
  rw [PyObj.eqv_number_iff n.number_toObj] at heqv
  exact PyFloat.eqv_iff.mpr ⟨heqv.1, rfl⟩

theorem readersAgree_of_compatible {raw : PyEntries} {spec : PipelineSpec} {rawSteps : List PyObj}
    (hjson : PyEntries.isJson raw = true) (h : ParsedRoot raw spec rawSteps) (hcompatible : Compatible raw) :
    ReadersAgree raw spec := by
  have hrawSteps := isPlain_of_get? hjson h.list
  rw [PyObj.isPlain] at hrawSteps
  obtain ⟨qs, hqs, heqv, hsame⟩ := exists_stepsEqv hrawSteps h.steps (hcompatible.steps rawSteps h.list)
    fun p hp => nextStep_text spec.targets_known hp
  have hne : ¬qs = [] := by
    rintro rfl
    exact spec.steps_ne (List.eq_nil_of_length_eq_zero hsame.length_eq.symm)
  have hnodup : (qs.map PipelineStep.id).Nodup := by
    rw [hsame.ids]
    exact spec.ids_nodup
  have htargets : checkTargets (qs.map PipelineStep.id) qs = .ok () := by
    rw [hsame.ids, hsame.checkTargets_eq]
    exact spec.targets_known
  have hid : orElse (getOrNone raw "pipeline_id") (.str spec.pipelineId) = .str spec.pipelineId := by
    unfold orElse
    split
    · rename_i htruthy
      rw [hcompatible.root.pipelineId htruthy, getOrNone, h.id, Option.getD_some]
    · rfl
  have hstatus : raw.get? "status" = some (.str spec.status.value) := by
    have hgiven := h.status
    cases hget : raw.get? "status" with
    | none => exact absurd hget hcompatible.root.status
    | some v =>
      rw [hget, Option.getD_some] at hgiven
      rw [hgiven]
  refine ⟨⟨spec.pipelineId, spec.version, spec.status, qs, spec.parentVersion, spec.changeReason, spec.trigger,
    spec.pipelineId_text, spec.version_pos, hne, hnodup, htargets⟩, ?_, ?_⟩
  · rw [pipelineSpecFromDict_iff h]
    exact ⟨hqs, hstatus, hcompatible.root.trigger, rfl, hid, rfl, rfl, rfl⟩
  · rw [PipelineSpec.eqv_iff, PipelineSpec.sameDefinition_iff]
    refine ⟨⟨rfl, value_eqv_self (isPlain_of_get? hjson h.version), ?_, ?_,
      eqv_refl_dict (isJson_of_mapping hjson h.trigger), heqv⟩, rfl⟩
    · rw [← h.parentVersion]
      exact PyObj.eqv_refl (isJson_getOrNone hjson _)
    · rw [← h.changeReason]
      exact PyObj.eqv_refl (isJson_getOrNone hjson _)

/-! ## Published documents -/

theorem PipelineStep.eqv_trans {a b c : PipelineStep} (hab : a.eqv b = true) (hbc : b.eqv c = true) : a.eqv c = true := by
  rw [PipelineStep.eqv_iff] at hab hbc ⊢
  obtain ⟨h1, h2, h3, h4, h5, h6, h7, h8⟩ := hab
  obtain ⟨k1, k2, k3, k4, k5, k6, k7, k8⟩ := hbc
  refine ⟨h1.trans k1, h2.trans k2, PyObj.eqv_trans h3 k3, PyObj.eqv_trans h4 k4, PyObj.eqv_trans h5 k5,
    PyObj.eqv_trans h6 k6, PyObj.eqv_trans h7 k7, ?_⟩
  rw [PyFloat.eqv_iff] at h8 k8 ⊢
  exact ⟨h8.1, h8.2.trans k8.2⟩

theorem stepsEqv_trans {as bs cs : List PipelineStep} (hab : stepsEqv as bs = true) (hbc : stepsEqv bs cs = true) :
    stepsEqv as cs = true := by
  induction as generalizing bs cs with
  | nil =>
    cases bs with
    | nil => exact hbc
    | cons b bs => cases hab
  | cons a as ih =>
    cases bs with
    | nil => cases hab
    | cons b bs =>
      cases cs with
      | nil => cases hbc
      | cons c cs =>
        rw [stepsEqv_cons_iff] at hab hbc ⊢
        exact ⟨PipelineStep.eqv_trans hab.1 hbc.1, ih hab.2 hbc.2⟩

theorem PipelineSpec.sameDefinition_trans {a b c : PipelineSpec} (hab : a.sameDefinition b = true)
    (hbc : b.sameDefinition c = true) : a.sameDefinition c = true := by
  rw [PipelineSpec.sameDefinition_iff] at hab hbc ⊢
  obtain ⟨h1, h2, h3, h4, h5, h6⟩ := hab
  obtain ⟨k1, k2, k3, k4, k5, k6⟩ := hbc
  refine ⟨h1.trans k1, ?_, PyObj.eqv_trans h3 k3, PyObj.eqv_trans h4 k4, PyObj.eqv_trans h5 k5, stepsEqv_trans h6 k6⟩
  rw [PyFloat.eqv_iff] at h2 k2 ⊢
  exact ⟨h2.1, h2.2.trans k2.2⟩

def Defines (d : PyEntries) (spec : PipelineSpec) : Prop :=
  ∃ spec', pipelineSpecFromDict d = .ok spec' ∧ spec'.sameDefinition spec = true

theorem get?_of_erase_eq {d d' : PyEntries} {name other : String} (h : d'.erase name = d.erase name)
    (hne : other ≠ name) : d'.get? other = d.get? other := by
  have hget : ∀ es : PyEntries, (es.erase name).get? other = es.get? other := by
    intro es
    induction es with
    | nil => rfl
    | cons e es ih =>
      rw [PyEntries.erase, List.filter_cons]
      split
      · rw [get?_cons, get?_cons, ← ih]
        rfl
      · rename_i hname
        have hkey : e.1 = .str name := isText_iff.mp (by simpa using hname)
        have hother : ¬e.1.isText other = true := by
          rw [hkey, isText_iff, PyObj.str.injEq]
          exact hne.symm
        rw [get?_cons, if_neg hother, ← ih]
        rfl
  rw [← hget d', h, hget d]

def PipelineSpec.withStatus (spec : PipelineSpec) (status : PipelineStatus) : PipelineSpec :=
  { spec with status := status }

variable {status : PipelineStatus}

theorem pipelineSpecFromDict_withStatus {d d' : PyEntries} {spec : PipelineSpec} (h : pipelineSpecFromDict d = .ok spec)
    (herase : d'.erase "status" = d.erase "status") (hstatus : d'.get? "status" = some (.str status.value)) :
    pipelineSpecFromDict d' = .ok (spec.withStatus status) := by
  have hget : ∀ name, name ≠ "status" → d'.get? name = d.get? name := fun name hne => get?_of_erase_eq herase hne
  unfold pipelineSpecFromDict at h ⊢
  simp only [except_bind_ok, PipelineSpec.new_ok_iff, item_ok_iff, getOrNone] at h ⊢
  rw [hget "steps" (by decide), hget "version" (by decide), hget "trigger" (by decide), hget "pipeline_id" (by decide),
    hget "id" (by decide), hget "parent_version" (by decide), hget "change_reason" (by decide), hstatus]
  obtain ⟨rawSteps, hrawSteps, xs, hxs, steps, hsteps, version, hversion, _, _, trigger, htrigger, hid, hnumber, _, heq,
    hparent, hchange, htriggers⟩ := h
  exact ⟨rawSteps, hrawSteps, xs, hxs, steps, hsteps, version, hversion, _, rfl, trigger, htrigger, hid, hnumber, rfl,
    heq, hparent, hchange, htriggers⟩

theorem Defines.withStatus {d d' : PyEntries} {spec : PipelineSpec} (h : Defines d spec)
    (herase : d'.erase "status" = d.erase "status")
    (hstatus : d'.get? "status" = some (.str status.value)) : Defines d' spec := by
  obtain ⟨spec', hfrom, hsame⟩ := h
  exact ⟨spec'.withStatus status, pipelineSpecFromDict_withStatus hfrom herase hstatus, hsame⟩

theorem specsEqual_true_iff {a b : PyEntries} :
    specsEqual a b = .ok true ↔ ∃ spec, pipelineSpecFromDict b = .ok spec ∧ Defines a spec := by
  unfold specsEqual
  simp only [except_bind_ok]
  constructor
  · rintro ⟨spec', ha, spec, hb, hsame⟩
    exact ⟨spec, hb, spec', ha, Except.ok.inj hsame⟩
  · rintro ⟨spec, hb, spec', ha, hsame⟩
    refine ⟨spec', ha, spec, hb, ?_⟩
    rw [hsame]
    rfl

section Publish

variable {s t : RunStateStore} {spec : PipelineSpec}

/-- What holds of the store after the common part of the calls. -/
theorem spec?_of_ensureSpec {raw : Option ℕ} {payload : PyEntries} (hpayload : payloadOf floatRepr s spec raw = .ok payload)
    (hrun : (ensureSpec spec raw payload).run s = .ok () t) :
    ∃ d, t.spec? spec.key = some d ∧ (d = payload ∨ specsEqual d payload = .ok true) := by
  rw [ensureSpec, run_bind, run_get] at hrun
  cases hstored : s.spec? spec.key with
  | none =>
    simp only [hstored, run_modify] at hrun
    cases hrun
    refine ⟨payload, ?_, .inl rfl⟩
    rw [spec?, withSpec_specs, InsertionDict.get?_set_self, Option.map_some, document_newRef hpayload]
  | some existing =>
    cases hequal : specsEqual existing payload with
    | error e =>
      simp only [hstored, hequal, run_bind, run_ofExcept_error] at hrun
      cases hrun
    | ok same =>
      cases same with
      | false =>
        simp only [hstored, hequal, run_bind, run_ofExcept_ok, Bool.not_false, if_true, run_throw_any] at hrun
        cases hrun
      | true =>
        simp only [hstored, hequal, run_bind, run_ofExcept_ok, Bool.not_true, Bool.false_eq_true, if_false,
          run_pure] at hrun
        cases hrun
        exact ⟨existing, hstored, .inr hequal⟩

theorem pipelineSpecFromDict_nil : ¬∃ spec, pipelineSpecFromDict [] = .ok spec := by
  rintro ⟨spec, h⟩
  cases h

theorem defines_activate {d : PyEntries} (hd : s.spec? spec.key = some d) {spec₀ : PipelineSpec}
    (hdefines : Defines d spec₀) : ∃ d', (activate spec s).spec? spec.key = some d' ∧ Defines d' spec₀ := by
  obtain ⟨ref, href, rfl⟩ := Option.map_eq_some_iff.mp hd
  have hlt : ref < s.documents.length := by
    by_contra hge
    have hempty : s.document ref = [] := by
      rw [document, List.getD_eq_getElem?_getD, List.getElem?_eq_none (Nat.le_of_not_lt hge), Option.getD_none]
    rw [hempty] at hdefines
    obtain ⟨spec', hfrom, _⟩ := hdefines
    exact pipelineSpecFromDict_nil ⟨spec', hfrom⟩
  have hunfold : activate spec s = (s.specs.entries.foldl (retire spec) s).setStatus ref "active" := by
    rw [activate, href]
  have hdocument : (activate spec s).document ref =
      PyEntries.set ((s.specs.entries.foldl (retire spec) s).document ref) "status" (.str "active") := by
    rw [hunfold, document_setStatus_self "active" (by rwa [foldl_retire_length])]
  refine ⟨(activate spec s).document ref, by rw [spec?, activate_specs, href, Option.map_some], ?_⟩
  rw [hdocument]
  have hstatus := PyEntries.get?_set_self ((s.specs.entries.foldl (retire spec) s).document ref) "status" (.str "active")
  refine hdefines.withStatus ?_ (show _ = some (PyObj.str PipelineStatus.active.value) from hstatus)
  rw [PyEntries.erase_set_self, erase_document_foldl_retire]

/-- A published version holds a document with the definition of the payload. -/
theorem defines_of_publish {ref : ℕ} {spec₁ spec₀ : PipelineSpec}
    (hraw : pipelineSpecFromDict (s.document ref) = .ok spec₁) (hsame : spec₁.sameDefinition spec₀ = true)
    (hrun : (publishPipeline floatRepr spec (some ref)).run s = .ok () t) :
    ∃ d, t.spec? spec.key = some d ∧ Defines d spec₀ := by
  rw [run_publishPipeline, run_savePipeline] at hrun
  cases hensure : (ensureSpec spec (some ref) (s.document ref)).run s with
  | error e u =>
    simp only [payloadOf, hensure] at hrun
    cases hrun
  | ok _ u =>
    simp only [payloadOf, hensure] at hrun
    have hraw' : payloadOf floatRepr s spec (some ref) = .ok (s.document ref) := rfl
    obtain ⟨d, hd, hpayload⟩ := spec?_of_ensureSpec hraw' hensure
    have hdefines : Defines d spec₀ := by
      rcases hpayload with rfl | hequal
      · exact ⟨spec₁, hraw, hsame⟩
      · obtain ⟨spec₂, hpayload, stored, hstored, hstoredSame⟩ := specsEqual_true_iff.mp hequal
        rw [hraw, Except.ok.injEq] at hpayload
        subst hpayload
        exact ⟨stored, hstored, PipelineSpec.sameDefinition_trans hstoredSame hsame⟩
    split at hrun
    · cases hrun
      exact defines_activate hd hdefines
    · cases hrun
      exact ⟨d, hd, hdefines⟩

end Publish

/-! ## Runs of a published spec -/

structure RunRecord.Encodable (floatRepr : PyFloat → String) (run : RunRecord) : Prop where
  context : ∃ context, executionContextToDict floatRepr run.context = .ok context
  outputs : ∃ outputs, jsonCopyEntries floatRepr run.outputs = .ok outputs
  attempts : intTexts run.attempts.entries = .ok ()
  revision : ∃ text, intText run.revision = .ok text

/-- A run of the spec that the loader has read is stored after the publication, and read with the same steps. -/
def RunsRead (floatRepr : PyFloat → String) (raw : PyEntries) (spec : PipelineSpec) : Prop :=
  ∀ (s t : RunStateStore) (ref : ℕ) (run : RunRecord), s.document ref = raw →
    (publishPipeline floatRepr spec (some ref)).run s = .ok () t →
    run.spec = spec → t.runs.contains run.runId = false → run.Encodable floatRepr →
    ∃ u record, (createRun floatRepr run).run t = .ok () u ∧ (getRun run.runId).run u = .ok (some record) u ∧
      stepsEqv record.spec.steps spec.steps = true

theorem executionContextFromDict_toDict {context : ExecutionContext} {data : ContextSnapshot}
    (h : executionContextToDict floatRepr context = .ok data) : ∃ context', executionContextFromDict data = .ok context' := by
  unfold executionContextToDict at h
  simp only [except_bind_ok] at h
  obtain ⟨edgeAnalysis, _, contextVariables, _, budget, _, hdata⟩ := h
  cases hdata
  exact ⟨_, executionContextFromDict_contextSnapshot
    { context with
      request := { context.request with edgeAnalysis := edgeAnalysis }
      contextVariables := contextVariables
      budget := budget }⟩

variable {run : RunRecord}

theorem runRecordToDict_of_encodable (h : run.Encodable floatRepr) {document : PyEntries}
    (hspec : pipelineSpecToDict floatRepr run.spec = .ok document) :
    ∃ data, runRecordToDict floatRepr run = .ok data ∧ data.pipelineId = run.spec.pipelineId ∧
      data.pipelineVersion = run.spec.version ∧
      ∀ spec, ∃ record, runRecordFromDict data (some spec) = .ok record ∧ record.spec = spec := by
  obtain ⟨context, hcontext⟩ := h.context
  obtain ⟨outputs, houtputs⟩ := h.outputs
  obtain ⟨text, htext⟩ := h.revision
  obtain ⟨context', hread⟩ := executionContextFromDict_toDict hcontext
  unfold runRecordToDict
  rw [hcontext, hspec, houtputs, h.attempts, htext]
  refine ⟨_, rfl, rfl, rfl, ?_⟩
  intro spec
  unfold runRecordFromDict
  simp only [except_bind_ok]
  exact ⟨_, ⟨spec, rfl, context', hread, _, questionFromDict_map run.question, rfl⟩, rfl⟩

variable {payload d : PyEntries}

theorem run_ensureSpec_same {t : RunStateStore} {spec : PipelineSpec} {raw : Option ℕ}
    (hd : t.spec? spec.key = some d) (hequal : specsEqual d payload = .ok true) :
    (ensureSpec spec raw payload).run t = .ok () t := by
  rw [ensureSpec, run_bind, run_get]
  simp only [hd, hequal, run_bind, run_ofExcept_ok, Bool.not_true, Bool.false_eq_true, if_false, run_pure]

variable {data : RunSnapshot}

theorem run_createRun_same {t : RunStateStore}
    (hnew : t.runs.contains run.runId = false) (hpayload : pipelineSpecToDict floatRepr run.spec = .ok payload)
    (hd : t.spec? run.spec.key = some d) (hequal : specsEqual d payload = .ok true)
    (hdata : runRecordToDict floatRepr run = .ok data) :
    (createRun floatRepr run).run t = .ok () { t with runs := t.runs.set run.runId data } := by
  rw [createRun, run_bind, run_get]
  simp only [hnew, Bool.false_eq_true, if_false, run_bind, payloadOf, hpayload, run_ofExcept_ok,
    run_ensureSpec_same hd hequal, hdata, run_modify]

theorem specFromData_ok {d : PyEntries} {spec : PipelineSpec} (h : pipelineSpecFromDict d = .ok spec) :
    specFromData (some d) = .ok (some spec) := by
  cases d with
  | nil => exact absurd ⟨spec, h⟩ pipelineSpecFromDict_nil
  | cons e es =>
    rw [specFromData, h]
    · rfl
    · exact List.cons_ne_nil e es

theorem run_getRun_stored {u : RunStateStore} {runId : String} {d : PyEntries} {spec : PipelineSpec}
    {record : RunRecord} (hdata : u.runs.get? runId = some data)
    (hd : u.spec? (data.pipelineId, data.pipelineVersion.value) = some d) (hspec : pipelineSpecFromDict d = .ok spec)
    (hrecord : runRecordFromDict data (some spec) = .ok record) : (getRun runId).run u = .ok (some record) u := by
  rw [getRun, run_bind, run_get]
  simp only [hdata, run_bind, hd, specFromData_ok hspec, run_ofExcept_ok, hrecord, run_pure]

/-! ### Compatible documents -/

theorem printable_of_le {m n : ℤ} (hm : PyText.Printable m) (h : n.natAbs ≤ m.natAbs) : PyText.Printable n := by
  unfold PyText.Printable at hm ⊢
  exact h.trans_lt hm

/-- Retries that the loader computes are JSON if they are a value of the document. -/
theorem isJson_retries {o o' : PyObj} (ho : o.isJson = true) (h : o.minusOne = .ok n.toObj)
    (hn : ¬n.value.lt 0 = true) (ho' : o'.isJson = true) (heqv : n.toObj.eqv o' = true) : n.toObj.isJson = true := by
  cases n with
  | bool b => rfl
  | int n =>
    refine isPlain_of_printable ?_
    have hnonneg : 0 ≤ n := by
      by_contra hneg
      refine hn ?_
      have hlt : (n : ℚ) < 0 := by exact_mod_cast not_le.mp hneg
      exact decide_eq_true hlt
    cases o with
    | bool b =>
      have hone : n = b.toNat - 1 := by
        have := PyObj.int.inj (Except.ok.inj h)
        exact this.symm
      refine printable_small ?_
      cases b
      · rw [hone]
        decide
      · rw [hone]
        decide
    | int m =>
      have hm : PyText.Printable m := by
        rw [PyObj.isJson, PyObj.isPlain] at ho
        exact of_decide_eq_true ho
      have hn' : n = m - 1 := (PyObj.int.inj (Except.ok.inj h)).symm
      exact printable_of_le hm (by omega)
    | float x => cases x <;> cases h
    | _ => cases h
  | float x =>
    obtain ⟨_, hnumber⟩ := (PyObj.eqv_number_iff (PyNumber.number_toObj (.float x))).mp heqv
    cases x with
    | finite q => rfl
    | infinity negative =>
      cases o' with
      | float y =>
        cases hnumber
        exact ho'
      | _ => cases hnumber
    | nan =>
      cases o' with
      | float y =>
        cases hnumber
        exact ho'
      | _ => cases hnumber

theorem isJson_getD (h : PyEntries.isJson es = true) (name : String) (ho : o.isJson = true) :
    ((es.get? name).getD o).isJson = true := by
  cases hname : es.get? name with
  | none => exact ho
  | some v => exact isPlain_of_get? h hname

theorem isJson_retryOf {s : PyEntries} (hs : PyEntries.isJson s = true) : PyEntries.isJson (retryOf s) = true := by
  unfold retryOf
  split
  · rename_i retry hretry
    have hvalue := isJson_getOrNone hs "retry"
    rwa [hretry, PyObj.isJson, PyObj.isPlain] at hvalue
  · rfl

theorem isJson_small {n : ℤ} (h : n.natAbs < 10) : (PyObj.int n).isJson = true := isPlain_of_printable (printable_small h)

theorem parsedStep_isJson {s : PyEntries} (hs : PyEntries.isJson s = true) (h : ParsedStep s p)
    (hagrees : StepAgrees s) : p.IsJson := by
  obtain ⟨hconfig, hinputs, honStatus, hwhen, hnext⟩ := h.isPlain hs
  obtain ⟨retries, hretries, hequal⟩ := hagrees.maxRetries
  rw [h.maxRetries, Except.ok.injEq] at hretries
  subst hretries
  exact
    { config := hconfig, inputs := hinputs, when := hwhen, nextStep := hnext, onStatus := honStatus
      maxRetries := isJson_retries (isJson_getD (isJson_retryOf hs) "max_attempts" (isJson_small (by decide)))
        h.maxRetries p.maxRetries_nonneg (isJson_getD hs "max_retries" (isJson_small (by decide))) hequal }

theorem parsedStep_restorable {s : PyEntries} (h : ParsedStep s p) (hkept : StepKept s) : p.Restorable where
  nextStep := by
    rw [← h.nextStep]
    exact hkept.next
  when := by
    rw [← h.when]
    exact hkept.when

theorem parsedSteps_storable {ps : List PipelineStep} (hjson : plainList false os = true)
    (hps : parseSteps index os = .ok ps) (hagrees : ∀ s, .dict s ∈ os → StepAgrees s ∧ StepKept s) :
    ∀ p ∈ ps, p.IsJson ∧ p.Restorable := by
  induction os generalizing index ps with
  | nil =>
    cases hps
    intro p hp
    cases hp
  | cons o os ih =>
    obtain ⟨s, p, ps, rfl, hparsed, hrest, rfl⟩ := parseSteps_cons_ok hps
    rw [plainList, Bool.and_eq_true, PyObj.isPlain] at hjson
    obtain ⟨hstep, hkept⟩ := hagrees s List.mem_cons_self
    intro p' hp'
    rcases List.mem_cons.mp hp' with rfl | hp'
    · exact ⟨parsedStep_isJson hjson.1 hparsed hstep, parsedStep_restorable hparsed hkept⟩
    · exact ih hjson.2 hrest (fun s hs => hagrees s (List.mem_cons_of_mem _ hs)) p' hp'

section Compatible

variable {raw : PyEntries} {spec : PipelineSpec} {rawSteps : List PyObj}

theorem storable_of_compatible (hjson : PyEntries.isJson raw = true) (h : ParsedRoot raw spec rawSteps)
    (hcompatible : Compatible raw) : spec.IsJson ∧ ∀ step ∈ spec.steps, step.Restorable := by
  have hrawSteps := isPlain_of_get? hjson h.list
  rw [PyObj.isPlain] at hrawSteps
  have hsteps := parsedSteps_storable hrawSteps h.steps (hcompatible.steps rawSteps h.list)
  refine ⟨?_, fun step hstep => (hsteps step hstep).2⟩
  exact
    { version := isPlain_of_get? hjson h.version
      parentVersion := by
        rw [← h.parentVersion]
        exact isJson_getOrNone hjson _
      changeReason := by
        rw [← h.changeReason]
        exact isJson_getOrNone hjson _
      trigger := isJson_of_mapping hjson h.trigger
      steps := fun step hstep => (hsteps step hstep).1 }

theorem runsRead_of_compatible (hjson : PyEntries.isJson raw = true) (h : ParsedRoot raw spec rawSteps)
    (hcompatible : Compatible raw) : RunsRead floatRepr raw spec := by
  rintro s t ref run hraw hpublish rfl hnew hencodable
  obtain ⟨hspecJson, hrestorable⟩ := storable_of_compatible hjson h hcompatible
  obtain ⟨spec', hfrom, heqv⟩ := readersAgree_of_compatible hjson h hcompatible
  have hsame := (PipelineSpec.eqv_iff.mp heqv).1
  rw [← hraw] at hfrom
  obtain ⟨d, hd, hdefines⟩ := defines_of_publish hfrom hsame hpublish
  have hpayload := pipelineSpecToDict_eq floatRepr hspecJson fun step hstep => (hrestorable step hstep).conditional
  have hequal : specsEqual d (specEntries run.spec) = .ok true :=
    specsEqual_true_iff.mpr ⟨run.spec, pipelineSpecFromDict_specEntries hrestorable, hdefines⟩
  obtain ⟨data, hdata, hid, hversion, hread⟩ := runRecordToDict_of_encodable hencodable hpayload
  obtain ⟨stored, hstored, hstoredSame⟩ := hdefines
  obtain ⟨record, hrecord, hspec⟩ := hread stored
  refine ⟨_, record, run_createRun_same hnew hpayload hd hequal hdata, ?_, ?_⟩
  · have hkey : (data.pipelineId, data.pipelineVersion.value) = run.spec.key := by
      rw [hid, hversion]
      rfl
    refine run_getRun_stored (InsertionDict.get?_set_self _ _ _) ?_ hstored hrecord
    rw [hkey]
    exact hd
  · rw [hspec]
    exact (PipelineSpec.sameDefinition_iff.mp hstoredSame).2.2.2.2.2

end Compatible

/-! ### Documents whose runs are read -/

def textKeys : PyEntries → Bool
  | [] => true
  | (k, _) :: es => freshKey k es && textKeys es

theorem get?_consPair_of_none {k : String} (h : es.get? k = none) : consPair k v es = (.str k, v) :: es := by
  rw [consPair, h]

/-- What a copy of a mapping holds under a key. -/
theorem get?_of_jsonCopyEntries {es fs : PyEntries} (h : jsonCopyEntries floatRepr es = .ok fs) (hkeys : textKeys es = true)
    (name : String) :
    match es.get? name with
    | none => fs.get? name = none
    | some v => ∃ v', jsonCopy floatRepr v = .ok v' ∧ fs.get? name = some v' := by
  induction es generalizing fs name with
  | nil =>
    cases h
    rfl
  | cons e es ih =>
    obtain ⟨k, v⟩ := e
    rw [textKeys, Bool.and_eq_true, freshKey_iff] at hkeys
    obtain ⟨⟨key, rfl, hfresh⟩, hrest⟩ := hkeys
    obtain ⟨_, v', es', hkey, hv, hes, hfs⟩ := jsonCopyEntries_cons_ok.mp h
    cases hkey
    cases hfs
    have hfreshCopy := ih hes hrest key
    rw [hfresh] at hfreshCopy
    rw [get?_consPair_of_none hfreshCopy, get?_cons, get?_cons]
    by_cases hname : (PyObj.str key).isText name = true
    · simp only [if_pos hname]
      exact ⟨v', hv, rfl⟩
    · simp only [if_neg hname]
      exact ih hes hrest name

theorem get?_copy_of_some {es fs : PyEntries} (h : jsonCopyEntries floatRepr es = .ok fs) (hkeys : textKeys es = true)
    (name : String) (hget : es.get? name = some v) : ∃ v', jsonCopy floatRepr v = .ok v' ∧ fs.get? name = some v' := by
  have hcopy := get?_of_jsonCopyEntries h hkeys name
  rwa [hget] at hcopy

theorem get?_copy_of_none {es fs : PyEntries} (h : jsonCopyEntries floatRepr es = .ok fs) (hkeys : textKeys es = true)
    (name : String) (hget : es.get? name = none) : fs.get? name = none := by
  have hcopy := get?_of_jsonCopyEntries h hkeys name
  rwa [hget] at hcopy

theorem jsonCopy_list_ok {xs : List PyObj} (h : jsonCopy floatRepr (.list xs) = .ok o) :
    ∃ ys, o = .list ys ∧ jsonCopyList floatRepr xs = .ok ys := by
  rw [jsonCopy] at h
  obtain ⟨ys, hys, ho⟩ := except_bind_ok.mp h
  cases ho
  exact ⟨ys, rfl, hys⟩

theorem whenToDict_ok {value o : PyObj} (h : whenToDict value = .ok o) (hvalue : value ≠ .none) :
    ∃ entries, o = .dict entries := by
  cases value with
  | none => exact absurd rfl hvalue
  | _ =>
    rw [whenToDict] at h
    · obtain ⟨entries, _, ho⟩ := except_bind_ok.mp h
      cases ho
      exact ⟨entries, rfl⟩
    · exact hvalue

/-- A step that is read from a copy of its mapping has a mapping or nothing as its condition, and no empty next step. -/
theorem step_of_copy {p r : PipelineStep} {o o' : PyObj} (hjson : p.nextStep.isJson = true) (ho : stepToDict p = .ok o)
    (hcopy : jsonCopy floatRepr o = .ok o') (hr : stepFromDict o' = .ok r) :
    (p.when ≠ .none → ∃ entries, r.when = .dict entries) ∧ r.nextStep = orElse p.nextStep .none := by
  rw [stepToDict] at ho
  obtain ⟨when, hwhen, ho⟩ := except_bind_ok.mp ho
  cases ho
  obtain ⟨fs, rfl, hfs⟩ := jsonCopy_dict_ok hcopy
  obtain ⟨when', hwhenCopy, hwhenGet⟩ := get?_copy_of_some hfs rfl "when" rfl
  obtain ⟨next', hnextCopy, hnextGet⟩ := get?_copy_of_some hfs rfl "next_step" rfl
  have hnone := get?_copy_of_none hfs rfl "next" rfl
  rw [jsonCopy_of_isPlain (PyObj.isPlain_of_isJson hjson), Except.ok.injEq] at hnextCopy
  subst hnextCopy
  rw [stepFromDict, stepFromEntries] at hr
  simp only [except_bind_ok, PipelineStep.new_ok_iff, getOrNone, hwhenGet, hnextGet, hnone, Option.getD_some,
    Option.getD_none] at hr
  obtain ⟨_, _, _, _, _, _, _, _, _, _, _, _, _, _, hwhenRead, hnextRead, _⟩ := hr
  refine ⟨?_, hnextRead.symm⟩
  intro hsome
  obtain ⟨entries, rfl⟩ := whenToDict_ok hwhen hsome
  obtain ⟨entries', rfl, _⟩ := jsonCopy_dict_ok hwhenCopy
  exact ⟨entries', hwhenRead.symm⟩

theorem eqv_dict_left (h : (PyObj.dict entries).eqv o = true) : ∃ entries', o = .dict entries' := by
  cases o with
  | dict entries' => exact ⟨entries', rfl⟩
  | _ => cases h

theorem eqv_dict_right (h : o.eqv (.dict entries) = true) : ∃ entries', o = .dict entries' := by
  cases o with
  | dict entries' => exact ⟨entries', rfl⟩
  | _ => cases h

theorem eqv_none_left (h : PyObj.none.eqv o = true) : o = .none := by
  cases o with
  | none => rfl
  | _ => cases h

/-- A stored step that equals both the step of the loader and what is read of its mapping. -/
theorem stepKept_of_copy {s : PyEntries} {p e r : PipelineStep} {o o' : PyObj} (hs : PyEntries.isJson s = true)
    (h : ParsedStep s p) (ho : stepToDict p = .ok o) (hcopy : jsonCopy floatRepr o = .ok o')
    (hr : stepFromDict o' = .ok r) (hp : e.eqv p = true) (her : e.eqv r = true) : StepKept s := by
  obtain ⟨_, _, _, _, hjson⟩ := h.isPlain hs
  obtain ⟨hwhen, hnext⟩ := step_of_copy hjson ho hcopy hr
  obtain ⟨_, _, _, _, hwhenP, hnextP, _⟩ := PipelineStep.eqv_iff.mp hp
  obtain ⟨_, _, _, _, hwhenR, hnextR, _⟩ := PipelineStep.eqv_iff.mp her
  refine { next := ?_, when := ?_ }
  · rw [h.nextStep]
    by_cases htruthy : p.nextStep.truthy = true
    · exact .inr htruthy
    · rw [hnext, orElse, if_neg htruthy] at hnextR
      rw [eqv_none_right hnextR] at hnextP
      exact .inl (eqv_none_left hnextP)
  · rw [h.when]
    by_cases hnone : p.when = .none
    · exact .inl hnone
    · obtain ⟨entries, hentries⟩ := hwhen hnone
      rw [hentries] at hwhenR
      obtain ⟨entries', hentries'⟩ := eqv_dict_right hwhenR
      rw [hentries'] at hwhenP
      exact .inr (eqv_dict_left hwhenP)

theorem stepsKept_of_copy {xs os os' : List PyObj} {ps es rs : List PipelineStep}
    (hjson : plainList false xs = true) (hps : parseSteps index xs = .ok ps) (hos : stepsToDict ps = .ok os)
    (hcopy : jsonCopyList floatRepr os = .ok os') (hrs : stepsFromDict os' = .ok rs) (hp : stepsEqv es ps = true)
    (hr : stepsEqv es rs = true) : ∀ s, .dict s ∈ xs → StepKept s := by
  induction xs generalizing index ps es rs os os' with
  | nil =>
    intro s hs
    cases hs
  | cons x xs ih =>
    obtain ⟨s, p, ps, rfl, hparsed, hpsRest, rfl⟩ := parseSteps_cons_ok hps
    rw [plainList, Bool.and_eq_true, PyObj.isPlain] at hjson
    rw [stepsToDict] at hos
    simp only [except_bind_ok] at hos
    obtain ⟨o, ho, os, hosRest, hos⟩ := hos
    cases hos
    rw [jsonCopyList] at hcopy
    simp only [except_bind_ok] at hcopy
    obtain ⟨o', ho', os', hcopyRest, hcopy⟩ := hcopy
    cases hcopy
    rw [stepsFromDict] at hrs
    simp only [except_bind_ok] at hrs
    obtain ⟨r, hrStep, rs, hrsRest, hrs⟩ := hrs
    cases hrs
    cases es with
    | nil => cases hp
    | cons e es =>
      rw [stepsEqv_cons_iff] at hp hr
      intro s' hs'
      rcases List.mem_cons.mp hs' with heq | htail
      · cases heq
        exact stepKept_of_copy hjson.1 hparsed ho ho' hrStep hp.1 hr.1
      · exact ih hjson.2 hpsRest hosRest hcopyRest hrsRest hp.2 hr.2 s' htail

theorem specsEqual_of_ensureSpec {t u : RunStateStore} {spec : PipelineSpec} {raw : Option ℕ}
    (hd : t.spec? spec.key = some d) (hrun : (ensureSpec spec raw payload).run t = .ok () u) :
    specsEqual d payload = .ok true := by
  rw [ensureSpec, run_bind, run_get] at hrun
  cases hequal : specsEqual d payload with
  | error e =>
    simp only [hd, hequal, run_bind, run_ofExcept_error] at hrun
    cases hrun
  | ok same =>
    cases same with
    | true => rfl
    | false =>
      simp only [hd, hequal, run_bind, run_ofExcept_ok, Bool.not_false, if_true, run_throw_any] at hrun
      cases hrun

theorem specsEqual_of_createRun {t u : RunStateStore} {d : PyEntries}
    (hd : t.spec? run.spec.key = some d) (hrun : (createRun floatRepr run).run t = .ok () u) :
    ∃ payload, pipelineSpecToDict floatRepr run.spec = .ok payload ∧ specsEqual d payload = .ok true := by
  rw [createRun, run_bind, run_get] at hrun
  cases hknown : t.runs.contains run.runId with
  | true =>
    simp only [hknown, if_true] at hrun
    cases hrun
  | false =>
    simp only [hknown, Bool.false_eq_true, if_false, run_bind, payloadOf] at hrun
    cases hpayload : pipelineSpecToDict floatRepr run.spec with
    | error e =>
      simp only [hpayload, run_ofExcept_error] at hrun
      cases hrun
    | ok payload =>
      simp only [hpayload, run_ofExcept_ok] at hrun
      cases hensure : (ensureSpec run.spec none payload).run t with
      | error e t' =>
        simp only [hensure] at hrun
        cases hrun
      | ok _ t' => exact ⟨payload, rfl, specsEqual_of_ensureSpec hd hensure⟩

theorem publish_new (floatRepr : PyFloat → String) (raw : PyEntries) (spec : PipelineSpec) :
    ∃ t, (publishPipeline floatRepr spec (some 0)).run (.new [raw]) = .ok () t ∧ ∀ runId, t.runs.contains runId = false := by
  have hensure : (ensureSpec spec (some 0) raw).run (.new [raw]) = .ok () ((RunStateStore.new [raw]).withSpec spec.key
      (some 0) raw) := by
    rw [ensureSpec, run_bind, run_get]
    rfl
  have hpayload : payloadOf floatRepr (.new [raw]) spec (some 0) = .ok raw := rfl
  refine ⟨if spec.status = .active then activate spec ((RunStateStore.new [raw]).withSpec spec.key (some 0) raw)
    else (RunStateStore.new [raw]).withSpec spec.key (some 0) raw, ?_, ?_⟩
  · rw [run_publishPipeline, run_savePipeline]
    simp only [hpayload, hensure]
  · intro runId
    split
    · rw [(activate_frame spec _).1]
      rfl
    · rfl

theorem steps_of_payload {spec r : PipelineSpec} {payload : PyEntries}
    (hpayload : pipelineSpecToDict floatRepr spec = .ok payload) (hr : pipelineSpecFromDict payload = .ok r) :
    ∃ os os', stepsToDict spec.steps = .ok os ∧ jsonCopyList floatRepr os = .ok os' ∧ stepsFromDict os' = .ok r.steps := by
  rw [pipelineSpecToDict] at hpayload
  obtain ⟨os, hos, hcopy⟩ := except_bind_ok.mp hpayload
  obtain ⟨o', ho', hget⟩ := get?_copy_of_some hcopy rfl "steps" rfl
  obtain ⟨os', rfl, hcopyList⟩ := jsonCopy_list_ok ho'
  refine ⟨os, os', hos, hcopyList, ?_⟩
  rw [pipelineSpecFromDict] at hr
  simp only [except_bind_ok, PipelineSpec.new_ok_iff, item_ok_iff, hget, Option.some.injEq] at hr
  obtain ⟨_, rfl, xs, hxs, steps, hsteps, _, _, _, _, _, _, _, _, _, hsame, _⟩ := hr
  cases hxs
  rw [hsteps, hsame]

theorem compatible_of_reads {raw : PyEntries} {spec : PipelineSpec} {rawSteps : List PyObj}
    (hjson : PyEntries.isJson raw = true) (h : ParsedRoot raw spec rawSteps) (hagree : ReadersAgree raw spec)
    (hruns : RunsRead floatRepr raw spec) : Compatible raw := by
  obtain ⟨hroot, hsteps⟩ := rootAgrees_of_readersAgree h hagree
  obtain ⟨spec', hfrom, heqv⟩ := hagree
  have hsame := (PipelineSpec.eqv_iff.mp heqv).1
  -- one run of the spec in a store that holds nothing else
  obtain ⟨t, hpublish, hempty⟩ := publish_new floatRepr raw spec
  have hencodable : RunRecord.Encodable floatRepr { sampleRun with spec := spec } :=
    { context := ⟨_, executionContextToDict_eq floatRepr sampleRun_isJson.context⟩
      outputs := ⟨_, jsonCopyEntries_of_plain (plainEntries_of_json sampleRun_isJson.outputs)⟩
      attempts := intTexts_ok sampleRun_isJson.attempts
      revision := ⟨_, if_pos sampleRun_isJson.revision⟩ }
  obtain ⟨u, record, hcreate, _⟩ := hruns (.new [raw]) t 0 { sampleRun with spec := spec } rfl hpublish rfl (hempty _)
    hencodable
  have hdocument : pipelineSpecFromDict ((RunStateStore.new [raw]).document 0) = .ok spec' := hfrom
  obtain ⟨d, hd, stored, hstored, hstoredSame⟩ := defines_of_publish hdocument hsame hpublish
  obtain ⟨payload, hpayload, hequal⟩ := specsEqual_of_createRun hd hcreate
  obtain ⟨r, hr, stored', hstored', hsameR⟩ := specsEqual_true_iff.mp hequal
  rw [hstored, Except.ok.injEq] at hstored'
  subst hstored'
  obtain ⟨os, os', hos, hcopy, hrs⟩ := steps_of_payload hpayload hr
  have hrawSteps := isPlain_of_get? hjson h.list
  rw [PyObj.isPlain] at hrawSteps
  have hkept := stepsKept_of_copy hrawSteps h.steps hos hcopy hrs
    (PipelineSpec.sameDefinition_iff.mp hstoredSame).2.2.2.2.2 (PipelineSpec.sameDefinition_iff.mp hsameR).2.2.2.2.2
  refine { root := hroot, steps := ?_ }
  intro rawSteps' hlist s hs
  rw [h.list, Option.some.injEq, PyObj.list.injEq] at hlist
  subst hlist
  exact ⟨hsteps s hs, hkept s hs⟩

/-- Both readers of a document agree, and the runs of its spec are stored and read after its publication, exactly if
the document is compatible. -/
theorem readers_agree_iff {raw : PyEntries} {spec : PipelineSpec} (hjson : PyEntries.isJson raw = true)
    (hparse : parsePipeline (.dict raw) = .ok spec) :
    ReadersAgree raw spec ∧ RunsRead floatRepr raw spec ↔ Compatible raw := by
  obtain ⟨rawSteps, h⟩ := parsedRoot_of_parsePipeline hparse
  constructor
  · rintro ⟨hagree, hruns⟩
    exact compatible_of_reads hjson h hagree hruns
  · intro hcompatible
    exact ⟨readersAgree_of_compatible hjson h hcompatible, runsRead_of_compatible hjson h hcompatible⟩

def reviewDocument : PyEntries :=
  [(.str "id", .str "reviews"), (.str "version", .int 1), (.str "status", .str "active"),
    (.str "steps", .list [.dict [(.str "id", .str "review"), (.str "type", .str "agent.run")]])]

theorem reviewDocument_isJson : PyEntries.isJson reviewDocument = true := by
  decide +kernel

theorem reviewDocument_parsed : parsePipeline (.dict reviewDocument) = .ok (reviewSpec 1 .active version_one) := by
  rfl

theorem reviewDocument_compatible : Compatible reviewDocument where
  root :=
    { status := by simp [reviewDocument, PyEntries.get?, PyObj.isText]
      trigger := by simp [reviewDocument, PyEntries.get?, PyObj.isText]
      pipelineId := by simp [reviewDocument, getOrNone, PyEntries.get?, PyObj.isText, PyObj.truthy] }
  steps := by
    intro rawSteps hlist s hs
    cases hlist
    cases List.mem_singleton.mp hs
    refine ⟨?_, ?_⟩
    · refine { config := ?_, inputs := ?_, onStatus := ?_, nextStep := ?_, maxRetries := ?_ }
      · simp [PyEntries.get?, PyObj.isText]
      · simp [PyEntries.get?, PyObj.isText]
      · simp [PyEntries.get?, PyObj.isText]
      · simp [getOrNone, PyEntries.get?, PyObj.isText, PyObj.truthy]
      · exact ⟨.int 0, rfl, by decide +kernel⟩
    · exact { next := .inl rfl, when := .inl rfl }

/-- The plain document is read alike. -/
theorem reviewDocument_read : ReadersAgree reviewDocument (reviewSpec 1 .active version_one) ∧
      RunsRead (fun _ => "") reviewDocument (reviewSpec 1 .active version_one) :=
  (readers_agree_iff reviewDocument_isJson reviewDocument_parsed).mpr reviewDocument_compatible

def retriedDocument : PyEntries :=
  [(.str "id", .str "reviews"), (.str "version", .int 1), (.str "status", .str "active"),
    (.str "steps", .list [.dict [(.str "id", .str "review"), (.str "type", .str "agent.run"),
      (.str "retry", .dict [(.str "max_attempts", .int 3)])]])]

def readAlike (raw : PyEntries) : Bool :=
  match pipelineSpecFromDict raw, parsePipeline (.dict raw) with
  | .ok spec', .ok spec => spec'.eqv spec
  | _, _ => false

/-- The store does not read the attempts of a step. -/
theorem attempts_not_read : ¬∀ floatRepr raw spec, PyEntries.isJson raw = true → parsePipeline (.dict raw) = .ok spec →
      ReadersAgree raw spec ∧ RunsRead floatRepr raw spec := by
  intro h
  have hjson : PyEntries.isJson retriedDocument = true := by decide +kernel
  have hdiffer : readAlike retriedDocument = false := by decide +kernel
  have haccepted : (parsePipeline (.dict retriedDocument)).isOk = true := by decide +kernel
  unfold readAlike at hdiffer
  cases hparse : parsePipeline (.dict retriedDocument) with
  | error e =>
    rw [hparse] at haccepted
    cases haccepted
  | ok spec =>
    obtain ⟨spec', hfrom, heqv⟩ := (h (fun _ => "") retriedDocument spec hjson hparse).1
    rw [hfrom, hparse] at hdiffer
    change spec'.eqv spec = false at hdiffer
    rw [hdiffer] at heqv
    cases heqv

end Pipeline

end AllTomorrow
