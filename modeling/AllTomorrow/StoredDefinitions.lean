import AllTomorrow.PipelineDocuments
import AllTomorrow.PipelineRuntime

/-!
# Definitions of stored runs

A run is read with the document that its version holds. Once a run has been created, every
later call leaves that document describing the version and the steps the run was created
with, whatever statuses are set.
-/

namespace AllTomorrow

open EStateM (run_bind run_get run_modify)

namespace Pipeline

open EStateM RunStateStore

variable {floatRepr : PyFloat → String} {s t : RunStateStore} {key : SpecKey} {ids : List String}

/-! ## Documents -/

/-- Whatever its status, the document is read as a spec of this version with these steps. -/
def Describes (d : PyEntries) (key : SpecKey) (ids : List String) : Prop :=
  ∀ d' spec, d'.erase "status" = d.erase "status" → pipelineSpecFromDict d' = .ok spec →
    spec.key = key ∧ spec.stepIds = ids

theorem Describes.of_erase {d d' : PyEntries} (h : Describes d key ids) (herase : d'.erase "status" = d.erase "status") :
    Describes d' key ids := fun d'' spec herase' hspec => h d'' spec (herase'.trans herase) hspec

variable {spec : PipelineSpec}

theorem fromDict_status {d : PyEntries} (h : pipelineSpecFromDict d = .ok spec) :
    d.get? "status" = some (.str spec.status.value) := by
  rw [pipelineSpecFromDict] at h
  simp only [except_bind_ok, PipelineSpec.new_ok_iff, item_ok_iff] at h
  obtain ⟨_, _, _, _, _, _, _, _, status, hstatus, _, _, _, _, rfl, _⟩ := h
  exact hstatus

theorem describes_of_fromDict {d : PyEntries} (h : pipelineSpecFromDict d = .ok spec) :
    Describes d spec.key spec.stepIds := by
  intro d' spec' herase hspec'
  have hsame := pipelineSpecFromDict_withStatus h herase (fromDict_status hspec')
  rw [hspec', Except.ok.injEq] at hsame
  have hkey : spec'.key = (spec.withStatus spec'.status).key := congrArg PipelineSpec.key hsame
  have hids : spec'.stepIds = (spec.withStatus spec'.status).stepIds := congrArg PipelineSpec.stepIds hsame
  exact ⟨hkey, hids⟩

theorem id_of_copy {p r : PipelineStep} {o o' : PyObj} (ho : stepToDict p = .ok o) (hcopy : jsonCopy floatRepr o = .ok o')
    (hr : stepFromDict o' = .ok r) : r.id = p.id := by
  rw [stepToDict] at ho
  obtain ⟨when, _, ho⟩ := except_bind_ok.mp ho
  cases ho
  obtain ⟨fs, rfl, hfs⟩ := jsonCopy_dict_ok hcopy
  obtain ⟨id', hid, hget⟩ := get?_copy_of_some hfs rfl "id" rfl
  cases hid
  rw [stepFromDict, stepFromEntries] at hr
  simp only [except_bind_ok, PipelineStep.new_ok_iff, item_ok_iff, hget, Option.some.injEq] at hr
  obtain ⟨_, rfl, _, _, _, _, _, _, _, _, hstr, _⟩ := hr
  exact (PyObj.str.inj hstr).symm

theorem ids_of_copy {ps rs : List PipelineStep} {os os' : List PyObj} (hos : stepsToDict ps = .ok os)
    (hcopy : jsonCopyList floatRepr os = .ok os') (hrs : stepsFromDict os' = .ok rs) :
    rs.map PipelineStep.id = ps.map PipelineStep.id := by
  induction ps generalizing os os' rs with
  | nil =>
    cases hos
    cases hcopy
    cases hrs
    rfl
  | cons p ps ih =>
    rw [stepsToDict] at hos
    simp only [except_bind_ok] at hos
    obtain ⟨o, ho, os, hosRest, hos⟩ := hos
    cases hos
    rw [jsonCopyList] at hcopy
    simp only [except_bind_ok] at hcopy
    obtain ⟨o', ho', os', hcopyRest, hcopy⟩ := hcopy
    cases hcopy
    rw [stepsFromDict] at hrs
    simp only [except_bind_ok] at hrs
    obtain ⟨r, hr, rs, hrsRest, hrs⟩ := hrs
    cases hrs
    rw [List.map_cons, List.map_cons, id_of_copy ho ho' hr, ih hosRest hcopyRest hrsRest]

theorem PyNumber.toObj_injective {m n : PyNumber} (h : m.toObj = n.toObj) : m = n := by
  cases m <;> cases n <;> cases h <;> rfl

theorem jsonCopy_number {n : PyNumber} {o : PyObj} (h : jsonCopy floatRepr n.toObj = .ok o) : o = n.toObj := by
  cases n with
  | bool b =>
    cases h
    rfl
  | int n =>
    change jsonCopy floatRepr (.int n) = _ at h
    rw [jsonCopy] at h
    obtain ⟨_, _, ho⟩ := except_bind_ok.mp h
    cases ho
    rfl
  | float x =>
    cases h
    rfl

/-- A document that the store makes of a spec describes it. -/
theorem describes_payload {payload : PyEntries}
    (h : pipelineSpecToDict floatRepr spec = .ok payload) : Describes payload spec.key spec.stepIds := by
  intro d' spec' herase hspec'
  rw [pipelineSpecToDict] at h
  obtain ⟨os, hos, hcopy⟩ := except_bind_ok.mp h
  obtain ⟨id', hid', hid⟩ := get?_copy_of_some hcopy rfl "pipeline_id" rfl
  obtain ⟨version', hversion', hversion⟩ := get?_copy_of_some hcopy rfl "version" rfl
  obtain ⟨steps', hsteps', hsteps⟩ := get?_copy_of_some hcopy rfl "steps" rfl
  cases hid'
  rw [jsonCopy_number hversion'] at hversion
  obtain ⟨os', rfl, hcopyList⟩ := jsonCopy_list_ok hsteps'
  rw [← get?_of_erase_eq herase (by decide)] at hid hversion hsteps
  have hne : spec.pipelineId ≠ "" := ne_empty_of_text spec.pipelineId_text
  have hname : orElse (.str spec.pipelineId) ((d'.get? "id").getD (.str "")) = .str spec.pipelineId := by
    rw [orElse, if_pos]
    simpa [PyObj.truthy] using hne
  rw [pipelineSpecFromDict] at hspec'
  simp only [except_bind_ok, PipelineSpec.new_ok_iff, item_ok_iff, getOrNone, hid, hversion, hsteps, Option.some.injEq,
    Option.getD_some, hname] at hspec'
  obtain ⟨_, rfl, xs, hxs, steps, hread, _, rfl, _, _, _, _, hidEq, hversionEq, _, rfl, _⟩ := hspec'
  cases hxs
  refine ⟨?_, ids_of_copy hos hcopyList hread⟩
  rw [PipelineSpec.key, PipelineSpec.key, PyObj.str.inj hidEq, PyNumber.toObj_injective hversionEq]

theorem PipelineSpec.sameDefinition_key {a b : PipelineSpec} (h : a.sameDefinition b = true) :
    a.key = b.key ∧ a.stepIds = b.stepIds := by
  obtain ⟨hid, hversion, _, _, _, hsteps⟩ := PipelineSpec.sameDefinition_iff.mp h
  have hids : ∀ {as bs : List PipelineStep}, stepsEqv as bs = true →
      as.map PipelineStep.id = bs.map PipelineStep.id := by
    intro as
    induction as with
    | nil =>
      intro bs hsteps
      cases bs with
      | nil => rfl
      | cons b bs => cases hsteps
    | cons a as ih =>
      intro bs hsteps
      cases bs with
      | nil => cases hsteps
      | cons b bs =>
        rw [stepsEqv_cons_iff] at hsteps
        rw [List.map_cons, List.map_cons, (PipelineStep.eqv_iff.mp hsteps.1).1, ih hsteps.2]
  refine ⟨?_, hids hsteps⟩
  rw [PipelineSpec.key, PipelineSpec.key, hid, (PyFloat.eqv_iff.mp hversion).2]

/-! ## Versions that hold one -/

def Held (s : RunStateStore) (key : SpecKey) (ids : List String) : Prop :=
  ∃ ref, s.specs.get? key = some ref ∧ s.document ref ≠ [] ∧ Describes (s.document ref) key ids

theorem lt_of_document_ne {ref : ℕ} (h : s.document ref ≠ []) : ref < s.documents.length := by
  by_contra hge
  refine h ?_
  rw [document, List.getD_eq_getElem?_getD, List.getElem?_eq_none (Nat.le_of_not_lt hge), Option.getD_none]

theorem Held.of_same (h : Held s key ids) (hspecs : t.specs = s.specs) (hdocuments : t.documents = s.documents) :
    Held t key ids := by
  rw [Held, hspecs]
  unfold document
  rw [hdocuments]
  exact h

theorem Held.of_statuses (h : Held s key ids) (hspecs : t.specs = s.specs)
    (hne : ∀ ref, s.document ref ≠ [] → t.document ref ≠ [])
    (herase : ∀ ref, (t.document ref).erase "status" = (s.document ref).erase "status") : Held t key ids := by
  obtain ⟨ref, href, hdocument, hdescribes⟩ := h
  exact ⟨ref, by rw [hspecs, href], hne ref hdocument, hdescribes.of_erase (herase ref)⟩

theorem set_ne_nil (es : PyEntries) (name : String) (v : PyObj) : es.set name v ≠ [] := by
  cases es with
  | nil => exact List.cons_ne_nil _ _
  | cons e es =>
    rw [PyEntries.set]
    split
    · exact List.cons_ne_nil _ _
    · exact List.cons_ne_nil _ _

theorem document_setStatus_ne {ref other : ℕ} (status : String) (h : s.document other ≠ []) :
    (s.setStatus ref status).document other ≠ [] := by
  by_cases heq : other = ref
  · subst heq
    rw [document_setStatus_self status (lt_of_document_ne h)]
    exact set_ne_nil _ _ _
  · rw [document_setStatus_of_ne status heq]
    exact h

theorem held_setStatus (h : Held s key ids) (ref : ℕ) (status : String) : Held (s.setStatus ref status) key ids :=
  h.of_statuses rfl (fun _ hne => document_setStatus_ne status hne) fun other => erase_document_setStatus ref other status

theorem held_retire (h : Held s key ids) (spec : PipelineSpec) (entry : SpecKey × ℕ) :
    Held (retire spec s entry) key ids := by
  unfold retire
  split
  · exact held_setStatus h entry.2 "retired"
  · exact h

theorem held_activate (h : Held s key ids) (spec : PipelineSpec) : Held (activate spec s) key ids := by
  have hretired : ∀ (es : List (SpecKey × ℕ)) {s : RunStateStore}, Held s key ids →
      Held (es.foldl (retire spec) s) key ids := by
    intro es
    induction es with
    | nil => exact fun h => h
    | cons e es ih => exact fun h => ih (held_retire h spec e)
  unfold activate
  split
  · exact held_setStatus (hretired _ h) _ "active"
  · exact hretired _ h

theorem held_ensureSpec (h : Held s key ids) (spec : PipelineSpec) (raw : Option ℕ) (payload : PyEntries) :
    Held ((ensureSpec spec raw payload).run s).state key ids := by
  rcases run_ensureSpec_cases spec raw payload s with ⟨e, hrun⟩ | ⟨hrun, _⟩ | ⟨hrun, hnew⟩
  · rw [hrun]
    exact h
  · rw [hrun]
    exact h
  · rw [hrun]
    obtain ⟨ref, href, hdocument, hdescribes⟩ := h
    have hne : key ≠ spec.key := by
      rintro rfl
      rw [hnew] at href
      cases href
    have hsame : (s.withSpec spec.key raw payload).document ref = s.document ref :=
      document_withSpec_of_lt spec.key (lt_of_document_ne hdocument)
    refine ⟨ref, ?_, ?_, ?_⟩
    · rw [Result.state_ok, withSpec_specs, InsertionDict.get?_set_of_ne _ _ hne, href]
    · rw [Result.state_ok, hsame]
      exact hdocument
    · rw [Result.state_ok, hsame]
      exact hdescribes

theorem held_savePipeline (h : Held s key ids) (spec : PipelineSpec) (raw : Option ℕ) :
    Held ((savePipeline floatRepr spec raw).run s).state key ids := by
  rw [run_savePipeline]
  cases payloadOf floatRepr s spec raw with
  | error e => exact h
  | ok payload => exact held_ensureSpec h spec raw payload

theorem held_publishPipeline (h : Held s key ids) (spec : PipelineSpec) (raw : Option ℕ) :
    Held ((publishPipeline floatRepr spec raw).run s).state key ids := by
  have hsave : Held ((savePipeline floatRepr spec raw).run s).state key ids := held_savePipeline h spec raw
  rw [run_publishPipeline]
  cases hrun : (savePipeline floatRepr spec raw).run s with
  | error e t =>
    rw [hrun] at hsave
    exact hsave
  | ok _ t =>
    rw [hrun] at hsave
    dsimp only
    split
    · exact held_activate hsave spec
    · exact hsave

/-- The part of a call that checks or stores the payload leaves the version with a document that describes it. -/
theorem held_of_ensureSpec {payload : PyEntries} (hpayload : pipelineSpecToDict floatRepr spec = .ok payload)
    (hrun : (ensureSpec spec none payload).run s = .ok () t) : Held t spec.key spec.stepIds := by
  have hraw : payloadOf floatRepr s spec none = .ok payload := hpayload
  obtain ⟨d, hd, hcases⟩ := spec?_of_ensureSpec hraw hrun
  obtain ⟨ref, href, rfl⟩ := Option.map_eq_some_iff.mp hd
  refine ⟨ref, href, ?_⟩
  rcases hcases with heq | hequal
  · rw [heq]
    refine ⟨?_, describes_payload hpayload⟩
    rintro rfl
    rw [pipelineSpecToDict] at hpayload
    obtain ⟨os, _, hcopy⟩ := except_bind_ok.mp hpayload
    obtain ⟨_, _, hget⟩ := get?_copy_of_some hcopy rfl "status" rfl
    cases hget
  · obtain ⟨read, hread, stored, hstored, hsame⟩ := specsEqual_true_iff.mp hequal
    refine ⟨?_, ?_⟩
    · intro hempty
      rw [hempty] at hstored
      exact pipelineSpecFromDict_nil ⟨stored, hstored⟩
    · obtain ⟨hkey, hids⟩ := PipelineSpec.sameDefinition_key hsame
      obtain ⟨hkey', hids'⟩ := describes_payload hpayload payload read rfl hread
      have hdescribes := describes_of_fromDict hstored
      rwa [hkey, hids, hkey', hids'] at hdescribes

/-- A run is created after its spec was checked or stored. -/
theorem held_createRun (h : Held s key ids) (run : RunRecord) : Held ((createRun floatRepr run).run s).state key ids := by
  rw [createRun, run_bind, run_get]
  simp only
  split
  · exact h
  · simp only [run_bind]
    cases payloadOf floatRepr s run.spec none with
    | error e =>
      simp only [run_ofExcept_error]
      exact h
    | ok payload =>
      simp only [run_ofExcept_ok]
      have hensured := held_ensureSpec h run.spec none payload
      cases hensure : (ensureSpec run.spec none payload).run s with
      | error e t =>
        rw [hensure] at hensured
        exact hensured
      | ok _ t =>
        rw [hensure] at hensured
        cases runRecordToDict floatRepr run with
        | error e =>
          simp only [run_ofExcept_error]
          exact hensured
        | ok data =>
          simp only [run_ofExcept_ok, run_modify]
          exact hensured.of_same rfl rfl

theorem held_of_createRun {run : RunRecord} (hrun : (createRun floatRepr run).run s = .ok () t) :
    Held t run.spec.key run.spec.stepIds := by
  rw [createRun, run_bind, run_get] at hrun
  simp only at hrun
  split at hrun
  · cases hrun
  · simp only [run_bind] at hrun
    cases hpayload : payloadOf floatRepr s run.spec none with
    | error e =>
      simp only [hpayload, run_ofExcept_error] at hrun
      cases hrun
    | ok payload =>
      simp only [hpayload, run_ofExcept_ok] at hrun
      cases hensure : (ensureSpec run.spec none payload).run s with
      | error e t =>
        simp only [hensure] at hrun
        cases hrun
      | ok _ t =>
        simp only [hensure] at hrun
        cases hdata : runRecordToDict floatRepr run with
        | error e =>
          simp only [hdata, run_ofExcept_error] at hrun
          cases hrun
        | ok data =>
          simp only [hdata, run_ofExcept_ok, run_modify] at hrun
          cases hrun
          exact (held_of_ensureSpec hpayload hensure).of_same rfl rfl

theorem Held.read (h : Held s key ids) : (∃ e, specFromData (s.spec? key) = .error e) ∨
      ∃ spec, specFromData (s.spec? key) = .ok (some spec) ∧ spec.key = key ∧ spec.stepIds = ids := by
  obtain ⟨ref, href, hne, hdescribes⟩ := h
  have hd : s.spec? key = some (s.document ref) := by rw [spec?, href, Option.map_some]
  rw [hd]
  cases hspec : pipelineSpecFromDict (s.document ref) with
  | ok spec =>
    exact .inr ⟨spec, specFromData_ok hspec, hdescribes _ spec rfl hspec⟩
  | error e =>
    refine .inl ⟨e, ?_⟩
    rw [specFromData, hspec]
    · rfl
    · exact hne

end Pipeline

end AllTomorrow
