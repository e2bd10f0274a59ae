import AllTomorrow.RunStateStore
import AllTomorrow.SnapshotRoundTrip
import AllTomorrow.MachineRuns

/-!
# Stored pipeline versions

What `save_pipeline`, `publish_pipeline` and `create_run` do to the stored definitions: each
of them stores at most one new document, and a publication may change the status of stored
ones. Along every run the rest of a definition stays as it was first stored; that only one
version of a pipeline is active takes a condition on what is stored.
-/

namespace AllTomorrow

open InsertionDict (get?_set get?_set_of_ne get?_set_self)
open EStateM (run_bind run_get run_modify run_pure)

namespace Pipeline

open EStateM
open MachineRuns (EveryStep everyStep_cons everyStep_nil everyStep_append_left everyStep_append_right run_append)

variable {floatRepr : PyFloat → String} {s t : RunStateStore} {spec : PipelineSpec} {raw : Option ℕ}

namespace RunStateStore

def Active (s : RunStateStore) (key : SpecKey) : Prop :=
  ∃ ref, s.specs.get? key = some ref ∧ isActive (s.document ref) = true

/-- A pipeline has one active version at most. -/
def ActiveOnce (s : RunStateStore) : Prop :=
  ∀ pipelineId version version', s.Active (pipelineId, version) → s.Active (pipelineId, version') → version = version'

/-- Every stored spec is still there, up to its status. -/
def Keeps (s t : RunStateStore) : Prop :=
  ∀ key d, s.spec? key = some d → ∃ d', t.spec? key = some d' ∧ d'.erase "status" = d.erase "status"

structure Separate (s : RunStateStore) : Prop where
  unshared : ∀ key key' ref, s.specs.get? key = some ref → s.specs.get? key' = some ref → key = key'
  stored : ∀ key ref, s.specs.get? key = some ref → ref < s.documents.length

theorem Keeps.refl (s : RunStateStore) : s.Keeps s := fun _ d hd => ⟨d, hd, rfl⟩

theorem Keeps.trans {u : RunStateStore} (hst : s.Keeps t) (htu : t.Keeps u) : s.Keeps u := by
  intro key d hd
  obtain ⟨d', hd', hsame⟩ := hst key d hd
  obtain ⟨d'', hd'', hsame'⟩ := htu key d' hd'
  exact ⟨d'', hd'', hsame'.trans hsame⟩

theorem keeps_of_documents (hspecs : t.specs = s.specs)
    (hdocuments : ∀ ref, (t.document ref).erase "status" = (s.document ref).erase "status") : s.Keeps t := by
  intro key d hd
  obtain ⟨ref, href, rfl⟩ := Option.map_eq_some_iff.mp hd
  exact ⟨t.document ref, by rw [spec?, hspecs, href, Option.map_some], hdocuments ref⟩

theorem Separate.of_same (h : s.Separate) (hspecs : t.specs = s.specs)
    (hlength : t.documents.length = s.documents.length) : t.Separate where
  unshared := by
    rw [hspecs]
    exact h.unshared
  stored := by
    rw [hspecs, hlength]
    exact h.stored

/-! ## Setting a status -/

theorem setStatus_specs (ref : ℕ) (status : String) : (s.setStatus ref status).specs = s.specs := rfl

theorem setStatus_length (ref : ℕ) (status : String) : (s.setStatus ref status).documents.length = s.documents.length := by
  simp [setStatus]

theorem document_setStatus_of_ne {ref other : ℕ} (status : String) (h : other ≠ ref) :
    (s.setStatus ref status).document other = s.document other := by
  simp [setStatus, document, List.getD_eq_getElem?_getD, Ne.symm h]

theorem document_setStatus_self {ref : ℕ} (status : String) (h : ref < s.documents.length) :
    (s.setStatus ref status).document ref = PyEntries.set (s.document ref) "status" (.str status) := by
  simp [setStatus, document, List.getD_eq_getElem?_getD, h]

theorem erase_document_setStatus (ref other : ℕ) (status : String) :
    ((s.setStatus ref status).document other).erase "status" = (s.document other).erase "status" := by
  by_cases hother : other = ref
  · subst hother
    by_cases hlt : other < s.documents.length
    · rw [document_setStatus_self status hlt, PyEntries.erase_set_self]
    · have hout : s.documents[other]? = none := List.getElem?_eq_none (Nat.le_of_not_lt hlt)
      simp [setStatus, document, List.getD_eq_getElem?_getD, hout]
  · rw [document_setStatus_of_ne status hother]

theorem isActive_set_iff (d : PyEntries) (status : String) :
    isActive (d.set "status" (.str status)) = true ↔ status = "active" := by
  rw [isActive, getOrNone, PyEntries.get?_set_self]
  simp [PyObj.eqv]

end RunStateStore

open RunStateStore

/-! ## Publication -/

section Retire

theorem retire_specs (entry : SpecKey × ℕ) : (retire spec s entry).specs = s.specs := by
  unfold retire
  split <;> rfl

theorem retire_length (entry : SpecKey × ℕ) : (retire spec s entry).documents.length = s.documents.length := by
  unfold retire
  split
  · exact setStatus_length entry.2 "retired"
  · rfl

theorem erase_document_retire (entry : SpecKey × ℕ) (ref : ℕ) :
    ((retire spec s entry).document ref).erase "status" = (s.document ref).erase "status" := by
  unfold retire
  split
  · exact erase_document_setStatus entry.2 ref "retired"
  · rfl

variable {ref : ℕ}

theorem retire_inactive (entry : SpecKey × ℕ) (h : isActive (s.document ref) = false) :
    isActive ((retire spec s entry).document ref) = false := by
  unfold retire
  split
  · rename_i hcondition
    by_cases href : ref = entry.2
    · subst href
      rw [h] at hcondition
      exact absurd hcondition.2.2 Bool.false_ne_true
    · rw [document_setStatus_of_ne "retired" href, h]
  · exact h

def Retired (spec : PipelineSpec) (key : SpecKey) : Prop := key.1 = spec.pipelineId ∧ key.2 ≠ spec.version.value

variable {entry : SpecKey × ℕ}

theorem retire_self (hkey : Retired spec entry.1) (href : entry.2 < s.documents.length) :
    isActive ((retire spec s entry).document entry.2) = false := by
  unfold retire
  split
  · rw [document_setStatus_self "retired" href]
    rw [Bool.eq_false_iff]
    intro hactive
    exact absurd ((isActive_set_iff _ _).mp hactive) (by decide)
  · rename_i hcondition
    rw [Bool.eq_false_iff]
    exact fun hactive => hcondition ⟨hkey.1, hkey.2, hactive⟩

theorem document_retire_of_not (h : Retired spec entry.1 → entry.2 ≠ ref) :
    (retire spec s entry).document ref = s.document ref := by
  unfold retire
  split
  · rename_i hcondition
    exact document_setStatus_of_ne "retired" (h ⟨hcondition.1, hcondition.2.1⟩).symm
  · rfl

theorem foldl_retire_specs (es : List (SpecKey × ℕ)) : (es.foldl (retire spec) s).specs = s.specs := by
  induction es generalizing s with
  | nil => rfl
  | cons e es ih => rw [List.foldl_cons, ih, retire_specs]

theorem foldl_retire_length (es : List (SpecKey × ℕ)) :
    (es.foldl (retire spec) s).documents.length = s.documents.length := by
  induction es generalizing s with
  | nil => rfl
  | cons e es ih => rw [List.foldl_cons, ih, retire_length]

theorem erase_document_foldl_retire (es : List (SpecKey × ℕ)) (ref : ℕ) :
    ((es.foldl (retire spec) s).document ref).erase "status" = (s.document ref).erase "status" := by
  induction es generalizing s with
  | nil => rfl
  | cons e es ih => rw [List.foldl_cons, ih, erase_document_retire]

theorem foldl_retire_inactive (es : List (SpecKey × ℕ)) (h : isActive (s.document ref) = false) :
    isActive ((es.foldl (retire spec) s).document ref) = false := by
  induction es generalizing s with
  | nil => exact h
  | cons e es ih => exact ih (retire_inactive e h)

variable {es : List (SpecKey × ℕ)}

theorem foldl_retire_mem (hentry : entry ∈ es) (hkey : Retired spec entry.1) (href : entry.2 < s.documents.length) :
    isActive ((es.foldl (retire spec) s).document entry.2) = false := by
  induction es generalizing s with
  | nil => cases hentry
  | cons e es ih =>
    rw [List.foldl_cons]
    rcases List.mem_cons.mp hentry with rfl | hentry
    · exact foldl_retire_inactive es (retire_self hkey href)
    · refine ih hentry ?_
      rwa [retire_length]

theorem document_foldl_retire_of_not (h : ∀ entry ∈ es, Retired spec entry.1 → entry.2 ≠ ref) :
    (es.foldl (retire spec) s).document ref = s.document ref := by
  induction es generalizing s with
  | nil => rfl
  | cons e es ih =>
    rw [List.foldl_cons, ih fun entry hentry => h entry (List.mem_cons_of_mem e hentry)]
    exact document_retire_of_not (h e List.mem_cons_self)

end Retire

theorem activate_specs : (activate spec s).specs = s.specs := by
  unfold activate
  split
  · rw [setStatus_specs, foldl_retire_specs]
  · exact foldl_retire_specs _

theorem activate_length : (activate spec s).documents.length = s.documents.length := by
  unfold activate
  split
  · rw [setStatus_length, foldl_retire_length]
  · exact foldl_retire_length _

theorem keeps_activate : s.Keeps (activate spec s) := by
  refine keeps_of_documents activate_specs ?_
  intro ref
  unfold activate
  split
  · rw [erase_document_setStatus, erase_document_foldl_retire]
  · exact erase_document_foldl_retire _ ref

/-- After a publication the published version is the only active one of its pipeline, and the other pipelines are as
they were. -/
theorem activeOnce_activate (hseparate : s.Separate)
    (honce : ∀ pipelineId version version', pipelineId ≠ spec.pipelineId → s.Active (pipelineId, version) →
      s.Active (pipelineId, version') → version = version')
    {ref : ℕ} (hstored : s.specs.get? spec.key = some ref) : (activate spec s).ActiveOnce := by
  have hunfold : activate spec s = (s.specs.entries.foldl (retire spec) s).setStatus ref "active" := by
    rw [activate, hstored]
  have hretired : ∀ version, version ≠ spec.version.value → ¬(activate spec s).Active (spec.pipelineId, version) := by
    rintro version hversion ⟨other, hother, hactive⟩
    rw [activate_specs] at hother
    have hne : other ≠ ref := by
      rintro rfl
      have hkey := hseparate.unshared _ _ _ hother hstored
      exact hversion (Prod.mk.inj hkey).2
    rw [hunfold, document_setStatus_of_ne "active" hne] at hactive
    have hentry := InsertionDict.mem_entries_of_get? hother
    have hinactive := foldl_retire_mem (s := s) hentry ⟨rfl, hversion⟩ (hseparate.stored _ _ hother)
    rw [hinactive] at hactive
    exact Bool.false_ne_true hactive
  intro pipelineId version version' hactive hactive'
  by_cases hpipeline : pipelineId = spec.pipelineId
  · subst hpipeline
    by_contra hne
    by_cases hversion : version = spec.version.value
    · subst hversion
      exact hretired version' (Ne.symm hne) hactive'
    · exact hretired version hversion hactive
  · -- a version of another pipeline holds none of the documents that have changed
    have hother : ∀ version, (activate spec s).Active (pipelineId, version) → s.Active (pipelineId, version) := by
      rintro version ⟨other, hother, hactive⟩
      rw [activate_specs] at hother
      refine ⟨other, hother, ?_⟩
      have hne : other ≠ ref := by
        rintro rfl
        exact hpipeline (Prod.mk.inj (hseparate.unshared _ _ _ hother hstored)).1
      rw [hunfold, document_setStatus_of_ne "active" hne] at hactive
      rw [← hactive, document_foldl_retire_of_not]
      rintro ⟨key, ref'⟩ hentry hkey rfl
      have hget := InsertionDict.get?_of_mem_entries hentry
      have hsame := hseparate.unshared _ _ _ hother hget
      rw [← hsame] at hkey
      exact hpipeline hkey.1
    exact honce pipelineId version version' hpipeline (hother version hactive) (hother version' hactive')

/-! ## Storing a document -/

section Insert

variable {payload : PyEntries}

def newRef (s : RunStateStore) (raw : Option ℕ) : ℕ := raw.getD s.documents.length

variable (key : SpecKey)

theorem withSpec_specs : (s.withSpec key raw payload).specs = s.specs.set key (newRef s raw) := by
  cases raw <;> rfl

theorem document_withSpec_of_lt {ref : ℕ} (h : ref < s.documents.length) :
    (s.withSpec key raw payload).document ref = s.document ref := by
  cases raw with
  | some _ => rfl
  | none => simp [withSpec, document, List.getD_eq_getElem?_getD, List.getElem?_append_left h]

theorem length_le_withSpec : s.documents.length ≤ (s.withSpec key raw payload).documents.length := by
  cases raw with
  | some _ => exact Nat.le_refl _
  | none => simp [withSpec]

theorem document_newRef (hpayload : payloadOf floatRepr s spec raw = .ok payload) :
    (s.withSpec spec.key raw payload).document (newRef s raw) = payload := by
  cases raw with
  | some ref =>
    cases hpayload
    rfl
  | none => simp [withSpec, document, newRef, List.getD_eq_getElem?_getD]

/-- A raw document exists, and is new to the store if it will be stored. -/
def FreshDocument (s : RunStateStore) (spec : PipelineSpec) (raw : Option ℕ) : Prop :=
  ∀ ref, raw = some ref → ref < s.documents.length ∧ (s.specs.get? spec.key = none → ∀ key, s.specs.get? key ≠ some ref)

theorem newRef_unstored (hseparate : s.Separate) (hnew : s.specs.get? spec.key = none)
    (hfresh : FreshDocument s spec raw) (key : SpecKey) : s.specs.get? key ≠ some (newRef s raw) := by
  cases raw with
  | some ref => exact (hfresh ref rfl).2 hnew key
  | none =>
    intro hstored
    exact absurd (hseparate.stored key _ hstored) (Nat.lt_irrefl _)

theorem newRef_lt (hfresh : FreshDocument s spec raw) :
    newRef s raw < (s.withSpec spec.key raw payload).documents.length := by
  cases raw with
  | some ref => exact (hfresh ref rfl).1
  | none => simp [withSpec, newRef]

theorem separate_withSpec (hseparate : s.Separate) (hnew : s.specs.get? spec.key = none)
    (hfresh : FreshDocument s spec raw) : (s.withSpec spec.key raw payload).Separate where
  unshared := by
    intro key key' ref hkey hkey'
    rw [withSpec_specs] at hkey hkey'
    have hunstored := newRef_unstored hseparate hnew hfresh
    rw [get?_set] at hkey hkey'
    split at hkey
    · rename_i heq
      cases hkey
      split at hkey'
      · rename_i heq'
        rw [heq, heq']
      · exact absurd hkey' (hunstored key')
    · split at hkey'
      · cases hkey'
        exact absurd hkey (hunstored key)
      · exact hseparate.unshared key key' ref hkey hkey'
  stored := by
    intro key ref hkey
    rw [withSpec_specs, get?_set] at hkey
    split at hkey
    · cases hkey
      exact newRef_lt hfresh
    · exact (hseparate.stored key ref hkey).trans_le (length_le_withSpec spec.key)

theorem keeps_withSpec (hseparate : s.Separate) (hnew : s.specs.get? spec.key = none) :
    s.Keeps (s.withSpec spec.key raw payload) := by
  intro key d hd
  obtain ⟨ref, href, rfl⟩ := Option.map_eq_some_iff.mp hd
  have hne : key ≠ spec.key := by
    rintro rfl
    rw [hnew] at href
    cases href
  refine ⟨s.document ref, ?_, rfl⟩
  rw [spec?, withSpec_specs, get?_set_of_ne _ _ hne, href, Option.map_some,
    document_withSpec_of_lt spec.key (hseparate.stored key ref href)]

theorem active_withSpec_of_ne (hseparate : s.Separate) {key : SpecKey} (hne : key ≠ spec.key) :
    (s.withSpec spec.key raw payload).Active key ↔ s.Active key := by
  unfold Active
  rw [withSpec_specs, get?_set_of_ne _ _ hne]
  refine exists_congr fun ref => and_congr_right fun href => ?_
  rw [document_withSpec_of_lt spec.key (hseparate.stored key ref href)]

theorem activeOnce_withSpec (hseparate : s.Separate) (honce : s.ActiveOnce)
    (hpayload : payloadOf floatRepr s spec raw = .ok payload)
    (hrival : isActive payload = true → ∀ version, ¬s.Active (spec.pipelineId, version)) :
    (s.withSpec spec.key raw payload).ActiveOnce := by
  -- a second active version beside the new one would have been active before
  have hnone : ∀ version, version ≠ spec.version.value → (s.withSpec spec.key raw payload).Active spec.key →
      ¬(s.withSpec spec.key raw payload).Active (spec.pipelineId, version) := by
    rintro version hversion ⟨ref, href, hactive⟩ hother
    rw [withSpec_specs, get?_set_self, Option.some.injEq] at href
    rw [← href, document_newRef hpayload] at hactive
    have hne : (spec.pipelineId, version) ≠ spec.key := fun heq => hversion (Prod.mk.inj heq).2
    exact hrival hactive version ((active_withSpec_of_ne hseparate hne).mp hother)
  intro pipelineId version version' hactive hactive'
  by_contra hne
  by_cases hkey : (pipelineId, version) = spec.key
  · obtain ⟨rfl, rfl⟩ := Prod.mk.inj hkey
    exact hnone version' (Ne.symm hne) hactive hactive'
  · by_cases hkey' : (pipelineId, version') = spec.key
    · obtain ⟨rfl, rfl⟩ := Prod.mk.inj hkey'
      exact hnone version hne hactive' hactive
    · exact hne (honce pipelineId version version' ((active_withSpec_of_ne hseparate hkey).mp hactive)
        ((active_withSpec_of_ne hseparate hkey').mp hactive'))

/-- The exits of the common part of the three calls. -/
theorem run_ensureSpec_cases (spec : PipelineSpec) (raw : Option ℕ) (payload : PyEntries) (s : RunStateStore) :
    (∃ e, (ensureSpec spec raw payload).run s = .error e s) ∨
      ((ensureSpec spec raw payload).run s = .ok () s ∧ ∃ ref, s.specs.get? spec.key = some ref) ∨
      ((ensureSpec spec raw payload).run s = .ok () (s.withSpec spec.key raw payload) ∧ s.specs.get? spec.key = none) := by
  rw [ensureSpec, run_bind, run_get]
  cases hstored : s.specs.get? spec.key with
  | none =>
    have hnone : s.spec? spec.key = none := by rw [spec?, hstored, Option.map_none]
    refine .inr (.inr ⟨?_, rfl⟩)
    simp only [hnone, run_modify]
  | some ref =>
    have hsome : s.spec? spec.key = some (s.document ref) := by rw [spec?, hstored, Option.map_some]
    cases hequal : specsEqual (s.document ref) payload with
    | error e =>
      refine .inl ⟨e, ?_⟩
      simp only [hsome, hequal, run_bind, run_ofExcept_error]
    | ok same =>
      cases same with
      | false =>
        refine .inl ⟨conflictingSpec spec, ?_⟩
        simp only [hsome, hequal, run_bind, run_ofExcept_ok, Bool.not_false, if_true, run_throw_any]
      | true =>
        refine .inr (.inl ⟨?_, ref, rfl⟩)
        simp only [hsome, hequal, run_bind, run_ofExcept_ok, Bool.not_true, Bool.false_eq_true, if_false,
          run_pure]

end Insert

/-! ## Calls -/

inductive SpecCall where
  | savePipeline (spec : PipelineSpec) (raw : Option ℕ)
  | publishPipeline (spec : PipelineSpec) (raw : Option ℕ)
  | createRun (run : RunRecord)

def SpecCall.exec (floatRepr : PyFloat → String) : SpecCall → RunStoreM Unit
  | .savePipeline spec raw => Pipeline.savePipeline floatRepr spec raw
  | .publishPipeline spec raw => Pipeline.publishPipeline floatRepr spec raw
  | .createRun run => Pipeline.createRun floatRepr run

def specStep (floatRepr : PyFloat → String) (s : RunStateStore) (c : SpecCall) : RunStateStore :=
  ((c.exec floatRepr).run s).state

/-- If the call stores an active document, no version of the pipeline is active. -/
def NoRival (floatRepr : PyFloat → String) (s : RunStateStore) (spec : PipelineSpec) (raw : Option ℕ) : Prop :=
  s.specs.get? spec.key = none → ∀ payload, payloadOf floatRepr s spec raw = .ok payload → isActive payload = true →
    ∀ version, ¬s.Active (spec.pipelineId, version)

/-- Raw documents are stored once, and an active one is stored by the publication of an active spec, or has no
rival. -/
def SpecCall.Orderly (floatRepr : PyFloat → String) (s : RunStateStore) : SpecCall → Prop
  | .savePipeline spec raw => FreshDocument s spec raw ∧ NoRival floatRepr s spec raw
  | .publishPipeline spec raw => FreshDocument s spec raw ∧ (spec.status = .active ∨ NoRival floatRepr s spec raw)
  | .createRun run => NoRival floatRepr s run.spec none

structure Versions (s : RunStateStore) : Prop where
  separate : s.Separate
  once : s.ActiveOnce

theorem Versions.of_same (h : Versions s) (hspecs : t.specs = s.specs) (hdocuments : t.documents = s.documents) :
    Versions t where
  separate := h.separate.of_same hspecs (by rw [hdocuments])
  once := by
    intro pipelineId version version' hactive hactive'
    have hsame : ∀ key, t.Active key → s.Active key := by
      rintro key ⟨ref, href, hdocument⟩
      rw [hspecs] at href
      rw [document, hdocuments] at hdocument
      exact ⟨ref, href, hdocument⟩
    exact h.once pipelineId version version' (hsame _ hactive) (hsame _ hactive')

theorem keeps_of_same (hspecs : t.specs = s.specs) (hdocuments : t.documents = s.documents) : s.Keeps t := by
  refine keeps_of_documents hspecs ?_
  intro ref
  rw [document, document, hdocuments]

theorem versions_ensureSpec (h : Versions s) {payload : PyEntries}
    (hpayload : payloadOf floatRepr s spec raw = .ok payload) (hfresh : FreshDocument s spec raw)
    (hrival : NoRival floatRepr s spec raw) : Versions ((ensureSpec spec raw payload).run s).state := by
  rcases run_ensureSpec_cases spec raw payload s with ⟨e, hrun⟩ | ⟨hrun, _⟩ | ⟨hrun, hnew⟩
  · rw [hrun]
    exact h
  · rw [hrun]
    exact h
  · rw [hrun]
    exact
      { separate := separate_withSpec h.separate hnew hfresh
        once := activeOnce_withSpec h.separate h.once hpayload (hrival hnew payload hpayload) }

structure Ensured (s t : RunStateStore) (spec : PipelineSpec) : Prop where
  separate : t.Separate
  keeps : s.Keeps t
  stored : ∃ ref, t.specs.get? spec.key = some ref
  active : ∀ pipelineId version, pipelineId ≠ spec.pipelineId → t.Active (pipelineId, version) →
    s.Active (pipelineId, version)

theorem ensured_of_ok (h : s.Separate) {payload : PyEntries} (hfresh : FreshDocument s spec raw)
    (hrun : (ensureSpec spec raw payload).run s = .ok () t) : Ensured s t spec := by
  rcases run_ensureSpec_cases spec raw payload s with ⟨e, hrun'⟩ | ⟨hrun', hstored⟩ | ⟨hrun', hnew⟩
  · rw [hrun'] at hrun
    cases hrun
  · rw [hrun'] at hrun
    cases hrun
    exact { separate := h, keeps := Keeps.refl s, stored := hstored, active := fun _ _ _ hactive => hactive }
  · rw [hrun'] at hrun
    cases hrun
    refine
      { separate := separate_withSpec h hnew hfresh
        keeps := keeps_withSpec h hnew
        stored := ⟨newRef s raw, by rw [withSpec_specs, get?_set_self]⟩
        active := ?_ }
    intro pipelineId version hne hactive
    have hkey : (pipelineId, version) ≠ spec.key := fun heq => hne (Prod.mk.inj heq).1
    exact (active_withSpec_of_ne h hkey).mp hactive

theorem keeps_ensureSpec (h : s.Separate) (spec : PipelineSpec) (raw : Option ℕ) (payload : PyEntries) :
    s.Keeps ((ensureSpec spec raw payload).run s).state := by
  rcases run_ensureSpec_cases spec raw payload s with ⟨e, hrun⟩ | ⟨hrun, _⟩ | ⟨hrun, hnew⟩
  · rw [hrun]
    exact Keeps.refl s
  · rw [hrun]
    exact Keeps.refl s
  · rw [hrun]
    exact keeps_withSpec h hnew

/-! ### One call -/

theorem run_savePipeline (spec : PipelineSpec) (raw : Option ℕ) (s : RunStateStore) :
    (savePipeline floatRepr spec raw).run s =
      match payloadOf floatRepr s spec raw with
      | .error e => .error e s
      | .ok payload => (ensureSpec spec raw payload).run s := by
  rw [savePipeline, run_bind, run_get]
  simp only [run_bind]
  cases payloadOf floatRepr s spec raw with
  | error e => simp only [run_ofExcept_error]
  | ok payload => simp only [run_ofExcept_ok]

theorem step_savePipeline (h : Versions s) (hfresh : FreshDocument s spec raw) (hrival : NoRival floatRepr s spec raw) :
    Versions ((savePipeline floatRepr spec raw).run s).state ∧ s.Keeps ((savePipeline floatRepr spec raw).run s).state := by
  rw [run_savePipeline]
  cases hpayload : payloadOf floatRepr s spec raw with
  | error e => exact ⟨h, Keeps.refl s⟩
  | ok payload => exact ⟨versions_ensureSpec h hpayload hfresh hrival, keeps_ensureSpec h.separate spec raw payload⟩

theorem run_publishPipeline (spec : PipelineSpec) (raw : Option ℕ) (s : RunStateStore) :
    (publishPipeline floatRepr spec raw).run s =
      match (savePipeline floatRepr spec raw).run s with
      | .error e t => .error e t
      | .ok () t => .ok () (if spec.status = .active then activate spec t else t) := by
  rw [publishPipeline, run_savePipeline, run_bind, run_get]
  simp only [run_bind]
  cases payloadOf floatRepr s spec raw with
  | error e => simp only [run_ofExcept_error]
  | ok payload =>
    simp only [run_ofExcept_ok]
    cases (ensureSpec spec raw payload).run s with
    | error e t => rfl
    | ok u t =>
      by_cases hactive : spec.status = .active
      · simp only [if_pos hactive, run_modify]
      · simp only [if_neg hactive, run_pure]

theorem step_publishPipeline (h : Versions s) (hfresh : FreshDocument s spec raw)
    (hrival : spec.status = .active ∨ NoRival floatRepr s spec raw) :
    Versions ((publishPipeline floatRepr spec raw).run s).state ∧
      s.Keeps ((publishPipeline floatRepr spec raw).run s).state := by
  rw [run_publishPipeline]
  by_cases hactive : spec.status = .active
  · rw [run_savePipeline]
    cases hpayload : payloadOf floatRepr s spec raw with
    | error e => exact ⟨h, Keeps.refl s⟩
    | ok payload =>
      cases hensure : (ensureSpec spec raw payload).run s with
      | error e t =>
        rcases run_ensureSpec_cases spec raw payload s with ⟨e', hrun⟩ | ⟨hrun, _⟩ | ⟨hrun, _⟩
        · rw [hrun] at hensure
          cases hensure
          simp only [hrun]
          exact ⟨h, Keeps.refl s⟩
        · rw [hrun] at hensure
          cases hensure
        · rw [hrun] at hensure
          cases hensure
      | ok u t =>
        have hensured : Ensured s t spec := ensured_of_ok h.separate hfresh hensure
        obtain ⟨ref, hstored⟩ := hensured.stored
        simp only [hensure, if_pos hactive]
        refine ⟨?_, hensured.keeps.trans keeps_activate⟩
        refine
          { separate := hensured.separate.of_same activate_specs activate_length
            once := activeOnce_activate hensured.separate ?_ hstored }
        intro pipelineId version version' hne hversion hversion'
        exact h.once pipelineId version version' (hensured.active pipelineId version hne hversion)
          (hensured.active pipelineId version' hne hversion')
  · have hsave := step_savePipeline h hfresh (hrival.resolve_left hactive)
    cases hrun : (savePipeline floatRepr spec raw).run s with
    | error e t =>
      rw [hrun] at hsave
      exact hsave
    | ok u t =>
      rw [hrun] at hsave
      simp only [if_neg hactive, Result.state_ok]
      exact hsave

theorem step_createRun (h : Versions s) {run : RunRecord} (hrival : NoRival floatRepr s run.spec none) :
    Versions ((createRun floatRepr run).run s).state ∧ s.Keeps ((createRun floatRepr run).run s).state := by
  have hfresh : FreshDocument s run.spec none := fun ref href => by cases href
  rw [createRun, run_bind, run_get]
  cases hknown : s.runs.contains run.runId with
  | true =>
    simp only [hknown, if_true]
    exact ⟨h, Keeps.refl s⟩
  | false =>
    simp only [hknown, Bool.false_eq_true, if_false, run_bind]
    cases hpayload : payloadOf floatRepr s run.spec none with
    | error e =>
      simp only [run_ofExcept_error]
      exact ⟨h, Keeps.refl s⟩
    | ok payload =>
      simp only [run_ofExcept_ok]
      have hensure := versions_ensureSpec h hpayload hfresh hrival
      have hkeeps := keeps_ensureSpec h.separate run.spec none payload
      cases hrun : (ensureSpec run.spec none payload).run s with
      | error e t =>
        rw [hrun] at hensure hkeeps
        exact ⟨hensure, hkeeps⟩
      | ok u t =>
        rw [hrun] at hensure hkeeps
        cases hsnapshot : runRecordToDict floatRepr run with
        | error e =>
          simp only [run_ofExcept_error]
          exact ⟨hensure, hkeeps⟩
        | ok snapshot =>
          simp only [run_ofExcept_ok, run_modify]
          exact ⟨hensure.of_same rfl rfl, hkeeps.trans (keeps_of_same rfl rfl)⟩

theorem step_orderly (h : Versions s) {c : SpecCall} (hc : c.Orderly floatRepr s) :
    Versions (specStep floatRepr s c) ∧ s.Keeps (specStep floatRepr s c) := by
  cases c with
  | savePipeline spec raw => exact step_savePipeline h hc.1 hc.2
  | publishPipeline spec raw => exact step_publishPipeline h hc.1 hc.2
  | createRun run => exact step_createRun h hc

theorem versions_new (documents : List PyEntries) : Versions (RunStateStore.new documents) where
  separate :=
    { unshared := fun _ _ _ h => by cases h
      stored := fun _ _ h => by cases h }
  once := by
    rintro pipelineId version version' ⟨ref, href, _⟩
    cases href

theorem orderly_run {calls : List SpecCall} (h : Versions s)
    (hcalls : EveryStep (specStep floatRepr) (fun s c => c.Orderly floatRepr s) s calls) :
    Versions (MachineRuns.run (specStep floatRepr) s calls) ∧ s.Keeps (MachineRuns.run (specStep floatRepr) s calls) := by
  induction calls generalizing s with
  | nil => exact ⟨h, Keeps.refl s⟩
  | cons c calls ih =>
    obtain ⟨hc, htail⟩ := everyStep_cons.mp hcalls
    obtain ⟨hversions, hkeeps⟩ := step_orderly h hc
    obtain ⟨hend, hrest⟩ := ih hversions htail
    exact ⟨hend, hkeeps.trans hrest⟩

/-- In a run of orderly calls a pipeline has at most one active version in every state, and what was stored of a
version at some time is there ever after, up to its status. -/
theorem versions_of_orderly_run {documents : List PyEntries} {calls : List SpecCall}
    (hcalls : EveryStep (specStep floatRepr) (fun s c => c.Orderly floatRepr s) (.new documents) calls) :
    (MachineRuns.run (specStep floatRepr) (.new documents) calls).ActiveOnce ∧ ∀ before after, calls = before ++ after →
        (MachineRuns.run (specStep floatRepr) (.new documents) before).Keeps
          (MachineRuns.run (specStep floatRepr) (.new documents) calls) := by
  refine ⟨(orderly_run (versions_new documents) hcalls).1.once, ?_⟩
  rintro before after rfl
  rw [run_append]
  have hbefore := (orderly_run (versions_new documents) (everyStep_append_left hcalls)).1
  exact (orderly_run hbefore (everyStep_append_right hcalls)).2

/-- Two publications of an active spec. -/
theorem versions_of_two_publications : (MachineRuns.run (specStep fun _ => "") (.new [])
      [.publishPipeline (reviewSpec 1 .active version_one) none,
        .publishPipeline (reviewSpec 2 .active version_two) none]).ActiveOnce := by
  have hfresh : ∀ (s : RunStateStore) (spec : PipelineSpec), FreshDocument s spec none := by
    intro s spec ref href
    cases href
  refine (versions_of_orderly_run ?_).1
  refine everyStep_cons.mpr ⟨⟨hfresh _ _, .inl rfl⟩, ?_⟩
  exact everyStep_cons.mpr ⟨⟨hfresh _ _, .inl rfl⟩, everyStep_nil⟩

/-- Saving does not retire the version that is active. -/
theorem second_active_version_saved : ¬∀ floatRepr documents calls,
      (MachineRuns.run (specStep floatRepr) (.new documents) calls).ActiveOnce ∧
        ∀ before after, calls = before ++ after → (MachineRuns.run (specStep floatRepr) (.new documents) before).Keeps
            (MachineRuns.run (specStep floatRepr) (.new documents) calls) := by
  intro h
  have honce := (h (fun _ => "") [] [.savePipeline (reviewSpec 1 .active version_one) none,
    .savePipeline (reviewSpec 2 .active version_two) none]).1
  have hone := honce "reviews" (.finite 1) (.finite 2) ⟨0, by decide +kernel, by decide +kernel⟩
    ⟨1, by decide +kernel, by decide +kernel⟩
  exact absurd hone (by decide)

end Pipeline

end AllTomorrow
