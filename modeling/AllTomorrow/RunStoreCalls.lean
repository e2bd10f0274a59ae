import AllTomorrow.PipelineVersions

/-!
# What a call of the run store does

The exits of each call of `InMemoryRunStateStore` on runs and questions: what it has read,
what it has written, and what it returns or raises. What is proved of sequences and
interleavings of these calls is proved from here.
-/

namespace AllTomorrow

open EStateM (run_bind run_get run_modify run_pure)

namespace Pipeline

open EStateM RunStateStore

variable {floatRepr : PyFloat → String}

/-! ## Runs -/

section Runs

variable {s : RunStateStore} {run : RunRecord} (spec : PipelineSpec)

theorem ensureSpec_frame (raw : Option ℕ) (payload : PyEntries) (s : RunStateStore) :
    ((ensureSpec spec raw payload).run s).state.runs = s.runs ∧
      ((ensureSpec spec raw payload).run s).state.questions = s.questions := by
  rcases run_ensureSpec_cases spec raw payload s with ⟨e, hrun⟩ | ⟨hrun, _⟩ | ⟨hrun, _⟩
  · rw [hrun]
    exact ⟨rfl, rfl⟩
  · rw [hrun]
    exact ⟨rfl, rfl⟩
  · rw [hrun]
    cases raw <;> exact ⟨rfl, rfl⟩

theorem save_frame (floatRepr : PyFloat → String) (spec : PipelineSpec) (raw : Option ℕ) (s : RunStateStore) :
    ((savePipeline floatRepr spec raw).run s).state.runs = s.runs ∧
      ((savePipeline floatRepr spec raw).run s).state.questions = s.questions := by
  rw [run_savePipeline]
  cases payloadOf floatRepr s spec raw with
  | error e => exact ⟨rfl, rfl⟩
  | ok payload => exact ensureSpec_frame spec raw payload s

theorem activate_frame (s : RunStateStore) :
    (activate spec s).runs = s.runs ∧ (activate spec s).questions = s.questions := by
  have hretire : ∀ (es : List (SpecKey × ℕ)) (s : RunStateStore),
      (es.foldl (retire spec) s).runs = s.runs ∧ (es.foldl (retire spec) s).questions = s.questions := by
    intro es
    induction es with
    | nil => exact fun s => ⟨rfl, rfl⟩
    | cons e es ih =>
      intro s
      have hone : (retire spec s e).runs = s.runs ∧ (retire spec s e).questions = s.questions := by
        unfold retire
        split <;> exact ⟨rfl, rfl⟩
      rw [List.foldl_cons, (ih _).1, (ih _).2]
      exact hone
  unfold activate
  split
  · exact hretire _ s
  · exact hretire _ s

theorem publish_frame (floatRepr : PyFloat → String) (spec : PipelineSpec) (raw : Option ℕ) (s : RunStateStore) :
    ((publishPipeline floatRepr spec raw).run s).state.runs = s.runs ∧
      ((publishPipeline floatRepr spec raw).run s).state.questions = s.questions := by
  have hsave := save_frame floatRepr spec raw s
  rw [run_publishPipeline]
  cases hrun : (savePipeline floatRepr spec raw).run s with
  | error e t =>
    rw [hrun] at hsave
    exact hsave
  | ok _ t =>
    rw [hrun] at hsave
    dsimp only
    split
    · rw [Result.state_ok, (activate_frame spec t).1, (activate_frame spec t).2]
      exact hsave
    · exact hsave

/-- A run is created once, and without its snapshot nothing but its spec is stored. -/
theorem run_createRun_cases (floatRepr : PyFloat → String) (run : RunRecord) (s : RunStateStore) :
    (∃ e t, (createRun floatRepr run).run s = .error e t ∧ t.runs = s.runs ∧ t.questions = s.questions) ∨
      ∃ data t, s.runs.get? run.runId = none ∧ runRecordToDict floatRepr run = .ok data ∧
        (createRun floatRepr run).run s = .ok () t ∧ t.runs = s.runs.set run.runId data ∧ t.questions = s.questions := by
  rw [createRun, run_bind, run_get]
  cases hknown : s.runs.contains run.runId with
  | true =>
    simp only [hknown, if_true]
    exact .inl ⟨_, s, rfl, rfl, rfl⟩
  | false =>
    simp only [hknown, Bool.false_eq_true, if_false, run_bind]
    have hnew := InsertionDict.contains_eq_false_iff.mp hknown
    cases payloadOf floatRepr s run.spec none with
    | error e =>
      simp only [run_ofExcept_error]
      exact .inl ⟨e, s, rfl, rfl, rfl⟩
    | ok payload =>
      simp only [run_ofExcept_ok]
      have hframe := ensureSpec_frame run.spec none payload s
      cases hensure : (ensureSpec run.spec none payload).run s with
      | error e t =>
        rw [hensure] at hframe
        exact .inl ⟨e, t, rfl, hframe⟩
      | ok _ t =>
        rw [hensure, Result.state_ok] at hframe
        cases hdata : runRecordToDict floatRepr run with
        | error e =>
          simp only [run_ofExcept_error]
          exact .inl ⟨e, t, rfl, hframe⟩
        | ok data =>
          simp only [run_ofExcept_ok, run_modify]
          refine .inr ⟨data, _, hnew, rfl, rfl, ?_, hframe.2⟩
          change t.runs.set run.runId data = _
          rw [hframe.1]

theorem runRecordToDict_fields {data : RunSnapshot} (h : runRecordToDict floatRepr run = .ok data) :
    data.runId = run.runId ∧ data.status = run.status ∧ data.currentStepId = run.currentStepId ∧
      data.revision = run.revision ∧ data.pipelineId = run.spec.pipelineId ∧ data.pipelineVersion = run.spec.version := by
  unfold runRecordToDict at h
  simp only [except_bind_ok] at h
  obtain ⟨_, _, _, _, _, _, _, _, _, _, hdata⟩ := h
  cases hdata
  exact ⟨rfl, rfl, rfl, rfl, rfl, rfl⟩

theorem run_updateRun_ok {expected : ℤ} {existing data : RunSnapshot}
    (hexisting : s.runs.get? run.runId = some existing) (hrevision : existing.revision = expected)
    (hdata : runRecordToDict floatRepr { run with revision := expected + 1 } = .ok data) :
    (updateRun floatRepr run expected).run s = .ok (expected + 1) { s with runs := s.runs.set run.runId data } := by
  rw [updateRun, run_bind, run_get]
  simp only [hexisting, hrevision, ne_eq, not_true_eq_false, if_false, run_bind, hdata, run_ofExcept_ok,
    run_modify, run_pure]

/-- An update changes the stored run, at the expected revision, or nothing. -/
theorem run_updateRun_cases (floatRepr : PyFloat → String) (run : RunRecord) (expected : ℤ) (s : RunStateStore) :
    (∃ e, (updateRun floatRepr run expected).run s = .error e s) ∨
      ∃ existing data, s.runs.get? run.runId = some existing ∧ existing.revision = expected ∧
        runRecordToDict floatRepr { run with revision := expected + 1 } = .ok data ∧
        (updateRun floatRepr run expected).run s = .ok (expected + 1) { s with runs := s.runs.set run.runId data } := by
  rw [updateRun, run_bind, run_get]
  cases hexisting : s.runs.get? run.runId with
  | none =>
    simp only [hexisting]
    exact .inl ⟨_, rfl⟩
  | some existing =>
    by_cases hrevision : existing.revision = expected
    · cases hdata : runRecordToDict floatRepr { run with revision := expected + 1 } with
      | error e =>
        refine .inl ⟨e, ?_⟩
        simp only [hexisting, hrevision, ne_eq, not_true_eq_false, if_false, run_bind, hdata, run_ofExcept_error]
      | ok data =>
        refine .inr ⟨existing, data, rfl, hrevision, rfl, ?_⟩
        exact run_updateRun_ok hexisting hrevision hdata
    · simp only [hexisting, hrevision, ne_eq, not_false_eq_true, if_true]
      exact .inl ⟨_, rfl⟩

/-- A run is read with the spec that its version holds, and nothing is written. -/
theorem run_getRun_cases (runId : String) (s : RunStateStore) :
    (∃ e, (getRun runId).run s = .error e s) ∨ (s.runs.get? runId = none ∧ (getRun runId).run s = .ok none s) ∨
      ∃ data spec record, s.runs.get? runId = some data ∧
        specFromData (s.spec? (data.pipelineId, data.pipelineVersion.value)) = .ok spec ∧
        runRecordFromDict data spec = .ok record ∧ (getRun runId).run s = .ok (some record) s := by
  rw [getRun, run_bind, run_get]
  cases hdata : s.runs.get? runId with
  | none =>
    simp only [hdata]
    exact .inr (.inl ⟨trivial, rfl⟩)
  | some data =>
    simp only [hdata, run_bind]
    cases hspec : specFromData (s.spec? (data.pipelineId, data.pipelineVersion.value)) with
    | error e =>
      simp only [run_ofExcept_error]
      exact .inl ⟨e, rfl⟩
    | ok spec =>
      simp only [run_ofExcept_ok]
      cases hrecord : runRecordFromDict data spec with
      | error e =>
        simp only [run_ofExcept_error]
        exact .inl ⟨e, rfl⟩
      | ok record =>
        simp only [run_ofExcept_ok, run_pure]
        exact .inr (.inr ⟨data, spec, record, rfl, hspec, hrecord, rfl⟩)

end Runs

/-! ## Questions -/

theorem run_createQuestion_cases (floatRepr : PyFloat → String) (question : QuestionRecord) (s : RunStateStore) :
    (∃ e, (createQuestion floatRepr question).run s = .error e s) ∨
      ∃ answer, s.questions.get? question.resumeTokenHash = none ∧ copyAnswer floatRepr question.answer = .ok answer ∧
        (createQuestion floatRepr question).run s = .ok question.questionId
          { s with questions := s.questions.set question.resumeTokenHash { question with answer := answer } } := by
  rw [createQuestion, run_bind, run_get]
  cases hknown : s.questions.contains question.resumeTokenHash with
  | true =>
    simp only [hknown, if_true]
    exact .inl ⟨_, rfl⟩
  | false =>
    simp only [hknown, Bool.false_eq_true, if_false, run_bind]
    cases hanswer : copyAnswer floatRepr question.answer with
    | error e =>
      simp only [run_ofExcept_error]
      exact .inl ⟨e, rfl⟩
    | ok answer =>
      simp only [run_ofExcept_ok, run_modify]
      exact .inr ⟨answer, InsertionDict.contains_eq_false_iff.mp hknown, rfl, rfl⟩

variable {question : QuestionRecord}

theorem run_createQuestion_ok {s : RunStateStore}
    (hnew : s.questions.get? question.resumeTokenHash = none) (hanswer : question.answer = none) :
    (createQuestion floatRepr question).run s = .ok question.questionId
      { s with questions := s.questions.set question.resumeTokenHash question } := by
  have hknown := InsertionDict.contains_eq_false_iff.mpr hnew
  have hcopy : copyAnswer floatRepr question.answer = .ok none := by
    rw [hanswer]
    rfl
  have hsame : { question with answer := none } = question := by rw [← hanswer]
  rw [createQuestion, run_bind, run_get]
  simp only [hknown, Bool.false_eq_true, if_false, run_bind, hcopy, run_ofExcept_ok, run_modify, hsame]
  rfl

structure Open (env : Supply) (tokenHash : String) (s : RunStateStore) (question : QuestionRecord) : Prop where
  stored : s.questions.get? tokenHash = some question
  pending : question.status = .pending
  unexpired : question.isExpired (env.sub 0).utcNow = false

def QuestionRecord.marked (question : QuestionRecord) : QuestionRecord := { question with status := .answered }

def QuestionRecord.answeredWith (question : QuestionRecord) (copy : PyEntries) (now : Datetime) : QuestionRecord :=
  { question with status := .answered, answer := some copy, answeredAt := some now }

/-- An open question is marked; the answer is encoded after that. -/
theorem run_consumeQuestion_cases (floatRepr : PyFloat → String) (env : Supply) (tokenHash : String) (answer : PyEntries)
    (s : RunStateStore) :
    (consumeQuestion floatRepr env tokenHash answer).run s = .ok none s ∨ ∃ question, Open env tokenHash s question ∧
        ((∃ e, jsonCopyEntries floatRepr answer = .error e ∧ (consumeQuestion floatRepr env tokenHash answer).run s =
              .error e { s with questions := s.questions.set tokenHash question.marked }) ∨
          ∃ copy, jsonCopyEntries floatRepr answer = .ok copy ∧ (consumeQuestion floatRepr env tokenHash answer).run s =
              .ok (some (question.answeredWith copy (env.sub 1).utcNow))
                { s with
                  questions :=
                    (s.questions.set tokenHash question.marked).set tokenHash
                      (question.answeredWith copy (env.sub 1).utcNow) }) := by
  rw [consumeQuestion, run_bind, run_get]
  cases hstored : s.questions.get? tokenHash with
  | none =>
    simp only [hstored]
    exact .inl rfl
  | some question =>
    by_cases hpending : question.status = .pending
    · cases hexpired : question.isExpired (env.sub 0).utcNow with
      | true =>
        refine .inl ?_
        simp only [hstored, hpending, hexpired, ne_eq, not_true_eq_false, if_false, if_true, run_pure]
      | false =>
        refine .inr ⟨question, ⟨hstored, hpending, hexpired⟩, ?_⟩
        cases hcopy : jsonCopyEntries floatRepr answer with
        | error e =>
          refine .inl ⟨e, rfl, ?_⟩
          simp only [hstored, hpending, hexpired, ne_eq, not_true_eq_false, Bool.false_eq_true, if_false, run_bind,
            run_modify, run_ofExcept_error]
          rfl
        | ok copy =>
          refine .inr ⟨copy, rfl, ?_⟩
          simp only [hstored, hpending, hexpired, ne_eq, not_true_eq_false, Bool.false_eq_true, if_false, run_bind,
            run_modify, run_ofExcept_ok, run_pure]
          rfl
    · refine .inl ?_
      simp only [hstored, hpending, ne_eq, not_false_eq_true, if_true, run_pure]

/-- What `cancel_pending_questions` makes of a question. -/
def QuestionRecord.cancelledFor (runId : String) (question : QuestionRecord) : QuestionRecord :=
  if question.runId = runId ∧ question.status = .pending then { question with status := .cancelled } else question

variable {questions : InsertionDict String QuestionRecord} {es : List (String × QuestionRecord)}

theorem get?_foldl_cancelQuestion_of_not_mem {runId tokenHash : String} (h : ∀ e ∈ es, e.1 ≠ tokenHash) :
    (es.foldl (cancelQuestion runId) questions).get? tokenHash = questions.get? tokenHash := by
  induction es generalizing questions with
  | nil => rfl
  | cons e es ih =>
    rw [List.forall_mem_cons] at h
    rw [List.foldl_cons, ih h.2, cancelQuestion]
    split
    · exact InsertionDict.get?_set_of_ne _ _ (Ne.symm h.1)
    · rfl

theorem get?_foldl_cancelQuestion_of_mem {runId : String} {e : String × QuestionRecord} (hnodup : (es.map Prod.fst).Nodup)
    (he : e ∈ es) (hstored : questions.get? e.1 = some e.2) :
    (es.foldl (cancelQuestion runId) questions).get? e.1 = some (e.2.cancelledFor runId) := by
  induction es generalizing questions with
  | nil => cases he
  | cons e' es ih =>
    rw [List.map_cons, List.nodup_cons] at hnodup
    rw [List.foldl_cons]
    rcases List.mem_cons.mp he with rfl | htail
    · have hrest : ∀ f ∈ es, f.1 ≠ e.1 := by
        intro f hf heq
        exact hnodup.1 (heq ▸ List.mem_map_of_mem hf)
      rw [get?_foldl_cancelQuestion_of_not_mem hrest, cancelQuestion, QuestionRecord.cancelledFor]
      split
      · exact InsertionDict.get?_set_self _ _ _
      · exact hstored
    · have hne : e.1 ≠ e'.1 := by
        intro heq
        exact hnodup.1 (heq ▸ List.mem_map_of_mem htail)
      refine ih hnodup.2 htail ?_
      rw [cancelQuestion]
      split
      · rw [InsertionDict.get?_set_of_ne _ _ hne, hstored]
      · exact hstored

theorem get?_cancelPendingQuestions (runId tokenHash : String) (s : RunStateStore) :
    ((cancelPendingQuestions runId).run s).state.questions.get? tokenHash =
      (s.questions.get? tokenHash).map fun question => question.cancelledFor runId := by
  change (s.questions.entries.foldl (cancelQuestion runId) s.questions).get? tokenHash = _
  cases hstored : s.questions.get? tokenHash with
  | none =>
    rw [get?_foldl_cancelQuestion_of_not_mem, hstored, Option.map_none]
    rintro ⟨key, question⟩ he rfl
    rw [InsertionDict.get?_of_mem_entries he] at hstored
    cases hstored
  | some question =>
    exact get?_foldl_cancelQuestion_of_mem s.questions.nodup_keys (InsertionDict.mem_entries_of_get? hstored) hstored

/-! ## Resuming -/

theorem resumableQuestion_ok {env : Supply} {tokenHash : String} {answer : PyEntries} {s : RunStateStore} (h : resumableQuestion env tokenHash answer s = .ok question) :
    Open env tokenHash s question ∧ ∀ field ∈ question.requiredFields, (answer.get? field).isSome = true := by
  unfold resumableQuestion at h
  split at h
  · cases h
  · rename_i stored hstored
    split at h
    · cases h
    · rename_i hpending
      split at h
      · cases h
      · rename_i hexpired
        dsimp only at h
        split at h
        · cases h
        · rename_i hmissing
          cases h
          refine ⟨⟨hstored, not_not.mp hpending, by simpa using hexpired⟩, ?_⟩
          intro field hfield
          have hnone := List.filter_eq_nil_iff.mp (not_not.mp hmissing) field hfield
          simpa [Option.isSome_iff_ne_none] using hnone

theorem resumableRun_ok {s : RunStateStore} {snapshot : RunSnapshot} {spec : PipelineSpec}
    (h : resumableRun question s = .ok (snapshot, spec)) :
    s.runs.get? question.runId = some snapshot ∧ snapshot.status = .needUser ∧
      snapshot.currentStepId = question.blockedStep ∧
      specFromData (s.spec? (snapshot.pipelineId, snapshot.pipelineVersion.value)) = .ok (some spec) := by
  unfold resumableRun at h
  split at h
  · cases h
  · rename_i stored hstored
    split at h
    · cases h
    · rename_i hstatus
      split at h
      · cases h
      · rename_i hstep
        obtain ⟨found, hspec, h⟩ := except_bind_ok.mp h
        cases found with
        | none => cases h
        | some spec' =>
          cases h
          exact ⟨hstored, not_not.mp hstatus, not_not.mp hstep, hspec⟩

theorem run_writeAnswer_cases (runId : String) (snapshot : RunSnapshot) (answer : PyEntries) (s : RunStateStore) :
    (∃ e, (writeAnswer runId snapshot answer).run s = .error e s) ∨
      (snapshot.context.contextVariables.get? "user_answers" = none ∧
        (writeAnswer runId snapshot answer).run s = .ok (snapshot.context.contextVariables.set "user_answers"
          (.dict [(.str snapshot.currentStepId, .dict answer)])) s) ∨
      ∃ earlier, snapshot.context.contextVariables.get? "user_answers" = some (.dict earlier) ∧
        (writeAnswer runId snapshot answer).run s = .ok (snapshot.context.contextVariables.set "user_answers"
              (.dict (PyEntries.set earlier snapshot.currentStepId (.dict answer))))
            { s with runs := s.runs.set runId (snapshot.withVariables (snapshot.context.contextVariables.set "user_answers"
              (.dict (PyEntries.set earlier snapshot.currentStepId (.dict answer))))) } := by
  unfold writeAnswer
  cases hearlier : snapshot.context.contextVariables.get? "user_answers" with
  | none => exact .inr (.inl ⟨rfl, rfl⟩)
  | some value =>
    cases value with
    | dict earlier => exact .inr (.inr ⟨earlier, rfl, rfl⟩)
    | _ => exact .inl ⟨_, rfl⟩

/-- The record that `resume_run` encodes and returns. -/
def RunRecord.resumedWith (record : RunRecord) (contextVariables : PyEntries) : RunRecord :=
  { record with
    context := { record.context with contextVariables := contextVariables }
    status := .running, question := none, revision := record.revision + 1 }

/-- The exits of `resume_run` after the answer is in the variables. -/
theorem encodeResumed_cases (floatRepr : PyFloat → String) (tokenHash : String) (entries : PyEntries)
    (question : QuestionRecord) (resumed : RunRecord) (now : Datetime) (t : RunStateStore) :
    let finish : RunStoreM RunRecord := do
      let updated ← MonadExcept.ofExcept (runRecordToDict floatRepr resumed)
      let copy ← MonadExcept.ofExcept (jsonCopyEntries floatRepr entries)
      modify fun s =>
        { s with
          questions := s.questions.set tokenHash (question.answeredWith copy now)
          runs := s.runs.set question.runId updated }
      return resumed
    (∃ e, finish.run t = .error e t ∧
        (runRecordToDict floatRepr resumed = .error e ∨ jsonCopyEntries floatRepr entries = .error e)) ∨
      ∃ data copy, runRecordToDict floatRepr resumed = .ok data ∧ jsonCopyEntries floatRepr entries = .ok copy ∧
        finish.run t = .ok resumed
          { t with
            questions := t.questions.set tokenHash (question.answeredWith copy now)
            runs := t.runs.set question.runId data } := by
  intro finish
  simp only [finish, run_bind]
  cases hdata : runRecordToDict floatRepr resumed with
  | error e =>
    simp only [run_ofExcept_error]
    exact .inl ⟨e, rfl, .inl rfl⟩
  | ok data =>
    simp only [run_ofExcept_ok]
    cases hcopy : jsonCopyEntries floatRepr entries with
    | error e =>
      simp only [run_ofExcept_error]
      exact .inl ⟨e, rfl, .inr rfl⟩
    | ok copy =>
      simp only [run_ofExcept_ok, run_modify, run_pure]
      exact .inr ⟨data, copy, rfl, rfl, rfl⟩

/-- What has been read and written when the answer of a resumed run is in its variables. -/
structure Resuming (env : Supply) (tokenHash : String) (answer : PyObj) (s : RunStateStore) (entries : PyEntries)
    (question : QuestionRecord) (snapshot : RunSnapshot) (spec : PipelineSpec) (record : RunRecord)
    (contextVariables : PyEntries) (t : RunStateStore) : Prop where
  isDict : answer = .dict entries
  asked : resumableQuestion env tokenHash entries s = .ok question
  waiting : resumableRun question s = .ok (snapshot, spec)
  read : runRecordFromDict snapshot (some spec) = .ok record
  written : (writeAnswer question.runId snapshot entries).run s = .ok contextVariables t

theorem run_resumeRun_cases (floatRepr : PyFloat → String) (env : Supply) (tokenHash : String) (answer : PyObj)
    (s : RunStateStore) : (∃ e, (resumeRun floatRepr env tokenHash answer).run s = .error e s) ∨
      ∃ entries question snapshot spec record contextVariables t,
        Resuming env tokenHash answer s entries question snapshot spec record contextVariables t ∧
        ((∃ e, (resumeRun floatRepr env tokenHash answer).run s = .error e t ∧
            (runRecordToDict floatRepr (record.resumedWith contextVariables) = .error e ∨
              jsonCopyEntries floatRepr entries = .error e)) ∨
          ∃ data copy, runRecordToDict floatRepr (record.resumedWith contextVariables) = .ok data ∧
            jsonCopyEntries floatRepr entries = .ok copy ∧
            (resumeRun floatRepr env tokenHash answer).run s = .ok (record.resumedWith contextVariables) { t with
                questions := t.questions.set tokenHash (question.answeredWith copy (env.sub 1).utcNow)
                runs := t.runs.set question.runId data }) := by
  cases answer with
  | dict entries =>
    rw [resumeRun, run_bind, run_get]
    simp only [run_bind]
    cases hquestion : resumableQuestion env tokenHash entries s with
    | error e => exact .inl ⟨e, by simp only [run_ofExcept_error]⟩
    | ok question =>
      simp only [run_ofExcept_ok]
      cases hrun : resumableRun question s with
      | error e => exact .inl ⟨e, by simp only [run_ofExcept_error]⟩
      | ok found =>
        obtain ⟨snapshot, spec⟩ := found
        simp only [run_ofExcept_ok]
        cases hrecord : runRecordFromDict snapshot (some spec) with
        | error e => exact .inl ⟨e, by simp only [run_ofExcept_error]⟩
        | ok record =>
          simp only [run_ofExcept_ok]
          rcases run_writeAnswer_cases question.runId snapshot entries s with ⟨e, hwrite⟩ | ⟨_, hwrite⟩ | ⟨_, _, hwrite⟩
          · exact .inl ⟨e, by simp only [hwrite]⟩
          · refine .inr ⟨entries, question, snapshot, spec, record, _, _, ⟨rfl, hquestion, hrun, hrecord, hwrite⟩, ?_⟩
            simp only [hwrite]
            exact encodeResumed_cases floatRepr tokenHash entries question _ _ _
          · refine .inr ⟨entries, question, snapshot, spec, record, _, _, ⟨rfl, hquestion, hrun, hrecord, hwrite⟩, ?_⟩
            simp only [hwrite]
            exact encodeResumed_cases floatRepr tokenHash entries question _ _ _
  | _ => exact .inl ⟨_, rfl⟩

end Pipeline

end AllTomorrow
