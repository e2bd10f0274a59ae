import AllTomorrow.RunStoreCalls

/-!
# Resume tokens

Over every sequence of store calls: a token hash is answered at most once, only while its
question is pending and unexpired, and a call that fails leaves runs and questions as they
were. The last takes a condition: `consume_question` marks the question before it encodes
the answer, and `resume_run` writes an answer beside earlier ones of the stored snapshot
before it encodes the run.
-/

namespace AllTomorrow

open InsertionDict (get?_set get?_set_of_ne get?_set_self)

namespace Pipeline

open EStateM RunStateStore
open MachineRuns (EveryStep everyStep_cons everyStep_nil everyStep_append_left everyStep_append_right run_append)

variable {floatRepr : PyFloat → String}

/-! ## Calls -/

inductive RunStoreCall where
  | savePipeline (spec : PipelineSpec) (raw : Option ℕ)
  | publishPipeline (spec : PipelineSpec) (raw : Option ℕ)
  | createRun (run : RunRecord)
  | updateRun (run : RunRecord) (expected : ℤ)
  | createQuestion (question : QuestionRecord)
  | consumeQuestion (env : Supply) (tokenHash : String) (answer : PyEntries)
  | cancelPendingQuestions (runId : String)
  | resumeRun (env : Supply) (tokenHash : String) (answer : PyObj)

namespace RunStoreCall

def exec (floatRepr : PyFloat → String) : RunStoreCall → RunStoreM Bool
  | .savePipeline spec raw => do
      Pipeline.savePipeline floatRepr spec raw
      return true
  | .publishPipeline spec raw => do
      Pipeline.publishPipeline floatRepr spec raw
      return true
  | .createRun run => do
      Pipeline.createRun floatRepr run
      return true
  | .updateRun run expected => do
      let _ ← Pipeline.updateRun floatRepr run expected
      return true
  | .createQuestion question => do
      let _ ← Pipeline.createQuestion floatRepr question
      return true
  | .consumeQuestion env tokenHash answer => do
      let question ← Pipeline.consumeQuestion floatRepr env tokenHash answer
      return question.isSome
  | .cancelPendingQuestions runId => do
      Pipeline.cancelPendingQuestions runId
      return true
  | .resumeRun env tokenHash answer => do
      let _ ← Pipeline.resumeRun floatRepr env tokenHash answer
      return true

def token? : RunStoreCall → Option String
  | .consumeQuestion _ tokenHash _ | .resumeRun _ tokenHash _ => some tokenHash
  | _ => none

def Succeeds (floatRepr : PyFloat → String) (s : RunStateStore) (c : RunStoreCall) : Prop :=
  ∃ t, (c.exec floatRepr).run s = .ok true t

def Justified (s : RunStateStore) : RunStoreCall → Prop
  | .consumeQuestion env tokenHash _ => ∃ question, Open env tokenHash s question
  | .resumeRun env tokenHash answer =>
      ∃ entries question snapshot, answer = .dict entries ∧ Open env tokenHash s question ∧
        (∀ field ∈ question.requiredFields, (PyEntries.get? entries field).isSome = true) ∧
        s.runs.get? question.runId = some snapshot ∧ snapshot.status = .needUser ∧
        snapshot.currentStepId = question.blockedStep
  | _ => True

/-- The answer of an open question can be encoded; so can a run that has earlier answers, with the new one. -/
def Encodes (floatRepr : PyFloat → String) (s : RunStateStore) : RunStoreCall → Prop
  | .consumeQuestion env tokenHash answer =>
      ∀ question, Open env tokenHash s question → ∃ copy, jsonCopyEntries floatRepr answer = .ok copy
  | .resumeRun env tokenHash answer =>
      ∀ entries question snapshot spec earlier, answer = .dict entries →
        resumableQuestion env tokenHash entries s = .ok question → resumableRun question s = .ok (snapshot, spec) →
        snapshot.context.contextVariables.get? "user_answers" = some (.dict earlier) →
        (∃ copy, jsonCopyEntries floatRepr entries = .ok copy) ∧
          (∃ document, pipelineSpecToDict floatRepr spec = .ok document) ∧ PyText.Printable (snapshot.revision + 1)
  | _ => True

end RunStoreCall

def tokenStep (floatRepr : PyFloat → String) (s : RunStateStore) (c : RunStoreCall) : RunStateStore :=
  ((c.exec floatRepr).run s).state

/-- A token is used once, by a call it justifies; a call that fails changes nothing. -/
structure TokenLaws (floatRepr : PyFloat → String) (s : RunStateStore) (calls : List RunStoreCall) : Prop where
  once : ∀ before c between c' after tokenHash, calls = before ++ c :: (between ++ c' :: after) →
    c.token? = some tokenHash → c'.token? = some tokenHash →
    c.Succeeds floatRepr (MachineRuns.run (tokenStep floatRepr) s before) →
    ¬c'.Succeeds floatRepr (MachineRuns.run (tokenStep floatRepr) s (before ++ c :: between))
  justified : ∀ before c after, calls = before ++ c :: after →
    c.Succeeds floatRepr (MachineRuns.run (tokenStep floatRepr) s before) →
    c.Justified (MachineRuns.run (tokenStep floatRepr) s before)
  unchanged : ∀ before c after, calls = before ++ c :: after →
    ¬c.Succeeds floatRepr (MachineRuns.run (tokenStep floatRepr) s before) →
    (MachineRuns.run (tokenStep floatRepr) s (before ++ [c])).runs =
        (MachineRuns.run (tokenStep floatRepr) s before).runs ∧
      (MachineRuns.run (tokenStep floatRepr) s (before ++ [c])).questions =
        (MachineRuns.run (tokenStep floatRepr) s before).questions

structure RunSnapshot.Copied (data : RunSnapshot) : Prop where
  edgeAnalysis : plainEntries true data.context.request.edgeAnalysis = true
  contextVariables : plainEntries true data.context.contextVariables = true
  budget : plainEntries true data.context.budget = true
  outputs : plainEntries true data.outputs = true
  attempts : intTexts data.attempts.entries = .ok ()

variable {data : RunSnapshot}

theorem copied_of_runRecordToDict {run : RunRecord} (h : runRecordToDict floatRepr run = .ok data) : data.Copied := by
  unfold runRecordToDict executionContextToDict at h
  simp only [except_bind_ok] at h
  obtain ⟨context, ⟨edgeAnalysis, hedge, contextVariables, hvariables, budget, hbudget, hcontext⟩, document, _, outputs,
    houtputs, _, hattempts, _, _, hdata⟩ := h
  cases hcontext
  cases hdata
  exact
    { edgeAnalysis := plainEntries_of_jsonCopy hedge, contextVariables := plainEntries_of_jsonCopy hvariables
      budget := plainEntries_of_jsonCopy hbudget, outputs := plainEntries_of_jsonCopy houtputs, attempts := hattempts }

variable {spec : PipelineSpec} {record : RunRecord}

theorem runRecordFromDict_ok (h : runRecordFromDict data (some spec) = .ok record) :
    record.runId = data.runId ∧ record.spec = spec ∧ record.outputs = data.outputs ∧ record.attempts = data.attempts ∧
      record.revision = data.revision ∧ record.currentStepId = data.currentStepId ∧
      record.context.request.edgeAnalysis = data.context.request.edgeAnalysis ∧
      record.context.budget = data.context.budget := by
  unfold runRecordFromDict executionContextFromDict at h
  simp only [except_bind_ok] at h
  obtain ⟨_, hspec, context, hcontext, question, _, hrecord⟩ := h
  cases hspec
  cases hrecord
  split at hcontext
  · cases hcontext
  · unfold RequestEnvelope.new ExecutionContext.new at hcontext
    simp only [except_bind_ok] at hcontext
    obtain ⟨request, ⟨_, _, _, _, _, _, hrequest⟩, _, _, _, _, hcontext⟩ := hcontext
    cases hrequest
    cases hcontext
    exact ⟨rfl, rfl, rfl, rfl, rfl, rfl, rfl, rfl⟩

/-- A stored run is encoded with a further answer if the answer, its spec and its revision can be. -/
theorem exists_resumed {earlier entries : PyEntries}
    (hdata : data.Copied) (hrecord : runRecordFromDict data (some spec) = .ok record)
    (hearlier : data.context.contextVariables.get? "user_answers" = some (.dict earlier))
    (hanswer : ∃ copy, jsonCopyEntries floatRepr entries = .ok copy)
    (hspec : ∃ document, pipelineSpecToDict floatRepr spec = .ok document)
    (hrevision : PyText.Printable (data.revision + 1)) :
    ∃ data', runRecordToDict floatRepr (record.resumedWith (data.context.contextVariables.set "user_answers"
      (.dict (PyEntries.set earlier data.currentStepId (.dict entries))))) = .ok data' := by
  have hold : ∃ fs, jsonCopyEntries floatRepr data.context.contextVariables = .ok fs :=
    ⟨_, jsonCopyEntries_of_plain hdata.contextVariables⟩
  have hearlierCopy := exists_copy_dict.mp (exists_copy_of_get? hold hearlier)
  have hanswers := exists_copy_set hearlierCopy data.currentStepId (exists_copy_dict.mpr hanswer)
  obtain ⟨fs, hvariables⟩ := exists_copy_set hold "user_answers" (exists_copy_dict.mpr hanswers)
  obtain ⟨document, hdocument⟩ := hspec
  obtain ⟨_, hspecEq, houtputs, hattempts, hrevisionEq, _, hedge, hbudget⟩ := runRecordFromDict_ok hrecord
  have hcontext : ∃ snapshot, executionContextToDict floatRepr (record.resumedWith (data.context.contextVariables.set
      "user_answers" (.dict (PyEntries.set earlier data.currentStepId (.dict entries))))).context = .ok snapshot := by
    unfold executionContextToDict RunRecord.resumedWith
    dsimp only
    rw [hedge, hbudget, hvariables, jsonCopyEntries_of_plain hdata.edgeAnalysis, jsonCopyEntries_of_plain hdata.budget]
    exact ⟨_, rfl⟩
  obtain ⟨snapshot, hsnapshot⟩ := hcontext
  have htext : intText (data.revision + 1) = .ok (toString (data.revision + 1)) := if_pos hrevision
  unfold runRecordToDict
  rw [hsnapshot]
  unfold RunRecord.resumedWith
  dsimp only
  rw [hspecEq, houtputs, hattempts, hrevisionEq, hdocument, jsonCopyEntries_of_plain hdata.outputs, hdata.attempts, htext]
  exact ⟨_, rfl⟩

def RunStateStore.Copies (s : RunStateStore) : Prop := ∀ runId data, s.runs.get? runId = some data → data.Copied

/-! ## One call -/

/-- What a call that succeeds does to runs and questions, by the token it answers. -/
inductive Effect (s t : RunStateStore) : Option String → Prop
  | frame (hruns : t.runs = s.runs) (hquestions : t.questions = s.questions) : Effect s t none
  | storedRun (runId : String) (data : RunSnapshot) (hdata : data.Copied) (hruns : t.runs = s.runs.set runId data)
      (hquestions : t.questions = s.questions) : Effect s t none
  | asked (tokenHash : String) (question : QuestionRecord) (hnew : s.questions.get? tokenHash = none)
      (hruns : t.runs = s.runs) (hquestions : t.questions = s.questions.set tokenHash question) : Effect s t none
  | cancelled (runId : String) (hruns : t.runs = s.runs)
      (hquestions : ∀ tokenHash, t.questions.get? tokenHash =
        (s.questions.get? tokenHash).map fun question => question.cancelledFor runId) : Effect s t none
  | answered (tokenHash : String) (question : QuestionRecord) (hstatus : question.status = .answered)
      (hself : t.questions.get? tokenHash = some question)
      (hothers : ∀ other, other ≠ tokenHash → t.questions.get? other = s.questions.get? other)
      (hruns : ∀ runId data, t.runs.get? runId = some data → s.runs.get? runId = some data ∨ data.Copied) :
      Effect s t (some tokenHash)

structure Refused (floatRepr : PyFloat → String) (s : RunStateStore) (c : RunStoreCall) : Prop where
  fails : ¬c.Succeeds floatRepr s
  runs : (tokenStep floatRepr s c).runs = s.runs
  questions : (tokenStep floatRepr s c).questions = s.questions

structure Granted (floatRepr : PyFloat → String) (s : RunStateStore) (c : RunStoreCall) : Prop where
  succeeds : c.Succeeds floatRepr s
  justified : c.Justified s
  effect : Effect s (tokenStep floatRepr s c) c.token?

section Step

variable {s t : RunStateStore} {c : RunStoreCall}

theorem refused_of_error {e : PipelineExn} (hrun : (c.exec floatRepr).run s = .error e t) (hruns : t.runs = s.runs)
    (hquestions : t.questions = s.questions) : Refused floatRepr s c := by
  refine ⟨?_, ?_, ?_⟩
  · rintro ⟨t', ht'⟩
    rw [hrun] at ht'
    cases ht'
  · rw [tokenStep, hrun]
    exact hruns
  · rw [tokenStep, hrun]
    exact hquestions

theorem granted_of_ok (hrun : (c.exec floatRepr).run s = .ok true t) (hjustified : c.Justified s)
    (heffect : Effect s t c.token?) : Granted floatRepr s c := by
  refine ⟨⟨t, hrun⟩, hjustified, ?_⟩
  rw [tokenStep, hrun]
  exact heffect

theorem run_then_true {α : Type} {x : RunStoreM α} (s : RunStateStore) :
    (do let _ ← x; return true : RunStoreM Bool).run s =
      match x.run s with
      | .ok _ t => .ok true t
      | .error e t => .error e t := by
  rw [EStateM.run_bind]
  cases x.run s with
  | ok _ t => rfl
  | error e t => rfl

theorem granted_or_refused_of_frame {α : Type} {x : RunStoreM α} (hexec : c.exec floatRepr = do let _ ← x; return true)
    (hjustified : c.Justified s) (htoken : c.token? = none)
    (hframe : (x.run s).state.runs = s.runs ∧ (x.run s).state.questions = s.questions) :
    Granted floatRepr s c ∨ Refused floatRepr s c := by
  have hrun : (c.exec floatRepr).run s = (do let _ ← x; return true : RunStoreM Bool).run s := by rw [hexec]
  rw [run_then_true] at hrun
  cases hx : x.run s with
  | error e t =>
    rw [hx] at hrun hframe
    exact .inr (refused_of_error hrun hframe.1 hframe.2)
  | ok a t =>
    rw [hx] at hrun hframe
    refine .inl (granted_of_ok hrun hjustified ?_)
    rw [htoken]
    exact .frame hframe.1 hframe.2

section Resuming

variable {env : Supply} {tokenHash : String} {answer : PyObj} {entries contextVariables : PyEntries} {question : QuestionRecord}
  {snapshot : RunSnapshot}

/-- Before anything is encoded only the stored run is written to. -/
theorem Resuming.frame (h : Resuming env tokenHash answer s entries question snapshot spec record contextVariables t) :
    t.questions = s.questions ∧ ∀ runId, runId ≠ question.runId → t.runs.get? runId = s.runs.get? runId := by
  have hwritten := h.written
  rcases run_writeAnswer_cases question.runId snapshot entries s with ⟨e', hwrite⟩ | ⟨_, hwrite⟩ | ⟨earlier, hearlier, hwrite⟩
  · rw [hwrite] at hwritten
    cases hwritten
  · rw [hwrite] at hwritten
    cases hwritten
    exact ⟨rfl, fun _ _ => rfl⟩
  · rw [hwrite] at hwritten
    cases hwritten
    exact ⟨rfl, fun runId hne => get?_set_of_ne _ _ hne⟩

/-- If the stored snapshot has been written to, then nothing fails any more. -/
theorem Resuming.eq_of_failed (h : Resuming env tokenHash answer s entries question snapshot spec record contextVariables t)
    (hcopies : s.Copies) (hencodes : (RunStoreCall.resumeRun env tokenHash answer).Encodes floatRepr s) {e : PipelineExn}
    (hfailed : runRecordToDict floatRepr (record.resumedWith contextVariables) = .error e ∨
      jsonCopyEntries floatRepr entries = .error e) : t = s := by
  have hwritten := h.written
  rcases run_writeAnswer_cases question.runId snapshot entries s with ⟨e', hwrite⟩ | ⟨_, hwrite⟩ | ⟨earlier, hearlier, hwrite⟩
  · rw [hwrite] at hwritten
    cases hwritten
  · rw [hwrite] at hwritten
    cases hwritten
    rfl
  · rw [hwrite] at hwritten
    cases hwritten
    obtain ⟨hsnapshot, _⟩ := resumableRun_ok h.waiting
    obtain ⟨⟨copy, hcopy⟩, hspec, hrevision⟩ := hencodes entries question snapshot spec earlier h.isDict h.asked h.waiting hearlier
    obtain ⟨data, hdata⟩ := exists_resumed (hcopies _ _ hsnapshot) h.read hearlier ⟨copy, hcopy⟩ hspec hrevision
    rcases hfailed with hfailed | hfailed
    · rw [hdata] at hfailed
      cases hfailed
    · rw [hcopy] at hfailed
      cases hfailed

theorem granted_or_refused_resume (hcopies : s.Copies)
    (hencodes : (RunStoreCall.resumeRun env tokenHash answer).Encodes floatRepr s) :
    Granted floatRepr s (.resumeRun env tokenHash answer) ∨ Refused floatRepr s (.resumeRun env tokenHash answer) := by
  have hexec := run_then_true (x := resumeRun floatRepr env tokenHash answer) s
  rcases run_resumeRun_cases floatRepr env tokenHash answer s with ⟨e, hrun⟩ |
    ⟨entries, question, snapshot, spec, record, contextVariables, t, hresuming, hrest⟩
  · rw [hrun] at hexec
    exact .inr (refused_of_error hexec rfl rfl)
  · obtain ⟨hopen, hfields⟩ := resumableQuestion_ok hresuming.asked
    obtain ⟨hsnapshot, hstatus, hstep, _⟩ := resumableRun_ok hresuming.waiting
    rcases hrest with ⟨e, hrun, hfailed⟩ | ⟨data, copy, hdata, _, hrun⟩
    · rw [hrun, hresuming.eq_of_failed hcopies hencodes hfailed] at hexec
      exact .inr (refused_of_error hexec rfl rfl)
    · rw [hrun] at hexec
      refine .inl (granted_of_ok hexec
        ⟨entries, question, snapshot, hresuming.isDict, hopen, hfields, hsnapshot, hstatus, hstep⟩ ?_)
      obtain ⟨hquestions, hruns⟩ := hresuming.frame
      refine .answered tokenHash (question.answeredWith copy (env.sub 1).utcNow) rfl (get?_set_self _ _ _) ?_ ?_
      · intro other hother
        rw [← hquestions]
        exact get?_set_of_ne _ _ hother
      · intro runId data' hdata'
        by_cases hid : runId = question.runId
        · subst hid
          have hself : some data = some data' := (get?_set_self t.runs question.runId data).symm.trans hdata'
          cases hself
          exact .inr (copied_of_runRecordToDict hdata)
        · rw [← hruns runId hid]
          exact .inl ((get?_set_of_ne t.runs data hid).symm.trans hdata')

end Resuming

theorem granted_or_refused_consume {env : Supply} {tokenHash : String} {answer : PyEntries}
    (hencodes : (RunStoreCall.consumeQuestion env tokenHash answer).Encodes floatRepr s) :
    Granted floatRepr s (.consumeQuestion env tokenHash answer) ∨ Refused floatRepr s (.consumeQuestion env tokenHash answer) := by
  have hexec : ((RunStoreCall.consumeQuestion env tokenHash answer).exec floatRepr).run s =
      match (consumeQuestion floatRepr env tokenHash answer).run s with
      | .ok question t => .ok question.isSome t
      | .error e t => .error e t := by
    rw [RunStoreCall.exec, EStateM.run_bind]
    cases (consumeQuestion floatRepr env tokenHash answer).run s <;> rfl
  rcases run_consumeQuestion_cases floatRepr env tokenHash answer s with hrun | ⟨question, hopen, hrest⟩
  · rw [hrun] at hexec
    refine .inr ⟨?_, ?_, ?_⟩
    · rintro ⟨t, ht⟩
      rw [hexec] at ht
      cases ht
    · rw [tokenStep, hexec]
      rfl
    · rw [tokenStep, hexec]
      rfl
  · rcases hrest with ⟨e, hcopy, _⟩ | ⟨copy, _, hrun⟩
    · obtain ⟨copy, hcopy'⟩ := hencodes question hopen
      rw [hcopy] at hcopy'
      cases hcopy'
    · rw [hrun] at hexec
      refine .inl (granted_of_ok hexec ⟨question, hopen⟩ ?_)
      refine .answered tokenHash (question.answeredWith copy (env.sub 1).utcNow) rfl (get?_set_self _ _ _)
        ?_ fun runId data hdata => .inl hdata
      intro other hother
      exact (get?_set_of_ne _ _ hother).trans (get?_set_of_ne _ _ hother)

theorem granted_or_refused (hcopies : s.Copies) (hencodes : c.Encodes floatRepr s) :
    Granted floatRepr s c ∨ Refused floatRepr s c := by
  cases c with
  | savePipeline spec raw => exact granted_or_refused_of_frame rfl trivial rfl (save_frame floatRepr spec raw s)
  | publishPipeline spec raw => exact granted_or_refused_of_frame rfl trivial rfl (publish_frame floatRepr spec raw s)
  | createRun run =>
    have hexec := run_then_true (x := createRun floatRepr run) s
    rcases run_createRun_cases floatRepr run s with ⟨e, t, hrun, hruns, hquestions⟩ |
      ⟨data, t, _, hdata, hrun, hruns, hquestions⟩
    · rw [hrun] at hexec
      exact .inr (refused_of_error hexec hruns hquestions)
    · rw [hrun] at hexec
      exact .inl (granted_of_ok hexec trivial
        (.storedRun run.runId data (copied_of_runRecordToDict hdata) hruns hquestions))
  | updateRun run expected =>
    have hexec := run_then_true (x := updateRun floatRepr run expected) s
    rcases run_updateRun_cases floatRepr run expected s with ⟨e, hrun⟩ | ⟨existing, data, _, _, hdata, hrun⟩
    · rw [hrun] at hexec
      exact .inr (refused_of_error hexec rfl rfl)
    · rw [hrun] at hexec
      exact .inl (granted_of_ok hexec trivial (.storedRun run.runId data (copied_of_runRecordToDict hdata) rfl rfl))
  | createQuestion question =>
    have hexec := run_then_true (x := createQuestion floatRepr question) s
    rcases run_createQuestion_cases floatRepr question s with ⟨e, hrun⟩ | ⟨answer, hnew, _, hrun⟩
    · rw [hrun] at hexec
      exact .inr (refused_of_error hexec rfl rfl)
    · rw [hrun] at hexec
      exact .inl (granted_of_ok hexec trivial (.asked question.resumeTokenHash _ hnew rfl rfl))
  | cancelPendingQuestions runId =>
    have hexec := run_then_true (x := cancelPendingQuestions runId) s
    exact .inl (granted_of_ok hexec trivial (.cancelled runId rfl fun h => get?_cancelPendingQuestions runId h s))
  | consumeQuestion env tokenHash answer => exact granted_or_refused_consume hencodes
  | resumeRun env tokenHash answer => exact granted_or_refused_resume hcopies hencodes

def Closed (tokenHash : String) (s : RunStateStore) : Prop :=
  ∃ question, s.questions.get? tokenHash = some question ∧ question.status ≠ .pending

variable {tokenHash : String} {token : Option String}

theorem closed_of_effect (heffect : Effect s t token) (h : Closed tokenHash s) : Closed tokenHash t := by
  obtain ⟨question, hquestion, hstatus⟩ := h
  cases heffect with
  | frame _ hquestions | storedRun _ _ _ _ hquestions =>
    rw [Closed, hquestions]
    exact ⟨question, hquestion, hstatus⟩
  | asked other asked hnew _ hquestions =>
    have hne : tokenHash ≠ other := by
      rintro rfl
      rw [hnew] at hquestion
      cases hquestion
    refine ⟨question, ?_, hstatus⟩
    rw [hquestions, get?_set_of_ne _ _ hne, hquestion]
  | cancelled runId _ hquestions =>
    refine ⟨question, ?_, hstatus⟩
    rw [hquestions, hquestion, Option.map_some, QuestionRecord.cancelledFor, if_neg fun h => hstatus h.2]
  | answered other answered hanswered hself hothers _ =>
    by_cases heq : tokenHash = other
    · subst heq
      exact ⟨answered, hself, by rw [hanswered]; decide⟩
    · refine ⟨question, ?_, hstatus⟩
      rw [hothers tokenHash heq, hquestion]

theorem closed_of_answered (heffect : Effect s t (some tokenHash)) : Closed tokenHash t := by
  cases heffect with
  | answered _ question hstatus hself _ _ => exact ⟨question, hself, by rw [hstatus]; decide⟩

theorem copies_of_effect (heffect : Effect s t token) (h : s.Copies) : t.Copies := by
  intro runId data hdata
  cases heffect with
  | frame hruns _ | asked _ _ _ hruns _ | cancelled _ hruns _ =>
    rw [hruns] at hdata
    exact h runId data hdata
  | storedRun runId' data' hcopied hruns _ =>
    rw [hruns, get?_set] at hdata
    split at hdata
    · cases hdata
      exact hcopied
    · exact h runId data hdata
  | answered _ _ _ _ _ hruns =>
    rcases hruns runId data hdata with hold | hcopied
    · exact h runId data hold
    · exact hcopied

theorem copies_of_frame (hruns : t.runs = s.runs) (h : s.Copies) : t.Copies := by
  intro runId data hdata
  rw [hruns] at hdata
  exact h runId data hdata

theorem not_justified_of_closed (hclosed : Closed tokenHash s) (htoken : c.token? = some tokenHash) : ¬c.Justified s := by
  obtain ⟨question, hquestion, hstatus⟩ := hclosed
  have hopen : ∀ env question', ¬Open env tokenHash s question' := by
    intro env question' hopen
    have hsame := hopen.stored
    rw [hquestion, Option.some.injEq] at hsame
    subst hsame
    exact hstatus hopen.pending
  cases c with
  | consumeQuestion env hash answer =>
    cases htoken
    rintro ⟨question', hopen'⟩
    exact hopen env question' hopen'
  | resumeRun env hash answer =>
    cases htoken
    rintro ⟨entries, question', snapshot, _, hopen', _⟩
    exact hopen env question' hopen'
  | _ => cases htoken

theorem granted_of_succeeds (hcopies : s.Copies) (hencodes : c.Encodes floatRepr s) (h : c.Succeeds floatRepr s) :
    Granted floatRepr s c :=
  (granted_or_refused hcopies hencodes).resolve_right fun hrefused => hrefused.fails h

theorem copies_step (hcopies : s.Copies) (hencodes : c.Encodes floatRepr s) : (tokenStep floatRepr s c).Copies := by
  rcases granted_or_refused hcopies hencodes with hgranted | hrefused
  · exact copies_of_effect hgranted.effect hcopies
  · exact copies_of_frame hrefused.runs hcopies

theorem closed_step (hcopies : s.Copies) (hencodes : c.Encodes floatRepr s)
    (hclosed : Closed tokenHash s) : Closed tokenHash (tokenStep floatRepr s c) := by
  rcases granted_or_refused hcopies hencodes with hgranted | hrefused
  · exact closed_of_effect hgranted.effect hclosed
  · rw [Closed, hrefused.questions]
    exact hclosed

end Step

variable {calls : List RunStoreCall}

theorem copies_run {s : RunStateStore} (h : s.Copies)
    (hcalls : EveryStep (tokenStep floatRepr) (fun s c => c.Encodes floatRepr s) s calls) :
    (MachineRuns.run (tokenStep floatRepr) s calls).Copies :=
  MachineRuns.invariant_of_everyStep (fun _ _ hcopies hencodes => copies_step hcopies hencodes) h hcalls

theorem closed_run {tokenHash : String} {s : RunStateStore} (h : s.Copies) (hclosed : Closed tokenHash s)
    (hcalls : EveryStep (tokenStep floatRepr) (fun s c => c.Encodes floatRepr s) s calls) :
    Closed tokenHash (MachineRuns.run (tokenStep floatRepr) s calls) := by
  have hboth := MachineRuns.invariant_of_everyStep (I := fun s => s.Copies ∧ Closed tokenHash s)
    (fun _ _ hs hencodes => ⟨copies_step hs.1 hencodes, closed_step hs.1 hencodes hs.2⟩) ⟨h, hclosed⟩ hcalls
  exact hboth.2

theorem copies_new (documents : List PyEntries) : (RunStateStore.new documents).Copies := by
  intro runId data hdata
  cases hdata

/-- Tokens are answered once, for a reason, and a call that fails changes no run and no question, in every sequence of
calls that encode their answers. -/
theorem tokens_of_encoding_calls {documents : List PyEntries} {calls : List RunStoreCall}
    (hcalls : EveryStep (tokenStep floatRepr) (fun s c => c.Encodes floatRepr s) (.new documents) calls) :
    TokenLaws floatRepr (.new documents) calls := by
  have hcopies : ∀ before after, calls = before ++ after →
      (MachineRuns.run (tokenStep floatRepr) (.new documents) before).Copies := by
    rintro before after rfl
    exact copies_run (copies_new documents) (everyStep_append_left hcalls)
  have hat : ∀ before c after, calls = before ++ c :: after →
      c.Encodes floatRepr (MachineRuns.run (tokenStep floatRepr) (.new documents) before) := hcalls
  refine { once := ?_, justified := ?_, unchanged := ?_ }
  · intro before c between c' after tokenHash hsplit htoken htoken' hsucceeds hsucceeds'
    have hsplit' : calls = (before ++ c :: between) ++ c' :: after := by
      rw [hsplit, List.append_assoc]
      rfl
    have hgranted := granted_of_succeeds (hcopies before _ hsplit) (hat before c _ hsplit) hsucceeds
    have hgranted' := granted_of_succeeds (hcopies _ _ hsplit') (hat _ c' after hsplit') hsucceeds'
    -- the first answer closes the question, and it stays closed up to the second call
    have heffect := hgranted.effect
    rw [htoken] at heffect
    have hsteps : EveryStep (tokenStep floatRepr) (fun s c => c.Encodes floatRepr s)
        (MachineRuns.run (tokenStep floatRepr) (.new documents) before) (c :: between) := by
      have hprefix := hcalls
      rw [hsplit'] at hprefix
      exact everyStep_append_right (everyStep_append_left hprefix)
    have hclosed := closed_run (copies_step (hcopies before _ hsplit) (hat before c _ hsplit))
      (closed_of_answered heffect) (everyStep_cons.mp hsteps).2
    refine not_justified_of_closed ?_ htoken' hgranted'.justified
    rw [run_append]
    exact hclosed
  · intro before c after hsplit hsucceeds
    exact (granted_of_succeeds (hcopies before _ hsplit) (hat before c after hsplit) hsucceeds).justified
  · intro before c after hsplit hfails
    rw [run_append]
    change (tokenStep floatRepr _ c).runs = _ ∧ (tokenStep floatRepr _ c).questions = _
    rcases granted_or_refused (hcopies before _ hsplit) (hat before c after hsplit) with hgranted | hrefused
    · exact absurd hgranted.succeeds hfails
    · exact ⟨hrefused.runs, hrefused.questions⟩

def waitingRun : RunRecord := { sampleRun with status := .needUser }

def reviewQuestion : QuestionRecord where
  questionId := "q_1"
  runId := "run_1"
  blockedStep := "review"
  question := "Publish?"
  reason := "a decision is missing"
  requiredFields := ["approved"]
  resumeTokenHash := "hash_1"
  createdAt := 0

def sampleSupply : Supply := fun _ => ⟨1, "a"⟩

def answeredRun : List RunStoreCall :=
  [.createRun waitingRun, .createQuestion reviewQuestion,
    .resumeRun sampleSupply "hash_1" (.dict [(.str "approved", .bool true)])]

theorem answeredRun_encodes :
    EveryStep (tokenStep fun _ => "") (fun s c => c.Encodes (fun _ => "") s) (.new []) answeredRun := by
  refine everyStep_cons.mpr ⟨trivial, everyStep_cons.mpr ⟨trivial, everyStep_cons.mpr ⟨?_, everyStep_nil⟩⟩⟩
  intro entries question snapshot spec earlier hdict hquestion hrun hearlier
  exfalso
  cases hdict
  have hstored := (resumableQuestion_ok hquestion).1.stored
  obtain ⟨hsnapshot, _⟩ := resumableRun_ok hrun
  have hone : ((tokenStep (fun _ => "") (tokenStep (fun _ => "") (.new []) (.createRun waitingRun))
      (.createQuestion reviewQuestion)).questions.get? "hash_1").map QuestionRecord.runId = some "run_1" := by
    decide +kernel
  rw [hstored, Option.map_some, Option.some.injEq] at hone
  rw [hone] at hsnapshot
  have hnone : ((tokenStep (fun _ => "") (tokenStep (fun _ => "") (.new []) (.createRun waitingRun))
      (.createQuestion reviewQuestion)).runs.get? "run_1").map
        (fun data => (data.context.contextVariables.get? "user_answers").isNone) = some true := by
    decide +kernel
  rw [hsnapshot, Option.map_some, hearlier] at hnone
  cases hnone

theorem answeredRun_tokens : TokenLaws (fun _ => "") (.new []) answeredRun :=
  tokens_of_encoding_calls answeredRun_encodes

def unencodableAnswer : PyEntries := [(.str "approved", .object [])]

/-- The question is marked as answered, though the call raises. -/
theorem marked_without_answer : ¬∀ floatRepr documents calls, TokenLaws floatRepr (.new documents) calls := by
  intro h
  have hlaws := h (fun _ => "") []
    [.createQuestion reviewQuestion, .consumeQuestion sampleSupply "hash_1" unencodableAnswer]
  have hraises : (((RunStoreCall.consumeQuestion sampleSupply "hash_1" unencodableAnswer).exec fun _ => "").run
      (tokenStep (fun _ => "") (.new []) (.createQuestion reviewQuestion))).outcome.isOk = false := by
    decide +kernel
  have hsame := (hlaws.unchanged [.createQuestion reviewQuestion]
    (.consumeQuestion sampleSupply "hash_1" unencodableAnswer) [] rfl (by
      rintro ⟨t, ht⟩
      change _ = _ at ht
      rw [MachineRuns.run_cons, MachineRuns.run_nil] at ht
      rw [ht] at hraises
      cases hraises)).2
  have hdiffer : ((MachineRuns.run (tokenStep fun _ => "") (.new []) ([.createQuestion reviewQuestion] ++
      [.consumeQuestion sampleSupply "hash_1" unencodableAnswer])).questions.get? "hash_1").map QuestionRecord.status ≠
      ((MachineRuns.run (tokenStep fun _ => "") (.new []) [.createQuestion reviewQuestion]).questions.get?
        "hash_1").map QuestionRecord.status := by
    decide +kernel
  rw [hsame] at hdiffer
  exact hdiffer rfl

end Pipeline

end AllTomorrow
