import AllTomorrow.RunStartRace
import AllTomorrow.DurableRunRecovery
import AllTomorrow.ExecutionRefHistory

/-!
# Two bridge calls on one STARTING Run

`start_run` and `_reconcile_one` interleaved, one store operation or port call at a
time. Every call stands at a position of the abstract race and every request of it is
a step of the race, so that the calls converge exactly when no step gets in the way
of the other call.
-/

namespace AllTomorrow

open InMemoryStore RunStartRace

abbrev BridgeProg := Prog BridgeAction BridgeAction.Answer (Except Exn BridgeResult)

/-- The port answers for this Run with references that `_same_ref` cannot tell apart. -/
structure DurablePort.Answers {π : Type} (P : DurablePort π) (valid : π → Prop) (runId : RunId)
    (triple : String × String × ℤ) : Prop where
  start : ∀ env name payload key s p, valid p →
    ∃ ref p', P.start env runId name payload key (s, p) = (.ok ref, (s, p')) ∧
    ref.triple = triple ∧ valid p'
  find : ∀ s p, valid p → ∃ found p', P.findByRunId runId (s, p) = (.ok found, (s, p')) ∧
    (∀ ref, found = some ref → ref.triple = triple) ∧ valid p'

/-- The Run that is raced for, its execution, the revision of the unlinked stage and the stage at
which the calls are made. -/
structure RaceSetup where
  runId : RunId
  triple : String × String × ℤ
  base : ℤ
  initial : LinkStage

namespace RaceSetup

variable (R : RaceSetup)

def revision (g : LinkStage) : ℤ := R.base + g.rank

theorem revision_inj {g g' : LinkStage} : R.revision g = R.revision g' ↔ g = g' := by
  constructor
  · intro h
    cases g <;> cases g' <;> simp_all [revision, LinkStage.rank]
  · rintro rfl
    rfl

theorem revision_linked : R.revision .linked = R.revision .unlinked + 1 := by
  simp [revision, LinkStage.rank]

theorem revision_running : R.revision .running = R.revision .linked + 1 := by
  simp only [revision, LinkStage.rank]
  omega

def Shows (g : LinkStage) (r : RunRecord) : Prop :=
  match g with
  | .unlinked => r.status = .starting ∧ r.executionRef = none
  | .linked => r.status = .starting ∧ ∃ ref, r.executionRef = some ref ∧ ref.triple = R.triple
  | .running => r.status = .running ∧ ∃ ref, r.executionRef = some ref ∧ ref.triple = R.triple

variable {R} in
variable {g : LinkStage} {r : RunRecord}

theorem Shows.starting_iff (h : R.Shows g r) : r.status = .starting ↔ g ≠ .running := by
  cases g <;> simp [h.1]

variable {R} in
theorem Shows.linked_iff (h : R.Shows g r) : (r.status = .starting ∧ r.executionRef ≠ none) ↔ g = .linked := by
  cases g with
  | unlinked => simp [h.2]
  | linked =>
    obtain ⟨hstatus, ref, href, _⟩ := h
    simp [hstatus, href]
  | running => simp [h.1]

variable {R} in
theorem Shows.running_iff (h : R.Shows g r) : r.status = .running ↔ g = .running := by
  cases g <;> simp [h.1]

def Stage (g : LinkStage) (s : InMemoryStore) : Prop :=
  ∃ r, StoredRun s R.runId r (R.revision g) ∧ r.runId = R.runId ∧ R.Shows g r

/-! ## Positions of a call -/

def Returned (p : BridgeProg) : Prop :=
  ∃ result ref, p = .done (.ok result) ∧ result.ref = some ref ∧ ref.triple = R.triple

def Raised (p : BridgeProg) : Prop := ∃ e, p = .done (.error e)

def Finishing (v : ℤ) (p : BridgeProg) : Prop :=
  ∃ event env rest, p = .act (.store (.transitionRunStatus R.runId .running v event none) env) rest ∧
    (∀ r ref, r.executionRef = some ref → ref.triple = R.triple → R.Returned (rest (.ok r))) ∧
    ∀ e, Raised (rest (.error e))

def ReadingLinked (p : BridgeProg) : Prop :=
  ∃ env rest, p = .act (.store (.runRevision R.runId) env) rest ∧ ∀ v, R.Finishing v (rest (.ok v))

/-- The attach with revision `v`; a lost revision race leads to `retry`. -/
def AttachingElse (retry : BridgeProg → Prop) (v : ℤ) (p : BridgeProg) : Prop :=
  ∃ ref event env rest, p = .act (.store (.attachExecutionRef R.runId v ref event) env) rest ∧
    ref.triple = R.triple ∧ (∀ r, R.ReadingLinked (rest (.ok r))) ∧
    ∀ message, retry (rest (.error (.storeConflictError message)))

def LookingAgain (p : BridgeProg) : Prop :=
  ∃ env rest, p = .act (.store (.getRun R.runId) env) rest ∧ ∀ r, r.runId = R.runId →
    (R.Shows .linked r → R.ReadingLinked (rest (.ok (some r)))) ∧
    (R.Shows .running r → R.Returned (rest (.ok (some r))))

def Attaching (v : ℤ) (p : BridgeProg) : Prop := R.AttachingElse R.LookingAgain v p

def Launching (v : ℤ) (p : BridgeProg) : Prop :=
  ∃ env name payload key rest, p = .act (.start env R.runId name payload key) rest ∧
    ∀ ref, ref.triple = R.triple → R.Attaching v (rest (.ok ref))

def Finding (v : ℤ) (p : BridgeProg) : Prop :=
  ∃ rest, p = .act (.findByRunId R.runId) rest ∧ R.Launching v (rest (.ok none)) ∧
    ∀ ref, ref.triple = R.triple → R.Attaching v (rest (.ok (some ref)))

def ReadingRevision (p : BridgeProg) : Prop :=
  ∃ env rest, p = .act (.store (.runRevision R.runId) env) rest ∧ ∀ v, R.Finding v (rest (.ok v))

def Looking (p : BridgeProg) : Prop :=
  ∃ env rest, p = .act (.store (.getRun R.runId) env) rest ∧ ∀ r, r.runId = R.runId →
    (R.Shows .unlinked r → R.ReadingRevision (rest (.ok (some r)))) ∧
    (R.Shows .linked r → R.ReadingLinked (rest (.ok (some r)))) ∧
    (R.Shows .running r → R.Returned (rest (.ok (some r))))

def Linking (p : BridgeProg) : Prop := R.AttachingElse Raised (R.revision R.initial) p

def Requesting (p : BridgeProg) : Prop :=
  ∃ env name payload key rest, p = .act (.start env R.runId name payload key) rest ∧
    ∀ ref, ref.triple = R.triple → R.Linking (rest (.ok ref))

def At : CallPosition → BridgeProg → Prop
  | .request => R.Requesting
  | .link => R.Linking
  | .look true => R.Looking
  | .look false => R.LookingAgain
  | .readRevision => R.ReadingRevision
  | .find v => R.Finding (R.revision v)
  | .launch v => R.Launching (R.revision v)
  | .attach v => R.Attaching (R.revision v)
  | .readLinked => R.ReadingLinked
  | .finish v => R.Finishing (R.revision v)
  | .returned => R.Returned
  | .raised => Raised

end RaceSetup

/-! ## The calls -/

inductive BridgeCall where
  | startRun (b : DurableRunBridge) (env : Supply) (workflowName : String) (payload : PyDict)
  | reconcileOne (b : DurableRunBridge) (env : Supply)

namespace BridgeCall

def isStart : BridgeCall → Bool
  | .startRun .. => true
  | .reconcileOne .. => false

/-- `_reconcile_one` may try again after its first attempt. -/
def Retries : BridgeCall → Prop
  | .startRun .. => True
  | .reconcileOne b _ => 2 ≤ b.maxReconcileAttempts

def prog (run : RunRecord) (runRevision : ℤ) : BridgeCall → BridgeProg
  | .startRun b env workflowName payload => (b.startRun portDeps env run workflowName payload runRevision).run
  | .reconcileOne b env => (b.reconcileOne portDeps env run).run

def position : BridgeCall → CallPosition
  | .startRun .. => .request
  | .reconcileOne .. => .look true

variable (call : BridgeCall)

theorem position_ne_raised : call.position ≠ .raised := by
  cases call <;> simp [position]

theorem position_committed : call.position.committed = false := by
  cases call <;> rfl

end BridgeCall

section Positions

variable {R : RaceSetup} {b : DurableRunBridge} {env : Supply} {run : RunRecord} {ref : ExecutionRef}

theorem finishing_runAttached (v : ℤ) (href : ref.triple = R.triple) (event : SemanticEvent)
    (recovered : Bool) :
    R.Finishing v ((do
      let running ← portDeps.store (.transitionRunStatus R.runId .running v event none) env
      return { run := running, ref := some ref, recovered := recovered } : BridgeTask BridgeResult).run) :=
  ⟨event, env, _, rfl, fun _ _ _ _ => ⟨_, ref, rfl, rfl, href⟩, fun e => ⟨e, rfl⟩⟩

theorem readingLinked_runAttached (href : ref.triple = R.triple) (recovered : Bool) (attached : RunRecord) :
    R.ReadingLinked (b.runAttached portDeps env R.runId ref recovered attached).run :=
  ⟨env.sub 0, _, rfl, fun v => finishing_runAttached v href _ recovered⟩

variable {r : RunRecord}

theorem readingLinked_finishRecovered (hid : r.runId = R.runId) (hr : R.Shows .linked r) :
    R.ReadingLinked (b.finishRecovered portDeps env r).run := by
  obtain ⟨hstatus, ref, href, htriple⟩ := hr
  rw [DurableRunBridge.finishRecovered]
  simp only [href, Option.isNone_some, Bool.false_eq_true, if_false, hstatus, if_true]
  rw [hid]
  exact ⟨env.sub 0, _, rfl, fun v => ⟨_, env.sub 2, _, rfl,
    fun r' ref' href' htriple' => ⟨_, ref', rfl, href', htriple'⟩, fun e => ⟨e, rfl⟩⟩⟩

theorem returned_finishRecovered (hr : R.Shows .running r) : R.Returned (b.finishRecovered portDeps env r).run := by
  obtain ⟨hstatus, ref, href, htriple⟩ := hr
  rw [DurableRunBridge.finishRecovered]
  simp only [href, Option.isNone_some, Bool.false_eq_true, if_false, hstatus, reduceCtorEq]
  exact ⟨_, ref, rfl, rfl, htriple⟩

theorem readingLinked_attempt (hid : r.runId = R.runId) (hr : R.Shows .linked r)
    (x : BridgeTask BridgeResult) :
    R.ReadingLinked (ExceptT.run (if r.executionRef.isSome = true then b.finishRecovered portDeps env r else x)) := by
  have hsome : r.executionRef.isSome = true := by
    obtain ⟨_, ref, href, _⟩ := hr
    rw [href, Option.isSome_some]
  rw [if_pos hsome]
  exact readingLinked_finishRecovered hid hr

theorem returned_attempt (hr : R.Shows .running r) (x : BridgeTask BridgeResult) :
    R.Returned (ExceptT.run (if r.executionRef.isSome = true then b.finishRecovered portDeps env r else x)) := by
  have hsome : r.executionRef.isSome = true := by
    obtain ⟨_, ref, href, _⟩ := hr
    rw [href, Option.isSome_some]
  rw [if_pos hsome]
  exact returned_finishRecovered hr

theorem lookingAgain_reconcileAttempts (hrun : run.runId = R.runId) (n : ℕ) :
    R.LookingAgain (b.reconcileAttempts portDeps run (n + 1) env).run := by
  rw [DurableRunBridge.reconcileAttempts, hrun]
  exact ⟨env.sub 0, _, rfl, fun r hid => ⟨fun hr => readingLinked_attempt hid hr _, fun hr => returned_attempt hr _⟩⟩

theorem looking_reconcileAttempts (hrun : run.runId = R.runId) (n : ℕ) :
    R.Looking (b.reconcileAttempts portDeps run (n + 2) env).run := by
  have hagain : ∀ env', R.LookingAgain (b.reconcileAttempts portDeps run (n + 1) env').run :=
    fun _ => lookingAgain_reconcileAttempts hrun n
  rw [DurableRunBridge.reconcileAttempts, hrun]
  refine ⟨env.sub 0, _, rfl, fun r hid => ⟨fun hr => ?_, fun hr => readingLinked_attempt hid hr _,
    fun hr => returned_attempt hr _⟩⟩
  change R.ReadingRevision (ExceptT.run (if r.executionRef.isSome = true then _ else _))
  rw [if_neg (by rw [hr.2]; simp)]
  refine ⟨env.sub 2, _, rfl, fun v => ⟨_, rfl, ?_, ?_⟩⟩
  · refine ⟨(env.sub 3).sub 0, _, _, _, _, rfl, fun ref href => ⟨ref, _, env.sub 5, _, rfl, href, ?_, ?_⟩⟩
    · exact fun attached => readingLinked_runAttached href false attached
    · exact fun message => hagain (env.sub 7)
  · refine fun ref href => ⟨ref, _, env.sub 5, _, rfl, href, ?_, ?_⟩
    · exact fun attached => readingLinked_runAttached href true attached
    · exact fun message => hagain (env.sub 7)

theorem requesting_startRun (hrun : run.runId = R.runId) (hstatus : run.status = .starting) (name : String)
    (payload : PyDict) : R.Requesting (b.startRun portDeps env run name payload (R.revision R.initial)).run := by
  rw [DurableRunBridge.startRun, if_neg (by simp [hstatus]), hrun]
  refine ⟨env.sub 0, name, payload, _, _, rfl, fun ref href => ⟨ref, _, env.sub 2, _, rfl, href, ?_, ?_⟩⟩
  · exact fun attached => ⟨env.sub 3, _, rfl, fun v => finishing_runAttached v href _ false⟩
  · exact fun message => ⟨_, rfl⟩

theorem at_position (hrun : run.runId = R.runId) (hstatus : run.status = .starting) {call : BridgeCall}
    (hretries : call.Retries) : R.At call.position (call.prog run (R.revision R.initial)) := by
  cases call with
  | startRun b env workflowName payload => exact requesting_startRun hrun hstatus workflowName payload
  | reconcileOne b env =>
    change 2 ≤ b.maxReconcileAttempts at hretries
    obtain ⟨n, hn⟩ : ∃ n, b.maxReconcileAttempts.toNat = n + 2 := ⟨b.maxReconcileAttempts.toNat - 2, by omega⟩
    change R.Looking (b.reconcileOne portDeps env run).run
    rw [DurableRunBridge.reconcileOne, hn]
    exact looking_reconcileAttempts hrun n

end Positions

/-! ## Requests are steps of the race -/

section Steps

variable {π : Type} {P : DurablePort π} {valid : π → Prop} {R : RaceSetup}
variable {s : InMemoryStore} {p : π} {g : LinkStage} {c : CallPosition} {prog : BridgeProg}

def Simulates (P : DurablePort π) (valid : π → Prop) (R : RaceSetup) (g : LinkStage) (c : CallPosition)
    (prog : BridgeProg) (w : InMemoryStore × π) : Prop :=
  ∃ g' c', Step R.initial g c g' c' ∧ R.At c' (Prog.advance P.handler prog w).1 ∧
    R.Stage g' (Prog.advance P.handler prog w).2.1 ∧ valid (Prog.advance P.handler prog w).2.2

variable {env : Supply}

theorem advance_store {op : StoreOp} {w w' : InMemoryStore × π} {answer : Except Exn op.Result}
    (h : Prog.evalTask P.handler (portDeps.store op env) w = (answer, w')) (rest : Except Exn op.Result → BridgeProg) :
    Prog.advance P.handler (.act (.store op env) rest) w = (rest answer, w') := by
  have hanswer : P.handler (.store op env) w = (answer, w') := h
  exact Prog.advance_of_answer hanswer rest

variable {s' : InMemoryStore}

theorem stage_linked {r : RunRecord} {ref : ExecutionRef}
    (hid : r.runId = R.runId) (hr : R.Shows .unlinked r) (href : ref.triple = R.triple)
    (hstored : StoredRun s' R.runId (r.attached env ref) (R.revision .unlinked + 1)) : R.Stage .linked s' := by
  rw [← R.revision_linked] at hstored
  exact ⟨r.attached env ref, hstored, hid, hr.1, ref, rfl, href⟩

theorem stage_running {r : RunRecord} (hid : r.runId = R.runId) (hr : R.Shows .linked r)
    (hstored : StoredRun s' R.runId (r.moved env .running none) (R.revision .linked + 1)) : R.Stage .running s' := by
  obtain ⟨_, ref, href, htriple⟩ := hr
  rw [← R.revision_running] at hstored
  exact ⟨r.moved env .running none, hstored, hid, rfl, ref, Option.none_or.trans href, htriple⟩

/-- An attach links an unlinked Run, leaves a linked one, and conflicts with a stale revision. -/
theorem advance_attachingElse {retry : BridgeProg → Prop} {v : ℤ} (h : R.AttachingElse retry v prog) (hs : R.Stage g s) :
    (v = R.revision g ∧ g = .unlinked ∧ R.ReadingLinked (Prog.advance P.handler prog (s, p)).1 ∧
      R.Stage .linked (Prog.advance P.handler prog (s, p)).2.1 ∧ (Prog.advance P.handler prog (s, p)).2.2 = p) ∨
    (v = R.revision g ∧ g ≠ .unlinked ∧ R.ReadingLinked (Prog.advance P.handler prog (s, p)).1 ∧
      (Prog.advance P.handler prog (s, p)).2 = (s, p)) ∨ (v ≠ R.revision g ∧ retry (Prog.advance P.handler prog (s, p)).1 ∧
      (Prog.advance P.handler prog (s, p)).2 = (s, p)) := by
  obtain ⟨ref, event, env, rest, rfl, href, hok, hretry⟩ := h
  obtain ⟨r, hstored, hid, hshows⟩ := hs
  by_cases hv : v = R.revision g
  · subst hv
    cases g with
    | unlinked =>
      obtain ⟨s', hattach, hstored', _⟩ := evalTask_attach (P := P) (p := p) env hstored hshows.2 ref event
      rw [advance_store hattach]
      exact .inl ⟨rfl, rfl, hok _, stage_linked hid hshows href hstored', rfl⟩
    | linked | running =>
      obtain ⟨_, attached, hsome, htriple⟩ := hshows
      have hattach := evalTask_reattach (P := P) (p := p) env hstored hsome (htriple.trans href.symm) event
      rw [advance_store hattach]
      exact .inr (.inl ⟨rfl, by simp, hok _, rfl⟩)
  · obtain ⟨message, hstale⟩ := evalTask_attach_stale (P := P) (p := p) env hstored (Ne.symm hv) ref event
    rw [advance_store hstale]
    exact .inr (.inr ⟨hv, hretry message, rfl⟩)

theorem advance_looking {rest : Except Exn (Option RunRecord) → BridgeProg} :
    Prog.advance P.handler (.act (.store (.getRun R.runId) env) rest) (s, p) =
      (rest (.ok (s.runs.get? R.runId)), (s, p)) := rfl

theorem advance_readingRevision {rest : Except Exn ℤ → BridgeProg} (hs : R.Stage g s) :
    Prog.advance P.handler (.act (.store (.runRevision R.runId) env) rest) (s, p) = (rest (.ok (R.revision g)), (s, p)) := by
  obtain ⟨r, hstored, _⟩ := hs
  exact advance_store (evalTask_runRevision hstored.revision) rest

/-- The transition goes through from the linked stage with its revision, and raises otherwise. -/
theorem simulates_finish {v : LinkStage} (hp : valid p) (hs : R.Stage g s) (h : R.Finishing (R.revision v) prog)
    (hsane : Sane g (.finish v)) : Simulates P valid R g (.finish v) prog (s, p) := by
  obtain ⟨event, env, rest, rfl, hok, herror⟩ := h
  have hstage := hs
  obtain ⟨r, hstored, hid, hshows⟩ := hs
  cases g with
  | unlinked => exact absurd rfl (hsane.ne_unlinked rfl)
  | linked =>
    have hseen := hsane.seen_linked
    subst hseen
    obtain ⟨s', hmove, hstored', _⟩ := evalTask_transition (P := P) (p := p) env hstored
      (running_mem_of_starting hshows.1) event
    refine ⟨.running, .returned, .finishFirst, ?_⟩
    rw [advance_store hmove]
    obtain ⟨ref, href, htriple⟩ := hshows.2
    exact ⟨hok _ ref (Option.none_or.trans href) htriple, stage_running hid hshows hstored', hp⟩
  | running =>
    have hillegal : RunStatus.running ∉ runTransitions r.status := by
      rw [hshows.1]
      decide
    obtain ⟨e, hraises⟩ := evalTask_transition_raises (P := P) (p := p) env hstored (R.revision v) (.inr hillegal)
      event
    refine ⟨.running, .raised, .finishLate (.inr rfl), ?_⟩
    rw [advance_store hraises]
    exact ⟨herror e, hstage, hp⟩

theorem simulates_look {first : Bool} (hp : valid p) (hs : R.Stage g s) (h : R.At (.look first) prog)
    (hsane : Sane g (.look first)) : Simulates P valid R g (.look first) prog (s, p) := by
  have hstage := hs
  obtain ⟨r, hstored, hid, hshows⟩ := hs
  cases first with
  | true =>
    obtain ⟨env, rest, rfl, hrest⟩ := h
    obtain ⟨hunlinked, hlinked, hrunning⟩ := hrest r hid
    unfold Simulates
    rw [advance_looking, hstored.get]
    cases g with
    | unlinked => exact ⟨_, _, .lookUnlinked, hunlinked hshows, hstage, hp⟩
    | linked => exact ⟨_, _, .lookLinked, hlinked hshows, hstage, hp⟩
    | running => exact ⟨_, _, .lookRunning, hrunning hshows, hstage, hp⟩
  | false =>
    obtain ⟨env, rest, rfl, hrest⟩ := h
    obtain ⟨hlinked, hrunning⟩ := hrest r hid
    unfold Simulates
    rw [advance_looking, hstored.get]
    cases g with
    | unlinked => exact absurd rfl hsane
    | linked => exact ⟨_, _, .lookLinked, hlinked hshows, hstage, hp⟩
    | running => exact ⟨_, _, .lookRunning, hrunning hshows, hstage, hp⟩

/-- Every request that a call makes is a step of the race. -/
theorem simulates (hP : P.Answers valid R.runId R.triple) (hinitial : R.initial ≠ .running) (hp : valid p)
    (hs : R.Stage g s) (h : R.At c prog) (hsane : Sane g c) : Simulates P valid R g c prog (s, p) := by
  cases c with
  | request =>
    obtain ⟨env, name, payload, key, rest, rfl, hrest⟩ := h
    obtain ⟨ref, p', hstart, href, hp'⟩ := hP.start env name payload key s p hp
    refine ⟨g, .link, .request, ?_⟩
    rw [Prog.advance_of_answer (a := BridgeAction.start env R.runId name payload key) hstart]
    exact ⟨hrest ref href, hs, hp'⟩
  | link =>
    rcases advance_attachingElse (P := P) (p := p) h hs with
      ⟨hv, rfl, hnext, hstage, hport⟩ | ⟨hv, hne, hnext, hsame⟩ | ⟨hv, hnext, hsame⟩
    · exact ⟨_, _, .linkFirst (R.revision_inj.mp hv), hnext, hstage, by rw [hport]; exact hp⟩
    · have hg := R.revision_inj.mp hv
      subst hg
      have hlinked : R.initial = .linked := by
        cases hi : R.initial <;> simp_all
      rw [Simulates, hsame, hlinked]
      exact ⟨_, _, .linkAgain rfl, hnext, hlinked ▸ hs, hp⟩
    · rw [Simulates, hsame]
      exact ⟨_, _, .linkStale fun hg => hv (by rw [hg]), hnext, hs, hp⟩
  | look first => exact simulates_look hp hs h hsane
  | readRevision =>
    obtain ⟨env, rest, rfl, hrest⟩ := h
    refine ⟨g, .find g, .readRevision, ?_⟩
    rw [advance_readingRevision hs]
    exact ⟨hrest _, hs, hp⟩
  | find v =>
    obtain ⟨rest, rfl, hnone, hsome⟩ := h
    obtain ⟨found, p', hfind, hfound, hp'⟩ := hP.find s p hp
    unfold Simulates
    rw [Prog.advance_of_answer (a := BridgeAction.findByRunId R.runId) hfind]
    cases found with
    | none => exact ⟨g, .launch v, .notFound, hnone, hs, hp'⟩
    | some ref => exact ⟨g, .attach v, .found, hsome ref (hfound ref rfl), hs, hp'⟩
  | launch v =>
    obtain ⟨env, name, payload, key, rest, rfl, hrest⟩ := h
    obtain ⟨ref, p', hstart, href, hp'⟩ := hP.start env name payload key s p hp
    refine ⟨g, .attach v, .launched, ?_⟩
    rw [Prog.advance_of_answer (a := BridgeAction.start env R.runId name payload key) hstart]
    exact ⟨hrest ref href, hs, hp'⟩
  | attach v =>
    rcases advance_attachingElse (P := P) (p := p) h hs with
      ⟨hv, rfl, hnext, hstage, hport⟩ | ⟨hv, hne, hnext, hsame⟩ | ⟨hv, hnext, hsame⟩
    · have hseen := R.revision_inj.mp hv
      subst hseen
      exact ⟨_, _, .attachFirst, hnext, hstage, by rw [hport]; exact hp⟩
    · have hseen := R.revision_inj.mp hv
      subst hseen
      rw [Simulates, hsame]
      exact ⟨_, _, .attachAgain hne, hnext, hs, hp⟩
    · rw [Simulates, hsame]
      exact ⟨_, _, .attachStale fun hg => hv (by rw [hg]), hnext, hs, hp⟩
  | readLinked =>
    obtain ⟨env, rest, rfl, hrest⟩ := h
    refine ⟨g, .finish g, .readLinked, ?_⟩
    rw [advance_readingRevision hs]
    exact ⟨hrest _, hs, hp⟩
  | finish v => exact simulates_finish hp hs h hsane
  | returned =>
    obtain ⟨result, ref, rfl, href⟩ := h
    exact ⟨g, .returned, .returned, ⟨result, ref, rfl, href⟩, hs, hp⟩
  | raised =>
    obtain ⟨e, rfl⟩ := h
    exact ⟨g, .raised, .raised, ⟨e, rfl⟩, hs, hp⟩

end Steps

/-! ## Interleavings -/

section Interleaving

variable {π : Type}

abbrev RacePool (π : Type) :=
  Prog.Pool Bool BridgeAction BridgeAction.Answer (Except Exn BridgeResult) (InMemoryStore × π)

def racePool (calls : Bool → BridgeCall) (run : RunRecord) (rev : ℤ) (w : InMemoryStore × π) : RacePool π :=
  ⟨fun i => (calls i).prog run rev, w⟩

def requestsRunning : BridgeProg → Prop
  | .act (.store (.transitionRunStatus _ target _ _ _) _) _ => target = .running
  | _ => False

/-- The call is about to make the transition to RUNNING, or to read the revision for it. -/
def aboutToRun (prog : BridgeProg) : Prop :=
  requestsRunning prog ∨
    ∃ runId env rest, prog = .act (.store (.runRevision runId) env) rest ∧ ∀ v, requestsRunning (rest (.ok v))

/-- The step of call `i` does not get in the way of the other call: `start_run` attaches with the
revision that is stored, and a call does not set out for the transition to RUNNING, by an attach that
the store accepts or by a look at a STARTING Run with a reference, while the other call is about to
make it or after it has been made. -/
def Undisturbed (calls : Bool → BridgeCall) (runId : RunId) (pool : RacePool π) (i : Bool) : Prop :=
  match pool.threads i with
  | .act (.store (.attachExecutionRef _ expected _ _) _) _ =>
    if expected = pool.state.1.runRevision runId then
      (∀ r, pool.state.1.runs.get? runId = some r → r.status = .starting) ∧ ¬aboutToRun (pool.threads !i)
    else (calls i).isStart = false
  | .act (.store (.getRun _) _) _ =>
    (∃ r, pool.state.1.runs.get? runId = some r ∧ r.status = .starting ∧ r.executionRef ≠ none) →
      ¬aboutToRun (pool.threads !i)
  | _ => True

def becomesRunning (runId : RunId) (s s' : InMemoryStore) : Prop :=
  (s.runs.get? runId).map RunRecord.status = some .starting ∧ (s'.runs.get? runId).map RunRecord.status = some .running

instance (runId : RunId) (s s' : InMemoryStore) : Decidable (becomesRunning runId s s') :=
  inferInstanceAs (Decidable (_ ∧ _))

def runningTransitions (P : DurablePort π) (runId : RunId) : RacePool π → List Bool → ℕ
  | _, [] => 0
  | pool, i :: rest =>
    (if becomesRunning runId pool.state.1 (pool.step P.handler i).state.1 then 1 else 0) +
      runningTransitions P runId (pool.step P.handler i) rest

/-- Both calls return with the reference, and the Run became RUNNING once. -/
structure Converged (P : DurablePort π) (runId : RunId) (triple : String × String × ℤ) (pool : RacePool π)
    (schedule : List Bool) : Prop where
  returned : ∀ i, ∃ result ref,
    (MachineRuns.run (Prog.Pool.step P.handler) pool schedule).threads i = .done (.ok result) ∧
      result.ref = some ref ∧ ref.triple = triple
  running : ∃ r, (MachineRuns.run (Prog.Pool.step P.handler) pool schedule).state.1.runs.get? runId = some r ∧
    r.status = .running
  once : runningTransitions P runId pool schedule = 1

def Fits (isStart : Bool) : CallPosition → Prop
  | .request | .link => isStart = true
  | .look _ | .readRevision | .find _ | .launch _ | .attach _ => isStart = false
  | _ => True

theorem Fits.step {isStart : Bool} {initial g g' : LinkStage} {c c' : CallPosition} (h : Fits isStart c)
    (hstep : Step initial g c g' c') : Fits isStart c' := by
  cases hstep <;> first | exact h | trivial

structure Tracks (R : RaceSetup) (valid : π → Prop) (calls : Bool → BridgeCall) (pool : RacePool π)
    (pos : Bool → CallPosition) (g : LinkStage) : Prop where
  position : ∀ i, R.At (pos i) (pool.threads i)
  stage : R.Stage g pool.state.1
  port : valid pool.state.2
  sane : ∀ i, Sane g (pos i)
  fits : ∀ i, Fits (calls i).isStart (pos i)

variable {P : DurablePort π} {valid : π → Prop} {R : RaceSetup} {calls : Bool → BridgeCall}
variable {pool : RacePool π} {pos : Bool → CallPosition} {g : LinkStage} {i : Bool} {prog : BridgeProg}

theorem requestsRunning_of_finishing {v : ℤ} (h : R.Finishing v prog) : requestsRunning prog := by
  obtain ⟨event, env, rest, rfl, _⟩ := h
  rfl

theorem not_aboutToRun_of_act {a : BridgeAction} {rest : a.Answer → BridgeProg} (hmove : ¬requestsRunning (.act a rest))
    (hread : ∀ runId env, a ≠ .store (.runRevision runId) env) : ¬aboutToRun (.act a rest) := by
  rintro (h | ⟨runId, env, rest', h, _⟩)
  · exact hmove h
  · injection h with ha
    exact hread runId env ha

variable {outcome : Except Exn BridgeResult}

theorem not_aboutToRun_of_done : ¬aboutToRun (.done outcome) := by
  rintro (h | ⟨runId, env, rest, h, _⟩)
  · exact h
  · cases h

/-- The calls that are about to run are those at a committed position. -/
theorem aboutToRun_iff {c : CallPosition} (h : R.At c prog) : aboutToRun prog ↔ c.committed = true := by
  cases c with
  | readLinked =>
    obtain ⟨env, rest, rfl, hrest⟩ := h
    exact iff_of_true (.inr ⟨_, env, rest, rfl, fun v => requestsRunning_of_finishing (hrest v)⟩) rfl
  | finish v => exact iff_of_true (.inl (requestsRunning_of_finishing h)) rfl
  | readRevision =>
    obtain ⟨env, rest, rfl, hrest⟩ := h
    refine iff_of_false ?_ (by simp [CallPosition.committed])
    rintro (h | ⟨runId, env', rest', h, hrunning⟩)
    · exact h
    · cases h
      obtain ⟨rest', hfind, _⟩ := hrest 0
      have hnot := hrunning 0
      rw [hfind] at hnot
      exact hnot
  | request | launch v =>
    obtain ⟨env, name, payload, key, rest, rfl, hrest⟩ := h
    exact iff_of_false (not_aboutToRun_of_act id (by simp)) (by simp [CallPosition.committed])
  | link | attach v =>
    obtain ⟨ref, event, env, rest, rfl, hrest⟩ := h
    exact iff_of_false (not_aboutToRun_of_act id (by simp)) (by simp [CallPosition.committed])
  | look first =>
    cases first with
    | true | false =>
      obtain ⟨env, rest, rfl, hrest⟩ := h
      exact iff_of_false (not_aboutToRun_of_act id (by simp)) (by simp [CallPosition.committed])
  | find v =>
    obtain ⟨rest, rfl, hrest⟩ := h
    exact iff_of_false (not_aboutToRun_of_act id (by simp)) (by simp [CallPosition.committed])
  | returned =>
    obtain ⟨result, ref, rfl, _⟩ := h
    exact iff_of_false not_aboutToRun_of_done (by simp [CallPosition.committed])
  | raised =>
    obtain ⟨e, rfl⟩ := h
    exact iff_of_false not_aboutToRun_of_done (by simp [CallPosition.committed])

/-- The condition on a step of the pool is the condition on the step of the race. -/
theorem undisturbed_iff (h : Tracks R valid calls pool pos g) (hinitial : R.initial ≠ .running) (i : Bool) :
    Undisturbed calls R.runId pool i ↔ Allowed R.initial g (pos i) (pos !i) := by
  obtain ⟨r, hstored, hid, hshows⟩ := h.stage
  have hrev : pool.state.1.runRevision R.runId = R.revision g := runRevision_of_get? hstored.revision
  have hother : ¬aboutToRun (pool.threads !i) ↔ (pos !i).committed = false := by
    rw [aboutToRun_iff (h.position !i), Bool.not_eq_true]
  have hstarting : (∀ r, pool.state.1.runs.get? R.runId = some r → r.status = .starting) ↔ g ≠ .running := by
    simp [hstored.get, hshows.starting_iff]
  have hlinked : (∃ r, pool.state.1.runs.get? R.runId = some r ∧ r.status = .starting ∧ r.executionRef ≠ none) ↔
      g = .linked := by
    simp only [hstored.get, Option.some.injEq, exists_eq_left', hshows.linked_iff]
  have hat := h.position i
  have hfits := h.fits i
  unfold Undisturbed
  cases hc : pos i with
  | link =>
    rw [hc] at hat hfits
    obtain ⟨ref, event, env, rest, hprog, _⟩ := hat
    simp only [hprog, hrev, R.revision_inj, hstarting, hother, Allowed]
    by_cases hg : R.initial = g
    · subst hg
      simp [hinitial]
    · rw [if_neg hg]
      exact iff_of_false (by rw [show (calls i).isStart = true from hfits]; simp) fun h => hg h.1.symm
  | attach v =>
    rw [hc] at hat hfits
    obtain ⟨ref, event, env, rest, hprog, _⟩ := hat
    simp only [hprog, hrev, R.revision_inj, hstarting, hother, Allowed]
    by_cases hg : v = g
    · simp [hg]
    · rw [if_neg hg]
      exact iff_of_true hfits fun h => absurd h hg
  | look first =>
    rw [hc] at hat
    cases first with
    | true | false =>
      obtain ⟨env, rest, hprog, _⟩ := hat
      simp only [hprog, hlinked, hother, Allowed]
  | request | launch v =>
    rw [hc] at hat
    obtain ⟨env, name, payload, key, rest, hprog, _⟩ := hat
    simp only [hprog, Allowed]
  | find v =>
    rw [hc] at hat
    obtain ⟨rest, hprog, _⟩ := hat
    simp only [hprog, Allowed]
  | readRevision | readLinked =>
    rw [hc] at hat
    obtain ⟨env, rest, hprog, _⟩ := hat
    simp only [hprog, Allowed]
  | finish v =>
    rw [hc] at hat
    obtain ⟨event, env, rest, hprog, _⟩ := hat
    simp only [hprog, Allowed]
  | returned =>
    rw [hc] at hat
    obtain ⟨result, ref, hprog, _⟩ := hat
    simp only [hprog, Allowed]
  | raised =>
    rw [hc] at hat
    obtain ⟨e, hprog⟩ := hat
    simp only [hprog, Allowed]

theorem Tracks.step (h : Tracks R valid calls pool pos g) (hP : P.Answers valid R.runId R.triple)
    (hinitial : R.initial ≠ .running) (i : Bool) : ∃ g' c', Step R.initial g (pos i) g' c' ∧
      Tracks R valid calls (pool.step P.handler i) (Function.update pos i c') g' := by
  obtain ⟨g', c', hstep, hat, hstage, hport⟩ := simulates hP hinitial h.port h.stage (h.position i) (h.sane i)
  refine ⟨g', c', hstep, ?_, hstage, hport, ?_, ?_⟩
  · intro j
    rw [Prog.Pool.step_threads]
    by_cases hj : j = i
    · subst hj
      rw [Function.update_self, Function.update_self]
      exact hat
    · rw [Function.update_of_ne hj, Function.update_of_ne hj]
      exact h.position j
  · rw [Function.forall_update_iff pos fun _ c => Sane g' c]
    exact ⟨hstep.sane (h.sane i), fun j _ => (h.sane j).mono hstep.rank_le⟩
  · rw [Function.forall_update_iff pos fun j c => Fits (calls j).isStart c]
    exact ⟨(h.fits i).step hstep, fun j _ => h.fits j⟩

def PairDoomed (g : LinkStage) (pos : Bool → CallPosition) : Prop := Doomed g (pos false) (pos true)

theorem pairDoomed_iff (i : Bool) : PairDoomed g pos ↔ Doomed g (pos i) (pos !i) := by
  cases i with
  | false => exact Iff.rfl
  | true => exact ⟨Doomed.symm, Doomed.symm⟩

variable {c' : CallPosition}

theorem pairDoomed_update : PairDoomed g (Function.update pos i c') ↔ Doomed g c' (pos !i) := by
  rw [pairDoomed_iff i, Function.update_self, Function.update_of_ne (by simp)]

theorem Tracks.pairDoomed_step (h : Tracks R valid calls pool pos g) {g' : LinkStage}
    (hstep : Step R.initial g (pos i) g' c') :
    PairDoomed g' (Function.update pos i c') ↔ PairDoomed g pos ∨ ¬Allowed R.initial g (pos i) (pos !i) := by
  rw [pairDoomed_update, pairDoomed_iff i]
  by_cases hdoomed : Doomed g (pos i) (pos !i)
  · exact iff_of_true (hstep.doomed hdoomed) (.inl hdoomed)
  · rw [hstep.doomed_iff (h.sane i) (h.sane !i) hdoomed]
    simp [hdoomed]

theorem becomesRunning_iff {s s' : InMemoryStore} {g' : LinkStage} (hs : R.Stage g s) (hs' : R.Stage g' s') :
    becomesRunning R.runId s s' ↔ g ≠ .running ∧ g' = .running := by
  obtain ⟨r, hstored, _, hshows⟩ := hs
  obtain ⟨r', hstored', _, hshows'⟩ := hs'
  unfold becomesRunning
  rw [hstored.get, hstored'.get, Option.map_some, Option.map_some, Option.some.injEq, Option.some.injEq,
    hshows.starting_iff, hshows'.running_iff]

/-- Along a schedule the pair becomes doomed exactly when a step is disturbed, and the Run becomes
RUNNING as often as the race reaches its last stage. -/
theorem Tracks.run (h : Tracks R valid calls pool pos g) (hP : P.Answers valid R.runId R.triple)
    (hinitial : R.initial ≠ .running) (schedule : List Bool) :
    ∃ pos' g', Tracks R valid calls (MachineRuns.run (Prog.Pool.step P.handler) pool schedule) pos' g' ∧
      (PairDoomed g' pos' ↔ PairDoomed g pos ∨
        ¬MachineRuns.EveryStep (Prog.Pool.step P.handler) (Undisturbed calls R.runId) pool schedule) ∧
      runningTransitions P R.runId pool schedule + (if g = .running then 1 else 0) =
        (if g' = .running then 1 else 0) ∧
      ∀ i, (pos' i).remaining ≤ (pos i).remaining - schedule.count i := by
  induction schedule generalizing pool pos g with
  | nil =>
    refine ⟨pos, g, h, ?_, ?_, fun i => by simp⟩
    · simp [MachineRuns.everyStep_nil]
    · rw [runningTransitions, Nat.zero_add]
  | cons i schedule ih =>
    obtain ⟨g₁, c₁, hstep, htracks⟩ := h.step hP hinitial i
    obtain ⟨pos', g', hfinal, hdoomed, hcount, hremaining⟩ := ih htracks
    refine ⟨pos', g', hfinal, ?_, ?_, ?_⟩
    · rw [hdoomed, h.pairDoomed_step hstep, ← undisturbed_iff h hinitial i, MachineRuns.everyStep_cons]
      tauto
    · rw [← hcount, runningTransitions]
      have hle := hstep.rank_le
      have hiff := becomesRunning_iff h.stage htracks.stage
      by_cases hg : g = .running
      · have hg₁ : g₁ = .running := eq_running_of_rank_le (hg ▸ hle)
        simp [hiff, hg, hg₁]
      · simp only [hiff, hg, ne_eq, not_false_eq_true, true_and, if_false]
        omega
    · intro j
      have hj := hremaining j
      by_cases hji : j = i
      · subst hji
        rw [Function.update_self] at hj
        have hone := hstep.remaining_le
        rw [List.count_cons_self]
        omega
      · rw [Function.update_of_ne hji] at hj
        rw [List.count_cons_of_ne (Ne.symm hji)]
        exact hj

theorem done_of_remaining {c : CallPosition} (h : R.At c prog) (hc : c.remaining = 0) : ∃ outcome, prog = .done outcome := by
  cases c with
  | returned =>
    obtain ⟨result, ref, he, _⟩ := h
    exact ⟨_, he⟩
  | raised =>
    obtain ⟨e, he⟩ := h
    exact ⟨_, he⟩
  | look first => cases first <;> cases hc
  | _ => cases hc

theorem finished_of_done {c : CallPosition} (h : R.At c (.done outcome)) : c.finished = true := by
  cases c with
  | returned | raised => rfl
  | request | launch v =>
    obtain ⟨_, _, _, _, _, hprog, _⟩ := h
    cases hprog
  | link | attach v =>
    obtain ⟨_, _, _, _, hprog, _⟩ := h
    cases hprog
  | look first =>
    cases first with
    | true | false =>
      obtain ⟨_, _, hprog, _⟩ := h
      cases hprog
  | readRevision | readLinked =>
    obtain ⟨_, _, hprog, _⟩ := h
    cases hprog
  | find v =>
    obtain ⟨_, hprog, _⟩ := h
    cases hprog
  | finish v =>
    obtain ⟨_, _, _, hprog, _⟩ := h
    cases hprog

section Calls

variable {s : InMemoryStore} {p : π} {run : RunRecord} {rev : ℤ} {triple : String × String × ℤ}

def raceFor (run : RunRecord) (rev : ℤ) (triple : String × String × ℤ) : RaceSetup :=
  if run.executionRef = none then ⟨run.runId, triple, rev, .unlinked⟩ else ⟨run.runId, triple, rev - 1, .linked⟩

theorem raceFor_runId : (raceFor run rev triple).runId = run.runId := by
  unfold raceFor
  split <;> rfl

theorem raceFor_triple : (raceFor run rev triple).triple = triple := by
  unfold raceFor
  split <;> rfl

theorem answers_raceFor (hP : P.Answers valid run.runId triple) :
    P.Answers valid (raceFor run rev triple).runId (raceFor run rev triple).triple := by
  rw [raceFor_runId, raceFor_triple]
  exact hP

theorem raceFor_initial : (raceFor run rev triple).initial ≠ .running := by
  unfold raceFor
  split <;> simp

theorem raceFor_revision : (raceFor run rev triple).revision (raceFor run rev triple).initial = rev := by
  unfold raceFor
  split <;> simp [RaceSetup.revision, LinkStage.rank]

theorem raceFor_shows (hstarting : run.status = .starting)
    (href : ∀ ref, run.executionRef = some ref → ref.triple = triple) :
    (raceFor run rev triple).Shows (raceFor run rev triple).initial run := by
  unfold raceFor
  split
  · rename_i hnone
    exact ⟨hstarting, hnone⟩
  · rename_i hsome
    obtain ⟨ref, hattached⟩ := Option.ne_none_iff_exists'.mp hsome
    exact ⟨hstarting, ref, hattached, href ref hattached⟩

theorem tracks_racePool (hp : valid p) (hstored : StoredRun s run.runId run rev) (hstarting : run.status = .starting)
    (href : ∀ ref, run.executionRef = some ref → ref.triple = triple) (hretries : ∀ i, (calls i).Retries) :
    Tracks (raceFor run rev triple) valid calls (racePool calls run rev (s, p)) (fun i => (calls i).position)
      (raceFor run rev triple).initial := by
  refine ⟨?_, ⟨run, ?_, raceFor_runId.symm, raceFor_shows hstarting href⟩, hp, ?_, ?_⟩
  · intro i
    have hat := at_position (R := raceFor run rev triple) raceFor_runId.symm hstarting (hretries i)
    rw [raceFor_revision] at hat
    exact hat
  · rw [raceFor_revision, raceFor_runId]
    exact hstored
  · intro i
    cases calls i <;> trivial
  · intro i
    cases calls i <;> rfl

theorem not_pairDoomed_position : ¬PairDoomed g (fun i => (calls i).position) := by
  simp [PairDoomed, Doomed, BridgeCall.position_ne_raised, BridgeCall.position_committed]

theorem BridgeCall.remaining_position (call : BridgeCall) : call.position.remaining ≤ 8 := by
  cases call <;> simp [BridgeCall.position, CallPosition.remaining]

/-- A call has come to its end after eight requests, whatever the other does. -/
theorem done_of_eight_requests (hP : P.Answers valid run.runId triple) (hp : valid p)
    (hstored : StoredRun s run.runId run rev) (hstarting : run.status = .starting)
    (href : ∀ ref, run.executionRef = some ref → ref.triple = triple) (hretries : ∀ i, (calls i).Retries)
    {schedule : List Bool} {i : Bool} (hcount : 8 ≤ schedule.count i) :
    ∃ outcome, (MachineRuns.run (Prog.Pool.step P.handler) (racePool calls run rev (s, p)) schedule).threads i = .done outcome := by
  have htracks := tracks_racePool hp hstored hstarting href hretries
  obtain ⟨pos, g, hfinal, -, -, hremaining⟩ := htracks.run (answers_raceFor hP) raceFor_initial schedule
  have hle := (calls i).remaining_position
  have hend := hremaining i
  exact done_of_remaining (hfinal.position i) (by omega)

/-- Two calls that have been interleaved to their ends converge exactly when no step got in the way
of the other call. -/
theorem converged_iff_undisturbed (hP : P.Answers valid run.runId triple) (hp : valid p)
    (hstored : StoredRun s run.runId run rev) (hstarting : run.status = .starting)
    (href : ∀ ref, run.executionRef = some ref → ref.triple = triple) (hretries : ∀ i, (calls i).Retries)
    {schedule : List Bool}
    (hdone : ∀ i, ∃ outcome,
      (MachineRuns.run (Prog.Pool.step P.handler) (racePool calls run rev (s, p)) schedule).threads i = .done outcome) :
    Converged P run.runId triple (racePool calls run rev (s, p)) schedule ↔
      MachineRuns.EveryStep (Prog.Pool.step P.handler) (Undisturbed calls run.runId) (racePool calls run rev (s, p))
        schedule := by
  have htracks := tracks_racePool hp hstored hstarting href hretries
  have hid : (raceFor run rev triple).runId = run.runId := raceFor_runId
  obtain ⟨pos, g, hfinal, hdoomed, hcount, _⟩ := htracks.run (answers_raceFor hP) raceFor_initial schedule
  rw [hid] at hdoomed hcount
  have hfinished : ∀ i, (pos i).finished = true := by
    intro i
    obtain ⟨outcome, houtcome⟩ := hdone i
    have hat := hfinal.position i
    rw [houtcome] at hat
    exact finished_of_done hat
  rw [or_iff_right not_pairDoomed_position] at hdoomed
  constructor
  · intro hconverged
    by_contra hnot
    have hraised := doomed_of_finished (hdoomed.mpr hnot) (hfinished false) (hfinished true)
    obtain ⟨i, hi⟩ : ∃ i, pos i = .raised := hraised.elim (⟨false, ·⟩) (⟨true, ·⟩)
    have hat := hfinal.position i
    rw [hi] at hat
    obtain ⟨e, he⟩ := hat
    obtain ⟨result, _, hreturned, _⟩ := hconverged.returned i
    exact absurd (he.symm.trans hreturned) (by simp)
  · intro hevery
    have hclear : ¬PairDoomed g pos := fun h => hdoomed.mp h hevery
    have hreturned : ∀ i, pos i = .returned := fun i =>
      returned_of_finished ((pairDoomed_iff i).not.mp hclear) (hfinished i)
    have hrunning : g = .running := by
      have hsane := hfinal.sane false
      rw [hreturned false] at hsane
      exact hsane
    refine ⟨?_, ?_, ?_⟩
    · intro i
      have hat := hfinal.position i
      rw [hreturned i] at hat
      obtain ⟨result, ref, hprog, href, hsame⟩ := hat
      exact ⟨result, ref, hprog, href, hsame.trans raceFor_triple⟩
    · obtain ⟨r, hstored', _, hshows⟩ := hfinal.stage
      rw [hid] at hstored'
      exact ⟨r, hstored'.get, hshows.running_iff.mpr hrunning⟩
    · rw [if_neg raceFor_initial, if_pos hrunning] at hcount
      exact hcount

end Calls

end Interleaving

/-- The backend is up and its reference for the Run, if there is one, is its own. -/
def FakeDurableAdapter.ServesRun (runId : RunId) (a : FakeDurableAdapter) : Prop :=
  a.simulateUnavailable = false ∧
    ∀ ref, a.runsToRef.get? runId.val = some ref → ref.triple = ("fake_durable", "exec_" ++ runId.val, 1)

theorem FakeDurableAdapter.answers (runId : RunId) :
    port.Answers (ServesRun runId) runId ("fake_durable", "exec_" ++ runId.val, 1) := by
  constructor
  · intro env name payload key s a ha
    cases hget : a.runsToRef.get? runId.val with
    | some ref =>
      refine ⟨ref, a, ?_, ha.2 ref hget, ha⟩
      simp only [port, FakeDurableAdapter.start, ha.1, Bool.false_eq_true, if_false, hget]
    | none =>
      refine ⟨newRef env runId.val, a.started env runId.val name payload, ?_, rfl, ha.1, ?_⟩
      · simp only [port, FakeDurableAdapter.start, ha.1, Bool.false_eq_true, if_false, hget, started]
      · intro ref href
        change (a.runsToRef.set _ _).get? _ = _ at href
        rw [InsertionDict.get?_set_self] at href
        cases href
        rfl
  · intro s a ha
    refine ⟨a.runsToRef.get? runId.val, a, ?_, ha.2, ha⟩
    simp only [port, FakeDurableAdapter.findByRunId, ha.1, Bool.false_eq_true, if_false]

theorem FakeDurableAdapter.servesRun_init (runId : RunId) : init.ServesRun runId :=
  ⟨rfl, fun ref h => by simp [init] at h⟩

def twoReconcilers : Bool → BridgeCall := fun _ => .reconcileOne defaultBridge frozenSupply

def serialSchedule : List Bool := [false, false, false, false, false, false, false, true]

/-- The second reconciler looks at the Run between the attach and the transition of the first. -/
def racingSchedule : List Bool := [false, false, false, false, false, false, true, true, false, true]

/-- One after the other, two reconcilers converge and do not disturb each other. -/
theorem serial_reconcilers_converge : Converged FakeDurableAdapter.port ⟨"run_1"⟩ ("fake_durable", "exec_run_1", 1)
        (racePool twoReconcilers sampleRun 1 (seededStore, .init)) serialSchedule ∧
      MachineRuns.EveryStep (Prog.Pool.step FakeDurableAdapter.port.handler) (Undisturbed twoReconcilers ⟨"run_1"⟩)
        (racePool twoReconcilers sampleRun 1 (seededStore, .init)) serialSchedule := by
  have hconverged : Converged FakeDurableAdapter.port ⟨"run_1"⟩ ("fake_durable", "exec_run_1", 1)
      (racePool twoReconcilers sampleRun 1 (seededStore, .init)) serialSchedule := by
    refine ⟨?_, ⟨_, rfl, rfl⟩, rfl⟩
    intro i
    cases i <;> exact ⟨_, _, rfl, rfl, rfl⟩
  have hretries : ∀ i, (twoReconcilers i).Retries := fun _ => show (2 : ℤ) ≤ 3 by decide
  have hstored : StoredRun seededStore sampleRun.runId sampleRun 1 := ⟨rfl, rfl⟩
  refine ⟨hconverged, (converged_iff_undisturbed (FakeDurableAdapter.answers ⟨"run_1"⟩)
    (FakeDurableAdapter.servesRun_init _) hstored rfl (fun ref h => by cases h) hretries ?_).mp hconverged⟩
  intro i
  cases i <;> exact ⟨_, rfl⟩

/-- The second reconciler raises although both find the same execution. -/
theorem racing_reconcilers_do_not_converge :
    (∀ i, ∃ outcome, (MachineRuns.run (Prog.Pool.step FakeDurableAdapter.port.handler)
      (racePool twoReconcilers sampleRun 1 (seededStore, .init)) racingSchedule).threads i = .done outcome) ∧
    ¬Converged FakeDurableAdapter.port ⟨"run_1"⟩ ("fake_durable", "exec_run_1", 1)
      (racePool twoReconcilers sampleRun 1 (seededStore, .init)) racingSchedule := by
  constructor
  · intro i
    cases i <;> exact ⟨_, rfl⟩
  · intro h
    obtain ⟨result, _, hreturned, _⟩ := h.returned true
    cases hreturned

end AllTomorrow
