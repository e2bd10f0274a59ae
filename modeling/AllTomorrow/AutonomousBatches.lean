import AllTomorrow.AutonomousWork
import AllTomorrow.FilesAndRecords

/-!
# What one batch of `materialize_actions` can do

A batch leaves the store alone, appends one event, or creates a Goal and a Work after every check
has passed. The Works that the overseer has made are read off their creation events.
-/

namespace AllTomorrow.Overseer

open InsertionDict (get?_set get?_set_self)

open EStateM Researcher

/-! ## Works made by the overseer -/

def made (s : InMemoryStore) : List SemanticEvent := s.events.filter madeByMetacog

def decided (e : SemanticEvent) (key : String) : PyValue :=
  match e.payload.get? "decision" with
  | some (.dict entries) => (entries.lookup key).getD .none
  | _ => .none

def isOpenIn (s : InMemoryStore) (e : SemanticEvent) : Bool := (e.workId.bind s.work.get?).any fun w => !w.isTerminal

def purposeOf (o : Surroundings) (e : SemanticEvent) : Option String :=
  (o.purposeKey (decided e "project_id") (decided e "title")).toOption

def madeForSelf (o : Surroundings) (e : SemanticEvent) : Bool :=
  isText (decided e "project_id") "all-tomorrow" || isText (decided e "project_root") o.repo

def fingerprintOf (e : SemanticEvent) : PyValue := (e.payload.get? "fingerprint").getD .none

def madeOn (day : ℤ) (e : SemanticEvent) : Bool := madeByMetacog e && utcDay e.occurredAt = day

variable {ledger reserved : BudgetLedger} {lineageId : String}

theorem BudgetLedger.reserveWork_ok {env : Supply} (h : ledger.reserveWork env lineageId = .ok reserved) :
    (ledger.used lineageId).createdWork + 1 ≤ ledger.config.maxCreatedWork ∧ reserved.config = ledger.config ∧
      (reserved.used lineageId).createdWork = (ledger.used lineageId).createdWork + 1 := by
  unfold reserveWork at h
  rw [except_bind_ok] at h
  obtain ⟨_, -, h⟩ := h
  rw [except_bind_ok] at h
  obtain ⟨_, -, h⟩ := h
  dsimp only at h
  split at h
  · cases h
  · rename_i hle
    cases h
    refine ⟨by omega, rfl, ?_⟩
    simp [used, get?_set_self]

/-- After the reservations of the day the ledger holds their number. -/
theorem reserveMade_ok {env : Supply} {day : ℤ} {previous : List SemanticEvent} (h : reserveMade env day lineageId previous ledger = .ok reserved) :
    reserved.config = ledger.config ∧
      (reserved.used lineageId).createdWork = (ledger.used lineageId).createdWork + previous.countP (madeOn day) := by
  induction previous generalizing env ledger with
  | nil =>
    cases h
    simp
  | cons e rest ih =>
    unfold reserveMade at h
    by_cases hday : (madeByMetacog e && decide (utcDay e.occurredAt = day)) = true
    · rw [if_pos hday, except_bind_ok] at h
      obtain ⟨next, hnext, hrest⟩ := h
      obtain ⟨-, hconfig', hused'⟩ := BudgetLedger.reserveWork_ok hnext
      obtain ⟨hconfig, hused⟩ := ih hrest
      refine ⟨hconfig.trans hconfig', ?_⟩
      rw [hused, hused', List.countP_cons_of_pos (show madeOn day e = true from hday)]
      push_cast
      omega
    · rw [if_neg hday] at h
      obtain ⟨hconfig, hused⟩ := ih h
      refine ⟨hconfig, ?_⟩
      rw [hused, List.countP_cons_of_neg (show ¬madeOn day e = true from hday)]

theorem BudgetLedger.used_registerLineage (env : Supply) (lineageId : String) (ledger : BudgetLedger) :
    (ledger.registerLineage env lineageId).used lineageId = ledger.used lineageId := by
  unfold registerLineage used
  rw [get?_set_self]
  rfl

section AtOnce

variable {α β : Type} {s : InMemoryStore} {Q : α → InMemoryStore → Prop} {S : β → InMemoryStore → Prop}
  {E : Exn → InMemoryStore → Prop}

theorem ends_atOnce_bind {x : StoreTask α} {f : α → StoreTask β} (hx : Ends (atOnce x) s Q E)
    (hf : ∀ a s', Q a s' → Ends (atOnce (f a)) s' S E) : Ends (atOnce (x >>= f)) s S E := by
  unfold Ends atOnce at hx ⊢
  rw [Prog.evalTask_bind]
  cases hrun : Prog.evalTask storeHandler x s with
  | mk result s' =>
    rw [hrun] at hx
    cases result with
    | error e => exact hx
    | ok a => exact hf a s' hx

theorem ends_atOnce_pure {a : α} (h : Q a s) : Ends (atOnce (pure a : StoreTask α)) s Q E := h

theorem ends_atOnce_throw {e : Exn} (h : E e s) : Ends (atOnce (throw e : StoreTask α)) s Q E := h

theorem ends_atOnce_ofExcept {r : Except Exn α} (hok : ∀ a, r = .ok a → Q a s) (herror : ∀ e, r = .error e → E e s) :
    Ends (atOnce (MonadExcept.ofExcept r : StoreTask α)) s Q E := by
  cases r with
  | ok a => exact hok a rfl
  | error e => exact herror e rfl

theorem ends_ask {op : StoreOp} {env : Supply} {Q : op.Result → InMemoryStore → Prop} (h : Ends (op.exec env) s Q E) :
    Ends (atOnce (ask op env)) s Q E := by
  have heval : Prog.evalTask storeHandler (ask op env) s = (((op.exec env) s).outcome, ((op.exec env) s).state) := rfl
  unfold Ends atOnce at *
  rw [heval]
  cases hrun : (op.exec env) s with
  | ok a s' =>
    rw [hrun] at h
    exact h
  | error e s' =>
    rw [hrun] at h
    exact h

end AtOnce

/-! ## Decisions of the overseer -/

section Decisions

variable {s : InMemoryStore} {env : Supply} {sha256 : String → String} {m : DecisionMaterializer} {d : Decision}

structure IsPlain (e : SemanticEvent) : Prop where
  notMade : madeByMetacog e = false
  notMarker : e.type ≠ JudgementEvent.wakeApplied.type

def OnlyNotes (s s' : InMemoryStore) : Prop := ∃ new, s'.events = s.events ++ new ∧ ∀ e ∈ new, IsPlain e

theorem OnlyNotes.refl (s : InMemoryStore) : OnlyNotes s s := ⟨[], (List.append_nil _).symm, by simp⟩

theorem ends_recorded (hs : s.WellFormed) : Ends (atOnce (m.recorded env d)) s (fun _ s' => s' = s) fun _ _ => True := by
  unfold DecisionMaterializer.recorded
  split
  · refine ends_atOnce_bind (ends_ask (ends_exec hs (.listEvents none none none) (Q := fun _ s' => s' = s)
      (fun _ _ heffect => ?_) fun _ _ _ => trivial)) ?_
    · cases heffect with
      | read => rfl
    · rintro events s' rfl
      exact ends_atOnce_pure rfl
  · exact ends_atOnce_pure rfl

theorem ends_materialize (hs : s.WellFormed) {P : InMemoryStore → Prop} (hkept : P s)
    (hdispatch : Ends (atOnce (m.dispatch sha256 (env.sub 1) d)) s (fun r s' => P s' ∧ r.2.actor = m.actor) fun _ _ => True) :
    Ends (atOnce (m.materialize sha256 env d)) s (fun r s' => P s' ∧ r.2.actor = m.actor) fun _ _ => True := by
  unfold DecisionMaterializer.materialize
  refine ends_atOnce_bind (ends_recorded hs) ?_
  rintro found s' rfl
  cases found with
  | some result => exact ends_atOnce_pure ⟨hkept, rfl⟩
  | none =>
    dsimp only
    split
    · exact ends_atOnce_pure ⟨hkept, rfl⟩
    · exact ends_atOnce_bind hdispatch fun r s' hP => ends_atOnce_pure hP

theorem ends_materialize_goal (hs : s.WellFormed) (haction : d.action = .createGoal) :
    Ends (atOnce (m.materialize sha256 env d)) s
      (fun r s' => (s'.WellFormed ∧ s'.work = s.work ∧ OnlyNotes s s') ∧ r.2.actor = m.actor) fun _ _ => True := by
  refine ends_materialize (P := fun s' => s'.WellFormed ∧ s'.work = s.work ∧ OnlyNotes s s') hs ⟨hs, rfl, .refl s⟩ ?_
  unfold DecisionMaterializer.dispatch
  rw [haction]
  refine ends_atOnce_bind (Q := fun _ s' => s'.WellFormed ∧ s'.work = s.work ∧ OnlyNotes s s') ?_ fun _ s' h =>
    ends_atOnce_pure ⟨h, rfl⟩
  unfold DecisionMaterializer.createGoal
  refine ends_atOnce_bind (ends_atOnce_ofExcept (Q := fun _ s' => s' = s) (fun _ _ => rfl) fun _ _ => trivial) ?_
  rintro title s rfl
  refine ends_atOnce_bind (ends_ask (ends_exec hs (.createGoal _ _) (Q := fun _ s' => s'.WellFormed ∧ s'.work = s.work ∧
    OnlyNotes s s') (fun _ s' heffect => ?_) fun _ _ _ => trivial)) fun _ s' h => ends_atOnce_pure h
  have hwell := heffect.wellFormed hs
  cases heffect with
  | read _ hread => cases hread
  | goalCreated goal event hfresh =>
    refine ⟨hwell, rfl, [_], rfl, fun e he => ?_⟩
    rw [List.mem_singleton.mp he]
    have htype : ("researcher.create_goal" : String) ≠ "researcher.create_work" := by decide
    have hmarker : ("researcher.create_goal" : String) ≠ JudgementEvent.wakeApplied.type := by decide
    exact ⟨Bool.and_eq_false_iff.mpr (.inr (decide_eq_false htype)), hmarker⟩

structure NewWork (m : DecisionMaterializer) (env : Supply) (d : Decision) (w : WorkRecord) (e : SemanticEvent) : Prop where
  actor : e.actor = m.actor.name
  type : e.type = "researcher.create_work"
  workId : e.workId = some w.workId
  occurredAt : e.occurredAt = ((env.sub 2).sub 1).utcNow
  decision : e.payload.get? "decision" = some (.dict d.payload.entries)
  fingerprint : e.payload.get? "fingerprint" = some ((d.payload.get? "fingerprint").getD .none)
  isTerminal : w.isTerminal = false

theorem ends_lookupKey (hs : s.WellFormed) (v : PyValue) :
    Ends (atOnce (lookupKey v fun goalId => ask (.getGoal ⟨goalId⟩) env)) s (fun _ s' => s' = s) fun _ _ => True := by
  unfold lookupKey
  split
  · refine ends_ask (ends_exec hs (.getGoal _) (fun _ _ heffect => ?_) fun _ _ _ => trivial)
    cases heffect with
    | read => rfl
  · exact ends_atOnce_throw trivial
  · exact ends_atOnce_throw trivial
  all_goals exact ends_atOnce_pure rfl

def WorkAdded (m : DecisionMaterializer) (env : Supply) (d : Decision) (s s' : InMemoryStore) : Prop :=
  s' = s ∨ ∃ w e, NewWork m (env.sub 1) d w e ∧ s.work.get? w.workId = none ∧
    s' = { s with work := s.work.set w.workId w, events := s.events ++ [e] }

theorem ends_materialize_work (hs : s.WellFormed) (haction : d.action = .createWork) :
    Ends (atOnce (m.materialize sha256 env d)) s (fun _ s' => s'.WellFormed ∧ WorkAdded m env d s s') fun _ _ => True := by
  refine (ends_materialize (P := fun s' => s'.WellFormed ∧ WorkAdded m env d s s') hs ⟨hs, .inl rfl⟩ ?_).mono
    (fun _ _ h => h.1) fun _ _ h => h
  unfold DecisionMaterializer.dispatch
  rw [haction]
  refine ends_atOnce_bind (Q := fun _ s' => s'.WellFormed ∧ WorkAdded m env d s s') ?_ fun _ s' h => ends_atOnce_pure ⟨h, rfl⟩
  unfold DecisionMaterializer.createWork
  refine ends_atOnce_bind (ends_atOnce_ofExcept (Q := fun _ s' => s' = s) (fun _ _ => rfl) fun _ _ => trivial) ?_
  rintro target s rfl
  refine ends_atOnce_bind (ends_lookupKey hs target) ?_
  rintro goal s rfl
  cases goal with
  | none => exact ends_atOnce_throw trivial
  | some goal =>
    dsimp only
    split
    · exact ends_atOnce_throw trivial
    refine ends_atOnce_bind (ends_atOnce_ofExcept (Q := fun _ s' => s' = s) (fun _ _ => rfl) fun _ _ => trivial) ?_
    rintro title s rfl
    refine ends_atOnce_bind (ends_ask (ends_exec hs (.createWork _ _) (Q := fun _ s' => s'.WellFormed ∧
      WorkAdded m env d s s') (fun _ s' heffect => ?_) fun _ _ _ => trivial)) fun _ s' h => ends_atOnce_pure h
    have hwell := heffect.wellFormed hs
    cases heffect with
    | read _ hread => cases hread
    | workCreated work event hfresh hgoal =>
      refine ⟨hwell, .inr ⟨_, _, ⟨rfl, rfl, rfl, rfl, ?_, ?_, rfl⟩, hfresh, rfl⟩⟩
      · change ((((m.evidencePayload d).set "executor" _).set "fingerprint" _).set "decision_id" _).get? "decision" = _
        rw [DecisionMaterializer.evidencePayload]
        simp only [get?_set]
        rfl
      · change ((((m.evidencePayload d).set "executor" _).set "fingerprint" _).set "decision_id" _).get? "fingerprint" = _
        simp only [get?_set]
        rfl

end Decisions

/-! ## One batch -/

section Batch

variable (o : Surroundings) (c : WakeCall) (a : ReadAction) (env : Supply) (s : InMemoryStore)

structure Creates (fingerprint : String) : Prop where
  unseen : s.events.any (hasText "source_action" a.did) = false
  isFix : a.isOrdinaryFix = true
  isCommand : isCommand a.verifyArgv = true
  evident : ∃ refs problemKey, evidence c a = .ok (refs, problemKey) ∧
    o.dedupFingerprint a.projectId problemKey = .ok fingerprint
  alone : ∃ key opened, o.purposeKey a.projectId (.str a.title) = .ok key ∧ openMetacogWork s s.events = .ok opened ∧
    (∀ w ∈ opened, samePurpose o key w = .ok false) ∧
    (o.isSelfProject c.resolve a.projectId a.project = true → ∀ w ∈ opened, onSelf o c w = .ok false)
  unused : s.events.any (hasText "fingerprint" fingerprint) = false
  withinBudget : (s.events.countP (madeOn (utcDay ((env.sub 1).sub 0).utcNow)) : ℤ) < c.dailyLimit

structure RecordsWork (fingerprint : String) (w : WorkRecord) (e : SemanticEvent) : Prop where
  made : madeByMetacog e = true
  workId : e.workId = some w.workId
  occurredAt : e.occurredAt = (((((((env.sub 1).sub 4).sub 1).sub 1).sub 2)).sub 1).utcNow
  decision : ∃ goalId lineageId, e.payload.get? "decision" = some (.dict (workPayload c a goalId fingerprint lineageId).entries)
  fingerprint : e.payload.get? "fingerprint" = some (.str fingerprint)
  isTerminal : w.isTerminal = false

inductive Judged : InMemoryStore → Prop
  | kept : Judged s
  | noted {e : SemanticEvent} (h : IsPlain e) : Judged { s with events := s.events ++ [e] }
  | goal {fingerprint : String} (h : Creates o c a env s fingerprint) {s' : InMemoryStore} (hs' : s'.WellFormed)
      (hwork : s'.work = s.work) (hnotes : OnlyNotes s s') : Judged s'
  | work {fingerprint : String} (h : Creates o c a env s fingerprint) {s' : InMemoryStore} (hs' : s'.WellFormed)
      {w : WorkRecord} {e : SemanticEvent} {new : List SemanticEvent} (he : RecordsWork c a env fingerprint w e)
      (hfresh : s.work.get? w.workId = none) (hwork : s'.work = s.work.set w.workId w)
      (hnew : ∀ e ∈ new, IsPlain e) (hevents : s'.events = s.events ++ new ++ [e]) : Judged s'

variable {o c a env s}

theorem anyOf_ok {α : Type} {p : α → Except Exn Bool} {xs : List α} (h : anyOf p xs = .ok false) :
    ∀ x ∈ xs, p x = .ok false := by
  induction xs with
  | nil => simp
  | cons x xs ih =>
    unfold anyOf at h
    rw [except_bind_ok] at h
    obtain ⟨b, hb, hrest⟩ := h
    cases b with
    | true => cases hrest
    | false =>
      intro y hy
      rcases List.mem_cons.mp hy with rfl | hy
      · exact hb
      · exact ih hrest y hy

variable {refs : List String}

theorem decision_ok {action ident : String} {data : PyDict} {d : Decision} {act : Action}
    (haction : Action.ofValue action = some act) (h : decision c a refs action ident data = .ok d) :
    d.action = act ∧ d.payload = data := by
  unfold decision validateDecision at h
  dsimp only at h
  rw [haction] at h
  dsimp only at h
  rw [except_bind_ok] at h
  obtain ⟨_, -, h⟩ := h
  rw [except_bind_ok] at h
  obtain ⟨_, -, h⟩ := h
  rw [except_bind_ok] at h
  obtain ⟨_, -, h⟩ := h
  cases h
  exact ⟨rfl, rfl⟩

theorem ofValue_createGoal : Action.ofValue "CREATE_GOAL" = some .createGoal := by decide

theorem ofValue_createWork : Action.ofValue "CREATE_WORK" = some .createWork := by decide

theorem ends_note (e : SemanticEvent) {E : Exn → InMemoryStore → Prop} :
    Ends (InMemoryStore.appendEvent e) s (fun _ s' => s' = s ∨ s' = { s with events := s.events ++ [e] }) E := by
  unfold InMemoryStore.appendEvent
  exact ends_get_bind (ends_ite (fun _ => ends_modify (.inr rfl)) fun _ => ends_pure (.inl rfl))

variable {kind : JudgementEvent}

theorem isPlain_noteEvent (env : Supply) (payload : PyDict) (hkind : kind ≠ .wakeApplied) :
    IsPlain (noteEvent env kind payload) := by
  have htype : kind.type ≠ "researcher.create_work" := by cases kind <;> decide
  have hmarker : kind.type ≠ JudgementEvent.wakeApplied.type := by
    cases kind with
    | wakeApplied => exact absurd rfl hkind
    | question | report | deferred | selfWorkDeferred | budgetDeferred => decide
  exact ⟨Bool.and_eq_false_iff.mpr (.inr (decide_eq_false htype)), hmarker⟩

theorem judged_note {s' : InMemoryStore} {payload : PyDict} {env' : Supply}
    (h : s' = s ∨ s' = { s with events := s.events ++ [noteEvent env' kind payload] }) (hkind : kind ≠ .wakeApplied) :
    Judged o c a env s s' := by
  rcases h with rfl | rfl
  · exact .kept
  · exact .noted (isPlain_noteEvent _ _ hkind)

theorem ends_reportOrAsk (previous : List SemanticEvent) (env' : Supply) :
    Ends (reportOrAsk o a previous env') s (fun _ s' => Judged o c a env s s') fun _ _ => True := by
  unfold reportOrAsk
  refine Ends.bind (ends_ofExcept (Q := fun _ s' => s' = s) (fun _ _ => rfl) fun _ _ => trivial) ?_
  rintro key s rfl
  refine Ends.bind (ends_ofExcept (Q := fun _ s' => s' = s) (fun _ _ => rfl) fun _ _ => trivial) ?_
  rintro sent s rfl
  refine ends_ite (fun _ => ends_pure .kept) fun _ => ?_
  exact Ends.bind (ends_note _) fun _ s' h => ends_pure (judged_note h (by split <;> nofun))

theorem ends_createBoth (hs : s.WellFormed) {fingerprint lineageId : String} (hcreates : Creates o c a env s fingerprint) :
    Ends (createBoth o c a refs fingerprint lineageId ((env.sub 1).sub 4)) s (fun _ s' => Judged o c a env s s')
      fun _ _ => True := by
  unfold createBoth
  refine Ends.bind (ends_ofExcept (Q := fun d s' => s' = s ∧ decision c a refs "CREATE_GOAL" ("goal:" ++ fingerprint)
    (goalPayload a) = .ok d) (fun _ h => ⟨rfl, h⟩) fun _ _ => trivial) ?_
  rintro goalDecision s ⟨rfl, hgoalDecision⟩
  refine Ends.bind (ends_materialize_goal hs (decision_ok ofValue_createGoal hgoalDecision).1) ?_
  intro goal s₁ h
  -- otherwise the case distinctions below would evaluate the decision
  generalize hworkDecision : decision c a refs "CREATE_WORK" ("work:" ++ fingerprint)
    (workPayload c a goal.1.goalId fingerprint lineageId) = validated
  obtain ⟨⟨hwell, hwork, new, hevents, hnew⟩, hactor⟩ := h
  cases validated with
  | error e => exact ends_throw_bind trivial
  | ok workDecision =>
  obtain ⟨haction, hpayload⟩ := decision_ok ofValue_createWork hworkDecision
  refine Ends.bind (Q := fun d s' => s' = s₁ ∧ d = workDecision) (ends_pure ⟨rfl, rfl⟩) ?_
  rintro _ _ ⟨rfl, rfl⟩
  refine Ends.bind (ends_materialize_work hwell haction) ?_
  rintro work s₂ ⟨hwell₂, hadded⟩
  refine ends_pure ?_
  rcases hadded with rfl | ⟨w, e, hnewWork, hfresh, rfl⟩
  · exact .goal hcreates hwell hwork ⟨new, hevents, hnew⟩
  · refine .work hcreates hwell₂ ⟨?_, hnewWork.workId, hnewWork.occurredAt, ⟨goal.1.goalId, lineageId, ?_⟩, ?_,
      hnewWork.isTerminal⟩ (hwork ▸ hfresh) (by rw [hwork]) hnew (by rw [hevents])
    · have hname : e.actor = "metacog" := hnewWork.actor.trans (congrArg Actor.name hactor)
      simp [madeByMetacog, hname, hnewWork.type]
    · rw [hnewWork.decision, hpayload]
    · rw [hnewWork.fingerprint, hpayload, workPayload]
      simp only [get?_set]
      rfl

theorem ends_createWithinBudget (hs : s.WellFormed) {fingerprint : String}
    (hcreates : (s.events.countP (madeOn (utcDay ((env.sub 1).sub 0).utcNow)) : ℤ) < c.dailyLimit →
      Creates o c a env s fingerprint) :
    Ends (createWithinBudget o c a refs fingerprint s.events (env.sub 1)) s (fun _ s' => Judged o c a env s s')
      fun _ _ => True := by
  unfold createWithinBudget
  refine Ends.bind (ends_ofExcept (Q := fun ledger s' => s' = s ∧ reserveMade ((env.sub 1).sub 2) _ _ s.events
    (BudgetLedger.registerLineage _ _ _) = Except.ok ledger) (fun _ h => ⟨rfl, h⟩) fun _ _ => trivial) ?_
  rintro ledger s ⟨rfl, hmade⟩
  obtain ⟨hconfig, hused⟩ := reserveMade_ok hmade
  cases hreserve : ledger.reserveWork ((env.sub 1).sub 3) (o.isoDate (utcDay ((env.sub 1).sub 0).utcNow)) with
  | error e =>
    dsimp only
    refine ends_ite (fun _ => ?_) fun _ => ends_throw trivial
    exact Ends.bind (ends_note _) fun _ s' h => ends_pure (judged_note h nofun)
  | ok reserved =>
    refine ends_createBoth hs (hcreates ?_)
    obtain ⟨hle, -, -⟩ := BudgetLedger.reserveWork_ok hreserve
    rw [hused, BudgetLedger.used_registerLineage, hconfig] at hle
    change (0 : ℤ) + _ + 1 ≤ c.dailyLimit at hle
    omega

theorem ends_fixProject (hs : s.WellFormed) {problemKey : PyValue}
    (hunseen : s.events.any (hasText "source_action" a.did) = false) (hfix : a.isOrdinaryFix = true)
    (hcommand : isCommand a.verifyArgv = true) (hevidence : evidence c a = .ok (refs, problemKey)) :
    Ends (fixProject o c a refs problemKey s.events env) s (fun _ s' => Judged o c a env s s') fun _ _ => True := by
  unfold fixProject
  refine ends_get_bind (Ends.bind (ends_ofExcept (Q := fun opened s' => s' = s ∧ openMetacogWork s s.events = .ok opened)
    (fun _ h => ⟨rfl, h⟩) fun _ _ => trivial) ?_)
  rintro opened s ⟨rfl, hopened⟩
  refine Ends.bind (ends_ofExcept (Q := fun key s' => s' = s ∧ o.purposeKey a.projectId (.str a.title) = .ok key)
    (fun _ h => ⟨rfl, h⟩) fun _ _ => trivial) ?_
  rintro key s ⟨rfl, hkey⟩
  refine Ends.bind (ends_ofExcept (Q := fun same s' => s' = s ∧ anyOf (samePurpose o key) opened = .ok same)
    (fun _ h => ⟨rfl, h⟩) fun _ _ => trivial) ?_
  rintro same s ⟨rfl, hsame⟩
  refine ends_ite (fun _ => ends_pure .kept) fun hnotSame => ?_
  rw [Bool.not_eq_true] at hnotSame
  subst hnotSame
  refine Ends.bind (ends_ofExcept (Q := fun self s' => s' = s ∧ (if o.isSelfProject c.resolve a.projectId a.project then
    anyOf (onSelf o c) opened else .ok false) = .ok self) (fun _ h => ⟨rfl, h⟩) fun _ _ => trivial) ?_
  rintro self s ⟨rfl, hself⟩
  refine ends_ite (fun _ => ?_) fun hnotSelf => ?_
  · refine Ends.bind (ends_ofExcept (Q := fun _ s' => s' = s) (fun _ _ => rfl) fun _ _ => trivial) ?_
    rintro onSelves s rfl
    exact Ends.bind (ends_note _) fun _ s' h => ends_pure (judged_note h nofun)
  rw [Bool.not_eq_true] at hnotSelf
  subst hnotSelf
  refine Ends.bind (ends_ofExcept (Q := fun fingerprint s' => s' = s ∧
    o.dedupFingerprint a.projectId problemKey = .ok fingerprint) (fun _ h => ⟨rfl, h⟩) fun _ _ => trivial) ?_
  rintro fingerprint s ⟨rfl, hfingerprint⟩
  refine ends_ite (fun _ => ends_pure .kept) fun hunused => ?_
  rw [Bool.not_eq_true] at hunused
  refine ends_createWithinBudget hs fun hbudget => ⟨hunseen, hfix, hcommand, ⟨refs, problemKey, hevidence, hfingerprint⟩,
    ⟨key, opened, hkey, hopened, anyOf_ok hsame, fun hisSelf => ?_⟩, hunused, hbudget⟩
  rw [if_pos hisSelf] at hself
  exact anyOf_ok hself

theorem ends_judge (env : Supply) (hs : s.WellFormed) :
    Ends (judge o c a env) s (fun _ s' => Judged o c a env s s') fun _ _ => True := by
  unfold judge
  refine ends_get_bind (ends_ite (fun _ => ends_pure .kept) fun hunseen => ends_ite (fun _ => ends_reportOrAsk _ _)
    fun hfix => ends_ite (fun _ => ?_) fun hcommand => ?_)
  · exact Ends.bind (ends_note _) fun _ s' h => ends_pure (judged_note h nofun)
  rw [Bool.not_eq_true] at hunseen
  rw [Bool.not_eq_true, Bool.not_eq_false'] at hfix hcommand
  refine Ends.bind (ends_ofExcept (Q := fun found s' => s' = s ∧ evidence c a = .ok found) (fun _ h => ⟨rfl, h⟩)
    fun _ _ => trivial) ?_
  rintro ⟨refs, problemKey⟩ s ⟨rfl, hevidence⟩
  exact ends_fixProject hs hunseen hfix hcommand hevidence

theorem judged_materializeAction (env : Supply) (hs : s.WellFormed) (i : ℕ) (untrusted : PyValue) :
    (materializeAction o c i untrusted env s).state = s ∨
      ∃ a, readAction o c i untrusted = .ok a ∧ Judged o c a env s (materializeAction o c i untrusted env s).state := by
  unfold materializeAction
  cases hread : readAction o c i untrusted with
  | error e => exact .inl rfl
  | ok a =>
    right
    refine ⟨a, rfl, ?_⟩
    change Judged o c a env s (batched (judge o c a env) s).state
    have hends := ends_judge (o := o) (c := c) (a := a) env hs
    unfold Ends at hends
    unfold batched
    cases hrun : judge o c a env s with
    | ok result s' =>
      rw [hrun] at hends
      exact hends
    | error e s' => exact .kept

end Batch

end AllTomorrow.Overseer
