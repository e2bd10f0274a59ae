import AllTomorrow.AutonomousBatches

/-!
# The limits of autonomous Work

Over any calls of `materialize_actions` and any other use of the store: what bounds the Works that
the overseer makes itself, and when a call that is repeated makes nothing.
-/

namespace AllTomorrow.Overseer

open InsertionDict (get?_set)

open EStateM Researcher MachineRuns

/-! ## The clock -/

/-- The clock does not go back while a call runs: a later step has a later path. -/
def Ordered (env : Supply) : Prop := ∀ p q : List ℕ, List.Lex (· < ·) p q → (env p).now ≤ (env q).now

theorem Ordered.sub {env : Supply} (h : Ordered env) (n : ℕ) : Ordered (env.sub n) :=
  fun p q hpq => h (n :: p) (n :: q) (.cons hpq)

structure Forward (s : InMemoryStore) (env : Supply) : Prop where
  ordered : Ordered env
  later : ∀ e ∈ made s, ∀ p, e.occurredAt ≤ (env p).now

theorem Forward.sub {s : InMemoryStore} {env : Supply} (h : Forward s env) (n : ℕ) : Forward s (env.sub n) :=
  ⟨h.ordered.sub n, fun e he p => h.later e he (n :: p)⟩

section Bounds

variable (o : Surroundings) (limit : ℤ)

/-- The limits, in one state of the store. Two places of `made s` are two Works. -/
structure Bounded (s : InMemoryStore) : Prop where
  works : ((made s).map SemanticEvent.workId).Nodup ∧ ∀ e ∈ made s, ∃ w, e.workId.bind s.work.get? = some w
  purposes : (made s).Pairwise fun e e' => isOpenIn s e = true → isOpenIn s e' = true → purposeOf o e ≠ purposeOf o e'
  selves : (made s).Pairwise fun e e' => isOpenIn s e = true → isOpenIn s e' = true →
    ¬(madeForSelf o e = true ∧ madeForSelf o e' = true)
  fingerprints : (made s).Pairwise fun e e' => fingerprintOf e ≠ fingerprintOf e'
  days : ∀ day, ((made s).countP fun e => utcDay e.occurredAt = day : ℤ) ≤ max limit 0

structure Readable (e : SemanticEvent) : Prop where
  decision : ∃ entries, e.payload.get? "decision" = some (.dict entries) ∧
    entries.lookup "project_id" = some (decided e "project_id") ∧ entries.lookup "title" = some (decided e "title")
  title : ∃ title, decided e "title" = .str title ∧ title ≠ ""
  fingerprint : ∃ fingerprint, e.payload.get? "fingerprint" = some (.str fingerprint)

structure Kept (s : InMemoryStore) : Prop extends Bounded o limit s where
  wellFormed : s.WellFormed
  readable : ∀ e ∈ made s, Readable e

/-- The registry of the call still says of each open Work that was made for All Tomorrow that it is. -/
def Recognises (c : WakeCall) (s : InMemoryStore) : Prop :=
  ∀ e ∈ made s, isOpenIn s e = true → madeForSelf o e = true →
    ∃ project, registryGet c.registry (decided e "project_id") = .ok project ∧
      o.isSelfProject c.resolve (decided e "project_id") project = true

/-- An action that could become a Work makes none: it has an event, a Work of its purpose is open, its fingerprint was
used, a Work for All Tomorrow is open, or the days of the call are full. -/
def Answered (c : WakeCall) (env : Supply) (s : InMemoryStore) (i : ℕ) (untrusted : PyValue) : Prop :=
  ∀ a refs problemKey fingerprint, readAction o c i untrusted = .ok a → a.isOrdinaryFix = true →
    isCommand a.verifyArgv = true → evidence c a = .ok (refs, problemKey) →
    o.dedupFingerprint a.projectId problemKey = .ok fingerprint →
    s.events.any (hasText "source_action" a.did) = true ∨
      (∃ e ∈ made s, isOpenIn s e = true ∧ purposeOf o e = (o.purposeKey a.projectId (.str a.title)).toOption) ∨
      s.events.any (hasText "fingerprint" fingerprint) = true ∨
      (o.isSelfProject c.resolve a.projectId a.project = true ∧
        ∃ e ∈ made s, isOpenIn s e = true ∧ madeForSelf o e = true) ∨
      ∀ p, c.dailyLimit ≤ (s.events.countP (madeOn (utcDay (env p).now)) : ℤ)

end Bounds

section Steps

variable {o : Surroundings} {limit : ℤ} {c : WakeCall} {a : ReadAction} {env : Supply} {s s' : InMemoryStore}
  {fingerprint : String}

variable {new : List SemanticEvent}

theorem made_append (hevents : s'.events = s.events ++ new)
    (hnew : ∀ e ∈ new, madeByMetacog e = false) : made s' = made s := by
  have hnone : new.filter madeByMetacog = [] := List.filter_eq_nil_iff.mpr fun e he => by simp [hnew e he]
  rw [made, hevents, List.filter_append, hnone, List.append_nil, made]

/-- No Work is made, none is lost and none is opened again. -/
theorem Kept.other (h : Kept o limit s) (hwell : s'.WellFormed) (hmade : made s' = made s)
    (hopen : ∀ e ∈ made s, isOpenIn s' e = true → isOpenIn s e = true)
    (hworks : ∀ e ∈ made s, ∃ w, e.workId.bind s'.work.get? = some w) : Kept o limit s' where
  works := by
    rw [hmade]
    exact ⟨h.works.1, hworks⟩
  purposes := by
    rw [hmade]
    exact h.purposes.imp_of_mem fun he he' hne ho ho' => hne (hopen _ he ho) (hopen _ he' ho')
  selves := by
    rw [hmade]
    exact h.selves.imp_of_mem fun he he' hne ho ho' => hne (hopen _ he ho) (hopen _ he' ho')
  fingerprints := by
    rw [hmade]
    exact h.fingerprints
  days := by
    rw [hmade]
    exact h.days
  wellFormed := hwell
  readable := by
    rw [hmade]
    exact h.readable

theorem isOpenIn_of_work (hwork : s'.work = s.work) (e : SemanticEvent) : isOpenIn s' e = isOpenIn s e := by
  rw [isOpenIn, hwork, isOpenIn]

theorem Kept.of_work (h : Kept o limit s) (hwell : s'.WellFormed) (hwork : s'.work = s.work) (hmade : made s' = made s) :
    Kept o limit s' := by
  refine h.other hwell hmade (fun e _ ho => ?_) ?_
  · rwa [isOpenIn_of_work hwork] at ho
  · rw [hwork]
    exact h.works.2

theorem not_terminal_of_mem {w : WorkRecord} {target : WorkStatus} (h : target ∈ workTransitions w.status) :
    w.isTerminal = false := by
  refine decide_eq_false fun hterminal => ?_
  rw [workTransitions_terminal hterminal] at h
  cases h

/-- Another use of the store that appends no creation event of the overseer. -/
theorem Kept.store (h : Kept o limit s) (call : StoreCall)
    (hother : ∀ new, (storeStep s call).events = s.events ++ new → ∀ e ∈ new, madeByMetacog e = false) :
    Kept o limit (storeStep s call) := by
  have hwell := wellFormed_step s call h.wellFormed
  obtain ⟨new, hnew⟩ : s.events <+: (storeStep s call).events := (exec_effect call.env h.wellFormed call.op).events_grow
  refine h.other hwell (made_append hnew.symm (hother new hnew.symm)) (fun e he ho => ?_) fun e he => ?_
  all_goals
    obtain ⟨w, hw⟩ := h.works.2 e he
    obtain ⟨k, hk, hget⟩ := Option.bind_eq_some_iff.mp hw
    have hchange := work_change_step (c := call) h.wellFormed k
    generalize hop : call.op = op at hchange
    generalize hfound : (storeStep s call).work.get? k = found at hchange
  · rw [isOpenIn, hk, Option.bind_some, hfound] at ho
    rw [isOpenIn, hw]
    cases hchange with
    | kept => rwa [hget] at ho
    | created hkey hfresh => rw [hget] at hfresh; cases hfresh
    | moved hget' hmem =>
      cases hget.symm.trans hget'
      simp [not_terminal_of_mem hmem]
    | claimed hget' hmem =>
      cases hget.symm.trans hget'
      simp [WorkRecord.isTerminal, (claimCandidates_pending hmem).2, terminalWorkStatuses]
  · rw [hk, Option.bind_some, hfound]
    cases hchange with
    | kept => exact ⟨w, hget⟩
    | created hkey hfresh => exact ⟨_, rfl⟩
    | moved hget' hmem => exact ⟨_, rfl⟩
    | claimed hget' hmem => exact ⟨_, rfl⟩

/-! ## A Work that is made -/

variable {untrusted : PyValue} {i : ℕ}

/-- What is read of an action whose project is registered. -/
theorem registered_of_read (hread : readAction o c i untrusted = .ok a) (hfix : a.isOrdinaryFix = true) :
    ∃ id p path, a.projectId = .str id ∧ a.project = some p ∧ p.path = some path ∧
      registryGet c.registry a.projectId = .ok (some p) := by
  unfold readAction at hread
  obtain ⟨_, -, hread⟩ := except_bind_ok.mp hread
  obtain ⟨_, -, hread⟩ := except_bind_ok.mp hread
  obtain ⟨_, -, hread⟩ := except_bind_ok.mp hread
  obtain ⟨_, -, hread⟩ := except_bind_ok.mp hread
  obtain ⟨projectId, -, hread⟩ := except_bind_ok.mp hread
  obtain ⟨project, hproject, hread⟩ := except_bind_ok.mp hread
  obtain ⟨_, -, hread⟩ := except_bind_ok.mp hread
  obtain ⟨_, -, hread⟩ := except_bind_ok.mp hread
  cases hread
  obtain ⟨found, hfound, hproject⟩ := except_bind_ok.mp hproject
  cases hproject
  obtain ⟨p, hp⟩ : ∃ p, (found.filter fun p => p.path.any c.isFolder) = some p := by
    rw [← Option.isSome_iff_exists]
    unfold ReadAction.isOrdinaryFix at hfix
    rw [Bool.and_eq_true] at hfix
    exact hfix.2
  obtain ⟨rfl, hpath⟩ := Option.filter_eq_some_iff.mp hp
  obtain ⟨path, hpathEq, -⟩ := (Option.any_eq_true _ _).mp hpath
  cases projectId with
  | str id => exact ⟨id, p, path, rfl, hp, hpathEq, hfound⟩
  | none | bool | int => cases hfound
  | list | dict => cases hfound

section Recorded

variable {w : WorkRecord} {e : SemanticEvent} (h : RecordsWork c a env fingerprint w e)

include h

theorem RecordsWork.decided_projectId : decided e "project_id" = a.projectId := by
  obtain ⟨goalId, lineageId, hdecision⟩ := h.decision
  rw [decided, hdecision]
  change ((workPayload c a goalId fingerprint lineageId).get? "project_id").getD .none = _
  simp [workPayload, get?_set]

theorem RecordsWork.decided_title : decided e "title" = .str a.title := by
  obtain ⟨goalId, lineageId, hdecision⟩ := h.decision
  rw [decided, hdecision]
  change ((workPayload c a goalId fingerprint lineageId).get? "title").getD .none = _
  simp [workPayload, get?_set]

theorem RecordsWork.decided_projectRoot :
    decided e "project_root" = .str (c.resolve ((a.project.bind ProjectEntry.path).getD "")) := by
  obtain ⟨goalId, lineageId, hdecision⟩ := h.decision
  rw [decided, hdecision]
  change ((workPayload c a goalId fingerprint lineageId).get? "project_root").getD .none = _
  simp [workPayload, get?_set]

theorem RecordsWork.readable (htitle : a.title ≠ "") : Readable e where
  decision := by
    obtain ⟨goalId, lineageId, hdecision⟩ := h.decision
    refine ⟨_, hdecision, ?_, ?_⟩
    · rw [h.decided_projectId]
      change (workPayload c a goalId fingerprint lineageId).get? "project_id" = _
      simp [workPayload, get?_set]
    · rw [h.decided_title]
      change (workPayload c a goalId fingerprint lineageId).get? "title" = _
      simp [workPayload, get?_set]
  title := ⟨a.title, h.decided_title, htitle⟩
  fingerprint := ⟨fingerprint, h.fingerprint⟩

theorem RecordsWork.purposeOf_eq : purposeOf o e = (o.purposeKey a.projectId (.str a.title)).toOption := by
  rw [purposeOf, h.decided_projectId, h.decided_title]

theorem RecordsWork.madeForSelf_eq {p : ProjectEntry} {path : String} (hproject : a.project = some p)
    (hpath : p.path = some path) : madeForSelf o e = o.isSelfProject c.resolve a.projectId a.project := by
  rw [madeForSelf, h.decided_projectId, h.decided_projectRoot, Surroundings.isSelfProject, hproject, Option.bind_some,
    hpath]
  simp [isText]

end Recorded

/-! ## Open Works -/

/-- Every open Work of the overseer is among those that are found. -/
theorem mem_openMetacogWork {events : List SemanticEvent} {opened : List OpenWork}
    (h : openMetacogWork s events = .ok opened) {e : SemanticEvent} (he : e ∈ events) (hmade : madeByMetacog e = true)
    (hopen : isOpenIn s e = true) (hreadable : Readable e) :
    ∃ w ∈ opened, w.projectId = decided e "project_id" ∧ w.title = decided e "title" := by
  induction events generalizing opened with
  | nil => cases he
  | cons created rest ih =>
    unfold openMetacogWork at h
    obtain ⟨found, hfound, h⟩ := except_bind_ok.mp h
    obtain ⟨others, hothers, h⟩ := except_bind_ok.mp h
    cases h
    rcases List.mem_cons.mp he with rfl | hrest
    · obtain ⟨w, hw, hterminal⟩ := (Option.any_eq_true _ _).mp hopen
      obtain ⟨entries, hdecision, hprojectId, htitle⟩ := hreadable.decision
      obtain ⟨title, htext, hne⟩ := hreadable.title
      refine ⟨⟨w, decided e "project_id", decided e "title"⟩, List.mem_append_left _ ?_, rfl, rfl⟩
      unfold openWorkOf at hfound
      rw [hmade, hw] at hfound
      dsimp only at hfound
      rw [if_neg (by simp), if_neg (by simpa using hterminal), hdecision] at hfound
      simp only [Option.getD_some, member, hprojectId, htitle] at hfound
      cases hfound
      rw [htext]
      simp [PyValue.truthy, hne]
    · obtain ⟨w, hw, hfields⟩ := ih hothers hrest
      exact ⟨w, List.mem_append_right _ hw, hfields⟩

/-- What the checks of a batch say of a Work that is open. -/
theorem Creates.apart (hcreates : Creates o c a env s fingerprint) (hrecognises : Recognises o c s) {e : SemanticEvent}
    (he : e ∈ made s) (hopen : isOpenIn s e = true) (hreadable : Readable e) :
    purposeOf o e ≠ (o.purposeKey a.projectId (.str a.title)).toOption ∧
      ¬(madeForSelf o e = true ∧ o.isSelfProject c.resolve a.projectId a.project = true) := by
  obtain ⟨key, opened, hkey, hopened, hpurpose, hself⟩ := hcreates.alone
  obtain ⟨hevent, hmade⟩ := List.mem_filter.mp he
  obtain ⟨w, hw, hprojectId, htitle⟩ := mem_openMetacogWork hopened hevent hmade hopen hreadable
  constructor
  · have hsame := hpurpose w hw
    unfold samePurpose at hsame
    obtain ⟨other, hother, hsame⟩ := except_bind_ok.mp hsame
    rw [hprojectId, htitle] at hother
    rw [purposeOf, hother, hkey]
    intro heq
    cases heq
    simp [pure, Except.pure] at hsame
  · rintro ⟨hforSelf, hisSelf⟩
    have hnotSelf := hself hisSelf w hw
    unfold onSelf at hnotSelf
    obtain ⟨project, hproject, hnotSelf⟩ := except_bind_ok.mp hnotSelf
    obtain ⟨project', hproject', hself'⟩ := hrecognises e he hopen hforSelf
    rw [hprojectId, hproject'] at hproject
    cases hproject
    rw [hprojectId, hself'] at hnotSelf
    cases hnotSelf

theorem Creates.title_ne (hcreates : Creates o c a env s fingerprint) : a.title ≠ "" := by
  obtain ⟨refs, problemKey, hevidence, -⟩ := hcreates.evident
  unfold evidence at hevidence
  obtain ⟨_, -, hevidence⟩ := except_bind_ok.mp hevidence
  dsimp only at hevidence
  split at hevidence
  · cases hevidence
  obtain ⟨found, -, hevidence⟩ := except_bind_ok.mp hevidence
  cases found with
  | none => cases hevidence
  | some found =>
    obtain ⟨_, -, hevidence⟩ := except_bind_ok.mp hevidence
    split at hevidence
    · cases hevidence
    · rename_i hcomplete
      simp only [Bool.or_eq_true, decide_eq_true_eq, not_or] at hcomplete
      exact hcomplete.2

theorem Creates.fingerprint_fresh (hcreates : Creates o c a env s fingerprint) {e : SemanticEvent} (he : e ∈ made s)
    (hreadable : Readable e) : fingerprintOf e ≠ .str fingerprint := by
  intro hsame
  have hunused := hcreates.unused
  rw [List.any_eq_false] at hunused
  refine hunused e (List.mem_filter.mp he).1 ?_
  obtain ⟨used, hused⟩ := hreadable.fingerprint
  unfold hasText
  rw [fingerprintOf, hused, Option.getD_some] at hsame
  cases hsame
  simp [hused, isText]

theorem utcDay_mono {t t' : Datetime} (h : t ≤ t') : utcDay t ≤ utcDay t' :=
  Int.ediv_le_ediv (by unfold dayLength; omega) h

theorem days_of_forward (hforward : Forward s env) (p : List ℕ) (day : ℤ) (hday : utcDay (env p).now < day) :
    ((made s).countP fun e => utcDay e.occurredAt = day) = 0 := by
  rw [List.countP_eq_zero]
  intro e he
  have hle := utcDay_mono (hforward.later e he p)
  simp only [decide_eq_true_eq]
  omega

theorem countP_madeOn (day : ℤ) (events : List SemanticEvent) :
    events.countP (madeOn day) = (events.filter madeByMetacog).countP fun e => utcDay e.occurredAt = day := by
  rw [List.countP_filter]
  refine List.countP_congr fun e _ => ?_
  simp [madeOn, and_comm]

theorem made_record {w : WorkRecord} {e : SemanticEvent} (he : RecordsWork c a env fingerprint w e)
    (hnew : ∀ e ∈ new, IsPlain e) (hevents : s'.events = s.events ++ new ++ [e]) : made s' = made s ++ [e] := by
  have hnone : new.filter madeByMetacog = [] := List.filter_eq_nil_iff.mpr fun x hx => by simp [(hnew x hx).notMade]
  rw [made, hevents, List.filter_append, List.filter_append, hnone, List.append_nil, List.filter_cons_of_pos he.made,
    List.filter_nil, made]

/-- The budget is counted on the day of the check, and no Work was made on a later day. -/
theorem Kept.days_record (h : Kept o limit s) (hlimit : c.dailyLimit = limit) (hforward : Forward s env)
    (hcreates : Creates o c a env s fingerprint) {w : WorkRecord} {e : SemanticEvent}
    (he : RecordsWork c a env fingerprint w e) (day : ℤ) :
    ((made s ++ [e]).countP fun e => utcDay e.occurredAt = day : ℤ) ≤ max limit 0 := by
  have hbudget := hcreates.withinBudget
  rw [countP_madeOn, hlimit] at hbudget
  change ((made s).countP _ : ℤ) < limit at hbudget
  have hbound := h.days day
  have htime : ((env.sub 1).sub 0).utcNow ≤ e.occurredAt := by
    rw [he.occurredAt]
    exact hforward.ordered [1, 0] [1, 4, 1, 1, 2, 1] (.cons (.rel (by decide)))
  have hdays := utcDay_mono htime
  rw [List.countP_append]
  by_cases hday : utcDay e.occurredAt = day
  · rw [List.countP_singleton, if_pos (by simpa using hday)]
    by_cases hsame : utcDay ((env.sub 1).sub 0).utcNow = day
    · rw [hsame] at hbudget
      push_cast
      omega
    · have hnone := days_of_forward hforward [1, 0] day (lt_of_le_of_ne (hday ▸ hdays) hsame)
      rw [hnone]
      push_cast
      omega
  · rw [List.countP_singleton, if_neg (by simpa using hday)]
    simpa using hbound

/-- The checks of the batch are what keeps the limits. -/
theorem Kept.work (h : Kept o limit s) (hlimit : c.dailyLimit = limit) (hforward : Forward s env)
    (hrecognises : Recognises o c s) (hread : readAction o c i untrusted = .ok a)
    (hcreates : Creates o c a env s fingerprint) (hwell : s'.WellFormed) {w : WorkRecord} {e : SemanticEvent} (he : RecordsWork c a env fingerprint w e) (hfresh : s.work.get? w.workId = none)
    (hwork : s'.work = s.work.set w.workId w) (hnew : ∀ e ∈ new, IsPlain e) (hevents : s'.events = s.events ++ new ++ [e]) :
    made s' = made s ++ [e] ∧ (∀ e ∈ made s, isOpenIn s' e = isOpenIn s e) ∧ Kept o limit s' := by
  have hmade : made s' = made s ++ [e] := made_record he hnew hevents
  obtain ⟨id, p, path, hprojectId, hproject, hpath, hregistered⟩ := registered_of_read hread hcreates.isFix
  have hkept : ∀ e' ∈ made s, e'.workId.bind s'.work.get? = e'.workId.bind s.work.get? := by
    intro e' he'
    obtain ⟨w', hw'⟩ := h.works.2 e' he'
    obtain ⟨k, hk, hget⟩ := Option.bind_eq_some_iff.mp hw'
    have hne : k ≠ w.workId := by
      rintro rfl
      rw [hfresh] at hget
      cases hget
    rw [hk, Option.bind_some, Option.bind_some, hwork, InsertionDict.get?_set_of_ne _ _ hne]
  have hopen : ∀ e' ∈ made s, isOpenIn s' e' = isOpenIn s e' := by
    intro e' he'
    rw [isOpenIn, hkept e' he', isOpenIn]
  have happart : ∀ e' ∈ made s, isOpenIn s' e' = true → purposeOf o e' ≠ purposeOf o e ∧
      ¬(madeForSelf o e' = true ∧ madeForSelf o e = true) := by
    intro e' he' ho
    rw [he.purposeOf_eq, he.madeForSelf_eq hproject hpath]
    exact hcreates.apart hrecognises he' (hopen e' he' ▸ ho) (h.readable e' he')
  have hself : e.workId.bind s'.work.get? = some w := by
    rw [he.workId, Option.bind_some, hwork, InsertionDict.get?_set_self]
  refine ⟨hmade, hopen, ?_⟩
  exact {
    works := by
      rw [hmade]
      refine ⟨?_, fun e' he' => ?_⟩
      · rw [List.map_append, List.map_singleton, List.nodup_append]
        refine ⟨h.works.1, List.nodup_singleton _, ?_⟩
        rintro k hk _ hk' rfl
        rw [List.mem_singleton.mp hk'] at hk
        obtain ⟨e', he', hid⟩ := List.mem_map.mp hk
        obtain ⟨w', hw'⟩ := h.works.2 e' he'
        rw [hid, he.workId, Option.bind_some, hfresh] at hw'
        cases hw'
      · rcases List.mem_append.mp he' with he' | he'
        · rw [hkept e' he']
          exact h.works.2 e' he'
        · rw [List.mem_singleton.mp he']
          exact ⟨w, hself⟩
    purposes := by
      rw [hmade, List.pairwise_append]
      refine ⟨h.purposes.imp_of_mem fun he he' hne ho ho' => hne (hopen _ he ▸ ho) (hopen _ he' ▸ ho'),
        List.pairwise_singleton _ _, fun e' he' x hx ho _ => ?_⟩
      rw [List.mem_singleton.mp hx]
      exact (happart e' he' ho).1
    selves := by
      rw [hmade, List.pairwise_append]
      refine ⟨h.selves.imp_of_mem fun he he' hne ho ho' => hne (hopen _ he ▸ ho) (hopen _ he' ▸ ho'),
        List.pairwise_singleton _ _, fun e' he' x hx ho _ => ?_⟩
      rw [List.mem_singleton.mp hx]
      exact (happart e' he' ho).2
    fingerprints := by
      rw [hmade, List.pairwise_append]
      refine ⟨h.fingerprints, List.pairwise_singleton _ _, fun e' he' x hx => ?_⟩
      rw [List.mem_singleton.mp hx, fingerprintOf, fingerprintOf, he.fingerprint]
      exact hcreates.fingerprint_fresh he' (h.readable e' he')
    days := by
      rw [hmade]
      exact h.days_record hlimit hforward hcreates he
    wellFormed := hwell
    readable := by
      rw [hmade]
      intro e' he'
      rcases List.mem_append.mp he' with he' | he'
      · exact h.readable e' he'
      · rw [List.mem_singleton.mp he']
        exact he.readable hcreates.title_ne }

/-! ## Every action of a call -/

theorem Forward.of_made {n : ℕ} (h : Forward s env) (hmade : made s' = made s) : Forward s' (env.sub n) := by
  refine ⟨h.ordered.sub n, fun e he p => ?_⟩
  rw [hmade] at he
  exact h.later e he (n :: p)

theorem Recognises.of_made (h : Recognises o c s) (hmade : made s' = made s)
    (hopen : ∀ e ∈ made s, isOpenIn s' e = true → isOpenIn s e = true) : Recognises o c s' := by
  intro e he ho hself
  rw [hmade] at he
  exact h e he (hopen e he ho) hself

structure During (o : Surroundings) (limit : ℤ) (c : WakeCall) (env : Supply) (s : InMemoryStore) : Prop where
  kept : Kept o limit s
  forward : Forward s env
  recognises : Recognises o c s

theorem During.of_work {n : ℕ} (h : During o limit c env s) (hwell : s'.WellFormed) (hwork : s'.work = s.work)
    (hmade : made s' = made s) : During o limit c (env.sub n) s' where
  kept := h.kept.of_work hwell hwork hmade
  forward := h.forward.of_made hmade
  recognises := h.recognises.of_made hmade fun e _ ho => by rwa [isOpenIn_of_work hwork] at ho

theorem During.judged (h : During o limit c env s) (hlimit : c.dailyLimit = limit)
    (hread : readAction o c i untrusted = .ok a) (hjudged : Judged o c a (env.sub 0) s s') :
    During o limit c (env.sub 1) s' := by
  cases hjudged with
  | kept => exact h.of_work h.kept.wellFormed rfl rfl
  | @noted e he =>
    have hs := h.kept.wellFormed
    have hwell : InMemoryStore.WellFormed { s with events := s.events ++ [e] } := 
      ⟨hs.goal_key, hs.work_key, hs.run_key, hs.question_key, hs.run_revision⟩
    exact h.of_work hwell rfl (made_append rfl (by simpa using he.notMade))
  | goal _ hwell hwork hnotes =>
    obtain ⟨new, hevents, hnew⟩ := hnotes
    exact h.of_work hwell hwork (made_append hevents fun e he => (hnew e he).notMade)
  | @work fingerprint hcreates s' hwell w e new he hfresh hwork hnew hevents =>
    have hforward : Forward s (env.sub 0) := h.forward.sub 0
    obtain ⟨hmade, hopen, hkept⟩ :=
      h.kept.work hlimit hforward h.recognises hread hcreates hwell he hfresh hwork hnew hevents
    obtain ⟨id, p, path, -, hproject, hpath, hregistered⟩ := registered_of_read hread hcreates.isFix
    refine ⟨hkept, ⟨h.forward.ordered.sub 1, fun e' he' q => ?_⟩, fun e' he' ho hself => ?_⟩
    · rw [hmade, List.mem_append] at he'
      rcases he' with he' | he'
      · exact h.forward.later e' he' (1 :: q)
      · rw [List.mem_singleton.mp he', he.occurredAt]
        exact h.forward.ordered [0, 1, 4, 1, 1, 2, 1] (1 :: q) (.rel (by decide))
    · rw [hmade, List.mem_append] at he'
      rcases he' with he' | he'
      · exact h.recognises e' he' (hopen e' he' ▸ ho) hself
      · rw [List.mem_singleton.mp he'] at hself ⊢
        rw [he.madeForSelf_eq hproject hpath, hproject] at hself
        rw [he.decided_projectId]
        exact ⟨some p, hregistered, hself⟩

theorem Answered.not_creates (h : Answered o c env s i untrusted)
    (hduring : During o limit c env s) (hread : readAction o c i untrusted = .ok a) : ¬Creates o c a (env.sub 0) s fingerprint := by
  intro hcreates
  obtain ⟨refs, problemKey, hevidence, hfingerprint⟩ := hcreates.evident
  have happart {e : SemanticEvent} (he : e ∈ made s) (ho : isOpenIn s e = true) :=
    hcreates.apart hduring.recognises he ho (hduring.kept.readable e he)
  rcases h a refs problemKey fingerprint hread hcreates.isFix hcreates.isCommand hevidence hfingerprint with
    hseen | ⟨e, he, ho, hsame⟩ | hused | ⟨hisSelf, e, he, ho, hself⟩ | hfull
  · rw [hcreates.unseen] at hseen
    cases hseen
  · exact (happart he ho).1 hsame
  · rw [hcreates.unused] at hused
    cases hused
  · exact (happart he ho).2 ⟨hself, hisSelf⟩
  · exact absurd hcreates.withinBudget (not_lt.mpr (hfull [0, 1, 0]))

theorem Answered.of_work {i n : ℕ} (h : Answered o c env s i untrusted) (hwork : s'.work = s.work)
    (hmade : made s' = made s) (hevents : s.events <+: s'.events) : Answered o c (env.sub n) s' i untrusted := by
  obtain ⟨new, hnew⟩ := hevents
  have hany {p : SemanticEvent → Bool} (hp : s.events.any p = true) : s'.events.any p = true := by
    rw [← hnew, List.any_append, hp, Bool.true_or]
  intro a refs problemKey fingerprint hread hfix hcommand hevidence hfingerprint
  rcases h a refs problemKey fingerprint hread hfix hcommand hevidence hfingerprint with
    hseen | ⟨e, he, ho, hsame⟩ | hused | ⟨hisSelf, e, he, ho, hself⟩ | hfull
  · exact .inl (hany hseen)
  · exact .inr (.inl ⟨e, hmade ▸ he, (isOpenIn_of_work hwork e).trans ho, hsame⟩)
  · exact .inr (.inr (.inl (hany hused)))
  · exact .inr (.inr (.inr (.inl ⟨hisSelf, e, hmade ▸ he, (isOpenIn_of_work hwork e).trans ho, hself⟩)))
  · refine .inr (.inr (.inr (.inr fun p => (hfull (n :: p)).trans ?_)))
    rw [← hnew, List.countP_append]
    exact Int.ofNat_le.mpr (Nat.le_add_right _ _)

theorem judged_prefix (h : Judged o c a env s s') : s.events <+: s'.events := by
  cases h with
  | kept => exact List.prefix_refl _
  | noted => exact List.prefix_append _ _
  | goal _ _ _ hnotes =>
    obtain ⟨new, hevents, -⟩ := hnotes
    exact ⟨new, hevents.symm⟩
  | @work fingerprint _ _ _ w e new _ _ _ _ hevents => exact ⟨new ++ [e], by rw [hevents, List.append_assoc]⟩

/-- The state after the actions is the state after the first, if that raises, or the state after the rest. -/
theorem materializeFrom_state {P : InMemoryStore → Prop} {rest : List PyValue}
    (hfirst : P (materializeAction o c i untrusted (env.sub 0) s).state)
    (hrest : P (materializeFrom o c (i + 1) (env.sub 1) rest (materializeAction o c i untrusted (env.sub 0) s).state).state) :
    P (materializeFrom o c i env (untrusted :: rest) s).state := by
  unfold materializeFrom
  cases hrun : materializeAction o c i untrusted (env.sub 0) s with
  | error e s₁ =>
    rw [hrun] at hfirst
    change P ((EStateM.bind _ _ s).state)
    unfold EStateM.bind
    rw [hrun]
    exact hfirst
  | ok result s₁ =>
    rw [hrun] at hrest
    change P (materializeFrom o c (i + 1) (env.sub 1) rest s₁).state at hrest
    change P ((EStateM.bind _ _ s).state)
    unfold EStateM.bind
    rw [hrun]
    change P ((EStateM.bind _ _ s₁).state)
    unfold EStateM.bind
    cases hlater : materializeFrom o c (i + 1) (env.sub 1) rest s₁ with
    | error e s₂ =>
      rw [hlater] at hrest
      exact hrest
    | ok results s₂ =>
      rw [hlater] at hrest
      exact hrest

theorem kept_materializeFrom (h : During o limit c env s) (hlimit : c.dailyLimit = limit) (i : ℕ) (actions : List PyValue) :
    Kept o limit (materializeFrom o c i env actions s).state := by
  induction actions generalizing i env s with
  | nil => exact h.kept
  | cons untrusted rest ih =>
    have hnext : During o limit c (env.sub 1) (materializeAction o c i untrusted (env.sub 0) s).state := by
      rcases judged_materializeAction (o := o) (c := c) (env.sub 0) h.kept.wellFormed i untrusted with
        hsame | ⟨a, hread, hjudged⟩
      · rw [hsame]
        exact h.of_work h.kept.wellFormed rfl rfl
      · exact h.judged hlimit hread hjudged
    exact materializeFrom_state hnext.kept (ih hnext (i + 1))

/-- Nothing is created by known actions. -/
theorem same_materializeFrom (h : During o limit c env s) (i : ℕ) (actions : List PyValue)
    (hanswered : ∀ k untrusted, actions[k]? = some untrusted → Answered o c env s (i + k) untrusted) :
    (materializeFrom o c i env actions s).state.goals = s.goals ∧
      (materializeFrom o c i env actions s).state.work = s.work := by
  induction actions generalizing i env s with
  | nil => exact ⟨rfl, rfl⟩
  | cons untrusted rest ih =>
    have hfirst := hanswered 0 untrusted rfl
    have hrest := fun k untrusted h => hanswered (k + 1) untrusted h
    obtain ⟨hwell, hgoals, hwork, hmade, hevents⟩ :
        (materializeAction o c i untrusted (env.sub 0) s).state.WellFormed ∧
        (materializeAction o c i untrusted (env.sub 0) s).state.goals = s.goals ∧
        (materializeAction o c i untrusted (env.sub 0) s).state.work = s.work ∧
        made (materializeAction o c i untrusted (env.sub 0) s).state = made s ∧
        s.events <+: (materializeAction o c i untrusted (env.sub 0) s).state.events := by
      have hs := h.kept.wellFormed
      rcases judged_materializeAction (o := o) (c := c) (env.sub 0) hs i untrusted with
        hsame | ⟨a, hread, hjudged⟩
      · rw [hsame]
        exact ⟨hs, rfl, rfl, rfl, List.prefix_refl _⟩
      · have hevents := judged_prefix hjudged
        generalize (materializeAction o c i untrusted (env.sub 0) s).state = s' at hjudged hevents
        cases hjudged with
        | kept => exact ⟨hs, rfl, rfl, rfl, hevents⟩
        | @noted e he =>
          exact ⟨⟨hs.goal_key, hs.work_key, hs.run_key, hs.question_key, hs.run_revision⟩, rfl, rfl,
            made_append rfl (by simpa using he.notMade), hevents⟩
        | goal hcreates => exact absurd hcreates (hfirst.not_creates h hread)
        | work hcreates => exact absurd hcreates (hfirst.not_creates h hread)
    have hnext : During o limit c (env.sub 1) (materializeAction o c i untrusted (env.sub 0) s).state :=
      h.of_work hwell hwork hmade
    obtain ⟨hgoals', hwork'⟩ := ih hnext (i + 1) fun k u hu => by
      have hk := (hrest k u hu).of_work (n := 1) hwork hmade hevents
      rwa [← Nat.add_assoc, Nat.add_right_comm] at hk
    exact materializeFrom_state (P := fun s' => s'.goals = s.goals ∧ s'.work = s.work) ⟨hgoals, hwork⟩
      ⟨hgoals'.trans hgoals, hwork'.trans hwork⟩

end Steps

/-! ## Runs -/

structure Autonomy where
  store : InMemoryStore
  calls : List (String × List PyValue) := []

inductive AutonomyInput where
  | call (c : WakeCall) (actions : List PyValue) (env : Supply)
  | store (call : StoreCall)

section Runs

variable (o : Surroundings) (limit : ℤ)

def Autonomy.step (w : Autonomy) : AutonomyInput → Autonomy
  | .call c actions env => ⟨(materializeActions o c actions env w.store).state, w.calls ++ [(c.wakeId, actions)]⟩
  | .store call => { w with store := storeStep w.store call }

/-- The clock does not go back, the registry knows the open Works for All Tomorrow, and nothing in a repeated call would
become a Work now. No other use of the store appends a creation event. -/
def Orderly (w : Autonomy) : AutonomyInput → Prop
  | .call c actions env => c.dailyLimit = limit ∧ Forward w.store env ∧ Recognises o c w.store ∧
      ((c.wakeId, actions) ∈ w.calls → ∀ i untrusted, actions[i]? = some untrusted →
        Answered o c env w.store i untrusted)
  | .store call => ∀ new, (storeStep w.store call).events = w.store.events ++ new → ∀ e ∈ new, madeByMetacog e = false

variable {o limit}

theorem Kept.step {w : Autonomy} (h : Kept o limit w.store) (input : AutonomyInput) (horderly : Orderly o limit w input) :
    Kept o limit (w.step o input).store := by
  cases input with
  | call c actions env =>
    obtain ⟨hlimit, hforward, hrecognises, -⟩ := horderly
    exact kept_materializeFrom ⟨h, hforward, hrecognises⟩ hlimit 0 actions
  | store call => exact h.store call horderly

theorem kept_empty : Kept o limit .empty where
  works := ⟨List.nodup_nil, fun e he => by cases he⟩
  purposes := .nil
  selves := .nil
  fingerprints := .nil
  days := fun day => le_max_right _ _
  wellFormed := InMemoryStore.wellFormed_empty
  readable := fun e he => by cases he

/-- Over any run whose steps are orderly, the Works that the overseer makes itself keep their limits and a repeated call
makes nothing. -/
theorem autonomy_limits (inputs : List AutonomyInput)
    (horderly : EveryStep (Autonomy.step o) (Orderly o limit) ⟨.empty, []⟩ inputs) :
    Bounded o limit (run (Autonomy.step o) ⟨.empty, []⟩ inputs).store ∧
      ∀ before c actions env after, inputs = before ++ .call c actions env :: after →
        (c.wakeId, actions) ∈ (run (Autonomy.step o) ⟨.empty, []⟩ before).calls →
        (run (Autonomy.step o) ⟨.empty, []⟩ (before ++ [.call c actions env])).store.goals =
            (run (Autonomy.step o) ⟨.empty, []⟩ before).store.goals ∧
          (run (Autonomy.step o) ⟨.empty, []⟩ (before ++ [.call c actions env])).store.work =
            (run (Autonomy.step o) ⟨.empty, []⟩ before).store.work := by
  have hkept {ops : List AutonomyInput} (h : EveryStep (Autonomy.step o) (Orderly o limit) ⟨.empty, []⟩ ops) :
      Kept o limit (run (Autonomy.step o) ⟨.empty, []⟩ ops).store :=
    invariant_of_everyStep (I := fun w : Autonomy => Kept o limit w.store) (fun w input hw hi => hw.step input hi)
      kept_empty h
  refine ⟨(hkept horderly).toBounded, ?_⟩
  rintro before c actions env after rfl hcalled
  have hbefore := hkept (everyStep_append_left horderly)
  obtain ⟨-, hforward, hrecognises, hanswered⟩ := horderly before (.call c actions env) after rfl
  rw [run_append, run_cons, run_nil]
  refine same_materializeFrom ⟨hbefore, hforward, hrecognises⟩ 0 actions fun i untrusted hi => ?_
  rw [Nat.zero_add]
  exact hanswered hcalled i untrusted hi

/-! A Work on one registered project, proposed under two problem keys. -/

def plainSurroundings : Surroundings where
  str
    | .str text => text
    | _ => ""
  bareTitle := id
  normalizeObjective := id
  sha256 := fun text => String.ofList (text.toList.filter Char.isDigit)
  isoDate := fun _ => "1970-01-01"
  repo := "/repo"

def appCall (wakeId : String) : WakeCall where
  wakeId := wakeId
  knownRefs := {"snapshot"}
  registry := InsertionDict.empty.set "app" { path := some "/app" }
  redacted := .ok
  dailyLimit := 5
  userId := "u1"
  isFolder := fun _ => true
  resolve := id

def appFix (problemKey : String) : PyValue :=
  .dict [("kind", .str "fix"), ("authority", .str "ordinary"), ("project_id", .str "app"), ("title", .str "Fix"),
    ("detail", .str "It fails"), ("evidence_refs", .list [.str "snapshot"]), ("problem_key", .str problemKey),
    ("verify_argv", .list [.str "pytest"])]

/-- The first call makes the Work, and its repetition is known by the fingerprint. -/
def appInputs : List AutonomyInput :=
  [.call (appCall "w1") [appFix "k1"] frozenSupply, .call (appCall "w1") [appFix "k1"] frozenSupply]

def afterFirst : Autonomy :=
  Autonomy.step plainSurroundings ⟨.empty, []⟩ (.call (appCall "w1") [appFix "k1"] frozenSupply)

theorem appInputs_limits :
    Bounded plainSurroundings 5 (run (Autonomy.step plainSurroundings) ⟨.empty, []⟩ appInputs).store := by
  refine (autonomy_limits appInputs ?_).1
  have hordered : Ordered frozenSupply := fun _ _ _ => le_refl _
  have hfirst : Orderly plainSurroundings 5 ⟨.empty, []⟩ (.call (appCall "w1") [appFix "k1"] frozenSupply) := by
    refine ⟨rfl, ⟨hordered, ?_⟩, ?_, ?_⟩
    · intro e he
      cases he
    · intro e he
      cases he
    · intro h
      cases h
  obtain ⟨hmade, hused⟩ : (∀ e ∈ made afterFirst.store, e.occurredAt ≤ 0 ∧ madeForSelf plainSurroundings e = false) ∧
      afterFirst.store.events.any (hasText "fingerprint" "1171") = true := by
    decide +kernel
  refine everyStep_cons.mpr ⟨hfirst, everyStep_cons.mpr ⟨⟨rfl, ⟨hordered, ?_⟩, ?_, ?_⟩, everyStep_nil⟩⟩
  · exact fun e he _ => (hmade e he).1
  · intro e he _ hself
    rw [(hmade e he).2] at hself
    cases hself
  · intro _ i untrusted hi a refs problemKey fingerprint hread _ _ hevidence hfingerprint
    obtain ⟨rfl, rfl⟩ : i = 0 ∧ untrusted = appFix "k1" := by
      cases i with
      | zero => exact ⟨rfl, (Option.some.inj hi).symm⟩
      | succ i => cases hi
    cases hread
    cases hevidence
    cases hfingerprint
    exact .inr (.inr (.inl hused))

/-- Readings whose identifiers begin with `tag`. -/
def namedSupply (tag : String) : Supply := fun path => ⟨0, tag ++ String.intercalate "." (path.map toString)⟩

/-- The second wake finds the purpose open. When the Work is over, the wake is repeated. -/
def repeatedInputs : List AutonomyInput :=
  [.call (appCall "w1") [appFix "k1"] (namedSupply "a"), .call (appCall "w2") [appFix "k2"] (namedSupply "b"),
    .store ⟨.transitionWorkStatus ⟨"work_11171"⟩ .cancelled 1 sampleEvent none, namedSupply "c"⟩,
    .call (appCall "w2") [appFix "k2"] (namedSupply "d")]

theorem repeated_wake_creates_work : ¬∀ (o : Surroundings) (limit : ℤ) (inputs : List AutonomyInput),
      (∀ c actions env, .call c actions env ∈ inputs → c.dailyLimit = limit) →
      ∀ before c actions env after, inputs = before ++ .call c actions env :: after →
        (c.wakeId, actions) ∈ (run (Autonomy.step o) ⟨.empty, []⟩ before).calls →
        (run (Autonomy.step o) ⟨.empty, []⟩ (before ++ [.call c actions env])).store.work =
          (run (Autonomy.step o) ⟨.empty, []⟩ before).store.work := by
  intro h
  have hsame := h plainSurroundings 5 repeatedInputs ?_ (repeatedInputs.take 3) (appCall "w2") [appFix "k2"]
    (namedSupply "d") [] rfl (.tail _ (.head _))
  · obtain ⟨hone, htwo⟩ : (run (Autonomy.step plainSurroundings) ⟨.empty, []⟩
          (repeatedInputs.take 3)).store.work.entries.length = 1 ∧
        (run (Autonomy.step plainSurroundings) ⟨.empty, []⟩ (repeatedInputs.take 3 ++
          [.call (appCall "w2") [appFix "k2"] (namedSupply "d")])).store.work.entries.length = 2 := by
      decide +kernel
    rw [hsame, hone] at htwo
    cases htwo
  · intro c actions env hmem
    simp only [repeatedInputs, List.mem_cons, AutonomyInput.call.injEq, reduceCtorEq, List.not_mem_nil, or_false,
      false_or] at hmem
    obtain ⟨rfl, -⟩ | ⟨rfl, -⟩ | ⟨rfl, -⟩ := hmem
    all_goals rfl

end Runs

end AllTomorrow.Overseer
