import AllTomorrow.JudgementChecks
import AllTomorrow.AutonomyLimits

/-!
# Wakes that are applied

`observe` goes through the wakes that have no marker, judges their actions one after the other and
then writes the marker. What it takes for every wake to get one.
-/

namespace AllTomorrow.Overseer

open EStateM Researcher

section Wakes

variable (o : Surroundings) (base : WakeCall)

structure Accepted (c : WakeCall) (env : Supply) (s : InMemoryStore) (i : ℕ) (untrusted : PyValue) : Prop where
  readable : IsReadable c untrusted
  judgeable : ∀ a, readAction o c i untrusted = .ok a → Judgeable o c a env s

/-- Every action does, from the `i`-th on. -/
def ActionsAccepted (c : WakeCall) (i : ℕ) (env : Supply) (s : InMemoryStore) : List PyValue → Prop
  | [] => True
  | untrusted :: rest => Accepted o c (env.sub 0) s i untrusted ∧
      ActionsAccepted c (i + 1) (env.sub 1) (materializeAction o c i untrusted (env.sub 0) s).state rest

def beforeMarker (env : Supply) (wake : StoredWake) (s : InMemoryStore) : InMemoryStore :=
  (materializeActions o (wake.call base) wake.actions (env.sub 0) s).state

/-- Every action of every wake without a marker is accepted, and the marker has a new identifier. -/
def WakesAccepted (applied : List SemanticEvent) (env : Supply) (s : InMemoryStore) : List StoredWake → Prop
  | [] => True
  | wake :: rest =>
    if applied.any (marks wake.wakeId) = true then WakesAccepted applied (env.sub 2) s rest
    else ActionsAccepted o (wake.call base) 0 (env.sub 0) s wake.actions ∧
      (∀ e ∈ (beforeMarker o base env wake s).events, e.eventId ≠ newEventId ((env.sub 1).sub 0)) ∧
      WakesAccepted applied (env.sub 2) { beforeMarker o base env wake s with
        events := (beforeMarker o base env wake s).events ++ [wakeApplied (env.sub 1) wake] } rest

/-- Every wake has its marker, and the actions of all of them were answered. -/
structure EveryWakeApplied (env : Supply) (wakes : List StoredWake) (s : InMemoryStore) : Prop where
  marked : ∀ wake ∈ wakes, (observe o base env wakes s).state.events.any (marks wake.wakeId) = true
  returned : ∃ s', observe o base env wakes s = .ok () s'

variable {o base} {c : WakeCall} {env : Supply} {s s' : InMemoryStore}

/-! ## One action -/

theorem materializeAction_returns_iff {i : ℕ} {untrusted : PyValue} :
    (∃ r s', materializeAction o c i untrusted env s = .ok r s') ↔ Accepted o c env s i untrusted := by
  unfold materializeAction
  cases hread : readAction o c i untrusted with
  | error e =>
    refine ⟨fun ⟨r, s', h⟩ => (by cases h), fun h => ?_⟩
    obtain ⟨a, ha⟩ := (readAction_ok_iff (o := o) (i := i)).mpr h.readable
    cases hread.symm.trans ha
  | ok a =>
    change (∃ r s', batched (judge o c a env) s = .ok r s') ↔ _
    have hends := ends_judge_iff (o := o) (c := c) (s := s) env (isObject_of_read hread)
    unfold Ends at hends
    unfold batched
    cases hrun : judge o c a env s with
    | ok r s' =>
      rw [hrun] at hends
      refine ⟨fun _ => ⟨readAction_ok_iff.mp ⟨a, hread⟩, fun a' ha' => ?_⟩, fun _ => ⟨r, s', rfl⟩⟩
      cases hread.symm.trans ha'
      exact hends
    | error e s' =>
      rw [hrun] at hends
      exact ⟨fun ⟨r, s', h⟩ => (by cases h), fun h => absurd (h.judgeable a hread) hends⟩

/-- Only markers are written by `observe` itself. -/
structure KeepsMarkers (s s' : InMemoryStore) : Prop where
  wellFormed : s'.WellFormed
  events : ∃ new, s'.events = s.events ++ new ∧ ∀ e ∈ new, e.type ≠ JudgementEvent.wakeApplied.type

theorem KeepsMarkers.refl (hs : s.WellFormed) : KeepsMarkers s s := ⟨hs, [], (List.append_nil _).symm, by simp⟩

theorem KeepsMarkers.trans {s₁ s₂ s₃ : InMemoryStore} (h : KeepsMarkers s₁ s₂) (h' : KeepsMarkers s₂ s₃) :
    KeepsMarkers s₁ s₃ := by
  obtain ⟨new, hevents, hnew⟩ := h.events
  obtain ⟨new', hevents', hnew'⟩ := h'.events
  refine ⟨h'.wellFormed, new ++ new', by rw [hevents', hevents, List.append_assoc], fun e he => ?_⟩
  rcases List.mem_append.mp he with he | he
  · exact hnew e he
  · exact hnew' e he

theorem keepsMarkers_judged {a : ReadAction} (hs : s.WellFormed) (h : Judged o c a env s s') : KeepsMarkers s s' := by
  cases h with
  | kept => exact .refl hs
  | @noted e he =>
    exact ⟨⟨hs.goal_key, hs.work_key, hs.run_key, hs.question_key, hs.run_revision⟩, [e], rfl, by simpa using he.notMarker⟩
  | goal _ hwell _ hnotes =>
    obtain ⟨new, hevents, hnew⟩ := hnotes
    exact ⟨hwell, new, hevents, fun e he => (hnew e he).notMarker⟩
  | @work fingerprint _ s' hwell w e new hrecords _ _ hnew hevents =>
    refine ⟨hwell, new ++ [e], by rw [hevents, List.append_assoc], fun e' he' => ?_⟩
    rcases List.mem_append.mp he' with he' | he'
    · exact (hnew e' he').notMarker
    · have htype : e.type = "researcher.create_work" := by
        have hmade := hrecords.made
        unfold madeByMetacog at hmade
        rw [Bool.and_eq_true, decide_eq_true_eq, decide_eq_true_eq] at hmade
        exact hmade.2
      rw [List.mem_singleton.mp he', htype]
      decide

theorem keepsMarkers_materializeAction (env : Supply) (hs : s.WellFormed) (i : ℕ) (untrusted : PyValue) :
    KeepsMarkers s (materializeAction o c i untrusted env s).state := by
  rcases judged_materializeAction env hs i untrusted with hsame | ⟨a, -, hjudged⟩
  · rw [hsame]
    exact .refl hs
  · exact keepsMarkers_judged hs hjudged

theorem keepsMarkers_materializeFrom (hs : s.WellFormed) (i : ℕ) (actions : List PyValue) :
    KeepsMarkers s (materializeFrom o c i env actions s).state := by
  induction actions generalizing i env s with
  | nil => exact .refl hs
  | cons untrusted rest ih =>
    have hfirst := keepsMarkers_materializeAction (o := o) (c := c) (env.sub 0) hs i untrusted
    exact materializeFrom_state hfirst (hfirst.trans (ih hfirst.wellFormed (i + 1)))

theorem materializeFrom_returns_iff {i : ℕ} {actions : List PyValue} :
    (∃ r s', materializeFrom o c i env actions s = .ok r s') ↔ ActionsAccepted o c i env s actions := by
  induction actions generalizing i env s with
  | nil => exact ⟨fun _ => trivial, fun _ => ⟨[], s, rfl⟩⟩
  | cons untrusted rest ih =>
    unfold ActionsAccepted materializeFrom
    rw [← materializeAction_returns_iff, bind_returns_iff]
    constructor
    · rintro ⟨result, s₁, hfirst, hrest⟩
      obtain ⟨results, s₂, hresults, -⟩ := bind_returns_iff.mp hrest
      rw [hfirst]
      exact ⟨⟨result, s₁, rfl⟩, ih.mp ⟨results, s₂, hresults⟩⟩
    · rintro ⟨⟨result, s₁, hfirst⟩, hrest⟩
      rw [hfirst] at hrest
      obtain ⟨results, s₂, hresults⟩ := ih.mpr hrest
      exact ⟨result, s₁, hfirst, bind_returns_iff.mpr ⟨results, s₂, hresults, _, s₂, rfl⟩⟩

/-! ## The markers -/

theorem marks_wakeApplied (env : Supply) (wake : StoredWake) (wakeId : String) :
    marks wakeId (wakeApplied env wake) = decide (wake.wakeId = wakeId) := by
  have htype : (wakeApplied env wake).type = "metacog.wake_applied" := rfl
  have hpayload : (wakeApplied env wake).payload.get? "wake_id" = some (.str wake.wakeId) := by
    change ((((InsertionDict.empty.set "wake_id" (.str wake.wakeId)).set "reasoner" wake.reasoner).set
      "model" wake.model).set "fallback_reason" wake.fallbackReason : PyDict).get? "wake_id" = _
    simp [InsertionDict.get?_set]
  unfold marks hasText
  rw [htype, hpayload]
  simp [isText]

theorem KeepsMarkers.any_marks (h : KeepsMarkers s s') (wakeId : String) :
    s'.events.any (marks wakeId) = s.events.any (marks wakeId) := by
  obtain ⟨new, hevents, hnew⟩ := h.events
  have hnone : new.any (marks wakeId) = false := by
    rw [List.any_eq_false]
    intro e he hmarks
    exact hnew e he (of_decide_eq_true (Bool.and_eq_true _ _ ▸ hmarks).1)
  rw [hevents, List.any_append, hnone, Bool.or_false]

/-- The state after the marker, which is not written if its identifier is known. -/
def afterMarker (o : Surroundings) (base : WakeCall) (env : Supply) (wake : StoredWake) (s : InMemoryStore) : InMemoryStore :=
  if ∀ e ∈ (beforeMarker o base env wake s).events, e.eventId ≠ newEventId ((env.sub 1).sub 0) then
    { beforeMarker o base env wake s with
      events := (beforeMarker o base env wake s).events ++ [wakeApplied (env.sub 1) wake] }
  else beforeMarker o base env wake s

theorem appendEvent_run (e : SemanticEvent) : InMemoryStore.appendEvent e s =
    .ok () (if ∀ e' ∈ s.events, e'.eventId ≠ e.eventId then { s with events := s.events ++ [e] } else s) := by
  change (if !(s.events.any fun e' => e'.eventId = e.eventId) then InMemoryStore.pushEvent e else pure () : StoreM Unit) s = _
  by_cases h : ∀ e' ∈ s.events, e'.eventId ≠ e.eventId
  · have hnone : (s.events.any fun e' => e'.eventId = e.eventId) = false := by simpa using h
    rw [if_pos h, hnone]
    rfl
  · have hsome : (s.events.any fun e' => e'.eventId = e.eventId) = true := by simpa using h
    rw [if_neg h, hsome]
    rfl

theorem keepsMarkers_beforeMarker (base : WakeCall) (env : Supply) (hs : s.WellFormed) (wake : StoredWake) :
    KeepsMarkers s (beforeMarker o base env wake s) :=
  keepsMarkers_materializeFrom hs 0 wake.actions

theorem wellFormed_afterMarker (base : WakeCall) (env : Supply) (hs : s.WellFormed) (wake : StoredWake) : (afterMarker o base env wake s).WellFormed := by
  have h := (keepsMarkers_beforeMarker (o := o) base env hs wake).wellFormed
  unfold afterMarker
  split
  · exact ⟨h.goal_key, h.work_key, h.run_key, h.question_key, h.run_revision⟩
  · exact h

theorem prefix_afterMarker (hs : s.WellFormed) (wake : StoredWake) :
    s.events <+: (afterMarker o base env wake s).events := by
  obtain ⟨new, hevents, -⟩ := (keepsMarkers_beforeMarker (o := o) base env hs wake).events
  unfold afterMarker
  split
  · exact ⟨new ++ [wakeApplied (env.sub 1) wake], by rw [hevents, List.append_assoc]⟩
  · exact ⟨new, hevents.symm⟩

variable {wake : StoredWake}

theorem any_marks_afterMarker (hs : s.WellFormed) {wakeId : String} (hne : wake.wakeId ≠ wakeId) :
    (afterMarker o base env wake s).events.any (marks wakeId) = s.events.any (marks wakeId) := by
  have hkept := (keepsMarkers_beforeMarker (o := o) base env hs wake).any_marks wakeId
  unfold afterMarker
  split
  · rw [List.any_append, hkept, List.any_cons, List.any_nil, marks_wakeApplied, decide_eq_false hne, Bool.or_false,
      Bool.or_false]
  · exact hkept

variable {applied : List SemanticEvent} {rest : List StoredWake}

theorem applyWakes_cons (hunapplied : ¬applied.any (marks wake.wakeId) = true) :
    applyWakes o base applied env (wake :: rest) s = .ok () s' ↔
      ActionsAccepted o (wake.call base) 0 (env.sub 0) s wake.actions ∧
        applyWakes o base applied (env.sub 2) rest (afterMarker o base env wake s) = .ok () s' := by
  rw [← materializeFrom_returns_iff, applyWakes, if_neg hunapplied]
  change EStateM.bind (materializeActions o (wake.call base) wake.actions (env.sub 0)) _ s = _ ↔
    (∃ r s', materializeActions o (wake.call base) wake.actions (env.sub 0) s = .ok r s') ∧ _
  unfold EStateM.bind afterMarker beforeMarker
  cases materializeActions o (wake.call base) wake.actions (env.sub 0) s with
  | error e s₁ => exact ⟨fun h => (by cases h), fun ⟨⟨r, s', h⟩, _⟩ => (by cases h)⟩
  | ok results s₁ =>
    change EStateM.bind (InMemoryStore.appendEvent (wakeApplied (env.sub 1) wake)) _ s₁ = _ ↔ _
    unfold EStateM.bind
    rw [appendEvent_run]
    exact ⟨fun h => ⟨⟨results, s₁, rfl⟩, h⟩, fun h => h.2⟩

theorem applyWakes_applied (happlied : applied.any (marks wake.wakeId) = true) :
    applyWakes o base applied env (wake :: rest) s = applyWakes o base applied (env.sub 2) rest s := by
  rw [applyWakes, if_pos happlied]

variable {wakes : List StoredWake}

theorem applyWakes_keeps (hs : s.WellFormed) (h : applyWakes o base applied env wakes s = .ok () s') :
    s.events <+: s'.events ∧ ∀ wakeId, (∀ wake ∈ wakes, wake.wakeId ≠ wakeId) →
      s'.events.any (marks wakeId) = s.events.any (marks wakeId) := by
  induction wakes generalizing env s with
  | nil =>
    cases h
    exact ⟨List.prefix_refl _, fun _ _ => rfl⟩
  | cons wake rest ih =>
    by_cases happlied : applied.any (marks wake.wakeId) = true
    · rw [applyWakes_applied happlied] at h
      obtain ⟨hkept, hmarks⟩ := ih hs h
      exact ⟨hkept, fun wakeId hne => hmarks wakeId fun w hw => hne w (List.mem_cons_of_mem _ hw)⟩
    · obtain ⟨-, hrest⟩ := (applyWakes_cons happlied).mp h
      obtain ⟨hkept, hmarks⟩ := ih (wellFormed_afterMarker _ _ hs wake) hrest
      refine ⟨(prefix_afterMarker hs wake).trans hkept, fun wakeId hne => ?_⟩
      rw [hmarks wakeId fun w hw => hne w (List.mem_cons_of_mem _ hw)]
      exact any_marks_afterMarker hs (hne wake List.mem_cons_self)

theorem any_of_prefix {p : SemanticEvent → Bool} {events events' : List SemanticEvent} (h : events <+: events')
    (hp : events.any p = true) : events'.any p = true := by
  obtain ⟨new, rfl⟩ := h
  rw [List.any_append, hp, Bool.true_or]

/-- If everything is accepted, the pass returns and every wake is marked. -/
theorem applied_of_accepted (hs : s.WellFormed) (h : WakesAccepted o base applied env s wakes) :
    ∃ s', applyWakes o base applied env wakes s = .ok () s' ∧
      ∀ wake ∈ wakes, applied.any (marks wake.wakeId) = false → s'.events.any (marks wake.wakeId) = true := by
  induction wakes generalizing env s with
  | nil => exact ⟨s, rfl, fun wake hw => absurd hw List.not_mem_nil⟩
  | cons wake rest ih =>
    unfold WakesAccepted at h
    by_cases happlied : applied.any (marks wake.wakeId) = true
    · rw [if_pos happlied] at h
      obtain ⟨s', hrun, hmarked⟩ := ih hs h
      refine ⟨s', (applyWakes_applied happlied).trans hrun, fun w hw hunapplied => ?_⟩
      rcases List.mem_cons.mp hw with rfl | hw
      · rw [happlied] at hunapplied
        cases hunapplied
      · exact hmarked w hw hunapplied
    · rw [if_neg happlied] at h
      obtain ⟨hactions, hfresh, hrest⟩ := h
      have hafter : afterMarker o base env wake s = { beforeMarker o base env wake s with
          events := (beforeMarker o base env wake s).events ++ [wakeApplied (env.sub 1) wake] } := if_pos hfresh
      rw [← hafter] at hrest
      have hwell := wellFormed_afterMarker (o := o) base env hs wake
      obtain ⟨s', hrun, hmarked⟩ := ih hwell hrest
      refine ⟨s', (applyWakes_cons happlied).mpr ⟨hactions, hrun⟩, fun w hw hunapplied => ?_⟩
      rcases List.mem_cons.mp hw with rfl | hw
      · refine any_of_prefix (applyWakes_keeps hwell hrun).1 ?_
        rw [hafter, List.any_append, List.any_cons, marks_wakeApplied]
        simp
      · exact hmarked w hw hunapplied

/-- If the pass returns and every wake is marked, everything was accepted. -/
theorem accepted_of_applied (hs : s.WellFormed)
    (hids : (wakes.map StoredWake.wakeId).Nodup) (hrun : applyWakes o base applied env wakes s = .ok () s')
    (hunmarked : ∀ wake ∈ wakes, applied.any (marks wake.wakeId) = false → s.events.any (marks wake.wakeId) = false)
    (hmarked : ∀ wake ∈ wakes, applied.any (marks wake.wakeId) = false → s'.events.any (marks wake.wakeId) = true) :
    WakesAccepted o base applied env s wakes := by
  induction wakes generalizing env s with
  | nil => trivial
  | cons wake rest ih =>
    obtain ⟨hother, hids⟩ := List.nodup_cons.mp hids
    have hne (w : StoredWake) (hw : w ∈ rest) : w.wakeId ≠ wake.wakeId :=
      fun heq => hother (List.mem_map.mpr ⟨w, hw, heq⟩)
    have hmarkedRest := fun w hw => hmarked w (List.mem_cons_of_mem _ hw)
    unfold WakesAccepted
    by_cases happlied : applied.any (marks wake.wakeId) = true
    · rw [applyWakes_applied happlied] at hrun
      rw [if_pos happlied]
      exact ih hs hids hrun (fun w hw => hunmarked w (List.mem_cons_of_mem _ hw)) hmarkedRest
    · obtain ⟨hactions, hrest⟩ := (applyWakes_cons happlied).mp hrun
      have hwell := wellFormed_afterMarker (o := o) base env hs wake
      rw [if_neg happlied]
      rw [Bool.not_eq_true] at happlied
      have hfresh : ∀ e ∈ (beforeMarker o base env wake s).events, e.eventId ≠ newEventId ((env.sub 1).sub 0) := by
        by_contra hknown
        have hafter : afterMarker o base env wake s = beforeMarker o base env wake s := if_neg hknown
        have hmarks := (applyWakes_keeps hwell hrest).2 wake.wakeId hne
        rw [hafter, (keepsMarkers_beforeMarker _ _ hs wake).any_marks, hunmarked wake List.mem_cons_self happlied,
          hmarked wake List.mem_cons_self happlied] at hmarks
        cases hmarks
      have hafter : afterMarker o base env wake s = { beforeMarker o base env wake s with
          events := (beforeMarker o base env wake s).events ++ [wakeApplied (env.sub 1) wake] } := if_pos hfresh
      refine ⟨hactions, hfresh, ?_⟩
      rw [← hafter]
      refine ih hwell hids hrest (fun w hw hunapplied => ?_) hmarkedRest
      rw [any_marks_afterMarker hs (hne w hw).symm]
      exact hunmarked w (List.mem_cons_of_mem _ hw) hunapplied

/-- Every wake is applied exactly if every action of a wake without a marker is accepted in the state before it. -/
theorem every_wake_applied_iff (hs : StoreReachable s) {wakes : List StoredWake}
    (hids : (wakes.map StoredWake.wakeId).Nodup) :
    EveryWakeApplied o base env wakes s ↔ WakesAccepted o base s.events env s wakes := by
  have hwell := hs.wellFormed
  have hobserve : observe o base env wakes s = applyWakes o base s.events env wakes s := rfl
  constructor
  · rintro ⟨hmarked, s', hrun⟩
    rw [hobserve] at hrun
    refine accepted_of_applied hwell hids hrun (fun _ _ h => h) fun wake hw _ => ?_
    have hmark := hmarked wake hw
    rwa [hobserve, hrun] at hmark
  · intro h
    obtain ⟨s', hrun, hmarked⟩ := applied_of_accepted hwell h
    refine ⟨fun wake hw => ?_, s', hobserve.trans hrun⟩
    rw [hobserve, hrun]
    change s'.events.any (marks wake.wakeId) = true
    by_cases happlied : s.events.any (marks wake.wakeId) = true
    · exact any_of_prefix (applyWakes_keeps hwell hrun).1 happlied
    · exact hmarked wake hw (Bool.not_eq_true _ ▸ happlied)

def storedWake (wakeId : String) (actions : List PyValue) : StoredWake :=
  { wakeId, actions, evidenceRefs := {"snapshot"}, reasoner := .none, model := .none, fallbackReason := .none }

def soundWakes : List StoredWake := [storedWake "w1" [appFix "k1"], storedWake "w2" [appFix "k1"]]

theorem soundWakes_observed : (match observe plainSurroundings (appCall "") (namedSupply "a") soundWakes .empty with
    | .ok _ _ => true
    | .error _ _ => false) = true := by decide +kernel

theorem soundWakes_accepted : WakesAccepted plainSurroundings (appCall "") [] (namedSupply "a") .empty soundWakes := by
  refine (every_wake_applied_iff (.refl _) (by decide)).mp ⟨by decide +kernel, ?_⟩
  have hreturned := soundWakes_observed
  generalize observe plainSurroundings (appCall "") (namedSupply "a") soundWakes .empty = result at hreturned
  cases result with
  | ok _ s' => exact ⟨s', rfl⟩
  | error e s' => cases hreturned

def bareFix : PyValue :=
  .dict [("kind", .str "fix"), ("authority", .str "ordinary"), ("project_id", .str "app"), ("title", .str "Fix"),
    ("detail", .str "It fails"), ("verify_argv", .list [.str "pytest"])]

theorem bareFix_blocks_later_wake :
    ¬∀ (o : Surroundings) (base : WakeCall) (env : Supply) (s : InMemoryStore) (wakes : List StoredWake), StoreReachable s →
      (wakes.map StoredWake.wakeId).Nodup → EveryWakeApplied o base env wakes s := by
  intro h
  have hmarked := (h plainSurroundings (appCall "") (namedSupply "a") .empty
    [storedWake "w1" [bareFix], storedWake "w2" [appFix "k1"]] (.refl _) (by decide)).marked
    (storedWake "w2" [appFix "k1"]) (.tail _ (.head _))
  revert hmarked
  decide +kernel

end Wakes

end AllTomorrow.Overseer
