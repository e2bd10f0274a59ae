import AllTomorrow.AutonomousBatches

/-!
# When a judgement raises

An action is untrusted, and so is what earlier events hold. For each check of a batch: the condition
under which it answers instead of raising, on the action and on the store before the batch.
-/

namespace AllTomorrow.Overseer

open InsertionDict (contains_eq_false_iff contains_iff get?_set get?_set_self)

open EStateM Researcher

/-! ## Values -/

/-- `v.get(key, default)` of an object. -/
def fieldOf (v : PyValue) (key : String) (default : PyValue) : PyValue :=
  match v with
  | .dict entries => (entries.lookup key).getD default
  | _ => default

def IsObject (v : PyValue) : Prop := ∃ entries, v = .dict entries

theorem member_eq {v : PyValue} (h : IsObject v) (key : String) (default : PyValue) :
    member v key default = .ok (fieldOf v key default) := by
  obtain ⟨entries, rfl⟩ := h
  rfl

theorem isObject_of_member {v w : PyValue} {key : String} {default : PyValue} (h : member v key default = .ok w) :
    IsObject v := by
  cases v with
  | dict entries => exact ⟨entries, rfl⟩
  | none | bool | int => cases h
  | str | list => cases h

theorem registryGet_ok_iff (registry : Registry) {projectId : PyValue} :
    (∃ p, registryGet registry projectId = .ok p) ↔ unhashable projectId = false := by
  unfold registryGet
  cases h : unhashable projectId with
  | true => simp
  | false =>
    simp only [Bool.false_eq_true, if_false, iff_true]
    cases projectId <;> exact ⟨_, rfl⟩

/-! ## Searches -/

section Search

variable {α : Type}

def ReadableUntil (found readable : α → Prop) (xs : List α) : Prop :=
  ∀ before x after, xs = before ++ x :: after → (∀ y ∈ before, ¬found y) → readable x

variable {found readable : α → Prop}

theorem readableUntil_nil : ReadableUntil found readable [] := by
  intro before x after h
  simp at h

theorem readableUntil_cons {x : α} {xs : List α} :
    ReadableUntil found readable (x :: xs) ↔ readable x ∧ (¬found x → ReadableUntil found readable xs) := by
  constructor
  · intro h
    refine ⟨h [] x xs rfl (by simp), fun hx before y after hxs hbefore => ?_⟩
    refine h (x :: before) y after (by rw [hxs, List.cons_append]) ?_
    rintro z hz
    rcases List.mem_cons.mp hz with rfl | hz
    · exact hx
    · exact hbefore z hz
  · rintro ⟨hx, hrest⟩ before y after hxs hbefore
    cases before with
    | nil =>
      cases hxs
      exact hx
    | cons z before =>
      cases hxs
      exact hrest (hbefore x List.mem_cons_self) before y after rfl fun w hw => hbefore w (List.mem_cons_of_mem _ hw)

variable {p : α → Except Exn Bool} {xs : List α}

theorem anyOf_ok_iff (xs : List α) {readable : α → Prop} (hreadable : ∀ x, (∃ b, p x = .ok b) ↔ readable x) :
    (∃ b, anyOf p xs = .ok b) ↔ ReadableUntil (fun x => p x = .ok true) readable xs := by
  induction xs with
  | nil => exact ⟨fun _ => readableUntil_nil, fun _ => ⟨false, rfl⟩⟩
  | cons x xs ih =>
    unfold anyOf
    rw [readableUntil_cons, ← hreadable, ← ih]
    cases hx : p x with
    | error e => simp [bind, Except.bind]
    | ok b => cases b <;> simp [bind, Except.bind, pure, Except.pure]

theorem anyOf_true (h : anyOf p xs = .ok true) : ∃ x ∈ xs, p x = .ok true := by
  induction xs with
  | nil => cases h
  | cons x xs ih =>
    unfold anyOf at h
    obtain ⟨b, hb, h⟩ := except_bind_ok.mp h
    cases b with
    | true => exact ⟨x, List.mem_cons_self, hb⟩
    | false =>
      obtain ⟨y, hy, hfound⟩ := ih h
      exact ⟨y, List.mem_cons_of_mem _ hy, hfound⟩

theorem not_anyOf_false {x : α} (hx : x ∈ xs) (hfound : p x = .ok true) : anyOf p xs ≠ .ok false := by
  intro h
  rw [anyOf_ok h x hx] at hfound
  cases hfound

theorem filterAuxM_ok_iff (kept : List α) : (∃ ys, List.filterAuxM p xs kept = .ok ys) ↔ ∀ x ∈ xs, ∃ b, p x = .ok b := by
  induction xs generalizing kept with
  | nil => exact ⟨fun _ x hx => absurd hx List.not_mem_nil, fun _ => ⟨kept, rfl⟩⟩
  | cons x xs ih =>
    rw [List.forall_mem_cons, List.filterAuxM]
    cases hx : p x with
    | error e => simp [bind, Except.bind]
    | ok b =>
      change (∃ ys, List.filterAuxM p xs (cond b (x :: kept) kept) = .ok ys) ↔ _
      rw [ih]
      simp

theorem filterM_ok_iff (p : α → Except Exn Bool) (xs : List α) : (∃ ys, xs.filterM p = .ok ys) ↔ ∀ x ∈ xs, ∃ b, p x = .ok b := by
  rw [← filterAuxM_ok_iff []]
  unfold List.filterM
  cases h : List.filterAuxM p xs [] with
  | error e => simp [bind, Except.bind]
  | ok ys => simp [bind, Except.bind, pure, Except.pure]

end Search

section Action

variable {o : Surroundings} {c : WakeCall} {a : ReadAction}

/-- The action is JSON after the redaction, an object whose project can be looked up. -/
def IsReadable (c : WakeCall) (untrusted : PyValue) : Prop :=
  ∃ action, c.redacted untrusted = .ok action ∧ IsObject action ∧
    unhashable (fieldOf action "project_id" (.str "")) = false

variable {untrusted : PyValue}

theorem readAction_ok_iff {i : ℕ} : (∃ a, readAction o c i untrusted = .ok a) ↔ IsReadable c untrusted := by
  unfold readAction
  constructor
  · rintro ⟨a, h⟩
    obtain ⟨action, haction, h⟩ := except_bind_ok.mp h
    obtain ⟨title, htitle, h⟩ := except_bind_ok.mp h
    obtain ⟨_, -, h⟩ := except_bind_ok.mp h
    obtain ⟨_, -, h⟩ := except_bind_ok.mp h
    obtain ⟨projectId, hprojectId, h⟩ := except_bind_ok.mp h
    obtain ⟨project, hproject, -⟩ := except_bind_ok.mp h
    obtain ⟨found, hfound, -⟩ := except_bind_ok.mp hproject
    have hobject := isObject_of_member htitle
    rw [member_eq hobject] at hprojectId
    cases hprojectId
    exact ⟨action, haction, hobject, (registryGet_ok_iff _).mp ⟨found, hfound⟩⟩
  · rintro ⟨action, haction, hobject, hhashable⟩
    obtain ⟨found, hfound⟩ := (registryGet_ok_iff c.registry).mpr hhashable
    have htest (configured : PyValue) : ∃ argv, testCommand configured action = .ok argv := by
      unfold testCommand
      split
      · exact ⟨_, rfl⟩
      · exact ⟨_, member_eq hobject _ _⟩
    obtain ⟨argv, hargv⟩ := htest (((found.filter fun p => p.path.any c.isFolder).map ProjectEntry.verifyArgv).getD .none)
    rw [haction]
    simp only [bind, Except.bind, pure, Except.pure, member_eq hobject, WakeCall.validProject, hfound, hargv]
    exact ⟨_, rfl⟩

theorem isObject_of_read {i : ℕ} (h : readAction o c i untrusted = .ok a) : IsObject a.action := by
  unfold readAction at h
  obtain ⟨action, haction, h⟩ := except_bind_ok.mp h
  obtain ⟨title, htitle, h⟩ := except_bind_ok.mp h
  obtain ⟨_, -, h⟩ := except_bind_ok.mp h
  obtain ⟨_, -, h⟩ := except_bind_ok.mp h
  obtain ⟨_, -, h⟩ := except_bind_ok.mp h
  obtain ⟨_, -, h⟩ := except_bind_ok.mp h
  obtain ⟨_, -, h⟩ := except_bind_ok.mp h
  obtain ⟨_, -, h⟩ := except_bind_ok.mp h
  cases h
  exact isObject_of_member htitle

def isReport (e : SemanticEvent) : Bool := e.type = "metacog.report" || e.type = "metacog.question"

/-- Each report since `cutoff`, up to one of the same purpose, holds an object. -/
def ReportsReadable (o : Surroundings) (key : String) (cutoff : Datetime) (events : List SemanticEvent) : Prop :=
  ReadableUntil (fun e => sentSince o key cutoff e = .ok true)
    (fun e => isReport e = true → cutoff ≤ e.occurredAt → IsObject ((e.payload.get? "action").getD (.dict []))) events

theorem sentSince_ok_iff (key : String) (cutoff : Datetime) {e : SemanticEvent} : (∃ b, sentSince o key cutoff e = .ok b) ↔
      (isReport e = true → cutoff ≤ e.occurredAt → IsObject ((e.payload.get? "action").getD (.dict []))) := by
  unfold sentSince isReport
  by_cases h : (e.type = "metacog.report" ∨ e.type = "metacog.question") ∧ cutoff ≤ e.occurredAt
  · rw [if_pos h]
    constructor
    · rintro ⟨b, hb⟩ - -
      obtain ⟨_, hmember, -⟩ := except_bind_ok.mp hb
      exact isObject_of_member hmember
    · intro hobject
      have haction := hobject (by simpa using h.1) h.2
      simp only [bind, Except.bind, pure, Except.pure, member_eq haction, Surroundings.purposeKey]
      exact ⟨_, rfl⟩
  · rw [if_neg h]
    refine ⟨fun _ hreport hcutoff => absurd ⟨by simpa using hreport, hcutoff⟩ h, fun _ => ⟨false, rfl⟩⟩

/-! ## Evidence -/

def RefsKnown (known : Finset String) : PyValue → Prop
  | .list refs => refs ≠ [] ∧ ∀ ref ∈ refs, ∃ text ∈ known, ref = .str text
  | .str text => text ≠ "" ∧ ∀ letter ∈ text.toList, String.singleton letter ∈ known
  | .dict entries => entries ≠ [] ∧ ∀ entry ∈ entries, entry.1 ∈ known
  | .none | .bool _ | .int _ => False

structure Evident (c : WakeCall) (a : ReadAction) : Prop where
  refs : RefsKnown c.knownRefs (fieldOf a.action "evidence_refs" (.list []))
  problemKey : (fieldOf a.action "problem_key" .none).truthy = true
  detail : a.detail ≠ ""
  title : a.title ≠ ""

theorem mapM_some_iff {α β : Type} {f : α → Option β} {xs : List α} :
    (∃ ys, xs.mapM f = some ys) ↔ ∀ x ∈ xs, ∃ y, f x = some y := by
  induction xs with
  | nil => simp
  | cons x xs ih =>
    rw [List.forall_mem_cons, ← ih, List.mapM_cons]
    cases f x with
    | none => simp
    | some y => cases xs.mapM f <;> simp

theorem of_mem_mapM {α β : Type} {f : α → Option β} {xs : List α} {ys : List β} (h : xs.mapM f = some ys) {y : β}
    (hy : y ∈ ys) : ∃ x ∈ xs, f x = some y := by
  induction xs generalizing ys with
  | nil =>
    cases h
    cases hy
  | cons x xs ih =>
    rw [List.mapM_cons] at h
    obtain ⟨z, hz, h⟩ := Option.bind_eq_some_iff.mp h
    obtain ⟨zs, hzs, h⟩ := Option.bind_eq_some_iff.mp h
    cases h
    rcases List.mem_cons.mp hy with rfl | hy
    · exact ⟨x, List.mem_cons_self, hz⟩
    · obtain ⟨x', hx', hfound⟩ := ih hzs hy
      exact ⟨x', List.mem_cons_of_mem _ hx', hfound⟩

def knownRef (known : Finset String) : PyValue → Option String
  | .str ref => if ref ∈ known then some ref else none
  | _ => none

variable {known : Finset String}

theorem knownRef_eq_some {v : PyValue} {ref : String} : knownRef known v = some ref ↔ v = .str ref ∧ ref ∈ known := by
  cases v with
  | str text =>
    unfold knownRef
    by_cases h : text ∈ known
    · simp only [h, if_true, Option.some.injEq, PyValue.str.injEq]
      exact ⟨fun heq => ⟨heq, heq ▸ h⟩, fun hand => hand.1⟩
    · simp only [h, if_false, reduceCtorEq, PyValue.str.injEq, false_iff, not_and]
      rintro rfl
      exact h
  | none | bool | int => simp [knownRef]
  | list | dict => simp [knownRef]

/-- The references that `set(refs)` goes through. -/
def refItems : PyValue → List PyValue
  | .list refs => refs
  | .str text => text.toList.map fun c => .str (String.singleton c)
  | .dict entries => entries.map fun e => .str e.1
  | _ => []

variable {refs : PyValue} {found : List String}

theorem refsWithin_eq
    (h : refsWithin known refs = .ok (some found)) : (refItems refs).mapM (knownRef known) = some found := by
  cases refs with
  | list refs =>
    unfold refsWithin at h
    dsimp only at h
    split at h
    · cases h
    · exact Except.ok.inj h
  | str text => exact Except.ok.inj h
  | dict entries => exact Except.ok.inj h
  | none | bool | int => cases h

theorem refsWithin_known (h : refsWithin known refs = .ok (some found)) : ∀ ref ∈ found, ref ∈ known := by
  intro ref href
  obtain ⟨v, -, hv⟩ := of_mem_mapM (refsWithin_eq h) href
  exact (knownRef_eq_some.mp hv).2

theorem refsWithin_ok_iff :
    refs.truthy = true ∧ (∃ found, refsWithin known refs = .ok (some found)) ↔ RefsKnown known refs := by
  have hitems : (∃ found, (refItems refs).mapM (knownRef known) = some found) ↔
      ∀ v ∈ refItems refs, ∃ ref ∈ known, v = .str ref := by
    rw [mapM_some_iff]
    simp only [knownRef_eq_some, and_comm]
  constructor
  · rintro ⟨htruthy, found, hfound⟩
    have hknown := hitems.mp ⟨found, refsWithin_eq hfound⟩
    cases refs with
    | list refs => exact ⟨by simpa [PyValue.truthy] using htruthy, hknown⟩
    | str text =>
      refine ⟨by simpa [PyValue.truthy] using htruthy, fun letter hletter => ?_⟩
      obtain ⟨ref, href, heq⟩ := hknown _ (List.mem_map_of_mem hletter)
      cases heq
      exact href
    | dict entries =>
      refine ⟨by simpa [PyValue.truthy] using htruthy, fun entry hentry => ?_⟩
      obtain ⟨ref, href, heq⟩ := hknown _ (List.mem_map_of_mem hentry)
      cases heq
      exact href
    | none | bool | int => cases hfound
  · intro h
    cases refs with
    | list refs =>
      obtain ⟨hne, hknown⟩ := h
      obtain ⟨found, hfound⟩ := hitems.mpr hknown
      refine ⟨by simpa [PyValue.truthy] using hne, found, ?_⟩
      unfold refsWithin
      dsimp only
      have hnone : refs.find? unhashable = none := by
        rw [List.find?_eq_none]
        intro v hv
        obtain ⟨ref, -, rfl⟩ := hknown v hv
        simp [unhashable]
      rw [hnone]
      exact congrArg Except.ok hfound
    | str text =>
      obtain ⟨hne, hknown⟩ := h
      obtain ⟨found, hfound⟩ := hitems.mpr fun v hv => by
        obtain ⟨letter, hletter, rfl⟩ := List.mem_map.mp hv
        exact ⟨_, hknown letter hletter, rfl⟩
      exact ⟨by simpa [PyValue.truthy] using hne, found, congrArg Except.ok hfound⟩
    | dict entries =>
      obtain ⟨hne, hknown⟩ := h
      obtain ⟨found, hfound⟩ := hitems.mpr fun v hv => by
        obtain ⟨entry, hentry, rfl⟩ := List.mem_map.mp hv
        exact ⟨_, hknown entry hentry, rfl⟩
      exact ⟨by simpa [PyValue.truthy] using hne, found, congrArg Except.ok hfound⟩
    | none | bool | int => cases h

theorem evidence_of_ok (haction : IsObject a.action) {refs : List String} {problemKey : PyValue}
    (h : evidence c a = .ok (refs, problemKey)) :
    Evident c a ∧ problemKey = fieldOf a.action "problem_key" .none ∧ ∀ ref ∈ refs, ref ∈ c.knownRefs := by
  unfold evidence at h
  rw [member_eq haction, member_eq haction] at h
  obtain ⟨value, hvalue, h⟩ := except_bind_ok.mp h
  cases hvalue
  dsimp only at h
  split at h
  · cases h
  rename_i htruthy
  obtain ⟨found, hfound, h⟩ := except_bind_ok.mp h
  cases found with
  | none => cases h
  | some found =>
    obtain ⟨key, hkey, h⟩ := except_bind_ok.mp h
    cases hkey
    split at h
    · cases h
    rename_i hcomplete
    cases h
    simp only [Bool.or_eq_true, Bool.not_eq_true', decide_eq_true_eq, not_or, Bool.not_eq_false] at hcomplete
    refine ⟨⟨refsWithin_ok_iff.mp ⟨by simpa using htruthy, _, hfound⟩, hcomplete.1.1, hcomplete.1.2, hcomplete.2⟩, rfl,
      refsWithin_known hfound⟩

theorem evidence_ok (haction : IsObject a.action) (h : Evident c a) : ∃ found, evidence c a = .ok found := by
  obtain ⟨htruthy, refs, hrefs⟩ := refsWithin_ok_iff.mpr h.refs
  unfold evidence
  rw [member_eq haction, member_eq haction]
  simp only [bind, Except.bind, htruthy, Bool.not_true, Bool.false_eq_true, if_false, hrefs, h.problemKey, h.detail,
    h.title, decide_false, Bool.or_false]
  exact ⟨_, rfl⟩

end Action

section Open

variable {o : Surroundings} {c : WakeCall} {a : ReadAction} {s : InMemoryStore}

/-- The creation events of open Works hold a decision that is an object. -/
def DecisionsReadable (s : InMemoryStore) : Prop :=
  ∀ e ∈ s.events, madeByMetacog e = true → isOpenIn s e = true → IsObject ((e.payload.get? "decision").getD (.dict []))

theorem openWorkOf_ok_iff {e : SemanticEvent} : (∃ found, openWorkOf s e = .ok found) ↔
      (madeByMetacog e = true → isOpenIn s e = true → IsObject ((e.payload.get? "decision").getD (.dict []))) := by
  unfold openWorkOf isOpenIn
  by_cases hmade : madeByMetacog e = true
  · rw [if_neg (by simpa using hmade)]
    cases hwork : e.workId.bind s.work.get? with
    | none => simp
    | some w =>
      dsimp only
      by_cases hterminal : w.isTerminal = true
      · rw [if_pos hterminal]
        simp [hterminal]
      · rw [if_neg hterminal]
        constructor
        · rintro ⟨found, hfound⟩ - -
          obtain ⟨_, hmember, -⟩ := except_bind_ok.mp hfound
          exact isObject_of_member hmember
        · intro hobject
          have hdecision := hobject hmade (by simpa using hterminal)
          simp only [bind, Except.bind, pure, Except.pure, member_eq hdecision]
          exact ⟨_, rfl⟩
  · rw [if_pos (by simpa using hmade)]
    exact ⟨fun _ h => absurd h hmade, fun _ => ⟨none, rfl⟩⟩

theorem openMetacogWork_ok_iff : (∃ opened, openMetacogWork s s.events = .ok opened) ↔ DecisionsReadable s := by
  unfold DecisionsReadable
  generalize s.events = events
  induction events with
  | nil => exact ⟨fun _ e he => absurd he List.not_mem_nil, fun _ => ⟨[], rfl⟩⟩
  | cons e events ih =>
    rw [List.forall_mem_cons, ← ih, ← openWorkOf_ok_iff]
    constructor
    · rintro ⟨opened, h⟩
      unfold openMetacogWork at h
      obtain ⟨found, hfound, h⟩ := except_bind_ok.mp h
      obtain ⟨others, hothers, -⟩ := except_bind_ok.mp h
      exact ⟨⟨found, hfound⟩, others, hothers⟩
    · rintro ⟨⟨found, hfound⟩, others, hothers⟩
      unfold openMetacogWork
      rw [hfound]
      change ∃ opened, (openMetacogWork s events >>= fun others => pure (found.toList ++ others)) = .ok opened
      rw [hothers]
      exact ⟨_, rfl⟩

theorem samePurpose_ok_iff (key : String) {w : OpenWork} :
    (∃ b, samePurpose o key w = .ok b) ↔ ∃ title, w.title = .str title := by
  unfold samePurpose
  cases htitle : w.title with
  | str title => exact ⟨fun _ => ⟨title, rfl⟩, fun _ => ⟨_, rfl⟩⟩
  | none | bool | int => exact ⟨fun ⟨_, h⟩ => (by cases h), fun ⟨_, h⟩ => (by cases h)⟩
  | list | dict => exact ⟨fun ⟨_, h⟩ => (by cases h), fun ⟨_, h⟩ => (by cases h)⟩

theorem onSelf_ok_iff {w : OpenWork} : (∃ b, onSelf o c w = .ok b) ↔ unhashable w.projectId = false := by
  rw [← registryGet_ok_iff c.registry]
  unfold onSelf
  cases registryGet c.registry w.projectId with
  | error e => simp [bind, Except.bind]
  | ok p => simp [bind, Except.bind, pure, Except.pure]

end Open

/-! ## Budget -/

section Budget

variable {env : Supply} {lineageId : String} {created : Datetime} {ledger reserved : BudgetLedger}

def BudgetLedger.charged (lineageId : String) (ledger : BudgetLedger) : BudgetLedger :=
  let used := ledger.used lineageId
  { ledger with usage := ledger.usage.set lineageId { used with createdWork := used.createdWork + 1 } }

/-- Nothing but the number and the age of the Works of the lineage can refuse one. -/
structure BudgetLedger.Sound (lineageId : String) (created : Datetime) (ledger : BudgetLedger) : Prop where
  known : (ledger.used lineageId).hasUnknownCost = false
  tokens : (ledger.used lineageId).tokensConsumed ≤ ledger.config.maxTokens
  createdAt : ledger.createdAt.get? lineageId = some created

namespace BudgetLedger.Sound

theorem guardNoUnknown (h : ledger.Sound lineageId created) : ledger.guardNoUnknown lineageId = .ok () := by
  unfold BudgetLedger.guardNoUnknown
  rw [if_neg (by simp [h.known]), if_neg (not_lt.mpr h.tokens)]

theorem reserveWork_eq (h : ledger.Sound lineageId created) : ledger.reserveWork env lineageId =
    if env.utcNow - created > ledger.config.maxWallClockAge then .error (budgetExceeded "wall-clock age exceeded" lineageId)
    else if (ledger.used lineageId).createdWork + 1 > ledger.config.maxCreatedWork then
      .error (budgetExceeded "max_created_work exceeded" lineageId)
    else .ok (ledger.charged lineageId) := by
  unfold BudgetLedger.reserveWork guardAge
  rw [h.guardNoUnknown, h.createdAt]
  dsimp only
  by_cases hage : env.utcNow - created > ledger.config.maxWallClockAge
  · rw [if_pos hage, if_pos hage]
    rfl
  · rw [if_neg hage, if_neg hage]
    rfl

theorem reserveWork_ok_iff (h : ledger.Sound lineageId created) : (∃ r, ledger.reserveWork env lineageId = .ok r) ↔
    env.utcNow - created ≤ ledger.config.maxWallClockAge ∧
      (ledger.used lineageId).createdWork + 1 ≤ ledger.config.maxCreatedWork := by
  rw [h.reserveWork_eq]
  split
  · rename_i hage
    exact ⟨fun ⟨_, hr⟩ => (by cases hr), fun hle => absurd hle.1 (not_le.mpr hage)⟩
  · rename_i hage
    split
    · rename_i hcount
      exact ⟨fun ⟨_, hr⟩ => (by cases hr), fun hle => absurd hle.2 (not_le.mpr hcount)⟩
    · rename_i hcount
      exact ⟨fun _ => ⟨not_lt.mp hage, not_lt.mp hcount⟩, fun _ => ⟨_, rfl⟩⟩

theorem reserveWork_error (h : ledger.Sound lineageId created) {e : Exn} (herror : ledger.reserveWork env lineageId = .error e) :
    isBudgetExceeded e = true := by
  rw [h.reserveWork_eq] at herror
  split at herror
  · cases herror
    rfl
  · split at herror
    · cases herror
      rfl
    · cases herror

theorem reserveWork (h : ledger.Sound lineageId created) (hok : ledger.reserveWork env lineageId = .ok reserved) :
    reserved.Sound lineageId created := by
  rw [h.reserveWork_eq] at hok
  split at hok
  · cases hok
  split at hok
  · cases hok
  cases hok
  have hused : (ledger.charged lineageId).used lineageId =
      { ledger.used lineageId with createdWork := (ledger.used lineageId).createdWork + 1 } := by
    unfold BudgetLedger.charged
    rw [BudgetLedger.used, get?_set_self, Option.getD_some]
  refine ⟨?_, ?_, h.createdAt⟩
  · rw [hused]
    exact h.known
  · rw [hused]
    exact h.tokens

variable {previous : List SemanticEvent}

/-- The reservations of the day succeed if their number is within the limit and the clock does not run for too long. -/
theorem reserveMade_ok_iff {day : ℤ} (h : ledger.Sound lineageId created) :
    (∃ r, reserveMade env day lineageId previous ledger = .ok r) ↔ (∀ k e, previous[k]? = some e → madeOn day e = true →
        (env (List.replicate k 1 ++ [0])).now - created ≤ ledger.config.maxWallClockAge) ∧
      (previous.countP (madeOn day) = 0 ∨
        (ledger.used lineageId).createdWork + previous.countP (madeOn day) ≤ ledger.config.maxCreatedWork) := by
  induction previous generalizing env ledger with
  | nil => simp [reserveMade]
  | cons e rest ih =>
    have hsplit (age : ℤ) : (∀ k e', (e :: rest)[k]? = some e' → madeOn day e' = true →
        (env (List.replicate k 1 ++ [0])).now - created ≤ age) ↔
        (madeOn day e = true → (env.sub 0).utcNow - created ≤ age) ∧
        ∀ k e', rest[k]? = some e' → madeOn day e' = true →
          ((env.sub 1) (List.replicate k 1 ++ [0])).now - created ≤ age := by
      constructor
      · exact fun hall => ⟨hall 0 e rfl, fun k e' hk => hall (k + 1) e' hk⟩
      · rintro ⟨hfirst, hrest⟩ k e' hk
        cases k with
        | zero =>
          cases hk
          exact hfirst
        | succ k => exact hrest k e' hk
    rw [hsplit]
    unfold reserveMade
    by_cases hday : madeOn day e = true
    · rw [if_pos (show (madeByMetacog e && decide (utcDay e.occurredAt = day)) = true from hday),
        List.countP_cons_of_pos hday]
      cases hreserve : ledger.reserveWork (env.sub 0) lineageId with
      | error err =>
        have hrefused := mt h.reserveWork_ok_iff.mpr (by rw [hreserve]; rintro ⟨_, hr⟩; cases hr)
        refine ⟨fun ⟨_, hr⟩ => (by cases hr), ?_⟩
        rintro ⟨⟨hage, -⟩, hcount⟩
        refine absurd ⟨hage hday, ?_⟩ hrefused
        rcases hcount with hnone | hcount
        · omega
        · push_cast at hcount
          omega
      | ok next =>
        obtain ⟨hle, hconfig, hused⟩ := BudgetLedger.reserveWork_ok hreserve
        have hage := (h.reserveWork_ok_iff.mp ⟨next, hreserve⟩).1
        change (∃ r, reserveMade (env.sub 1) day lineageId rest next = .ok r) ↔ _
        rw [ih (h.reserveWork hreserve), hconfig, hused]
        constructor
        · rintro ⟨hrest, hcount⟩
          refine ⟨⟨fun _ => hage, hrest⟩, .inr ?_⟩
          push_cast
          rcases hcount with hnone | hcount
          · rw [hnone]
            push_cast
            omega
          · omega
        · rintro ⟨⟨-, hrest⟩, hcount⟩
          refine ⟨hrest, .inr ?_⟩
          rcases hcount with hnone | hcount
          · omega
          · push_cast at hcount
            omega
    · rw [if_neg (show ¬(madeByMetacog e && decide (utcDay e.occurredAt = day)) = true from hday),
        List.countP_cons_of_neg hday, ih h]
      simp [hday]

theorem reserveMade {day : ℤ} (h : ledger.Sound lineageId created)
    (hok : Overseer.reserveMade env day lineageId previous ledger = .ok reserved) : reserved.Sound lineageId created := by
  induction previous generalizing env ledger with
  | nil =>
    cases hok
    exact h
  | cons e rest ih =>
    unfold Overseer.reserveMade at hok
    split at hok
    · obtain ⟨next, hnext, hrest⟩ := except_bind_ok.mp hok
      exact ih (h.reserveWork hnext) hrest
    · exact ih h hok

end BudgetLedger.Sound

end Budget

/-! ## The Goal and the Work -/

section Place

variable {o : Surroundings} {c : WakeCall} {a : ReadAction} {env : Supply} {s : InMemoryStore} {fingerprint : String}

def recordOf (c : WakeCall) (ident : String) (s : InMemoryStore) : Option SemanticEvent :=
  s.events.find? fun e => e.actor = "metacog" && (e.payload.get? "decision_id").bind textOf? = some ident &&
    (e.payload.get? "owner_user_id").bind textOf? = some c.userId

def placedId (o : Surroundings) (c : WakeCall) (ident : String) : String :=
  String.ofList ((o.sha256 (c.userId ++ ":" ++ "metacog" ++ ":" ++ ident)).toList.take 32)

/-- There is room for the Goal and the Work of the problem, if they are not recorded. -/
structure Placeable (o : Surroundings) (c : WakeCall) (fingerprint : String) (s : InMemoryStore) : Prop where
  goal : recordOf c ("goal:" ++ fingerprint) s = none →
    s.goals.get? ⟨"goal_" ++ placedId o c ("goal:" ++ fingerprint)⟩ = none
  work : recordOf c ("work:" ++ fingerprint) s = none →
    s.work.get? ⟨"work_" ++ placedId o c ("work:" ++ fingerprint)⟩ = none
  target : recordOf c ("work:" ++ fingerprint) s = none → ∀ e, recordOf c ("goal:" ++ fingerprint) s = some e →
    ∃ goal, e.goalId.bind s.goals.get? = some goal ∧ goal.isTerminal = false ∧ goal.userId = c.userId

theorem goal_ne_work (fingerprint : String) : "goal:" ++ fingerprint ≠ "work:" ++ fingerprint := by
  intro h
  have hlist := congrArg String.toList h
  simp at hlist

theorem checkAll_ok {α : Type} {check : α → Except Exn Unit} {xs : List α} (h : ∀ x ∈ xs, check x = .ok ()) :
    checkAll check xs = .ok () := by
  induction xs with
  | nil => rfl
  | cons x xs ih =>
    rw [List.forall_mem_cons] at h
    unfold checkAll
    rw [h.1]
    exact ih h.2

variable {refs : List String}

theorem decision_eq (ident : String) {action : String} {data : PyDict} {act : Action}
    (haction : Action.ofValue action = some act) (hpayload : checkPayload act data = .ok ())
    (hrefs : ∀ ref ∈ refs, ref ∈ c.knownRefs) : ∃ d, decision c a refs action ident data = .ok d ∧ d.decisionId = ident := by
  unfold decision validateDecision
  rw [haction]
  dsimp only
  have hevidence : checkAll (checkEvidence c.knownRefs ∅) refs = .ok () :=
    checkAll_ok fun ref href => by simp [checkEvidence, hrefs ref href]
  have htargets : checkAll (checkTarget ∅ data) targetKeys = .ok () := checkAll_ok fun key _ => by simp [checkTarget]
  rw [hpayload, hevidence, htargets]
  exact ⟨_, rfl, rfl⟩

theorem contains_set {d : PyDict} {key key' : String} {v : PyValue} :
    (d.set key' v).contains key = (decide (key = key') || d.contains key) := by
  unfold InsertionDict.contains
  rw [get?_set]
  by_cases h : key = key' <;> simp [h]

theorem contains_empty {key : String} : (InsertionDict.empty : PyDict).contains key = false := rfl

theorem checkPayload_goal : checkPayload .createGoal (goalPayload a) = .ok () := by
  have hkeys (key : String) : (goalPayload a).contains key = decide (key = "objective" ∨ key = "title") := by
    simp [goalPayload, contains_set, contains_empty]
  unfold checkPayload
  simp [required, forbiddenPayloadKeys, hkeys]

theorem checkPayload_work (goalId : Option GoalId) (lineageId : String) :
    checkPayload .createWork (workPayload c a goalId fingerprint lineageId) = .ok () := by
  have hkeys (key : String) : (workPayload c a goalId fingerprint lineageId).contains key = decide (key ∈
      ["verify_source", "verify_argv", "project_root", "authority", "root_autonomous_lineage_id", "source_action",
        "source_snapshot_id", "fingerprint", "executor", "project_id", "target_goal_id", "objective", "title"]) := by
    simp [workPayload, contains_set, contains_empty]
  unfold checkPayload
  simp [required, forbiddenPayloadKeys, hkeys]

section Materialize

variable {m : DecisionMaterializer} {sha256 : String → String} {d : Decision}

/-- A decision that was recorded is known, and another one is dispatched. -/
theorem ends_materialize_cases {Q : MaterializationResult × DecisionMaterializer → InMemoryStore → Prop}
    {E : Exn → InMemoryStore → Prop} (haction : d.action = .createGoal ∨ d.action = .createWork)
    (happlied : m.applied.get? d.decisionId = none) (hrecorded : ∀ e, s.events.find? (m.isRecord d) = some e →
      Q ({ action := d.action, goalId := e.goalId, workId := e.workId, alreadyApplied := true }, m) s)
    (hdispatch : s.events.find? (m.isRecord d) = none → Ends (atOnce (m.dispatch sha256 (env.sub 1) d)) s
      (fun r s' => Q (r.1, { r.2 with applied := r.2.applied.set d.decisionId r.1 }) s') E) :
    Ends (atOnce (m.materialize sha256 env d)) s Q E := by
  unfold DecisionMaterializer.materialize
  refine ends_atOnce_bind (Q := fun r s' => s' = s ∧ r = (s.events.find? (m.isRecord d)).map fun e =>
    { action := d.action, goalId := e.goalId, workId := e.workId, alreadyApplied := true }) ?_ ?_
  · unfold DecisionMaterializer.recorded
    rw [if_pos haction]
    refine ends_atOnce_bind (Q := fun events s' => s' = s ∧ events = s.events) (ends_ask ?_) ?_
    · exact ⟨rfl, by simp [InMemoryStore.listEvents]⟩
    · rintro events s' ⟨rfl, rfl⟩
      exact ends_atOnce_pure ⟨rfl, rfl⟩
  · rintro r s' ⟨rfl, rfl⟩
    cases hfind : s'.events.find? (m.isRecord d) with
    | some e => exact ends_atOnce_pure (hrecorded e hfind)
    | none =>
      dsimp only [Option.map_none]
      rw [happlied]
      exact ends_atOnce_bind (hdispatch hfind) fun r s' hr => ends_atOnce_pure hr

structure ForCall (c : WakeCall) (m : DecisionMaterializer) : Prop where
  userId : m.userId = c.userId
  actor : m.actor = metacogActor

theorem find?_isRecord (hm : ForCall c m) (d : Decision) : s.events.find? (m.isRecord d) = recordOf c d.decisionId s := by
  unfold recordOf
  congr 1
  funext e
  unfold DecisionMaterializer.isRecord
  rw [hm.userId, hm.actor]
  rfl

theorem identity_eq (hm : ForCall c m) (d : Decision) : m.identity o.sha256 d = placedId o c d.decisionId := by
  unfold DecisionMaterializer.identity placedId
  rw [hm.userId, hm.actor]
  rfl

/-- A Goal is created if its id is free. -/
theorem ends_createGoal (hm : ForCall c m) {title : PyValue} (htitle : d.payload.get? "title" = some title) :
    Ends (atOnce (m.createGoal o.sha256 env d)) s
      (fun r s' => s.goals.get? ⟨"goal_" ++ placedId o c d.decisionId⟩ = none ∧ s'.work = s.work ∧
        (∃ g, r.goalId = some g.goalId ∧ s'.goals.get? g.goalId = some g ∧ g.isTerminal = false ∧ g.userId = c.userId) ∧
        ∃ e : SemanticEvent, e.payload.get? "decision_id" = some (.str d.decisionId) ∧ s'.events = s.events ++ [e])
      fun _ _ => s.goals.get? ⟨"goal_" ++ placedId o c d.decisionId⟩ ≠ none := by
  unfold DecisionMaterializer.createGoal Decision.value
  rw [htitle]
  refine ends_atOnce_bind (Q := fun v s' => s' = s ∧ v = title) (ends_atOnce_pure ⟨rfl, rfl⟩) ?_
  rintro v s ⟨rfl, rfl⟩
  rw [← identity_eq hm]
  refine ends_atOnce_bind (Q := fun _ s' => _) (ends_ask ?_) fun _ s' h => ends_atOnce_pure h
  change Ends (InMemoryStore.createGoal _ _) _ _ _
  unfold InMemoryStore.createGoal
  refine ends_get_bind (ends_ite (fun hexists => ends_throw_bind ?_) fun hfresh => ?_)
  · obtain ⟨g, hg⟩ := contains_iff.mp hexists
    intro hnone
    cases hg.symm.trans hnone
  · rw [Bool.not_eq_true] at hfresh
    refine ends_modify_bind (ends_modify_bind (ends_pure ?_))
    refine ⟨contains_eq_false_iff.mp hfresh, rfl,
      ⟨m.goalOf o.sha256 (env.sub 0) d v, rfl, get?_set_self _ _ _, rfl, hm.userId⟩, _, ?_, rfl⟩
    exact get?_set_self _ _ _

/-- A Work is created if its id is free and its Goal is open and the user's. -/
theorem ends_createWork (hm : ForCall c m) {goalId : Option GoalId} {title : PyValue}
    (htarget : d.payload.get? "target_goal_id" = some (idValue goalId)) (htitle : d.payload.get? "title" = some title) :
    Ends (atOnce (m.createWork o.sha256 env d)) s (fun _ _ => s.work.get? ⟨"work_" ++ placedId o c d.decisionId⟩ = none ∧
        ∃ g, goalId.bind s.goals.get? = some g ∧ g.isTerminal = false ∧ g.userId = c.userId)
      fun _ _ => ¬(s.work.get? ⟨"work_" ++ placedId o c d.decisionId⟩ = none ∧
        ∃ g, goalId.bind s.goals.get? = some g ∧ g.isTerminal = false ∧ g.userId = c.userId) := by
  unfold DecisionMaterializer.createWork Decision.value
  rw [htarget, htitle]
  refine ends_atOnce_bind (Q := fun v s' => s' = s ∧ v = idValue goalId) (ends_atOnce_pure ⟨rfl, rfl⟩) ?_
  rintro v s ⟨rfl, rfl⟩
  refine ends_atOnce_bind (Q := fun g s' => s' = s ∧ g = goalId.bind s.goals.get?) ?_ ?_
  · cases goalId with
    | none => exact ends_atOnce_pure ⟨rfl, rfl⟩
    | some id => exact ends_ask (show Ends (readStore _) _ _ _ from ⟨rfl, rfl⟩)
  rintro found s ⟨rfl, rfl⟩
  cases hfound : goalId.bind s.goals.get? with
  | none =>
    refine ends_atOnce_throw ?_
    rintro ⟨-, g, hg, -⟩
    cases hg
  | some g =>
    obtain ⟨id, rfl, hget⟩ := Option.bind_eq_some_iff.mp hfound
    dsimp only
    split
    · rename_i hinvalid
      refine ends_atOnce_throw ?_
      rintro ⟨-, g', hg', hopen, huser⟩
      cases hg'
      rcases hinvalid with hterminal | hother
      · rw [hopen] at hterminal
        cases hterminal
      · exact hother (huser.trans hm.userId.symm)
    · rename_i hvalid
      rw [not_or, not_not, Bool.not_eq_true] at hvalid
      refine ends_atOnce_bind (Q := fun v s' => s' = s ∧ v = title) (ends_atOnce_pure ⟨rfl, rfl⟩) ?_
      rintro v s ⟨rfl, rfl⟩
      rw [← identity_eq hm]
      refine ends_atOnce_bind (Q := fun _ _ => _) (ends_ask ?_) fun _ s' h => ends_atOnce_pure h
      change Ends (InMemoryStore.createWork _ _) _ _ _
      unfold InMemoryStore.createWork
      refine ends_get_bind (ends_ite (fun hexists => ends_throw_bind ?_) fun hfresh => ends_ite (fun hmissing => ?_) fun _ => ?_)
      · obtain ⟨w, hw⟩ := contains_iff.mp hexists
        rintro ⟨hnone, -⟩
        cases hw.symm.trans hnone
      · have hcontains : s.goals.contains id = true := contains_iff.mpr ⟨g, hget⟩
        have hsame : (m.workOf o.sha256 (env.sub 1) d ⟨asText (idValue (some id))⟩ v).goalId = id := rfl
        rw [hsame, hcontains] at hmissing
        cases hmissing
      · rw [Bool.not_eq_true] at hfresh
        refine ends_modify_bind (ends_modify_bind (ends_pure ?_))
        exact ⟨contains_eq_false_iff.mp hfresh, g, rfl, hvalid.1, hvalid.2.trans hm.userId⟩

end Materialize

structure GoalPlaced (c : WakeCall) (fingerprint : String) (s : InMemoryStore) (goalId : Option GoalId)
    (m : DecisionMaterializer) (s' : InMemoryStore) : Prop where
  forCall : ForCall c m
  unapplied : m.applied.get? ("work:" ++ fingerprint) = none
  work : s'.work = s.work
  recorded : recordOf c ("work:" ++ fingerprint) s' = recordOf c ("work:" ++ fingerprint) s
  target : (∃ g, goalId.bind s'.goals.get? = some g ∧ g.isTerminal = false ∧ g.userId = c.userId) ↔
    ∀ e, recordOf c ("goal:" ++ fingerprint) s = some e →
      ∃ g, e.goalId.bind s.goals.get? = some g ∧ g.isTerminal = false ∧ g.userId = c.userId

theorem ends_placeGoal {d : Decision} (haction : d.action = .createGoal) (hid : d.decisionId = "goal:" ++ fingerprint)
    (hpayload : d.payload = goalPayload a) : Ends (atOnce ((metacogMaterializer c).materialize o.sha256 env d)) s
      (fun r s' => (recordOf c ("goal:" ++ fingerprint) s = none →
        s.goals.get? ⟨"goal_" ++ placedId o c ("goal:" ++ fingerprint)⟩ = none) ∧
        GoalPlaced c fingerprint s r.1.goalId r.2 s') fun _ _ => ¬Placeable o c fingerprint s := by
  have hm : ForCall c (metacogMaterializer c) := ⟨rfl, rfl⟩
  refine ends_materialize_cases (.inl haction) rfl (fun e he => ?_) fun hnone => ?_
  · rw [find?_isRecord hm, hid] at he
    refine ⟨fun hnone => (by cases he.symm.trans hnone), hm, rfl, rfl, rfl, ?_⟩
    rw [he]
    exact ⟨fun h e' he' => (by cases he'; exact h), fun h => h e rfl⟩
  · rw [find?_isRecord hm, hid] at hnone
    unfold DecisionMaterializer.dispatch
    rw [haction]
    have htitle : d.payload.get? "title" = some (.str a.title) := by
      rw [hpayload]
      simp [goalPayload, get?_set]
    refine ends_atOnce_bind ((ends_createGoal hm htitle).mono (fun _ _ h => h) fun _ _ h hplaceable => ?_) ?_
    · rw [hid] at h
      exact h (hplaceable.goal hnone)
    · rintro r s' ⟨hfresh, hwork, ⟨g, hgoalId, hget, hopen, huser⟩, e, hident, hevents⟩
      rw [hid] at hfresh
      refine ends_atOnce_pure ⟨fun _ => hfresh, ⟨rfl, rfl⟩, ?_, hwork, ?_, ?_⟩
      · dsimp only
        rw [InsertionDict.get?_set_of_ne _ _ (by rw [hid]; exact (goal_ne_work fingerprint).symm)]
        rfl
      · unfold recordOf
        rw [hevents, List.find?_append]
        have hother : ("goal:" ++ fingerprint : String) ≠ "work:" ++ fingerprint := goal_ne_work fingerprint
        rw [List.find?_cons_of_neg (by simp [hident, hid, textOf?, hother]), List.find?_nil, Option.or_none]
      · dsimp only
        rw [hgoalId, Option.bind_some, hnone]
        exact ⟨fun _ e he => (by cases he), fun _ => ⟨g, hget, hopen, huser⟩⟩

/-- The Goal and the Work are created, or they are recorded, if there is room. -/
theorem ends_createBoth_iff {lineageId : String} (hrefs : ∀ ref ∈ refs, ref ∈ c.knownRefs) :
    Ends (createBoth o c a refs fingerprint lineageId env) s (fun _ _ => Placeable o c fingerprint s)
      fun _ _ => ¬Placeable o c fingerprint s := by
  unfold createBoth
  obtain ⟨goalDecision, hgoalDecision, hgoalIdent⟩ := decision_eq (c := c) (a := a) ("goal:" ++ fingerprint)
    ofValue_createGoal checkPayload_goal hrefs
  obtain ⟨hgoalAction, hgoalPayload⟩ := decision_ok ofValue_createGoal hgoalDecision
  rw [hgoalDecision]
  refine Ends.bind (Q := fun d s' => s' = s ∧ d = goalDecision) (ends_pure ⟨rfl, rfl⟩) ?_
  rintro _ s ⟨rfl, rfl⟩
  refine Ends.bind (ends_placeGoal hgoalAction hgoalIdent hgoalPayload) ?_
  intro goal s₁ h
  -- otherwise the case distinctions below would evaluate the decision
  generalize hvalidated : decision c a refs "CREATE_WORK" ("work:" ++ fingerprint)
    (workPayload c a goal.1.goalId fingerprint lineageId) = validated
  obtain ⟨hgoal, hplaced⟩ := h
  obtain ⟨workDecision, hworkDecision, hworkIdent⟩ := decision_eq (c := c) (a := a) ("work:" ++ fingerprint)
    ofValue_createWork (checkPayload_work goal.1.goalId lineageId) hrefs
  obtain ⟨hworkAction, hworkPayload⟩ := decision_ok ofValue_createWork hworkDecision
  rw [hworkDecision] at hvalidated
  subst hvalidated
  refine Ends.bind (Q := fun d s' => s' = s₁ ∧ d = workDecision) (ends_pure ⟨rfl, rfl⟩) ?_
  rintro _ _ ⟨rfl, rfl⟩
  refine Ends.bind (Q := fun _ _ => Placeable o c fingerprint s) ?_ fun _ _ h => ends_pure h
  refine ends_materialize_cases (.inr hworkAction) (by rw [hworkIdent]; exact hplaced.unapplied) (fun e he => ?_) fun hnone => ?_
  · rw [find?_isRecord hplaced.forCall, hworkIdent, hplaced.recorded] at he
    have hvacuous : recordOf c ("work:" ++ fingerprint) s ≠ none := by simp [he]
    exact ⟨hgoal, fun h => absurd h hvacuous, fun h => absurd h hvacuous⟩
  · rw [find?_isRecord hplaced.forCall, hworkIdent, hplaced.recorded] at hnone
    unfold DecisionMaterializer.dispatch
    rw [hworkAction]
    have htarget : (‹Decision›).payload.get? "target_goal_id" = some (idValue goal.1.goalId) := by
      rw [hworkPayload]
      simp [workPayload, get?_set]
    have htitle : (‹Decision›).payload.get? "title" = some (.str a.title) := by
      rw [hworkPayload]
      simp [workPayload, get?_set]
    refine ends_atOnce_bind ((ends_createWork hplaced.forCall htarget htitle).mono (fun _ _ h => h) ?_) ?_
    · rintro _ _ h hplaceable
      rw [hworkIdent, hplaced.work] at h
      exact h ⟨hplaceable.work hnone, hplaced.target.mpr (hplaceable.target hnone)⟩
    · rintro r s' ⟨hfresh, htarget⟩
      rw [hworkIdent, hplaced.work] at hfresh
      exact ends_atOnce_pure ⟨hgoal, fun _ => hfresh, fun _ => hplaced.target.mp htarget⟩

end Place

/-! ## The batch -/

section Batch

variable (o : Surroundings) (c : WakeCall) (a : ReadAction) (env : Supply) (s : InMemoryStore)

def keyOf : String := o.str a.projectId ++ ":" ++ o.bareTitle a.title

/-- The Works that were made on the day are within the limit, and reading them takes less than a day. -/
structure BudgetReadable : Prop where
  count : (s.events.countP (madeOn (utcDay (env.sub 0).utcNow)) : ℤ) ≤ max c.dailyLimit 0
  age : ∀ k e, s.events[k]? = some e → madeOn (utcDay (env.sub 0).utcNow) e = true →
    ((env.sub 2) (List.replicate k 1 ++ [0])).now - (env.sub 1).utcNow ≤ dayLength

structure HasRoom : Prop where
  count : (s.events.countP (madeOn (utcDay (env.sub 0).utcNow)) : ℤ) + 1 ≤ c.dailyLimit
  age : (env.sub 3).utcNow - (env.sub 1).utcNow ≤ dayLength

/-- The problem was reported before, or the budget can be read and what fits into it can be created. -/
def Creatable : Prop :=
  ∃ problemKey, fieldOf a.action "problem_key" .none = .str problemKey ∧
    ∀ fingerprint, o.dedupFingerprint a.projectId (.str problemKey) = .ok fingerprint →
      s.events.any (hasText "fingerprint" fingerprint) = true ∨
        BudgetReadable c env s ∧ (HasRoom c env s → Placeable o c fingerprint s)

/-- The open Works can be compared with the action, and it is of their purpose, or on All Tomorrow like one of them, or
it can be created. -/
structure Comparable (opened : List OpenWork) : Prop where
  titles : ReadableUntil (fun w => samePurpose o (keyOf o a) w = .ok true)
    (fun w => ∃ title, w.title = .str title) opened
  projects : (∃ w ∈ opened, samePurpose o (keyOf o a) w = .ok true) ∨
    if o.isSelfProject c.resolve a.projectId a.project = true then
      ReadableUntil (fun w => onSelf o c w = .ok true) (fun w => unhashable w.projectId = false) opened ∧
        if ∃ w ∈ opened, onSelf o c w = .ok true then ∀ w ∈ opened, unhashable w.projectId = false
        else Creatable o c a (env.sub 1) s
    else Creatable o c a (env.sub 1) s

structure Judgeable : Prop where
  reports : s.events.any (hasText "source_action" a.did) = false → a.isOrdinaryFix = false →
    ReportsReadable o (keyOf o a) ((env.sub 0).utcNow - dayLength) s.events
  fix : s.events.any (hasText "source_action" a.did) = false → a.isOrdinaryFix = true → isCommand a.verifyArgv = true →
    Evident c a ∧ DecisionsReadable s ∧ ∀ opened, openMetacogWork s s.events = .ok opened → Comparable o c a env s opened

variable {o c a env s} {refs : List String}

theorem ends_createWithinBudget_iff {fingerprint : String} (hrefs : ∀ ref ∈ refs, ref ∈ c.knownRefs) :
    Ends (createWithinBudget o c a refs fingerprint s.events env) s
      (fun _ _ => BudgetReadable c env s ∧ (HasRoom c env s → Placeable o c fingerprint s))
      fun _ _ => ¬(BudgetReadable c env s ∧ (HasRoom c env s → Placeable o c fingerprint s)) := by
  unfold createWithinBudget
  dsimp only
  generalize hday : utcDay (env.sub 0).utcNow = day
  generalize hstart : BudgetLedger.registerLineage (env.sub 1) (o.isoDate day)
    { config := ⟨c.dailyLimit, 2 ^ 63 - 1, dayLength⟩ } = start
  have hconfig : start.config = ⟨c.dailyLimit, 2 ^ 63 - 1, dayLength⟩ := by rw [← hstart]; rfl
  have hused : start.used (o.isoDate day) = {} := by
    rw [← hstart, BudgetLedger.used_registerLineage]
    rfl
  have hsound : start.Sound (o.isoDate day) (env.sub 1).utcNow := by
    refine ⟨by rw [hused], ?_, ?_⟩
    · rw [hused, hconfig]
      change (0 : ℤ) ≤ 2 ^ 63 - 1
      norm_num
    · rw [← hstart]
      exact get?_set_self _ _ _
  have hreadable : (∃ r, reserveMade (env.sub 2) day (o.isoDate day) s.events start = .ok r) ↔ BudgetReadable c env s := by
    rw [hsound.reserveMade_ok_iff, hused, hconfig]
    constructor
    · rintro ⟨hage, hcount⟩
      refine ⟨?_, ?_⟩
      · rw [hday]
        rcases hcount with hnone | hcount
        · rw [hnone]
          exact le_max_right _ _
        · change (0 : ℤ) + _ ≤ c.dailyLimit at hcount
          exact le_max_of_le_left (by omega)
      · rw [hday]
        exact hage
    · rintro ⟨hcount, hage⟩
      rw [hday] at hcount hage
      refine ⟨hage, ?_⟩
      rcases le_max_iff.mp hcount with hle | hle
      · right
        change (0 : ℤ) + _ ≤ c.dailyLimit
        omega
      · left
        omega
  refine Ends.bind (Q := fun ledger s' => s' = s ∧ BudgetReadable c env s ∧
    reserveMade (env.sub 2) day (o.isoDate day) s.events start = .ok ledger) (ends_ofExcept ?_ ?_) ?_
  · exact fun ledger hledger => ⟨rfl, hreadable.mp ⟨ledger, hledger⟩, hledger⟩
  · rintro e he ⟨hbudget, -⟩
    obtain ⟨r, hr⟩ := hreadable.mpr hbudget
    cases he.symm.trans hr
  rintro ledger s ⟨rfl, hbudget, hledger⟩
  obtain ⟨hledgerConfig, hledgerUsed⟩ := reserveMade_ok hledger
  have hledgerSound := hsound.reserveMade hledger
  have hroom : (∃ r, ledger.reserveWork (env.sub 3) (o.isoDate day) = .ok r) ↔ HasRoom c env s := by
    rw [hledgerSound.reserveWork_ok_iff, hledgerUsed, hledgerConfig, hused, hconfig]
    change _ ∧ (0 : ℤ) + _ + 1 ≤ c.dailyLimit ↔ _
    rw [zero_add]
    exact ⟨fun ⟨hage, hcount⟩ => ⟨by rw [hday]; exact hcount, hage⟩, fun ⟨hcount, hage⟩ => ⟨hage, by rwa [hday] at hcount⟩⟩
  cases hreserve : ledger.reserveWork (env.sub 3) (o.isoDate day) with
  | error e =>
    have hfull : ¬HasRoom c env s := by
      intro h
      obtain ⟨r, hr⟩ := hroom.mpr h
      cases hreserve.symm.trans hr
    dsimp only
    rw [if_pos (hledgerSound.reserveWork_error hreserve)]
    exact Ends.bind (ends_note _) fun _ _ _ => ends_pure ⟨hbudget, fun h => absurd h hfull⟩
  | ok reserved =>
    have hfree := hroom.mp ⟨reserved, hreserve⟩
    exact (ends_createBoth_iff hrefs).mono (fun _ _ h => ⟨hbudget, fun _ => h⟩) fun _ _ h hall => h (hall.2 hfree)

theorem ends_creatable (hrefs : ∀ ref ∈ refs, ref ∈ c.knownRefs) :
    Ends (do
      let fingerprint ← MonadExcept.ofExcept (o.dedupFingerprint a.projectId (fieldOf a.action "problem_key" .none))
      if s.events.any (hasText "fingerprint" fingerprint) then
        return some .duplicate
      else createWithinBudget o c a refs fingerprint s.events env) s
      (fun _ _ => Creatable o c a env s) fun _ _ => ¬Creatable o c a env s := by
  cases hfingerprint : o.dedupFingerprint a.projectId (fieldOf a.action "problem_key" .none) with
  | error e =>
    refine ends_throw_bind ?_
    rintro ⟨problemKey, hkey, -⟩
    rw [hkey] at hfingerprint
    cases hfingerprint
  | ok fingerprint =>
    obtain ⟨problemKey, hkey⟩ : ∃ problemKey, fieldOf a.action "problem_key" .none = .str problemKey := by
      unfold Surroundings.dedupFingerprint at hfingerprint
      split at hfingerprint
      · rename_i problemKey hkey
        exact ⟨problemKey, hkey⟩
      · cases hfingerprint
    have hcreatable : Creatable o c a env s ↔ s.events.any (hasText "fingerprint" fingerprint) = true ∨
        BudgetReadable c env s ∧ (HasRoom c env s → Placeable o c fingerprint s) := by
      rw [hkey] at hfingerprint
      constructor
      · rintro ⟨problemKey', hkey', h⟩
        cases hkey.symm.trans hkey'
        exact h fingerprint hfingerprint
      · intro h
        refine ⟨problemKey, hkey, fun fingerprint' h' => ?_⟩
        cases hfingerprint.symm.trans h'
        exact h
    rw [hcreatable]
    refine Ends.bind (Q := fun f s' => s' = s ∧ f = fingerprint) (ends_pure ⟨rfl, rfl⟩) ?_
    rintro f s ⟨rfl, rfl⟩
    refine ends_ite (fun hused => ends_pure (.inl hused)) fun hunused => ?_
    exact (ends_createWithinBudget_iff hrefs).mono (fun _ _ h => .inr h) fun _ _ h hall => hall.elim hunused h

theorem ends_comparable {opened : List OpenWork} (hrefs : ∀ ref ∈ refs, ref ∈ c.knownRefs)
    (hopened : openMetacogWork s s.events = .ok opened) :
    Ends (fixProject o c a refs (fieldOf a.action "problem_key" .none) s.events env) s
      (fun _ _ => Comparable o c a env s opened) fun _ _ => ¬Comparable o c a env s opened := by
  unfold fixProject
  refine ends_get_bind ?_
  rw [hopened]
  refine Ends.bind (Q := fun w s' => s' = s ∧ w = opened) (ends_pure ⟨rfl, rfl⟩) ?_
  rintro opened s ⟨rfl, rfl⟩
  refine Ends.bind (Q := fun k s' => s' = s ∧ k = keyOf o a) (ends_pure ⟨rfl, rfl⟩) ?_
  rintro _ s ⟨rfl, rfl⟩
  have htitles := anyOf_ok_iff opened fun w => samePurpose_ok_iff (o := o) (keyOf o a) (w := w)
  cases hsame : anyOf (samePurpose o (keyOf o a)) opened with
  | error e =>
    refine ends_throw_bind fun h => ?_
    obtain ⟨b, hb⟩ := htitles.mpr h.titles
    cases hsame.symm.trans hb
  | ok same =>
  have hreadable := htitles.mp ⟨same, hsame⟩
  refine Ends.bind (Q := fun b s' => s' = s ∧ b = same) (ends_pure ⟨rfl, rfl⟩) ?_
  rintro same s ⟨rfl, rfl⟩
  cases same with
  | true =>
    rw [if_pos rfl]
    exact ends_pure ⟨hreadable, .inl (anyOf_true hsame)⟩
  | false =>
  rw [if_neg Bool.false_ne_true]
  have hother : ¬∃ w ∈ opened, samePurpose o (keyOf o a) w = .ok true :=
    fun ⟨w, hw, hfound⟩ => not_anyOf_false hw hfound hsame
  by_cases hself : o.isSelfProject c.resolve a.projectId a.project = true
  · rw [if_pos hself]
    have hprojects := anyOf_ok_iff opened fun w => onSelf_ok_iff (o := o) (c := c) (w := w)
    cases hon : anyOf (onSelf o c) opened with
    | error e =>
      refine ends_throw_bind fun h => ?_
      have hall := h.projects.resolve_left hother
      rw [if_pos hself] at hall
      obtain ⟨b, hb⟩ := hprojects.mpr hall.1
      cases hon.symm.trans hb
    | ok on =>
    have hlookups := hprojects.mp ⟨on, hon⟩
    refine Ends.bind (Q := fun b s' => s' = s ∧ b = on) (ends_pure ⟨rfl, rfl⟩) ?_
    rintro on s ⟨rfl, rfl⟩
    cases on with
    | true =>
      have hfound := anyOf_true hon
      rw [if_pos rfl]
      have hselves := filterM_ok_iff (onSelf o c) opened
      simp only [onSelf_ok_iff] at hselves
      refine Ends.bind (Q := fun _ s' => s' = s ∧ ∀ w ∈ opened, unhashable w.projectId = false) (ends_ofExcept ?_ ?_) ?_
      · exact fun ys hys => ⟨rfl, hselves.mp ⟨ys, hys⟩⟩
      · intro e he h
        have hall := h.projects.resolve_left hother
        rw [if_pos hself, if_pos hfound] at hall
        obtain ⟨ys, hys⟩ := hselves.mpr hall.2
        cases he.symm.trans hys
      · rintro ys s ⟨rfl, hhashable⟩
        refine Ends.bind (ends_note _) fun _ _ _ => ends_pure ⟨hreadable, .inr ?_⟩
        rw [if_pos hself, if_pos hfound]
        exact ⟨hlookups, hhashable⟩
    | false =>
      rw [if_neg Bool.false_ne_true]
      have hnone : ¬∃ w ∈ opened, onSelf o c w = .ok true := fun ⟨w, hw, hfound⟩ => not_anyOf_false hw hfound hon
      refine (ends_creatable hrefs).mono (fun _ _ h => ⟨hreadable, .inr ?_⟩) fun _ _ h hall => h ?_
      · rw [if_pos hself, if_neg hnone]
        exact ⟨hlookups, h⟩
      · have hcreatable := hall.projects.resolve_left hother
        rw [if_pos hself, if_neg hnone] at hcreatable
        exact hcreatable.2
  · rw [if_neg hself]
    refine Ends.bind (Q := fun b s' => s' = s ∧ b = false) (ends_pure ⟨rfl, rfl⟩) ?_
    rintro _ s ⟨rfl, rfl⟩
    rw [if_neg Bool.false_ne_true]
    refine (ends_creatable hrefs).mono (fun _ _ h => ⟨hreadable, .inr ?_⟩) fun _ _ h hall => h ?_
    · rw [if_neg hself]
      exact h
    · have hcreatable := hall.projects.resolve_left hother
      rwa [if_neg hself] at hcreatable

/-- A batch returns exactly if it can answer. -/
theorem ends_judge_iff (env : Supply) (haction : IsObject a.action) :
    Ends (judge o c a env) s (fun _ _ => Judgeable o c a env s) fun _ _ => ¬Judgeable o c a env s := by
  unfold judge
  refine ends_get_bind (ends_ite (fun hseen => ends_pure ?_) fun hunseen => ends_ite (fun hother => ?_) fun hfix =>
    ends_ite (fun hcommand => ?_) fun hcommand => ?_)
  · exact ⟨fun h => (by rw [hseen] at h; cases h), fun h => (by rw [hseen] at h; cases h)⟩
  all_goals rw [Bool.not_eq_true] at hunseen
  · rw [Bool.not_eq_true'] at hother
    have hreports := anyOf_ok_iff s.events fun e => sentSince_ok_iff (o := o) (keyOf o a)
      ((env.sub 0).utcNow - dayLength) (e := e)
    have hjudgeable : Judgeable o c a env s ↔
        ∃ b, anyOf (sentSince o (keyOf o a) ((env.sub 0).utcNow - dayLength)) s.events = .ok b := by
      rw [hreports]
      refine ⟨fun h => h.reports hunseen hother, fun h => ⟨fun _ _ => h, fun _ hfix => ?_⟩⟩
      rw [hother] at hfix
      cases hfix
    rw [hjudgeable]
    unfold reportOrAsk
    refine Ends.bind (Q := fun k s' => s' = s ∧ k = keyOf o a) (ends_pure ⟨rfl, rfl⟩) ?_
    rintro _ s ⟨rfl, rfl⟩
    dsimp only
    cases hsent : anyOf (sentSince o (keyOf o a) ((env.sub 0).utcNow - dayLength)) s.events with
    | error e => exact ends_throw_bind fun ⟨b, hb⟩ => (by cases hb)
    | ok sent =>
      refine Ends.bind (Q := fun _ _ => True) (ends_pure trivial) fun b s' _ => ends_ite (fun _ => ends_pure ⟨_, rfl⟩) fun _ => ?_
      exact Ends.bind (ends_note _) fun _ _ _ => ends_pure ⟨_, rfl⟩
  all_goals rw [Bool.not_eq_true, Bool.not_eq_false'] at hfix
  · rw [Bool.not_eq_true'] at hcommand
    refine Ends.bind (ends_note _) fun _ _ _ => ends_pure ⟨fun _ h => ?_, fun _ _ h => ?_⟩
    · rw [hfix] at h
      cases h
    · rw [hcommand] at h
      cases h
  · rw [Bool.not_eq_true, Bool.not_eq_false'] at hcommand
    have hjudgeable : Judgeable o c a env s ↔ Evident c a ∧ DecisionsReadable s ∧
        ∀ opened, openMetacogWork s s.events = .ok opened → Comparable o c a env s opened := by
      refine ⟨fun h => h.fix hunseen hfix hcommand, fun h => ⟨fun _ hother => ?_, fun _ _ _ => h⟩⟩
      rw [hfix] at hother
      cases hother
    rw [hjudgeable]
    cases hevidence : evidence c a with
    | error e =>
      refine ends_throw_bind fun h => ?_
      obtain ⟨found, hfound⟩ := evidence_ok haction h.1
      cases hevidence.symm.trans hfound
    | ok found =>
    obtain ⟨refs, problemKey⟩ := found
    obtain ⟨hevident, rfl, hrefs⟩ := evidence_of_ok haction hevidence
    refine Ends.bind (Q := fun f s' => s' = s ∧ f = (refs, fieldOf a.action "problem_key" .none)) (ends_pure ⟨rfl, rfl⟩) ?_
    rintro _ s ⟨rfl, rfl⟩
    dsimp only
    cases hopened : openMetacogWork s s.events with
    | error e =>
      unfold fixProject
      refine ends_get_bind ?_
      rw [hopened]
      refine ends_throw_bind fun h => ?_
      obtain ⟨opened, h'⟩ := openMetacogWork_ok_iff.mpr h.2.1
      cases hopened.symm.trans h'
    | ok opened =>
      refine (ends_comparable hrefs hopened).mono (fun _ _ h => ⟨hevident, openMetacogWork_ok_iff.mp ⟨opened, hopened⟩, ?_⟩)
        fun _ _ h hall => h (hall.2.2 opened rfl)
      rintro _ hsame
      cases hsame
      exact h

end Batch

end AllTomorrow.Overseer
