import Mathlib.Data.List.Sort
import AllTomorrow.DomainRecords
import AllTomorrow.InsertionDict
import AllTomorrow.MachineRuns

/-!
# Revisions of reports

`report/store.py`: reports under their ids and under the keys of their inputs, and what every sequence of
drafts, finalizations and revisions keeps of both.
-/

namespace AllTomorrow.ReportProjection

open InsertionDict (exists_get?_set forall_set get?_set_of_ne get?_set_self)

open MachineRuns

inductive ReportStatus where
  | draft | final
  deriving DecidableEq, Repr

structure ReportSection where
  title : String
  sourceRefs : List String
  bodyRef : Option String := none
  unknown : Bool := false
  deriving DecidableEq

structure Report where
  reportId : String
  userId : String
  logicalPeriodId : String
  timezone : String
  periodStartUtc : Datetime
  periodEndUtc : Datetime
  projectionVersion : String
  inputWatermark : String
  revision : ℤ
  status : ReportStatus
  summary : String
  sections : List ReportSection
  sourceRefs : List String
  supersedesReportId : Option String := none
  createdAt : Datetime
  finalizedAt : Option Datetime := none
  deriving DecidableEq

def Report.idempotencyKey (r : Report) : String :=
  "\x1f".intercalate [r.userId, r.logicalPeriodId, r.projectionVersion, r.inputWatermark]

/-- `hexdigest` is that of SHA-256. -/
def computeWatermark (hexdigest : String → String) (sourceRefs : List String) : String :=
  String.ofList (((hexdigest ("\x1f".intercalate (sourceRefs.insertionSort (· ≤ ·)))).toList).take 16)

structure ReportStore where
  byKey : InsertionDict String Report
  byId : InsertionDict String Report

namespace ReportStore

def empty : ReportStore := ⟨.empty, .empty⟩

def upsertDraft (s : ReportStore) (report : Report) : Report × ReportStore :=
  match s.byKey.get? report.idempotencyKey with
  | some existing => (existing, s)
  | none => (report, ⟨s.byKey.set report.idempotencyKey report, s.byId.set report.reportId report⟩)

/-- `_replace_status` -/
def replaceStatus (r : Report) (status : ReportStatus) (finalizedAt : Option Datetime) : Report :=
  { r with status := status, finalizedAt := finalizedAt }

def finalize (s : ReportStore) (env : Supply) (reportId : String) : Except Exn Report × ReportStore :=
  match s.byId.get? reportId with
  | none => (.error (.keyError reportId), s)
  | some r =>
    if r.status = .final then (.ok r, s)
    else
      let final := replaceStatus r .final (some env.utcNow)
      (.ok final, ⟨s.byKey.set final.idempotencyKey final, s.byId.set reportId final⟩)

def revisionOf (hexdigest : String → String) (env : Supply) (prior : Report) (newSourceRefs : List String) (newSummary : String) :
    Report :=
  let merged := (prior.sourceRefs ++ newSourceRefs).eraseDups
  { reportId := (env.sub 0).newId "rpt"
    userId := prior.userId, logicalPeriodId := prior.logicalPeriodId
    timezone := prior.timezone, periodStartUtc := prior.periodStartUtc
    periodEndUtc := prior.periodEndUtc, projectionVersion := prior.projectionVersion
    inputWatermark := computeWatermark hexdigest merged, revision := prior.revision + 1
    status := .draft, summary := newSummary
    sections := prior.sections, sourceRefs := merged
    supersedesReportId := some prior.reportId
    createdAt := (env.sub 1).utcNow }

def reviseForLateEvent (hexdigest : String → String) (s : ReportStore) (env : Supply) (reportId : String)
    (newSourceRefs : List String) (newSummary : String) : Except Exn Report × ReportStore :=
  match s.byId.get? reportId with
  | none => (.error (.keyError reportId), s)
  | some prior =>
    if prior.status ≠ .final then
      (.error (.foreign "ReportError" "only a FINAL report is superseded by a revision"), s)
    else
      let revision := revisionOf hexdigest env prior newSourceRefs newSummary
      (.ok revision, ⟨s.byKey.set revision.idempotencyKey revision, s.byId.set revision.reportId revision⟩)

def get (s : ReportStore) (reportId : String) : Option Report := s.byId.get? reportId

end ReportStore

/-! ## Calls -/

inductive ReportCall where
  | upsertDraft (report : Report)
  | finalize (env : Supply) (reportId : String)
  | reviseForLateEvent (env : Supply) (reportId : String) (newSourceRefs : List String) (newSummary : String)

namespace ReportStore

variable (hexdigest : String → String)

def step (s : ReportStore) : ReportCall → ReportStore
  | .upsertDraft report => (s.upsertDraft report).2
  | .finalize env reportId => (s.finalize env reportId).2
  | .reviseForLateEvent env reportId refs summary => (s.reviseForLateEvent hexdigest env reportId refs summary).2

/-- A revision gets a report id that is not in use. -/
def FreshId (s : ReportStore) : ReportCall → Prop
  | .reviseForLateEvent env .. => s.byId.get? ((env.sub 0).newId "rpt") = none
  | _ => True

/-- A draft of a new key does not have the id of a FINAL report, and a revision of a FINAL report has a new key. -/
def KeepsIdentity (s : ReportStore) : ReportCall → Prop
  | .upsertDraft report =>
    s.byKey.get? report.idempotencyKey = none → ∀ r, s.byId.get? report.reportId = some r → r.status ≠ .final
  | .finalize .. => True
  | .reviseForLateEvent env reportId refs summary => ∀ prior, s.byId.get? reportId = some prior → prior.status = .final →
    s.byKey.get? (revisionOf hexdigest env prior refs summary).idempotencyKey = none

/-- FINAL reports are those of before, and drafts of a known key are answered with the same id. -/
def Steady (s s' : ReportStore) : Prop :=
  (∀ reportId r, s.get reportId = some r → r.status = .final → s'.get reportId = some r) ∧
    ∀ draft : Report, (s.byKey.get? draft.idempotencyKey).isSome →
      (s'.byKey.get? draft.idempotencyKey).isSome ∧ (s'.upsertDraft draft).1.reportId = (s.upsertDraft draft).1.reportId

/-- Reports are stored under their ids, and each stored report has a stored id. -/
structure Indexed (s : ReportStore) : Prop where
  id : ∀ reportId r, s.byId.get? reportId = some r → r.reportId = reportId
  known : ∀ key r, s.byKey.get? key = some r → ∃ r', s.byId.get? r.reportId = some r'

def Linked (s : ReportStore) : Prop :=
  ∀ reportId r, s.byId.get? reportId = some r → ∃ r', s.byKey.get? r.idempotencyKey = some r' ∧ r'.reportId = reportId

/-! ## The two indexes -/

def put (s : ReportStore) (reportId : String) (report : Report) : ReportStore :=
  ⟨s.byKey.set report.idempotencyKey report, s.byId.set reportId report⟩

@[simp] theorem put_byKey (s : ReportStore) (reportId : String) (report : Report) :
    (s.put reportId report).byKey = s.byKey.set report.idempotencyKey report := rfl

/-- What a step does to the two indexes. -/
theorem step_cases (s : ReportStore) (c : ReportCall) : (step hexdigest s c = s ∧ KeepsIdentity hexdigest s c) ∨
      (∃ report, c = .upsertDraft report ∧ s.byKey.get? report.idempotencyKey = none ∧
        step hexdigest s c = s.put report.reportId report) ∨
      (∃ env reportId r, c = .finalize env reportId ∧ s.byId.get? reportId = some r ∧ r.status ≠ .final ∧
        step hexdigest s c = s.put reportId (replaceStatus r .final (some env.utcNow))) ∨
      ∃ env reportId refs summary prior, c = .reviseForLateEvent env reportId refs summary ∧
        s.byId.get? reportId = some prior ∧ prior.status = .final ∧
        step hexdigest s c = s.put ((env.sub 0).newId "rpt") (revisionOf hexdigest env prior refs summary) := by
  cases c with
  | upsertDraft report =>
    cases hkey : s.byKey.get? report.idempotencyKey with
    | some existing =>
      refine .inl ⟨by simp only [step, upsertDraft, hkey], fun hnew => ?_⟩
      rw [hkey] at hnew
      cases hnew
    | none => exact .inr (.inl ⟨report, rfl, hkey, by simp only [step, upsertDraft, hkey, put]⟩)
  | finalize env reportId =>
    cases hr : s.byId.get? reportId with
    | none => exact .inl ⟨by simp only [step, finalize, hr], trivial⟩
    | some r =>
      by_cases hfinal : r.status = .final
      · exact .inl ⟨by simp only [step, finalize, hr, if_pos hfinal], trivial⟩
      · refine .inr (.inr (.inl ⟨env, reportId, r, rfl, hr, hfinal, ?_⟩))
        simp only [step, finalize, hr, if_neg hfinal]
        rfl
  | reviseForLateEvent env reportId refs summary =>
    cases hr : s.byId.get? reportId with
    | none =>
      refine .inl ⟨by simp only [step, reviseForLateEvent, hr], fun prior hprior => ?_⟩
      rw [hr] at hprior
      cases hprior
    | some prior =>
      by_cases hfinal : prior.status = .final
      · refine .inr (.inr (.inr ⟨env, reportId, refs, summary, prior, rfl, hr, hfinal, ?_⟩))
        simp only [step, reviseForLateEvent, hr, ne_eq, hfinal, not_true_eq_false, if_false]
        rfl
      · refine .inl ⟨by simp only [step, reviseForLateEvent, hr, ne_eq, hfinal, not_false_eq_true, if_true], ?_⟩
        intro prior' hprior' hfinal'
        rw [hr] at hprior'
        cases hprior'
        exact absurd hfinal' hfinal

variable {s : ReportStore}

theorem Indexed.step (h : s.Indexed) (c : ReportCall) : (step hexdigest s c).Indexed := by
  rcases step_cases hexdigest s c with ⟨hsame, hkeeps⟩ | ⟨report, -, -, hstep⟩ | ⟨env, reportId, r, -, hr, -, hstep⟩ |
    ⟨env, reportId, refs, summary, prior, -, hr, -, hstep⟩
  · rw [hsame]
    exact h
  · rw [hstep]
    exact ⟨forall_set h.id rfl, forall_set
      (fun key r hr => exists_get?_set (h.known key r hr) _ _) ⟨_, get?_set_self _ _ _⟩⟩
  · have hid : (replaceStatus r .final (some env.utcNow)).reportId = reportId := h.id reportId r hr
    rw [hstep]
    refine ⟨forall_set h.id hid, forall_set
      (fun key r' hr' => exists_get?_set (h.known key r' hr') _ _) ?_⟩
    rw [hid]
    exact ⟨_, get?_set_self _ _ _⟩
  · rw [hstep]
    exact ⟨forall_set h.id rfl, forall_set
      (fun key r hr => exists_get?_set (h.known key r hr) _ _) ⟨_, get?_set_self _ _ _⟩⟩

theorem Linked.set (h : s.Linked) {report : Report} (hkey : s.byKey.get? report.idempotencyKey = none) :
    (s.put report.reportId report).Linked := by
  refine forall_set (fun id r hr => ?_) ⟨report, get?_set_self _ _ _, rfl⟩
  obtain ⟨r', hr', hid⟩ := h id r hr
  refine ⟨r', (get?_set_of_ne _ _ ?_).trans hr', hid⟩
  intro he
  rw [he, hkey] at hr'
  cases hr'

theorem Linked.step (hs : s.Indexed) (h : s.Linked) {c : ReportCall} (hc : KeepsIdentity hexdigest s c) :
    (step hexdigest s c).Linked := by
  rcases step_cases hexdigest s c with ⟨hsame, hkeeps⟩ | ⟨report, -, hkey, hstep⟩ | ⟨env, reportId, r, -, hr, -, hstep⟩ |
    ⟨env, reportId, refs, summary, prior, rfl, hr, hfinal, hstep⟩
  · rw [hsame]
    exact h
  · rw [hstep]
    exact h.set hkey
  · rw [hstep]
    obtain ⟨own, hown, howner⟩ := h reportId r hr
    refine forall_set (fun other r₂ hr₂ => ?_)
      ⟨replaceStatus r .final (some env.utcNow), get?_set_self _ _ _, hs.id reportId r hr⟩
    obtain ⟨r', hr', hid⟩ := h other r₂ hr₂
    by_cases hsame : r₂.idempotencyKey = r.idempotencyKey
    · refine ⟨replaceStatus r .final (some env.utcNow), by rw [hsame]; exact get?_set_self _ _ _, ?_⟩
      rw [hsame, hown] at hr'
      cases hr'
      rw [← hid, howner]
      exact hs.id reportId r hr
    · exact ⟨r', (get?_set_of_ne _ _ hsame).trans hr', hid⟩
  · rw [hstep]
    exact h.set (hc prior hr hfinal)

/-! ## What stays -/

theorem upsertDraft_known {draft r : Report} (h : s.byKey.get? draft.idempotencyKey = some r) :
    s.upsertDraft draft = (r, s) := by
  unfold upsertDraft
  rw [h]

theorem steady_refl (s : ReportStore) : Steady s s := ⟨fun _ _ hr _ => hr, fun _ hknown => ⟨hknown, rfl⟩⟩

theorem Steady.trans {s s' s'' : ReportStore} (h : Steady s s') (h' : Steady s' s'') : Steady s s'' := by
  refine ⟨fun id r hr hfinal => h'.1 id r (h.1 id r hr hfinal) hfinal, fun draft hknown => ?_⟩
  obtain ⟨hknown', hid⟩ := h.2 draft hknown
  obtain ⟨hknown'', hid'⟩ := h'.2 draft hknown'
  exact ⟨hknown'', hid'.trans hid⟩

/-- A report written under an id that no FINAL report has and under a key of its own or of none is steady. -/
theorem steady_set (report : Report) {reportId : String} (hid : ∀ r, s.byId.get? reportId = some r → r.status ≠ .final)
    (hkey : ∀ r, s.byKey.get? report.idempotencyKey = some r → r.reportId = report.reportId) :
    Steady s (s.put reportId report) := by
  refine ⟨fun id r hr hfinal => ?_, fun draft hknown => ?_⟩
  · refine (get?_set_of_ne _ _ ?_).trans hr
    rintro rfl
    exact hid r hr hfinal
  · obtain ⟨r, hr⟩ := Option.isSome_iff_exists.mp hknown
    rw [upsertDraft_known hr]
    by_cases hsame : draft.idempotencyKey = report.idempotencyKey
    · have hset : (s.put reportId report).byKey.get? draft.idempotencyKey = some report := by
        rw [put_byKey, hsame, get?_set_self]
      rw [upsertDraft_known hset]
      rw [hsame] at hr
      exact ⟨by rw [hset]; rfl, (hkey r hr).symm⟩
    · have hset : (s.put reportId report).byKey.get? draft.idempotencyKey = some r :=
        (get?_set_of_ne _ _ hsame).trans hr
      rw [upsertDraft_known hset]
      exact ⟨by rw [hset]; rfl, rfl⟩

/-- A step is steady exactly if it meets the condition. -/
theorem steady_step_iff (hs : s.Indexed) (h : s.Linked) {c : ReportCall} (hfresh : FreshId s c) :
    Steady s (step hexdigest s c) ↔ KeepsIdentity hexdigest s c := by
  rcases step_cases hexdigest s c with ⟨hsame, hkeeps⟩ | ⟨report, rfl, hkey, hstep⟩ | ⟨env, reportId, r, rfl, hr, hdraft, hstep⟩ |
    ⟨env, reportId, refs, summary, prior, rfl, hr, hfinal, hstep⟩
  · rw [hsame]
    exact ⟨fun _ => hkeeps, fun _ => steady_refl s⟩
  · rw [hstep]
    constructor
    · intro hsteady _ r hr hfinal
      obtain ⟨r', hr', -⟩ := h _ r hr
      have hkept := hsteady.1 report.reportId r hr hfinal
      have hnow : (s.put report.reportId report).get report.reportId = some report := get?_set_self _ _ _
      rw [hnow] at hkept
      cases hkept
      rw [hkey] at hr'
      cases hr'
    · intro hkeeps
      exact steady_set report (hkeeps hkey) (fun r hr => by rw [hkey] at hr; cases hr)
  · rw [hstep]
    refine ⟨fun _ => trivial, fun _ => ?_⟩
    refine steady_set (replaceStatus r .final (some env.utcNow)) ?_ ?_
    · intro r' hr'
      rw [hr] at hr'
      cases hr'
      exact hdraft
    · intro r' hr'
      obtain ⟨own, hown, howner⟩ := h reportId r hr
      have hsame : own = r' := Option.some.inj (hown.symm.trans hr')
      rw [← hsame, howner]
      exact (hs.id reportId r hr).symm
  · rw [hstep]
    constructor
    · intro hsteady prior' hprior' _
      rw [hr] at hprior'
      cases hprior'
      refine Option.eq_none_iff_forall_not_mem.mpr fun r hknown => ?_
      obtain ⟨-, hsame⟩ := hsteady.2 (revisionOf hexdigest env prior refs summary) (Option.isSome_iff_exists.mpr ⟨r, hknown⟩)
      have hnow : (s.put ((env.sub 0).newId "rpt") (revisionOf hexdigest env prior refs summary)).byKey.get?
          (revisionOf hexdigest env prior refs summary).idempotencyKey = some (revisionOf hexdigest env prior refs summary) :=
        get?_set_self _ _ _
      rw [upsertDraft_known hknown, upsertDraft_known hnow] at hsame
      -- a stored report does not have the generated id
      obtain ⟨r', hr'⟩ := hs.known _ r hknown
      rw [← hsame] at hr'
      exact absurd (hr'.symm.trans hfresh) (by simp)
    · intro hkeeps
      refine steady_set (revisionOf hexdigest env prior refs summary) ?_ ?_
      · intro r hused
        rw [show s.byId.get? _ = none from hfresh] at hused
        cases hused
      · intro r hknown
        rw [hkeeps prior hr hfinal] at hknown
        cases hknown

theorem indexed_empty : empty.Indexed := ⟨fun _ _ h => (by cases h), fun _ _ h => (by cases h)⟩

theorem linked_empty : empty.Linked := fun _ _ h => by cases h

theorem byKey_upsertDraft (s : ReportStore) (draft : Report) :
    (s.upsertDraft draft).2.byKey.get? draft.idempotencyKey = some (s.upsertDraft draft).1 := by
  unfold upsertDraft
  cases hkey : s.byKey.get? draft.idempotencyKey with
  | some existing => exact hkey
  | none => exact get?_set_self _ _ _

/-- Where the generated ids are new, any two moments of a run are steady exactly if each of its calls meets the
condition, and then the drafts of one key are answered with one id. -/
theorem report_identity (ops : List ReportCall) (hfresh : EveryStep (step hexdigest) FreshId empty ops) :
    ((∀ before between after, ops = before ++ between ++ after →
        Steady (run (step hexdigest) empty before) (run (step hexdigest) empty (before ++ between))) ↔
      EveryStep (step hexdigest) (KeepsIdentity hexdigest) empty ops) ∧
    (EveryStep (step hexdigest) (KeepsIdentity hexdigest) empty ops →
      ∀ before draft between draft' after, ops = before ++ .upsertDraft draft :: between ++ .upsertDraft draft' :: after →
        draft.idempotencyKey = draft'.idempotencyKey →
        ((run (step hexdigest) empty (before ++ .upsertDraft draft :: between)).upsertDraft draft').1.reportId =
          ((run (step hexdigest) empty before).upsertDraft draft).1.reportId) := by
  have hiff := related_iff_everyStep (I := fun s => Indexed s ∧ Linked s) (P := KeepsIdentity hexdigest) (R := Steady)
    steady_refl Steady.trans (fun s c hs _ hc => ⟨hs.1.step hexdigest c, hs.2.step hexdigest hs.1 hc⟩)
    (fun s c hs hc => steady_step_iff hexdigest hs.1 hs.2 hc) ⟨indexed_empty, linked_empty⟩ hfresh
  refine ⟨hiff, fun hsteps before draft between draft' after hsplit hkey => ?_⟩
  have hsteady := hiff.mpr hsteps (before ++ [.upsertDraft draft]) between (.upsertDraft draft' :: after) (by simp [hsplit])
  have hmid : run (step hexdigest) empty (before ++ [.upsertDraft draft]) =
      ((run (step hexdigest) empty before).upsertDraft draft).2 := run_append _ _ _ _
  rw [List.append_assoc, List.singleton_append, hmid] at hsteady
  have hanswer := byKey_upsertDraft (run (step hexdigest) empty before) draft
  rw [hkey] at hanswer
  obtain ⟨-, hid⟩ := hsteady.2 draft' (by rw [hanswer]; rfl)
  rw [hid]
  exact congrArg (fun answer => answer.1.reportId) (upsertDraft_known hanswer)

def sampleDigest : String → String
  | "e1" => "8b5cc4df7eec7d32a7814eca4af047ae33b2d52342667715682e19c25b0b9faa"
  | "e2" => "ac0f09c0f8bf5e7a4b063d863255f16d8ce9abe600e288d934cf313bcbff63eb"
  | text => text

def sampleDraft (sourceRefs : List String) : Report where
  reportId := "rpt_1"
  userId := "u"
  logicalPeriodId := "2026-07"
  timezone := "UTC"
  periodStartUtc := 0
  periodEndUtc := 1
  projectionVersion := "1"
  inputWatermark := computeWatermark sampleDigest sourceRefs
  revision := 1
  status := .draft
  summary := ""
  sections := []
  sourceRefs := sourceRefs
  createdAt := 0

def sampleIds : Supply := fun _ => ⟨2, "2"⟩

def revisedOnce : List ReportCall :=
  [.upsertDraft (sampleDraft ["e1"]), .finalize sampleIds "rpt_1", .reviseForLateEvent sampleIds "rpt_1" ["e2"] "late"]

theorem report_identity_revised : Steady empty (run (step sampleDigest) empty revisedOnce) := by
  have hfresh : EveryStep (step sampleDigest) FreshId empty revisedOnce := by
    refine everyStep_cons.mpr ⟨trivial, everyStep_cons.mpr ⟨trivial, everyStep_cons.mpr ⟨?_, everyStep_nil⟩⟩⟩
    change (InsertionDict.get? _ _) = none
    decide +kernel
  refine (report_identity sampleDigest revisedOnce hfresh).1.mpr ?_ [] revisedOnce [] (List.append_nil _).symm
  refine everyStep_cons.mpr ⟨?_, everyStep_cons.mpr ⟨trivial, everyStep_cons.mpr ⟨?_, everyStep_nil⟩⟩⟩
  · intro _ r hr
    cases hr
  · intro prior hprior _
    cases hprior
    decide +kernel

/-- A revision for refs that are known already takes the key of its report, and a draft may take the id of a FINAL one. -/
theorem revision_takes_key : (((empty.upsertDraft (sampleDraft ["e1"])).1.reportId = "rpt_1" ∧
      ((run (step sampleDigest) empty [.upsertDraft (sampleDraft ["e1"]), .finalize sampleIds "rpt_1",
        .reviseForLateEvent sampleIds "rpt_1" ["e1"] "late"]).upsertDraft (sampleDraft ["e1"])).1.reportId = "rpt_2") ∧
    ((run (step sampleDigest) empty [.upsertDraft (sampleDraft ["e1"]), .finalize sampleIds "rpt_1"]).get "rpt_1").map
      Report.status = some .final ∧
    ((run (step sampleDigest) empty [.upsertDraft (sampleDraft ["e1"]), .finalize sampleIds "rpt_1",
      .upsertDraft (sampleDraft ["e2"])]).get "rpt_1").map Report.status = some .draft) := by
  decide +kernel

end ReportStore

end AllTomorrow.ReportProjection
