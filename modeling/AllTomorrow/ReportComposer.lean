import AllTomorrow.ReportRevisions
import Mathlib.Data.List.Dedup

/-!
# Composed reports

`report/composer.py`: the sections and the summary of a report are made of facts, and the summary that a language model
gives replaces the deterministic one unless it comes with claims without a known source.
-/

namespace AllTomorrow.ReportProjection

/-! ## The composer -/

/-- `SECTION_TITLES`. -/
def sectionTitles : List String :=
  ["Autonomous Goals", "User Work Progress", "Research Findings", "System Changes", "Rollbacks / Rejections",
    "Resource & Cost", "Approval Pending", "Needs User"]

structure Fact where
  «section» : String
  text : String
  sourceRefs : List String
  unknown : Bool := false
  deriving DecidableEq

/-- `UnsourcedClaimError`, with its message. -/
structure UnsourcedClaim where
  message : String

/-- `dict.fromkeys(refs)`: each ref once, where it comes first. -/
def firstOccurrences (refs : List String) : List String := (refs.foldl (fun d r => d.set r ()) (.empty : InsertionDict String Unit)).entries.map Prod.fst

/-- `by_section.setdefault(f.«section», []).append(f)`. -/
def addFact (bySection : InsertionDict String (List Fact)) (f : Fact) : InsertionDict String (List Fact) :=
  bySection.set f.«section» ((bySection.get? f.«section»).getD [] ++ [f])

def emptySections : InsertionDict String (List Fact) := sectionTitles.foldl (fun d title => d.set title []) .empty

def factsOf (facts : List Fact) (title : String) : List Fact := ((facts.foldl addFact emptySections).get? title).getD []

def skeleton (facts : List Fact) : List ReportSection :=
  sectionTitles.map fun title =>
    { title := title
      sourceRefs := firstOccurrences ((factsOf facts title).flatMap Fact.sourceRefs)
      unknown := (factsOf facts title).any Fact.unknown }

section

variable (repr : String → String)

def checkRefs (knownSourceRefs : List String) (c : Fact) : List String → Except UnsourcedClaim Unit
  | [] => .ok ()
  | r :: rest =>
    if r ∈ knownSourceRefs then checkRefs knownSourceRefs c rest
    else .error ⟨"claim cites unknown source " ++ r ++ ": " ++ repr c.text⟩

/-- `repr` quotes the text of a claim. -/
def validateClaims (knownSourceRefs : List String) : List Fact → Except UnsourcedClaim Unit
  | [] => .ok ()
  | c :: rest => do
    if c.sourceRefs = [] then throw ⟨"claim without source: " ++ repr c.text⟩
    checkRefs repr knownSourceRefs c c.sourceRefs
    validateClaims knownSourceRefs rest

def countSections (facts : List Fact) : InsertionDict String ℕ :=
  facts.foldl (fun counts f => counts.set f.«section» ((counts.get? f.«section»).getD 0 + 1)) .empty

def deterministicSummary (facts : List Fact) : String :=
  let counts := countSections facts
  let parts := (sectionTitles.filter fun title => (counts.get? title).getD 0 ≠ 0).map fun title =>
    title ++ ": " ++ toString ((counts.get? title).getD 0)
  if parts = [] then "No activity in period." else "; ".intercalate parts

def compose (facts : List Fact) (llmSummary : Option String) (llmClaims : Option (List Fact)) :
    List ReportSection × String :=
  let known := facts.flatMap Fact.sourceRefs
  let summary := match llmSummary with
    | none => deterministicSummary facts
    | some text =>
      match llmClaims with
      | none | some [] => text
      | some claims =>
        match validateClaims repr known claims with
        | .ok () => text
        | .error _ => deterministicSummary facts
  (skeleton facts, summary)

end

/-! ## Sources -/

def Sourced (facts : List Fact) (claims : List Fact) : Prop :=
  ∀ c ∈ claims, c.sourceRefs ≠ [] ∧ ∀ r ∈ c.sourceRefs, ∃ f ∈ facts, r ∈ f.sourceRefs

/-- A report of the facts of the eight sections, and the text of the language model only without claims, or with sourced ones. -/
structure SourceBacked (facts : List Fact) (llmSummary : Option String) (llmClaims : Option (List Fact))
    (report : List ReportSection × String) : Prop where
  titles : report.1.map ReportSection.title = sectionTitles
  complete : ∀ f ∈ facts, f.«section» ∈ sectionTitles → ∃ s ∈ report.1, s.title = f.«section» ∧
    (∀ r ∈ f.sourceRefs, r ∈ s.sourceRefs) ∧ (f.unknown = true → s.unknown = true)
  summary : report.2 = deterministicSummary facts ∨
    llmSummary = some report.2 ∧ ∀ claims, llmClaims = some claims → Sourced facts claims

section

variable {repr : String → String} {facts claims : List Fact} {known refs : List String}

theorem mem_keys_foldl_set (refs : List String) (d : InsertionDict String Unit) (r : String) :
    r ∈ (refs.foldl (fun d r => d.set r ()) d).entries.map Prod.fst ↔ r ∈ d.entries.map Prod.fst ∨ r ∈ refs := by
  induction refs generalizing d with
  | nil => simp
  | cons first refs ih =>
    rw [List.foldl_cons, ih, List.mem_cons]
    have hset : r ∈ (d.set first ()).entries.map Prod.fst ↔ r ∈ d.entries.map Prod.fst ∨ r = first := by
      rw [InsertionDict.mem_keys_iff, InsertionDict.mem_keys_iff, InsertionDict.get?_set]
      by_cases hr : r = first
      · simp [hr]
      · simp [hr]
    rw [hset, or_assoc]

theorem mem_firstOccurrences {r : String} : r ∈ firstOccurrences refs ↔ r ∈ refs := by
  rw [firstOccurrences, mem_keys_foldl_set]
  simp [InsertionDict.mem_keys_iff]

theorem get?_foldl_addFact (facts : List Fact) (d : InsertionDict String (List Fact)) (title : String) :
    ((facts.foldl addFact d).get? title).getD [] = (d.get? title).getD [] ++ facts.filter fun f => f.«section» = title := by
  induction facts generalizing d with
  | nil => simp
  | cons f facts ih =>
    rw [List.foldl_cons, ih, addFact, InsertionDict.get?_set]
    by_cases htitle : title = f.«section»
    · rw [if_pos htitle, List.filter_cons, if_pos (by simp [htitle]), Option.getD_some, htitle, List.append_assoc,
        List.singleton_append]
    · rw [if_neg htitle, List.filter_cons, if_neg (by simp [Ne.symm htitle])]

theorem get?_emptySections (title : String) : (emptySections.get? title).getD [] = [] := by
  have hgeneral : ∀ (titles : List String) (d : InsertionDict String (List Fact)), (d.get? title).getD [] = [] →
      ((titles.foldl (fun d title => d.set title []) d).get? title).getD [] = [] := by
    intro titles
    induction titles with
    | nil => exact fun d h => h
    | cons t titles ih =>
      intro d h
      refine ih _ ?_
      rw [InsertionDict.get?_set]
      split
      · rfl
      · exact h
  exact hgeneral sectionTitles .empty rfl

theorem factsOf_eq (facts : List Fact) (title : String) : factsOf facts title = facts.filter fun f => f.«section» = title := by
  rw [factsOf, get?_foldl_addFact, get?_emptySections, List.nil_append]

theorem checkRefs_ok_iff {c : Fact} : checkRefs repr known c refs = .ok () ↔ ∀ r ∈ refs, r ∈ known := by
  induction refs with
  | nil => simp [checkRefs]
  | cons r refs ih =>
    rw [checkRefs, List.forall_mem_cons]
    by_cases hr : r ∈ known
    · rw [if_pos hr, ih, and_iff_right hr]
    · rw [if_neg hr]
      simp [hr]

theorem validateClaims_ok_iff :
    validateClaims repr known claims = .ok () ↔ ∀ c ∈ claims, c.sourceRefs ≠ [] ∧ ∀ r ∈ c.sourceRefs, r ∈ known := by
  induction claims with
  | nil => simp [validateClaims]
  | cons c claims ih =>
    rw [validateClaims, List.forall_mem_cons]
    by_cases hrefs : c.sourceRefs = []
    · simp [hrefs, bind, Except.bind, throw, throwThe, MonadExceptOf.throw]
    · rw [if_neg hrefs, ← ih, and_iff_right hrefs, ← checkRefs_ok_iff (c := c)]
      cases hcheck : checkRefs repr known c c.sourceRefs with
      | error e => simp [bind, Except.bind]
      | ok u => simp [bind, Except.bind]

theorem sourced_iff : Sourced facts claims ↔ validateClaims repr (facts.flatMap Fact.sourceRefs) claims = .ok () := by
  rw [validateClaims_ok_iff]
  simp only [Sourced, List.mem_flatMap]

theorem complete_skeleton {f : Fact} (hf : f ∈ facts) (htitle : f.«section» ∈ sectionTitles) :
    ∃ s ∈ skeleton facts, s.title = f.«section» ∧ (∀ r ∈ f.sourceRefs, r ∈ s.sourceRefs) ∧ (f.unknown = true → s.unknown = true) := by
  have hmem : f ∈ factsOf facts f.«section» := by
    rw [factsOf_eq]
    exact List.mem_filter.mpr ⟨hf, decide_eq_true rfl⟩
  refine ⟨_, List.mem_map.mpr ⟨f.«section», htitle, rfl⟩, rfl, fun r hr => ?_, fun hunknown => ?_⟩
  · exact mem_firstOccurrences.mpr (List.mem_flatMap.mpr ⟨f, hmem, hr⟩)
  · exact List.any_eq_true.mpr ⟨f, hmem, hunknown⟩

theorem summary_compose (repr : String → String) (facts : List Fact) (llmSummary : Option String)
    (llmClaims : Option (List Fact)) : (compose repr facts llmSummary llmClaims).2 = deterministicSummary facts ∨
      llmSummary = some (compose repr facts llmSummary llmClaims).2 ∧
        ∀ claims, llmClaims = some claims → Sourced facts claims := by
  cases llmSummary with
  | none => exact .inl rfl
  | some text =>
    cases llmClaims with
    | none => exact .inr ⟨rfl, fun claims h => by cases h⟩
    | some claims =>
      cases claims with
      | nil =>
        refine .inr ⟨rfl, fun claims h => ?_⟩
        cases h
        exact List.forall_mem_nil _
      | cons c claims =>
        unfold compose
        dsimp only
        cases hvalid : validateClaims repr (facts.flatMap Fact.sourceRefs) (c :: claims) with
        | error e => exact .inl rfl
        | ok u =>
          refine .inr ⟨rfl, fun claims' h => ?_⟩
          cases h
          exact sourced_iff.mpr hvalid

/-- Whatever the facts are, and whatever the language model gives. -/
theorem composed_reports_source_backed (repr : String → String) (facts : List Fact) (llmSummary : Option String)
    (llmClaims : Option (List Fact)) : SourceBacked facts llmSummary llmClaims (compose repr facts llmSummary llmClaims) where
  titles := by
    change (skeleton facts).map ReportSection.title = sectionTitles
    rw [skeleton, List.map_map]
    exact List.map_id sectionTitles
  complete := fun _ hf htitle => complete_skeleton hf htitle
  summary := summary_compose repr facts llmSummary llmClaims

/-- A text of the language model without claims is taken. -/
theorem summary_without_claims :
    ¬∀ (repr : String → String) (facts : List Fact) (llmSummary : Option String) (llmClaims : Option (List Fact)),
      (compose repr facts llmSummary llmClaims).2 = deterministicSummary facts ∨
        llmSummary = some (compose repr facts llmSummary llmClaims).2 ∧
          ∃ claims, llmClaims = some claims ∧ claims ≠ [] ∧ Sourced facts claims := by
  intro h
  rcases h id [] (some "deleted everything") none with hsummary | ⟨-, claims, hclaims, -⟩
  · have hdiffer : ¬"deleted everything" = deterministicSummary [] := by decide
    exact hdiffer hsummary
  · cases hclaims

end

end AllTomorrow.ReportProjection
