import AllTomorrow.PythonValues
import AllTomorrow.DomainRecords
import Mathlib.Algebra.Order.Ring.Rat
import Mathlib.Data.Finset.Basic
import Mathlib.Data.List.MinMax
import Mathlib.Data.Prod.Lex
import Mathlib.Data.String.Basic
import Mathlib.Order.WithBot

/-!
# Selecting workers, tools and resources

`select_worker` and `select_tools` of `registry.py` and `select` of `routing_policy.py`. A latency that is not known has
a large number in its place, and among tools so has the latency zero.
-/

namespace AllTomorrow.Selection

structure Worker where
  workerId : String
  capabilities : Finset String
  status : String := "unknown"
  latencyMs : Option ℚ := none
  costScore : ℚ := 0
  evaluationScore : ℚ := 0
  privacyTags : Finset String := ∅

inductive Risk where
  | low | medium | high | critical

/-- `_RISK_ORDER` -/
def Risk.order : Risk → ℕ
  | .low => 0
  | .medium => 1
  | .high => 2
  | .critical => 3

def Risk.ofString : String → Option Risk
  | "low" => some .low
  | "medium" => some .medium
  | "high" => some .high
  | "critical" => some .critical
  | _ => none

structure Tool where
  toolId : String
  capabilities : Finset String
  risk : Risk
  status : String := "unknown"
  latencyMs : Option ℚ := none

structure SelectionRequest where
  requiredCapabilities : Finset String
  privacyTags : Finset String := ∅
  maximumRisk : String := "high"

structure ResourceRecord where
  resourceId : String
  costPerUnit : Option ℚ := none

structure SelectionResult where
  resource : ResourceRecord
  policyVersion : String
  reason : String

def sentinel : ℚ := 10 ^ 12

/-! ## The selectors -/

def eligibleWorkers (workers : List Worker) (request : SelectionRequest) : List Worker :=
  workers.filter fun w => w.status = "available" ∧ request.requiredCapabilities ⊆ w.capabilities ∧
    request.privacyTags ⊆ w.privacyTags

def Worker.scores (w : Worker) : ℚ ×ₗ ℚ := toLex (-w.evaluationScore, w.costScore)

def Worker.key (w : Worker) : (ℚ ×ₗ ℚ) ×ₗ (ℚ ×ₗ String) :=
  toLex (w.scores, toLex (w.latencyMs.getD sentinel, w.workerId))

def selectWorker (workers : List Worker) (request : SelectionRequest) : Option Worker :=
  (eligibleWorkers workers request).argmin Worker.key

def eligibleTools (tools : List Tool) (request : SelectionRequest) (maximum : Risk) : List Tool :=
  tools.filter fun t => t.status = "available" ∧ request.requiredCapabilities ⊆ t.capabilities ∧ t.risk.order ≤ maximum.order

/-- `tool.latency_ms or 10**12` -/
def Tool.rank (t : Tool) : ℚ :=
  match t.latencyMs with
  | none => sentinel
  | some l => if l = 0 then sentinel else l

def Tool.key (t : Tool) : ℚ ×ₗ String := toLex (t.rank, t.toolId)

def selectTools (tools : List Tool) (request : SelectionRequest) : Except Exn (List Tool) :=
  match Risk.ofString request.maximumRisk with
  | none => .error (.contractError ("unknown maximum risk: " ++ request.maximumRisk))
  | some maximum => .ok ((eligibleTools tools request maximum).insertionSort fun a b => a.key ≤ b.key)

/-- `_rank_key`, where the cost `inf` is that of no number. -/
def ResourceRecord.key (r : ResourceRecord) : WithTop ℚ ×ₗ String :=
  toLex (r.costPerUnit.elim ⊤ fun c => (c : WithTop ℚ), r.resourceId)

/-- `by_id.get(id)`, the last of that id. -/
def byId (candidates : List ResourceRecord) (id : String) : Option ResourceRecord :=
  candidates.reverse.find? fun r => r.resourceId = id

def select (candidates : List ResourceRecord) (explicitChoiceId inferredPreferenceId : Option String) :
    Except Exn SelectionResult :=
  match (candidates.insertionSort fun a b => a.key ≤ b.key).head? with
  | none => .error (.foreign "NoResourceError" "no resource satisfies the hard filter")
  | some cheapest =>
    match explicitChoiceId with
    | some id =>
      match byId candidates id with
      | some r => .ok ⟨r, "1", "explicit user choice"⟩
      | none => .error (.foreign "NoResourceError" ("explicit resource " ++ id ++ " not available"))
    | none =>
      match inferredPreferenceId.bind (byId candidates) with
      | some r => .ok ⟨r, "1", "inferred preference"⟩
      | none => .ok ⟨cheapest, "1", "ranked cheapest"⟩

section Order

variable {α κ : Type*} {f : α → κ} {l l' : List α}

/-- The key names one element of the list. -/
def Named (f : α → κ) (l : List α) : Prop := ∀ a ∈ l, ∀ b ∈ l, f a = f b → a = b

theorem argmin_perm [LinearOrder κ] (h : l.Perm l') (hnamed : Named f l) : l.argmin f = l'.argmin f := by
  cases hm : l.argmin f with
  | none =>
    rw [List.argmin_eq_none] at hm
    subst hm
    rw [List.nil_perm.mp h]
    rfl
  | some m =>
    cases hm' : l'.argmin f with
    | none =>
      rw [List.argmin_eq_none] at hm'
      subst hm'
      rw [List.perm_nil.mp h] at hm
      cases hm
    | some m' =>
      have hmem := List.argmin_mem hm
      have hmem' := h.mem_iff.mpr (List.argmin_mem hm')
      rw [hnamed m hmem m' hmem' (le_antisymm (List.le_of_mem_argmin hmem' hm) (List.le_of_mem_argmin (h.mem_iff.mp hmem) hm'))]

variable [LinearOrder κ]

theorem pairwise_sort (l : List α) : (l.insertionSort fun a b => f a ≤ f b).Pairwise fun a b => f a ≤ f b :=
  letI : Std.Total fun a b => f a ≤ f b := ⟨fun a b => le_total (f a) (f b)⟩
  letI : IsTrans α fun a b => f a ≤ f b := ⟨fun _ _ _ => le_trans⟩
  List.pairwise_insertionSort _ l

theorem sort_perm (h : l.Perm l') (hnamed : Named f l) :
    (l.insertionSort fun a b => f a ≤ f b) = l'.insertionSort fun a b => f a ≤ f b := by
  have hmem {a : α} : a ∈ l.insertionSort (fun a b => f a ≤ f b) → a ∈ l := (List.mem_insertionSort _).mp
  have hmem' {a : α} : a ∈ l'.insertionSort (fun a b => f a ≤ f b) → a ∈ l :=
    fun ha => h.mem_iff.mpr ((List.mem_insertionSort _).mp ha)
  refine List.Perm.eq_of_pairwise (fun a b ha hb hle hge => hnamed a (hmem ha) b (hmem' hb) (le_antisymm hle hge))
    (pairwise_sort l) (pairwise_sort l') ?_
  exact (List.perm_insertionSort _ l).trans (h.trans (List.perm_insertionSort _ l').symm)

theorem sublist_sort {a b : α} (ha : a ∈ l) (hb : b ∈ l) (hlt : f a < f b) :
    [a, b].Sublist (l.insertionSort fun a b => f a ≤ f b) := by
  have hne : a ≠ b := fun heq => hlt.ne (congrArg f heq)
  have hmem {c : α} (hc : c ∈ l) : c ∈ l.insertionSort fun a b => f a ≤ f b := (List.mem_insertionSort _).mpr hc
  rcases pair_sublist_or (hmem ha) (hmem hb) hne with hab | hba
  · exact hab
  · exact absurd (List.pairwise_iff_forall_sublist.mp (pairwise_sort l) hba) (not_le.mpr hlt)

theorem head_sort_le {m : α} (h : (l.insertionSort fun a b => f a ≤ f b).head? = some m) : m ∈ l ∧ ∀ a ∈ l, f m ≤ f a := by
  obtain ⟨rest, hsort⟩ := List.head?_eq_some_iff.mp h
  have hmem {a : α} : a ∈ m :: rest ↔ a ∈ l := by rw [← hsort, List.mem_insertionSort]
  have hpair := pairwise_sort (f := f) l
  rw [hsort, List.pairwise_cons] at hpair
  refine ⟨hmem.mp List.mem_cons_self, fun a ha => ?_⟩
  rcases List.mem_cons.mp (hmem.mpr ha) with rfl | hrest
  · exact le_refl _
  · exact hpair.1 a hrest

end Order

/-- The preference: a high evaluation, low costs, and a low latency, with those that are not known at the end. -/
def Worker.preference (w : Worker) : (ℚ ×ₗ ℚ) ×ₗ (WithTop ℚ ×ₗ String) :=
  toLex (w.scores, toLex (w.latencyMs.elim ⊤ fun l => (l : WithTop ℚ), w.workerId))

/-- Among those of the best scores, a worker of unknown latency comes before all of known latencies, and there are such. -/
def Overtaken (eligible : List Worker) : Prop :=
  ∃ u ∈ eligible, ∃ v ∈ eligible, u.latencyMs = none ∧ v.latencyMs ≠ none ∧ v.scores = u.scores ∧
    (∀ x ∈ eligible, u.scores ≤ x.scores) ∧
    ∀ x ∈ eligible, ∀ l, x.scores = u.scores → x.latencyMs = some l →
      (toLex (sentinel, u.workerId) : ℚ ×ₗ String) ≤ toLex (l, x.workerId)

theorem best_iff {eligible : List Worker} (hnamed : Named Worker.workerId eligible) {m : Worker}
    (hm : m ∈ eligible.argmin Worker.key) : (∀ v ∈ eligible, m.preference ≤ v.preference) ↔ ¬Overtaken eligible := by
  have hmem := List.argmin_mem hm
  have hmin : ∀ v ∈ eligible, m.scores < v.scores ∨ m.scores = v.scores ∧
      (m.latencyMs.getD sentinel < v.latencyMs.getD sentinel ∨
        m.latencyMs.getD sentinel = v.latencyMs.getD sentinel ∧ m.workerId ≤ v.workerId) := by
    intro v hv
    have hle := List.le_of_mem_argmin hv hm
    simpa only [Worker.key, Prod.Lex.toLex_le_toLex] using hle
  simp only [Worker.preference, Prod.Lex.toLex_le_toLex]
  constructor
  · rintro hbest ⟨u, hu, v, hv, hunknown, hknown, hscores, hleast, hfirst⟩
    obtain ⟨hsame, hlatency⟩ := (hmin u hu).resolve_left (not_lt.mpr (hleast m hmem))
    obtain ⟨lv, hv'⟩ := Option.ne_none_iff_exists'.mp hknown
    cases hm' : m.latencyMs with
    | none => simpa [hm', hv', hscores, hsame] using hbest v hv
    | some l =>
      have hlate := hfirst m hmem l hsame hm'
      rw [Prod.Lex.toLex_le_toLex] at hlate
      rw [hm', hunknown, Option.getD_some, Option.getD_none] at hlatency
      have hid : m.workerId = u.workerId := by
        rcases hlatency with hlt | ⟨heq, hle⟩
        · rcases hlate with hgt | ⟨heq, _⟩
          · exact absurd hgt (not_lt.mpr hlt.le)
          · exact absurd heq hlt.ne'
        · rcases hlate with hgt | ⟨_, hge⟩
          · exact absurd heq hgt.ne'
          · exact le_antisymm hle hge
      rw [hnamed m hmem u hu hid, hunknown] at hm'
      cases hm'
  · intro hnot v hv
    rcases hmin v hv with hlt | ⟨hscores, hlatency⟩
    · exact .inl hlt
    refine .inr ⟨hscores, ?_⟩
    cases hm' : m.latencyMs with
    | some l =>
      cases hv' : v.latencyMs with
      | none => simp
      | some l' => simpa [hm', hv'] using hlatency
    | none =>
      cases hv' : v.latencyMs with
      | none => simpa [hm', hv'] using hlatency
      | some l =>
        refine absurd ⟨m, hmem, v, hv, hm', by simp [hv'], hscores.symm, fun x hx => ?_, fun x hx l' hx' hl' => ?_⟩ hnot
        · exact (hmin x hx).elim le_of_lt fun h => h.1.le
        · have hx := ((hmin x hx).resolve_left fun h => h.ne hx'.symm).2
          rw [Prod.Lex.toLex_le_toLex]
          simpa [hm', hl'] using hx

/-! ## Tools -/

/-- The first may stand before the second: if the second has a known latency, so has the first, and none higher. -/
def Right (a b : Tool) : Prop := ∀ l, b.latencyMs = some l → ∃ k, a.latencyMs = some k ∧ k ≤ l

/-- The second has the latency zero, and the first a positive one up to the sentinel; or the first is unknown, and the
second zero or not below the sentinel. The names decide between equals. -/
def Swapped (a b : Tool) : Prop :=
  ∃ l, b.latencyMs = some l ∧
    match a.latencyMs with
    | none => (toLex (sentinel, a.toolId) : ℚ ×ₗ String) < toLex (if l = 0 then sentinel else l, b.toolId)
    | some k => l = 0 ∧ 0 < k ∧ (toLex (k, a.toolId) : ℚ ×ₗ String) < toLex (sentinel, b.toolId)

theorem key_lt_of_swapped {a b : Tool} (h : Swapped a b) : a.key < b.key := by
  obtain ⟨l, hb, hswap⟩ := h
  cases ha : a.latencyMs with
  | none => simpa [Tool.key, Tool.rank, ha, hb] using hswap
  | some k =>
    rw [ha] at hswap
    obtain ⟨rfl, hpos, hlt⟩ := hswap
    simpa [Tool.key, Tool.rank, ha, hb, hpos.ne'] using hlt

theorem right_iff {a b : Tool} (h : a.key < b.key) : Right a b ↔ ¬Swapped a b := by
  unfold Right Swapped
  cases hb : b.latencyMs with
  | none => simp
  | some l =>
    have hkey : a.key < toLex (if l = 0 then sentinel else l, b.toolId) := by simpa [Tool.key, Tool.rank, hb] using h
    cases ha : a.latencyMs with
    | none =>
      have hfirst : (toLex (sentinel, a.toolId) : ℚ ×ₗ String) < toLex (if l = 0 then sentinel else l, b.toolId) := by
        simpa [Tool.key, Tool.rank, ha] using hkey
      simp [hfirst]
    | some k =>
      simp only [Option.some.injEq, forall_eq', exists_eq_left']
      constructor
      · rintro hle ⟨rfl, hpos, _⟩
        exact absurd hle (not_le.mpr hpos)
      · intro hnot
        by_contra hgt
        have hlt : l < k := not_le.mp hgt
        rw [Tool.key, Tool.rank, ha, Prod.Lex.toLex_lt_toLex] at hkey
        have hsentinel : (0 : ℚ) < sentinel := by decide +kernel
        by_cases hl : l = 0
        · subst hl
          refine hnot ⟨rfl, hlt, ?_⟩
          rw [Prod.Lex.toLex_lt_toLex]
          simpa [hlt.ne'] using hkey
        · have hrank : l < if k = 0 then sentinel else k := by
            split
            · rename_i hk
              rw [hk] at hlt
              exact hlt.trans hsentinel
            · exact hlt
          rw [if_neg hl] at hkey
          rcases hkey with hless | ⟨heq, _⟩
          · exact absurd hless (not_lt.mpr hrank.le)
          · exact absurd heq hrank.ne'

theorem pairwise_right_iff {eligible : List Tool} (hnamed : Named Tool.toolId eligible) :
    (eligible.insertionSort fun a b => a.key ≤ b.key).Pairwise Right ↔ ∀ a ∈ eligible, ∀ b ∈ eligible, ¬Swapped a b := by
  rw [List.pairwise_iff_forall_sublist]
  constructor
  · intro hright a ha b hb hswap
    have hlt := key_lt_of_swapped hswap
    exact (right_iff hlt).mp (hright (sublist_sort ha hb hlt)) hswap
  · intro hnot a b hsub
    have hmem {c : Tool} (hc : c ∈ [a, b]) : c ∈ eligible := (List.mem_insertionSort _).mp (hsub.subset hc)
    rcases (List.pairwise_iff_forall_sublist.mp (pairwise_sort (f := Tool.key) eligible) hsub).lt_or_eq with hlt | heq
    · exact (right_iff hlt).mpr (hnot a (hmem (by simp)) b (hmem (by simp)))
    · rw [hnamed a (hmem (by simp)) b (hmem (by simp)) (congrArg (fun k => (ofLex k).2) heq)]
      exact fun l hl => ⟨l, hl, le_refl l⟩

variable {candidates candidates' : List ResourceRecord}

theorem byId_eq_some (hnamed : Named ResourceRecord.resourceId candidates) {id : String} {r : ResourceRecord} :
    byId candidates id = some r ↔ r ∈ candidates ∧ r.resourceId = id := by
  have hfound {s : ResourceRecord} (h : byId candidates id = some s) : s ∈ candidates ∧ s.resourceId = id :=
    ⟨List.mem_reverse.mp (List.mem_of_find?_eq_some h), by simpa using List.find?_some h⟩
  refine ⟨hfound, fun ⟨hr, hid⟩ => ?_⟩
  cases hs : byId candidates id with
  | none => exact absurd hid (by simpa using List.find?_eq_none.mp hs r (List.mem_reverse.mpr hr))
  | some s => rw [hnamed s (hfound hs).1 r hr ((hfound hs).2.trans hid.symm)]

theorem select_perm (h : candidates.Perm candidates') (hnamed : Named ResourceRecord.resourceId candidates)
    (explicitId inferredId : Option String) : select candidates explicitId inferredId = select candidates' explicitId inferredId := by
  have hbyId : byId candidates = byId candidates' := by
    funext id
    have hnamed' : Named ResourceRecord.resourceId candidates' :=
      fun a ha b hb => hnamed a (h.mem_iff.mpr ha) b (h.mem_iff.mpr hb)
    refine Option.ext fun r => ?_
    rw [byId_eq_some hnamed, byId_eq_some hnamed', h.mem_iff]
  rw [select, select, hbyId, sort_perm h fun a ha b hb heq => hnamed a ha b hb (congrArg (fun k => (ofLex k).2) heq)]

/-- The explicit choice, else the inferred one if it is there, else the cheapest. -/
def Chosen (candidates : List ResourceRecord) (explicitId inferredId : Option String) (r : ResourceRecord) : Prop :=
  r ∈ candidates ∧ (∀ id, explicitId = some id → r.resourceId = id) ∧
    (explicitId = none → (∃ s ∈ candidates, inferredId = some s.resourceId) → inferredId = some r.resourceId) ∧
    (explicitId = none → (∀ s ∈ candidates, inferredId ≠ some s.resourceId) → ∀ s ∈ candidates, r.key ≤ s.key)

theorem chosen_of_select (hnamed : Named ResourceRecord.resourceId candidates) {explicitId inferredId : Option String}
    {result : SelectionResult} (h : select candidates explicitId inferredId = .ok result) :
    Chosen candidates explicitId inferredId result.resource := by
  unfold select at h
  split at h
  · cases h
  · rename_i cheapest hhead
    split at h
    · rename_i id
      split at h
      · rename_i r hr
        cases h
        obtain ⟨hmem, hid⟩ := (byId_eq_some hnamed).mp hr
        exact ⟨hmem, fun _ heq => hid.trans (Option.some.inj heq), nofun, nofun⟩
      · cases h
    · split at h
      · rename_i r hr
        cases h
        obtain ⟨id, rfl, hfound⟩ := Option.bind_eq_some_iff.mp hr
        obtain ⟨hmem, rfl⟩ := (byId_eq_some hnamed).mp hfound
        exact ⟨hmem, nofun, fun _ _ => rfl, fun _ hall => absurd rfl (hall r hmem)⟩
      · rename_i hnone
        cases h
        obtain ⟨hmem, hleast⟩ := head_sort_le hhead
        refine ⟨hmem, nofun, fun _ hex => ?_, fun _ _ => hleast⟩
        obtain ⟨s, hs, rfl⟩ := hex
        rw [Option.bind_some, (byId_eq_some hnamed).mpr ⟨hs, rfl⟩] at hnone
        cases hnone

/-! ## All selectors -/

/-- The results do not depend on the order of registration; the worker and the resource are the preferred ones among
those that are eligible; and the tools are those that are eligible, by known latencies and then the others. -/
structure Optimal (workers workers' : List Worker) (tools tools' : List Tool) (candidates candidates' : List ResourceRecord)
    (request : SelectionRequest) (explicitId inferredId : Option String) : Prop where
  worker_order : selectWorker workers request = selectWorker workers' request
  tools_order : selectTools tools request = selectTools tools' request
  resource_order : select candidates explicitId inferredId = select candidates' explicitId inferredId
  worker_best : ∀ w ∈ selectWorker workers request, w ∈ eligibleWorkers workers request ∧
    ∀ v ∈ eligibleWorkers workers request, w.preference ≤ v.preference
  worker_none : selectWorker workers request = none ↔ eligibleWorkers workers request = []
  tools_listed : ∀ maximum ts, Risk.ofString request.maximumRisk = some maximum → selectTools tools request = .ok ts →
    ts.Perm (eligibleTools tools request maximum) ∧ ts.Pairwise Right
  resource_chosen : ∀ result, select candidates explicitId inferredId = .ok result →
    Chosen candidates explicitId inferredId result.resource

/-- What is selected is optimal, in whatever order the lists come, unless a latency is overtaken. -/
theorem optimal_iff {workers workers' : List Worker} {tools tools' : List Tool} (hworkers : workers.Perm workers')
    (htools : tools.Perm tools') (hcandidates : candidates.Perm candidates') (hworker : Named Worker.workerId workers)
    (htool : Named Tool.toolId tools) (hresource : Named ResourceRecord.resourceId candidates) (request : SelectionRequest)
    (explicitId inferredId : Option String) :
    Optimal workers workers' tools tools' candidates candidates' request explicitId inferredId ↔
      ¬Overtaken (eligibleWorkers workers request) ∧
        ∀ maximum, Risk.ofString request.maximumRisk = some maximum → ∀ a ∈ eligibleTools tools request maximum,
          ∀ b ∈ eligibleTools tools request maximum, ¬Swapped a b := by
  have hworker' : Named Worker.workerId (eligibleWorkers workers request) :=
    fun a ha b hb => hworker a (List.mem_of_mem_filter ha) b (List.mem_of_mem_filter hb)
  have htool' (maximum : Risk) : Named Tool.toolId (eligibleTools tools request maximum) :=
    fun a ha b hb => htool a (List.mem_of_mem_filter ha) b (List.mem_of_mem_filter hb)
  constructor
  · intro h
    constructor
    · intro hover
      obtain ⟨u, hu, _⟩ := id hover
      obtain ⟨w, hw⟩ := Option.ne_none_iff_exists'.mp fun hnone => by
        rw [h.worker_none.mp hnone] at hu
        cases hu
      exact (best_iff hworker' hw).mp (h.worker_best w hw).2 hover
    · intro maximum hmaximum
      refine (pairwise_right_iff (htool' maximum)).mp (h.tools_listed maximum _ hmaximum ?_).2
      rw [selectTools, hmaximum]
  · rintro ⟨hnot, hswap⟩
    refine ⟨argmin_perm (hworkers.filter _) ?_, ?_, select_perm hcandidates hresource _ _, ?_, List.argmin_eq_none, ?_, ?_⟩
    · exact fun a ha b hb heq => hworker' a ha b hb (congrArg (fun k => (ofLex (ofLex k).2).2) heq)
    · unfold selectTools
      split
      · rfl
      · rename_i maximum _
        rw [eligibleTools, eligibleTools, sort_perm (htools.filter _) fun a ha b hb heq => htool' maximum a ha b hb
          (congrArg (fun k => (ofLex k).2) heq)]
    · exact fun w hw => ⟨List.argmin_mem hw, (best_iff hworker' hw).mpr hnot⟩
    · intro maximum ts hmaximum hts
      rw [selectTools, hmaximum] at hts
      cases hts
      exact ⟨List.perm_insertionSort _ _, (pairwise_right_iff (htool' maximum)).mpr (hswap maximum hmaximum)⟩
    · exact fun result hresult => chosen_of_select hresource hresult

/-! A tool without latency, which is listed after a slow one. -/

def instantTool : Tool := ⟨"a", ∅, .low, "available", some 0⟩

def slowTool : Tool := ⟨"b", ∅, .low, "available", some 5⟩

/-- No latency is known of it. -/
def untimedTool : Tool := ⟨"c", {"search"}, .medium, "available", none⟩

def slowWorker : Worker :=
  { workerId := "w1", capabilities := {"search"}, status := "available", latencyMs := some 40, evaluationScore := 1 }

def fastWorker : Worker :=
  { workerId := "w2", capabilities := {"search", "code"}, status := "available", latencyMs := some 12, evaluationScore := 1 }

theorem optimal_iff_slowTool :
    Optimal [slowWorker, fastWorker] [fastWorker, slowWorker] [untimedTool, slowTool] [slowTool, untimedTool]
        [⟨"r1", some 3⟩, ⟨"r2", none⟩] [⟨"r2", none⟩, ⟨"r1", some 3⟩] ⟨∅, ∅, "high"⟩ none none ↔
      ¬Overtaken (eligibleWorkers [slowWorker, fastWorker] ⟨∅, ∅, "high"⟩) ∧
        ∀ maximum, Risk.ofString "high" = some maximum →
          ∀ a ∈ eligibleTools [untimedTool, slowTool] ⟨∅, ∅, "high"⟩ maximum,
            ∀ b ∈ eligibleTools [untimedTool, slowTool] ⟨∅, ∅, "high"⟩ maximum, ¬Swapped a b :=
  optimal_iff (.swap ..) (.swap ..) (.swap ..) (by simp [Named, slowWorker, fastWorker])
    (by simp [Named, slowTool, untimedTool]) (by simp [Named]) _ none none

theorem instantTool_not_optimal :
    ¬∀ (tools tools' : List Tool) (request : SelectionRequest), tools.Perm tools' → Named Tool.toolId tools →
      Optimal [] [] tools tools' [] [] request none none := by
  intro h
  have hboth := h [instantTool, slowTool] [instantTool, slowTool] ⟨∅, ∅, "high"⟩ .rfl (by simp [Named, instantTool, slowTool])
  have hlisted := (hboth.tools_listed .high _ rfl rfl).2
  have hmem {t : Tool} (ht : t ∈ [instantTool, slowTool]) :
      t ∈ eligibleTools [instantTool, slowTool] ⟨∅, ∅, "high"⟩ .high := by
    refine List.mem_filter.mpr ⟨ht, ?_⟩
    rcases List.mem_pair.mp ht with rfl | rfl <;> simp [instantTool, slowTool, Risk.order]
  have hlt : slowTool.key < instantTool.key :=
    key_lt_of_swapped ⟨0, rfl, rfl, by decide +kernel, by decide +kernel⟩
  have hright := List.pairwise_iff_forall_sublist.mp hlisted (sublist_sort (hmem (by simp)) (hmem (by simp)) hlt)
  obtain ⟨k, hk, hle⟩ := hright 0 rfl
  cases hk
  exact absurd hle (by decide +kernel)

end AllTomorrow.Selection
