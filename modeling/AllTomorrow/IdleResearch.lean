import Mathlib.Data.List.Forall2
import Mathlib.Data.List.Perm.Subperm
import Mathlib.Data.Rat.Init
import AllTomorrow.DomainTransitions
import AllTomorrow.MachineRuns

/-!
# Research while the computer is idle

`tick` of `overseer/idle_research.py`: it collects the runs that ended, and starts a compression, a
synthesis or the research of a topic.
-/

namespace AllTomorrow.IdleResearch

open MachineRuns

/-! ## Runs -/

inductive RunKind where
  | research | compress | synth
  deriving DecidableEq

/-- An entry of `runs.json`. One without `kind` is of a topic's research. -/
structure RunEntry where
  kind : RunKind
  topicId : Option String
  ideaId : Option String
  item : Option String
  sigs : List String
  started : ℚ
  status : String
  runId : Option String
  /-- which launch it is of, for the statements about runs -/
  launch : Option ℕ

namespace RunEntry

def running (r : RunEntry) : Bool := r.status = "RUNNING"

def short (r : RunEntry) : Bool := r.kind = .compress || r.kind = .synth

end RunEntry

@[irreducible] def keptRuns : ℕ := 300

theorem one_le_keptRuns : 1 ≤ keptRuns := by
  unfold keptRuns
  decide

/-- `save_runs` keeps the last ones. -/
def saveRuns (runs : List RunEntry) : List RunEntry := runs.drop (runs.length - keptRuns)

/-! ## What ended -/

structure RunInfo where
  status : Option String
  output : String

inductive ReadResult where
  | info (i : RunInfo)
  | lost
  | raised (e : Exn)

inductive Filing where
  | stored | refused
  | raised (e : Exn)

inductive StartResult where
  /-- the fields of `meta` that are used -/
  | returned (runId : Option String)
  | raised

structure PendingItem where
  key : String
  ideaId : String

structure SynthJob where
  ideaId : String
  sigs : List String

structure IdeaView where
  rushed : String → Option ℚ
  pendingSummaries : List PendingItem
  pendingSyntheses : List String
  synthJob : String → Option SynthJob

structure ResearchTopic where
  id : String
  enabled : Bool
  runNowAt : Option ℚ
  repeatDays : ℚ
  ideaId : Option String

/-- What a tick finds. Without a file of ideas there is no view of them. -/
structure Surroundings where
  now : ℚ
  idle : Option ℚ
  read : RunEntry → ReadResult
  filed : RunEntry → Filing
  /-- `quota_ok` for the short jobs and for research -/
  shortOk : Bool
  researchOk : Bool
  paused : Bool
  /-- the ideas when the rushed items are looked for, and afterwards -/
  ideasFirst : Except Exn (Option IdeaView)
  ideas : Except Exn (Option IdeaView)
  itemThere : PendingItem → Except Exn Bool
  ideaThere : String → Except Exn Bool
  topics : Except Exn (List ResearchTopic)
  start : StartResult

structure Settings where
  idleSeconds : ℚ
  daily : ℤ

/-- The status that `_finish` leaves. -/
def finish (env : Surroundings) (r : RunEntry) (info : RunInfo) : Except Exn String :=
  let status := info.status.getD "UNKNOWN"
  if status = "SUCCESS" ∧ info.output ≠ "" then
    match r.short, env.filed r with
    | _, .stored => .ok status
    | true, _ => .ok "FAILED"
    | false, .refused => .ok status
    | false, .raised e => .error e
  else .ok (if status = "SUCCESS" then "FAILED" else status)

def collectRun (env : Surroundings) (r : RunEntry) : Except Exn RunEntry :=
  if !r.running then .ok r
  else
    match r.runId with
    | none => .error (.keyError "run_id")
    | some _ =>
      match env.read r with
      | .raised e => .error e
      | .lost => (finish env r ⟨some "LOST", ""⟩).map fun status => { r with status := status }
      | .info info =>
        if info.status = some "RUNNING" then .ok r
        else (finish env r info).map fun status => { r with status := status }

def collectAll (env : Surroundings) : List RunEntry → Except Exn (List RunEntry)
  | [] => .ok []
  | r :: rest => do
    let r' ← collectRun env r
    let rest' ← collectAll env rest
    return r' :: rest'

def ended (env : Surroundings) (r : RunEntry) : Bool :=
  match collectRun env r with
  | .error _ => false
  | .ok r' => r.running && !r'.running

/-! ## What is next -/

/-- `_blocked` -/
def blocked (mine : List RunEntry) (now : ℚ) : Bool :=
  let failed := mine.filter fun r => r.status ≠ "SUCCESS"
  let tries := failed.filter fun r => r.status ≠ "EXECUTABLE_NOT_FOUND"
  decide (3 ≤ tries.length) || failed.getLast?.any fun r => now - r.started < 1800

def sortsBefore (view : IdeaView) (a b : PendingItem) : Bool :=
  match view.rushed a.key, view.rushed b.key with
  | some s, some t => s ≤ t
  | none, some _ => false
  | _, none => true

def nextCompress (view : Option IdeaView) (runs : List RunEntry) (now : ℚ) (rushedOnly : Bool) : Option PendingItem :=
  match view with
  | none => none
  | some view =>
    (view.pendingSummaries.mergeSort (sortsBefore view)).find? fun item =>
      let mine := runs.filter fun r => r.kind = .compress && r.item = some item.key
      (view.rushed item.key).any (fun since => !mine.any fun r => since ≤ r.started) || (!rushedOnly && !blocked mine now)

def nextSynth (view : Option IdeaView) (runs : List RunEntry) (now : ℚ) : Option SynthJob :=
  match view with
  | none => none
  | some view =>
    view.pendingSyntheses.findSome? fun ideaId =>
      (view.synthJob ideaId).bind fun job =>
        if blocked (runs.filter fun r => r.kind = .synth && r.ideaId = some ideaId && r.sigs = job.sigs) now then none
        else some job

def due (topic : ResearchTopic) (runs : List RunEntry) (now : ℚ) (idleOk : Bool) : Bool :=
  let last := (runs.filter fun r => r.topicId = some topic.id).getLast?
  if !topic.enabled then false
  else if topic.runNowAt.any fun at_ => at_ ≠ 0 && last.all fun r => r.started < at_ then true
  else if !idleOk then false
  else
    match last with
    | none => true
    | some r =>
      if r.status ≠ "SUCCESS" then 6 * 3600 ≤ now - r.started
      else 0 < topic.repeatDays && topic.repeatDays * 86400 ≤ now - r.started

def compressEntry (item : PendingItem) (now : ℚ) : RunEntry :=
  { kind := .compress, topicId := none, ideaId := some item.ideaId, item := some item.key, sigs := [], started := now
    status := "RUNNING", runId := none, launch := none }

def synthEntry (job : SynthJob) (now : ℚ) : RunEntry :=
  { kind := .synth, topicId := none, ideaId := some job.ideaId, item := none, sigs := job.sigs, started := now
    status := "RUNNING", runId := none, launch := none }

def researchEntry (topic : ResearchTopic) (now : ℚ) : RunEntry :=
  { kind := .research, topicId := some topic.id, ideaId := topic.ideaId, item := none, sigs := [], started := now
    status := "RUNNING", runId := none, launch := none }

/-- The entry that `_start_compress` starts, unless its item or idea is gone. -/
def compressStart (env : Surroundings) : Option PendingItem → Except Exn (Option RunEntry)
  | none => .ok none
  | some item =>
    if env.shortOk then do
      let there ← env.itemThere item
      return if there then some (compressEntry item env.now) else none
    else .ok none

def synthStart (env : Surroundings) : Option SynthJob → Except Exn (Option RunEntry)
  | none => .ok none
  | some job =>
    if env.shortOk then do
      let there ← env.ideaThere job.ideaId
      return if there then some (synthEntry job env.now) else none
    else .ok none

def counted (now : ℚ) (r : RunEntry) : Bool := now - r.started < 86400 && !r.short

/-- The end of `tick`: a word, or the research that is started. -/
def planResearch (cfg : Settings) (env : Surroundings) (runs : List RunEntry) : Except Exn (String ⊕ RunEntry) :=
  if cfg.daily ≤ runs.countP (counted env.now) then .ok (.inl "budget")
  else do
    let idleOk := env.idle.any fun idle => cfg.idleSeconds ≤ idle
    let topics ← env.topics
    match topics.find? fun topic => due topic runs env.now idleOk with
    | none => return .inl (if idleOk then "none" else "idle")
    | some topic => return if env.researchOk then .inr (researchEntry topic env.now) else .inl "quota"

def planShort (cfg : Settings) (env : Surroundings) (runs : List RunEntry) : Except Exn (String ⊕ RunEntry) := do
  let ideas ← env.ideas
  let job := nextCompress ideas runs env.now false
  match ← compressStart env job with
  | some entry => return .inr entry
  | none => do
    match ← synthStart env (if job.isSome then none else nextSynth ideas runs env.now) with
    | some entry => return .inr entry
    | none => planResearch cfg env runs

def rushedItem (env : Surroundings) (runs : List RunEntry) : Except Exn (Option PendingItem) :=
  if (runs.filter RunEntry.running).any RunEntry.short then .ok none
  else env.ideasFirst.map fun ideas => nextCompress ideas runs env.now true

/-- What `tick` decides once nothing was collected. -/
def plan (cfg : Settings) (env : Surroundings) (runs : List RunEntry) : Except Exn (String ⊕ RunEntry) := do
  let rushed ← rushedItem env runs
  match ← compressStart env rushed with
  | some entry => return .inr entry
  | none =>
    if !(runs.filter RunEntry.running).isEmpty then return .inl "running"
    else if env.paused then return .inl "paused"
    else planShort cfg env runs

inductive TickOutcome where
  | raised (e : Exn)
  | said (word : String)
  | finished (runs : List RunEntry)
  | failed (entry : RunEntry)
  | launched (entry : RunEntry)
  /-- the start gives no `run_id` -/
  | unnamed (entry : RunEntry)

def tick (cfg : Settings) (env : Surroundings) (runs : List RunEntry) : TickOutcome :=
  match collectAll env runs with
  | .error e => .raised e
  | .ok runs' =>
    if runs.any (ended env) then .finished runs'
    else
      match plan cfg env runs' with
      | .error e => .raised e
      | .ok (.inl word) => .said word
      | .ok (.inr entry) =>
        match env.start with
        | .raised => .failed { entry with status := "FAILED" }
        | .returned none => .unnamed entry
        | .returned (some runId) => .launched { entry with runId := some runId }

/-! ## What a tick decides -/

variable {entry : RunEntry}

theorem compressStart_ok {env : Surroundings} {item : Option PendingItem}
    (h : compressStart env item = .ok (some entry)) : ∃ item', entry = compressEntry item' env.now := by
  cases item with
  | none => cases h
  | some item' =>
    unfold compressStart at h
    dsimp only at h
    split at h
    · obtain ⟨there, -, h⟩ := except_bind_ok.mp h
      cases there with
      | false => cases h
      | true =>
        cases h
        exact ⟨item', rfl⟩
    · cases h

theorem synthStart_ok {env : Surroundings} {job : Option SynthJob}
    (h : synthStart env job = .ok (some entry)) : ∃ job', entry = synthEntry job' env.now := by
  cases job with
  | none => cases h
  | some job' =>
    unfold synthStart at h
    dsimp only at h
    split at h
    · obtain ⟨there, -, h⟩ := except_bind_ok.mp h
      cases there with
      | false => cases h
      | true =>
        cases h
        exact ⟨job', rfl⟩
    · cases h

/-- What is started beside no other run of its kind, or beside no run at all. -/
structure MayStart (cfg : Settings) (env : Surroundings) (runs : List RunEntry) (entry : RunEntry) : Prop where
  running : entry.running = true
  started : entry.started = env.now
  alone : if entry.short then ∀ r ∈ runs, r.running = true → r.short = false
    else (∀ r ∈ runs, r.running = false) ∧ (runs.countP (counted env.now) : ℤ) < cfg.daily

theorem not_running_of_isEmpty {runs : List RunEntry} (h : (runs.filter RunEntry.running).isEmpty = true) :
    ∀ r ∈ runs, r.running = false := by
  rw [List.isEmpty_iff, List.filter_eq_nil_iff] at h
  exact fun r hr => Bool.eq_false_of_not_eq_true (h r hr)

theorem planResearch_start {cfg : Settings} {env : Surroundings} {runs : List RunEntry}
    (h : planResearch cfg env runs = .ok (.inr entry)) (hidle : ∀ r ∈ runs, r.running = false) :
    MayStart cfg env runs entry := by
  unfold planResearch at h
  split at h
  · cases h
  · next hbudget =>
    obtain ⟨topics, -, h⟩ := except_bind_ok.mp h
    split at h
    · cases h
    · cases hquota : env.researchOk with
      | false =>
        rw [hquota] at h
        cases h
      | true =>
        rw [hquota] at h
        cases h
        exact ⟨rfl, rfl, hidle, not_le.mp hbudget⟩

theorem planShort_start {cfg : Settings} {env : Surroundings} {runs : List RunEntry}
    (h : planShort cfg env runs = .ok (.inr entry)) (hidle : ∀ r ∈ runs, r.running = false) :
    MayStart cfg env runs entry := by
  have hnone : ∀ r ∈ runs, r.running = true → r.short = false := by
    intro r hr hrunning
    rw [hidle r hr] at hrunning
    cases hrunning
  unfold planShort at h
  obtain ⟨ideas, -, h⟩ := except_bind_ok.mp h
  obtain ⟨compress, hcompress, h⟩ := except_bind_ok.mp h
  cases compress with
  | some entry' =>
    cases h
    obtain ⟨item, rfl⟩ := compressStart_ok hcompress
    exact ⟨rfl, rfl, hnone⟩
  | none =>
    obtain ⟨synth, hsynth, h⟩ := except_bind_ok.mp h
    cases synth with
    | some entry' =>
      cases h
      obtain ⟨job, rfl⟩ := synthStart_ok hsynth
      exact ⟨rfl, rfl, hnone⟩
    | none => exact planResearch_start h hidle

theorem plan_start {cfg : Settings} {env : Surroundings} {runs : List RunEntry}
    (h : plan cfg env runs = .ok (.inr entry)) : MayStart cfg env runs entry := by
  unfold plan at h
  obtain ⟨rushed, hrushed, h⟩ := except_bind_ok.mp h
  obtain ⟨compress, hcompress, h⟩ := except_bind_ok.mp h
  cases compress with
  | some entry' =>
    cases h
    obtain ⟨item, rfl⟩ := compressStart_ok hcompress
    refine ⟨rfl, rfl, fun r hr hrunning => ?_⟩
    by_contra hshort
    have hany : (runs.filter RunEntry.running).any RunEntry.short = true :=
      List.any_eq_true.mpr ⟨r, List.mem_filter.mpr ⟨hr, hrunning⟩, Bool.eq_true_of_not_eq_false hshort⟩
    rw [rushedItem, if_pos hany] at hrushed
    cases hrushed
    cases hcompress
  | none =>
    dsimp only at h
    split at h
    · cases h
    · next hempty =>
      split at h
      · cases h
      · exact planShort_start h (not_running_of_isEmpty (by simpa using hempty))

/-! ## What is collected -/

variable {r : RunEntry}

theorem finish_ne_running {env : Surroundings} {info : RunInfo} {status : String}
    (h : finish env r info = .ok status) (hinfo : info.status ≠ some "RUNNING") : status ≠ "RUNNING" := by
  have hgetD : info.status.getD "UNKNOWN" ≠ "RUNNING" := by
    cases hstatus : info.status with
    | none => decide
    | some text =>
      rintro rfl
      exact hinfo hstatus
  unfold finish at h
  dsimp only at h
  split at h
  · split at h
    · cases h
      exact hgetD
    · cases h
      decide
    · cases h
      exact hgetD
    · cases h
  · cases h
    split
    · decide
    · exact hgetD

/-- An entry is left as it is, or it ran and is collected. -/
theorem collectRun_cases {env : Surroundings} {r r' : RunEntry} (h : collectRun env r = .ok r') :
    (r' = r ∧ ended env r = false) ∨
      ∃ status, r' = { r with status := status } ∧ r.running = true ∧ r'.running = false ∧ ended env r = true := by
  have hended : ended env r = (r.running && !r'.running) := by
    unfold ended
    rw [h]
  have hfinish (info : RunInfo) (hinfo : info.status ≠ some "RUNNING") (hrunning : r.running = true)
      (hmap : (finish env r info).map (fun status => { r with status := status }) = .ok r') :
      ∃ status, r' = { r with status := status } ∧ r.running = true ∧ r'.running = false ∧ ended env r = true := by
    cases hstatus : finish env r info with
    | error e =>
      rw [hstatus] at hmap
      cases hmap
    | ok status =>
      rw [hstatus] at hmap
      cases hmap
      have hnot : RunEntry.running { r with status := status } = false := decide_eq_false (finish_ne_running hstatus hinfo)
      exact ⟨status, rfl, hrunning, hnot, by rw [hended, hrunning, hnot]; rfl⟩
  unfold collectRun at h
  split at h
  · cases h
    exact .inl ⟨rfl, by rw [hended, Bool.and_not_self]⟩
  · next hrunning =>
    have hrunning' : r.running = true := by simpa using hrunning
    split at h
    · cases h
    · split at h
      · cases h
      · exact .inr (hfinish ⟨some "LOST", ""⟩ (by decide) hrunning' h)
      · next info _ =>
        split at h
        · cases h
          exact .inl ⟨rfl, by rw [hended, Bool.and_not_self]⟩
        · next hinfo => exact .inr (hfinish info hinfo hrunning' h)

variable {runs runs' : List RunEntry}

theorem collectAll_ok {env : Surroundings} (h : collectAll env runs = .ok runs') :
    List.Forall₂ (fun r r' => collectRun env r = .ok r') runs runs' := by
  induction runs generalizing runs' with
  | nil =>
    cases h
    exact .nil
  | cons r rest ih =>
    unfold collectAll at h
    obtain ⟨r', hr', h⟩ := except_bind_ok.mp h
    obtain ⟨rest', hrest', h⟩ := except_bind_ok.mp h
    cases h
    exact .cons hr' (ih hrest')

theorem collectAll_eq_self {env : Surroundings} (h : collectAll env runs = .ok runs')
    (hnone : runs.any (ended env) = false) : runs' = runs := by
  have hall := collectAll_ok h
  clear h
  induction hall with
  | nil => rfl
  | @cons r r' rest rest' hr hrest ih =>
    rw [List.any_cons, Bool.or_eq_false_iff] at hnone
    rw [ih hnone.2]
    rcases collectRun_cases hr with ⟨rfl, -⟩ | ⟨-, -, -, -, hended⟩
    · rfl
    · rw [hended] at hnone
      cases hnone.1

/-! ## Launches -/

structure Launch where
  number : ℕ
  kind : RunKind
  started : ℚ

/-- The list of runs, with what was launched and collected, and the time of the last tick. -/
structure Office where
  runs : List RunEntry
  launches : List Launch
  collected : List ℕ
  clock : ℚ

def nothingYet (clock : ℚ) : Office := ⟨[], [], [], clock⟩

def Office.tick (cfg : Settings) (w : Office) (env : Surroundings) : Office :=
  match IdleResearch.tick cfg env w.runs with
  | .raised _ | .said _ => { w with clock := env.now }
  | .finished runs =>
    { w with
      runs := saveRuns runs
      collected := w.collected ++ (w.runs.filter (ended env)).filterMap RunEntry.launch
      clock := env.now }
  | .failed entry => { w with runs := saveRuns (w.runs ++ [entry]), clock := env.now }
  | .launched entry =>
    { w with
      runs := saveRuns (w.runs ++ [{ entry with launch := some w.launches.length }])
      launches := w.launches ++ [⟨w.launches.length, entry.kind, entry.started⟩]
      clock := env.now }
  | .unnamed entry =>
    { w with launches := w.launches ++ [⟨w.launches.length, entry.kind, entry.started⟩], clock := env.now }

namespace Launch

def uncollected (collected : List ℕ) (research : Bool) (l : Launch) : Bool :=
  !collected.contains l.number && (l.kind = .research) == research

def within (start : ℚ) (l : Launch) : Bool := l.kind = .research && start ≤ l.started && l.started < start + 86400

end Launch

/-- Each launch that was not collected has its running entry. There are at most one of research and one of the others,
and no day has more research than the limit. -/
structure WithinLimits (cfg : Settings) (w : Office) : Prop where
  kept : ∀ l ∈ w.launches, l.number ∉ w.collected →
    ∃ r ∈ w.runs, r.launch = some l.number ∧ r.running = true ∧ r.kind = l.kind
  oneResearch : w.launches.countP (Launch.uncollected w.collected true) ≤ 1
  oneShort : w.launches.countP (Launch.uncollected w.collected false) ≤ 1
  daily : ∀ start, w.launches.countP (Launch.within start) ≤ cfg.daily.toNat

def Starts (cfg : Settings) (w : Office) (env : Surroundings) (entry : RunEntry) : Prop :=
  ∃ runs, collectAll env w.runs = .ok runs ∧ w.runs.any (ended env) = false ∧ plan cfg env runs = .ok (.inr entry)

/-- What is pushed off the list is needed no more: it does not run and is no research of the last day. -/
def Spare (now : ℚ) (r : RunEntry) : Prop := r.running = false ∧ ¬ (r.runId.isSome = true ∧ counted now r = true)

/-- If a run is started, its start names it, and what the full list loses is spare. -/
def Careful (cfg : Settings) (w : Office) (env : Surroundings) : Prop :=
  ∀ entry, Starts cfg w env entry → env.start ≠ .returned none ∧
    ∀ r ∈ w.runs.take (w.runs.length + 1 - keptRuns), Spare env.now r

/-- What a run of ticks keeps. The research that the limit still counts has its entries. -/
structure Booked (cfg : Settings) (w : Office) : Prop extends WithinLimits cfg w where
  short : w.runs.length ≤ keptRuns
  numbered : w.launches.map Launch.number = List.range w.launches.length
  recorded : ∀ l ∈ w.launches, l.kind = .research → w.clock - 86400 < l.started →
    ∃ r ∈ w.runs, r.launch = some l.number ∧ r.kind = .research ∧ r.started = l.started ∧ r.runId.isSome = true

theorem length_saveRuns_le (runs : List RunEntry) : (saveRuns runs).length ≤ keptRuns := by
  rw [saveRuns, List.length_drop]
  omega

theorem saveRuns_eq_self {runs : List RunEntry} (h : runs.length ≤ keptRuns) : saveRuns runs = runs := by
  rw [saveRuns, Nat.sub_eq_zero_of_le h, List.drop_zero]

theorem saveRuns_snoc (runs : List RunEntry) (entry : RunEntry) :
    saveRuns (runs ++ [entry]) = runs.drop (runs.length + 1 - keptRuns) ++ [entry] := by
  rw [saveRuns, List.length_append, List.length_singleton, List.drop_append_of_le_length (by have := one_le_keptRuns; omega)]

theorem mem_saveRuns_snoc {runs : List RunEntry} {entry r : RunEntry} (hr : r ∈ runs)
    (hkept : r ∉ runs.take (runs.length + 1 - keptRuns)) : r ∈ saveRuns (runs ++ [entry]) := by
  rw [saveRuns_snoc, List.mem_append]
  rw [← List.take_append_drop (runs.length + 1 - keptRuns) runs] at hr
  exact .inl ((List.mem_append.mp hr).resolve_left hkept)

theorem last_mem_saveRuns (runs : List RunEntry) (entry : RunEntry) : entry ∈ saveRuns (runs ++ [entry]) := by
  rw [saveRuns_snoc]
  exact List.mem_append_right _ (List.mem_singleton_self _)

theorem countP_le_of_placed {launches : List Launch} (hnodup : (launches.map Launch.number).Nodup) {runs : List RunEntry}
    {p : Launch → Bool} {q : RunEntry → Bool}
    (h : ∀ l ∈ launches, p l = true → ∃ r ∈ runs, r.launch = some l.number ∧ q r = true) :
    launches.countP p ≤ runs.countP q := by
  have hsub : (launches.filter p).map Launch.number ⊆ (runs.filter q).filterMap RunEntry.launch := by
    intro n hn
    obtain ⟨l, hl, rfl⟩ := List.mem_map.mp hn
    obtain ⟨hl, hp⟩ := List.mem_filter.mp hl
    obtain ⟨r, hr, hlaunch, hq⟩ := h l hl hp
    exact List.mem_filterMap.mpr ⟨r, List.mem_filter.mpr ⟨hr, hq⟩, hlaunch⟩
  have hnodup' : ((launches.filter p).map Launch.number).Nodup :=
    hnodup.sublist (List.filter_sublist.map Launch.number)
  have hle := (hnodup'.subperm hsub).length_le
  rw [List.length_map] at hle
  rw [List.countP_eq_length_filter, List.countP_eq_length_filter]
  exact hle.trans (List.length_filterMap_le _ _)

theorem forall₂_getElem?_left {R : RunEntry → RunEntry → Prop} (h : List.Forall₂ R runs runs')
    {i : ℕ} (hr : runs[i]? = some r) : ∃ r', runs'[i]? = some r' ∧ R r r' := by
  induction h generalizing i with
  | nil => cases hr
  | @cons a b rest rest' hab hrest ih =>
    cases i with
    | zero =>
      cases hr
      exact ⟨b, rfl, hab⟩
    | succ i => exact ih hr

/-! ## One tick -/

section Tick

variable {cfg : Settings} {w : Office} {env : Surroundings}

theorem Booked.nodup (h : Booked cfg w) : (w.launches.map Launch.number).Nodup := by
  rw [h.numbered]
  exact List.nodup_range

theorem Booked.later (h : Booked cfg w) {now : ℚ} (hclock : w.clock ≤ now) : Booked cfg { w with clock := now } :=
  { h with recorded := fun l hl hkind hrecent => h.recorded l hl hkind (by dsimp only at hrecent; linarith) }

/-- The entries that are pushed off are spare. -/
theorem Booked.append (h : Booked cfg w) {now : ℚ} (hclock : w.clock ≤ now)
    (hspare : ∀ r ∈ w.runs.take (w.runs.length + 1 - keptRuns), Spare now r) (entry : RunEntry) :
    Booked cfg { w with runs := saveRuns (w.runs ++ [entry]), clock := now } where
  kept l hl hopen := by
    obtain ⟨r, hr, hlaunch, hrunning, hkind⟩ := h.kept l hl hopen
    refine ⟨r, mem_saveRuns_snoc hr fun hlost => ?_, hlaunch, hrunning, hkind⟩
    rw [(hspare r hlost).1] at hrunning
    cases hrunning
  oneResearch := h.oneResearch
  oneShort := h.oneShort
  daily := h.daily
  short := length_saveRuns_le _
  numbered := h.numbered
  recorded l hl hkind hrecent := by
    dsimp only at hrecent
    obtain ⟨r, hr, hlaunch, hresearch, hstarted, hid⟩ := h.recorded l hl hkind (by linarith)
    refine ⟨r, mem_saveRuns_snoc hr fun hlost => (hspare r hlost).2 ⟨hid, ?_⟩, hlaunch, hresearch, hstarted, hid⟩
    have hday : now - r.started < 86400 := by
      rw [hstarted]
      linarith
    simp [counted, hday, RunEntry.short, hresearch]

theorem countP_uncollected_eq_zero (h : Booked cfg w) (research : Bool)
    (hnone : ∀ r ∈ w.runs, r.running = true → (r.kind = .research) ≠ (research = true)) :
    w.launches.countP (Launch.uncollected w.collected research) = 0 := by
  rw [List.countP_eq_zero]
  intro l hl hopen
  simp only [Launch.uncollected, Bool.and_eq_true, Bool.not_eq_true', beq_iff_eq] at hopen
  obtain ⟨r, hr, -, hrunning, hkind⟩ := h.kept l hl (by simpa using hopen.1)
  refine hnone r hr hrunning ?_
  rw [hkind, ← hopen.2, decide_eq_true_eq]

theorem countP_within_lt (h : Booked cfg w) {now start : ℚ} (hclock : w.clock ≤ now)
    (hdaily : (w.runs.countP (counted now) : ℤ) < cfg.daily) (hnow : now < start + 86400) :
    w.launches.countP (Launch.within start) < cfg.daily.toNat := by
  have hle : w.launches.countP (Launch.within start) ≤ w.runs.countP (counted now) := by
    refine countP_le_of_placed h.nodup fun l hl hwithin => ?_
    simp only [Launch.within, Bool.and_eq_true, decide_eq_true_eq] at hwithin
    obtain ⟨⟨hkind, hstart⟩, -⟩ := hwithin
    obtain ⟨r, hr, hlaunch, hresearch, hstarted, -⟩ := h.recorded l hl hkind (by linarith)
    have hday : now - r.started < 86400 := by
      rw [hstarted]
      linarith
    exact ⟨r, hr, hlaunch, by simp [counted, hday, RunEntry.short, hresearch]⟩
  omega

theorem uncollected_other {collected : List ℕ} {l : Launch} {research : Bool} (h : (l.kind = .research) ≠ (research = true)) :
    Launch.uncollected collected research l = false := by
  unfold Launch.uncollected
  rw [Bool.and_eq_false_iff]
  right
  rw [beq_eq_false_iff_ne]
  rintro rfl
  exact h (by rw [decide_eq_true_eq])

theorem countP_snoc_le {p : Launch → Bool} {launches : List Launch} (l : Launch) {n : ℕ}
    (h : launches.countP p ≤ n) (hl : p l = true → launches.countP p < n) : (launches ++ [l]).countP p ≤ n := by
  rw [List.countP_append, List.countP_singleton]
  split
  · next hp =>
    have hlt := hl hp
    omega
  · exact h

/-- The entry of a launch goes on the list. -/
theorem Booked.launch (h : Booked cfg w) (hclock : w.clock ≤ env.now)
    (hspare : ∀ r ∈ w.runs.take (w.runs.length + 1 - keptRuns), Spare env.now r)
    (hstart : MayStart cfg env w.runs entry) (runId : String) :
    Booked cfg ⟨saveRuns (w.runs ++ [{ entry with runId := some runId, launch := some w.launches.length }]),
      w.launches ++ [⟨w.launches.length, entry.kind, entry.started⟩], w.collected, env.now⟩ := by
  have hold := h.append hclock hspare { entry with runId := some runId, launch := some w.launches.length }
  have hmem := last_mem_saveRuns w.runs { entry with runId := some runId, launch := some w.launches.length }
  have hkinds (research : Bool) (hopen : Launch.uncollected w.collected research ⟨w.launches.length, entry.kind, entry.started⟩ = true) :
      w.launches.countP (Launch.uncollected w.collected research) < 1 := by
    have hkind : (entry.kind = .research) = (research = true) := by
      by_contra hne
      have hclosed := @uncollected_other w.collected ⟨w.launches.length, entry.kind, entry.started⟩ research hne
      rw [hclosed] at hopen
      cases hopen
    rw [countP_uncollected_eq_zero h research fun r hr hrunning hsame => ?_]
    · exact Nat.one_pos
    · have halone := hstart.alone
      split at halone
      · next hshort =>
        have hother := halone r hr hrunning
        rw [← hkind] at hsame
        simp only [RunEntry.short, Bool.or_eq_true, Bool.or_eq_false_iff, decide_eq_true_eq, decide_eq_false_iff_not]
          at hshort hother
        have hresearch : r.kind = .research := by
          cases hr' : r.kind with
          | research => rfl
          | compress => exact absurd hr' hother.1
          | synth => exact absurd hr' hother.2
        rw [hresearch] at hsame
        have hentry : entry.kind = .research := by rw [← hsame]
        rw [hentry] at hshort
        simp at hshort
      · rw [halone.1 r hr] at hrunning
        cases hrunning
  constructor
  · constructor
    · intro l hl hopen
      rcases List.mem_append.mp hl with hl | hl
      · exact hold.kept l hl hopen
      · rw [List.mem_singleton.mp hl]
        exact ⟨_, hmem, rfl, hstart.running, rfl⟩
    · exact countP_snoc_le _ h.oneResearch (hkinds true)
    · exact countP_snoc_le _ h.oneShort (hkinds false)
    · intro start
      refine countP_snoc_le _ (h.daily start) fun hwithin => ?_
      simp only [Launch.within, Bool.and_eq_true, decide_eq_true_eq, hstart.started] at hwithin
      obtain ⟨⟨hkind, -⟩, hnow⟩ := hwithin
      have halone := hstart.alone
      rw [if_neg (by simp [RunEntry.short, hkind])] at halone
      exact countP_within_lt h hclock halone.2 hnow
  · exact hold.short
  · rw [List.map_append, h.numbered, List.length_append, List.length_singleton, List.range_succ]
    rfl
  · intro l hl hkind hrecent
    rcases List.mem_append.mp hl with hl | hl
    · exact hold.recorded l hl hkind hrecent
    · rw [List.mem_singleton.mp hl] at hkind ⊢
      exact ⟨_, hmem, rfl, hkind, rfl, rfl⟩

/-- What is collected is marked, and the other entries stay as they are. -/
theorem Booked.finish (h : Booked cfg w) (hclock : w.clock ≤ env.now) {runs : List RunEntry}
    (hcollect : collectAll env w.runs = .ok runs) :
    Booked cfg ⟨saveRuns runs, w.launches, w.collected ++ (w.runs.filter (ended env)).filterMap RunEntry.launch, env.now⟩ := by
  have hall := collectAll_ok hcollect
  have hlength : runs.length ≤ keptRuns := by
    rw [← hall.length_eq]
    exact h.short
  have hfewer (research : Bool) :
      w.launches.countP (Launch.uncollected (w.collected ++ (w.runs.filter (ended env)).filterMap RunEntry.launch) research) ≤
        w.launches.countP (Launch.uncollected w.collected research) := by
    refine List.countP_mono_left fun l _ hopen => ?_
    simp only [Launch.uncollected, Bool.and_eq_true, Bool.not_eq_true', List.contains_eq_mem, decide_eq_false_iff_not,
      List.mem_append, not_or] at hopen ⊢
    exact ⟨hopen.1.1, hopen.2⟩
  have hfollows : ∀ r ∈ w.runs, ∃ r' ∈ runs, collectRun env r = .ok r' := by
    intro r hr
    obtain ⟨i, hi⟩ := List.mem_iff_getElem?.mp hr
    obtain ⟨r', hr', hcollected⟩ := forall₂_getElem?_left hall hi
    exact ⟨r', List.mem_of_getElem? hr', hcollected⟩
  rw [saveRuns_eq_self hlength]
  constructor
  · constructor
    · intro l hl hopen
      rw [List.mem_append, not_or] at hopen
      obtain ⟨r, hr, hlaunch, hrunning, hkind⟩ := h.kept l hl hopen.1
      obtain ⟨r', hr', hcollected⟩ := hfollows r hr
      rcases collectRun_cases hcollected with ⟨rfl, -⟩ | ⟨-, -, -, -, hended⟩
      · exact ⟨r', hr', hlaunch, hrunning, hkind⟩
      · exact absurd (List.mem_filterMap.mpr ⟨r, List.mem_filter.mpr ⟨hr, hended⟩, hlaunch⟩) hopen.2
    · exact (hfewer true).trans h.oneResearch
    · exact (hfewer false).trans h.oneShort
    · exact h.daily
  · exact hlength
  · exact h.numbered
  · intro l hl hkind hrecent
    dsimp only at hrecent
    obtain ⟨r, hr, hlaunch, hresearch, hstarted, hid⟩ := h.recorded l hl hkind (by linarith)
    obtain ⟨r', hr', hcollected⟩ := hfollows r hr
    rcases collectRun_cases hcollected with ⟨rfl, -⟩ | ⟨status, rfl, -⟩
    · exact ⟨r', hr', hlaunch, hresearch, hstarted, hid⟩
    · exact ⟨_, hr', hlaunch, hresearch, hstarted, hid⟩

theorem Booked.tick (h : Booked cfg w) (hclock : w.clock ≤ env.now) (hcareful : Careful cfg w env) :
    Booked cfg (w.tick cfg env) := by
  have hlater := h.later hclock
  unfold Office.tick IdleResearch.tick
  cases hcollect : collectAll env w.runs with
  | error e => exact hlater
  | ok runs =>
    dsimp only
    cases hany : w.runs.any (ended env) with
    | true => exact h.finish hclock hcollect
    | false =>
      have hsame := collectAll_eq_self hcollect hany
      rw [if_neg Bool.false_ne_true]
      cases hplan : plan cfg env runs with
      | error e => exact hlater
      | ok answer =>
        cases answer with
        | inl word => exact hlater
        | inr entry =>
          obtain ⟨hnamed, hspare⟩ := hcareful entry ⟨runs, hcollect, hany, hplan⟩
          have hstart := plan_start hplan
          rw [hsame] at hstart
          dsimp only
          cases hanswer : env.start with
          | raised => exact h.append hclock hspare _
          | returned runId =>
            cases runId with
            | none => exact absurd hanswer hnamed
            | some runId => exact h.launch hclock hspare hstart runId

end Tick

theorem booked_nothingYet (cfg : Settings) (clock : ℚ) : Booked cfg (nothingYet clock) where
  kept _ hl := absurd hl List.not_mem_nil
  oneResearch := Nat.zero_le _
  oneShort := Nat.zero_le _
  daily _ := Nat.zero_le _
  short := Nat.zero_le _
  numbered := rfl
  recorded _ hl := absurd hl List.not_mem_nil

theorem clock_tick (cfg : Settings) (w : Office) (env : Surroundings) : (w.tick cfg env).clock = env.now := by
  unfold Office.tick
  split <;> rfl

/-- The clock does not go back. -/
def InOrder (clock : ℚ) (ticks : List Surroundings) : Prop := (clock :: ticks.map Surroundings.now).Pairwise (· ≤ ·)

theorem everyStep_clock (cfg : Settings) {w : Office} {ticks : List Surroundings} (h : InOrder w.clock ticks) :
    EveryStep (Office.tick cfg) (fun w env => w.clock ≤ env.now) w ticks := by
  induction ticks generalizing w with
  | nil => exact everyStep_nil
  | cons env ticks ih =>
    obtain ⟨hfirst, hrest⟩ := List.pairwise_cons.mp h
    refine everyStep_cons.mpr ⟨hfirst _ List.mem_cons_self, ih ?_⟩
    rw [clock_tick]
    exact hrest

/-- Ticks one after the other, each careful, stay within the limits. -/
theorem limits_kept (cfg : Settings) (clock : ℚ) {ticks : List Surroundings} (hordered : InOrder clock ticks)
    (h : EveryStep (Office.tick cfg) (Careful cfg) (nothingYet clock) ticks) :
    ∀ before after, ticks = before ++ after → WithinLimits cfg (run (Office.tick cfg) (nothingYet clock) before) := by
  have hboth : EveryStep (Office.tick cfg) (fun w env => w.clock ≤ env.now ∧ Careful cfg w env) (nothingYet clock) ticks :=
    fun before env after hsplit => ⟨everyStep_clock cfg hordered before env after hsplit, h before env after hsplit⟩
  rintro before after rfl
  have hbooked := invariant_of_everyStep (I := Booked cfg) (fun w env hw hstep => hw.tick hstep.1 hstep.2)
    (booked_nothingYet cfg clock) (everyStep_append_left hboth)
  exact hbooked.toWithinLimits

/-! ## A list that overflows -/

def threeADay : Settings := ⟨600, 3⟩

def quiet (now : ℚ) : Surroundings :=
  { now := now, idle := some 1000, read := fun _ => .info ⟨some "RUNNING", ""⟩, filed := fun _ => .stored
    shortOk := true, researchOk := true, paused := false, ideasFirst := .ok none, ideas := .ok none
    itemThere := fun _ => .ok true, ideaThere := fun _ => .ok true, topics := .ok [], start := .raised }

def topicTick (now : ℚ) (runId : String) : Surroundings :=
  { quiet now with topics := .ok [⟨"R-261030-0a1b", true, none, 0, none⟩], start := .returned (some runId) }

def rushTick (now : ℚ) : Surroundings :=
  { quiet now with ideasFirst := .ok (some ⟨fun _ => some now, [⟨"M1", "I1"⟩], [], fun _ => none⟩) }

theorem careful_of_room {cfg : Settings} {w : Office} {env : Surroundings} (hroom : w.runs.length < keptRuns)
    (hnamed : env.start ≠ .returned none) : Careful cfg w env := by
  intro entry _
  refine ⟨hnamed, fun r hr => ?_⟩
  rw [Nat.sub_eq_zero_of_le hroom, List.take_zero] at hr
  cases hr

/-- A topic is started, runs on at the next tick, and is lost to the reader at the third. -/
def shortRun : List Surroundings := [topicTick 0 "a", quiet 60, { quiet 120 with read := fun _ => .lost }]

theorem limits_kept_short : WithinLimits threeADay (run (Office.tick threeADay) (nothingYet 0) shortRun) := by
  have hcareful : EveryStep (Office.tick threeADay) (Careful threeADay) (nothingYet 0) shortRun := by
    refine everyStep_cons.mpr ⟨careful_of_room ?_ nofun, everyStep_cons.mpr ⟨careful_of_room ?_ nofun,
      everyStep_cons.mpr ⟨careful_of_room ?_ nofun, everyStep_nil⟩⟩⟩
    · decide +kernel
    · decide +kernel
    · decide +kernel
  exact limits_kept threeADay 0 (by unfold InOrder; decide +kernel) hcareful shortRun [] (List.append_nil _).symm

def firstRun : RunEntry :=
  { kind := .research, topicId := some "R-261030-0a1b", ideaId := none, item := none, sigs := [], started := 0
    status := "RUNNING", runId := some "a", launch := some 0 }

def rushedRun (now : ℚ) : RunEntry := { compressEntry ⟨"M1", "I1"⟩ now with status := "FAILED" }

theorem collectRun_rushTick (now : ℚ) (h : r = firstRun ∨ ∃ t, r = rushedRun t) : collectRun (rushTick now) r = .ok r := by
  rcases h with rfl | ⟨t, rfl⟩
  · simp [collectRun, firstRun, RunEntry.running, rushTick, quiet]
  · simp [collectRun, rushedRun, compressEntry, RunEntry.running]

theorem collectAll_of_unchanged {env : Surroundings} {runs : List RunEntry} (h : ∀ r ∈ runs, collectRun env r = .ok r) :
    collectAll env runs = .ok runs ∧ runs.any (ended env) = false := by
  induction runs with
  | nil => exact ⟨rfl, rfl⟩
  | cons r rest ih =>
    rw [List.forall_mem_cons] at h
    obtain ⟨hall, hnone⟩ := ih h.2
    have hended : ended env r = false := by
      rw [ended, h.1]
      exact Bool.and_not_self _
    exact ⟨by rw [collectAll, h.1, hall]; rfl, by rw [List.any_cons, hended, hnone]; rfl⟩

theorem nextCompress_rushed {now : ℚ} {runs : List RunEntry} (h : ∀ r ∈ runs, r = firstRun ∨ ∃ t < now, r = rushedRun t) :
    nextCompress (some ⟨fun _ => some now, [⟨"M1", "I1"⟩], [], fun _ => none⟩) runs now true = some ⟨"M1", "I1"⟩ := by
  have hnone : (runs.filter fun r => r.kind = .compress && r.item = some "M1").any (fun r => decide (now ≤ r.started)) = false := by
    rw [List.any_eq_false]
    intro r hr
    obtain ⟨hr, hcompress⟩ := List.mem_filter.mp hr
    rcases h r hr with rfl | ⟨t, ht, rfl⟩
    · cases hcompress
    · rw [decide_eq_true_eq]
      exact not_le.mpr ht
  unfold nextCompress
  simp only [List.mergeSort_singleton, List.find?_singleton, Option.any_some, hnone]
  rfl

theorem tick_rushTick {cfg : Settings} {now : ℚ} {runs : List RunEntry}
    (h : ∀ r ∈ runs, r = firstRun ∨ ∃ t < now, r = rushedRun t) :
    IdleResearch.tick cfg (rushTick now) runs = .failed (rushedRun now) := by
  obtain ⟨hcollect, hnone⟩ := @collectAll_of_unchanged (rushTick now) runs fun r hr =>
    collectRun_rushTick now ((h r hr).imp_right fun ⟨t, _, heq⟩ => ⟨t, heq⟩)
  have hshort : (runs.filter RunEntry.running).any RunEntry.short = false := by
    rw [List.any_eq_false]
    intro r hr
    obtain ⟨hr, hrunning⟩ := List.mem_filter.mp hr
    rcases h r hr with rfl | ⟨t, -, rfl⟩
    · decide
    · cases hrunning
  have hplan : plan cfg (rushTick now) runs = .ok (.inr (compressEntry ⟨"M1", "I1"⟩ now)) := by
    have hitem : rushedItem (rushTick now) runs = .ok (some ⟨"M1", "I1"⟩) := by
      rw [rushedItem, if_neg (by rw [hshort]; decide)]
      exact congrArg Except.ok (nextCompress_rushed h)
    rw [plan, hitem]
    rfl
  unfold IdleResearch.tick
  rw [hcollect]
  dsimp only
  rw [hnone, if_neg Bool.false_ne_true, hplan]
  rfl

def rushes (n : ℕ) : List RunEntry := (List.range n).map fun i : ℕ => rushedRun (i + 1)

def overflow (n : ℕ) : List Surroundings := topicTick 0 "a" :: (List.range n).map fun i : ℕ => rushTick (i + 1)

theorem overflow_succ (n : ℕ) : overflow (n + 1) = overflow n ++ [rushTick (n + 1)] := by
  rw [overflow, overflow, List.range_succ, List.map_append, List.cons_append]
  rfl

theorem rushes_cases {n : ℕ} : ∀ r ∈ firstRun :: rushes n, r = firstRun ∨ ∃ t < (n + 1 : ℚ), r = rushedRun t := by
  intro r hr
  rcases List.mem_cons.mp hr with rfl | hr
  · exact .inl rfl
  · obtain ⟨i, hi, rfl⟩ := List.mem_map.mp hr
    have hlt : (i : ℚ) < n := by exact_mod_cast List.mem_range.mp hi
    exact .inr ⟨i + 1, by linarith, rfl⟩

theorem rushes_succ (n : ℕ) : rushes (n + 1) = rushes n ++ [rushedRun (n + 1)] := by
  rw [rushes, rushes, List.range_succ, List.map_append]
  rfl

theorem tick_topicTick : IdleResearch.tick threeADay (topicTick 0 "a") [] = .launched { firstRun with launch := none } := by
  rfl

theorem length_rushes (n : ℕ) : (rushes n).length = n := by rw [rushes, List.length_map, List.length_range]

/-- The list fills up behind the research that runs. -/
theorem run_overflow {n : ℕ} (hn : n < keptRuns) : run (Office.tick threeADay) (nothingYet 0) (overflow n) =
    ⟨firstRun :: rushes n, [⟨0, .research, 0⟩], [], n⟩ := by
  induction n with
  | zero =>
    have htick : IdleResearch.tick threeADay (topicTick 0 "a") (nothingYet 0).runs = .launched { firstRun with launch := none } :=
      tick_topicTick
    have hkept : saveRuns [firstRun] = [firstRun] := saveRuns_eq_self one_le_keptRuns
    change (nothingYet 0).tick threeADay (topicTick 0 "a") = _
    rw [Office.tick, htick]
    change Office.mk (saveRuns [firstRun]) _ _ _ = _
    rw [hkept, Nat.cast_zero]
    rfl
  | succ n ih =>
    rw [overflow_succ, run_append, ih (by omega), run_cons, run_nil, Office.tick, tick_rushTick rushes_cases]
    have hkept : saveRuns (firstRun :: rushes n ++ [rushedRun (n + 1)]) = firstRun :: rushes (n + 1) := by
      rw [rushes_succ, saveRuns_eq_self, List.cons_append]
      rw [List.length_append, List.length_cons, length_rushes, List.length_singleton]
      omega
    dsimp only
    rw [hkept, Nat.cast_succ]
    rfl

theorem inOrder_overflow (n : ℕ) : InOrder 0 (overflow n) := by
  have hrushes : ((List.range n).map fun i : ℕ => ((i : ℚ) + 1)).Pairwise (· ≤ ·) := by
    rw [List.pairwise_map]
    refine List.pairwise_lt_range.imp fun {i j} hlt => ?_
    have hcast : (i : ℚ) < j := by exact_mod_cast hlt
    linarith
  have hzero : ∀ t ∈ (List.range n).map fun i : ℕ => ((i : ℚ) + 1), 0 ≤ t := by
    intro t ht
    obtain ⟨i, -, rfl⟩ := List.mem_map.mp ht
    positivity
  have htimes : (overflow n).map Surroundings.now = 0 :: (List.range n).map fun i : ℕ => ((i : ℚ) + 1) := by
    rw [overflow, List.map_cons, List.map_map]
    rfl
  rw [InOrder, htimes]
  exact List.pairwise_cons.mpr ⟨List.forall_mem_cons.mpr ⟨le_refl _, hzero⟩, List.pairwise_cons.mpr ⟨hzero, hrushes⟩⟩

/-- At the 300th rush the research that still runs is pushed off the list. -/
theorem running_lost : InOrder 0 (overflow keptRuns) ∧
    ¬ WithinLimits threeADay (run (Office.tick threeADay) (nothingYet 0) (overflow keptRuns)) := by
  refine ⟨inOrder_overflow keptRuns, fun hlimits => ?_⟩
  obtain ⟨m, hm⟩ := Nat.exists_eq_add_of_le' one_le_keptRuns
  have hlost : saveRuns (firstRun :: rushes m ++ [rushedRun (m + 1)]) = rushes m ++ [rushedRun (m + 1)] := by
    have hone : (firstRun :: rushes m).length + 1 - keptRuns = 1 := by
      rw [List.length_cons, length_rushes]
      omega
    rw [saveRuns_snoc, hone]
    rfl
  have hrun : run (Office.tick threeADay) (nothingYet 0) (overflow keptRuns) =
      ⟨rushes m ++ [rushedRun (m + 1)], [⟨0, .research, 0⟩], [], m + 1⟩ := by
    rw [hm, overflow_succ, run_append, run_overflow (by omega), run_cons, run_nil, Office.tick, tick_rushTick rushes_cases]
    dsimp only
    rw [hlost]
    rfl
  rw [hrun] at hlimits
  obtain ⟨r, hr, -, hrunning, -⟩ := hlimits.kept _ (List.mem_singleton_self _) List.not_mem_nil
  rcases List.mem_append.mp hr with hr | hr
  · obtain ⟨i, -, rfl⟩ := List.mem_map.mp hr
    cases hrunning
  · rw [List.mem_singleton.mp hr] at hrunning
    cases hrunning

end AllTomorrow.IdleResearch
