import Mathlib.Data.List.Induction
import Mathlib.Data.List.MinMax
import Mathlib.Data.Rat.Floor
import Mathlib.Data.String.Basic
import AllTomorrow.DomainRecords
import AllTomorrow.MachineRuns
import AllTomorrow.TimestampOrder

/-!
# The budget of model calls

`wake` of `overseer/metacog.py`: which wakes call a model, as far as the table of wakes and the settings
decide it.
-/

namespace AllTomorrow.Metacog

open IsoTimestamps MachineRuns

/-! ## Settings -/

/-- What `float(text)` can return. -/
inductive PyFloat where
  | nan | negInf | posInf
  | finite (value : ℚ)

structure WakeConfig where
  minInterval : WithTop ℚ
  dailyLimit : ℕ
  minInterval_nonneg : 0 ≤ minInterval

/-- A number that is not negative, or the default. The text is not there, is empty, or is not read as a number. -/
def number (value : Option PyFloat) (default : ℚ) : WithTop ℚ :=
  match value with
  | some .posInf => ⊤
  | some (.finite q) => if 0 ≤ q then q else default
  | _ => default

theorem number_nonneg (value : Option PyFloat) {default : ℚ} (h : 0 ≤ default) : 0 ≤ number value default := by
  have hdefault : (0 : WithTop ℚ) ≤ default := WithTop.coe_le_coe.mpr h
  unfold number
  split
  · exact le_top
  · split
    · next q hq => exact WithTop.coe_le_coe.mpr hq
    · exact hdefault
  · exact hdefault

theorem minutes_nonneg {value : WithTop ℚ} (h : 0 ≤ value) : 0 ≤ value.map (· * 60) := by
  cases value with
  | top => exact le_top
  | coe q => exact WithTop.coe_le_coe.mpr (mul_nonneg (WithTop.coe_le_coe.mp h) (by norm_num))

theorem thirty_nonneg : (0 : ℚ) ≤ 30 := by norm_num

/-- `settings`, from the values of the two variables. -/
def settings (minIntervalMinutes dailyLimit : Option PyFloat) : Except Exn WakeConfig :=
  match number dailyLimit 24 with
  | ⊤ => .error (.foreign "OverflowError" "cannot convert float infinity to integer")
  | (limit : ℚ) => .ok
    { minInterval := (number minIntervalMinutes 30).map (· * 60)
      dailyLimit := ⌊limit⌋.toNat
      minInterval_nonneg := minutes_nonneg (number_nonneg minIntervalMinutes thirty_nonneg) }

/-! ## Wakes -/

inductive WakeStatus where
  | done | skipped | failed
  deriving DecidableEq

/-- A row of `metacog_wakes`. The text of `at` is the isoformat of a timestamp in UTC. -/
structure WakeRow where
  wakeId : String
  at_ : UtcTimestamp
  status : WakeStatus
  reason : String

def WakeRow.called (row : WakeRow) : Bool := row.status = .done || row.status = .failed

def callsSince (rows : List WakeRow) (dayAgo : String) : List String :=
  (rows.filter fun row => row.called && decide (dayAgo < row.at_.isoformat)).map (·.at_.isoformat)

/-- `int(seconds // 60)` -/
def wholeMinutes : WithTop ℚ → Except Exn ℤ
  | ⊤ => .error (.valueError "cannot convert float NaN to integer")
  | (seconds : ℚ) => .ok ⌊seconds / 60⌋

@[simp] theorem wholeMinutes_coe (seconds : ℚ) : wholeMinutes seconds = .ok ⌊seconds / 60⌋ := rfl

/-- `(now - datetime.fromisoformat(text)).total_seconds()` -/
def secondsSince (now : UtcTimestamp) (text : String) : Except Exn ℚ :=
  match Timestamp.fromisoformat text with
  | none => .error (.foreign "ValueError" ("Invalid isoformat string: '" ++ text ++ "'"))
  | some t =>
    match t.offset with
    | none => .error (.foreign "TypeError" "can't subtract offset-naive and offset-aware datetimes")
    | some offset => .ok ((now.micros - ((t.micros : ℚ) - offset.micros)) / 1000000)

def budgetBlock (rows : List WakeRow) (now : UtcTimestamp) (config : WakeConfig) : Except Exn String :=
  match now.yesterday with
  | none => .error (.foreign "OverflowError" "date value out of range")
  | some dayAgo =>
    let calls := callsSince rows dayAgo.isoformat
    if config.dailyLimit ≤ 0 ∨ config.dailyLimit ≤ calls.length then
      .ok s!"24시간 모델 호출 상한 {config.dailyLimit}회 도달"
    else
      match calls.max? with
      | none => .ok ""
      | some last => do
        let gap ← secondsSince now last
        if (gap : WithTop ℚ) < config.minInterval then do
          let least ← wholeMinutes config.minInterval
          let since ← wholeMinutes gap
          return s!"최소 간격 {least}분 미만(직전 호출 {since}분 전)"
        else return ""

inductive Attempt where
  | waiting
  | raised
  | answered
  /-- an exception that ends the chain, of a file that cannot be written -/
  | broken (exception : String)

inductive Reasoning where
  /-- an exception before any judge is asked, as of an unsupported reasoner -/
  | unasked (exception : String)
  | custom (exception : Option String)
  | chain (attempts : List Attempt)

/-- The loop over `_chain`. -/
def askChain (attempted : Bool) : List Attempt → WakeStatus × String
  | [] => if attempted then (.failed, "RuntimeError") else (.skipped, "모든 판단자가 쿼터 초기화 대기 중")
  | .waiting :: rest => askChain attempted rest
  | .raised :: rest => askChain true rest
  | .answered :: _ => (.done, "")
  | .broken exception :: _ => (.failed, exception)

def Reasoning.outcome : Reasoning → WakeStatus × String
  | .unasked exception => (.failed, exception)
  | .custom none => (.done, "")
  | .custom (some exception) => (.failed, exception)
  | .chain attempts => askChain false attempts

/-- A call of `wake`, with what is around it. -/
structure WakeCall where
  now : UtcTimestamp
  wakeId : String
  force : Bool
  unread : Option Exn
  nothingNew : Bool
  /-- what is raised once a model is to be called and before it is asked -/
  unprepared : Option Exn
  reasoning : Reasoning
  /-- what the notes or the held actions raise after an answer -/
  unwritten : Option Exn

def record (rows : List WakeRow) (call : WakeCall) (status : WakeStatus) (reason : String) : Except Exn (List WakeRow) :=
  if rows.any fun row => row.wakeId == call.wakeId then
    .error (.foreign "IntegrityError" "UNIQUE constraint failed: metacog_wakes.wake_id")
  else .ok (rows ++ [⟨call.wakeId, call.now, status, reason⟩])

/-- The part of `wake` that may call a model. -/
def judge (rows : List WakeRow) (call : WakeCall) : Except Exn (List WakeRow) :=
  match call.unprepared, call.reasoning.outcome with
  | some e, _ => .error e
  | none, (.done, reason) =>
    match call.unwritten with
    | some e => .error e
    | none => record rows call .done reason
  | none, (status, reason) => record rows call status reason

def wake (config : WakeConfig) (rows : List WakeRow) (call : WakeCall) : Except Exn (List WakeRow) :=
  match call.unread with
  | some e => .error e
  | none =>
    if call.force then judge rows call
    else if call.nothingNew then record rows call .skipped "변화 없음: 세션·카드·작업 결과·보고 답장·사용자 방향 모두 그대로"
    else
      match budgetBlock rows call.now config with
      | .error e => .error e
      | .ok blocked => if blocked ≠ "" then record rows call .skipped blocked else judge rows call

def wakes (config : WakeConfig) (rows : List WakeRow) (call : WakeCall) : List WakeRow :=
  (wake config rows call).toOption.getD rows

/-! ## What a call adds -/

theorem record_cases (rows : List WakeRow) (call : WakeCall) (status : WakeStatus) (reason : String) :
    (∃ e, record rows call status reason = .error e) ∨
      record rows call status reason = .ok (rows ++ [⟨call.wakeId, call.now, status, reason⟩]) := by
  unfold record
  split
  · exact .inl ⟨_, rfl⟩
  · exact .inr rfl

theorem judge_cases (rows : List WakeRow) (call : WakeCall) :
    (∃ e, judge rows call = .error e) ∨ ∃ row : WakeRow, row.at_ = call.now ∧ judge rows call = .ok (rows ++ [row]) := by
  have hrecord (status : WakeStatus) (reason : String) : (∃ e, record rows call status reason = .error e) ∨
      ∃ row : WakeRow, row.at_ = call.now ∧ record rows call status reason = .ok (rows ++ [row]) := by
    rcases record_cases rows call status reason with herror | hok
    · exact .inl herror
    · exact .inr ⟨_, rfl, hok⟩
  unfold judge
  split
  · exact .inl ⟨_, rfl⟩
  · split
    · exact .inl ⟨_, rfl⟩
    · exact hrecord .done _
  · exact hrecord _ _

/-- A call that is not forced leaves the rows as they are or adds one of its own time, and that one is not of a model
call where the budget blocks it. -/
theorem wakes_cases (config : WakeConfig) (rows : List WakeRow) {call : WakeCall} (hforce : call.force = false) :
    wakes config rows call = rows ∨ ∃ row : WakeRow, row.at_ = call.now ∧ wakes config rows call = rows ++ [row] ∧
      (row.called = true → budgetBlock rows call.now config = .ok "") := by
  have hskip (reason : String) (hwake : wake config rows call = record rows call .skipped reason) :
      wakes config rows call = rows ∨ ∃ row : WakeRow, row.at_ = call.now ∧ wakes config rows call = rows ++ [row] ∧
        (row.called = true → budgetBlock rows call.now config = .ok "") := by
    unfold wakes
    rw [hwake]
    rcases record_cases rows call .skipped reason with ⟨e, herror⟩ | hok
    · exact .inl (by rw [herror]; rfl)
    · exact .inr ⟨_, rfl, by rw [hok]; rfl, fun hcalled => by cases hcalled⟩
  cases hunread : call.unread with
  | some e => exact .inl (by simp [wakes, wake, hunread, Except.toOption])
  | none =>
    cases hnew : call.nothingNew with
    | true =>
      refine hskip "변화 없음: 세션·카드·작업 결과·보고 답장·사용자 방향 모두 그대로" ?_
      simp [wake, hunread, hforce, hnew]
    | false =>
      cases hblock : budgetBlock rows call.now config with
      | error e =>
        exact .inl (by simp [wakes, wake, hunread, hforce, hnew, hblock, Except.toOption])
      | ok blocked =>
        by_cases hclear : blocked = ""
        · have hwake : wake config rows call = judge rows call := by
            simp [wake, hunread, hforce, hnew, hblock, hclear]
          unfold wakes
          rw [hwake]
          rcases judge_cases rows call with ⟨e, herror⟩ | ⟨row, hrow, hok⟩
          · exact .inl (by rw [herror]; rfl)
          · exact .inr ⟨row, hrow, by rw [hok]; rfl, fun _ => by rw [hclear]⟩
        · rw [← hblock]
          exact hskip blocked (by simp [wake, hunread, hforce, hnew, hblock, hclear])

def secondsBetween (t now : UtcTimestamp) : ℚ := ((now.micros : ℚ) - t.micros) / 1000000

theorem secondsSince_isoformat (now t : UtcTimestamp) : secondsSince now t.isoformat = .ok (secondsBetween t now) := by
  unfold secondsSince
  rw [t.fromisoformat_isoformat]
  dsimp only
  rw [t.2]
  dsimp only
  rw [micros_utc, Int.cast_zero, sub_zero]
  rfl

theorem mem_callsSince {rows : List WakeRow} {dayAgo text : String} : text ∈ callsSince rows dayAgo ↔
      ∃ row ∈ rows, row.called = true ∧ dayAgo < row.at_.isoformat ∧ row.at_.isoformat = text := by
  simp [callsSince, and_assoc]

/-- What the budget lets through: there are fewer calls in the last day than the limit, and each of them is the least
interval away. -/
theorem budgetBlock_clear {rows : List WakeRow} {now : UtcTimestamp} {config : WakeConfig}
    (h : budgetBlock rows now config = .ok "") : ∃ dayAgo, now.yesterday = some dayAgo ∧
      (callsSince rows dayAgo.isoformat).length < config.dailyLimit ∧
        ∀ row ∈ rows, row.called = true → dayAgo.micros < row.at_.micros →
          config.minInterval ≤ secondsBetween row.at_ now := by
  unfold budgetBlock at h
  split at h
  · cases h
  · next dayAgo hday =>
    dsimp only at h
    split at h
    · simp at h
    · next hlimit =>
      refine ⟨dayAgo, hday, by omega, fun row hrow hcalled hrecent => ?_⟩
      have hmem : row.at_.isoformat ∈ callsSince rows dayAgo.isoformat :=
        mem_callsSince.mpr ⟨row, hrow, hcalled, (dayAgo.isoformat_lt_iff _).mpr hrecent, rfl⟩
      split at h
      · next hnone =>
        rw [List.max?_eq_none_iff] at hnone
        rw [hnone] at hmem
        cases hmem
      · next last hlast =>
        obtain ⟨hin, hmax⟩ := List.max?_eq_some_iff.mp hlast
        obtain ⟨row', -, -, -, rfl⟩ := mem_callsSince.mp hin
        rw [secondsSince_isoformat] at h
        have hle : row.at_.micros ≤ row'.at_.micros := by
          have htexts := hmax _ hmem
          rw [← not_lt, UtcTimestamp.isoformat_lt_iff] at htexts
          exact not_lt.mp htexts
        have hcast : (row.at_.micros : ℚ) ≤ row'.at_.micros := by exact_mod_cast hle
        -- the last call is far enough away, and the others are further
        have hgap : ¬ (secondsBetween row'.at_ now : WithTop ℚ) < config.minInterval := by
          intro hlt
          simp only [bind, Except.bind, if_pos hlt] at h
          cases hleast : wholeMinutes config.minInterval with
          | error e =>
            rw [hleast] at h
            cases h
          | ok least =>
            rw [hleast] at h
            simp only [wholeMinutes_coe, pure, Except.pure, Except.ok.injEq, String.append_eq_empty_iff] at h
            exact absurd h.2 (by decide)
        refine (not_lt.mp hgap).trans (WithTop.coe_le_coe.mpr ?_)
        unfold secondsBetween
        gcongr

/-! ## Runs -/

/-- No call is forced, and the clock does not go back. -/
structure Unforced (calls : List WakeCall) : Prop where
  notForced : ∀ call ∈ calls, call.force = false
  ordered : calls.Pairwise fun call later => call.now.micros ≤ later.now.micros

variable {calls : List WakeCall}

theorem unforced_snoc {call : WakeCall} (h : Unforced (calls ++ [call])) :
    Unforced calls ∧ call.force = false ∧ ∀ earlier ∈ calls, earlier.now.micros ≤ call.now.micros := by
  obtain ⟨hcalls, -, hlast⟩ := List.pairwise_append.mp h.ordered
  refine ⟨⟨fun c hc => h.notForced c (List.mem_append_left _ hc), hcalls⟩, ?_, fun c hc => hlast c hc call (by simp)⟩
  exact h.notForced call (by simp)

def calledIn (start : ℕ) (row : WakeRow) : Bool :=
  row.called && decide (start ≤ row.at_.micros ∧ row.at_.micros < start + 86400 * 1000000)

/-- Every window of 24 hours has at most as many model calls as the limit. -/
def Within (limit : ℕ) (rows : List WakeRow) : Prop := ∀ start, rows.countP (calledIn start) ≤ limit

/-- Calls of the model are at least so many seconds apart. -/
def Spaced (least : WithTop ℚ) (rows : List WakeRow) : Prop :=
  rows.Pairwise fun row later => row.called = true → later.called = true → least ≤ |secondsBetween row.at_ later.at_|

section Call

variable {config : WakeConfig} {rows : List WakeRow} {call : WakeCall}

/-- The calls of a window that the new one is in are among those of the last day. -/
theorem within_wakes (hforce : call.force = false) (h : Within config.dailyLimit rows) :
    Within config.dailyLimit (wakes config rows call) := by
  rcases wakes_cases config rows hforce with hsame | ⟨row, hrow, hadd, hclear⟩
  · rwa [hsame]
  · rw [hadd]
    intro start
    rw [List.countP_append, List.countP_singleton]
    split
    · next hin =>
      obtain ⟨hcalled, hwindow⟩ := Bool.and_eq_true_iff.mp hin
      obtain ⟨hstart, hend⟩ := of_decide_eq_true hwindow
      obtain ⟨dayAgo, hday, hfew, -⟩ := budgetBlock_clear (hclear hcalled)
      have hmicros := UtcTimestamp.micros_yesterday hday
      rw [hrow] at hstart hend
      have hle : rows.countP (calledIn start) ≤ (callsSince rows dayAgo.isoformat).length := by
        rw [callsSince, List.length_map, ← List.countP_eq_length_filter]
        refine List.countP_mono_left fun row' _ hin' => ?_
        obtain ⟨hcalled', hwindow'⟩ := Bool.and_eq_true_iff.mp hin'
        have hstart' := (of_decide_eq_true hwindow').1
        have hrecent : dayAgo.isoformat < row'.at_.isoformat := (dayAgo.isoformat_lt_iff _).mpr (by omega)
        rw [hcalled', Bool.true_and]
        exact decide_eq_true hrecent
      omega
    · exact h start

theorem secondsBetween_yesterday {now dayAgo t : UtcTimestamp} (h : now.yesterday = some dayAgo)
    (hle : t.micros ≤ dayAgo.micros) : 86400 ≤ secondsBetween t now := by
  have hmicros : ((dayAgo.micros + 86400 * 1000000 : ℕ) : ℚ) = now.micros := by rw [UtcTimestamp.micros_yesterday h]
  have hcast : (t.micros : ℚ) ≤ dayAgo.micros := by exact_mod_cast hle
  push_cast at hmicros
  unfold secondsBetween
  rw [le_div_iff₀ (by norm_num)]
  linarith

theorem spaced_wakes (hconfig : config.minInterval ≤ (86400 : ℚ) ∨ config.dailyLimit = 0) (hforce : call.force = false)
    (h : Spaced config.minInterval rows) : Spaced config.minInterval (wakes config rows call) := by
  rcases wakes_cases config rows hforce with hsame | ⟨row, hrow, hadd, hclear⟩
  · rwa [hsame]
  · rw [hadd]
    refine List.pairwise_append.mpr ⟨h, List.pairwise_singleton _ _, fun row' hrow' later hlater => ?_⟩
    rw [List.mem_singleton.mp hlater, hrow]
    intro hcalled' hcalled
    obtain ⟨dayAgo, hday, hfew, hfar⟩ := budgetBlock_clear (hclear hcalled)
    have habs := WithTop.coe_le_coe.mpr (le_abs_self (secondsBetween row'.at_ call.now))
    by_cases hrecent : dayAgo.micros < row'.at_.micros
    · exact (hfar row' hrow' hcalled' hrecent).trans habs
    · -- it is not looked at, but is a day away
      have hinterval : config.minInterval ≤ (86400 : ℚ) := by
        rcases hconfig with hinterval | hzero
        · exact hinterval
        · omega
      have hfar' := WithTop.coe_le_coe.mpr (secondsBetween_yesterday hday (not_lt.mp hrecent))
      exact (hinterval.trans hfar').trans habs

end Call

theorem within_run {config : WakeConfig} (h : Unforced calls) : Within config.dailyLimit (run (wakes config) [] calls) := by
  induction calls using List.reverseRecOn with
  | nil => exact fun start => Nat.zero_le _
  | append_singleton calls call ih =>
    obtain ⟨hcalls, hforce, -⟩ := unforced_snoc h
    rw [run_append, run_cons, run_nil]
    exact within_wakes hforce (ih hcalls)

theorem spaced_run {config : WakeConfig} (hconfig : config.minInterval ≤ (86400 : ℚ) ∨ config.dailyLimit = 0) (h : Unforced calls) : Spaced config.minInterval (run (wakes config) [] calls) := by
  induction calls using List.reverseRecOn with
  | nil => exact List.Pairwise.nil
  | append_singleton calls call ih =>
    obtain ⟨hcalls, hforce, -⟩ := unforced_snoc h
    rw [run_append, run_cons, run_nil]
    exact spaced_wakes hconfig hforce (ih hcalls)

def noon (day : ℕ) (hday : 1 ≤ day ∧ day ≤ 31) : UtcTimestamp :=
  ⟨{ year := 2026, month := 10, day := day, hour := 12, minute := 0, second := 0, microsecond := 0, offset := some utc
     year_bounds := by decide, month_bounds := by decide, day_bounds := hday, clock_bounds := by decide }, rfl⟩

theorem one_in_month : 1 ≤ 1 ∧ 1 ≤ 31 := by decide

theorem two_in_month : 1 ≤ 2 ∧ 2 ≤ 31 := by decide

def answered (now : UtcTimestamp) (wakeId : String) : WakeCall :=
  ⟨now, wakeId, false, none, false, none, .custom none, none⟩

def dayApart : List WakeCall := [answered (noon 1 one_in_month) "a", answered (noon 2 two_in_month) "b"]

theorem unforced_dayApart : Unforced dayApart where
  notForced := by decide
  ordered := by decide +kernel

theorem yesterday_noon : (noon 2 two_in_month).yesterday = some (noon 1 one_in_month) := rfl

theorem called_first {config : WakeConfig} (hlimit : config.dailyLimit ≠ 0) :
    wakes config [] (answered (noon 1 one_in_month) "a") = [⟨"a", noon 1 one_in_month, .done, ""⟩] := by
  have hclear : budgetBlock [] (noon 1 one_in_month) config = .ok "" := by
    change (if config.dailyLimit ≤ 0 ∨ config.dailyLimit ≤ 0 then _ else _) = _
    exact if_neg (by omega)
  simp [wakes, wake, answered, hclear, judge, Reasoning.outcome, record, Except.toOption]

theorem callsSince_dayAgo : callsSince [⟨"a", noon 1 one_in_month, .done, ""⟩] (noon 1 one_in_month).isoformat = [] := by
  have hself := decide_eq_false (String.lt_irrefl (noon 1 one_in_month).isoformat)
  simp only [callsSince, List.filter_cons, List.filter_nil, hself, Bool.and_false, Bool.false_eq_true, if_false, List.map_nil]

theorem run_dayApart {config : WakeConfig} (hlimit : config.dailyLimit ≠ 0) :
    run (wakes config) [] dayApart = [⟨"a", noon 1 one_in_month, .done, ""⟩, ⟨"b", noon 2 two_in_month, .done, ""⟩] := by
  have hclear : budgetBlock [⟨"a", noon 1 one_in_month, .done, ""⟩] (noon 2 two_in_month) config = .ok "" := by
    unfold budgetBlock
    rw [yesterday_noon]
    dsimp only
    rw [callsSince_dayAgo]
    exact if_neg (by simpa using hlimit)
  rw [dayApart, run_cons, called_first hlimit, run_cons, run_nil]
  simp [wakes, wake, answered, hclear, judge, Reasoning.outcome, record, Except.toOption]

theorem secondsBetween_noon : secondsBetween (noon 1 one_in_month) (noon 2 two_in_month) = 86400 := by
  have hmicros := UtcTimestamp.micros_yesterday yesterday_noon
  unfold secondsBetween
  rw [← hmicros]
  push_cast
  ring

theorem le_day_of_spaced {config : WakeConfig} (hlimit : config.dailyLimit ≠ 0)
    (h : Spaced config.minInterval (run (wakes config) [] dayApart)) : config.minInterval ≤ (86400 : ℚ) := by
  rw [run_dayApart hlimit] at h
  have hfirst := (List.pairwise_cons.mp h).1 _ (List.mem_singleton_self _) rfl rfl
  rw [secondsBetween_noon] at hfirst
  exact hfirst.trans (WithTop.coe_le_coe.mpr (by norm_num))

/-- The limit of a day is always kept, and the least interval exactly if it is at most a day or there are no calls at
all. -/
theorem budget_iff (config : WakeConfig) :
    (∀ calls, Unforced calls → Within config.dailyLimit (run (wakes config) [] calls)) ∧
      ((∀ calls, Unforced calls → Spaced config.minInterval (run (wakes config) [] calls)) ↔
        config.minInterval ≤ (86400 : ℚ) ∨ config.dailyLimit = 0) := by
  refine ⟨fun calls hcalls => within_run hcalls, fun h => ?_, fun h calls hcalls => spaced_run h hcalls⟩
  by_cases hlimit : config.dailyLimit = 0
  · exact .inr hlimit
  · exact .inl (le_day_of_spaced hlimit (h dayApart unforced_dayApart))

/-- Two days between calls are asked for, and two calls are a day apart. -/
theorem interval_not_kept : ∃ config, settings (some (.finite 2880)) (some (.finite 24)) = .ok config ∧ Unforced dayApart ∧
    ¬ Spaced config.minInterval (run (wakes config) [] dayApart) := by
  refine ⟨⟨((172800 : ℚ) : WithTop ℚ), 24, WithTop.coe_le_coe.mpr (by norm_num)⟩, ?_, unforced_dayApart, fun h => ?_⟩
  · simp only [settings, number]
    norm_num
    rfl
  · have hle := WithTop.coe_le_coe.mp (le_day_of_spaced (by decide) h)
    norm_num at hle

end AllTomorrow.Metacog
