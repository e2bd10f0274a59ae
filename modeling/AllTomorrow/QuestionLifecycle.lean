import AllTomorrow.RaisingState
import AllTomorrow.InsertionDict
import AllTomorrow.MachineRuns
import AllTomorrow.DomainRecords

/-!
# The lifecycle of a question

`QuestionService` keeps the questions by their id and the signals of their answers in an outbox. A
question is answered, superseded, cancelled or expires. What its six operations keep, and what it
takes of a new question and of an answer that the lifecycle holds over every run.
-/

namespace AllTomorrow.Questions

open InsertionDict (get?_set_cases get?_set_of_ne get?_set_self)

open EStateM MachineRuns

inductive QuestionStatus where
  | pending | answered | superseded | cancelled | expired
  deriving DecidableEq, Repr

def QuestionStatus.value : QuestionStatus → String
  | .pending => "PENDING"
  | .answered => "ANSWERED"
  | .superseded => "SUPERSEDED"
  | .cancelled => "CANCELLED"
  | .expired => "EXPIRED"

/-- `_TERMINAL`. -/
def terminal : List QuestionStatus := [.answered, .superseded, .cancelled, .expired]

structure Question where
  questionId : String
  workId : String
  prompt : String
  status : QuestionStatus := .pending
  answerRef : Option String := none
  signalId : Option String := none
  revision : ℤ := 1
  createdAt : Datetime
  expiresAt : Option Datetime := none
  deriving DecidableEq

structure OutboxSignal where
  signalId : String
  questionId : String
  deriving DecidableEq

structure QuestionService where
  q : InsertionDict String Question
  outbox : List OutboxSignal

abbrev QuestionM := EStateM Exn QuestionService

namespace QuestionService

def init : QuestionService := ⟨.empty, []⟩

def hasPending (s : QuestionService) (workId : String) : Bool :=
  s.q.values.any fun q => q.workId = workId && q.status = .pending

def create (question : Question) : QuestionM Question := do
  if (← get).hasPending question.workId then
    throw (.foreign "QuestionError" ("work " ++ question.workId ++ " already has a PENDING question"))
  else
    modify fun s => { s with q := s.q.set question.questionId question }
    return question

/-- `self._q[question_id]`. -/
def lookup (questionId : String) : QuestionM Question := do
  match (← get).q.get? questionId with
  | none => throw (.keyError questionId)
  | some q => return q

def answer (env : Supply) (questionId answerRef : String) : QuestionM (Question × Option OutboxSignal) := do
  let q ← lookup questionId
  if q.status ≠ .pending then
    -- a late answer is a no-op
    return (q, none)
  else
    let signal : OutboxSignal := ⟨env.newId "sig", questionId⟩
    let updated := { q with
      status := .answered, answerRef := some answerRef, signalId := some signal.signalId, revision := q.revision + 1 }
    modify fun s => ⟨s.q.set questionId updated, s.outbox ++ [signal]⟩
    return (updated, some signal)

def closed (status : QuestionStatus) (q : Question) : Question := { q with status := status, revision := q.revision + 1 }

/-- The loop of `supersede_on_replan` and `expire_due` over a copy of the questions. -/
def closeEach (due : Question → Bool) (status : QuestionStatus) : List (String × Question) → QuestionM (List String)
  | [] => return []
  | (qid, q) :: rest => do
    if due q then
      modify fun s => { s with q := s.q.set qid (closed status q) }
      let others ← closeEach due status rest
      return qid :: others
    else closeEach due status rest

def supersedeOnReplan (workId : String) : QuestionM (List String) := do
  closeEach (fun q => q.workId = workId && q.status = .pending) .superseded (← get).q.entries

def cancel (questionId : String) : QuestionM Question := do
  let q ← lookup questionId
  if q.status ≠ .pending then
    throw (.invalidStateTransitionError ("cannot cancel " ++ q.status.value ++ " question"))
  else
    let updated := closed .cancelled q
    modify fun s => { s with q := s.q.set questionId updated }
    return updated

/-- `now or utc_now()`. -/
def expireDue (env : Supply) (now : Option Datetime) : QuestionM (List String) := do
  let now := now.getD env.utcNow
  closeEach (fun q => q.status = .pending && q.expiresAt.any fun t => t ≤ now) .expired (← get).q.entries

end QuestionService

/-! ## Calls -/

inductive QuestionOp where
  | create (question : Question)
  | answer (questionId answerRef : String)
  | supersedeOnReplan (workId : String)
  | cancel (questionId : String)
  | expireDue (now : Option Datetime)
  /-- `outbox` or `get` -/
  | read

structure QuestionCall where
  op : QuestionOp
  env : Supply

def QuestionService.step (s : QuestionService) (c : QuestionCall) : QuestionService :=
  match c.op with
  | .create question => (create question s).state
  | .answer questionId answerRef => (answer c.env questionId answerRef s).state
  | .supersedeOnReplan workId => (supersedeOnReplan workId s).state
  | .cancel questionId => (cancel questionId s).state
  | .expireDue now => (expireDue c.env now s).state
  | .read => s

structure Tidy (s : QuestionService) : Prop where
  onePending : ∀ k k' q q', s.q.get? k = some q → s.q.get? k' = some q' → q.status = .pending → q'.status = .pending →
    q.workId = q'.workId → k = k'
  /-- one signal for an answered question and none for another -/
  signals : ∀ k, s.outbox.countP (fun signal => signal.questionId = k) =
    if (s.q.get? k).any fun q => q.status = .answered then 1 else 0

/-- The call keeps the table tidy and terminal questions unchanged, and answers in time. -/
structure Lawful (s : QuestionService) (c : QuestionCall) : Prop where
  tidy : Tidy (s.step c)
  stays : ∀ k q, s.q.get? k = some q → q.status ∈ terminal → (s.step c).q.get? k = some q
  inTime : ∀ k q q' t, s.q.get? k = some q → q.status ≠ .answered → (s.step c).q.get? k = some q' → q'.status = .answered →
    q.expiresAt = some t → c.env.utcNow < t

/-- What a call must respect: a new question replaces none that is over and does not come answered, and an answer comes
before the question expires. -/
def Careful (s : QuestionService) (c : QuestionCall) : Prop :=
  match c.op with
  | .create question => s.hasPending question.workId = true ∨
      (∀ old, s.q.get? question.questionId = some old → old.status ∈ terminal → old = question) ∧
        (question.status = .answered → s.q.get? question.questionId = some question)
  | .answer questionId _ => ∀ q t, s.q.get? questionId = some q → q.status = .pending → q.expiresAt = some t →
      c.env.utcNow < t
  | .supersedeOnReplan _ | .cancel _ | .expireDue _ | .read => True

/-! ## What the operations do -/

section Steps

variable {s : QuestionService} {status : QuestionStatus}

theorem mem_terminal_iff : status ∈ terminal ↔ status ≠ .pending := by
  cases status <;> decide

theorem hasPending_iff {workId : String} :
    s.hasPending workId = true ↔ ∃ k q, s.q.get? k = some q ∧ q.workId = workId ∧ q.status = .pending := by
  unfold QuestionService.hasPending
  rw [List.any_eq_true]
  constructor
  · rintro ⟨q, hq, hpending⟩
    obtain ⟨k, hk⟩ := InsertionDict.mem_values_iff.mp hq
    rw [Bool.and_eq_true, decide_eq_true_eq, decide_eq_true_eq] at hpending
    exact ⟨k, q, hk, hpending⟩
  · rintro ⟨k, q, hk, hwork, hpending⟩
    exact ⟨q, InsertionDict.mem_values_of_get? hk, by simp [hwork, hpending]⟩

theorem state_bind_pure {α β : Type} (x : QuestionM α) (f : α → β) :
    ((x >>= fun a => pure (f a)) s).state = (x s).state := by
  change (EStateM.bind x _ s).state = _
  unfold EStateM.bind
  cases x s <;> rfl

/-- Each question that is due is closed, and no other changes. -/
theorem closeEach_run (due : Question → Bool) (status : QuestionStatus) {es : List (String × Question)}
    (hkeys : (es.map Prod.fst).Nodup) :
    (QuestionService.closeEach due status es s).state.outbox = s.outbox ∧
      ∀ k, (QuestionService.closeEach due status es s).state.q.get? k = match es.lookup k with
        | some q => if due q then some (QuestionService.closed status q) else s.q.get? k
        | none => s.q.get? k := by
  induction es generalizing s with
  | nil => exact ⟨rfl, fun _ => rfl⟩
  | cons e rest ih =>
    obtain ⟨qid, q⟩ := e
    obtain ⟨hfresh, hrest⟩ := List.nodup_cons.mp hkeys
    have hnone : rest.lookup qid = none := by
      rw [List.lookup_eq_none_iff]
      intro e he
      have hne : qid ≠ e.1 := fun heq => hfresh (List.mem_map.mpr ⟨e, he, heq.symm⟩)
      simpa using hne
    unfold QuestionService.closeEach
    by_cases hdue : due q = true
    · rw [if_pos hdue]
      have hstate : ((modify (fun s : QuestionService => { s with q := s.q.set qid (QuestionService.closed status q) }) >>=
          fun _ => QuestionService.closeEach due status rest >>= fun others => pure (qid :: others)) s).state =
          (QuestionService.closeEach due status rest
            { s with q := s.q.set qid (QuestionService.closed status q) }).state := state_bind_pure _ _
      rw [hstate]
      obtain ⟨houtbox, hget⟩ := ih (s := { s with q := s.q.set qid (QuestionService.closed status q) }) hrest
      refine ⟨houtbox, fun k => ?_⟩
      rw [hget, List.lookup_cons]
      by_cases hk : k = qid
      · subst hk
        simp [hnone, hdue]
      · have hne : (k == qid) = false := by simpa using hk
        rw [hne, get?_set_of_ne _ _ hk]
    · rw [if_neg hdue]
      obtain ⟨houtbox, hget⟩ := ih (s := s) hrest
      refine ⟨houtbox, fun k => ?_⟩
      rw [hget, List.lookup_cons]
      by_cases hk : k = qid
      · subst hk
        simp [hnone, hdue]
      · have hne : (k == qid) = false := by simpa using hk
        rw [hne]

structure Closes (s s' : QuestionService) : Prop where
  outbox : s'.outbox = s.outbox
  stays : ∀ k q, s.q.get? k = some q → q.status ∈ terminal → s'.q.get? k = some q
  cases : ∀ k, s'.q.get? k = s.q.get? k ∨ ∃ q q', s.q.get? k = some q ∧ q.status = .pending ∧ s'.q.get? k = some q' ∧
    q'.status ≠ .pending ∧ q'.status ≠ .answered

theorem closes_refl (s : QuestionService) : Closes s s := ⟨rfl, fun _ _ h _ => h, fun _ => .inl rfl⟩

theorem closes_set {k : String} {q : Question} (hget : s.q.get? k = some q)
    (hpending : q.status = .pending) (hstatus : status ≠ .pending ∧ status ≠ .answered) :
    Closes s { s with q := s.q.set k (QuestionService.closed status q) } where
  outbox := rfl
  stays := by
    intro k' q' hget' hover
    have hne : k' ≠ k := by
      rintro rfl
      cases hget.symm.trans hget'
      exact mem_terminal_iff.mp hover hpending
    rwa [get?_set_of_ne _ _ hne]
  cases := by
    intro k'
    by_cases hk : k' = k
    · subst hk
      exact .inr ⟨q, _, hget, hpending, get?_set_self _ _ _, hstatus⟩
    · exact .inl (get?_set_of_ne _ _ hk)

theorem closes_closeEach {due : Question → Bool}
    (hdue : ∀ q, due q = true → q.status = .pending) (hstatus : status ≠ .pending ∧ status ≠ .answered) :
    Closes s (QuestionService.closeEach due status s.q.entries s).state := by
  obtain ⟨houtbox, hget⟩ := closeEach_run (s := s) due status s.q.nodup_keys
  change ∀ k, _ = match s.q.get? k with
    | some q => if due q then some (QuestionService.closed status q) else s.q.get? k
    | none => s.q.get? k at hget
  refine ⟨houtbox, fun k q hq hover => ?_, fun k => ?_⟩
  · have hnot : ¬due q = true := fun h => mem_terminal_iff.mp hover (hdue q h)
    rw [hget, hq]
    dsimp only
    rw [if_neg hnot]
  · rw [hget]
    cases hq : s.q.get? k with
    | none => exact .inl rfl
    | some q =>
      dsimp only
      by_cases h : due q = true
      · rw [if_pos h]
        exact .inr ⟨q, _, rfl, hdue q h, rfl, hstatus⟩
      · rw [if_neg h]
        exact .inl rfl

theorem Closes.lawful {s' : QuestionService} (h : Closes s s') (htidy : Tidy s) {c : QuestionCall} (hstep : s.step c = s') :
    Lawful s c := by
  subst hstep
  have hsame {k : String} {q : Question} (hget : (s.step c).q.get? k = some q)
      (hstatus : q.status = .pending ∨ q.status = .answered) : s.q.get? k = some q := by
    rcases h.cases k with hkept | ⟨_, q', -, -, hget', hpending, hanswered⟩
    · rwa [← hkept]
    · cases hget.symm.trans hget'
      exact absurd hstatus (not_or.mpr ⟨hpending, hanswered⟩)
  refine ⟨⟨fun k k' q q' hq hq' hp hp' => ?_, fun k => ?_⟩, h.stays, fun k q q' t hq hne hq' hanswered => ?_⟩
  · exact htidy.onePending k k' q q' (hsame hq (.inl hp)) (hsame hq' (.inl hp')) hp hp'
  · rw [h.outbox, htidy.signals k]
    rcases h.cases k with hkept | ⟨q, q', hq, hpending, hq', -, hanswered⟩
    · rw [hkept]
    · rw [hq, hq', Option.any_some, Option.any_some, hpending, decide_eq_false hanswered]
      rfl
  · cases hq.symm.trans (hsame hq' (.inr hanswered))
    exact absurd hanswered hne

variable (questionId : String)

theorem ends_lookup : Ends (QuestionService.lookup questionId) s (fun q s' => s' = s ∧ s.q.get? questionId = some q)
      fun _ s' => s' = s ∧ s.q.get? questionId = none := by
  unfold QuestionService.lookup
  refine ends_get_bind ?_
  cases s.q.get? questionId with
  | none => exact ends_throw ⟨rfl, rfl⟩
  | some q => exact ends_pure ⟨rfl, rfl⟩

theorem closes_cancel : Closes s (QuestionService.cancel questionId s).state := by
  refine Ends.state (P := fun s' => Closes s s') ?_
  unfold QuestionService.cancel
  refine Ends.bind ((ends_lookup questionId).mono (fun _ _ h => h) ?_) ?_
  · rintro _ s ⟨rfl, -⟩
    exact closes_refl s
  · rintro q s ⟨rfl, hget⟩
    refine ends_ite (fun _ => ends_throw (closes_refl s)) fun hpending => ?_
    exact ends_modify_bind (ends_pure (closes_set hget (not_not.mp hpending) (by decide)))

/-! ## Which calls are lawful -/

theorem lawful_create_iff {question : Question} {env : Supply} (htidy : Tidy s) :
    Lawful s ⟨.create question, env⟩ ↔ Careful s ⟨.create question, env⟩ := by
  have hstep : s.step ⟨.create question, env⟩ = if s.hasPending question.workId = true then s
      else { s with q := s.q.set question.questionId question } := by
    change (QuestionService.create question s).state = _
    refine Ends.state (P := fun s' => s' = _) ?_
    unfold QuestionService.create
    refine ends_get_bind (ends_ite (fun h => ends_throw ?_) fun h => ends_modify_bind (ends_pure ?_))
    · rw [if_pos h]
    · rw [if_neg h]
  by_cases hrefused : s.hasPending question.workId = true
  · rw [if_pos hrefused] at hstep
    exact ⟨fun _ => .inl hrefused, fun _ => (closes_refl s).lawful htidy hstep⟩
  rw [if_neg hrefused] at hstep
  constructor
  · intro h
    refine .inr ⟨fun old hold hover => ?_, fun hanswered => ?_⟩
    · have hsame := h.stays _ old hold hover
      rw [hstep, get?_set_self] at hsame
      exact (Option.some.inj hsame).symm
    · have hsignals := h.tidy.signals question.questionId
      rw [hstep] at hsignals
      rw [get?_set_self, Option.any_some, decide_eq_true hanswered, if_pos rfl,
        htidy.signals question.questionId] at hsignals
      cases hold : s.q.get? question.questionId with
      | none =>
        rw [hold] at hsignals
        cases hsignals
      | some old =>
        rw [hold, Option.any_some] at hsignals
        have hover : old.status = .answered := by
          by_contra hne
          rw [decide_eq_false hne] at hsignals
          cases hsignals
        have hsame := h.stays _ old hold (by rw [hover]; decide)
        rw [hstep, get?_set_self] at hsame
        exact hsame.symm
  · intro h
    obtain ⟨hover, hanswered⟩ := h.resolve_left hrefused
    have hpending : ∀ k q, s.q.get? k = some q → q.status = .pending → q.workId ≠ question.workId :=
      fun k q hk hq hwork => hrefused (hasPending_iff.mpr ⟨k, q, hk, hwork, hq⟩)
    refine ⟨⟨fun k k' q q' hq hq' hp hp' hwork => ?_, fun k => ?_⟩, fun k q hq hterminal => ?_,
      fun k q q' t hq hne hq' hanswered' _ => ?_⟩
    · rw [hstep] at hq hq'
      rcases get?_set_cases s.q question.questionId question k with ⟨rfl, hk⟩ | ⟨hne, hk⟩
      · rcases get?_set_cases s.q question.questionId question k' with ⟨rfl, hk'⟩ | ⟨hne', hk'⟩
        · rfl
        · cases hk.symm.trans hq
          exact absurd hwork.symm (hpending k' q' (hk' ▸ hq') hp')
      · rcases get?_set_cases s.q question.questionId question k' with ⟨rfl, hk'⟩ | ⟨hne', hk'⟩
        · cases hk'.symm.trans hq'
          exact absurd hwork (hpending k q (hk ▸ hq) hp)
        · exact htidy.onePending k k' q q' (hk ▸ hq) (hk' ▸ hq') hp hp' hwork
    · rw [hstep]
      change s.outbox.countP _ = if ((s.q.set question.questionId question).get? k).any _ = true then 1 else 0
      rw [htidy.signals k]
      rcases get?_set_cases s.q question.questionId question k with ⟨rfl, hk⟩ | ⟨hne, hk⟩
      · rw [hk, Option.any_some]
        by_cases hstatus : question.status = .answered
        · rw [hanswered hstatus, Option.any_some]
        · cases hold : s.q.get? question.questionId with
          | none => simp [hstatus]
          | some old =>
            have hne : old.status ≠ .answered := by
              intro holdAnswered
              rw [hover old hold (by rw [holdAnswered]; decide)] at holdAnswered
              exact hstatus holdAnswered
            simp [hstatus, hne]
      · rw [hk]
    · rw [hstep]
      rcases get?_set_cases s.q question.questionId question k with ⟨rfl, hk⟩ | ⟨hne, hk⟩
      · rw [hover q hq hterminal]
        exact hk
      · exact hk.trans hq
    · rw [hstep] at hq'
      rcases get?_set_cases s.q question.questionId question k with ⟨rfl, hk⟩ | ⟨hne', hk⟩
      · cases hk.symm.trans hq'
        cases hq.symm.trans (hanswered hanswered')
        exact absurd hanswered' hne
      · cases hq.symm.trans (hk ▸ hq')
        exact absurd hanswered' hne

theorem lawful_answer_iff {questionId answerRef : String} {env : Supply} (htidy : Tidy s) :
    Lawful s ⟨.answer questionId answerRef, env⟩ ↔ Careful s ⟨.answer questionId answerRef, env⟩ := by
  by_cases hpending : ∃ q, s.q.get? questionId = some q ∧ q.status = .pending
  · obtain ⟨q, hget, hstatus⟩ := hpending
    obtain ⟨q', hanswered, hstep⟩ : ∃ q' : Question, q'.status = .answered ∧ s.step ⟨.answer questionId answerRef, env⟩ =
        ⟨s.q.set questionId q', s.outbox ++ [⟨env.newId "sig", questionId⟩]⟩ := by
      refine ⟨{ q with status := .answered, answerRef := some answerRef, signalId := some (env.newId "sig")
                       revision := q.revision + 1 }, rfl, ?_⟩
      change (QuestionService.answer env questionId answerRef s).state = _
      refine Ends.state (P := fun s' => s' = _) ?_
      unfold QuestionService.answer
      refine Ends.bind ((ends_lookup questionId).mono (fun _ _ h => h) ?_) ?_
      · rintro _ _ ⟨-, hnone⟩
        cases hget.symm.trans hnone
      · rintro found s ⟨rfl, hfound⟩
        cases hget.symm.trans hfound
        exact ends_ite (fun h => absurd hstatus h) fun _ => ends_modify_bind (ends_pure rfl)
    constructor
    · intro h q₀ t hq₀ _ hexpires
      cases hget.symm.trans hq₀
      refine h.inTime questionId q q' t hget (by rw [hstatus]; decide) ?_ hanswered hexpires
      rw [hstep]
      exact get?_set_self _ _ _
    · intro h
      refine ⟨⟨fun k k' p p' hp hp' hpp hpp' => ?_, fun k => ?_⟩, fun k p hp hover => ?_, fun k p p' t hp hne hp' hpa => ?_⟩
      · have hother {k : String} {p : Question} (hp : (s.step ⟨.answer questionId answerRef, env⟩).q.get? k = some p)
            (hpp : p.status = .pending) : s.q.get? k = some p := by
          rw [hstep] at hp
          rcases get?_set_cases s.q questionId q' k with ⟨rfl, hk⟩ | ⟨hne, hk⟩
          · cases hk.symm.trans hp
            rw [hanswered] at hpp
            cases hpp
          · exact hk ▸ hp
        exact htidy.onePending k k' p p' (hother hp hpp) (hother hp' hpp') hpp hpp'
      · rw [hstep]
        change (s.outbox ++ [_]).countP _ = if ((s.q.set questionId q').get? k).any _ = true then 1 else 0
        rw [List.countP_append, htidy.signals k]
        rcases get?_set_cases s.q questionId q' k with ⟨rfl, hk⟩ | ⟨hne, hk⟩
        · rw [hk, hget]
          simp [hstatus, hanswered]
        · rw [hk]
          simp [Ne.symm hne]
      · rw [hstep]
        rcases get?_set_cases s.q questionId q' k with ⟨rfl, hk⟩ | ⟨hne, hk⟩
        · cases hget.symm.trans hp
          exact absurd hstatus (mem_terminal_iff.mp hover)
        · exact hk.trans hp
      · rw [hstep] at hp'
        rcases get?_set_cases s.q questionId q' k with ⟨rfl, hk⟩ | ⟨hne', hk⟩
        · cases hget.symm.trans hp
          exact fun hexpires => h q t hget hstatus hexpires
        · cases hp.symm.trans (hk ▸ hp')
          exact absurd hpa hne
  · have hsame : s.step ⟨.answer questionId answerRef, env⟩ = s := by
      change (QuestionService.answer env questionId answerRef s).state = s
      refine Ends.state (P := fun s' => s' = s) ?_
      unfold QuestionService.answer
      refine Ends.bind ((ends_lookup questionId).mono (fun _ _ h => h) fun _ _ h => h.1) ?_
      rintro q s ⟨rfl, hget⟩
      exact ends_ite (fun _ => ends_pure rfl) fun h => absurd ⟨q, hget, not_not.mp h⟩ hpending
    refine ⟨fun _ q t hget hstatus => absurd ⟨q, hget, hstatus⟩ hpending, fun _ => (closes_refl s).lawful htidy hsame⟩

theorem lawful_iff_careful (htidy : Tidy s) (c : QuestionCall) : Lawful s c ↔ Careful s c := by
  obtain ⟨op, env⟩ := c
  cases op with
  | create question => exact lawful_create_iff htidy
  | answer questionId answerRef => exact lawful_answer_iff htidy
  | supersedeOnReplan workId =>
    refine ⟨fun _ => trivial, fun _ => (closes_closeEach (fun q hq => ?_) (by decide)).lawful htidy rfl⟩
    rw [Bool.and_eq_true, decide_eq_true_eq, decide_eq_true_eq] at hq
    exact hq.2
  | cancel questionId => exact ⟨fun _ => trivial, fun _ => (closes_cancel questionId).lawful htidy rfl⟩
  | expireDue now =>
    refine ⟨fun _ => trivial, fun _ => (closes_closeEach (fun q hq => ?_) (by decide)).lawful htidy rfl⟩
    rw [Bool.and_eq_true, decide_eq_true_eq] at hq
    exact hq.1
  | read => exact ⟨fun _ => trivial, fun _ => (closes_refl s).lawful htidy rfl⟩

theorem tidy_init : Tidy .init where
  onePending := by
    intro k k' q q' hq
    cases hq
  signals := fun _ => rfl

end Steps

/-- A run keeps the lifecycle exactly if each of its calls is careful. -/
theorem lifecycle_iff (calls : List QuestionCall) :
    EveryStep QuestionService.step Lawful .init calls ↔ EveryStep QuestionService.step Careful .init calls :=
  everyStep_iff (K := fun _ => True) (T := Tidy) (F := fun _ _ => True) (fun _ _ _ _ => trivial) (fun _ _ h => h.tidy)
    (fun _ c _ htidy _ => lawful_iff_careful htidy c) trivial tidy_init fun _ _ _ _ => trivial

def shipQuestion : Question := { questionId := "q1", workId := "w1", prompt := "Ship?", createdAt := 0, expiresAt := some 10 }

def reusedCalls : List QuestionCall :=
  [⟨.create shipQuestion, fun _ => ⟨0, "a"⟩⟩, ⟨.answer "q1" "yes", fun _ => ⟨1, "b"⟩⟩,
    ⟨.create shipQuestion, fun _ => ⟨2, "c"⟩⟩]

theorem reused_id_reopens : ¬∀ calls : List QuestionCall, EveryStep QuestionService.step Lawful .init calls := by
  intro h
  have hlawful := h reusedCalls (reusedCalls.take 2) ⟨.create shipQuestion, fun _ => ⟨2, "c"⟩⟩ [] rfl
  obtain ⟨q, hget, hanswered⟩ : ∃ q, (run QuestionService.step .init (reusedCalls.take 2)).q.get? "q1" = some q ∧
      q.status = .answered := ⟨_, rfl, rfl⟩
  have hkept := hlawful.stays "q1" q hget (by rw [hanswered]; decide)
  have hagain : ((run QuestionService.step .init (reusedCalls.take 2)).step
      ⟨.create shipQuestion, fun _ => ⟨2, "c"⟩⟩).q.get? "q1" = some shipQuestion := rfl
  cases hagain.symm.trans hkept
  cases hanswered

end AllTomorrow.Questions
