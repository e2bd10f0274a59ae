import AllTomorrow.DomainRecords
import AllTomorrow.MachineRuns
import AllTomorrow.PythonValues

/-!
# Topics the user refused

The agenda of research topics: what a metacognition session suggests and revises, what the user
creates, changes and deletes, and the list of topics the user refused.
-/

namespace AllTomorrow.Research

open PyText MachineRuns

/-! ## The agenda -/

structure Topic where
  id : String
  title : String
  ask : String
  projectId : String
  repeatDays : ℚ
  enabled : Bool
  created : ℚ
  runNowAt : Option ℚ
  /-- the source is `metacog` -/
  metacog : Bool
  reason : String
  ideaId : String

structure DeclinedTopic where
  id : String
  title : String
  ask : String
  ideaId : String
  projectId : String
  how : String
  at_ : ℚ

structure ResearchStore where
  topics : List Topic
  declined : List DeclinedTopic

structure Words where
  /-- `\w` -/
  isWord : Char → Bool
  /-- `str.lower` -/
  lower : String → String

namespace Words

variable (w : Words)

/-- `_key` -/
def key (text : String) : String := w.lower (String.ofList (text.toList.filter w.isWord))

def touches (text title ask : String) : Bool := w.key text ≠ "" && (w.key text = w.key title || w.key text = w.key ask)

/-- `{_key(title), _key(ask)} & {_key(d["title"]), _key(d["ask"])} - {""}` -/
def same (title ask title' ask' : String) : Bool := w.touches title title' ask' || w.touches ask title' ask'

end Words

def locate (topicId : String) : List Topic → Option (List Topic × Topic × List Topic)
  | [] => none
  | t :: rest =>
    if t.id = topicId then some ([], t, rest)
    else (locate topicId rest).map fun found => (t :: found.1, found.2)

/-- Where `splitlines` ends a line. -/
def isLineBreak (c : Char) : Bool :=
  let n := c.toNat
  (10 ≤ n && n ≤ 13) || (28 ≤ n && n ≤ 30) || n = 0x85 || n = 0x2028 || n = 0x2029

/-- `ask.splitlines()[0][:60]` -/
def firstLine (ask : String) : String := String.ofList ((ask.toList.takeWhile (!isLineBreak ·)).take 60)

/-- `text or other` -/
def orElse (text other : String) : String := if text = "" then other else text

def lastEntries (n : ℕ) (entries : List DeclinedTopic) : List DeclinedTopic := entries.drop (entries.length - n)

/-- `_decline` -/
def decline (declined : List DeclinedTopic) (topic : Topic) (how : String) (now : ℚ) : List DeclinedTopic :=
  if !topic.metacog then declined
  else
    let left := declined.filter fun d => d.id ≠ topic.id
    lastEntries 200 (left ++ [⟨topic.id, topic.title, topic.ask, topic.ideaId, topic.projectId, how, now⟩])

structure Suggestion where
  title : String
  ask : String
  reason : String
  ideaId : String
  projectId : String
  repeatDays : ℚ
  id : String
  now : ℚ

def suggestError (w : Words) (s : ResearchStore) (a : Suggestion) : Option Exn :=
  if strip a.ask = "" ∨ strip a.reason = "" then some (.valueError "조사할 내용과 근거가 있어야 한다")
  else
    match s.declined.find? fun d => w.same (strip a.title) (strip a.ask) d.title d.ask with
    | some d => some (.valueError s!"사용자가 {d.how} 주제와 같다: {d.id} {d.title}")
    | none =>
      if s.topics.any fun t => w.key (strip a.ask) = w.key t.ask then some (.valueError "같은 요청의 주제가 이미 목록에 있다")
      else none

/-- `max(0.0, min(float(repeat_days), 365.0))` -/
def boundedDays (repeatDays : ℚ) : ℚ := max 0 (min repeatDays 365)

def Suggestion.topic (a : Suggestion) : Topic :=
  { id := a.id
    title := orElse (strip a.title) (firstLine (strip a.ask))
    ask := strip a.ask
    projectId := orElse (strip a.projectId) "all-tomorrow"
    repeatDays := boundedDays a.repeatDays
    enabled := true
    created := a.now
    runNowAt := none
    metacog := true
    reason := strip a.reason
    ideaId := strip a.ideaId }

def suggest (w : Words) (s : ResearchStore) (a : Suggestion) : Except Exn (ResearchStore × Topic) :=
  match suggestError w s a with
  | some e => .error e
  | none => .ok ({ s with topics := s.topics ++ [a.topic] }, a.topic)

structure Revision where
  title : Option String
  ask : Option String
  reason : Option String
  projectId : Option String
  repeatDays : Option ℚ

def given (value : Option String) (old : String) : String := (value.map fun v => orElse (strip v) old).getD old

def Revision.apply (r : Revision) (topic : Topic) : Topic :=
  { topic with
    title := given r.title topic.title
    ask := given r.ask topic.ask
    reason := given r.reason topic.reason
    projectId := given r.projectId topic.projectId
    repeatDays := (r.repeatDays.map boundedDays).getD topic.repeatDays }

def reviseError (s : ResearchStore) (topic : Topic) : Option Exn :=
  if !topic.metacog then some (.valueError "사용자가 넣은 주제는 고치지 않는다")
  else if !topic.enabled || s.declined.any fun d => d.id = topic.id then some (.valueError "사용자가 끈 주제다")
  else none

def revise (s : ResearchStore) (topicId : String) (r : Revision) : Except Exn (ResearchStore × Topic) :=
  match locate topicId s.topics with
  | none => .error (.keyError topicId)
  | some (before, topic, after) =>
    match reviseError s topic with
    | some e => .error e
    | none => .ok ({ s with topics := before ++ r.apply topic :: after }, r.apply topic)

/-! ## What the user does -/

structure TopicRequest where
  title : String
  ask : String
  projectId : String
  repeatDays : ℚ
  id : String
  now : ℚ

def create (s : ResearchStore) (body : TopicRequest) : Except Exn (ResearchStore × Topic) :=
  let ask := strip body.ask
  if ask = "" then .error (.valueError "조사할 내용이 비어 있다")
  else
    let topic : Topic :=
      { id := body.id
        title := orElse (strip body.title) (firstLine ask)
        ask := ask
        projectId := orElse (strip body.projectId) "all-tomorrow"
        repeatDays := body.repeatDays
        enabled := true
        created := body.now
        runNowAt := none
        metacog := false
        reason := ""
        ideaId := "" }
    .ok ({ s with topics := s.topics ++ [topic] }, topic)

structure TopicPatch where
  title : Option String
  ask : Option String
  projectId : Option String
  repeatDays : Option ℚ
  enabled : Option Bool
  runNow : Bool
  move : ℤ

def TopicPatch.apply (patch : TopicPatch) (now : ℚ) (topic : Topic) : Topic :=
  { topic with
    title := given patch.title topic.title
    ask := (patch.ask.map strip).getD topic.ask
    projectId := given patch.projectId topic.projectId
    repeatDays := patch.repeatDays.getD topic.repeatDays
    enabled := patch.runNow || patch.enabled.getD topic.enabled
    runNowAt := if patch.runNow then some now else topic.runNowAt }

def swapAt (xs : List Topic) (i j : ℕ) : List Topic :=
  match xs[i]?, xs[j]? with
  | some x, some y => (xs.set i y).set j x
  | _, _ => xs

/-- The topic at a place moves one place up or down, where there is one. -/
def moved (xs : List Topic) (index : ℕ) (move : ℤ) : List Topic :=
  let other := index + move
  if move ≠ 0 ∧ 0 ≤ other ∧ other < xs.length then swapAt xs index other.toNat else xs

def update (s : ResearchStore) (topicId : String) (patch : TopicPatch) (now : ℚ) : Except Exn (ResearchStore × Topic) :=
  match locate topicId s.topics with
  | none => .error (.keyError topicId)
  | some (before, topic, after) =>
    if patch.ask.any fun ask => strip ask = "" then .error (.valueError "조사할 내용이 비어 있다")
    else
      let topic' := patch.apply now topic
      let topics := moved (before ++ topic' :: after) before.length patch.move
      let declined :=
        if topic.enabled && !topic'.enabled then decline s.declined topic' "끈" now
        else if topic'.enabled && !topic.enabled then s.declined.filter fun d => d.id ≠ topicId
        else s.declined
      .ok (⟨topics, declined⟩, topic')

def delete (s : ResearchStore) (topicId : String) (now : ℚ) : Except Exn ResearchStore :=
  match locate topicId s.topics with
  | none => .error (.keyError topicId)
  | some (_, topic, _) => .ok ⟨s.topics.filter fun t => t.id ≠ topicId, decline s.declined topic "지운" now⟩

inductive AgendaCall where
  | suggest (a : Suggestion)
  | revise (topicId : String) (r : Revision)
  | create (body : TopicRequest)
  | update (topicId : String) (patch : TopicPatch) (now : ℚ)
  | delete (topicId : String) (now : ℚ)

structure Refusal where
  id : String
  title : String
  ask : String

def Topic.refusal (t : Topic) : Refusal := ⟨t.id, t.title, t.ask⟩

/-- The store, and the refusals since which the user has not enabled the topic again. -/
structure Agenda where
  store : ResearchStore
  refused : List Refusal

/-- Switching a topic of the session off refuses it, and switching it on takes that back. -/
def refusedByUpdate (refused : List Refusal) (topic topic' : Topic) : List Refusal :=
  if topic.enabled && !topic'.enabled then if topic'.metacog then refused ++ [topic'.refusal] else refused
  else if topic'.enabled && !topic.enabled then refused.filter fun r => r.id ≠ topic'.id
  else refused

def agendaStep (w : Words) (a : Agenda) : AgendaCall → Agenda
  | .suggest suggestion =>
    match suggest w a.store suggestion with
    | .error _ => a
    | .ok (s, _) => { a with store := s }
  | .revise topicId r =>
    match revise a.store topicId r with
    | .error _ => a
    | .ok (s, _) => { a with store := s }
  | .create body =>
    match create a.store body with
    | .error _ => a
    | .ok (s, _) => { a with store := s }
  | .update topicId patch now =>
    match locate topicId a.store.topics, update a.store topicId patch now with
    | some (_, topic, _), .ok (s, topic') => ⟨s, refusedByUpdate a.refused topic topic'⟩
    | _, _ => a
  | .delete topicId now =>
    match locate topicId a.store.topics, delete a.store topicId now with
    | some (_, topic, _), .ok s => ⟨s, if topic.metacog then a.refused ++ [topic.refusal] else a.refused⟩
    | _, _ => a

/-- A topic of the session that is on has the title or the request of a refusal. -/
def Topic.Offends (w : Words) (t : Topic) (r : Refusal) : Prop :=
  t.metacog = true ∧ t.enabled = true ∧ w.same t.title t.ask r.title r.ask = true

instance (w : Words) (t : Topic) (r : Refusal) : Decidable (t.Offends w r) :=
  inferInstanceAs (Decidable (t.metacog = true ∧ t.enabled = true ∧ w.same t.title t.ask r.title r.ask = true))

/-- No topic offends against a refusal. -/
def Respected (w : Words) (a : Agenda) : Prop := ∀ r ∈ a.refused, ∀ t ∈ a.store.topics, ¬ t.Offends w r

instance (w : Words) (a : Agenda) : Decidable (Respected w a) :=
  inferInstanceAs (Decidable (∀ r ∈ a.refused, ∀ t ∈ a.store.topics, ¬ t.Offends w r))

theorem agendaStep_suggest_error {w : Words} {a : Agenda} {suggestion : Suggestion} {e : Exn}
    (h : suggestError w a.store suggestion = some e) : agendaStep w a (.suggest suggestion) = a := by
  simp [agendaStep, suggest, h]

/-- What the refusal of a topic needs: there is room for it in the list, no other topic that is on has its texts, and it
is not refused with other texts. -/
structure Refusable (w : Words) (a : Agenda) (others : List Topic) (t : Topic) : Prop where
  room : (a.store.declined.filter fun d => d.id ≠ t.id).length < 200
  alone : ∀ u ∈ others, ¬ u.Offends w t.refusal
  sameTexts : ∀ r ∈ a.refused, r.id = t.id → w.key r.title = w.key t.title ∧ w.key r.ask = w.key t.ask

/-- The session's calls put no refused text where it is not looked for, a revision or the title taken from the request.
The user's calls leave no topic of the session on with the texts of another that is refused. -/
def Careful (w : Words) (a : Agenda) : AgendaCall → Prop
  | .suggest suggestion => suggestError w a.store suggestion = none → strip suggestion.title = "" →
      ∀ r ∈ a.refused, w.touches (firstLine (strip suggestion.ask)) r.title r.ask = false
  | .revise topicId r => ∀ found ∈ locate topicId a.store.topics, reviseError a.store found.2.1 = none →
      ∀ refusal ∈ a.refused, ¬ (r.apply found.2.1).Offends w refusal
  | .create _ => True
  | .update topicId patch now => ∀ found ∈ locate topicId a.store.topics,
      (patch.ask.any fun ask => strip ask = "") = false →
        if found.2.1.enabled && !(patch.apply now found.2.1).enabled then
          found.2.1.metacog = true → Refusable w a (found.1 ++ found.2.2) (patch.apply now found.2.1)
        else ∀ r ∈ a.refused, (found.2.1.enabled = false → r.id ≠ topicId) → ¬ (patch.apply now found.2.1).Offends w r
  | .delete topicId _ => ∀ found ∈ locate topicId a.store.topics, found.2.1.metacog = true →
      Refusable w a (a.store.topics.filter fun t => t.id ≠ topicId) found.2.1

instance (w : Words) (a : Agenda) (others : List Topic) (t : Topic) : Decidable (Refusable w a others t) :=
  decidable_of_iff ((a.store.declined.filter fun d => d.id ≠ t.id).length < 200 ∧ (∀ u ∈ others, ¬ u.Offends w t.refusal) ∧
      ∀ r ∈ a.refused, r.id = t.id → w.key r.title = w.key t.title ∧ w.key r.ask = w.key t.ask)
    ⟨fun h => ⟨h.1, h.2.1, h.2.2⟩, fun h => ⟨h.room, h.alone, h.sameTexts⟩⟩

instance (w : Words) (a : Agenda) : (call : AgendaCall) → Decidable (Careful w a call)
  | .suggest suggestion => inferInstanceAs (Decidable (suggestError w a.store suggestion = none → strip suggestion.title = "" →
      ∀ r ∈ a.refused, w.touches (firstLine (strip suggestion.ask)) r.title r.ask = false))
  | .revise topicId r => inferInstanceAs (Decidable (∀ found ∈ locate topicId a.store.topics,
      reviseError a.store found.2.1 = none → ∀ refusal ∈ a.refused, ¬ (r.apply found.2.1).Offends w refusal))
  | .create _ => isTrue trivial
  | .update topicId patch now => inferInstanceAs (Decidable (∀ found ∈ locate topicId a.store.topics,
      (patch.ask.any fun ask => strip ask = "") = false →
        if found.2.1.enabled && !(patch.apply now found.2.1).enabled then
          found.2.1.metacog = true → Refusable w a (found.1 ++ found.2.2) (patch.apply now found.2.1)
        else ∀ r ∈ a.refused, (found.2.1.enabled = false → r.id ≠ topicId) → ¬ (patch.apply now found.2.1).Offends w r))
  | .delete topicId _ => inferInstanceAs (Decidable (∀ found ∈ locate topicId a.store.topics, found.2.1.metacog = true →
      Refusable w a (a.store.topics.filter fun t => t.id ≠ topicId) found.2.1))

def Listed (w : Words) (a : Agenda) : Prop :=
  ∀ r ∈ a.refused, ∃ d ∈ a.store.declined, d.id = r.id ∧ w.key d.title = w.key r.title ∧ w.key d.ask = w.key r.ask

theorem locate_eq_some {topicId : String} {topics before after : List Topic} {topic : Topic}
    (h : locate topicId topics = some (before, topic, after)) : topics = before ++ topic :: after ∧ topic.id = topicId := by
  induction topics generalizing before with
  | nil => cases h
  | cons t rest ih =>
    unfold locate at h
    split at h
    · next hid =>
      cases h
      exact ⟨rfl, hid⟩
    · rw [Option.map_eq_some_iff] at h
      obtain ⟨⟨before', topic', after'⟩, hfound, heq⟩ := h
      cases heq
      obtain ⟨hrest, hid⟩ := ih hfound
      exact ⟨by rw [hrest, List.cons_append], hid⟩

theorem mem_swapAt {xs : List Topic} {i j : ℕ} {t : Topic} (h : t ∈ swapAt xs i j) : t ∈ xs := by
  unfold swapAt at h
  split at h
  · next x y hx hy =>
    rcases List.mem_or_eq_of_mem_set h with h | rfl
    · rcases List.mem_or_eq_of_mem_set h with h | rfl
      · exact h
      · exact List.mem_of_getElem? hy
    · exact List.mem_of_getElem? hx
  · exact h

theorem mem_moved {xs : List Topic} {index : ℕ} {move : ℤ} {t : Topic} (h : t ∈ moved xs index move) : t ∈ xs := by
  unfold moved at h
  dsimp only at h
  split at h
  · exact mem_swapAt h
  · exact h

section Words

variable {w : Words}

theorem touches_congr {text title ask title' ask' : String} (htitle : w.key title = w.key title')
    (hask : w.key ask = w.key ask') : w.touches text title ask = w.touches text title' ask' := by
  simp only [Words.touches, htitle, hask]

theorem same_congr {title ask title' ask' title₁ ask₁ : String} (htitle : w.key title' = w.key title₁)
    (hask : w.key ask' = w.key ask₁) : w.same title ask title' ask' = w.same title ask title₁ ask₁ := by
  simp only [Words.same, touches_congr htitle hask]

theorem same_of_suggestError {a : Agenda} (hlisted : Listed w a) {suggestion : Suggestion}
    (h : suggestError w a.store suggestion = none) {r : Refusal} (hr : r ∈ a.refused) :
    w.same (strip suggestion.title) (strip suggestion.ask) r.title r.ask = false := by
  unfold suggestError at h
  split at h
  · cases h
  · split at h
    · cases h
    · next hnone =>
      obtain ⟨d, hd, -, htitle, hask⟩ := hlisted r hr
      rw [← same_congr htitle hask]
      exact Bool.eq_false_of_not_eq_true (List.find?_eq_none.mp hnone d hd)

end Words

theorem mem_decline {declined : List DeclinedTopic} {topic : Topic} {how : String} {now : ℚ} (hmetacog : topic.metacog = true)
    (hroom : (declined.filter fun d => d.id ≠ topic.id).length < 200) (d : DeclinedTopic) :
    d ∈ decline declined topic how now ↔ (d ∈ declined ∧ d.id ≠ topic.id) ∨
      d = ⟨topic.id, topic.title, topic.ask, topic.ideaId, topic.projectId, how, now⟩ := by
  unfold decline lastEntries
  rw [if_neg (by simp [hmetacog])]
  dsimp only
  have hdrop (entry : DeclinedTopic) :
      ((declined.filter fun d => d.id ≠ topic.id) ++ [entry]).length - 200 = 0 := by
    rw [List.length_append, List.length_singleton]
    omega
  rw [hdrop, List.drop_zero, List.mem_append, List.mem_filter, List.mem_singleton, decide_eq_true_iff]

/-! ## Runs -/

section Step

variable {w : Words} {a : Agenda}

theorem refuse_keeps {others : List Topic} {t : Topic} (hmetacog : t.metacog = true) (h : Refusable w a others t)
    (hlisted : Listed w a) (hrespected : ∀ r ∈ a.refused, ∀ u ∈ others, ¬ u.Offends w r) {topics : List Topic}
    (htopics : ∀ u ∈ topics, u ∈ others ∨ u.enabled = false) (how : String) (now : ℚ) :
    Listed w ⟨⟨topics, decline a.store.declined t how now⟩, a.refused ++ [t.refusal]⟩ ∧
      Respected w ⟨⟨topics, decline a.store.declined t how now⟩, a.refused ++ [t.refusal]⟩ := by
  have hmem := @mem_decline a.store.declined t how now hmetacog h.room
  constructor
  · intro r hr
    rcases List.mem_append.mp hr with hr | hr
    · by_cases hid : r.id = t.id
      · obtain ⟨htitle, hask⟩ := h.sameTexts r hr hid
        exact ⟨_, (hmem _).mpr (.inr rfl), hid.symm, htitle.symm, hask.symm⟩
      · obtain ⟨d, hd, hdid, hkeys⟩ := hlisted r hr
        exact ⟨d, (hmem d).mpr (.inl ⟨hd, by rwa [hdid]⟩), hdid, hkeys⟩
    · rw [List.mem_singleton.mp hr]
      exact ⟨_, (hmem _).mpr (.inr rfl), rfl, rfl, rfl⟩
  · intro r hr u hu hoffends
    rcases htopics u hu with hother | hoff
    · rcases List.mem_append.mp hr with hr | hr
      · exact hrespected r hr u hother hoffends
      · rw [List.mem_singleton.mp hr] at hoffends
        exact h.alone u hother hoffends
    · exact absurd hoffends.2.1 (by rw [hoff]; decide)

theorem suggest_keeps {suggestion : Suggestion} (hlisted : Listed w a) (hrespected : Respected w a)
    (hcareful : Careful w a (.suggest suggestion)) :
    Listed w (agendaStep w a (.suggest suggestion)) ∧ Respected w (agendaStep w a (.suggest suggestion)) := by
  cases herror : suggestError w a.store suggestion with
  | some e =>
    rw [agendaStep_suggest_error herror]
    exact ⟨hlisted, hrespected⟩
  | none =>
    have hstep : agendaStep w a (.suggest suggestion) =
        ⟨⟨a.store.topics ++ [suggestion.topic], a.store.declined⟩, a.refused⟩ := by simp [agendaStep, suggest, herror]
    rw [hstep]
    refine ⟨hlisted, fun r hr t ht => ?_⟩
    rcases List.mem_append.mp ht with ht | ht
    · exact hrespected r hr t ht
    · rw [List.mem_singleton.mp ht]
      rintro ⟨-, -, hsame⟩
      have hdiffers := same_of_suggestError hlisted herror hr
      by_cases htitle : strip suggestion.title = ""
      · have hline := hcareful herror htitle r hr
        rw [Words.same, Bool.or_eq_false_iff] at hdiffers
        simp only [Suggestion.topic, orElse, if_pos htitle, Words.same, hline, hdiffers.2] at hsame
        cases hsame
      · simp only [Suggestion.topic, orElse, if_neg htitle, hdiffers] at hsame
        cases hsame

variable {topicId : String}

theorem revise_keeps {r : Revision} (hlisted : Listed w a) (hrespected : Respected w a)
    (hcareful : Careful w a (.revise topicId r)) :
    Listed w (agendaStep w a (.revise topicId r)) ∧ Respected w (agendaStep w a (.revise topicId r)) := by
  cases hfound : locate topicId a.store.topics with
  | none =>
    have hstep : agendaStep w a (.revise topicId r) = a := by simp [agendaStep, revise, hfound]
    rw [hstep]
    exact ⟨hlisted, hrespected⟩
  | some found =>
    obtain ⟨before, topic, after⟩ := found
    obtain ⟨htopics, -⟩ := locate_eq_some hfound
    cases herror : reviseError a.store topic with
    | some e =>
      have hstep : agendaStep w a (.revise topicId r) = a := by simp [agendaStep, revise, hfound, herror]
      rw [hstep]
      exact ⟨hlisted, hrespected⟩
    | none =>
      have hstep : agendaStep w a (.revise topicId r) =
          ⟨⟨before ++ r.apply topic :: after, a.store.declined⟩, a.refused⟩ := by
        simp [agendaStep, revise, hfound, herror]
      rw [hstep]
      refine ⟨hlisted, fun refusal hrefusal t ht => ?_⟩
      rcases List.mem_append.mp ht with ht | ht
      · exact hrespected refusal hrefusal t (by rw [htopics]; exact List.mem_append_left _ ht)
      · rcases List.mem_cons.mp ht with rfl | ht
        · exact hcareful _ hfound herror refusal hrefusal
        · exact hrespected refusal hrefusal t (by rw [htopics]; exact List.mem_append_right _ (List.mem_cons_of_mem _ ht))

theorem create_keeps {body : TopicRequest} (hlisted : Listed w a) (hrespected : Respected w a) :
    Listed w (agendaStep w a (.create body)) ∧ Respected w (agendaStep w a (.create body)) := by
  by_cases hask : strip body.ask = ""
  · have hstep : agendaStep w a (.create body) = a := by simp [agendaStep, create, hask]
    rw [hstep]
    exact ⟨hlisted, hrespected⟩
  · obtain ⟨topic, hsource, hstep⟩ : ∃ topic : Topic, topic.metacog = false ∧
        agendaStep w a (.create body) = ⟨⟨a.store.topics ++ [topic], a.store.declined⟩, a.refused⟩ := by
      simp only [agendaStep, create, if_neg hask]
      exact ⟨_, rfl, rfl⟩
    rw [hstep]
    refine ⟨hlisted, fun r hr t ht => ?_⟩
    rcases List.mem_append.mp ht with ht | ht
    · exact hrespected r hr t ht
    · rw [List.mem_singleton.mp ht]
      exact fun hoffends => absurd hoffends.1 (by rw [hsource]; decide)

theorem update_keeps {patch : TopicPatch} {now : ℚ} (hlisted : Listed w a) (hrespected : Respected w a)
    (hcareful : Careful w a (.update topicId patch now)) :
    Listed w (agendaStep w a (.update topicId patch now)) ∧ Respected w (agendaStep w a (.update topicId patch now)) := by
  cases hfound : locate topicId a.store.topics with
  | none =>
    have hstep : agendaStep w a (.update topicId patch now) = a := by simp [agendaStep, hfound]
    rw [hstep]
    exact ⟨hlisted, hrespected⟩
  | some found =>
    obtain ⟨before, topic, after⟩ := found
    obtain ⟨htopics, hid⟩ := locate_eq_some hfound
    cases hblank : patch.ask.any fun ask => strip ask = "" with
    | true =>
      have hstep : agendaStep w a (.update topicId patch now) = a := by simp only [agendaStep, update, hfound, hblank, if_true]
      rw [hstep]
      exact ⟨hlisted, hrespected⟩
    | false =>
      have hcondition := hcareful _ hfound hblank
      have hothers : ∀ r ∈ a.refused, ∀ u ∈ before ++ after, ¬ u.Offends w r := by
        intro r hr u hu
        refine hrespected r hr u ?_
        rw [htopics]
        rcases List.mem_append.mp hu with hu | hu
        · exact List.mem_append_left _ hu
        · exact List.mem_append_right _ (List.mem_cons_of_mem _ hu)
      have hcases : ∀ u ∈ moved (before ++ patch.apply now topic :: after) before.length patch.move,
          u ∈ before ++ after ∨ u = patch.apply now topic := by
        intro u hu
        rcases List.mem_append.mp (mem_moved hu) with hu | hu
        · exact .inl (List.mem_append_left _ hu)
        · rcases List.mem_cons.mp hu with rfl | hu
          · exact .inr rfl
          · exact .inl (List.mem_append_right _ hu)
      have hmetacog : (patch.apply now topic).metacog = topic.metacog := rfl
      have hsameId : (patch.apply now topic).id = topicId := hid
      simp only [agendaStep, update, hfound, hblank, if_neg Bool.false_ne_true, refusedByUpdate]
      by_cases hoff : (topic.enabled && !(patch.apply now topic).enabled) = true
      · rw [if_pos hoff, if_pos hoff]
        rw [if_pos hoff] at hcondition
        have hdisabled : (patch.apply now topic).enabled = false := by simpa using (Bool.and_eq_true_iff.mp hoff).2
        have htopics' : ∀ u ∈ moved (before ++ patch.apply now topic :: after) before.length patch.move,
            u ∈ before ++ after ∨ u.enabled = false :=
          fun u hu => (hcases u hu).imp_right fun hsame => by rw [hsame, hdisabled]
        cases hsource : topic.metacog with
        | true =>
          rw [if_pos (hmetacog.trans hsource)]
          exact refuse_keeps (hmetacog.trans hsource) (hcondition hsource) hlisted hothers htopics' _ _
        | false =>
          rw [if_neg (by rw [hmetacog, hsource]; decide), decline, if_pos (by rw [hmetacog, hsource]; rfl)]
          refine ⟨hlisted, fun r hr u hu hoffends => ?_⟩
          rcases htopics' u hu with hother | hoff'
          · exact hothers r hr u hother hoffends
          · exact absurd hoffends.2.1 (by rw [hoff']; decide)
      · rw [if_neg hoff, if_neg hoff]
        rw [if_neg hoff] at hcondition
        by_cases hon : ((patch.apply now topic).enabled && !topic.enabled) = true
        · -- the refusals of the topic and their entries go together
          rw [if_pos hon, if_pos hon, hsameId]
          constructor
          · intro r hr
            obtain ⟨hr, hother⟩ := List.mem_filter.mp hr
            obtain ⟨d, hd, hdid, hkeys⟩ := hlisted r hr
            exact ⟨d, List.mem_filter.mpr ⟨hd, by rw [hdid]; exact hother⟩, hdid, hkeys⟩
          · intro r hr u hu
            obtain ⟨hr, hother⟩ := List.mem_filter.mp hr
            rcases hcases u hu with hu | rfl
            · exact hothers r hr u hu
            · exact hcondition r hr fun _ => of_decide_eq_true hother
        · rw [if_neg hon, if_neg hon]
          refine ⟨hlisted, fun r hr u hu => ?_⟩
          rcases hcases u hu with hu | rfl
          · exact hothers r hr u hu
          · intro hoffends
            have henabled : topic.enabled = true := by
              rw [hoffends.2.1] at hon
              simpa using hon
            exact hcondition r hr (fun hdisabled => by rw [henabled] at hdisabled; cases hdisabled) hoffends

theorem delete_keeps {now : ℚ} (hlisted : Listed w a) (hrespected : Respected w a)
    (hcareful : Careful w a (.delete topicId now)) :
    Listed w (agendaStep w a (.delete topicId now)) ∧ Respected w (agendaStep w a (.delete topicId now)) := by
  cases hfound : locate topicId a.store.topics with
  | none =>
    have hstep : agendaStep w a (.delete topicId now) = a := by simp [agendaStep, hfound]
    rw [hstep]
    exact ⟨hlisted, hrespected⟩
  | some found =>
    obtain ⟨before, topic, after⟩ := found
    have hothers : ∀ r ∈ a.refused, ∀ u ∈ a.store.topics.filter fun t => t.id ≠ topicId, ¬ u.Offends w r :=
      fun r hr u hu => hrespected r hr u (List.mem_filter.mp hu).1
    simp only [agendaStep, delete, hfound]
    cases hsource : topic.metacog with
    | true =>
      rw [if_pos rfl]
      exact refuse_keeps hsource (hcareful _ hfound hsource) hlisted hothers (fun u hu => .inl hu) _ _
    | false =>
      rw [if_neg Bool.false_ne_true, decline, if_pos (by rw [hsource]; rfl)]
      exact ⟨hlisted, hothers⟩

theorem agendaStep_keeps {call : AgendaCall} (hlisted : Listed w a) (hrespected : Respected w a) (hcareful : Careful w a call) :
    Listed w (agendaStep w a call) ∧ Respected w (agendaStep w a call) := by
  cases call with
  | suggest suggestion => exact suggest_keeps hlisted hrespected hcareful
  | revise topicId r => exact revise_keeps hlisted hrespected hcareful
  | create body => exact create_keeps hlisted hrespected
  | update topicId patch now => exact update_keeps hlisted hrespected hcareful
  | delete topicId now => exact delete_keeps hlisted hrespected hcareful

end Step

/-- As long as each call is careful, no topic of the session that is on has the texts of a refusal. -/
theorem refusals_respected (w : Words) (s : ResearchStore) {calls : List AgendaCall}
    (h : EveryStep (agendaStep w) (Careful w) ⟨s, []⟩ calls) :
    ∀ before after, calls = before ++ after → Respected w (run (agendaStep w) ⟨s, []⟩ before) := by
  rintro before after rfl
  have hkept := invariant_of_everyStep (I := fun a => Listed w a ∧ Respected w a)
    (fun a call hboth hcareful => agendaStep_keeps hboth.1 hboth.2 hcareful)
    ⟨fun r hr => absurd hr List.not_mem_nil, fun r hr => absurd hr List.not_mem_nil⟩ (everyStep_append_left h)
  exact hkept.2

def asciiWords : Words := ⟨fun c => c.isAlphanum || c = '_', fun text => String.ofList (text.toList.map Char.toLower)⟩

def solar : Suggestion := ⟨"Solar panels", "Compare the prices of solar panels", "two notes on roofs", "", "", 0, "R-261030-0a1b", 0⟩

def wind : Suggestion := ⟨"Wind turbines", "Compare small turbines", "a note on gardens", "", "", 0, "R-261030-2c3d", 0⟩

def switchOff : TopicPatch := ⟨none, none, none, none, some false, false, 0⟩

def emptyAgenda : Agenda := ⟨⟨[], []⟩, []⟩

def refusedAgain : List AgendaCall :=
  [.suggest solar, .update solar.id switchOff 1, .suggest { solar with id := "R-261031-4e5f" }, .suggest wind]

theorem refusals_respected_again : Respected asciiWords (run (agendaStep asciiWords) emptyAgenda refusedAgain) := by
  refine refusals_respected asciiWords ⟨[], []⟩ ?_ refusedAgain [] (List.append_nil _).symm
  simp only [refusedAgain, everyStep_cons]
  refine ⟨?_, by decide +kernel, ?_, ?_, everyStep_nil⟩
  · intro _ _ r hr
    cases hr
  · exact fun _ htitle => absurd htitle (by decide +kernel)
  · exact fun _ htitle => absurd htitle (by decide +kernel)

def revisedBack : List AgendaCall :=
  [.suggest solar, .update solar.id switchOff 1, .suggest wind, .revise wind.id ⟨some "Solar panels", none, none, none, none⟩]

/-- A revision brings back a title that the user refused. -/
theorem revision_not_respected : ¬ Respected asciiWords (run (agendaStep asciiWords) emptyAgenda revisedBack) := by
  decide +kernel

end AllTomorrow.Research
