import AllTomorrow.CouncilDebate

/-!
# Confidentiality of the council

In filtered mode a member of the council hears in full only those who saw no more than it may see.
What the member is asked then depends on no other source of the profile, even through several speakers.
-/

namespace AllTomorrow.IdeaFactory

open Prog InsertionDict

/-! ## Snapshots that a member cannot tell apart -/

/-- The level and the scope that a source asks of its readers. -/
def SourceItem.access (item : SourceItem) : ℤ × String := (item.level, item.scope)

/-- The snapshots of one roster ask the same of their readers. -/
theorem access_fetchProfile (digest digest' : ProfileSource → Except String String) (sources : List ProfileSource) (name : String) :
    ((fetchProfile digest sources).get? name).map SourceItem.access =
      ((fetchProfile digest' sources).get? name).map SourceItem.access := by
  have hfetch (source : ProfileSource) : (fetchItem digest source).access = (fetchItem digest' source).access := by
    unfold fetchItem
    cases digest source <;> cases digest' source <;> rfl
  have hfold (ss : List ProfileSource) (d d' : Snapshot)
      (h : (d.get? name).map SourceItem.access = (d'.get? name).map SourceItem.access) :
      ((ss.foldl (fun profile source => profile.set source.name (fetchItem digest source)) d).get? name).map SourceItem.access =
        ((ss.foldl (fun profile source => profile.set source.name (fetchItem digest' source)) d').get? name).map
          SourceItem.access := by
    induction ss generalizing d d' with
    | nil => exact h
    | cons source rest ih =>
      refine ih _ _ ?_
      by_cases hname : name = source.name
      · rw [hname, get?_set_self, get?_set_self, Option.map_some, Option.map_some, hfetch]
      · rw [get?_set_of_ne _ _ hname, get?_set_of_ne _ _ hname]
        exact h
  exact hfold sources .empty .empty rfl

/-- The sources that have a text. -/
def present (snapshot : Snapshot) : List String := (snapshot.entries.filter fun e => e.2.text ≠ "").map Prod.fst

/-- The snapshots have texts for the same sources, which ask the same of their readers, and the member sees the same. -/
structure Indistinct (m : Staff) (snapshot snapshot' : Snapshot) : Prop where
  present : ∀ name, name ∈ present snapshot ↔ name ∈ present snapshot'
  access : ∀ name ∈ IdeaFactory.present snapshot,
    (snapshot.get? name).map SourceItem.access = (snapshot'.get? name).map SourceItem.access
  visible : visible snapshot m.accessLevel m.accessScopes = visible snapshot' m.accessLevel m.accessScopes

theorem mem_present {snapshot : Snapshot} {name : String} :
    name ∈ present snapshot ↔ ∃ item, snapshot.get? name = some item ∧ item.text ≠ "" := by
  unfold present
  simp only [List.mem_map, List.mem_filter, decide_eq_true_eq]
  constructor
  · rintro ⟨⟨k, item⟩, ⟨hmem, htext⟩, rfl⟩
    exact ⟨item, get?_of_mem_entries hmem, htext⟩
  · rintro ⟨item, hget, htext⟩
    exact ⟨(name, item), ⟨mem_entries_of_get? hget, htext⟩, rfl⟩

variable {scopes : List String}

theorem text_of_visibleTo {item : SourceItem} {level : ℤ} (h : item.visibleTo level scopes = true) : item.text ≠ "" := by
  unfold SourceItem.visibleTo at h
  simp only [Bool.and_eq_true, decide_eq_true_eq] at h
  exact h.1.1

theorem visibleTo_of_access {item item' : SourceItem} (haccess : item.access = item'.access) (htext : item'.text ≠ "")
    {level : ℤ} (h : item.visibleTo level scopes = true) : item'.visibleTo level scopes = true := by
  unfold SourceItem.visibleTo at h ⊢
  obtain ⟨hlevel, hscope⟩ := Prod.mk.inj haccess
  simp only [Bool.and_eq_true, decide_eq_true_eq] at h ⊢
  rw [← hlevel, ← hscope]
  exact ⟨⟨htext, h.1.2⟩, h.2⟩

theorem mem_visibleNames {snapshot : Snapshot} {level : ℤ} {name : String} :
    name ∈ (visible snapshot level scopes).map Prod.fst ↔
      ∃ item, snapshot.get? name = some item ∧ item.visibleTo level scopes = true := by
  unfold visible
  simp only [List.mem_map, List.mem_filter]
  constructor
  · rintro ⟨_, ⟨⟨k, item⟩, ⟨hmem, hvisible⟩, rfl⟩, rfl⟩
    exact ⟨item, get?_of_mem_entries hmem, hvisible⟩
  · rintro ⟨item, hget, hvisible⟩
    exact ⟨_, ⟨(name, item), ⟨mem_entries_of_get? hget, hvisible⟩, rfl⟩, rfl⟩

theorem nodup_visibleNames (snapshot : Snapshot) (level : ℤ) (scopes : List String) :
    ((visible snapshot level scopes).map Prod.fst).Nodup := by
  unfold visible
  rw [List.map_map]
  exact snapshot.nodup_keys.sublist (List.filter_sublist.map Prod.fst)

theorem mem_sourcesOf {member : Staff} {snapshot : Snapshot} {name : String} : name ∈ sourcesOf member snapshot ↔
    ∃ item, snapshot.get? name = some item ∧ item.visibleTo member.accessLevel member.accessScopes = true :=
  (List.mem_insertionSort _).trans mem_visibleNames

/-- Who sees no more than another sees the part of the other's sources that are its own. -/
theorem visible_eq_filter {member m : Staff} {snapshot : Snapshot}
    (hsub : sourcesOf member snapshot ⊆ sourcesOf m snapshot) :
    visible snapshot member.accessLevel member.accessScopes =
      (visible snapshot m.accessLevel m.accessScopes).filter fun e => e.1 ∈ sourcesOf member snapshot := by
  unfold visible
  rw [List.filter_map, List.filter_filter]
  refine congrArg _ (List.filter_congr fun e he => ?_)
  have hget := get?_of_mem_entries he
  rw [Bool.eq_iff_iff, Bool.and_eq_true, Function.comp_apply, decide_eq_true_eq]
  constructor
  · intro hvisible
    have hown : e.1 ∈ sourcesOf member snapshot := mem_sourcesOf.mpr ⟨e.2, hget, hvisible⟩
    obtain ⟨item, hitem, hseen⟩ := mem_sourcesOf.mp (hsub hown)
    cases hget.symm.trans hitem
    exact ⟨hown, hseen⟩
  · rintro ⟨hown, -⟩
    obtain ⟨item, hitem, hseen⟩ := mem_sourcesOf.mp hown
    cases hget.symm.trans hitem
    exact hseen

section Snapshots

variable {m : Staff} {snapshot snapshot' : Snapshot} (h : Indistinct m snapshot snapshot')

include h

theorem Indistinct.symm : Indistinct m snapshot' snapshot :=
  ⟨fun name => (h.present name).symm, fun name hname => (h.access name ((h.present name).mpr hname)).symm, h.visible.symm⟩

theorem Indistinct.visibleTo {name : String} {item : SourceItem} (hget : snapshot.get? name = some item) {level : ℤ}
    (hvisible : item.visibleTo level scopes = true) :
    ∃ item', snapshot'.get? name = some item' ∧ item'.visibleTo level scopes = true := by
  have hpresent := mem_present.mpr ⟨item, hget, text_of_visibleTo hvisible⟩
  obtain ⟨item', hget', htext'⟩ := mem_present.mp ((h.present name).mp hpresent)
  have haccess := h.access name hpresent
  rw [hget, hget', Option.map_some, Option.map_some, Option.some.injEq] at haccess
  exact ⟨item', hget', visibleTo_of_access haccess htext' hvisible⟩

theorem Indistinct.sourcesOf (member : Staff) : sourcesOf member snapshot = sourcesOf member snapshot' := by
  have hperm : ((IdeaFactory.visible snapshot member.accessLevel member.accessScopes).map Prod.fst).Perm
      ((IdeaFactory.visible snapshot' member.accessLevel member.accessScopes).map Prod.fst) := by
    refine (List.perm_ext_iff_of_nodup (nodup_visibleNames ..) (nodup_visibleNames ..)).mpr fun name => ?_
    rw [mem_visibleNames, mem_visibleNames]
    exact ⟨fun ⟨item, hget, hseen⟩ => h.visibleTo hget hseen, fun ⟨item, hget, hseen⟩ => h.symm.visibleTo hget hseen⟩
  unfold IdeaFactory.sourcesOf
  refine List.Perm.eq_of_pairwise' (List.pairwise_insertionSort (· ≤ ·) _) (List.pairwise_insertionSort (· ≤ ·) _) ?_
  exact (List.perm_insertionSort _ _).trans (hperm.trans (List.perm_insertionSort _ _).symm)

/-- Who sees no more than the member sees the same texts in both. -/
theorem Indistinct.contextBlock {member : Staff} (hsub : IdeaFactory.sourcesOf member snapshot ⊆ IdeaFactory.sourcesOf m snapshot) :
    contextBlock snapshot member = contextBlock snapshot' member := by
  have hsub' : IdeaFactory.sourcesOf member snapshot' ⊆ IdeaFactory.sourcesOf m snapshot' := by
    rw [← h.sourcesOf member, ← h.sourcesOf m]
    exact hsub
  unfold IdeaFactory.contextBlock
  rw [visible_eq_filter hsub, visible_eq_filter hsub', h.visible, h.sourcesOf member]

end Snapshots

/-! ## What a listener hears -/

structure HeardAlike (allowed : List String) (v v' : Vote) : Prop where
  round : v.round = v'.round
  name : v.name = v'.name
  stance : v.stance = v'.stance
  sources : v.sources = v'.sources
  reason : ∀ known, v.sources = some known → known ⊆ allowed → v.reason = v'.reason

theorem reasonFor_filtered (classes : CharClasses) (allowed : List String) (snapshot : Snapshot) (v : Vote) :
    reasonFor .filtered classes allowed snapshot v =
      match v.sources with
      | none => omitted
      | some known => if known ⊆ allowed then v.reason else omitted := by
  unfold reasonFor
  cases v.sources with
  | none => rfl
  | some known =>
    dsimp only
    by_cases hknown : known ⊆ allowed
    · rw [if_pos (.inr hknown), if_pos hknown]
    · rw [if_neg (by simp [hknown]), if_neg hknown]

variable {allowed allowed' : List String}

theorem HeardAlike.reasonFor {v v' : Vote} (h : HeardAlike allowed v v')
    (hallowed : allowed' ⊆ allowed) (classes : CharClasses) (snapshot snapshot' : Snapshot) :
    reasonFor .filtered classes allowed' snapshot v = reasonFor .filtered classes allowed' snapshot' v' := by
  rw [reasonFor_filtered, reasonFor_filtered, ← h.sources]
  cases hsources : v.sources with
  | none => rfl
  | some known =>
    dsimp only
    split
    · next hknown => exact h.reason known hsources (List.Subset.trans hknown hallowed)
    · rfl

theorem transcriptFor_alike {transcript transcript' : List Vote}
    (h : List.Forall₂ (HeardAlike allowed) transcript transcript') (hallowed : allowed' ⊆ allowed) (classes : CharClasses)
    (snapshot snapshot' : Snapshot) (tag : String) : transcriptFor .filtered classes allowed' transcript snapshot tag =
      transcriptFor .filtered classes allowed' transcript' snapshot' tag := by
  unfold transcriptFor
  refine congrArg _ ?_
  induction h with
  | nil => rfl
  | cons hv _ ih =>
    rw [List.map_cons, List.map_cons, ih, hv.round, hv.name, hv.stance, hv.reasonFor hallowed classes snapshot snapshot']

section Council

variable {f : Factory} (hmode : f.mode = .filtered) {m : Staff} {snapshot snapshot' : Snapshot}
  (h : Indistinct m snapshot snapshot')

include hmode h

variable {transcript transcript' : List Vote}

theorem councilPrompt_alike (idea : Idea) (roundNo : ℕ) (brief : String) {member : Staff}
    (hsub : sourcesOf member snapshot ⊆ sourcesOf m snapshot)
    (htranscript : List.Forall₂ (HeardAlike (sourcesOf m snapshot)) transcript transcript') :
    councilPrompt f idea roundNo brief member transcript snapshot =
      councilPrompt f idea roundNo brief member transcript' snapshot' := by
  unfold councilPrompt
  dsimp only
  rw [hmode, h.contextBlock hsub, ← h.sourcesOf member,
    transcriptFor_alike htranscript hsub f.classes snapshot snapshot' "라운드"]

variable {model : String → String → String → ℕ → Except Exn PyValue} {staff : InsertionDict String Staff} {idea : Idea}

/-- One speech in both runs: who sees no more than the member is asked and says the same. -/
theorem speak_alike {roundNo : ℕ} {role : String}
    (htranscript : List.Forall₂ (HeardAlike (sourcesOf m snapshot)) transcript transcript') {s s' : Speech}
    (hs : speak f model staff idea snapshot roundNo role transcript = .ok s)
    (hs' : speak f model staff idea snapshot' roundNo role transcript' = .ok s') :
    s.speaker = s'.speaker ∧ s.vote.round = s'.vote.round ∧ s.vote.name = s'.vote.name ∧ s.vote.sources = s'.vote.sources ∧
      s.vote.sources = some (sourcesOf s.speaker snapshot) ∧
      (sourcesOf s.speaker snapshot ⊆ sourcesOf m snapshot → s.prompt = s'.prompt ∧ s.vote.reason = s'.vote.reason) := by
  unfold speak at hs hs'
  cases hmembers : membersOf staff role with
  | nil =>
    rw [hmembers] at hs
    cases hs
  | cons member _ =>
    rw [hmembers] at hs hs'
    obtain ⟨brief, hbrief, hs⟩ := except_bind_ok.mp hs
    obtain ⟨brief', hbrief', hs'⟩ := except_bind_ok.mp hs'
    cases hbrief.symm.trans hbrief'
    obtain ⟨vote, hvote, hmade⟩ := except_bind_ok.mp hs
    obtain ⟨vote', hvote', hmade'⟩ := except_bind_ok.mp hs'
    cases hmade
    cases hmade'
    have hfields {data : PyValue} {snap : Snapshot} {v : Vote}
        (hv : voteOf f roundNo role member (sourcesOf member snap) data = .ok v) :
        v.round = roundNo ∧ v.name = member.name ∧ v.sources = some (sourcesOf member snap) := by
      unfold voteOf at hv
      obtain ⟨_, -, hv⟩ := except_bind_ok.mp hv
      obtain ⟨_, -, hv⟩ := except_bind_ok.mp hv
      obtain ⟨_, -, hv⟩ := except_bind_ok.mp hv
      cases hv
      exact ⟨rfl, rfl, rfl⟩
    obtain ⟨data, -, hread⟩ := except_bind_ok.mp hvote
    obtain ⟨data', -, hread'⟩ := except_bind_ok.mp hvote'
    obtain ⟨hround, hname, hsources⟩ := hfields hread
    obtain ⟨hround', hname', hsources'⟩ := hfields hread'
    refine ⟨rfl, hround.trans hround'.symm, hname.trans hname'.symm, ?_, hsources, fun hsub => ?_⟩
    · rw [hsources, hsources', h.sourcesOf member]
    · have hprompt := councilPrompt_alike hmode h idea roundNo brief hsub htranscript
      refine ⟨hprompt, ?_⟩
      rw [← hprompt, ← h.sourcesOf member] at hvote'
      rw [Except.ok.inj (hvote.symm.trans hvote')]

/-- In two debates with the same stances the member is asked the same. -/
theorem debate_private (turns : List (ℕ × String))
    (htranscript : List.Forall₂ (HeardAlike (sourcesOf m snapshot)) transcript transcript') {speeches speeches' : List Speech}
    (hs : debate f model staff idea snapshot turns transcript = .ok speeches)
    (hs' : debate f model staff idea snapshot' turns transcript' = .ok speeches')
    (hstances : (speeches.map Speech.vote).map Vote.stance = (speeches'.map Speech.vote).map Vote.stance) :
    (speeches.filter fun s => s.speaker = m).map Speech.prompt = (speeches'.filter fun s => s.speaker = m).map Speech.prompt := by
  induction turns generalizing transcript transcript' speeches speeches' with
  | nil =>
    cases hs
    cases hs'
    rfl
  | cons turn rest ih =>
    obtain ⟨roundNo, role⟩ := turn
    obtain ⟨s, hspeech, hs⟩ := except_bind_ok.mp hs
    obtain ⟨s', hspeech', hs'⟩ := except_bind_ok.mp hs'
    obtain ⟨others, hothers, hmade⟩ := except_bind_ok.mp hs
    obtain ⟨others', hothers', hmade'⟩ := except_bind_ok.mp hs'
    cases hmade
    cases hmade'
    simp only [List.map_cons, List.cons.injEq] at hstances
    obtain ⟨hspeaker, hround, hname, hsources, hknown, hsame⟩ := speak_alike hmode h htranscript hspeech hspeech'
    have hheard : HeardAlike (sourcesOf m snapshot) s.vote s'.vote := by
      refine ⟨hround, hname, hstances.1, hsources, fun known hk hsub => (hsame ?_).2⟩
      cases hknown.symm.trans hk
      exact hsub
    have hnext : List.Forall₂ (HeardAlike (sourcesOf m snapshot)) (transcript ++ [s.vote]) (transcript' ++ [s'.vote]) :=
      List.rel_append htranscript (.cons hheard .nil)
    have hrest := ih hnext hothers hothers' hstances.2
    rw [List.filter_cons, List.filter_cons, ← hspeaker]
    split
    · next hm =>
      have hm : s.speaker = m := of_decide_eq_true hm
      rw [List.map_cons, List.map_cons, hrest, (hsame (hm ▸ List.Subset.refl _)).1]
    · exact hrest

end Council

def promptsTo (m : Staff) (actions : List FactoryAction) : List (String × String) :=
  ((asked actions).filter fun e => e.1 = m).map Prod.snd

/-- The council of one idea on a snapshot. -/
def councilRun (f : Factory) (workflowId : String) (polls : ℕ) (topicId : String) (idea : Idea) (snapshot : Snapshot) (n : ℕ)
    (env : Supply) : Prog FactoryAction FactoryAction.Answer (Except Exn (Option (List Vote))) :=
  durable f workflowId (Workflow.councilVotes polls topicId idea snapshot (Workflow.turns f.roster.councilRounds) []) n env

theorem prompts_councilRun {π : Type} {f : Factory} {model : String → String → String → ℕ → Except Exn PyValue}
    {ext : FactoryExternals π} {journal : π → String → ℕ → Option (String × Except Exn StepAnswer)}
    (hjournal : KeepsJournal ext journal)
    (hmodel : ∀ member system user t o, (ext.chatJson member system user t o).1 = model member.modelGroup system user t)
    {staff : InsertionDict String Staff} (m : Staff) {polls : ℕ} {topicId workflowId : String} {idea : Idea} {snapshot : Snapshot}
    {n : ℕ} {env : Supply} {w : FactoryWorld π} (hready : Ready journal staff workflowId n w) {votes : List Vote}
    (hrun : ((councilRun f workflowId polls topicId idea snapshot n env).eval (FactoryWorld.handler ext) w).1 = .ok (some votes)) :
    ∃ speeches, debate f model staff idea snapshot (Workflow.turns f.roster.councilRounds) [] = .ok speeches ∧
      votes = speeches.map Speech.vote ∧
      promptsTo m (requests (FactoryWorld.handler ext) (councilRun f workflowId polls topicId idea snapshot n env) w) =
        (speeches.filter fun s => s.speaker = m).map Speech.prompt := by
  obtain ⟨speeches, hdebate, hvotes, hasked⟩ :=
    councilVotes_debates hjournal hmodel polls topicId idea _ _ [] n env w hready _ hrun votes rfl
  refine ⟨speeches, hdebate, hvotes, ?_⟩
  change asked (requests (FactoryWorld.handler ext) (councilRun f workflowId polls topicId idea snapshot n env) w) = _ at hasked
  unfold promptsTo
  rw [hasked, List.filter_map, List.map_map]
  rfl

/-- Two runs of the council on one idea, with the same staff, the same model and the same stances, whose snapshots a member
cannot tell apart, ask the member the same. -/
theorem council_confidential {π π' : Type} (f : Factory) (hmode : f.mode = .filtered)
    (model : String → String → String → ℕ → Except Exn PyValue) (ext : FactoryExternals π) (ext' : FactoryExternals π')
    (hmodel : ∀ member system user t o, (ext.chatJson member system user t o).1 = model member.modelGroup system user t)
    (hmodel' : ∀ member system user t o, (ext'.chatJson member system user t o).1 = model member.modelGroup system user t)
    (journal : π → String → ℕ → Option (String × Except Exn StepAnswer)) (hjournal : KeepsJournal ext journal)
    (journal' : π' → String → ℕ → Option (String × Except Exn StepAnswer)) (hjournal' : KeepsJournal ext' journal')
    (staff : InsertionDict String Staff) (m : Staff) (snapshot snapshot' : Snapshot)
    (hsnapshots : Indistinct m snapshot snapshot') (polls polls' : ℕ) (topicId workflowId topicId' workflowId' : String)
    (idea : Idea) (n n' : ℕ) (env env' : Supply) (w : FactoryWorld π) (w' : FactoryWorld π')
    (hready : Ready journal staff workflowId n w) (hready' : Ready journal' staff workflowId' n' w') (votes votes' : List Vote)
    (hrun : ((councilRun f workflowId polls topicId idea snapshot n env).eval (FactoryWorld.handler ext) w).1 = .ok (some votes))
    (hrun' : ((councilRun f workflowId' polls' topicId' idea snapshot' n' env').eval (FactoryWorld.handler ext') w').1 =
      .ok (some votes'))
    (hstances : votes.map Vote.stance = votes'.map Vote.stance) :
    promptsTo m (requests (FactoryWorld.handler ext) (councilRun f workflowId polls topicId idea snapshot n env) w) =
      promptsTo m (requests (FactoryWorld.handler ext') (councilRun f workflowId' polls' topicId' idea snapshot' n' env') w') := by
  obtain ⟨speeches, hdebate, rfl, hasked⟩ := prompts_councilRun hjournal hmodel m hready hrun
  obtain ⟨speeches', hdebate', rfl, hasked'⟩ := prompts_councilRun hjournal' hmodel' m hready' hrun'
  rw [hasked, hasked']
  exact debate_private hmode hsnapshots _ .nil hdebate hdebate' hstances

/-! ### A visionary with a secret -/

def secretRoster : Roster where
  ideasPerTopic := 1
  councilRounds := 1
  councilPassVotes := 3
  evaluationMinSamples := 1
  promotes _ _ := false
  retires _ _ := false
  tiers := []
  staff := []
  profileSources := [⟨"money", "rows", 3, "finance"⟩, ⟨"plans", "sections", 1, "work"⟩]
  councilShare := some .filtered

def secretFactory : Factory where
  roster := secretRoster
  patents := ⟨"특허 미검사", true⟩
  classes := ⟨fun c => c.isDigit, fun c => c.isAlphanum⟩
  str
    | .str s => s
    | _ => ""
  lower := id
  jsonDumps _ := ""

def memberRow (role : String) (level : ℤ) (scopes : List String) : Staff :=
  { id := role ++ "-g1", role := role, name := role, modelGroup := "free", generation := 1, hiredAt := 0, changedAt := 0
    accessLevel := level, accessScopes := scopes }

def secretStaff : InsertionDict String Staff :=
  ["visionary", "operator", "advocate", "skeptic"].foldl (fun staff role =>
    staff.set (role ++ "-g1") (if role = "visionary" then memberRow role 3 ["finance", "work"] else memberRow role 1 ["work"]))
    .empty

def supportiveModel (_ _ _ : String) (_ : ℕ) : Except Exn PyValue :=
  .ok (.dict [("stance", .str "support"), ("reason", .str "good")])

/-- What DBOS has recorded: the steps of the workflows, each with its name and its answer. -/
abbrev Recorded := InsertionDict (String × ℕ) (String × Except Exn StepAnswer)

def supportiveExternals : FactoryExternals Recorded where
  chatJson member system user temperature s := (supportiveModel member.modelGroup system user temperature, s)
  search _ _ s := (.ok [], s)
  sources s := (none, s)
  lookup workflowId n s := ((s.get? (workflowId, n)).elim .absent fun step => .recorded step.1 step.2, s)
  record workflowId n name answer s :=
    if s.contains (workflowId, n) then (.error (.foreign "DBOSWorkflowConflictIDError" workflowId), s)
    else (.ok (), s.set (workflowId, n) (name, answer))
  startWorkflow _ s := (.ok (), s)
  cancelWorkflow _ s := (.ok (), s)

theorem supportive_keepsJournal : KeepsJournal supportiveExternals fun s workflowId n => s.get? (workflowId, n) where
  lookup _ _ _ := .inr rfl
  lookup_keeps _ _ _ := rfl
  record := by
    intro workflowId n name answer s hok workflowId' k
    by_cases hheld : s.contains (workflowId, n) = true
    · simp [supportiveExternals, hheld] at hok
    · simp only [supportiveExternals, hheld, Bool.false_eq_true, if_false]
      by_cases hsame : workflowId' = workflowId ∧ k = n
      · rw [if_pos hsame, hsame.1, hsame.2, get?_set_self]
      · rw [if_neg hsame, get?_set_of_ne _ _ fun he => hsame (Prod.mk.inj he)]
  chatJson_keeps _ _ _ _ _ := rfl

def moneyDigest (money : String) (source : ProfileSource) : Except String String :=
  .ok (if source.name = "money" then money else "plan A")

def secretIdea : Idea := ⟨"t1-i1", "t1", 1, "a", "b", "c", "ideator-g1"⟩

def secretWorld : FactoryWorld Recorded := ⟨{ FactoryStore.empty with staff := secretStaff }, .empty⟩

def skeptic : Staff := memberRow "skeptic" 1 ["work"]

def secretRun (snapshot : Snapshot) : Prog FactoryAction FactoryAction.Answer (Except Exn (Option (List Vote))) :=
  councilRun secretFactory "t1" 1 "t1" secretIdea snapshot 0 fun _ => ⟨0, ""⟩

def moneySnapshot (money : String) : Snapshot := fetchProfile (moneyDigest money) secretFactory.roster.profileSources

def secretVotes : List Vote :=
  ["visionary", "operator", "advocate", "skeptic"].map fun role =>
    { round := 1, role := role, staffId := role ++ "-g1", name := role, stance := .support, reason := "good"
      sources := some (if role = "visionary" then ["money", "plans"] else ["plans"]) }

theorem secretWorld_ready : Ready (fun s workflowId n => s.get? (workflowId, n)) secretStaff "t1" 0 secretWorld :=
  ⟨rfl, fun _ _ => rfl⟩

/-- The skeptic is asked the same whatever the money is. -/
theorem skeptic_learns_nothing :
    promptsTo skeptic (requests (FactoryWorld.handler supportiveExternals) (secretRun (moneySnapshot "100")) secretWorld) =
      promptsTo skeptic (requests (FactoryWorld.handler supportiveExternals) (secretRun (moneySnapshot "200")) secretWorld) := by
  refine council_confidential secretFactory rfl supportiveModel supportiveExternals supportiveExternals (fun _ _ _ _ _ => rfl)
    (fun _ _ _ _ _ => rfl) _ supportive_keepsJournal _ supportive_keepsJournal secretStaff skeptic (moneySnapshot "100")
    (moneySnapshot "200") ⟨?_, fun name _ => access_fetchProfile _ _ _ name, ?_⟩ 1 1 "t1" "t1" "t1" "t1" secretIdea 0 0 _ _
    secretWorld secretWorld secretWorld_ready secretWorld_ready secretVotes secretVotes ?_ ?_ rfl
  · intro name
    rw [show present (moneySnapshot "100") = present (moneySnapshot "200") by decide +kernel]
  · decide +kernel
  · decide +kernel
  · decide +kernel

/-- The money, at a level that nobody has. -/
def lockedSnapshot : Snapshot := (moneySnapshot "100").set "money" { level := 9, scope := "finance", text := "100" }

def lockedVotes : List Vote := secretVotes.map fun vote => { vote with sources := some ["plans"] }

/-- What the skeptic hears of the visionary depends on the level of a source that the skeptic does not see. -/
theorem skeptic_hears_by_level :
    (∀ name, name ∈ present (moneySnapshot "100") ↔ name ∈ present lockedSnapshot) ∧
      visible (moneySnapshot "100") skeptic.accessLevel skeptic.accessScopes =
        visible lockedSnapshot skeptic.accessLevel skeptic.accessScopes ∧
      ((secretRun (moneySnapshot "100")).eval (FactoryWorld.handler supportiveExternals) secretWorld).1 = .ok (some secretVotes) ∧
      ((secretRun lockedSnapshot).eval (FactoryWorld.handler supportiveExternals) secretWorld).1 = .ok (some lockedVotes) ∧
      secretVotes.map Vote.stance = lockedVotes.map Vote.stance ∧
      promptsTo skeptic (requests (FactoryWorld.handler supportiveExternals) (secretRun (moneySnapshot "100")) secretWorld) ≠
        promptsTo skeptic (requests (FactoryWorld.handler supportiveExternals) (secretRun lockedSnapshot) secretWorld) := by
  refine ⟨fun name => ?_, by decide +kernel, by decide +kernel, by decide +kernel, rfl, by decide +kernel⟩
  rw [show present (moneySnapshot "100") = present lockedSnapshot by decide +kernel]

end AllTomorrow.IdeaFactory
