import Mathlib.Data.List.Sort
import AllTomorrow.MachineRuns

/-!
# Parts of reports

`overseer/reports.py`: reports are files in a folder, and Eve takes their parts and acknowledges them one
after the other.
-/

namespace AllTomorrow.EdgeReports

open MachineRuns

/-! ## Slices -/

/-- `range(start, stop, step)` for a positive step -/
def rangeBy (step start stop : ℕ) : List ℕ :=
  if start < stop ∧ 0 < step then start :: rangeBy step (start + step) stop else []
termination_by stop - start

/-- `[xs[i:i + size] for i in range(start, len(xs), size)]` -/
def slices {α : Type} (size start : ℕ) (xs : List α) : List (List α) :=
  (rangeBy size start xs.length).map fun i => (xs.drop i).take size

theorem length_rangeBy {step : ℕ} (hstep : 0 < step) (start stop : ℕ) :
    (rangeBy step start stop).length = (stop - start + (step - 1)) / step := by
  induction start using rangeBy.induct step stop with
  | case1 start h ih =>
    rw [rangeBy, if_pos h, List.length_cons, ih]
    by_cases hlast : stop ≤ start + step
    · have hnone : stop - (start + step) + (step - 1) < step := by omega
      have hone : stop - start + (step - 1) = (stop - start - 1) + step := by omega
      rw [Nat.div_eq_of_lt hnone, hone, Nat.add_div_right _ hstep, Nat.div_eq_of_lt (by omega)]
    · have hmore : stop - start + (step - 1) = stop - (start + step) + (step - 1) + step := by omega
      rw [hmore, Nat.add_div_right _ hstep]
  | case2 start h =>
    have hdone : stop - start = 0 := by omega
    rw [rangeBy, if_neg h, hdone, Nat.zero_add, Nat.div_eq_of_lt (by omega)]
    rfl

theorem length_slices {α : Type} {size : ℕ} (hsize : 0 < size) (xs : List α) :
    (slices size 0 xs).length = (xs.length + (size - 1)) / size := by
  unfold slices
  rw [List.length_map, length_rangeBy hsize, Nat.sub_zero]

theorem flatten_slices {α : Type} {size : ℕ} (hsize : 0 < size) (start : ℕ) (xs : List α) :
    (slices size start xs).flatten = xs.drop start := by
  unfold slices
  induction start using rangeBy.induct size xs.length with
  | case1 start h ih =>
    rw [rangeBy, if_pos h, List.map_cons, List.flatten_cons, ih, ← List.drop_drop, List.take_append_drop]
  | case2 start h =>
    rw [rangeBy, if_neg h, List.map_nil, List.flatten_nil, List.drop_eq_nil_of_le (by omega)]

structure ReportFile where
  id : String
  content : String
  sentParts : ℕ := 0
  /- absent until the first acknowledgement -/
  eveSentParts : ℕ := 0
  discordMessages : List String := []
  sent : Bool := false
  deriving DecidableEq

structure PendingReport where
  eventId : String
  parts : List String
  nextPart : ℕ
  deriving DecidableEq

/-- `[content[i:i + 800] for i in range(0, len(content), 800)] or [""]` -/
def ReportFile.parts (f : ReportFile) : List String :=
  let parts := (slices 800 0 f.content.toList).map String.ofList
  if parts = [] then [""] else parts

/-- `max(1, (len(content) + 799) // 800)` -/
def ReportFile.count (f : ReportFile) : ℕ := max 1 ((f.content.toList.length + 799) / 800)

abbrev ReportFolder := List ReportFile

namespace ReportFolder

def enqueue (folder : ReportFolder) (reportId content : String) : ReportFolder :=
  if folder.any fun f => f.id = reportId then folder
  else folder.orderedInsert (fun f g => f.id ++ ".json" ≤ g.id ++ ".json") { id := reportId, content := content }

def pendingFrom : ReportFolder → List PendingReport → List PendingReport
  | [], result => result
  | f :: rest, result =>
    let result := if f.sent then result else result ++ [⟨f.id, f.parts, f.eveSentParts⟩]
    if 20 ≤ result.length then result else pendingFrom rest result

def pending (folder : ReportFolder) : List PendingReport := pendingFrom folder []

/-- The answer for the file of the report, and the file afterwards. The part is not negative. -/
def acknowledgeFile (f : ReportFile) (part : ℕ) (messageId : String) : Bool × ReportFile :=
  if part < f.eveSentParts then (part < f.discordMessages.length && f.discordMessages[part]? = some messageId, f)
  else if part ≠ f.eveSentParts ∨ f.count ≤ part ∨ f.sent = true then (false, f)
  else (true, { f with
    discordMessages := f.discordMessages ++ [messageId]
    eveSentParts := part + 1
    sent := part + 1 = f.count })

def acknowledge (eventId : String) (part : ℕ) (messageId : String) : ReportFolder → Bool × ReportFolder
  | [] => (false, [])
  | f :: rest =>
    if f.id ≠ eventId then
      let result := acknowledge eventId part messageId rest
      (result.1, f :: result.2)
    else
      let result := acknowledgeFile f part messageId
      (result.1, result.2 :: rest)

end ReportFolder

inductive EdgeCall where
  | enqueue (reportId content : String)
  | pending
  | acknowledge (eventId : String) (part : ℕ) (messageId : String)

def ReportFolder.step (folder : ReportFolder) : EdgeCall → ReportFolder
  | .enqueue reportId content => folder.enqueue reportId content
  | .pending => folder
  | .acknowledge eventId part messageId => (folder.acknowledge eventId part messageId).2

/-! ## One file -/

/-- Eve has as many messages as parts, and the report is sent once it has all of them. -/
structure ReportFile.Ok (f : ReportFile) : Prop where
  messages : f.discordMessages.length = f.eveSentParts
  bounded : f.eveSentParts ≤ f.count
  sent : f.sent = true ↔ f.eveSentParts = f.count

theorem ReportFile.parts_join (f : ReportFile) : String.join f.parts = f.content := by
  have hjoin : (((slices 800 0 f.content.toList).map String.ofList).flatMap String.toList) = f.content.toList := by
    rw [List.flatMap_map]
    simp only [String.toList_ofList]
    rw [List.flatMap_id']
    exact flatten_slices (by omega) 0 f.content.toList
  rw [← String.toList_inj, String.toList_join]
  unfold ReportFile.parts
  dsimp only
  split
  · next hnone =>
    rw [hnone] at hjoin
    exact hjoin
  · exact hjoin

theorem ReportFile.parts_length (f : ReportFile) : f.parts.length = f.count := by
  have hlength := length_slices (by omega : 0 < 800) f.content.toList
  unfold ReportFile.parts ReportFile.count
  dsimp only
  split
  · next hnone =>
    rw [List.map_eq_nil_iff] at hnone
    rw [hnone] at hlength
    simp only [List.length_nil] at hlength
    simp only [List.length_singleton]
    omega
  · next hsome =>
    have hne : slices 800 0 f.content.toList ≠ [] := fun he => hsome (by rw [he, List.map_nil])
    have hpos := List.length_pos_iff.mpr hne
    rw [List.length_map]
    omega

theorem ReportFile.one_le_count (f : ReportFile) : 1 ≤ f.count := Nat.le_max_left _ _

namespace ReportFolder

variable {f : ReportFile}

/-- A message is accepted if it repeats the recorded one, or is for the next part. -/
theorem acknowledgeFile_answer (hf : f.Ok) (part : ℕ) (messageId : String) : (acknowledgeFile f part messageId).1 = true ↔
      f.discordMessages[part]? = some messageId ∨ (part = f.eveSentParts ∧ part < f.count) := by
  have hlength := hf.messages
  have hsent := hf.sent
  unfold acknowledgeFile
  split
  · next hlt =>
    simp only [Bool.and_eq_true, decide_eq_true_eq]
    constructor
    · rintro ⟨-, hrepeat⟩
      exact .inl hrepeat
    · rintro (hrepeat | ⟨hnext, -⟩)
      · exact ⟨by omega, hrepeat⟩
      · omega
  · next hge =>
    have hnone : f.discordMessages[part]? = none := List.getElem?_eq_none (by omega)
    rw [hnone]
    split
    · next hrefused =>
      refine ⟨fun h => (by cases h), ?_⟩
      rintro (h | ⟨hnext, hlt⟩)
      · cases h
      · rcases hrefused with hne | hcount | hdone
        · exact absurd hnext hne
        · omega
        · have := hsent.mp hdone
          omega
    · next haccepted =>
      rw [not_or, not_or, not_not] at haccepted
      exact ⟨fun _ => .inr ⟨haccepted.1, by omega⟩, fun _ => rfl⟩

theorem acknowledgeFile_ok (hf : f.Ok) (part : ℕ) (messageId : String) : (acknowledgeFile f part messageId).2.Ok := by
  have hlength := hf.messages
  unfold acknowledgeFile
  split
  · exact hf
  · split
    · exact hf
    · next haccepted =>
      rw [not_or, not_or, not_not] at haccepted
      obtain ⟨hnext, hcount, -⟩ := haccepted
      refine ⟨?_, ?_, ?_⟩
      · simp only [List.length_append, List.length_singleton]
        omega
      · exact Nat.not_le.mp hcount
      · simp only [decide_eq_true_eq]
        exact Iff.rfl

@[simp] theorem acknowledgeFile_id (f : ReportFile) (part : ℕ) (messageId : String) :
    (acknowledgeFile f part messageId).2.id = f.id := by
  unfold acknowledgeFile
  split_ifs <;> rfl

@[simp] theorem acknowledgeFile_content (f : ReportFile) (part : ℕ) (messageId : String) :
    (acknowledgeFile f part messageId).2.content = f.content := by
  unfold acknowledgeFile
  split_ifs <;> rfl

/-- Only an accepted message is recorded, for its part. -/
theorem acknowledgeFile_recorded (hf : f.Ok) (part : ℕ) (messageId : String) (k : ℕ) (m : String) :
    (acknowledgeFile f part messageId).2.discordMessages[k]? = some m ↔
      f.discordMessages[k]? = some m ∨ (k = part ∧ m = messageId ∧ (acknowledgeFile f part messageId).1 = true) := by
  have hanswer := acknowledgeFile_answer hf part messageId
  have hlength := hf.messages
  by_cases hnew : part = f.eveSentParts ∧ part < f.count
  · have hsent : ¬f.sent = true := fun h => by
      have := hf.sent.mp h
      omega
    have haccepted : acknowledgeFile f part messageId = (true, { f with
        discordMessages := f.discordMessages ++ [messageId]
        eveSentParts := part + 1
        sent := part + 1 = f.count }) := by
      have hopen : ¬(part ≠ f.eveSentParts ∨ f.count ≤ part ∨ f.sent = true) := by
        rintro (hne | hcount | hdone)
        · exact hne hnew.1
        · omega
        · exact hsent hdone
      unfold acknowledgeFile
      rw [if_neg (by omega), if_neg hopen]
    rw [haccepted]
    dsimp only
    rw [List.getElem?_append]
    split
    · next hlt =>
      exact ⟨.inl, fun h => h.resolve_right fun hk => by omega⟩
    · next hge =>
      rw [List.getElem?_eq_none (by omega : f.discordMessages.length ≤ k)]
      constructor
      · intro hk
        rw [List.getElem?_singleton] at hk
        split at hk
        · cases hk
          exact .inr ⟨by omega, rfl, rfl⟩
        · cases hk
      · rintro (hk | ⟨rfl, rfl, -⟩)
        · cases hk
        · rw [hnew.1, ← hlength, Nat.sub_self]
          rfl
  · have hsame : (acknowledgeFile f part messageId).2 = f := by
      have hsent := hf.sent
      have hbounded := hf.bounded
      unfold acknowledgeFile
      split
      · rfl
      · rw [if_pos (by omega)]
    rw [hsame]
    refine ⟨.inl, ?_⟩
    rintro (h | ⟨rfl, rfl, haccepted⟩)
    · exact h
    · exact (hanswer.mp haccepted).resolve_right hnew

/-! ## The folder -/

structure Ok (folder : ReportFolder) : Prop where
  nodup : (folder.map ReportFile.id).Nodup
  files : ∀ f ∈ folder, f.Ok

variable {folder : ReportFolder}

/-- Only the file of the report is acknowledged. -/
theorem mem_acknowledge (hids : (folder.map ReportFile.id).Nodup) (eventId : String) (part : ℕ)
    (messageId : String) (f' : ReportFile) : f' ∈ (folder.acknowledge eventId part messageId).2 ↔
      (f' ∈ folder ∧ f'.id ≠ eventId) ∨ ∃ f ∈ folder, f.id = eventId ∧ f' = (acknowledgeFile f part messageId).2 := by
  induction folder with
  | nil => simp [acknowledge]
  | cons g rest ih =>
    rw [List.map_cons, List.nodup_cons] at hids
    by_cases hg : g.id = eventId
    · have hothers : ∀ f ∈ rest, f.id ≠ eventId := fun f hf he => hids.1 (by rw [hg, ← he]; exact List.mem_map_of_mem hf)
      rw [acknowledge, if_neg (not_not.mpr hg)]
      simp only [List.mem_cons]
      constructor
      · rintro (rfl | hf)
        · exact .inr ⟨g, .inl rfl, hg, rfl⟩
        · exact .inl ⟨.inr hf, hothers f' hf⟩
      · rintro (⟨rfl | hf, hne⟩ | ⟨f, rfl | hf, hid, rfl⟩)
        · exact absurd hg hne
        · exact .inr hf
        · exact .inl rfl
        · exact absurd hid (hothers f hf)
    · rw [acknowledge, if_pos hg]
      simp only [List.mem_cons, ih hids.2]
      constructor
      · rintro (rfl | ⟨hf, hne⟩ | ⟨f, hf, hid, rfl⟩)
        · exact .inl ⟨.inl rfl, hg⟩
        · exact .inl ⟨.inr hf, hne⟩
        · exact .inr ⟨f, .inr hf, hid, rfl⟩
      · rintro (⟨rfl | hf, hne⟩ | ⟨f, rfl | hf, hid, rfl⟩)
        · exact .inl rfl
        · exact .inr (.inl ⟨hf, hne⟩)
        · exact absurd hid hg
        · exact .inr (.inr ⟨f, hf, hid, rfl⟩)

theorem acknowledge_answer (hids : (folder.map ReportFile.id).Nodup) (eventId : String) (part : ℕ) (messageId : String) :
    (folder.acknowledge eventId part messageId).1 = true ↔
      ∃ f ∈ folder, f.id = eventId ∧ (acknowledgeFile f part messageId).1 = true := by
  induction folder with
  | nil => simp [acknowledge]
  | cons g rest ih =>
    rw [List.map_cons, List.nodup_cons] at hids
    by_cases hg : g.id = eventId
    · have hothers : ∀ f ∈ rest, f.id ≠ eventId := fun f hf he => hids.1 (by rw [hg, ← he]; exact List.mem_map_of_mem hf)
      rw [acknowledge, if_neg (not_not.mpr hg)]
      simp only [List.mem_cons]
      constructor
      · exact fun h => ⟨g, .inl rfl, hg, h⟩
      · rintro ⟨f, rfl | hf, hid, h⟩
        · exact h
        · exact absurd hid (hothers f hf)
    · rw [acknowledge, if_pos hg]
      simp only [List.mem_cons, ih hids.2]
      constructor
      · rintro ⟨f, hf, h⟩
        exact ⟨f, .inr hf, h⟩
      · rintro ⟨f, rfl | hf, hid, h⟩
        · exact absurd hid hg
        · exact ⟨f, hf, hid, h⟩

theorem map_id_acknowledge (folder : ReportFolder) (eventId : String) (part : ℕ) (messageId : String) :
    (folder.acknowledge eventId part messageId).2.map ReportFile.id = folder.map ReportFile.id := by
  induction folder with
  | nil => rfl
  | cons g rest ih =>
    rw [acknowledge]
    split
    · rw [List.map_cons, List.map_cons, ih]
    · rw [List.map_cons, List.map_cons, acknowledgeFile_id]

theorem mem_enqueue (folder : ReportFolder) (reportId content : String) (f : ReportFile) :
    f ∈ folder.enqueue reportId content ↔
      f ∈ folder ∨ ((∀ g ∈ folder, g.id ≠ reportId) ∧ f = { id := reportId, content := content }) := by
  unfold enqueue
  split
  · next hany =>
    obtain ⟨g, hg, hid⟩ := List.any_eq_true.mp hany
    refine ⟨.inl, fun h => h.resolve_right fun hnew => ?_⟩
    exact hnew.1 g hg (of_decide_eq_true hid)
  · next hnone =>
    have hfresh : ∀ g ∈ folder, g.id ≠ reportId := fun g hg he => hnone (List.any_eq_true.mpr ⟨g, hg, decide_eq_true he⟩)
    rw [List.mem_orderedInsert, or_comm]
    exact or_congr_right (and_iff_right hfresh).symm

theorem Ok.enqueue (h : folder.Ok) (reportId content : String) : (folder.enqueue reportId content).Ok := by
  refine ⟨?_, fun f hf => ?_⟩
  · unfold ReportFolder.enqueue
    split
    · exact h.nodup
    · next hnone =>
      refine ((List.perm_orderedInsert _ _ _).map ReportFile.id).nodup_iff.mpr (List.nodup_cons.mpr ⟨fun hmem => ?_, h.nodup⟩)
      obtain ⟨g, hg, hid⟩ := List.mem_map.mp hmem
      exact hnone (List.any_eq_true.mpr ⟨g, hg, decide_eq_true hid⟩)
  · rcases (mem_enqueue folder reportId content f).mp hf with hold | ⟨-, rfl⟩
    · exact h.files f hold
    · have hcount := ReportFile.one_le_count { id := reportId, content := content }
      refine ⟨rfl, Nat.zero_le _, fun hsent => (by cases hsent), fun hzero => ?_⟩
      dsimp only at hzero
      omega

theorem Ok.step (h : folder.Ok) (c : EdgeCall) : (folder.step c).Ok := by
  cases c with
  | enqueue reportId content => exact h.enqueue reportId content
  | pending => exact h
  | acknowledge eventId part messageId =>
    refine ⟨(map_id_acknowledge folder eventId part messageId).symm ▸ h.nodup, fun f' hf' => ?_⟩
    rcases (mem_acknowledge h.nodup eventId part messageId f').mp hf' with ⟨hf, -⟩ | ⟨f, hf, -, rfl⟩
    · exact h.files f' hf
    · exact acknowledgeFile_ok (h.files f hf) part messageId

/-! ## Runs -/

theorem ok_nil : Ok [] := ⟨List.nodup_nil, fun _ h => by cases h⟩

variable (ops : List EdgeCall)

theorem ok_run : Ok (run step [] ops) :=
  invariant_run (I := Ok) (fun _ c h => h.step c) ok_nil ops

def Enqueued (ops : List EdgeCall) (reportId content : String) : Prop :=
  ∃ before c after, ops = before ++ c :: after ∧
    (c = .enqueue reportId content ∧ ∀ g ∈ run step [] before, g.id ≠ reportId)

def Acknowledged (ops : List EdgeCall) (eventId : String) (part : ℕ) (messageId : String) : Prop :=
  ∃ before c after, ops = before ++ c :: after ∧
    (c = .acknowledge eventId part messageId ∧ (acknowledge eventId part messageId (run step [] before)).1 = true)

theorem enqueued_iff (reportId content : String) :
    (∃ f ∈ run step [] ops, f.id = reportId ∧ f.content = content) ↔ Enqueued ops reportId content := by
  have hstep (folder : ReportFolder) (c : EdgeCall) (hfolder : folder.Ok) :
      (∃ f ∈ folder.step c, f.id = reportId ∧ f.content = content) ↔
        (∃ f ∈ folder, f.id = reportId ∧ f.content = content) ∨
          (c = .enqueue reportId content ∧ ∀ g ∈ folder, g.id ≠ reportId) := by
    cases c with
    | enqueue newId newContent =>
      simp only [step, mem_enqueue, EdgeCall.enqueue.injEq]
      constructor
      · rintro ⟨f, hold | ⟨hfresh, rfl⟩, hid, hcontent⟩
        · exact .inl ⟨f, hold, hid, hcontent⟩
        · cases hid
          cases hcontent
          exact .inr ⟨⟨rfl, rfl⟩, hfresh⟩
      · rintro (⟨f, hold, h⟩ | ⟨⟨rfl, rfl⟩, hfresh⟩)
        · exact ⟨f, .inl hold, h⟩
        · exact ⟨_, .inr ⟨hfresh, rfl⟩, rfl, rfl⟩
    | pending =>
      simp only [step]
      exact ⟨.inl, fun h => h.resolve_right fun hc => by cases hc.1⟩
    | acknowledge eventId part messageId =>
      simp only [step, mem_acknowledge hfolder.nodup]
      constructor
      · rintro ⟨f', ⟨hf, -⟩ | ⟨f, hf, -, rfl⟩, hid, hcontent⟩
        · exact .inl ⟨f', hf, hid, hcontent⟩
        · rw [acknowledgeFile_id] at hid
          rw [acknowledgeFile_content] at hcontent
          exact .inl ⟨f, hf, hid, hcontent⟩
      · rintro (⟨f, hf, hid, hcontent⟩ | ⟨hc, -⟩)
        · by_cases hevent : f.id = eventId
          · exact ⟨_, .inr ⟨f, hf, hevent, rfl⟩, (acknowledgeFile_id ..).trans hid, (acknowledgeFile_content ..).trans hcontent⟩
          · exact ⟨f, .inl ⟨hf, hevent⟩, hid, hcontent⟩
        · cases hc
  refine (holds_run_iff (P := fun folder : ReportFolder => ∃ f ∈ folder, f.id = reportId ∧ f.content = content)
    (fun _ c (h : Ok _) => h.step c) hstep ok_nil ops).trans (or_iff_right ?_)
  rintro ⟨f, hf, -⟩
  cases hf

theorem acknowledged_iff (eventId : String) (part : ℕ) (messageId : String) :
    (∃ f ∈ run step [] ops, f.id = eventId ∧ f.discordMessages[part]? = some messageId) ↔
      Acknowledged ops eventId part messageId := by
  have hstep (folder : ReportFolder) (c : EdgeCall) (hfolder : folder.Ok) :
      (∃ f ∈ folder.step c, f.id = eventId ∧ f.discordMessages[part]? = some messageId) ↔
        (∃ f ∈ folder, f.id = eventId ∧ f.discordMessages[part]? = some messageId) ∨
          (c = .acknowledge eventId part messageId ∧ (acknowledge eventId part messageId folder).1 = true) := by
    cases c with
    | enqueue newId newContent =>
      simp only [step, mem_enqueue]
      constructor
      · rintro ⟨f, hold | ⟨-, rfl⟩, hid, hmessage⟩
        · exact .inl ⟨f, hold, hid, hmessage⟩
        · cases hmessage
      · rintro (⟨f, hold, h⟩ | ⟨hc, -⟩)
        · exact ⟨f, .inl hold, h⟩
        · cases hc
    | pending =>
      simp only [step]
      exact ⟨.inl, fun h => h.resolve_right fun hc => by cases hc.1⟩
    | acknowledge event k m =>
      simp only [step, mem_acknowledge hfolder.nodup, EdgeCall.acknowledge.injEq]
      constructor
      · rintro ⟨f', ⟨hf, -⟩ | ⟨f, hf, hevent, rfl⟩, hid, hmessage⟩
        · exact .inl ⟨f', hf, hid, hmessage⟩
        · rw [acknowledgeFile_id] at hid
          rcases (acknowledgeFile_recorded (hfolder.files f hf) k m part messageId).mp hmessage with hold | ⟨rfl, rfl, haccepted⟩
          · exact .inl ⟨f, hf, hid, hold⟩
          · exact .inr ⟨⟨hevent.symm.trans hid, rfl, rfl⟩, (acknowledge_answer hfolder.nodup _ _ _).mpr ⟨f, hf, hid, haccepted⟩⟩
      · rintro (⟨f, hf, hid, hmessage⟩ | ⟨⟨rfl, rfl, rfl⟩, haccepted⟩)
        · by_cases hevent : f.id = event
          · exact ⟨_, .inr ⟨f, hf, hevent, rfl⟩, (acknowledgeFile_id ..).trans hid,
              (acknowledgeFile_recorded (hfolder.files f hf) k m part messageId).mpr (.inl hmessage)⟩
          · exact ⟨f, .inl ⟨hf, hevent⟩, hid, hmessage⟩
        · obtain ⟨f, hf, hid, hfile⟩ := (acknowledge_answer hfolder.nodup _ _ _).mp haccepted
          exact ⟨_, .inr ⟨f, hf, hid, rfl⟩, (acknowledgeFile_id ..).trans hid,
            (acknowledgeFile_recorded (hfolder.files f hf) k m k m).mpr (.inr ⟨rfl, rfl, hfile⟩)⟩
  refine (holds_run_iff (P := fun folder : ReportFolder => ∃ f ∈ folder, f.id = eventId ∧ f.discordMessages[part]? = some messageId)
    (fun _ c (h : Ok _) => h.step c) hstep ok_nil ops).trans (or_iff_right ?_)
  rintro ⟨f, hf, -⟩
  cases hf

/-- What an enqueued report keeps through every acknowledgement. -/
structure Delivered (ops : List EdgeCall) (f : ReportFile) : Prop where
  enqueued : Enqueued ops f.id f.content
  joined : String.join f.parts = f.content
  counted : f.parts.length = f.count
  /-- The parts that were acknowledged are the first ones. -/
  next : ∀ part, (∃ messageId, Acknowledged ops f.id part messageId) ↔ part < f.eveSentParts
  once : ∀ part messageId messageId', Acknowledged ops f.id part messageId → Acknowledged ops f.id part messageId' →
    messageId = messageId'
  /-- An acknowledgement is accepted if it repeats one, or is for the next part. -/
  answered : ∀ part messageId, ((run step [] ops).acknowledge f.id part messageId).1 = true ↔
    Acknowledged ops f.id part messageId ∨ (part = f.eveSentParts ∧ part < f.parts.length)
  sent : f.sent = true ↔ ∀ part < f.parts.length, ∃ messageId, Acknowledged ops f.id part messageId

theorem unique_file (hids : (folder.map ReportFile.id).Nodup) {f g : ReportFile} (hf : f ∈ folder)
    (hg : g ∈ folder) (hid : g.id = f.id) : g = f := List.inj_on_of_nodup_map hids hg hf hid

theorem acknowledged_of_file (hf : f ∈ run step [] ops) (part : ℕ) (messageId : String) :
    Acknowledged ops f.id part messageId ↔ f.discordMessages[part]? = some messageId := by
  rw [← acknowledged_iff]
  constructor
  · rintro ⟨g, hg, hid, hmessage⟩
    rw [unique_file (ok_run ops).nodup hf hg hid] at hmessage
    exact hmessage
  · exact fun hmessage => ⟨f, hf, rfl, hmessage⟩

theorem delivered (hf : f ∈ run step [] ops) : Delivered ops f := by
  have hok : f.Ok := (ok_run ops).files f hf
  have hnext (part : ℕ) : (∃ messageId, Acknowledged ops f.id part messageId) ↔ part < f.eveSentParts := by
    simp only [acknowledged_of_file ops hf]
    rw [← hok.messages]
    constructor
    · rintro ⟨messageId, hmessage⟩
      exact (List.getElem?_eq_some_iff.mp hmessage).1
    · exact fun hpart => ⟨_, List.getElem?_eq_getElem hpart⟩
  refine ⟨(enqueued_iff ops _ _).mp ⟨f, hf, rfl, rfl⟩, f.parts_join, f.parts_length, hnext, ?_, ?_, ?_⟩
  · intro part messageId messageId' h h'
    rw [acknowledged_of_file ops hf] at h h'
    exact Option.some.inj (h.symm.trans h')
  · intro part messageId
    rw [acknowledge_answer (ok_run ops).nodup, acknowledged_of_file ops hf, f.parts_length,
      ← acknowledgeFile_answer hok part messageId]
    constructor
    · rintro ⟨g, hg, hid, haccepted⟩
      rw [unique_file (ok_run ops).nodup hf hg hid] at haccepted
      exact haccepted
    · exact fun haccepted => ⟨f, hf, rfl, haccepted⟩
  · rw [hok.sent, f.parts_length]
    simp only [hnext]
    constructor
    · exact fun hall part hpart => by omega
    · intro hall
      have hlast := hall (f.count - 1) (by have := f.one_le_count; omega)
      have hbounded := hok.bounded
      omega

def unsent (folder : ReportFolder) : List PendingReport :=
  (folder.filter fun f => !f.sent).map fun f => ⟨f.id, f.parts, f.eveSentParts⟩

theorem pendingFrom_eq (folder : ReportFolder) (result : List PendingReport) (hroom : result.length < 20) :
    pendingFrom folder result = (result ++ unsent folder).take 20 := by
  induction folder generalizing result with
  | nil => rw [pendingFrom, unsent, List.filter_nil, List.map_nil, List.append_nil, List.take_of_length_le hroom.le]
  | cons f rest ih =>
    unfold pendingFrom
    by_cases hsent : f.sent = true
    · have hskip : unsent (f :: rest) = unsent rest := by simp [unsent, hsent]
      simp only [if_pos hsent, hskip]
      rw [if_neg (Nat.not_le.mpr hroom), ih result hroom]
    · have hshow : unsent (f :: rest) = ⟨f.id, f.parts, f.eveSentParts⟩ :: unsent rest := by simp [unsent, hsent]
      rw [hshow, List.append_cons result _ (unsent rest)]
      simp only [if_neg hsent]
      generalize hnext : result ++ [⟨f.id, f.parts, f.eveSentParts⟩] = next
      have hlength : next.length = result.length + 1 := by rw [← hnext, List.length_append, List.length_singleton]
      split
      · next hfull => exact (List.take_left' (by omega)).symm
      · next hmore => exact ih _ (Nat.not_le.mp hmore)

/-- After every sequence of calls each report is delivered as far as it was acknowledged, and what is pending are
the parts of the first twenty reports that are not sent, with the number of the next one. -/
theorem parts_delivered (ops : List EdgeCall) :
    (∀ f ∈ run step [] ops, Delivered ops f) ∧
      pending (run step [] ops) = (unsent (run step [] ops)).take 20 :=
  ⟨fun _ hf => delivered ops hf, pendingFrom_eq _ [] (Nat.zero_lt_succ 19)⟩

def longReport : String := String.ofList (List.replicate 801 'a')

/-- A report of two parts, the first of which is acknowledged twice. -/
theorem parts_delivered_twice :
    Delivered [.enqueue "evt_1" longReport, .acknowledge "evt_1" 0 "17", .acknowledge "evt_1" 0 "17", .acknowledge "evt_1" 1 "18"]
      { id := "evt_1", content := longReport, eveSentParts := 2, discordMessages := ["17", "18"], sent := true } := by
  have hcount (f : ReportFile) (hf : f.content = longReport) : f.count = 2 := by
    have hlength (n : ℕ) : (String.ofList (List.replicate n 'a')).toList.length = n := by simp
    have hlong : longReport.toList.length = 801 := hlength 801
    rw [ReportFile.count, hf, hlong]
    decide
  refine (parts_delivered _).1 _ ?_
  simp [run, step, enqueue, acknowledge, acknowledgeFile, hcount]

end ReportFolder

end AllTomorrow.EdgeReports
