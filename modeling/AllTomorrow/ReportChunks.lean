import AllTomorrow.DomainRecords
import AllTomorrow.ReportParts

/-!
# Chunks of reports

`flush` of `overseer/reports.py` posts the reports to a webhook in chunks of 1800 characters, beside the parts of 800
characters that Eve takes. A message may have 2000 UTF-16 code units.
-/

namespace AllTomorrow.EdgeReports

/-! ## UTF-16 -/

def isAstral (c : Char) : Bool := 0x10000 ≤ c.toNat

def utf16Units (c : Char) : ℕ := if isAstral c then 2 else 1

def utf16Length (s : String) : ℕ := (s.toList.map utf16Units).sum

theorem sum_utf16Units (cs : List Char) : (cs.map utf16Units).sum = cs.length + cs.countP isAstral := by
  induction cs with
  | nil => rfl
  | cons c cs ih =>
    rw [List.map_cons, List.sum_cons, ih, List.length_cons, List.countP_cons]
    unfold utf16Units
    split <;> omega

theorem utf16Length_ofList (cs : List Char) : utf16Length (String.ofList cs) = cs.length + cs.countP isAstral := by
  rw [utf16Length, String.toList_ofList, sum_utf16Units]

/-- The environment of a call of `flush`. -/
structure WebhookSettings where
  transport : String := "eve"
  url : Option String
  /-- whether the parsed address is one of a Discord webhook -/
  isWebhook : String → Bool

/-- `[content[i:i + 1800] for i in range(0, len(content), 1800)]` -/
def ReportFile.chunks (f : ReportFile) : List String := (slices 1800 0 f.content.toList).map String.ofList

/-- What a call of `flush` leaves and has posted. -/
structure Flushed where
  folder : ReportFolder
  posted : List String
  sent : ℕ

/-- The chunks are posted one after the other, up to the first error. `post` tells whether the request of each number
succeeds. -/
def postChunks (post : ℕ → Bool) : List String → ReportFile → List String → Bool × ReportFile × List String
  | [], f, posted => (true, f, posted)
  | chunk :: rest, f, posted =>
    if post posted.length then postChunks post rest { f with sentParts := f.sentParts + 1 } (posted ++ [chunk])
    else (false, f, posted ++ [chunk])

def flushFrom (post : ℕ → Bool) : ReportFolder → List String → ℕ → Flushed
  | [], posted, sent => ⟨[], posted, sent⟩
  | f :: rest, posted, sent =>
    if f.sent then
      let flushed := flushFrom post rest posted sent
      { flushed with folder := f :: flushed.folder }
    else
      match postChunks post (f.chunks.drop f.sentParts) f posted with
      | (true, f, posted) =>
        let flushed := flushFrom post rest posted (sent + 1)
        { flushed with folder := { f with sent := true } :: flushed.folder }
      | (false, f, posted) => ⟨f :: rest, posted, sent⟩

def flush (settings : WebhookSettings) (post : ℕ → Bool) (folder : ReportFolder) : Except Exn Flushed :=
  if settings.transport ≠ "webhook" then .ok ⟨folder, [], 0⟩
  else
    match settings.url with
    | none => .ok ⟨folder, [], 0⟩
    | some url =>
      if url = "" then .ok ⟨folder, [], 0⟩
      else if settings.isWebhook url then .ok (flushFrom post folder [] 0)
      else .error (.valueError "Discord webhook 주소 형식 오류")

def FitsMessage (s : String) : Prop := utf16Length s ≤ 2000

/-- What both transports make of the reports fits messages, and makes up the reports. -/
structure FitsDiscord (folder : ReportFolder) : Prop where
  posted : ∀ settings post flushed, flush settings post folder = .ok flushed → ∀ chunk ∈ flushed.posted, FitsMessage chunk
  pending : ∀ report ∈ folder.pending, ∀ part ∈ report.parts, FitsMessage part
  chunksJoin : ∀ f ∈ folder, String.join f.chunks = f.content
  partsJoin : ∀ f ∈ folder, String.join f.parts = f.content

/-- No block of 1800 characters that is still to be posted has so many characters beyond U+FFFF that it takes more than
2000 code units. -/
def FewAstral (folder : ReportFolder) : Prop :=
  ∀ f ∈ folder, f.sent = false → ∀ block ∈ (slices 1800 0 f.content.toList).drop f.sentParts,
    block.countP isAstral ≤ 2000 - block.length

section

variable {folder : ReportFolder} {f : ReportFile} {post : ℕ → Bool} {posted : List String} {sent : ℕ}

theorem length_le_of_mem_slices {α : Type} {size start : ℕ} {xs block : List α} (h : block ∈ slices size start xs) :
    block.length ≤ size := by
  obtain ⟨i, -, rfl⟩ := List.mem_map.mp h
  exact List.length_take_le _ _

theorem slices_of_length_le {α : Type} {size : ℕ} {xs : List α} (hne : xs ≠ []) (hle : xs.length ≤ size) :
    slices size 0 xs = [xs] := by
  have hpos := List.length_pos_iff.mpr hne
  rw [slices, rangeBy, if_pos ⟨hpos, by omega⟩, rangeBy, if_neg (by omega), List.map_singleton, List.drop_zero,
    List.take_of_length_le hle]

theorem join_map_ofList (blocks : List (List Char)) : String.join (blocks.map String.ofList) = String.ofList blocks.flatten := by
  rw [← String.toList_inj, String.toList_join, List.flatMap_map, String.toList_ofList]
  simp only [String.toList_ofList]
  exact List.flatMap_id'

theorem ReportFile.chunks_join (f : ReportFile) : String.join f.chunks = f.content := by
  rw [ReportFile.chunks, join_map_ofList, flatten_slices (by omega), List.drop_zero, String.ofList_toList]

theorem fits_part {part : String} (h : part ∈ f.parts) : FitsMessage part := by
  unfold ReportFile.parts at h
  dsimp only at h
  split at h
  · rw [List.mem_singleton.mp h]
    exact Nat.zero_le _
  · obtain ⟨block, hblock, rfl⟩ := List.mem_map.mp h
    have hlength := length_le_of_mem_slices hblock
    have hastral := List.countP_le_length (p := isAstral) (l := block)
    rw [FitsMessage, utf16Length_ofList]
    omega

theorem parts_of_pending {report : PendingReport} (h : report ∈ folder.pending) : ∃ f ∈ folder, report.parts = f.parts := by
  have hgeneral : ∀ (folder : ReportFolder) (result : List PendingReport), report ∈ ReportFolder.pendingFrom folder result →
      report ∈ result ∨ ∃ f ∈ folder, report.parts = f.parts := by
    intro folder
    induction folder with
    | nil => exact fun result h => .inl h
    | cons f rest ih =>
      intro result h
      have hstep : report ∈ (if f.sent then result else result ++ [⟨f.id, f.parts, f.eveSentParts⟩]) →
          report ∈ result ∨ ∃ g ∈ f :: rest, report.parts = g.parts := by
        intro hmem
        split at hmem
        · exact .inl hmem
        · rcases List.mem_append.mp hmem with hold | hnew
          · exact .inl hold
          · rw [List.mem_singleton.mp hnew]
            exact .inr ⟨f, List.mem_cons_self, rfl⟩
      rw [ReportFolder.pendingFrom] at h
      by_cases hfull : 20 ≤ (if f.sent then result else result ++ [⟨f.id, f.parts, f.eveSentParts⟩]).length
      · rw [if_pos hfull] at h
        exact hstep h
      · rw [if_neg hfull] at h
        rcases ih _ h with hmem | ⟨g, hg, hparts⟩
        · exact hstep hmem
        · exact .inr ⟨g, List.mem_cons_of_mem f hg, hparts⟩
  rcases hgeneral folder [] h with hnone | hsome
  · cases hnone
  · exact hsome

/-! ## What is posted -/

variable {chunk : String}

theorem mem_postChunks {chunks : List String} (h : chunk ∈ (postChunks post chunks f posted).2.2) :
    chunk ∈ posted ∨ chunk ∈ chunks := by
  induction chunks generalizing f posted with
  | nil => exact .inl h
  | cons first rest ih =>
    have hposted : chunk ∈ posted ++ [first] → chunk ∈ posted ∨ chunk ∈ first :: rest := by
      intro hmem
      rcases List.mem_append.mp hmem with hold | hnew
      · exact .inl hold
      · rw [List.mem_singleton.mp hnew]
        exact .inr List.mem_cons_self
    rw [postChunks] at h
    split at h
    · rcases ih h with hmem | hmem
      · exact hposted hmem
      · exact .inr (List.mem_cons_of_mem first hmem)
    · exact hposted h

theorem mem_flushFrom (h : chunk ∈ (flushFrom post folder posted sent).posted) :
    chunk ∈ posted ∨ ∃ f ∈ folder, f.sent = false ∧ chunk ∈ f.chunks.drop f.sentParts := by
  induction folder generalizing posted sent with
  | nil => exact .inl h
  | cons f rest ih =>
    have hrest : (∃ g ∈ rest, g.sent = false ∧ chunk ∈ g.chunks.drop g.sentParts) →
        ∃ g ∈ f :: rest, g.sent = false ∧ chunk ∈ g.chunks.drop g.sentParts := by
      rintro ⟨g, hg, hchunk⟩
      exact ⟨g, List.mem_cons_of_mem f hg, hchunk⟩
    rw [flushFrom] at h
    by_cases hsent : f.sent = true
    · rw [if_pos hsent] at h
      exact (ih h).imp_right hrest
    · rw [if_neg hsent] at h
      have hone : chunk ∈ (postChunks post (f.chunks.drop f.sentParts) f posted).2.2 →
          chunk ∈ posted ∨ ∃ g ∈ f :: rest, g.sent = false ∧ chunk ∈ g.chunks.drop g.sentParts := by
        intro hmem
        exact (mem_postChunks hmem).imp_right fun hchunk => ⟨f, List.mem_cons_self, Bool.eq_false_iff.mpr hsent, hchunk⟩
      split at h
      · next f' posted' hposts =>
        rcases ih h with hmem | hmem
        · exact hone (by rw [hposts]; exact hmem)
        · exact .inr (hrest hmem)
      · next f' posted' hposts => exact hone (by rw [hposts]; exact h)

theorem postChunks_all (chunks : List String) (f : ReportFile) (posted : List String) :
    postChunks (fun _ => true) chunks f posted =
      (true, { f with sentParts := f.sentParts + chunks.length }, posted ++ chunks) := by
  induction chunks generalizing f posted with
  | nil => simp [postChunks]
  | cons chunk rest ih =>
    rw [postChunks, if_pos rfl, ih, List.append_assoc]
    simp [Nat.add_assoc, Nat.add_comm 1]

theorem mem_flushFrom_all (h : chunk ∈ posted ∨ ∃ f ∈ folder, f.sent = false ∧ chunk ∈ f.chunks.drop f.sentParts) :
    chunk ∈ (flushFrom (fun _ => true) folder posted sent).posted := by
  induction folder generalizing posted sent with
  | nil =>
    rcases h with hmem | ⟨f, hf, -⟩
    · exact hmem
    · cases hf
  | cons f rest ih =>
    rw [flushFrom]
    by_cases hsent : f.sent = true
    · rw [if_pos hsent]
      refine ih (h.imp_right ?_)
      rintro ⟨g, hg, hopen, hchunk⟩
      rcases List.mem_cons.mp hg with rfl | hg
      · rw [hsent] at hopen
        cases hopen
      · exact ⟨g, hg, hopen, hchunk⟩
    · rw [if_neg hsent, postChunks_all]
      refine ih ?_
      rcases h with hmem | ⟨g, hg, hopen, hchunk⟩
      · exact .inl (List.mem_append_left _ hmem)
      · rcases List.mem_cons.mp hg with rfl | hg
        · exact .inl (List.mem_append_right _ hchunk)
        · exact .inr ⟨g, hg, hopen, hchunk⟩

theorem fits_block_iff {block : List Char} (h : block ∈ slices 1800 0 f.content.toList) :
    FitsMessage (String.ofList block) ↔ block.countP isAstral ≤ 2000 - block.length := by
  have hlength := length_le_of_mem_slices h
  rw [FitsMessage, utf16Length_ofList]
  omega

theorem fewAstral_iff : FewAstral folder ↔
    ∀ f ∈ folder, f.sent = false → ∀ chunk ∈ f.chunks.drop f.sentParts, FitsMessage chunk := by
  refine forall₂_congr fun f _ => forall_congr' fun _ => ?_
  rw [ReportFile.chunks, ← List.map_drop, List.forall_mem_map]
  exact forall₂_congr fun block hblock => (fits_block_iff (List.mem_of_mem_drop hblock)).symm

def webhookSettings : WebhookSettings := ⟨"webhook", some "https://discord.com/api/webhooks/1", fun _ => true⟩

theorem flush_webhook (post : ℕ → Bool) (folder : ReportFolder) :
    flush webhookSettings post folder = .ok (flushFrom post folder [] 0) := by
  simp [flush, webhookSettings]

theorem posted_of_flush {settings : WebhookSettings} {flushed : Flushed} (h : flush settings post folder = .ok flushed)
    (hchunk : chunk ∈ flushed.posted) : ∃ f ∈ folder, f.sent = false ∧ chunk ∈ f.chunks.drop f.sentParts := by
  have hnone : ∀ {flushed : Flushed}, Except.ok (ε := Exn) ⟨folder, [], 0⟩ = .ok flushed → chunk ∉ flushed.posted := by
    rintro _ ⟨⟩ hmem
    cases hmem
  unfold flush at h
  split at h
  · exact absurd hchunk (hnone h)
  · split at h
    · exact absurd hchunk (hnone h)
    · split at h
      · exact absurd hchunk (hnone h)
      · split at h
        · cases h
          rcases mem_flushFrom hchunk with hmem | hmem
          · cases hmem
          · exact hmem
        · cases h

/-- The parts that Eve takes fit always, the chunks for the webhook if there are few characters of two code units. -/
theorem fitsDiscord_iff (folder : ReportFolder) : FitsDiscord folder ↔ FewAstral folder := by
  rw [fewAstral_iff]
  constructor
  · intro h f hf hopen chunk hchunk
    refine h.posted webhookSettings (fun _ => true) _ (flush_webhook _ folder) chunk ?_
    exact mem_flushFrom_all (.inr ⟨f, hf, hopen, hchunk⟩)
  · intro h
    refine ⟨fun settings post flushed hflush chunk hchunk => ?_, fun report hreport part hpart => ?_,
      fun f _ => f.chunks_join, fun f _ => f.parts_join⟩
    · obtain ⟨f, hf, hopen, hmem⟩ := posted_of_flush hflush hchunk
      exact h f hf hopen chunk hmem
    · obtain ⟨f, -, hparts⟩ := parts_of_pending hreport
      rw [hparts] at hpart
      exact fits_part hpart

end

def astralReport : ReportFile := { id := "r1", content := String.ofList (List.replicate 1001 '😀') }

theorem astral_chunk_too_long : ¬FitsDiscord [astralReport] := by
  intro h
  have hchunk : String.ofList (List.replicate 1001 '😀') ∈ astralReport.chunks := by
    have hslices : slices 1800 0 (List.replicate 1001 '😀') = [List.replicate 1001 '😀'] := by
      refine slices_of_length_le (List.ne_nil_of_length_pos ?_) ?_
      · rw [List.length_replicate]
        omega
      · rw [List.length_replicate]
        omega
    rw [ReportFile.chunks, astralReport, String.toList_ofList, hslices]
    exact List.mem_singleton_self _
  have hfits := h.posted webhookSettings (fun _ => true) _ (flush_webhook _ _) _
    (mem_flushFrom_all (.inr ⟨astralReport, List.mem_singleton_self _, rfl, hchunk⟩))
  rw [FitsMessage, utf16Length_ofList, List.countP_replicate, List.length_replicate, if_pos (by decide)] at hfits
  omega

end AllTomorrow.EdgeReports
