import AllTomorrow.ChangeStages

/-!
# What is promoted and what was reviewed

The review looks at the candidate before the tests run and the promotion takes it from the
folder after they have run. Whether a promoted file is the reviewed one is therefore up to
the tests.
-/

namespace AllTomorrow.Overseer

open EStateM

variable {τ : Type}

def executed (c : ProjectChange) (tools : Tools τ) (task : τ) (files : ProjectFiles) : Execution :=
  (executeChange c tools task (.start files)).state

/-- The files promoted are those that `changed` lists for the reviewed candidate, with its contents. -/
def PromotedAsReviewed (c : ProjectChange) (root reviewed : Folder) (files : ProjectFiles) : Prop :=
  ∃ data, files.manifest = some data ∧ (∀ p, p ∈ data.changed ↔
      p ∈ newOrChanged (fileHashes c.hashes (copyVisible root)) (fileHashes c.hashes reviewed)) ∧
    (∀ p ∈ data.changed, content files.root p = content reviewed p) ∧
    ∀ p, p ∉ data.changed → content files.root p = content root p

/-- A file that the candidate has new or changed, before or after the tests, has afterwards the reviewed content. -/
def TestsKeepReviewed (c : ProjectChange) (root reviewed tested : Folder) : Prop :=
  ∀ p, hashAt c root p ≠ hashAt c reviewed p ∨ hashAt c root p ≠ hashAt c tested p →
    content tested p = content reviewed p

variable {c : ProjectChange} {tools : Tools τ} {task : τ}

theorem executed_promoted {files : ProjectFiles} (h : (executed c tools task files).success = true) :
    PromotedTested c tools task files.root (executed c tools task files).files := by
  have hends : Ends (executeChange c tools task) (.start files)
      (fun _ s' => s'.success = true → PromotedTested c tools task files.root s'.files) fun _ s' =>
        s'.success = true → PromotedTested c tools task files.root s'.files :=
    (ends_executeChange files).mono (fun _ _ hs => hs.1) fun _ _ hs => hs.elim
  exact hends.state h

/-- A promoted change is the reviewed one exactly if the tests left the reviewed files alone. -/
theorem promotedAsReviewed_iff (c : ProjectChange) (tools : Tools τ) (task : τ) (files : ProjectFiles)
    (h : (executed c tools task files).success = true) :
    PromotedAsReviewed c files.root (reviewedCandidate tools task files.root) (executed c tools task files).files ↔
      TestsKeepReviewed c files.root (reviewedCandidate tools task files.root)
        (testedCandidate tools task files.root) := by
  obtain ⟨⟨reviewedNames, hreviewed⟩, names, data, -, htested, hmanifest, hchanged, hroot⟩ := executed_promoted h
  have hmem : ∀ p, p ∈ names ↔ hashAt c files.root p ≠ hashAt c (testedCandidate tools task files.root) p := by
    intro p
    rw [htested.mem_iff, hashAt_copyVisible]
  have hmem' : ∀ p, p ∈ newOrChanged (fileHashes c.hashes (copyVisible files.root))
      (fileHashes c.hashes (reviewedCandidate tools task files.root)) ↔
        hashAt c files.root p ≠ hashAt c (reviewedCandidate tools task files.root) p := by
    intro p
    rw [← hreviewed.eq, hreviewed.mem_iff, hashAt_copyVisible]
  constructor
  · rintro ⟨data', hdata', hsame, hcontent, -⟩ p hp
    rw [hmanifest, Option.some.injEq] at hdata'
    subst hdata'
    -- the path was promoted, whichever of the two candidates changed it
    have hpromoted : p ∈ data.changed := by
      rcases hp with hp | hp
      · exact (hsame p).mpr ((hmem' p).mpr hp)
      · exact hchanged ▸ (hmem p).mpr hp
    rw [← hcontent p hpromoted, hroot, if_pos (hchanged ▸ hpromoted)]
  · intro hkeep
    refine ⟨data, hmanifest, fun p => ?_, fun p hp => ?_, fun p hp => ?_⟩
    · rw [hchanged, hmem, hmem']
      constructor
      · intro hp
        rwa [hashAt_eq_of_content (hkeep p (.inr hp))] at hp
      · intro hp
        rwa [← hashAt_eq_of_content (hkeep p (.inl hp))] at hp
    · rw [hchanged] at hp
      rw [hroot, if_pos hp]
      exact hkeep p (.inr ((hmem p).mp hp))
    · rw [hchanged] at hp
      rw [hroot, if_neg hp]

/-! ## Two runs on one project -/

def plainHashes : Hashes where
  sha256 bytes := String.ofList (bytes.map fun b => Char.ofNat b.toNat)
  sha256Items items := String.ofList (items.flatMap fun e => e.1.toList ++ ':' :: e.2.toList ++ [','])

def webChange : ProjectChange := ⟨plainHashes, "work-7"⟩

def webRoot : Folder := InsertionDict.empty.set "app.py" (.file [49])

def webFiles : ProjectFiles := ⟨webRoot, false, .empty, .empty, none⟩

/-- The worker rewrites the module and the reviewer agrees; the tests pass and write what is given. -/
def webTools (tests : Folder → Folder) : Tools Unit where
  worker _ candidate :=
    (.finished ⟨some "codex", [⟨some "codex", "작업", "SUCCESS"⟩], []⟩, candidate.set "app.py" (.file [50]))
  reviewer _ _ _ := .ok true
  verifier _ candidate := (.ok true, tests candidate)
  redactInfo info := .ok info
  protectedPaths := []

theorem quietTests_promotedAsReviewed :
    (executed webChange (webTools id) () webFiles).success = true ∧
      PromotedAsReviewed webChange webRoot (reviewedCandidate (webTools id) () webRoot)
        (executed webChange (webTools id) () webFiles).files :=
  have hsuccess : (executed webChange (webTools id) () webFiles).success = true := by decide +kernel
  ⟨hsuccess, (promotedAsReviewed_iff webChange (webTools id) () webFiles hsuccess).mpr fun _ _ => rfl⟩

/-- Tests that rewrite the module after it was reviewed: their text is promoted. -/
theorem rewritingTests_not_promotedAsReviewed :
    ¬∀ (c : ProjectChange) (tools : Tools Unit) (files : ProjectFiles), (executed c tools () files).success = true →
      PromotedAsReviewed c files.root (reviewedCandidate tools () files.root) (executed c tools () files).files := by
  intro h
  let tools := webTools fun candidate => candidate.set "app.py" (.file [51])
  have hsuccess : (executed webChange tools () webFiles).success = true := by decide +kernel
  obtain ⟨data, hdata, hsame, hcontent, -⟩ := h webChange tools webFiles hsuccess
  have hchanged : ((executed webChange tools () webFiles).files.manifest.map Manifest.changed) = some ["app.py"] := by
    decide +kernel
  rw [hdata, Option.map_some, Option.some.injEq] at hchanged
  have happ := hcontent "app.py" (by simp [hchanged])
  revert happ
  decide +kernel

end AllTomorrow.Overseer
