import AllTomorrow.ProjectChanges

/-!
# What a promotion does to the files

One law for each operation of `ProjectChange`: which folders it leaves alone, what it has
checked when it returns, and what the project holds when it raises. A promotion that fails
on the way leaves every file of the project with its old hash.
-/

namespace AllTomorrow.Overseer

open InsertionDict (contains_eq_false_iff contains_iff get?_set_self mem_entries_iff)

open EStateM

/-- The hash under which `tree` lists a path, if it does. -/
def hashAt (c : ProjectChange) (folder : Folder) (path : String) : Option String :=
  (content folder path).map c.hashes.sha256

variable {c : ProjectChange} {s : ProjectFiles}

theorem get?_fileHashes_eq (folder : Folder) (path : String) :
    (fileHashes c.hashes folder).get? path = hashAt c folder path :=
  get?_fileHashes path

/-- `names` is what `changed` returns for the two copies. -/
structure Changes (c : ProjectChange) (before candidate : Folder) (names : List String) : Prop where
  linkFree : hasLink candidate = false
  kept : ∀ p, hashAt c before p ≠ none → hashAt c candidate p ≠ none
  eq : names = newOrChanged (fileHashes c.hashes before) (fileHashes c.hashes candidate)

theorem Changes.mem_iff {before candidate : Folder} {names : List String} (h : Changes c before candidate names)
    {p : String} : p ∈ names ↔ hashAt c before p ≠ hashAt c candidate p := by
  rw [h.eq, newOrChanged, List.mem_map]
  simp only [List.mem_filter, decide_eq_true_eq, Prod.exists, exists_and_right, exists_eq_right,
    mem_entries_iff, get?_fileHashes_eq]
  constructor
  · rintro ⟨hash, hcandidate, hne⟩
    rw [hcandidate]
    exact hne
  · intro hne
    cases hcandidate : hashAt c candidate p with
    | some hash => exact ⟨hash, rfl, hcandidate ▸ hne⟩
    | none =>
      rw [hcandidate] at hne
      exact absurd hcandidate (h.kept p hne)

theorem Changes.content_ne_none {before candidate : Folder} {names : List String}
    (h : Changes c before candidate names) {p : String} (hp : p ∈ names) : content candidate p ≠ none := by
  intro hnone
  have hcandidate : hashAt c candidate p = none := by rw [hashAt, hnone, Option.map_none]
  have hne := h.mem_iff.mp hp
  rw [hcandidate] at hne
  exact h.kept p hne hcandidate

/-! ## Reading operations -/

section Reading

theorem ends_treeOf (folder : Folder) : Ends (c.treeOf folder) s
      (fun files s' => s' = s ∧ hasLink folder = false ∧ files = fileHashes c.hashes folder) fun _ s' => s' = s := by
  refine ends_ofExcept ?_ fun _ _ => rfl
  intro files hfiles
  exact ⟨rfl, tree_ok hfiles⟩

variable {E : Exn → ProjectFiles → Prop}

theorem ends_treeOf_of_linkFree {folder : Folder} (h : hasLink folder = false) {Q : Tree → ProjectFiles → Prop} (hQ : Q (fileHashes c.hashes folder) s) : Ends (c.treeOf folder) s Q E := by
  unfold ProjectChange.treeOf
  rw [tree_of_linkFree h]
  exact hQ

theorem ends_changed :
    Ends c.changed s (fun names s' => s' = s ∧ Changes c s.before s.candidate names) fun _ s' => s' = s := by
  unfold ProjectChange.changed
  refine ends_get_bind (Ends.bind (ends_treeOf s.before) ?_)
  rintro _ s ⟨rfl, _, rfl⟩
  refine ends_get_bind (Ends.bind (ends_treeOf _) ?_)
  rintro _ s ⟨rfl, hlink, rfl⟩
  refine ends_ite (fun _ => ends_throw_bind rfl) fun hdeleted => ends_pure ⟨rfl, hlink, ?_, rfl⟩
  intro p hp
  rw [Bool.not_eq_true, List.any_eq_false] at hdeleted
  obtain ⟨hash, hhash⟩ := Option.ne_none_iff_exists'.mp hp
  have hmem : (p, hash) ∈ (fileHashes c.hashes s.before).entries :=
    mem_entries_iff.mpr ((get?_fileHashes_eq s.before p).trans hhash)
  have hcontains := hdeleted _ hmem
  rw [Bool.not_eq_true, Bool.not_eq_false', contains_iff] at hcontains
  obtain ⟨after, hafter⟩ := hcontains
  rw [get?_fileHashes_eq] at hafter
  simp [hafter]

theorem ends_frozenChanged (protectedPaths : List String) : Ends (c.frozenChanged protectedPaths) s
      (fun _ s' => s' = s ∧ ∃ names, Changes c s.before s.candidate names) fun _ s' => s' = s := by
  unfold ProjectChange.frozenChanged
  refine Ends.bind ends_changed ?_
  rintro names s ⟨rfl, hnames⟩
  refine ends_get_bind (Ends.bind (ends_treeOf _) ?_)
  rintro _ s ⟨rfl, _, rfl⟩
  exact ends_pure ⟨rfl, names, hnames⟩

theorem ends_inspectCurrent : Ends c.inspectCurrent s (fun _ s' => s' = s) fun _ s' => s' = s := by
  unfold ProjectChange.inspectCurrent
  refine ends_get_bind (Ends.bind (ends_treeOf _) ?_)
  rintro _ s ⟨rfl, _, rfl⟩
  exact ends_pure rfl

theorem ends_validateCandidate (candidateRef : String) : Ends (c.validateCandidate candidateRef) s
      (fun valid s' => s' = s ∧ (valid = true → ∃ names, names ≠ [] ∧ Changes c s.before s.candidate names))
      fun _ s' => s' = s := by
  unfold ProjectChange.validateCandidate
  refine Ends.bind ends_changed ?_
  rintro names s ⟨rfl, hnames⟩
  refine ends_ite (fun _ => ends_pure ⟨rfl, by simp⟩) fun hne => ?_
  refine ends_get_bind (Ends.bind (ends_treeOf _) ?_)
  rintro _ s ⟨rfl, _, rfl⟩
  exact ends_pure ⟨rfl, fun _ => ⟨names, hne, hnames⟩⟩

theorem ends_plan (candidateRef currentRef : String) : Ends (c.plan candidateRef currentRef) s
      (fun plan s' => s' = s ∧ Changes c s.before s.candidate plan.steps) fun _ s' => s' = s := by
  unfold ProjectChange.plan
  refine Ends.bind ends_changed ?_
  rintro names s ⟨rfl, hnames⟩
  exact ends_pure ⟨rfl, hnames⟩

theorem ends_readManifest {data : Manifest} (h : s.manifest = some data) {Q : Manifest → ProjectFiles → Prop} (hQ : Q data s) : Ends ProjectChange.readManifest s Q E := by
  unfold ProjectChange.readManifest
  refine ends_get_bind ?_
  rw [h]
  exact ends_pure hQ

end Reading

/-! ## Rollback -/

section Rollback

theorem hashAt_eq_of_content {folder other : Folder} {p : String} (h : content folder p = content other p) :
    hashAt c folder p = hashAt c other p := by
  rw [hashAt, hashAt, h]

/-- Every file has the hash of the copy made before, apart from those that are still to be restored. -/
structure Restoring (c : ProjectChange) (before : Folder) (data : Manifest) (rest : List String) (s : ProjectFiles) :
    Prop where
  before_eq : s.before = before
  manifest : s.manifest = some data
  linkFree : hasLink s.root = false
  files : ∀ p, hashAt c s.root p = hashAt c before p ∨ (p ∈ rest ∧ hashAt c s.root p = data.candidate.get? p)

variable {before : Folder} {data : Manifest} {rest : List String}

theorem Restoring.write {name : String} {root : Folder}
    (h : Restoring c before data (name :: rest) s) (hlinks : NoNewLinks s.root root)
    (hname : hashAt c root name = hashAt c before name) (hother : ∀ p, p ≠ name → content root p = content s.root p) :
    Restoring c before data rest { s with root := root } := by
  refine ⟨h.before_eq, h.manifest, hlinks.hasLink h.linkFree, ?_⟩
  intro p
  by_cases hp : p = name
  · exact .inl (hp ▸ hname)
  · have hsame := hashAt_eq_of_content (c := c) (hother p hp)
    rcases h.files p with hrestored | ⟨hmem, hcandidate⟩
    · exact .inl (hsame.trans hrestored)
    · exact .inr ⟨(List.mem_cons.mp hmem).resolve_left hp, hsame.trans hcandidate⟩

theorem ends_restoreFile (hbaseline : ∀ p, data.baseline.get? p = hashAt c before p) {name : String} (h : Restoring c before data (name :: rest) s) :
    Ends (c.restoreFile data name) s (fun _ s' => Restoring c before data rest s') fun _ _ => False := by
  unfold ProjectChange.restoreFile
  refine ends_get_bind (Ends.bind (ends_treeOf_of_linkFree h.linkFree (Q := fun files s' =>
    s' = s ∧ files = fileHashes c.hashes s.root) ⟨rfl, rfl⟩) ?_)
  rintro _ s ⟨rfl, rfl⟩
  rw [get?_fileHashes_eq, hbaseline]
  refine ends_ite (fun hsame => ends_pure ?_) fun hne => ?_
  · exact h.write (fun _ hp => hp) hsame fun _ _ => rfl
  · have hcandidate : hashAt c s.root name = data.candidate.get? name := ((h.files name).resolve_left hne).2
    refine ends_ite (fun hother => absurd hcandidate hother) fun _ => ?_
    cases horiginal : content before name with
    | none =>
      have hhash : hashAt c before name = none := by rw [hashAt, horiginal, Option.map_none]
      rw [hhash]
      refine ends_modify (h.write (noNewLinks_erase name) ?_ fun p hp => ?_)
      · rw [hhash, hashAt, content_erase, if_pos rfl, Option.map_none]
      · rw [content_erase, if_neg hp]
    | some bytes =>
      have hhash : hashAt c before name = some (c.hashes.sha256 bytes) := by rw [hashAt, horiginal, Option.map_some]
      obtain ⟨hget, hseen⟩ := content_eq_some horiginal
      rw [hhash]
      refine ends_get_bind (ends_get_bind ?_)
      have hcopy : copyFile s.before name s.root name = .ok (s.root.set name (.file bytes)) := by
        rw [copyFile, h.before_eq, hget]
      rw [hcopy]
      refine ends_modify (h.write (noNewLinks_set name (by simp)) ?_ fun p hp => ?_)
      · rw [hhash, hashAt, content_set, if_pos rfl, hseen, Option.map_some]
      · rw [content_set, if_neg hp]

theorem ends_restoreFiles (hbaseline : ∀ p, data.baseline.get? p = hashAt c before p) (h : Restoring c before data rest s) :
    Ends (c.restoreFiles data rest) s (fun _ s' => Restoring c before data [] s') fun _ _ => False := by
  induction rest generalizing s with
  | nil => exact ends_pure h
  | cons name rest ih =>
    unfold ProjectChange.restoreFiles
    refine Ends.bind (ends_restoreFile hbaseline h) ?_
    intro _ s' hs'
    exact ih hs'

/-- The state that a promotion leaves when it stops on the way: each path has its old hash, or it is a changed
file with the new hash, or it is the file that was being written. -/
structure Recoverable (c : ProjectChange) (before : Folder) (s : ProjectFiles) (data : Manifest) : Prop where
  before_eq : s.before = before
  manifest : s.manifest = some data
  baseline : ∀ p, data.baseline.get? p = hashAt c before p
  linkFree : hasLink s.root = false
  files : ∀ p, hashAt c s.root p = hashAt c before p ∨ (p ∈ data.changed ∧ hashAt c s.root p = data.candidate.get? p) ∨
      (data.temporary = some p ∧ hashAt c before p = none ∧ ∃ bytes, s.root.get? p = some (.file bytes))

theorem ends_setAside (h : Recoverable c before s data) :
    Ends (ProjectChange.setAside data) s (fun _ s' => Restoring c before data data.changed s') fun _ _ => False := by
  have hkeep : (∀ p, data.temporary = some p → hashAt c before p = none → ∀ bytes,
      s.root.get? p ≠ some (.file bytes)) → Restoring c before data data.changed s := by
    intro hnone
    refine ⟨h.before_eq, h.manifest, h.linkFree, fun p => ?_⟩
    rcases h.files p with hp | hp | ⟨htemp, hbefore, bytes, hget⟩
    · exact .inl hp
    · exact .inr hp
    · exact absurd hget (hnone p htemp hbefore bytes)
  unfold ProjectChange.setAside
  cases htemp : data.temporary with
  | none => exact ends_pure (hkeep (by simp [htemp]))
  | some temp =>
    refine ends_ite (fun hold => ends_pure (hkeep ?_)) fun hold => ends_get_bind ?_
    · intro p hp hbefore
      rw [htemp, Option.some.injEq] at hp
      subst hp
      rw [contains_iff, h.baseline, hbefore] at hold
      simp at hold
    · have hbefore : hashAt c before temp = none := by
        rw [Bool.not_eq_true, contains_eq_false_iff, h.baseline] at hold
        exact hold
      cases hget : s.root.get? temp with
      | none => exact ends_pure (hkeep (by simp [htemp, hget]))
      | some node =>
        cases node with
        | dir => exact ends_pure (hkeep (by simp [htemp, hget]))
        | link => exact ends_pure (hkeep (by simp [htemp, hget]))
        | file bytes =>
          refine ends_modify ⟨h.before_eq, h.manifest, (noNewLinks_erase temp).hasLink h.linkFree, fun p => ?_⟩
          by_cases hp : p = temp
          · left
            rw [hp, hbefore, hashAt, content_erase, if_pos rfl, Option.map_none]
          · have hsame : hashAt c (s.root.erase temp) p = hashAt c s.root p :=
              hashAt_eq_of_content (by rw [content_erase, if_neg hp])
            rcases h.files p with hold | ⟨hmem, hnew⟩ | ⟨htemp', _⟩
            · exact .inl (hsame.trans hold)
            · exact .inr ⟨hmem, hsame.trans hnew⟩
            · rw [htemp, Option.some.injEq] at htemp'
              exact absurd htemp'.symm hp

/-- The root is the one that was copied, as far as `tree` sees, and no promotion is under way. -/
structure Unpromoted (c : ProjectChange) (before : Folder) (s : ProjectFiles) : Prop where
  files : ∀ p, hashAt c s.root p = hashAt c before p
  state : ∀ data, s.manifest = some data → data.state ≠ .applying

theorem ends_rollback (h : Recoverable c before s data) :
    Ends c.rollback s (fun _ s' => Unpromoted c before s') fun _ _ => False := by
  unfold ProjectChange.rollback
  refine Ends.bind (ends_readManifest h.manifest (Q := fun d s' => d = data ∧ s' = s) ⟨rfl, rfl⟩) ?_
  rintro _ _ ⟨rfl, rfl⟩
  refine Ends.bind (ends_setAside h) fun _ s₁ hs₁ => ?_
  refine Ends.bind (ends_restoreFiles h.baseline hs₁) fun _ s₂ hs₂ => ?_
  refine ends_modify_bind ?_
  unfold ProjectChange.inspectCurrent
  refine ends_get_bind (Ends.bind (ends_treeOf_of_linkFree hs₂.linkFree (Q := fun _ s' =>
    s' = { s₂ with manifest := some _ }) rfl) ?_)
  rintro _ _ rfl
  refine ends_pure ⟨fun p => ?_, ?_⟩
  · rcases hs₂.files p with hp | ⟨hmem, _⟩
    · exact hp
    · simp at hmem
  · intro data hdata
    cases hdata
    simp

end Rollback

/-! ## Applying -/

section Applying

/-- The files of `applied` have been written and no others. -/
structure Applying (c : ProjectChange) (start : ProjectFiles) (names : List String) (data : Manifest)
    (s : ProjectFiles) : Prop where
  before_eq : s.before = start.before
  candidate_eq : s.candidate = start.candidate
  manifest : s.manifest = some data
  changed_eq : data.changed = names
  baseline : ∀ p, data.baseline.get? p = hashAt c start.before p
  candidateHashes : data.candidate = fileHashes c.hashes start.candidate
  linkFree : hasLink s.root = false
  applied_mem : ∀ p ∈ data.applied, p ∈ names
  files : ∀ p, content s.root p = if p ∈ data.applied then content start.candidate p else content start.root p

variable {start : ProjectFiles} {names : List String} {data : Manifest}

structure Copied (c : ProjectChange) (start : ProjectFiles) (names : List String) : Prop where
  changes : Changes c start.before start.candidate names
  root_eq : ∀ p, hashAt c start.root p = hashAt c start.before p

theorem Applying.oldOrNew (hstart : Copied c start names) (h : Applying c start names data s) (p : String) :
    hashAt c s.root p = hashAt c start.before p ∨ (p ∈ data.changed ∧ hashAt c s.root p = data.candidate.get? p) := by
  by_cases hp : p ∈ data.applied
  · refine .inr ⟨h.changed_eq ▸ h.applied_mem p hp, ?_⟩
    rw [h.candidateHashes, get?_fileHashes_eq, hashAt, h.files, if_pos hp]
    rfl
  · left
    rw [hashAt, h.files, if_neg hp]
    exact hstart.root_eq p

theorem Applying.recoverable (hstart : Copied c start names) (h : Applying c start names data s) :
    Recoverable c start.before s data := by
  refine ⟨h.before_eq, h.manifest, h.baseline, h.linkFree, fun p => ?_⟩
  rcases h.oldOrNew hstart p with hold | hnew
  · exact .inl hold
  · exact .inr (.inl hnew)

theorem Applying.free (hstart : Copied c start names) (h : Applying c start names data s) {p : String}
    (hfree : s.root.get? p = none) : hashAt c start.before p = none := by
  have hcontent : content s.root p = none := by rw [content, hfree, Option.bind_none]
  rw [h.files] at hcontent
  split at hcontent
  · rename_i hp
    exact absurd hcontent (hstart.changes.content_ne_none (h.applied_mem p hp))
  · rw [← hstart.root_eq, hashAt, hcontent, Option.map_none]

theorem Applying.withFolders (h : Applying c start names data s) {paths : List String} {root : Folder}
    (hroot : makeFolders paths s.root = .ok root) : Applying c start names data { s with root := root } := by
  obtain ⟨hcontent, hlinks, _⟩ := makeFolders_ok hroot
  exact { h with
    linkFree := hlinks.hasLink h.linkFree
    files := fun p => (hcontent p).trans (h.files p) }

theorem Applying.written (hstart : Copied c start names) (h : Applying c start names data s) {temp : String}
    (hfree : s.root.get? temp = none) (bytes : Bytes) : Recoverable c start.before
      { s with root := s.root.set temp (.file bytes), manifest := some { data with temporary := some temp } }
      { data with temporary := some temp } := by
  refine ⟨h.before_eq, rfl, h.baseline, (noNewLinks_set temp (by simp)).hasLink h.linkFree, fun p => ?_⟩
  by_cases hp : p = temp
  · subst hp
    exact .inr (.inr ⟨rfl, h.free hstart hfree, bytes, get?_set_self ..⟩)
  · have hsame : hashAt c (s.root.set temp (.file bytes)) p = hashAt c s.root p :=
      hashAt_eq_of_content (by rw [content_set, if_neg hp])
    rcases h.oldOrNew hstart p with hold | ⟨hmem, hnew⟩
    · exact .inl (hsame.trans hold)
    · exact .inr (.inl ⟨hmem, hsame.trans hnew⟩)

/-- The file is in its place. -/
theorem Applying.placed (h : Applying c start names data s) {name temp : String} {bytes : Bytes}
    (hname : name ∈ names) (hfree : s.root.get? temp = none) (hbytes : start.candidate.get? name = some (.file bytes)) :
    Applying c start names { data with temporary := some temp, applied := data.applied ++ [name] }
      { s with root := ((s.root.set temp (.file bytes)).erase temp).set name (.file bytes)
               manifest := some { data with temporary := some temp, applied := data.applied ++ [name] } } := by
  have hseen : seen name (.file bytes) = content start.candidate name := by rw [content, hbytes, Option.bind_some]
  have hlinks : NoNewLinks s.root (((s.root.set temp (.file bytes)).erase temp).set name (.file bytes)) :=
    ((noNewLinks_set temp (by simp)).trans (noNewLinks_erase temp)).trans (noNewLinks_set name (by simp))
  refine { h with
    manifest := rfl
    linkFree := hlinks.hasLink h.linkFree
    applied_mem := ?_
    files := ?_ }
  · intro p hp
    rcases List.mem_append.mp hp with hp | hp
    · exact h.applied_mem p hp
    · exact List.mem_singleton.mp hp ▸ hname
  · intro p
    rw [content_set]
    by_cases hp : p = name
    · rw [if_pos hp, if_pos (by simp [hp]), hp, hseen]
    · have happlied : p ∈ data.applied ++ [name] ↔ p ∈ data.applied := by simp [hp]
      have hkept : content ((s.root.set temp (.file bytes)).erase temp) p = content s.root p := by
        rw [content_erase]
        split
        · rename_i htemp
          rw [htemp, content, hfree, Option.bind_none]
        · rename_i htemp
          rw [content_set, if_neg htemp]
      rw [if_neg hp, hkept, h.files]
      simp only [happlied]

theorem ends_applyFile (hstart : Copied c start names) (h : Applying c start names data s) {name : String}
    (hname : name ∈ names) : Ends (c.applyFile data name) s
      (fun data' s' => Applying c start names data' s' ∧ data'.applied = data.applied ++ [name])
      fun _ s' => ∃ data', Recoverable c start.before s' data' := by
  have hstop := h.recoverable hstart
  unfold ProjectChange.applyFile
  refine Ends.bind (ends_ofExcept (Q := fun _ s' => s' = s) (fun _ _ => rfl) fun _ _ => ⟨data, hstop⟩) ?_
  rintro expected s rfl
  refine ends_get_bind (Ends.bind (Q := fun _ s' => s' = s) ((ends_treeOf _).mono (fun _ _ hs => hs.1)
    fun _ _ hs => ⟨data, hs ▸ hstop⟩) ?_)
  rintro current s rfl
  refine ends_ite (fun _ => ends_throw_bind ⟨data, hstop⟩) fun _ => ends_get_bind ?_
  refine Ends.bind (ends_ofExcept (Q := fun root s' => s' = s ∧ makeFolders (parentFolders name) s.root = .ok root)
    (fun root hroot => ⟨rfl, hroot⟩) fun _ _ => ⟨data, hstop⟩) ?_
  rintro root s ⟨rfl, hroot⟩
  refine ends_modify_bind (ends_get_bind ?_)
  have hfolders := h.withFolders hroot
  refine ends_ite (fun _ => ends_throw_bind ⟨data, hfolders.recoverable hstart⟩) fun hcontains => ?_
  have hfree : root.get? (c.temporaryName name) = none := by
    rw [Bool.not_eq_true] at hcontains
    exact contains_eq_false_iff.mp hcontains
  refine ends_modify_bind (ends_get_bind (ends_get_bind ?_))
  obtain ⟨bytes, hbytes⟩ := Option.ne_none_iff_exists'.mp (hstart.changes.content_ne_none hname)
  have hcopy : copyFile s.candidate name root (c.temporaryName name) =
      .ok (root.set (c.temporaryName name) (.file bytes)) := by
    rw [copyFile, h.candidate_eq, (content_eq_some hbytes).1]
  refine Ends.bind (ends_ofExcept (Q := fun written s' => s' = { s with
      root := root, manifest := some { data with temporary := some (c.temporaryName name) } } ∧
      written = root.set (c.temporaryName name) (.file bytes)) ?_ ?_) ?_
  · intro written hwritten
    rw [hcopy] at hwritten
    cases hwritten
    exact ⟨rfl, rfl⟩
  · intro e he
    rw [hcopy] at he
    cases he
  rintro _ _ ⟨rfl, rfl⟩
  refine ends_modify_bind (ends_get_bind ?_)
  have hwritten := hfolders.written hstart hfree bytes
  refine Ends.bind (ends_ofExcept (Q := fun placed s' =>
      s' = { s with root := root.set (c.temporaryName name) (.file bytes)
                    manifest := some { data with temporary := some (c.temporaryName name) } } ∧
      placed = ((root.set (c.temporaryName name) (.file bytes)).erase (c.temporaryName name)).set name (.file bytes))
    ?_ fun _ _ => ⟨_, hwritten⟩) ?_
  · intro placed hplaced
    obtain ⟨node, hnode, _, rfl⟩ := replaceFile_ok hplaced
    rw [get?_set_self, Option.some.injEq] at hnode
    exact ⟨rfl, by rw [hnode]⟩
  rintro _ _ ⟨rfl, rfl⟩
  refine ends_modify_bind (ends_modify_bind (ends_pure ⟨?_, rfl⟩))
  exact hfolders.placed hname hfree (content_eq_some hbytes).1

theorem ends_applyFiles (hstart : Copied c start names) {rest : List String} (hrest : ∀ p ∈ rest, p ∈ names)
    (h : Applying c start names data s) : Ends (c.applyFiles data rest) s
      (fun _ s' => ∃ data', Applying c start names data' s' ∧ data'.applied = data.applied ++ rest)
      fun _ s' => ∃ data', Recoverable c start.before s' data' := by
  induction rest generalizing data s with
  | nil => exact ends_pure ⟨data, h, (List.append_nil _).symm⟩
  | cons name rest ih =>
    unfold ProjectChange.applyFiles
    refine Ends.bind (ends_applyFile hstart h (hrest name List.mem_cons_self)) ?_
    rintro data' s' ⟨h', happlied⟩
    refine (ih (fun p hp => hrest p (List.mem_cons_of_mem name hp)) h').mono ?_ fun _ _ hs => hs
    rintro _ s'' ⟨data'', h'', happlied'⟩
    exact ⟨data'', h'', by rw [happlied', happlied, List.append_assoc, List.singleton_append]⟩

/-- The whole candidate is written, or nothing has changed. -/
theorem ends_apply (plan : DeploymentPlan) (hstart : Copied c s plan.steps) (hlink : hasLink s.root = false)
    (hmanifest : s.manifest = some data) (hbaseline : ∀ p, data.baseline.get? p = hashAt c s.before p)
    (happlied : data.applied = []) : Ends (c.apply plan) s
      (fun _ s' => ∃ data', Applying c s plan.steps data' s' ∧ data'.applied = plan.steps)
      fun _ s' => Unpromoted c s.before s' := by
  unfold ProjectChange.apply
  refine Ends.bind (ends_readManifest hmanifest (Q := fun d s' => d = data ∧ s' = s) ⟨rfl, rfl⟩) ?_
  rintro data s ⟨rfl, rfl⟩
  refine ends_get_bind (Ends.bind (ends_treeOf_of_linkFree hstart.changes.linkFree (Q := fun files s' =>
    s' = s ∧ files = fileHashes c.hashes s.candidate) ⟨rfl, rfl⟩) ?_)
  rintro _ s ⟨rfl, rfl⟩
  refine ends_modify_bind ?_
  have hfirst : Applying c s plan.steps
      { data with state := .applying, changed := plan.steps, candidate := fileHashes c.hashes s.candidate }
      { s with manifest := some { data with
          state := .applying, changed := plan.steps, candidate := fileHashes c.hashes s.candidate } } :=
    { before_eq := rfl, candidate_eq := rfl, manifest := rfl, changed_eq := rfl, baseline := hbaseline
      candidateHashes := rfl, linkFree := hlink, applied_mem := by simp [happlied], files := by simp [happlied] }
  refine Ends.bind (ends_tryCatch (ends_applyFiles hstart (fun _ hp => hp) hfirst) ?_) ?_
  · rintro e s' ⟨data', hs'⟩
    refine Ends.bind ((ends_rollback hs').mono (fun _ _ h => h) fun _ _ h => h.elim) fun _ s'' hs'' => ?_
    exact ends_throw hs''
  · rintro _ s' ⟨data', hs', hall⟩
    exact ends_pure ⟨data', hs', by simpa [happlied] using hall⟩

end Applying

/-! ## Promotion -/

section Promotion

/-- The two copies are made and nothing else has happened, whatever the candidate has become since. -/
structure Prepared (c : ProjectChange) (root : Folder) (s : ProjectFiles) : Prop where
  root_eq : s.root = root
  before_eq : s.before = copyVisible root
  linkFree : hasLink root = false
  manifest : s.manifest = some ⟨fileHashes c.hashes root, .prepared, [], .empty, [], none⟩

theorem hashAt_copyVisible (root : Folder) (p : String) : hashAt c (copyVisible root) p = hashAt c root p :=
  hashAt_eq_of_content (content_copyVisible p)

theorem Prepared.unpromoted {root : Folder} (h : Prepared c root s) : Unpromoted c root s := by
  refine ⟨fun p => by rw [h.root_eq], fun data hdata => ?_⟩
  rw [h.manifest] at hdata
  cases hdata
  simp

theorem ends_prepare : Ends c.prepare s (fun _ s' => Prepared c s.root s' ∧ s'.candidate = copyVisible s.root)
      fun _ s' => s'.root = s.root ∧ s'.manifest = s.manifest := by
  unfold ProjectChange.prepare
  refine ends_get_bind (Ends.bind ((ends_treeOf _).mono (fun _ _ h => h) fun _ s' (h : s' = s) => by
    rw [h]; exact ⟨rfl, rfl⟩) ?_)
  rintro _ s ⟨rfl, hlink, rfl⟩
  refine ends_get_bind (ends_ite (fun _ => ends_throw_bind ⟨rfl, rfl⟩) fun _ => ends_modify_bind (ends_get_bind ?_))
  refine Ends.bind ((ends_treeOf _).mono (fun _ _ h => h) ?_) ?_
  · rintro _ _ rfl
    exact ⟨rfl, rfl⟩
  rintro _ _ ⟨rfl, _, rfl⟩
  refine ends_get_bind (Ends.bind ((ends_treeOf _).mono (fun _ _ h => h) ?_) ?_)
  · rintro _ _ rfl
    exact ⟨rfl, rfl⟩
  rintro _ _ ⟨rfl, _, rfl⟩
  refine ends_ite (fun _ => ends_throw_bind ⟨rfl, rfl⟩) fun _ => ends_modify_bind (ends_modify ⟨?_, rfl⟩)
  exact ⟨rfl, rfl, hlink, rfl⟩

/-- The candidate `s` held is in the project. -/
def Promoted (c : ProjectChange) (s s' : ProjectFiles) : Prop :=
  ∃ names data, names ≠ [] ∧ Changes c s.before s.candidate names ∧ Applying c s names data s' ∧ data.applied = names

theorem ends_verify {names : List String} {data : Manifest} {start : ProjectFiles}
    (h : Applying c start names data s) (deployment : DeploymentRef) (E : Exn → ProjectFiles → Prop) :
    Ends (c.verify deployment) s (fun _ s' => s' = s) E := by
  unfold ProjectChange.verify ProjectChange.inspectCurrent
  refine Ends.bind (ends_get_bind (Ends.bind (ends_treeOf_of_linkFree h.linkFree (Q := fun _ s' => s' = s) rfl) ?_))
    fun _ s' (hs' : s' = s) => ends_pure hs'
  rintro _ s' rfl
  exact ends_pure rfl

/-- A promotion writes the whole candidate or leaves the project as it was. -/
theorem ends_promote {root : Folder} (h : Prepared c root s) (candidateRef acceptedBaselineRef : String)
    (protectionClass : ProtectionClass) (monitoringPolicy : Option MonitoringPolicy) :
    Ends (c.promote candidateRef acceptedBaselineRef protectionClass monitoringPolicy) s
      (fun result s' => (result.promoted = true → Promoted c s s') ∧ (result.promoted = false → Unpromoted c root s'))
      fun _ s' => Unpromoted c root s' := by
  have hsame : ∀ s', s' = s → Unpromoted c root s' := fun s' hs' => hs' ▸ h.unpromoted
  unfold ProjectChange.promote
  refine ends_ite (fun _ => ends_throw_bind (hsame s rfl)) fun _ => ?_
  refine ends_ite (fun _ => ends_throw_bind (hsame s rfl)) fun _ => ?_
  refine Ends.bind (ends_inspectCurrent.mono (fun _ _ hs => hs) fun _ => hsame) ?_
  rintro current _ rfl
  refine ends_ite (fun _ => ends_throw_bind (hsame _ rfl)) fun _ => ?_
  refine Ends.bind ((ends_validateCandidate candidateRef).mono (fun _ _ hs => hs) fun _ => hsame) ?_
  rintro valid s ⟨rfl, hvalid⟩
  refine ends_ite (fun _ => ends_throw_bind (hsame _ rfl)) fun hok => ?_
  obtain ⟨names, hne, hnames⟩ := hvalid (by simpa using hok)
  refine Ends.bind ((ends_plan candidateRef current).mono (fun _ _ hs => hs) fun _ => hsame) ?_
  rintro plan s ⟨rfl, hplan⟩
  have hsteps : plan.steps ≠ [] := by rwa [hplan.eq, ← hnames.eq]
  have hstart : Copied c s plan.steps :=
    ⟨hplan, fun p => by rw [h.root_eq, h.before_eq, hashAt_copyVisible]⟩
  have hback : ∀ s', Unpromoted c s.before s' → Unpromoted c root s' := by
    intro s' hs'
    exact ⟨fun p => by rw [hs'.files p, h.before_eq, hashAt_copyVisible], hs'.state⟩
  have happly := ends_apply plan hstart (h.root_eq ▸ h.linkFree) h.manifest
    (fun p => by rw [get?_fileHashes_eq, h.before_eq, hashAt_copyVisible]) rfl
  refine Ends.bind (happly.mono (fun _ _ hs => hs) fun _ s' => hback s') ?_
  rintro deployment s' ⟨data, happlied, hall⟩
  refine Ends.bind (ends_verify happlied deployment _) ?_
  rintro verified _ rfl
  refine ends_ite (fun _ => ?_) fun _ => ends_pure ⟨fun _ => ⟨_, data, hsteps, hplan, happlied, hall⟩, by simp⟩
  refine Ends.bind ((ends_rollback (happlied.recoverable hstart)).mono (fun _ _ hs => hs) fun _ _ hs => hs.elim) ?_
  intro _ s'' hs''
  exact ends_pure ⟨by simp, fun _ => hback s'' hs''⟩

theorem ends_finish {data : Manifest} (h : s.manifest = some data) (E : Exn → ProjectFiles → Prop) :
    Ends ProjectChange.finish s (fun _ s' => s' = { s with manifest := some { data with state := .promoted } }) E := by
  unfold ProjectChange.finish
  refine Ends.bind (ends_readManifest h (Q := fun d s' => d = data ∧ s' = s) ⟨rfl, rfl⟩) ?_
  rintro _ _ ⟨rfl, rfl⟩
  exact ends_modify rfl

end Promotion

end AllTomorrow.Overseer
