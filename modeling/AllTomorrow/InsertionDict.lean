import Mathlib.Data.List.Nodup

/-!
# Finite maps that remember insertion order

A dictionary is an association list with distinct keys. Writing to a key that is
already present replaces the value in place, and a new key goes to the end, so
the list of values always stands in the order in which the keys first appeared.
-/

/-- A finite map together with the order in which its keys were inserted. -/
structure InsertionDict (κ ν : Type*) where
  entries : List (κ × ν)
  nodup_keys : (entries.map Prod.fst).Nodup

namespace InsertionDict

variable {κ ν : Type*}

def empty : InsertionDict κ ν := ⟨[], List.nodup_nil⟩

def values (d : InsertionDict κ ν) : List ν := d.entries.map Prod.snd

variable [DecidableEq κ]

def get? (d : InsertionDict κ ν) (k : κ) : Option ν := d.entries.lookup k

def contains (d : InsertionDict κ ν) (k : κ) : Bool := (d.get? k).isSome

/-- Replace the value of `k` where it stands, or append the pair at the end. -/
def setEntries (k : κ) (v : ν) : List (κ × ν) → List (κ × ν)
  | [] => [(k, v)]
  | e :: es => if e.1 = k then (k, v) :: es else e :: setEntries k v es

theorem map_fst_setEntries (k : κ) (v : ν) (es : List (κ × ν)) :
    (setEntries k v es).map Prod.fst =
      if k ∈ es.map Prod.fst then es.map Prod.fst else es.map Prod.fst ++ [k] := by
  induction es with
  | nil => simp [setEntries]
  | cons e es ih =>
    by_cases h : e.1 = k
    · simp [setEntries, h]
    · have h' : ¬k = e.1 := fun he => h he.symm
      simp only [setEntries, h, if_false, List.map_cons, ih, List.mem_cons, h', false_or]
      split <;> simp

variable {es : List (κ × ν)}

theorem nodup_setEntries (k : κ) (v : ν) (h : (es.map Prod.fst).Nodup) : ((setEntries k v es).map Prod.fst).Nodup := by
  rw [map_fst_setEntries]
  split
  · exact h
  · rename_i hk
    refine List.nodup_append.mpr ⟨h, List.nodup_singleton k, ?_⟩
    intro a ha b hb hab
    rw [List.mem_singleton] at hb
    exact hk (hb ▸ hab ▸ ha)

def set (d : InsertionDict κ ν) (k : κ) (v : ν) : InsertionDict κ ν :=
  ⟨setEntries k v d.entries, nodup_setEntries k v d.nodup_keys⟩

/-- `dict.pop(k, None)`. -/
def erase (d : InsertionDict κ ν) (k : κ) : InsertionDict κ ν :=
  ⟨d.entries.filter fun e => e.1 ≠ k, d.nodup_keys.sublist (List.filter_sublist.map Prod.fst)⟩

@[simp] theorem get?_empty (k : κ) : (empty : InsertionDict κ ν).get? k = none := rfl

private theorem lookup_cons_of_ne {j a : κ} (b : ν) (es : List (κ × ν)) (h : j ≠ a) :
    List.lookup j ((a, b) :: es) = es.lookup j := by
  rw [List.lookup_cons, beq_false_of_ne h]

private theorem lookup_setEntries (k : κ) (v : ν) (es : List (κ × ν)) (j : κ) :
    (setEntries k v es).lookup j = if j = k then some v else es.lookup j := by
  induction es with
  | nil =>
    by_cases h : j = k
    · simp [setEntries, h]
    · simp [setEntries, lookup_cons_of_ne v [] h, h]
  | cons e es ih =>
    obtain ⟨a, b⟩ := e
    by_cases ha : a = k
    · subst ha
      by_cases hj : j = a
      · simp [setEntries, hj]
      · simp [setEntries, lookup_cons_of_ne _ es hj, hj]
    · by_cases hj : j = a
      · subst hj
        simp [setEntries, ha]
      · simp [setEntries, ha, lookup_cons_of_ne _ _ hj, ih]

theorem get?_set (d : InsertionDict κ ν) (k : κ) (v : ν) (j : κ) :
    (d.set k v).get? j = if j = k then some v else d.get? j :=
  lookup_setEntries k v d.entries j

@[simp] theorem get?_set_self (d : InsertionDict κ ν) (k : κ) (v : ν) :
    (d.set k v).get? k = some v := by simp [get?_set]

theorem get?_set_of_ne (d : InsertionDict κ ν) {k j : κ} (v : ν) (h : j ≠ k) :
    (d.set k v).get? j = d.get? j := by simp [get?_set, h]

variable {d : InsertionDict κ ν} {k : κ} {v : ν}

theorem set_get? (h : d.get? k = some v) : d.set k v = d := by
  have hentries : ∀ es : List (κ × ν), es.lookup k = some v → setEntries k v es = es := by
    intro es hlookup
    induction es with
    | nil => cases hlookup
    | cons e es ih =>
      obtain ⟨a, b⟩ := e
      by_cases ha : a = k
      · subst ha
        simp_all [setEntries]
      · rw [lookup_cons_of_ne b es (Ne.symm ha)] at hlookup
        simp [setEntries, ha, ih hlookup]
  obtain ⟨entries, hnodup⟩ := d
  simp only [set, mk.injEq]
  exact hentries entries h

theorem get?_erase (d : InsertionDict κ ν) (k j : κ) : (d.erase k).get? j = if j = k then none else d.get? j := by
  change (d.entries.filter fun e => e.1 ≠ k).lookup j = if j = k then none else d.entries.lookup j
  generalize d.entries = es
  induction es with
  | nil => simp
  | cons e es ih =>
    obtain ⟨a, b⟩ := e
    by_cases ha : a = k
    · subst ha
      by_cases hj : j = a
      · simpa [hj] using ih
      · simpa [hj, lookup_cons_of_ne b es hj] using ih
    · by_cases hj : j = a
      · subst hj
        simp [ha]
      · simpa [ha, lookup_cons_of_ne b _ hj] using ih

theorem keys_set (d : InsertionDict κ ν) (k : κ) (v : ν) :
    (d.set k v).entries.map Prod.fst =
      if k ∈ d.entries.map Prod.fst then d.entries.map Prod.fst else d.entries.map Prod.fst ++ [k] :=
  map_fst_setEntries k v d.entries

theorem get?_set_cases (d : InsertionDict κ ν) (k : κ) (v : ν) (j : κ) :
    (j = k ∧ (d.set k v).get? j = some v) ∨ (j ≠ k ∧ (d.set k v).get? j = d.get? j) := by
  by_cases h : j = k
  · subst h
    exact .inl ⟨rfl, d.get?_set_self j v⟩
  · exact .inr ⟨h, d.get?_set_of_ne v h⟩

variable {w : ν}

theorem forall_set {P : κ → ν → Prop} {j : κ} (h : ∀ k v, d.get? k = some v → P k v) (hj : P j w) :
    ∀ k v, (d.set j w).get? k = some v → P k v := by
  intro k v hk
  rw [get?_set] at hk
  split at hk
  · rename_i heq
    cases hk
    exact heq ▸ hj
  · exact h k v hk

theorem exists_get?_set (h : ∃ v, d.get? k = some v) (j : κ) (w : ν) : ∃ v, (d.set j w).get? k = some v := by
  obtain ⟨v, hv⟩ := h
  by_cases hk : k = j
  · exact ⟨w, by rw [hk, get?_set_self]⟩
  · exact ⟨v, by rw [get?_set_of_ne d w hk, hv]⟩

theorem contains_iff : d.contains k = true ↔ ∃ v, d.get? k = some v := Option.isSome_iff_exists

theorem contains_eq_false_iff : d.contains k = false ↔ d.get? k = none := by
  simp [contains, Option.isSome_eq_false_iff]

theorem mem_entries_of_get? (h : d.get? k = some v) : (k, v) ∈ d.entries := by
  obtain ⟨es, hn⟩ := d
  change es.lookup k = some v at h
  change (k, v) ∈ es
  clear hn
  induction es with
  | nil => simp at h
  | cons e es ih =>
    obtain ⟨a, b⟩ := e
    by_cases hk : k = a
    · subst hk
      simp only [List.lookup_cons_self, Option.some.injEq] at h
      simp [h]
    · rw [lookup_cons_of_ne b es hk] at h
      exact List.mem_cons_of_mem _ (ih h)

theorem get?_of_mem_entries (h : (k, v) ∈ d.entries) : d.get? k = some v := by
  obtain ⟨es, hn⟩ := d
  change es.lookup k = some v
  change (k, v) ∈ es at h
  induction es with
  | nil => simp at h
  | cons e es ih =>
    obtain ⟨a, b⟩ := e
    rw [List.map_cons, List.nodup_cons] at hn
    rcases List.mem_cons.mp h with he | he
    · cases he
      simp
    · have hne : k ≠ a := by
        rintro rfl
        exact hn.1 (List.mem_map.mpr ⟨(k, v), he, rfl⟩)
      rw [lookup_cons_of_ne b es hne]
      exact ih hn.2 he

theorem erase_of_none (h : d.get? k = none) : d.erase k = d := by
  obtain ⟨entries, hnodup⟩ := d
  have hentries : entries.filter (fun e => e.1 ≠ k) = entries := by
    refine List.filter_eq_self.mpr fun e he => ?_
    have hget : (⟨entries, hnodup⟩ : InsertionDict κ ν).get? e.1 = some e.2 := get?_of_mem_entries he
    simp only [ne_eq, decide_not, Bool.not_eq_true', decide_eq_false_iff_not]
    rintro rfl
    exact absurd (h.symm.trans hget) (by nofun)
  simp only [erase, hentries]

theorem mem_values_iff : v ∈ d.values ↔ ∃ k, d.get? k = some v := by
  constructor
  · intro h
    obtain ⟨⟨k, w⟩, hm, rfl⟩ := List.mem_map.mp h
    exact ⟨k, get?_of_mem_entries hm⟩
  · rintro ⟨k, h⟩
    exact List.mem_map.mpr ⟨(k, v), mem_entries_of_get? h, rfl⟩

theorem mem_values_of_get? (h : d.get? k = some v) : v ∈ d.values := mem_values_iff.mpr ⟨k, h⟩

theorem mem_keys_iff : k ∈ d.entries.map Prod.fst ↔ ∃ v, d.get? k = some v := by
  constructor
  · intro h
    obtain ⟨⟨_, v⟩, hm, rfl⟩ := List.mem_map.mp h
    exact ⟨v, get?_of_mem_entries hm⟩
  · rintro ⟨v, h⟩
    exact List.mem_map.mpr ⟨(k, v), mem_entries_of_get? h, rfl⟩

theorem keys_set_of_fresh (h : d.get? k = none) (v : ν) :
    (d.set k v).entries.map Prod.fst = d.entries.map Prod.fst ++ [k] := by
  rw [keys_set, if_neg]
  rw [mem_keys_iff, h]
  simp

theorem keys_set_of_get? (h : d.get? k = some w) (v : ν) : (d.set k v).entries.map Prod.fst = d.entries.map Prod.fst := by
  rw [keys_set, if_pos (mem_keys_iff.mpr ⟨w, h⟩)]

theorem length_set_of_fresh (h : d.get? k = none) (v : ν) : (d.set k v).entries.length = d.entries.length + 1 := by
  simpa using congrArg List.length (keys_set_of_fresh h v)

theorem length_set_of_get? (h : d.get? k = some w) (v : ν) : (d.set k v).entries.length = d.entries.length := by
  simpa using congrArg List.length (keys_set_of_get? h v)

theorem values_set_of_fresh (h : d.get? k = none) (v : ν) : (d.set k v).values = d.values ++ [v] := by
  have hkeys : k ∉ d.entries.map Prod.fst := by
    rw [mem_keys_iff, h]
    simp
  have hentries : ∀ es : List (κ × ν), k ∉ es.map Prod.fst → setEntries k v es = es ++ [(k, v)] := by
    intro es
    induction es with
    | nil => simp [setEntries]
    | cons e es ih =>
      intro hk
      rw [List.map_cons, List.mem_cons, not_or] at hk
      rw [setEntries, if_neg (Ne.symm hk.1), ih hk.2, List.cons_append]
  change (setEntries k v d.entries).map Prod.snd = d.entries.map Prod.snd ++ [v]
  rw [hentries d.entries hkeys, List.map_append]
  rfl

/-- If every stored value carries its own key, a present key is replaced where it stands. -/
theorem values_set_of_get? {key : ν → κ} (hkey : ∀ k v, d.get? k = some v → key v = k) (h : d.get? k = some w) (v : ν) :
    (d.set k v).values = d.values.map fun u => if key u = k then v else u := by
  have hentries : ∀ es : List (κ × ν), (∀ e ∈ es, key e.2 = e.1) → (es.map Prod.fst).Nodup → k ∈ es.map Prod.fst →
      (setEntries k v es).map Prod.snd = es.map fun e => if key e.2 = k then v else e.2 := by
    intro es
    induction es with
    | nil => simp
    | cons e es ih =>
      intro hself hnodup hmem
      rw [List.map_cons, List.nodup_cons] at hnodup
      have he := hself e List.mem_cons_self
      by_cases hk : e.1 = k
      · have hrest : ∀ e' ∈ es, (if key e'.2 = k then v else e'.2) = e'.2 := by
          intro e' he'
          rw [if_neg]
          rw [hself e' (List.mem_cons_of_mem e he'), ← hk]
          intro heq
          exact hnodup.1 (heq ▸ List.mem_map_of_mem he')
        simp only [setEntries, hk, if_true, List.map_cons, he, List.map_congr_left hrest]
      · rw [List.map_cons, List.mem_cons] at hmem
        have htail := ih (fun e' he' => hself e' (List.mem_cons_of_mem e he')) hnodup.2
          (hmem.resolve_left (Ne.symm hk))
        simp only [setEntries, hk, if_false, List.map_cons, he, htail]
  have hall := hentries d.entries (fun e he => hkey e.1 e.2 (get?_of_mem_entries he)) d.nodup_keys
    (mem_keys_iff.mpr ⟨w, h⟩)
  rw [values, values, List.map_map]
  exact hall

theorem nodup_map_values {key : ν → κ} (h : ∀ k v, d.get? k = some v → key v = k) : (d.values.map key).Nodup := by
  have he : d.values.map key = d.entries.map Prod.fst := by
    rw [values, List.map_map]
    refine List.map_congr_left ?_
    rintro ⟨k, v⟩ hm
    exact h k v (get?_of_mem_entries hm)
  exact he ▸ d.nodup_keys

/-! ## Values that exclude each other -/

def Exclusive (d : InsertionDict κ ν) (clash : ν → ν → Prop) : Prop :=
  ∀ j k v w, d.get? j = some v → d.get? k = some w → clash v w → j = k

theorem exclusive_empty (clash : ν → ν → Prop) : (empty : InsertionDict κ ν).Exclusive clash := by
  intro j k v w h
  simp at h

variable {clash : ν → ν → Prop}

theorem Exclusive.set (h : d.Exclusive clash) (hsymm : ∀ v w, clash v w → clash w v) {i : κ} {u : ν}
    (hnew : ∀ k w, d.get? k = some w → k ≠ i → ¬clash u w) : (d.set i u).Exclusive clash := by
  intro j k v w hj hk hc
  rw [get?_set] at hj hk
  by_cases hji : j = i
  · by_cases hki : k = i
    · rw [hji, hki]
    · rw [if_pos hji] at hj
      rw [if_neg hki] at hk
      cases hj
      exact absurd hc (hnew k w hk hki)
  · by_cases hki : k = i
    · rw [if_neg hji] at hj
      rw [if_pos hki] at hk
      cases hk
      exact absurd (hsymm _ _ hc) (hnew j v hj hji)
    · rw [if_neg hji] at hj
      rw [if_neg hki] at hk
      exact h j k v w hj hk hc

theorem Exclusive.replace (h : d.Exclusive clash)
    (hsymm : ∀ v w, clash v w → clash w v) {i : κ} {v u : ν} (hget : d.get? i = some v)
    (hle : ∀ w, clash u w → clash v w) : (d.set i u).Exclusive clash := by
  refine h.set hsymm ?_
  intro k w hk hne hc
  exact hne (h i k v w hget hk (hle w hc)).symm

theorem mem_entries_iff {e : κ × ν} : e ∈ d.entries ↔ d.get? e.1 = some e.2 :=
  ⟨get?_of_mem_entries, mem_entries_of_get?⟩

/-- `d == e`, which does not look at the order of the keys. -/
def sameItems [DecidableEq ν] (d e : InsertionDict κ ν) : Bool :=
  d.entries.all (fun x => e.get? x.1 = some x.2) && e.entries.all fun x => d.get? x.1 = some x.2

theorem sameItems_iff [DecidableEq ν] {d e : InsertionDict κ ν} : d.sameItems e = true ↔ ∀ k, d.get? k = e.get? k := by
  simp only [sameItems, Bool.and_eq_true, List.all_eq_true, decide_eq_true_eq, mem_entries_iff, Prod.forall]
  constructor
  · rintro ⟨hde, hed⟩ k
    refine Option.ext fun v => ⟨hde k v, hed k v⟩
  · intro h
    exact ⟨fun k v hk => h k ▸ hk, fun k v hk => (h k).symm ▸ hk⟩

def pickEntries {μ : Type*} (f : κ → ν → Option μ) (es : List (κ × ν)) : List (κ × μ) :=
  es.filterMap fun e => (f e.1 e.2).map (Prod.mk e.1)

omit [DecidableEq κ] in
theorem nodup_pickEntries {μ : Type*} (f : κ → ν → Option μ) (h : (es.map Prod.fst).Nodup) :
    ((pickEntries f es).map Prod.fst).Nodup := by
  refine h.sublist ?_
  induction es with
  | nil => exact List.Sublist.slnil
  | cons e es ih =>
    rw [List.map_cons, List.nodup_cons] at h
    cases hf : f e.1 e.2 with
    | none => simpa [pickEntries, List.filterMap_cons, hf] using (ih h.2).cons e.1
    | some v => simpa [pickEntries, List.filterMap_cons, hf] using ih h.2

/-- The entries for which `f` has a value, with that value. -/
def pick {μ : Type*} (d : InsertionDict κ ν) (f : κ → ν → Option μ) : InsertionDict κ μ :=
  ⟨pickEntries f d.entries, nodup_pickEntries f d.nodup_keys⟩

theorem get?_pick {μ : Type*} (d : InsertionDict κ ν) (f : κ → ν → Option μ) (k : κ) :
    (d.pick f).get? k = (d.get? k).bind (f k) := by
  refine Option.ext fun w => ?_
  have hmem : (d.pick f).get? k = some w ↔ (k, w) ∈ (d.pick f).entries := mem_entries_iff (e := (k, w)).symm
  rw [hmem, Option.bind_eq_some_iff]
  simp only [pick, pickEntries, List.mem_filterMap, Option.map_eq_some_iff, Prod.mk.injEq, mem_entries_iff, Prod.exists]
  constructor
  · rintro ⟨j, v, hj, u, hu, rfl, rfl⟩
    exact ⟨v, hj, hu⟩
  · rintro ⟨v, hv, hw⟩
    exact ⟨k, v, hv, w, hw, rfl, rfl⟩

end InsertionDict
