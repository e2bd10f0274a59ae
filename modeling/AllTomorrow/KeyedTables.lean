import AllTomorrow.InsertionDict
import Mathlib.Data.List.Perm.Lattice

/-!
# Tables with a primary key

A table holds rows, each under the key that the row itself carries. Two tables, or a
table and a dictionary, that answer every lookup in the same way hold the same rows in
some order.
-/

structure KeyedTable {κ ν : Type*} [DecidableEq κ] (key : ν → κ) where
  rows : InsertionDict κ ν
  keyed : ∀ k v, rows.get? k = some v → key v = k

namespace KeyedTable

variable {κ ν : Type*} [DecidableEq κ] {key : ν → κ}

def empty : KeyedTable key := ⟨.empty, fun k v h => by simp at h⟩

def get? (t : KeyedTable key) (k : κ) : Option ν := t.rows.get? k

def contains (t : KeyedTable key) (k : κ) : Bool := t.rows.contains k

def values (t : KeyedTable key) : List ν := t.rows.values

def put (t : KeyedTable key) (v : ν) : KeyedTable key :=
  ⟨t.rows.set (key v) v, InsertionDict.forall_set t.keyed rfl⟩

theorem get?_put (t : KeyedTable key) (v : ν) (k : κ) :
    (t.put v).get? k = if k = key v then some v else t.get? k := InsertionDict.get?_set _ _ _ _

@[simp] theorem get?_put_self (t : KeyedTable key) (v : ν) : (t.put v).get? (key v) = some v :=
  InsertionDict.get?_set_self _ _ _

variable {t : KeyedTable key} {k : κ}

theorem key_of_get? {v : ν} (h : t.get? k = some v) : key v = k := t.keyed k v h

theorem contains_eq_false_iff : t.contains k = false ↔ t.get? k = none :=
  InsertionDict.contains_eq_false_iff

theorem mem_values_iff {v : ν} : v ∈ t.values ↔ t.get? (key v) = some v := by
  constructor
  · intro h
    obtain ⟨k, hk⟩ := InsertionDict.mem_values_iff.mp h
    have hkey := t.keyed k v hk
    subst hkey
    exact hk
  · exact InsertionDict.mem_values_of_get?

theorem nodup_map_values (t : KeyedTable key) : (t.values.map key).Nodup := InsertionDict.nodup_map_values t.keyed

/-- `UPDATE … SET … WHERE …`: the matching rows in their new versions. -/
def updateWhere (t : KeyedTable key) (matching : ν → Bool) (f : ν → ν) : KeyedTable key :=
  ((t.values.filter matching).map f).foldl put t

theorem get?_foldl_put_of_ne (t : KeyedTable key) {vs : List ν} (h : ∀ v ∈ vs, key v ≠ k) :
    (vs.foldl put t).get? k = t.get? k := by
  induction vs generalizing t with
  | nil => rfl
  | cons v vs ih =>
    rw [List.forall_mem_cons] at h
    rw [List.foldl_cons, ih _ h.2, get?_put, if_neg (Ne.symm h.1)]

theorem get?_foldl_put_of_mem (t : KeyedTable key) {vs : List ν} (hnodup : (vs.map key).Nodup) {v : ν} (hv : v ∈ vs) :
    (vs.foldl put t).get? (key v) = some v := by
  induction vs generalizing t with
  | nil => cases hv
  | cons u vs ih =>
    rw [List.map_cons, List.nodup_cons] at hnodup
    rw [List.foldl_cons]
    rcases List.mem_cons.mp hv with rfl | hv
    · rw [get?_foldl_put_of_ne, get?_put_self]
      exact fun u hu heq => hnodup.1 (List.mem_map.mpr ⟨u, hu, heq⟩)
    · exact ih _ hnodup.2 hv

/-- An update that leaves the keys alone changes exactly the matching rows. -/
theorem get?_updateWhere (t : KeyedTable key) {matching : ν → Bool} {f : ν → ν} (hf : ∀ v, key (f v) = key v) (k : κ) :
    (t.updateWhere matching f).get? k = (t.get? k).map fun v => if matching v then f v else v := by
  have hkeys : ((t.values.filter matching).map f).map key = (t.values.filter matching).map key := by
    rw [List.map_map]
    exact List.map_congr_left fun v _ => hf v
  have hnodup : (((t.values.filter matching).map f).map key).Nodup := by
    rw [hkeys]
    exact t.nodup_map_values.sublist (List.filter_sublist.map key)
  unfold updateWhere
  by_cases hmatch : ∃ v, t.get? k = some v ∧ matching v = true
  · obtain ⟨v, hget, hv⟩ := hmatch
    have hk := key_of_get? hget
    have hmem : f v ∈ (t.values.filter matching).map f := by
      refine List.mem_map_of_mem (List.mem_filter.mpr ⟨?_, hv⟩)
      rw [mem_values_iff, hk, hget]
    have hnew := get?_foldl_put_of_mem t hnodup hmem
    rw [hf, hk] at hnew
    rw [hnew, hget, Option.map_some, if_pos hv]
  · rw [get?_foldl_put_of_ne]
    · cases hget : t.get? k with
      | none => rfl
      | some v => rw [Option.map_some, if_neg fun hv => hmatch ⟨v, hget, hv⟩]
    · intro u hu hk
      obtain ⟨v, hv, rfl⟩ := List.mem_map.mp hu
      rw [List.mem_filter, mem_values_iff] at hv
      rw [hf] at hk
      exact hmatch ⟨v, hk ▸ hv.1, hv.2⟩

end KeyedTable
