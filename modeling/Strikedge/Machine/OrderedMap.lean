import Mathlib.Data.List.Basic
import Mathlib.Data.List.Nodup

/-!
# Insertion-ordered finite maps

The map of the source language keeps its keys in the order of their first insertion:
overwriting a key leaves it where it stands, a new key goes to the end, and values
are visited in that order. `OrderedMap` is that map. Its keys are distinct by
construction, so a lookup is determined by membership.
-/

namespace Strikedge

/-- A finite map whose entries are listed in the order of first insertion. -/
structure OrderedMap (κ ν : Type*) where
  entries : List (κ × ν)
  nodup : (entries.map Prod.fst).Nodup

namespace OrderedMap

variable {κ ν : Type*}

theorem nodup_filter {es : List (κ × ν)} (hn : (es.map Prod.fst).Nodup) (p : κ × ν → Bool) :
    ((es.filter p).map Prod.fst).Nodup :=
  hn.sublist (List.filter_sublist.map _)

variable [DecidableEq κ]

/-- Value stored under a key in an entry list, by its first occurrence. -/
def find : List (κ × ν) → κ → Option ν
  | [], _ => none
  | (k', v) :: es, k => if k' = k then some v else find es k

/-- Overwrite a key where it stands, or append it. -/
def put : List (κ × ν) → κ → ν → List (κ × ν)
  | [], k, v => [(k, v)]
  | (k', v') :: es, k, v => if k' = k then (k, v) :: es else (k', v') :: put es k v

theorem mem_keys_put {es : List (κ × ν)} {k x : κ} {v : ν} :
    x ∈ (put es k v).map Prod.fst ↔ x = k ∨ x ∈ es.map Prod.fst := by
  induction es with
  | nil => simp [put]
  | cons e es ih =>
      obtain ⟨k', v'⟩ := e
      by_cases h : k' = k
      · subst h
        simp [put]
      · rw [put, if_neg h, List.map_cons, List.mem_cons, ih, List.map_cons, List.mem_cons]
        tauto

theorem nodup_put {es : List (κ × ν)} (h : (es.map Prod.fst).Nodup) (k : κ) (v : ν) :
    ((put es k v).map Prod.fst).Nodup := by
  induction es with
  | nil => simp [put]
  | cons e es ih =>
      obtain ⟨k', v'⟩ := e
      obtain ⟨fresh, rest⟩ := List.nodup_cons.mp h
      by_cases hk : k' = k
      · subst hk
        rw [put, if_pos rfl]
        exact List.nodup_cons.mpr ⟨fresh, rest⟩
      · rw [put, if_neg hk, List.map_cons]
        refine List.nodup_cons.mpr ⟨fun hm => ?_, ih rest⟩
        rcases mem_keys_put.mp hm with rfl | hm
        · exact hk rfl
        · exact fresh hm

theorem put_of_not_mem {es : List (κ × ν)} {k : κ} {v : ν} (h : k ∉ es.map Prod.fst) :
    put es k v = es ++ [(k, v)] := by
  induction es with
  | nil => rfl
  | cons e es ih =>
      obtain ⟨k', v'⟩ := e
      rw [List.map_cons, List.mem_cons, not_or] at h
      rw [put, if_neg (Ne.symm h.1), ih h.2, List.cons_append]

theorem find_put {es : List (κ × ν)} {k x : κ} {v : ν} :
    find (put es k v) x = if x = k then some v else find es x := by
  induction es with
  | nil =>
      by_cases h : x = k
      · simp [put, find, h]
      · simp [put, find, h, Ne.symm h]
  | cons e es ih =>
      obtain ⟨k', v'⟩ := e
      by_cases hk : k' = k
      · subst hk
        by_cases hx : x = k'
        · simp [put, find, hx]
        · simp [put, find, hx, Ne.symm hx]
      · by_cases hx : k' = x
        · subst hx
          simp [put, find, hk]
        · simp [put, find, hk, hx, ih]

theorem mem_of_find {es : List (κ × ν)} {k : κ} {v : ν} (h : find es k = some v) :
    (k, v) ∈ es := by
  induction es with
  | nil => simp [find] at h
  | cons e es ih =>
      obtain ⟨k', v'⟩ := e
      by_cases hk : k' = k
      · subst hk
        rw [find, if_pos rfl] at h
        cases h
        exact List.mem_cons_self
      · rw [find, if_neg hk] at h
        exact List.mem_cons_of_mem _ (ih h)

theorem find_of_mem {es : List (κ × ν)} (hn : (es.map Prod.fst).Nodup) {k : κ} {v : ν}
    (h : (k, v) ∈ es) : find es k = some v := by
  induction es with
  | nil => simp at h
  | cons e es ih =>
      obtain ⟨k', v'⟩ := e
      obtain ⟨fresh, rest⟩ := List.nodup_cons.mp hn
      rcases List.mem_cons.mp h with he | hm
      · cases he
        simp [find]
      · have hne : k' ≠ k := by
          rintro rfl
          exact fresh (List.mem_map.mpr ⟨_, hm, rfl⟩)
        rw [find, if_neg hne]
        exact ih rest hm

/-- The map with no keys. -/
def empty : OrderedMap κ ν := ⟨[], List.nodup_nil⟩

def get? (m : OrderedMap κ ν) (k : κ) : Option ν := find m.entries k

def has (m : OrderedMap κ ν) (k : κ) : Bool := (m.get? k).isSome

def set (m : OrderedMap κ ν) (k : κ) (v : ν) : OrderedMap κ ν :=
  ⟨put m.entries k v, nodup_put m.nodup k v⟩

/-- Keep the entries a test accepts, in their order. -/
def filter (m : OrderedMap κ ν) (p : κ → ν → Bool) : OrderedMap κ ν :=
  ⟨m.entries.filter fun e => p e.1 e.2, nodup_filter m.nodup _⟩

def delete (m : OrderedMap κ ν) (k : κ) : OrderedMap κ ν := m.filter fun x _ => x ≠ k

def keys (m : OrderedMap κ ν) : List κ := m.entries.map Prod.fst

def values (m : OrderedMap κ ν) : List ν := m.entries.map Prod.snd

def size (m : OrderedMap κ ν) : Nat := m.entries.length

instance : EmptyCollection (OrderedMap κ ν) := ⟨empty⟩

instance : Inhabited (OrderedMap κ ν) := ⟨empty⟩

variable {m : OrderedMap κ ν} {k x : κ} {v w : ν}

theorem mem_entries_iff : (k, v) ∈ m.entries ↔ m.get? k = some v :=
  ⟨find_of_mem m.nodup, mem_of_find⟩

theorem mem_values_iff : v ∈ m.values ↔ ∃ k, m.get? k = some v := by
  simp only [values, List.mem_map, Prod.exists, mem_entries_iff, exists_eq_right]

theorem mem_keys_iff : k ∈ m.keys ↔ ∃ v, m.get? k = some v := by
  simp only [keys, List.mem_map, Prod.exists, mem_entries_iff, exists_and_right, exists_eq_right]

/-- A new key goes to the end. -/
theorem entries_set (h : k ∉ m.keys) : (m.set k v).entries = m.entries ++ [(k, v)] :=
  put_of_not_mem h

theorem has_iff : m.has k = true ↔ ∃ v, m.get? k = some v := Option.isSome_iff_exists

@[simp] theorem get?_empty : (∅ : OrderedMap κ ν).get? k = none := rfl

@[simp] theorem get?_set : (m.set k v).get? x = if x = k then some v else m.get? x := find_put

theorem get?_set_eq_some : (m.set k v).get? x = some w ↔
    x = k ∧ v = w ∨ x ≠ k ∧ m.get? x = some w := by
  rw [get?_set]
  by_cases h : x = k
  · simp [h]
  · simp [h]

theorem get?_filter {p : κ → ν → Bool} : (m.filter p).get? k = (m.get? k).filter (p k) := by
  apply Option.ext
  intro v
  rw [← mem_entries_iff, Option.filter_eq_some_iff, ← mem_entries_iff]
  simp [filter]

@[simp] theorem get?_delete : (m.delete k).get? x = if x = k then none else m.get? x := by
  rw [delete, get?_filter]
  by_cases h : x = k
  · simp [h]
  · cases hx : m.get? x <;> simp [h]

@[simp] theorem has_set : (m.set k v).has x = (decide (x = k) || m.has x) := by
  by_cases h : x = k
  · simp [has, h]
  · simp [has, h]

end OrderedMap

end Strikedge
