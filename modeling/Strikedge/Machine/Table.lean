import Mathlib.Data.List.Perm.Basic
import Strikedge.Machine.OrderedMap

/-!
# Tables with a primary key

A table is a finite map from primary keys to rows. A statement inserts one row, and fails
where the key is taken; a transaction of such statements inserts all of its rows or none.
Deleting and counting select rows by a condition. Two tables that hold corresponding rows
under the same keys select the same keys with corresponding conditions.
-/

namespace Strikedge

namespace OrderedMap

variable {κ ν μ : Type*} [DecidableEq κ]

/-- Insert the rows one after the other. There is no result where a key is taken. -/
def insertRows (m : OrderedMap κ ν) : List (κ × ν) → Option (OrderedMap κ ν)
  | [] => some m
  | (k, v) :: rows => if m.has k then none else (m.set k v).insertRows rows

/-- The keys of the rows that meet a condition. -/
def selectKeys (m : OrderedMap κ ν) (p : κ → ν → Bool) : List κ :=
  (m.entries.filter fun e => p e.1 e.2).map Prod.fst

variable {m : OrderedMap κ ν} {n : OrderedMap κ μ} {p : κ → ν → Bool} {q : κ → μ → Bool}
variable {k : κ} {rows : List (κ × ν)}

omit [DecidableEq κ] in
theorem nodup_selectKeys : (m.selectKeys p).Nodup := nodup_filter m.nodup _

theorem mem_selectKeys : k ∈ m.selectKeys p ↔ ∃ v, m.get? k = some v ∧ p k v = true := by
  simp only [selectKeys, List.mem_map, List.mem_filter, Prod.exists, exists_and_right,
    exists_eq_right, mem_entries_iff]

/-- Corresponding conditions select the same keys. -/
theorem selectKeys_perm (h : ∀ k, (m.get? k).any (p k) = (n.get? k).any (q k)) :
    (m.selectKeys p).Perm (n.selectKeys q) := by
  refine (List.perm_ext_iff_of_nodup nodup_selectKeys nodup_selectKeys).mpr fun k => ?_
  rw [mem_selectKeys, mem_selectKeys, ← Option.any_eq_true, ← Option.any_eq_true, h k]

omit [DecidableEq κ] in
theorem length_selectKeys (p : ν → Bool) :
    (m.selectKeys fun _ => p).length = (m.values.filter p).length := by
  rw [selectKeys, values, List.filter_map, List.length_map, List.length_map]
  rfl

/-- A table that holds the image of every row of another has the images as its rows. -/
theorem values_perm_map {f : ν → μ} (h : ∀ k, n.get? k = (m.get? k).map f) :
    n.values.Perm (m.values.map f) := by
  have hentries : n.entries.Perm (m.entries.map fun e => (e.1, f e.2)) := by
    have hkeys : ((m.entries.map fun e => (e.1, f e.2)).map Prod.fst).Nodup := by
      rw [List.map_map]
      exact m.nodup
    refine (List.perm_ext_iff_of_nodup n.nodup.of_map hkeys.of_map).mpr fun e => ?_
    rw [mem_entries_iff, h, Option.map_eq_some_iff, List.mem_map]
    constructor
    · rintro ⟨v, hv, hf⟩
      exact ⟨(e.1, v), mem_entries_iff.mpr hv, Prod.ext rfl hf⟩
    · rintro ⟨⟨k, v⟩, hkv, rfl⟩
      exact ⟨v, mem_entries_iff.mp hkv, rfl⟩
  have hvalues := hentries.map Prod.snd
  rw [List.map_map] at hvalues
  rw [values, values, List.map_map]
  exact hvalues

/-- A condition on one key selects one row at most. -/
theorem length_selectKeys_key (k : κ) (p : ν → Bool) :
    (m.selectKeys fun x v => decide (x = k) && p v).length =
      if (m.get? k).any p then 1 else 0 := by
  have hmem : ∀ x, x ∈ m.selectKeys (fun x v => decide (x = k) && p v) ↔
      x = k ∧ (m.get? k).any p = true := by
    intro x
    rw [mem_selectKeys, Option.any_eq_true]
    constructor
    · rintro ⟨v, hv, hboth⟩
      obtain ⟨hx, hp⟩ := (Bool.and_eq_true _ _).mp hboth
      obtain rfl := of_decide_eq_true hx
      exact ⟨rfl, v, hv, hp⟩
    · rintro ⟨rfl, v, hv, hp⟩
      exact ⟨v, hv, by rw [decide_eq_true rfl, hp]; rfl⟩
  by_cases hp : (m.get? k).any p = true
  · have hperm : (m.selectKeys fun x v => decide (x = k) && p v).Perm [k] := by
      refine (List.perm_ext_iff_of_nodup nodup_selectKeys (List.nodup_singleton k)).mpr
        fun x => ?_
      rw [hmem, List.mem_singleton]
      exact ⟨fun h => h.1, fun h => ⟨h, hp⟩⟩
    rw [if_pos hp, hperm.length_eq, List.length_singleton]
  · rw [if_neg hp, List.length_eq_zero_iff, List.eq_nil_iff_forall_not_mem]
    exact fun x hx => hp ((hmem x).mp hx).2

/-- Where every row names its key, the rows of one key are the row stored under it. -/
theorem filter_values_key {keyOf : ν → κ} (hkey : ∀ x v, m.get? x = some v → keyOf v = x)
    (k : κ) (p : ν → Bool) :
    (m.values.filter fun v => decide (keyOf v = k) && p v) = ((m.get? k).filter p).toList := by
  have hlength : (m.values.filter fun v => decide (keyOf v = k) && p v).length =
      if (m.get? k).any p then 1 else 0 := by
    rw [← length_selectKeys, ← length_selectKeys_key]
    refine (selectKeys_perm fun x => ?_).length_eq
    cases hx : m.get? x with
    | none => rfl
    | some v => rw [Option.any_some, Option.any_some, hkey x v hx]
  have hmem : ∀ v ∈ m.values.filter (fun v => decide (keyOf v = k) && p v), m.get? k = some v := by
    intro v hv
    obtain ⟨hvalue, hboth⟩ := List.mem_filter.mp hv
    obtain ⟨x, hx⟩ := mem_values_iff.mp hvalue
    have hk := of_decide_eq_true ((Bool.and_eq_true _ _).mp hboth).1
    exact (hkey x v hx).symm.trans hk ▸ hx
  cases hget : m.get? k with
  | none =>
    rw [hget, Option.any_none, if_neg Bool.false_ne_true, List.length_eq_zero_iff] at hlength
    rw [hlength]
    rfl
  | some v =>
    rw [hget, Option.any_some] at hlength
    by_cases hp : p v = true
    · rw [if_pos hp, List.length_eq_one_iff] at hlength
      obtain ⟨w, hw⟩ := hlength
      have hvw := hmem w (hw ▸ List.mem_singleton_self w)
      obtain rfl : v = w := Option.some.inj (hget.symm.trans hvw)
      rw [hw, Option.filter_some, if_pos hp, Option.toList_some]
    · rw [if_neg hp, List.length_eq_zero_iff] at hlength
      rw [hlength, Option.filter_some, if_neg hp, Option.toList_none]

/-- The rows are inserted when no key is taken and none occurs twice. -/
theorem insertRows_isSome (hrows : (rows.map Prod.fst).Nodup) :
    (m.insertRows rows).isSome = true ↔ ∀ k ∈ rows.map Prod.fst, m.get? k = none := by
  induction rows generalizing m with
  | nil => simp [insertRows]
  | cons row rows ih =>
    obtain ⟨k, v⟩ := row
    obtain ⟨hfresh, hrest⟩ := List.nodup_cons.mp hrows
    rw [insertRows, List.map_cons, List.forall_mem_cons]
    by_cases htaken : m.has k = true
    · obtain ⟨held, hheld⟩ := has_iff.mp htaken
      simp [htaken, hheld]
    · have hfree : m.get? k = none := by simpa [has] using htaken
      rw [if_neg htaken, ih hrest]
      refine ⟨fun h => ⟨hfree, fun x hx => ?_⟩, fun h x hx => ?_⟩
      · have hne : x ≠ k := fun heq => hfresh (heq ▸ hx)
        have hx := h x hx
        rwa [get?_set, if_neg hne] at hx
      · have hne : x ≠ k := fun heq => hfresh (heq ▸ hx)
        rw [get?_set, if_neg hne]
        exact h.2 x hx

/-- What a table holds after its transaction: the new rows and those of before. -/
theorem get?_insertRows {after : OrderedMap κ ν} {v : ν} (hrows : (rows.map Prod.fst).Nodup)
    (h : m.insertRows rows = some after) :
    after.get? k = some v ↔ (k, v) ∈ rows ∨ k ∉ rows.map Prod.fst ∧ m.get? k = some v := by
  induction rows generalizing m with
  | nil =>
    obtain rfl := Option.some.inj h
    simp
  | cons row rows ih =>
    obtain ⟨key, value⟩ := row
    obtain ⟨hfresh, hrest⟩ := List.nodup_cons.mp hrows
    rw [insertRows] at h
    split at h
    · cases h
    · rw [ih hrest h, get?_set_eq_some, List.map_cons, List.mem_cons, List.mem_cons, Prod.mk.injEq]
      constructor
      · rintro (hmem | ⟨hout, ⟨hk, hv⟩ | ⟨hk, hget⟩⟩)
        · exact .inl (.inr hmem)
        · exact .inl (.inl ⟨hk, hv.symm⟩)
        · exact .inr ⟨fun h => h.elim hk hout, hget⟩
      · rintro ((⟨hk, hv⟩ | hmem) | ⟨hout, hget⟩)
        · exact .inr ⟨hk ▸ hfresh, .inl ⟨hk, hv.symm⟩⟩
        · exact .inl hmem
        · exact .inr ⟨fun h => hout (.inr h), .inr ⟨fun h => hout (.inl h), hget⟩⟩

end OrderedMap

end Strikedge
