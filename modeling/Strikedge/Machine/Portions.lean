import Mathlib.Algebra.GroupWithZero.Nat
import Mathlib.Algebra.Order.BigOperators.Group.List
import Mathlib.Algebra.Order.Group.Nat

/-!
# Taking one amount off several portions

An amount that is taken off every portion of a list, each as far as it goes, takes `min x v`
off the portion `x`. What is taken in all is at least the amount, as far as the sum goes,
and it is more as soon as two portions share an amount short of the whole.

The second part is about lists whose entries have different keys, where the entries of one
key are at most one.
-/

namespace Strikedge.Machine

section Portions

variable {xs : List Nat} {v : Nat}

/-- What is left and what is taken make up the sum. -/
theorem sum_sub_add_sum_min (xs : List Nat) (v : Nat) :
    (xs.map (· - v)).sum + (xs.map (min · v)).sum = xs.sum := by
  induction xs with
  | nil => rfl
  | cons x xs ih =>
      simp only [List.map_cons, List.sum_cons]
      omega

theorem sum_min_zero (xs : List Nat) : (xs.map (min · 0)).sum = 0 := by
  refine List.sum_eq_zero fun y hy => ?_
  obtain ⟨x, -, rfl⟩ := List.mem_map.mp hy
  exact Nat.min_zero x

/-- The amount is taken in full, as far as the sum goes. -/
theorem min_sum_le (xs : List Nat) (v : Nat) : min xs.sum v ≤ (xs.map (min · v)).sum := by
  induction xs with
  | nil => simp
  | cons x xs ih =>
      simp only [List.map_cons, List.sum_cons]
      omega

theorem sum_min_of_le (h : ∀ x ∈ xs, x ≤ v) : (xs.map (min · v)).sum = xs.sum := by
  induction xs with
  | nil => rfl
  | cons x xs ih =>
      have hx := h x List.mem_cons_self
      have hxs := ih fun y hy => h y (List.mem_cons_of_mem x hy)
      simp only [List.map_cons, List.sum_cons, hxs]
      omega

theorem sum_pos_of_filter (h : xs.filter (0 < ·) ≠ []) : 0 < xs.sum := by
  obtain ⟨x, hx⟩ := List.exists_mem_of_ne_nil _ h
  obtain ⟨hmem, hpos⟩ := List.mem_filter.mp hx
  have hle := List.le_sum_of_mem hmem
  have hpos : 0 < x := by simpa using hpos
  omega

/-- A single portion gives the amount as far as it goes. -/
theorem sum_min_of_single (h : (xs.filter (0 < ·)).length ≤ 1) :
    (xs.map (min · v)).sum = min xs.sum v := by
  induction xs with
  | nil => simp
  | cons x xs ih =>
      simp only [List.map_cons, List.sum_cons]
      by_cases hx : 0 < x
      · rw [List.filter_cons_of_pos (by simpa using hx), List.length_cons] at h
        have hnone : xs.filter (0 < ·) = [] := List.length_eq_zero_iff.mp (by omega)
        have hzero : xs.sum = 0 := by
          refine List.sum_eq_zero fun y hy => ?_
          have hnot := List.filter_eq_nil_iff.mp hnone y hy
          simpa using hnot
        have hrest := ih (by rw [hnone]; simp)
        omega
      · rw [List.filter_cons_of_neg (by simpa using hx)] at h
        have hrest := ih h
        omega

/-- Two portions give more than an amount that is not the whole of them. -/
theorem lt_sum_min (h : 1 < (xs.filter (0 < ·)).length) (hpos : 0 < v) (hlt : v < xs.sum) :
    v < (xs.map (min · v)).sum := by
  induction xs with
  | nil => cases h
  | cons x xs ih =>
      simp only [List.map_cons, List.sum_cons] at hlt ⊢
      by_cases hx : 0 < x
      · rw [List.filter_cons_of_pos (by simpa using hx), List.length_cons] at h
        have hsome : 0 < xs.sum := sum_pos_of_filter (List.ne_nil_of_length_pos (by omega))
        have hrest := min_sum_le xs v
        omega
      · rw [List.filter_cons_of_neg (by simpa using hx)] at h
        have hrest := ih h (by omega)
        omega

/-- Taken off every portion, an amount within the sum comes off the sum exactly where one
portion has everything, or where the amount is nothing or the whole. -/
theorem sum_sub_add_eq_iff (hle : v ≤ xs.sum) :
    (xs.map (· - v)).sum + v = xs.sum ↔
      (xs.filter (0 < ·)).length ≤ 1 ∨ v = 0 ∨ v = xs.sum := by
  have hparts := sum_sub_add_sum_min xs v
  constructor
  · intro h
    by_contra hnot
    rw [not_or, not_or] at hnot
    obtain ⟨hmany, hpos, hnotall⟩ := hnot
    have hmore : v < (xs.map (min · v)).sum := lt_sum_min (by omega) (by omega) (by omega)
    omega
  · rintro (hsingle | rfl | hall)
    · have htaken := sum_min_of_single (v := v) hsingle
      omega
    · have htaken := sum_min_zero xs
      omega
    · have hbelow : ∀ x ∈ xs, x ≤ v := fun x hx => hall ▸ List.le_sum_of_mem hx
      have htaken := sum_min_of_le hbelow
      omega

end Portions

section Keys

variable {κ α : Type*} [DecidableEq κ] {key : α → κ} {k : κ} {entries : List α}

/-- Where keys differ, the entries of one key are its last one. -/
theorem filter_key_eq (h : (entries.map key).Nodup) :
    entries.filter (key · = k) = (entries.reverse.find? (key · = k)).toList := by
  induction entries with
  | nil => rfl
  | cons entry rest ih =>
      obtain ⟨hnew, hrest⟩ := List.nodup_cons.mp h
      rw [List.reverse_cons, List.find?_append]
      by_cases hkey : key entry = k
      · have hnone : rest.filter (key · = k) = [] := by
          refine List.filter_eq_nil_iff.mpr fun other hother hsame => hnew ?_
          have hsame : key other = k := by simpa using hsame
          rw [hkey, ← hsame]
          exact List.mem_map_of_mem hother
        have hmissing : rest.reverse.find? (key · = k) = none := by
          have hnil := (ih hrest).symm.trans hnone
          simpa using hnil
        rw [List.filter_cons_of_pos (by simpa using hkey), hnone, hmissing]
        simp [hkey]
      · rw [List.filter_cons_of_neg (by simpa using hkey), ih hrest]
        simp [hkey]

/-- The sum over one key is within any bound that each of its entries is within. -/
theorem sum_key_le {f : α → Nat} {bound : Nat} (h : (entries.map key).Nodup)
    (hbound : ∀ entry ∈ entries, key entry = k → f entry ≤ bound) :
    ((entries.filter (key · = k)).map f).sum ≤ bound := by
  rw [filter_key_eq h]
  cases hfind : entries.reverse.find? (key · = k) with
  | none => simp
  | some entry =>
      have hmem := List.mem_reverse.mp (List.mem_of_find?_eq_some hfind)
      have hkey := List.find?_some hfind
      simpa using hbound entry hmem (by simpa using hkey)

end Keys

end Strikedge.Machine
