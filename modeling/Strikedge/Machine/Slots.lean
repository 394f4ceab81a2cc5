import Mathlib.Data.List.Basic

/-!
# Slots of a list

Records that are added at the end of a list and then known by their index. A predicate on an
index and the record there is kept by a new record that has it, and by a change of one record
that keeps it.
-/

namespace Strikedge.Machine

/-- The predicate holds of every record at its index. -/
def Everywhere {α : Type*} (P : Nat → α → Prop) (slots : List α) : Prop :=
  ∀ i x, slots[i]? = some x → P i x

section Slots

variable {α : Type*} {P Q : Nat → α → Prop} {slots : List α} {i j : Nat} {x y : α} {f : α → α}

@[simp] theorem everywhere_nil : Everywhere P [] := by
  intro i x h
  cases h

theorem Everywhere.mono (h : Everywhere P slots)
    (imp : ∀ i x, slots[i]? = some x → P i x → Q i x) : Everywhere Q slots :=
  fun i x hx => imp i x hx (h i x hx)

/-- A new record gets the next index. -/
theorem Everywhere.concat (h : Everywhere P slots) (hnew : P slots.length x) :
    Everywhere P (slots ++ [x]) := by
  intro i y hy
  rcases Nat.lt_or_ge i slots.length with hlt | hge
  · rw [List.getElem?_append_left hlt] at hy
    exact h i y hy
  · rw [List.getElem?_append_right hge] at hy
    obtain ⟨hzero, rfl⟩ : i - slots.length = 0 ∧ x = y := by
      simpa [List.getElem?_singleton] using hy
    obtain rfl : i = slots.length := by omega
    exact hnew

theorem getElem?_modify_eq_some : (slots.modify i f)[j]? = some y ↔
    ∃ x, slots[j]? = some x ∧ y = if j = i then f x else x := by
  rw [List.getElem?_modify]
  cases slots[j]? with
  | none => simp
  | some x =>
      by_cases hij : j = i
      · simp [hij, eq_comm]
      · simp [hij, Ne.symm hij, eq_comm]

/-- One record changes. -/
theorem Everywhere.modify (h : Everywhere P slots)
    (hkeep : ∀ x, slots[i]? = some x → P i x → P i (f x)) :
    Everywhere P (slots.modify i f) := by
  intro j y hy
  obtain ⟨x, hx, rfl⟩ := getElem?_modify_eq_some.mp hy
  split
  · rename_i hij
    subst hij
    exact hkeep x hx (h j x hx)
  · exact h j x hx

/-- A relation that every change of a record keeps, and that a new record cannot break. -/
theorem getElem?_modify_rel {R : α → α → Prop} (hrefl : ∀ x, R x x) (hf : ∀ x, R x (f x))
    (h : slots[j]? = some x) : ∃ y, (slots.modify i f)[j]? = some y ∧ R x y := by
  refine ⟨if j = i then f x else x, getElem?_modify_eq_some.mpr ⟨x, h, rfl⟩, ?_⟩
  split
  · exact hf x
  · exact hrefl x

end Slots

end Strikedge.Machine
