import Mathlib.Order.Lattice
import Mathlib.Order.MinMax

/-!
# The high-water mark of a list of readings

The largest of a base value and the readings of a list. It depends on which readings
occur and on nothing else, so neither the order of delivery nor repetition moves it.
-/

namespace Strikedge.Machine

variable {α β : Type*} [LinearOrder α] [LinearOrder β]

/-- The largest of the base and the readings. -/
def highWater (base : α) : List α → α
  | [] => base
  | x :: xs => max x (highWater base xs)

variable {base x y : α} {xs ys : List α}

@[simp] theorem highWater_nil : highWater base [] = base := rfl

@[simp] theorem highWater_cons :
    highWater base (x :: xs) = max x (highWater base xs) := rfl

theorem highWater_le_iff : highWater base xs ≤ y ↔ base ≤ y ∧ ∀ x ∈ xs, x ≤ y := by
  induction xs with
  | nil => simp
  | cons x xs ih =>
      rw [highWater_cons, max_le_iff, ih, List.forall_mem_cons]
      exact and_left_comm

theorem base_le_highWater : base ≤ highWater base xs :=
  (highWater_le_iff.mp le_rfl).1

theorem le_highWater (h : x ∈ xs) : x ≤ highWater base xs :=
  (highWater_le_iff.mp le_rfl).2 x h

/-- Delivering one more reading raises the mark to that reading, or not at all. -/
theorem highWater_concat : highWater base (xs ++ [x]) = max (highWater base xs) x := by
  induction xs with
  | nil => exact max_comm x base
  | cons y ys ih => rw [List.cons_append, highWater_cons, ih, highWater_cons, max_assoc]

/-- Two lists with the same readings have the same mark. -/
theorem highWater_congr (h : ∀ x, x ∈ xs ↔ x ∈ ys) :
    highWater base xs = highWater base ys := by
  apply le_antisymm
  · exact highWater_le_iff.mpr ⟨base_le_highWater, fun x hx => le_highWater ((h x).mp hx)⟩
  · exact highWater_le_iff.mpr ⟨base_le_highWater, fun x hx => le_highWater ((h x).mpr hx)⟩

/-- A monotone function carries the mark of the readings to the mark of their images. -/
theorem map_highWater {f : α → β} (hf : Monotone f) (base : α) (xs : List α) :
    f (highWater base xs) = highWater (f base) (xs.map f) := by
  induction xs with
  | nil => rfl
  | cons x xs ih => rw [highWater_cons, hf.map_max, ih, List.map_cons, highWater_cons]

end Strikedge.Machine
