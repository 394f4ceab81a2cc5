import Mathlib.Data.List.Basic
import Mathlib.Order.Defs.Unbundled

/-!
# Entry by entry

Two lists are related entry by entry where they are equally long and a relation holds between the
entries of each index. A reflexive and transitive relation lifts to one on lists. What replaces
single entries stays within it, and so does a loop that visits one index after the other.
-/

namespace Strikedge.Machine

variable {α : Type*} {R S : α → α → Prop}

/-- The relation holds at every index, and the lists end together. -/
def Entrywise (R : α → α → Prop) (xs ys : List α) : Prop := ∀ i : ℕ, Option.Rel R xs[i]? ys[i]?

namespace Entrywise

variable {xs ys zs : List α} {x y : α} {i : ℕ}

theorem refl (hR : ∀ x, R x x) (xs : List α) : Entrywise R xs xs := by
  intro i
  cases xs[i]? with
  | none => exact .none
  | some x => exact .some (hR x)

theorem trans (hR : ∀ x y z, R x y → R y z → R x z) (hxy : Entrywise R xs ys)
    (hyz : Entrywise R ys zs) : Entrywise R xs zs := by
  intro i
  have hx := hxy i
  have hy := hyz i
  generalize xs[i]? = x, ys[i]? = y, zs[i]? = z at hx hy ⊢
  cases hx with
  | none => exact hy
  | some hx =>
      cases hy with
      | some hy => exact .some (hR _ _ _ hx hy)

theorem imp (h : Entrywise R xs ys) (himp : ∀ x ∈ xs, ∀ y, R x y → S x y) : Entrywise S xs ys := by
  intro i
  have hi := h i
  generalize hx : xs[i]? = x, ys[i]? = y at hi ⊢
  cases hi with
  | none => exact .none
  | some hxy => exact .some (himp _ (List.mem_of_getElem? hx) _ hxy)

/-- Every entry of the second list is the image of one in the first. -/
theorem of_mem (h : Entrywise R xs ys) (hy : y ∈ ys) : ∃ x ∈ xs, R x y := by
  obtain ⟨i, hi⟩ := List.mem_iff_getElem?.mp hy
  have hrel := h i
  rw [hi] at hrel
  generalize hx : xs[i]? = x at hrel
  cases hrel with
  | some hxy => exact ⟨_, List.mem_of_getElem? hx, hxy⟩

theorem set (hR : ∀ x, R x x) (hx : xs[i]? = some x) (hxy : R x y) :
    Entrywise R xs (xs.set i y) := by
  intro j
  rw [List.getElem?_set]
  split
  · rename_i hij
    subst hij
    obtain ⟨hlt, -⟩ := List.getElem?_eq_some_iff.mp hx
    rw [hx, if_pos hlt]
    exact .some hxy
  · exact refl hR xs j

theorem mapIdx {f : ℕ → α → α} (hf : ∀ i, ∀ x ∈ xs, R x (f i x)) :
    Entrywise R xs (xs.mapIdx f) := by
  intro i
  rw [List.getElem?_mapIdx]
  cases hx : xs[i]? with
  | none => exact .none
  | some x => exact .some (hf i x (List.mem_of_getElem? hx))

theorem map {f : α → α} (hf : ∀ x ∈ xs, R x (f x)) : Entrywise R xs (xs.map f) := by
  intro i
  rw [List.getElem?_map]
  cases hx : xs[i]? with
  | none => exact .none
  | some x => exact .some (hf x (List.mem_of_getElem? hx))

/-- A loop over indices. -/
theorem foldl {visit : List α → ℕ → List α} (hrefl : ∀ x, R x x)
    (htrans : ∀ x y z, R x y → R y z → R x z) (hvisit : ∀ xs i, Entrywise R xs (visit xs i))
    (is : List ℕ) (xs : List α) : Entrywise R xs (is.foldl visit xs) := by
  induction is generalizing xs with
  | nil => exact refl hrefl xs
  | cons i is ih => exact (hvisit xs i).trans htrans (ih (visit xs i))

/-- What the relation keeps of each entry is the same for the lists. -/
theorem map_eq {β : Type*} {f : α → β} (h : Entrywise R xs ys) (hf : ∀ x y, R x y → f y = f x) :
    ys.map f = xs.map f := by
  apply List.ext_getElem?
  intro i
  rw [List.getElem?_map, List.getElem?_map]
  have hi := h i
  generalize xs[i]? = x, ys[i]? = y at hi ⊢
  cases hi with
  | none => rfl
  | some hxy => exact congrArg some (hf _ _ hxy)

end Entrywise

end Strikedge.Machine
