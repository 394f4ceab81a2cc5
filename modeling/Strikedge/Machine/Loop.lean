import Mathlib.Data.Finset.Card
import Mathlib.Data.List.Pairwise
import Mathlib.Data.Multiset.Range
import Mathlib.Order.Lattice

/-!
# Loops and slots

A loop with fuel reaches its end when a measure falls at every turn. Over it, two facts of loops
that hand work to a fixed number of slots: the first of the slots with the earliest clock, and
how many pieces of work are held at once when those of one slot never overlap.
-/

namespace Strikedge.Machine

section Loop

variable {σ : Type*} {going : σ → Bool} {step : σ → σ}

/-- `while (going) step`, for at most so many turns. -/
def loop (going : σ → Bool) (step : σ → σ) : ℕ → σ → Option σ
  | 0, s => if going s then none else some s
  | fuel + 1, s => if going s then loop going step fuel (step s) else some s

/-- The total rule: the invariant is kept and the measure falls, so the loop ends and the
invariant holds there. -/
theorem loop_total {I : σ → Prop} (μ : σ → ℕ) (keeps : ∀ s, I s → going s → I (step s))
    (falls : ∀ s, I s → going s → μ (step s) < μ s) {fuel : ℕ} {s : σ} (hs : I s)
    (hfuel : μ s ≤ fuel) : ∃ t, loop going step fuel s = some t ∧ I t ∧ going t = false := by
  induction fuel generalizing s with
  | zero =>
    cases hgoing : going s with
    | false => exact ⟨s, by simp [loop, hgoing], hs, hgoing⟩
    | true =>
      have hfall := falls s hs hgoing
      omega
  | succ fuel ih =>
    cases hgoing : going s with
    | false => exact ⟨s, by simp [loop, hgoing], hs, hgoing⟩
    | true =>
      have hfall := falls s hs hgoing
      obtain ⟨t, ht, hI, hend⟩ := ih (keeps s hs hgoing) (by omega)
      exact ⟨t, by simpa [loop, hgoing] using ht, hI, hend⟩

end Loop

section Earliest

variable {τ : Type*} [LinearOrder τ] {clock : ℕ → τ}

/-- The first of the slots `0..n` whose clock is the earliest. -/
def earliestSlot (clock : ℕ → τ) : ℕ → ℕ
  | 0 => 0
  | i + 1 => if clock (i + 1) < clock (earliestSlot clock i) then i + 1 else earliestSlot clock i

theorem earliestSlot_le (clock : ℕ → τ) (n : ℕ) : earliestSlot clock n ≤ n := by
  induction n with
  | zero => exact Nat.le_refl 0
  | succ i ih =>
    rw [earliestSlot]
    split
    · exact Nat.le_refl (i + 1)
    · omega

theorem clock_earliestSlot_le {n k : ℕ} (h : k ≤ n) :
    clock (earliestSlot clock n) ≤ clock k := by
  induction n with
  | zero =>
    obtain rfl : k = 0 := by omega
    exact le_refl _
  | succ i ih =>
    rw [earliestSlot]
    obtain rfl | hlt := Nat.eq_or_lt_of_le h
    · split
      · exact le_refl _
      · rename_i hnot
        exact not_lt.mp hnot
    · have hle : clock (earliestSlot clock i) ≤ clock k := ih (by omega)
      split
      · rename_i hless
        exact hless.le.trans hle
      · exact hle

end Earliest

section Occupancy

variable {α : Type*} {held : α → Bool} {work : List α} {n : ℕ}

/-- No more work is held than there are slots, when of one slot at most one piece is held. -/
theorem countP_held_le (slot : α → ℕ) (hslot : ∀ a ∈ work, slot a < n)
    (hone : work.Pairwise fun a b => slot a = slot b → ¬ (held a = true ∧ held b = true)) :
    work.countP held ≤ n := by
  have hnodup : ((work.filter held).map slot).Nodup := by
    rw [List.Nodup, List.pairwise_map]
    refine (hone.sublist List.filter_sublist).imp_of_mem ?_
    intro a b ha hb hab heq
    exact hab heq ⟨(List.mem_filter.mp ha).2, (List.mem_filter.mp hb).2⟩
  have hsub : (work.filter held).map slot ⊆ List.range n := by
    intro k hk
    obtain ⟨a, ha, rfl⟩ := List.mem_map.mp hk
    exact List.mem_range.mpr (hslot a (List.mem_filter.mp ha).1)
  have hlength := (hnodup.subperm hsub).length_le
  rwa [List.length_map, List.length_range, ← List.countP_eq_length_filter] at hlength

end Occupancy

end Strikedge.Machine
