import Mathlib.Data.Finset.Card
import Mathlib.Order.Interval.Finset.Nat

/-!
# Fixed windows

Entries are numbered within windows of one length. A window starts with its first entry, after the
window before it has ended, so a span of that length has entries of two windows at most, and of the
earlier one not the first.
-/

namespace Strikedge.Machine

structure Windowed where
  time : ℤ
  ends : ℤ
  number : ℕ

/-- An entry of a window that starts with its first. -/
structure Windowed.Inside (span : ℤ) (x : Windowed) : Prop where
  started : x.ends ≤ x.time + span
  live : x.time ≤ x.ends
  number : 1 ≤ x.number
  first : x.number = 1 → x.ends = x.time + span

/-- A later entry of one window, or an entry of a later window. -/
def Windowed.Before (span : ℤ) (x y : Windowed) : Prop :=
  (y.ends = x.ends ∧ x.number < y.number) ∨ x.ends + span < y.ends

/-- The numbers of a second window are counted on from the limit. -/
def Windowed.place (ends : ℤ) (limit : ℕ) (x : Windowed) : ℕ :=
  if x.ends = ends then x.number else limit + x.number

variable {span a : ℤ} {limit : ℕ} {log : List Windowed}

theorem length_le_of_windows (hordered : log.Pairwise (Windowed.Before span))
    (hinside : ∀ x ∈ log, x.Inside span) (hnumber : ∀ x ∈ log, x.number ≤ limit)
    (hspan : ∀ x ∈ log, a ≤ x.time ∧ x.time ≤ a + span) : log.length ≤ 2 * limit - 1 := by
  cases log with
  | nil => exact Nat.zero_le _
  | cons first rest =>
    have hfirst := hinside first List.mem_cons_self
    have hstart := hspan first List.mem_cons_self
    have hnext : ∀ x ∈ first :: rest, (x.ends = first.ends ∧ first.number ≤ x.number) ∨
        (first.ends + span < x.ends ∧ first.number ≠ 1) := by
      refine List.forall_mem_cons.mpr ⟨.inl ⟨rfl, le_rfl⟩, fun x hx => ?_⟩
      refine ((List.pairwise_cons.mp hordered).1 x hx).imp (fun h => ⟨h.1, h.2.le⟩) fun h => ⟨h, ?_⟩
      have hlate := hspan x (List.mem_cons_of_mem first hx)
      have hlater := (hinside x (List.mem_cons_of_mem first hx)).started
      have hnew := hfirst.first
      omega
    have hnodup : ((first :: rest).map (Windowed.place first.ends limit)).Nodup := by
      refine List.pairwise_map.mpr (hordered.imp_of_mem fun {x y} hx hy hbefore => ?_)
      have hx' := hnext x hx
      have hy' := hnext y hy
      have hlimit := hnumber x hx
      have hlate := hspan y hy
      have hlater := (hinside y hy).started
      have hnew := (hinside y hy).number
      have hlive := hfirst.live
      rw [Windowed.place, Windowed.place]
      obtain ⟨hsame, hlt⟩ | hapart := hbefore
      · rw [hsame]
        split <;> omega
      · split <;> split <;> omega
    have hplace : ((first :: rest).map (Windowed.place first.ends limit)).toFinset ⊆
        if first.number = 1 then Finset.Icc 1 limit else Finset.Icc 2 (2 * limit) := by
      intro n hn
      obtain ⟨x, hx, rfl⟩ := List.mem_map.mp (List.mem_toFinset.mp hn)
      have hx' := hnext x hx
      have hlimit := hnumber x hx
      have hnew := (hinside x hx).number
      have hone := hfirst.number
      rw [Windowed.place]
      split <;> rw [Finset.mem_Icc] <;> split <;> omega
    have hcard := Finset.card_le_card hplace
    rw [List.toFinset_card_of_nodup hnodup, List.length_map] at hcard
    have hlimit := hnumber first List.mem_cons_self
    have hone := hfirst.number
    split at hcard <;> rw [Nat.card_Icc] at hcard <;> omega

end Strikedge.Machine
