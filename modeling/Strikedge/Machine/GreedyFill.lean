import Mathlib.Algebra.BigOperators.Group.List.Basic
import Mathlib.Algebra.Order.BigOperators.Group.List
import Mathlib.Algebra.Order.Ring.Rat
import Mathlib.Data.List.Basic
import Mathlib.Tactic.Linarith
import Mathlib.Tactic.Ring

/-!
# Greedy filling

Items with a price and a capacity are visited in turn, and each gives what is still wanted and
it has. In the order of their prices no other allotment of the same amount is cheaper: there is
a price below which every item is used up and above which none is touched, and that price bounds
the cost of every allotment from below.
-/

namespace Strikedge.GreedyFill

variable {ι : Type*} {price : ι → ℚ} {cap : ι → ℕ} {want : ℕ} {items : List ι}
variable {shares : List (ι × ℕ)}

def fill (cap : ι → ℕ) : ℕ → List ι → List (ι × ℕ)
  | _, [] => []
  | want, item :: rest =>
    (item, min want (cap item)) :: fill cap (want - min want (cap item)) rest

def amount (shares : List (ι × ℕ)) : ℕ := (shares.map Prod.snd).sum

def cost (price : ι → ℚ) (shares : List (ι × ℕ)) : ℚ :=
  (shares.map fun share => price share.1 * share.2).sum

/-- The capacity of all items together. -/
def room (cap : ι → ℕ) (items : List ι) : ℕ := (items.map cap).sum

/-- Each item gives a share within its capacity, in whatever order, and `n` in all. -/
structure Allots (cap : ι → ℕ) (items : List ι) (n : ℕ) (shares : List (ι × ℕ)) : Prop where
  perm : (shares.map Prod.fst).Perm items
  within : ∀ share ∈ shares, share.2 ≤ cap share.1
  amount : amount shares = n

theorem map_fst_fill : (fill cap want items).map Prod.fst = items := by
  induction items generalizing want with
  | nil => rfl
  | cons item rest ih => rw [fill, List.map_cons, ih]

theorem le_cap_of_mem_fill : ∀ share ∈ fill cap want items, share.2 ≤ cap share.1 := by
  induction items generalizing want with
  | nil => simp [fill]
  | cons item rest ih =>
    rw [fill, List.forall_mem_cons]
    exact ⟨min_le_right _ _, ih⟩

theorem amount_fill : amount (fill cap want items) = min want (room cap items) := by
  induction items generalizing want with
  | nil => simp [fill, amount, room]
  | cons item rest ih =>
    have htail : amount (fill cap (want - min want (cap item)) rest) =
        min (want - min want (cap item)) (room cap rest) := ih
    simp only [amount, room] at htail
    simp only [fill, amount, room, List.map_cons, List.sum_cons, htail]
    omega

theorem fill_allots : Allots cap items (min want (room cap items)) (fill cap want items) :=
  ⟨by rw [map_fst_fill], le_cap_of_mem_fill, amount_fill⟩

theorem Allots.of_perm {others : List ι} {n : ℕ} (h : Allots cap items n shares)
    (hperm : items.Perm others) : Allots cap others n shares :=
  ⟨h.perm.trans hperm, h.within, h.amount⟩

/-- Below the bound a share is whole, above it empty. -/
def Bounded (price : ι → ℚ) (cap : ι → ℕ) (bound : ℚ) (shares : List (ι × ℕ)) : Prop :=
  ∀ share ∈ shares, (price share.1 < bound → share.2 = cap share.1) ∧
    (bound < price share.1 → share.2 = 0)

theorem eq_zero_of_mem_fill_zero : ∀ share ∈ fill cap 0 items, share.2 = 0 := by
  induction items with
  | nil => simp [fill]
  | cons item rest ih =>
    rw [fill, Nat.zero_min, Nat.sub_zero, List.forall_mem_cons]
    exact ⟨rfl, ih⟩

/-- The price of the item that settles the amount, or the last one's. -/
theorem exists_bound (cap : ι → ℕ) (want : ℕ)
    (hsorted : items.Pairwise fun a b => price a ≤ price b) :
    ∃ bound, Bounded price cap bound (fill cap want items) := by
  induction items generalizing want with
  | nil => exact ⟨0, by simp [Bounded, fill]⟩
  | cons item rest ih =>
    obtain ⟨hfirst, hrest⟩ := List.pairwise_cons.mp hsorted
    have hlater : ∀ share ∈ fill cap (want - min want (cap item)) rest,
        price item ≤ price share.1 := by
      intro share hshare
      have hmem := List.mem_map_of_mem (f := Prod.fst) hshare
      rw [map_fst_fill] at hmem
      exact hfirst _ hmem
    by_cases hwant : want ≤ cap item
    · refine ⟨price item, ?_⟩
      rw [Bounded, fill, List.forall_mem_cons, min_eq_left hwant, Nat.sub_self]
      refine ⟨⟨fun h => absurd h (lt_irrefl _), fun h => absurd h (lt_irrefl _)⟩, ?_⟩
      intro share hshare
      rw [min_eq_left hwant, Nat.sub_self] at hlater
      refine ⟨fun h => absurd (hlater share hshare) (not_le.mpr h), ?_⟩
      intro _
      exact eq_zero_of_mem_fill_zero share hshare
    · have htail : ∃ bound, Bounded price cap bound
          (fill cap (want - min want (cap item)) rest) := ih _ hrest
      obtain ⟨bound, hbound⟩ := htail
      refine ⟨max bound (price item), ?_⟩
      rw [Bounded, fill, List.forall_mem_cons]
      refine ⟨⟨fun _ => by rw [min_eq_right (by omega)], fun h => ?_⟩, ?_⟩
      · exact absurd (le_max_right bound (price item)) (not_le.mpr h)
      · intro share hshare
        obtain ⟨hwhole, hnone⟩ := hbound share hshare
        constructor
        · intro h
          obtain hlow | hhigh := lt_max_iff.mp h
          · exact hwhole hlow
          · exact absurd (hlater share hshare) (not_le.mpr hhigh)
        · intro h
          exact hnone (lt_of_le_of_lt (le_max_left _ _) h)

/-- What the items below the bound save against it. -/
def saving (price : ι → ℚ) (cap : ι → ℕ) (bound : ℚ) (items : List ι) : ℚ :=
  (items.map fun item => min 0 (price item - bound) * cap item).sum

theorem cost_eq (bound : ℚ) (shares : List (ι × ℕ)) : cost price shares =
    bound * amount shares + (shares.map fun share => (price share.1 - bound) * share.2).sum := by
  induction shares with
  | nil => simp [cost, amount]
  | cons share rest ih =>
    simp only [cost, amount] at ih
    simp only [cost, amount, List.map_cons, List.sum_cons, Nat.cast_add, ih]
    ring

theorem saving_map_fst (bound : ℚ) (shares : List (ι × ℕ)) :
    saving price cap bound (shares.map Prod.fst) =
      (shares.map fun share => min 0 (price share.1 - bound) * cap share.1).sum := by
  rw [saving, List.map_map]
  rfl

theorem Allots.saving_eq {n : ℕ} (h : Allots cap items n shares) (bound : ℚ) :
    saving price cap bound items =
      (shares.map fun share => min 0 (price share.1 - bound) * cap share.1).sum := by
  rw [← saving_map_fst, saving, saving]
  exact ((h.perm.map _).sum_eq).symm

theorem Allots.bound_le_cost {n : ℕ} (h : Allots cap items n shares) (bound : ℚ) :
    bound * n + saving price cap bound items ≤ cost price shares := by
  rw [cost_eq bound shares, h.amount, h.saving_eq]
  apply add_le_add_right
  apply List.sum_le_sum
  intro share hshare
  have hcap : (share.2 : ℚ) ≤ cap share.1 := Nat.cast_le.mpr (h.within share hshare)
  have hshare0 : (0 : ℚ) ≤ share.2 := Nat.cast_nonneg _
  obtain hneg | hpos := le_total (price share.1 - bound) 0
  · rw [min_eq_right hneg]
    exact mul_le_mul_of_nonpos_left hcap hneg
  · rw [min_eq_left hpos, zero_mul]
    exact mul_nonneg hpos hshare0

theorem Allots.cost_eq_of_bounded {n : ℕ} {bound : ℚ} (h : Allots cap items n shares)
    (hbound : Bounded price cap bound shares) :
    cost price shares = bound * n + saving price cap bound items := by
  rw [cost_eq bound shares, h.amount, h.saving_eq]
  congr 2
  apply List.map_congr_left
  intro share hshare
  obtain ⟨hwhole, hnone⟩ := hbound share hshare
  obtain hlt | heq | hgt := lt_trichotomy (price share.1) bound
  · rw [hwhole hlt, min_eq_right (by linarith only [hlt])]
  · rw [heq, sub_self, min_self]
    simp
  · rw [hnone hgt, min_eq_left (by linarith only [hgt])]
    simp

/-- Filled in the order of the prices, no allotment of the same amount costs less. -/
theorem cost_fill_le (hsorted : items.Pairwise fun a b => price a ≤ price b)
    (h : Allots cap items (min want (room cap items)) shares) :
    cost price (fill cap want items) ≤ cost price shares := by
  obtain ⟨bound, hbound⟩ := exists_bound cap want hsorted
  rw [fill_allots.cost_eq_of_bounded hbound]
  exact h.bound_le_cost bound

theorem cost_fill_mono (hprice : ∀ item ∈ items, 0 ≤ price item) {want' : ℕ}
    (h : want ≤ want') : cost price (fill cap want items) ≤ cost price (fill cap want' items) := by
  induction items generalizing want want' with
  | nil => rfl
  | cons item rest ih =>
    rw [List.forall_mem_cons] at hprice
    have hshare : min want (cap item) ≤ min want' (cap item) := by omega
    have hleft : want - min want (cap item) ≤ want' - min want' (cap item) := by omega
    have htail := ih hprice.2 hleft
    have hhead : price item * (min want (cap item) : ℕ) ≤ price item * (min want' (cap item) : ℕ) :=
      mul_le_mul_of_nonneg_left (Nat.cast_le.mpr hshare) hprice.1
    simp only [cost] at htail
    simp only [fill, cost, List.map_cons, List.sum_cons]
    exact add_le_add hhead htail

theorem cost_nonneg (hprice : ∀ share ∈ shares, 0 ≤ price share.1) : 0 ≤ cost price shares := by
  apply List.sum_nonneg
  intro x hx
  obtain ⟨share, hshare, rfl⟩ := List.mem_map.mp hx
  exact mul_nonneg (hprice share hshare) (Nat.cast_nonneg _)

theorem fill_append (front back : List ι) : fill cap want (front ++ back) =
    fill cap want front ++ fill cap (want - amount (fill cap want front)) back := by
  induction front generalizing want with
  | nil => simp [fill, amount]
  | cons item rest ih =>
    have hleft (a b c : ℕ) : a - b - c = a - (b + c) := Nat.sub_sub a b c
    simp only [List.cons_append, fill, ih, amount, List.map_cons, List.sum_cons, hleft]

theorem cost_fill_le_append {front back : List ι} (hprice : ∀ item ∈ back, 0 ≤ price item) :
    cost price (fill cap want front) ≤ cost price (fill cap want (front ++ back)) := by
  rw [fill_append, cost, cost, List.map_append, List.sum_append]
  apply le_add_of_nonneg_right
  apply cost_nonneg
  intro share hshare
  apply hprice
  have hmem := List.mem_map_of_mem (f := Prod.fst) hshare
  rwa [map_fst_fill] at hmem

end Strikedge.GreedyFill
