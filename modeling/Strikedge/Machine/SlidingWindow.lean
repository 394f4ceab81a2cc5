import Mathlib.Algebra.Order.Group.Defs
import Mathlib.Algebra.BigOperators.Fin

/-!
# Sliding windows

A rate limiter looks only at the window that ends now. If every admission finds fewer than the
limit in that window, then every window of the length holds at most the limit: the newest
entry of a window sees all the others. The log is listed from the newest and need not be
sorted.
-/

namespace Strikedge.Machine

variable {τ : Type*} [AddCommGroup τ] [LinearOrder τ]

/-- How many entries lie in the window of length `span` that ends at `now`. -/
def recent (span now : τ) (log : List τ) : Nat := log.countP (now - span < ·)

/-- Every entry found fewer than `limit` in the window that ended with it. -/
def Paced (span : τ) (limit : Nat) : List τ → Prop
  | [] => True
  | t :: older => recent span t older < limit ∧ Paced span limit older

variable {span now later t a : τ} {limit limit' : Nat} {log older kept dropped : List τ}

@[simp] theorem paced_nil : Paced span limit ([] : List τ) := trivial

@[simp] theorem paced_cons :
    Paced span limit (t :: older) ↔ recent span t older < limit ∧ Paced span limit older := Iff.rfl

/-- A set of instants no two of which are `span` apart holds at most `limit` entries. -/
theorem Paced.countP_le (h : Paced span limit log) (window : τ → Bool)
    (narrow : ∀ s t, window s = true → window t = true → t - span < s) :
    log.countP window ≤ limit := by
  induction log with
  | nil => exact Nat.zero_le limit
  | cons t older ih =>
      by_cases ht : window t = true
      · -- All the others of the window lie in the one that ends with its newest entry.
        have hsub : older.countP window ≤ recent span t older :=
          List.countP_mono_left fun s _ hs => decide_eq_true (narrow s t hs ht)
        rw [List.countP_cons_of_pos ht]
        have hfew := h.1
        omega
      · rw [List.countP_cons_of_neg ht]
        exact ih h.2

section Ordered

variable [IsOrderedAddMonoid τ]

theorem Paced.countP_Ico_le (h : Paced span limit log) (a : τ) :
    (log.countP fun t => a ≤ t ∧ t < a + span) ≤ limit := by
  refine h.countP_le _ fun s t hs ht => ?_
  have hs := of_decide_eq_true hs
  have ht := of_decide_eq_true ht
  exact lt_of_lt_of_le (sub_lt_iff_lt_add.mpr ht.2) hs.1

theorem Paced.countP_Ioc_le (h : Paced span limit log) (a : τ) :
    (log.countP fun t => a < t ∧ t ≤ a + span) ≤ limit := by
  refine h.countP_le _ fun s t hs ht => ?_
  have hs := of_decide_eq_true hs
  have ht := of_decide_eq_true ht
  exact lt_of_le_of_lt (sub_le_iff_le_add.mpr ht.2) hs.1

/-- Entries that have left the window once do not come back. -/
theorem recent_append_of_old (hold : ∀ t ∈ dropped, t ≤ now - span) (hle : now ≤ later) :
    recent span later (dropped ++ kept) = recent span later kept := by
  have hnone : dropped.countP (later - span < ·) = 0 := by
    refine List.countP_eq_zero.mpr fun t ht => ?_
    have hle' : t ≤ later - span := le_trans (hold t ht) (sub_le_sub_right hle span)
    simpa using hle'
  rw [recent, List.countP_append, hnone, Nat.zero_add, recent]

end Ordered

theorem recent_reverse : recent span now log.reverse = recent span now log := by
  rw [recent, List.countP_reverse, recent]

/-- A count over all parties is the sum of the counts of each. -/
theorem countP_eq_sum {α : Type*} {n : Nat} (party : α → Fin n) (p : α → Bool) (log : List α) :
    log.countP p = ∑ w, log.countP fun e => p e && decide (party e = w) := by
  induction log with
  | nil => simp
  | cons e rest ih =>
      simp only [List.countP_cons, Finset.sum_add_distrib, ← ih]
      by_cases hp : p e = true
      · simp [hp]
      · simp [hp]

end Strikedge.Machine
