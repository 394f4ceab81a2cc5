import Mathlib.Data.List.Induction
import Mathlib.Algebra.BigOperators.Group.Finset.Piecewise
import Mathlib.Algebra.Order.Ring.Int
import Strikedge.Orders.DailyRisk

/-!
# The durable mutations of a trading day

What a day has realised is the sum of its P&L deltas less the highest charge bucket of each
attempt. A charge bucket only advances, so the charges recorded after a prefix of the day,
each counted above its own watermark and above the bucket of the prefix, are what the
buckets have grown by since.
-/

namespace Strikedge.Orders

/-- A durable mutation of a day. A charge advances the bucket of an attempt from what this
process has observed of it; `onDay` tells that the day was its trading day then. -/
inductive DayEvent where
  | realised (delta : Int)
  | rejected
  | charged (attemptId : AttemptId) (previous current : Int) (onDay : Bool)
  deriving DecidableEq, Repr

namespace DayEvent

def delta : DayEvent → Int
  | .realised delta => delta
  | _ => 0

/-- The attempt a charge is on. -/
def attempt : DayEvent → Option AttemptId
  | .charged attemptId _ _ _ => some attemptId
  | _ => none

/-- The bucket a charge reaches. -/
def reached : DayEvent → Int
  | .charged _ _ current _ => current
  | _ => 0

/-- The part of a charge above its watermark and above a baseline. -/
def above (baseline : AttemptId → Int) : DayEvent → Int
  | .charged a previous current _ => max 0 (current - max previous (baseline a))
  | _ => 0

/-- A charge that advances its bucket was recorded while its day was the trading day. -/
def Noted : DayEvent → Prop
  | .charged _ previous current onDay => previous < current → onDay = true
  | _ => True

instance : DecidablePred Noted
  | .charged _ _ _ _ => inferInstanceAs (Decidable (_ → _))
  | .realised _ => .isTrue trivial
  | .rejected => .isTrue trivial

end DayEvent

/-- The sum of the P&L deltas. -/
def realisedSum (events : List DayEvent) : Int := (events.map DayEvent.delta).sum

/-- The number of rejections. -/
def rejections (events : List DayEvent) : Nat := events.countP (· = .rejected)

/-- The highest charge bucket of an attempt. -/
def bucket (events : List DayEvent) (a : AttemptId) : Int :=
  events.foldl (fun highest e => if e.attempt = some a then max highest e.reached else highest) 0

def chargedAttempts (events : List DayEvent) : Finset AttemptId :=
  (events.filterMap DayEvent.attempt).toFinset

/-- The highest charge buckets of all attempts together. -/
def chargeTotal (events : List DayEvent) : Int :=
  ∑ a ∈ chargedAttempts events, bucket events a

/-- What the day has realised, net of charges. -/
def dayNet (events : List DayEvent) : Int := realisedSum events - chargeTotal events

/-- An event this process may record next, after `past`, which it did not record, and
`recorded`: a charge starts from what has been observed of its bucket, and a bucket never
falls back. -/
def DayEvent.Follows (past recorded : List DayEvent) : DayEvent → Prop
  | .charged a previous current _ =>
      0 ≤ previous ∧ previous ≤ bucket (past ++ recorded) a ∧
        bucket (past ++ recorded) a ≤ current ∧
        ∀ e ∈ recorded, e.attempt = some a → e.reached ≤ previous
  | _ => True

instance (past recorded : List DayEvent) : DecidablePred (DayEvent.Follows past recorded)
  | .charged _ _ _ _ => inferInstanceAs (Decidable (_ ∧ _))
  | .realised _ => .isTrue trivial
  | .rejected => .isTrue trivial

/-- Every event of a day was one that could be recorded then. -/
inductive DayRecord (past : List DayEvent) : List DayEvent → Prop where
  | nil : DayRecord past []
  | concat {recorded : List DayEvent} {e : DayEvent} (before : DayRecord past recorded)
      (follows : e.Follows past recorded) : DayRecord past (recorded ++ [e])

section Bucket

variable {es fs past recorded : List DayEvent} {e : DayEvent} {a : AttemptId}

theorem bucket_concat : bucket (es ++ [e]) a =
    if e.attempt = some a then max (bucket es a) e.reached else bucket es a := by
  rw [bucket, List.foldl_append]
  rfl

theorem bucket_nonneg (es : List DayEvent) (a : AttemptId) : 0 ≤ bucket es a := by
  induction es using List.reverseRecOn with
  | nil => exact Int.le_refl 0
  | append_singleton es e ih =>
      rw [bucket_concat]
      split
      · exact le_max_of_le_left ih
      · exact ih

theorem bucket_eq_zero (h : a ∉ chargedAttempts es) : bucket es a = 0 := by
  induction es using List.reverseRecOn with
  | nil => rfl
  | append_singleton es e ih =>
      simp only [chargedAttempts, List.filterMap_append, List.mem_toFinset, List.mem_append,
        not_or] at h ih
      rw [bucket_concat, if_neg, ih h.1]
      intro hattempt
      apply h.2
      simp [hattempt]

theorem bucket_append (es fs : List DayEvent) (a : AttemptId) :
    bucket (es ++ fs) a = max (bucket es a) (bucket fs a) := by
  induction fs using List.reverseRecOn with
  | nil =>
      rw [List.append_nil]
      exact (max_eq_left (bucket_nonneg es a)).symm
  | append_singleton fs e ih =>
      rw [← List.append_assoc, bucket_concat, bucket_concat, ih]
      split
      · exact max_assoc _ _ _
      · rfl

theorem bucket_le {c : Int} (hc : 0 ≤ c) (h : ∀ e ∈ es, e.attempt = some a → e.reached ≤ c) :
    bucket es a ≤ c := by
  induction es using List.reverseRecOn with
  | nil => exact hc
  | append_singleton es e ih =>
      have hes : bucket es a ≤ c := ih fun e' he' => h e' (List.mem_append_left _ he')
      rw [bucket_concat]
      split
      next hattempt => exact max_le hes (h e (by simp) hattempt)
      · exact hes

theorem reached_le_bucket (h : e ∈ es) (hattempt : e.attempt = some a) :
    e.reached ≤ bucket es a := by
  induction es using List.reverseRecOn with
  | nil => cases h
  | append_singleton es last ih =>
      rw [bucket_concat]
      rcases List.mem_append.mp h with hmem | hlast
      · have hle := ih hmem
        split
        · exact le_max_of_le_left hle
        · exact hle
      · rw [← List.mem_singleton.mp hlast, if_pos hattempt]
        exact le_max_right _ _

/-- Adding an event to a day adds what it raises its bucket by. -/
theorem chargeTotal_concat : chargeTotal (es ++ [e]) =
    chargeTotal es + e.attempt.elim 0 fun a => max (bucket es a) e.reached - bucket es a := by
  cases hattempt : e.attempt with
  | none =>
      have hsame : ∀ a, bucket (es ++ [e]) a = bucket es a := by
        intro a
        rw [bucket_concat, hattempt, if_neg nofun]
      have hcharged : chargedAttempts (es ++ [e]) = chargedAttempts es := by
        simp [chargedAttempts, hattempt]
      rw [chargeTotal, hcharged, Finset.sum_congr rfl fun a _ => hsame a, Option.elim_none,
        add_zero]
      rfl
  | some a =>
      have hsplit : ∀ x, bucket (es ++ [e]) x =
          bucket es x + if x = a then max (bucket es a) e.reached - bucket es a else 0 := by
        intro x
        rw [bucket_concat, hattempt]
        by_cases hx : x = a
        · subst hx
          simp
        · simp [hx, Ne.symm hx]
      have hcharged : chargedAttempts (es ++ [e]) = insert a (chargedAttempts es) := by
        ext x
        simp [chargedAttempts, hattempt]
      rw [chargeTotal, hcharged, Finset.sum_congr rfl fun x _ => hsplit x,
        Finset.sum_add_distrib, Finset.sum_ite_eq', if_pos (Finset.mem_insert_self a _),
        Finset.sum_insert_of_eq_zero_if_notMem bucket_eq_zero]
      rfl

end Bucket

section Prefix

variable {past p q : List DayEvent} {e : DayEvent}

theorem DayRecord.last (h : DayRecord past (p ++ [e])) :
    DayRecord past p ∧ e.Follows past p := by
  generalize hall : p ++ [e] = all at h
  cases h with
  | nil => simp at hall
  | concat before follows =>
      obtain ⟨rfl, hlast⟩ := List.append_inj' hall rfl
      obtain rfl := List.singleton_inj.mp hlast
      exact ⟨before, follows⟩

/-- An event adds to the day what it adds above the buckets of any earlier prefix. -/
theorem above_eq (follows : e.Follows past (p ++ q)) :
    e.above (bucket (past ++ p)) =
      e.attempt.elim 0 fun a =>
        max (bucket (past ++ (p ++ q)) a) e.reached - bucket (past ++ (p ++ q)) a := by
  cases e with
  | realised delta => rfl
  | rejected => rfl
  | charged a previous current onDay =>
      obtain ⟨hzero, hprevious, hcurrent, hobserved⟩ := follows
      have hq : bucket q a ≤ previous :=
        bucket_le hzero fun e he => hobserved e (List.mem_append_right _ he)
      have happend := bucket_append (past ++ p) q a
      rw [List.append_assoc] at happend
      -- the watermark and the prefix together reach exactly the bucket
      have hreach : max previous (bucket (past ++ p) a) = bucket (past ++ (p ++ q)) a := by
        rw [happend]
        rw [happend] at hprevious
        apply le_antisymm
        · exact max_le hprevious (le_max_left _ _)
        · exact max_le (le_max_right _ _) (le_max_of_le_left hq)
      simp only [DayEvent.above, DayEvent.attempt, DayEvent.reached, Option.elim_some, hreach]
      rw [max_eq_right hcurrent]
      omega

/-- The charges after a prefix, above its buckets, are what the buckets have grown by. -/
theorem chargeTotal_growth (h : DayRecord past (p ++ q)) :
    chargeTotal (past ++ (p ++ q)) =
      chargeTotal (past ++ p) + (q.map (DayEvent.above (bucket (past ++ p)))).sum := by
  induction q using List.reverseRecOn with
  | nil => simp
  | append_singleton q e ih =>
      rw [← List.append_assoc] at h
      obtain ⟨before, follows⟩ := h.last
      rw [← List.append_assoc, ← List.append_assoc, List.append_assoc past, chargeTotal_concat,
        ih before, ← above_eq follows, List.map_append, List.sum_append, List.map_singleton,
        List.sum_singleton, add_assoc]

theorem realisedSum_append (es fs : List DayEvent) :
    realisedSum (es ++ fs) = realisedSum es + realisedSum fs := by
  rw [realisedSum, List.map_append, List.sum_append]
  rfl

theorem rejections_append (es fs : List DayEvent) :
    rejections (es ++ fs) = rejections es + rejections fs := List.countP_append

end Prefix

end Strikedge.Orders
