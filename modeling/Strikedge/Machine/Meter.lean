import Mathlib.Algebra.GroupWithZero.Nat
import Mathlib.Data.List.Basic
import Mathlib.Algebra.BigOperators.Group.List.Basic
import Strikedge.Machine.HighWater

/-!
# Metered readings

A counter that never falls is read many times, also late and more than once, and each
reading is billed or written off. A billed reading above everything read before it bills
the range between the two, so a unit is billed exactly when the first reading that reaches
it is a billed one, and it is billed once.
-/

namespace Strikedge.Machine

structure MeterReading where
  level : Nat
  billed : Bool
  deriving DecidableEq, Repr

/-- The highest level read, or the base. -/
def readingMark (base : Nat) (readings : List MeterReading) : Nat :=
  highWater base (readings.map (·.level))

/-- The ranges the readings bill, each from the highest level before it. -/
def billedRanges (base : Nat) : List MeterReading → List (Nat × Nat)
  | [] => []
  | reading :: readings =>
    if base < reading.level then
      if reading.billed then (base, reading.level) :: billedRanges reading.level readings
      else billedRanges reading.level readings
    else billedRanges base readings

/-- The units of all ranges. -/
def billedUnits (ranges : List (Nat × Nat)) : Nat := (ranges.map fun range => range.2 - range.1).sum

/-- The unit lies in the range. -/
def inRange (unit : Nat) (range : Nat × Nat) : Bool :=
  decide (range.1 ≤ unit) && decide (unit < range.2)

/-- The first reading that reaches a unit is billed. -/
def firstBilled (unit : Nat) (readings : List MeterReading) : Bool :=
  (readings.find? fun reading => decide (unit < reading.level)).any (·.billed)

variable {base unit : Nat} {reading : MeterReading} {readings before after : List MeterReading}

@[simp] theorem readingMark_nil : readingMark base [] = base := rfl

theorem readingMark_cons :
    readingMark base (reading :: readings) = readingMark (max base reading.level) readings := by
  rw [readingMark, List.map_cons, highWater_cons, readingMark]
  induction readings with
  | nil => exact max_comm _ _
  | cons next readings ih => rw [List.map_cons, highWater_cons, highWater_cons, ← ih, max_left_comm]

theorem readingMark_concat :
    readingMark base (readings ++ [reading]) = max (readingMark base readings) reading.level := by
  rw [readingMark, List.map_append, List.map_singleton, highWater_concat, readingMark]

/-- A base counts like one more reading. -/
theorem readingMark_base : readingMark base readings = max base (readingMark 0 readings) := by
  induction readings generalizing base with
  | nil => exact (Nat.max_zero base).symm
  | cons first readings ih =>
    rw [readingMark_cons, readingMark_cons, Nat.zero_max, ih, @ih first.level, max_assoc]

/-- One more reading bills what it adds to the highest level, or nothing. -/
theorem billedRanges_concat :
    billedRanges base (readings ++ [reading]) = billedRanges base readings ++
      if reading.billed ∧ readingMark base readings < reading.level then
        [(readingMark base readings, reading.level)] else [] := by
  induction readings generalizing base with
  | nil =>
    by_cases hlevel : base < reading.level
    · by_cases hbilled : reading.billed = true
      · simp [billedRanges, hlevel, hbilled]
      · simp [billedRanges, hlevel, hbilled]
    · simp [billedRanges, hlevel]
  | cons first readings ih =>
    rw [List.cons_append, billedRanges, billedRanges, readingMark_cons]
    by_cases hlevel : base < first.level
    · rw [if_pos hlevel, if_pos hlevel, max_eq_right hlevel.le]
      by_cases hbilled : first.billed = true
      · rw [if_pos hbilled, if_pos hbilled, ih, List.cons_append]
      · rw [if_neg hbilled, if_neg hbilled, ih]
    · rw [if_neg hlevel, if_neg hlevel, max_eq_left (not_lt.mp hlevel), ih]

/-- Every range bills something, from the base on. -/
theorem range_of_mem_billedRanges {range : Nat × Nat}
    (h : range ∈ billedRanges base readings) : base ≤ range.1 ∧ range.1 < range.2 := by
  induction readings generalizing base with
  | nil => exact absurd h List.not_mem_nil
  | cons first readings ih =>
    rw [billedRanges] at h
    by_cases hlevel : base < first.level
    · rw [if_pos hlevel] at h
      by_cases hbilled : first.billed = true
      · rw [if_pos hbilled] at h
        obtain rfl | h := List.mem_cons.mp h
        · exact ⟨le_rfl, hlevel⟩
        · exact ⟨hlevel.le.trans (ih h).1, (ih h).2⟩
      · rw [if_neg hbilled] at h
        exact ⟨hlevel.le.trans (ih h).1, (ih h).2⟩
    · rw [if_neg hlevel] at h
      exact ih h

/-- No range below the base is billed. -/
theorem countP_inRange_of_lt (h : unit < base) :
    (billedRanges base readings).countP (inRange unit) = 0 := by
  apply List.countP_eq_zero.mpr
  intro range hrange hin
  have hbase := (range_of_mem_billedRanges hrange).1
  obtain ⟨hlow, -⟩ := (Bool.and_eq_true _ _).mp hin
  have := of_decide_eq_true hlow
  omega

/-- A unit is billed once when the first reading that reaches it is billed, and else never. -/
theorem countP_inRange_billedRanges (h : base ≤ unit) :
    (billedRanges base readings).countP (inRange unit) =
      if firstBilled unit readings then 1 else 0 := by
  induction readings generalizing base with
  | nil => rfl
  | cons first readings ih =>
    rw [billedRanges, firstBilled, List.find?_cons]
    by_cases hlevel : base < first.level
    · rw [if_pos hlevel]
      by_cases hunit : unit < first.level
      · have hnone : (billedRanges first.level readings).countP (inRange unit) = 0 :=
          countP_inRange_of_lt hunit
        have hin : inRange unit (base, first.level) = true := by simp [inRange, h, hunit]
        by_cases hbilled : first.billed = true
        · rw [if_pos hbilled, List.countP_cons_of_pos hin, hnone]
          simp [hunit, hbilled]
        · rw [if_neg hbilled, hnone]
          simp [hunit, hbilled]
      · have hrest := ih (not_lt.mp hunit)
        have hout : ¬ inRange unit (base, first.level) = true := by simp [inRange, hunit]
        rw [firstBilled] at hrest
        by_cases hbilled : first.billed = true
        · rw [if_pos hbilled, List.countP_cons_of_neg hout, hrest]
          simp [hunit]
        · rw [if_neg hbilled, hrest]
          simp [hunit]
    · rw [if_neg hlevel, ih h, firstBilled]
      have hunit : ¬ unit < first.level := fun hlt => hlevel (h.trans_lt hlt)
      simp [hunit]

/-- Readings that are all written off bill nothing. -/
theorem billedRanges_append_of_free (hfree : ∀ reading ∈ before, reading.billed = false) :
    billedRanges base (before ++ after) = billedRanges (readingMark base before) after := by
  induction before generalizing base with
  | nil => rfl
  | cons first before ih =>
    have hrest := fun reading hmem => hfree reading (List.mem_cons_of_mem first hmem)
    rw [List.cons_append, billedRanges, hfree first List.mem_cons_self, readingMark_cons]
    by_cases hlevel : base < first.level
    · rw [if_pos hlevel, if_neg Bool.false_ne_true, ih hrest, max_eq_right hlevel.le]
    · rw [if_neg hlevel, ih hrest, max_eq_left (not_lt.mp hlevel)]

/-- Readings that are all billed bill what they add to the base. -/
theorem billedUnits_of_billed (hbilled : ∀ reading ∈ readings, reading.billed = true) :
    base + billedUnits (billedRanges base readings) = readingMark base readings := by
  induction readings generalizing base with
  | nil => rfl
  | cons first readings ih =>
    have hrest := fun reading hmem => hbilled reading (List.mem_cons_of_mem first hmem)
    rw [billedRanges, hbilled first List.mem_cons_self, readingMark_cons]
    by_cases hlevel : base < first.level
    · rw [if_pos hlevel, if_pos rfl, max_eq_right hlevel.le, ← ih hrest]
      simp only [billedUnits, List.map_cons, List.sum_cons]
      omega
    · rw [if_neg hlevel, max_eq_left (not_lt.mp hlevel), ih hrest]

end Strikedge.Machine
