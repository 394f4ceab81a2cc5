import Mathlib.Algebra.Order.Floor.Ring
import Mathlib.Algebra.Order.Ring.Rat
import Mathlib.Algebra.Order.Monoid.WithTop
import Mathlib.Logic.Function.Basic
import Mathlib.Tactic.NormNum
import Strikedge.Machine.Loop
import Strikedge.Machine.Number
import Strikedge.Orders.Scheduling

/-!
# The paper scheduler

`planPaperSchedule` gives every operation a slot and an instant for each of its stages. At every
turn it takes the slot that is free first. Of the operations that are ready when it is free the
best one gets it; where none is, the slot idles until one will be.
-/

namespace Strikedge.PaperSchedule

open Machine Orders

structure ExecutionSchedulingPolicy where
  maxConcurrentOperations : ℚ
  minBrokerIntervalMs : ℚ
  priorityFor : BoxOrderPurpose → ℚ

def createSchedulingPolicy (maxConcurrentOperations minBrokerIntervalMs : Number) :
    ExecutionSchedulingPolicy where
  maxConcurrentOperations :=
    match maxConcurrentOperations.finite? with
    | some value => max 1 ⌊value⌋
    | none => 1
  minBrokerIntervalMs :=
    match minBrokerIntervalMs.finite? with
    | some value => max 0 ⌊value⌋
    | none => 0
  priorityFor purpose := boxOrderPriority purpose

structure SchedulingKey where
  priority : ℚ
  sequence : ℚ
  deriving DecidableEq, Repr

/-- Negative when `a` goes first. -/
def compareScheduling (a b : SchedulingKey) : ℚ :=
  if a.priority - b.priority ≠ 0 then a.priority - b.priority else a.sequence - b.sequence

def ExecutionSchedulingPolicy.cap (policy : ExecutionSchedulingPolicy) : ℕ :=
  (max 1 ⌊policy.maxConcurrentOperations⌋).toNat

def ExecutionSchedulingPolicy.minInterval (policy : ExecutionSchedulingPolicy) : ℚ :=
  max 0 policy.minBrokerIntervalMs

structure SchedulableOperation where
  id : String
  purpose : BoxOrderPurpose
  sequence : ℚ
  readyAt : ℚ
  persistenceMs : Option Number
  postToAckMs : ℚ
  ackToTerminalMs : ℚ
  deriving DecidableEq, Repr

structure ScheduledOperation where
  id : String
  purpose : BoxOrderPurpose
  priority : ℚ
  sequence : ℚ
  slot : ℕ
  queuedAt : ℚ
  dequeuedAt : ℚ
  persistedAt : ℚ
  transportAllowedAt : ℚ
  postStartedAt : ℚ
  ackAt : ℚ
  terminalAt : ℚ
  queueWaitMs : ℚ
  persistenceWaitMs : ℚ
  transportWaitMs : ℚ
  deriving DecidableEq, Repr

def ScheduledOperation.key (a : ScheduledOperation) : SchedulingKey := ⟨a.priority, a.sequence⟩

/-- An entry of `pending` with its place in `results`, which is empty until it is scheduled. -/
structure Row where
  op : SchedulableOperation
  priority : ℚ
  result : Option ScheduledOperation
  deriving DecidableEq, Repr

def Row.key (row : Row) : SchedulingKey := ⟨row.priority, row.op.sequence⟩

/-- `EPS`: how much later than a slot an operation may get ready and still count as ready. -/
def eps : ℚ := 1 / 1000000

/-- `−∞` is the clock of a slot, or of the transport, that was never used. -/
abbrev Clock := WithBot ℚ

/-- The later of a clock and an instant. -/
def Clock.later (clock : Clock) (instant : ℚ) : ℚ := max (clock.unbotD instant) instant

@[simp] theorem Clock.later_coe (t instant : ℚ) :
    Clock.later (t : Clock) instant = max t instant := rfl

theorem Clock.le_later (clock : Clock) (instant : ℚ) : instant ≤ clock.later instant :=
  le_max_right _ _

theorem Clock.coe_later (clock : Clock) (instant : ℚ) :
    ((clock.later instant : ℚ) : Clock) = max clock (instant : Clock) := by
  induction clock using WithBot.recBotCoe with
  | bot => simp [Clock.later]
  | coe t => simp [Clock.later]

structure Scan where
  chosen : Option (ℕ × Row)
  earliestReady : Option ℚ

/-- The scan of the pending operations passes one of them. -/
def Scan.pass (available : Clock) (scan : Scan) (row : Row) (i : ℕ) : Scan :=
  if row.result.isSome then scan
  else
    { earliestReady :=
        some <| match scan.earliestReady with
          | some earliest => if row.op.readyAt < earliest then row.op.readyAt else earliest
          | none => row.op.readyAt
      chosen :=
        if available + (eps : Clock) < (row.op.readyAt : Clock) then scan.chosen
        else
          match scan.chosen with
          | none => some (i, row)
          | some (j, best) =>
            if compareScheduling row.key best.key < 0 then some (i, row) else some (j, best) }

def scan (available : Clock) (rows : List Row) : Scan :=
  rows.zipIdx.foldl (fun s entry => s.pass available entry.1 entry.2) ⟨none, none⟩

def persistence (op : SchedulableOperation) : ℚ :=
  match op.persistenceMs.bind Number.finite? with
  | some ms => max 0 ms
  | none => 0

structure Planner where
  rows : List Row
  slotFreeAt : ℕ → Clock
  transportFreeAt : Clock

/-- The timeline of an operation that gets a slot available from then on. -/
def timeline (slot : ℕ) (available transportFreeAt : Clock) (row : Row) : ScheduledOperation :=
  let queuedAt := row.op.readyAt
  let dequeuedAt := available.later queuedAt
  let persistedAt := dequeuedAt + persistence row.op
  let postStartedAt := transportFreeAt.later persistedAt
  let ackAt := postStartedAt + max 0 row.op.postToAckMs
  let terminalAt := ackAt + max 0 row.op.ackToTerminalMs
  { id := row.op.id
    purpose := row.op.purpose
    priority := row.priority
    sequence := row.op.sequence
    slot := slot
    queuedAt := queuedAt
    dequeuedAt := dequeuedAt
    persistedAt := persistedAt
    transportAllowedAt := postStartedAt
    postStartedAt := postStartedAt
    ackAt := ackAt
    terminalAt := terminalAt
    queueWaitMs := dequeuedAt - queuedAt
    persistenceWaitMs := persistedAt - dequeuedAt
    transportWaitMs := postStartedAt - persistedAt }

namespace Planner

def start (operations : List SchedulableOperation) (policy : ExecutionSchedulingPolicy) :
    Planner where
  rows := operations.map fun op => ⟨op, policy.priorityFor op.purpose, none⟩
  slotFreeAt _ := ⊥
  transportFreeAt := ⊥

/-- `dequeuedCount < pending.length` -/
def unfinished (s : Planner) : Bool := s.rows.any fun row => row.result.isNone

/-- The slot waits until then. -/
def idle (s : Planner) (slot : ℕ) (instant : ℚ) : Planner :=
  { s with slotFreeAt := Function.update s.slotFreeAt slot instant }

/-- The operation gets the slot until it is terminal. -/
def assign (s : Planner) (policy : ExecutionSchedulingPolicy) (slot i : ℕ) (row : Row) : Planner :=
  let result := timeline slot (s.slotFreeAt slot) s.transportFreeAt row
  { rows := s.rows.set i { row with result := some result }
    slotFreeAt := Function.update s.slotFreeAt slot result.terminalAt
    transportFreeAt := (result.postStartedAt + policy.minInterval : ℚ) }

def step (policy : ExecutionSchedulingPolicy) (s : Planner) : Planner :=
  let slot := earliestSlot s.slotFreeAt (policy.cap - 1)
  match scan (s.slotFreeAt slot) s.rows with
  | ⟨some (i, row), _⟩ => s.assign policy slot i row
  | ⟨none, some earliest⟩ => s.idle slot earliest
  | ⟨none, none⟩ => s  -- every operation is scheduled, and the loop has ended

def results (s : Planner) : List ScheduledOperation := s.rows.filterMap Row.result

end Planner

/-- Every operation takes a turn, and before it every slot may have taken one to idle. -/
def turns (operations : List SchedulableOperation) (policy : ExecutionSchedulingPolicy) : ℕ :=
  (operations.length + 1) * (policy.cap + 1)

/-- `planPaperSchedule`, or `none` where the loop has not ended after so many turns. -/
def planPaperSchedule (operations : List SchedulableOperation)
    (policy : ExecutionSchedulingPolicy) : Option (List ScheduledOperation) :=
  (loop Planner.unfinished (Planner.step policy) (turns operations policy)
    (Planner.start operations policy)).map Planner.results

theorem one_le_cap (policy : ExecutionSchedulingPolicy) : 1 ≤ policy.cap := by
  rw [ExecutionSchedulingPolicy.cap]
  omega

theorem minInterval_nonneg (policy : ExecutionSchedulingPolicy) : 0 ≤ policy.minInterval :=
  le_max_left _ _

theorem persistence_nonneg (op : SchedulableOperation) : 0 ≤ persistence op := by
  rw [persistence]
  split
  · exact le_max_left _ _
  · exact le_refl 0

/-- The scan has seen these operations, each with its index. -/
structure Scan.Saw (available : Clock) (seen : List (Row × ℕ)) (scan : Scan) : Prop where
  noneWaiting : scan.earliestReady = none → ∀ entry ∈ seen, entry.1.result ≠ none
  earliest : ∀ e, scan.earliestReady = some e →
    (∃ entry ∈ seen, entry.1.result = none ∧ entry.1.op.readyAt = e) ∧
      ∀ entry ∈ seen, entry.1.result = none → e ≤ entry.1.op.readyAt
  noneReady : scan.chosen = none → ∀ entry ∈ seen, entry.1.result = none →
    available + (eps : Clock) < (entry.1.op.readyAt : Clock)
  best : ∀ i row, scan.chosen = some (i, row) →
    ((row, i) ∈ seen ∧ row.result = none ∧
      ¬ available + (eps : Clock) < (row.op.readyAt : Clock)) ∧
      ∀ entry ∈ seen, entry.1.result = none →
        ¬ available + (eps : Clock) < (entry.1.op.readyAt : Clock) →
        ¬ compareScheduling entry.1.key row.key < 0

theorem compareScheduling_neg_iff {a b : SchedulingKey} :
    compareScheduling a b < 0 ↔
      a.priority < b.priority ∨ a.priority = b.priority ∧ a.sequence < b.sequence := by
  rw [compareScheduling]
  by_cases h : a.priority = b.priority
  · simp [h]
  · have hne : a.priority - b.priority ≠ 0 := sub_ne_zero.mpr h
    rw [if_pos hne, sub_neg]
    simp [h]

theorem compareScheduling_self (a : SchedulingKey) : ¬ compareScheduling a a < 0 := by
  simp [compareScheduling]

/-- Nothing goes before the best, so nothing goes before what replaces it. -/
theorem compareScheduling_trans {a b c : SchedulingKey} (hab : ¬ compareScheduling a b < 0)
    (hcb : compareScheduling c b < 0) : ¬ compareScheduling a c < 0 := by
  rw [compareScheduling_neg_iff] at *
  push Not at *
  grind

section Scan

variable {available : Clock} {seen : List (Row × ℕ)} {s : Scan} {row : Row} {i : ℕ}

/-- What is scheduled is passed over. -/
theorem Scan.Saw.pass_scheduled (h : s.Saw available seen) (hrow : row.result ≠ none) :
    s.Saw available (seen ++ [(row, i)]) where
  noneWaiting hnone := by
    rw [List.forall_mem_append, List.forall_mem_singleton]
    exact ⟨h.noneWaiting hnone, hrow⟩
  earliest e he := by
    obtain ⟨⟨entry, hentry, hfound⟩, hfirst⟩ := h.earliest e he
    refine ⟨⟨entry, List.mem_append_left _ hentry, hfound⟩, ?_⟩
    rw [List.forall_mem_append, List.forall_mem_singleton]
    exact ⟨hfirst, fun hnone => absurd hnone hrow⟩
  noneReady hnone := by
    rw [List.forall_mem_append, List.forall_mem_singleton]
    exact ⟨h.noneReady hnone, fun hnone => absurd hnone hrow⟩
  best j found hfound := by
    obtain ⟨⟨hmem, hready⟩, hbest⟩ := h.best j found hfound
    refine ⟨⟨List.mem_append_left _ hmem, hready⟩, ?_⟩
    rw [List.forall_mem_append, List.forall_mem_singleton]
    exact ⟨hbest, fun hnone => absurd hnone hrow⟩

theorem Scan.Saw.earliest_pass (h : s.Saw available seen) (hrow : row.result = none) {e : ℚ}
    (he : (s.pass available row i).earliestReady = some e) :
    (∃ entry ∈ seen ++ [(row, i)], entry.1.result = none ∧ entry.1.op.readyAt = e) ∧
      ∀ entry ∈ seen ++ [(row, i)], entry.1.result = none → e ≤ entry.1.op.readyAt := by
  have hnew : (row, i) ∈ seen ++ [(row, i)] := List.mem_append_right _ (List.mem_singleton_self _)
  rw [List.forall_mem_append, List.forall_mem_singleton]
  simp only [Scan.pass, hrow, Option.isSome_none, Bool.false_eq_true, if_false,
    Option.some.injEq] at he
  cases hs : s.earliestReady with
  | none =>
    rw [hs] at he
    obtain rfl : row.op.readyAt = e := he
    refine ⟨⟨(row, i), hnew, hrow, rfl⟩, ?_, fun _ => le_refl _⟩
    intro entry hentry hnone
    exact absurd hnone (h.noneWaiting hs entry hentry)
  | some earliest =>
    rw [hs] at he
    obtain ⟨⟨entry, hentry, hwaits, hready⟩, hfirst⟩ := h.earliest earliest hs
    by_cases hless : row.op.readyAt < earliest
    · obtain rfl : row.op.readyAt = e := by simpa [hless] using he
      refine ⟨⟨(row, i), hnew, hrow, rfl⟩, ?_, fun _ => le_refl _⟩
      intro other hother hnone
      exact hless.le.trans (hfirst other hother hnone)
    · obtain rfl : earliest = e := by simpa [hless] using he
      exact ⟨⟨entry, List.mem_append_left _ hentry, hwaits, hready⟩, hfirst,
        fun _ => not_lt.mp hless⟩

theorem Scan.Saw.noneReady_pass (h : s.Saw available seen) (hrow : row.result = none)
    (hnone : (s.pass available row i).chosen = none) :
    ∀ entry ∈ seen ++ [(row, i)], entry.1.result = none →
      available + (eps : Clock) < (entry.1.op.readyAt : Clock) := by
  rw [List.forall_mem_append, List.forall_mem_singleton]
  simp only [Scan.pass, hrow, Option.isSome_none, Bool.false_eq_true, if_false] at hnone
  by_cases hlate : available + (eps : Clock) < (row.op.readyAt : Clock)
  · rw [if_pos hlate] at hnone
    exact ⟨h.noneReady hnone, fun _ => hlate⟩
  · rw [if_neg hlate] at hnone
    split at hnone
    · cases hnone
    · split at hnone <;> cases hnone

theorem Scan.Saw.best_pass (h : s.Saw available seen) (hrow : row.result = none) {j : ℕ}
    {best : Row} (hbest : (s.pass available row i).chosen = some (j, best)) :
    ((best, j) ∈ seen ++ [(row, i)] ∧ best.result = none ∧
      ¬ available + (eps : Clock) < (best.op.readyAt : Clock)) ∧
      ∀ entry ∈ seen ++ [(row, i)], entry.1.result = none →
        ¬ available + (eps : Clock) < (entry.1.op.readyAt : Clock) →
        ¬ compareScheduling entry.1.key best.key < 0 := by
  have hnew : (row, i) ∈ seen ++ [(row, i)] := List.mem_append_right _ (List.mem_singleton_self _)
  rw [List.forall_mem_append, List.forall_mem_singleton]
  simp only [Scan.pass, hrow, Option.isSome_none, Bool.false_eq_true, if_false] at hbest
  by_cases hlate : available + (eps : Clock) < (row.op.readyAt : Clock)
  · rw [if_pos hlate] at hbest
    obtain ⟨⟨hmem, hfound⟩, hfirst⟩ := h.best j best hbest
    exact ⟨⟨List.mem_append_left _ hmem, hfound⟩, hfirst, fun _ hready => absurd hlate hready⟩
  · rw [if_neg hlate] at hbest
    cases hs : s.chosen with
    | none =>
      rw [hs] at hbest
      obtain ⟨rfl, rfl⟩ : i = j ∧ row = best := by simpa using hbest
      refine ⟨⟨hnew, hrow, hlate⟩, ?_, fun _ _ => compareScheduling_self _⟩
      intro entry hentry hnone hready
      exact absurd (h.noneReady hs entry hentry hnone) hready
    | some found =>
      obtain ⟨k, old⟩ := found
      rw [hs] at hbest
      obtain ⟨⟨hmem, hfound⟩, hfirst⟩ := h.best k old hs
      by_cases hbetter : compareScheduling row.key old.key < 0
      · obtain ⟨rfl, rfl⟩ : i = j ∧ row = best := by simpa [hbetter] using hbest
        refine ⟨⟨hnew, hrow, hlate⟩, ?_, fun _ _ => compareScheduling_self _⟩
        intro entry hentry hnone hready
        exact compareScheduling_trans (hfirst entry hentry hnone hready) hbetter
      · obtain ⟨rfl, rfl⟩ : k = j ∧ old = best := by simpa [hbetter] using hbest
        exact ⟨⟨List.mem_append_left _ hmem, hfound⟩, hfirst, fun _ _ => hbetter⟩

theorem Scan.Saw.pass (h : s.Saw available seen) :
    (s.pass available row i).Saw available (seen ++ [(row, i)]) := by
  cases hrow : row.result with
  | some result =>
    have hpass : s.pass available row i = s := by simp [Scan.pass, hrow]
    rw [hpass]
    exact h.pass_scheduled (by simp [hrow])
  | none =>
    refine ⟨fun hnone => ?_, fun e he => h.earliest_pass hrow he, h.noneReady_pass hrow,
      fun j best hbest => h.best_pass hrow hbest⟩
    simp [Scan.pass, hrow] at hnone

theorem scan_saw (available : Clock) (rows : List Row) :
    (scan available rows).Saw available rows.zipIdx := by
  rw [scan]
  induction rows.zipIdx using List.reverseRecOn with
  | nil => exact ⟨by simp, by simp, by simp, by simp⟩
  | append_singleton seen entry ih =>
    rw [List.foldl_append, List.foldl_cons, List.foldl_nil]
    exact ih.pass

end Scan

end Strikedge.PaperSchedule
