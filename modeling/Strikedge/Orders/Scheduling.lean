import Strikedge.Orders.Types
import Mathlib.Data.List.Sort

/-!
# Scheduling policy

Which queued operation goes first and whether it may take a slot. Base slots are shared
by every purpose. An entry may also take a burst slot, but only for the one attempt that
already owns the entries in flight and only while nothing else is in flight.
-/

namespace Strikedge.Orders

/-- `BOX_ORDER_PRIORITY`: lower goes first. -/
def boxOrderPriority : BoxOrderPurpose → Nat
  | .emergencyResidual => 0
  | .protectiveCancel => 1
  | .exit => 2
  | .entry => 3

/-- `clampEntrySubmitConcurrency`: between 1 and 4. -/
def clampEntrySubmitConcurrency (value : Nat) : Nat := min 4 (max 1 value)

inductive BoxSchedulingSlot where
  | base
  | entryBurst
  deriving DecidableEq, Repr

structure BoxSchedulingOccupancy where
  baseInFlight : Nat := 0
  burstInFlight : Nat := 0
  entryAttemptId : Option AttemptId := none
  nonEntryInFlight : Nat := 0
  deriving DecidableEq, Repr

/-- `admitBoxOperation`: the slot an operation may take, or the reason it must wait. -/
def admitBoxOperation (purpose : BoxOrderPurpose) (attemptId : AttemptId)
    (occupancy : BoxSchedulingOccupancy) (baseConcurrency entrySubmitConcurrency : Nat) :
    Except String BoxSchedulingSlot :=
  let base := max 1 baseConcurrency
  let burstWidth := clampEntrySubmitConcurrency entrySubmitConcurrency
  let full :=
    s!"base concurrency {base} is fully occupied by {occupancy.baseInFlight} operation(s)"
  if purpose ≠ .entry then
    if occupancy.baseInFlight < base then .ok .base else .error full
  else
    let overlaps := occupancy.entryAttemptId.filter (· ≠ attemptId)
    match overlaps with
    | some other =>
        .error <| s!"attempt {other} already has ENTRY operations in flight; a second Box " ++
          "pipeline may never overlap it, so contract reservations cannot be bypassed"
    | none =>
        let totalInFlight := occupancy.baseInFlight + occupancy.burstInFlight
        if occupancy.baseInFlight < base then .ok .base
        else if burstWidth ≤ base then
          .error <| s!"base concurrency {base} is fully occupied and " ++
            s!"BOX_LIVE_ENTRY_SUBMIT_CONCURRENCY={burstWidth} adds no headroom"
        else if 0 < occupancy.nonEntryInFlight then
          .error <| s!"{occupancy.nonEntryInFlight} non-ENTRY operation(s) are in flight; " ++
            "the entry burst never opens alongside protective or exit work"
        else if burstWidth ≤ totalInFlight then
          .error <| s!"entry burst width {burstWidth} is fully occupied by " ++
            s!"{totalInFlight} submission(s)"
        else .ok .entryBurst

inductive BoxDirection where
  | longBox
  | shortBox
  deriving DecidableEq, Repr

/-- `BOX_ENTRY_SIDES_BY_DIRECTION` -/
def boxEntrySide : BoxDirection → BoxLegRole → OrderSide
  | .longBox, .k1Ce => .buy
  | .longBox, .k2Ce => .sell
  | .longBox, .k2Pe => .buy
  | .longBox, .k1Pe => .sell
  | .shortBox, .k1Ce => .sell
  | .shortBox, .k2Ce => .buy
  | .shortBox, .k2Pe => .sell
  | .shortBox, .k1Pe => .buy

/-- One leg's place in the hedge-first transport sequence. -/
structure EntrySubmissionSlot where
  role : BoxLegRole
  side : OrderSide
  rank : Nat
  hedge : Bool
  deriving DecidableEq, Repr

/-- The four legs in transport order: BUYs first, then SELLs. -/
def entrySubmissionOrder (direction : BoxDirection) : List EntrySubmissionSlot :=
  let sides := boxEntrySide direction
  let buys := boxLegRoles.filter fun role => sides role = .buy
  let sells := boxLegRoles.filter fun role => sides role ≠ .buy
  (buys ++ sells).zipIdx.map fun (role, index) =>
    { role := role, side := sides role, rank := index, hedge := sides role = .buy }

end Strikedge.Orders
