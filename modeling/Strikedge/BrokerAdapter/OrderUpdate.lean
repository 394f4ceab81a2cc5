import Strikedge.BrokerAdapter.ExecutionEvidence
import Strikedge.Machine.Arithmetic
import Strikedge.OrderStream.Consumer

/-!
# External updates in the session of an adapter

`applyOrderUpdate` of the Kite and of the Dhan adapter. The two merge an update in the same
way and read its status label by their own tables. What `toUpperCase` makes of a character
beyond ASCII is a parameter of a table. Waiters, timings and counters are left
out, and an order is kept with the fields a merge reads or writes.
-/

namespace Strikedge.BrokerAdapter

open Machine Orders OrderStream

/-- A fill id, by the texts and numbers it is put together from. -/
structure FillId where
  origin : String
  order : String
  filled : Nat
  price : Option ℚ
  deriving DecidableEq, Repr

structure BrokerFill where
  fillId : FillId
  quantity : Nat
  price : Option ℚ
  time : ℚ
  deriving DecidableEq, Repr

/-- The snapshot of an order that the session of an adapter keeps and returns. -/
structure SessionOrder where
  clientOrderId : ClientOrderId
  brokerOrderId : Option String
  quantity : Nat
  state : BoxOrderIntentState
  filledQuantity : Nat
  pendingQuantity : Nat
  averagePrice : Option ℚ
  fills : List BrokerFill
  executionEvidence : Option ExecutionEvidenceQuality
  rejectReason : Option String
  updatedAt : ℚ
  deriving DecidableEq, Repr

/-- The session of an adapter. -/
structure Session where
  orders : OrderedMap ClientOrderId SessionOrder := ∅
  clientByBroker : OrderedMap String ClientOrderId := ∅

/-- `trim` and `toUpperCase` -/
def labelOf (beyond : Char → List Char) (status : String) : String :=
  String.ofList (toUpperCase beyond (trim status).toList)

/-- Letters beyond ASCII are left alone. -/
def asciiOnly (c : Char) : List Char := [c]

/-- Some of the quantity is filled and some is not. -/
def partly (filled quantity : Nat) : Bool := decide (0 < filled ∧ filled < quantity)

/-- A quantity need not be whole, or even a number. -/
def kiteState (beyond : Char → List Char) (status : String) (filled : Nat)
    (quantity : Number) : BoxOrderIntentState :=
  let value := labelOf beyond status
  if value = "COMPLETE" then .complete
  else if includes value "CANCEL" then .cancelled
  else if includes value "REJECT" then .rejected
  else if 0 < filled ∧ Number.less (.finite filled) quantity then .partiallyFilled
  else if value = "OPEN" ∨ includes value "TRIGGER PENDING" then .open
  else if includes value "VALIDATION" ∨ includes value "PUT ORDER" then .acknowledged
  else .unknown

def dhanOrderState (beyond : Char → List Char) (status : String) (filled : Nat) (quantity : ℚ) :
    BoxOrderIntentState :=
  let value := labelOf beyond status
  if value = "TRANSIT" then .acknowledged
  else if value = "PENDING" then
    if 0 < filled ∧ filled < quantity then .partiallyFilled else .open
  else if value = "PART_TRADED" then
    if quantity ≤ filled ∧ 0 < quantity then .complete else .partiallyFilled
  else if value = "TRADED" then
    if 0 < quantity ∧ 0 < filled ∧ filled < quantity then .partiallyFilled else .complete
  else if value = "CANCELLED" ∨ value = "CLOSED" then .cancelled
  else if value = "REJECTED" then .rejected
  else if value = "EXPIRED" then
    if 0 < filled ∧ filled < quantity then .partiallyFilled else .cancelled
  else .unknown

/-- What the two adapters differ in. -/
structure Dialect where
  orderState : String → Nat → Nat → BoxOrderIntentState
  fillOrigin : String
  /-- the broker id of an update is indexed -/
  indexesBrokerId : Bool

/-- What is left of an update once it is read against the order it is about. -/
structure ObservedUpdate where
  label : String
  brokerOrderId : Option String
  verdict : ExecutionEvidenceVerdict
  regressed : Bool
  observedAt : ℚ

def Dialect.observe (d : Dialect) (known : SessionOrder) (update : ExternalOrderUpdate) :
    ObservedUpdate :=
  let observedQuantity := readNonNegativeInteger update.cumulativeQty
  let observedPrice := readPositivePrice update.averagePrice
  let label := update.rawStatus.getD ""
  let claimedState :=
    d.orderState label (observedQuantity.getD known.filledQuantity) known.quantity
  { label := label
    brokerOrderId := update.brokerOrderId.filter (· ≠ "")
    verdict := evaluateExecutionEvidence label claimedState known.filledQuantity observedQuantity
      observedPrice
    regressed := observedQuantity.any (· < known.filledQuantity)
    observedAt := update.observedAtWall }

/-- The state of the merged order. A terminal state is never left for a working one. -/
def Dialect.mergedState (d : Dialect) (known : SessionOrder) (o : ObservedUpdate)
    (acceptedFilled : Nat) : BoxOrderIntentState :=
  let state :=
    if o.verdict.sufficient then d.orderState o.label acceptedFilled known.quantity
    else known.state
  if isBrokerOrderTerminal known.state ∧ ¬ isBrokerOrderTerminal state then known.state else state

def Dialect.merge (d : Dialect) (known : SessionOrder) (o : ObservedUpdate) : SessionOrder :=
  -- a lower quantity is pinned to the known one, and nothing else of it is evidence
  let acceptedFilled := if o.regressed then known.filledQuantity else o.verdict.filledQuantity
  let averagePrice :=
    if o.verdict.averagePrice.isSome ∧ ¬ o.regressed then o.verdict.averagePrice
    else known.averagePrice
  let brokerOrderId := o.brokerOrderId <|> known.brokerOrderId
  { known with
    filledQuantity := acceptedFilled
    pendingQuantity := known.quantity - acceptedFilled
    averagePrice := averagePrice
    executionEvidence := if o.regressed then known.executionEvidence else some o.verdict.quality
    brokerOrderId := brokerOrderId
    state := d.mergedState known o acceptedFilled
    rejectReason :=
      if ¬ o.verdict.sufficient ∧ ¬ o.regressed then o.verdict.detail else known.rejectReason
    fills :=
      if 0 < acceptedFilled ∧ known.fills = [] then
        [{ fillId := ⟨d.fillOrigin, brokerOrderId.getD known.clientOrderId, acceptedFilled,
              averagePrice⟩
           quantity := acceptedFilled
           price := averagePrice
           time := o.observedAt }]
      else known.fills
    updatedAt := o.observedAt }

/-- The body the two adapters share. -/
def Dialect.applyOrderUpdate (d : Dialect) (s : Session) (update : ExternalOrderUpdate) :
    Option SessionOrder × Session :=
  match s.orders.get? update.clientOrderId with
  | none => (none, s)
  | some known =>
    let o := d.observe known update
    let merged := d.merge known o
    let clientByBroker :=
      match o.brokerOrderId with
      | some id =>
        if d.indexesBrokerId then s.clientByBroker.set id update.clientOrderId
        else s.clientByBroker
      | none => s.clientByBroker
    if o.regressed ∧ merged.state = known.state then
      (some known, { s with clientByBroker := clientByBroker })
    else
      (some merged,
        { orders := s.orders.set update.clientOrderId merged, clientByBroker := clientByBroker })

def kite (beyond : Char → List Char) : Dialect where
  orderState status filled quantity := kiteState beyond status filled (.finite quantity)
  fillOrigin := "kite:stream"
  indexesBrokerId := false

def dhan (beyond : Char → List Char) : Dialect where
  orderState status filled quantity := dhanOrderState beyond status filled quantity
  fillOrigin := "dhan:stream"
  indexesBrokerId := true

/-- `KiteBrokerAdapter.applyOrderUpdate` -/
def kiteApplyOrderUpdate (beyond : Char → List Char) :
    Session → ExternalOrderUpdate → Option SessionOrder × Session :=
  (kite beyond).applyOrderUpdate

/-- `DhanBrokerAdapter.applyOrderUpdate` -/
def dhanApplyOrderUpdate (beyond : Char → List Char) :
    Session → ExternalOrderUpdate → Option SessionOrder × Session :=
  (dhan beyond).applyOrderUpdate

section Tables

variable (beyond : Char → List Char) (state : BoxOrderIntentState) (filled quantity : Nat)

/-- The name of a state has no letter beyond ASCII. -/
theorem labelOf_text : labelOf beyond state.text = state.text := by
  have hascii : (trim state.text).toList.all (·.toNat < 128) := by
    cases state <;> decide +kernel
  rw [labelOf, toUpperCase_of_ascii (by simpa using hascii)]
  cases state <;> decide +kernel

/-- Kite's table on the name of a state. A request to cancel reads as a cancellation. -/
theorem kiteState_text : kiteState beyond state.text filled (.finite quantity) =
    match state with
    | .complete => .complete
    | .cancelRequested | .cancelled => .cancelled
    | .rejected => .rejected
    | .open => if partly filled quantity then .partiallyFilled else .open
    | _ => if partly filled quantity then .partiallyFilled else .unknown := by
  have hpart : (0 < filled ∧ Number.less (.finite filled) (.finite quantity)) ↔
      partly filled quantity := by
    simp [partly]
  simp only [kiteState, labelOf_text, hpart]
  generalize partly filled quantity = part
  cases state <;> cases part <;> decide +kernel

/-- Dhan's table on the name of a state. It has no name for a working order. -/
theorem dhanOrderState_text : dhanOrderState beyond state.text filled quantity =
    match state with
    | .cancelled => .cancelled
    | .rejected => .rejected
    | _ => .unknown := by
  rw [dhanOrderState, labelOf_text]
  cases state <;> simp [BoxOrderIntentState.text]

end Tables

end Strikedge.BrokerAdapter
