import Strikedge.Machine.OrderedMap
import Strikedge.Orders.Types

/-!
# The durable intent journal

`box_order_intents` with its audit table. `createBoxOrderIntent` inserts a row or returns
the one that exists, `updateBoxOrderIntent` is a guarded compare-and-set under a row lock
that reports the fill before and after its own write. The guard and the constraints of
the table are a `Persistence`: `repository` is the one the code installs, and results
about attribution hold for every other one that keeps fills monotone.
-/

namespace Strikedge.Orders

/-- `BoxOrderIntentPatch`: a field that is absent is left alone, a field that is present
is written, `null` included. -/
structure BoxOrderIntentPatch where
  brokerOrderId : Option (Option String) := none
  state : Option BoxOrderIntentState := none
  filledQuantity : Option Nat := none
  brokerTag : Option (Option String) := none
  rejectReason : Option (Option String) := none
  deriving DecidableEq, Repr

/-- The row a patch makes of another, its audit aside. -/
def BoxOrderIntentPatch.apply (p : BoxOrderIntentPatch) (row : BoxOrderIntent) :
    BoxOrderIntent :=
  { row with
    brokerOrderId := p.brokerOrderId.getD row.brokerOrderId
    state := p.state.getD row.state
    filledQuantity := p.filledQuantity.getD row.filledQuantity
    brokerTag := p.brokerTag.getD row.brokerTag
    rejectReason := p.rejectReason.getD row.rejectReason }

/-- Append an audit entry once per audit id. -/
def BoxOrderIntent.recordAudit (row : BoxOrderIntent) (audit : BoxOrderIntentAudit) :
    BoxOrderIntent :=
  if row.audit.any (·.auditId = audit.auditId) then row
  else { row with audit := row.audit ++ [audit] }

/-- `OrderIntentUpdateResult`. A refused or a performed write reports the row and the fill
before and after it. -/
inductive UpdateResult where
  | missing
  | refused (row : BoxOrderIntent)
  | applied (row : BoxOrderIntent) (previous current : Nat)
  deriving DecidableEq, Repr

/-- `INTENT_STATE_PREDECESSORS` -/
def intentStatePredecessors : BoxOrderIntentState → List BoxOrderIntentState
  | .created => [.created]
  | .submitting => [.created, .submitting]
  | .acknowledged => [.submitting, .acknowledged, .unknown, .reconciliationRequired]
  | .open => [.submitting, .acknowledged, .open, .unknown, .reconciliationRequired]
  | .partiallyFilled =>
      [.acknowledged, .open, .partiallyFilled, .unknown, .reconciliationRequired]
  | .complete =>
      [.submitting, .acknowledged, .open, .partiallyFilled, .cancelRequested, .cancelled,
        .unknown, .reconciliationRequired, .complete]
  | .cancelRequested =>
      [.acknowledged, .open, .partiallyFilled, .cancelRequested, .unknown,
        .reconciliationRequired]
  | .cancelled =>
      [.acknowledged, .open, .partiallyFilled, .cancelRequested, .unknown,
        .reconciliationRequired, .cancelled]
  | .rejected => [.created, .submitting, .acknowledged, .open, .rejected]
  | .unknown =>
      [.created, .submitting, .acknowledged, .open, .partiallyFilled, .cancelRequested,
        .unknown, .reconciliationRequired]
  | .reconciliationRequired =>
      [.created, .submitting, .acknowledged, .open, .partiallyFilled, .cancelRequested,
        .unknown, .reconciliationRequired]

/-- The four conditions `updateBoxOrderIntent` tests on the locked row. -/
def updateAdmitted (before : BoxOrderIntent) (patch : BoxOrderIntentPatch)
    (expectedStates : Option (List BoxOrderIntentState)) : Bool :=
  let stateOk := patch.state.all fun s => before.state ∈ intentStatePredecessors s
  let expectedOk := expectedStates.all fun states => before.state ∈ states
  let fillOk := patch.filledQuantity.all fun q => before.filledQuantity ≤ q
  -- an absent id, a null one and an empty one all pass as "no id"
  let brokerOk := (patch.brokerOrderId.join.filter (· ≠ "")).all fun id =>
    before.brokerOrderId = none ∨ before.brokerOrderId = some id
  stateOk && expectedOk && fillOk && brokerOk

/-- The rows of the table, each under its client order id, and the audit table. -/
structure Journal where
  rows : OrderedMap ClientOrderId BoxOrderIntent
  transitions : List (ClientOrderId × BoxOrderIntentAudit)
  keyed : ∀ id row, rows.get? id = some row → row.clientOrderId = id

namespace Journal

def empty : Journal := ⟨∅, [], by simp⟩

def find (j : Journal) (id : ClientOrderId) : Option BoxOrderIntent := j.rows.get? id

/-- `ON CONFLICT (audit_id) DO NOTHING` -/
def recordTransition (j : Journal) (id : ClientOrderId) (audit : BoxOrderIntentAudit) :
    Journal :=
  if j.transitions.any (·.2.auditId = audit.auditId) then j
  else { j with transitions := j.transitions ++ [(id, audit)] }

def put (j : Journal) (row : BoxOrderIntent) : Journal where
  rows := j.rows.set row.clientOrderId row
  transitions := j.transitions
  keyed id r h := by
    rw [OrderedMap.get?_set] at h
    by_cases hid : id = row.clientOrderId
    · rw [if_pos hid] at h
      rw [hid, Option.some.inj h]
    · rw [if_neg hid] at h
      exact j.keyed id r h

/-- `loadNonterminalBoxOrderIntents` -/
def loadNonterminal (j : Journal) : List BoxOrderIntent :=
  j.rows.values.filter fun row => !isBrokerOrderTerminal row.state

/-- `loadOwnedBoxOrderIntents`: the latest row first. -/
def loadOwned (j : Journal) : List BoxOrderIntent := j.rows.values.reverse

section Basic

variable {j : Journal} {row : BoxOrderIntent} {audit : BoxOrderIntentAudit}
variable {id x : ClientOrderId}

@[simp] theorem find_put : (j.put row).find x =
    if x = row.clientOrderId then some row else j.find x := by
  simp [put, find]

@[simp] theorem transitions_put : (j.put row).transitions = j.transitions := rfl

@[simp] theorem find_recordTransition : (j.recordTransition id audit).find x = j.find x := by
  rw [recordTransition]
  split <;> rfl

@[simp] theorem rows_recordTransition : (j.recordTransition id audit).rows = j.rows := by
  rw [recordTransition]
  split <;> rfl

end Basic

end Journal

/-- The decisions a persistence layer takes about one update: whether its guard admits
the write, and whether the write breaks a constraint of the table and throws. -/
structure Persistence where
  admits : BoxOrderIntent → BoxOrderIntentPatch → Option (List BoxOrderIntentState) → Bool
  violates : Journal → BoxOrderIntent → Option String
  /-- an admitted write never lowers the fill -/
  monotone : ∀ row patch expected q, admits row patch expected = true →
    patch.filledQuantity = some q → row.filledQuantity ≤ q

/-- The constraints of `box_order_intents` an update can break. -/
def constraintViolation (j : Journal) (after : BoxOrderIntent) : Option String :=
  if after.quantity < after.filledQuantity then some "box_order_intents_filled_le_qty"
  else if after.brokerOrderId.isSome &&
      j.rows.values.any (fun row => row.clientOrderId ≠ after.clientOrderId &&
        row.brokerOrderId = after.brokerOrderId) then
    some "box_order_intent_broker_order_id"
  else none

/-- The persistence layer the code installs. -/
def repository : Persistence where
  admits := updateAdmitted
  violates := constraintViolation
  monotone row patch expected q h hq := by
    simp only [updateAdmitted, hq, Option.all_some, Bool.and_eq_true, decide_eq_true_eq] at h
    exact h.1.2

/-- The first immutable field in which a proposed intent differs from the row its client
order id already has. -/
def immutableMismatch (existing proposed : BoxOrderIntent) : Option String :=
  if existing.tradeId ≠ proposed.tradeId then some "trade_id"
  else if existing.attemptId ≠ proposed.attemptId then some "attempt_id"
  else if existing.role ≠ proposed.role then some "role"
  else if existing.purpose ≠ proposed.purpose then some "purpose"
  else if existing.phase ≠ proposed.phase then some "phase"
  else if existing.exchange ≠ proposed.exchange then some "exchange"
  else if existing.tradingsymbol ≠ proposed.tradingsymbol then some "tradingsymbol"
  else if existing.token ≠ proposed.token then some "token"
  else if existing.side ≠ proposed.side then some "side"
  else if existing.quantity ≠ proposed.quantity then some "quantity"
  else if existing.pricing.referencePrice ≠ proposed.pricing.referencePrice then
    some "reference_price"
  else if existing.pricing.tickSize ≠ proposed.pricing.tickSize then some "tick_size"
  else if existing.pricing.maxChaseTicks ≠ proposed.pricing.maxChaseTicks then
    some "max_chase_ticks"
  else if existing.pricing.limitPrice ≠ proposed.pricing.limitPrice then some "limit_price"
  else none

namespace Journal

/-- `createBoxOrderIntent`: insert, or return the original row of a client order id. -/
def createBoxOrderIntent (j : Journal) (intent : BoxOrderIntent) :
    Journal × Except String BoxOrderIntent :=
  match j.find intent.clientOrderId with
  | none => (j.put intent, .ok intent)
  | some row =>
      match immutableMismatch row intent with
      | none => (j, .ok row)
      | some field =>
          let id := intent.clientOrderId
          (j, .error s!"Client order id {id} was reused with different immutable field {field}.")

/-- `updateBoxOrderIntent`. A write that breaks a constraint rolls back and throws. -/
def updateBoxOrderIntent (store : Persistence) (j : Journal) (id : ClientOrderId)
    (patch : BoxOrderIntentPatch) (audit : BoxOrderIntentAudit)
    (expectedStates : Option (List BoxOrderIntentState)) :
    Journal × Except String UpdateResult :=
  match j.find id with
  | none => (j, .ok .missing)
  | some before =>
      if store.admits before patch expectedStates then
        let after := (patch.apply before).recordAudit audit
        match store.violates j after with
        | some constraint => (j, .error constraint)
        | none =>
            let written := j.put after
            let audited :=
              if before.audit.any (·.auditId = audit.auditId) then written
              else written.recordTransition id audit
            (audited, .ok (.applied after before.filledQuantity after.filledQuantity))
      else (j, .ok (.refused before))

end Journal

section Lemmas

variable {row : BoxOrderIntent} {patch : BoxOrderIntentPatch} {audit : BoxOrderIntentAudit}

@[simp] theorem recordAudit_clientOrderId :
    (row.recordAudit audit).clientOrderId = row.clientOrderId := by
  rw [BoxOrderIntent.recordAudit]
  split <;> rfl

@[simp] theorem recordAudit_filledQuantity :
    (row.recordAudit audit).filledQuantity = row.filledQuantity := by
  rw [BoxOrderIntent.recordAudit]
  split <;> rfl

@[simp] theorem recordAudit_state : (row.recordAudit audit).state = row.state := by
  rw [BoxOrderIntent.recordAudit]
  split <;> rfl

@[simp] theorem recordAudit_brokerOrderId :
    (row.recordAudit audit).brokerOrderId = row.brokerOrderId := by
  rw [BoxOrderIntent.recordAudit]
  split <;> rfl

@[simp] theorem recordAudit_symbol : (row.recordAudit audit).symbol = row.symbol := by
  rw [BoxOrderIntent.recordAudit]
  split <;> rfl

@[simp] theorem recordAudit_side : (row.recordAudit audit).side = row.side := by
  rw [BoxOrderIntent.recordAudit]
  split <;> rfl

@[simp] theorem recordAudit_quantity : (row.recordAudit audit).quantity = row.quantity := by
  rw [BoxOrderIntent.recordAudit]
  split <;> rfl

@[simp] theorem apply_clientOrderId : (patch.apply row).clientOrderId = row.clientOrderId := rfl

@[simp] theorem apply_symbol : (patch.apply row).symbol = row.symbol := rfl

@[simp] theorem apply_side : (patch.apply row).side = row.side := rfl

@[simp] theorem apply_audit : (patch.apply row).audit = row.audit := rfl

@[simp] theorem apply_filledQuantity :
    (patch.apply row).filledQuantity = patch.filledQuantity.getD row.filledQuantity := rfl

@[simp] theorem apply_state : (patch.apply row).state = patch.state.getD row.state := rfl

@[simp] theorem apply_brokerOrderId :
    (patch.apply row).brokerOrderId = patch.brokerOrderId.getD row.brokerOrderId := rfl

/-- An admitted write never lowers the fill. -/
theorem Persistence.fill_le (store : Persistence)
    {expected : Option (List BoxOrderIntentState)}
    (h : store.admits row patch expected = true) :
    row.filledQuantity ≤ (patch.apply row).filledQuantity := by
  rw [apply_filledQuantity]
  cases hq : patch.filledQuantity with
  | none => exact Nat.le_refl _
  | some q => exact store.monotone _ _ _ q h hq

end Lemmas

/-- What one update can do: nothing, or replace one row by its patched self. -/
theorem Journal.update_cases {store : Persistence} {j j' : Journal} {id : ClientOrderId}
    {patch : BoxOrderIntentPatch} {audit : BoxOrderIntentAudit}
    {expected : Option (List BoxOrderIntentState)} {result : Except String UpdateResult}
    (h : j.updateBoxOrderIntent store id patch audit expected = (j', result)) :
    (j' = j ∧ (result = .ok .missing ∨ (∃ message, result = .error message) ∨
      ∃ row, j.find id = some row ∧ result = .ok (.refused row))) ∨
    ∃ before, j.find id = some before ∧ store.admits before patch expected = true ∧
      store.violates j ((patch.apply before).recordAudit audit) = none ∧
      j'.rows = (j.put ((patch.apply before).recordAudit audit)).rows ∧
      result = .ok (.applied ((patch.apply before).recordAudit audit) before.filledQuantity
        ((patch.apply before).recordAudit audit).filledQuantity) := by
  rw [updateBoxOrderIntent] at h
  cases hrow : j.find id with
  | none =>
      simp only [hrow, Prod.mk.injEq] at h
      exact .inl ⟨h.1.symm, .inl h.2.symm⟩
  | some before =>
      simp only [hrow] at h
      by_cases hadmit : store.admits before patch expected = true
      · rw [if_pos hadmit] at h
        cases hviolates : store.violates j ((patch.apply before).recordAudit audit) with
        | some constraint =>
            simp only [hviolates, Prod.mk.injEq] at h
            exact .inl ⟨h.1.symm, .inr (.inl ⟨constraint, h.2.symm⟩)⟩
        | none =>
            simp only [hviolates, Prod.mk.injEq] at h
            refine .inr ⟨before, rfl, hadmit, hviolates, ?_, h.2.symm⟩
            rw [← h.1]
            split
            · rfl
            · exact Journal.rows_recordTransition
      · rw [if_neg hadmit, Prod.mk.injEq] at h
        exact .inl ⟨h.1.symm, .inr (.inr ⟨before, rfl, h.2.symm⟩)⟩

end Strikedge.Orders
