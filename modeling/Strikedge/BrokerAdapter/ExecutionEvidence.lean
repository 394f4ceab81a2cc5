import Strikedge.Machine.Number
import Strikedge.Orders.Types

/-!
# What a broker snapshot proves

`brokerExecutionEvidence.ts`. A quantity or a price a broker did not supply is absent, which
is not the same as zero. A snapshot proves its state when it carries a quantity, or when the
state it claims freezes no accounting.
-/

namespace Strikedge.BrokerAdapter

open Machine Orders

/-- `readNonNegativeInteger` -/
def readNonNegativeInteger (candidate : Option Number) : Option Nat :=
  (candidate.bind Number.finite?).bind fun n =>
    if n < 0 ∨ n.den ≠ 1 then none else some n.num.toNat

/-- `readPositivePrice` -/
def readPositivePrice (candidate : Option Number) : Option ℚ :=
  (candidate.bind Number.finite?).filter (0 < ·)

inductive QuantityQuality where
  | confirmed
  | missing
  deriving DecidableEq, Repr

inductive PriceQuality where
  | confirmed
  | missing
  | notApplicable
  deriving DecidableEq, Repr

inductive AccountingQuality where
  | complete
  | pendingPrice
  | unproven
  deriving DecidableEq, Repr

structure ExecutionEvidenceQuality where
  quantity : QuantityQuality
  price : PriceQuality
  accounting : AccountingQuality
  deriving DecidableEq, Repr

structure ExecutionEvidenceVerdict where
  sufficient : Bool
  filledQuantity : Nat
  averagePrice : Option ℚ
  accountingComplete : Bool
  quality : ExecutionEvidenceQuality
  detail : Option String
  deriving DecidableEq, Repr

/-- The states after which nothing more is read. -/
def freezesAccounting : BoxOrderIntentState → Bool
  | .complete | .cancelled | .rejected | .partiallyFilled => true
  | _ => false

/-- `evaluateExecutionEvidence`. An observed number is none where it is absent; the requested
quantity, which the function does not read, is left out. -/
def evaluateExecutionEvidence (statusLabel : String) (claimedState : BoxOrderIntentState)
    (priorFilled : Nat) (quantity : Option Nat) (price : Option ℚ) : ExecutionEvidenceVerdict :=
  match quantity with
  | none =>
    if freezesAccounting claimedState then
      { sufficient := false
        filledQuantity := priorFilled
        averagePrice := price
        accountingComplete := false
        quality :=
          { quantity := .missing
            price := if price.isSome then .confirmed else .missing
            accounting := .unproven }
        detail := some <|
          s!"broker reported '{statusLabel}' with no cumulative filled quantity; " ++
            "the execution is unproven and must be reconciled before it is accounted for" }
    else
      -- a working order without a fill field
      { sufficient := true
        filledQuantity := priorFilled
        averagePrice := price
        accountingComplete := true
        quality :=
          { quantity := .missing
            price :=
              if 0 < priorFilled then (if price.isSome then .confirmed else .missing)
              else .notApplicable
            accounting :=
              if 0 < priorFilled ∧ price.isNone then .pendingPrice else .complete }
        detail := none }
  | some observed =>
    let filled := max priorFilled observed
    let lower := if observed < priorFilled then
        some ("a later read reported a lower cumulative quantity; " ++
          "the higher observation stands")
      else none
    if filled = 0 then
      { sufficient := true
        filledQuantity := 0
        averagePrice := none
        accountingComplete := true
        quality := { quantity := .confirmed, price := .notApplicable, accounting := .complete }
        detail := lower }
    else
      { sufficient := true
        filledQuantity := filled
        averagePrice := price
        accountingComplete := price.isSome
        quality :=
          { quantity := .confirmed
            price := if price.isSome then .confirmed else .missing
            accounting := if price.isSome then .complete else .pendingPrice }
        detail :=
          if price.isSome then lower
          else some <|
            s!"broker confirmed {filled} filled but published no average price; exposure " ++
              "stands, P&L and charges must not be asserted until the price is reconciled" }

@[simp] theorem readNonNegativeInteger_natCast (n : Nat) :
    readNonNegativeInteger (some (.finite n)) = some n := by
  rw [readNonNegativeInteger]
  simp

theorem readPositivePrice_finite (p : ℚ) :
    readPositivePrice (some (.finite p)) = if 0 < p then some p else none := by
  rw [readPositivePrice]
  by_cases hpos : 0 < p
  · simp [hpos, Option.filter]
  · simp [hpos, Option.filter]

section Verdict

variable {label : String} {state : BoxOrderIntentState} {prior : Nat} {quantity : Option Nat}
variable {price : Option ℚ}

/-- A snapshot proves too little only when it has no quantity and claims to be final. -/
theorem sufficient_iff :
    (evaluateExecutionEvidence label state prior quantity price).sufficient ↔
      ¬ (quantity = none ∧ freezesAccounting state) := by
  rw [evaluateExecutionEvidence.eq_def]
  cases quantity with
  | none =>
    dsimp only
    cases freezesAccounting state with
    | false => simp
    | true => simp
  | some observed =>
    dsimp only
    split
    · simp
    · simp

/-- A quantity that is absent or the one known already leaves the known one. -/
theorem filledQuantity_of_same (h : ∀ observed ∈ quantity, observed = prior) :
    (evaluateExecutionEvidence label state prior quantity price).filledQuantity = prior := by
  rw [evaluateExecutionEvidence.eq_def]
  cases quantity with
  | none =>
    dsimp only
    split <;> rfl
  | some observed =>
    obtain rfl := h observed rfl
    dsimp only
    split
    · next hzero =>
      show 0 = observed
      omega
    · exact Nat.max_self observed

/-- A price in a verdict is the price observed. -/
theorem price_of_averagePrice {p : ℚ}
    (h : (evaluateExecutionEvidence label state prior quantity price).averagePrice = some p) :
    price = some p := by
  rw [evaluateExecutionEvidence.eq_def] at h
  cases quantity with
  | none =>
    dsimp only at h
    split at h <;> exact h
  | some observed =>
    dsimp only at h
    split at h
    · cases h
    · exact h

end Verdict

end Strikedge.BrokerAdapter
