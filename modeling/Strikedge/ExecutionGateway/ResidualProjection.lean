import Mathlib.Data.List.Sort
import Strikedge.ExecutionGateway.ResidualAccounting

/-!
# The projection command of a flatten pass

`executionAttemptProjection.ts`. A pass over the residual legs of an attempt becomes a
command that carries the rows before and after it, their content identities and the charge
it bills. The identity hashes a canonical form of the rows, and a command that changes
neither the identity nor the charges is dropped before the store sees it.

The fields `average_price` and `source` of a leg, which no pass writes and no function here
reads apart from the hash, are left out.
-/

namespace Strikedge.ExecutionGateway

open Machine Orders

/-- What the canonical form keeps of a leg. -/
structure CanonicalLeg where
  role : BoxLegRole
  token : Nat
  tradingsymbol : String
  exchange : String
  side : OrderSide
  quantity : Nat
  createdAt : Nat
  flattenAttempt : Int
  deriving DecidableEq, Repr

def canonicalLeg (leg : ResidualLegExposure) : CanonicalLeg where
  role := leg.role
  token := leg.token
  tradingsymbol := leg.tradingsymbol
  exchange := leg.exchange.getD "NFO"
  side := leg.side
  quantity := leg.quantity
  createdAt := leg.createdAt
  flattenAttempt := leg.flattenAttempt.getD 1

/-- What the application id of a command hashes. -/
structure ApplicationContent (δ : Type) where
  attemptId : String
  expectedVersion : Nat
  expectedProjectionIdentity : δ
  nextProjectionIdentity : δ
  flattenChargeDelta : Nat
  flattenChargeDay : String
  deriving DecidableEq, Repr

/-- The platform's part of a content identity: how two legs compare as text, and the digests
of the text of a canonical form and of an application. -/
structure ContentHash (δ : Type) where
  precedes : CanonicalLeg → CanonicalLeg → Bool
  residual : List CanonicalLeg → δ
  application : ApplicationContent δ → δ

structure BoxExecutionAttemptProjectionCommand (δ : Type) where
  applicationId : δ
  expectedVersion : Nat
  expectedProjectionIdentity : δ
  expectedResidualExposure : List ResidualLegExposure
  nextProjectionIdentity : δ
  residualExposure : List ResidualLegExposure
  flattenChargeDelta : Nat
  flattenChargeDay : String
  deriving DecidableEq, Repr

section Command

variable {δ : Type} (hash : ContentHash δ)

def canonicalResidual (residual : List ResidualLegExposure) : List CanonicalLeg :=
  (residual.map canonicalLeg).insertionSort (hash.precedes · ·)

def residualProjectionIdentity (residual : List ResidualLegExposure) : δ :=
  hash.residual (canonicalResidual hash residual)

/-- `/^\d{4}-\d{2}-\d{2}$/` -/
def isDayKey (day : String) : Bool :=
  match day.toList with
  | [a, b, c, d, '-', e, f, '-', g, h] => [a, b, c, d, e, f, g, h].all Char.isDigit
  | _ => false

/-- `createResidualProjectionCommand`. Charges are whole paise, and a version or a charge
that is not a number reads like a negative one. -/
def createResidualProjectionCommand (attemptId : String) (expectedVersion : Int)
    (expectedResidual nextResidual : List ResidualLegExposure) (flattenChargeDelta : Int)
    (flattenChargeDay : String) : BoxExecutionAttemptProjectionCommand δ :=
  let version := if 0 ≤ expectedVersion then expectedVersion.toNat else 0
  let expectedIdentity := residualProjectionIdentity hash expectedResidual
  let nextIdentity := residualProjectionIdentity hash nextResidual
  let delta := if 0 < flattenChargeDelta then flattenChargeDelta.toNat else 0
  let day := if isDayKey flattenChargeDay then flattenChargeDay else "unattributed"
  { applicationId := hash.application
      { attemptId := attemptId
        expectedVersion := version
        expectedProjectionIdentity := expectedIdentity
        nextProjectionIdentity := nextIdentity
        flattenChargeDelta := delta
        flattenChargeDay := day }
    expectedVersion := version
    expectedProjectionIdentity := expectedIdentity
    expectedResidualExposure := expectedResidual
    nextProjectionIdentity := nextIdentity
    residualExposure := nextResidual
    flattenChargeDelta := delta
    flattenChargeDay := day }

/-- The pass moves durable exposure or a generation, or records a charge. -/
def residualProjectionChanges [DecidableEq δ]
    (command : BoxExecutionAttemptProjectionCommand δ) : Bool :=
  decide (command.expectedProjectionIdentity ≠ command.nextProjectionIdentity) ||
    decide (0 < command.flattenChargeDelta)

end Command

/-- A digest that keeps what it digests. -/
inductive PlainDigest where
  | residual (legs : List CanonicalLeg)
  | application (attemptId : String) (expectedVersion : Nat)
      (expectedProjectionIdentity nextProjectionIdentity : PlainDigest)
      (flattenChargeDelta : Nat) (flattenChargeDay : String)
  deriving DecidableEq

/-- The content hash of samples. -/
def plainHash : ContentHash PlainDigest where
  precedes a b := decide (a.role.text ++ a.tradingsymbol ≤ b.role.text ++ b.tradingsymbol)
  residual := .residual
  application content :=
    .application content.attemptId content.expectedVersion content.expectedProjectionIdentity
      content.nextProjectionIdentity content.flattenChargeDelta content.flattenChargeDay

theorem plainHash_residual_injective : Function.Injective plainHash.residual :=
  fun _ _ h => PlainDigest.residual.inj h

end Strikedge.ExecutionGateway
