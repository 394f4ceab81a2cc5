import Strikedge.Machine.Number
import Strikedge.Machine.OrderedMap
import Strikedge.Reservations.Types
import Mathlib.Data.Finset.Basic
import Mathlib.Data.List.Sort

/-!
# Coordinator vocabulary

What an entry, an exit and an underlying claim are made of, and the identities and
keys the execution coordinator gives them. The clock, the active broker, the book
and the durable positions are read at every synchronous stretch: they are a `World`.
-/

namespace Strikedge.Coordinator

open Machine (trim)
open Reservations (InstrumentKey ReservationContext ReservationDurability RenewFailure
  RenewOutcome OwnershipDenial dedupeKeys)

/-- What `mintId` returns. The sequence number makes it unique in this process; the
process identity and the random suffix, which tell processes apart, are left out. -/
structure OwnerId where
  kind : String
  seq : Nat
  deriving DecidableEq, Repr

def OwnerId.text (id : OwnerId) : String := s!"{id.kind}-{id.seq}"

structure ReservationLease where
  owner : OwnerId
  keys : List InstrumentKey
  expiresAt : Int
  fence : Nat
  durability : ReservationDurability
  deriving DecidableEq, Repr

def toUpperCase (s : String) : String := String.ofList (s.toList.map Char.toUpper)

/-- `s.trim().toUpperCase()`: one spelling for a broker or an underlying. -/
def normalise (s : String) : String := toUpperCase (trim s)

structure BoxOptionInstrument where
  token : Nat
  tradingsymbol : String
  exchange : String := ""
  deriving DecidableEq, Repr

/-- The canonical key for one contract under one broker. -/
def instrumentKey (broker : String) (inst : BoxOptionInstrument) : InstrumentKey :=
  let symbol := trim inst.tradingsymbol
  if symbol ≠ "" then
    let exchange := if inst.exchange = "" then "NFO" else inst.exchange
    s!"{normalise broker}:{normalise exchange}:{symbol}"
  else s!"{normalise broker}:TOKEN:{inst.token}"

/-- `keysOf(boxInstrumentRefs(..))`: the distinct contracts, in key order. -/
def contractKeys (broker : String) (legs : List BoxOptionInstrument) : List InstrumentKey :=
  dedupeKeys ((legs.map (instrumentKey broker)).insertionSort (· ≤ ·))

def underlyingReservationKey (broker underlying : String) : InstrumentKey :=
  s!"{normalise broker}:UNDERLYING:{normalise underlying}"

structure BoxCandidate where
  key : String
  underlying : String
  legs : List BoxOptionInstrument
  deriving DecidableEq, Repr

/-- The position an exit closes. -/
structure BoxPosition where
  underlying : String
  legs : List BoxOptionInstrument
  deriving DecidableEq, Repr

structure BoxConfig where
  executionMode : String := "paper"
  reservationRequireDurable : Bool := false
  oneActiveBoxPerUnderlying : Bool := false
  maxConcurrentPerUnderlying : Nat := 0
  conflictWaitMaxMs : Int := 2000
  instrumentLockTtlMs : Int := 15000
  reservationUncertainHoldMaxMs : Int := 900000
  deployment : String := ""
  /-- whether `deps.reservations` is the chain of both tiers, or the in-process one alone -/
  chained : Bool := true
  /-- whether `deps.local` is given -/
  withLocal : Bool := true
  /-- whether `deps.sessionConsumeAttempt` is given -/
  consumesAttempts : Bool := false
  deriving DecidableEq, Repr

def BoxConfig.live (cfg : BoxConfig) : Bool := cfg.executionMode = "live"

/-- `deps.reservations.name`. -/
def BoxConfig.storeName (cfg : BoxConfig) : String :=
  if cfg.chained then "in-process+postgres" else "in-process"

/-- What the armed trading session answers an entry. -/
structure SessionVerdict where
  allowed : Bool
  reason : Option String := none
  detail : Option String := none
  deriving DecidableEq, Repr

/-- Everything a synchronous stretch reads from outside the coordinator. -/
structure World where
  broker : String := "ZERODHA"
  generation : Nat := 0
  now : Int := 0
  /-- `deps.sessionEntryGate?.()` -/
  sessionGate : Option SessionVerdict := none
  /-- underlyings with durable exposure, each with the text that describes it -/
  activeUnderlyings : List (String × String) := []
  /-- why the candidate no longer qualifies on the current book, when it does not -/
  revalidation : Option String := none
  deriving DecidableEq, Repr

def World.context (w : World) (cfg : BoxConfig) : ReservationContext where
  deployment := cfg.deployment
  broker := w.broker
  generation := w.generation
  mode := cfg.executionMode

/-- The claim key for an underlying under the current broker. -/
def World.positionClaimKey (w : World) (underlying : String) : String :=
  s!"{normalise w.broker}:{normalise underlying}"

/-- Who depends on an underlying claim. -/
inductive Holder where
  | pipeline (executionId : OwnerId)
  | trade (tradeId : String)
  | residual (attemptId : String)
  deriving DecidableEq, Repr

structure ActiveExecution where
  keys : List InstrumentKey
  underlying : String
  /-- `none` until the reservation is granted -/
  lease : Option ReservationLease
  context : ReservationContext
  ownershipLost : Bool := false
  ownershipLossReason : Option RenewFailure := none
  opportunityId : Option String
  deriving DecidableEq, Repr

structure UncertainHold where
  lease : ReservationLease
  context : ReservationContext
  keys : List InstrumentKey
  heldSince : Int
  reason : String
  deriving DecidableEq, Repr

/-- A reservation on one underlying key, held for as long as anything depends on it. -/
structure PositionUnderlyingClaim where
  owner : OwnerId
  lease : ReservationLease
  context : ReservationContext
  underlying : String
  holders : Finset Holder
  claimedAt : Int
  ownershipLost : Bool := false
  deriving DecidableEq

inductive BoxExecutionFailureReason where
  | duplicate
  | sessionLimitReached
  | underlyingAlreadyActive
  | feedUnhealthy
  | priceMoved
  | edgeDisappeared
  | leggingIncomplete
  | unwindFailed
  | other (reason : String)
  deriving DecidableEq, Repr

/-- Why `coordinateEntry` returned `ok: false`. -/
structure Refusal where
  reason : BoxExecutionFailureReason
  detail : String
  deriving DecidableEq, Repr

inductive Uncertainty where
  | clean
  | uncertain
  deriving DecidableEq, Repr

/-- What the inner gateway reports of an execution. -/
structure ExecutionResult where
  ok : Bool
  reason : Option BoxExecutionFailureReason := none
  /-- `legging?.trade_id` -/
  tradeId : Option String := none
  residualExposure : Nat := 0
  deriving DecidableEq, Repr

/-- Was the terminal state knowable? -/
def uncertaintyOf (r : ExecutionResult) : Uncertainty :=
  if 0 < r.residualExposure then .uncertain
  else if r.ok then .clean
  else if r.reason = some .leggingIncomplete ∨ r.reason = some .unwindFailed then .uncertain
  else .clean

end Strikedge.Coordinator
