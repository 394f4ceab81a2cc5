import Strikedge.Coordinator.Types

/-!
# The coordinator's bookkeeping

The state of `CoordinatedBoxExecutionGateway` and the operations on it that run
without yielding: claim, grant and abandon an execution, retain an ambiguous one, add
or drop a holder of an underlying claim. Counters, logs and the heartbeat's timer are
left out. What the gateway asks a reservation tier to release is returned as a list of
calls, in the order they are made.
-/

namespace Strikedge.Coordinator

open Reservations (InstrumentKey ReservationContext ReservationDurability RenewFailure)

inductive TierName where
  | inProcess
  | durable
  deriving DecidableEq, Repr

/-- One tier's part of a `releaseLease`. -/
structure ReleaseCall where
  tier : TierName
  owner : OwnerId
  /-- absent: every key of the owner -/
  keys : Option (List InstrumentKey)
  /-- the chain swallows what a tier throws, a bare tier does not -/
  swallows : Bool
  deriving DecidableEq, Repr

/-- `releaseLease`: the store first, the durable tier before the local one, then the
local tier again where it is not the store itself. -/
def releaseLease (cfg : BoxConfig) (executionId : OwnerId) (lease : Option ReservationLease) :
    ReleaseCall × List ReleaseCall :=
  let keys := lease.map (·.keys)
  if cfg.chained then
    (⟨.durable, executionId, keys, true⟩,
      ⟨.inProcess, executionId, keys, true⟩ ::
        if cfg.withLocal then [⟨.inProcess, executionId, none, false⟩] else [])
  else (⟨.inProcess, executionId, keys, false⟩, [])

/-- A loss of ownership `renewTick` raised as an invariant violation. `wasActive` is
history: whether the execution was in `active` when it was raised. -/
structure OwnershipLoss where
  execution : OwnerId
  reason : RenewFailure
  wasActive : Bool
  deriving DecidableEq, Repr

structure Gateway where
  seq : Nat := 0
  active : OrderedMap OwnerId ActiveExecution := ∅
  /-- leases kept because a terminal broker state was ambiguous -/
  holds : OrderedMap OwnerId UncertainHold := ∅
  positionClaims : OrderedMap String PositionUnderlyingClaim := ∅
  activeOpportunities : OrderedMap String OwnerId := ∅
  heartbeatRunning : Bool := false
  /-- what `renewTick` has raised, newest first -/
  violations : List OwnershipLoss := []

namespace Gateway

def mintId (g : Gateway) (kind : String) : OwnerId × Gateway :=
  (⟨kind, g.seq + 1⟩, { g with seq := g.seq + 1 })

/-- The incumbent that makes an opportunity a duplicate. -/
def duplicateOf (g : Gateway) (opportunityId : String) : Option OwnerId :=
  (g.activeOpportunities.get? opportunityId).filter fun incumbent => g.active.has incumbent

/-- Running executions on one underlying. -/
def sameUnderlying (g : Gateway) (underlying : String) : Nat :=
  (g.active.values.filter fun entry => entry.underlying = underlying).length

def claim (g : Gateway) (executionId : OwnerId) (opportunityId underlying : String)
    (keys : List InstrumentKey) (context : ReservationContext) : Gateway :=
  { g with
    active := g.active.set executionId
      { keys, underlying, lease := none, context, opportunityId := some opportunityId }
    activeOpportunities := g.activeOpportunities.set opportunityId executionId }

/-- Register an exit's execution, once its reservation is granted. -/
def registerActive (g : Gateway) (executionId : OwnerId) (keys : List InstrumentKey)
    (underlying : String) (lease : ReservationLease) (context : ReservationContext) : Gateway :=
  { g with
    active := g.active.set executionId
      { keys, underlying, lease := some lease, context, opportunityId := none } }

/-- Attach the granted reservation to an already claimed execution. -/
def grant (g : Gateway) (executionId : OwnerId) (keys : List InstrumentKey)
    (lease : ReservationLease) (context : ReservationContext) : Gateway :=
  match g.active.get? executionId with
  | none => g
  | some exec =>
      { g with active := g.active.set executionId { exec with keys, lease := some lease, context } }

def abandon (g : Gateway) (executionId : OwnerId) : Gateway :=
  match g.active.get? executionId with
  | none => g
  | some exec =>
      { g with
        active := g.active.delete executionId
        activeOpportunities :=
          match exec.opportunityId with
          | none => g.activeOpportunities
          | some opportunityId =>
              if g.activeOpportunities.get? opportunityId = some executionId then
                g.activeOpportunities.delete opportunityId
              else g.activeOpportunities }

/-- `abandon`, then `activeOpportunities.delete`, whoever the opportunity maps to. -/
def conclude (g : Gateway) (executionId : OwnerId) (opportunityId : Option String) : Gateway :=
  let g := g.abandon executionId
  match opportunityId with
  | none => g
  | some opportunityId =>
      { g with activeOpportunities := g.activeOpportunities.delete opportunityId }

def retain (g : Gateway) (executionId : OwnerId) (exec : Option ActiveExecution)
    (why : String) (now : Int) : Gateway :=
  match exec with
  | none => g
  | some exec =>
      match exec.lease with
      | none => g
      | some lease =>
          if exec.ownershipLost then g
          else
            { g with
              holds := g.holds.set executionId
                { lease, context := exec.context, keys := exec.keys, heldSince := now,
                  reason := why } }

def holdOnUncertainty (g : Gateway) (executionId : OwnerId) (opportunityId : Option String)
    (why : String) (now : Int) : Gateway :=
  (g.conclude executionId opportunityId).retain executionId (g.active.get? executionId) why now

/-- Add a holder to a claim that exists. -/
def addHolder (g : Gateway) (claimKey : String) (holder : Holder) : Gateway :=
  match g.positionClaims.get? claimKey with
  | none => g
  | some claim =>
      { g with
        positionClaims := g.positionClaims.set claimKey
          { claim with holders := insert holder claim.holders } }

/-- Record a freshly acquired claim, over whatever is recorded under its key. -/
def recordClaim (g : Gateway) (claimKey : String) (claim : PositionUnderlyingClaim) : Gateway :=
  { g with positionClaims := g.positionClaims.set claimKey claim }

/-- `dropUnderlyingHolder`: drop one holder, releasing the claim when the last one goes. -/
def dropUnderlyingHolder (cfg : BoxConfig) (w : World) (g : Gateway) (underlying : String)
    (holder : Holder) : Gateway × Option (ReleaseCall × List ReleaseCall) :=
  let claimKey := w.positionClaimKey underlying
  match g.positionClaims.get? claimKey with
  | none => (g, none)
  | some claim =>
      let holders := claim.holders.erase holder
      if holders.Nonempty then
        ({ g with positionClaims := g.positionClaims.set claimKey { claim with holders } }, none)
      else
        ({ g with positionClaims := g.positionClaims.delete claimKey },
          some (releaseLease cfg claim.owner (some claim.lease)))

/-- `releasePipelineHold`, for the underlying `active` records. -/
def releasePipelineHold (cfg : BoxConfig) (w : World) (g : Gateway) (executionId : OwnerId)
    (underlying : Option String) : Gateway × Option (ReleaseCall × List ReleaseCall) :=
  match underlying with
  | none => (g, none)
  | some underlying =>
      if cfg.oneActiveBoxPerUnderlying ∧ underlying ≠ "" then
        g.dropUnderlyingHolder cfg w underlying (.pipeline executionId)
      else (g, none)

/-- Abandon an execution and release its underlying pipeline hold. -/
def abandonAndReleaseHold (cfg : BoxConfig) (w : World) (g : Gateway) (executionId : OwnerId) :
    Gateway × Option (ReleaseCall × List ReleaseCall) :=
  let (g', release) := g.releasePipelineHold cfg w executionId
    ((g.active.get? executionId).map (·.underlying))
  (g'.abandon executionId, release)

/-- A renewed lease, on the record the tick captured. A record that has left `active`
takes the new lease with it, where nothing reads it. -/
def renewActive (g : Gateway) (executionId : OwnerId) (expiresAt : Int) (fence : Nat) : Gateway :=
  match g.active.get? executionId with
  | none => g
  | some exec =>
      { g with
        active := g.active.set executionId
          { exec with lease := exec.lease.map ({ · with expiresAt, fence }) } }

/-- `ownershipLost` on the captured record, and the violation raised for it. -/
def loseOwnership (g : Gateway) (executionId : OwnerId) (reason : RenewFailure) : Gateway :=
  let violations := ⟨executionId, reason, g.active.has executionId⟩ :: g.violations
  match g.active.get? executionId with
  | none => { g with violations }
  | some exec =>
      { g with
        violations
        active := g.active.set executionId
          { exec with ownershipLost := true, ownershipLossReason := some reason } }

def renewHold (g : Gateway) (executionId : OwnerId) (expiresAt : Int) (fence : Nat) : Gateway :=
  match g.holds.get? executionId with
  | none => g
  | some hold =>
      { g with
        holds := g.holds.set executionId
          { hold with lease := { hold.lease with expiresAt, fence } } }

def dropHold (g : Gateway) (executionId : OwnerId) : Gateway :=
  { g with holds := g.holds.delete executionId }

/-- Update the claim the tick captured, if it is still the one under its key. -/
def renewClaim (g : Gateway) (claimKey : String) (owner : OwnerId)
    (outcome : Reservations.RenewOutcome) : Gateway :=
  match g.positionClaims.get? claimKey with
  | none => g
  | some claim =>
      if claim.owner = owner then
        { g with
          positionClaims := g.positionClaims.set claimKey <|
            match outcome with
            | .ok expiresAt fence =>
                { claim with lease := { claim.lease with expiresAt, fence }, ownershipLost := false }
            | .failed _ _ => { claim with ownershipLost := true } }
      else g

end Gateway

end Strikedge.Coordinator
