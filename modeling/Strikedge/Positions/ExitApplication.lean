import Strikedge.Machine.OrderedMap
import Strikedge.ExecutionGateway.PartialEntry
import Mathlib.Algebra.BigOperators.Group.List.Basic
import Mathlib.Algebra.Order.Field.Rat

/-!
# Applying the result of an exit

The exits of one position in the position monitor, in `live` and in `paper_legging` mode.
An exit calls `simulateLeggingExit` with what is outstanding, `applyLeggingExitResult` makes
a projection of the position from what came back, and the projection becomes the position
once it is persisted. A projection that could not be persisted is kept and retried.

Fills and prices are rational numbers. The label of a step carries what the market, the
executor and the store answer.
-/

namespace Strikedge.Positions

open Orders ExecutionGateway

inductive BoxPositionState where
  | box
  | partiallyExited
  | recovery
  | flat
  deriving DecidableEq, Repr

inductive ExitOrigin where
  | auto
  | manual
  deriving DecidableEq, Repr

inductive ExitAttemptStatus where
  | partialClose
  | complete
  | invariantViolation
  | uncertain
  deriving DecidableEq, Repr

/-- The status of an attempt whose fills have left the position. -/
def ExitAttemptStatus.applied : ExitAttemptStatus → Bool
  | .partialClose | .complete => true
  | .invariantViolation | .uncertain => false

structure BoxExitAttempt where
  attemptId : String
  /-- the call of `simulateLeggingExit` it is the result of -/
  execution : Nat
  origin : ExitOrigin
  status : ExitAttemptStatus
  requestedQtyByRole : BoxLegRole → Nat
  fillsByRole : BoxLegRole → ℚ
  remainingAfter : BoxLegRole → Nat

structure BoxOpenPosition where
  id : String
  remainingQtyByRole : BoxLegRole → Nat
  positionState : BoxPositionState
  exitAttempts : List BoxExitAttempt := []
  closing : Bool := false

def isBoxPositionFlat (remaining : BoxLegRole → Nat) : Bool :=
  boxLegRoles.all fun role => remaining role = 0

/-- Derive the geometry from exact quantities. Recovery is sticky until the position is
flat. -/
def deriveBoxPositionState (remaining : BoxLegRole → Nat) (current : BoxPositionState) :
    BoxPositionState :=
  if isBoxPositionFlat remaining then .flat
  else if current = .recovery then .recovery
  else
    let first := remaining .k1Ce
    if 0 < first && boxLegRoles.all (fun role => remaining role = first) then .box
    else .partiallyExited

structure ExecutionLeg where
  role : BoxLegRole
  orderId : Option String
  requestedQty : Nat
  deriving DecidableEq, Repr

structure PaperLeggingExecutionRecord where
  legs : List ExecutionLeg
  fillsByRole : OrderedMap BoxLegRole ℚ

/-- `record.fills_by_role[role] ?? 0` -/
def PaperLeggingExecutionRecord.confirmed (record : PaperLeggingExecutionRecord)
    (role : BoxLegRole) : ℚ :=
  (record.fillsByRole.get? role).getD 0

structure BoxLegEvaluation where
  role : BoxLegRole
  price : Option ℚ
  deriving DecidableEq, Repr

/-- A leg without a price, or with one that is not positive, cannot be applied. -/
def BoxLegEvaluation.priced (leg : BoxLegEvaluation) : Bool := leg.price.any (0 < ·)

structure LeggingExitResult where
  ok : Bool
  detail : String
  legs : Option (List BoxLegEvaluation)
  record : PaperLeggingExecutionRecord

namespace LeggingExitResult

/-- The quantity at the broker is not proven, by the words of the result. -/
def uncertain (live : Bool) (result : LeggingExitResult) : Bool :=
  live && !result.ok && mentions ["uncertain", "reconcil"] result.detail

def closedLegs (result : LeggingExitResult) : List BoxLegEvaluation :=
  (result.legs.getD []).filter fun leg => 0 < result.record.confirmed leg.role

/-- The first role of the record whose fill is not a whole number within what is left. -/
def invalidRole (pos : BoxOpenPosition) (result : LeggingExitResult) : Option BoxLegRole :=
  (result.record.legs.map (·.role) ++ result.record.fillsByRole.keys).find? fun role =>
    let confirmed := result.record.confirmed role
    confirmed.den ≠ 1 ∨ confirmed < 0 ∨ (pos.remainingQtyByRole role : ℚ) < confirmed

def requestedQtyByRole (result : LeggingExitResult) (role : BoxLegRole) : Nat :=
  ((result.record.legs.reverse.find? (·.role = role)).map (·.requestedQty)).getD 0

end LeggingExitResult

/-- The attempt a result is recorded as. -/
def exitAttempt (execution : Nat) (origin : ExitOrigin) (pos : BoxOpenPosition)
    (result : LeggingExitResult) (status : ExitAttemptStatus) (fills : BoxLegRole → ℚ)
    (remainingAfter : BoxLegRole → Nat) : BoxExitAttempt where
  attemptId := (result.record.legs.head?.bind (·.orderId)).getD
    s!"{pos.id}:exit:{pos.exitAttempts.length}"
  execution := execution
  origin := origin
  status := status
  requestedQtyByRole := result.requestedQtyByRole
  fillsByRole := fills
  remainingAfter := remainingAfter

/-- The projection that keeps the quantities and goes into recovery. -/
def recoveryProjection (execution : Nat) (origin : ExitOrigin) (pos : BoxOpenPosition)
    (result : LeggingExitResult) (status : ExitAttemptStatus) : BoxOpenPosition :=
  { pos with
    positionState := .recovery
    exitAttempts := pos.exitAttempts ++
      [exitAttempt execution origin pos result status result.record.confirmed
        pos.remainingQtyByRole] }

/-- What the loop over the closed legs has collected. -/
structure ClosedQuantity where
  remaining : BoxLegRole → Nat
  fills : BoxLegRole → ℚ
  closedRoles : List BoxLegRole

/-- One turn of the loop. A fill without a price is retained: the role stays outstanding. -/
def closeLeg (pos : BoxOpenPosition) (record : PaperLeggingExecutionRecord)
    (acc : ClosedQuantity) (leg : BoxLegEvaluation) : ClosedQuantity :=
  let role := leg.role
  let closed := record.confirmed role
  if closed ≤ 0 then acc
  else if !leg.priced then acc
  else
    { remaining := Function.update acc.remaining role
        ((pos.remainingQtyByRole role - closed.num : Int).toNat)
      fills := Function.update acc.fills role closed
      closedRoles := acc.closedRoles ++ [role] }

def closedQuantity (pos : BoxOpenPosition) (result : LeggingExitResult) : ClosedQuantity :=
  result.closedLegs.foldl (closeLeg pos result.record) ⟨pos.remainingQtyByRole, fun _ => 0, []⟩

/-- The projection of the confirmed fills. -/
def closedProjection (execution : Nat) (origin : ExitOrigin) (pos : BoxOpenPosition)
    (result : LeggingExitResult) : BoxOpenPosition :=
  let closed := closedQuantity pos result
  let status := if isBoxPositionFlat closed.remaining then .complete else .partialClose
  { pos with
    remainingQtyByRole := closed.remaining
    positionState := deriveBoxPositionState closed.remaining pos.positionState
    exitAttempts := pos.exitAttempts ++
      [exitAttempt execution origin pos result status closed.fills closed.remaining] }

/-- What a result asks for, up to the persistence call. -/
inductive ExitApplication where
  /-- nothing closed -/
  | nothing
  | uncertain (projected : BoxOpenPosition)
  | invalid (projected : BoxOpenPosition)
  | flat (projected : BoxOpenPosition)
  | partialClose (projected : BoxOpenPosition)

/-- `applyLeggingExitResult` up to its await. -/
def applyLeggingExitResult (live : Bool) (execution : Nat) (origin : ExitOrigin)
    (pos : BoxOpenPosition) (result : LeggingExitResult) : ExitApplication :=
  if result.uncertain live then
    .uncertain (recoveryProjection execution origin pos result .uncertain)
  else if result.closedLegs.isEmpty then .nothing
  else if (result.invalidRole pos).isSome then
    .invalid (recoveryProjection execution origin pos result .invariantViolation)
  else
    let projected := closedProjection execution origin pos result
    if isBoxPositionFlat projected.remainingQtyByRole then .flat projected
    else .partialClose projected

/-- Where an exit is suspended. -/
inductive ExitPhase where
  /-- `simulateLeggingExit` -/
  | executing (origin : ExitOrigin) (execution : Nat)
  /-- `persistPartialExit` of an uncertain result -/
  | quarantining (projected : BoxOpenPosition)
  /-- `persistPartialExit` of an invalid fill -/
  | violating (projected : BoxOpenPosition)
  /-- `closePaperTrade` -/
  | closing (projected : BoxOpenPosition)
  /-- `persistPartialExit` of a partial close -/
  | reducing (projected : BoxOpenPosition)

/-- Where a retry is suspended. -/
inductive RetryPhase where
  | closing (pending : BoxOpenPosition)
  | reducing (pending : BoxOpenPosition)

/-- One call of `simulateLeggingExit`: what it may close, and what the results before it have
reported filled. -/
structure ExitCall where
  closable : BoxLegRole → Nat
  reported : BoxLegRole → ℚ

structure PositionMonitor where
  position : BoxOpenPosition
  /-- the position is in the book -/
  present : Bool := true
  /-- `closingIds.has(id)` -/
  closingId : Bool := false
  pendingFinalPersist : Option BoxOpenPosition := none
  pendingPartialPersist : Option BoxOpenPosition := none
  exit : Option ExitPhase := none
  retry : Option RetryPhase := none
  /-- the trade as it is stored -/
  durable : BoxOpenPosition
  executions : Nat
  calls : List ExitCall := []
  reported : BoxLegRole → ℚ

/-- The answer of `persistPartialExit` or `closePaperTrade`. A call that throws may have
written, and `closePaperTrade` may have taken the position out of the book. -/
inductive PersistOutcome where
  | stored
  | refused
  | threw (written removed : Bool)
  deriving DecidableEq, Repr

namespace PersistOutcome

def succeeded : PersistOutcome → Bool
  | .stored => true
  | _ => false

def written : PersistOutcome → Bool
  | .stored => true
  | .refused => false
  | .threw written _ => written

/-- `closePaperTrade` has removed the position. -/
def removes : PersistOutcome → Bool
  | .stored => true
  | .refused => false
  | .threw _ removed => removed

end PersistOutcome

/-- What the surroundings of an exit say. -/
structure ExitLook where
  marketOpen : Bool
  feedHealthy : Bool
  /-- an exit of a partially exited position is too recent -/
  throttled : Bool
  /-- the rules want to close, and the close is executable and profitable -/
  wanted : Bool
  /-- a manual close is executable -/
  executable : Bool
  deriving DecidableEq, Repr

inductive ExitLabel where
  /-- `evaluatePosition` -/
  | evaluate (look : ExitLook)
  | closeManually (look : ExitLook)
  /-- `simulateLeggingExit` returns -/
  | executed (result : LeggingExitResult)
  | executionThrew
  /-- the persistence call of the exit settles -/
  | persisted (outcome : PersistOutcome)
  | retryPendingFinalPersists
  | retryPendingPartialPersists
  /-- the persistence call of the retry settles -/
  | retried (outcome : PersistOutcome)

namespace PositionMonitor

/-- A monitor over a position. What its attempts have applied counts as reported. -/
def appliedFills (attempts : List BoxExitAttempt) (role : BoxLegRole) : ℚ :=
  ((attempts.filter (·.status.applied)).map (·.fillsByRole role)).sum

def watch (position : BoxOpenPosition) (executions : Nat) : PositionMonitor where
  position := position
  durable := position
  executions := executions
  reported := appliedFills position.exitAttempts

/-- Whether `evaluatePosition` runs an exit. -/
def runsExit (s : PositionMonitor) (look : ExitLook) : Bool :=
  if s.position.closing || s.closingId then false
  else if s.pendingFinalPersist.isSome || s.pendingPartialPersist.isSome then false
  else if !look.marketOpen || !look.feedHealthy then false
  else
    match s.position.positionState with
    | .recovery => false
    | .partiallyExited => !look.throttled
    | .box | .flat => look.wanted

/-- Whether `closeManually` runs an exit. -/
def runsManualClose (s : PositionMonitor) (look : ExitLook) : Bool :=
  if s.position.positionState = .recovery then false
  else if s.position.closing || s.closingId then false
  else if !look.marketOpen || !look.feedHealthy then false
  else look.executable

/-- Mark the position as closing and call `simulateLeggingExit`. -/
def beginExit (s : PositionMonitor) (origin : ExitOrigin) : PositionMonitor :=
  { s with
    closingId := true
    position := { s.position with closing := true }
    exit := some (.executing origin s.executions)
    executions := s.executions + 1
    calls := ⟨s.position.remainingQtyByRole, s.reported⟩ :: s.calls }

/-- The `finally` of an exit. -/
def finishExit (s : PositionMonitor) : PositionMonitor :=
  { s with
    closingId := false
    position := { s.position with closing := if s.present then false else s.position.closing }
    exit := none }

/-- The fields of a projection that become the position's. -/
def adopt (s : PositionMonitor) (projected : BoxOpenPosition) : PositionMonitor :=
  { s with
    position := { s.position with
      remainingQtyByRole := projected.remainingQtyByRole
      positionState := projected.positionState
      exitAttempts := projected.exitAttempts } }

def setState (s : PositionMonitor) (state : BoxPositionState) : PositionMonitor :=
  { s with position := { s.position with positionState := state } }

/-- `simulateLeggingExit` returned: apply its result. -/
def executed (live : Bool) (s : PositionMonitor) (origin : ExitOrigin) (execution : Nat)
    (result : LeggingExitResult) : PositionMonitor :=
  let s := { s with
    reported := fun role => s.reported role + max 0 (result.record.confirmed role) }
  match applyLeggingExitResult live execution origin s.position result with
  | .nothing => s.finishExit
  | .uncertain projected => { s with exit := some (.quarantining projected) }
  | .invalid projected => { s with exit := some (.violating projected) }
  | .flat projected => { s with exit := some (.closing projected) }
  | .partialClose projected => { s with exit := some (.reducing projected) }

/-- What the store holds after a call. -/
def store (s : PositionMonitor) (projected : BoxOpenPosition) (outcome : PersistOutcome) :
    PositionMonitor :=
  { s with durable := if outcome.written then projected else s.durable }

/-- `closePaperTrade` takes the position out of the book. -/
def remove (s : PositionMonitor) (outcome : PersistOutcome) : PositionMonitor :=
  { s with present := s.present && !outcome.removes }

/-- The persistence call of an exit settled. -/
def persisted (s : PositionMonitor) (outcome : PersistOutcome) : ExitPhase → Option PositionMonitor
  | .executing _ _ => none
  | .quarantining projected =>
      let s := s.store projected outcome
      some <| finishExit <|
        if outcome.succeeded then
          { s with position := { s.position with
              positionState := .recovery
              exitAttempts := projected.exitAttempts } }
        else { s with pendingPartialPersist := some projected }
  | .violating projected =>
      let s := s.store projected outcome
      some <| finishExit <|
        if outcome.succeeded then
          { s with position := { s.position with
              positionState := projected.positionState
              exitAttempts := projected.exitAttempts } }
        else { s with pendingPartialPersist := some projected }.setState .recovery
  | .closing projected =>
      let s := (s.store projected outcome).remove outcome
      some <| finishExit <|
        if outcome.succeeded then s.adopt projected
        else { s with pendingFinalPersist := some projected }.setState .recovery
  | .reducing projected =>
      let s := s.store projected outcome
      some <| finishExit <|
        if outcome.succeeded then s.adopt projected
        else { s with pendingPartialPersist := some projected }.setState .recovery

/-- `retryPendingFinalPersists` up to its await. -/
def retryFinal (s : PositionMonitor) : PositionMonitor :=
  match s.pendingFinalPersist with
  | none => s
  | some pending =>
      if s.present then { s with retry := some (.closing pending) }
      else { s with pendingFinalPersist := none }

/-- `retryPendingPartialPersists` up to its await. -/
def retryPartial (s : PositionMonitor) : PositionMonitor :=
  match s.pendingPartialPersist with
  | none => s
  | some pending =>
      if s.present then { s with retry := some (.reducing pending) }
      else { s with pendingPartialPersist := none }

/-- The persistence call of a retry settled. -/
def retried (s : PositionMonitor) (outcome : PersistOutcome) : RetryPhase → PositionMonitor
  | .closing pending =>
      let s := (s.store pending outcome).remove outcome
      if outcome.succeeded then { s with pendingFinalPersist := none, retry := none }
      else { s with retry := none }
  | .reducing pending =>
      let s := s.store pending outcome
      if outcome.succeeded then
        { s.adopt pending with pendingPartialPersist := none, retry := none }
      else { s with retry := none }

/-- One step of the monitor. A retry starts when none is running. -/
def step (live : Bool) (s : PositionMonitor) : ExitLabel → Option PositionMonitor
  | .evaluate look =>
      if s.present then some (if s.runsExit look then s.beginExit .auto else s) else none
  | .closeManually look =>
      if s.present then some (if s.runsManualClose look then s.beginExit .manual else s)
      else some s
  | .executed result =>
      match s.exit with
      | some (.executing origin execution) => some (s.executed live origin execution result)
      | _ => none
  | .executionThrew =>
      match s.exit with
      | some (.executing _ _) => some s.finishExit
      | _ => none
  | .persisted outcome => s.exit.bind (s.persisted outcome)
  | .retryPendingFinalPersists => if s.retry.isNone then some s.retryFinal else none
  | .retryPendingPartialPersists => if s.retry.isNone then some s.retryPartial else none
  | .retried outcome => s.retry.map (s.retried outcome)

end PositionMonitor

end Strikedge.Positions
