import Mathlib.Algebra.BigOperators.Group.List.Basic
import Mathlib.Algebra.Group.Subgroup.ZPowers.Basic
import Strikedge.ExecutionGateway.ExitDependencies
import Strikedge.OrderPricing.BoundedLimit
import Strikedge.Positions.ExitApplication

/-!
# The P&L of a partial exit

An exit attempt books the gross P&L of what it closed, at the prices it closed at, and the
position is marked for what is still open. `evaluateExitDecision` knows only the whole box: it
prices the four legs for one lot against the net debit of the entry.

Amounts are rational numbers of rupees, rounded as the source rounds them. The charges of an
attempt are left out; where a figure is net of charges they are arguments.
-/

namespace Strikedge.Positions

open Machine Orders ExecutionGateway OrderPricing

/-- One leg at its exit side. -/
structure ExitLeg extends BoxLegEvaluation where
  side : OrderSide
  fresh : Bool
  executable : Bool
  deriving DecidableEq, Repr

/-- The quotes of a box: of each role the exit price, if there is one, and whether a whole lot
can be filled there. -/
structure ExitQuote where
  price : Option ℚ
  fresh : Bool
  executable : Bool
  deriving DecidableEq, Repr

/-- `evaluateLeg` at the exit side -/
def exitLeg (direction : BoxDirection) (quotes : BoxLegRole → ExitQuote) (role : BoxLegRole) :
    ExitLeg where
  role := role
  price := (quotes role).price
  side := exitSideFor role direction
  fresh := (quotes role).fresh
  executable := (quotes role).executable

/-- `evaluateExitLegs` over the four roles. -/
def evaluateExitLegs (direction : BoxDirection) (quotes : BoxLegRole → ExitQuote) :
    List ExitLeg :=
  boxLegRoles.map (exitLeg direction quotes)

/-- +1 when a side pays money out, -1 when it takes money in. -/
def debitSign : OrderSide → ℚ
  | .buy => 1
  | .sell => -1

def directionSign : BoxDirection → ℚ
  | .longBox => 1
  | .shortBox => -1

def exitNetCredit (credit : ℚ) : List ExitLeg → Option ℚ
  | [] => some (round2 credit)
  | leg :: legs =>
      match leg.price with
      | none => none
      | some price =>
          if 0 < price then exitNetCredit (credit + -debitSign leg.side * price) legs else none

def exitNetCreditPerUnit (legs : List ExitLeg) : Option ℚ := exitNetCredit 0 legs

def exitLiquidityOk (legs : List ExitLeg) : Bool :=
  legs.length = 4 && legs.all fun leg => leg.fresh && leg.executable

structure ExitConfig where
  convergenceFloor : ℚ
  convergencePct : ℚ
  minExitNetPnl : ℚ
  profitCapturePct : ℚ
  minCapturedPct : ℚ
  deriving DecidableEq, Repr

inductive BoxExitReason where
  | edgeConverged
  | profitCapture
  | expirySafety
  deriving DecidableEq, Repr

inductive BoxExitBlockedReason where
  | unpricedCharges
  | netBelowFloor
  | insufficientExitLiquidity
  deriving DecidableEq, Repr

structure ExitDecisionArgs where
  direction : BoxDirection
  boxWidth : ℚ
  lotSize : ℕ
  entryNetDebitPerUnit : ℚ
  entryEdge : ℚ
  entryNetEdge : ℚ
  entryChargesTotal : Option ℚ
  currentExitChargesTotal : Option ℚ
  legs : List ExitLeg
  expirySafety : Bool := false
  executionAllowance : ℚ := 0
  useRealisableForFloor : Bool := false
  cfg : ExitConfig

structure BoxExitDecision where
  shouldExit : Bool
  reason : Option BoxExitReason
  ruleReason : Option BoxExitReason
  remainingEdge : Option ℚ
  capturedEdge : Option ℚ
  capturedPct : Option ℚ
  grossPnl : Option ℚ
  netPnl : Option ℚ
  executable : Bool
  blockedReason : Option BoxExitBlockedReason
  deriving DecidableEq, Repr

def convergenceThreshold (entryNetEdge : ℚ) (cfg : ExitConfig) : ℚ :=
  round2 (max cfg.convergenceFloor (cfg.convergencePct * entryNetEdge))

/-- Two amounts added, unless one of them is unknown. -/
def addNullable (a b : Option ℚ) : Option ℚ :=
  match a, b with
  | some a, some b => some (round2 (a + b))
  | _, _ => none

/-- What the arithmetic concludes, and what blocks it. -/
def exitRule (cfg : ExitConfig) (netPnl floorNet remainingEdge capturedPct : Option ℚ)
    (threshold captureTarget : ℚ) : Option BoxExitReason × Option BoxExitBlockedReason :=
  match netPnl, floorNet with
  | some netPnl, some floorNet =>
      match remainingEdge with
      | none => (none, none)
      | some remainingEdge =>
          if 0 < netPnl then
            let clearsFloor := cfg.minExitNetPnl ≤ floorNet
            let converged := remainingEdge ≤ threshold
            let capturedEnough :=
              captureTarget ≤ floorNet ∨ capturedPct.any (cfg.minCapturedPct ≤ ·) = true
            if converged ∧ clearsFloor then (some .edgeConverged, none)
            else if clearsFloor ∧ capturedEnough then (some .profitCapture, none)
            else if converged ∨ capturedEnough then (none, some .netBelowFloor)
            else (none, none)
          -- converged into a loss: hold
          else if remainingEdge ≤ threshold then (none, some .netBelowFloor)
          else (none, none)
  | _, _ => (none, some .unpricedCharges)

def evaluateExitDecision (args : ExitDecisionArgs) : BoxExitDecision :=
  let exitCredit := exitNetCreditPerUnit args.legs
  let grossPnl := exitCredit.map fun credit =>
    round2 ((credit - args.entryNetDebitPerUnit) * args.lotSize)
  let roundTrip := addNullable args.entryChargesTotal args.currentExitChargesTotal
  let netPnl := addNullable grossPnl (roundTrip.map (-·))
  let allowance := if args.useRealisableForFloor then round2 args.executionAllowance else 0
  let floorNet := netPnl.map fun net => round2 (net - allowance)
  let remainingEdge := exitCredit.map fun credit =>
    round2 ((directionSign args.direction * args.boxWidth - credit) * args.lotSize)
  let capturedEdge := remainingEdge.map fun edge => round2 (args.entryEdge - edge)
  let capturedPct :=
    if 0 < |args.entryEdge| then capturedEdge.map fun edge => round2 (edge / |args.entryEdge|)
    else none
  let threshold := convergenceThreshold args.entryNetEdge args.cfg
  let captureTarget := round2 (args.cfg.profitCapturePct * args.entryNetEdge)
  let executable := exitLiquidityOk args.legs
  let rule := exitRule args.cfg netPnl floorNet remainingEdge capturedPct threshold captureTarget
  let reason :=
    if executable then rule.1.orElse fun _ => if args.expirySafety then some .expirySafety else none
    else none
  { shouldExit := reason.isSome && executable
    reason := reason
    ruleReason := rule.1
    remainingEdge := remainingEdge
    capturedEdge := capturedEdge
    capturedPct := capturedPct
    grossPnl := grossPnl
    netPnl := netPnl
    executable := executable
    blockedReason :=
      if (rule.1.isSome || args.expirySafety) && !executable then some .insufficientExitLiquidity
      else rule.2 }

/-- A position with the prices of its entry and what its attempts booked. -/
structure PricedPosition where
  position : BoxOpenPosition
  direction : BoxDirection
  quantity : ℕ
  entryPrices : BoxLegRole → ℚ
  /-- `gross_pnl` of the exit attempts, in their order -/
  grossPnl : List (Option ℚ) := []

/-- What one unit of a leg earns between two prices. -/
def legPnl (direction : BoxDirection) (role : BoxLegRole) (entryPrice price : ℚ) : ℚ :=
  match boxEntrySide direction role with
  | .buy => price - entryPrice
  | .sell => entryPrice - price

/-- One turn of the loop over the closed legs: the gross P&L of what the leg closed. -/
def addGross (pos : PricedPosition) (record : PaperLeggingExecutionRecord) (gross : ℚ)
    (leg : BoxLegEvaluation) : ℚ :=
  let closed := record.confirmed leg.role
  if closed ≤ 0 then gross
  else
    match leg.price with
    | none => gross
    | some price =>
        if 0 < price then
          gross + legPnl pos.direction leg.role (pos.entryPrices leg.role) price * closed
        else gross

/-- `gross_pnl` of the attempt -/
def attemptGross (pos : PricedPosition) (result : LeggingExitResult) : ℚ :=
  round2 (result.closedLegs.foldl (addGross pos result.record) 0)

/-- An exit that comes back, with the projection it leads to. -/
structure ExitAttempt where
  live : Bool
  execution : ℕ
  origin : ExitOrigin
  result : LeggingExitResult

/-- The position after an attempt. One whose quantities are not proven books nothing. -/
def PricedPosition.apply (pos : PricedPosition) (attempt : ExitAttempt) : PricedPosition :=
  match applyLeggingExitResult attempt.live attempt.execution attempt.origin pos.position
    attempt.result with
  | .nothing => pos
  | .uncertain projected | .invalid projected =>
      { pos with position := projected, grossPnl := pos.grossPnl ++ [none] }
  | .flat projected | .partialClose projected =>
      { pos with
        position := projected
        grossPnl := pos.grossPnl ++ [some (attemptGross pos attempt.result)] }

/-- Is any quantity already closed? -/
def isPartialBox (pos : PricedPosition) : Bool :=
  boxLegRoles.any fun role => pos.position.remainingQtyByRole role < pos.quantity

def realisedExitGross (pos : PricedPosition) : ℚ :=
  round2 (pos.grossPnl.map (·.getD 0)).sum

/-- The variables of the loop over the marks. -/
structure Mark where
  unrealised : ℚ := 0
  markable : Bool := true

/-- A flat role is not marked. -/
def Mark.leg (direction : BoxDirection) (remaining : BoxLegRole → ℕ)
    (entryPrices : BoxLegRole → ℚ) (mark : Mark) (leg : ExitLeg) : Mark :=
  if remaining leg.role = 0 then mark
  else
    match leg.price with
    | none => { mark with markable := false }
    | some price =>
        if 0 < price then
          { mark with
            unrealised := mark.unrealised +
              legPnl direction leg.role (entryPrices leg.role) price * remaining leg.role }
        else { mark with markable := false }

structure PartialExitMark where
  realisedGross : ℚ
  unrealisedGross : Option ℚ
  gross : Option ℚ
  exitChargesIncurred : ℚ
  estimatedRemainingExitCharges : Option ℚ
  exitChargesTotal : Option ℚ
  roundTripCharges : Option ℚ
  net : Option ℚ
  realisableNet : Option ℚ

/-- The charges a mark is netted with. -/
structure MarkCharges where
  exitChargesIncurred : ℚ
  entryChargesTotal : Option ℚ
  estimatedRemainingExitCharges : Option ℚ
  executionCost : ℚ
  deriving DecidableEq, Repr

/-- The figures of a mark. -/
def Mark.figures (mark : Mark) (realisedGross : ℚ) (charges : MarkCharges) : PartialExitMark :=
  let unrealisedGross := if mark.markable then some (round2 mark.unrealised) else none
  let gross := unrealisedGross.map fun unrealised => round2 (realisedGross + unrealised)
  let exitChargesTotal := charges.estimatedRemainingExitCharges.map fun estimate =>
    round2 (charges.exitChargesIncurred + estimate)
  let roundTrip := addNullable charges.entryChargesTotal exitChargesTotal
  let net := addNullable gross (roundTrip.map (-·))
  { realisedGross := round2 realisedGross
    unrealisedGross := unrealisedGross
    gross := gross
    exitChargesIncurred := round2 charges.exitChargesIncurred
    estimatedRemainingExitCharges := charges.estimatedRemainingExitCharges
    exitChargesTotal := exitChargesTotal
    roundTripCharges := roundTrip
    net := net
    realisableNet := net.map fun net => round2 (net - round2 charges.executionCost) }

def markPartialExit (direction : BoxDirection) (remaining : BoxLegRole → ℕ)
    (entryPrices : BoxLegRole → ℚ) (legs : List ExitLeg) (realisedGross : ℚ)
    (charges : MarkCharges) : PartialExitMark :=
  (legs.foldl (Mark.leg direction remaining entryPrices) {}).figures realisedGross charges

/-- The mark of a position at its quotes. -/
def PricedPosition.mark (pos : PricedPosition) (quotes : BoxLegRole → ExitQuote)
    (charges : MarkCharges) : PartialExitMark :=
  markPartialExit pos.direction pos.position.remainingQtyByRole pos.entryPrices
    (evaluateExitLegs pos.direction quotes) (realisedExitGross pos) charges

/-- What a leg closed: so many units of a role, at a price. -/
structure Closing where
  role : BoxLegRole
  quantity : ℚ
  price : ℚ
  deriving DecidableEq, Repr

/-- What a leg of a result closes. -/
def closing? (record : PaperLeggingExecutionRecord) (leg : BoxLegEvaluation) : Option Closing :=
  leg.price.bind fun price =>
    if 0 < price ∧ 0 < record.confirmed leg.role then
      some ⟨leg.role, record.confirmed leg.role, price⟩
    else none

def LeggingExitResult.closings (result : LeggingExitResult) : List Closing :=
  (result.legs.getD []).filterMap (closing? result.record)

/-- The closings of an attempt that is applied. -/
def appliedClosings (pos : PricedPosition) (attempt : ExitAttempt) : List Closing :=
  match applyLeggingExitResult attempt.live attempt.execution attempt.origin pos.position
    attempt.result with
  | .flat _ | .partialClose _ => attempt.result.closings
  | _ => []

/-- The closings of a sequence of attempts. -/
def allClosings (pos : PricedPosition) : List ExitAttempt → List Closing
  | [] => []
  | attempt :: attempts => appliedClosings pos attempt ++ allClosings (pos.apply attempt) attempts

/-- The quantity of a role that was closed. -/
def closedQty (closings : List Closing) (role : BoxLegRole) : ℚ :=
  ((closings.filter (·.role = role)).map (·.quantity)).sum

/-- A role against its entry price: what was closed at its fill prices, and what is left at the
current mark. -/
def roleWorth (pos : PricedPosition) (closings : List Closing)
    (quotes : BoxLegRole → ExitQuote) (role : BoxLegRole) : ℚ :=
  ((closings.filter (·.role = role)).map fun closing =>
      legPnl pos.direction role (pos.entryPrices role) closing.price * closing.quantity).sum +
    legPnl pos.direction role (pos.entryPrices role) ((quotes role).price.getD 0) *
      pos.position.remainingQtyByRole role

/-- Every role that is open has a price. -/
def Marked (pos : PricedPosition) (quotes : BoxLegRole → ExitQuote) : Prop :=
  ∀ role, 0 < pos.position.remainingQtyByRole role →
    ∃ price, (quotes role).price = some price ∧ 0 < price

/-- The net debit per unit that the entry prices imply. -/
def impliedNetDebit (pos : PricedPosition) : ℚ :=
  (boxLegRoles.map fun role =>
    debitSign (boxEntrySide pos.direction role) * pos.entryPrices role).sum

/-- An amount of whole paise. -/
def paise : AddSubgroup ℚ := AddSubgroup.zmultiples (1 / 100)

/-- A result as an executor returns it: one evaluation for each role, prices in whole paise. -/
structure LeggingExitResult.Priced (result : LeggingExitResult) : Prop where
  nodup : ((result.legs.getD []).map (·.role)).Nodup
  pricePaise : ∀ leg ∈ result.legs.getD [], ∀ price, leg.price = some price → price ∈ paise

/-- A whole box before its first exit. -/
structure PricedPosition.Whole (pos : PricedPosition) : Prop where
  lot : 0 < pos.quantity
  attempts : pos.grossPnl = []
  remaining : ∀ role, pos.position.remainingQtyByRole role = pos.quantity
  entryPaise : ∀ role, pos.entryPrices role ∈ paise

/-- Value is conserved between what was booked and what is marked. -/
structure Conserves (pos : PricedPosition) (closings : List Closing)
    (quotes : BoxLegRole → ExitQuote) (charges : MarkCharges) : Prop where
  quantities : ∀ role,
    closedQty closings role + pos.position.remainingQtyByRole role = pos.quantity
  worth : Marked pos quotes → ∃ unrealised,
    (pos.mark quotes charges).unrealisedGross = some unrealised ∧
    (pos.mark quotes charges).gross = some (realisedExitGross pos + unrealised) ∧
    realisedExitGross pos + unrealised = (boxLegRoles.map (roleWorth pos closings quotes)).sum
  /-- The quote of a flat role does not matter. -/
  flatQuotes : ∀ other : BoxLegRole → ExitQuote,
    (∀ role, 0 < pos.position.remainingQtyByRole role → other role = quotes role) →
    pos.mark other charges = pos.mark quotes charges
  flat : isBoxPositionFlat pos.position.remainingQtyByRole = true →
    (pos.mark quotes charges).gross = some (pos.grossPnl.map (·.getD 0)).sum
  /-- While nothing is closed the figures are those of the whole box. -/
  whole : isPartialBox pos = false → ∀ args : ExitDecisionArgs,
    args.direction = pos.direction → args.lotSize = pos.quantity →
    args.entryNetDebitPerUnit = impliedNetDebit pos →
    args.legs = evaluateExitLegs pos.direction quotes →
    (evaluateExitDecision args).grossPnl = (pos.mark quotes charges).gross

end Strikedge.Positions
