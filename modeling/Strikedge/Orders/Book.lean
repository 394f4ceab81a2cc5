import Strikedge.Orders.DailyRisk
import Strikedge.Orders.Journal

/-!
# The manager's books

Everything of the order manager that a synchronous block reads and writes besides the
queue, the gates and the actions in flight: controls, health, limits, reservations,
attributed positions and the circuit breaker. Admission (`canEnter`,
`withinQuantityLimits`) and the continuations of a durable write (`persistOrder`,
`transitionResult`) are functions of it.
-/

namespace Strikedge.Orders

inductive BrokerAdapterMode where
  | paper
  | live
  deriving DecidableEq, Repr

def BrokerAdapterMode.text : BrokerAdapterMode → String
  | .paper => "paper"
  | .live => "live"

/-- What the manager is constructed with. -/
structure Config where
  limits : OrderManagerLimits
  mode : BrokerAdapterMode
  persistence : Persistence
  /-- the pure preparation hook of the adapter -/
  prepareOrder : BrokerOrderRequest → BrokerOrderRequest := id
  /-- `loadDailyRiskSeed` is installed -/
  hasDailyRiskLoader : Bool

/-- `brokerAccountKey` -/
def Config.account (cfg : Config) : String := s!"broker:{cfg.mode.text}"

structure OrderManagerControls where
  entryEnabled : Bool
  liveOrderEnabled : Bool
  deriving DecidableEq, Repr

/-- The health of a broker interface or of the journal. -/
inductive HealthState where
  | healthy
  | unhealthy
  | unknown
  deriving DecidableEq, Repr

inductive ReconciliationState where
  | idle
  | running
  | failed
  deriving DecidableEq, Repr

structure OrderManagerHealth where
  persistence : HealthState := .unknown
  brokerAuth : HealthState := .unknown
  brokerOrdersApi : HealthState := .unknown
  brokerPositionsApi : HealthState := .unknown
  reconciliation : ReconciliationState := .idle
  reconciliationComplete : Bool := false
  deriving DecidableEq, Repr

structure ReductionReservation where
  symbol : SymbolKey
  quantity : Nat
  deriving DecidableEq, Repr

structure Book where
  controls : OrderManagerControls
  health : OrderManagerHealth := {}
  risk : DailyRisk
  activeClientIds : List ClientOrderId := []
  knownIntents : OrderedMap ClientOrderId BoxOrderIntent := ∅
  residualLegs : Nat := 0
  openBoxes : Nat := 0
  grossOpenLegQuantity : Nat := 0
  reservedEntryQuantity : Nat := 0
  reservedReductionQuantity : Nat := 0
  reservations : OrderedMap ClientOrderId Nat := ∅
  reductionReservations : OrderedMap ClientOrderId ReductionReservation := ∅
  reservedReductionsBySymbol : OrderedMap SymbolKey Nat := ∅
  unknownOrders : Nat := 0
  recoveryActive : Bool := false
  attributedBoxPositions : OrderedMap SymbolKey Int := ∅
  feedHealthy : Bool := false
  /-- none is the infinity the source starts from -/
  feedWarmUntil : Option Nat := none
  breakerReason : Option String := none
  crashOnlyAttributedExposure : Bool := false
  lastReconciledAt : Option Nat := none
  disposed : Bool := false

namespace Book

/-- `trip`: the first reason opens the breaker and disarms entry. -/
def trip (b : Book) (reason : String) : Book :=
  if b.breakerReason.isSome then b
  else
    { b with
      breakerReason := some reason
      controls := { b.controls with entryEnabled := false } }

def tripIf (b : Book) (condition : Bool) (reason : String) : Book :=
  if condition then b.trip reason else b

/-- `noteFailure` -/
def noteFailure (cfg : Config) (b : Book) (reason : String) : Book :=
  let failures := b.risk.consecutiveFailures + 1
  let b := { b with risk := { b.risk with consecutiveFailures := failures } }
  b.tripIf (cfg.limits.consecutiveFailureLimit ≤ failures)
    s!"{reason}: consecutive failure limit reached"

/-- `evaluateLimits` -/
def evaluateLimits (cfg : Config) (b : Book) : Book :=
  let loss := 0 < cfg.limits.dailyLossLimit ∧
    b.risk.realisedPnlToday ≤ -cfg.limits.dailyLossLimit
  ((((b.tripIf loss "daily loss limit reached").tripIf
    (cfg.limits.rejectLimit ≤ b.risk.rejects) "broker reject limit reached").tripIf
    (cfg.limits.maxResidualLegs < b.residualLegs) "residual leg limit exceeded").tripIf
    (cfg.limits.maxOpenBoxes < b.openBoxes) "open box limit exceeded").tripIf
    (cfg.limits.maxGrossOpenLegQuantity < b.grossOpenLegQuantity)
    "gross open leg quantity limit exceeded"

/-- `this.rejects++; noteFailure(..); evaluateLimits()` of a broker rejection. -/
def noteBrokerRejection (cfg : Config) (b : Book) : Book :=
  evaluateLimits cfg
    (noteFailure cfg { b with risk := b.risk.noteReject } "broker rejected order")

/-- `rollTradingDay` -/
def rollTradingDay (cfg : Config) (w : World) (b : Book) : Book :=
  if w.day = b.risk.tradingDay then b
  else
    { b with
      risk := b.risk.rollTradingDay cfg.hasDailyRiskLoader b.disposed w.day
      health := { b.health with reconciliationComplete := false } }

/-- `recalculateGrossAttributedQuantity` -/
def recalculateGross (b : Book) : Book :=
  { b with
    grossOpenLegQuantity := (b.attributedBoxPositions.values.map Int.natAbs).sum }

/-- The attributed net position of a symbol. -/
def net (b : Book) (symbol : SymbolKey) : Int :=
  (b.attributedBoxPositions.get? symbol).getD 0

def reservedReduction (b : Book) (symbol : SymbolKey) : Nat :=
  (b.reservedReductionsBySymbol.get? symbol).getD 0

/-- The side that reduces a position. -/
def reducingSide (net : Int) (side : OrderSide) : Bool :=
  match side with
  | .sell => 0 < net
  | .buy => net < 0

/-- `withinQuantityLimits` -/
def withinQuantityLimits (cfg : Config) (b : Book) (r : BrokerOrderRequest) : Bool :=
  if cfg.limits.maxOpenLegQuantity < r.quantity then false
  else
    match r.purpose with
    | .entry =>
        b.grossOpenLegQuantity + b.reservedEntryQuantity + r.quantity ≤
          cfg.limits.maxGrossOpenLegQuantity
    | .protectiveCancel => true
    | _ =>
        reducingSide (b.net r.symbol) r.side &&
          r.quantity + b.reservedReduction r.symbol ≤ (b.net r.symbol).natAbs

/-- `isCrashRecoveryEntryQuarantined` -/
def crashRecoveryEntryQuarantined (w : World) (b : Book) : Bool :=
  b.crashOnlyAttributedExposure && !w.crashRecoveryReady

/-- The conditions `canEnter` tests once the day has been rolled. -/
def entryOpen (cfg : Config) (w : World) (b : Book) (request : Option BrokerOrderRequest) :
    Bool :=
  !b.disposed && b.breakerReason.isNone &&
    b.controls.entryEnabled && b.controls.liveOrderEnabled &&
    b.health.persistence = .healthy && b.risk.seedHealth = .healthy &&
    b.health.reconciliationComplete && b.health.brokerAuth = .healthy &&
    b.health.brokerOrdersApi = .healthy && b.health.brokerPositionsApi = .healthy &&
    b.unknownOrders = 0 && !b.recoveryActive && !b.crashRecoveryEntryQuarantined w &&
    b.feedHealthy && b.feedWarmUntil.any (· ≤ w.now) &&
    b.openBoxes < cfg.limits.maxOpenBoxes && b.residualLegs ≤ cfg.limits.maxResidualLegs &&
    request.all (b.withinQuantityLimits cfg)

/-- `canEnter`: rolls the day, then tests. -/
def canEnter (cfg : Config) (w : World) (b : Book) (request : Option BrokerOrderRequest) :
    Book × Bool :=
  let b := b.rollTradingDay cfg w
  (b, b.entryOpen cfg w request)

/-- `canManageExposure` -/
def canManageExposure (b : Book) : Bool := !b.disposed && b.controls.liveOrderEnabled

/-- An amount of paise in rupees, with two decimals. -/
def rupeesText (paise : Nat) : String :=
  let pad := if paise % 100 < 10 then "0" else ""
  s!"{paise / 100}.{pad}{paise % 100}"

/-- `capitalBlockReason`: re-verify the per-Box cap from the stamp of a leg. -/
def capitalBlockReason (cfg : Config) (capital : Option EntryCapitalStamp) : Option String :=
  let limit := cfg.limits.maxBoxCapitalRupees
  if limit = 0 then none
  else
    match capital with
    | none => some <| "Box capital evidence is missing; entry refused because the per-Box " ++
        "₹ cap cannot be verified."
    | some stamp =>
        if limit * 100 < stamp.boxNotionalPaise then
          some <| s!"Box gross entry-order notional ₹{rupeesText stamp.boxNotionalPaise} " ++
            s!"exceeded the ₹{limit} per-Box cap while the order was queued."
        else none

/-- The reservation `submit` takes for an accepted request. -/
def reserve (b : Book) (r : BrokerOrderRequest) : Book :=
  match r.purpose with
  | .entry =>
      { b with
        reservations := b.reservations.set r.clientOrderId r.quantity
        reservedEntryQuantity := b.reservedEntryQuantity + r.quantity }
  | .protectiveCancel => b
  | _ =>
      { b with
        reductionReservations := b.reductionReservations.set r.clientOrderId
          { symbol := r.symbol, quantity := r.quantity }
        reservedReductionsBySymbol := b.reservedReductionsBySymbol.set r.symbol
          (b.reservedReduction r.symbol + r.quantity)
        reservedReductionQuantity := b.reservedReductionQuantity + r.quantity }

/-- The part of `releaseReservation` about a reduction. -/
def releaseReduction (b : Book) (id : ClientOrderId) : Book :=
  match b.reductionReservations.get? id with
  | none => b
  | some reduction =>
      let remaining := b.reservedReduction reduction.symbol - reduction.quantity
      { b with
        reservedReductionsBySymbol :=
          if remaining = 0 then b.reservedReductionsBySymbol.delete reduction.symbol
          else b.reservedReductionsBySymbol.set reduction.symbol remaining
        reservedReductionQuantity := b.reservedReductionQuantity - reduction.quantity
        reductionReservations := b.reductionReservations.delete id }

/-- `releaseReservation` -/
def releaseReservation (b : Book) (id : ClientOrderId) : Book :=
  let quantity := (b.reservations.get? id).getD 0
  releaseReduction
    { b with
      reservedEntryQuantity := b.reservedEntryQuantity - quantity
      reservations := b.reservations.delete id } id

/-- `activeClientIds.delete(id)` -/
def deactivate (b : Book) (id : ClientOrderId) : Book :=
  { b with activeClientIds := b.activeClientIds.filter (· ≠ id) }

/-- The reservation one nonterminal intent keeps after the first reconcile. -/
def reserveRemaining (b : Book) (i : BoxOrderIntent) : Book :=
  let remaining := i.quantity - i.filledQuantity
  if remaining = 0 then b
  else b.reserve { requestFromIntent i with quantity := remaining }

/-- The wholesale rebuild of the reservations by the first reconcile. -/
def rebuildReservations (b : Book) (nonterminal : List BoxOrderIntent) : Book :=
  nonterminal.foldl reserveRemaining
    { b with
      reservations := ∅
      reservedEntryQuantity := 0
      reductionReservations := ∅
      reservedReductionsBySymbol := ∅
      reservedReductionQuantity := 0 }

def setPersistence (b : Book) (h : HealthState) : Book :=
  { b with health := { b.health with persistence := h } }

def know (b : Book) (i : BoxOrderIntent) : Book :=
  { b with knownIntents := b.knownIntents.set i.clientOrderId i }

/-- Add an attributed fill to the position of its symbol. -/
def attributeFill (b : Book) (row : BoxOrderIntent) (delta : Nat) : Book :=
  recalculateGross
    { b with
      attributedBoxPositions := b.attributedBoxPositions.set row.symbol
        (b.net row.symbol + row.side.signed delta) }

/-- `invariantViolation` without the reconcile it starts. -/
def invariantViolation (b : Book) (reason : String) : Book :=
  trip { b with recoveryActive := true } s!"execution invariant violation: {reason}"

/-- `durableFillDelta`: what this write advanced, or the violation it reveals. -/
def durableFillDelta (id : ClientOrderId) : UpdateResult → Except String Nat
  | .missing => .ok 0
  | .refused _ => .ok 0
  | .applied _ previous current =>
      if current < previous then
        .error s!"durable filled quantity for {id} regressed {previous} -> {current}"
      else .ok (current - previous)

/-- What a caller of `persistOrder` gets back. -/
structure Persisted where
  book : Book
  /-- the updated intent, or the error that was thrown -/
  result : Except OrderError BoxOrderIntent
  /-- an invariant violation started a reconcile -/
  violated : Bool := false

/-- `persistOrder` before its update is awaited: the overfill tripwire. -/
def beginPersist (w : World) (b : Book) : Book :=
  match w.overfill with
  | none => b
  | some reason => b.trip reason

/-- The `catch` of `persistOrder`. -/
def persistFailed (b : Book) (order : BrokerOrder) (message : String) : Persisted :=
  let b := b.setPersistence .unhealthy
  if 0 < order.filledQuantity then
    { book := b.trip s!"persistence lost after confirmed fill {order.clientOrderId}"
      result := .error (.persistenceAfterFill order) }
  else { book := b, result := .error (.other message) }

/-- The row of an update result. -/
def rowOf : UpdateResult → Option BoxOrderIntent
  | .missing => none
  | .refused row => some row
  | .applied row _ _ => some row

/-- `persistOrder` after its update returned: attribute what the write itself advanced,
never what the caller's snapshot suggests. -/
def persisted (b : Book) (intent : BoxOrderIntent) (order : BrokerOrder)
    (result : UpdateResult) : Persisted :=
  match rowOf result with
  | none => b.persistFailed order s!"Order intent {intent.clientOrderId} disappeared."
  | some updated =>
      let (b, violated) :=
        match durableFillDelta intent.clientOrderId result with
        | .ok delta => (if 0 < delta then b.attributeFill updated delta else b, false)
        | .error why => (b.invariantViolation why, true)
      let b := b.know updated
      let b :=
        if isBrokerOrderTerminal order.state then b.releaseReservation updated.clientOrderId
        else b
      { book := b.setPersistence .healthy, result := .ok updated, violated := violated }

/-- `transitionResult` after its update returned. A refused quarantine trips. -/
def transitioned (b : Book) (intent : BoxOrderIntent) (state : BoxOrderIntentState)
    (result : UpdateResult) : Book × Except OrderError (BoxOrderIntent × Bool) :=
  match result with
  | .missing => (b, .error (.other s!"Order intent {intent.clientOrderId} disappeared."))
  | .applied updated _ _ => (b.know updated, .ok (updated, true))
  | .refused updated =>
      let b := b.tripIf (state = .reconciliationRequired && !isReconcileState updated.state)
        s!"quarantine transition refused for {intent.clientOrderId}"
      (b.know updated, .ok (updated, false))

end Book

/-- `auditFor` -/
def auditFor (intent : BoxOrderIntent) (state : BoxOrderIntentState)
    (brokerOrderId : Option String) (message : String) (fillIdentity : Option String)
    (localRefusal : Option (String × String)) : BoxOrderIntentAudit :=
  let broker := brokerOrderId.getD "none"
  let fill := fillIdentity.getD "none"
  { auditId :=
      s!"{intent.clientOrderId}:{intent.state.text}->{state.text}:{broker}:{fill}"
    fromState := some intent.state
    toState := state
    brokerOrderId := brokerOrderId
    message := message
    fillIdentity := fillIdentity
    localRefusal := localRefusal }

/-- The patch of `persistOrder`. -/
def orderPatch (order : BrokerOrder) : BoxOrderIntentPatch where
  brokerOrderId := some order.brokerOrderId
  state := some order.state
  filledQuantity := some order.filledQuantity
  brokerTag := some order.tag
  rejectReason := some order.rejectReason

/-- The patch of `transitionResult`. -/
def transitionPatch (state : BoxOrderIntentState) (brokerOrderId : Option String) :
    BoxOrderIntentPatch where
  brokerOrderId := some brokerOrderId
  state := some state

end Strikedge.Orders
