import Mathlib.Init

/-!
# Order vocabulary

What one leg order is made of: the request a caller submits, the snapshot a broker
reports, the durable intent the journal keeps, and the ephemeral evidence an entry leg
carries through the queue. Prices are in paise. Timestamps and average prices, which no
decision of the manager reads, are left out.
-/

namespace Strikedge.Orders

abbrev ClientOrderId := String

abbrev AttemptId := String

/-- `${exchange}:${tradingsymbol}`, the key of an attributed position. -/
abbrev SymbolKey := String

inductive BoxLegRole where
  | k1Ce
  | k2Ce
  | k2Pe
  | k1Pe
  deriving DecidableEq, Repr

def BoxLegRole.text : BoxLegRole → String
  | .k1Ce => "k1_ce"
  | .k2Ce => "k2_ce"
  | .k2Pe => "k2_pe"
  | .k1Pe => "k1_pe"

/-- `BOX_LEG_ROLES`: the canonical order of the four roles. -/
def boxLegRoles : List BoxLegRole := [.k1Ce, .k2Ce, .k2Pe, .k1Pe]

inductive OrderSide where
  | buy
  | sell
  deriving DecidableEq, Repr

def OrderSide.text : OrderSide → String
  | .buy => "BUY"
  | .sell => "SELL"

/-- The sign a fill on this side adds to a position. -/
def OrderSide.signed (side : OrderSide) (quantity : Nat) : Int :=
  match side with
  | .buy => quantity
  | .sell => -quantity

@[simp] theorem OrderSide.signed_zero (side : OrderSide) : side.signed 0 = 0 := by
  cases side with
  | buy => rfl
  | sell => rfl

theorem OrderSide.signed_add (side : OrderSide) (m n : Nat) :
    side.signed (m + n) = side.signed m + side.signed n := by
  cases side with
  | buy => simp [signed]
  | sell =>
      simp only [signed]
      omega

inductive BoxOrderPurpose where
  | entry
  | exit
  | emergencyResidual
  | protectiveCancel
  deriving DecidableEq, Repr

inductive BoxOrderPhase where
  | entry
  | exit
  | unwind
  deriving DecidableEq, Repr

/-- The durable lifecycle, shared by intents and broker snapshots. -/
inductive BoxOrderIntentState where
  | created
  | submitting
  | acknowledged
  | open
  | partiallyFilled
  | complete
  | cancelRequested
  | cancelled
  | rejected
  | unknown
  | reconciliationRequired
  deriving DecidableEq, Repr

def BoxOrderIntentState.text : BoxOrderIntentState → String
  | .created => "CREATED"
  | .submitting => "SUBMITTING"
  | .acknowledged => "ACKNOWLEDGED"
  | .open => "OPEN"
  | .partiallyFilled => "PARTIALLY_FILLED"
  | .complete => "COMPLETE"
  | .cancelRequested => "CANCEL_REQUESTED"
  | .cancelled => "CANCELLED"
  | .rejected => "REJECTED"
  | .unknown => "UNKNOWN"
  | .reconciliationRequired => "RECONCILIATION_REQUIRED"

def isBrokerOrderTerminal : BoxOrderIntentState → Bool
  | .complete | .cancelled | .rejected => true
  | _ => false

/-- `RECONCILE_STATES`: what the broker did is not proven. -/
def isReconcileState : BoxOrderIntentState → Bool
  | .unknown | .reconciliationRequired => true
  | _ => false

/-- The bounded LIMIT envelope of an order, in paise. -/
structure BrokerLimitPricing where
  referencePrice : Int
  tickSize : Int
  maxChaseTicks : Nat
  limitPrice : Int
  deriving DecidableEq, Repr

structure BrokerOrderRequest where
  clientOrderId : ClientOrderId
  role : BoxLegRole
  tradeId : Option String
  attemptId : AttemptId
  purpose : BoxOrderPurpose
  phase : BoxOrderPhase
  exchange : String
  tradingsymbol : String
  token : Nat
  side : OrderSide
  quantity : Nat
  pricing : BrokerLimitPricing
  tag : Option String
  deriving DecidableEq, Repr

/-- A broker snapshot of one order. `filledQuantity` is cumulative. -/
structure BrokerOrder where
  clientOrderId : ClientOrderId
  brokerOrderId : Option String
  tag : Option String
  exchange : String
  tradingsymbol : String
  token : Nat
  side : OrderSide
  quantity : Nat
  state : BoxOrderIntentState
  filledQuantity : Nat
  /-- `fills.at(-1)?.fill_id` -/
  lastFillId : Option String
  rejectReason : Option String
  deriving DecidableEq, Repr

/-- One state transition in the audit trail of an intent. -/
structure BoxOrderIntentAudit where
  auditId : String
  fromState : Option BoxOrderIntentState
  toState : BoxOrderIntentState
  brokerOrderId : Option String
  message : String
  fillIdentity : Option String
  /-- the provenance of a local refusal: `no_broker_post`, its stage and its reason -/
  localRefusal : Option (String × String)
  deriving DecidableEq, Repr

/-- The durable intent of one order, written before any transport call. -/
structure BoxOrderIntent where
  clientOrderId : ClientOrderId
  brokerOrderId : Option String
  tradeId : Option String
  attemptId : AttemptId
  role : BoxLegRole
  purpose : BoxOrderPurpose
  phase : BoxOrderPhase
  exchange : String
  tradingsymbol : String
  token : Nat
  side : OrderSide
  quantity : Nat
  pricing : BrokerLimitPricing
  state : BoxOrderIntentState
  filledQuantity : Nat
  brokerTag : Option String
  rejectReason : Option String
  /-- append-only, one entry per audit id -/
  audit : List BoxOrderIntentAudit
  deriving DecidableEq, Repr

def symbolKey (exchange tradingsymbol : String) : SymbolKey := s!"{exchange}:{tradingsymbol}"

def BrokerOrderRequest.symbol (r : BrokerOrderRequest) : SymbolKey :=
  symbolKey r.exchange r.tradingsymbol

def BoxOrderIntent.symbol (i : BoxOrderIntent) : SymbolKey :=
  symbolKey i.exchange i.tradingsymbol

/-- What the fill of an intent adds to the position of its symbol. -/
def BoxOrderIntent.signedFill (i : BoxOrderIntent) : Int := i.side.signed i.filledQuantity

def requestFromIntent (i : BoxOrderIntent) : BrokerOrderRequest where
  clientOrderId := i.clientOrderId
  role := i.role
  tradeId := i.tradeId
  attemptId := i.attemptId
  purpose := i.purpose
  phase := i.phase
  exchange := i.exchange
  tradingsymbol := i.tradingsymbol
  token := i.token
  side := i.side
  quantity := i.quantity
  pricing := i.pricing
  tag := i.brokerTag

def intentFromRequest (r : BrokerOrderRequest) : BoxOrderIntent where
  clientOrderId := r.clientOrderId
  brokerOrderId := none
  tradeId := r.tradeId
  attemptId := r.attemptId
  role := r.role
  purpose := r.purpose
  phase := r.phase
  exchange := r.exchange
  tradingsymbol := r.tradingsymbol
  token := r.token
  side := r.side
  quantity := r.quantity
  pricing := r.pricing
  state := .created
  filledQuantity := 0
  brokerTag := r.tag
  rejectReason := none
  audit :=
    [{ auditId := s!"{r.clientOrderId}:CREATED"
       fromState := none
       toState := .created
       brokerOrderId := none
       message := "durable order intent created before submission"
       fillIdentity := none
       localRefusal := none }]

/-- Where in the entry lifecycle a guard is evaluated or a refusal happens. -/
inductive LiveEntryGuardStage where
  | preBuild
  | postEvidence
  | preEnqueue
  | dequeue
  | postPersist
  | prePost
  deriving DecidableEq, Repr

def LiveEntryGuardStage.text : LiveEntryGuardStage → String
  | .preBuild => "pre_build"
  | .postEvidence => "post_evidence"
  | .preEnqueue => "pre_enqueue"
  | .dequeue => "dequeue"
  | .postPersist => "post_persist"
  | .prePost => "pre_post"

/-- The error classes an order's promise can reject with. -/
inductive OrderError where
  /-- `BrokerPreSubmitRefusedError`: proven not to have reached the broker -/
  | preSubmitRefused (stage : LiveEntryGuardStage) (reason : String)
  /-- `BrokerOrderRejectedError` -/
  | orderRejected (order : BrokerOrder)
  /-- `BrokerAmbiguousSubmitError` -/
  | ambiguousSubmit (message : String) (order : Option BrokerOrder)
  /-- `OrderPersistenceAfterFillError` -/
  | persistenceAfterFill (order : BrokerOrder)
  /-- any other exception, by its message -/
  | other (message : String)
  deriving DecidableEq, Repr

/-- `errorMessage(error)` -/
def OrderError.message : OrderError → String
  | .preSubmitRefused stage reason => s!"Local pre-submit refusal at {stage.text}: {reason}"
  | .orderRejected order => order.rejectReason.getD "Broker rejected order."
  | .ambiguousSubmit message _ => message
  | .persistenceAfterFill order =>
      s!"Persistence failed after confirmed fill {order.clientOrderId}."
  | .other message => message

/-- The per-Box capital decision stamped onto every entry leg. -/
structure EntryCapitalStamp where
  boxNotionalPaise : Nat
  deriving DecidableEq, Repr

/-- A leg's place in the hedge-first transport sequence of its attempt. The predicates
the guard carries in the source are answered by the surroundings, see `World`. -/
structure LiveEntryTransportGuard where
  transportRank : Nat
  hedge : Bool
  hedgeCount : Nat
  deriving DecidableEq, Repr

structure OrderManagerLimits where
  maxOpenBoxes : Nat
  maxConcurrentExecutions : Nat
  entrySubmitConcurrency : Nat
  maxBoxCapitalRupees : Nat
  maxResidualLegs : Nat
  dailyLossLimit : Int
  rejectLimit : Nat
  consecutiveFailureLimit : Nat
  maxOpenLegQuantity : Nat
  maxGrossOpenLegQuantity : Nat
  feedReconnectWarmupMs : Nat
  deriving DecidableEq, Repr

/-- What a synchronous block reads from outside the manager: the clock, the day, and the
answers of the predicates and validators that it calls. -/
structure World where
  now : Nat
  day : String
  /-- `isCrashRecoveryPersistenceReady` -/
  crashRecoveryReady : Bool := true
  /-- `revalidateQueuedRequest` for the request in hand: a reason to refuse, or none -/
  checkedFeed : Option String := none
  /-- `stillWantedSafely(guard.stillWanted)` -/
  stillWanted : Bool := true
  /-- `sendBoundaryCoherence`, an exception counted as its reason -/
  coherence : Option String := none
  /-- `sendBoundaryEconomics`, an exception counted as its reason -/
  economics : Option String := none
  /-- what the overfill tripwire finds in the snapshot in hand -/
  overfill : Option String := none
  deriving DecidableEq, Repr

end Strikedge.Orders
