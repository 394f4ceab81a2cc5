import Strikedge.Machine.OrderedMap
import Strikedge.Orders.FillLedger

/-!
# The projection of order updates

One projection attributes every observation of a broker account, from the stream or from
REST, to a registered order, and accounts for it in that order's ledger. Beside that it
keeps the published health of the stream, with a reconciliation debt of its own. Clock
readings are finite.
-/

namespace Strikedge.OrderStream

open Machine Orders

structure RegisteredOrder where
  clientOrderId : String
  ownerTag : String
  account : Option String
  requestedQty : Number
  brokerOrderId : Option String
  deriving DecidableEq, Repr

/-- A broker-neutral observation. `quantityPresent` is absent where the caller vouches for
the quantity, and `false` where the payload carried none. -/
structure NormalizedOrderObservation where
  ownerTag : String
  brokerOrderId : Option String
  account : Option String
  cumulativeQty : Number
  quantityPresent : Option Bool
  averagePrice : Option Number
  rawStatus : Option String
  eventId : Option String
  sequence : Option Number := none
  source : FillEventSource
  observedAtMono : Option ℚ := none
  observedAtWall : Option ℚ := none
  deriving DecidableEq, Repr

inductive IngestRejection where
  | unowned
  | foreignAccount
  | malformed
  deriving DecidableEq, Repr

inductive QuantityEvidence where
  | confirmed
  | absent
  deriving DecidableEq, Repr

structure IngestResult where
  attributed : Bool
  clientOrderId : Option String
  apply : Option FillApplyResult
  rejection : Option IngestRejection
  quantityEvidence : QuantityEvidence
  source : FillEventSource
  deriving DecidableEq, Repr

/-- The published health of the stream. -/
inductive OrderStreamState where
  | disabled
  | down
  | connecting
  | live
  | degraded
  | reconnectedPendingReconcile
  | authExpired
  deriving DecidableEq, Repr

structure OrderUpdateProjection where
  ledgers : OrderedMap String CumulativeFillLedger := ∅
  byOwnerTag : OrderedMap String String := ∅
  byBrokerOrderId : OrderedMap String String := ∅
  accountOf : OrderedMap String (Option String) := ∅
  streamState : OrderStreamState := .disabled
  streamConnected : Bool := false
  streamAuthorised : Bool := false
  lastEventAtWall : Option ℚ := none
  disconnectCount : Nat := 0
  reconcileOwed : Bool := false
  unownedCount : Nat := 0
  foreignAccountCount : Nat := 0
  absentQuantityCount : Nat := 0

/-- A text with something in it once trimmed. -/
def present (text : Option String) : Option String := (text.map trim).filter (· ≠ "")

namespace OrderUpdateProjection

variable (p : OrderUpdateProjection)

def learnBrokerOrderId (clientOrderId : String) (brokerOrderId : Option String) :
    OrderUpdateProjection :=
  match present brokerOrderId with
  | none => p
  | some id => { p with byBrokerOrderId := p.byBrokerOrderId.set id clientOrderId }

/-- Registering again keeps the ledger. -/
def register (order : RegisteredOrder) : OrderUpdateProjection :=
  let ledgers :=
    if p.ledgers.has order.clientOrderId then p.ledgers
    else p.ledgers.set order.clientOrderId (.new order.clientOrderId order.requestedQty)
  let byOwnerTag :=
    match present (some order.ownerTag) with
    | none => p.byOwnerTag
    | some tag => p.byOwnerTag.set tag order.clientOrderId
  ({ p with
    ledgers := ledgers
    byOwnerTag := byOwnerTag
    accountOf := p.accountOf.set order.clientOrderId order.account }).learnBrokerOrderId
      order.clientOrderId order.brokerOrderId

/-- The order an observation's tag, or its broker order id, leads to. A blank client order id
counts as none. -/
def tagOwner (obs : NormalizedOrderObservation) : Option String :=
  ((present (some obs.ownerTag)).bind p.byOwnerTag.get?).filter (· ≠ "")

def brokerIdOwner (obs : NormalizedOrderObservation) : Option String :=
  ((present obs.brokerOrderId).bind p.byBrokerOrderId.get?).filter (· ≠ "")

/-- The order an observation belongs to: by its tag, then by its broker order id. -/
def resolveOwner (obs : NormalizedOrderObservation) : Option String :=
  p.tagOwner obs <|> p.brokerIdOwner obs

/-- The observation names an account, and not the one the order was registered under. -/
def isForeign (clientOrderId : String) (obs : NormalizedOrderObservation) : Bool :=
  match (p.accountOf.get? clientOrderId).join with
  | none => false
  | some expected => (present obs.account).any (· ≠ expected)

def fillEvent (obs : NormalizedOrderObservation) : CumulativeFillEvent where
  cumulativeQty := obs.cumulativeQty
  averagePrice := obs.averagePrice
  eventId := obs.eventId
  sequence := obs.sequence
  observedAtMono := obs.observedAtMono.map .finite
  observedAtWall := obs.observedAtWall.map .finite
  source := obs.source

/-- Only a delivery of the stream refreshes its liveness. -/
def isStreamSource : FillEventSource → Bool
  | .orderUpdate | .postback => true
  | _ => false

/-- A number that is not finite, or is negative, is no information. -/
def isMalformed (quantity : Number) : Bool := (quantity.finite?.filter (0 ≤ ·)).isNone

def noteLiveness (obs : NormalizedOrderObservation) : OrderUpdateProjection :=
  if isStreamSource obs.source then
    { p with lastEventAtWall := obs.observedAtWall <|> p.lastEventAtWall }
  else p

def evidenceOf (obs : NormalizedOrderObservation) : QuantityEvidence :=
  if obs.quantityPresent = some false then .absent else .confirmed

def rejected (obs : NormalizedOrderObservation) (clientOrderId : Option String)
    (rejection : IngestRejection) : IngestResult where
  attributed := false
  clientOrderId := clientOrderId
  apply := none
  rejection := some rejection
  quantityEvidence := evidenceOf obs
  source := obs.source

def attributed (obs : NormalizedOrderObservation) (clientOrderId : String)
    (apply : Option FillApplyResult) : IngestResult where
  attributed := true
  clientOrderId := some clientOrderId
  apply := apply
  rejection := none
  quantityEvidence := evidenceOf obs
  source := obs.source

/-- Account for an observation that belongs to an order: its broker id is remembered, and
its quantity goes to the ledger unless the payload carried none. -/
def ingestOwned (clientOrderId : String) (obs : NormalizedOrderObservation) :
    IngestResult × OrderUpdateProjection :=
  let p := p.learnBrokerOrderId clientOrderId obs.brokerOrderId
  match p.ledgers.get? clientOrderId with
  | none =>
    (rejected obs (some clientOrderId) .unowned, { p with unownedCount := p.unownedCount + 1 })
  | some ledger =>
    if evidenceOf obs = .absent then
      (attributed obs clientOrderId none,
        { p with absentQuantityCount := p.absentQuantityCount + 1 })
    else
      let (apply, ledger) := ledger.apply (fillEvent obs)
      (attributed obs clientOrderId (some apply),
        { p with ledgers := p.ledgers.set clientOrderId ledger })

def ingest (obs : NormalizedOrderObservation) : IngestResult × OrderUpdateProjection :=
  let p := p.noteLiveness obs
  if isMalformed obs.cumulativeQty then (rejected obs none .malformed, p)
  else
    match p.resolveOwner obs with
    | none => (rejected obs none .unowned, { p with unownedCount := p.unownedCount + 1 })
    | some clientOrderId =>
      if p.isForeign clientOrderId obs then
        (rejected obs (some clientOrderId) .foreignAccount,
          { p with foreignAccountCount := p.foreignAccountCount + 1 })
      else p.ingestOwned clientOrderId obs

def setStreamEnabled (enabled : Bool) : OrderUpdateProjection :=
  if !enabled then
    { p with streamState := .disabled, streamConnected := false, streamAuthorised := false }
  else if p.streamState = .disabled then { p with streamState := .down }
  else p

def onStreamConnecting : OrderUpdateProjection :=
  if p.streamState = .disabled then p
  else { p with streamConnected := false, streamState := .connecting }

def onStreamConnected (authorised reconnect : Bool) : OrderUpdateProjection :=
  if p.streamState = .disabled then p
  else if reconnect then
    { p with streamConnected := true, streamAuthorised := authorised, reconcileOwed := true,
             streamState := .reconnectedPendingReconcile }
  else { p with streamConnected := true, streamAuthorised := authorised, streamState := .live }

def onStreamIdle : OrderUpdateProjection :=
  if p.streamState = .live ∨ p.streamState = .reconnectedPendingReconcile then
    { p with streamState := .degraded }
  else p

def onStreamSessionLost : OrderUpdateProjection :=
  if p.streamState = .disabled then p
  else { p with streamConnected := false, streamAuthorised := false, reconcileOwed := true,
                streamState := .authExpired }

def onStreamDisconnected : OrderUpdateProjection :=
  if p.streamState = .disabled then p
  else { p with streamConnected := false, streamAuthorised := false,
                disconnectCount := p.disconnectCount + 1, reconcileOwed := true,
                streamState := .down }

def markReconciled : OrderUpdateProjection :=
  if p.streamState = .disabled then p
  else if p.streamConnected then { p with reconcileOwed := false, streamState := .live }
  else { p with reconcileOwed := false }

end OrderUpdateProjection

end Strikedge.OrderStream
