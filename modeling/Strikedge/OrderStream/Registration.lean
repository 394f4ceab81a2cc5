import Strikedge.Orders.Process
import Strikedge.OrderStream.Process

/-!
# The order manager and its stream consumer

The manager registers an order with the consumer when the transition to SUBMITTING has been
applied, before anything is sent, and hands it every snapshot it is about to persist. The
transports and the sweeps reach the consumer on their own. The news of a run are what a
reader needs to say which orders the consumer ought to count, newest first; no step reads
them. This process is alone with its journal, and keeps one broker throughout.
-/

namespace Strikedge.OrderStream

open Machine Orders

inductive StreamBroker where
  | zerodha
  | dhan
  deriving DecidableEq, Repr

structure StreamWiring where
  broker : StreamBroker
  /-- `intent.broker_correlation_id ?? dhanCorrelationId(intent.client_order_id)` -/
  correlationId : BoxOrderIntent → String

/-- What a call on the consumer reads beside its arguments: the account of the session, the
clock, what the adapter makes of the update, and the fields of a snapshot that the manager
itself does not read. -/
structure Surroundings where
  account : Option String := none
  quantityPresent : Bool := true
  averagePrice : Option Number := none
  now : ℚ := 0
  sink : Sink := .works none
  deriving Repr

namespace StreamWiring

variable (wiring : StreamWiring)

/-- `ownerTagFor`: the key the broker echoes on every update of the order. -/
def ownerTagFor (intent : BoxOrderIntent) (request : BrokerOrderRequest) : String :=
  match wiring.broker with
  | .dhan => wiring.correlationId intent
  | .zerodha => (intent.brokerTag <|> request.tag).getD ""

/-- What `registerStreamOwnership` tells the consumer. Without a tag it tells nothing. -/
def registration (intent : BoxOrderIntent) (request : BrokerOrderRequest) :
    Option RegisterIntentArgs :=
  let ownerTag := wiring.ownerTagFor intent request
  if ownerTag = "" then none
  else some
    { clientOrderId := intent.clientOrderId
      ownerTag := ownerTag
      account := none
      requestedQty := .finite intent.quantity
      brokerOrderId := intent.brokerOrderId }

/-- The observation `noteStreamBrokerSnapshot` makes of a snapshot. -/
def observation (intent : BoxOrderIntent) (order : BrokerOrder) (around : Surroundings) :
    NormalizedOrderObservation where
  ownerTag := wiring.ownerTagFor intent (requestFromIntent intent)
  brokerOrderId := order.brokerOrderId
  account := none
  cumulativeQty := .finite order.filledQuantity
  quantityPresent := some around.quantityPresent
  averagePrice := around.averagePrice
  rawStatus := some order.state.text
  eventId :=
    some s!"rest:{order.clientOrderId}:{order.filledQuantity}:{order.state.text}"
  source := .restPoll

end StreamWiring

/-- `noteStreamBrokerSnapshot` -/
def OrderStreamConsumer.noteStreamBrokerSnapshot (c : OrderStreamConsumer)
    (wiring : StreamWiring) (intent : BoxOrderIntent) (order : BrokerOrder)
    (around : Surroundings) : Ingested :=
  let c :=
    if order.brokerOrderId.any (· ≠ "") then
      c.learnBrokerOrderId intent.clientOrderId order.brokerOrderId
    else c
  c.ingestRestObservation (wiring.observation intent order around) .restPoll around.now
    around.sink

/-- The state the sink returns for the order it merged. -/
def Sink.state : Sink → Option BoxOrderIntentState
  | .works merged => merged
  | _ => none

/-- The ledger counted the total of an observation, and has nothing outstanding. -/
def isFilled (apply : FillApplyResult) : Bool :=
  !decide (apply.outcome = .invalid) && decide (apply.remaining ≤ 0)

/-- The order an observation shows to be over: the adapter took it and its own state of the
order is terminal, or the ledger counted it and has nothing outstanding. -/
def Ingested.over (done : Ingested) (sink : Sink) : Option String :=
  if done.result.attributed && (done.handed.isSome && sink.state.any isBrokerOrderTerminal ||
      done.result.apply.any isFilled) then
    done.result.clientOrderId
  else none

inductive News where
  | registered (intent : BoxOrderIntent)
  /-- the pre-POST callback passed: a POST begins -/
  | posted (intent : BoxOrderIntent)
  /-- the journal was asked to record a local refusal -/
  | refused (clientOrderId : ClientOrderId)
  /-- `persistOrder` was called with a snapshot, which the consumer was handed -/
  | handed (clientOrderId : ClientOrderId) (order : BrokerOrder)
  /-- an observation showed the order to be over -/
  | over (clientOrderId : String)
  /-- the order was settled explicitly -/
  | settled (clientOrderId : String)
  deriving DecidableEq, Repr

/-- After this news no events are expected for the order. -/
def News.ends (id : String) : News → Bool
  | .over clientOrderId | .settled clientOrderId => clientOrderId = id
  | _ => false

/-- The intent of a registration, with something to wait for. -/
def News.opens (id : String) : News → Bool
  | .registered intent => intent.clientOrderId = id ∧ 0 < intent.quantity
  | _ => false

/-- The order was registered, and nothing has ended it since. -/
def Outstanding (news : List News) (id : String) : Prop :=
  ∃ later n earlier, news = later ++ n :: earlier ∧ n.opens id = true ∧
    ∀ n' ∈ later, n'.ends id = false

/-- The order was registered, and has been ended since. -/
def Ended (news : List News) (id : String) : Prop :=
  ∃ later n earlier, news = later ++ n :: earlier ∧ n.opens id = true ∧
    ∃ n' ∈ later, n'.ends id = true

/-- The snapshot an action hands on. -/
def writtenBy (t : Task) : Option (BoxOrderIntent × BrokerOrder) :=
  match t.phase with
  | .persisting site order => some (site.intentOf t.intent, order)
  | _ => none

def writtenByPass (run : ReconcileRun) : Option (BoxOrderIntent × BrokerOrder) :=
  match run.phase with
  | .persisting intent order => some (intent, order)
  | _ => none

/-- The intent and the row of an action that a label resumes past SUBMITTING. -/
def submitting (m : OrderManager) : Label → Option (BoxOrderIntent × BoxOrderIntent)
  | .resume _ (.action i) => do
    let t ← m.tasks.get? i
    match t.phase, t.reply with
    | .submitting, some (.updated (.applied row _ _)) =>
      if row.state = .submitting then some (t.intent, row) else none
    | _, _ => none
  | _ => none

/-- The intent a refusal is recorded for. -/
def refusing (m : OrderManager) : Label → Option BoxOrderIntent
  | .serve (.action i) => do
    let t ← m.tasks.get? i
    match t.phase with
    | .refusing _ _ => some t.intent
    | _ => none
  | _ => none

/-- The snapshot that is being handed on in the state a label has led to. -/
def handing (m : OrderManager) : Label → Option (BoxOrderIntent × BrokerOrder)
  | .fetched _ i _ | .submitted _ i _ | .cancelled _ i _ => (m.tasks.get? i).bind writtenBy
  | .reconcileAnswered _ _ => m.reconcileRun.bind writtenByPass
  | _ => none

/-- The intent whose POST has begun in the state a label has led to. -/
def posting (m : OrderManager) : Label → Option BoxOrderIntent
  | .prePost _ i => ((m.tasks.get? i).filter (·.postBegan)).map (·.intent)
  | _ => none

structure StreamedManager where
  manager : OrderManager
  stream : Stream
  news : List News := []

namespace StreamedManager

def start (manager : OrderManager) (opts : OrderStreamConsumerOptions) : StreamedManager where
  manager := manager
  stream := .new opts

variable (s : StreamedManager)

def register (wiring : StreamWiring) (around : Surroundings)
    (submitted : Option (BoxOrderIntent × BoxOrderIntent)) : StreamedManager :=
  match submitted with
  | none => s
  | some (created, row) =>
    match wiring.registration row (requestFromIntent created) with
    | none => s
    | some args =>
      { s with
        stream := s.stream.become (s.stream.consumer.registerIntent args around.account)
        news := .registered row :: s.news }

/-- What an ingested observation is worth to a reader. -/
def overNews (done : Ingested) (sink : Sink) : List News :=
  (done.over sink).toList.map .over

def note (wiring : StreamWiring) (around : Surroundings)
    (snapshot : Option (BoxOrderIntent × BrokerOrder)) : StreamedManager :=
  match snapshot with
  | none => s
  | some (intent, order) =>
    let done := s.stream.consumer.noteStreamBrokerSnapshot wiring intent order around
    { s with
      stream := s.stream.become done.consumer
      news := overNews done around.sink ++ .handed intent.clientOrderId order :: s.news }

def report (news : List News) : StreamedManager := { s with news := news ++ s.news }

/-- A step of the manager and the calls it makes on the consumer. -/
def manage (wiring : StreamWiring) (cfg : Config) (label : Label) (around : Surroundings) :
    Option StreamedManager :=
  (s.manager.step cfg label).map fun m =>
    let news := (refusing s.manager label).toList.map (fun i => News.refused i.clientOrderId) ++
      (posting m label).toList.map .posted
    (((({ s with manager := m }).register wiring around (submitting s.manager label)).note
      wiring around (handing m label)).report news)

/-- What a callback of the stream is worth to a reader. -/
def callbackNews (c : OrderStreamConsumer) : Callback → List News
  | .frame obs now sink => overNews (c.ingestStreamObservation obs now sink) sink
  | .rest obs source now sink => overNews (c.ingestRestObservation obs source now sink) sink
  | .settle clientOrderId => [.settled clientOrderId]
  | _ => []

def listen (callback : Callback) : Option StreamedManager :=
  (s.stream.step callback).map fun stream =>
    { s with
      stream := stream
      news := callbackNews s.stream.consumer callback ++ s.news }

inductive Move where
  | manage (label : Label) (around : Surroundings)
  | listen (callback : Callback)

/-- Only the manager registers orders, and no other process writes the journal. -/
def step (wiring : StreamWiring) (cfg : Config) (s : StreamedManager) :
    Move → Option StreamedManager
  | .manage (.foreign _) _ => none
  | .manage label around => s.manage wiring cfg label around
  | .listen (.register _ _) => none
  | .listen callback => s.listen callback

end StreamedManager

end Strikedge.OrderStream
