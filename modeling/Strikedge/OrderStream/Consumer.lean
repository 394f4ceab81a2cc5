import Strikedge.Machine.OrderedSet
import Strikedge.Orders.Types
import Strikedge.OrderStream.Projection
import Strikedge.StreamHealth.OrderStream

/-!
# The order-stream consumer

The consumer sits between the transports and the live adapter. It hands every observation
to the projection, scores what is left of it on the two tracks the ledger does not own (the
status label and the average price), forwards what is new to the adapter, and remembers
what it forwarded. It also drives the lifecycle of the stream and the sweeps that settle
its reconciliation debt. Diagnostic counters are left out.
-/

namespace Strikedge.OrderStream

open Machine Orders StreamHealth

structure OrderStreamConsumerOptions where
  streamEnabled : Bool
  /-- a targeted REST reconciliation is wired -/
  restReconcile : Bool := true
  /-- a reconciliation sweep is wired -/
  reconcileSweep : Bool := true
  reconcileRetryBaseMs : Option ℚ := none
  reconcileRetryMaxMs : Option ℚ := none
  expectedIdleMs : Option ℚ := none
  deriving DecidableEq, Repr

structure RegisterIntentArgs where
  clientOrderId : String
  ownerTag : String
  account : Option String := none
  requestedQty : Number
  brokerOrderId : Option String := none
  deriving DecidableEq, Repr

/-- What the adapter is handed. An absent quantity is conveyed as absent. -/
structure ExternalOrderUpdate where
  clientOrderId : String
  brokerOrderId : Option String
  cumulativeQty : Option Number
  averagePrice : Option Number
  rawStatus : Option String
  observedAtWall : ℚ
  deriving DecidableEq, Repr

/-- What becomes of an update handed to the adapter: there is none, it throws, or it returns
the state of the order it merged, where it knows the order. -/
inductive Sink where
  | absent
  | throws
  | works (merged : Option BoxOrderIntentState)
  deriving DecidableEq, Repr

/-- What order management has already been told on the tracks the ledger does not own. -/
structure Forwarded where
  status : Option String
  price : Option ℚ
  terminal : Bool
  deriving DecidableEq, Repr

/-- The verdict of a sweep that did not throw; none is the legacy consistent verdict. -/
structure ReconcileSweepOutcome where
  synchronized : Bool
  reason : Option String := none
  deriving DecidableEq, Repr

structure OrderStreamConsumer where
  opts : OrderStreamConsumerOptions
  machine : OrderStreamStateMachine
  proj : OrderUpdateProjection
  pendingReconciliations : List String := []
  workingOrders : List String := []
  requestedQtyOf : OrderedMap String Number := ∅
  lastStreamEventAtWall : Option ℚ := none
  /-- the barrier of the registered sweep -/
  sweepInFlight : Option Nat := none
  sweepInFlightGeneration : Option Nat := none
  sweepAttempts : Nat := 0
  nextSweepNotBeforeWall : Option ℚ := none
  lastSweepFailure : Option String := none
  lastForwarded : OrderedMap String Forwarded := ∅

/-- Labels are compared as opaque, trimmed, upper-cased text; the brokers' own are ASCII. -/
def normaliseStatusLabel (raw : Option String) : Option String :=
  (present raw).map fun label => String.ofList (label.toList.map Char.toUpper)

/-- The average price an observation carries, when it is a finite number. -/
def observedPrice (obs : NormalizedOrderObservation) : Option ℚ :=
  obs.averagePrice.bind Number.finite?

/-- `delete` of a set. -/
def removeOrder (orders : List String) (id : String) : List String := orders.filter (· ≠ id)

namespace OrderStreamConsumer

def new (opts : OrderStreamConsumerOptions) : OrderStreamConsumer where
  opts := opts
  machine := .new opts.streamEnabled
  proj := OrderUpdateProjection.setStreamEnabled {} opts.streamEnabled

variable (c : OrderStreamConsumer)

def expectedIdleMs : ℚ := max 0 (c.opts.expectedIdleMs.getD 15000)

/-- Register an order before it is sent. `account` is the session's, read at the call. -/
def registerIntent (args : RegisterIntentArgs) (account : Option String) : OrderStreamConsumer :=
  { c with
    proj := c.proj.register {
      clientOrderId := args.clientOrderId
      ownerTag := args.ownerTag
      account := args.account <|> account
      requestedQty := args.requestedQty
      brokerOrderId := args.brokerOrderId }
    requestedQtyOf := c.requestedQtyOf.set args.clientOrderId args.requestedQty
    workingOrders :=
      if args.requestedQty.isPositive then addMember c.workingOrders args.clientOrderId
      else c.workingOrders }

def markOrderSettled (clientOrderId : String) : OrderStreamConsumer :=
  { c with workingOrders := removeOrder c.workingOrders clientOrderId }

def learnBrokerOrderId (clientOrderId : String) (brokerOrderId : Option String) :
    OrderStreamConsumer :=
  { c with proj := c.proj.learnBrokerOrderId clientOrderId brokerOrderId }

structure NonQuantityChange where
  statusChanged : Bool
  priceChanged : Bool
  contradictsTerminal : Bool
  deriving DecidableEq, Repr

/-- Compare an observation with the last thing forwarded for the order. -/
def classifyNonQuantityChange (clientOrderId : String) (obs : NormalizedOrderObservation) :
    NonQuantityChange :=
  let status := normaliseStatusLabel obs.rawStatus
  let price := observedPrice obs
  match c.lastForwarded.get? clientOrderId with
  | none =>
    { statusChanged := status.isSome, priceChanged := price.isSome, contradictsTerminal := false }
  | some prior =>
    { statusChanged := status.isSome && status ≠ prior.status
      priceChanged := price.isSome && price ≠ prior.price
      contradictsTerminal := prior.terminal && (status.isSome && status ≠ prior.status) }

/-- Remember what was forwarded. What the observation does not carry is kept. -/
def noteForwarded (clientOrderId : String) (obs : NormalizedOrderObservation) :
    OrderStreamConsumer :=
  let prior := c.lastForwarded.get? clientOrderId
  { c with lastForwarded := c.lastForwarded.set clientOrderId {
      status := normaliseStatusLabel obs.rawStatus <|> prior.bind (·.status)
      price := observedPrice obs <|> prior.bind (·.price)
      terminal := prior.any (·.terminal) } }

/-- An order can produce no further events once the adapter's own state is terminal, or the
ledger has nothing outstanding. -/
def settleIfTerminal (clientOrderId : String) (merged : Option BoxOrderIntentState)
    (result : IngestResult) : OrderStreamConsumer :=
  if merged.any isBrokerOrderTerminal then
    { c with
      lastForwarded := match c.lastForwarded.get? clientOrderId with
        | none => c.lastForwarded
        | some memo => c.lastForwarded.set clientOrderId { memo with terminal := true }
      workingOrders := removeOrder c.workingOrders clientOrderId }
  else if result.apply.any (·.remaining ≤ 0) then
    { c with workingOrders := removeOrder c.workingOrders clientOrderId }
  else c

def scheduleReconciliation (clientOrderId : String) : OrderStreamConsumer :=
  if c.opts.restReconcile then
    { c with pendingReconciliations := addMember c.pendingReconciliations clientOrderId }
  else c

end OrderStreamConsumer

/-- The update an observation becomes. -/
def externalUpdate (clientOrderId : String) (obs : NormalizedOrderObservation)
    (quantityAbsent : Bool) (now : ℚ) : ExternalOrderUpdate where
  clientOrderId := clientOrderId
  brokerOrderId := obs.brokerOrderId
  cumulativeQty := if quantityAbsent then none else some obs.cumulativeQty
  averagePrice := obs.averagePrice
  rawStatus := obs.rawStatus
  observedAtWall := obs.observedAtWall.getD now

/-- Hand an update to the adapter: what it returns, and the update if it was taken. -/
def applyToAdapter (sink : Sink) (update : ExternalOrderUpdate) :
    Option BoxOrderIntentState × Option ExternalOrderUpdate :=
  match sink with
  | .absent | .throws => (none, none)
  | .works merged => (merged, some update)

/-- What one ingested observation leads to. -/
structure Ingested where
  result : IngestResult
  /-- the update the adapter took -/
  handed : Option ExternalOrderUpdate
  consumer : OrderStreamConsumer

namespace OrderStreamConsumer

variable (c : OrderStreamConsumer)

/-- An owned observation without a quantity: the adapter is woken with an absent quantity
and the truth is sought from REST. -/
def ingestAbsent (clientOrderId : String) (obs : NormalizedOrderObservation)
    (result : IngestResult) (now : ℚ) (sink : Sink) : Ingested :=
  let (merged, handed) := applyToAdapter sink (externalUpdate clientOrderId obs true now)
  let c := c.noteForwarded clientOrderId obs
  let c := c.settleIfTerminal clientOrderId merged result
  ⟨result, handed, c.scheduleReconciliation clientOrderId⟩

/-- An owned observation whose quantity the ledger has seen. It is forwarded when it is not
a redelivery and something is new on one of the three tracks. -/
def ingestConfirmed (clientOrderId : String) (obs : NormalizedOrderObservation)
    (result : IngestResult) (now : ℚ) (sink : Sink) : Ingested :=
  let outcome := result.apply.map (·.outcome)
  let quantityAdvanced := outcome = some .applied ∨ outcome = some .appliedOverfill
  let change := c.classifyNonQuantityChange clientOrderId obs
  if outcome = some .invalid then ⟨result, none, c.scheduleReconciliation clientOrderId⟩
  else
    let c := if outcome = some .appliedOverfill then c.scheduleReconciliation clientOrderId else c
    let c := if change.contradictsTerminal then c.scheduleReconciliation clientOrderId else c
    if outcome ≠ some .duplicateEvent ∧
        (quantityAdvanced ∨ change.statusChanged ∨ change.priceChanged) then
      let (merged, handed) := applyToAdapter sink (externalUpdate clientOrderId obs false now)
      let c := c.noteForwarded clientOrderId obs
      ⟨result, handed, c.settleIfTerminal clientOrderId merged result⟩
    else ⟨result, none, c.settleIfTerminal clientOrderId none result⟩

def ingest (obs : NormalizedOrderObservation) (now : ℚ) (sink : Sink) : Ingested :=
  let stamped := { obs with observedAtWall := obs.observedAtWall <|> some now }
  let (result, proj) := c.proj.ingest stamped
  let c := { c with
    proj := proj
    lastStreamEventAtWall :=
      if OrderUpdateProjection.isStreamSource obs.source ∧ result.attributed then
        stamped.observedAtWall
      else c.lastStreamEventAtWall }
  match result.attributed, result.clientOrderId with
  | true, some clientOrderId =>
    if result.quantityEvidence = .absent then
      c.ingestAbsent clientOrderId stamped result now sink
    else c.ingestConfirmed clientOrderId stamped result now sink
  | _, _ => ⟨result, none, c⟩

def ingestStreamObservation (obs : NormalizedOrderObservation) (now : ℚ) (sink : Sink) :
    Ingested :=
  c.ingest { obs with source := .orderUpdate } now sink

/-- A confirmed quantity answers the reconciliation that was pending for the order. -/
def ingestRestObservation (obs : NormalizedOrderObservation) (source : FillEventSource)
    (now : ℚ) (sink : Sink) : Ingested :=
  let done := c.ingest { obs with source := source } now sink
  match done.result.clientOrderId with
  | none => done
  | some clientOrderId =>
    if done.result.quantityEvidence = .confirmed then
      { done with consumer := { done.consumer with
          pendingReconciliations :=
            removeOrder done.consumer.pendingReconciliations clientOrderId } }
    else done

def reconcilePending : Bool := c.machine.reconcileOwed || c.proj.reconcileOwed

def onConnecting : OrderStreamConsumer :=
  { c with machine := c.machine.onConnecting, proj := c.proj.onStreamConnecting }

def onSocketOpen : OrderStreamConsumer := { c with machine := c.machine.onSocketOpen }

/-- A repeated callback for the generation in flight re-arms nothing. -/
def onAuthenticated (evidence : OrderStreamAuthEvidence) (now : ℚ) : OrderStreamConsumer :=
  let reconnect := c.machine.everConnected
  let machine := c.machine.onAuthenticated evidence
  if machine.gen = c.machine.gen then { c with machine := machine }
  else
    { c with
      machine := machine
      proj := c.proj.onStreamConnected true reconnect
      sweepAttempts := 0
      nextSweepNotBeforeWall := none
      lastStreamEventAtWall := some now }

def noteRestVerifiedSession : OrderStreamConsumer :=
  { c with machine := c.machine.noteRestVerifiedSession }

def onIdle : OrderStreamConsumer :=
  { c with machine := c.machine.onIdle, proj := c.proj.onStreamIdle }

/-- Silence counts only while a working order is outstanding. -/
def evaluateIdle (now : ℚ) : OrderStreamConsumer :=
  if c.workingOrders = [] then c
  else if c.machine.current ≠ .ready ∧ c.machine.current ≠ .reconciling then c
  else
    match c.lastStreamEventAtWall with
    | none => c
    | some since => if now - since > c.expectedIdleMs then c.onIdle else c

def onDisconnected : OrderStreamConsumer :=
  { c with machine := c.machine.onDisconnected, proj := c.proj.onStreamDisconnected }

def onSessionLost : OrderStreamConsumer :=
  { c with machine := c.machine.onSessionLost, proj := c.proj.onStreamSessionLost }

def setStreamEnabled (enabled : Bool) : OrderStreamConsumer :=
  { c with machine := c.machine.setEnabled enabled, proj := c.proj.setStreamEnabled enabled }

/-- A sweep of the current generation is registered: a caller joins it. -/
def joinsSweep : Bool :=
  c.sweepInFlight.isSome && c.sweepInFlightGeneration = some c.machine.gen

def noSweepWired : String :=
  "no reconciliation sweep is wired, so nothing can prove the account is synchronized"

def supersededSweep : String :=
  "a reconciliation result arrived for a superseded connection and was discarded; " ++
    "the current connection still owes its own reconciliation"

def inconsistentSweep : String := "the reconciliation sweep reported the account inconsistent"

/-- `runReconnectReconciliation` before its await. The barrier is published before the
sweep's own code can run; the generation it will be held to is the current one. -/
def runReconnectReconciliation (barrier : Nat) : Option Nat × OrderStreamConsumer :=
  if c.joinsSweep then (none, c)
  else if !c.reconcilePending then (none, c)
  else if !c.opts.reconcileSweep then
    (none, { c with lastSweepFailure := some noSweepWired })
  else
    (some c.machine.gen,
      { c with
        sweepInFlight := some barrier
        sweepInFlightGeneration := some c.machine.gen })

/-- The tests `ensureReconciled` makes before it starts or joins a sweep. -/
def needsSweep (now : ℚ) : Bool :=
  c.reconcilePending && !c.joinsSweep && c.opts.reconcileSweep && c.machine.isEstablished &&
    !c.nextSweepNotBeforeWall.any (now < ·)

/-- Record a failed sweep, and arm a bounded retry for a connection that still exists. -/
def noteSweepFailure (atGeneration : Nat) (reason : String) (now : ℚ) : OrderStreamConsumer :=
  let c := { c with lastSweepFailure := some reason }
  if atGeneration ≠ c.machine.gen then c
  else
    let attempts := c.sweepAttempts + 1
    let base := max 250 (c.opts.reconcileRetryBaseMs.getD 2000)
    let most := max base (c.opts.reconcileRetryMaxMs.getD 60000)
    let delay := min most (base * 2 ^ min 8 (attempts - 1))
    { c with sweepAttempts := attempts, nextSweepNotBeforeWall := some (now + delay) }

/-- How a sweep ends. -/
inductive SweepEnd where
  | threw (message : String)
  | resolved (outcome : Option ReconcileSweepOutcome)
  deriving DecidableEq, Repr

/-- The verdict under which the machine may leave reconciling. -/
def SweepEnd.consistent : SweepEnd → Bool
  | .threw _ => false
  | .resolved outcome => !outcome.any (!·.synchronized)

/-- `executeSweep` after its await. -/
def finishSweep (startedAtGeneration : Nat) (result : SweepEnd) (now : ℚ) : OrderStreamConsumer :=
  match result with
  | .threw message =>
    c.noteSweepFailure startedAtGeneration s!"reconciliation sweep failed: {message}" now
  | .resolved outcome =>
    if startedAtGeneration ≠ c.machine.gen then
      { c with lastSweepFailure := some supersededSweep }
    else if outcome.any (!·.synchronized) then
      c.noteSweepFailure startedAtGeneration
        ((outcome.bind (·.reason)).getD inconsistentSweep) now
    else
      let (applied, machine) := c.machine.markSynchronized (some startedAtGeneration)
      if applied then
        { c with
          machine := machine
          proj := c.proj.markReconciled
          sweepAttempts := 0
          nextSweepNotBeforeWall := none
          lastSweepFailure := none }
      else { c with machine := machine }

/-- The `finally` of `runReconnectReconciliation`: clear the registration if it is still
this sweep's. -/
def releaseSweep (barrier : Nat) : OrderStreamConsumer :=
  if c.sweepInFlight = some barrier then
    { c with sweepInFlight := none, sweepInFlightGeneration := none }
  else c

end OrderStreamConsumer

end Strikedge.OrderStream
