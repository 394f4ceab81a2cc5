import Strikedge.Machine.Run
import Strikedge.OrderStream.Consumer

/-!
# Runs of the consumer

A label is one callback the consumer receives or one continuation of a sweep it started. A
sweep runs for as long as its environment likes and ends in two steps: its verdict arrives,
and then its registration is cleared. Everything the transports do in one synchronous block
(a socket that opens, is authorised and starts a sweep) is the sequence of its calls. The
log records what a reader of a run cares about and is read by no step.
-/

namespace Strikedge.OrderStream

open Machine Orders StreamHealth

/-- A sweep whose promise is not settled, or not yet released. -/
structure RunningSweep where
  barrier : Nat
  generation : Nat
  settled : Bool := false
  deriving DecidableEq, Repr

inductive Happening where
  | started (barrier generation : Nat)
  | concluded (barrier : Nat) (consistent : Bool)
  /-- the connection or the session was reported gone, or the stream was switched off -/
  | dropped
  /-- a connected stream was demoted for silence -/
  | idled
  /-- a stream frame skipped sequence numbers -/
  | sequenceGap
  deriving DecidableEq, Repr

structure Stream where
  consumer : OrderStreamConsumer
  sweeps : List RunningSweep := []
  nextBarrier : Nat := 0
  log : List Happening := []

inductive Callback where
  | connecting
  | open
  | ready (evidence : OrderStreamAuthEvidence) (now : ℚ)
  | frame (obs : NormalizedOrderObservation) (now : ℚ) (sink : Sink)
  | rest (obs : NormalizedOrderObservation) (source : FillEventSource) (now : ℚ) (sink : Sink)
  | idle
  | evaluateIdle (now : ℚ)
  | close
  | authFailure
  | setStreamEnabled (enabled : Bool)
  | restVerified
  | register (args : RegisterIntentArgs) (account : Option String)
  | settle (clientOrderId : String)
  | learn (clientOrderId : String) (brokerOrderId : Option String)
  | reconcile
  | ensureReconciled (now : ℚ)
  | sweepEnds (barrier : Nat) (result : OrderStreamConsumer.SweepEnd) (now : ℚ)
  | sweepReleases (barrier : Nat)
  deriving Repr

/-- The promise of the sweep with this barrier is settled. -/
def markSettled (sweeps : List RunningSweep) (barrier : Nat) : List RunningSweep :=
  sweeps.map fun w => if w.barrier = barrier then { w with settled := true } else w

namespace Stream

def new (opts : OrderStreamConsumerOptions) : Stream where
  consumer := .new opts

variable (s : Stream)

/-- A synchronous callback of the consumer. -/
def become (consumer : OrderStreamConsumer) (happenings : List Happening := []) : Stream :=
  { s with consumer := consumer, log := s.log ++ happenings }

/-- The frame carries a sequence number beyond the next one of its order. -/
def skips (obs : NormalizedOrderObservation) : Bool :=
  match obs.sequence.bind Number.finite?, s.consumer.proj.resolveOwner obs with
  | some sequence, some clientOrderId =>
    ((s.consumer.proj.ledgers.get? clientOrderId).bind (·.highestSequence)).any
      (· + 1 < sequence)
  | _, _ => false

/-- A demotion for silence, when there was a state to demote. -/
def idling (consumer : OrderStreamConsumer) : List Happening :=
  if consumer.machine.current ≠ s.consumer.machine.current then [.idled] else []

def startSweep : Stream :=
  let (started, consumer) := s.consumer.runReconnectReconciliation s.nextBarrier
  match started with
  | none => { s with consumer := consumer }
  | some generation =>
    { s with
      consumer := consumer
      sweeps := s.sweeps ++ [⟨s.nextBarrier, generation, false⟩]
      nextBarrier := s.nextBarrier + 1
      log := s.log ++ [.started s.nextBarrier generation] }

/-- The verdict of a sweep arrives. -/
def endSweep (sweep : RunningSweep) (result : OrderStreamConsumer.SweepEnd) (now : ℚ) : Stream :=
  { s with
    consumer := s.consumer.finishSweep sweep.generation result now
    sweeps := markSettled s.sweeps sweep.barrier
    log := s.log ++ [.concluded sweep.barrier result.consistent] }

def step (s : Stream) : Callback → Option Stream
  | .connecting => some (s.become s.consumer.onConnecting)
  | .open => some (s.become s.consumer.onSocketOpen)
  | .ready evidence now => some (s.become (s.consumer.onAuthenticated evidence now))
  | .frame obs now sink =>
    some (s.become (s.consumer.ingestStreamObservation obs now sink).consumer
      (if s.skips obs then [.sequenceGap] else []))
  | .rest obs source now sink =>
    some (s.become (s.consumer.ingestRestObservation obs source now sink).consumer)
  | .idle => some (s.become s.consumer.onIdle (s.idling s.consumer.onIdle))
  | .evaluateIdle now =>
    some (s.become (s.consumer.evaluateIdle now) (s.idling (s.consumer.evaluateIdle now)))
  | .close => some (s.become s.consumer.onDisconnected [.dropped])
  | .authFailure => some (s.become s.consumer.onSessionLost [.dropped])
  | .setStreamEnabled enabled =>
    some (s.become (s.consumer.setStreamEnabled enabled) (if enabled then [] else [.dropped]))
  | .restVerified => some (s.become s.consumer.noteRestVerifiedSession)
  | .register args account => some (s.become (s.consumer.registerIntent args account))
  | .settle clientOrderId => some (s.become (s.consumer.markOrderSettled clientOrderId))
  | .learn clientOrderId brokerOrderId =>
    some (s.become (s.consumer.learnBrokerOrderId clientOrderId brokerOrderId))
  | .reconcile => some s.startSweep
  | .ensureReconciled now => some (if s.consumer.needsSweep now then s.startSweep else s)
  | .sweepEnds barrier result now =>
    (s.sweeps.find? fun w => w.barrier = barrier ∧ w.settled = false).map
      fun sweep => s.endSweep sweep result now
  | .sweepReleases barrier =>
    (s.sweeps.find? fun w => w.barrier = barrier ∧ w.settled = true).map fun _ =>
      { s with
        consumer := s.consumer.releaseSweep barrier
        sweeps := s.sweeps.filter (·.barrier ≠ barrier) }

end Stream

end Strikedge.OrderStream
