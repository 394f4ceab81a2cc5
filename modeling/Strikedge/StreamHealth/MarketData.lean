import Strikedge.Machine.Number
import Strikedge.Machine.OrderedMap
import Strikedge.Machine.OrderedSet

/-!
# The market-data lifecycle

The machine derives the health of the tick feed from transport events. Readiness is a
verdict over evidence: the session is authorised, a frame arrived recently, ingestion is
not backed up, and some desired instrument has fresh usable depth stamped with the current
connection generation. Events that only move the transport set the state, every other one
re-derives it.
-/

namespace Strikedge.StreamHealth

open Machine

inductive MarketDataState where
  | disabled
  | connecting
  | authenticating
  | synchronizing
  | ready
  | degraded
  | disconnected
  | authExpired
  deriving DecidableEq, Repr

/-- An instrument token, as the feed reports it. -/
abbrev Token := Number

structure MarketDataStateMachineOptions where
  enabled : Bool
  heartbeatMaxAgeMs : Option ℚ := none
  bookMaxAgeMs : Option ℚ := none
  deriving DecidableEq, Repr

/-- When an instrument last had usable depth, and the generation that belongs to. -/
structure DepthStamp where
  time : ℚ
  gen : Nat
  deriving DecidableEq, Repr

structure MarketDataStateMachine where
  current : MarketDataState
  heartbeatMaxAgeMs : ℚ
  bookMaxAgeMs : ℚ
  gen : Nat := 0
  desired : List Token := []
  depthAt : OrderedMap Token DepthStamp := ∅
  confirmed : List Token := []
  lastHeartbeatAt : Option ℚ := none
  lastFrameAt : Option ℚ := none
  lastDepthAt : Option ℚ := none
  backlog : Bool := false

inductive MarketDataEvent where
  | onConnecting
  | onSocketOpen
  | onAuthenticated
  | onHeartbeat (time : Option ℚ)
  | onFrame (time : Option ℚ)
  | onUsableDepth (token : Token) (time : Option ℚ)
  | onSubscriptionsConfirmed (tokens : List Token)
  | setDesiredInstruments (tokens : List Token)
  | onProcessingBacklog (active : Bool)
  | onDisconnected
  | onSessionLost
  | setEnabled (enabled : Bool)
  | evaluate
  deriving DecidableEq, Repr

namespace MarketDataStateMachine

def new (opts : MarketDataStateMachineOptions) : MarketDataStateMachine where
  current := if opts.enabled then .disconnected else .disabled
  heartbeatMaxAgeMs := max 0 (opts.heartbeatMaxAgeMs.getD 5000)
  bookMaxAgeMs := max 0 (opts.bookMaxAgeMs.getD 10000)

variable (m : MarketDataStateMachine) (now : ℚ)

def isInstrumentFresh (token : Token) : Bool :=
  match m.depthAt.get? token with
  | none => false
  | some d => if d.gen = m.gen then decide (now - d.time ≤ m.bookMaxAgeMs) else false

def isTransportLive : Bool :=
  match m.lastFrameAt with
  | none => false
  | some frame => decide (now - frame ≤ m.heartbeatMaxAgeMs)

/-- An existential: one desired instrument with fresh depth proves the pipeline delivers.
With nothing desired there is nothing to prove it with. -/
def anyDesiredFresh : Bool := m.desired.any (m.isInstrumentFresh now)

/-- Re-derive the state from the evidence. States without a session are left alone. -/
def reevaluate : MarketDataStateMachine :=
  match m.current with
  | .disabled | .authExpired | .connecting | .authenticating | .disconnected => m
  | _ =>
    if m.isTransportLive now && !m.backlog && m.anyDesiredFresh now then
      { m with current := .ready }
    else if m.current = .ready then { m with current := .degraded }
    else if m.current = .degraded then m
    else { m with current := .synchronizing }

/-- `Number.isFinite(t) && t > 0` -/
def isInstrument (token : Token) : Bool := token.finite?.any (0 < ·)

def setDesiredInstruments (tokens : List Token) : MarketDataStateMachine :=
  ({ m with desired := (tokens.filter isInstrument).foldl addMember [] }).reevaluate now

def onSubscriptionsConfirmed (tokens : List Token) : MarketDataStateMachine :=
  if m.current = .disabled ∨ m.current = .authExpired then m
  else ({ m with confirmed := tokens.foldl addMember m.confirmed }).reevaluate now

def onConnecting : MarketDataStateMachine :=
  if m.current = .disabled then m else { m with current := .connecting }

def onSocketOpen : MarketDataStateMachine :=
  if m.current = .disabled ∨ m.current = .authExpired then m
  else { m with current := .authenticating }

/-- A new generation: stamps of the superseded socket no longer count, and the backlog
reported under it is forgotten. -/
def onAuthenticated : MarketDataStateMachine :=
  if m.current = .disabled ∨ m.current = .authExpired then m
  else { m with
    gen := m.gen + 1, confirmed := [], lastDepthAt := none, backlog := false,
    current := .synchronizing }

def onHeartbeat (time : Option ℚ) : MarketDataStateMachine :=
  let t := time.getD now
  ({ m with lastHeartbeatAt := some t, lastFrameAt := some t }).reevaluate now

def onFrame (time : Option ℚ) : MarketDataStateMachine :=
  ({ m with lastFrameAt := some (time.getD now) }).reevaluate now

def onUsableDepth (token : Token) (time : Option ℚ) : MarketDataStateMachine :=
  if m.current = .disabled ∨ m.current = .authExpired then m
  else
    let t := time.getD now
    ({ m with
      depthAt := m.depthAt.set token ⟨t, m.gen⟩
      confirmed := addMember m.confirmed token
      lastDepthAt := some t
      lastFrameAt := some t }).reevaluate now

def onProcessingBacklog (active : Bool) : MarketDataStateMachine :=
  ({ m with backlog := active }).reevaluate now

def onDisconnected : MarketDataStateMachine :=
  if m.current = .disabled ∨ m.current = .authExpired then m
  else { m with current := .disconnected }

def onSessionLost : MarketDataStateMachine :=
  if m.current = .disabled then m else { m with current := .authExpired }

def setEnabled (enabled : Bool) : MarketDataStateMachine :=
  if !enabled then { m with current := .disabled }
  else if m.current = .disabled then { m with current := .disconnected }
  else m

def handle : MarketDataEvent → MarketDataStateMachine
  | .onConnecting => m.onConnecting
  | .onSocketOpen => m.onSocketOpen
  | .onAuthenticated => m.onAuthenticated
  | .onHeartbeat time => m.onHeartbeat now time
  | .onFrame time => m.onFrame now time
  | .onUsableDepth token time => m.onUsableDepth now token time
  | .onSubscriptionsConfirmed tokens => m.onSubscriptionsConfirmed now tokens
  | .setDesiredInstruments tokens => m.setDesiredInstruments now tokens
  | .onProcessingBacklog active => m.onProcessingBacklog now active
  | .onDisconnected => m.onDisconnected
  | .onSessionLost => m.onSessionLost
  | .setEnabled enabled => m.setEnabled enabled
  | .evaluate => m.reevaluate now

end MarketDataStateMachine

end Strikedge.StreamHealth
