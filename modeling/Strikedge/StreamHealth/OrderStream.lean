import Mathlib.Init

/-!
# The order-stream lifecycle

The machine turns transport events into the state that governs new entry. A connection
generation advances whenever the identity or validity of the session changes, so that the
verdict of a reconciliation sweep can be tied to the connection it examined, and a debt is
kept until a sweep of the current generation settles it.
-/

namespace Strikedge.StreamHealth

inductive OrderStreamLifecycleState where
  | disabled
  | connecting
  | authenticating
  | reconciling
  | ready
  | degraded
  | disconnected
  | authExpired
  deriving DecidableEq, Repr

/-- How strongly the authorisation of the session is established. -/
inductive OrderStreamAuthEvidence where
  | none
  | loginSubmitted
  | brokerAcknowledged
  | restVerified
  deriving DecidableEq, Repr

def OrderStreamAuthEvidence.rank : OrderStreamAuthEvidence → Nat
  | .none => 0
  | .loginSubmitted => 1
  | .brokerAcknowledged => 2
  | .restVerified => 3

/-- Keep the stronger of two readings. -/
def strongerAuthEvidence (a b : OrderStreamAuthEvidence) : OrderStreamAuthEvidence :=
  if b.rank > a.rank then b else a

structure OrderStreamStateMachine where
  current : OrderStreamLifecycleState
  everConnected : Bool := false
  reconcileOwed : Bool := false
  gen : Nat := 0
  authEvidence : OrderStreamAuthEvidence := .none
  deriving DecidableEq, Repr

namespace OrderStreamStateMachine

def new (enabled : Bool) : OrderStreamStateMachine where
  current := if enabled then .disconnected else .disabled

variable (m : OrderStreamStateMachine)

def setEnabled (enabled : Bool) : OrderStreamStateMachine :=
  if !enabled then
    { m with gen := m.gen + 1, current := .disabled, reconcileOwed := false, authEvidence := .none }
  else if m.current = .disabled then { m with current := .disconnected }
  else m

/-- Past authentication: the generation is allocated and its debt is owed or settled. -/
def isEstablished : Bool :=
  match m.current with
  | .reconciling | .ready | .degraded => true
  | _ => false

def onConnecting : OrderStreamStateMachine :=
  if m.current = .disabled then m
  else if m.isEstablished then m
  else { m with current := .connecting }

def onSocketOpen : OrderStreamStateMachine :=
  if m.current = .disabled then m
  else if m.isEstablished then m
  else { m with current := .authenticating }

/-- Idempotent within a generation: a repeated callback only strengthens the evidence. -/
def onAuthenticated (evidence : OrderStreamAuthEvidence) : OrderStreamStateMachine :=
  if m.current = .disabled then m
  else if m.isEstablished then
    { m with authEvidence := strongerAuthEvidence m.authEvidence evidence }
  else
    { m with
      everConnected := true, reconcileOwed := true, authEvidence := evidence,
      gen := m.gen + 1, current := .reconciling }

def noteRestVerifiedSession : OrderStreamStateMachine :=
  if m.current = .disabled then m
  else { m with authEvidence := strongerAuthEvidence m.authEvidence .restVerified }

/-- The only path to readiness. A verdict of another generation is refused. -/
def markSynchronized (atGeneration : Option Nat) : Bool × OrderStreamStateMachine :=
  if m.current = .disabled then (false, m)
  else if atGeneration.any (· ≠ m.gen) then (false, m)
  else
    (true, { m with
      reconcileOwed := false
      authEvidence := strongerAuthEvidence m.authEvidence .restVerified
      current := if m.current = .reconciling ∨ m.current = .degraded then .ready
        else m.current })

/-- A verdict of the current generation is applied. -/
theorem markSynchronized_applied {m : OrderStreamStateMachine} {generation : Nat}
    (hlive : m.current ≠ .disabled) (hgen : generation = m.gen) :
    m.markSynchronized (some generation) =
      (true, { m with
        reconcileOwed := false
        authEvidence := strongerAuthEvidence m.authEvidence .restVerified
        current := if m.current = .reconciling ∨ m.current = .degraded then .ready
          else m.current }) := by
  rw [markSynchronized, if_neg hlive, if_neg]
  rw [hgen]
  simp

/-- Connected, but nothing usable arrived within the idle bound. -/
def onIdle : OrderStreamStateMachine :=
  if m.current = .ready ∨ m.current = .reconciling then { m with current := .degraded } else m

def onDisconnected : OrderStreamStateMachine :=
  if m.current = .disabled ∨ m.current = .authExpired then m
  else
    { m with gen := m.gen + 1, reconcileOwed := true, authEvidence := .none,
             current := .disconnected }

def onSessionLost : OrderStreamStateMachine :=
  if m.current = .disabled then m
  else
    { m with gen := m.gen + 1, reconcileOwed := true, authEvidence := .none,
             current := .authExpired }

end OrderStreamStateMachine

end Strikedge.StreamHealth
