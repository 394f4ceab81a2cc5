import Strikedge.Machine.OrderedMap
import Strikedge.Machine.Run

/-!
# The manager of the active broker

One broker at a time owns the feed, the scanner and execution. A switch samples what would
make it unsafe, asks the database for the unresolved intents of the outgoing broker, tears
the outgoing side down, and then moves the active broker together with a new generation. It
suspends at the query, at the clearing of reservations and at the durable write, and other
switches and all other requests run in between. A restart adopts the durable row.
-/

namespace Strikedge.ActiveBroker

open Machine

inductive BrokerId where
  | zerodha
  | dhan
  deriving DecidableEq, Repr

def BrokerId.text : BrokerId → String
  | zerodha => "zerodha"
  | dhan => "dhan"

inductive SwitchBlockReason where
  | scannerRunning
  | openBoxPositions
  | workingOrders
  | executionInFlight
  | unresolvedReconciliation
  | residualExposure
  | unknownOrderState
  | foreignUnresolvedIntents
  | brokerNotConfigured
  deriving DecidableEq, Repr

structure SwitchBlocker where
  reason : SwitchBlockReason
  detail : String
  deriving DecidableEq, Repr

/-- What the exposure probe reports. -/
structure ExposureProbe where
  scannerRunning : Bool := false
  openPositionCount : Nat := 0
  brokersWithOpenPositions : List BrokerId := []
  workingOrderCount : Nat := 0
  executionInFlight : Bool := false
  reconciliationComplete : Bool := true
  residualLegCount : Nat := 0
  unknownOrderCount : Nat := 0
  deriving DecidableEq, Repr

def blockWhen (condition : Bool) (reason : SwitchBlockReason) (detail : String) :
    List SwitchBlocker :=
  if condition then [⟨reason, detail⟩] else []

/-- Everything the probe reports against a switch, the scanner apart. -/
def ExposureProbe.standing (probe : ExposureProbe) : List SwitchBlocker :=
  blockWhen (0 < probe.openPositionCount) .openBoxPositions
      (s!"{probe.openPositionCount} open Box position(s) (" ++
        ", ".intercalate (probe.brokersWithOpenPositions.map (·.text)) ++
        "). Close, flatten or delete them first.") ++
    blockWhen (0 < probe.workingOrderCount) .workingOrders
      (s!"{probe.workingOrderCount} broker order(s) still working. " ++
        "Cancel them before changing broker.") ++
    blockWhen probe.executionInFlight .executionInFlight
      "An entry or exit is in flight. Wait for it to finish." ++
    blockWhen (!probe.reconciliationComplete) .unresolvedReconciliation
      "Broker reconciliation is incomplete. Run reconcile and resolve it first." ++
    blockWhen (0 < probe.residualLegCount) .residualExposure
      s!"{probe.residualLegCount} residual leg(s) of exposure outstanding. Flatten them first." ++
    blockWhen (0 < probe.unknownOrderCount) .unknownOrderState
      (s!"{probe.unknownOrderCount} order(s) are in an unknown state. " ++
        "Reconcile before changing broker.")

def ExposureProbe.blockers (probe : ExposureProbe) : List SwitchBlocker :=
  blockWhen probe.scannerRunning .scannerRunning
    "The Box scanner is running. Press STOP before changing broker." ++ probe.standing

/-- The answer of the query for unresolved intents. -/
inductive QueryAnswer where
  | count (outstanding : Nat)
  | rejected
  deriving DecidableEq, Repr

/-- A rejected query counts as no intents. -/
def QueryAnswer.outstanding : QueryAnswer → Nat
  | count outstanding => outstanding
  | rejected => 0

def intentBlockers (leaving target : BrokerId) (outstanding : Nat) : List SwitchBlocker :=
  blockWhen (0 < outstanding) .foreignUnresolvedIntents
    (s!"{outstanding} unresolved {leaving.text} order intent(s) remain. " ++
      s!"They can only be reconciled through {leaving.text}, " ++
      s!"so resolve them before switching to {target.text}.")

/-- How far a durable write has come: sent, given a sequence value, or answered with the
generation that was stored, or with nothing where the caller saw it fail. -/
inductive SaveProgress where
  | sent
  | drawn (generation : Nat)
  | replied (persisted : Option Nat)
  deriving DecidableEq, Repr

/-- Where a switch is suspended. -/
inductive SwitchPhase where
  | querying (sampled : List SwitchBlocker) (leaving : BrokerId) (answer : Option QueryAnswer)
  | clearing
  | saving (progress : SaveProgress)
  deriving DecidableEq, Repr

structure SwitchCall where
  target : BrokerId
  phase : SwitchPhase
  deriving DecidableEq, Repr

/-- The single row of the durable selection. -/
structure ActiveBrokerRow where
  broker : BrokerId
  generation : Nat
  deriving DecidableEq, Repr

/-- A broker and a generation the manager held together; whether a switch brought them. -/
structure Holding where
  broker : BrokerId
  generation : Nat
  switched : Bool
  deriving DecidableEq, Repr

/-- What a switch did: it went on after its query, or it moved the active broker, with the
blockers of the instant of the move. -/
inductive SwitchEvent where
  | wentOn (answer : QueryAnswer)
  | moved (outgoing : BrokerId) (blockers : List SwitchBlocker)
  deriving DecidableEq, Repr

/-- The manager, the switches in flight, what they can see of the rest of the process, and
the database. `abandoned` are the writes a process had sent when it died. `held`, newest
first, and `log` are bookkeeping. -/
structure Manager where
  active : BrokerId
  gen : Nat
  dhanProblem : Option String := none
  probe : ExposureProbe := {}
  calls : OrderedMap Nat SwitchCall := ∅
  nextCall : Nat := 0
  row : Option ActiveBrokerRow := none
  intents : BrokerId → Nat := fun _ => 0
  lastSequence : Nat := 0
  abandoned : List (BrokerId × SaveProgress) := []
  held : List Holding
  log : List SwitchEvent := []

inductive Label where
  | switchBroker (target : BrokerId)
  | answerQuery (id : Nat) (readable : Bool)
  | resumeQuery (id : Nat) (throws : Bool)
  | resumeClear (id : Nat)
  | drawSequence (id : Nat) (generation : Nat)
  | answerSave (id : Nat) (stored : Bool) (heard : Bool)
  | resumeSave (id : Nat)
  | setProbe (probe : ExposureProbe)
  | setIntents (broker : BrokerId) (outstanding : Nat)
  | restart (default : BrokerId)
  | drawAbandoned (index : Nat) (generation : Nat)
  | storeAbandoned (index : Nat)
  deriving Repr

namespace Manager

variable (m : Manager)

/-- The blockers of a switch that are known at once. -/
def sampled (target : BrokerId) : List SwitchBlocker :=
  (if target = .dhan then
    (m.dhanProblem.map fun reason => ⟨.brokerNotConfigured, reason⟩).toList
  else []) ++ m.probe.blockers

/-- All that stands against a switch at this instant. -/
def blockersNow (target : BrokerId) : List SwitchBlocker :=
  m.sampled target ++ intentBlockers m.active target (m.intents m.active)

def setPhase (id : Nat) (call : SwitchCall) (phase : SwitchPhase) : Manager :=
  { m with calls := m.calls.set id { call with phase := phase } }

def drop (id : Nat) : Manager := { m with calls := m.calls.delete id }

/-- Selecting the active broker again is a success that does nothing. -/
def switchBroker (target : BrokerId) : Manager :=
  if target = m.active then m
  else
    { m with
      calls := m.calls.set m.nextCall
        ⟨target, .querying (m.sampled target) m.active none⟩
      nextCall := m.nextCall + 1 }

/-- The blockers are complete: refuse, or stop the scanner and tear the outgoing broker down.
A hook that throws ends the switch. -/
def proceed (id : Nat) (call : SwitchCall) (sampled : List SwitchBlocker) (leaving : BrokerId)
    (answer : QueryAnswer) (throws : Bool) : Manager :=
  if sampled ++ intentBlockers leaving call.target answer.outstanding ≠ [] then m.drop id
  else
    let m := { m with
      probe := { m.probe with scannerRunning := false }
      log := .wentOn answer :: m.log }
    if throws then m.drop id else m.setPhase id call .clearing

/-- The counter moves also where persistence is unavailable. -/
def nextGen (persisted : Option Nat) : Nat :=
  match persisted with
  | some generation => max (m.gen + 1) generation
  | none => m.gen + 1

/-- The switch itself: broker and generation move together. -/
def adopt (id : Nat) (call : SwitchCall) (persisted : Option Nat) : Manager :=
  { m with
    active := call.target
    gen := m.nextGen persisted
    calls := m.calls.delete id
    held := ⟨call.target, m.nextGen persisted, true⟩ :: m.held
    log := if call.target = m.active then m.log
      else .moved m.active (m.blockersNow call.target) :: m.log }

/-- The write reaches the row, or does not, and its caller hears of it, or does not. -/
def answerSave (id : Nat) (call : SwitchCall) (generation : Nat) (stored heard : Bool) : Manager :=
  let m := if stored then { m with row := some ⟨call.target, generation⟩ } else m
  m.setPhase id call (.saving (.replied (if stored && heard then some generation else none)))

/-- The writes in flight when a process dies. -/
def unanswered (call : SwitchCall) : Option (BrokerId × SaveProgress) :=
  match call.phase with
  | .saving (.replied _) => none
  | .saving progress => some (call.target, progress)
  | _ => none

/-- The pair a booting process adopts: the durable row, or the configured default. -/
def restored (default : BrokerId) : BrokerId × Nat :=
  match m.row with
  | some row => (row.broker, row.generation)
  | none => (default, 1)

/-- The process dies and a new one restores the selection. -/
def restart (default : BrokerId) : Manager :=
  { m with
    active := (m.restored default).1
    gen := (m.restored default).2
    probe := {}
    calls := ∅
    abandoned := m.abandoned ++ m.calls.values.filterMap unanswered
    held := ⟨(m.restored default).1, (m.restored default).2, false⟩ :: m.held }

def step (m : Manager) : Label → Option Manager
  | .switchBroker target => some (m.switchBroker target)
  | .answerQuery id readable =>
    match m.calls.get? id with
    | some ⟨target, .querying sampled leaving none⟩ =>
      let answer := if readable then .count (m.intents leaving) else .rejected
      some (m.setPhase id ⟨target, .querying sampled leaving none⟩
        (.querying sampled leaving (some answer)))
    | _ => none
  | .resumeQuery id throws =>
    match m.calls.get? id with
    | some ⟨target, .querying sampled leaving (some answer)⟩ =>
      some (m.proceed id ⟨target, .querying sampled leaving (some answer)⟩ sampled leaving answer
        throws)
    | _ => none
  | .resumeClear id =>
    match m.calls.get? id with
    | some ⟨target, .clearing⟩ => some (m.setPhase id ⟨target, .clearing⟩ (.saving .sent))
    | _ => none
  | .drawSequence id generation =>
    match m.calls.get? id with
    | some ⟨target, .saving .sent⟩ =>
      if m.lastSequence < generation then
        some ({ m with lastSequence := generation }.setPhase id ⟨target, .saving .sent⟩
          (.saving (.drawn generation)))
      else none
    | _ => none
  | .answerSave id stored heard =>
    match m.calls.get? id with
    | some ⟨target, .saving .sent⟩ =>
      if stored then none
      else some (m.setPhase id ⟨target, .saving .sent⟩ (.saving (.replied none)))
    | some ⟨target, .saving (.drawn generation)⟩ =>
      some (m.answerSave id ⟨target, .saving (.drawn generation)⟩ generation stored heard)
    | _ => none
  | .resumeSave id =>
    match m.calls.get? id with
    | some ⟨target, .saving (.replied persisted)⟩ =>
      some (m.adopt id ⟨target, .saving (.replied persisted)⟩ persisted)
    | _ => none
  | .setProbe probe => some { m with probe := probe }
  | .setIntents broker outstanding =>
    some { m with intents := fun b => if b = broker then outstanding else m.intents b }
  | .restart default => some (m.restart default)
  | .drawAbandoned index generation =>
    match m.abandoned[index]? with
    | some (target, .sent) =>
      if m.lastSequence < generation then
        some { m with
          lastSequence := generation
          abandoned := m.abandoned.set index (target, .drawn generation) }
      else none
    | _ => none
  | .storeAbandoned index =>
    match m.abandoned[index]? with
    | some (target, .drawn generation) =>
      some { m with
        row := some ⟨target, generation⟩
        abandoned := m.abandoned.eraseIdx index }
    | _ => none

/-- A process that has booted over a database. Its holdings are counted from here. -/
def boot (row : Option ActiveBrokerRow) (lastSequence : Nat) (intents : BrokerId → Nat)
    (default : BrokerId) (dhanProblem : Option String) : Manager :=
  let pair := match row with
    | some row => (row.broker, row.generation)
    | none => (default, 1)
  { active := pair.1
    gen := pair.2
    dhanProblem := dhanProblem
    row := row
    intents := intents
    lastSequence := lastSequence
    held := [⟨pair.1, pair.2, false⟩] }

end Manager

end Strikedge.ActiveBroker
