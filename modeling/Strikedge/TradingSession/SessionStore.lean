import Strikedge.Machine.Run
import Strikedge.Machine.WriteBehind
import Strikedge.TradingSession.Session

/-!
# The durable session store

The store keeps the record in memory and saves it with every change. A change counts in
memory at once; while its save is under way other calls run, and saves settle in any order. A
save that fails takes its change back, except that of an established box, which is retained
and closes entry until a save lands.
-/

namespace Strikedge.TradingSession

open Machine

structure SessionConfig where
  configuredMaxCompletedTrades : Number
  configuredMaxEntryAttempts : Number
  /-- The deployment has a database. -/
  persistenceAvailable : Bool
  deriving DecidableEq, Repr

inductive Change where
  | arm
  | disarm
  | attempt
  | established (tradeId : TradeId)
  | completed
  | aborted
  | retry
  | reconcile
  deriving DecidableEq, Repr

/-- May a failed save take the change back? -/
def Change.rollbackOnFailure : Change → Bool
  | established _ | retry => false
  | _ => true

abbrev Save := Write Change BoxSessionRecord

/-- `stored` is the row of the database, and `saves` lists the calls since the load, from the
newest. -/
structure TradingSessionStore where
  record : BoxSessionRecord
  loaded : Bool := false
  writeFailed : Bool := false
  stored : Option BoxSessionRecord
  saves : List Save := []
  deriving DecidableEq, Repr

structure ArmRequest where
  /-- The id is minted for the call. -/
  sessionId : String
  maxCompletedTrades : Option Number := none
  maxEntryAttempts : Option Number := none
  armedBy : Option String := none
  openBoxes : Nat := 0
  residualLegs : Nat := 0
  recoveryActive : Bool := false

inductive AttemptAnswer where
  /-- `ok: true` at once: there is nothing to count. -/
  | uncounted
  /-- `ok: false` at once. -/
  | refused
  /-- The answer is that of the save. -/
  | awaiting
  deriving DecidableEq, Repr

namespace TradingSessionStore

variable (cfg : SessionConfig) (s : TradingSessionStore) (now : ℚ) (tradeId : TradeId)

/-- The store as it is built. A deployment without a database has no row. -/
def boot (stored : Option BoxSessionRecord) : TradingSessionStore where
  record := idleSessionRecord now
  stored := if cfg.persistenceAvailable then stored else none

/-- What a restart would load now. -/
def restarted : BoxSessionRecord := s.stored.getD (idleSessionRecord now)

/-- The synchronous part of a commit: the rest runs when the save settles. -/
def commit (change : Change) (next : BoxSessionRecord) : TradingSessionStore :=
  { s with record := next, saves := ⟨change, s.record, next, .inFlight⟩ :: s.saves }

/-- A call that succeeds without a save. -/
def skip (change : Change) : TradingSessionStore :=
  { s with saves := ⟨change, s.record, s.record, .skipped⟩ :: s.saves }

def enforcing : Bool :=
  cfg.configuredMaxCompletedTrades.isPositive || cfg.configuredMaxEntryAttempts.isPositive ||
    (isArmed s.record &&
      (decide (0 < s.record.maxCompletedTrades) || decide (0 < s.record.maxEntryAttempts)))

def evaluateEntry (recoveryActive : Bool) : SessionVerdict :=
  if s.enforcing cfg = false then .allow
  else if cfg.persistenceAvailable = false then .allow
  else if s.loaded = false then .refuse .sessionStateUnreadable
  else if s.writeFailed then .refuse .sessionStateUnreadable
  else evaluateSessionEntry s.record recoveryActive

/-- The load at boot. Nothing has been committed before it. -/
def initialise (readable : Bool) : Option TradingSessionStore :=
  if s.loaded then none
  else if cfg.persistenceAvailable && readable then
    some { s with loaded := true, record := s.restarted now, saves := [] }
  else some s

/-- The rest of the boot: cycles that went flat while the process was down. -/
def reconcile (flatTradeIds : List TradeId) : TradingSessionStore :=
  if s.loaded = false ∨ flatTradeIds = [] then s
  else s.commit .reconcile (reconcileCompletions s.record now flatTradeIds)

def arm (request : ArmRequest) : TradingSessionStore :=
  if s.loaded = false then s
  else if canArm s.record request.openBoxes request.residualLegs request.recoveryActive = false then
    s
  else
    s.commit .arm (armSession request.sessionId
      (request.maxCompletedTrades.getD cfg.configuredMaxCompletedTrades)
      (request.maxEntryAttempts.getD cfg.configuredMaxEntryAttempts) request.armedBy s.record now)

def disarm : TradingSessionStore :=
  if s.loaded = false then s else s.commit .disarm (disarmSession s.record now)

def recordEstablished : TradingSessionStore :=
  if cfg.persistenceAvailable = false ∨ s.loaded = false ∨ isArmed s.record = false then s
  else if recordEstablishedBox s.record tradeId now = s.record ∧ s.writeFailed = false then
    s.skip (.established tradeId)
  else s.commit (.established tradeId) (recordEstablishedBox s.record tradeId now)

def retryPendingWrite : TradingSessionStore :=
  if s.writeFailed = false ∨ cfg.persistenceAvailable = false then s else s.commit .retry s.record

def recordCompleted : TradingSessionStore :=
  if cfg.persistenceAvailable = false ∨ s.loaded = false then s
  else if recordCompletedBox s.record tradeId now = s.record then s
  else s.commit .completed (recordCompletedBox s.record tradeId now)

/-- What `recordAttemptStarted` does with the call. -/
def attemptAnswer : AttemptAnswer :=
  if s.enforcing cfg = false ∨ cfg.persistenceAvailable = false then .uncounted
  else if s.loaded = false ∨ isArmed s.record = false then .refused
  else .awaiting

def recordAttemptStarted : TradingSessionStore :=
  match s.attemptAnswer cfg with
  | .uncounted => s.skip .attempt
  | .refused => s
  | .awaiting => s.commit .attempt (recordEntryAttemptStarted s.record now)

def recordAborted : TradingSessionStore :=
  if cfg.persistenceAvailable = false ∨ s.loaded = false ∨ isArmed s.record = false then s
  else s.commit .aborted (recordAbortedAttempt s.record now)

/-- The rest of the commit of the `n`-th newest save, which landed or failed. -/
def settle (n : Nat) (landed : Bool) : Option TradingSessionStore :=
  match s.saves[n]? with
  | none => none
  | some save =>
    if save.status ≠ .inFlight then none
    else if landed then
      some { s with
        stored := some save.next
        writeFailed := false
        saves := s.saves.set n (save.settle .saved) }
    else if save.kind.rollbackOnFailure then
      some { s with record := save.previous, saves := s.saves.set n (save.settle .undone) }
    else some { s with writeFailed := true, saves := s.saves.set n (save.settle .retained) }

end TradingSessionStore

inductive Call where
  | initialise (readable : Bool)
  | reconcile (flatTradeIds : List TradeId)
  | arm (request : ArmRequest)
  | disarm
  | recordEstablished (tradeId : TradeId)
  | retryPendingWrite
  | recordCompleted (tradeId : TradeId)
  | recordAttemptStarted
  | recordAborted
  /-- A save settles: the `n`-th newest of them. -/
  | settle (n : Nat) (landed : Bool)

/-- A call, and the clock it reads. -/
structure Label where
  call : Call
  now : ℚ := 0

namespace TradingSessionStore

variable (cfg : SessionConfig)

def step (s : TradingSessionStore) (label : Label) : Option TradingSessionStore :=
  match label.call with
  | .initialise readable => s.initialise cfg label.now readable
  | .reconcile flatTradeIds => some (s.reconcile label.now flatTradeIds)
  | .arm request => some (s.arm cfg label.now request)
  | .disarm => some (s.disarm label.now)
  | .recordEstablished tradeId => some (s.recordEstablished cfg label.now tradeId)
  | .retryPendingWrite => some (s.retryPendingWrite cfg)
  | .recordCompleted tradeId => some (s.recordCompleted cfg label.now tradeId)
  | .recordAttemptStarted => some (s.recordAttemptStarted cfg label.now)
  | .recordAborted => some (s.recordAborted cfg label.now)
  | .settle n landed => s.settle n landed

end TradingSessionStore

end Strikedge.TradingSession
