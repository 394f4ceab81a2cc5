import Mathlib.Data.List.Sort
import Strikedge.Machine.OrderedMap
import Strikedge.Machine.Run
import Strikedge.PnlArchive.Snapshot

/-!
# The archiver

Snapshots and the archiving of a day take turns in the lifecycle. Each of them reads the open
positions at once and the closed trades by a query, and meanwhile the engine goes on: the
record of a trade is closed in the table before the position leaves the book.
-/

namespace Strikedge.PnlArchive

open Machine

/-- An open position with its measured P&L. -/
structure OpenPosition where
  terms : BoxTerms
  grossPnl : Option Number
  netPnl : Option Number
  realisableNetPnl : Option Number
  deriving DecidableEq, Repr

inductive TradeStatus where
  | running
  | closed
  | error
  deriving DecidableEq, Repr

/-- The row of a trade in the trade table. -/
structure BoxTrade where
  status : TradeStatus
  terms : BoxTerms
  closedAt : Option Int
  grossPnl : Option Number
  netPnl : Option Number
  realisedNetPnl : Option Number
  deriving DecidableEq, Repr

def openPnlInputs (positions : OrderedMap String OpenPosition) : List OpenPnlInput :=
  positions.entries.map fun (id, p) => ⟨id, p.terms, p.grossPnl, p.netPnl, p.realisableNetPnl⟩

/-- A trade closed at or after an instant, whatever way it ended. -/
def closedSince (sinceMs : Int) (t : BoxTrade) : Bool :=
  decide (t.status ≠ .running) && t.closedAt.any (sinceMs ≤ ·)

/-- The latest close comes first. -/
def loadBoxTradesClosedSince (trades : OrderedMap String BoxTrade) (sinceMs : Int) :
    List ClosedPnlInput :=
  let closed := trades.entries.filter fun e : String × BoxTrade => closedSince sinceMs e.2
  let ordered := closed.insertionSort fun a b => b.2.closedAt.getD 0 ≤ a.2.closedAt.getD 0
  ordered.map fun (id, t) => ⟨id, t.terms, t.closedAt, t.grossPnl, t.netPnl, t.realisedNetPnl⟩

/-- The first instant of a day in India. -/
def istDayStartMs (day : Int) : Int := day * 86400000 - 19800000

/-- Rows of an archived day. The table has one for a day and a trade. -/
structure PersistedRows where
  rows : List BoxDailyPnlRow
  nodup : (rows.map (·.tradeId)).Nodup

inductive Work where
  | buildSnapshot (day : Int)
  | writeCacheSnapshot
  | archiveDay (day : Int)
  | verifyDay (day : Int)
  | withTradeDeletion (tradeId : String)
  deriving DecidableEq, Repr

/-- What is awaited. -/
inductive Stage where
  /-- the lifecycle -/
  | previous
  /-- the cached day -/
  | readDay (day : Int)
  /-- the archived day and the trades that still exist -/
  | loadPersistedDay (day : Int)
  /-- the query of the closed trades, with the book the open ones were read from -/
  | loadClosed (day : Int) (book : OrderedMap String OpenPosition)
  /-- its answer on the way, from the table as the query found it -/
  | closed (day : Int) (book : OrderedMap String OpenPosition)
      (table : OrderedMap String BoxTrade)
  /-- the writes of the collected rows -/
  | drain
  /-- the cleanup after a deletion -/
  | cleanup

structure Activity where
  work : Work
  stage : Stage

structure Config where
  pnlCacheEnabled : Bool
  isDbEnabled : Bool
  deriving DecidableEq, Repr

/-- The snapshots that were made are bookkeeping. -/
structure State where
  today : Int
  positions : OrderedMap String OpenPosition
  trades : OrderedMap String BoxTrade
  deletedTradeIds : List String
  lifecycle : List Nat
  activities : OrderedMap Nat Activity
  calls : Nat
  lastSummary : Option BoxDailyPnlSummary
  snapshots : List DaySnapshot

def State.initial (today : Int) : State where
  today := today
  positions := ∅
  trades := ∅
  deletedTradeIds := []
  lifecycle := []
  activities := ∅
  calls := 0
  lastSummary := none
  snapshots := []

/-- How an awaited call ends. -/
inductive Answer where
  | settled
  | failed
  | persisted (rows : PersistedRows) (existing : List String)

inductive Action where
  | dayRolls (day : Int)
  | position (id : String) (p : Option OpenPosition)
  | trade (id : String) (t : Option BoxTrade)
  | call (work : Work)
  | resume (id : Nat) (answer : Answer) (nowIso : Int)

namespace State

variable (cfg : Config) (s : State)

def goesTo (id : Nat) (work : Work) (stage : Stage) : State :=
  { s with activities := s.activities.set id ⟨work, stage⟩ }

/-- The call is over, and the lifecycle is free for the next. -/
def ends (id : Nat) : State :=
  { s with
    activities := s.activities.delete id
    lifecycle := s.lifecycle.filter (· ≠ id) }

def makes (snapshot : DaySnapshot) : State :=
  { s with snapshots := s.snapshots ++ [snapshot] }

/-- The open positions are read when the query is sent. -/
def startBuild (id : Nat) (work : Work) (day : Int) : State :=
  s.goesTo id work (.loadClosed day s.positions)

/-- The rows of trades that are not being deleted. -/
def survivors (rows : List BoxDailyPnlRow) : List BoxDailyPnlRow :=
  rows.filter fun row => row.tradeId ∉ s.deletedTradeIds

def safeSnapshot (day nowIso : Int) (rows : List BoxDailyPnlRow) : DaySnapshot :=
  ⟨s.survivors rows, summarizeDayRows day (s.survivors rows) nowIso⟩

/-- Only the snapshots of the lifecycle leave out what is being deleted. -/
def built (work : Work) (day nowIso : Int) (running : List OpenPnlInput)
    (closed : List ClosedPnlInput) : DaySnapshot :=
  match work with
  | .buildSnapshot _ => buildDaySnapshot day running closed nowIso
  | _ => s.safeSnapshot day nowIso (buildDaySnapshot day running closed nowIso).rows

def call (work : Work) : State :=
  let id := s.calls
  let s := { s with calls := s.calls + 1 }
  match work with
  | .buildSnapshot day => s.startBuild id work day
  | .withTradeDeletion tradeId =>
    { s.goesTo id work .previous with
      deletedTradeIds := if tradeId ∈ s.deletedTradeIds then s.deletedTradeIds
        else s.deletedTradeIds ++ [tradeId]
      lifecycle := s.lifecycle ++ [id] }
  | _ => { s.goesTo id work .previous with lifecycle := s.lifecycle ++ [id] }

/-- The turn of a call in the lifecycle. -/
def enter (id : Nat) (work : Work) : State :=
  match work with
  | .buildSnapshot _ => s
  | .writeCacheSnapshot =>
    if cfg.pnlCacheEnabled then s.startBuild id work s.today else s.ends id
  | .archiveDay day | .verifyDay day =>
    if cfg.isDbEnabled then s.goesTo id work (.readDay day) else s.ends id
  | .withTradeDeletion _ => s.goesTo id work .cleanup

/-- The cache is off, so nothing is ever cached for the day. -/
def collectDay (id : Nat) (work : Work) (day : Int) : State :=
  if day ≠ s.today then s.goesTo id work (.loadPersistedDay day) else s.startBuild id work day

/-- What follows a snapshot once it is made. -/
def deliver (id : Nat) (work : Work) (snapshot : DaySnapshot) : State :=
  match work with
  | .archiveDay _ | .verifyDay _ => (s.makes snapshot).goesTo id work .drain
  | .writeCacheSnapshot => { (s.makes snapshot).ends id with lastSummary := some snapshot.summary }
  | .buildSnapshot _ | .withTradeDeletion _ => (s.makes snapshot).ends id

def cleaned (work : Work) : State :=
  match work with
  | .withTradeDeletion tradeId =>
    { s with deletedTradeIds := s.deletedTradeIds.filter (· ≠ tradeId) }
  | _ => s

def resume (id : Nat) (a : Activity) (answer : Answer) (nowIso : Int) : Option State :=
  match a.stage, answer with
  | .previous, .settled =>
    if s.lifecycle.head? = some id then some (s.enter cfg id a.work) else none
  | .readDay day, .settled => some (s.collectDay id a.work day)
  | .readDay _, .failed => some (s.ends id)
  | .loadPersistedDay day, .persisted stored existing =>
    some (s.deliver id a.work
      (s.safeSnapshot day nowIso (stored.rows.filter fun row => row.tradeId ∈ existing)))
  | .loadPersistedDay _, .failed => some (s.ends id)
  | .loadClosed day book, .settled => some (s.goesTo id a.work (.closed day book s.trades))
  | .loadClosed _ _, .failed => some (s.ends id)
  | .closed day book table, .settled =>
    some (s.deliver id a.work (s.built a.work day nowIso (openPnlInputs book)
      (loadBoxTradesClosedSince table (istDayStartMs day))))
  | .drain, .settled | .drain, .failed => some (s.ends id)
  | .cleanup, .settled | .cleanup, .failed => some ((s.ends id).cleaned a.work)
  | _, _ => none

def step : State → Action → Option State
  | s, .dayRolls day => some { s with today := day }
  | s, .position id (some p) => some { s with positions := s.positions.set id p }
  | s, .position id none => some { s with positions := s.positions.delete id }
  | s, .trade id (some t) => some { s with trades := s.trades.set id t }
  | s, .trade id none => some { s with trades := s.trades.delete id }
  | s, .call work => some (s.call work)
  | s, .resume id answer nowIso => (s.activities.get? id).bind (s.resume cfg id · answer nowIso)

end State

end Strikedge.PnlArchive
