import Mathlib.Data.Finset.Basic
import Strikedge.Machine.OrderedMap

/-!
# From a tick to a position

A strike pair is claimed before its entry is executed and given back when no position comes of
it. The claim is one set of the position book, the pipelines in flight are a second one of the
scanner, and the positions by key are a third. A pipeline is suspended while the gateway executes
its legs and while the engine opens the trade; everything else happens at one instant.
-/

namespace Strikedge.EntryScanner

abbrev CandidateKey := String

abbrev PositionId := String

structure BoxOpenPosition where
  id : PositionId
  key : CandidateKey
  deriving DecidableEq, Repr

structure BoxPositionBook where
  byId : OrderedMap PositionId BoxOpenPosition := ∅
  byKey : OrderedMap CandidateKey PositionId := ∅
  /-- Strike pairs with an entry in progress. -/
  reserved : Finset CandidateKey := ∅

namespace BoxPositionBook

variable (book : BoxPositionBook)

def getByKey (key : CandidateKey) : Option BoxOpenPosition :=
  (book.byKey.get? key).bind book.byId.get?

def isTaken (key : CandidateKey) : Bool := book.byKey.has key || decide (key ∈ book.reserved)

/-- The book with the pair claimed, where it can be. -/
def reserve (key : CandidateKey) : Option BoxPositionBook :=
  if book.isTaken key then none else some { book with reserved := insert key book.reserved }

def release (key : CandidateKey) : BoxPositionBook :=
  { book with reserved := book.reserved.erase key }

def add (pos : BoxOpenPosition) : BoxPositionBook where
  byId := book.byId.set pos.id pos
  byKey := book.byKey.set pos.key pos.id
  reserved := book.reserved.erase pos.key

def remove (id : PositionId) : BoxPositionBook :=
  match book.byId.get? id with
  | none => book
  | some pos =>
    { byId := book.byId.delete id
      byKey := if book.byKey.get? pos.key = some id then book.byKey.delete pos.key else book.byKey
      reserved := book.reserved.erase pos.key }

end BoxPositionBook

/-- Where a pipeline is suspended. -/
inductive PipelineStage where
  | execution
  | tradePersistence
  deriving DecidableEq, Repr

/-- A call of `attemptEntry`, with the position that has been added for it. -/
structure EntryPipeline where
  key : CandidateKey
  stage : PipelineStage := .execution
  added : Option PositionId := none
  deriving DecidableEq, Repr

/-- The suspended calls are listed. The attempts begun, and the pairs that were filled and of
which no position was added, are bookkeeping. -/
structure BoxScanner where
  positions : BoxPositionBook := {}
  entryInFlight : Finset CandidateKey := ∅
  pipelines : List EntryPipeline := []
  begun : List CandidateKey := []
  lost : List CandidateKey := []

/-- What a tick finds, apart from the pair itself. -/
structure EntryGates where
  discovering : Bool
  marketOpen : Bool
  feedHealthy : Bool
  tradable : Bool
  passedPrefilter : Bool
  hasCapacity : Bool
  qualifies : Bool
  deriving DecidableEq, Repr

/-- The charge legs of a fill and their costs. -/
inductive ChargeLegs where
  | priced
  | missing
  | threw
  deriving DecidableEq, Repr

inductive GatewayAnswer where
  | refused
  | filled (legs : ChargeLegs)
  | threw
  deriving DecidableEq, Repr

/-- How `openPaperTrade` ends. Where it retains the fill, it has queued a microtask that claims
the pair again. -/
inductive OpenAnswer where
  | opened
  | nothing (retained : Bool)
  | threw
  deriving DecidableEq, Repr

inductive Action where
  | evaluate (key : CandidateKey) (gates : EntryGates) (priced : Bool)
  | executed (call : Nat) (answer : GatewayAnswer)
  | added (call : Nat) (id : PositionId)
  | opened (call : Nat) (answer : OpenAnswer)
  | removed (id : PositionId)

namespace BoxScanner

variable (s : BoxScanner)

def release (key : CandidateKey) : BoxScanner :=
  { s with positions := s.positions.release key }

/-- The `finally` of a pipeline. -/
def settle (key : CandidateKey) : BoxScanner :=
  { s with entryInFlight := s.entryInFlight.erase key }

/-- The pipeline after a fill of its legs, with or without a position. -/
def concluded (call : Nat) (pipeline : EntryPipeline) : BoxScanner :=
  { s with
    pipelines := s.pipelines.eraseIdx call
    lost := if pipeline.added = none then s.lost ++ [pipeline.key] else s.lost }

/-- `attemptEntry` up to the gateway. A projection that throws ends it. -/
def attemptEntry (key : CandidateKey) (priced : Bool) : BoxScanner :=
  match s.positions.reserve key with
  | none => s
  | some positions =>
    let s := { s with
      positions := positions
      entryInFlight := insert key s.entryInFlight
      begun := s.begun ++ [key] }
    if priced then { s with pipelines := s.pipelines ++ [{ key := key }] }
    else (s.release key).settle key

def evaluateAndMaybeEnter (key : CandidateKey) (gates : EntryGates) (priced : Bool) :
    BoxScanner :=
  let openKeyTaken := (s.positions.getByKey key).isSome
  if !gates.discovering then s
  else if !gates.marketOpen then s
  else if !gates.feedHealthy then s
  else if openKeyTaken then s
  else if !gates.tradable then s
  else if !gates.passedPrefilter then s
  else if key ∈ s.entryInFlight then s
  else if !gates.hasCapacity then s
  else if !gates.qualifies then s
  else s.attemptEntry key priced

/-- The microtask that `retainOwnedExecution` queues. -/
def reclaim (key : CandidateKey) : BoxScanner :=
  if (s.positions.getByKey key).isSome then s
  else { s with positions := (s.positions.reserve key).getD s.positions }

/-- The pipeline after the gateway. A fill goes on to the engine when its charge legs are
priced. -/
def executed (call : Nat) (pipeline : EntryPipeline) : GatewayAnswer → BoxScanner
  | .filled .priced =>
    { s with pipelines := s.pipelines.set call { pipeline with stage := .tradePersistence } }
  | .filled _ => ((s.concluded call pipeline).release pipeline.key).settle pipeline.key
  | .refused | .threw =>
    (({ s with pipelines := s.pipelines.eraseIdx call }.release pipeline.key).settle
      pipeline.key)

/-- The pipeline after the engine. The microtask of a retained fill was queued before the answer,
so that it runs before the pipeline goes on. -/
def opened (call : Nat) (pipeline : EntryPipeline) : OpenAnswer → BoxScanner
  | .opened => (s.concluded call pipeline).settle pipeline.key
  | .nothing true =>
    (((s.concluded call pipeline).reclaim pipeline.key).release pipeline.key).settle pipeline.key
  | .nothing false | .threw =>
    ((s.concluded call pipeline).release pipeline.key).settle pipeline.key

/-- An id comes from the store, and a position is added before it is returned. -/
def step : BoxScanner → Action → Option BoxScanner
  | s, .evaluate key gates priced => some (s.evaluateAndMaybeEnter key gates priced)
  | s, .executed call answer =>
    (s.pipelines[call]?).bind fun pipeline =>
      if pipeline.stage = .execution then some (s.executed call pipeline answer) else none
  | s, .added call id =>
    (s.pipelines[call]?).bind fun pipeline =>
      if pipeline.stage = .tradePersistence ∧ pipeline.added = none ∧
          s.positions.byId.has id = false then
        some { s with
          positions := s.positions.add ⟨id, pipeline.key⟩
          pipelines := s.pipelines.set call { pipeline with added := some id } }
      else none
  | s, .opened call answer =>
    (s.pipelines[call]?).bind fun pipeline =>
      if pipeline.stage = .tradePersistence ∧ (answer = .opened → pipeline.added ≠ none) then
        some (s.opened call pipeline answer)
      else none
  | s, .removed id => some { s with positions := s.positions.remove id }

end BoxScanner

end Strikedge.EntryScanner
