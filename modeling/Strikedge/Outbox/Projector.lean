import Mathlib.Data.List.Sort
import Strikedge.Machine.RowLocks
import Strikedge.Machine.Run
import Strikedge.Outbox.Writer

/-!
# Draining the outbox

A pass claims the rows that are due and that nobody has locked, publishes them one aggregate
after another, and commits. Any number of passes and of writing transactions run at once;
those that die are rolled back, though what they wrote to Mongo stays.
-/

namespace Strikedge.Outbox

open Machine

abbrev TxId := Nat

/-- The document of a row. Its identity is that of the row. -/
structure ProjectionDocument where
  id : String
  aggregateType : String
  aggregateId : String
  eventType : String
  schemaVersion : Nat
  sequence : Nat
  data : Json
  projectedAt : Nat

structure ProjectorConfig where
  maxBackoffMs : Nat
  maxAttempts : Nat
  deriving DecidableEq, Repr

inductive EnqueueKind where
  | event
  | snapshot
  deriving DecidableEq, Repr

structure Enqueued where
  kind : EnqueueKind
  event : OutboxEvent

/-- A writing transaction: what it has executed, and the statement in hand with the row it
would insert. -/
structure Writer where
  executed : List Enqueued := []
  statement : Option (Enqueued × OutboxRow) := none

/-- A pass: the claimed rows that are still to be published, by aggregate. -/
structure Pass where
  remaining : List (List OutboxRow)

/-- Documents are kept by collection and identity. What was committed is bookkeeping. -/
structure State where
  now : Nat := 0
  sequence : Nat := 0
  nextTx : TxId := 0
  rows : RowLocks String OutboxRow TxId := ∅
  writers : OrderedMap TxId Writer := ∅
  passes : OrderedMap TxId Pass := ∅
  mongo : OrderedMap (String × String) ProjectionDocument := ∅
  enqueued : List Enqueued := []

/-- What becomes of a replacement. A failed one may have been applied all the same. -/
inductive MongoAnswer where
  | replaced
  | failed (message : String) (applied : Bool)

inductive Action where
  | tick (now : Nat)
  | begin
  | enqueue (tx : TxId) (enqueued : Enqueued)
  | execute (tx : TxId)
  | commit (tx : TxId)
  | rollback (tx : TxId)
  | claim (batchSize : Nat)
  | publish (tx : TxId) (answer : MongoAnswer)
  | finish (tx : TxId)
  | crash (tx : TxId)

/-- The rows of each aggregate in the order of their sequence, aggregates as first seen. -/
def groupByAggregate (rows : List OutboxRow) : List (List OutboxRow) :=
  let groups : OrderedMap (String × String) (List OutboxRow) := rows.foldl
    (fun groups row => groups.set row.aggregate ((groups.get? row.aggregate).getD [] ++ [row])) ∅
  groups.values.map (·.insertionSort fun a b => a.sequence ≤ b.sequence)

def documentOf (row : OutboxRow) (now : Nat) : ProjectionDocument where
  id := row.eventId
  aggregateType := row.aggregateType
  aggregateId := row.aggregateId
  eventType := row.eventType
  schemaVersion := row.schemaVersion
  sequence := row.sequence
  data := row.payload
  projectedAt := now

/-- Why a row can never be delivered. -/
def poison (row : OutboxRow) : Option String :=
  if (collectionForAggregate row.aggregateType).isNone then
    some s!"No projection collection for aggregate_type \"{row.aggregateType}\""
  else (secretField "$" row.payload).map secretLeakMessage

def publishedRow (row : OutboxRow) (now : Nat) : OutboxRow :=
  { row with publishedAt := some now, lastError := none }

/-- A failure is retried later, or the row is dead-lettered. -/
def failedRow (cfg : ProjectorConfig) (row : OutboxRow) (now : Nat) (error : String)
    (poisoned : Bool) : OutboxRow :=
  let attempts := row.attempts + 1
  if poisoned || decide (cfg.maxAttempts ≤ attempts) then
    { row with attempts := attempts, lastError := some error, deadLetteredAt := some now }
  else
    { row with
      attempts := attempts
      lastError := some error
      nextAttemptAt := now + backoffMs attempts cfg.maxBackoffMs }

namespace State

variable (cfg : ProjectorConfig) (s : State)

/-- A statement begins: its row takes the next number. A payload with a secret is refused. -/
def enqueue (tx : TxId) (writer : Writer) (enqueued : Enqueued) : Option State :=
  if writer.statement.isSome then none
  else if (secretField "$" enqueued.event.payload).isSome then some s
  else
    let row := insertedRow enqueued.event (s.sequence + 1) s.now
    some { s with
      sequence := s.sequence + 1
      writers := s.writers.set tx { writer with statement := some (enqueued, row) } }

/-- The statement in hand has its effect. It waits while its row is locked by another, but an
event whose row is there does nothing. -/
def execute (tx : TxId) (writer : Writer) : Option State :=
  writer.statement.bind fun (enqueued, row) =>
    let done := { s with writers := s.writers.set tx ⟨writer.executed ++ [enqueued], none⟩ }
    let mine := s.rows.free row.eventId || s.rows.owns row.eventId tx
    let staged (row : OutboxRow) : RowLocks String OutboxRow TxId :=
      (s.rows.lock row.eventId tx).stage row.eventId row
    match enqueued.kind, s.rows.view row.eventId tx with
    | .event, some _ => some done
    | _, none => if mine then some { done with rows := staged row } else none
    | .snapshot, some current =>
      if mine then
        some { done with
          sequence := s.sequence + 1
          rows := staged (revivedRow current enqueued.event (s.sequence + 1) s.now) }
      else none

/-- The due rows that nobody has locked, by sequence, as many as the batch takes. -/
def batch (batchSize : Nat) : List OutboxRow :=
  let claimable := s.rows.committed.values.filter fun row =>
    row.due s.now && s.rows.free row.eventId
  (claimable.insertionSort fun a b => a.sequence ≤ b.sequence).take batchSize

def lockAll (rows : RowLocks String OutboxRow TxId) (batch : List OutboxRow) (tx : TxId) :
    RowLocks String OutboxRow TxId :=
  batch.foldl (fun rows row => rows.lock row.eventId tx) rows

def claim (batchSize : Nat) : State :=
  { s with
    nextTx := s.nextTx + 1
    rows := lockAll s.rows (s.batch batchSize) s.nextTx
    passes := s.passes.set s.nextTx ⟨groupByAggregate (s.batch batchSize)⟩ }

/-- The pass dies, and its transaction is rolled back. -/
def crash (tx : TxId) : State :=
  { s with rows := s.rows.release tx, passes := s.passes.delete tx }

/-- The groups that have rows. -/
def nonempty (groups : List (List OutboxRow)) : List (List OutboxRow) :=
  groups.filter (!·.isEmpty)

/-- Put the document of a row in its collection. -/
def put (row : OutboxRow) : State :=
  match collectionForAggregate row.aggregateType with
  | none => s
  | some collection =>
    { s with mongo := s.mongo.set (collection, row.eventId) (documentOf row s.now) }

def record (tx : TxId) (row : OutboxRow) (remaining : List (List OutboxRow)) : State :=
  { s with
    rows := s.rows.stage row.eventId row
    passes := s.passes.set tx ⟨nonempty remaining⟩ }

/-- The first failure ends the aggregate for this pass. An error too long for its column ends
the pass. -/
def fail (tx : TxId) (row : OutboxRow) (groups : List (List OutboxRow)) (error : String)
    (poisoned : Bool) : State :=
  if lastErrorFits (boundedProjectorError error) then
    s.record tx (failedRow cfg row s.now (boundedProjectorError error) poisoned) groups
  else s.crash tx

/-- Publish the next row of a pass. -/
def publishRow (tx : TxId) (pass : Pass) (answer : MongoAnswer) : Option State :=
  match pass.remaining with
  | (row :: rest) :: groups =>
    match poison row with
    | some error => some (s.fail cfg tx row groups error true)
    | none =>
      match answer with
      | .replaced => some ((s.put row).record tx (publishedRow row s.now) (rest :: groups))
      | .failed message applied =>
        some ((if applied then s.put row else s).fail cfg tx row groups message false)
  | _ => none

def step : State → Action → Option State
  | s, .tick now => if s.now ≤ now then some { s with now := now } else none
  | s, .begin => some { s with nextTx := s.nextTx + 1, writers := s.writers.set s.nextTx {} }
  | s, .enqueue tx enqueued => (s.writers.get? tx).bind fun writer => s.enqueue tx writer enqueued
  | s, .execute tx => (s.writers.get? tx).bind fun writer => s.execute tx writer
  | s, .commit tx =>
    (s.writers.get? tx).bind fun writer =>
      if writer.statement.isSome then none
      else
        some { s with
          rows := s.rows.commit tx
          writers := s.writers.delete tx
          enqueued := s.enqueued ++ writer.executed }
  | s, .rollback tx =>
    (s.writers.get? tx).map fun _ =>
      { s with rows := s.rows.release tx, writers := s.writers.delete tx }
  | s, .claim batchSize => some (s.claim batchSize)
  | s, .publish tx answer => (s.passes.get? tx).bind fun pass => s.publishRow cfg tx pass answer
  | s, .finish tx =>
    (s.passes.get? tx).bind fun pass =>
      if pass.remaining = [] then
        some { s with rows := s.rows.commit tx, passes := s.passes.delete tx }
      else none
  | s, .crash tx => (s.passes.get? tx).map fun _ => s.crash tx

end State

end Strikedge.Outbox
