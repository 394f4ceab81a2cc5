import Mathlib.Data.List.Basic
import Mathlib.Data.Rat.Defs
import Strikedge.Machine.OrderedMap

/-!
# A queue between ingestion and a slow stage

`boundedQueue.ts`. A coalescing queue keeps the latest value of each key, and drops its oldest
entry when a new key finds it full. A queue that never drops takes every item, and its capacity
is a threshold of pressure. The name and the callback of an overload are left out.
-/

namespace Strikedge.Backpressure

inductive OverflowPolicy where
  | coalesce
  | neverDrop
  deriving DecidableEq, Repr

structure BoundedQueueOptions where
  capacity : ℕ
  overflow : OverflowPolicy
  capacity_pos : 0 < capacity

structure QueuedItem (α : Type) where
  key : String
  value : α
  enqueuedAt : ℚ
  deriving DecidableEq, Repr

structure BoundedQueue (α : Type) where
  items : List (QueuedItem α) := []
  /-- the position of a key, kept by a coalescing queue only -/
  indexByKey : OrderedMap String ℕ := ∅
  overloaded : Bool := false
  /-- a drop that no drain has observed yet -/
  droppedHold : Bool := false
  enqueuedCount : ℕ := 0
  processedCount : ℕ := 0
  droppedCount : ℕ := 0
  coalescedCount : ℕ := 0
  overloadEventCount : ℕ := 0

variable {α : Type}

namespace BoundedQueue

variable (opts : BoundedQueueOptions) (q : BoundedQueue α)

def depth : ℕ := q.items.length

def isOverloaded : Bool := q.overloaded

def emitOverload : BoundedQueue α := { q with overloadEventCount := q.overloadEventCount + 1 }

def reassess : BoundedQueue α :=
  if opts.capacity < q.items.length ∧ q.overloaded = false then
    { q with overloaded := true }.emitOverload
  else if ¬ opts.capacity < q.items.length ∧ q.overloaded = true ∧ q.droppedHold = false then
    { q with overloaded := false }
  else q

def forceOverload : BoundedQueue α :=
  if q.overloaded then { q with droppedHold := true }
  else { q with droppedHold := true, overloaded := true }.emitOverload

/-- `reindexAfterShift`: the index is built anew from the items. -/
def reindex : BoundedQueue α :=
  { q with
    indexByKey := q.items.zipIdx.foldl (fun index entry => index.set entry.1.key entry.2) ∅ }

def dropOldest : BoundedQueue α :=
  match q.items with
  | [] => q
  | _ :: items =>
    { q with items := items, droppedCount := q.droppedCount + 1 }.reindex.forceOverload

/-- The item goes to the end. -/
def push (item : QueuedItem α) : BoundedQueue α := { q with items := q.items ++ [item] }

def enqueue (now : ℚ) (value : α) (key : String) : BoundedQueue α :=
  let counted : BoundedQueue α := { q with enqueuedCount := q.enqueuedCount + 1 }
  match opts.overflow with
  | .coalesce =>
    match counted.indexByKey.get? key with
    | some existing =>
      -- the slot and its time stay, and the value is replaced in place
      { counted with
        items := counted.items.modify existing fun item => { item with value := value }
        coalescedCount := counted.coalescedCount + 1 }.reassess opts
    | none =>
      let room := if opts.capacity ≤ counted.items.length then counted.dropOldest else counted
      let pushed := room.push ⟨key, value, now⟩
      { pushed with
        indexByKey := pushed.indexByKey.set key (pushed.items.length - 1) }.reassess opts
  | .neverDrop => (counted.push ⟨key, value, now⟩).reassess opts

def dequeue : Option α × BoundedQueue α :=
  match q.items with
  | [] => (none, q)
  | item :: items =>
    let shifted : BoundedQueue α :=
      { q with items := items, processedCount := q.processedCount + 1, droppedHold := false }
    let indexed :=
      match opts.overflow with
      | .coalesce => shifted.reindex
      | .neverDrop => shifted
    (some item.value, indexed.reassess opts)

def drainAll : List α × BoundedQueue α :=
  (q.items.map (·.value),
    { q with
      processedCount := q.processedCount + q.items.length
      items := []
      indexByKey := ∅
      droppedHold := false }.reassess opts)

end BoundedQueue

/-- What its users know of a queue: what they offered for each key since it was queued, what
was offered in all, and whether a drop has been left unobserved. -/
structure Journal (α : Type) where
  waiting : List (String × List α) := []
  offered : List α := []
  dropped : List (String × List α) := []
  dropPending : Bool := false

namespace Journal

variable (opts : BoundedQueueOptions) (j : Journal α)

/-- The purpose of `enqueue`. -/
def offer (value : α) (key : String) : Journal α :=
  let noted : Journal α := { j with offered := j.offered ++ [value] }
  match opts.overflow with
  | .neverDrop => { noted with waiting := j.waiting ++ [(key, [value])] }
  | .coalesce =>
    if key ∈ j.waiting.map Prod.fst then
      { noted with
        waiting := j.waiting.map fun entry =>
          if entry.1 = key then (entry.1, entry.2 ++ [value]) else entry }
    else if j.waiting.length < opts.capacity then
      { noted with waiting := j.waiting ++ [(key, [value])] }
    else
      { noted with
        waiting := j.waiting.tail ++ [(key, [value])]
        dropped := j.dropped ++ j.waiting.take 1
        dropPending := true }

def take : Journal α := { j with waiting := j.waiting.tail, dropPending := false }

def drain : Journal α := { j with waiting := [], dropPending := false }

end Journal

/-- A queue with all it has returned. -/
structure Used (α : Type) where
  queue : BoundedQueue α := {}
  returned : List α := []
  journal : Journal α := {}

inductive Action (α : Type) where
  | enqueue (now : ℚ) (value : α) (key : String)
  | dequeue
  | drainAll

namespace Used

variable (opts : BoundedQueueOptions)

def step (u : Used α) : Action α → Used α
  | .enqueue now value key =>
    { u with
      queue := u.queue.enqueue opts now value key
      journal := u.journal.offer opts value key }
  | .dequeue =>
    { queue := (u.queue.dequeue opts).2
      returned := u.returned ++ (u.queue.dequeue opts).1.toList
      journal := u.journal.take }
  | .drainAll =>
    { queue := (u.queue.drainAll opts).2
      returned := u.returned ++ (u.queue.drainAll opts).1
      journal := u.journal.drain }

/-- The queue after a sequence of calls. -/
def after (actions : List (Action α)) : Used α := actions.foldl (step opts) {}

end Used

end Strikedge.Backpressure
