import Mathlib.Algebra.Order.Ring.Nat
import Strikedge.Backpressure.BoundedQueue

/-!
# The two disciplines of a bounded queue

The index of a coalescing queue finds each queued key where it is, and the queue holds what its
users last offered for it. A queue that never drops returns what it was offered, in order.
-/

namespace Strikedge.Backpressure

variable {α : Type} {opts : BoundedQueueOptions}

namespace BoundedQueue

variable {q : BoundedQueue α}

section Reassess

@[simp] theorem items_reassess : (q.reassess opts).items = q.items := by
  rw [reassess]
  split
  · rfl
  · split <;> rfl

@[simp] theorem indexByKey_reassess : (q.reassess opts).indexByKey = q.indexByKey := by
  rw [reassess]
  split
  · rfl
  · split <;> rfl

@[simp] theorem droppedHold_reassess : (q.reassess opts).droppedHold = q.droppedHold := by
  rw [reassess]
  split
  · rfl
  · split <;> rfl

@[simp] theorem enqueuedCount_reassess : (q.reassess opts).enqueuedCount = q.enqueuedCount := by
  rw [reassess]
  split
  · rfl
  · split <;> rfl

@[simp] theorem processedCount_reassess :
    (q.reassess opts).processedCount = q.processedCount := by
  rw [reassess]
  split
  · rfl
  · split <;> rfl

@[simp] theorem droppedCount_reassess : (q.reassess opts).droppedCount = q.droppedCount := by
  rw [reassess]
  split
  · rfl
  · split <;> rfl

@[simp] theorem coalescedCount_reassess :
    (q.reassess opts).coalescedCount = q.coalescedCount := by
  rw [reassess]
  split
  · rfl
  · split <;> rfl

/-- A queue is overloaded beyond its capacity, or while a drop keeps it so. -/
theorem overloaded_reassess : (q.reassess opts).overloaded =
    (decide (opts.capacity < q.items.length) || (q.overloaded && q.droppedHold)) := by
  rw [reassess]
  by_cases hover : opts.capacity < q.items.length
  · cases hflag : q.overloaded with
    | false => simp [hover, emitOverload]
    | true => simp [hover, hflag]
  · cases hflag : q.overloaded with
    | false => simp [hover, hflag]
    | true =>
      cases hhold : q.droppedHold with
      | false => simp [hover]
      | true => simp [hover, hflag]

@[simp] theorem items_forceOverload : q.forceOverload.items = q.items := by
  rw [forceOverload]
  split <;> rfl

@[simp] theorem indexByKey_forceOverload : q.forceOverload.indexByKey = q.indexByKey := by
  rw [forceOverload]
  split <;> rfl

@[simp] theorem droppedHold_forceOverload : q.forceOverload.droppedHold = true := by
  rw [forceOverload]
  split <;> rfl

@[simp] theorem overloaded_forceOverload : q.forceOverload.overloaded = true := by
  rw [forceOverload]
  split
  · next hflag => exact hflag
  · rfl

@[simp] theorem enqueuedCount_forceOverload :
    q.forceOverload.enqueuedCount = q.enqueuedCount := by
  rw [forceOverload]
  split <;> rfl

@[simp] theorem processedCount_forceOverload :
    q.forceOverload.processedCount = q.processedCount := by
  rw [forceOverload]
  split <;> rfl

@[simp] theorem droppedCount_forceOverload :
    q.forceOverload.droppedCount = q.droppedCount := by
  rw [forceOverload]
  split <;> rfl

@[simp] theorem coalescedCount_forceOverload :
    q.forceOverload.coalescedCount = q.coalescedCount := by
  rw [forceOverload]
  split <;> rfl

end Reassess

/-- The index finds exactly the queued keys, where they are. -/
def Indexed (q : BoundedQueue α) : Prop :=
  ∀ key i, q.indexByKey.get? key = some i ↔ (q.items[i]?).map (·.key) = some key

section Index

variable {items : List (QueuedItem α)} {index : OrderedMap String ℕ} {start i : ℕ}
variable {item : QueuedItem α} {key : String}

theorem get?_foldl_of_notMem (h : key ∉ items.map (·.key)) :
    ((items.zipIdx start).foldl (fun index entry => index.set entry.1.key entry.2) index).get?
      key = index.get? key := by
  induction items generalizing index start with
  | nil => rfl
  | cons head items ih =>
    rw [List.map_cons, List.mem_cons, not_or] at h
    rw [List.zipIdx_cons, List.foldl_cons, ih h.2, OrderedMap.get?_set, if_neg h.1]

theorem get?_foldl_of_mem (hnodup : (items.map (·.key)).Nodup) (h : items[i]? = some item) :
    ((items.zipIdx start).foldl (fun index entry => index.set entry.1.key entry.2) index).get?
      item.key = some (start + i) := by
  induction items generalizing index start i with
  | nil => cases h
  | cons head items ih =>
    rw [List.map_cons, List.nodup_cons] at hnodup
    rw [List.zipIdx_cons, List.foldl_cons]
    cases i with
    | zero =>
      obtain rfl := Option.some.inj h
      rw [get?_foldl_of_notMem hnodup.1, OrderedMap.get?_set, if_pos rfl]
      rfl
    | succ i =>
      rw [ih hnodup.2 h]
      congr 1
      omega

theorem indexed_reindex (hnodup : (q.items.map (·.key)).Nodup) : q.reindex.Indexed := by
  intro key i
  rw [reindex]
  dsimp only
  constructor
  · intro hget
    by_cases hmem : key ∈ q.items.map (·.key)
    · obtain ⟨item, hitem, rfl⟩ := List.mem_map.mp hmem
      obtain ⟨j, hj⟩ := List.mem_iff_getElem?.mp hitem
      rw [get?_foldl_of_mem hnodup hj, Nat.zero_add] at hget
      obtain rfl := Option.some.inj hget
      rw [hj]
      rfl
    · rw [get?_foldl_of_notMem hmem] at hget
      cases hget
  · intro hkey
    obtain ⟨item, hitem, rfl⟩ := Option.map_eq_some_iff.mp hkey
    rw [get?_foldl_of_mem hnodup hitem, Nat.zero_add]

/-- A key is queued where the index has it. -/
theorem Indexed.get?_eq_none (h : q.Indexed) :
    q.indexByKey.get? key = none ↔ key ∉ q.items.map (·.key) := by
  constructor
  · intro hnone hmem
    obtain ⟨item, hitem, rfl⟩ := List.mem_map.mp hmem
    obtain ⟨i, hi⟩ := List.mem_iff_getElem?.mp hitem
    have hget := (h item.key i).mpr (by rw [hi]; rfl)
    rw [hnone] at hget
    cases hget
  · intro hmem
    by_contra hsome
    obtain ⟨i, hi⟩ := Option.ne_none_iff_exists'.mp hsome
    obtain ⟨item, hitem, rfl⟩ := Option.map_eq_some_iff.mp ((h key i).mp hi)
    exact hmem (List.mem_map_of_mem (List.mem_of_getElem? hitem))

/-- A new key at the end of the items, and of the index. -/
theorem Indexed.push (h : q.Indexed) (hkey : item.key ∉ q.items.map (·.key)) :
    ({ q.push item with
      indexByKey := q.indexByKey.set item.key ((q.push item).items.length - 1) } :
        BoundedQueue α).Indexed := by
  intro key i
  have hlast : (q.push item).items.length - 1 = q.items.length := by
    rw [BoundedQueue.push, List.length_append, List.length_singleton]
    omega
  dsimp only
  rw [hlast, BoundedQueue.push]
  dsimp only
  rw [OrderedMap.get?_set]
  by_cases hlt : i < q.items.length
  · rw [List.getElem?_append_left hlt]
    by_cases heq : key = item.key
    · rw [if_pos heq, heq]
      refine ⟨fun hi => by have := Option.some.inj hi; omega, fun hi => ?_⟩
      obtain ⟨other, hother, hsame⟩ := Option.map_eq_some_iff.mp hi
      exact absurd (hsame ▸ List.mem_map_of_mem (List.mem_of_getElem? hother)) hkey
    · rw [if_neg heq]
      exact h key i
  · rw [List.getElem?_append_right (Nat.le_of_not_lt hlt)]
    by_cases heq : key = item.key
    · rw [if_pos heq, heq]
      by_cases hi : i = q.items.length
      · rw [hi]
        simp
      · have hpos : 0 < i - q.items.length := by omega
        rw [List.getElem?_eq_none hpos]
        refine ⟨fun hsome => absurd (Option.some.inj hsome).symm hi, nofun⟩
    · rw [if_neg heq, h key i, List.getElem?_eq_none (Nat.le_of_not_lt hlt)]
      refine ⟨nofun, fun hsome => ?_⟩
      obtain ⟨other, hother, hsame⟩ := Option.map_eq_some_iff.mp hsome
      obtain rfl := List.mem_singleton.mp (List.mem_of_getElem? hother)
      exact absurd hsame.symm heq

end Index

section Offer

variable {now : ℚ} {value : α} {key : String}

/-- The key is queued: the value at its position is replaced, and nothing else changes. -/
structure Replaces (opts : BoundedQueueOptions) (q : BoundedQueue α) (value : α) (key : String)
    (next : BoundedQueue α) : Prop where
  queued : key ∈ q.items.map (·.key)
  items : next.items = q.items.map fun item =>
    if item.key = key then { item with value := value } else item
  indexed : next.Indexed
  dropped : next.droppedCount = q.droppedCount
  overloaded : next.overloaded =
    (decide (opts.capacity < next.items.length) || (q.overloaded && q.droppedHold))
  hold : next.droppedHold = q.droppedHold

/-- A new key goes to the end of a queue that has room. -/
structure Appends (opts : BoundedQueueOptions) (q : BoundedQueue α) (item : QueuedItem α)
    (next : BoundedQueue α) : Prop where
  new : item.key ∉ q.items.map (·.key)
  room : q.items.length < opts.capacity
  items : next.items = q.items ++ [item]
  indexed : next.Indexed
  dropped : next.droppedCount = q.droppedCount
  overloaded : next.overloaded =
    (decide (opts.capacity < next.items.length) || (q.overloaded && q.droppedHold))
  hold : next.droppedHold = q.droppedHold

/-- A new key finds the queue full, and takes the place of the oldest entry at its end. -/
structure Displaces (opts : BoundedQueueOptions) (q : BoundedQueue α) (item : QueuedItem α)
    (next : BoundedQueue α) : Prop where
  new : item.key ∉ q.items.map (·.key)
  full : opts.capacity ≤ q.items.length
  items : next.items = q.items.tail ++ [item]
  indexed : next.Indexed
  dropped : next.droppedCount = q.droppedCount + 1
  overloaded : next.overloaded = true
  hold : next.droppedHold = true

/-- Two items at one position have one key. -/
theorem modify_eq_map (value : α) (hnodup : (q.items.map (·.key)).Nodup) {i : ℕ}
    (hkey : (q.items[i]?).map (·.key) = some key) :
    q.items.modify i (fun item => { item with value := value }) =
      q.items.map fun item => if item.key = key then { item with value := value } else item := by
  refine List.ext_getElem? fun j => ?_
  rw [List.getElem?_modify, List.getElem?_map]
  cases hj : q.items[j]? with
  | none => rfl
  | some other =>
    have hother : (q.items.map (·.key))[j]? = some other.key := by rw [List.getElem?_map, hj]; rfl
    have hthere : (q.items.map (·.key))[i]? = some key := by rw [List.getElem?_map, hkey]
    by_cases hij : i = j
    · subst hij
      obtain rfl := Option.some.inj (hother.symm.trans hthere)
      simp
    · have hne : other.key ≠ key := by
        intro heq
        rw [heq] at hother
        have hi := (List.getElem?_eq_some_iff.mp hthere).1
        exact hij ((List.getElem?_inj hi hnodup).mp (hthere.trans hother.symm))
      simp [hij, hne]

/-- The index stays right where neither it nor the order of the keys changes. -/
theorem Indexed.congr {next : BoundedQueue α} (h : q.Indexed)
    (hindex : next.indexByKey = q.indexByKey)
    (hkeys : next.items.map (·.key) = q.items.map (·.key)) : next.Indexed := by
  intro key i
  rw [hindex, h key i, ← List.getElem?_map, ← List.getElem?_map, hkeys]

@[simp] theorem indexed_reassess : (q.reassess opts).Indexed ↔ q.Indexed := by
  rw [Indexed, Indexed, indexByKey_reassess, items_reassess]

@[simp] theorem indexed_forceOverload : q.forceOverload.Indexed ↔ q.Indexed := by
  rw [Indexed, Indexed, indexByKey_forceOverload, items_forceOverload]

theorem enqueue_cases (hcoalesce : opts.overflow = .coalesce) (hindexed : q.Indexed)
    (hnodup : (q.items.map (·.key)).Nodup) (now : ℚ) (value : α) (key : String) :
    q.Replaces opts value key (q.enqueue opts now value key) ∨
      q.Appends opts ⟨key, value, now⟩ (q.enqueue opts now value key) ∨
      q.Displaces opts ⟨key, value, now⟩ (q.enqueue opts now value key) := by
  rw [enqueue, hcoalesce]
  dsimp only
  cases hget : q.indexByKey.get? key with
  | some existing =>
    have hkey := (hindexed key existing).mp hget
    have hitems := modify_eq_map value hnodup hkey
    refine .inl ⟨?_, ?_, ?_, ?_, ?_, ?_⟩
    · obtain ⟨item, hitem, rfl⟩ := Option.map_eq_some_iff.mp hkey
      exact List.mem_map_of_mem (List.mem_of_getElem? hitem)
    · rw [items_reassess]
      exact hitems
    · rw [indexed_reassess]
      refine hindexed.congr rfl ?_
      rw [hitems, List.map_map]
      refine List.map_congr_left fun item _ => ?_
      rw [Function.comp_apply]
      split <;> rfl
    · rw [droppedCount_reassess]
    · rw [overloaded_reassess, items_reassess]
    · rw [droppedHold_reassess]
  | none =>
    have hnew := hindexed.get?_eq_none.mp hget
    by_cases hfull : opts.capacity ≤ q.items.length
    · rw [if_pos hfull, dropOldest]
      cases hitems : q.items with
      | nil =>
        rw [hitems] at hfull
        exact absurd opts.capacity_pos (Nat.not_lt.mpr hfull)
      | cons head items =>
        rw [hitems, List.map_cons] at hnodup hnew
        rw [hitems] at hfull
        refine .inr (.inr ⟨by rwa [hitems], by rwa [hitems], ?_, ?_, ?_, ?_, ?_⟩)
        · rw [items_reassess, hitems]
          simp [push, reindex]
        · rw [indexed_reassess]
          refine Indexed.push ?_ ?_
          · rw [indexed_forceOverload]
            exact indexed_reindex (List.nodup_cons.mp hnodup).2
          · rw [items_forceOverload]
            exact fun hmem => hnew (List.mem_cons_of_mem head.key hmem)
        · simp [push, reindex]
        · simp [push, overloaded_reassess]
        · simp [push]
    · rw [if_neg hfull]
      refine .inr (.inl ⟨hnew, Nat.lt_of_not_le hfull, ?_, ?_, ?_, ?_, ?_⟩)
      · rw [items_reassess]
        rfl
      · rw [indexed_reassess]
        have hcounted : ({ q with enqueuedCount := q.enqueuedCount + 1 } :
          BoundedQueue α).Indexed := hindexed
        exact hcounted.push hnew
      · rw [droppedCount_reassess]
        rfl
      · rw [overloaded_reassess, items_reassess]
        rfl
      · rw [droppedHold_reassess]
        rfl

end Offer

end BoundedQueue

/-- The queue holds the latest value offered for each waiting key, in the order in which the
keys were first queued, and reports a drop until the next drain. -/
structure Coalescing (opts : BoundedQueueOptions) (u : Used α) : Prop where
  nodup : (u.queue.items.map (·.key)).Nodup
  indexed : u.queue.Indexed
  bounded : u.queue.items.length ≤ opts.capacity
  latest : u.queue.items.map (fun item => (item.key, some item.value)) =
    u.journal.waiting.map fun entry => (entry.1, entry.2.getLast?)
  overloaded : u.queue.overloaded = u.journal.dropPending
  hold : u.queue.droppedHold = u.journal.dropPending
  unobserved : u.journal.dropPending = true → u.queue.items ≠ []
  dropped : u.queue.droppedCount = u.journal.dropped.length

namespace Coalescing

variable {u : Used α} {now : ℚ} {value : α} {key : String}

theorem keys (h : Coalescing opts u) :
    u.queue.items.map (·.key) = u.journal.waiting.map Prod.fst := by
  have hfst := congrArg (List.map Prod.fst) h.latest
  rw [List.map_map, List.map_map] at hfst
  exact hfst

theorem length (h : Coalescing opts u) :
    u.queue.items.length = u.journal.waiting.length := by
  have hlength := congrArg List.length h.latest
  rwa [List.length_map, List.length_map] at hlength

/-- The value of a waiting key is replaced by the one offered. -/
theorem latest_replaced (h : Coalescing opts u) :
    (u.queue.items.map fun item => if item.key = key then { item with value := value }
        else item).map (fun item => (item.key, some item.value)) =
      (u.journal.waiting.map fun entry => if entry.1 = key then (entry.1, entry.2 ++ [value])
        else entry).map fun entry => (entry.1, entry.2.getLast?) := by
  have hreplace := congrArg
    (List.map fun pair => if pair.1 = key then (pair.1, some value) else pair) h.latest
  rw [List.map_map, List.map_map] at hreplace ⊢
  calc _ = _ := List.map_congr_left fun item _ => by
          simp only [Function.comp_apply]
          split <;> rfl
    _ = _ := hreplace
    _ = _ := List.map_congr_left fun entry _ => by
          simp only [Function.comp_apply]
          split
          · simp
          · rfl

theorem enqueue (hcoalesce : opts.overflow = .coalesce) (h : Coalescing opts u) :
    Coalescing opts (u.step opts (.enqueue now value key)) := by
  have hflag : (u.queue.overloaded && u.queue.droppedHold) = u.journal.dropPending := by
    rw [h.overloaded, h.hold, Bool.and_self]
  rw [Used.step, Journal.offer, hcoalesce]
  dsimp only
  rcases BoundedQueue.enqueue_cases hcoalesce h.indexed h.nodup now value key with
    hnext | hnext | hnext
  · -- the key waits already
    have hmem : key ∈ u.journal.waiting.map Prod.fst := h.keys ▸ hnext.queued
    have hlength := congrArg List.length hnext.items
    rw [List.length_map] at hlength
    have hover : decide (opts.capacity <
        (u.queue.enqueue opts now value key).items.length) = false := by
      rw [hlength]
      exact decide_eq_false (Nat.not_lt.mpr h.bounded)
    rw [if_pos hmem]
    refine ⟨?_, hnext.indexed, ?_, ?_, ?_, ?_, ?_, ?_⟩
    · rw [hnext.items, List.map_map]
      refine (List.map_congr_left fun item _ => ?_) ▸ h.nodup
      rw [Function.comp_apply]
      split <;> rfl
    · dsimp only
      rw [hlength]
      exact h.bounded
    · rw [hnext.items]
      exact h.latest_replaced
    · rw [hnext.overloaded, hover, Bool.false_or]
      exact hflag
    · rw [hnext.hold]
      exact h.hold
    · intro hpending hnil
      dsimp only at hnil
      rw [hnil, List.length_nil] at hlength
      exact h.unobserved hpending (List.length_eq_zero_iff.mp hlength.symm)
    · rw [hnext.dropped]
      exact h.dropped
  · have hmem : key ∉ u.journal.waiting.map Prod.fst := h.keys ▸ hnext.new
    have hroom : u.journal.waiting.length < opts.capacity := h.length ▸ hnext.room
    have hlength : (u.queue.enqueue opts now value key).items.length ≤ opts.capacity := by
      rw [hnext.items, List.length_append, List.length_singleton]
      exact hnext.room
    have hover := decide_eq_false (Nat.not_lt.mpr hlength)
    rw [if_neg hmem, if_pos hroom]
    refine ⟨?_, hnext.indexed, hlength, ?_, ?_, ?_, ?_, ?_⟩
    · rw [hnext.items, List.map_append, List.nodup_append]
      refine ⟨h.nodup, List.nodup_singleton _, ?_⟩
      rintro a ha b hb rfl
      obtain rfl := List.mem_singleton.mp hb
      exact hnext.new ha
    · rw [hnext.items, List.map_append, List.map_append, h.latest]
      rfl
    · rw [hnext.overloaded, hover, Bool.false_or]
      exact hflag
    · rw [hnext.hold]
      exact h.hold
    · intro _ hnil
      rw [hnext.items] at hnil
      simp at hnil
    · rw [hnext.dropped]
      exact h.dropped
  · have hmem : key ∉ u.journal.waiting.map Prod.fst := h.keys ▸ hnext.new
    have hfull : opts.capacity ≤ u.journal.waiting.length := h.length ▸ hnext.full
    have hpos := opts.capacity_pos
    have hlength : (u.queue.enqueue opts now value key).items.length ≤ opts.capacity := by
      have hbounded := h.bounded
      have hqueue := hnext.full
      rw [hnext.items, List.length_append, List.length_tail, List.length_singleton]
      omega
    rw [if_neg hmem, if_neg (Nat.not_lt.mpr hfull)]
    refine ⟨?_, hnext.indexed, hlength, ?_, hnext.overloaded, hnext.hold, ?_, ?_⟩
    · rw [hnext.items, List.map_append, List.nodup_append]
      refine ⟨?_, List.nodup_singleton _, ?_⟩
      · rw [List.map_tail]
        exact h.nodup.sublist (List.tail_sublist _)
      · rintro a ha b hb rfl
        obtain rfl := List.mem_singleton.mp hb
        rw [List.map_tail] at ha
        exact hnext.new (List.mem_of_mem_tail ha)
    · rw [hnext.items, List.map_append, List.map_append, List.map_tail, List.map_tail, h.latest]
      rfl
    · intro _ hnil
      rw [hnext.items] at hnil
      simp at hnil
    · rw [hnext.dropped, h.dropped, List.length_append, List.length_take]
      omega

theorem dequeue (hcoalesce : opts.overflow = .coalesce) (h : Coalescing opts u) :
    Coalescing opts (u.step opts .dequeue) := by
  rw [Used.step, BoundedQueue.dequeue]
  cases hitems : u.queue.items with
  | nil =>
    have hwaiting : u.journal.waiting = [] := by
      rw [← List.length_eq_zero_iff, ← h.length, hitems, List.length_nil]
    have hpending : u.journal.dropPending = false := by
      by_contra htrue
      exact h.unobserved (Bool.not_eq_false _ ▸ htrue) hitems
    have hjournal : u.journal.take = u.journal := by
      rw [Journal.take, hwaiting, List.tail_nil, ← hwaiting, ← hpending]
    rw [hjournal]
    exact ⟨h.nodup, h.indexed, h.bounded, h.latest, h.overloaded, h.hold, h.unobserved, h.dropped⟩
  | cons item items =>
    have hnodup := h.nodup
    have hbounded := h.bounded
    have hlatest := congrArg List.tail h.latest
    rw [hitems, List.map_cons, List.nodup_cons] at hnodup
    rw [hitems, List.length_cons] at hbounded
    rw [hitems, ← List.map_tail, ← List.map_tail, List.tail_cons] at hlatest
    rw [hcoalesce]
    refine ⟨?_, ?_, ?_, ?_, ?_, ?_, nofun, ?_⟩
    · rw [BoundedQueue.items_reassess]
      exact hnodup.2
    · rw [BoundedQueue.indexed_reassess]
      exact BoundedQueue.indexed_reindex hnodup.2
    · rw [BoundedQueue.items_reassess]
      exact Nat.le_of_succ_le hbounded
    · rw [BoundedQueue.items_reassess]
      exact hlatest
    · rw [BoundedQueue.overloaded_reassess]
      show (decide (opts.capacity < items.length) || (u.queue.overloaded && false)) = false
      rw [Bool.and_false, Bool.or_false]
      exact decide_eq_false (by omega)
    · rw [BoundedQueue.droppedHold_reassess]
      rfl
    · rw [BoundedQueue.droppedCount_reassess]
      exact h.dropped

theorem drainAll (h : Coalescing opts u) : Coalescing opts (u.step opts .drainAll) := by
  rw [Used.step, BoundedQueue.drainAll]
  refine ⟨?_, ?_, ?_, ?_, ?_, ?_, nofun, ?_⟩
  · rw [BoundedQueue.items_reassess]
    exact List.nodup_nil
  · rw [BoundedQueue.indexed_reassess]
    exact fun key i => ⟨nofun, nofun⟩
  · rw [BoundedQueue.items_reassess]
    exact Nat.zero_le _
  · rw [BoundedQueue.items_reassess]
    rfl
  · rw [BoundedQueue.overloaded_reassess]
    simp [Journal.drain]
  · rw [BoundedQueue.droppedHold_reassess]
    rfl
  · rw [BoundedQueue.droppedCount_reassess]
    exact h.dropped

end Coalescing

/-- What was returned and what is queued is what was offered, in order, and the queue is
overloaded beyond its capacity. Its index stays empty. -/
structure NeverDropping (opts : BoundedQueueOptions) (u : Used α) : Prop where
  index : ∀ key, u.queue.indexByKey.get? key = none
  fifo : u.returned ++ u.queue.items.map (·.value) = u.journal.offered
  overloaded : u.queue.overloaded = decide (opts.capacity < u.queue.items.length)
  hold : u.queue.droppedHold = false
  dropped : u.queue.droppedCount = 0
  coalesced : u.queue.coalescedCount = 0

theorem NeverDropping.step (hnever : opts.overflow = .neverDrop) {u : Used α}
    (h : NeverDropping opts u) (action : Action α) : NeverDropping opts (u.step opts action) := by
  cases action with
  | enqueue now value key =>
    rw [Used.step, Journal.offer, BoundedQueue.enqueue, hnever]
    refine ⟨?_, ?_, ?_, ?_, ?_, ?_⟩
    · rw [BoundedQueue.indexByKey_reassess]
      exact h.index
    · rw [BoundedQueue.items_reassess]
      show u.returned ++ (u.queue.items ++ [QueuedItem.mk key value now]).map QueuedItem.value =
        u.journal.offered ++ [value]
      rw [List.map_append, ← List.append_assoc, h.fifo]
      rfl
    · rw [BoundedQueue.overloaded_reassess, BoundedQueue.items_reassess]
      show (_ || (u.queue.overloaded && u.queue.droppedHold)) = _
      rw [h.hold, Bool.and_false, Bool.or_false]
    · rw [BoundedQueue.droppedHold_reassess]
      exact h.hold
    · rw [BoundedQueue.droppedCount_reassess]
      exact h.dropped
    · rw [BoundedQueue.coalescedCount_reassess]
      exact h.coalesced
  | dequeue =>
    rw [Used.step, BoundedQueue.dequeue]
    cases hitems : u.queue.items with
    | nil =>
      refine ⟨h.index, ?_, h.overloaded, h.hold, h.dropped, h.coalesced⟩
      rw [Option.toList_none, List.append_nil]
      exact h.fifo
    | cons item items =>
      rw [hnever]
      refine ⟨?_, ?_, ?_, ?_, ?_, ?_⟩
      · rw [BoundedQueue.indexByKey_reassess]
        exact h.index
      · rw [BoundedQueue.items_reassess]
        have hfifo := h.fifo
        rw [hitems, List.map_cons] at hfifo
        rw [Option.toList_some, List.append_assoc, List.singleton_append]
        exact hfifo
      · rw [BoundedQueue.overloaded_reassess, BoundedQueue.items_reassess]
        show (_ || (u.queue.overloaded && false)) = _
        rw [Bool.and_false, Bool.or_false]
      · rw [BoundedQueue.droppedHold_reassess]
      · rw [BoundedQueue.droppedCount_reassess]
        exact h.dropped
      · rw [BoundedQueue.coalescedCount_reassess]
        exact h.coalesced
  | drainAll =>
    rw [Used.step, BoundedQueue.drainAll]
    refine ⟨?_, ?_, ?_, ?_, ?_, ?_⟩
    · rw [BoundedQueue.indexByKey_reassess]
      exact fun key => rfl
    · rw [BoundedQueue.items_reassess, List.map_nil, List.append_nil]
      exact h.fifo
    · rw [BoundedQueue.overloaded_reassess, BoundedQueue.items_reassess]
      show (_ || (u.queue.overloaded && false)) = _
      rw [Bool.and_false, Bool.or_false]
    · rw [BoundedQueue.droppedHold_reassess]
    · rw [BoundedQueue.droppedCount_reassess]
      exact h.dropped
    · rw [BoundedQueue.coalescedCount_reassess]
      exact h.coalesced

/-- Each offer is counted once: as returned, dropped, merged into a queued value, or queued. -/
structure Counted (u : Used α) : Prop where
  balance : u.queue.enqueuedCount = u.queue.processedCount + u.queue.droppedCount +
    u.queue.coalescedCount + u.queue.depth
  enqueued : u.queue.enqueuedCount = u.journal.offered.length
  processed : u.queue.processedCount = u.returned.length

theorem offered_offer {j : Journal α} {value : α} {key : String} :
    (j.offer opts value key).offered = j.offered ++ [value] := by
  rw [Journal.offer]
  cases opts.overflow with
  | neverDrop => rfl
  | coalesce =>
    dsimp only
    split
    · rfl
    · split <;> rfl

/-- An offer leaves the balance, and counts as one. -/
theorem BoundedQueue.counts_enqueue (opts : BoundedQueueOptions) (q : BoundedQueue α) (now : ℚ)
    (value : α) (key : String) :
    (q.enqueue opts now value key).enqueuedCount = q.enqueuedCount + 1 ∧
      (q.enqueue opts now value key).processedCount = q.processedCount ∧
      (q.enqueue opts now value key).droppedCount +
          (q.enqueue opts now value key).coalescedCount + (q.enqueue opts now value key).depth =
        q.droppedCount + q.coalescedCount + q.depth + 1 := by
  rw [enqueue]
  cases opts.overflow with
  | neverDrop =>
    simp [depth, push]
    omega
  | coalesce =>
    dsimp only
    split
    · simp [depth]
      omega
    · split
      · rw [dropOldest]
        dsimp only
        cases hitems : q.items with
        | nil => simp [depth, push, hitems]
        | cons item items =>
          simp [depth, push, reindex, hitems]
          omega
      · simp [depth, push]
        omega

theorem Counted.step {u : Used α} (h : Counted u) (action : Action α) :
    Counted (u.step opts action) := by
  have hbalance := h.balance
  cases action with
  | enqueue now value key =>
    obtain ⟨henqueued, hprocessed, hrest⟩ :=
      BoundedQueue.counts_enqueue opts u.queue now value key
    rw [Used.step]
    refine ⟨?_, ?_, ?_⟩
    · dsimp only
      omega
    · dsimp only
      rw [henqueued, h.enqueued, offered_offer, List.length_append, List.length_singleton]
    · dsimp only
      rw [hprocessed, h.processed]
  | dequeue =>
    rw [Used.step, BoundedQueue.dequeue]
    cases hitems : u.queue.items with
    | nil =>
      refine ⟨h.balance, h.enqueued, ?_⟩
      rw [Option.toList_none, List.append_nil]
      exact h.processed
    | cons item items =>
      rw [BoundedQueue.depth, hitems, List.length_cons] at hbalance
      have henqueued := h.enqueued
      have hprocessed := h.processed
      cases opts.overflow with
      | coalesce =>
        refine ⟨?_, ?_, ?_⟩
        · simp [BoundedQueue.depth, BoundedQueue.reindex]
          omega
        · simp [BoundedQueue.reindex, Journal.take, henqueued]
        · simp [BoundedQueue.reindex, hprocessed]
      | neverDrop =>
        refine ⟨?_, ?_, ?_⟩
        · simp [BoundedQueue.depth]
          omega
        · simp [Journal.take, henqueued]
        · simp [hprocessed]
  | drainAll =>
    rw [BoundedQueue.depth] at hbalance
    have henqueued := h.enqueued
    have hprocessed := h.processed
    rw [Used.step, BoundedQueue.drainAll]
    refine ⟨?_, ?_, ?_⟩
    · simp [BoundedQueue.depth]
      omega
    · simp [Journal.drain, henqueued]
    · simp [hprocessed]

/-- What holds of a queue under its discipline. -/
def Disciplined (opts : BoundedQueueOptions) (u : Used α) : Prop :=
  Counted u ∧
    match opts.overflow with
    | .coalesce => Coalescing opts u
    | .neverDrop => NeverDropping opts u

theorem Disciplined.step {u : Used α} (h : Disciplined opts u) (action : Action α) :
    Disciplined opts (u.step opts action) := by
  refine ⟨h.1.step action, ?_⟩
  have hdiscipline := h.2
  cases hoverflow : opts.overflow with
  | coalesce =>
    rw [hoverflow] at hdiscipline
    cases action with
    | enqueue now value key => exact hdiscipline.enqueue hoverflow
    | dequeue => exact hdiscipline.dequeue hoverflow
    | drainAll => exact hdiscipline.drainAll
  | neverDrop =>
    rw [hoverflow] at hdiscipline
    exact hdiscipline.step hoverflow action

theorem disciplined_after (opts : BoundedQueueOptions) (actions : List (Action α)) :
    Disciplined opts (Used.after opts actions) := by
  have hrun : ∀ u : Used α, Disciplined opts u →
      Disciplined opts (actions.foldl (Used.step opts) u) := by
    induction actions with
    | nil => exact fun u h => h
    | cons action actions ih => exact fun u h => ih _ (h.step action)
  refine hrun {} ⟨⟨rfl, rfl, rfl⟩, ?_⟩
  cases opts.overflow with
  | coalesce =>
    exact ⟨List.nodup_nil, fun key i => ⟨nofun, nofun⟩, Nat.zero_le _, rfl, rfl, rfl, nofun, rfl⟩
  | neverDrop =>
    exact ⟨fun key => rfl, rfl, (decide_eq_false (Nat.not_lt_zero _)).symm, rfl, rfl, rfl⟩

/-- A coalescing queue drops its oldest entry for a new key that finds it full, and nothing
otherwise. -/
structure DropsOldest (opts : BoundedQueueOptions) (q : BoundedQueue α) : Prop where
  offers : ∀ now value key,
    q.Replaces opts value key (q.enqueue opts now value key) ∨
      q.Appends opts ⟨key, value, now⟩ (q.enqueue opts now value key) ∨
      q.Displaces opts ⟨key, value, now⟩ (q.enqueue opts now value key)
  dequeue : (q.dequeue opts).2.droppedCount = q.droppedCount
  drainAll : (q.drainAll opts).2.droppedCount = q.droppedCount

theorem Coalescing.dropsOldest (hcoalesce : opts.overflow = .coalesce) {u : Used α}
    (h : Coalescing opts u) : DropsOldest opts u.queue where
  offers := BoundedQueue.enqueue_cases hcoalesce h.indexed h.nodup
  dequeue := by
    rw [BoundedQueue.dequeue, hcoalesce]
    cases u.queue.items with
    | nil => rfl
    | cons item items =>
      rw [BoundedQueue.droppedCount_reassess]
      rfl
  drainAll := by rw [BoundedQueue.drainAll, BoundedQueue.droppedCount_reassess]

/-- After every sequence of calls a queue keeps its counters and its discipline. -/
theorem queue_disciplines (opts : BoundedQueueOptions) (actions : List (Action α)) :
    Counted (Used.after opts actions) ∧
      match opts.overflow with
      | .coalesce => Coalescing opts (Used.after opts actions) ∧
          DropsOldest opts (Used.after opts actions).queue
      | .neverDrop => NeverDropping opts (Used.after opts actions) := by
  obtain ⟨hcounted, hdiscipline⟩ := disciplined_after opts actions
  refine ⟨hcounted, ?_⟩
  cases hoverflow : opts.overflow with
  | coalesce =>
    rw [hoverflow] at hdiscipline
    exact ⟨hdiscipline, hdiscipline.dropsOldest hoverflow⟩
  | neverDrop =>
    rw [hoverflow] at hdiscipline
    exact hdiscipline

/-- A queue that never drops does not index its keys. -/
theorem neverDrop_not_indexed :
    ¬ (Used.after ⟨1, .neverDrop, one_pos⟩ [.enqueue 0 (1 : ℕ) "k"]).queue.Indexed := by
  intro h
  have hindex := (h "k" 0).mpr rfl
  cases hindex

end Strikedge.Backpressure
