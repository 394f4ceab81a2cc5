import Strikedge.Reservations.Types

/-!
# The in-process tier

A map from key to entry. An operation has no `await` inside, so each is one atomic
step. Acquisition inspects every key before it writes any, and an owner does not
conflict with itself: a re-entrant acquisition overwrites the entries it already has.
-/

namespace Strikedge.Reservations

structure Entry where
  owner : Owner
  expiresAt : Int
  side : Option String
  fence : Nat
  deriving DecidableEq, Repr

/-- May this release delete this entry? -/
def ReleaseArgs.matches (args : ReleaseArgs) (entry : Entry) : Bool :=
  entry.owner = args.owner && args.fence.all (entry.fence = ·)

structure InProcessInstrumentReservations where
  entries : OrderedMap InstrumentKey Entry := ∅
  fenceSeq : Nat := 0

namespace InProcessInstrumentReservations

def name : String := "in-process"

/-- Pass 1: the live entries of other owners under the wanted keys. -/
def conflicts (store : InProcessInstrumentReservations) (owner : Owner)
    (keys : List InstrumentKey) (now : Int) : List ReservationConflictDetail :=
  keys.filterMap fun key =>
    match store.entries.get? key with
    | none => none
    | some entry =>
        if entry.expiresAt ≤ now then none
        else if entry.owner = owner then none
        else some ⟨key, entry.owner, entry.side, name⟩

/-- Pass 2: write every key. -/
def commit (entries : OrderedMap InstrumentKey Entry) (args : AcquireArgs)
    (keys : List InstrumentKey) (expiresAt : Int) (fence : Nat) :
    OrderedMap InstrumentKey Entry :=
  keys.foldl (fun entries key => entries.set key ⟨args.owner, expiresAt, args.sideOf key, fence⟩)
    entries

def tryAcquireAll (store : InProcessInstrumentReservations) (args : AcquireArgs) :
    InProcessInstrumentReservations × ReservationOutcome :=
  let keys := dedupeKeys args.keys
  let conflicts := store.conflicts args.owner keys args.now
  if conflicts ≠ [] then
    (store, .conflict conflicts)
  else
    let expiresAt := args.now + normaliseTtl args.ttlMs
    let fence := store.fenceSeq + 1
    ({ entries := commit store.entries args keys expiresAt fence, fenceSeq := fence },
      .ok ⟨args.owner, keys, expiresAt, fence, .localOnly⟩)

/-- Delete one candidate key when the entry is the releaser's own. -/
def releaseKey (args : ReleaseArgs) (state : OrderedMap InstrumentKey Entry × Nat)
    (key : InstrumentKey) : OrderedMap InstrumentKey Entry × Nat :=
  if (state.1.get? key).any args.matches then
    (state.1.delete key, state.2 + 1)
  else state

def release (store : InProcessInstrumentReservations) (args : ReleaseArgs) :
    InProcessInstrumentReservations × Nat :=
  let (entries, released) :=
    (args.keys.getD store.entries.keys).foldl (releaseKey args) (store.entries, 0)
  ({ store with entries := entries }, released)

/-- Why one key cannot be renewed, when it cannot. -/
def renewalFailure (store : InProcessInstrumentReservations) (args : RenewArgs)
    (key : InstrumentKey) : Option RenewOutcome :=
  match store.entries.get? key with
  | none => some (.failed .lost (name ++ ": " ++ key ++ " is no longer held by this owner"))
  | some entry =>
      if entry.owner ≠ args.owner then
        some (.failed .lost (name ++ ": " ++ key ++ " is no longer held by this owner"))
      else if entry.expiresAt ≤ args.now then
        some (.failed .expired (name ++ ": " ++ key ++ " expired before renewal"))
      else if !args.fence.all (entry.fence = ·) then
        some (.failed .lost (name ++ ": " ++ key ++ " belongs to a newer lease"))
      else none

/-- Move the expiry of every key that has an entry; the last one names the fence. -/
def extend (expiresAt : Int) (state : OrderedMap InstrumentKey Entry × Nat)
    (key : InstrumentKey) : OrderedMap InstrumentKey Entry × Nat :=
  match state.1.get? key with
  | none => state
  | some entry => (state.1.set key { entry with expiresAt := expiresAt }, entry.fence)

def renew (store : InProcessInstrumentReservations) (args : RenewArgs) :
    InProcessInstrumentReservations × RenewOutcome :=
  let keys := dedupeKeys args.keys
  match keys.findSome? (store.renewalFailure args) with
  | some failure => (store, failure)
  | none =>
      let expiresAt := args.now + normaliseTtl args.ttlMs
      let (entries, fence) := keys.foldl (extend expiresAt) (store.entries, 0)
      ({ store with entries := entries }, .ok expiresAt fence)

variable {store : InProcessInstrumentReservations} {args : AcquireArgs}
variable {key : InstrumentKey}

theorem get?_commit {entries : OrderedMap InstrumentKey Entry} {keys : List InstrumentKey}
    {expiresAt : Int} {fence : Nat} :
    (commit entries args keys expiresAt fence).get? key =
      if key ∈ keys then some ⟨args.owner, expiresAt, args.sideOf key, fence⟩
      else entries.get? key := by
  unfold commit
  induction keys generalizing entries with
  | nil => simp
  | cons k keys ih =>
      rw [List.foldl_cons, ih, OrderedMap.get?_set]
      by_cases hm : key ∈ keys
      · simp [hm]
      · by_cases hk : key = k
        · simp [hk]
        · simp [hm, hk]

/-- A refusal writes nothing. -/
theorem tryAcquireAll_refused (h : (store.tryAcquireAll args).2.isOk = false) :
    (store.tryAcquireAll args).1 = store := by
  unfold tryAcquireAll at h ⊢
  dsimp only at h ⊢
  split
  · rfl
  · rename_i hc
    rw [if_neg hc] at h
    cases h

/-- A grant finds no live entry of another owner under any wanted key, and leaves every
wanted key to the owner with a later expiry. -/
theorem tryAcquireAll_granted (h : (store.tryAcquireAll args).2.isOk) :
    (∀ k ∈ args.keys, ∀ entry, store.entries.get? k = some entry →
      entry.expiresAt ≤ args.now ∨ entry.owner = args.owner) ∧
    ∃ expiresAt fence, args.now < expiresAt ∧ ∀ k,
      (store.tryAcquireAll args).1.entries.get? k =
        if k ∈ args.keys then some ⟨args.owner, expiresAt, args.sideOf k, fence⟩
        else store.entries.get? k := by
  unfold tryAcquireAll at h ⊢
  dsimp only at h ⊢
  by_cases hc : store.conflicts args.owner (dedupeKeys args.keys) args.now ≠ []
  · rw [if_pos hc] at h
    cases h
  · rw [if_neg hc]
    constructor
    · intro k hk entry hentry
      have hnone := List.filterMap_eq_nil_iff.mp (not_not.mp hc) k (mem_dedupeKeys.mpr hk)
      rw [hentry] at hnone
      dsimp only at hnone
      split at hnone
      · exact .inl ‹_›
      · split at hnone
        · exact .inr ‹_›
        · cases hnone
    · refine ⟨args.now + normaliseTtl args.ttlMs, store.fenceSeq + 1, ?_, fun k => ?_⟩
      · have := normaliseTtl_pos args.ttlMs
        exact Int.lt_add_of_pos_right _ this
      · rw [get?_commit]
        simp only [mem_dedupeKeys]

/-- Releasing by owner and keys deletes the owner's entries under those keys, all of
them, whenever they were taken, and nothing else. -/
theorem get?_release {owner : Owner} {keys : List InstrumentKey} {now : Int} :
    (store.release { owner := owner, keys := some keys, now := now }).1.entries.get? key =
      (store.entries.get? key).filter fun entry => !(decide (key ∈ keys ∧ entry.owner = owner)) := by
  suffices h : ∀ (entries : OrderedMap InstrumentKey Entry) (n : Nat),
      (keys.foldl (releaseKey { owner := owner, keys := some keys, now := now })
        (entries, n)).1.get? key =
      (entries.get? key).filter fun entry => !(decide (key ∈ keys ∧ entry.owner = owner)) from
    h store.entries 0
  generalize hargs : ({ owner := owner, keys := some keys, now := now } : ReleaseArgs) = rargs
  have howner : rargs.owner = owner := by rw [← hargs]
  have hfence : rargs.fence = none := by rw [← hargs]
  clear hargs
  intro entries n
  induction keys generalizing entries n with
  | nil => cases he : entries.get? key <;> simp [he, Option.filter_some]
  | cons k keys ih =>
      rw [List.foldl_cons, releaseKey]
      split
      · rename_i hmatch
        rw [ih, OrderedMap.get?_delete]
        by_cases hk : key = k
        · subst hk
          cases he : entries.get? key with
          | none => simp
          | some entry => simp_all [ReleaseArgs.matches, Option.filter_some]
        · simp [hk]
      · rename_i hmatch
        rw [ih]
        by_cases hk : key = k
        · subst hk
          cases he : entries.get? key with
          | none => simp
          | some entry => simp_all [ReleaseArgs.matches, Option.filter_some]
        · simp [hk]

end InProcessInstrumentReservations

end Strikedge.Reservations
