import Strikedge.Machine.OrderedMap
import Strikedge.Machine.OrderedSet
import Mathlib.Data.List.Dedup

/-!
# Reservation vocabulary

The arguments and answers every reservation tier shares. Times are whole
milliseconds, on a local clock unless a name says otherwise. An acquisition has
three outcomes and not two: a conflict names the holders, while `unavailable` says
that the authority could not be asked and is never read as "free".
-/

namespace Strikedge.Reservations

open Machine (addMember mem_foldl_addMember nodup_foldl_addMember)

abbrev Owner := String
abbrev InstrumentKey := String
abbrev Deployment := String

/-- Whether a lease is backed by a cross-process authority, or only by this process. -/
inductive ReservationDurability where
  | durable
  | localOnly
  deriving DecidableEq, Repr

structure ReservationConflictDetail where
  key : InstrumentKey
  heldBy : Owner
  heldSide : Option String
  tier : String
  deriving DecidableEq, Repr

structure ReservationLease where
  owner : Owner
  keys : List InstrumentKey
  expiresAt : Int
  fence : Nat
  durability : ReservationDurability
  deriving DecidableEq, Repr

inductive ReservationOutcome where
  | ok (lease : ReservationLease)
  | conflict (conflicts : List ReservationConflictDetail)
  | unavailable (tier detail : String)
  deriving DecidableEq, Repr

def ReservationOutcome.isOk : ReservationOutcome → Bool
  | .ok _ => true
  | .conflict _ | .unavailable _ _ => false

/-- The deployment and broker identity a reservation belongs to. -/
structure ReservationContext where
  deployment : Deployment
  broker : String
  generation : Nat
  mode : String
  deriving DecidableEq, Repr

structure AcquireArgs where
  owner : Owner
  keys : List InstrumentKey
  ttlMs : Int
  now : Int
  sideByKey : List (InstrumentKey × String) := []
  context : Option ReservationContext := none
  deriving DecidableEq, Repr

structure ReleaseArgs where
  owner : Owner
  keys : Option (List InstrumentKey) := none
  now : Int
  fence : Option Nat := none
  deriving DecidableEq, Repr

structure RenewArgs where
  owner : Owner
  keys : List InstrumentKey
  ttlMs : Int
  now : Int
  fence : Option Nat := none
  context : Option ReservationContext := none
  deriving DecidableEq, Repr

structure VerifyArgs where
  owner : Owner
  keys : List InstrumentKey
  now : Int
  fence : Option Nat := none
  context : Option ReservationContext := none
  deriving DecidableEq, Repr

/-- Why a renewal failed. `unavailable` leaves the ownership unknown. -/
inductive RenewFailure where
  | lost
  | expired
  | unavailable
  deriving DecidableEq, Repr

inductive RenewOutcome where
  | ok (expiresAt : Int) (fence : Nat)
  | failed (reason : RenewFailure) (detail : String)
  deriving DecidableEq, Repr

/-- Why ownership was denied. `superseded` is a changed deployment, broker or
generation under an intact lease. -/
inductive OwnershipDenial where
  | expired
  | lost
  | superseded
  | unavailable
  deriving DecidableEq, Repr

inductive OwnershipVerdict where
  | owned (expiresAt : Int) (fence : Nat)
  | denied (reason : OwnershipDenial) (detail : String)
  deriving DecidableEq, Repr

/-- Distinct keys, in the order of their first occurrence. -/
def dedupeKeys (keys : List InstrumentKey) : List InstrumentKey :=
  keys.foldl addMember []

/-- Clamp a time to live to something a lock can mean. -/
def normaliseTtl (ttlMs : Int) : Int :=
  if 0 < ttlMs then ttlMs else 1000

theorem normaliseTtl_pos (ttlMs : Int) : 0 < normaliseTtl ttlMs := by
  unfold normaliseTtl
  split <;> omega

/-- The side recorded for a key, as a lookup in the map the caller passes. -/
def AcquireArgs.sideOf (args : AcquireArgs) (key : InstrumentKey) : Option String :=
  args.sideByKey.lookup key

section Dedupe

@[simp] theorem mem_dedupeKeys {keys : List InstrumentKey} {key : InstrumentKey} :
    key ∈ dedupeKeys keys ↔ key ∈ keys := by
  simp [dedupeKeys, mem_foldl_addMember]

theorem nodup_dedupeKeys (keys : List InstrumentKey) : (dedupeKeys keys).Nodup :=
  nodup_foldl_addMember List.nodup_nil

end Dedupe

end Strikedge.Reservations
