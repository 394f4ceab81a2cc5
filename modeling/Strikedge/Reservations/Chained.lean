import Strikedge.Reservations.Durable
import Strikedge.Reservations.InProcess

/-!
# The reservation chain

`ChainedInstrumentReservations` asks its tiers in order and, when one refuses, undoes
the tiers before it by releasing. One call runs alone here: what the environment
decides for a tier during the call (whether it throws, is usable, loses its authority
at some stage, or is reached by the release) is a `TierEnv`.
-/

namespace Strikedge.Reservations

/-- Stages at which an acquisition waits for the authority. -/
inductive Stage where
  | nextFence
  | insert
  | deleteOwned
  | reinsert
  | deleteExpired
  | retry
  | findLive
  | other
  deriving DecidableEq, Repr

def Frame.stage : Frame → Stage
  | .fencing _ => .nextFence
  | .inserting _ => .insert
  | .deletingOwn _ => .deleteOwned
  | .reinserting _ => .reinsert
  | .reclaiming _ _ => .deleteExpired
  | .retrying _ => .retry
  | .listing _ => .findLive
  | _ => .other

/-- What the environment decides for one tier during one call. -/
structure TierEnv where
  /-- the tier rejects before it consults anything -/
  throws : Option String := none
  usable : Bool := true
  clockFailure : Option String := none
  /-- the outage the authority shows at a stage of the acquisition -/
  outage : Stage → Option String := fun _ => none
  /-- the outage a rollback release sees when it checks readiness -/
  beforeRelease : Option String := none
  /-- the outage a rollback release sees at its port call -/
  atRelease : Option String := none

structure Session where
  db : InMemoryReservationDatabase
  worker : DurableInstrumentReservations
  next : Next

namespace Session

/-- What an `await` of the call delivers. -/
def reply (env : TierEnv) (db : InMemoryReservationDatabase) (frame : Frame) :
    InMemoryReservationDatabase × Reply :=
  match frame.call with
  | some call =>
      let (db, reply) := InMemoryReservationDatabase.serve
        { db with failure := env.outage frame.stage } call
      (db, .port reply)
  | none =>
      match frame, env.clockFailure with
      | .ensuring _, _ => (db, .usable env.usable)
      | _, none => (db, .refreshed 0)
      | _, some message => (db, .port (.thrown message))

def advance (env : TierEnv) (s : Session) : Session :=
  match s.next with
  | .finish _ => s
  | .await frame =>
      let (db, reply) := reply env s.db frame
      match s.worker.resume frame reply with
      | some (worker, next) => ⟨db, worker, next⟩
      | none => s

def drive (env : TierEnv) : Nat → Session → Session
  | 0, s => s
  | n + 1, s => drive env n (s.advance env)

/-- Awaits still ahead of an acquisition, at most. -/
def rank : Next → Nat
  | .await (.ensuring _) => 9
  | .await (.refreshing _ _) => 8
  | .await (.fencing _) => 7
  | .await (.inserting _) => 6
  | .await (.deletingOwn _) => 5
  | .await (.reinserting _) => 4
  | .await (.reclaiming _ _) => 3
  | .await (.retrying _) => 2
  | .await _ => 1
  | .finish _ => 0

end Session

/-- The outcome of a finished acquisition. -/
def Next.outcome (name : String) : Next → ReservationOutcome
  | .finish (.acquired outcome) => outcome
  | _ => .unavailable name "not finished"

inductive Tier where
  | inProcess (store : InProcessInstrumentReservations)
  | durable (worker : DurableInstrumentReservations) (db : InMemoryReservationDatabase)

namespace Tier

def name : Tier → String
  | .inProcess _ => InProcessInstrumentReservations.name
  | .durable worker _ => worker.name

/-- `tier.durable`: authoritative across processes. -/
def isDurable : Tier → Bool
  | .inProcess _ => false
  | .durable worker _ => worker.crossProcess

/-- One call of `tier.tryAcquireAll`. The error is a rejected promise. -/
def tryAcquireAll (env : TierEnv) (args : AcquireArgs) (tier : Tier) :
    Tier × Except String ReservationOutcome :=
  match env.throws with
  | some message => (tier, .error message)
  | none =>
      match tier with
      | .inProcess store =>
          let (store, outcome) := store.tryAcquireAll args
          (.inProcess store, .ok outcome)
      | .durable worker db =>
          let s := Session.drive env 9 ⟨db, worker, worker.begin (.tryAcquireAll args)⟩
          (.durable s.worker s.db, .ok (s.next.outcome worker.name))

/-- One call of `tier.release` from the rollback, by owner and keys and with no fence. -/
def rollback (env : TierEnv) (args : AcquireArgs) : Tier → Tier
  | .inProcess store =>
      .inProcess (store.release
        { owner := args.owner, keys := some (dedupeKeys args.keys), now := args.now }).1
  | .durable worker db =>
      match worker.release { db with failure := env.beforeRelease }
        { owner := args.owner, keys := some (dedupeKeys args.keys), now := args.now } with
      | (worker, .finish _) => .durable worker db
      | (worker, .await frame) =>
          match frame.call with
          | none => .durable worker db
          | some call =>
              let (db', reply) := InMemoryReservationDatabase.serve
                { db with failure := env.atRelease } call
              let worker := ((worker.resumePort frame reply).map (·.1)).getD worker
              .durable worker db'

end Tier

/-- What a call of the chain accumulates over the tiers that granted. -/
structure Accumulated where
  durability : ReservationDurability
  fence : Nat
  expiresAt : Int
  issued : OrderedMap String Nat

/-- Fold one granted lease in. The durable tier's fence and expiry are reported outward. -/
def Accumulated.grant (acc : Accumulated) (tier : Tier) (lease : ReservationLease) : Accumulated :=
  let outward := tier.isDurable || acc.durability = .localOnly
  { durability := if lease.durability = .durable then .durable else acc.durability
    fence := if outward then lease.fence else acc.fence
    expiresAt := if outward then lease.expiresAt else acc.expiresAt
    issued := acc.issued.set tier.name lease.fence }

structure ChainedInstrumentReservations where
  tiers : List Tier
  /-- the fence each tier issued, by owner -/
  fences : OrderedMap Owner (OrderedMap String Nat) := ∅

namespace ChainedInstrumentReservations

/-- Ask the tiers in order. `taken` holds those that granted, newest first; a refusal
releases them in that order and leaves the tiers behind it alone. -/
def acquireFrom (args : AcquireArgs) :
    List (Tier × TierEnv) → List (Tier × TierEnv) → Accumulated →
      List Tier × Except ReservationOutcome Accumulated
  | [], taken, acc => ((taken.map (·.1)).reverse, .ok acc)
  | (tier, env) :: rest, taken, acc =>
      let undo := (taken.map fun t => t.1.rollback t.2 args).reverse
      match tier.tryAcquireAll env args with
      | (tier', .ok (.ok lease)) =>
          acquireFrom args rest ((tier', env) :: taken) (acc.grant tier lease)
      | (tier', .ok refusal) => (undo ++ tier' :: rest.map (·.1), .error refusal)
      | (tier', .error message) =>
          (undo ++ tier' :: rest.map (·.1), .error (.unavailable tier.name message))

/-- The tiers with what each meets during the call. -/
def calls (chain : ChainedInstrumentReservations) (env : Nat → TierEnv) :
    List (Tier × TierEnv) :=
  chain.tiers.mapIdx fun i tier => (tier, env i)

/-- `tryAcquireAll`, with what the tier at each position meets during the call. -/
def tryAcquireAll (chain : ChainedInstrumentReservations) (env : Nat → TierEnv)
    (args : AcquireArgs) : ChainedInstrumentReservations × ReservationOutcome :=
  match acquireFrom args (chain.calls env) []
      ⟨.localOnly, 0, args.now + normaliseTtl args.ttlMs, ∅⟩ with
  | (tiers, .ok acc) =>
      (⟨tiers, chain.fences.set args.owner acc.issued⟩,
        .ok ⟨args.owner, dedupeKeys args.keys, acc.expiresAt, acc.fence, acc.durability⟩)
  | (tiers, .error refusal) => (⟨tiers, chain.fences.delete args.owner⟩, refusal)

end ChainedInstrumentReservations

end Strikedge.Reservations
