import Strikedge.Reservations.MemoryStore

/-!
# The durable tier of one worker

`DurableInstrumentReservations` as a resumable computation. Every `await` of the
source is a `Frame` that holds the locals still needed after it, and `resume` runs
the worker from one `await` to the next or to its answer. Between the two the
authority and the other workers may do anything.

The scheduling of connection attempts and clock measurements is left to the
environment: it answers whether the tier was usable, reads the local clock, and may
store a newly measured offset at any time.
-/

namespace Strikedge.Reservations

structure HeldLease where
  keys : List InstrumentKey
  expiresAt : Int
  fence : Nat
  deriving DecidableEq, Repr

structure DurableInstrumentReservations where
  name : String
  /-- The port is shared between processes, so a lease speaks for other workers. -/
  crossProcess : Bool := true
  ownerPrefix : String
  skewGraceMs : Nat
  /-- What `deps.context()` answers now. A broker switch changes it. -/
  context : ReservationContext
  /-- Authority clock minus local clock. -/
  clockOffsetMs : Int := 0
  /-- The port connected and the clock was measured. -/
  initialised : Bool := false
  held : OrderedMap Owner HeldLease := ∅
  /-- Allocated and unused tokens, the most recently returned one first. -/
  spareFences : List Nat := []
  lastError : Option String := none

/-- Operations that wait for the tier to be usable before they look at anything. -/
inductive Request where
  | tryAcquireAll (args : AcquireArgs)
  | renew (args : RenewArgs)
  | verify (args : VerifyArgs)
  | reapExpired
  deriving DecidableEq, Repr

inductive Answer where
  | acquired (outcome : ReservationOutcome)
  | renewed (outcome : RenewOutcome)
  | verdict (verdict : OwnershipVerdict)
  | reaped (removed : Nat)
  | released (deleted : Nat)
  | cleared
  deriving DecidableEq, Repr

/-- The suspension points. -/
inductive Frame where
  /-- `ensureUsable()` -/
  | ensuring (request : Request)
  /-- `refreshClockIfNeeded()` -/
  | refreshing (request : Request) (ctx : ReservationContext)
  /-- `nextFence` for a document that has everything but its token -/
  | fencing (doc : DurableReservationDoc)
  | inserting (doc : DurableReservationDoc)
  | deletingOwn (doc : DurableReservationDoc)
  | reinserting (doc : DurableReservationDoc)
  | reclaiming (doc : DurableReservationDoc) (notAfter : Int)
  | retrying (doc : DurableReservationDoc)
  | listing (doc : DurableReservationDoc)
  | renewing (ctx : ReservationContext) (args : RenewOwnedArgs)
  /-- the read that tells a lost lease from a superseded one -/
  | classifying (ctx : ReservationContext) (owner : Owner)
  | verifying (args : VerifyArgs) (ctx : ReservationContext)
  | reaping (deployment : Deployment) (notAfter : Int)
  | releasing (owner : Owner) (fence : Option Nat)
  | clearing (ownerPrefix : String)
  deriving DecidableEq, Repr

/-- The port call a frame waits for, where it waits for the port. -/
def Frame.call : Frame → Option PortCall
  | .ensuring _ | .refreshing _ _ => none
  | .fencing doc => some (.nextFence doc.deployment)
  | .inserting doc | .reinserting doc | .retrying doc => some (.insert doc)
  | .deletingOwn doc => some (.deleteOwned doc.owner none)
  | .reclaiming doc notAfter => some (.deleteExpired doc.deployment (some doc.keys) notAfter)
  | .listing doc => some (.findLiveByKeys doc.deployment doc.keys doc.createdAt)
  | .renewing _ args => some (.renewOwned args)
  | .classifying _ owner => some (.findByOwner owner)
  | .verifying args _ => some (.findByOwner args.owner)
  | .reaping deployment notAfter => some (.deleteExpired deployment none notAfter)
  | .releasing owner fence => some (.deleteOwned owner fence)
  | .clearing ownerPrefix => some (.deleteByOwnerPrefix ownerPrefix)

/-- What an `await` delivers. -/
inductive Reply where
  | usable (ok : Bool)
  /-- the clock is fresh enough; `localNow` is the local clock on resumption -/
  | refreshed (localNow : Int)
  | port (reply : PortReply)
  deriving DecidableEq, Repr

/-- Where a worker stands after a synchronous stretch. -/
inductive Next where
  | await (frame : Frame)
  | finish (answer : Answer)
  deriving DecidableEq, Repr

/-- The document a request writes, stamped with the authority's time. -/
def AcquireArgs.toDoc (args : AcquireArgs) (ctx : ReservationContext) (ownerPrefix : String)
    (authNow : Int) (fence : Nat) : DurableReservationDoc where
  owner := args.owner
  deployment := ctx.deployment
  broker := ctx.broker
  generation := ctx.generation
  mode := ctx.mode
  keys := dedupeKeys args.keys
  sides := (dedupeKeys args.keys).map fun key => (key, (args.sideOf key).getD "")
  fence := fence
  ownerInstance := ownerPrefix
  createdAt := authNow
  expiresAt := authNow + normaliseTtl args.ttlMs
  renewedAt := authNow

/-- The recorded side of a key, with the empty text read as no side. -/
def DurableReservationDoc.sideOf (doc : DurableReservationDoc) (key : InstrumentKey) :
    Option String :=
  (doc.sides.lookup key).filter (· ≠ "")

/-- Fail-closed answer of an operation that could not ask the authority. -/
def Request.unavailable (name detail : String) : Request → Answer
  | .tryAcquireAll _ => .acquired (.unavailable name detail)
  | .renew _ => .renewed (.failed .unavailable detail)
  | .verify _ => .verdict (.denied .unavailable detail)
  | .reapExpired => .reaped 0

/-- The context an operation names for itself. -/
def Request.context : Request → Option ReservationContext
  | .tryAcquireAll args => args.context
  | .renew args => args.context
  | .verify args => args.context
  | .reapExpired => none

namespace DurableInstrumentReservations

def maxSpareFences : Nat := 8

def toAuthority (w : DurableInstrumentReservations) (localMs : Int) : Int :=
  localMs + w.clockOffsetMs

def toLocal (w : DurableInstrumentReservations) (authorityMs : Int) : Int :=
  authorityMs - w.clockOffsetMs

def ready (w : DurableInstrumentReservations) (db : InMemoryReservationDatabase) : Bool :=
  w.initialised && db.failure.isNone

/-- Rounded difference between a server reading and the midpoint of its round trip. -/
def measuredOffset (before serverMs after : Int) : Int :=
  (2 * serverMs - before - after + 1) / 2

def syncClock (w : DurableInstrumentReservations) (before serverMs after : Int) :
    DurableInstrumentReservations :=
  { w with clockOffsetMs := measuredOffset before serverMs after }

/-- Record an error and refuse. An unreachable authority is not an empty lock table. -/
def failClosed (w : DurableInstrumentReservations) (request : Request) (message : String) :
    DurableInstrumentReservations × Next :=
  ({ w with lastError := some message }, .finish (request.unavailable w.name message))

def refuseAcquire (w : DurableInstrumentReservations) (message : String) :
    DurableInstrumentReservations × Next :=
  ({ w with lastError := some message },
    .finish (.acquired (.unavailable w.name message)))

/-- Return an unissued token to the pool, bounded. -/
def recycleFence (w : DurableInstrumentReservations) (fence : Nat) :
    DurableInstrumentReservations :=
  if maxSpareFences ≤ w.spareFences.length then w
  else { w with spareFences := fence :: w.spareFences }

/-- The success path: remember the lease and report it on the local clock. -/
def grant (w : DurableInstrumentReservations) (owner : Owner) (doc : DurableReservationDoc) :
    DurableInstrumentReservations × Next :=
  let expiresAt := w.toLocal doc.expiresAt
  ({ w with held := w.held.set owner ⟨doc.keys, expiresAt, doc.fence⟩ },
    .finish (.acquired (.ok ⟨owner, doc.keys, expiresAt, doc.fence, .durable⟩)))

/-- One detail for each wanted key, by the first live document that covers it. -/
def describeConflicts (w : DurableInstrumentReservations) (keys : List InstrumentKey)
    (live : List DurableReservationDoc) : List ReservationConflictDetail :=
  (live.flatMap fun doc => (doc.keys.filter (· ∈ keys)).map fun key =>
      ReservationConflictDetail.mk key doc.owner (doc.sideOf key) w.name).foldl
    (fun out conflict => if conflict.key ∈ out.map (·.key) then out else out ++ [conflict]) []

/-- Start an operation of the usable-first kind. An empty instrument set is refused:
a lease on it would protect nothing. -/
def begin (w : DurableInstrumentReservations) (request : Request) : Next :=
  match request with
  | .tryAcquireAll args =>
      if dedupeKeys args.keys = [] then
        .finish (.acquired
          (.unavailable w.name "refusing to reserve an empty instrument set"))
      else
        .await (.ensuring request)
  | .renew _ | .verify _ | .reapExpired => .await (.ensuring request)

def release (w : DurableInstrumentReservations) (db : InMemoryReservationDatabase)
    (args : ReleaseArgs) : DurableInstrumentReservations × Next :=
  let w := { w with held := w.held.delete args.owner }
  if w.ready db then
    (w, .await (.releasing args.owner args.fence))
  else
    ({ w with
        lastError := some (w.name ++
          ": release skipped while the authority was unavailable; the lease will expire by TTL") },
      .finish (.released 0))

/-- Drop the reservations of this process, and of no other. -/
def clear (w : DurableInstrumentReservations) (db : InMemoryReservationDatabase) :
    DurableInstrumentReservations × Next :=
  let w := { w with held := ∅ }
  if w.ready db then (w, .await (.clearing w.ownerPrefix)) else (w, .finish .cleared)

/-- Continue once the clock is fresh. A spare token saves the round trip to the counter. -/
def afterRefresh (w : DurableInstrumentReservations) (ctx : ReservationContext)
    (localNow : Int) : Request → DurableInstrumentReservations × Next
  | .tryAcquireAll args =>
      let doc := args.toDoc ctx w.ownerPrefix (w.toAuthority args.now)
      match w.spareFences with
      | fence :: rest => ({ w with spareFences := rest }, .await (.inserting (doc fence)))
      | [] => (w, .await (.fencing (doc 0)))
  | .renew args =>
      let authNow := w.toAuthority args.now
      (w, .await (.renewing ctx
        { owner := args.owner
          fence := args.fence
          broker := some ctx.broker
          generation := some ctx.generation
          now := authNow
          expiresAt := authNow + normaliseTtl args.ttlMs }))
  | .verify args => (w, .await (.verifying args ctx))
  | .reapExpired =>
      (w, .await (.reaping ctx.deployment (w.toAuthority localNow - w.skewGraceMs)))

/-- Our own live document under every wanted key: an earlier insert of ours landed. -/
def selfConflict (owner : Owner) (live : List DurableReservationDoc) :
    Option DurableReservationDoc :=
  if live.all (·.owner = owner) then live.head? else none

def afterListing (w : DurableInstrumentReservations) (doc : DurableReservationDoc)
    (live : List DurableReservationDoc) : DurableInstrumentReservations × Next :=
  match selfConflict doc.owner live with
  | some mine => w.grant doc.owner mine
  | none =>
      (w.recycleFence doc.fence,
        .finish (.acquired (.conflict (w.describeConflicts doc.keys live))))

/-- After a renewal that matched nothing, from what the extra read found. -/
def lostRenewal (w : DurableInstrumentReservations) (ctx : ReservationContext)
    (existing : Option DurableReservationDoc) : RenewOutcome :=
  match existing with
  | none =>
      .failed .lost (w.name ++ ": renewal matched no live reservation for this owner and fence")
  | some doc =>
      if doc.broker ≠ ctx.broker ∨ doc.generation ≠ ctx.generation then
        .failed .lost (w.name ++ ": reservation belongs to " ++ doc.broker ++ " generation " ++
          toString doc.generation ++ ", active is " ++ ctx.broker ++ " generation " ++
          toString ctx.generation)
      else
        .failed .expired
          (w.name ++ ": renewal matched no live reservation for this owner and fence")

/-- Ownership as the stored document, the clock and the active context see it. -/
def verdictOn (w : DurableInstrumentReservations) (args : VerifyArgs) (ctx : ReservationContext)
    (found : Option DurableReservationDoc) : OwnershipVerdict :=
  match found with
  | none => .denied .lost (w.name ++ ": no reservation for this owner")
  | some doc =>
      if !args.fence.all (doc.fence = ·) then
        .denied .lost (w.name ++ ": reservation fence " ++ toString doc.fence ++ " supersedes " ++
          toString (args.fence.getD 0))
      else if doc.expiresAt - w.skewGraceMs ≤ w.toAuthority args.now then
        -- Pessimistic: close enough to expiry that a challenger may be about to take it.
        .denied .expired (w.name ++ ": reservation has expired or is within its skew grace")
      else if doc.deployment ≠ ctx.deployment then
        .denied .superseded (w.name ++ ": reservation belongs to deployment " ++ doc.deployment ++
          ", active is " ++ ctx.deployment)
      else if doc.broker ≠ ctx.broker ∨ doc.generation ≠ ctx.generation then
        .denied .superseded (w.name ++ ": reservation belongs to " ++ doc.broker ++
          " generation " ++ toString doc.generation ++ ", active is " ++ ctx.broker ++
          " generation " ++ toString ctx.generation)
      else
        match (dedupeKeys args.keys).find? (· ∉ doc.keys) with
        | some key => .denied .lost (w.name ++ ": reservation does not cover " ++ key)
        | none => .owned (w.toLocal doc.expiresAt) doc.fence

/-- Run a worker from a port reply to its next `await` or its answer. A reply the
call cannot produce resumes nothing. -/
def resumePort (w : DurableInstrumentReservations) :
    Frame → PortReply → Option (DurableInstrumentReservations × Next)
  | .fencing doc, .fence value => some (w, .await (.inserting { doc with fence := value }))
  | .inserting doc, .insertion result =>
      match result with
      | .inserted => some (w.grant doc.owner doc)
      | .ownerExists => some (w, .await (.deletingOwn doc))
      | .keyConflict => some (w, .await (.reclaiming doc (doc.createdAt - w.skewGraceMs)))
  | .deletingOwn doc, .count _ => some (w, .await (.reinserting doc))
  | .reinserting doc, .insertion result =>
      match result with
      | .inserted => some (w.grant doc.owner doc)
      | .ownerExists => some (w, .await (.listing doc))
      | .keyConflict => some (w, .await (.reclaiming doc (doc.createdAt - w.skewGraceMs)))
  | .reclaiming doc _, .count reclaimed =>
      if 0 < reclaimed then some (w, .await (.retrying doc)) else some (w, .await (.listing doc))
  | .retrying doc, .insertion result =>
      match result with
      | .inserted => some (w.grant doc.owner doc)
      | .ownerExists | .keyConflict => some (w, .await (.listing doc))
  | .listing doc, .live live => some (w.afterListing doc live)
  | .renewing ctx args, .document updated =>
      match updated with
      | none =>
          some ({ w with held := w.held.delete args.owner },
            .await (.classifying ctx args.owner))
      | some doc =>
          let expiresAt := w.toLocal doc.expiresAt
          some ({ w with held := w.held.set args.owner ⟨doc.keys, expiresAt, doc.fence⟩ },
            .finish (.renewed (.ok expiresAt doc.fence)))
  | .classifying ctx _, .document existing =>
      some (w, .finish (.renewed (w.lostRenewal ctx existing)))
  -- The classifying read swallows its own failure.
  | .classifying ctx _, .thrown _ => some (w, .finish (.renewed (w.lostRenewal ctx none)))
  | .verifying args ctx, .document found =>
      some (w, .finish (.verdict (w.verdictOn args ctx found)))
  | .reaping _ _, .count removed => some (w, .finish (.reaped removed))
  | .releasing _ _, .count deleted => some (w, .finish (.released deleted))
  | .clearing _, .count _ => some (w, .finish .cleared)
  | .fencing _, .thrown message | .inserting _, .thrown message
  | .deletingOwn _, .thrown message | .reinserting _, .thrown message
  | .reclaiming _ _, .thrown message | .retrying _, .thrown message
  | .listing _, .thrown message => some (w.refuseAcquire message)
  | .renewing _ _, .thrown message =>
      some ({ w with lastError := some message },
        .finish (.renewed (.failed .unavailable message)))
  | .verifying _ _, .thrown message =>
      some ({ w with lastError := some message },
        .finish (.verdict (.denied .unavailable message)))
  | .reaping _ _, .thrown message =>
      some ({ w with lastError := some message }, .finish (.reaped 0))
  | .releasing _ _, .thrown message =>
      some ({ w with lastError := some message }, .finish (.released 0))
  | .clearing _, .thrown message =>
      some ({ w with lastError := some message }, .finish .cleared)
  | _, _ => none

/-- Run a worker from any reply to its next `await` or its answer. -/
def resume (w : DurableInstrumentReservations) :
    Frame → Reply → Option (DurableInstrumentReservations × Next)
  | .ensuring request, .usable ok =>
      if ok then
        some (w, .await (.refreshing request (request.context.getD w.context)))
      else
        some (w, .finish (request.unavailable w.name
          (w.lastError.getD (w.name ++ " reservation authority is not ready"))))
  | .refreshing request ctx, .refreshed localNow => some (w.afterRefresh ctx localNow request)
  | .refreshing request _, .port (.thrown message) => some (w.failClosed request message)
  | frame, .port reply => w.resumePort frame reply
  | _, _ => none

end DurableInstrumentReservations

end Strikedge.Reservations
