import Strikedge.Coordinator.Gateway

/-!
# The coordination algorithm

Every asynchronous method of the coordinator is cut at its `await`s. A `Frame` is a
suspended method with its locals, `Frame.call` is what it waits for, and a `Stretch`
is what runs without yielding: from a start or an answer to the next `await` or to
the method's end, with the fire-and-forget releases it spawns on the way. An `await`
of a promise that is already resolved still yields: its call is `turn`.

The stretches also tell, as events, who depends on an underlying from when to when.
Events are history and no stretch reads them.
-/

namespace Strikedge.Coordinator

open Reservations (InstrumentKey ReservationContext ReservationDurability RenewFailure
  RenewOutcome OwnershipDenial)

abbrev TaskId := Nat

inductive Call where
  /-- a promise that is already resolved -/
  | turn
  | consumeAttempt
  /-- `tryAcquireAll` of `deps.local` or of `deps.reservations` -/
  | acquire (viaLocal : Bool) (owner : OwnerId) (keys : List InstrumentKey)
  | verify (owner : OwnerId) (keys : List InstrumentKey)
  | release (call : ReleaseCall)
  | renew (tier : TierName) (owner : OwnerId) (keys : List InstrumentKey)
  /-- a release event or the retry timer -/
  | wake
  /-- the inner gateway executes the order legs -/
  | inner (executionId : OwnerId)
  /-- `Promise.allSettled` -/
  | settled (children : List TaskId)
  deriving DecidableEq, Repr

inductive Answer where
  | turn
  | consumed (ok : Bool) (detail : Option String)
  | acquired (expiresAt : Int) (fence : Nat) (durability : ReservationDurability)
  | conflict (conflicts : Nat)
  | unavailable (tier detail : String)
  | owned
  | denied (reason : OwnershipDenial) (detail : String)
  | released
  /-- the tier could not be reached and said so by releasing nothing -/
  | unreached
  | renewed (expiresAt : Int) (fence : Nat)
  | notRenewed (reason : RenewFailure) (detail : String)
  | woken
  | executed (result : ExecutionResult)
  | settled
  | threw (message : String)
  deriving DecidableEq, Repr

/-- A `releaseLease` in progress. -/
structure Releasing where
  call : ReleaseCall
  rest : List ReleaseCall
  deriving DecidableEq, Repr

inductive Releasing.Progress where
  | more (r : Releasing)
  | done
  | rejected
  deriving DecidableEq, Repr

def Releasing.next : List ReleaseCall → Releasing.Progress
  | [] => .done
  | call :: rest => .more ⟨call, rest⟩

def Releasing.resume (r : Releasing) : Answer → Option Releasing.Progress
  | .released | .unreached => some (next r.rest)
  | .threw _ => some (if r.call.swallows then next r.rest else .rejected)
  | _ => none

/-- A `renewLease` in progress: the tier being asked, the tiers after it, the failure
so far, the earliest expiry and the fence so far. -/
structure Renewal where
  owner : OwnerId
  keys : List InstrumentKey
  tier : TierName
  rest : List TierName
  chained : Bool
  failure : Option RenewFailure := none
  expiresAt : Option Int := none
  fence : Nat := 0
  deriving DecidableEq, Repr

inductive Renewal.Progress where
  | more (r : Renewal)
  | done (outcome : RenewOutcome)
  | rejected
  deriving DecidableEq, Repr

/-- `renewLease`: a lease of the local tier is renewed there and nowhere else. -/
def renewLease (cfg : BoxConfig) (owner : OwnerId) (lease : ReservationLease) : Renewal :=
  if cfg.chained ∧ ¬(lease.durability = .localOnly ∧ cfg.withLocal) then
    { owner, keys := lease.keys, tier := .inProcess, rest := [.durable], chained := true }
  else { owner, keys := lease.keys, tier := .inProcess, rest := [], chained := false }

namespace Renewal

/-- `unavailable` outranks `lost`, otherwise the first failure stands. -/
def worst (failure : Option RenewFailure) (reason : RenewFailure) : Option RenewFailure :=
  match failure with
  | none => some reason
  | some earlier =>
      if reason = .unavailable ∧ earlier ≠ .unavailable then some reason else some earlier

def outcome (r : Renewal) : RenewOutcome :=
  match r.failure with
  | some reason => .failed reason ""
  | none => .ok (r.expiresAt.getD 0) r.fence

def advance (r : Renewal) : Renewal.Progress :=
  match r.rest with
  | [] => .done r.outcome
  | tier :: rest => .more { r with tier, rest }

def resume (r : Renewal) : Answer → Option Renewal.Progress
  | .renewed expiresAt fence =>
      some (advance
        { r with
          expiresAt := some (r.expiresAt.elim expiresAt (min · expiresAt))
          fence := if r.tier = .durable ∨ r.fence = 0 then fence else r.fence })
  | .notRenewed reason _ => some (advance { r with failure := worst r.failure reason })
  | .threw _ =>
      some (if r.chained then advance { r with failure := worst r.failure .unavailable }
        else .rejected)
  | _ => none

end Renewal

/-- The locals of `coordinateEntry`, and which entry method awaits it. -/
structure Entry where
  executionId : OwnerId
  /-- `simulateLeggingEntry` rather than `simulateEntry` -/
  legging : Bool
  candidate : BoxCandidate
  opportunityId : String
  context : ReservationContext
  deriving DecidableEq, Repr

structure Attempt where
  keys : List InstrumentKey
  waitStarted : Int
  waited : Bool := false
  deriving DecidableEq, Repr

/-- The locals of `holdUnderlying` while it acquires. -/
structure Hold where
  claimKey : String
  underlying : String
  holder : Holder
  owner : OwnerId
  key : InstrumentKey
  context : ReservationContext
  deriving DecidableEq, Repr

structure Exit where
  executionId : OwnerId
  legging : Bool
  position : BoxPosition
  keys : List InstrumentKey
  deriving DecidableEq, Repr

inductive Frame where
  -- coordinateEntry
  | consuming (e : Entry)
  | holding (e : Entry) (h : Hold)
  | held (e : Entry) (held : Bool)
  | acquiring (e : Entry) (a : Attempt)
  | acquiringLocal (e : Entry) (a : Attempt)
  | waiting (e : Entry) (a : Attempt)
  | retrying (e : Entry) (a : Attempt)
  | verifying (e : Entry) (a : Attempt) (lease : ReservationLease)
  | permitted (e : Entry) (a : Attempt) (lease : ReservationLease)
      (refusal : Option (String × String))
  | discarding (e : Entry) (refusal : Refusal) (r : Releasing)
  -- the entry methods after it
  | executing (e : Entry)
  | reholding (e : Entry) (result : ExecutionResult) (h : Hold)
  | reheld (e : Entry) (result : ExecutionResult)
  | droppingPipeline (e : Entry) (result : ExecutionResult) (r : Releasing)
  | holdSettled (e : Entry) (result : ExecutionResult)
  -- exits
  | exitAcquiring (x : Exit)
  | exitAcquiringLocal (x : Exit)
  | exitExecuting (x : Exit)
  -- settle, of an entry or an exit
  | settling (executionId : OwnerId) (opportunityId : Option String) (result : ExecutionResult)
      (r : Releasing)
  -- underlying claims
  | claiming (h : Hold)
  | dropping (r : Releasing)
  -- renewTick
  | renewing (r : Renewal)
  | tickActive (now : Int) (children : List TaskId)
  | tickHolds (now : Int) (executionId : OwnerId) (r : Renewal)
      (rest : List (OwnerId × UncertainHold))
  | tickClaims (claimKey : String) (r : Renewal) (rest : List (String × PositionUnderlyingClaim))
  deriving DecidableEq

def Frame.call : Frame → Call
  | .consuming _ => .consumeAttempt
  | .holding _ h | .reholding _ _ h | .claiming h => .acquire false h.owner [h.key]
  | .held _ _ | .permitted _ _ _ _ | .reheld _ _ | .holdSettled _ _ => .turn
  | .acquiring e a | .retrying e a => .acquire false e.executionId a.keys
  | .acquiringLocal e a => .acquire true e.executionId a.keys
  | .waiting _ _ => .wake
  | .verifying e a _ => .verify e.executionId a.keys
  | .discarding _ _ r | .droppingPipeline _ _ r | .settling _ _ _ r | .dropping r =>
      .release r.call
  | .executing e => .inner e.executionId
  | .exitAcquiring x => .acquire false x.executionId x.keys
  | .exitAcquiringLocal x => .acquire true x.executionId x.keys
  | .exitExecuting x => .inner x.executionId
  | .renewing r | .tickHolds _ _ r _ | .tickClaims _ r _ => .renew r.tier r.owner r.keys
  | .tickActive _ children => .settled children

/-- How a method ended. -/
inductive Outcome where
  /-- `coordinateEntry` returned `ok: false` -/
  | refused (executionId : OwnerId) (refusal : Refusal)
  /-- `coordinateEntry` threw -/
  | coordinationThrew (executionId : OwnerId)
  /-- the execution ran and its result was returned -/
  | returned (executionId : OwnerId) (result : ExecutionResult)
  /-- the execution, or its settlement, threw -/
  | threw (executionId : OwnerId)
  | deferred (executionId : OwnerId)
  | claimed (held : Bool)
  | dropped
  | renewed
  | ticked
  | rejected
  deriving DecidableEq, Repr

/-- Who depends on an underlying: from a hold granted, or a box established, until the
holder is released. -/
inductive DependenceEvent where
  | depends (claimKey underlying : String) (holder : Holder)
  | released (underlying : String) (holder : Holder)
  deriving DecidableEq

inductive Next where
  | await (frame : Frame)
  | finish (outcome : Outcome)
  deriving DecidableEq

structure Stretch where
  gateway : Gateway
  next : Next
  spawned : List Frame := []
  events : List DependenceEvent := []

/-- The fire-and-forget rest of a `dropUnderlyingHolder`. -/
def droppingFrame : Option (ReleaseCall × List ReleaseCall) → List Frame
  | none => []
  | some (call, rest) => [.dropping ⟨call, rest⟩]

namespace Gateway

inductive HoldStep where
  | decided (held : Bool)
  | acquiring (h : Hold)

def newHold (cfg : BoxConfig) (w : World) (underlying : String) (holder : Holder)
    (owner : OwnerId) : Hold where
  claimKey := w.positionClaimKey underlying
  underlying := underlying
  holder := holder
  owner := owner
  key := underlyingReservationKey w.broker underlying
  context := w.context cfg

/-- `holdUnderlying` up to its `await`. -/
def holdUnderlying (cfg : BoxConfig) (w : World) (g : Gateway) (underlying : String)
    (holder : Holder) (exclusive : Bool) : Gateway × HoldStep :=
  if cfg.oneActiveBoxPerUnderlying then
    let claimKey := w.positionClaimKey underlying
    if g.positionClaims.has claimKey then
      if exclusive then (g, .decided false) else (g.addHolder claimKey holder, .decided true)
    else
      let (owner, g) := g.mintId "underlying"
      (g, .acquiring (newHold cfg w underlying holder owner))
  else (g, .decided false)

/-- The claim a granted hold records. -/
def Hold.claim (h : Hold) (now expiresAt : Int) (fence : Nat)
    (durability : ReservationDurability) : PositionUnderlyingClaim where
  owner := h.owner
  lease := { owner := h.owner, keys := [h.key], expiresAt, fence, durability }
  context := h.context
  underlying := normalise h.underlying
  holders := {h.holder}
  claimedAt := now

/-- `holdUnderlying` after its `await`. It never throws. -/
def finishHold (w : World) (g : Gateway) (h : Hold) : Answer → Option (Gateway × Bool)
  | .acquired expiresAt fence durability =>
      some (g.recordClaim h.claimKey (Hold.claim h w.now expiresAt fence durability), true)
  | .conflict _ | .unavailable _ _ | .threw _ => some (g, false)
  | _ => none

def holdEvents (h : Hold) (held : Bool) : List DependenceEvent :=
  if held then [.depends h.claimKey (normalise h.underlying) h.holder] else []

/-- The pipeline no longer depends on the underlying. -/
def pipelineReleased (e : Entry) : DependenceEvent :=
  .released (normalise e.candidate.underlying) (.pipeline e.executionId)

def refuse (g : Gateway) (e : Entry) (reason : BoxExecutionFailureReason) (detail : String) :
    Stretch where
  gateway := g
  next := .finish (.refused e.executionId ⟨reason, detail⟩)
  events := [pipelineReleased e]

/-- A refusal that abandons the claim and releases the pipeline hold first. -/
def abandonAndRefuse (cfg : BoxConfig) (w : World) (g : Gateway) (e : Entry)
    (reason : BoxExecutionFailureReason) (detail : String) : Stretch :=
  let (g, release) := g.abandonAndReleaseHold cfg w e.executionId
  { gateway := g
    next := .finish (.refused e.executionId ⟨reason, detail⟩)
    spawned := droppingFrame release
    events := [pipelineReleased e] }

/-- A refusal that also releases the contract lease, and waits for that. -/
def discard (cfg : BoxConfig) (w : World) (g : Gateway) (e : Entry) (lease : ReservationLease)
    (reason : BoxExecutionFailureReason) (detail : String) : Stretch :=
  let (g, release) := g.abandonAndReleaseHold cfg w e.executionId
  let (call, rest) := releaseLease cfg e.executionId (some lease)
  { gateway := g
    next := .await (.discarding e ⟨reason, detail⟩ ⟨call, rest⟩)
    spawned := droppingFrame release
    events := [pipelineReleased e] }

/-- An exception `coordinateEntry` does not catch. -/
def escape (g : Gateway) (e : Entry) : Stretch where
  gateway := g
  next := .finish (.coordinationThrew e.executionId)
  events := [pipelineReleased e]

/-- From the underlying hold to the claim and the first acquisition. -/
def afterHold (cfg : BoxConfig) (w : World) (g : Gateway) (e : Entry) : Stretch :=
  let keys := contractKeys w.broker e.candidate.legs
  let sameUnderlying := g.sameUnderlying e.candidate.underlying
  if 0 < cfg.maxConcurrentPerUnderlying ∧ cfg.maxConcurrentPerUnderlying ≤ sameUnderlying then
    g.refuse e .duplicate (s!"per-underlying execution budget reached " ++
      s!"({sameUnderlying}/{cfg.maxConcurrentPerUnderlying})")
  else
    { gateway := g.claim e.executionId e.opportunityId e.candidate.underlying keys e.context
      next := .await (.acquiring e { keys, waitStarted := w.now }) }

def underlyingHeldDetail (underlying : String) : String :=
  s!"{underlying} is already held by another Box or entry pipeline; " ++
    "BOX_ONE_ACTIVE_BOX_PER_UNDERLYING is enabled, so a second Box on this underlying may " ++
    "not enter regardless of strike pair, expiry or direction. This is NOT a contract " ++
    "reservation conflict — the two Boxes need not share any option."

def underlyingActiveDetail (underlying activity : String) : String :=
  s!"{activity}; BOX_ONE_ACTIVE_BOX_PER_UNDERLYING is enabled, so a second {underlying} Box " ++
    "may not enter regardless of strike pair, expiry or direction. This is NOT a contract " ++
    "reservation conflict."

/-- From the session attempt to the underlying hold. -/
def afterAttempt (cfg : BoxConfig) (w : World) (g : Gateway) (e : Entry) : Stretch :=
  if cfg.oneActiveBoxPerUnderlying then
    let key := normalise e.candidate.underlying
    match w.activeUnderlyings.lookup key with
    | some activity =>
        g.refuse e .underlyingAlreadyActive (underlyingActiveDetail key activity)
    | none =>
        match g.holdUnderlying cfg w e.candidate.underlying (.pipeline e.executionId) true with
        | (g, .decided held) => { gateway := g, next := .await (.held e held) }
        | (g, .acquiring h) => { gateway := g, next := .await (.holding e h) }
  else g.afterHold cfg w e

def newEntry (cfg : BoxConfig) (w : World) (executionId : OwnerId) (legging : Bool)
    (candidate : BoxCandidate) : Entry where
  executionId := executionId
  legging := legging
  candidate := candidate
  opportunityId := s!"{toUpperCase w.broker}:{candidate.key}"
  context := w.context cfg

/-- The guards of `coordinateEntry`, up to its first `await`. -/
def prologue (cfg : BoxConfig) (w : World) (g : Gateway) (e : Entry) : Stretch :=
  if cfg.reservationRequireDurable ∧ ¬cfg.chained ∧ cfg.live then
    g.refuse e .feedUnhealthy
      (s!"live execution refused: BOX_RESERVATION_REQUIRE_DURABLE is set but the reservation " ++
        s!"store \"{cfg.storeName}\" is not durable")
  else
    match g.duplicateOf e.opportunityId with
    | some incumbent =>
        g.refuse e .duplicate s!"identical opportunity already executing as {incumbent.text}"
    | none =>
        match w.sessionGate.filter (!·.allowed) with
        | some gate =>
            let reason := gate.reason.getD "session_limit_reached"
            g.refuse e .sessionLimitReached <| gate.detail.getD
              s!"{reason}: the armed trading session refused entry"
        | none =>
            if cfg.consumesAttempts then { gateway := g, next := .await (.consuming e) }
            else g.afterAttempt cfg w e

def coordinateEntry (cfg : BoxConfig) (w : World) (g : Gateway) (legging : Bool)
    (candidate : BoxCandidate) : Stretch :=
  let (executionId, g) := g.mintId "entry"
  g.prologue cfg w (newEntry cfg w executionId legging candidate)

/-- `confirmBeforeSubmit`, up to its `await` where it has one. -/
def confirmBeforeSubmit (w : World) (g : Gateway) (e : Entry) (a : Attempt)
    (lease : ReservationLease) : Stretch :=
  let next : Frame :=
    if w.broker ≠ e.context.broker ∨ w.generation ≠ e.context.generation then
      .permitted e a lease <| some ("stale_broker_generation",
        s!"reservation was taken under {e.context.broker} generation {e.context.generation}, " ++
          s!"active is {w.broker} generation {w.generation}")
    else if !a.waited || lease.durability ≠ .durable then .permitted e a lease none
    else .verifying e a lease
  { gateway := g, next := .await next }

/-- An acquisition that may be taken for granted, revalidated if it waited. -/
def afterGranted (cfg : BoxConfig) (w : World) (g : Gateway) (e : Entry) (a : Attempt)
    (lease : ReservationLease) : Stretch :=
  match a.waited, w.revalidation with
  | true, some reason =>
      g.discard cfg w e lease .edgeDisappeared
        s!"revalidation after {w.now - a.waitStarted}ms: {reason}"
  | _, _ => g.confirmBeforeSubmit w e a lease

/-- One round of `waitForKeys`: sleep again, or give the wait up. -/
def waitForKeys (cfg : BoxConfig) (w : World) (g : Gateway) (e : Entry) (a : Attempt) : Stretch :=
  if w.now < a.waitStarted + cfg.conflictWaitMaxMs then
    { gateway := g, next := .await (.waiting e { a with waited := true }) }
  else
    g.abandonAndRefuse cfg w e .priceMoved
      s!"waited {w.now - a.waitStarted}ms for a shared contract and gave up"

/-- `handleUnavailable`: live entry fails closed, paper falls back to the local tier. -/
def handleUnavailable (cfg : BoxConfig) (w : World) (g : Gateway) (e : Entry) (a : Attempt)
    (tier detail : String) : Stretch :=
  if cfg.live then
    g.abandonAndRefuse cfg w e .feedUnhealthy
      (s!"durable_reservation_unavailable: live entry refused because the durable reservation " ++
        s!"authority \"{tier}\" is unavailable ({detail})")
  else if cfg.withLocal then { gateway := g, next := .await (.acquiringLocal e a) }
  else
    g.abandonAndRefuse cfg w e .feedUnhealthy s!"durable_reservation_unavailable: {detail}"

def leaseOf (e : Entry) (a : Attempt) (expiresAt : Int) (fence : Nat)
    (durability : ReservationDurability) : ReservationLease where
  owner := e.executionId
  keys := a.keys
  expiresAt := expiresAt
  fence := fence
  durability := durability

/-- `settle`. -/
def settle (cfg : BoxConfig) (w : World) (g : Gateway) (executionId : OwnerId)
    (opportunityId : Option String) (result : ExecutionResult) (uncertainty : Uncertainty) :
    Stretch :=
  let exec := g.active.get? executionId
  let g := g.conclude executionId opportunityId
  match uncertainty with
  | .clean =>
      let (call, rest) := releaseLease cfg executionId (exec.bind (·.lease))
      { gateway := g, next := .await (.settling executionId opportunityId result ⟨call, rest⟩) }
  | .uncertain =>
      { gateway := g.retain executionId exec "uncertain_terminal_state" w.now
        next := .finish (.returned executionId result) }

/-- Whether a result leaves an established box under a known trade id. -/
def establishedTrade (e : Entry) (result : ExecutionResult) : Option String :=
  if e.legging ∧ result.ok then result.tradeId.filter (· ≠ "") else none

/-- The uncertainty an entry settles with: the atomic path reports none. -/
def entryUncertainty (e : Entry) (result : ExecutionResult) : Uncertainty :=
  if e.legging then uncertaintyOf result else .clean

/-- The `dropUnderlyingHolder` that ends `settleUnderlyingHold`. -/
def dropPipeline (cfg : BoxConfig) (w : World) (g : Gateway) (e : Entry)
    (result : ExecutionResult) : Stretch :=
  let (g, release) :=
    g.dropUnderlyingHolder cfg w e.candidate.underlying (.pipeline e.executionId)
  match release with
  | none => { gateway := g, next := .await (.holdSettled e result), events := [pipelineReleased e] }
  | some (call, rest) =>
      { gateway := g
        next := .await (.droppingPipeline e result ⟨call, rest⟩)
        events := [pipelineReleased e] }

/-- `settleUnderlyingHold`: the trade holder is added before the pipeline holder goes. -/
def settleUnderlyingHold (cfg : BoxConfig) (w : World) (g : Gateway) (e : Entry)
    (result : ExecutionResult) : Stretch :=
  if cfg.oneActiveBoxPerUnderlying then
    match establishedTrade e result with
    | some tradeId =>
        let claimKey := w.positionClaimKey e.candidate.underlying
        let event := DependenceEvent.depends claimKey (normalise e.candidate.underlying)
          (.trade tradeId)
        if g.positionClaims.has claimKey then
          let s := (g.addHolder claimKey (.trade tradeId)).dropPipeline cfg w e result
          { s with events := event :: s.events }
        else
          match g.holdUnderlying cfg w e.candidate.underlying (.trade tradeId) false with
          | (g, .decided _) => { gateway := g, next := .await (.reheld e result), events := [event] }
          | (g, .acquiring h) =>
              { gateway := g, next := .await (.reholding e result h), events := [event] }
    | none =>
        match entryUncertainty e result with
        | .uncertain => { gateway := g, next := .await (.holdSettled e result) }
        | .clean => g.dropPipeline cfg w e result
  else { gateway := g, next := .await (.holdSettled e result) }

/-- The `catch` of an entry method: the pipeline is over and its outcome unknown. -/
def entryThrew (w : World) (g : Gateway) (e : Entry) : Stretch where
  gateway := g.holdOnUncertainty e.executionId (some e.opportunityId) "entry threw" w.now
  next := .finish (.threw e.executionId)
  events := [pipelineReleased e]

def refsForExit (w : World) (position : BoxPosition) : List InstrumentKey :=
  contractKeys w.broker position.legs

def coordinateExit (w : World) (g : Gateway) (legging : Bool) (position : BoxPosition) : Stretch :=
  let keys := refsForExit w position
  let (executionId, g) := g.mintId "exit"
  { gateway := g, next := .await (.exitAcquiring { executionId, legging, position, keys }) }

def exitGranted (cfg : BoxConfig) (w : World) (g : Gateway) (x : Exit) (expiresAt : Int)
    (fence : Nat) (durability : ReservationDurability) : Stretch where
  gateway := g.registerActive x.executionId x.keys x.position.underlying
    { owner := x.executionId, keys := x.keys, expiresAt, fence, durability } (w.context cfg)
  next := .await (.exitExecuting x)

def claimUnderlying (cfg : BoxConfig) (w : World) (g : Gateway) (underlying : String)
    (holder : Holder) : Stretch :=
  match g.holdUnderlying cfg w underlying holder false with
  | (g, .decided held) =>
      { gateway := g
        next := .finish (.claimed held)
        events := if held then [.depends (w.positionClaimKey underlying) (normalise underlying) holder]
          else [] }
  | (g, .acquiring h) => { gateway := g, next := .await (.claiming h) }

def releaseUnderlying (cfg : BoxConfig) (w : World) (g : Gateway) (underlying : String)
    (holder : Holder) : Stretch :=
  let (g, release) := g.dropUnderlyingHolder cfg w underlying holder
  { gateway := g
    next :=
      match release with
      | none => .finish .dropped
      | some (call, rest) => .await (.dropping ⟨call, rest⟩)
    events := [.released (normalise underlying) holder] }

/-- Renew the claims that are left, or end the tick. -/
def tickClaims (cfg : BoxConfig) (g : Gateway) :
    List (String × PositionUnderlyingClaim) → Gateway × Next
  | [] => ({ g with heartbeatRunning := false }, .finish .ticked)
  | (claimKey, claim) :: rest =>
      (g, .await (.tickClaims claimKey (renewLease cfg claim.owner claim.lease) rest))

/-- Drop the holds that have been kept long enough, renew the next one. -/
def tickHolds (cfg : BoxConfig) (now : Int) (g : Gateway) :
    List (OwnerId × UncertainHold) → Gateway × Next
  | [] => g.tickClaims cfg g.positionClaims.entries
  | (executionId, hold) :: rest =>
      if cfg.reservationUncertainHoldMaxMs ≤ now - hold.heldSince then
        tickHolds cfg now (g.dropHold executionId) rest
      else (g, .await (.tickHolds now executionId (renewLease cfg executionId hold.lease) rest))

/-- The renewals a tick starts: one for every leased execution it still owns. -/
def activeRenewals (cfg : BoxConfig) (g : Gateway) : List Renewal :=
  g.active.entries.filterMap fun (executionId, exec) =>
    match exec.lease with
    | some lease => if exec.ownershipLost then none else some (renewLease cfg executionId lease)
    | none => none

/-- `renewTick` up to the join. `base` is the first task id free for its renewals. -/
def renewTick (cfg : BoxConfig) (w : World) (g : Gateway) (base : TaskId) : Stretch :=
  if g.heartbeatRunning then { gateway := g, next := .finish .ticked }
  else
    let renewals := g.activeRenewals cfg
    { gateway := { g with heartbeatRunning := true }
      next := .await (.tickActive w.now (List.range' base renewals.length))
      spawned := renewals.map .renewing }

end Gateway

end Strikedge.Coordinator
