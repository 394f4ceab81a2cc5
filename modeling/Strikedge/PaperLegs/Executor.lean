import Strikedge.Machine.Run
import Strikedge.PaperLegs.Depth

/-!
# The leg executor

`LegExecutor.run` works the orders of one box on paper. Its loop sleeps until the next arrival,
deadline or confirmed cancel, at most the poll interval at a time. While it sleeps a tick may fill
what rests on the book.

A run is a sequence of actions: an iteration of the loop up to its sleep, the end of the sleep,
and a tick with the books it leaves. The clock stands still within an action. What the
environment draws once for each leg, a latency or a planned arrival, is a function of the leg.
-/

namespace Strikedge.PaperLegs

open Orders OrderPricing

structure LegOrderRequest where
  side : OrderSide
  token : ℕ
  tickSize : Option ℚ
  detectedPrice : Option ℚ
  quantity : ℕ
  /-- The envelope a broker adapter supplies. -/
  pricing : Option LimitPricing
  deriving DecidableEq, Repr

inductive PaperLegStatus where
  | created
  | inFlight
  | pending
  | partiallyFilled
  | cancelRequested
  | filled
  | timedOut
  | cancelled
  | failed
  deriving DecidableEq, Repr

/-- `TERMINAL` -/
def PaperLegStatus.terminal : PaperLegStatus → Bool
  | .filled | .timedOut | .cancelled | .failed => true
  | .created | .inFlight | .pending | .partiallyFilled | .cancelRequested => false

inductive PaperLegCancelStage where
  | preSubmission
  | inTransport
  | atExchange
  deriving DecidableEq, Repr

inductive CancelCause where
  | abort
  | timeout
  deriving DecidableEq, Repr

/-- The reasons a leg records, with the figures in their texts. -/
inductive FailCause where
  /-- not yet live at the exchange -/
  | notLive
  /-- no book for this instrument yet -/
  | noBook
  /-- book is stale -/
  | stale (age : ℚ)
  /-- no touch to price against -/
  | nothingToPrice
  /-- the touch is past the limit -/
  | pastLimit (touch limit : ℚ)
  /-- no executable quantity within the limit -/
  | nothingExecutable (limit : ℚ)
  /-- still unfilled after its timeout -/
  | stillUnfilled (timeoutMs : ℚ) (fillQty quantity : ℕ)
  /-- not submitted, an earlier leg failed -/
  | notSubmitted
  /-- unresolved when the run ended -/
  | unresolved
  | aborted (detail : String)
  | cancelled
  deriving DecidableEq, Repr

/-- A cause, and what filled during the cancellation where that is part of the text. -/
structure FailReason where
  cause : FailCause
  racedQty : ℕ
  deriving DecidableEq, Repr

def FailCause.reason (cause : FailCause) : FailReason := ⟨cause, 0⟩

structure PaperLegExecution where
  quantity : ℕ
  detectedPrice : Option ℚ
  pricing : Option LimitPricing
  status : PaperLegStatus
  submitAt : ℚ
  arrivalAt : ℚ
  ackAt : Option ℚ
  pendingSince : Option ℚ
  timeoutAt : Option ℚ
  cancelRequestedAt : Option ℚ
  cancelConfirmedAt : Option ℚ
  fillQtyAtCancelRequest : Option ℕ
  racedFillQty : ℕ
  cancelStage : Option PaperLegCancelStage
  fillAt : Option ℚ
  resolvedAt : Option ℚ
  fillQty : ℕ
  remainingQty : ℕ
  fills : List PaperFillSlice
  failReason : Option FailReason
  deriving DecidableEq, Repr

def blankLeg (req : LegOrderRequest) : PaperLegExecution where
  quantity := req.quantity
  detectedPrice := req.detectedPrice
  pricing := req.pricing
  status := .created
  submitAt := 0
  arrivalAt := 0
  ackAt := none
  pendingSince := none
  timeoutAt := none
  cancelRequestedAt := none
  cancelConfirmedAt := none
  fillQtyAtCancelRequest := none
  racedFillQty := 0
  cancelStage := none
  fillAt := none
  resolvedAt := none
  fillQty := 0
  remainingQty := req.quantity
  fills := []
  failReason := none

structure LegState where
  leg : PaperLegExecution
  req : LegOrderRequest
  done : Bool
  fillAttempts : ℕ
  cancelCause : Option CancelCause
  deriving DecidableEq, Repr

def LegState.blank (req : LegOrderRequest) : LegState where
  leg := blankLeg req
  req := req
  done := false
  fillAttempts := 0
  cancelCause := none

/-- What a run is started with. The sources of latency answer once for each leg. -/
structure LegRun where
  cfg : BoxConfig
  phase : ExecutionPhase
  requests : List LegOrderRequest
  submitAt : ℚ
  latencyMs : Option ℚ
  latencySource : Option (ℕ → ℚ)
  /-- The arrivals that are planned and finite. -/
  arrivalPlanner : Option (ℕ → Option ℚ)
  cancelRace : Option (ℕ → ℚ)

namespace LegRun

variable (r : LegRun)

def latency : ℚ := max 0 (r.latencyMs.getD r.cfg.latencyMs)

def latencyOf (i : ℕ) : ℚ :=
  match r.latencySource with
  | some next => max 0 (next i)
  | none => r.latency

def Sequential : Prop := r.cfg.legExecutionMode = .sequential

instance : Decidable r.Sequential := inferInstanceAs (Decidable (_ = _))

def plannedArrival (i : ℕ) : Option ℚ :=
  if r.Sequential then none else r.arrivalPlanner.bind fun planned => planned i

def submit (i : ℕ) (submitAt : ℚ) (plannedArrivalAt : Option ℚ) (st : LegState) : LegState :=
  match plannedArrivalAt with
  | some planned =>
    { st with
      leg.status := .inFlight
      leg.submitAt := submitAt
      leg.arrivalAt := max submitAt planned
      leg.ackAt := some (max submitAt planned) }
  | none =>
    { st with
      leg.status := .inFlight
      leg.submitAt := submitAt
      leg.arrivalAt := submitAt + r.latencyOf i }

/-- Release the order after leg `i`, timed from its fill. -/
def submitNext (legs : List LegState) (i : ℕ) (filledAt : ℚ) : List LegState :=
  match legs[i + 1]? with
  | none => legs
  | some next =>
    if next.leg.status ≠ .created then legs
    else legs.set (i + 1) (r.submit (i + 1) filledAt none next)

end LegRun

def LegState.notSubmitted (st : LegState) : LegState :=
  { st with
    leg.status := .failed
    leg.resolvedAt := some st.leg.submitAt
    leg.failReason := some FailCause.notSubmitted.reason
    done := true }

/-- Never submit the legs behind leg `i`. -/
def cancelRemaining (legs : List LegState) (i : ℕ) : List LegState :=
  legs.mapIdx fun j st =>
    if i < j ∧ st.done = false ∧ st.leg.status = .created then st.notSubmitted else st

def LegState.abandon (now : ℚ) (detail : FailReason) (st : LegState) : LegState :=
  if st.leg.status.terminal then { st with done := true }
  else
    { st with
      leg.status := if 0 < st.leg.fillQty then .cancelled else .failed
      leg.resolvedAt := some now
      leg.failReason := some detail
      done := true }

def LegState.timeOut (now : ℚ) (detail : FailReason) (st : LegState) : LegState :=
  { st with
    leg.status := .timedOut
    leg.resolvedAt := some (st.leg.timeoutAt.getD now)
    leg.failReason := some detail
    done := true }

def PaperLegExecution.noteRacedQuantity (leg : PaperLegExecution) : PaperLegExecution :=
  { leg with
    racedFillQty :=
      if leg.cancelRequestedAt = none then leg.racedFillQty
      else leg.fillQty - leg.fillQtyAtCancelRequest.getD 0 }

namespace LegRun

variable (r : LegRun)

def arriveAtExchange (now : ℚ) (st : LegState) : LegState :=
  { st with
    leg.status := .pending
    leg.pendingSince := some now
    leg.timeoutAt := some (st.leg.arrivalAt + r.cfg.timeout) }

/-- The part of `requestCancel` for an order that rests at the exchange. -/
def cancelResting (i : ℕ) (now : ℚ) (cause : CancelCause) (detail : FailReason)
    (st : LegState) : LegState :=
  match r.cancelRace with
  | none =>
    match cause with
    | .timeout => st.timeOut now detail
    | .abort => st.abandon now detail
  | some latencyMs =>
    if st.leg.cancelRequestedAt ≠ none then st
    else
      { st with
        cancelCause := some cause
        leg.cancelRequestedAt := some now
        leg.fillQtyAtCancelRequest := some st.leg.fillQty
        leg.cancelConfirmedAt := some (now + max 0 (latencyMs i))
        leg.status := .cancelRequested
        leg.failReason := some detail
        leg.cancelStage := some .atExchange }

def requestCancel (i : ℕ) (now : ℚ) (cause : CancelCause) (detail : FailReason)
    (st : LegState) : LegState :=
  match st.leg.status with
  | .filled | .timedOut | .cancelled | .failed => { st with done := true }
  | .created => { st with leg.cancelStage := some .preSubmission }.abandon now detail
  | .inFlight =>
    if now < st.leg.arrivalAt then
      { st with leg.cancelStage := some .inTransport }.abandon now detail
    else r.cancelResting i now cause detail (r.arriveAtExchange now st)
  | .pending | .partiallyFilled | .cancelRequested => r.cancelResting i now cause detail st

def unfilledReason (st : LegState) : FailReason :=
  (FailCause.stillUnfilled r.cfg.timeout st.leg.fillQty st.leg.quantity).reason

def expire (i : ℕ) (now : ℚ) (st : LegState) : LegState :=
  match r.cancelRace with
  | some _ => r.requestCancel i now .timeout (r.unfilledReason st) st
  | none => st.timeOut now (r.unfilledReason st)

/-- Settle a confirmed cancel by the quantity the leg has reached. -/
def confirmCancel (now : ℚ) (st : LegState) : LegState :=
  let leg := st.leg.noteRacedQuantity
  let resolvedAt := leg.cancelConfirmedAt.getD now
  if leg.remainingQty = 0 ∧ 0 < leg.fillQty then
    { st with
      leg := { leg with
        resolvedAt := some resolvedAt
        status := .filled
        fillAt := some (leg.fillAt.getD resolvedAt)
        failReason := none }
      done := true }
  else if st.cancelCause = some .timeout then
    { st with
      leg := { leg with
        resolvedAt := some resolvedAt
        status := .timedOut
        failReason := some { r.unfilledReason st with racedQty := leg.racedFillQty } }
      done := true }
  else
    { st with
      leg := { leg with
        resolvedAt := some resolvedAt
        status := if 0 < leg.fillQty then .cancelled else .failed
        failReason :=
          if 0 < leg.racedFillQty then
            some { leg.failReason.getD FailCause.cancelled.reason with
              racedQty := leg.racedFillQty }
          else leg.failReason }
      done := true }

end LegRun

inductive FillResult where
  | filled
  | partially
  | nothing
  deriving DecidableEq, Repr

def LegState.failing (st : LegState) (cause : FailCause) : LegState :=
  { st with leg.failReason := some cause.reason }

namespace LegRun

variable (r : LegRun)

/-- The envelope of a leg, priced by the first book it sees. -/
def envelope (st : LegState) (quote : BoxQuote) : Option LimitPricing :=
  match st.leg.pricing with
  | some pricing => some pricing
  | none =>
    (st.leg.detectedPrice.orElse fun _ => touchPrice st.req.side quote).bind fun ref =>
      if 0 < ref then some (r.cfg.priceOrder st.req.side ref st.req.tickSize r.phase) else none

def walkTerms (st : LegState) (pricing : LimitPricing) (quote : BoxQuote) (takenAt : ℚ)
    (reserved : ℚ → ℕ) : WalkTerms where
  side := st.req.side
  limitPrice := pricing.limitPrice
  queueModel := r.cfg.queueModel
  haircutPct := r.cfg.queueLiquidityHaircutPct
  takenAt := takenAt
  quoteVersion := quote.version
  reserved := reserved

/-- The walk of `tryFill` over the book of a leg. -/
def walk (st : LegState) (pricing : LimitPricing) (quote : BoxQuote) (takenAt : ℚ)
    (reserved : ℚ → ℕ) : DepthWalk :=
  walkDepth (r.walkTerms st pricing quote takenAt reserved) (quote.levels st.req.side)
    st.leg.remainingQty

def Fresh (quote : BoxQuote) (now : ℚ) : Prop :=
  0 ≤ now - quote.receivedAt ∧ now - quote.receivedAt ≤ r.cfg.quoteMaxAgeMs

instance (quote : BoxQuote) (now : ℚ) : Decidable (r.Fresh quote now) :=
  inferInstanceAs (Decidable (_ ∧ _))

end LegRun

/-- Why a walk has taken nothing. -/
def emptyWalkCause (side : OrderSide) (quote : BoxQuote) (limit : ℚ) : FailCause :=
  match touchPrice side quote with
  | some touch =>
    if AsGood side touch limit then .nothingExecutable limit else .pastLimit touch limit
  | none => .nothingExecutable limit

/-- A leg with the envelope it is priced with. -/
def LegState.priced (st : LegState) (pricing : LimitPricing) : LegState :=
  { st with leg.pricing := some pricing }

/-- The slices of a walk, and what they leave. -/
def LegState.applySlices (st : LegState) (walk : DepthWalk) : LegState :=
  { st with
    leg.fills := st.leg.fills ++ walk.slices
    leg.fillQty := st.leg.fillQty + walk.filledQty
    leg.remainingQty := st.leg.quantity - (st.leg.fillQty + walk.filledQty)
    leg.failReason := none }

/-- A leg whose last slice is taken. A cancel in flight is over with it. -/
def LegState.complete (st : LegState) (now : ℚ) : LegState :=
  { st with
    leg := { st.leg.noteRacedQuantity with
      status := .filled
      fillAt := some now
      resolvedAt := some now
      cancelConfirmedAt :=
        if st.leg.cancelRequestedAt = none then st.leg.cancelConfirmedAt else some now }
    done := true }

def LegState.rest (st : LegState) : LegState :=
  { st with
    leg.status :=
      if st.leg.status = .cancelRequested then .cancelRequested else .partiallyFilled }

/-- The end of `tryFill`, with the slices applied. -/
def LegState.settle (st : LegState) (now : ℚ) : LegState × FillResult :=
  if st.leg.remainingQty = 0 then (st.complete now, .filled) else (st.rest, .partially)

namespace LegRun

variable (r : LegRun)

def tryFill (now : ℚ) (book : Option BoxQuote) (reserved : ℚ → ℕ) (st : LegState) :
    LegState × FillResult :=
  if st.leg.pendingSince = none ∨ now < st.leg.arrivalAt then (st.failing .notLive, .nothing)
  else
    match book with
    | none => (st.failing .noBook, .nothing)
    | some quote =>
      if ¬r.Fresh quote now then (st.failing (.stale (now - quote.receivedAt)), .nothing)
      else
        match r.envelope st quote with
        | none => (st.failing .nothingToPrice, .nothing)
        | some pricing =>
          let walk := r.walk st pricing quote now reserved
          if walk.filledQty = 0 then
            ((st.priced pricing).failing (emptyWalkCause st.req.side quote pricing.limitPrice),
              .nothing)
          else ((st.priced pricing).applySlices walk).settle now

/-- Another attempt to fill a leg. -/
def attempt (now : ℚ) (quotes : ℕ → Option BoxQuote) (reserved : ℚ → ℕ) (st : LegState) :
    LegState × FillResult :=
  r.tryFill now (quotes st.req.token) reserved { st with fillAttempts := st.fillAttempts + 1 }

end LegRun

/-- The time is past a deadline that is set. -/
def Past (deadline : Option ℚ) (now : ℚ) : Prop := ∃ due ∈ deadline, due < now

instance (deadline : Option ℚ) (now : ℚ) : Decidable (Past deadline now) :=
  match deadline with
  | none => .isFalse nofun
  | some due =>
    decidable_of_iff (due < now)
      ⟨fun h => ⟨due, rfl, h⟩, fun ⟨_, hdue, h⟩ => Option.some.inj hdue ▸ h⟩

/-- What the tick callback asks of a leg before it tries to fill it. -/
def LegState.Wakes (st : LegState) (changed : List ℕ) (now : ℚ) : Prop :=
  st.done = false ∧
    (st.leg.status = .pending ∨ st.leg.status = .partiallyFilled ∨
      st.leg.status = .cancelRequested) ∧
    st.req.token ∈ changed ∧
    st.leg.pendingSince ≠ none ∧ st.leg.arrivalAt ≤ now ∧
    ¬Past st.leg.cancelConfirmedAt now ∧
    (st.leg.status ≠ .cancelRequested → ¬Past st.leg.timeoutAt now)

instance (st : LegState) (changed : List ℕ) (now : ℚ) : Decidable (st.Wakes changed now) :=
  inferInstanceAs (Decidable (_ ∧ _ ∧ _ ∧ _ ∧ _ ∧ _ ∧ _))

namespace LegRun

variable (r : LegRun)

/-- The callback of `subscribe`. -/
def onQuotes (now : ℚ) (changed : List ℕ) (quotes : ℕ → Option BoxQuote)
    (reserved : ℕ → ℚ → ℕ) (legs : List LegState) : List LegState :=
  legs.mapIdx fun i st =>
    if st.Wakes changed now then (r.attempt now quotes (reserved i) st).1 else st

/-- Orders that have arrived. -/
def arrive (now : ℚ) (quotes : ℕ → Option BoxQuote) (reserved : ℕ → ℚ → ℕ)
    (legs : List LegState) (i : ℕ) : List LegState :=
  match legs[i]? with
  | none => legs
  | some st =>
    if st.done ∨ st.leg.status ≠ .inFlight ∨ now < st.leg.arrivalAt then legs
    else
      let st := r.arriveAtExchange now st
      if Past st.leg.timeoutAt now then
        let legs := legs.set i (r.expire i now st)
        if r.Sequential then cancelRemaining legs i else legs
      else
        let (st, result) := r.attempt now quotes (reserved i) st
        let legs := legs.set i st
        if r.Sequential ∧ result = .filled then r.submitNext legs i now else legs

/-- Orders still working at their deadline. -/
def pull (now : ℚ) (legs : List LegState) (i : ℕ) : List LegState :=
  match legs[i]? with
  | none => legs
  | some st =>
    if st.done ∨ (st.leg.status ≠ .pending ∧ st.leg.status ≠ .partiallyFilled) ∨
        ¬∃ due ∈ st.leg.timeoutAt, due ≤ now then legs
    else
      let st := r.expire i now st
      let legs := legs.set i st
      if r.Sequential ∧ st.done then cancelRemaining legs i else legs

/-- Cancels whose confirmation has arrived. -/
def confirm (now : ℚ) (legs : List LegState) (i : ℕ) : List LegState :=
  match legs[i]? with
  | none => legs
  | some st =>
    if st.done ∨ st.leg.status ≠ .cancelRequested ∨
        ¬∃ due ∈ st.leg.cancelConfirmedAt, due ≤ now then legs
    else
      let legs := legs.set i (r.confirmCancel now st)
      if r.Sequential then cancelRemaining legs i else legs

end LegRun

/-- Visit the legs in their order. -/
def sweep (visit : List LegState → ℕ → List LegState) (legs : List LegState) : List LegState :=
  (List.range legs.length).foldl visit legs

namespace LegRun

variable (r : LegRun)

/-- The three sweeps of an iteration at its boundary. -/
def atBoundary (now : ℚ) (quotes : ℕ → Option BoxQuote) (reserved : ℕ → ℚ → ℕ)
    (legs : List LegState) : List LegState :=
  sweep (r.confirm now) (sweep (r.pull now) (sweep (r.arrive now quotes reserved) legs))

end LegRun

/-- The next instant anything can happen to a leg. -/
def LegState.boundary (st : LegState) : Option ℚ :=
  if st.done then none
  else
    match st.leg.status with
    | .inFlight => some st.leg.arrivalAt
    | .pending | .partiallyFilled => st.leg.timeoutAt
    | .cancelRequested => st.leg.cancelConfirmedAt
    | .created | .filled | .timedOut | .cancelled | .failed => none

def nextBoundary (legs : List LegState) : Option ℚ := (legs.filterMap LegState.boundary).min?

inductive LoopPoint where
  | top
  /-- Asleep, with the boundary the sleep was computed from. -/
  | waiting (next : ℚ)
  | ended
  deriving DecidableEq, Repr

structure RunState where
  now : ℚ
  legs : List LegState
  quotes : ℕ → Option BoxQuote
  guard : ℕ
  aborted : Option String
  point : LoopPoint

/-- The iterations the loop is allowed. -/
def maxIterations : ℕ := 10000

/-- What is still open is recorded as unresolved. -/
def LegState.close (now : ℚ) (st : LegState) : LegState :=
  if st.done then st
  else st.abandon now (st.leg.failReason.getD FailCause.unresolved.reason)

/-- Behind the loop. -/
def RunState.finish (s : RunState) : RunState :=
  { s with
    legs := s.legs.map (LegState.close s.now)
    point := .ended }

namespace LegRun

variable (r : LegRun)

/-- The first abort reason pulls every open leg. -/
def sweepAbort (s : RunState) : Option String → RunState
  | none => s
  | some detail =>
    if s.aborted ≠ none then s
    else
      { s with
        aborted := some detail
        legs := s.legs.mapIdx fun i st =>
          if st.done then st
          else r.requestCancel i s.now .abort (FailCause.aborted detail).reason st }

/-- The part of an iteration behind the abort sweep. -/
def advance (s : RunState) (reserved : ℕ → ℚ → ℕ) : RunState :=
  match nextBoundary s.legs with
  | none => s.finish
  | some next =>
    if s.now < next then { s with point := .waiting next }
    else { s with legs := r.atBoundary s.now s.quotes reserved s.legs }

/-- An iteration of the loop, up to its sleep. -/
def iterate (s : RunState) (abort : Option String) (reserved : ℕ → ℚ → ℕ) : RunState :=
  if maxIterations < s.guard + 1 then { s with guard := s.guard + 1 }.finish
  else r.advance (r.sweepAbort { s with guard := s.guard + 1 } abort) reserved

/-- The rest of an iteration, behind its sleep. -/
def resume (s : RunState) (next now : ℚ) (reserved : ℕ → ℚ → ℕ) : RunState :=
  if now < next then { s with now := now, point := .top }
  else
    { s with
      now := now
      legs := r.atBoundary now s.quotes reserved s.legs
      point := .top }

end LegRun

inductive LegAction where
  /-- An iteration begins. The abort predicate and the reservations answer. -/
  | loop (abort : Option String) (reserved : ℕ → ℚ → ℕ)
  /-- The sleep is over. -/
  | wake (now : ℚ) (reserved : ℕ → ℚ → ℕ)
  /-- A batch of ticks is applied, with the books it leaves. -/
  | tick (now : ℚ) (changed : List ℕ) (quotes : ℕ → Option BoxQuote) (reserved : ℕ → ℚ → ℕ)

namespace LegRun

variable (r : LegRun)

def step (s : RunState) : LegAction → Option RunState
  | .loop abort reserved =>
    match s.point with
    | .top => some (r.iterate s abort reserved)
    | .waiting _ | .ended => none
  | .wake now reserved =>
    match s.point with
    | .waiting next => if s.now ≤ now then some (r.resume s next now reserved) else none
    | .top | .ended => none
  | .tick now changed quotes reserved =>
    match s.point with
    | .waiting _ =>
      if s.now ≤ now then
        some { s with
          now := now
          quotes := quotes
          legs := r.onQuotes now changed quotes reserved s.legs }
      else none
    | .top | .ended => none

/-- The legs with those submitted that the mode lets go at once. -/
def initialLegs : List LegState :=
  r.requests.mapIdx fun i req =>
    if r.Sequential ∧ i ≠ 0 then LegState.blank req
    else r.submit i r.submitAt (r.plannedArrival i) (LegState.blank req)

def start (now : ℚ) (quotes : ℕ → Option BoxQuote) : RunState where
  now := now
  legs := r.initialLegs
  quotes := quotes
  guard := 0
  aborted := none
  point := .top

end LegRun

end Strikedge.PaperLegs
