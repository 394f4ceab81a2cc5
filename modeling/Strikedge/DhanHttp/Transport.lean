import Mathlib.Algebra.Order.Field.Rat
import Mathlib.Data.NNRat.Defs
import Strikedge.Machine.Run
import Strikedge.Machine.Slots

/-!
# The Dhan HTTP transport

`DhanHttp.request` of `http.ts` and `Deadline` of `deadline.ts`, cut at the awaits. Every call
puts its closure `run` on one tail and arms an alarm for its deadline. `run` waits for its turn,
waits out the gap since the last fetch, asks `beforeSend` and calls `fetch`. The alarm releases
a caller whose deadline has passed while nothing was sent.

Times are in milliseconds of the monotonic clock. The clock moves between the blocks, and inside
one only while `beforeSend` runs.
-/

namespace Strikedge.DhanHttp

open Machine

structure Deadline where
  expiresAt : ℚ
  budgetMs : ℚ
  deriving DecidableEq

namespace Deadline

/-- `Deadline.in` -/
def within (budgetMs now : ℚ) : Deadline :=
  let budget := if 0 < budgetMs then budgetMs else 1
  ⟨now + budget, budget⟩

def remainingMs (d : Deadline) (now : ℚ) : ℚ := d.expiresAt - now

def expired (d : Deadline) (now : ℚ) : Bool := decide (d.remainingMs now ≤ 0)

/-- The remaining budget, but at least the shortest timer there is. -/
def timerMs (d : Deadline) (now : ℚ) : ℚ := max 1 (d.remainingMs now)

theorem expired_iff {d : Deadline} {now : ℚ} : d.expired now = true ↔ d.expiresAt ≤ now := by
  simp [expired, remainingMs]

theorem expired_eq_false_iff {d : Deadline} {now : ℚ} :
    d.expired now = false ↔ now < d.expiresAt := by
  rw [← Bool.not_eq_true, expired_iff, not_le]

/-- A timer that is armed now is due at the deadline, or later by its shortest length. -/
theorem add_timerMs (d : Deadline) (now : ℚ) :
    now + d.timerMs now = max (now + 1) d.expiresAt := by
  rw [timerMs, remainingMs, ← max_add_add_left, add_sub_cancel]

end Deadline

/-- The causes of a `DhanNetworkError`. -/
inductive NetworkFailure where
  | beforeAdmission
  | whileQueued
  | duringPacing
  | noResponse
  | bodyRead
  deriving DecidableEq, Repr

/-- `transmitted`: false only where the source passes false. -/
def NetworkFailure.transmitted : NetworkFailure → Bool
  | .beforeAdmission | .whileQueued | .duringPacing => false
  | .noResponse | .bodyRead => true

inductive HttpError where
  | network (failure : NetworkFailure)
  | rateLimit
  | auth
  | api (status : Nat)
  /-- whatever else `beforeSend` throws -/
  | other (message : String)
  deriving DecidableEq, Repr

inductive Settlement where
  | resolved
  | rejected (error : HttpError)
  deriving DecidableEq, Repr

/-- The evidence that nothing was transmitted. -/
def Settlement.untransmitted : Settlement → Bool
  | .rejected (.network failure) => !failure.transmitted
  | _ => false

def normalizeDhanError (status : Nat) : HttpError :=
  if status = 401 ∨ status = 403 then .auth
  else if status = 429 then .rateLimit
  else .api status

/-- What comes of `fetch` and the reading of the body, an abort by the controller included. -/
inductive Exchange where
  | noResponse
  | bodyLost
  /-- the status, and whether the body reports a failure -/
  | response (status : Nat) (failed : Bool)
  deriving DecidableEq, Repr

def Exchange.settlement : Exchange → Settlement
  | .noResponse => .rejected (.network .noResponse)
  | .bodyLost => .rejected (.network .bodyRead)
  | .response status failed =>
      if 200 ≤ status ∧ status < 300 then
        if failed then .rejected (normalizeDhanError 400) else .resolved
      else if status = 429 then .rejected .rateLimit
      else .rejected (normalizeDhanError status)

/-- What follows a fetch never claims that there was none. -/
theorem Exchange.untransmitted_settlement (exchange : Exchange) :
    exchange.settlement.untransmitted = false := by
  have hnormalized : ∀ status, (Settlement.rejected (normalizeDhanError status)).untransmitted =
      false := by
    intro status
    rw [normalizeDhanError]
    split
    · rfl
    · split <;> rfl
  cases exchange with
  | noResponse => rfl
  | bodyLost => rfl
  | response status failed =>
      rw [settlement]
      split
      · split
        · exact hnormalized 400
        · rfl
      · split
        · rfl
        · exact hnormalized status

/-- How and when the caller was released. -/
structure Settled where
  result : Settlement
  time : ℚ
  deriving DecidableEq

/-- One call of `request`. -/
structure Request where
  calledAt : ℚ
  deadline : Deadline
  /-- whether `beforeSend` is given -/
  hooked : Bool
  abandoned : Bool := false
  /-- `sent`, with the instant of the fetch -/
  sentAt : Option ℚ := none
  /-- when the nap of the alarm is due -/
  nap : Option ℚ := none
  settled : Option Settled := none
  /-- when the alarm was last armed -/
  armedAt : Option ℚ := none
  /-- when the last block before the network was entered -/
  guardedAt : Option ℚ := none
  deriving DecidableEq

/-- Where `run` of the request at the head of the tail waits. -/
inductive Stage where
  /-- in `sleep`, from which it should not return before this instant -/
  | pacing (until' : ℚ)
  /-- in `fetch` or in the reading of the body -/
  | onWire
  deriving DecidableEq

structure HttpConfig where
  timeoutMs : ℚ
  minIntervalMs : ℚ

structure Transport where
  now : ℚ
  lastAt : Option ℚ := none
  /-- the calls, in the order they were made -/
  requests : List Request := []
  /-- the tail: the calls whose `run` has not begun -/
  waiting : List Nat := []
  running : Option (Nat × Stage) := none
  /-- the instants of the fetches, the last one first -/
  fetches : List ℚ := []
  deriving DecidableEq

/-- A run of `beforeSend`. -/
structure HookRun where
  elapsed : ℚ≥0
  thrown : Option HttpError
  deriving DecidableEq

inductive TransportLabel where
  /-- the clock moves -/
  | pass (elapsed : ℚ≥0)
  /-- `request` is called: what its headers say, and the options that matter here -/
  | request (headers : Except HttpError Unit) (deadline : Option Deadline) (hooked : Bool)
  /-- the tail reaches the next `run` -/
  | turn (hook : HookRun)
  /-- `sleep` returns -/
  | paced (hook : HookRun)
  /-- the network call is over -/
  | answered (exchange : Exchange)
  /-- the timer of an alarm fires -/
  | alarm (id : Nat)
  deriving DecidableEq

namespace Request

/-- The race is decided once. Its end cancels the nap of the alarm. -/
def settle (r : Request) (result : Settlement) (now : ℚ) : Request :=
  match r.settled with
  | some _ => r
  | none => { r with settled := some ⟨result, now⟩, nap := none }

/-- `cancellableSleep(deadline.timerMs())` -/
def arm (r : Request) (now : ℚ) : Request :=
  { r with nap := some (now + r.deadline.timerMs now), armedAt := some now }

def abandon (r : Request) : Request := { r with abandoned := true }

end Request

namespace Transport

def modify (t : Transport) (id : Nat) (f : Request → Request) : Transport :=
  { t with requests := t.requests.modify id f }

/-- `run` settles, and with it the caller that still waits. -/
def conclude (t : Transport) (id : Nat) (result : Settlement) : Transport :=
  { t.modify id (·.settle result t.now) with running := none }

/-- `lastAt = now()`, `sent = true`, and `fetch`. -/
def transmit (t : Transport) (id : Nat) : Transport :=
  { t.modify id (fun r => { r with sentAt := some t.now }) with
    lastAt := some t.now
    running := some (id, .onWire)
    fetches := t.now :: t.fetches }

def pass (t : Transport) (elapsed : ℚ≥0) : Transport := { t with now := t.now + elapsed }

/-- The last block before the network is entered. -/
def enter (t : Transport) (id : Nat) : Transport :=
  t.modify id fun r => { r with guardedAt := some t.now }

/-- `beforeSend` and what follows it up to the await of `fetch`. -/
def send (t : Transport) (id : Nat) (r : Request) (hook : HookRun) : Transport :=
  if r.hooked then
    match hook.thrown with
    | some error => ((t.enter id).pass hook.elapsed).conclude id (.rejected error)
    | none => ((t.enter id).pass hook.elapsed).transmit id
  else (t.enter id).transmit id

/-- A closure whose caller is gone, or whose deadline has passed, refuses. -/
def refuses (t : Transport) (r : Request) : Bool := r.abandoned || r.deadline.expired t.now

def refuse (t : Transport) (id : Nat) (failure : NetworkFailure) : Transport :=
  (t.modify id Request.abandon).conclude id (.rejected (.network failure))

/-- The gap to wait out. Nothing was sent yet at minus infinity. -/
def gap (cfg : HttpConfig) (t : Transport) : ℚ :=
  match t.lastAt with
  | none => 0
  | some last => cfg.minIntervalMs - (t.now - last)

/-- `run` up to its first await. -/
def begin (cfg : HttpConfig) (t : Transport) (id : Nat) (r : Request) (hook : HookRun) :
    Transport :=
  if t.refuses r then t.refuse id .whileQueued
  else if 0 < t.gap cfg then
    { t with running := some (id, .pacing (t.now + min (t.gap cfg) (r.deadline.timerMs t.now))) }
  else t.send id r hook

/-- `run` after its sleep. -/
def resume (t : Transport) (id : Nat) (r : Request) (hook : HookRun) : Transport :=
  if t.refuses r then t.refuse id .duringPacing else t.send id r hook

/-- `request` up to its await. -/
def call (cfg : HttpConfig) (t : Transport) (headers : Except HttpError Unit)
    (deadline : Option Deadline) (hooked : Bool) : Transport :=
  let r : Request :=
    { calledAt := t.now, deadline := deadline.getD (.within cfg.timeoutMs t.now), hooked }
  match headers with
  | .error error => { t with requests := t.requests ++ [r.settle (.rejected error) t.now] }
  | .ok () =>
      if r.deadline.expired t.now then
        { t with
          requests := t.requests ++ [r.settle (.rejected (.network .beforeAdmission)) t.now] }
      else
        { t with
          requests := t.requests ++ [r.arm t.now]
          waiting := t.waiting ++ [t.requests.length] }

/-- One turn of the loop of the alarm. -/
def ring (t : Transport) (id : Nat) (r : Request) : Transport :=
  if r.sentAt.isSome then t.modify id fun r => { r with nap := none }
  else if r.deadline.expired t.now then
    t.modify id fun r => r.abandon.settle (.rejected (.network .whileQueued)) t.now
  else t.modify id (·.arm t.now)

/-- The tail goes on to its next closure. -/
def shift (t : Transport) (rest : List Nat) : Transport := { t with waiting := rest }

def step (cfg : HttpConfig) (t : Transport) : TransportLabel → Option Transport
  | .pass elapsed => some (t.pass elapsed)
  | .request headers deadline hooked => some (t.call cfg headers deadline hooked)
  | .turn hook =>
      match t.running, t.waiting with
      | none, id :: rest =>
          (t.requests[id]?).map fun r => (t.shift rest).begin cfg id r hook
      | _, _ => none
  | .paced hook =>
      match t.running with
      | some (id, .pacing _) => (t.requests[id]?).map fun r => t.resume id r hook
      | _ => none
  | .answered exchange =>
      match t.running with
      | some (id, .onWire) => some (t.conclude id exchange.settlement)
      | _ => none
  | .alarm id =>
      ((t.requests[id]?).filter (·.nap.isSome)).map fun r => t.ring id r

/-- No clock reading passes the instant at which the timer of an alarm is due. -/
def Punctual (cfg : HttpConfig) (t : Transport) (label : TransportLabel) : Prop :=
  ∀ u ∈ t.step cfg label, ∀ r ∈ t.requests, ∀ due ∈ r.nap, u.now ≤ due

instance (cfg : HttpConfig) (t : Transport) (label : TransportLabel) :
    Decidable (Punctual cfg t label) :=
  inferInstanceAs (Decidable (∀ u ∈ t.step cfg label, ∀ r ∈ t.requests, ∀ due ∈ r.nap,
    u.now ≤ due))

/-- The instant before which the pending `sleep` should not return. -/
def sleepDue (t : Transport) : Option ℚ :=
  match t.running with
  | some (_, .pacing until') => some until'
  | _ => none

/-- `sleep` does not return early. -/
def NotEarly (t : Transport) (label : TransportLabel) : Prop :=
  match label with
  | .paced _ => ∀ due ∈ t.sleepDue, due ≤ t.now
  | _ => True

instance (t : Transport) (label : TransportLabel) : Decidable (NotEarly t label) :=
  match label with
  | .paced _ => inferInstanceAs (Decidable (∀ due ∈ t.sleepDue, due ≤ t.now))
  | .pass _ | .request _ _ _ | .turn _ | .answered _ | .alarm _ => .isTrue trivial

end Transport

end Strikedge.DhanHttp
