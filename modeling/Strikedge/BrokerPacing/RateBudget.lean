import Strikedge.Machine.Double
import Strikedge.Machine.Run
import Strikedge.Machine.SlidingWindow

/-!
# The order-rate budget of a broker account

A broker meters order requests per account over four rolling windows. Each worker has an
equal share of every window, and placement leaves a reserve of that share to cancels and
modifications. A worker's ledger keeps the instants of its own requests, forgets those older
than the longest window that is limited, and refuses everything while a throttled broker
asks it to wait. Clock readings are rationals; the reserve is rounded as doubles are.
-/

namespace Strikedge.BrokerPacing

open Machine

inductive BrokerEndpointClass where
  | orderPlace
  | orderModify
  | orderCancel
  | dataRead
  deriving DecidableEq, Repr

def isOrderEndpoint : BrokerEndpointClass → Bool
  | .orderPlace | .orderModify | .orderCancel => true
  | .dataRead => false

def isRecovery : BrokerEndpointClass → Bool
  | .orderCancel | .orderModify => true
  | _ => false

/-- A window without a limit is one the broker does not meter. -/
structure RateWindow where
  spanMs : ℚ
  limit : Option Nat
  deriving DecidableEq, Repr

structure BrokerRateLimits where
  perSecond : RateWindow
  perMinute : RateWindow
  perHour : RateWindow
  perDay : RateWindow
  deriving DecidableEq, Repr

inductive WindowKey where
  | perSecond
  | perMinute
  | perHour
  | perDay
  deriving DecidableEq, Repr

def BrokerRateLimits.window (limits : BrokerRateLimits) : WindowKey → RateWindow
  | .perSecond => limits.perSecond
  | .perMinute => limits.perMinute
  | .perHour => limits.perHour
  | .perDay => limits.perDay

def windowKeys : List WindowKey := [.perSecond, .perMinute, .perHour, .perDay]

theorem mem_windowKeys (key : WindowKey) : key ∈ windowKeys := by cases key <;> decide

/-- One day, in milliseconds. -/
def day : ℚ := 24 * 60 * 60 * 1000

structure OrderBudgetPolicy where
  workerCount : ℕ
  recoveryReserveFraction : ℚ
  deriving DecidableEq, Repr

def defaultOrderBudgetPolicy : OrderBudgetPolicy := ⟨1, nearest (1 / 5)⟩

/-- Overrides that are no numbers, or out of range, fall back to the default. -/
def resolveOrderBudgetPolicy (workers reserve : Option Number) : OrderBudgetPolicy where
  workerCount :=
    match workers.bind Number.finite? with
    | some w => if 1 ≤ w then ⌊w⌋₊ else 1
    | none => 1
  recoveryReserveFraction :=
    match reserve.bind Number.finite? with
    | some r =>
      if 0 ≤ r ∧ r ≤ 1 / 2 then r else defaultOrderBudgetPolicy.recoveryReserveFraction
    | none => defaultOrderBudgetPolicy.recoveryReserveFraction

/-- The reserve is a part of what it is taken from. -/
def OrderBudgetPolicy.Fractional (policy : OrderBudgetPolicy) : Prop :=
  0 ≤ policy.recoveryReserveFraction ∧ policy.recoveryReserveFraction ≤ 1

theorem fractional_default : defaultOrderBudgetPolicy.Fractional := by
  constructor <;> decide +kernel

/-- Whatever the overrides, the resolved policy reserves a part. -/
theorem fractional_resolve (workers reserve : Option Number) :
    (resolveOrderBudgetPolicy workers reserve).Fractional := by
  rw [OrderBudgetPolicy.Fractional, resolveOrderBudgetPolicy]
  cases reserve.bind Number.finite? with
  | none => exact fractional_default
  | some r =>
      by_cases hrange : 0 ≤ r ∧ r ≤ 1 / 2
      · simp only [if_pos hrange]
        exact ⟨hrange.1, hrange.2.trans (by norm_num)⟩
      · simp only [if_neg hrange]
        exact fractional_default

structure PlacementBudget where
  window : WindowKey
  spanMs : ℚ
  accountLimit : Option Nat
  perWorkerLimit : Option Nat
  placementLimit : Option Nat
  recoveryReserve : ℤ
  deriving DecidableEq, Repr

/-- The share of a limit, and the part of it that placement may not touch, rounded up. -/
def perWorkerOf (policy : OrderBudgetPolicy) (limit : Nat) : Nat :=
  limit / max 1 policy.workerCount

def reserveOf (policy : OrderBudgetPolicy) (limit : Nat) : ℤ :=
  ⌈rounded (perWorkerOf policy limit * policy.recoveryReserveFraction)⌉

/-- What is left to placement, and not less than nothing. -/
def placementOf (policy : OrderBudgetPolicy) (limit : Nat) : Nat :=
  (perWorkerOf policy limit - reserveOf policy limit).toNat

def budgetOf (limits : BrokerRateLimits) (policy : OrderBudgetPolicy) (key : WindowKey) :
    PlacementBudget :=
  match (limits.window key).limit with
  | none => ⟨key, (limits.window key).spanMs, none, none, none, 0⟩
  | some limit =>
    { window := key
      spanMs := (limits.window key).spanMs
      accountLimit := some limit
      perWorkerLimit := some (perWorkerOf policy limit)
      placementLimit := some (placementOf policy limit)
      recoveryReserve := reserveOf policy limit }

def placementBudgets (limits : BrokerRateLimits) (policy : OrderBudgetPolicy) :
    List PlacementBudget := windowKeys.map (budgetOf limits policy)

structure BudgetDecision where
  allowed : Bool
  bindingWindow : Option WindowKey
  retryAtMs : Option ℚ
  deriving DecidableEq, Repr

/-- The instants are listed from the oldest. -/
structure RateBudgetLedger where
  placementTimes : List ℚ := []
  recoveryTimes : List ℚ := []
  cooldownUntil : Option ℚ := none
  deriving DecidableEq, Repr

/-- The longest span that is limited. -/
def horizonMs (limits : BrokerRateLimits) : ℚ :=
  let spans := ((windowKeys.map limits.window).filter (·.limit.isSome)).map (·.spanMs)
  match spans with
  | [] => day
  | span :: rest => rest.foldl max span

namespace RateBudgetLedger

variable (limits : BrokerRateLimits) (policy : OrderBudgetPolicy) (l : RateBudgetLedger)
variable (klass : BrokerEndpointClass) (now : ℚ)

def prune : RateBudgetLedger :=
  { l with
    placementTimes := l.placementTimes.dropWhile (· ≤ now - horizonMs limits)
    recoveryTimes := l.recoveryTimes.dropWhile (· ≤ now - horizonMs limits) }

def countWithin (spanMs : ℚ) : Nat :=
  recent spanMs now l.placementTimes + recent spanMs now l.recoveryTimes

def inCooldown : Bool := l.cooldownUntil.any (now < ·)

def oldestInWindow (spanMs : ℚ) : ℚ :=
  (l.placementTimes ++ l.recoveryTimes).foldl
    (fun oldest t => if now - spanMs < t ∧ t < oldest then t else oldest) now

/-- The ceiling of a request in a window. -/
def ceiling (budget : PlacementBudget) : Option Nat :=
  if isRecovery klass then budget.perWorkerLimit else budget.placementLimit

/-- The request would breach the window. -/
def breaches (budget : PlacementBudget) : Bool :=
  budget.accountLimit.isSome && (ceiling klass budget).any (· ≤ l.countWithin now budget.spanMs)

/-- May one more request of the class be sent now? -/
def check : BudgetDecision × RateBudgetLedger :=
  if isOrderEndpoint klass = false then (⟨true, none, none⟩, l)
  else if l.inCooldown now then (⟨false, none, l.cooldownUntil⟩, l)
  else
    let l := l.prune limits now
    match (placementBudgets limits policy).find? (l.breaches klass now) with
    | some budget =>
      (⟨false, some budget.window, some (l.oldestInWindow now budget.spanMs + budget.spanMs)⟩, l)
    | none => (⟨true, none, none⟩, l)

/-- A request was sent. Data reads are not metered. -/
def record : RateBudgetLedger :=
  if isOrderEndpoint klass = false then l
  else
    (if isRecovery klass then { l with recoveryTimes := l.recoveryTimes ++ [now] }
      else { l with placementTimes := l.placementTimes ++ [now] }).prune limits now

/-- A throttle signal of the broker. It never shortens a cooldown. -/
def penalize (retryAfterMs : Option Number) : RateBudgetLedger :=
  let cooldown := ((retryAfterMs.bind Number.finite?).filter (0 < ·)).getD limits.perSecond.spanMs
  if l.cooldownUntil.all (· < now + cooldown) then { l with cooldownUntil := some (now + cooldown) }
  else l

end RateBudgetLedger

/-- An order request that went out. -/
structure Sent (n : Nat) where
  worker : Fin n
  klass : BrokerEndpointClass
  sentAt : ℚ
  deriving DecidableEq, Repr

/-- Workers with a ledger each, on one clock. The log, newest first, is bookkeeping. -/
structure Account (n : Nat) where
  ledgers : Fin n → RateBudgetLedger := fun _ => {}
  clock : ℚ
  log : List (Sent n) := []

inductive Label (n : Nat) where
  | tick (now : ℚ)
  /-- Ask, and send at once what is allowed. -/
  | request (worker : Fin n) (klass : BrokerEndpointClass)
  /-- Ask, and send nothing. -/
  | check (worker : Fin n) (klass : BrokerEndpointClass)
  | penalize (worker : Fin n) (retryAfterMs : Option Number)
  | snapshot (worker : Fin n)

namespace Account

variable {n : Nat} (limits : BrokerRateLimits) (policy : OrderBudgetPolicy)

def update (s : Account n) (worker : Fin n) (ledger : RateBudgetLedger) : Account n :=
  { s with ledgers := fun w => if w = worker then ledger else s.ledgers w }

def step (s : Account n) : Label n → Option (Account n)
  | .tick now => if s.clock ≤ now then some { s with clock := now } else none
  | .request worker klass =>
    let (decision, ledger) := (s.ledgers worker).check limits policy klass s.clock
    if decision.allowed then
      let s := s.update worker (ledger.record limits klass s.clock)
      some (if isOrderEndpoint klass then
        { s with log := ⟨worker, klass, s.clock⟩ :: s.log } else s)
    else some (s.update worker ledger)
  | .check worker klass =>
    some (s.update worker ((s.ledgers worker).check limits policy klass s.clock).2)
  | .penalize worker retryAfterMs =>
    some (s.update worker ((s.ledgers worker).penalize limits s.clock retryAfterMs))
  | .snapshot worker => some (s.update worker ((s.ledgers worker).prune limits s.clock))

end Account

end Strikedge.BrokerPacing
