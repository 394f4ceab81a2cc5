import Mathlib.Algebra.GroupWithZero.Nat
import Mathlib.Algebra.Ring.Int.Defs
import Strikedge.Machine.OrderedMap
import Strikedge.Orders.Types

/-!
# Daily risk bookkeeping

The counters of the trading day and the loads that reconstruct them. A load captures a
token before it reads, flatten charges recorded while a token is active are journalled by
generation, and installing a seed adds back the journalled charges it has not observed.
Amounts are whole paise, on which the source's rounding to two decimals is the identity.
-/

namespace Strikedge.Orders

inductive DailyRiskSeedHealth where
  | healthy
  | seeding
  | failed
  | unknown
  deriving DecidableEq, Repr

/-- The boundary captured immediately before a load begins. -/
structure DailyRiskSeedToken where
  tradingDay : String
  mutationGeneration : Nat
  loadGeneration : Nat
  deriving DecidableEq, Repr

/-- One local advance of an attempt's charge bucket. -/
structure FlattenChargeMutation where
  generation : Nat
  attemptId : AttemptId
  previousChargesForDay : Int
  chargesForDay : Int
  deriving DecidableEq, Repr

/-- What a load returns. -/
structure DailyRiskSeed where
  realisedPnl : Int
  rejects : Nat
  consecutiveFailures : Nat
  flattenChargeBaselinesForDay : List (AttemptId × Int) := []
  incomplete : Bool := false
  deriving DecidableEq, Repr

structure ActiveDailyRiskLoad where
  generation : Nat
  day : String
  token : DailyRiskSeedToken
  deriving DecidableEq, Repr

structure DailyRisk where
  tradingDay : String
  realisedPnlToday : Int := 0
  rejects : Nat := 0
  consecutiveFailures : Nat := 0
  seedHealth : DailyRiskSeedHealth := .unknown
  dailyRiskLoadGeneration : Nat := 0
  flattenChargeMutationGeneration : Nat := 0
  activeDailyRiskLoad : Option ActiveDailyRiskLoad := none
  activeDailyRiskSeedTokens : OrderedMap Nat DailyRiskSeedToken := ∅
  flattenChargeMutationsByDay : OrderedMap String (List FlattenChargeMutation) := ∅

namespace DailyRisk

/-- The journal of a day, empty when there is none. -/
def mutationsOf (r : DailyRisk) (day : String) : List FlattenChargeMutation :=
  (r.flattenChargeMutationsByDay.get? day).getD []

/-- The tokens of a day that are still active. -/
def tokensOf (r : DailyRisk) (day : String) : List DailyRiskSeedToken :=
  r.activeDailyRiskSeedTokens.values.filter (·.tradingDay = day)

/-- `beginDailyRiskSeed`: register the boundary of a load. -/
def beginDailyRiskSeed (r : DailyRisk) (day : String) : DailyRisk × DailyRiskSeedToken :=
  let token : DailyRiskSeedToken :=
    { tradingDay := day
      mutationGeneration := r.flattenChargeMutationGeneration
      loadGeneration := r.dailyRiskLoadGeneration + 1 }
  ({ r with
      dailyRiskLoadGeneration := token.loadGeneration
      activeDailyRiskSeedTokens := r.activeDailyRiskSeedTokens.set token.loadGeneration token },
    token)

/-- `compactFlattenChargeMutations`: keep what the oldest active token of the day needs. -/
def compactFlattenChargeMutations (r : DailyRisk) (day : String) : DailyRisk :=
  match (r.tokensOf day).map (·.mutationGeneration) with
  | [] => { r with flattenChargeMutationsByDay := r.flattenChargeMutationsByDay.delete day }
  | g :: gs =>
      let oldestBoundary := gs.foldl min g
      let retained := (r.mutationsOf day).filter fun m => oldestBoundary < m.generation
      { r with
        flattenChargeMutationsByDay :=
          if retained.isEmpty then r.flattenChargeMutationsByDay.delete day
          else r.flattenChargeMutationsByDay.set day retained }

/-- `settleDailyRiskSeedToken` -/
def settleDailyRiskSeedToken (r : DailyRisk) (token : DailyRiskSeedToken) : DailyRisk :=
  compactFlattenChargeMutations
    { r with
      activeDailyRiskSeedTokens := r.activeDailyRiskSeedTokens.delete token.loadGeneration }
    token.tradingDay

/-- `abandonDailyRiskSeed`: release a token whose load will install nothing. -/
def abandonDailyRiskSeed (r : DailyRisk) (token : DailyRiskSeedToken) : DailyRisk :=
  if r.activeDailyRiskSeedTokens.has token.loadGeneration then r.settleDailyRiskSeedToken token
  else r

/-- `recordFlattenCharge`: one advance of an attempt's charge bucket. -/
def recordFlattenCharge (r : DailyRisk) (attemptId : AttemptId) (chargeDay : String)
    (previousChargesForDay chargesForDay : Int) : DailyRisk :=
  let previous := max 0 previousChargesForDay
  let current := max 0 chargesForDay
  if chargeDay = "" ∨ current ≤ previous ∨ chargeDay ≠ r.tradingDay then r
  else
    let generation := r.flattenChargeMutationGeneration + 1
    let activeLoaderCanNeedMutation :=
      r.activeDailyRiskSeedTokens.values.any fun token =>
        token.tradingDay = chargeDay && token.mutationGeneration < generation
    let mutation : FlattenChargeMutation :=
      { generation := generation
        attemptId := attemptId
        previousChargesForDay := previous
        chargesForDay := current }
    { r with
      flattenChargeMutationGeneration := generation
      flattenChargeMutationsByDay :=
        if activeLoaderCanNeedMutation then
          r.flattenChargeMutationsByDay.set chargeDay (r.mutationsOf chargeDay ++ [mutation])
        else r.flattenChargeMutationsByDay
      realisedPnlToday := r.realisedPnlToday - (current - previous) }

/-- The part of a journalled range that lies above its own watermark and above the
bucket the seed has already observed. -/
def unseededCharge (baselines : List (AttemptId × Int)) (m : FlattenChargeMutation) : Int :=
  let seedBaseline := max 0 ((baselines.lookup m.attemptId).getD 0)
  let representedThrough := max m.previousChargesForDay seedBaseline
  max 0 (m.chargesForDay - representedThrough)

/-- `mergePostLoadFlattenCharges` -/
def mergePostLoadFlattenCharges (r : DailyRisk) (day : String) (seedPnl : Int)
    (token : Option DailyRiskSeedToken) (baselines : List (AttemptId × Int)) : Int :=
  match token.filter (·.tradingDay = day) with
  | none => seedPnl
  | some t =>
      let post := (r.mutationsOf day).filter fun m => t.mutationGeneration < m.generation
      seedPnl - (post.map (unseededCharge baselines)).sum

/-- `seedLimits`, its part about the day. A token that is no longer active installs
nothing. -/
def seedLimits (r : DailyRisk) (day : String) (seed : DailyRiskSeed)
    (token : Option DailyRiskSeedToken) : DailyRisk :=
  if token.any fun t => !r.activeDailyRiskSeedTokens.has t.loadGeneration then r
  else
    let r := { r with
      tradingDay := day
      realisedPnlToday := r.mergePostLoadFlattenCharges day seed.realisedPnl token
        seed.flattenChargeBaselinesForDay
      rejects := seed.rejects
      consecutiveFailures := seed.consecutiveFailures
      seedHealth := if seed.incomplete then .failed else .healthy }
    match token with
    | none => r
    | some t => r.settleDailyRiskSeedToken t

/-- `recordRealisedPnl` -/
def recordRealisedPnl (r : DailyRisk) (delta : Int) : DailyRisk :=
  { r with realisedPnlToday := r.realisedPnlToday + delta }

/-- `this.rejects++` of a broker rejection. -/
def noteReject (r : DailyRisk) : DailyRisk := { r with rejects := r.rejects + 1 }

/-- `refreshDailyRiskSeed`: start a load for the current day unless one is running. -/
def refreshDailyRiskSeed (hasLoader disposed : Bool) (r : DailyRisk) : DailyRisk :=
  if r.activeDailyRiskLoad.isSome || disposed then r
  else if !hasLoader then { r with seedHealth := .failed }
  else
    let (r, token) := r.beginDailyRiskSeed r.tradingDay
    { r with
      seedHealth := .seeding
      activeDailyRiskLoad := some
        { generation := token.loadGeneration, day := r.tradingDay, token := token } }

/-- Settle every active token of another day. -/
def settleOtherDays (r : DailyRisk) (next : String) : DailyRisk :=
  (r.activeDailyRiskSeedTokens.values.filter (·.tradingDay ≠ next)).foldl
    settleDailyRiskSeedToken r

/-- `rollTradingDay`: a new day starts from zero and is closed until it is seeded. -/
def rollTradingDay (hasLoader disposed : Bool) (next : String) (r : DailyRisk) : DailyRisk :=
  if next = r.tradingDay then r
  else
    let r := { r with tradingDay := next }
    let r := match r.activeDailyRiskLoad.filter (·.day ≠ next) with
      | none => r
      | some load => { r.settleDailyRiskSeedToken load.token with activeDailyRiskLoad := none }
    let r := r.settleOtherDays next
    refreshDailyRiskSeed hasLoader disposed
      { r with
        flattenChargeMutationsByDay :=
          r.flattenChargeMutationsByDay.filter fun day _ => day = next
        realisedPnlToday := 0
        rejects := 0
        consecutiveFailures := 0
        seedHealth := .seeding }

/-- The running load of a generation, the only one whose completion counts. -/
def runningLoad (r : DailyRisk) (generation : Nat) : Option ActiveDailyRiskLoad :=
  r.activeDailyRiskLoad.filter (·.generation = generation)

/-- The load of a generation returned. A late completion is inert. -/
def loadCompleted (r : DailyRisk) (generation : Nat) (seed : DailyRiskSeed) : DailyRisk :=
  match r.runningLoad generation with
  | none => r
  | some load =>
      if load.day ≠ r.tradingDay ∨
          !r.activeDailyRiskSeedTokens.has load.token.loadGeneration then r
      else
        seedLimits { r with activeDailyRiskLoad := none } load.day seed (some load.token)

/-- The load of a generation was rejected. -/
def loadFailed (r : DailyRisk) (generation : Nat) : DailyRisk :=
  match r.runningLoad generation with
  | none => r
  | some load =>
      let r := settleDailyRiskSeedToken { r with activeDailyRiskLoad := none } load.token
      if load.day = r.tradingDay then { r with seedHealth := .failed } else r

/-- The load of a generation ran out of time: its slot goes to the newest day. -/
def loadTimedOut (hasLoader disposed : Bool) (today : String) (r : DailyRisk)
    (generation : Nat) : DailyRisk :=
  match r.runningLoad generation with
  | none => r
  | some load =>
      let r := settleDailyRiskSeedToken { r with activeDailyRiskLoad := none } load.token
      let r := if load.day = r.tradingDay then { r with seedHealth := .failed } else r
      if disposed then r
      else refreshDailyRiskSeed hasLoader disposed (r.rollTradingDay hasLoader disposed today)

/-- The part of `dispose` about the day: nothing that is loading may install any more. -/
def dispose (r : DailyRisk) : DailyRisk :=
  { r with
    activeDailyRiskLoad := none
    activeDailyRiskSeedTokens := ∅
    flattenChargeMutationsByDay := ∅ }

end DailyRisk

end Strikedge.Orders
