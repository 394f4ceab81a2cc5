import Mathlib.Algebra.Group.Nat.Defs
import Strikedge.Machine.Run

/-!
# Acquiring the tokens of the day

Each broker has its own timer and its own acquisition. An answer is awaited by a suspended
call, of which a broker may have several; everything else happens at one instant. Instants are
milliseconds and days are numbered.
-/

namespace Strikedge.BrokerTokens

abbrev IstDay := Nat

def istOffsetMs : Nat := 19800000

def istDayKey (atMs : Nat) : IstDay := (atMs + istOffsetMs) / 86400000

def istMinutesOfDay (atMs : Nat) : Nat := (atMs + istOffsetMs) / 60000 % 1440

/-- A time of day is given in minutes. -/
def isAtOrAfterIstTime (atMs hhmm : Nat) : Bool := decide (hhmm ≤ istMinutesOfDay atMs)

def msUntilNextDailyTime (atMs hhmm : Nat) : Int :=
  let nowMin := istMinutesOfDay atMs
  let secondsIntoMinute := (atMs + istOffsetMs) % 60000
  let deltaMin : Int := hhmm - nowMin
  let deltaMin := if deltaMin < 0 ∨ deltaMin = 0 ∧ 0 < secondsIntoMinute then deltaMin + 1440
    else deltaMin
  deltaMin * 60000 - secondsIntoMinute

inductive BrokerKind where
  | zerodha
  | dhan
  deriving DecidableEq, Repr

inductive TokenState where
  | waiting
  | polling
  | ready
  | invalid
  | configurationError
  deriving DecidableEq, Repr

inductive TokenFetchResult where
  | ready
  | retry (reason : String)
  | configurationError (reason : String)
  | blocker (reason : String)
  | securityError (reason : String)
  deriving DecidableEq, Repr

structure BrokerTokenServiceOptions where
  pollStart : Nat
  pollIntervalMs : Nat
  blockerBackoffMs : Option Nat := none
  deriving DecidableEq, Repr

/-- What a timer does when it fires. -/
inductive TimerCallback where
  | poll
  | retry
  deriving DecidableEq, Repr

structure Timer where
  due : Nat
  callback : TimerCallback
  deriving DecidableEq, Repr

/-- The calls of an install, one after another. -/
inductive InstallStage where
  | save
  | install
  | activeBrokerReady
  deriving DecidableEq, Repr

/-- A suspended call, with what it has read before. -/
inductive Activity where
  | scheduling (now : Nat)
  | fetching
  | installing (day : IstDay) (stage : InstallStage)
  | invalidating (reason : String)
  | protecting
  deriving DecidableEq, Repr

/-- The suspended calls are listed, and that a broker is invalid for a security error is
bookkeeping. -/
structure BrokerRuntime where
  state : TokenState := .waiting
  istDay : IstDay
  lastAttemptAt : Option Nat := none
  lastSuccessAt : Option Nat := none
  lastError : Option String := none
  readyForDay : Option IstDay := none
  inFlight : Bool := false
  timer : Option Timer := none
  blockerStreak : Nat := 0
  activities : List Activity := []
  bySecurityError : Bool := false
  deriving DecidableEq, Repr

/-- What can happen to a broker. An error that is not an `Error` has no message. -/
inductive Event where
  | fire
  | storedToken (call : Nat) (answer : Except (Option String) Bool)
  | fetched (call : Nat) (answer : Except (Option String) TokenFetchResult)
  | installed (call : Nat) (answer : Except (Option String) Unit) (active : Bool)
  | onExternalAuthFailure (reason : String)
  | invalidated (call : Nat)
  | handedOver (call : Nat)

def slice (text : String) (limit : Nat) : String := String.ofList (text.toList.take limit)

/-- The first characters of the message of an error. -/
def errorText (error : Option String) (limit : Nat) (unnamed : String) : String :=
  (error.map (slice · limit)).getD unnamed

/-- What a runtime sees of the service. -/
structure Instant where
  now : Nat
  stopped : Bool

namespace BrokerRuntime

def setState (rt : BrokerRuntime) (state : TokenState) : BrokerRuntime :=
  { rt with state := state, bySecurityError := false }

def suspend (rt : BrokerRuntime) (activity : Activity) : BrokerRuntime :=
  { rt with activities := rt.activities ++ [activity] }

variable (opts : BrokerTokenServiceOptions) (at' : Instant) (rt : BrokerRuntime)

def arm (delayMs : Int) (callback : TimerCallback) : BrokerRuntime :=
  if at'.stopped then rt
  else { rt with timer := some ⟨at'.now + delayMs.toNat, callback⟩ }

def armRetry (delayMs : Nat) : BrokerRuntime := rt.arm at' delayMs .retry

/-- One acquisition, up to the request. At most one is in flight. -/
def attempt : BrokerRuntime :=
  if at'.stopped || rt.inFlight then rt
  else
    let today := istDayKey at'.now
    let rt := if rt.readyForDay.isSome && rt.readyForDay ≠ some today then
      { rt with readyForDay := none } else rt
    if rt.readyForDay = some today then rt.setState .ready
    else { rt with inFlight := true, lastAttemptAt := some at'.now }.suspend .fetching

/-- The schedule of a broker, up to the read of the stored token. -/
def scheduleBroker : BrokerRuntime :=
  if at'.stopped then rt
  else { rt with istDay := istDayKey at'.now }.suspend (.scheduling at'.now)

/-- What the stored token decides. The time is that of the beginning. -/
def scheduled (begun : Nat) : Except (Option String) Bool → BrokerRuntime
  | .error error =>
    { rt.setState .polling with
      lastError := some ("stored token read failed: " ++ errorText error 100 "unknown")
    }.armRetry at' opts.pollIntervalMs
  | .ok true => { rt.setState .ready with readyForDay := some (istDayKey begun) }
  | .ok false =>
    if isAtOrAfterIstTime begun opts.pollStart then (rt.setState .polling).attempt at'
    else (rt.setState .waiting).arm at' (msUntilNextDailyTime begun opts.pollStart) .poll

def handleResult : TokenFetchResult → BrokerRuntime
  | .ready =>
    { rt with blockerStreak := 0 }.suspend (.installing (istDayKey at'.now) .save)
  | .retry reason =>
    { rt.setState .polling with blockerStreak := 0, lastError := some reason }.armRetry at'
      opts.pollIntervalMs
  | .blocker reason =>
    let streak := min (rt.blockerStreak + 1) 6
    let base := opts.blockerBackoffMs.getD opts.pollIntervalMs
    { rt.setState .polling with lastError := some reason, blockerStreak := streak }.armRetry at'
      (min (base * 2 ^ (streak - 1)) (base * 32))
  | .configurationError reason =>
    { rt.setState .configurationError with lastError := some reason, timer := none }
  | .securityError reason =>
    { rt with
      state := .invalid
      bySecurityError := true
      lastError := some reason
      timer := none }

/-- A success stops the polling of the broker. -/
def succeed (day : IstDay) : BrokerRuntime :=
  { rt.setState .ready with
    readyForDay := some day
    lastSuccessAt := some at'.now
    lastError := none
    timer := none }

/-- The next call of an install, or its end. A broker that is not active is not started. -/
def installNext (day : IstDay) (active : Bool) : InstallStage → BrokerRuntime
  | .save => rt.suspend (.installing day .install)
  | .install =>
    if active then rt.suspend (.installing day .activeBrokerReady) else rt.succeed at' day
  | .activeBrokerReady => rt.succeed at' day

def installFailed (error : Option String) : BrokerRuntime :=
  { rt.setState .polling with
    lastError := some (errorText error 120 "install/persist failed")
  }.armRetry at' opts.pollIntervalMs

/-- The suspended call, and the broker without it. -/
def resume (call : Nat) : Option (Activity × BrokerRuntime) :=
  (rt.activities[call]?).map fun activity =>
    (activity, { rt with activities := rt.activities.eraseIdx call })

def react : Event → Option BrokerRuntime
  | .fire =>
    rt.timer.bind fun timer =>
      if timer.due ≤ at'.now then
        let rt := { rt with timer := none }
        if at'.stopped then some rt
        else match timer.callback with
          | .poll => some ((rt.setState .polling).attempt at')
          | .retry => some (rt.attempt at')
      else none
  | .storedToken call answer =>
    (rt.resume call).bind fun
      | (.scheduling begun, rt) => some (rt.scheduled opts at' begun answer)
      | _ => none
  | .fetched call answer =>
    (rt.resume call).bind fun
      | (.fetching, rt) =>
        let rt := { rt with inFlight := false }
        match answer with
        | .ok result => some (rt.handleResult opts at' result)
        | .error error =>
          some (rt.handleResult opts at' (.retry (errorText error 120 "unexpected error")))
      | _ => none
  | .installed call answer active =>
    (rt.resume call).bind fun
      | (.installing day stage, rt) =>
        match answer with
        | .ok () => some (rt.installNext at' day active stage)
        | .error error => some (rt.installFailed opts at' error)
      | _ => none
  | .onExternalAuthFailure reason =>
    some ({ rt.setState .invalid with
      readyForDay := none
      lastError := some (slice reason 120) }.suspend (.invalidating reason))
  | .invalidated call =>
    (rt.resume call).bind fun
      | (.invalidating _, rt) => some (rt.suspend .protecting)
      | _ => none
  | .handedOver call =>
    (rt.resume call).bind fun
      | (.protecting, rt) =>
        some (if at'.stopped then rt
          else (rt.setState .polling).armRetry at' opts.pollIntervalMs)
      | _ => none

end BrokerRuntime

structure State where
  now : Nat
  started : Bool := false
  stopped : Bool := false
  runtimes : BrokerKind → BrokerRuntime

inductive Action where
  | tick (now : Nat)
  | start
  | stop
  | broker (broker : BrokerKind) (event : Event)

namespace State

def new (now : Nat) : State where
  now := now
  runtimes _ := { istDay := istDayKey now }

def instant (s : State) : Instant := ⟨s.now, s.stopped⟩

def start (s : State) : State :=
  if s.started then s
  else
    let s := { s with started := true, stopped := false }
    { s with runtimes := fun b => (s.runtimes b).scheduleBroker s.instant }

def stop (s : State) : State :=
  { s with stopped := true, runtimes := fun b => { s.runtimes b with timer := none } }

def step (opts : BrokerTokenServiceOptions) : State → Action → Option State
  | s, .tick now => if s.now ≤ now then some { s with now := now } else none
  | s, .start => some s.start
  | s, .stop => some s.stop
  | s, .broker broker event =>
    ((s.runtimes broker).react opts s.instant event).map fun rt =>
      { s with runtimes := fun b => if b = broker then rt else s.runtimes b }

end State

end Strikedge.BrokerTokens
