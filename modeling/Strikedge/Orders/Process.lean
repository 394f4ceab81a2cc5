import Strikedge.Machine.Run
import Strikedge.Orders.Reconcile

/-!
# The order manager in its process

A label starts an operation, lets the journal serve a pending call, resumes a suspended
function with its answer, or changes what the manager is told from outside. Serving and
resuming are different labels, so a write may be durable while its caller has not yet
seen it. `foreign` is another process writing the same journal.
-/

namespace Strikedge.Orders

open Machine

/-- Who awaits the journal. -/
inductive Caller where
  | action (i : TaskId)
  | reconcile
  deriving DecidableEq, Repr

inductive Label where
  | submit (w : World) (request : BrokerOrderRequest) (capital : Option EntryCapitalStamp)
      (entry : Option LiveEntryTransportGuard)
  | enqueueCancel (w : World) (intent : BoxOrderIntent)
  /-- the journal performs the pending call of a caller -/
  | serve (caller : Caller)
  /-- the pending call of a caller throws and nothing is written -/
  | breakDown (caller : Caller) (message : String)
  /-- a caller is resumed with the journal's reply -/
  | resume (w : World) (caller : Caller)
  /-- `adapter.getOrder` answers an action -/
  | fetched (w : World) (i : TaskId) (answer : Except OrderError (Option BrokerOrder))
  /-- the turn of an action at the barrier has come -/
  | pass (i : TaskId)
  | prePost (w : World) (i : TaskId)
  /-- `adapter.submitOrder` settles -/
  | submitted (w : World) (i : TaskId) (answer : Except OrderError BrokerOrder)
  /-- `adapter.cancelOrder` settles -/
  | cancelled (w : World) (i : TaskId) (answer : Except OrderError (Option BrokerOrder))
  /-- the slot of a settled action is given back -/
  | release (w : World) (i : TaskId)
  | reconcile (w : World)
  /-- the broker, or the reconciliation listener, answers the pass in flight -/
  | reconcileAnswered (w : World) (answer : ReconcileAnswer)
  | setControls (controls : OrderManagerControls)
  | setExposure (openBoxes residualLegs : Option Nat)
  | setFeedHealthy (w : World) (healthy : Bool)
  | setCrashOnlyAttributedExposure (exists' : Bool)
  | recordRealisedPnl (delta : Int)
  | seedLimits (day : String) (seed : DailyRiskSeed)
  | dailyRiskLoaded (generation : Nat) (seed : DailyRiskSeed)
  | invariantViolation (w : World) (reason : String)
  | dispose
  | foreign (row : BoxOrderIntent)
  deriving DecidableEq, Repr

namespace OrderManager

/-- `setExposure`, its counts. -/
def setExposure (cfg : Config) (m : OrderManager) (openBoxes residualLegs : Option Nat) :
    OrderManager :=
  { m with book := Book.evaluateLimits cfg { m.book with
      openBoxes := openBoxes.getD m.book.openBoxes
      residualLegs := residualLegs.getD m.book.residualLegs } }

/-- `setFeedHealthy` -/
def setFeedHealthy (cfg : Config) (w : World) (m : OrderManager) (healthy : Bool) :
    OrderManager :=
  let warmUntil :=
    if !healthy then none
    else if m.book.feedHealthy then m.book.feedWarmUntil
    else some (w.now + cfg.limits.feedReconnectWarmupMs)
  { m with book := { m.book with feedHealthy := healthy, feedWarmUntil := warmUntil } }

/-- Apply a change of the day's counters and evaluate the limits. -/
def changeRisk (cfg : Config) (m : OrderManager) (risk : DailyRisk) : OrderManager :=
  { m with book := Book.evaluateLimits cfg { m.book with risk := risk } }

/-- The pending call of a caller and the reply it already has. -/
def pending (m : OrderManager) : Caller → Option (JournalCall × Option JournalReply)
  | .action i => (m.tasks.get? i).bind fun t => t.call.map fun call => (call, t.reply)
  | .reconcile => m.reconcileRun.bind fun run => run.call.map fun call => (call, run.reply)

/-- Hand a reply to a caller. -/
def answer (m : OrderManager) (caller : Caller) (reply : JournalReply) : OrderManager :=
  match caller with
  | .action i =>
      match m.tasks.get? i with
      | none => m
      | some t => m.setTask i { t with reply := some reply }
  | .reconcile =>
      match m.reconcileRun with
      | none => m
      | some run => { m with reconcileRun := some { run with reply := some reply } }

/-- The journal performs the pending call of a caller. -/
def serve (cfg : Config) (m : OrderManager) (caller : Caller) : Option OrderManager :=
  match m.pending caller with
  | some (call, none) =>
      let (journal, reply) := m.journal.perform cfg.persistence call
      some ({ m with journal := journal }.answer caller reply)
  | _ => none

/-- The pending call of a caller throws. -/
def breakDown (m : OrderManager) (caller : Caller) (message : String) : Option OrderManager :=
  match m.pending caller with
  | some (_, none) => some (m.answer caller (.threw message))
  | _ => none

/-- Resume an action with the journal's reply. -/
def resumeTask (cfg : Config) (w : World) (m : OrderManager) (i : TaskId) :
    Option OrderManager := do
  let t ← m.tasks.get? i
  let _ ← t.call
  let reply ← t.reply
  let stretch ← t.resume cfg w m.book reply
  return m.commit cfg w i stretch

/-- Resume the reconcile pass with the journal's reply. -/
def resumeReconcile (cfg : Config) (w : World) (m : OrderManager) : Option OrderManager := do
  let run ← m.reconcileRun
  let _ ← run.call
  let reply ← run.reply
  let stretch ← run.resume m.book reply
  return m.commitReconcile cfg w stretch

def fetched (cfg : Config) (w : World) (m : OrderManager) (i : TaskId)
    (answer : Except OrderError (Option BrokerOrder)) : Option OrderManager := do
  let t ← m.tasks.get? i
  let stretch ← t.fetched cfg w m.book answer
  return m.commit cfg w i stretch

/-- The task suspended in a phase. -/
def taskIn (m : OrderManager) (i : TaskId) (phase : Phase) : Option Task :=
  (m.tasks.get? i).filter (·.phase = phase)

def reconcileAnswered (cfg : Config) (w : World) (m : OrderManager) (answer : ReconcileAnswer) :
    Option OrderManager := do
  let run ← m.reconcileRun
  if run.phase = .reporting then m.reported cfg answer
  else
    let stretch ← run.answered w m.book answer
    return m.commitReconcile cfg w stretch

/-- One step of the process. -/
def step (cfg : Config) (m : OrderManager) : Label → Option OrderManager
  | .submit w request capital entry => some (m.submit cfg w request capital entry)
  | .enqueueCancel w intent => some (m.enqueueCancel cfg w intent)
  | .serve caller => m.serve cfg caller
  | .breakDown caller message => m.breakDown caller message
  | .resume w (.action i) => m.resumeTask cfg w i
  | .resume w .reconcile => m.resumeReconcile cfg w
  | .fetched w i answer => m.fetched cfg w i answer
  | .pass i => (m.tasks.get? i).bind (m.pass i)
  | .prePost w i => (m.taskIn i .sending).map (m.prePost cfg w i)
  | .submitted w i answer =>
      (m.taskIn i .sending).map fun t => m.commit cfg w i (t.submitted w m.book answer)
  | .cancelled w i answer =>
      (m.taskIn i .cancelling).map fun t => m.commit cfg w i (t.cancelled w m.book answer)
  | .release w i => (m.taskIn i .settled).map (m.release cfg w i)
  | .reconcile w => some (m.reconcile cfg w)
  | .reconcileAnswered w answer => m.reconcileAnswered cfg w answer
  | .setControls controls => some { m with book := { m.book with controls := controls } }
  | .setExposure openBoxes residualLegs => some (m.setExposure cfg openBoxes residualLegs)
  | .setFeedHealthy w healthy => some (m.setFeedHealthy cfg w healthy)
  | .setCrashOnlyAttributedExposure exists' =>
      some { m with book := { m.book with crashOnlyAttributedExposure := exists' } }
  | .recordRealisedPnl delta => some (m.changeRisk cfg (m.book.risk.recordRealisedPnl delta))
  | .seedLimits day seed => some (m.changeRisk cfg (m.book.risk.seedLimits day seed none))
  | .dailyRiskLoaded generation seed =>
      some (m.changeRisk cfg (m.book.risk.loadCompleted generation seed))
  | .invariantViolation w reason =>
      some ({ m with book := m.book.invariantViolation reason }.reconcile cfg w)
  | .dispose => some m.dispose
  | .foreign row => some { m with journal := m.journal.put row }

end OrderManager

/-- Run a list of labels from a state. -/
abbrev managerRun (cfg : Config) (m : OrderManager) (labels : List Label) :
    Option OrderManager :=
  run (OrderManager.step cfg) m labels

/-

One lot of each contract, one base slot and a burst of four, over the real journal. The
runs that the theorems are tried on start from it. -/

namespace Sample

def config : Config where
  limits :=
    { maxOpenBoxes := 1
      maxConcurrentExecutions := 1
      entrySubmitConcurrency := 4
      maxBoxCapitalRupees := 0
      maxResidualLegs := 0
      dailyLossLimit := 0
      rejectLimit := 3
      consecutiveFailureLimit := 3
      maxOpenLegQuantity := 75
      maxGrossOpenLegQuantity := 600
      feedReconnectWarmupMs := 10 }
  mode := .live
  persistence := repository
  hasDailyRiskLoader := false

def world (now : Nat) : World where
  now := now
  day := "D"

/-- A new manager with both controls on. -/
def manager (journal : Journal) : OrderManager := .create ⟨true, true⟩ "D" journal

/-- A pass whose loads are served at once, up to the broker's answers. -/
def passLoads : List Label :=
  [.reconcile (world 0), .serve .reconcile, .resume (world 0) .reconcile,
    .serve .reconcile, .resume (world 0) .reconcile]

/-- The day is seeded, a pass finds an empty account, and the feed connects and is warm
at 100. -/
def warmUp : List Label :=
  [.seedLimits "D" { realisedPnl := 0, rejects := 0, consecutiveFailures := 0 }] ++ passLoads ++
    [.reconcileAnswered (world 0) (.health none), .reconcileAnswered (world 0) (.orders []),
      .reconcileAnswered (world 0) (.positions []), .reconcileAnswered (world 0) .reported,
      .setFeedHealthy (world 90) true]

def request (role : BoxLegRole) (side : OrderSide) (purpose : BoxOrderPurpose) :
    BrokerOrderRequest where
  clientOrderId := role.text
  role := role
  tradeId := none
  attemptId := "A"
  purpose := purpose
  phase := if purpose = .entry then .entry else .exit
  exchange := "NFO"
  tradingsymbol := role.text
  token := 1
  side := side
  quantity := 75
  pricing := { referencePrice := 0, tickSize := 0, maxChaseTicks := 0, limitPrice := 0 }
  tag := none

/-- The broker's snapshot of a request. -/
def order (r : BrokerOrderRequest) (state : BoxOrderIntentState) (filled : Nat) :
    BrokerOrder where
  clientOrderId := r.clientOrderId
  brokerOrderId := some r.clientOrderId
  tag := none
  exchange := r.exchange
  tradingsymbol := r.tradingsymbol
  token := r.token
  side := r.side
  quantity := r.quantity
  state := state
  filledQuantity := filled
  lastFillId := none
  rejectReason := none

/-- The journal performs the call of an action and the action goes on. -/
def answered (i : TaskId) : List Label := [.serve (.action i), .resume (world 100) (.action i)]

/-- An action creates its intent and moves it to SUBMITTING. -/
def prepared (i : TaskId) : List Label := answered i ++ answered i

/-- The broker returns a snapshot, which is persisted. -/
def returned (i : TaskId) (order : BrokerOrder) : List Label :=
  .submitted (world 100) i (.ok order) :: answered i

/-- An entry leg that is filled at once: from its intent to its decision. -/
def entryFilled (i : TaskId) (r : BrokerOrderRequest) : List Label :=
  prepared i ++ [.pass i, .prePost (world 100) i] ++ returned i (order r .complete r.quantity)

end Sample

end Strikedge.Orders
