import Strikedge.Orders.Book
import Strikedge.Orders.EntryGate

/-!
# One action in flight

`execute` and `executeCancel`, cut at their awaits. A `Task` is suspended in a phase: it
waits for the journal, for the broker, or for its turn at the barrier. Each continuation
returns a `Stretch`: the books after the synchronous block, the task's own variables, and
what the task does next. The continuations do not touch the gates, except that settling
decides the task's rank and reaching the barrier may park it; both are left to the
manager.
-/

namespace Strikedge.Orders

/-- What `submit` and `enqueueCancel` put into the queue. -/
inductive Action where
  | submit (request : BrokerOrderRequest) (capital : Option EntryCapitalStamp)
      (entry : Option LiveEntryTransportGuard)
  | cancel (intent : BoxOrderIntent)
  deriving DecidableEq, Repr

namespace Action

/-- A bare cancel is scheduled as a protective cancel. -/
def purpose : Action → BoxOrderPurpose
  | .submit request _ _ => request.purpose
  | .cancel _ => .protectiveCancel

def attemptId : Action → AttemptId
  | .submit request _ _ => request.attemptId
  | .cancel intent => intent.attemptId

def clientOrderId : Action → ClientOrderId
  | .submit request _ _ => request.clientOrderId
  | .cancel intent => intent.clientOrderId

/-- The request and the guard of an entry leg. -/
def leg : Action → Option (BrokerOrderRequest × LiveEntryTransportGuard)
  | .submit request _ entry => entry.map fun guard => (request, guard)
  | .cancel _ => none

/-- The request of a submission. -/
def request : Action → Option BrokerOrderRequest
  | .submit request _ _ => some request
  | .cancel _ => none

end Action

inductive JournalCall where
  | create (intent : BoxOrderIntent)
  | update (id : ClientOrderId) (patch : BoxOrderIntentPatch) (audit : BoxOrderIntentAudit)
      (expectedStates : Option (List BoxOrderIntentState))
  | loadNonterminal
  | loadOwned
  deriving DecidableEq, Repr

inductive JournalReply where
  | created (row : BoxOrderIntent)
  | updated (result : UpdateResult)
  | loaded (rows : List BoxOrderIntent)
  | threw (message : String)
  deriving DecidableEq, Repr

/-- Perform one call, atomically. -/
def Journal.perform (store : Persistence) (j : Journal) : JournalCall → Journal × JournalReply
  | .create intent =>
      match j.createBoxOrderIntent intent with
      | (j, .ok row) => (j, .created row)
      | (j, .error message) => (j, .threw message)
  | .update id patch audit expected =>
      match j.updateBoxOrderIntent store id patch audit expected with
      | (j, .ok result) => (j, .updated result)
      | (j, .error message) => (j, .threw message)
  | .loadNonterminal => (j, .loaded j.loadNonterminal)
  | .loadOwned => (j, .loaded j.loadOwned)

/-- The call sites of `persistOrder` in an action. -/
inductive PersistSite where
  /-- an existing durable intent was found at the broker -/
  | existing
  /-- the adapter returned a snapshot -/
  | snapshot
  /-- the adapter threw a rejection -/
  | rejected
  /-- the adapter threw an ambiguous submission that carries a snapshot -/
  | ambiguous (message : String)
  /-- another process owns the submission -/
  | owner (current : BoxOrderIntent)
  | cancel
  deriving DecidableEq, Repr

/-- Where an action is suspended. -/
inductive Phase where
  | creating
  | fetchingExisting
  | submitting
  | refusing (stage : LiveEntryGuardStage) (reason : String)
  | turn
  | sending
  | persisting (site : PersistSite) (order : BrokerOrder)
  | quarantining (error : OrderError)
  | fetchingOwner (current : BoxOrderIntent)
  | cancelling
  | settled
  deriving DecidableEq, Repr

/-- An action in flight: its slot, its phase and the variables of its function. -/
structure Task where
  action : Action
  slot : BoxSchedulingSlot
  phase : Phase
  intent : BoxOrderIntent
  postBegan : Bool := false
  hedgeFailureReason : Option String := none
  terminalOrder : Option BrokerOrder := none
  /-- the journal has answered the pending call -/
  reply : Option JournalReply := none
  deriving DecidableEq, Repr

def PersistSite.message : PersistSite → String
  | .existing => "existing intent reconciled before resubmit"
  | .snapshot => "adapter order snapshot"
  | .rejected => "broker rejected order"
  | .ambiguous message => message
  | .owner _ => "concurrent durable submission owner reconciled"
  | .cancel => "protective cancel reconciliation"

/-- The message of the snapshot site when the state is uncertain. -/
def persistMessage (site : PersistSite) (order : BrokerOrder) : String :=
  if site = .snapshot ∧ isReconcileState order.state then
    "adapter returned uncertain state; no retry"
  else site.message

/-- The update `persistOrder(intent, order, message)` awaits. -/
def persistCall (intent : BoxOrderIntent) (order : BrokerOrder) (message : String) :
    JournalCall :=
  .update intent.clientOrderId (orderPatch order)
    (auditFor intent order.state order.brokerOrderId message order.lastFillId none) none

/-- The update `transitionResult` awaits. -/
def transitionCall (intent : BoxOrderIntent) (state : BoxOrderIntentState)
    (brokerOrderId : Option String) (message : String)
    (expectedStates : Option (List BoxOrderIntentState))
    (localRefusal : Option (String × String)) : JournalCall :=
  .update intent.clientOrderId (transitionPatch state brokerOrderId)
    (auditFor intent state brokerOrderId message none localRefusal) expectedStates

/-- The intent `persistOrder` was called with. -/
def PersistSite.intentOf (site : PersistSite) (intent : BoxOrderIntent) : BoxOrderIntent :=
  match site with
  | .owner current => current
  | _ => intent

/-- The journal call a task awaits, if it awaits the journal. -/
def Task.call (t : Task) : Option JournalCall :=
  match t.phase with
  | .creating => some (.create t.intent)
  | .submitting =>
      some (transitionCall t.intent .submitting none "transport submission starting"
        (some [.created]) none)
  | .refusing stage reason =>
      some (transitionCall t.intent .rejected none
        (s!"local pre-submit refusal; no broker POST attempted ({stage.text}): {reason}")
        (some [t.intent.state]) (some (stage.text, reason)))
  | .persisting site order =>
      some (persistCall (site.intentOf t.intent) order (persistMessage site order))
  | .quarantining error =>
      some (transitionCall t.intent .reconciliationRequired none error.message none none)
  | _ => none

/-- What a task does at the end of a synchronous block. -/
inductive Next where
  | await (phase : Phase)
  /-- `awaitEntryTransportTurn` -/
  | barrier
  /-- the `finally` of `execute` -/
  | settle
  deriving DecidableEq, Repr

/-- One synchronous block of an action. -/
structure Stretch where
  book : Book
  task : Task
  next : Next
  /-- `action.resolve` or `action.reject` -/
  outcome : Option (Except OrderError (Option BrokerOrder)) := none
  /-- an invariant violation started a reconcile -/
  violated : Bool := false

/-- The three objections that exist only at the final send boundary. -/
structure SendBoundaryGaps where
  hedgeCoverage : Option String := none
  coherence : Option String := none
  economics : Option String := none
  deriving DecidableEq, Repr

/-- `evaluateEntryGuard`: gather what the manager can see and delegate the decision. -/
def Book.evaluateEntryGuard (cfg : Config) (w : World) (b : Book)
    (request : BrokerOrderRequest) (stage : LiveEntryGuardStage) (gaps : SendBoundaryGaps) :
    Book × Option (LiveEntryGuardRefusal × String) :=
  let (rolled, admissible) :=
    if stage = .preEnqueue then (b, true) else b.canEnter cfg w (some request)
  (rolled, evaluateLiveEntryGuard
    { stage := stage
      stillWanted := w.stillWanted
      entryEnabled := b.controls.entryEnabled
      liveOrderEntryEnabled := b.controls.liveOrderEnabled
      circuitClosed := b.breakerReason.isNone
      entryAdmissible := admissible
      attemptAborted := none
      hedgeCoverageGap := gaps.hedgeCoverage
      crossLegCoherenceGap := gaps.coherence
      economicEvidenceGap := gaps.economics })

/-- `entryGuardBlockReason` of a leg that may carry no guard. -/
def Book.guardBlockReason (cfg : Config) (w : World) (b : Book) (action : Action)
    (stage : LiveEntryGuardStage) (gaps : SendBoundaryGaps) : Book × Option String :=
  match action.leg with
  | none => (b, none)
  | some (request, _) =>
      let (b, refusal) := b.evaluateEntryGuard cfg w request stage gaps
      (b, refusal.map (·.2))

/-- The reason a queued leg may not be sent now: its feed first, then its guard. -/
def Book.sendBlockReason (cfg : Config) (w : World) (b : Book) (action : Action)
    (stage : LiveEntryGuardStage) (gaps : SendBoundaryGaps) : Book × Option String :=
  match w.checkedFeed with
  | some reason => (b, some reason)
  | none => b.guardBlockReason cfg w action stage gaps

namespace Task

/-- The outer `catch` of `execute`. -/
def failed (cfg : Config) (b : Book) (t : Task) (error : OrderError) : Stretch where
  book := (b.setPersistence .unhealthy).noteFailure cfg "order intent persistence failure"
  task := { t with hedgeFailureReason := some error.message }
  next := .settle
  outcome := some (.error error)

/-- An exception of a cancel only rejects it. -/
def rejected (b : Book) (t : Task) (error : OrderError) : Stretch where
  book := b
  task := t
  next := .settle
  outcome := some (.error error)

/-- What an exception does to an action. -/
def threw (cfg : Config) (b : Book) (t : Task) (error : OrderError) : Stretch :=
  match t.action with
  | .submit .. => t.failed cfg b error
  | .cancel _ => t.rejected b error

def resolved (b : Book) (t : Task) (order : Option BrokerOrder) : Stretch where
  book := b
  task := t
  next := .settle
  outcome := some (.ok order)

/-- Call `persistOrder`. -/
def persist (w : World) (b : Book) (t : Task) (site : PersistSite) (order : BrokerOrder) :
    Stretch where
  book := b.beginPersist w
  task := t
  next := .await (.persisting site order)

/-- Refuse locally before the POST, at a stage. -/
def refuse (b : Book) (t : Task) (stage : LiveEntryGuardStage) (reason : String) :
    Stretch where
  book := b
  task := { t with hedgeFailureReason := some reason }
  next := .await (.refusing stage reason)

/-- Resumed by `persistence.create`. -/
def created (cfg : Config) (w : World) (b : Book) (t : Task) (row : BoxOrderIntent) :
    Stretch :=
  let b := (b.know row).setPersistence .healthy
  let t := { t with intent := row }
  if row.state ≠ .created then
    -- a prior submission exists: reconcile it, never send it again
    { book := b, task := t, next := .await .fetchingExisting }
  else
    match b.sendBlockReason cfg w t.action .dequeue {} with
    | (b, some reason) => t.refuse b .dequeue reason
    | (b, none) => { book := b, task := t, next := .await .submitting }

/-- Resumed by `adapter.getOrder` for an existing intent. -/
def existingFetched (cfg : Config) (w : World) (b : Book) (t : Task) :
    Except OrderError (Option BrokerOrder) → Stretch
  | .error error => t.failed cfg b error
  | .ok none =>
      t.failed cfg b
        (.other "Existing durable intent requires reconciliation before resubmit.")
  | .ok (some order) => t.persist w b .existing order

/-- `resolveConcurrentSubmissionOwner` up to its `getOrder`. -/
def resolveOwner (b : Book) (t : Task) (current : BoxOrderIntent) : Stretch where
  book := b.know current
  task := t
  next := .await (.fetchingOwner current)

/-- Resumed by `adapter.getOrder` for a concurrent owner. -/
def ownerFetched (cfg : Config) (w : World) (b : Book) (t : Task) (current : BoxOrderIntent) :
    Except OrderError (Option BrokerOrder) → Stretch
  | .error error => t.failed cfg b error
  | .ok (some order) => t.persist w b (.owner current) order
  | .ok none =>
      let id := current.clientOrderId
      { book :=
          if isBrokerOrderTerminal current.state then b
          else { b with unknownOrders := b.unknownOrders + 1 }
        task := t
        next := .settle
        outcome := some <| .error <| .ambiguousSubmit
          (s!"Another process advanced durable intent {id} to {current.state.text}; " ++
            "this process attempted no broker POST and reconciliation is required.") none }

/-- Resumed by the transition to SUBMITTING. -/
def submittingDone (cfg : Config) (w : World) (b : Book) (t : Task) (result : UpdateResult) :
    Stretch :=
  match b.transitioned t.intent .submitting result with
  | (b, .error error) => t.failed cfg b error
  | (b, .ok (row, false)) => t.resolveOwner b row
  | (b, .ok (row, true)) =>
      let t := { t with intent := row }
      if row.state ≠ .submitting then
        t.failed cfg b <| .other <|
          s!"Order intent {row.clientOrderId} did not durably enter SUBMITTING; " ++
            "broker POST blocked."
      else if t.action.leg.isNone then { book := b, task := t, next := .await .sending }
      else
        match b.guardBlockReason cfg w t.action .postPersist {} with
        | (b, some reason) => t.refuse b .postPersist reason
        | (b, none) => { book := b, task := t, next := .barrier }

/-- Resumed by the transition to REJECTED of a local refusal. -/
def refusedDone (cfg : Config) (b : Book) (t : Task) (stage : LiveEntryGuardStage)
    (reason : String) (result : UpdateResult) : Stretch :=
  match b.transitioned t.intent .rejected result with
  | (b, .error error) => t.failed cfg b error
  | (b, .ok (row, applied)) =>
      if applied && row.state = .rejected then
        t.rejected b (.preSubmitRefused stage reason)
      else t.resolveOwner b ((b.knownIntents.get? t.intent.clientOrderId).getD t.intent)

/-- The end of an ambiguous submission. -/
def ambiguousDone (cfg : Config) (b : Book) (t : Task) (error : OrderError) : Stretch where
  book := ({ b with unknownOrders := b.unknownOrders + 1 } : Book).noteFailure cfg
    "ambiguous broker submission"
  task := { t with hedgeFailureReason := some error.message }
  next := .settle
  outcome := some (.error error)

/-- The end of a submission the adapter returned a snapshot for. -/
def snapshotDone (cfg : Config) (b : Book) (t : Task) (order : BrokerOrder) : Stretch :=
  if isReconcileState order.state then
    let b := b.noteFailure cfg "adapter returned uncertain order state"
    let t := { t with
      hedgeFailureReason := some s!"broker state {order.state.text} is not proof of a hedge" }
    t.resolved (b.evaluateLimits cfg) (some order)
  else
    let t := { t with terminalOrder := some order }
    match order.state with
    | .rejected =>
        let t := { t with
          hedgeFailureReason := some (order.rejectReason.getD "broker rejected order") }
        t.resolved (b.noteBrokerRejection cfg) (some order)
    | .complete =>
        let b := { b with risk := { b.risk with consecutiveFailures := 0 } }
        t.resolved (b.evaluateLimits cfg) (some order)
    | _ => t.resolved (b.evaluateLimits cfg) (some order)

/-- `persistOrder` returned to one of its call sites. -/
def persistedAt (cfg : Config) (b : Book) (t : Task) (order : BrokerOrder) :
    PersistSite → Stretch
  | .existing => t.resolved b (some order)
  | .snapshot => t.snapshotDone cfg b order
  | .rejected =>
      let error := OrderError.orderRejected order
      { book := b.noteBrokerRejection cfg
        task := { t with
          hedgeFailureReason := some error.message
          terminalOrder := some order }
        next := .settle
        outcome := some (.error error) }
  | .ambiguous message => t.ambiguousDone cfg b (.ambiguousSubmit message (some order))
  | .owner _ => t.resolved b (some order)
  | .cancel => t.resolved b (some order)

/-- Resumed by `persistOrder`. -/
def persistedDone (cfg : Config) (t : Task) (site : PersistSite) (order : BrokerOrder)
    (p : Book.Persisted) : Stretch :=
  match p.result with
  | .error error => { t.threw cfg p.book error with violated := p.violated }
  | .ok _ => { t.persistedAt cfg p.book order site with violated := p.violated }

/-- Resumed by the transition to RECONCILIATION_REQUIRED. -/
def quarantineDone (cfg : Config) (b : Book) (t : Task) (error : OrderError)
    (result : UpdateResult) : Stretch :=
  match b.transitioned t.intent .reconciliationRequired result with
  | (b, .error thrown) => t.failed cfg b thrown
  | (b, .ok _) => t.ambiguousDone cfg b error

/-- `adapter.submitOrder` settled. -/
def submitted (w : World) (b : Book) (t : Task) : Except OrderError BrokerOrder → Stretch
  | .ok order => t.persist w b .snapshot order
  | .error (.preSubmitRefused stage reason) =>
      { book := b, task := t, next := .await (.refusing stage reason) }
  | .error (.orderRejected order) => t.persist w b .rejected order
  | .error (.ambiguousSubmit message (some order)) => t.persist w b (.ambiguous message) order
  | .error error => { book := b, task := t, next := .await (.quarantining error) }

/-- `adapter.cancelOrder` settled. -/
def cancelled (w : World) (b : Book) (t : Task) :
    Except OrderError (Option BrokerOrder) → Stretch
  | .error error => t.rejected b error
  | .ok none => t.resolved b none
  | .ok (some order) => t.persist w b .cancel order

/-- The exception of a journal call that threw. -/
def journalThrew (cfg : Config) (b : Book) (t : Task) (message : String) : Stretch :=
  match t.phase with
  | .persisting site order =>
      t.persistedDone cfg site order (b.persistFailed order message)
  | _ => t.threw cfg b (.other message)

/-- Resume a task with the journal's reply to its pending call. -/
def resume (cfg : Config) (w : World) (b : Book) (t : Task) (reply : JournalReply) :
    Option Stretch :=
  match t.phase, reply with
  | .creating, .created row => some (t.created cfg w b row)
  | .submitting, .updated result => some (t.submittingDone cfg w b result)
  | .refusing stage reason, .updated result =>
      some (t.refusedDone cfg b stage reason result)
  | .persisting site order, .updated result =>
      some (t.persistedDone cfg site order
        (b.persisted (site.intentOf t.intent) order result))
  | .quarantining error, .updated result => some (t.quarantineDone cfg b error result)
  | _, .threw message => some (t.journalThrew cfg b message)
  | _, _ => none

/-- Resume a task with the broker's answer to `getOrder`. -/
def fetched (cfg : Config) (w : World) (b : Book) (t : Task)
    (answer : Except OrderError (Option BrokerOrder)) : Option Stretch :=
  match t.phase with
  | .fetchingExisting => some (t.existingFetched cfg w b answer)
  | .fetchingOwner current => some (t.ownerFetched cfg w b current answer)
  | _ => none

end Task

end Strikedge.Orders
