import Strikedge.Orders.Execution

/-!
# The order manager

`BoxOrderManager`: the queue, the slots, the gates and the actions in flight around the
books. `submit` admits and enqueues, `pump` dequeues whatever the scheduling policy lets
through, `settle` is the `finally` of an execution and `release` the one of its slot.

`history` is written from the events, newest first, and read by no step.
-/

namespace Strikedge.Orders

structure QueuedAction where
  action : Action
  sequence : Nat
  deriving DecidableEq, Repr

/-- The order of the queue: priority first, then sequence. -/
def QueuedAction.before (a b : QueuedAction) : Prop :=
  boxOrderPriority a.action.purpose < boxOrderPriority b.action.purpose ∨
    (boxOrderPriority a.action.purpose = boxOrderPriority b.action.purpose ∧
      a.sequence ≤ b.sequence)

instance : DecidableRel QueuedAction.before := fun a b => by
  unfold QueuedAction.before
  infer_instance

/-- `sortQueue` -/
def sortQueue (queue : List QueuedAction) : List QueuedAction :=
  queue.insertionSort QueuedAction.before

structure Slots where
  inFlight : Nat := 0
  baseInFlight : Nat := 0
  burstInFlight : Nat := 0
  nonEntryInFlight : Nat := 0
  entryAttemptInFlight : Option AttemptId := none
  entryInFlight : Nat := 0
  deriving DecidableEq, Repr

namespace Slots

def occupancy (s : Slots) : BoxSchedulingOccupancy where
  baseInFlight := s.baseInFlight
  burstInFlight := s.burstInFlight
  entryAttemptId := s.entryAttemptInFlight
  nonEntryInFlight := s.nonEntryInFlight

/-- `occupySlot` -/
def occupy (s : Slots) (action : Action) (slot : BoxSchedulingSlot) : Slots :=
  let s := { s with inFlight := s.inFlight + 1 }
  let s := match slot with
    | .base => { s with baseInFlight := s.baseInFlight + 1 }
    | .entryBurst => { s with burstInFlight := s.burstInFlight + 1 }
  if action.purpose = .entry then
    { s with
      entryInFlight := s.entryInFlight + 1
      entryAttemptInFlight := some action.attemptId }
  else { s with nonEntryInFlight := s.nonEntryInFlight + 1 }

/-- `releaseSlot` -/
def release (s : Slots) (action : Action) (slot : BoxSchedulingSlot) : Slots :=
  let s := { s with inFlight := s.inFlight - 1 }
  let s := match slot with
    | .base => { s with baseInFlight := s.baseInFlight - 1 }
    | .entryBurst => { s with burstInFlight := s.burstInFlight - 1 }
  if action.purpose = .entry then
    { s with
      entryInFlight := s.entryInFlight - 1
      entryAttemptInFlight := if s.entryInFlight - 1 = 0 then none else s.entryAttemptInFlight }
  else { s with nonEntryInFlight := s.nonEntryInFlight - 1 }

section Basic

variable {s : Slots} {action : Action} {slot : BoxSchedulingSlot}

@[simp] theorem occupy_inFlight : (s.occupy action slot).inFlight = s.inFlight + 1 := by
  cases slot <;> by_cases h : action.purpose = .entry <;> simp [occupy, h]

@[simp] theorem occupy_baseInFlight : (s.occupy action slot).baseInFlight =
    s.baseInFlight + if slot = .base then 1 else 0 := by
  cases slot <;> by_cases h : action.purpose = .entry <;> simp [occupy, h]

@[simp] theorem occupy_burstInFlight : (s.occupy action slot).burstInFlight =
    s.burstInFlight + if slot = .entryBurst then 1 else 0 := by
  cases slot <;> by_cases h : action.purpose = .entry <;> simp [occupy, h]

@[simp] theorem occupy_entryInFlight : (s.occupy action slot).entryInFlight =
    s.entryInFlight + if action.purpose = .entry then 1 else 0 := by
  cases slot <;> by_cases h : action.purpose = .entry <;> simp [occupy, h]

@[simp] theorem occupy_nonEntryInFlight : (s.occupy action slot).nonEntryInFlight =
    s.nonEntryInFlight + if action.purpose = .entry then 0 else 1 := by
  cases slot <;> by_cases h : action.purpose = .entry <;> simp [occupy, h]

@[simp] theorem release_inFlight : (s.release action slot).inFlight = s.inFlight - 1 := by
  cases slot <;> by_cases h : action.purpose = .entry <;> simp [release, h]

@[simp] theorem release_baseInFlight : (s.release action slot).baseInFlight =
    s.baseInFlight - if slot = .base then 1 else 0 := by
  cases slot <;> by_cases h : action.purpose = .entry <;> simp [release, h]

@[simp] theorem release_burstInFlight : (s.release action slot).burstInFlight =
    s.burstInFlight - if slot = .entryBurst then 1 else 0 := by
  cases slot <;> by_cases h : action.purpose = .entry <;> simp [release, h]

@[simp] theorem release_entryInFlight : (s.release action slot).entryInFlight =
    s.entryInFlight - if action.purpose = .entry then 1 else 0 := by
  cases slot <;> by_cases h : action.purpose = .entry <;> simp [release, h]

@[simp] theorem release_nonEntryInFlight : (s.release action slot).nonEntryInFlight =
    s.nonEntryInFlight - if action.purpose = .entry then 0 else 1 := by
  cases slot <;> by_cases h : action.purpose = .entry <;> simp [release, h]

/-- An attempt owns the entries only while there are some. -/
theorem occupy_attempt (h : s.entryInFlight = 0 → s.entryAttemptInFlight = none) :
    (s.occupy action slot).entryInFlight = 0 →
      (s.occupy action slot).entryAttemptInFlight = none := by
  by_cases hp : action.purpose = .entry
  · rw [occupy_entryInFlight, if_pos hp]
    omega
  · cases slot <;> simpa [occupy, hp] using h

theorem release_attempt (h : s.entryInFlight = 0 → s.entryAttemptInFlight = none) :
    (s.release action slot).entryInFlight = 0 →
      (s.release action slot).entryAttemptInFlight = none := by
  by_cases hp : action.purpose = .entry
  · rw [release_entryInFlight, if_pos hp]
    intro hzero
    cases slot <;> simp [release, hp, hzero]
  · cases slot <;> simpa [release, hp] using h

end Basic

end Slots

/-- What happened to the legs of entry attempts. -/
inductive Event where
  | registered (request : BrokerOrderRequest) (guard : LiveEntryTransportGuard)
  | decided (request : BrokerOrderRequest) (guard : LiveEntryTransportGuard)
      (outcome : TransportOutcome) (order : Option BrokerOrder)
  /-- the pre-POST callback passed -/
  | posted (request : BrokerOrderRequest) (guard : LiveEntryTransportGuard)
  /-- the pump refused the leg -/
  | blocked (request : BrokerOrderRequest) (guard : LiveEntryTransportGuard)
  deriving DecidableEq, Repr

/-- The settlement of the promise an action's caller holds. -/
structure Settlement where
  clientOrderId : ClientOrderId
  result : Except OrderError (Option BrokerOrder)
  deriving DecidableEq, Repr

/-- The pass of `performReconcile` in flight, see `Reconcile`. -/
inductive ReconcilePhase where
  | loadingNonterminal
  | loadingOwned
  | readingHealth
  | listingOrders
  | listingPositions
  /-- `adoptOrder` of a matched broker order -/
  | adopting (intent : BoxOrderIntent) (order : BrokerOrder)
  /-- `persistOrder` of a matched broker order -/
  | persisting (intent : BoxOrderIntent) (order : BrokerOrder)
  /-- the quarantine of an intent missing at the broker, and the intents still to check -/
  | quarantining (intent : BoxOrderIntent) (rest : List BoxOrderIntent)
  /-- `onReconciliationIssue` -/
  | reporting
  deriving DecidableEq, Repr

/-- The variables of a reconcile pass. -/
structure ReconcileRun where
  phase : ReconcilePhase := .loadingNonterminal
  reply : Option JournalReply := none
  loadedNonterminal : List BoxOrderIntent := []
  nonterminalByClient : OrderedMap ClientOrderId BoxOrderIntent := ∅
  ownedByClient : OrderedMap ClientOrderId BoxOrderIntent := ∅
  byBroker : OrderedMap String BoxOrderIntent := ∅
  byTag : OrderedMap String (Option BoxOrderIntent) := ∅
  /-- broker orders still to match -/
  brokerOrders : List BrokerOrder := []
  positions : List (SymbolKey × Int) := []
  matchCounts : OrderedMap ClientOrderId Nat := ∅
  identityMismatchSymbols : List SymbolKey := []
  ownedLookingOrphans : Nat := 0
  missingAtBroker : List ClientOrderId := []

structure OrderManager where
  book : Book
  queue : List QueuedAction := []
  sequence : Nat := 0
  slots : Slots := {}
  gates : EntryTransportGates := ∅
  tasks : OrderedMap TaskId Task := ∅
  nextTask : TaskId := 0
  reconcileRun : Option ReconcileRun := none
  journal : Journal
  settlements : List Settlement := []
  history : List Event := []

namespace OrderManager

/-- A newly constructed manager over a journal. -/
def create (controls : OrderManagerControls) (day : String) (journal : Journal) :
    OrderManager where
  book := { controls := controls, risk := { tradingDay := day } }
  journal := journal

def settleAction (m : OrderManager) (action : Action)
    (result : Except OrderError (Option BrokerOrder)) : OrderManager :=
  { m with
    settlements := { clientOrderId := action.clientOrderId, result := result } :: m.settlements }

def rejectAction (m : OrderManager) (action : Action) (error : OrderError) : OrderManager :=
  m.settleAction action (.error error)

/-- `decideEntryTransportRank` -/
def decideRank (cfg : Config) (m : OrderManager) (request : BrokerOrderRequest)
    (guard : LiveEntryTransportGuard) (outcome : TransportOutcome) (reason : Option String)
    (order : Option BrokerOrder) : OrderManager :=
  { m with
    gates := m.gates.decideRank cfg.account request guard outcome reason order
    history := .decided request guard outcome order :: m.history }

/-- `reconcile`: start a pass unless one is running. -/
def reconcile (cfg : Config) (w : World) (m : OrderManager) : OrderManager :=
  let b := m.book.rollTradingDay cfg w
  let b := if b.risk.seedHealth = .healthy then b
    else { b with risk := b.risk.refreshDailyRiskSeed cfg.hasDailyRiskLoader b.disposed }
  match m.reconcileRun with
  | some _ => { m with book := b }
  | none =>
      { m with
        book := { b with health := { b.health with reconciliation := .running } }
        reconcileRun := some {} }

/-- `queuedActionBlockReason`: re-check mutable gates at the dequeue. -/
def queuedActionBlockReason (cfg : Config) (w : World) (b : Book) :
    Action → Book × Option String
  | .cancel _ =>
      (b, if b.canManageExposure then none
        else some "OrderManager exposure management was disabled while cancellation was queued.")
  | .submit request capital _ =>
      if request.purpose = .entry then
        match b.canEnter cfg w none with
        | (b, false) =>
            (b, some "OrderManager entry controls or limits closed while order was queued.")
        | (b, true) =>
            if cfg.limits.maxOpenLegQuantity < request.quantity ∨
                cfg.limits.maxGrossOpenLegQuantity <
                  b.grossOpenLegQuantity + b.reservedEntryQuantity then
              (b, some "Order exceeded live quantity limits while queued.")
            else (b, Book.capitalBlockReason cfg capital)
      else if !b.canManageExposure then
        (b, some "OrderManager exposure management was disabled while order was queued.")
      else if request.purpose = .protectiveCancel then (b, none)
      else if request.quantity ≤ cfg.limits.maxOpenLegQuantity &&
          Book.reducingSide (b.net request.symbol) request.side &&
          b.reservedReduction request.symbol ≤ (b.net request.symbol).natAbs then (b, none)
      else (b, some "Attributed exposure changed while reduction was queued.")

/-- Reject an action the pump has refused. The rank of an entry leg is not decided. -/
def block (m : OrderManager) (action : Action) (reason : String) : OrderManager :=
  let book := match action with
    | .submit request _ _ =>
        (m.book.deactivate request.clientOrderId).releaseReservation request.clientOrderId
    | .cancel _ => m.book
  let events := match action.leg with
    | some (request, guard) => [Event.blocked request guard]
    | none => []
  { m with book := book, history := events ++ m.history }.rejectAction action (.other reason)

/-- `execute` up to its first await is the creation of its intent, `executeCancel` the
request to the broker. -/
def startedTask (cfg : Config) (action : Action) (slot : BoxSchedulingSlot) : Task where
  action := action
  slot := slot
  phase := match action with
    | .submit .. => .creating
    | .cancel _ => .cancelling
  intent := match action with
    | .submit request _ _ => intentFromRequest (cfg.prepareOrder request)
    | .cancel intent => intent

/-- Take a slot and start `execute` or `executeCancel`. -/
def start (cfg : Config) (m : OrderManager) (action : Action) (slot : BoxSchedulingSlot) :
    OrderManager :=
  { m with
    slots := m.slots.occupy action slot
    tasks := m.tasks.set m.nextTask (startedTask cfg action slot)
    nextTask := m.nextTask + 1 }

/-- The loop of `pump` over the queue it still has to look at. -/
def pumpFrom (cfg : Config) (w : World) : List QueuedAction → OrderManager → OrderManager
  | [], m => { m with queue := [] }
  | q :: rest, m =>
      if m.book.disposed then { m with queue := q :: rest }
      else
        match admitBoxOperation q.action.purpose q.action.attemptId m.slots.occupancy
            cfg.limits.maxConcurrentExecutions cfg.limits.entrySubmitConcurrency with
        | .error _ => { m with queue := q :: rest }
        | .ok slot =>
            match queuedActionBlockReason cfg w m.book q.action with
            | (b, some reason) =>
                pumpFrom cfg w rest ({ m with book := b }.block q.action reason)
            | (b, none) => pumpFrom cfg w rest ({ m with book := b }.start cfg q.action slot)

/-- `pump` -/
def pump (cfg : Config) (w : World) (m : OrderManager) : OrderManager :=
  pumpFrom cfg w m.queue m

/-- `queue.push`, `sortQueue`, `pump`. -/
def enqueue (cfg : Config) (w : World) (m : OrderManager) (action : Action) : OrderManager :=
  pump cfg w
    { m with
      queue := sortQueue (m.queue ++ [{ action := action, sequence := m.sequence }])
      sequence := m.sequence + 1 }

/-- The objection to a submission before anything is reserved. -/
def submitBlockReason (cfg : Config) (w : World) (b : Book) (action : Action)
    (request : BrokerOrderRequest) : Book × Option OrderError :=
  match b.guardBlockReason cfg w action .preEnqueue {} with
  | (b, some reason) => (b, some (.preSubmitRefused .dequeue reason))
  | (b, none) =>
      let (b, open') :=
        if request.purpose = .entry then b.canEnter cfg w (some request)
        else (b, b.canManageExposure)
      if !open' then
        (b, some <| .other <|
          if request.purpose = .entry then "OrderManager entry controls or limits are closed."
          else "OrderManager exposure management is disabled.")
      else if !b.withinQuantityLimits cfg request then
        (b, some (.other "Order exceeds configured live leg quantity limits."))
      else if request.clientOrderId ∈ b.activeClientIds then
        (b, some (.other s!"Order {request.clientOrderId} is already queued or active."))
      else (b, none)

/-- `ensureEntryTransportGate` for a leg with a guard. -/
def register (cfg : Config) (m : OrderManager) (action : Action) : OrderManager :=
  match action.leg with
  | none => m
  | some (request, guard) =>
      { m with
        gates := m.gates.ensure cfg.account request guard
        history := .registered request guard :: m.history }

/-- `releaseOnReject`: a rejected leg decides its rank. -/
def releaseOnReject (cfg : Config) (m : OrderManager) (action : Action) (error : OrderError) :
    OrderManager :=
  let m := match action.leg with
    | none => m
    | some (request, guard) =>
        m.decideRank cfg request guard .noPost (some error.message) none
  m.rejectAction action error

/-- `submit`. The guard of an order that is not an entry is ignored. -/
def submit (cfg : Config) (w : World) (m : OrderManager) (request : BrokerOrderRequest)
    (capital : Option EntryCapitalStamp) (entry : Option LiveEntryTransportGuard) :
    OrderManager :=
  let action := Action.submit request capital (if request.purpose = .entry then entry else none)
  let m := m.register cfg action
  match submitBlockReason cfg w m.book action request with
  | (b, some error) => { m with book := b }.releaseOnReject cfg action error
  | (b, none) =>
      let b := { b with activeClientIds := b.activeClientIds.insert request.clientOrderId }
      { m with book := b.reserve request }.enqueue cfg w action

/-- `enqueueCancel` -/
def enqueueCancel (cfg : Config) (w : World) (m : OrderManager) (intent : BoxOrderIntent) :
    OrderManager :=
  m.enqueue cfg w (.cancel intent)

/-- The `finally` of `execute`: decide the rank of an entry leg. -/
def settleRank (cfg : Config) (m : OrderManager) (t : Task) : OrderManager :=
  match t.action.leg with
  | none => m
  | some (request, guard) =>
      m.decideRank cfg request guard (if t.postBegan then .posted else .noPost)
        t.hedgeFailureReason t.terminalOrder

def setTask (m : OrderManager) (i : TaskId) (t : Task) : OrderManager :=
  { m with tasks := m.tasks.set i t }

/-- Suspend a task in a phase. -/
def suspend (m : OrderManager) (i : TaskId) (t : Task) (phase : Phase) : OrderManager :=
  m.setTask i { t with phase := phase, reply := none }

/-- What a synchronous block did to the books and to its caller's promise. -/
def absorb (cfg : Config) (w : World) (m : OrderManager) (s : Stretch) : OrderManager :=
  let m := { m with book := s.book }
  let m := if s.violated then m.reconcile cfg w else m
  match s.outcome with
  | none => m
  | some result => m.settleAction s.task.action result

/-- `awaitEntryTransportTurn` of action `i`. -/
def awaitTurn (m : OrderManager) (i : TaskId) (action : Action) : OrderManager :=
  match action.leg with
  | none => m
  | some (request, guard) => { m with gates := m.gates.awaitTurn request guard i }

/-- The end of a synchronous block of action `i`. -/
def commit (cfg : Config) (w : World) (m : OrderManager) (i : TaskId) (s : Stretch) :
    OrderManager :=
  let m := m.absorb cfg w s
  match s.next with
  | .await phase => m.suspend i s.task phase
  | .barrier => (m.suspend i s.task .turn).awaitTurn i s.task.action
  | .settle => (m.suspend i s.task .settled).settleRank cfg s.task

/-- The turn of a task has come: `adapter.submitOrder` starts. -/
def pass (m : OrderManager) (i : TaskId) (t : Task) : Option OrderManager :=
  if t.phase = .turn ∧ m.gates.parked i = false then some (m.suspend i t .sending) else none

/-- The pre-POST callback: the last check before the HTTP request, or its refusal. -/
def prePost (cfg : Config) (w : World) (m : OrderManager) (i : TaskId) (t : Task) :
    OrderManager :=
  match w.checkedFeed with
  | some reason => m.setTask i { t with hedgeFailureReason := some reason }
  | none =>
      match t.action.leg with
      | none => m.setTask i { t with postBegan := true }
      | some (request, guard) =>
          let exposed := (m.gates.get? request.attemptId).any (·.alreadyExposed)
          let (gates, gap) := m.gates.hedgeCoverageGap request guard
          let gaps : SendBoundaryGaps :=
            { hedgeCoverage := gap
              coherence := if exposed then none else w.coherence
              economics := if exposed then none else w.economics }
          let (b, refusal) := m.book.evaluateEntryGuard cfg w request .prePost gaps
          let m := { m with book := b, gates := gates }
          match refusal with
          | some (_, reason) => m.setTask i { t with hedgeFailureReason := some reason }
          | none =>
              { m.setTask i { t with postBegan := true } with
                history := .posted request guard :: m.history }

/-- The `finally` of an action in `pump`: give back its slot, and its reservation unless
what the broker did is not proven, and pump again. -/
def release (cfg : Config) (w : World) (m : OrderManager) (i : TaskId) (t : Task) :
    OrderManager :=
  let book := match t.action with
    | .cancel _ => m.book
    | .submit request _ _ =>
        let known := m.book.knownIntents.get? request.clientOrderId
        let b := if known.any fun k => isReconcileState k.state then m.book
          else m.book.releaseReservation request.clientOrderId
        b.deactivate request.clientOrderId
  pump cfg w
    { m with
      slots := m.slots.release t.action t.slot
      tasks := m.tasks.delete i
      book := book }

/-- What disposal does to one queued action. -/
def disposeQueued (m : OrderManager) (action : Action) : OrderManager :=
  let book := match action with
    | .submit request _ _ =>
        (m.book.deactivate request.clientOrderId).releaseReservation request.clientOrderId
    | .cancel _ => m.book
  { m with book := book }.rejectAction action
    (.other "OrderManager disposed before broker action.")

/-- `dispose`: drain the gates, then reject the queue. -/
def dispose (m : OrderManager) : OrderManager :=
  (m.queue.map (·.action)).foldl disposeQueued
    { m with
      book := { m.book with disposed := true, risk := m.book.risk.dispose }
      gates := ∅
      queue := [] }

end OrderManager

end Strikedge.Orders
