import Strikedge.Orders.Manager

/-!
# Reconciliation

`performReconcile`, cut at its awaits. The pass loads the journal, reads the broker,
persists every matched broker order, quarantines what is missing, and then, in one
synchronous block, rebuilds the attributed positions absolutely from the intents it holds.
-/

namespace Strikedge.Orders

/-- What a pass does at the end of a synchronous block. -/
inductive ReconcileNext where
  | await (run : ReconcileRun)
  /-- every matched and missing intent is handled: rebuild -/
  | rebuild (run : ReconcileRun)
  /-- the pass threw -/
  | failed (message : String)

/-- One synchronous block of a pass, up to its rebuild. -/
structure ReconcileStretch where
  book : Book
  next : ReconcileNext
  violated : Bool := false

namespace ReconcileRun

/-- `byClient ?? byBroker ?? byTag`: the durable intent a broker order belongs to. -/
def matchOrder (run : ReconcileRun) (order : BrokerOrder) : Option BoxOrderIntent :=
  ((run.ownedByClient.get? order.clientOrderId).or
    (order.brokerOrderId.bind run.byBroker.get?)).or
    (order.tag.bind fun tag => (run.byTag.get? tag).join)

/-- An unattributed order that looks like one of ours. -/
def looksOwned (order : BrokerOrder) : Bool :=
  "BOX:".toList.isPrefixOf order.clientOrderId.toList ||
    order.tag.any fun tag => "BOX".toList.isPrefixOf tag.toList

/-- `byTag`: a tag is safe only when exactly one durable intent has it. -/
def indexTags (owned : List BoxOrderIntent) : OrderedMap String (Option BoxOrderIntent) :=
  owned.foldl (fun tags intent =>
    match intent.brokerTag with
    | none => tags
    | some tag => if tag = "" then tags
      else tags.set tag (if tags.has tag then none else some intent)) ∅

def indexBroker (owned : List BoxOrderIntent) : OrderedMap String BoxOrderIntent :=
  owned.foldl (fun ids intent =>
    match intent.brokerOrderId with
    | none => ids
    | some id => if id = "" then ids else ids.set id intent) ∅

def indexClient (intents : List BoxOrderIntent) : OrderedMap ClientOrderId BoxOrderIntent :=
  intents.foldl (fun m intent => m.set intent.clientOrderId intent) ∅

/-- Call a quarantine for the next intent missing at the broker, or go on to the rebuild. -/
def checkMissing (b : Book) (run : ReconcileRun) : List BoxOrderIntent → ReconcileStretch
  | [] => { book := b, next := .rebuild run }
  | intent :: rest =>
      if (run.matchCounts.has intent.clientOrderId) then checkMissing b run rest
      else
        let run := { run with missingAtBroker := run.missingAtBroker ++ [intent.clientOrderId] }
        if intent.state ≠ .created then
          { book := b
            next := .await { run with phase := .quarantining intent rest, reply := none } }
        else
          let b := ({ b with recoveryActive := true } : Book).trip
            s!"durable nonterminal intent missing at broker: {intent.clientOrderId}"
          checkMissing b run rest

/-- Go through the broker orders up to the next one that has to be adopted. -/
def scanOrders (b : Book) (run : ReconcileRun) : List BrokerOrder → ReconcileStretch
  | [] => checkMissing b { run with brokerOrders := [] } run.loadedNonterminal
  | order :: rest =>
      match run.matchOrder order with
      | none =>
          if looksOwned order then
            let name := order.brokerOrderId.getD order.clientOrderId
            let b := ({ b with recoveryActive := true } : Book).trip
              s!"unattributed BOX-looking broker order {name}"
            scanOrders b { run with ownedLookingOrphans := run.ownedLookingOrphans + 1 } rest
          else scanOrders b run rest
      | some intent =>
          let id := intent.clientOrderId
          let count := (run.matchCounts.get? id).getD 0 + 1
          let run := { run with matchCounts := run.matchCounts.set id count }
          if 1 < count then
            let b := ({ b with recoveryActive := true } : Book).trip
              s!"multiple broker orders matched durable intent {id}"
            scanOrders b run rest
          else
            { book := b
              next := .await { run with
                phase := .adopting intent order
                reply := none
                brokerOrders := rest } }

/-- The `catch` around one matched order. -/
def mismatched (b : Book) (run : ReconcileRun) (intent : BoxOrderIntent) (message : String) :
    ReconcileStretch :=
  let run := { run with
    identityMismatchSymbols := run.identityMismatchSymbols.insert intent.symbol }
  let b := ({ b with recoveryActive := true } : Book).trip
    s!"broker identity/attribute mismatch for {intent.clientOrderId}: {message}"
  scanOrders b run run.brokerOrders

/-- The pass learns the row of one of its intents. -/
def learn (run : ReconcileRun) (updated : BoxOrderIntent) : ReconcileRun :=
  { run with ownedByClient := run.ownedByClient.set updated.clientOrderId updated }

/-- Resumed by `persistOrder` of a matched order. -/
def persistedDone (b : Book) (run : ReconcileRun) (intent : BoxOrderIntent)
    (result : Except OrderError BoxOrderIntent) : ReconcileStretch :=
  match result with
  | .error error => mismatched b run intent error.message
  | .ok updated =>
      let run := run.learn updated
      let run := { run with
        nonterminalByClient :=
          if isBrokerOrderTerminal updated.state then
            run.nonterminalByClient.delete updated.clientOrderId
          else run.nonterminalByClient.set updated.clientOrderId updated }
      scanOrders b run run.brokerOrders

/-- Resumed by the quarantine of an intent missing at the broker. -/
def quarantineDone (b : Book) (run : ReconcileRun) (intent : BoxOrderIntent)
    (rest : List BoxOrderIntent) (result : UpdateResult) : ReconcileStretch :=
  match b.transitioned intent .reconciliationRequired result with
  | (b, .error error) => { book := b, next := .failed error.message }
  | (b, .ok (updated, _)) =>
      let run := { run.learn updated with
        nonterminalByClient := run.nonterminalByClient.set updated.clientOrderId updated }
      let b := ({ b with recoveryActive := true } : Book).trip
        s!"durable nonterminal intent missing at broker: {intent.clientOrderId}"
      checkMissing b run rest

/-- The journal call a pass awaits, if it awaits the journal. -/
def call (run : ReconcileRun) : Option JournalCall :=
  match run.phase with
  | .loadingNonterminal => some .loadNonterminal
  | .loadingOwned => some .loadOwned
  | .persisting intent order =>
      some (persistCall intent order "broker reconciliation snapshot")
  | .quarantining intent _ =>
      some (transitionCall intent .reconciliationRequired intent.brokerOrderId
        "durable nonterminal intent not found in broker order list; no resubmit" none none)
  | _ => none

/-- Both loads have returned. -/
def loadedOwned (b : Book) (run : ReconcileRun) (owned : List BoxOrderIntent) :
    ReconcileStretch :=
  let b := owned.foldl Book.know (b.setPersistence .healthy)
  { book := b
    next := .await { run with
      phase := .readingHealth
      reply := none
      nonterminalByClient := indexClient run.loadedNonterminal
      ownedByClient := indexClient owned
      byBroker := indexBroker owned
      byTag := indexTags owned } }

/-- A journal call of the pass threw. -/
def journalThrew (b : Book) (run : ReconcileRun) (message : String) : ReconcileStretch :=
  match run.phase with
  | .persisting intent order =>
      let p := b.persistFailed order message
      mismatched p.book run intent (OrderError.message <| match p.result with
        | .error error => error
        | .ok _ => .other message)
  | .quarantining .. => { book := b, next := .failed message }
  | _ => { book := b.setPersistence .unhealthy, next := .failed message }

/-- Resume a pass with the journal's reply to its pending call. -/
def resume (b : Book) (run : ReconcileRun) (reply : JournalReply) :
    Option ReconcileStretch :=
  match run.phase, reply with
  | .loadingNonterminal, .loaded rows =>
      some { book := b
             next := .await { run with
              phase := .loadingOwned, reply := none, loadedNonterminal := rows } }
  | .loadingOwned, .loaded rows => some (loadedOwned b run rows)
  | .persisting intent order, .updated result =>
      let p := b.persisted intent order result
      some { persistedDone p.book run intent p.result with violated := p.violated }
  | .quarantining intent rest, .updated result =>
      some (quarantineDone b run intent rest result)
  | _, .threw message => some (journalThrew b run message)
  | _, _ => none

end ReconcileRun

/-- The broker's answers to a pass. -/
inductive ReconcileAnswer where
  /-- `adapter.health`: authenticated, or nothing to say -/
  | health (authenticated : Option Bool)
  | orders (brokerOrders : List BrokerOrder)
  | positions (positions : List (SymbolKey × Int))
  | adopted (order : BrokerOrder)
  /-- `onReconciliationIssue` returned -/
  | reported
  | threw (message : String)
  deriving DecidableEq, Repr

namespace ReconcileRun

def setHealth (b : Book) (f : OrderManagerHealth → OrderManagerHealth) : Book :=
  { b with health := f b.health }

/-- Resume a pass with an answer that does not come from the journal. The reporting phase,
which ends the pass, is left to the manager. -/
def answered (w : World) (b : Book) (run : ReconcileRun) (answer : ReconcileAnswer) :
    Option ReconcileStretch :=
  match run.phase, answer with
  | .readingHealth, .health authenticated =>
      some
        { book := setHealth b fun h =>
            { h with brokerAuth := if authenticated.getD true then .healthy else .unhealthy }
          next := .await { run with phase := .listingOrders } }
  | .listingOrders, .orders orders =>
      some
        { book := setHealth b fun h => { h with brokerOrdersApi := .healthy }
          next := .await { run with phase := .listingPositions, brokerOrders := orders } }
  | .listingPositions, .positions positions =>
      let b := setHealth b fun h => { h with brokerPositionsApi := .healthy }
      some (scanOrders b { run with positions := positions } run.brokerOrders)
  | .adopting intent _, .adopted order =>
      some
        { book := b.beginPersist w
          next := .await { run with phase := .persisting intent order, reply := none } }
  | .adopting intent _, .threw message => some (mismatched b run intent message)
  | .readingHealth, .threw message => some { book := b, next := .failed message }
  | .listingOrders, .threw message =>
      some
        { book := setHealth b fun h => { h with brokerOrdersApi := .unhealthy }
          next := .failed message }
  | .listingPositions, .threw message =>
      some
        { book := setHealth b fun h => { h with brokerPositionsApi := .unhealthy }
          next := .failed message }
  | _, _ => none

/-- The signed fills of the intents a pass holds on a symbol. -/
def intentNet (intents : List BoxOrderIntent) (symbol : SymbolKey) : Int :=
  ((intents.filter (·.symbol = symbol)).map BoxOrderIntent.signedFill).sum

/-- `attributedBoxPositions.set` for every symbol an intent of the pass is on. -/
def attributeOwned (intents : List BoxOrderIntent) (b : Book) : Book :=
  ((intents.map BoxOrderIntent.symbol).foldl (fun b symbol =>
    { b with attributedBoxPositions :=
        b.attributedBoxPositions.set symbol (intentNet intents symbol) }) b).recalculateGross

/-- The symbols whose attributed and broker positions disagree, with both. -/
def positionMismatches (run : ReconcileRun) (b : Book) : List (SymbolKey × Int × Int) :=
  let actual := fun symbol =>
    ((run.positions.reverse.find? (·.1 = symbol)).map Prod.snd).getD 0
  let symbols := (b.attributedBoxPositions.keys ++ run.positions.map Prod.fst).eraseDups
  let owned := run.ownedByClient.values.map BoxOrderIntent.symbol
  (symbols.map fun symbol => (symbol, b.net symbol, actual symbol)).filter
    fun (symbol, expected, actual) => expected ≠ actual && (expected ≠ 0 || symbol ∈ owned)

/-- The synchronous end of a pass: reservations on the first one, positions, mismatches,
and the verdict on the manager's health. -/
def rebuild (w : World) (b : Book) (run : ReconcileRun) : Book :=
  let nonterminal := run.nonterminalByClient.values
  let b := if b.lastReconciledAt.isNone then b.rebuildReservations nonterminal else b
  let b := attributeOwned run.ownedByClient.values b
  let mismatches := run.positionMismatches b
  let b := mismatches.foldl (fun b (symbol, expected, actual) =>
    ({ b with recoveryActive := true } : Book).trip <|
      s!"broker-position mismatch for attributed Box symbol {symbol}: " ++
        s!"expected {expected}, actual {actual}") b
  let unknownOrders := (nonterminal.filter fun i => isReconcileState i.state).length
  { b with
    unknownOrders := unknownOrders
    lastReconciledAt := some w.now
    health := { b.health with
      reconciliation := .idle
      reconciliationComplete := b.risk.seedHealth = .healthy &&
        run.missingAtBroker.isEmpty && run.identityMismatchSymbols.isEmpty &&
        mismatches.isEmpty && run.ownedLookingOrphans = 0 && unknownOrders = 0 } }

end ReconcileRun

namespace OrderManager

/-- The `catch` of `performReconcile`. -/
def reconcileFailed (cfg : Config) (m : OrderManager) (message : String) : OrderManager :=
  let unhealthy := fun (h : HealthState) =>
    if cfg.mode = .live && h = .unknown then HealthState.unhealthy else h
  let health := { m.book.health with
    reconciliation := .failed
    reconciliationComplete := false
    brokerOrdersApi := unhealthy m.book.health.brokerOrdersApi
    brokerPositionsApi := unhealthy m.book.health.brokerPositionsApi }
  { m with
    book := ({ m.book with health := health } : Book).trip s!"reconciliation failed: {message}"
    reconcileRun := none }

/-- The end of a synchronous block of the pass in flight. -/
def commitReconcile (cfg : Config) (w : World) (m : OrderManager) (s : ReconcileStretch) :
    OrderManager :=
  let m := { m with book := s.book }
  let m := if s.violated then m.reconcile cfg w else m
  match s.next with
  | .await run => { m with reconcileRun := some run }
  | .failed message => m.reconcileFailed cfg message
  | .rebuild run =>
      { m with
        book := run.rebuild w m.book
        reconcileRun := some { run with phase := .reporting, reply := none } }

/-- `onReconciliationIssue` settled, and with it the pass. -/
def reported (cfg : Config) (m : OrderManager) : ReconcileAnswer → Option OrderManager
  | .reported => some { m with reconcileRun := none }
  | .threw message => some (m.reconcileFailed cfg message)
  | _ => none

end OrderManager

end Strikedge.Orders
