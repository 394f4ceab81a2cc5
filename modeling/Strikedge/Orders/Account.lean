import Strikedge.Orders.Legs

/-!
# What leaves the account alone

The account is what the books say about exposure: the attributed positions, the
reservations and the orders that are active. Most of the manager only moves health,
counters and the breaker around it. `SameAccount` says that a part of the code is of that
kind; what is left are reserving, releasing, attributing a fill and the rebuild.
-/

namespace Strikedge.Orders

/-- Two books with the same account. -/
structure SameAccount (b b' : Book) : Prop where
  positions : b'.attributedBoxPositions = b.attributedBoxPositions
  gross : b'.grossOpenLegQuantity = b.grossOpenLegQuantity
  lastReconciledAt : b'.lastReconciledAt = b.lastReconciledAt
  active : b'.activeClientIds = b.activeClientIds
  reservations : b'.reservations = b.reservations
  reservedEntry : b'.reservedEntryQuantity = b.reservedEntryQuantity
  reductions : b'.reductionReservations = b.reductionReservations
  bySymbol : b'.reservedReductionsBySymbol = b.reservedReductionsBySymbol
  reservedReduction : b'.reservedReductionQuantity = b.reservedReductionQuantity

namespace SameAccount

variable {b b' b'' : Book}

theorem refl (b : Book) : SameAccount b b := ⟨rfl, rfl, rfl, rfl, rfl, rfl, rfl, rfl, rfl⟩

theorem trans (h : SameAccount b b') (h' : SameAccount b' b'') : SameAccount b b'' where
  positions := h'.positions.trans h.positions
  gross := h'.gross.trans h.gross
  lastReconciledAt := h'.lastReconciledAt.trans h.lastReconciledAt
  active := h'.active.trans h.active
  reservations := h'.reservations.trans h.reservations
  reservedEntry := h'.reservedEntry.trans h.reservedEntry
  reductions := h'.reductions.trans h.reductions
  bySymbol := h'.bySymbol.trans h.bySymbol
  reservedReduction := h'.reservedReduction.trans h.reservedReduction

theorem net (h : SameAccount b b') (symbol : SymbolKey) : b'.net symbol = b.net symbol := by
  rw [Book.net, Book.net, h.positions]

theorem trip (b : Book) (reason : String) : SameAccount b (b.trip reason) := by
  rw [Book.trip]
  split
  · exact refl b
  · exact ⟨rfl, rfl, rfl, rfl, rfl, rfl, rfl, rfl, rfl⟩

theorem tripIf (b : Book) (condition : Bool) (reason : String) :
    SameAccount b (b.tripIf condition reason) := by
  rw [Book.tripIf]
  split
  · exact trip b reason
  · exact refl b

theorem setPersistence (b : Book) (h : HealthState) : SameAccount b (b.setPersistence h) :=
  ⟨rfl, rfl, rfl, rfl, rfl, rfl, rfl, rfl, rfl⟩

theorem setRisk (b : Book) (risk : DailyRisk) : SameAccount b { b with risk := risk } :=
  ⟨rfl, rfl, rfl, rfl, rfl, rfl, rfl, rfl, rfl⟩

theorem setHealth (b : Book) (health : OrderManagerHealth) :
    SameAccount b { b with health := health } :=
  ⟨rfl, rfl, rfl, rfl, rfl, rfl, rfl, rfl, rfl⟩

theorem setUnknown (b : Book) (n : Nat) : SameAccount b { b with unknownOrders := n } :=
  ⟨rfl, rfl, rfl, rfl, rfl, rfl, rfl, rfl, rfl⟩

theorem recover (b : Book) : SameAccount b { b with recoveryActive := true } :=
  ⟨rfl, rfl, rfl, rfl, rfl, rfl, rfl, rfl, rfl⟩

theorem know (b : Book) (i : BoxOrderIntent) : SameAccount b (b.know i) :=
  ⟨rfl, rfl, rfl, rfl, rfl, rfl, rfl, rfl, rfl⟩

theorem knowAll (intents : List BoxOrderIntent) (b : Book) :
    SameAccount b (intents.foldl Book.know b) := by
  induction intents generalizing b with
  | nil => exact refl b
  | cons i rest ih => exact (know b i).trans (ih _)

theorem noteFailure (cfg : Config) (b : Book) (reason : String) :
    SameAccount b (b.noteFailure cfg reason) :=
  (setRisk b _).trans (tripIf _ _ _)

theorem evaluateLimits (cfg : Config) (b : Book) : SameAccount b (b.evaluateLimits cfg) :=
  ((((tripIf b _ _).trans (tripIf _ _ _)).trans (tripIf _ _ _)).trans (tripIf _ _ _)).trans
    (tripIf _ _ _)

theorem noteBrokerRejection (cfg : Config) (b : Book) :
    SameAccount b (b.noteBrokerRejection cfg) :=
  ((setRisk b _).trans (noteFailure cfg _ _)).trans (evaluateLimits cfg _)

theorem rollTradingDay (cfg : Config) (w : World) (b : Book) :
    SameAccount b (b.rollTradingDay cfg w) := by
  rw [Book.rollTradingDay]
  split
  · exact refl b
  · exact ⟨rfl, rfl, rfl, rfl, rfl, rfl, rfl, rfl, rfl⟩

theorem canEnter (cfg : Config) (w : World) (b : Book) (request : Option BrokerOrderRequest) :
    SameAccount b (b.canEnter cfg w request).1 :=
  rollTradingDay cfg w b

theorem invariantViolation (b : Book) (reason : String) :
    SameAccount b (b.invariantViolation reason) :=
  (recover b).trans (trip _ _)

theorem beginPersist (w : World) (b : Book) : SameAccount b (b.beginPersist w) := by
  rw [Book.beginPersist]
  split
  · exact refl b
  · exact trip b _

theorem persistFailed (b : Book) (order : BrokerOrder) (message : String) :
    SameAccount b (b.persistFailed order message).book := by
  simp only [Book.persistFailed]
  split
  · exact (setPersistence b _).trans (trip _ _)
  · exact setPersistence b _

theorem transitioned (b : Book) (intent : BoxOrderIntent) (state : BoxOrderIntentState)
    (result : UpdateResult) : SameAccount b (b.transitioned intent state result).1 := by
  cases result with
  | missing => exact refl b
  | refused row => exact (tripIf b _ _).trans (know _ _)
  | applied row previous current => exact know b row

theorem evaluateEntryGuard (cfg : Config) (w : World) (b : Book)
    (request : BrokerOrderRequest) (stage : LiveEntryGuardStage) (gaps : SendBoundaryGaps) :
    SameAccount b (b.evaluateEntryGuard cfg w request stage gaps).1 := by
  simp only [Book.evaluateEntryGuard]
  split
  · exact refl b
  · exact canEnter cfg w b _

theorem guardBlockReason (cfg : Config) (w : World) (b : Book) (action : Action)
    (stage : LiveEntryGuardStage) (gaps : SendBoundaryGaps) :
    SameAccount b (b.guardBlockReason cfg w action stage gaps).1 := by
  rw [Book.guardBlockReason]
  cases action.leg with
  | none => exact refl b
  | some leg => exact evaluateEntryGuard cfg w b leg.1 stage gaps

theorem sendBlockReason (cfg : Config) (w : World) (b : Book) (action : Action)
    (stage : LiveEntryGuardStage) (gaps : SendBoundaryGaps) :
    SameAccount b (b.sendBlockReason cfg w action stage gaps).1 := by
  rw [Book.sendBlockReason]
  split
  · exact refl b
  · exact guardBlockReason cfg w b action stage gaps

theorem queuedActionBlockReason (cfg : Config) (w : World) (b : Book) (action : Action) :
    SameAccount b (OrderManager.queuedActionBlockReason cfg w b action).1 := by
  cases action with
  | cancel intent => exact refl b
  | submit request capital entry =>
      simp only [OrderManager.queuedActionBlockReason]
      split
      · have hroll := canEnter cfg w b none
        split
        · rename_i h
          rwa [h] at hroll
        · rename_i h
          rw [h] at hroll
          split <;> exact hroll
      · split
        · exact refl b
        · split
          · exact refl b
          · split <;> exact refl b

theorem submitBlockReason (cfg : Config) (w : World) (b : Book) (action : Action)
    (request : BrokerOrderRequest) :
    SameAccount b (OrderManager.submitBlockReason cfg w b action request).1 := by
  have hguard := guardBlockReason cfg w b action .preEnqueue {}
  rw [OrderManager.submitBlockReason]
  split
  · rename_i h
    rwa [h] at hguard
  · rename_i b' h
    rw [h] at hguard
    have hopen : SameAccount b' (if request.purpose = .entry then b'.canEnter cfg w (some request)
        else (b', b'.canManageExposure)).1 := by
      split
      · exact canEnter cfg w b' _
      · exact refl b'
    have hall := hguard.trans hopen
    generalize (if request.purpose = .entry then b'.canEnter cfg w (some request)
      else (b', b'.canManageExposure)) = rolled at hall ⊢
    obtain ⟨rolled, opened⟩ := rolled
    dsimp only
    split
    · exact hall
    · split
      · exact hall
      · split <;> exact hall

end SameAccount

namespace Task

open SameAccount

variable {cfg : Config} {w : World} {b : Book} {t : Task} {s : Stretch}

theorem account_failed (error : OrderError) : SameAccount b (t.failed cfg b error).book :=
  (setPersistence b _).trans (noteFailure cfg _ _)

theorem account_threw (error : OrderError) : SameAccount b (t.threw cfg b error).book := by
  rw [threw]
  split
  · exact account_failed error
  · exact .refl b

theorem account_created (row : BoxOrderIntent) :
    SameAccount b (t.created cfg w b row).book := by
  have hknown : SameAccount b ((b.know row).setPersistence .healthy) :=
    (know b row).trans (setPersistence _ _)
  simp only [created]
  split
  · exact hknown
  · have hguard := sendBlockReason cfg w ((b.know row).setPersistence .healthy) t.action
      .dequeue {}
    split
    · rename_i h
      rw [h] at hguard
      exact hknown.trans hguard
    · rename_i h
      rw [h] at hguard
      exact hknown.trans hguard

theorem account_existingFetched (answer : Except OrderError (Option BrokerOrder)) :
    SameAccount b (t.existingFetched cfg w b answer).book := by
  cases answer with
  | error error => exact account_failed error
  | ok found =>
      cases found with
      | none => exact account_failed _
      | some order => exact beginPersist w b

theorem account_ownerFetched (current : BoxOrderIntent)
    (answer : Except OrderError (Option BrokerOrder)) :
    SameAccount b (t.ownerFetched cfg w b current answer).book := by
  cases answer with
  | error error => exact account_failed error
  | ok found =>
      cases found with
      | none =>
          simp only [ownerFetched]
          split
          · exact .refl b
          · exact setUnknown b _
      | some order => exact beginPersist w b

theorem account_submittingDone (result : UpdateResult) :
    SameAccount b (t.submittingDone cfg w b result).book := by
  have htransition := transitioned b t.intent .submitting result
  simp only [submittingDone]
  split
  · rename_i h
    rw [h] at htransition
    exact htransition.trans (account_failed _)
  · rename_i h
    rw [h] at htransition
    exact htransition.trans (know _ _)
  · rename_i b' row h
    rw [h] at htransition
    split
    · exact htransition.trans (account_failed _)
    · split
      · exact htransition
      · have hguard := guardBlockReason cfg w b' t.action .postPersist {}
        split
        · rename_i hg
          rw [hg] at hguard
          exact htransition.trans hguard
        · rename_i hg
          rw [hg] at hguard
          exact htransition.trans hguard

theorem account_refusedDone (stage : LiveEntryGuardStage) (reason : String)
    (result : UpdateResult) : SameAccount b (t.refusedDone cfg b stage reason result).book := by
  have htransition := transitioned b t.intent .rejected result
  simp only [refusedDone]
  split
  · rename_i h
    rw [h] at htransition
    exact htransition.trans (account_failed _)
  · rename_i h
    rw [h] at htransition
    split
    · exact htransition
    · exact htransition.trans (know _ _)

theorem account_ambiguousDone (error : OrderError) :
    SameAccount b (t.ambiguousDone cfg b error).book :=
  (setUnknown b _).trans (noteFailure cfg _ _)

theorem account_snapshotDone (order : BrokerOrder) :
    SameAccount b (t.snapshotDone cfg b order).book := by
  simp only [snapshotDone]
  split
  · exact (noteFailure cfg b _).trans (evaluateLimits cfg _)
  · split
    · exact noteBrokerRejection cfg b
    · exact (setRisk b _).trans (evaluateLimits cfg _)
    · exact evaluateLimits cfg b

theorem account_persistedAt (site : PersistSite) (order : BrokerOrder) :
    SameAccount b (t.persistedAt cfg b order site).book := by
  cases site with
  | existing => exact .refl b
  | snapshot => exact account_snapshotDone order
  | rejected => exact noteBrokerRejection cfg b
  | ambiguous message => exact account_ambiguousDone _
  | owner current => exact .refl b
  | cancel => exact .refl b

theorem account_persistedDone (site : PersistSite) (order : BrokerOrder)
    (p : Book.Persisted) : SameAccount p.book (t.persistedDone cfg site order p).book := by
  rw [persistedDone]
  split
  · exact account_threw _
  · exact account_persistedAt _ _

theorem account_quarantineDone (error : OrderError) (result : UpdateResult) :
    SameAccount b (t.quarantineDone cfg b error result).book := by
  have htransition := transitioned b t.intent .reconciliationRequired result
  simp only [quarantineDone]
  split
  · rename_i h
    rw [h] at htransition
    exact htransition.trans (account_failed _)
  · rename_i h
    rw [h] at htransition
    exact htransition.trans (account_ambiguousDone _)

theorem account_submitted (answer : Except OrderError BrokerOrder) :
    SameAccount b (t.submitted w b answer).book := by
  rw [submitted.eq_def]
  split
  · exact beginPersist w b
  · exact .refl b
  · exact beginPersist w b
  · exact beginPersist w b
  · exact .refl b

theorem account_cancelled (answer : Except OrderError (Option BrokerOrder)) :
    SameAccount b (t.cancelled w b answer).book := by
  rw [cancelled.eq_def]
  split
  · exact .refl b
  · exact .refl b
  · exact beginPersist w b

theorem account_journalThrew (message : String) :
    SameAccount b (t.journalThrew cfg b message).book := by
  rw [journalThrew]
  split
  · exact (persistFailed b _ _).trans (account_persistedDone _ _ _)
  · exact account_threw _

/-- The books once the write a reply acknowledges has been accounted for. -/
def settleWrite (b : Book) (t : Task) (reply : JournalReply) : Book :=
  match t.phase, reply with
  | .persisting site order, .updated result =>
      (b.persisted (site.intentOf t.intent) order result).book
  | _, _ => b

/-- Apart from a persisted snapshot, no reply changes the account. -/
theorem account_resume {reply : JournalReply} (h : t.resume cfg w b reply = some s) :
    SameAccount (t.settleWrite b reply) s.book := by
  rw [resume.eq_def] at h
  split at h
  · rename_i hp
    simp only [settleWrite, hp]
    exact Option.some.inj h ▸ account_created _
  · rename_i hp
    simp only [settleWrite, hp]
    exact Option.some.inj h ▸ account_submittingDone _
  · rename_i hp
    simp only [settleWrite, hp]
    exact Option.some.inj h ▸ account_refusedDone _ _ _
  · rename_i hp
    simp only [settleWrite, hp]
    exact Option.some.inj h ▸ account_persistedDone _ _ _
  · rename_i hp
    simp only [settleWrite, hp]
    exact Option.some.inj h ▸ account_quarantineDone _ _
  · have hsame : ∀ message, t.settleWrite b (.threw message) = b := by
      intro message
      simp [settleWrite]
    rw [hsame]
    exact Option.some.inj h ▸ account_journalThrew _
  · cases h

theorem account_fetched {answer : Except OrderError (Option BrokerOrder)}
    (h : t.fetched cfg w b answer = some s) : SameAccount b s.book := by
  rw [fetched] at h
  split at h
  · exact Option.some.inj h ▸ account_existingFetched _
  · exact Option.some.inj h ▸ account_ownerFetched _ _
  · cases h

end Task

namespace ReconcileRun

open SameAccount

variable {w : World} {b : Book} {run : ReconcileRun} {s : ReconcileStretch}

theorem account_checkMissing (intents : List BoxOrderIntent) :
    SameAccount b (checkMissing b run intents).book := by
  induction intents generalizing b run with
  | nil => exact .refl b
  | cons intent rest ih =>
      simp only [checkMissing]
      split
      · exact ih
      · split
        · exact .refl b
        · exact ((recover b).trans (trip _ _)).trans ih

theorem account_scanOrders (orders : List BrokerOrder) :
    SameAccount b (scanOrders b run orders).book := by
  induction orders generalizing b run with
  | nil => exact account_checkMissing _
  | cons order rest ih =>
      simp only [scanOrders]
      split
      · split
        · exact ((recover b).trans (trip _ _)).trans ih
        · exact ih
      · split
        · exact ((recover b).trans (trip _ _)).trans ih
        · exact .refl b

theorem account_mismatched (intent : BoxOrderIntent) (message : String) :
    SameAccount b (mismatched b run intent message).book :=
  ((recover b).trans (trip _ _)).trans (account_scanOrders _)

theorem account_persistedDone (intent : BoxOrderIntent)
    (result : Except OrderError BoxOrderIntent) :
    SameAccount b (persistedDone b run intent result).book := by
  cases result with
  | error error => exact account_mismatched intent _
  | ok updated => exact account_scanOrders _

theorem account_quarantineDone (intent : BoxOrderIntent) (rest : List BoxOrderIntent)
    (result : UpdateResult) :
    SameAccount b (quarantineDone b run intent rest result).book := by
  have htransition := transitioned b intent .reconciliationRequired result
  rw [quarantineDone]
  split
  · rename_i h
    rwa [h] at htransition
  · rename_i h
    rw [h] at htransition
    exact htransition.trans (((recover _).trans (trip _ _)).trans (account_checkMissing _))

theorem account_journalThrew (message : String) :
    SameAccount b (journalThrew b run message).book := by
  rw [journalThrew]
  split
  · exact (persistFailed b _ _).trans (account_mismatched _ _)
  · exact .refl b
  · exact SameAccount.setPersistence b _

/-- The books once the write a reply acknowledges has been accounted for. -/
def settleWrite (b : Book) (run : ReconcileRun) (reply : JournalReply) : Book :=
  match run.phase, reply with
  | .persisting intent order, .updated result => (b.persisted intent order result).book
  | _, _ => b

/-- Apart from a persisted snapshot, no reply changes the account. -/
theorem account_resume {reply : JournalReply} (h : run.resume b reply = some s) :
    SameAccount (run.settleWrite b reply) s.book := by
  rw [resume.eq_def] at h
  split at h
  · rename_i hp
    simp only [settleWrite, hp]
    exact Option.some.inj h ▸ .refl b
  · rename_i hp
    simp only [settleWrite, hp]
    exact Option.some.inj h ▸ (SameAccount.setPersistence b _).trans (knowAll _ _)
  · rename_i hp
    simp only [settleWrite, hp]
    exact Option.some.inj h ▸ account_persistedDone _ _
  · rename_i hp
    simp only [settleWrite, hp]
    exact Option.some.inj h ▸ account_quarantineDone _ _ _
  · have hsame : ∀ message, run.settleWrite b (.threw message) = b := by
      intro message
      simp [settleWrite]
    rw [hsame]
    exact Option.some.inj h ▸ account_journalThrew _
  · cases h

/-- No answer of the broker changes the account. -/
theorem account_answered {answer : ReconcileAnswer} (h : run.answered w b answer = some s) :
    SameAccount b s.book := by
  rw [answered.eq_def] at h
  split at h
  · exact Option.some.inj h ▸ SameAccount.setHealth b _
  · exact Option.some.inj h ▸ SameAccount.setHealth b _
  · exact Option.some.inj h ▸ (SameAccount.setHealth b _).trans (account_scanOrders _)
  · exact Option.some.inj h ▸ beginPersist w b
  · exact Option.some.inj h ▸ account_mismatched _ _
  · exact Option.some.inj h ▸ .refl b
  · exact Option.some.inj h ▸ SameAccount.setHealth b _
  · exact Option.some.inj h ▸ SameAccount.setHealth b _
  · cases h

end ReconcileRun

namespace SameAccount

open OrderManager

theorem reconcile (cfg : Config) (w : World) (m : OrderManager) :
    SameAccount m.book (m.reconcile cfg w).book := by
  have hday : SameAccount m.book
      (if (m.book.rollTradingDay cfg w).risk.seedHealth = .healthy then
        m.book.rollTradingDay cfg w
      else { m.book.rollTradingDay cfg w with
        risk := (m.book.rollTradingDay cfg w).risk.refreshDailyRiskSeed
          cfg.hasDailyRiskLoader (m.book.rollTradingDay cfg w).disposed }) := by
    split
    · exact rollTradingDay cfg w m.book
    · exact (rollTradingDay cfg w m.book).trans (setRisk _ _)
  simp only [OrderManager.reconcile]
  split
  · exact hday
  · exact hday.trans (setHealth _ _)

theorem absorb (cfg : Config) (w : World) (m : OrderManager) (s : Stretch) :
    SameAccount s.book (m.absorb cfg w s).book := by
  have hbook : SameAccount s.book (if s.violated then { m with book := s.book }.reconcile cfg w
      else { m with book := s.book }).book := by
    split
    · exact reconcile cfg w { m with book := s.book }
    · exact refl s.book
  simp only [OrderManager.absorb]
  cases s.outcome with
  | none => exact hbook
  | some result => exact hbook

theorem reconcileFailed (cfg : Config) (m : OrderManager) (message : String) :
    SameAccount m.book (m.reconcileFailed cfg message).book :=
  (setHealth m.book _).trans (trip _ _)

theorem changeRisk (cfg : Config) (m : OrderManager) (risk : DailyRisk) :
    SameAccount m.book (m.changeRisk cfg risk).book :=
  (setRisk m.book risk).trans (evaluateLimits cfg _)

theorem setExposure (cfg : Config) (m : OrderManager) (openBoxes residualLegs : Option Nat) :
    SameAccount m.book (m.setExposure cfg openBoxes residualLegs).book :=
  (show SameAccount m.book { m.book with
      openBoxes := openBoxes.getD m.book.openBoxes
      residualLegs := residualLegs.getD m.book.residualLegs } from
    ⟨rfl, rfl, rfl, rfl, rfl, rfl, rfl, rfl, rfl⟩).trans (evaluateLimits cfg _)

end SameAccount

end Strikedge.Orders
