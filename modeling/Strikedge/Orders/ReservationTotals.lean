import Strikedge.Orders.Exposure

/-!
# The reservation totals

Admission reads three totals that the manager keeps beside its reservations: the entry
quantity, the reduction quantity and the reduction quantity of each symbol. A total that
fell below what is reserved would let an order through that another one has already been
promised the room of.
-/

namespace Strikedge.Orders

open Machine OrderManager

namespace Book

/-- The quantity the entry reservations add up to. -/
def entriesHeld (b : Book) : Nat := b.reservations.tally fun _ quantity => quantity

/-- The quantity the reduction reservations add up to. -/
def reductionsHeld (b : Book) : Nat := b.reductionReservations.tally fun _ r => r.quantity

/-- The quantity the reduction reservations of a symbol add up to. -/
def reductionsHeldOn (b : Book) (symbol : SymbolKey) : Nat :=
  b.reductionReservations.tally fun _ r => if r.symbol = symbol then r.quantity else 0

/-- No total is below the reservations it stands for. -/
structure ReservationsCounted (b : Book) : Prop where
  entries : b.entriesHeld ≤ b.reservedEntryQuantity
  reductions : b.reductionsHeld ≤ b.reservedReductionQuantity
  bySymbol : ∀ symbol, b.reductionsHeldOn symbol ≤ b.reservedReduction symbol

end Book

/-- Two books with the same reservations and totals. -/
structure SameReservations (b b' : Book) : Prop where
  reservations : b'.reservations = b.reservations
  reservedEntry : b'.reservedEntryQuantity = b.reservedEntryQuantity
  reductions : b'.reductionReservations = b.reductionReservations
  bySymbol : b'.reservedReductionsBySymbol = b.reservedReductionsBySymbol
  reservedReduction : b'.reservedReductionQuantity = b.reservedReductionQuantity

section Same

variable {b b' b'' : Book}

theorem SameAccount.sameReservations (h : SameAccount b b') : SameReservations b b' :=
  ⟨h.reservations, h.reservedEntry, h.reductions, h.bySymbol, h.reservedReduction⟩

theorem SameReservations.trans (h : SameReservations b b') (h' : SameReservations b' b'') :
    SameReservations b b'' where
  reservations := h'.reservations.trans h.reservations
  reservedEntry := h'.reservedEntry.trans h.reservedEntry
  reductions := h'.reductions.trans h.reductions
  bySymbol := h'.bySymbol.trans h.bySymbol
  reservedReduction := h'.reservedReduction.trans h.reservedReduction

theorem SameReservations.fold {α : Type} {f : Book → α → Book}
    (h : ∀ b x, SameReservations b (f b x)) (xs : List α) (b : Book) :
    SameReservations b (xs.foldl f b) := by
  induction xs generalizing b with
  | nil => exact ⟨rfl, rfl, rfl, rfl, rfl⟩
  | cons x rest ih => exact (h b x).trans (ih _)

/-- The verdict of a pass is not about the reservations. -/
theorem SameReservations.judged (h : SameReservations b b') (unknown : Nat) (at' : Option Nat)
    (health : OrderManagerHealth) :
    SameReservations b
      { b' with unknownOrders := unknown, lastReconciledAt := at', health := health } :=
  h.trans ⟨rfl, rfl, rfl, rfl, rfl⟩

theorem Book.ReservationsCounted.same (h : b.ReservationsCounted)
    (hsame : SameReservations b b') : b'.ReservationsCounted := by
  refine ⟨?_, ?_, fun symbol => ?_⟩
  · rw [Book.entriesHeld, hsame.reservations, hsame.reservedEntry]
    exact h.entries
  · rw [Book.reductionsHeld, hsame.reductions, hsame.reservedReduction]
    exact h.reductions
  · rw [Book.reductionsHeldOn, hsame.reductions, Book.reservedReduction, hsame.bySymbol]
    exact h.bySymbol symbol

theorem Book.ReservationsCounted.account (h : b.ReservationsCounted) (hsame : SameAccount b b') :
    b'.ReservationsCounted := h.same hsame.sameReservations

end Same

/-- A purpose whose orders reduce a position. -/
def BoxOrderPurpose.Reduces (p : BoxOrderPurpose) : Prop :=
  p = .exit ∨ p = .emergencyResidual

section Totals

variable {b : Book} {id : ClientOrderId} {r : BrokerOrderRequest} {symbol : SymbolKey}

/-- The entry half of a release, which `releaseReservation` makes first. -/
theorem counted_releaseEntry (h : b.ReservationsCounted) (id : ClientOrderId) :
    ({ b with
      reservations := b.reservations.delete id
      reservedEntryQuantity := b.reservedEntryQuantity - (b.reservations.get? id).getD 0 } :
        Book).ReservationsCounted := by
  refine ⟨?_, h.reductions, h.bySymbol⟩
  have hdelete := OrderedMap.tally_delete (fun _ quantity => quantity) b.reservations id
  have hshare : b.reservations.share (fun _ quantity => quantity) id =
      (b.reservations.get? id).getD 0 := by
    cases hget : b.reservations.get? id with
    | none => rw [OrderedMap.share_of_none hget, Option.getD_none]
    | some quantity => rw [OrderedMap.share_of_some hget, Option.getD_some]
  have hentries : b.reservations.tally (fun _ quantity => quantity) ≤
      b.reservedEntryQuantity := h.entries
  show (b.reservations.delete id).tally (fun _ quantity => quantity) ≤
    b.reservedEntryQuantity - (b.reservations.get? id).getD 0
  omega

/-- What the reduction half takes out of the reservations it takes off both totals. -/
theorem counted_releaseReduction (h : b.ReservationsCounted) (id : ClientOrderId) :
    (b.releaseReduction id).ReservationsCounted := by
  rw [Book.releaseReduction]
  split
  · exact h
  · rename_i reduction hget
    refine ⟨h.entries, ?_, fun symbol => ?_⟩
    · have hdelete := OrderedMap.tally_delete (fun _ r => r.quantity) b.reductionReservations id
      rw [OrderedMap.share_of_some hget] at hdelete
      have hreductions : b.reductionReservations.tally (fun _ r => r.quantity) ≤
          b.reservedReductionQuantity := h.reductions
      show (b.reductionReservations.delete id).tally (fun _ r => r.quantity) ≤
        b.reservedReductionQuantity - reduction.quantity
      omega
    · have hdelete := OrderedMap.tally_delete
        (fun _ r => if r.symbol = symbol then r.quantity else 0) b.reductionReservations id
      rw [OrderedMap.share_of_some hget] at hdelete
      have hheld : b.reductionReservations.tally
          (fun _ r => if r.symbol = symbol then r.quantity else 0) ≤
            (b.reservedReductionsBySymbol.get? symbol).getD 0 := h.bySymbol symbol
      have htotal : ((if b.reservedReduction reduction.symbol - reduction.quantity = 0 then
          b.reservedReductionsBySymbol.delete reduction.symbol
          else b.reservedReductionsBySymbol.set reduction.symbol
            (b.reservedReduction reduction.symbol - reduction.quantity)).get? symbol).getD 0 =
          (b.reservedReductionsBySymbol.get? symbol).getD 0 -
            (if reduction.symbol = symbol then reduction.quantity else 0) := by
        rw [Book.reservedReduction]
        by_cases hsymbol : symbol = reduction.symbol
        · subst hsymbol
          split <;> simp [OrderedMap.get?_delete, OrderedMap.get?_set, *]
        · split <;> simp [OrderedMap.get?_delete, OrderedMap.get?_set, hsymbol, Ne.symm hsymbol]
      show (b.reductionReservations.delete id).tally
        (fun _ r => if r.symbol = symbol then r.quantity else 0) ≤ _
      rw [Book.reservedReduction, htotal]
      omega

theorem Book.ReservationsCounted.release (h : b.ReservationsCounted) (id : ClientOrderId) :
    (b.releaseReservation id).ReservationsCounted :=
  counted_releaseReduction (counted_releaseEntry h id) id

theorem reserve_entry (hentry : r.purpose = .entry) :
    b.reserve r =
      { b with
        reservations := b.reservations.set r.clientOrderId r.quantity
        reservedEntryQuantity := b.reservedEntryQuantity + r.quantity } := by
  rw [Book.reserve, hentry]

theorem reserve_reduction (hreduces : r.purpose.Reduces) :
    b.reserve r =
      { b with
        reductionReservations := b.reductionReservations.set r.clientOrderId
          { symbol := r.symbol, quantity := r.quantity }
        reservedReductionsBySymbol := b.reservedReductionsBySymbol.set r.symbol
          (b.reservedReduction r.symbol + r.quantity)
        reservedReductionQuantity := b.reservedReductionQuantity + r.quantity } := by
  obtain h | h := hreduces
  · rw [Book.reserve, h]
  · rw [Book.reserve, h]

theorem reservedReduction_reserve (hreduces : r.purpose.Reduces) (symbol : SymbolKey) :
    (b.reserve r).reservedReduction symbol =
      b.reservedReduction symbol + (if r.symbol = symbol then r.quantity else 0) := by
  rw [reserve_reduction hreduces, Book.reservedReduction, OrderedMap.get?_set]
  by_cases hsymbol : symbol = r.symbol
  · subst hsymbol
    rw [if_pos rfl, if_pos rfl, Option.getD_some]
  · have hother : ¬r.symbol = symbol := fun heq => hsymbol heq.symm
    rw [if_neg hsymbol, if_neg hother, Nat.add_zero]
    rfl

/-- A reservation counts what it adds; what it replaces stays counted. -/
theorem Book.ReservationsCounted.reserve (h : b.ReservationsCounted) (r : BrokerOrderRequest) :
    (b.reserve r).ReservationsCounted := by
  have hpurpose : r.purpose = .entry ∨ r.purpose.Reduces ∨ r.purpose = .protectiveCancel := by
    rw [BoxOrderPurpose.Reduces]
    cases r.purpose <;> simp
  obtain hentry | hreduces | hcancel := hpurpose
  · have hset := OrderedMap.tally_set (fun _ quantity => quantity) b.reservations
      r.clientOrderId r.quantity
    have hentries : b.reservations.tally (fun _ quantity => quantity) ≤
        b.reservedEntryQuantity := h.entries
    rw [reserve_entry hentry]
    refine ⟨?_, h.reductions, h.bySymbol⟩
    show (b.reservations.set r.clientOrderId r.quantity).tally (fun _ quantity => quantity) ≤
      b.reservedEntryQuantity + r.quantity
    omega
  · have hset := fun symbol => OrderedMap.tally_set
      (fun _ (x : ReductionReservation) => if x.symbol = symbol then x.quantity else 0)
      b.reductionReservations r.clientOrderId { symbol := r.symbol, quantity := r.quantity }
    have htally := OrderedMap.tally_set (fun _ (x : ReductionReservation) => x.quantity)
      b.reductionReservations r.clientOrderId { symbol := r.symbol, quantity := r.quantity }
    have hreductions : b.reductionReservations.tally (fun _ r => r.quantity) ≤
        b.reservedReductionQuantity := h.reductions
    have htotal := fun symbol => reservedReduction_reserve (b := b) hreduces symbol
    rw [reserve_reduction hreduces] at htotal ⊢
    refine ⟨h.entries, ?_, fun symbol => ?_⟩
    · dsimp only at htally
      show (b.reductionReservations.set _ _).tally (fun _ r => r.quantity) ≤
        b.reservedReductionQuantity + r.quantity
      omega
    · have hcounted := h.bySymbol symbol
      have hadded := hset symbol
      rw [htotal]
      rw [Book.reductionsHeldOn] at hcounted ⊢
      dsimp only at hadded ⊢
      omega
  · rwa [Book.reserve, hcancel]

theorem Book.ReservationsCounted.rebuild (b : Book) (rows : List BoxOrderIntent) :
    (b.rebuildReservations rows).ReservationsCounted := by
  have hfold : ∀ (rows : List BoxOrderIntent) (c : Book), c.ReservationsCounted →
      (rows.foldl Book.reserveRemaining c).ReservationsCounted := by
    intro rows
    induction rows with
    | nil => exact fun c hc => hc
    | cons row rest ih =>
      intro c hc
      apply ih
      rw [Book.reserveRemaining]
      dsimp only
      split
      · exact hc
      · exact hc.reserve _
  exact hfold rows _ ⟨Nat.le_refl 0, Nat.le_refl 0, fun _ => Nat.le_refl 0⟩

end Totals

/-- The action of a submission. -/
def submission (request : BrokerOrderRequest) (capital : Option EntryCapitalStamp)
    (entry : Option LiveEntryTransportGuard) : Action :=
  .submit request capital (if request.purpose = .entry then entry else none)

/-- The books in which an accepted submission reserves; none if it is refused. -/
def acceptedBook (cfg : Config) (w : World) (b : Book) (request : BrokerOrderRequest)
    (capital : Option EntryCapitalStamp) (entry : Option LiveEntryTransportGuard) :
    Option Book :=
  match submitBlockReason cfg w b (submission request capital entry) request with
  | (b, none) => some { b with activeClientIds := b.activeClientIds.insert request.clientOrderId }
  | (_, some _) => none

/-- The reservations of the manager are counted. -/
def OrderManager.Counted (m : OrderManager) : Prop := m.book.ReservationsCounted

section Steps

variable {cfg : Config} {m m' : OrderManager} {w : World} {i : TaskId}

theorem counted_freed (h : m.Counted) (id : ClientOrderId) :
    ((m.book.deactivate id).releaseReservation id).ReservationsCounted := by
  apply Book.ReservationsCounted.release
  exact h.same ⟨rfl, rfl, rfl, rfl, rfl⟩

theorem counted_block (h : m.Counted) (action : Action) (reason : String) :
    (m.block action reason).Counted := by
  cases action with
  | submit request capital entry => exact counted_freed h request.clientOrderId
  | cancel intent => exact h

theorem counted_pumpFrom (h : m.Counted) (w : World) (queue : List QueuedAction) :
    (OrderManager.pumpFrom cfg w queue m).Counted := by
  induction queue generalizing m with
  | nil => exact h
  | cons q rest ih =>
    rw [OrderManager.pumpFrom]
    split
    · exact h
    · split
      · exact h
      · have hguard := SameAccount.queuedActionBlockReason cfg w m.book q.action
        split
        · rename_i heq
          rw [heq] at hguard
          apply ih
          apply counted_block
          exact h.account hguard
        · rename_i heq
          rw [heq] at hguard
          apply ih
          exact h.account hguard

theorem counted_enqueue (h : m.Counted) (w : World) (action : Action) :
    (m.enqueue cfg w action).Counted := by
  rw [OrderManager.enqueue, OrderManager.pump]
  apply counted_pumpFrom
  exact h

theorem register_book (cfg : Config) (m : OrderManager) (action : Action) :
    (m.register cfg action).book = m.book := by
  rw [OrderManager.register]
  split <;> rfl

theorem sameReservations_accepted {b b' : Book} {request : BrokerOrderRequest}
    {capital : Option EntryCapitalStamp} {entry : Option LiveEntryTransportGuard}
    (h : acceptedBook cfg w b request capital entry = some b') : SameReservations b b' := by
  have hguard := (SameAccount.submitBlockReason cfg w b (submission request capital entry)
    request).sameReservations
  rw [acceptedBook] at h
  split at h
  · rename_i heq
    rw [heq] at hguard
    exact Option.some.inj h ▸ hguard.trans ⟨rfl, rfl, rfl, rfl, rfl⟩
  · cases h

/-- An accepted submission reserves in the accepted books, and then only the pump runs. -/
theorem submit_accepted {b : Book} {request : BrokerOrderRequest}
    {capital : Option EntryCapitalStamp} {entry : Option LiveEntryTransportGuard}
    (h : acceptedBook cfg w m.book request capital entry = some b) :
    m.submit cfg w request capital entry =
      OrderManager.enqueue cfg w
        { m.register cfg (submission request capital entry) with book := b.reserve request }
        (submission request capital entry) := by
  rw [OrderManager.submit]
  dsimp only
  rw [← submission, register_book cfg m (submission request capital entry)]
  rw [acceptedBook] at h
  split at h
  · rename_i heq
    rw [heq, ← Option.some.inj h]
  · cases h

/-- A refused submission is rejected with the objection to it. -/
theorem submit_refused {request : BrokerOrderRequest} {capital : Option EntryCapitalStamp}
    {entry : Option LiveEntryTransportGuard}
    (h : acceptedBook cfg w m.book request capital entry = none) :
    ∃ b error, OrderManager.submitBlockReason cfg w m.book (submission request capital entry)
        request = (b, some error) ∧
      m.submit cfg w request capital entry =
        OrderManager.releaseOnReject cfg
          { m.register cfg (submission request capital entry) with book := b }
          (submission request capital entry) error := by
  rw [acceptedBook] at h
  split at h
  · cases h
  · rename_i b error heq
    refine ⟨b, error, heq, ?_⟩
    rw [OrderManager.submit]
    dsimp only
    rw [← submission, register_book cfg m (submission request capital entry), heq]

theorem counted_submit (h : m.Counted) (w : World) (request : BrokerOrderRequest)
    (capital : Option EntryCapitalStamp) (entry : Option LiveEntryTransportGuard) :
    (m.submit cfg w request capital entry).Counted := by
  cases haccepted : acceptedBook cfg w m.book request capital entry with
  | some b =>
      rw [submit_accepted haccepted]
      apply counted_enqueue
      exact (h.same (sameReservations_accepted haccepted)).reserve request
  | none =>
      obtain ⟨b, error, hobjection, hsubmit⟩ := submit_refused haccepted
      have hguard := SameAccount.submitBlockReason cfg w m.book
        (submission request capital entry) request
      rw [hobjection] at hguard
      rw [hsubmit, OrderManager.releaseOnReject]
      split
      · exact h.account hguard
      · exact h.account hguard

theorem counted_reconcile (h : m.Counted) (w : World) : (m.reconcile cfg w).Counted :=
  h.account (SameAccount.reconcile cfg w m)

/-- The end of a synchronous block whose books are counted. -/
theorem counted_commit {s : Stretch} (hbook : s.book.ReservationsCounted) :
    (m.commit cfg w i s).Counted := by
  have habsorbed : (m.absorb cfg w s).Counted :=
    Book.ReservationsCounted.account hbook (SameAccount.absorb cfg w m s)
  rw [OrderManager.commit]
  generalize m.absorb cfg w s = n at habsorbed
  cases s.next with
  | await phase => exact habsorbed
  | barrier =>
    show ((n.suspend i s.task .turn).awaitTurn i s.task.action).Counted
    rw [OrderManager.awaitTurn]
    split
    · exact habsorbed
    · exact habsorbed
  | settle =>
    show ((n.suspend i s.task .settled).settleRank cfg s.task).Counted
    rw [OrderManager.settleRank]
    split
    · exact habsorbed
    · exact habsorbed

/-- What `persistOrder` does to the reservations is to release a terminal order. -/
theorem counted_persisted {b : Book} (hb : b.ReservationsCounted) (intent : BoxOrderIntent)
    (order : BrokerOrder) (result : UpdateResult) :
    (b.persisted intent order result).book.ReservationsCounted := by
  rw [Book.persisted]
  split
  · exact hb.account (SameAccount.persistFailed b order _)
  · rename_i updated _
    have hattributed : ∀ fill : Book × Bool, SameReservations b fill.1 →
        ((if isBrokerOrderTerminal order.state then
          (fill.1.know updated).releaseReservation updated.clientOrderId
          else fill.1.know updated).setPersistence .healthy).ReservationsCounted := by
      intro fill hfill
      have hknown : (fill.1.know updated).ReservationsCounted :=
        (hb.same hfill).account (SameAccount.know fill.1 updated)
      split
      · exact (hknown.release _).same ⟨rfl, rfl, rfl, rfl, rfl⟩
      · exact hknown.same ⟨rfl, rfl, rfl, rfl, rfl⟩
    apply hattributed
    split
    · split
      · exact ⟨rfl, rfl, rfl, rfl, rfl⟩
      · exact ⟨rfl, rfl, rfl, rfl, rfl⟩
    · exact (SameAccount.invariantViolation b _).sameReservations

theorem counted_taskWrite (h : m.Counted) (t : Task) (reply : JournalReply) :
    (t.settleWrite m.book reply).ReservationsCounted := by
  rw [Task.settleWrite.eq_def]
  split
  · exact counted_persisted h _ _ _
  · exact h

theorem counted_passWrite (h : m.Counted) (run : ReconcileRun) (reply : JournalReply) :
    (run.settleWrite m.book reply).ReservationsCounted := by
  rw [ReconcileRun.settleWrite.eq_def]
  split
  · exact counted_persisted h _ _ _
  · exact h

theorem counted_prePost (h : m.Counted) (w : World) (t : Task) :
    (m.prePost cfg w i t).Counted := by
  rw [OrderManager.prePost]
  split
  · exact h
  · split
    · exact h
    · rename_i request guard _
      dsimp only
      have hguard := SameAccount.evaluateEntryGuard cfg w m.book request .prePost
        { hedgeCoverage := (m.gates.hedgeCoverageGap request guard).2
          coherence := if (m.gates.get? request.attemptId).any (·.alreadyExposed) then none
            else w.coherence
          economics := if (m.gates.get? request.attemptId).any (·.alreadyExposed) then none
            else w.economics }
      split
      · exact h.account hguard
      · exact h.account hguard

theorem counted_release (h : m.Counted) (w : World) (t : Task) :
    (m.release cfg w i t).Counted := by
  rw [OrderManager.release]
  apply counted_pumpFrom
  rw [OrderManager.Counted]
  cases t.action with
  | cancel intent => exact h
  | submit request capital entry =>
    dsimp only
    split
    · exact h.same ⟨rfl, rfl, rfl, rfl, rfl⟩
    · have hreleased := h.release request.clientOrderId
      exact hreleased.same ⟨rfl, rfl, rfl, rfl, rfl⟩

theorem counted_dispose (h : m.Counted) : m.dispose.Counted := by
  have hfold : ∀ (actions : List Action) (n : OrderManager), n.Counted →
      (actions.foldl disposeQueued n).Counted := by
    intro actions
    induction actions with
    | nil => exact fun n hn => hn
    | cons action rest ih =>
      intro n hn
      apply ih
      cases action with
      | submit request capital entry => exact counted_freed hn request.clientOrderId
      | cancel intent => exact hn
  apply hfold
  exact h.same ⟨rfl, rfl, rfl, rfl, rfl⟩

/-- Only the first pass touches the reservations: it rebuilds them from the rows. -/
theorem counted_rebuild {b : Book} (hb : b.ReservationsCounted) (run : ReconcileRun) (w : World) :
    (run.rebuild w b).ReservationsCounted := by
  have hfirst : (if b.lastReconciledAt.isNone then
      b.rebuildReservations run.nonterminalByClient.values else b).ReservationsCounted := by
    split
    · exact .rebuild b _
    · exact hb
  have howned : ∀ c : Book, SameReservations c
      (ReconcileRun.attributeOwned run.ownedByClient.values c) := by
    intro c
    refine (SameReservations.fold ?_ _ c).trans ⟨rfl, rfl, rfl, rfl, rfl⟩
    exact fun c symbol => ⟨rfl, rfl, rfl, rfl, rfl⟩
  have htrip : ∀ (c : Book) (message : String),
      SameReservations c (({ c with recoveryActive := true } : Book).trip message) :=
    fun c _ => ((SameAccount.recover c).trans (.trip _ _)).sameReservations
  rw [ReconcileRun.rebuild]
  refine hfirst.same (SameReservations.judged ?_ _ _ _)
  refine (howned _).trans ?_
  exact SameReservations.fold (fun c _ => htrip c _) _ _

theorem counted_commitReconcile (w : World) {s : ReconcileStretch}
    (hbook : s.book.ReservationsCounted) : (m.commitReconcile cfg w s).Counted := by
  have hset : (if s.violated then { m with book := s.book }.reconcile cfg w
      else { m with book := s.book }).Counted := by
    have hbase : ({ m with book := s.book } : OrderManager).Counted := hbook
    split
    · exact counted_reconcile hbase w
    · exact hbase
  rw [OrderManager.commitReconcile]
  generalize (if s.violated then { m with book := s.book }.reconcile cfg w
    else { m with book := s.book }) = n at hset
  cases s.next with
  | await run => exact hset
  | failed message => exact hset.account (SameAccount.reconcileFailed cfg n message)
  | rebuild run => exact counted_rebuild hset run w

theorem counted_reported (h : m.Counted) {answer : ReconcileAnswer}
    (hreported : m.reported cfg answer = some m') : m'.Counted := by
  cases answer with
  | reported =>
    obtain rfl := Option.some.inj hreported
    exact h
  | threw message =>
    obtain rfl := Option.some.inj hreported
    exact h.account (SameAccount.reconcileFailed cfg m message)
  | health _ => cases hreported
  | orders _ => cases hreported
  | positions _ => cases hreported
  | adopted _ => cases hreported

theorem answer_book (m : OrderManager) (caller : Caller) (reply : JournalReply) :
    (m.answer caller reply).book = m.book := by
  cases caller <;> rw [OrderManager.answer] <;> split <;> rfl

theorem counted_answer (h : m.Counted) (caller : Caller) (reply : JournalReply) :
    (m.answer caller reply).Counted := by
  rw [OrderManager.Counted, answer_book]
  exact h

/-- Every step counts what it reserves, and takes off no more than it releases. -/
theorem counted_step (h : m.Counted) {label : Label} (hstep : m.step cfg label = some m') :
    m'.Counted := by
  cases label with
  | submit w request capital entry =>
    exact Option.some.inj hstep ▸ counted_submit h w request capital entry
  | enqueueCancel w intent => exact Option.some.inj hstep ▸ counted_enqueue h w _
  | serve caller =>
    simp only [OrderManager.step, OrderManager.serve] at hstep
    split at hstep
    · obtain rfl := Option.some.inj hstep
      apply counted_answer
      exact h
    · cases hstep
  | breakDown caller message =>
    simp only [OrderManager.step, OrderManager.breakDown] at hstep
    split at hstep
    · exact Option.some.inj hstep ▸ counted_answer h caller _
    · cases hstep
  | resume w caller =>
    cases caller with
    | action i =>
      obtain ⟨t, -, h1⟩ := Option.bind_eq_some_iff.mp hstep
      obtain ⟨call, -, h2⟩ := Option.bind_eq_some_iff.mp h1
      obtain ⟨reply, -, h3⟩ := Option.bind_eq_some_iff.mp h2
      obtain ⟨s, hs, h4⟩ := Option.bind_eq_some_iff.mp h3
      have hbook := (counted_taskWrite h t reply).account (Task.account_resume hs)
      exact Option.some.inj h4 ▸ counted_commit hbook
    | reconcile =>
      obtain ⟨run, -, h1⟩ := Option.bind_eq_some_iff.mp hstep
      obtain ⟨call, -, h2⟩ := Option.bind_eq_some_iff.mp h1
      obtain ⟨reply, -, h3⟩ := Option.bind_eq_some_iff.mp h2
      obtain ⟨s, hs, h4⟩ := Option.bind_eq_some_iff.mp h3
      have hbook := (counted_passWrite h run reply).account (ReconcileRun.account_resume hs)
      exact Option.some.inj h4 ▸ counted_commitReconcile w hbook
  | fetched w i answer =>
    obtain ⟨t, -, h1⟩ := Option.bind_eq_some_iff.mp hstep
    obtain ⟨s, hs, h2⟩ := Option.bind_eq_some_iff.mp h1
    exact Option.some.inj h2 ▸ counted_commit (h.account (Task.account_fetched hs))
  | pass i =>
    obtain ⟨t, -, hpass⟩ := Option.bind_eq_some_iff.mp hstep
    rw [OrderManager.pass] at hpass
    split at hpass
    · obtain rfl := Option.some.inj hpass
      exact h
    · cases hpass
  | prePost w i =>
    obtain ⟨t, -, rfl⟩ := Option.map_eq_some_iff.mp hstep
    exact counted_prePost h w t
  | submitted w i answer =>
    obtain ⟨t, -, rfl⟩ := Option.map_eq_some_iff.mp hstep
    exact counted_commit (h.account (Task.account_submitted answer))
  | cancelled w i answer =>
    obtain ⟨t, -, rfl⟩ := Option.map_eq_some_iff.mp hstep
    exact counted_commit (h.account (Task.account_cancelled answer))
  | release w i =>
    obtain ⟨t, -, rfl⟩ := Option.map_eq_some_iff.mp hstep
    exact counted_release h w t
  | reconcile w => exact Option.some.inj hstep ▸ counted_reconcile h w
  | reconcileAnswered w answer =>
    obtain ⟨run, -, h1⟩ := Option.bind_eq_some_iff.mp hstep
    by_cases hphase : run.phase = .reporting
    · rw [if_pos hphase] at h1
      exact counted_reported h h1
    · rw [if_neg hphase] at h1
      obtain ⟨s, hs, h2⟩ := Option.bind_eq_some_iff.mp h1
      have hbook := h.account (ReconcileRun.account_answered hs)
      exact Option.some.inj h2 ▸ counted_commitReconcile w hbook
  | setExposure openBoxes residualLegs =>
    exact Option.some.inj hstep ▸ h.account (SameAccount.setExposure cfg m openBoxes residualLegs)
  | recordRealisedPnl delta =>
    exact Option.some.inj hstep ▸ h.account (SameAccount.changeRisk cfg m _)
  | seedLimits day seed => exact Option.some.inj hstep ▸ h.account (SameAccount.changeRisk cfg m _)
  | dailyRiskLoaded generation seed =>
    exact Option.some.inj hstep ▸ h.account (SameAccount.changeRisk cfg m _)
  | invariantViolation w reason =>
    have hset : ({ m with book := m.book.invariantViolation reason } : OrderManager).Counted :=
      h.account (SameAccount.invariantViolation m.book reason)
    exact Option.some.inj hstep ▸ counted_reconcile hset w
  | dispose => exact Option.some.inj hstep ▸ counted_dispose h
  | setControls controls =>
    exact Option.some.inj hstep ▸ h.same ⟨rfl, rfl, rfl, rfl, rfl⟩
  | setFeedHealthy w healthy =>
    exact Option.some.inj hstep ▸ h.same ⟨rfl, rfl, rfl, rfl, rfl⟩
  | setCrashOnlyAttributedExposure exists' =>
    exact Option.some.inj hstep ▸ h.same ⟨rfl, rfl, rfl, rfl, rfl⟩
  | foreign row =>
    obtain rfl := Option.some.inj hstep
    exact h

end Steps

theorem counted_run {cfg : Config} {m : OrderManager} (h : m.Counted) (labels : List Label) :
    Throughout (OrderManager.step cfg) OrderManager.Counted m labels :=
  Throughout.of_invariant (fun _ _ _ h hstep => counted_step h hstep) h

theorem counted_create (controls : OrderManagerControls) (day : String) (journal : Journal) :
    (OrderManager.create controls day journal).Counted :=
  ⟨Nat.le_refl 0, Nat.le_refl 0, fun _ => Nat.le_refl 0⟩

/-- In every run, whatever the journal and the broker answer, no reservation goes uncounted:
each total is at least the sum of the reservations it stands for. -/
theorem reservations_counted (cfg : Config) (controls : OrderManagerControls) (day : String)
    (journal : Journal) (labels : List Label) :
    Throughout (OrderManager.step cfg) (fun m => m.book.ReservationsCounted)
      (OrderManager.create controls day journal) labels :=
  counted_run (counted_create controls day journal) labels

namespace Sample

/-- Part of the position of a filled entry is sold. -/
def partialExit : BrokerOrderRequest :=
  { request .k1Ce .sell .exit with clientOrderId := "x", quantity := 25 }

/-- The entry fills, and the exit is sent with no answer that proves what became of it. -/
def unproven : List Label :=
  warmUp ++ [.submit (world 100) (request .k1Ce .buy .entry) none none] ++ prepared 0 ++
    returned 0 (order (request .k1Ce .buy .entry) .complete 75) ++ [.release (world 100) 0] ++
    [.submit (world 100) partialExit none none] ++ prepared 1 ++
    [.submitted (world 100) 1 (.error (.other "timeout"))] ++ answered 1 ++
    [.release (world 100) 1]

end Sample

/-- A reduction passes admission only towards a flat position, and only with room for it. -/
theorem accepted_withinLimits {cfg : Config} {b b' : Book} {w : World}
    {request : BrokerOrderRequest} {capital : Option EntryCapitalStamp}
    {entry : Option LiveEntryTransportGuard}
    (h : acceptedBook cfg w b request capital entry = some b') :
    b'.withinQuantityLimits cfg request = true := by
  rw [acceptedBook] at h
  split at h
  · rename_i c hnone
    obtain rfl := Option.some.inj h
    show c.withinQuantityLimits cfg request = true
    rw [OrderManager.submitBlockReason] at hnone
    split at hnone
    · simp at hnone
    · rename_i c' _
      dsimp only at hnone
      generalize (if request.purpose = .entry then c'.canEnter cfg w (some request)
        else (c', c'.canManageExposure)) = opened at hnone
      split at hnone
      · simp at hnone
      · split at hnone
        · simp at hnone
        · rename_i hlimits
          split at hnone
          · simp at hnone
          · obtain ⟨rfl, -⟩ := Prod.mk.inj hnone
            simpa using hlimits
  · cases h

/-- However a run goes, an accepted reduction is covered: all the reductions held on its
symbol, its own included, fit into the attributed position, which it is on the side to
reduce. An accepted entry fits into the gross limit with every entry held. -/
theorem accepted_covered (cfg : Config) (controls : OrderManagerControls) (day : String)
    (journal : Journal) (labels : List Label) (m : OrderManager)
    (hrun : managerRun cfg (OrderManager.create controls day journal) labels = some m)
    (w : World) (request : BrokerOrderRequest) (capital : Option EntryCapitalStamp)
    (entry : Option LiveEntryTransportGuard) (b : Book)
    (haccepted : acceptedBook cfg w m.book request capital entry = some b) :
    (request.purpose.Reduces →
      (b.reserve request).reductionsHeldOn request.symbol ≤ (b.net request.symbol).natAbs ∧
        Book.reducingSide (b.net request.symbol) request.side = true) ∧
    (request.purpose = .entry →
      b.grossOpenLegQuantity + (b.reserve request).entriesHeld ≤
        cfg.limits.maxGrossOpenLegQuantity) := by
  have hkept : m.Counted := (counted_run (counted_create controls day journal) labels).last hrun
  have hcounted : (b.reserve request).ReservationsCounted :=
    (hkept.same (sameReservations_accepted haccepted)).reserve request
  have hwithin := accepted_withinLimits haccepted
  rw [Book.withinQuantityLimits] at hwithin
  split at hwithin
  · cases hwithin
  · constructor
    · intro hreduces
      have hheld := hcounted.bySymbol request.symbol
      rw [reservedReduction_reserve hreduces, if_pos rfl] at hheld
      have hroom : Book.reducingSide (b.net request.symbol) request.side = true ∧
          request.quantity + b.reservedReduction request.symbol ≤
            (b.net request.symbol).natAbs := by
        obtain hp | hp := hreduces
        · simpa [hp] using hwithin
        · simpa [hp] using hwithin
      exact ⟨by omega, hroom.1⟩
    · intro hentry
      have hheld := hcounted.entries
      rw [hentry] at hwithin
      have hroom := of_decide_eq_true hwithin
      have htotal : (b.reserve request).reservedEntryQuantity =
          b.reservedEntryQuantity + request.quantity := by rw [reserve_entry hentry]
      omega

/-- The exit that is submitted again is accepted, and is still covered. -/
theorem resubmission_covered : ∃ m b,
    managerRun Sample.config (Sample.manager .empty) Sample.unproven = some m ∧
      acceptedBook Sample.config (Sample.world 100) m.book Sample.partialExit none none =
        some b ∧
      (b.reserve Sample.partialExit).reductionsHeldOn Sample.partialExit.symbol ≤
        (b.net Sample.partialExit.symbol).natAbs := by
  have hend : (managerRun Sample.config (Sample.manager .empty) Sample.unproven).map (fun m =>
      (acceptedBook Sample.config (Sample.world 100) m.book Sample.partialExit none none).isSome) =
      some true := by decide +kernel
  obtain ⟨m, hrun, hm⟩ := Option.map_eq_some_iff.mp hend
  obtain ⟨b, hb⟩ := Option.isSome_iff_exists.mp hm
  have hcovered := accepted_covered Sample.config ⟨true, true⟩ "D" .empty Sample.unproven m hrun
    (Sample.world 100) Sample.partialExit none none b hb
  exact ⟨m, b, hrun, hb, (hcovered.1 (.inl rfl)).1⟩

end Strikedge.Orders
