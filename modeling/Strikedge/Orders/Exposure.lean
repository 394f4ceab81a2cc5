import Strikedge.Orders.Attribution

/-!
# Exposure over whole runs

The invariant behind the attributed positions: together with the increments that are
acknowledged and not yet added, and before the first pass with the fills of the first
journal, they are the fills of the journal. Every step keeps it whose rebuild, if it has
one, is of a current pass.
-/

namespace Strikedge.Orders

open Machine OrderManager

def GrossRight (b : Book) : Prop :=
  b.grossOpenLegQuantity = (b.attributedBoxPositions.values.map Int.natAbs).sum

/-- The books have added an increment on every symbol, and nothing else. -/
structure Adds (increment : SymbolKey → Int) (b b' : Book) : Prop where
  net : ∀ symbol, b'.net symbol = b.net symbol + increment symbol
  gross : GrossRight b → GrossRight b'
  lastReconciledAt : b'.lastReconciledAt = b.lastReconciledAt

section Adds

variable {b b' b'' : Book} {increment : SymbolKey → Int}

theorem Adds.of_positions (h : b'.attributedBoxPositions = b.attributedBoxPositions)
    (hgross : b'.grossOpenLegQuantity = b.grossOpenLegQuantity)
    (hlast : b'.lastReconciledAt = b.lastReconciledAt) : Adds (fun _ => 0) b b' where
  net symbol := by
    rw [Book.net, Book.net, h, Int.add_zero]
  gross hb := by
    rw [GrossRight, h, hgross]
    exact hb
  lastReconciledAt := hlast

theorem SameAccount.adds (h : SameAccount b b') : Adds (fun _ => 0) b b' :=
  .of_positions h.positions h.gross h.lastReconciledAt

theorem Adds.refl (b : Book) : Adds (fun _ => 0) b b := .of_positions rfl rfl rfl

/-- Nothing is added before or after. -/
theorem Adds.then (h : Adds increment b b') (h' : Adds (fun _ => 0) b' b'') :
    Adds increment b b'' where
  net symbol := by rw [h'.net, h.net, Int.add_zero]
  gross := h'.gross ∘ h.gross
  lastReconciledAt := h'.lastReconciledAt.trans h.lastReconciledAt

theorem Adds.after (h : Adds increment b' b'') (h' : Adds (fun _ => 0) b b') :
    Adds increment b b'' where
  net symbol := by rw [h.net, h'.net, Int.add_zero]
  gross := h.gross ∘ h'.gross
  lastReconciledAt := h.lastReconciledAt.trans h'.lastReconciledAt

theorem adds_reserve (b : Book) (r : BrokerOrderRequest) : Adds (fun _ => 0) b (b.reserve r) := by
  rw [Book.reserve]
  split <;> exact .of_positions rfl rfl rfl

theorem adds_releaseReservation (b : Book) (id : ClientOrderId) :
    Adds (fun _ => 0) b (b.releaseReservation id) := by
  simp only [Book.releaseReservation, Book.releaseReduction]
  split <;> exact .of_positions rfl rfl rfl

theorem adds_deactivate (b : Book) (id : ClientOrderId) :
    Adds (fun _ => 0) b (b.deactivate id) :=
  .of_positions rfl rfl rfl

theorem adds_reserveRemaining (b : Book) (i : BoxOrderIntent) :
    Adds (fun _ => 0) b (b.reserveRemaining i) := by
  rw [Book.reserveRemaining]
  dsimp only
  split
  · exact .refl b
  · exact adds_reserve b _

theorem adds_rebuildReservations (b : Book) (nonterminal : List BoxOrderIntent) :
    Adds (fun _ => 0) b (b.rebuildReservations nonterminal) := by
  have hfold : ∀ (rows : List BoxOrderIntent) (b : Book),
      Adds (fun _ => 0) b (rows.foldl Book.reserveRemaining b) := by
    intro rows
    induction rows with
    | nil => exact .refl
    | cons row rest ih => exact fun b => (adds_reserveRemaining b row).then (ih _)
  exact (hfold nonterminal _).after (.of_positions rfl rfl rfl)

/-- An attributed fill is added to the position of its symbol. -/
theorem adds_attributeFill (b : Book) (row : BoxOrderIntent) (previous current : Nat) :
    Adds (fun symbol => JournalReply.fillOn symbol (.updated (.applied row previous current)))
      b (b.attributeFill row (current - previous)) where
  net symbol := by
    rw [Book.attributeFill, Book.net, JournalReply.fillOn]
    simp only [Book.recalculateGross, OrderedMap.get?_set]
    by_cases h : row.symbol = symbol
    · subst h
      rw [if_pos rfl, if_pos rfl]
      rfl
    · rw [if_neg fun heq => h heq.symm, if_neg h, Int.add_zero]
      rfl
  gross _ := rfl
  lastReconciledAt := rfl

/-- `persistOrder` adds what its own write acknowledged. -/
theorem adds_persisted (b : Book) (intent : BoxOrderIntent) (order : BrokerOrder)
    (result : UpdateResult) :
    Adds (fun symbol => JournalReply.fillOn symbol (.updated result)) b
      (b.persisted intent order result).book := by
  have hrest : ∀ (b : Book) (updated : BoxOrderIntent), Adds (fun _ => 0) b
      ((if isBrokerOrderTerminal order.state then
        (b.know updated).releaseReservation updated.clientOrderId
        else b.know updated).setPersistence .healthy) := by
    intro b updated
    have hknown : Adds (fun _ => 0) b (b.know updated) := (SameAccount.know b updated).adds
    split
    · exact (hknown.then (adds_releaseReservation _ _)).then (.of_positions rfl rfl rfl)
    · exact hknown.then (.of_positions rfl rfl rfl)
  cases result with
  | missing => exact (SameAccount.persistFailed b order _).adds
  | refused row => exact hrest b row
  | applied row previous current =>
      simp only [Book.persisted, Book.rowOf, Book.durableFillDelta]
      by_cases hregressed : current < previous
      · simp only [hregressed, if_true]
        have hzero : Adds (fun symbol =>
            JournalReply.fillOn symbol (.updated (.applied row previous current))) b b := by
          refine ⟨fun symbol => ?_, id, rfl⟩
          have hnone : current - previous = 0 := by omega
          rw [JournalReply.fillOn, hnone, OrderSide.signed_zero, ite_self, Int.add_zero]
        exact (hzero.then (SameAccount.invariantViolation b _).adds).then (hrest _ row)
      · simp only [hregressed, if_false]
        by_cases hadvanced : 0 < current - previous
        · simp only [hadvanced, if_true]
          exact (adds_attributeFill b row previous current).then (hrest _ row)
        · simp only [hadvanced, if_false]
          have hzero : Adds (fun symbol =>
              JournalReply.fillOn symbol (.updated (.applied row previous current))) b b := by
            refine ⟨fun symbol => ?_, id, rfl⟩
            have hnone : current - previous = 0 := by omega
            rw [JournalReply.fillOn, hnone, OrderSide.signed_zero, ite_self, Int.add_zero]
          exact hzero.then (hrest b row)

theorem fillOn_other {reply : JournalReply} {symbol : SymbolKey}
    (h : ∀ result, reply ≠ .updated result) : reply.fillOn symbol = 0 := by
  cases reply with
  | updated result => exact absurd rfl (h result)
  | created row => rfl
  | loaded rows => rfl
  | threw message => rfl

theorem adds_taskWrite (b : Book) (t : Task) {reply : JournalReply} (hreply : t.reply = some reply) :
    Adds (fun symbol => t.unsettledFill symbol) b (t.settleWrite b reply) := by
  rw [Task.settleWrite.eq_def]
  split
  · rename_i site order result hphase
    have hadds := adds_persisted b (site.intentOf t.intent) order result
    simpa only [Task.unsettledFill, hphase, hreply, Option.elim_some] using hadds
  · rename_i hother
    refine ⟨fun symbol => ?_, id, rfl⟩
    have hnone : t.unsettledFill symbol = 0 := by
      rw [Task.unsettledFill]
      split
      · rename_i site order hphase
        rw [hreply, Option.elim_some]
        exact fillOn_other fun result heq => hother site order result hphase heq
      · rfl
    rw [hnone, Int.add_zero]

theorem adds_passWrite (b : Book) (run : ReconcileRun) {reply : JournalReply}
    (hreply : run.reply = some reply) :
    Adds (fun symbol => run.unsettledFill symbol) b (run.settleWrite b reply) := by
  rw [ReconcileRun.settleWrite.eq_def]
  split
  · rename_i intent order result hphase
    have hadds := adds_persisted b intent order result
    simpa only [ReconcileRun.unsettledFill, hphase, hreply, Option.elim_some] using hadds
  · rename_i hother
    refine ⟨fun symbol => ?_, id, rfl⟩
    have hnone : run.unsettledFill symbol = 0 := by
      rw [ReconcileRun.unsettledFill]
      split
      · rename_i intent order hphase
        rw [hreply, Option.elim_some]
        exact fillOn_other fun result heq => hother intent order result hphase heq
      · rfl
    rw [hnone, Int.add_zero]

end Adds

section Rebuild

variable {w : World} {b : Book} {run : ReconcileRun}

/-- The rebuild sets the position of every symbol an intent is on, and no other. -/
theorem attributeOwned_net (intents : List BoxOrderIntent) (symbol : SymbolKey) :
    (ReconcileRun.attributeOwned intents b).net symbol =
      if symbol ∈ intents.map BoxOrderIntent.symbol then
        ReconcileRun.intentNet intents symbol
      else b.net symbol := by
  have hfold : ∀ (symbols : List SymbolKey) (b : Book),
      (symbols.foldl (fun b symbol => { b with
        attributedBoxPositions := b.attributedBoxPositions.set symbol
          (ReconcileRun.intentNet intents symbol) }) b).net symbol =
        if symbol ∈ symbols then ReconcileRun.intentNet intents symbol else b.net symbol := by
    intro symbols
    induction symbols with
    | nil => exact fun b => rfl
    | cons s rest ih =>
        intro b
        rw [List.foldl_cons, ih]
        by_cases hrest : symbol ∈ rest
        · rw [if_pos hrest, if_pos (List.mem_cons_of_mem s hrest)]
        · rw [if_neg hrest]
          by_cases hs : symbol = s
          · subst hs
            simp [Book.net]
          · simp [Book.net, hs, hrest]
  exact hfold _ b

/-- The positions a rebuild leaves behind, the verdict on the health aside. -/
theorem rebuild_positions (w : World) (b : Book) (run : ReconcileRun) : ∃ b' : Book, Adds (fun _ => 0) b b' ∧
    (run.rebuild w b).attributedBoxPositions =
      (ReconcileRun.attributeOwned run.ownedByClient.values b').attributedBoxPositions ∧
    (run.rebuild w b).grossOpenLegQuantity =
      (ReconcileRun.attributeOwned run.ownedByClient.values b').grossOpenLegQuantity := by
  have hfold : ∀ (trip : Book → SymbolKey × Int × Int → Book),
      (∀ b mismatch, SameAccount b (trip b mismatch)) →
      ∀ (mismatches : List (SymbolKey × Int × Int)) (b : Book),
        SameAccount b (mismatches.foldl trip b) := by
    intro trip htrip mismatches
    induction mismatches with
    | nil => exact .refl
    | cons mismatch rest ih => exact fun b => (htrip b mismatch).trans (ih _)
  have htrip : ∀ (b : Book) (message : String),
      SameAccount b (({ b with recoveryActive := true } : Book).trip message) :=
    fun b _ => (SameAccount.recover b).trans (.trip _ _)
  by_cases hfirst : b.lastReconciledAt.isNone = true
  · refine ⟨_, adds_rebuildReservations b run.nonterminalByClient.values, ?_⟩
    simp only [ReconcileRun.rebuild, hfirst, if_true]
    exact ⟨(hfold _ (fun b _ => htrip b _) _ _).positions,
      (hfold _ (fun b _ => htrip b _) _ _).gross⟩
  · refine ⟨b, .refl b, ?_⟩
    simp only [ReconcileRun.rebuild, hfirst]
    exact ⟨(hfold _ (fun b _ => htrip b _) _ _).positions,
      (hfold _ (fun b _ => htrip b _) _ _).gross⟩

theorem rebuild_net (symbol : SymbolKey) :
    (run.rebuild w b).net symbol =
      if symbol ∈ run.ownedByClient.values.map BoxOrderIntent.symbol then
        ReconcileRun.intentNet run.ownedByClient.values symbol
      else b.net symbol := by
  obtain ⟨b', hsame, hpositions, -⟩ := rebuild_positions w b run
  have hnet := attributeOwned_net (b := b') run.ownedByClient.values symbol
  rw [hsame.net, Int.add_zero] at hnet
  rw [Book.net, hpositions]
  exact hnet

theorem rebuild_gross : GrossRight (run.rebuild w b) := by
  obtain ⟨b', -, hpositions, hgross⟩ := rebuild_positions w b run
  rw [GrossRight, hpositions, hgross]
  rfl

theorem rebuild_last : (run.rebuild w b).lastReconciledAt = some w.now := rfl

end Rebuild

structure Attributed (initial : Journal) (m : OrderManager) : Prop where
  fresh : ∀ i t, m.tasks.get? i = some t → i < m.nextTask
  zeroed : ∀ i t, m.tasks.get? i = some t → t.phase = .creating → t.intent.filledQuantity = 0
  balance : ∀ symbol, m.book.net symbol + unsettledTasks m.tasks symbol +
      unsettledPass m.reconcileRun symbol +
      (if m.book.lastReconciledAt.isNone then initial.net symbol else 0) = m.journal.net symbol
  gross : GrossRight m.book
  journal : JournalKept initial m.journal
  pass : ∀ run, m.reconcileRun = some run → PassCovers initial run

section Steps

variable {cfg : Config} {w : World} {initial : Journal} {m m' : OrderManager}
variable {i : TaskId} {t t' : Task} {increment : SymbolKey → Int} {symbol : SymbolKey}

theorem unsettledTasks_set (t' : Task) (symbol : SymbolKey) (ht : m.tasks.get? i = some t) :
    unsettledTasks (m.tasks.set i t') symbol + t.unsettledFill symbol =
      unsettledTasks m.tasks symbol + t'.unsettledFill symbol := by
  have hset := OrderedMap.tally_set (fun _ => Task.unsettledFill symbol) m.tasks i t'
  rwa [OrderedMap.share_of_some ht] at hset

theorem unsettledTasks_delete (symbol : SymbolKey) (ht : m.tasks.get? i = some t) :
    unsettledTasks (m.tasks.delete i) symbol + t.unsettledFill symbol =
      unsettledTasks m.tasks symbol := by
  have hdelete := OrderedMap.tally_delete (fun _ => Task.unsettledFill symbol) m.tasks i
  rwa [OrderedMap.share_of_some ht] at hdelete

/-- An action that does not await the acknowledgement of a snapshot has nothing to add. -/
theorem unsettledFill_of_phase (h : ∀ site order, t.phase ≠ .persisting site order) :
    t.unsettledFill symbol = 0 := by
  rw [Task.unsettledFill]
  split
  · rename_i site order hphase
    exact absurd hphase (h site order)
  · rfl

theorem unsettledFill_of_reply (h : t.reply = none) : t.unsettledFill symbol = 0 := by
  rw [Task.unsettledFill, h]
  split <;> rfl

/-- What the books add, the actions in flight no longer have to add. -/
theorem Attributed.move (h : Attributed initial m) (hbook : Adds increment m.book m'.book)
    (htasks : ∀ symbol, unsettledTasks m'.tasks symbol + increment symbol =
      unsettledTasks m.tasks symbol)
    (hfresh : ∀ i t, m'.tasks.get? i = some t → i < m'.nextTask)
    (hzeroed : ∀ i t, m'.tasks.get? i = some t → t.phase = .creating →
      t.intent.filledQuantity = 0)
    (hrun : m'.reconcileRun = m.reconcileRun ∨
      m.reconcileRun = none ∧ m'.reconcileRun = some {})
    (hjournal : m'.journal = m.journal) : Attributed initial m' where
  fresh := hfresh
  zeroed := hzeroed
  balance symbol := by
    have hbalance := h.balance symbol
    have hpass : unsettledPass m'.reconcileRun symbol = unsettledPass m.reconcileRun symbol := by
      rcases hrun with hsame | ⟨hnone, hstart⟩
      · rw [hsame]
      · rw [hnone, hstart]
        rfl
    have hmoved := htasks symbol
    rw [hbook.net, hpass, hbook.lastReconciledAt, hjournal]
    omega
  gross := hbook.gross h.gross
  journal := hjournal ▸ h.journal
  pass run hget := by
    rcases hrun with hsame | ⟨-, hstart⟩
    · exact h.pass run (hsame ▸ hget)
    · rw [hstart] at hget
      obtain rfl := Option.some.inj hget
      exact ⟨fun hp => absurd rfl hp, fun _ _ _ hr => by cases hr⟩

/-- Everything but the positions may change. -/
theorem Attributed.frame (h : Attributed initial m) (hbook : Adds (fun _ => 0) m.book m'.book)
    (htasks : m'.tasks = m.tasks) (hnext : m'.nextTask = m.nextTask)
    (hrun : m'.reconcileRun = m.reconcileRun ∨
      m.reconcileRun = none ∧ m'.reconcileRun = some {})
    (hjournal : m'.journal = m.journal) : Attributed initial m' := by
  refine h.move hbook (fun symbol => ?_) ?_ ?_ hrun hjournal
  · rw [htasks, Int.add_zero]
  · rw [htasks, hnext]
    exact h.fresh
  · rw [htasks]
    exact h.zeroed

/-- An action goes on, and the books add what it was told of. -/
theorem Attributed.advance (h : Attributed initial m) (ht : m.tasks.get? i = some t)
    (t' : Task) (htasks : m'.tasks = m.tasks.set i t') (hnext : m'.nextTask = m.nextTask)
    (hbook : Adds (fun symbol => t.unsettledFill symbol) m.book m'.book)
    (hreply : ∀ symbol, t'.unsettledFill symbol = 0) (hphase : t'.phase ≠ .creating)
    (hrun : m'.reconcileRun = m.reconcileRun ∨
      m.reconcileRun = none ∧ m'.reconcileRun = some {})
    (hjournal : m'.journal = m.journal) : Attributed initial m' := by
  refine h.move hbook (fun symbol => ?_) ?_ ?_ hrun hjournal
  · rw [htasks, unsettledTasks_set t' symbol ht, hreply, Int.add_zero]
  · intro j u hu
    rw [htasks, OrderedMap.get?_set] at hu
    rw [hnext]
    by_cases hj : j = i
    · exact hj ▸ h.fresh i t ht
    · rw [if_neg hj] at hu
      exact h.fresh j u hu
  · intro j u hu hcreating
    rw [htasks, OrderedMap.get?_set] at hu
    by_cases hj : j = i
    · rw [if_pos hj] at hu
      obtain rfl := Option.some.inj hu
      exact absurd hcreating hphase
    · rw [if_neg hj] at hu
      exact h.zeroed j u hu hcreating

theorem adds_block (m : OrderManager) (action : Action) (reason : String) :
    Adds (fun _ => 0) m.book (m.block action reason).book := by
  cases action with
  | submit request capital entry =>
      exact (adds_deactivate m.book _).then (adds_releaseReservation _ _)
  | cancel intent => exact .refl m.book

theorem Attributed.block (h : Attributed initial m) (action : Action) (reason : String) :
    Attributed initial (m.block action reason) :=
  h.frame (adds_block m action reason) rfl rfl (.inl rfl) rfl

theorem Attributed.start (h : Attributed initial m) (action : Action)
    (slot : BoxSchedulingSlot) : Attributed initial (m.start cfg action slot) := by
  have hnew : m.tasks.get? m.nextTask = none := by
    cases hget : m.tasks.get? m.nextTask with
    | none => rfl
    | some t => exact absurd (h.fresh _ t hget) (Nat.lt_irrefl _)
  refine h.move (Adds.refl m.book) (fun symbol => ?_) ?_ ?_ (.inl rfl) rfl
  · have hset := OrderedMap.tally_set_new (f := fun _ => Task.unsettledFill symbol)
      (v := startedTask cfg action slot) hnew
    show (m.tasks.set m.nextTask (startedTask cfg action slot)).tally _ + 0 = _
    rw [hset, unsettledFill_of_reply rfl]
    exact (Int.add_zero _).trans (Int.add_zero _)
  · intro j u hu
    simp only [OrderManager.start, OrderedMap.get?_set] at hu ⊢
    by_cases hj : j = m.nextTask
    · exact hj ▸ Nat.lt_succ_self _
    · rw [if_neg hj] at hu
      exact Nat.lt_succ_of_lt (h.fresh j u hu)
  · intro j u hu hcreating
    simp only [OrderManager.start, OrderedMap.get?_set] at hu
    by_cases hj : j = m.nextTask
    · rw [if_pos hj] at hu
      obtain rfl := Option.some.inj hu
      cases action with
      | submit request capital entry => rfl
      | cancel intent => cases hcreating
    · rw [if_neg hj] at hu
      exact h.zeroed j u hu hcreating

theorem Attributed.setBook (h : Attributed initial m) {b : Book}
    (hbook : Adds (fun _ => 0) m.book b) : Attributed initial { m with book := b } :=
  h.frame hbook rfl rfl (.inl rfl) rfl

theorem Attributed.pumpFrom (h : Attributed initial m) (w : World)
    (queue : List QueuedAction) : Attributed initial (OrderManager.pumpFrom cfg w queue m) := by
  induction queue generalizing m with
  | nil => exact h.frame (.refl _) rfl rfl (.inl rfl) rfl
  | cons q rest ih =>
      rw [OrderManager.pumpFrom]
      split
      · exact h.frame (.refl _) rfl rfl (.inl rfl) rfl
      · split
        · exact h.frame (.refl _) rfl rfl (.inl rfl) rfl
        · have hguard := (SameAccount.queuedActionBlockReason cfg w m.book q.action).adds
          split
          · rename_i heq
            rw [heq] at hguard
            exact ih ((h.setBook hguard).block q.action _)
          · rename_i heq
            rw [heq] at hguard
            exact ih ((h.setBook hguard).start q.action _)

theorem Attributed.enqueue (h : Attributed initial m) (w : World) (action : Action) :
    Attributed initial (m.enqueue cfg w action) := by
  rw [OrderManager.enqueue, OrderManager.pump]
  apply Attributed.pumpFrom
  exact h.frame (.refl m.book) rfl rfl (.inl rfl) rfl

theorem Attributed.submit (h : Attributed initial m) (w : World)
    (request : BrokerOrderRequest) (capital : Option EntryCapitalStamp)
    (entry : Option LiveEntryTransportGuard) :
    Attributed initial (m.submit cfg w request capital entry) := by
  have hregister : ∀ action, Attributed initial (m.register cfg action) := by
    intro action
    rw [OrderManager.register]
    split
    · exact h
    · exact h.frame (.refl _) rfl rfl (.inl rfl) rfl
  rw [OrderManager.submit]
  generalize hregistered : m.register cfg _ = n
  have hn : Attributed initial n := hregistered ▸ hregister _
  have hguard := (SameAccount.submitBlockReason cfg w n.book (Action.submit request capital
    (if request.purpose = .entry then entry else none)) request).adds
  split
  · rename_i heq
    rw [heq] at hguard
    rw [OrderManager.releaseOnReject]
    split
    · exact hn.frame hguard rfl rfl (.inl rfl) rfl
    · exact hn.frame hguard rfl rfl (.inl rfl) rfl
  · rename_i b heq
    rw [heq] at hguard
    have hactive : Adds (fun _ => 0) b
        { b with activeClientIds := b.activeClientIds.insert request.clientOrderId } :=
      .of_positions rfl rfl rfl
    have hset := hn.setBook ((hguard.then hactive).then (adds_reserve _ request))
    exact hset.enqueue w _

theorem reconcile_run (cfg : Config) (w : World) (m : OrderManager) :
    (m.reconcile cfg w).reconcileRun = m.reconcileRun ∨
      m.reconcileRun = none ∧ (m.reconcile cfg w).reconcileRun = some {} := by
  simp only [OrderManager.reconcile]
  split
  · exact .inl rfl
  · rename_i hnone
    exact .inr ⟨hnone, rfl⟩

theorem reconcile_journal (cfg : Config) (w : World) (m : OrderManager) :
    (m.reconcile cfg w).journal = m.journal := by
  simp only [OrderManager.reconcile]
  split <;> rfl

theorem Attributed.reconcile (h : Attributed initial m) (w : World) :
    Attributed initial (m.reconcile cfg w) := by
  have hsame := SameLegs.reconcile cfg w m
  exact h.frame (SameAccount.reconcile cfg w m).adds hsame.tasks hsame.nextTask
    (reconcile_run cfg w m) (reconcile_journal cfg w m)

theorem absorb_run (cfg : Config) (w : World) (m : OrderManager) (s : Stretch) :
    (m.absorb cfg w s).reconcileRun = m.reconcileRun ∨
      m.reconcileRun = none ∧ (m.absorb cfg w s).reconcileRun = some {} := by
  have hstart := reconcile_run cfg w { m with book := s.book }
  simp only [OrderManager.absorb]
  cases s.outcome with
  | none =>
      cases s.violated with
      | false => exact .inl rfl
      | true => exact hstart
  | some result =>
      cases s.violated with
      | false => exact .inl rfl
      | true => exact hstart

theorem absorb_journal (cfg : Config) (w : World) (m : OrderManager) (s : Stretch) :
    (m.absorb cfg w s).journal = m.journal := by
  have hsame := reconcile_journal cfg w { m with book := s.book }
  simp only [OrderManager.absorb]
  cases s.outcome with
  | none =>
      cases s.violated with
      | false => rfl
      | true => exact hsame
  | some result =>
      cases s.violated with
      | false => rfl
      | true => exact hsame

/-- The end of a synchronous block, whose books have added what the action was told of. -/
theorem Attributed.commit (h : Attributed initial m) (ht : m.tasks.get? i = some t)
    {s : Stretch} (hs : s.Continues t)
    (hbook : Adds (fun symbol => t.unsettledFill symbol) m.book s.book) :
    Attributed initial (m.commit cfg w i s) := by
  have habsorb := SameLegs.absorb cfg w m s
  have hbook' := hbook.then (SameAccount.absorb cfg w m s).adds
  have hrun := absorb_run cfg w m s
  have hjournal := absorb_journal cfg w m s
  rw [OrderManager.commit]
  generalize m.absorb cfg w s = n at habsorb hbook' hrun hjournal
  have hsuspend : ∀ phase, phase ≠ .creating → Attributed initial (n.suspend i s.task phase) := by
    intro phase hphase
    refine h.advance ht { s.task with phase := phase, reply := none } ?_
      habsorb.nextTask hbook' (fun symbol => unsettledFill_of_reply rfl) hphase hrun hjournal
    rw [← habsorb.tasks]
    rfl
  cases hnext : s.next with
  | await phase => exact hsuspend phase (hs.awaits phase hnext).2.2
  | barrier =>
      have hturn := hsuspend .turn (by simp)
      show Attributed initial ((n.suspend i s.task .turn).awaitTurn i s.task.action)
      rw [OrderManager.awaitTurn]
      split
      · exact hturn
      · exact hturn.frame (.refl _) rfl rfl (.inl rfl) rfl
  | settle =>
      have hsettled := hsuspend .settled (by simp)
      show Attributed initial ((n.suspend i s.task .settled).settleRank cfg s.task)
      rw [OrderManager.settleRank]
      split
      · exact hsettled
      · exact hsettled.frame (.refl _) rfl rfl (.inl rfl) rfl

/-- A block that was not resumed by the acknowledgement of a snapshot. -/
theorem Attributed.commit_other (h : Attributed initial m) (ht : m.tasks.get? i = some t)
    {s : Stretch} (hs : s.Continues t)
    (hphase : ∀ site order, t.phase ≠ .persisting site order)
    (hbook : SameAccount m.book s.book) : Attributed initial (m.commit cfg w i s) := by
  have hnone : (fun symbol => t.unsettledFill symbol) = fun _ => (0 : Int) :=
    funext fun symbol => unsettledFill_of_phase hphase
  exact h.commit ht hs (hnone ▸ hbook.adds)

theorem Attributed.prePost (h : Attributed initial m) (w : World) (ht : m.tasks.get? i = some t)
    (hsending : t.phase = .sending) : Attributed initial (m.prePost cfg w i t) := by
  have hnone : (fun symbol => t.unsettledFill symbol) = fun _ => (0 : Int) :=
    funext fun symbol => unsettledFill_of_phase fun site order => by simp [hsending]
  have hadvance : ∀ (t' : Task) (m' : OrderManager), t'.phase = .sending →
      m'.tasks = m.tasks.set i t' → m'.nextTask = m.nextTask → SameAccount m.book m'.book →
      m'.reconcileRun = m.reconcileRun → m'.journal = m.journal → Attributed initial m' := by
    intro t' m' hphase htasks hnext hbook hrun hjournal
    exact h.advance ht t' htasks hnext (hnone ▸ hbook.adds)
      (fun symbol => unsettledFill_of_phase fun site order => by simp [hphase])
      (by simp [hphase]) (.inl hrun) hjournal
  rw [OrderManager.prePost]
  split
  · rename_i reason _
    exact hadvance { t with hedgeFailureReason := some reason } _ hsending rfl rfl (.refl _)
      rfl rfl
  · split
    · exact hadvance { t with postBegan := true } _ hsending rfl rfl (.refl _) rfl rfl
    · rename_i request guard _
      dsimp only
      have hguard := SameAccount.evaluateEntryGuard cfg w m.book request .prePost
        { hedgeCoverage := (m.gates.hedgeCoverageGap request guard).2
          coherence := if (m.gates.get? request.attemptId).any (·.alreadyExposed) then none
            else w.coherence
          economics := if (m.gates.get? request.attemptId).any (·.alreadyExposed) then none
            else w.economics }
      split
      · rename_i reason _
        exact hadvance { t with hedgeFailureReason := some reason } _ hsending rfl rfl hguard
          rfl rfl
      · exact hadvance { t with postBegan := true } _ hsending rfl rfl hguard rfl rfl

theorem Attributed.release (h : Attributed initial m) (w : World) (ht : m.tasks.get? i = some t)
    (hsettled : t.phase = .settled) : Attributed initial (m.release cfg w i t) := by
  have hget : ∀ j u, (m.tasks.delete i).get? j = some u → m.tasks.get? j = some u := by
    intro j u hu
    rw [OrderedMap.get?_delete] at hu
    by_cases hj : j = i
    · rw [if_pos hj] at hu
      cases hu
    · rwa [if_neg hj] at hu
  rw [OrderManager.release]
  apply Attributed.pumpFrom
  refine h.move (?_ : Adds (fun _ => 0) m.book _) (fun symbol => ?_)
    (fun j u hu => h.fresh j u (hget j u hu)) (fun j u hu => h.zeroed j u (hget j u hu))
    (.inl rfl) rfl
  · cases t.action with
    | cancel intent => exact .refl _
    | submit request capital entry =>
        dsimp only
        split
        · exact adds_deactivate m.book _
        · exact (adds_releaseReservation m.book _).then (adds_deactivate _ _)
  · have hdelete := unsettledTasks_delete symbol ht
    have hnone : t.unsettledFill symbol = 0 :=
      unsettledFill_of_phase fun site order => by simp [hsettled]
    rw [hnone] at hdelete
    exact hdelete

theorem Attributed.dispose (h : Attributed initial m) : Attributed initial m.dispose := by
  have hfold : ∀ (actions : List Action) (n : OrderManager), Attributed initial n →
      Attributed initial (actions.foldl disposeQueued n) := by
    intro actions
    induction actions with
    | nil => exact fun n hn => hn
    | cons action rest ih =>
        intro n hn
        apply ih
        cases action with
        | submit request capital entry =>
            exact hn.frame ((adds_deactivate n.book _).then (adds_releaseReservation _ _)) rfl
              rfl (.inl rfl) rfl
        | cancel intent => exact hn.frame (.refl _) rfl rfl (.inl rfl) rfl
  exact hfold _ _ (h.frame (.of_positions rfl rfl rfl) rfl rfl (.inl rfl) rfl)

theorem fillOn_created {j j' : Journal} {store : Persistence} {intent : BoxOrderIntent}
    {reply : JournalReply} (h : j.perform store (.create intent) = (j', reply)) :
    reply.fillOn symbol = 0 := by
  apply fillOn_other
  rintro result rfl
  rw [Journal.perform] at h
  split at h
  · cases (Prod.mk.inj h).2
  · cases (Prod.mk.inj h).2

/-- An action that has been served is told exactly what its write advanced. -/
theorem unsettledFill_served {j j' : Journal} {store : Persistence} {call : JournalCall}
    {reply : JournalReply} (hcall : t.call = some call)
    (h : j.perform store call = (j', reply)) :
    ({ t with reply := some reply } : Task).unsettledFill symbol = reply.fillOn symbol := by
  have hother : (∀ site order, t.phase ≠ .persisting site order) →
      reply.fillOn symbol = 0 →
      ({ t with reply := some reply } : Task).unsettledFill symbol = reply.fillOn symbol := by
    intro hphase hzero
    rw [hzero]
    exact unsettledFill_of_phase hphase
  rw [Task.call] at hcall
  split at hcall
  · rename_i hphase
    obtain rfl := Option.some.inj hcall
    exact hother (fun _ _ => by simp [hphase]) (fillOn_created h)
  · rename_i hphase
    obtain rfl := Option.some.inj hcall
    exact hother (fun _ _ => by simp [hphase]) (fillOn_transition rfl h)
  · rename_i hphase
    obtain rfl := Option.some.inj hcall
    exact hother (fun _ _ => by simp [hphase]) (fillOn_transition rfl h)
  · rename_i hphase
    simp only [Task.unsettledFill, hphase, Option.elim_some]
  · rename_i hphase
    obtain rfl := Option.some.inj hcall
    exact hother (fun _ _ => by simp [hphase]) (fillOn_transition rfl h)
  · cases hcall

theorem passFill_served {j j' : Journal} {store : Persistence} {call : JournalCall}
    {reply : JournalReply} {run : ReconcileRun} (hcall : run.call = some call)
    (h : j.perform store call = (j', reply)) :
    ({ run with reply := some reply } : ReconcileRun).unsettledFill symbol =
      reply.fillOn symbol := by
  rw [ReconcileRun.call] at hcall
  split at hcall
  · rename_i hphase
    obtain rfl := Option.some.inj hcall
    obtain ⟨-, rfl⟩ := Prod.mk.inj h
    simp only [ReconcileRun.unsettledFill, hphase, JournalReply.fillOn]
  · rename_i hphase
    obtain rfl := Option.some.inj hcall
    obtain ⟨-, rfl⟩ := Prod.mk.inj h
    simp only [ReconcileRun.unsettledFill, hphase, JournalReply.fillOn]
  · rename_i hphase
    simp only [ReconcileRun.unsettledFill, hphase, Option.elim_some]
  · rename_i hphase
    obtain rfl := Option.some.inj hcall
    rw [fillOn_transition rfl h]
    simp only [ReconcileRun.unsettledFill, hphase]
  · cases hcall

theorem call_zeroed (h : Attributed initial m) (ht : m.tasks.get? i = some t)
    {call : JournalCall} (hcall : t.call = some call) :
    ∀ intent, call = .create intent → intent.filledQuantity = 0 := by
  rintro intent rfl
  rw [Task.call] at hcall
  split at hcall
  · rename_i hphase
    have hintent : t.intent = intent := by simpa using hcall
    exact hintent ▸ h.zeroed i t ht hphase
  · cases hcall
  · cases hcall
  · cases hcall
  · cases hcall
  · cases hcall

theorem pass_call_zeroed {run : ReconcileRun} {call : JournalCall}
    (hcall : run.call = some call) :
    ∀ intent, call = .create intent → intent.filledQuantity = 0 := by
  rintro intent rfl
  rw [ReconcileRun.call] at hcall
  split at hcall <;> cases hcall

/-- A caller without an answer. -/
theorem pending_action {call : JournalCall} (h : m.pending (.action i) = some (call, none)) :
    ∃ t, m.tasks.get? i = some t ∧ t.call = some call ∧ t.reply = none := by
  obtain ⟨t, ht, h1⟩ := Option.bind_eq_some_iff.mp h
  obtain ⟨call', hcall, heq⟩ := Option.map_eq_some_iff.mp h1
  obtain ⟨rfl, hreply⟩ := Prod.mk.inj heq
  exact ⟨t, ht, hcall, hreply⟩

theorem pending_reconcile {call : JournalCall}
    (h : m.pending .reconcile = some (call, none)) :
    ∃ run, m.reconcileRun = some run ∧ run.call = some call ∧ run.reply = none := by
  obtain ⟨run, hrun, h1⟩ := Option.bind_eq_some_iff.mp h
  obtain ⟨call', hcall, heq⟩ := Option.map_eq_some_iff.mp h1
  obtain ⟨rfl, hreply⟩ := Prod.mk.inj heq
  exact ⟨run, hrun, hcall, hreply⟩

/-- An action gets its reply, and the journal has moved by what it acknowledges. -/
theorem Attributed.answerAction (h : Attributed initial m) (ht : m.tasks.get? i = some t)
    (hreply : t.reply = none) {reply : JournalReply} {j : Journal}
    (hkept : JournalKept initial j)
    (hfill : ∀ symbol, ({ t with reply := some reply } : Task).unsettledFill symbol =
      reply.fillOn symbol)
    (hnet : ∀ symbol, j.net symbol = m.journal.net symbol + reply.fillOn symbol) :
    Attributed initial ({ m with journal := j }.answer (.action i) reply) := by
  have hanswer : OrderManager.answer { m with journal := j } (.action i) reply =
      { m with journal := j, tasks := m.tasks.set i { t with reply := some reply } } := by
    rw [OrderManager.answer]
    simp only [ht]
    rfl
  rw [hanswer]
  exact
    { fresh := fun k u hu => by
        rw [OrderedMap.get?_set] at hu
        by_cases hk : k = i
        · exact hk ▸ h.fresh i t ht
        · rw [if_neg hk] at hu
          exact h.fresh k u hu
      zeroed := fun k u hu hcreating => by
        rw [OrderedMap.get?_set] at hu
        by_cases hk : k = i
        · rw [if_pos hk] at hu
          obtain rfl := Option.some.inj hu
          exact h.zeroed i t ht hcreating
        · rw [if_neg hk] at hu
          exact h.zeroed k u hu hcreating
      balance := fun symbol => by
        have hset := unsettledTasks_set { t with reply := some reply } symbol ht
        have hbalance := h.balance symbol
        rw [unsettledFill_of_reply hreply, hfill] at hset
        have hmoved := hnet symbol
        dsimp only
        omega
      gross := h.gross
      journal := hkept
      pass := h.pass }

/-- The pass gets its reply. -/
theorem Attributed.answerPass (h : Attributed initial m) {run : ReconcileRun}
    {call : JournalCall} (hrun : m.reconcileRun = some run) (hcall : run.call = some call)
    (hreply : run.reply = none) {reply : JournalReply} {j : Journal}
    (hkept : JournalKept initial j) (horiginal : ReplyOriginal initial call reply)
    (hfill : ∀ symbol, ({ run with reply := some reply } : ReconcileRun).unsettledFill symbol =
      reply.fillOn symbol)
    (hnet : ∀ symbol, j.net symbol = m.journal.net symbol + reply.fillOn symbol) :
    Attributed initial ({ m with journal := j }.answer .reconcile reply) := by
  have hanswer : OrderManager.answer { m with journal := j } .reconcile reply =
      { m with journal := j, reconcileRun := some { run with reply := some reply } } := by
    rw [OrderManager.answer]
    simp only [hrun]
  rw [hanswer]
  exact
    { fresh := h.fresh
      zeroed := h.zeroed
      balance := fun symbol => by
        have hbalance := h.balance symbol
        have hold : unsettledPass m.reconcileRun symbol = 0 := by
          rw [hrun]
          exact ReconcileRun.unsettledFill_of_call fun _ => hreply
        have hnew : unsettledPass (some { run with reply := some reply }) symbol =
            reply.fillOn symbol := hfill symbol
        have hmoved := hnet symbol
        dsimp only
        omega
      gross := h.gross
      journal := hkept
      pass := fun run' hrun' => by
        obtain rfl := Option.some.inj hrun'
        refine ⟨(h.pass run hrun).view, fun call' reply' hcall' hreply' => ?_⟩
        obtain rfl := Option.some.inj hreply'
        obtain rfl := Option.some.inj (hcall.symm.trans hcall')
        exact horiginal }

theorem Attributed.serve (h : Attributed initial m) {caller : Caller}
    (hserve : m.serve cfg caller = some m') : Attributed initial m' := by
  rw [OrderManager.serve] at hserve
  split at hserve
  · rename_i call hpending
    cases hperform : m.journal.perform cfg.persistence call with
    | mk j reply =>
        simp only [hperform, Option.some.injEq] at hserve
        subst hserve
        obtain ⟨hkept, horiginal⟩ := h.journal.perform hperform
        cases caller with
        | action i =>
            obtain ⟨t, ht, hcall, hreply⟩ := pending_action hpending
            exact h.answerAction ht hreply hkept (fun _ => unsettledFill_served hcall hperform)
              fun _ => Journal.net_perform (call_zeroed h ht hcall) hperform
        | reconcile =>
            obtain ⟨run, hrun, hcall, hreply⟩ := pending_reconcile hpending
            exact h.answerPass hrun hcall hreply hkept horiginal
              (fun _ => passFill_served hcall hperform)
              fun _ => Journal.net_perform (pass_call_zeroed hcall) hperform
  · cases hserve

theorem Attributed.breakDown (h : Attributed initial m) {caller : Caller} {message : String}
    (hbreak : m.breakDown caller message = some m') : Attributed initial m' := by
  have hnothing : ∀ symbol, m.journal.net symbol =
      m.journal.net symbol + JournalReply.fillOn symbol (.threw message) :=
    fun _ => (Int.add_zero _).symm
  rw [OrderManager.breakDown] at hbreak
  split at hbreak
  · rename_i call hpending
    obtain rfl := Option.some.inj hbreak
    cases caller with
    | action i =>
        obtain ⟨t, ht, hcall, hreply⟩ := pending_action hpending
        refine h.answerAction ht hreply h.journal (fun symbol => ?_) hnothing
        rw [Task.unsettledFill]
        split <;> rfl
    | reconcile =>
        obtain ⟨run, hrun, hcall, hreply⟩ := pending_reconcile hpending
        have horiginal : ReplyOriginal initial call (.threw message) :=
          .of_other (fun _ hr => by cases hr) fun _ hr => by cases hr
        refine h.answerPass hrun hcall hreply h.journal horiginal (fun symbol => ?_) hnothing
        rw [ReconcileRun.unsettledFill]
        split <;> rfl
  · cases hbreak

/-- A symbol the view has no intent on was not in the first journal. -/
theorem Covers.net_zero {view : OrderedMap ClientOrderId BoxOrderIntent}
    (h : Covers initial view)
    (hnone : symbol ∉ view.values.map BoxOrderIntent.symbol) : initial.net symbol = 0 := by
  have hzero : ∀ id first, initial.rows.get? id = some first → first.fillOn symbol = 0 := by
    intro id first hfirst
    obtain ⟨row, hrow, hsymbol⟩ := h id first hfirst
    rw [BoxOrderIntent.fillOn, if_neg]
    rintro rfl
    refine hnone (List.mem_map.mpr ⟨row, ?_, hsymbol⟩)
    exact OrderedMap.mem_values_iff.mpr ⟨id, hrow⟩
  rw [Journal.net, OrderedMap.tally_congr hzero]
  exact OrderedMap.tally_zero

/-- The end of a synchronous block of the pass. Its books have added what the pass was
told of, and a pass that rebuilds is current. -/
theorem Attributed.commitReconcile (h : Attributed initial m) (w : World)
    {s : ReconcileStretch} (hs : s.Sound initial)
    (hbook : Adds (fun symbol => unsettledPass m.reconcileRun symbol) m.book s.book)
    (hcurrent : ∀ run ∈ s.next.rebuilt, PassCurrent m run) :
    Attributed initial (m.commitReconcile cfg w s) := by
  have hbook' : Adds (fun symbol => unsettledPass m.reconcileRun symbol) m.book
      (if s.violated then { m with book := s.book }.reconcile cfg w
        else { m with book := s.book }).book := by
    split
    · exact hbook.then (SameAccount.reconcile cfg w { m with book := s.book }).adds
    · exact hbook
  have hsame : SameLegs m (if s.violated then { m with book := s.book }.reconcile cfg w
      else { m with book := s.book }) := by
    split
    · exact (SameLegs.setBook m s.book).trans (.reconcile cfg w _)
    · exact .setBook m s.book
  have hjournal : (if s.violated then { m with book := s.book }.reconcile cfg w
      else { m with book := s.book }).journal = m.journal := by
    split
    · exact reconcile_journal cfg w _
    · rfl
  rw [OrderManager.commitReconcile]
  generalize (if s.violated then { m with book := s.book }.reconcile cfg w
    else { m with book := s.book }) = n at hbook' hsame hjournal
  have hsettled : ∀ symbol, n.book.net symbol + unsettledTasks n.tasks symbol +
      (if n.book.lastReconciledAt.isNone then initial.net symbol else 0) =
        n.journal.net symbol := by
    intro symbol
    have hbalance := h.balance symbol
    rw [hbook'.net, hbook'.lastReconciledAt, hsame.tasks, hjournal]
    omega
  have hfresh : ∀ i t, n.tasks.get? i = some t → i < n.nextTask := by
    rw [hsame.tasks, hsame.nextTask]
    exact h.fresh
  have hzeroed : ∀ i t, n.tasks.get? i = some t → t.phase = .creating →
      t.intent.filledQuantity = 0 := by
    rw [hsame.tasks]
    exact h.zeroed
  rw [ReconcileStretch.Sound] at hs
  cases hnext : s.next with
  | await run =>
      rw [hnext] at hs
      exact
        { fresh := hfresh
          zeroed := hzeroed
          balance := fun symbol => by
            have hnone : unsettledPass (some run) symbol = 0 := hs.2 symbol
            have hbalance := hsettled symbol
            dsimp only
            omega
          gross := hbook'.gross h.gross
          journal := hjournal ▸ h.journal
          pass := fun run' hrun' => Option.some.inj hrun' ▸ hs.1 }
  | failed message =>
      have hfailed := (SameAccount.reconcileFailed cfg n message).adds
      exact
        { fresh := hfresh
          zeroed := hzeroed
          balance := fun symbol => by
            have hbalance := hsettled symbol
            have hnet := hfailed.net symbol
            have hlast := hfailed.lastReconciledAt
            show (n.reconcileFailed cfg message).book.net symbol +
              unsettledTasks n.tasks symbol + 0 + _ = n.journal.net symbol
            rw [hnet, hlast]
            omega
          gross := hfailed.gross (hbook'.gross h.gross)
          journal := hjournal ▸ h.journal
          pass := fun run' hrun' => by cases hrun' }
  | rebuild run =>
      rw [hnext] at hs
      have hpass := hcurrent run (by rw [hnext]; rfl)
      exact
        { fresh := hfresh
          zeroed := hzeroed
          balance := fun symbol => by
            have hnone : unsettledPass (some { run with phase := .reporting, reply := none })
                symbol = 0 := rfl
            show (run.rebuild w n.book).net symbol + unsettledTasks n.tasks symbol + _ + _ =
              n.journal.net symbol
            rw [hnone, rebuild_net, rebuild_last]
            by_cases hmem : symbol ∈ run.ownedByClient.values.map BoxOrderIntent.symbol
            · rw [if_pos hmem]
              obtain ⟨intent, hintent, rfl⟩ := List.mem_map.mp hmem
              have := hpass intent hintent
              rw [hsame.tasks, hjournal, Int.add_zero]
              simpa using this
            · rw [if_neg hmem]
              have hbalance := hsettled symbol
              have hzero := hs.net_zero hmem
              rw [hzero, ite_self] at hbalance
              simpa using hbalance
          gross := rebuild_gross
          journal := hjournal ▸ h.journal
          pass := fun run' hrun' => by
            obtain rfl := Option.some.inj hrun'
            exact ⟨fun _ _ => hs, fun _ _ hcall => by cases hcall⟩ }

theorem answered_unsettled {answer : ReconcileAnswer} {run : ReconcileRun} {b : Book}
    {s : ReconcileStretch} (h : run.answered w b answer = some s) :
    run.unsettledFill symbol = 0 := by
  rw [ReconcileRun.unsettledFill]
  split
  · rename_i hphase
    simp [ReconcileRun.answered, hphase] at h
  · rfl

theorem Attributed.reported (h : Attributed initial m) {run : ReconcileRun}
    (hrun : m.reconcileRun = some run) (hphase : run.phase = .reporting)
    {answer : ReconcileAnswer} (hreported : m.reported cfg answer = some m') :
    Attributed initial m' := by
  have hnone : ∀ symbol, unsettledPass m.reconcileRun symbol = 0 := by
    intro symbol
    rw [hrun]
    show run.unsettledFill symbol = 0
    rw [ReconcileRun.unsettledFill, hphase]
  have hended : ∀ n : OrderManager, SameAccount m.book n.book → n.tasks = m.tasks →
      n.nextTask = m.nextTask → n.journal = m.journal → n.reconcileRun = none →
      Attributed initial n := by
    intro n hbook htasks hnext hjournal hend
    exact
      { fresh := htasks ▸ hnext ▸ h.fresh
        zeroed := htasks ▸ h.zeroed
        balance := fun symbol => by
          have hbalance := h.balance symbol
          rw [hnone symbol] at hbalance
          rw [hbook.net, hbook.lastReconciledAt, htasks, hjournal, hend]
          exact hbalance
        gross := hbook.adds.gross h.gross
        journal := hjournal ▸ h.journal
        pass := fun run' hrun' => by
          rw [hend] at hrun'
          cases hrun' }
  cases answer with
  | reported =>
      obtain rfl := Option.some.inj hreported
      exact hended _ (.refl _) rfl rfl rfl rfl
  | threw message =>
      obtain rfl := Option.some.inj hreported
      exact hended _ (.reconcileFailed cfg m message) rfl rfl rfl rfl
  | health _ => cases hreported
  | orders _ => cases hreported
  | positions _ => cases hreported
  | adopted _ => cases hreported

/-- Every step keeps the invariant whose rebuild is of a current pass. -/
theorem Attributed.step (h : Attributed initial m) {label : Label}
    (hc : AttributionCondition m label) (hstep : m.step cfg label = some m') :
    Attributed initial m' := by
  cases label with
  | submit w request capital entry => exact Option.some.inj hstep ▸ h.submit w request _ _
  | enqueueCancel w intent => exact Option.some.inj hstep ▸ h.enqueue w _
  | serve caller => exact h.serve hstep
  | breakDown caller message => exact h.breakDown hstep
  | resume w caller =>
      cases caller with
      | action i =>
          obtain ⟨t, ht, h1⟩ := Option.bind_eq_some_iff.mp hstep
          obtain ⟨call, -, h2⟩ := Option.bind_eq_some_iff.mp h1
          obtain ⟨reply, hreply, h3⟩ := Option.bind_eq_some_iff.mp h2
          obtain ⟨s, hs, h4⟩ := Option.bind_eq_some_iff.mp h3
          have hbook := (adds_taskWrite m.book t hreply).then (Task.account_resume hs).adds
          exact Option.some.inj h4 ▸ h.commit ht (Task.continues_resume hs) hbook
      | reconcile =>
          obtain ⟨run, hrun, h1⟩ := Option.bind_eq_some_iff.mp hstep
          obtain ⟨call, hcall, h2⟩ := Option.bind_eq_some_iff.mp h1
          obtain ⟨reply, hreply, h3⟩ := Option.bind_eq_some_iff.mp h2
          obtain ⟨s, hs, h4⟩ := Option.bind_eq_some_iff.mp h3
          have hsound := ReconcileRun.sound_resume (h.pass run hrun) hcall hreply hs
          have hbook := (adds_passWrite m.book run hreply).then
            (ReconcileRun.account_resume hs).adds
          refine Option.some.inj h4 ▸ h.commitReconcile w hsound ?_ fun run' hrun' => hc.2 run' ?_
          · rw [hrun]
            exact hbook
          · simpa [rebuilding, hrun, hcall, hreply, hs] using hrun'
  | fetched w i answer =>
      obtain ⟨t, ht, h1⟩ := Option.bind_eq_some_iff.mp hstep
      obtain ⟨s, hs, h2⟩ := Option.bind_eq_some_iff.mp h1
      refine Option.some.inj h2 ▸ h.commit_other ht (Task.continues_fetched hs) ?_
        (Task.account_fetched hs)
      intro site order hphase
      simp [Task.fetched, hphase] at hs
  | pass i =>
      obtain ⟨t, ht, hpass⟩ := Option.bind_eq_some_iff.mp hstep
      rw [OrderManager.pass] at hpass
      split at hpass
      · rename_i hturn
        have hnone : (fun symbol => t.unsettledFill symbol) = fun _ => (0 : Int) :=
          funext fun symbol => unsettledFill_of_phase fun site order => by simp [hturn.1]
        refine Option.some.inj hpass ▸ h.advance ht { t with
          phase := .sending, reply := none } rfl rfl (hnone ▸ .refl m.book)
          (fun symbol => unsettledFill_of_reply rfl) (by simp) (.inl rfl) rfl
      · cases hpass
  | prePost w i =>
      obtain ⟨t, ht, rfl⟩ := Option.map_eq_some_iff.mp hstep
      exact h.prePost w (LegInvariant.taskIn ht).1 (LegInvariant.taskIn ht).2
  | submitted w i answer =>
      obtain ⟨t, ht, rfl⟩ := Option.map_eq_some_iff.mp hstep
      obtain ⟨hget, hphase⟩ := LegInvariant.taskIn ht
      exact h.commit_other hget (Task.continues_submitted answer)
        (fun site order => by simp [hphase]) (Task.account_submitted answer)
  | cancelled w i answer =>
      obtain ⟨t, ht, rfl⟩ := Option.map_eq_some_iff.mp hstep
      obtain ⟨hget, hphase⟩ := LegInvariant.taskIn ht
      exact h.commit_other hget (Task.continues_cancelled answer)
        (fun site order => by simp [hphase]) (Task.account_cancelled answer)
  | release w i =>
      obtain ⟨t, ht, rfl⟩ := Option.map_eq_some_iff.mp hstep
      exact h.release w (LegInvariant.taskIn ht).1 (LegInvariant.taskIn ht).2
  | reconcile w => exact Option.some.inj hstep ▸ h.reconcile w
  | reconcileAnswered w answer =>
      obtain ⟨run, hrun, h1⟩ := Option.bind_eq_some_iff.mp hstep
      by_cases hphase : run.phase = .reporting
      · rw [if_pos hphase] at h1
        exact h.reported hrun hphase h1
      · rw [if_neg hphase] at h1
        obtain ⟨s, hs, h2⟩ := Option.bind_eq_some_iff.mp h1
        have hnone : (fun symbol => unsettledPass m.reconcileRun symbol) =
            fun _ => (0 : Int) := by
          funext symbol
          rw [hrun]
          exact answered_unsettled hs
        refine Option.some.inj h2 ▸ h.commitReconcile w
          (ReconcileRun.sound_answered (h.pass run hrun) hs)
          (hnone ▸ (ReconcileRun.account_answered hs).adds) fun run' hrun' => hc.2 run' ?_
        simpa [rebuilding, hrun, hphase, hs] using hrun'
  | setControls controls =>
      exact Option.some.inj hstep ▸ h.setBook (.of_positions rfl rfl rfl)
  | setExposure openBoxes residualLegs =>
      exact Option.some.inj hstep ▸ h.setBook (SameAccount.setExposure cfg m _ _).adds
  | setFeedHealthy w healthy =>
      exact Option.some.inj hstep ▸ h.setBook (.of_positions rfl rfl rfl)
  | setCrashOnlyAttributedExposure exists' =>
      exact Option.some.inj hstep ▸ h.setBook (.of_positions rfl rfl rfl)
  | recordRealisedPnl delta =>
      exact Option.some.inj hstep ▸ h.setBook (SameAccount.changeRisk cfg m _).adds
  | seedLimits day seed =>
      exact Option.some.inj hstep ▸ h.setBook (SameAccount.changeRisk cfg m _).adds
  | dailyRiskLoaded generation seed =>
      exact Option.some.inj hstep ▸ h.setBook (SameAccount.changeRisk cfg m _).adds
  | invariantViolation w reason =>
      exact Option.some.inj hstep ▸
        (h.setBook (SameAccount.invariantViolation m.book reason).adds).reconcile w
  | dispose => exact Option.some.inj hstep ▸ h.dispose
  | foreign row => cases hc.1

theorem Attributed.create (controls : OrderManagerControls) (day : String)
    (journal : Journal) : Attributed journal (OrderManager.create controls day journal) where
  fresh _ _ ht := by simp [OrderManager.create] at ht
  zeroed _ _ ht := by simp [OrderManager.create] at ht
  balance symbol := by
    show 0 + 0 + 0 + journal.net symbol = journal.net symbol
    omega
  gross := rfl
  journal := .refl journal
  pass _ hrun := by cases hrun

/-- With nothing in flight there is nothing left to add. -/
theorem Attributed.durable (h : Attributed initial m) : ExposureDurable m := by
  rintro ⟨hrun, hcalls⟩ hsome
  refine ⟨fun symbol => ?_, h.gross⟩
  have hbalance := h.balance symbol
  have htasks : unsettledTasks m.tasks symbol = 0 := by
    have hzero : ∀ i t, m.tasks.get? i = some t → t.unsettledFill symbol = 0 := by
      intro i t ht
      refine unsettledFill_of_phase fun site order hphase => ?_
      have hcall := hcalls i t ht
      simp [Task.call, hphase] at hcall
    rw [unsettledTasks, OrderedMap.tally_congr hzero]
    exact OrderedMap.tally_zero
  have hfirst : m.book.lastReconciledAt.isNone = false := by simp [hsome]
  rw [htasks, hrun, hfirst] at hbalance
  simpa [unsettledPass] using hbalance

end Steps

/-- In every run whose rebuilds are of current passes, from a new manager over any journal,
the attributed exposure is that of the journal whenever nothing is in flight. -/
theorem exposure_durable (cfg : Config) (controls : OrderManagerControls) (day : String)
    (journal : Journal) (labels : List Label)
    (h : Heeds (OrderManager.step cfg) AttributionCondition
      (OrderManager.create controls day journal) labels) :
    Throughout (OrderManager.step cfg) ExposureDurable
      (OrderManager.create controls day journal) labels := by
  have hinvariant := Throughout.of_heeds
    (fun m label m' (hm : Attributed journal m) hc hstep => hm.step hc hstep)
    (Attributed.create controls day journal) h
  exact hinvariant.mono fun m hm => hm.durable

namespace Sample

/-- A bare entry order. -/
def entry : BrokerOrderRequest := request .k1Ce .buy .entry

def brokerRead : List Label :=
  [.reconcileAnswered (world 100) (.health none), .reconcileAnswered (world 100) (.orders [])]

def rebuilt : List Label :=
  [.reconcileAnswered (world 100) (.positions []), .reconcileAnswered (world 100) .reported]

/-- A pass loads the intent before it is sent, the order fills and its fill is persisted
and attributed, and then the pass rebuilds. -/
def erased : List Label :=
  warmUp ++ [.submit (world 100) entry none none] ++ answered 0 ++ passLoads ++ brokerRead ++
    answered 0 ++ returned 0 (order entry .complete 75) ++ [.release (world 100) 0] ++ rebuilt

/-- The same with the pass after the fill. -/
def counted : List Label :=
  warmUp ++ [.submit (world 100) entry none none] ++ prepared 0 ++
    returned 0 (order entry .complete 75) ++ [.release (world 100) 0] ++ passLoads ++
    brokerRead ++ rebuilt

end Sample

/-- A rebuild erases an increment that was attributed after its row had been loaded. -/
theorem increment_erased : ∃ m,
    managerRun Sample.config (Sample.manager .empty) Sample.erased = some m ∧
      m.book.net Sample.entry.symbol = 0 ∧ m.journal.net Sample.entry.symbol = 75 ∧
      Quiescent m ∧ ¬ExposureDurable m := by
  have hend : (managerRun Sample.config (Sample.manager .empty) Sample.erased).map (fun m =>
      (m.book.net Sample.entry.symbol, m.journal.net Sample.entry.symbol, m.tasks.keys,
        m.reconcileRun.isNone, m.book.lastReconciledAt.isSome)) =
      some (0, 75, [], true, true) := by decide +kernel
  obtain ⟨m, hrun, hm⟩ := Option.map_eq_some_iff.mp hend
  simp only [Prod.mk.injEq] at hm
  obtain ⟨hnet, hdurable, hkeys, hpass, hsome⟩ := hm
  have hquiescent : Quiescent m := by
    refine ⟨Option.isNone_iff_eq_none.mp hpass, fun i t ht => ?_⟩
    have hmem := OrderedMap.mem_keys_iff.mpr ⟨t, ht⟩
    rw [hkeys] at hmem
    cases hmem
  refine ⟨m, hrun, hnet, hdurable, hquiescent, fun hclaim => ?_⟩
  have hequal := (hclaim hquiescent hsome).1 Sample.entry.symbol
  rw [hnet, hdurable] at hequal
  cases hequal

/-- A pass that loads after the fill counts it once. -/
theorem exposure_durable_sample : Throughout (OrderManager.step Sample.config) ExposureDurable
    (Sample.manager .empty) Sample.counted :=
  exposure_durable Sample.config ⟨true, true⟩ "D" .empty _ (by decide +kernel)

end Strikedge.Orders
