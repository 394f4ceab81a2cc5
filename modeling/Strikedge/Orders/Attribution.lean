import Strikedge.Machine.Tally
import Strikedge.Orders.Account

/-!
# Attributed exposure and the journal

`persistOrder` adds what its own write advanced to the attributed position; a reconcile
pass sets the positions of every symbol it holds an intent for to the fills it holds. In
between, the positions lag the journal by exactly the increments that are acknowledged and
not yet added. A pass keeps it so when its copies of the rows, with those increments, are
the journal's at the moment it rebuilds.
-/

namespace Strikedge.Orders

open Machine OrderManager

/-- What a row adds to the position of a symbol. -/
def BoxOrderIntent.fillOn (symbol : SymbolKey) (row : BoxOrderIntent) : Int :=
  if row.symbol = symbol then row.signedFill else 0

/-- The signed durable fills on a symbol. -/
def Journal.net (j : Journal) (symbol : SymbolKey) : Int :=
  j.rows.tally fun _ row => row.fillOn symbol

/-- The increment a reply acknowledges. -/
def JournalReply.fillOn (symbol : SymbolKey) : JournalReply → Int
  | .updated (.applied row previous current) =>
      if row.symbol = symbol then row.side.signed (current - previous) else 0
  | _ => 0

/-- The increment an action has been told of and has not yet added. -/
def Task.unsettledFill (symbol : SymbolKey) (t : Task) : Int :=
  match t.phase with
  | .persisting .. => t.reply.elim 0 (JournalReply.fillOn symbol)
  | _ => 0

def ReconcileRun.unsettledFill (symbol : SymbolKey) (run : ReconcileRun) : Int :=
  match run.phase with
  | .persisting .. => run.reply.elim 0 (JournalReply.fillOn symbol)
  | _ => 0

/-- The increments the actions in flight have not yet added. -/
def unsettledTasks (tasks : OrderedMap TaskId Task) (symbol : SymbolKey) : Int :=
  tasks.tally fun _ => Task.unsettledFill symbol

def unsettledPass (run : Option ReconcileRun) (symbol : SymbolKey) : Int :=
  run.elim 0 (ReconcileRun.unsettledFill symbol)

/-- No persistence write and no reconcile is in flight. -/
def Quiescent (m : OrderManager) : Prop :=
  m.reconcileRun = none ∧ ∀ i t, m.tasks.get? i = some t → t.call = none

/-- Once a pass has completed, the positions are those of the journal whenever nothing is
in flight, and the gross quantity is the sum of their absolute values. -/
def ExposureDurable (m : OrderManager) : Prop :=
  Quiescent m → m.book.lastReconciledAt.isSome →
    (∀ symbol, m.book.net symbol = m.journal.net symbol) ∧
      m.book.grossOpenLegQuantity = (m.book.attributedBoxPositions.values.map Int.natAbs).sum

/-- The pass a stretch ends with a rebuild. -/
def ReconcileNext.rebuilt : ReconcileNext → Option ReconcileRun
  | .rebuild run => some run
  | _ => none

/-- The pass that a label lets rebuild the positions. -/
def OrderManager.rebuilding (m : OrderManager) : Label → Option ReconcileRun
  | .resume _ .reconcile => do
      let run ← m.reconcileRun
      let _ ← run.call
      let reply ← run.reply
      let s ← run.resume m.book reply
      s.next.rebuilt
  | .reconcileAnswered w answer => do
      let run ← m.reconcileRun
      if run.phase = .reporting then none
      else
        let s ← run.answered w m.book answer
        s.next.rebuilt
  | _ => none

/-- On every symbol of the pass, the copies it holds and the increments the actions in
flight have yet to add make up the journal. -/
def PassCurrent (m : OrderManager) (run : ReconcileRun) : Prop :=
  ∀ intent ∈ run.ownedByClient.values,
    ReconcileRun.intentNet run.ownedByClient.values intent.symbol +
      unsettledTasks m.tasks intent.symbol = m.journal.net intent.symbol

def Label.isForeign : Label → Bool
  | .foreign _ => true
  | _ => false

/-- The process is alone with its journal, and a pass that rebuilds is current. -/
def AttributionCondition (m : OrderManager) (label : Label) : Prop :=
  label.isForeign = false ∧ ∀ run ∈ m.rebuilding label, PassCurrent m run

instance (m : OrderManager) (run : ReconcileRun) : Decidable (PassCurrent m run) :=
  inferInstanceAs (Decidable (∀ intent ∈ run.ownedByClient.values, _))

instance (m : OrderManager) (label : Label) : Decidable (AttributionCondition m label) :=
  inferInstanceAs (Decidable (_ ∧ _))

section Journal

variable {j j' : Journal} {store : Persistence} {call : JournalCall} {reply : JournalReply}
variable {row : BoxOrderIntent} {symbol : SymbolKey} {id : ClientOrderId}

/-- Writing a row replaces the fill of its predecessor. -/
theorem Journal.net_put (j : Journal) (row : BoxOrderIntent) (symbol : SymbolKey) :
    (j.put row).net symbol + (j.find row.clientOrderId).elim 0 (BoxOrderIntent.fillOn symbol) =
      j.net symbol + row.fillOn symbol :=
  OrderedMap.tally_set (fun _ row => BoxOrderIntent.fillOn symbol row) j.rows
    row.clientOrderId row

theorem Journal.net_congr (h : j'.rows = j.rows) : j'.net symbol = j.net symbol := by
  rw [Journal.net, Journal.net, h]

theorem BoxOrderIntent.fillOn_zero (h : row.filledQuantity = 0) : row.fillOn symbol = 0 := by
  rw [fillOn, signedFill, h, OrderSide.signed_zero, ite_self]

/-- A write on a row advances its fill by what the reply reports. -/
theorem fillOn_advance (symbol : SymbolKey) (before after : BoxOrderIntent) (hsymbol : after.symbol = before.symbol)
    (hside : after.side = before.side) (hle : before.filledQuantity ≤ after.filledQuantity) :
    after.fillOn symbol = before.fillOn symbol + JournalReply.fillOn symbol
      (.updated (.applied after before.filledQuantity after.filledQuantity)) := by
  have hsplit : after.filledQuantity =
      before.filledQuantity + (after.filledQuantity - before.filledQuantity) := by omega
  simp only [BoxOrderIntent.fillOn, BoxOrderIntent.signedFill, JournalReply.fillOn, hsymbol,
    hside]
  by_cases h : before.symbol = symbol
  · rw [if_pos h, if_pos h, if_pos h, ← OrderSide.signed_add, ← hsplit]
  · rw [if_neg h, if_neg h, if_neg h, Int.add_zero]

/-- An update moves the journal by what its reply acknowledges. -/
theorem Journal.net_update {patch : BoxOrderIntentPatch} {audit : BoxOrderIntentAudit}
    {expected : Option (List BoxOrderIntentState)}
    (h : j.perform store (.update id patch audit expected) = (j', reply)) :
    j'.net symbol = j.net symbol + reply.fillOn symbol := by
  rw [perform] at h
  cases hupdate : j.updateBoxOrderIntent store id patch audit expected with
  | mk j'' result =>
      rw [hupdate] at h
      rcases Journal.update_cases hupdate with ⟨rfl, hnothing⟩ |
        ⟨before, hbefore, hadmits, -, hrows, rfl⟩
      · rcases hnothing with rfl | ⟨message, rfl⟩ | ⟨row, -, rfl⟩
        · obtain ⟨rfl, rfl⟩ := Prod.mk.inj h
          exact (Int.add_zero _).symm
        · obtain ⟨rfl, rfl⟩ := Prod.mk.inj h
          exact (Int.add_zero _).symm
        · obtain ⟨rfl, rfl⟩ := Prod.mk.inj h
          exact (Int.add_zero _).symm
      · obtain ⟨rfl, rfl⟩ := Prod.mk.inj h
        have hkey : before.clientOrderId = id := j.keyed id before hbefore
        have hput := j.net_put ((patch.apply before).recordAudit audit) symbol
        have hadvance := fillOn_advance symbol before ((patch.apply before).recordAudit audit)
          (by simp) (by simp) (by simpa using Persistence.fill_le _ hadmits)
        rw [recordAudit_clientOrderId, apply_clientOrderId, hkey, hbefore, Option.elim_some,
          ← Journal.net_congr hrows] at hput
        omega

theorem Journal.net_create {intent : BoxOrderIntent} (hzero : intent.filledQuantity = 0)
    (h : j.perform store (.create intent) = (j', reply)) :
    j'.net symbol = j.net symbol + reply.fillOn symbol := by
  simp only [perform, createBoxOrderIntent] at h
  cases hfind : j.find intent.clientOrderId with
  | none =>
      simp only [hfind] at h
      obtain ⟨rfl, rfl⟩ := Prod.mk.inj h
      have hput := j.net_put intent symbol
      rw [hfind, BoxOrderIntent.fillOn_zero hzero, Option.elim_none, Int.add_zero] at hput
      exact hput
  | some row =>
      simp only [hfind] at h
      cases hmismatch : immutableMismatch row intent with
      | none =>
          simp only [hmismatch] at h
          obtain ⟨rfl, rfl⟩ := Prod.mk.inj h
          exact (Int.add_zero _).symm
      | some field =>
          simp only [hmismatch] at h
          obtain ⟨rfl, rfl⟩ := Prod.mk.inj h
          exact (Int.add_zero _).symm

/-- A call moves the journal by what its reply acknowledges. -/
theorem Journal.net_perform (hzero : ∀ intent, call = .create intent → intent.filledQuantity = 0)
    (h : j.perform store call = (j', reply)) :
    j'.net symbol = j.net symbol + reply.fillOn symbol := by
  cases call with
  | create intent => exact Journal.net_create (hzero intent rfl) h
  | update id patch audit expected => exact Journal.net_update h
  | loadNonterminal =>
      obtain ⟨rfl, rfl⟩ := Prod.mk.inj h
      exact (Int.add_zero _).symm
  | loadOwned =>
      obtain ⟨rfl, rfl⟩ := Prod.mk.inj h
      exact (Int.add_zero _).symm

/-- A transition acknowledges no increment. -/
theorem fillOn_transition {patch : BoxOrderIntentPatch} {audit : BoxOrderIntentAudit}
    {expected : Option (List BoxOrderIntentState)} (hpatch : patch.filledQuantity = none)
    (h : j.perform store (.update id patch audit expected) = (j', reply)) :
    reply.fillOn symbol = 0 := by
  rw [Journal.perform] at h
  cases hupdate : j.updateBoxOrderIntent store id patch audit expected with
  | mk j'' result =>
      rw [hupdate] at h
      rcases Journal.update_cases hupdate with ⟨-, hnothing⟩ | ⟨before, -, -, -, -, rfl⟩
      · rcases hnothing with rfl | ⟨message, rfl⟩ | ⟨row, -, rfl⟩
        · obtain ⟨-, rfl⟩ := Prod.mk.inj h
          rfl
        · obtain ⟨-, rfl⟩ := Prod.mk.inj h
          rfl
        · obtain ⟨-, rfl⟩ := Prod.mk.inj h
          rfl
      · obtain ⟨-, rfl⟩ := Prod.mk.inj h
        simp [JournalReply.fillOn, hpatch]

end Journal

/-- A row stays on the symbol it had in the first journal. -/
def Original (initial : Journal) (row : BoxOrderIntent) : Prop :=
  ∀ first, initial.find row.clientOrderId = some first → row.symbol = first.symbol

/-- The journal still has every row of the first one, each on its symbol. -/
structure JournalKept (initial j : Journal) : Prop where
  rows : ∀ id row, j.find id = some row → Original initial row
  kept : ∀ id first, initial.find id = some first → ∃ row, j.find id = some row

/-- What a reply tells about the rows of the first journal. -/
structure ReplyOriginal (initial : Journal) (call : JournalCall) (reply : JournalReply) :
    Prop where
  updated : ∀ result row, reply = .updated result → Book.rowOf result = some row →
    Original initial row
  loaded : ∀ rows row, reply = .loaded rows → row ∈ rows → Original initial row
  covers : ∀ rows id first, reply = .loaded rows → call = .loadOwned →
    initial.find id = some first → ∃ row ∈ rows, row.clientOrderId = id

section Kept

variable {initial j j' : Journal} {store : Persistence} {call : JournalCall}
variable {reply : JournalReply} {row : BoxOrderIntent} {id : ClientOrderId}

theorem JournalKept.refl (initial : Journal) : JournalKept initial initial where
  rows id row hrow first hfirst := by
    rw [initial.keyed id row hrow] at hfirst
    obtain rfl := Option.some.inj (hrow.symm.trans hfirst)
    rfl
  kept id first hfirst := ⟨first, hfirst⟩

theorem JournalKept.congr (h : JournalKept initial j) (hrows : j'.rows = j.rows) :
    JournalKept initial j' where
  rows id row hrow := h.rows id row (by rwa [Journal.find, hrows] at hrow)
  kept id first hfirst := by
    obtain ⟨row, hrow⟩ := h.kept id first hfirst
    exact ⟨row, by rwa [Journal.find, hrows]⟩

theorem JournalKept.put (h : JournalKept initial j) (hrow : Original initial row) :
    JournalKept initial (j.put row) where
  rows id other hother := by
    rw [Journal.find_put] at hother
    by_cases hid : id = row.clientOrderId
    · rw [if_pos hid] at hother
      exact Option.some.inj hother ▸ hrow
    · rw [if_neg hid] at hother
      exact h.rows id other hother
  kept id first hfirst := by
    rw [Journal.find_put]
    by_cases hid : id = row.clientOrderId
    · exact ⟨row, if_pos hid⟩
    · obtain ⟨other, hother⟩ := h.kept id first hfirst
      exact ⟨other, by rwa [if_neg hid]⟩

theorem Original.patched (h : Original initial row) (patch : BoxOrderIntentPatch)
    (audit : BoxOrderIntentAudit) :
    Original initial ((patch.apply row).recordAudit audit) := by
  intro first hfirst
  rw [recordAudit_clientOrderId, apply_clientOrderId] at hfirst
  rw [recordAudit_symbol, apply_symbol]
  exact h first hfirst

/-- A reply that carries no row. -/
theorem ReplyOriginal.of_other
    (hupdated : ∀ result, reply = .updated result → Book.rowOf result = none)
    (hloaded : ∀ rows, reply ≠ .loaded rows) : ReplyOriginal initial call reply where
  updated result row hreply hrow := by
    rw [hupdated result hreply] at hrow
    cases hrow
  loaded rows _ hreply _ := absurd hreply (hloaded rows)
  covers rows _ _ hreply _ _ := absurd hreply (hloaded rows)

theorem ReplyOriginal.of_updated {result : UpdateResult}
    (h : ∀ row, Book.rowOf result = some row → Original initial row) :
    ReplyOriginal initial call (.updated result) where
  updated result' row hreply hrow := by
    obtain rfl := JournalReply.updated.inj hreply
    exact h row hrow
  loaded _ _ hreply _ := by cases hreply
  covers _ _ _ hreply _ _ := by cases hreply

/-- Every call keeps the first rows, and its reply tells no lies about them. -/
theorem JournalKept.perform (hkept : JournalKept initial j)
    (h : j.perform store call = (j', reply)) :
    JournalKept initial j' ∧ ReplyOriginal initial call reply := by
  cases call with
  | create intent =>
      have hother : ∀ result, ReplyOriginal initial (.create intent)
          (match result with
            | Except.ok row => JournalReply.created row
            | .error message => .threw message) := by
        intro result
        cases result with
        | ok row => exact .of_other (fun _ hreply => by cases hreply) fun _ hreply => by cases hreply
        | error message =>
            exact .of_other (fun _ hreply => by cases hreply) fun _ hreply => by cases hreply
      simp only [Journal.perform, Journal.createBoxOrderIntent] at h
      cases hfind : j.find intent.clientOrderId with
      | none =>
          simp only [hfind] at h
          obtain ⟨rfl, rfl⟩ := Prod.mk.inj h
          refine ⟨hkept.put fun first hfirst => ?_, hother (.ok intent)⟩
          obtain ⟨row, hrow⟩ := hkept.kept _ first hfirst
          rw [hfind] at hrow
          cases hrow
      | some row =>
          simp only [hfind] at h
          cases hmismatch : immutableMismatch row intent with
          | none =>
              simp only [hmismatch] at h
              obtain ⟨rfl, rfl⟩ := Prod.mk.inj h
              exact ⟨hkept, hother (.ok row)⟩
          | some field =>
              simp only [hmismatch] at h
              obtain ⟨rfl, rfl⟩ := Prod.mk.inj h
              exact ⟨hkept, hother (.error _)⟩
  | update id patch audit expected =>
      rw [Journal.perform] at h
      cases hupdate : j.updateBoxOrderIntent store id patch audit expected with
      | mk j'' result =>
          rw [hupdate] at h
          rcases Journal.update_cases hupdate with ⟨rfl, hnothing⟩ |
            ⟨before, hbefore, -, -, hrows, rfl⟩
          · rcases hnothing with rfl | ⟨message, rfl⟩ | ⟨row, hrow, rfl⟩
            · obtain ⟨rfl, rfl⟩ := Prod.mk.inj h
              exact ⟨hkept, .of_updated fun row hrow => by cases hrow⟩
            · obtain ⟨rfl, rfl⟩ := Prod.mk.inj h
              exact ⟨hkept, .of_other (fun _ hreply => by cases hreply)
                fun _ hreply => by cases hreply⟩
            · obtain ⟨rfl, rfl⟩ := Prod.mk.inj h
              refine ⟨hkept, .of_updated fun row' hrow' => ?_⟩
              obtain rfl := Option.some.inj hrow'
              exact hkept.rows id row hrow
          · obtain ⟨rfl, rfl⟩ := Prod.mk.inj h
            have hafter := (hkept.rows id before hbefore).patched patch audit
            refine ⟨(hkept.put hafter).congr hrows, .of_updated fun row' hrow' => ?_⟩
            obtain rfl := Option.some.inj hrow'
            exact hafter
  | loadNonterminal =>
      obtain ⟨rfl, rfl⟩ := Prod.mk.inj h
      refine ⟨hkept, ⟨fun _ _ hreply => (by cases hreply), fun rows row hreply hmem => ?_,
        fun _ _ _ _ hcall => (by cases hcall)⟩⟩
      obtain rfl := JournalReply.loaded.inj hreply
      obtain ⟨id, hrow⟩ := OrderedMap.mem_values_iff.mp (List.mem_filter.mp hmem).1
      exact hkept.rows id row hrow
  | loadOwned =>
      obtain ⟨rfl, rfl⟩ := Prod.mk.inj h
      refine ⟨hkept, ⟨fun _ _ hreply => (by cases hreply), fun rows row hreply hmem => ?_,
        fun rows id first hreply _ hfirst => ?_⟩⟩
      · obtain rfl := JournalReply.loaded.inj hreply
        obtain ⟨id, hrow⟩ := OrderedMap.mem_values_iff.mp (List.mem_reverse.mp hmem)
        exact hkept.rows id row hrow
      · obtain rfl := JournalReply.loaded.inj hreply
        obtain ⟨row, hrow⟩ := hkept.kept id first hfirst
        refine ⟨row, ?_, j.keyed id row hrow⟩
        exact List.mem_reverse.mpr (OrderedMap.mem_values_iff.mpr ⟨id, hrow⟩)

end Kept

/-- A view of the journal has a row on the symbol of each row of the first one. -/
def Covers (initial : Journal) (view : OrderedMap ClientOrderId BoxOrderIntent) : Prop :=
  ∀ id first, initial.find id = some first →
    ∃ row, view.get? id = some row ∧ row.symbol = first.symbol

/-- Once both loads are back the pass covers the first journal. -/
structure PassCovers (initial : Journal) (run : ReconcileRun) : Prop where
  view : run.phase ≠ .loadingNonterminal → run.phase ≠ .loadingOwned →
    Covers initial run.ownedByClient
  reply : ∀ call reply, run.call = some call → run.reply = some reply →
    ReplyOriginal initial call reply

section Pass

variable {initial : Journal} {view : OrderedMap ClientOrderId BoxOrderIntent}
variable {row : BoxOrderIntent} {run run' : ReconcileRun} {b : Book}

theorem Covers.set (h : Covers initial view) (hrow : Original initial row) :
    Covers initial (view.set row.clientOrderId row) := by
  intro id first hfirst
  rw [OrderedMap.get?_set]
  by_cases hid : id = row.clientOrderId
  · rw [if_pos hid]
    exact ⟨row, rfl, hrow first (hid ▸ hfirst)⟩
  · rw [if_neg hid]
    exact h id first hfirst

/-- Whatever the index had, it has a row of the list for each id of the list. -/
theorem indexClient_get {rows : List BoxOrderIntent} {id : ClientOrderId}
    (h : ∃ row ∈ rows, row.clientOrderId = id) :
    ∃ row ∈ rows, row.clientOrderId = id ∧
      (ReconcileRun.indexClient rows).get? id = some row := by
  have hfold : ∀ (rows : List BoxOrderIntent) (m : OrderedMap ClientOrderId BoxOrderIntent),
      (∃ row ∈ rows, row.clientOrderId = id ∧
        (rows.foldl (fun m intent => m.set intent.clientOrderId intent) m).get? id = some row) ∨
      ((∀ row ∈ rows, row.clientOrderId ≠ id) ∧
        (rows.foldl (fun m intent => m.set intent.clientOrderId intent) m).get? id =
          m.get? id) := by
    intro rows
    induction rows with
    | nil => exact fun m => .inr ⟨fun _ h => absurd h List.not_mem_nil, rfl⟩
    | cons row rest ih =>
        intro m
        rw [List.foldl_cons]
        rcases ih (m.set row.clientOrderId row) with ⟨r, hr, hid, hget⟩ | ⟨hnone, hget⟩
        · exact .inl ⟨r, List.mem_cons_of_mem row hr, hid, hget⟩
        · rw [OrderedMap.get?_set] at hget
          by_cases hid : id = row.clientOrderId
          · rw [if_pos hid] at hget
            exact .inl ⟨row, List.mem_cons_self, hid.symm, hget⟩
          · rw [if_neg hid] at hget
            refine .inr ⟨fun r hr => ?_, hget⟩
            rcases List.mem_cons.mp hr with rfl | hr
            · exact fun heq => hid heq.symm
            · exact hnone r hr
  obtain ⟨row, hmem, hid⟩ := h
  rcases hfold rows ∅ with hfound | ⟨hnone, -⟩
  · exact hfound
  · exact absurd hid (hnone row hmem)

theorem covers_indexClient {rows : List BoxOrderIntent}
    (horiginal : ∀ row ∈ rows, Original initial row)
    (hcovers : ∀ id first, initial.find id = some first → ∃ row ∈ rows, row.clientOrderId = id) :
    Covers initial (ReconcileRun.indexClient rows) := by
  intro id first hfirst
  obtain ⟨row, hmem, hid, hget⟩ := indexClient_get (hcovers id first hfirst)
  exact ⟨row, hget, horiginal row hmem first (hid ▸ hfirst)⟩

/-- The pass at the end of a stretch holds a view, and has nothing left to add. -/
def ReconcileStretch.Holds (view : OrderedMap ClientOrderId BoxOrderIntent)
    (s : ReconcileStretch) : Prop :=
  match s.next with
  | .await run => run.ownedByClient = view ∧ (run.call.isSome → run.reply = none) ∧
      run.phase ≠ .loadingNonterminal ∧ run.phase ≠ .loadingOwned
  | .rebuild run => run.ownedByClient = view
  | .failed _ => True

namespace ReconcileRun

theorem holds_checkMissing (run : ReconcileRun) (intents : List BoxOrderIntent) :
    (checkMissing b run intents).Holds run.ownedByClient := by
  induction intents generalizing b run with
  | nil => rfl
  | cons intent rest ih =>
      simp only [checkMissing]
      split
      · exact ih run
      · split
        · exact ⟨rfl, fun _ => rfl, by simp, by simp⟩
        · exact ih { run with missingAtBroker := run.missingAtBroker ++ [intent.clientOrderId] }

theorem holds_scanOrders (run : ReconcileRun) (orders : List BrokerOrder) :
    (scanOrders b run orders).Holds run.ownedByClient := by
  induction orders generalizing b run with
  | nil => exact holds_checkMissing { run with brokerOrders := [] } _
  | cons order rest ih =>
      simp only [scanOrders]
      split
      · split
        · exact ih { run with ownedLookingOrphans := run.ownedLookingOrphans + 1 }
        · exact ih run
      · rename_i intent _
        generalize hcounts : run.matchCounts.set intent.clientOrderId _ = counts
        split
        · exact ih { run with matchCounts := counts }
        · exact ⟨rfl, fun _ => rfl, by simp, by simp⟩

theorem holds_mismatched (intent : BoxOrderIntent) (message : String) :
    (mismatched b run intent message).Holds run.ownedByClient :=
  holds_scanOrders { run with
    identityMismatchSymbols := run.identityMismatchSymbols.insert intent.symbol } _

end ReconcileRun

/-- What a stretch of the pass has to end with. -/
def ReconcileStretch.Sound (initial : Journal) (s : ReconcileStretch) : Prop :=
  match s.next with
  | .await run => PassCovers initial run ∧ ∀ symbol, run.unsettledFill symbol = 0
  | .rebuild run => Covers initial run.ownedByClient
  | .failed _ => True

theorem ReconcileRun.unsettledFill_of_call {symbol : SymbolKey}
    (h : run.call.isSome → run.reply = none) : run.unsettledFill symbol = 0 := by
  rw [unsettledFill]
  split
  · rename_i hphase
    rw [h (by simp [call, hphase])]
    rfl
  · rfl

theorem PassCovers.awaiting (hview : Covers initial run.ownedByClient)
    (h : run.call.isSome → run.reply = none) : PassCovers initial run where
  view _ _ := hview
  reply call reply hcall hreply := by
    rw [h (by simp [hcall])] at hreply
    cases hreply

theorem ReconcileStretch.Holds.sound {s : ReconcileStretch} (h : s.Holds view)
    (hview : Covers initial view) : s.Sound initial := by
  rw [Holds] at h
  rw [Sound]
  split at h
  · obtain ⟨rfl, hreply, -, -⟩ := h
    exact ⟨.awaiting hview hreply, fun _ => ReconcileRun.unsettledFill_of_call hreply⟩
  · obtain rfl := h
    exact hview
  · trivial

theorem ReconcileStretch.Sound.violated {s : ReconcileStretch} (h : s.Sound initial)
    (v : Bool) : ({ s with violated := v } : ReconcileStretch).Sound initial := h

/-- A successful `persistOrder` returns the row its update reported. -/
theorem persisted_row {intent : BoxOrderIntent} {order : BrokerOrder} {result : UpdateResult}
    (h : (b.persisted intent order result).result = .ok row) :
    Book.rowOf result = some row := by
  rw [Book.persisted] at h
  split at h
  · rw [Book.persistFailed] at h
    split at h <;> cases h
  · rename_i hrow
    rw [hrow]
    dsimp only at h
    rw [Except.ok.inj h]

/-- A transition reports the row its update reported. -/
theorem transitioned_row {intent updated : BoxOrderIntent} {state : BoxOrderIntentState}
    {result : UpdateResult} {b' : Book} {applied : Bool}
    (h : b.transitioned intent state result = (b', .ok (updated, applied))) :
    Book.rowOf result = some updated := by
  cases result with
  | missing => cases h
  | refused row =>
      obtain ⟨-, hrow⟩ := Prod.mk.inj h
      cases hrow
      rfl
  | applied row previous current =>
      obtain ⟨-, hrow⟩ := Prod.mk.inj h
      cases hrow
      rfl

theorem ReconcileRun.sound_mismatched (hview : Covers initial run.ownedByClient)
    (intent : BoxOrderIntent) (message : String) :
    (mismatched b run intent message).Sound initial :=
  (holds_mismatched intent message).sound hview

theorem ReconcileRun.sound_resume {call : JournalCall} {reply : JournalReply}
    {s : ReconcileStretch} (h : PassCovers initial run) (hcall : run.call = some call)
    (hreply : run.reply = some reply) (hs : run.resume b reply = some s) :
    s.Sound initial := by
  have horiginal := h.reply call reply hcall hreply
  rw [resume.eq_def] at hs
  split at hs
  · rename_i hphase
    obtain rfl := Option.some.inj hs
    refine ⟨⟨fun _ hp => absurd rfl hp, fun _ _ _ hr => by cases hr⟩, fun symbol => rfl⟩
  · rename_i rows hphase
    obtain rfl := Option.some.inj hs
    have hload : call = .loadOwned := by
      simp only [ReconcileRun.call, hphase, Option.some.injEq] at hcall
      exact hcall.symm
    have hcovers : Covers initial (indexClient rows) :=
      covers_indexClient (fun row hrow => horiginal.loaded rows row rfl hrow)
        fun id first hfirst => horiginal.covers rows id first rfl hload hfirst
    exact ⟨.awaiting hcovers fun hc => (by cases hc), fun symbol => rfl⟩
  · rename_i intent order result hphase
    obtain rfl := Option.some.inj hs
    have hview := h.view (by simp [hphase]) (by simp [hphase])
    apply ReconcileStretch.Sound.violated
    rw [persistedDone.eq_def]
    split
    · exact sound_mismatched hview _ _
    · rename_i updated hok
      have hrow := horiginal.updated result updated rfl (persisted_row hok)
      exact (holds_scanOrders _ _).sound (hview.set hrow)
  · rename_i intent rest result hphase
    obtain rfl := Option.some.inj hs
    have hview := h.view (by simp [hphase]) (by simp [hphase])
    rw [quarantineDone]
    split
    · trivial
    · rename_i updated _ hok
      have hrow := horiginal.updated result updated rfl (transitioned_row hok)
      exact (holds_checkMissing _ _).sound (hview.set hrow)
  · obtain rfl := Option.some.inj hs
    rw [journalThrew]
    split
    · rename_i hphase
      exact sound_mismatched (h.view (by simp [hphase]) (by simp [hphase])) _ _
    · trivial
    · trivial
  · cases hs

theorem ReconcileRun.sound_answered {w : World} {answer : ReconcileAnswer}
    {s : ReconcileStretch} (h : PassCovers initial run)
    (hs : run.answered w b answer = some s) : s.Sound initial := by
  rw [answered.eq_def] at hs
  split at hs
  · rename_i hphase
    obtain rfl := Option.some.inj hs
    have hview := h.view (by simp [hphase]) (by simp [hphase])
    exact ⟨.awaiting hview fun hc => (by cases hc), fun symbol => rfl⟩
  · rename_i hphase
    obtain rfl := Option.some.inj hs
    have hview := h.view (by simp [hphase]) (by simp [hphase])
    exact ⟨.awaiting hview fun hc => (by cases hc), fun symbol => rfl⟩
  · rename_i hphase
    obtain rfl := Option.some.inj hs
    have hview := h.view (by simp [hphase]) (by simp [hphase])
    exact (holds_scanOrders _ _).sound hview
  · rename_i hphase
    obtain rfl := Option.some.inj hs
    have hview := h.view (by simp [hphase]) (by simp [hphase])
    exact ⟨.awaiting hview fun _ => rfl, fun symbol => rfl⟩
  · rename_i hphase
    obtain rfl := Option.some.inj hs
    exact sound_mismatched (h.view (by simp [hphase]) (by simp [hphase])) _ _
  · obtain rfl := Option.some.inj hs
    trivial
  · obtain rfl := Option.some.inj hs
    trivial
  · obtain rfl := Option.some.inj hs
    trivial
  · cases hs

end Pass

end Strikedge.Orders
