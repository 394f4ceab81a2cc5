import Strikedge.Orders.IntentHistory

/-!
# What the broker said and what the journal keeps

`persistOrder` hands a broker snapshot to `updateBoxOrderIntent`. The guard of the update
compares the state of the row with the states listed for the state of the snapshot, and
what it refuses is not written: neither the state nor the fill. This module says for which
snapshots a write of `persistOrder` leaves the truth in the row.
-/

namespace Strikedge.Orders

open Machine

/-- The intent and the snapshot whose write a label lets the journal perform. -/
def OrderManager.recording (m : OrderManager) : Label → Option (BoxOrderIntent × BrokerOrder)
  | .serve (.action i) =>
      (m.tasks.get? i).bind fun t =>
        match t.phase, t.reply with
        | .persisting site order, none => some (site.intentOf t.intent, order)
        | _, _ => none
  | .serve .reconcile =>
      m.reconcileRun.bind fun run =>
        match run.phase, run.reply with
        | .persisting intent order, none => some (intent, order)
        | _, _ => none
  | _ => none

/-- A terminal state does not contradict an earlier one: only COMPLETE follows another. -/
def ConsistentTerminal (earlier state : BoxOrderIntentState) : Prop :=
  isBrokerOrderTerminal earlier = true →
    earlier = state ∨ earlier = .cancelled ∧ state = .complete

/-- The row has the fill of the snapshot, and its state when that is terminal and does not
contradict the state the row had. -/
def TruthIn (earlier : BoxOrderIntentState) (order : BrokerOrder) (row : BoxOrderIntent) : Prop :=
  row.filledQuantity = order.filledQuantity ∧
    (isBrokerOrderTerminal order.state = true → ConsistentTerminal earlier order.state →
      row.state = order.state)

/-- A snapshot that is written and is not behind its row is in the row afterwards. -/
def TruthRecorded (cfg : Config) (m : OrderManager) (label : Label) : Prop :=
  ∀ write ∈ m.recording label, ∀ row ∈ m.journal.find write.1.clientOrderId,
    row.filledQuantity ≤ write.2.filledQuantity →
      ∀ m' ∈ m.step cfg label, ∃ written ∈ m'.journal.find write.1.clientOrderId,
        TruthIn row.state write.2 written

/-- The snapshot may be written over the row: its state has the row's among the listed
predecessors, its broker order id is absent or the row's own and no other row's, and its
fill is within the quantity of the row. -/
structure Recordable (j : Journal) (row : BoxOrderIntent) (order : BrokerOrder) : Prop where
  predecessor : row.state ∈ intentStatePredecessors order.state
  broker : order.brokerOrderId = none ∨ order.brokerOrderId = some "" ∨
    row.brokerOrderId = none ∨ row.brokerOrderId = order.brokerOrderId
  quantity : order.filledQuantity ≤ row.quantity
  unique : order.brokerOrderId = none ∨ ∀ other ∈ j.rows.values,
    other.clientOrderId ≠ row.clientOrderId → other.brokerOrderId ≠ order.brokerOrderId

/-- Every snapshot that is written and is not behind its row may be written over it, or
tells nothing the row does not have. -/
def RecordCondition (m : OrderManager) (label : Label) : Prop :=
  ∀ write ∈ m.recording label, ∀ row ∈ m.journal.find write.1.clientOrderId,
    row.filledQuantity ≤ write.2.filledQuantity →
      Recordable m.journal row write.2 ∨ TruthIn row.state write.2 row

section Decidable

variable (cfg : Config) (m : OrderManager) (label : Label) (j : Journal)
variable (row : BoxOrderIntent) (order : BrokerOrder) (earlier state : BoxOrderIntentState)

instance : Decidable (ConsistentTerminal earlier state) :=
  inferInstanceAs (Decidable (_ → _))

instance : Decidable (TruthIn earlier order row) :=
  inferInstanceAs (Decidable (_ ∧ _))

instance : Decidable (TruthRecorded cfg m label) :=
  inferInstanceAs (Decidable (∀ write ∈ m.recording label, _))

instance : Decidable (Recordable j row order) :=
  decidable_of_iff
    (row.state ∈ intentStatePredecessors order.state ∧
      (order.brokerOrderId = none ∨ order.brokerOrderId = some "" ∨
        row.brokerOrderId = none ∨ row.brokerOrderId = order.brokerOrderId) ∧
      order.filledQuantity ≤ row.quantity ∧
      (order.brokerOrderId = none ∨ ∀ other ∈ j.rows.values,
        other.clientOrderId ≠ row.clientOrderId → other.brokerOrderId ≠ order.brokerOrderId))
    ⟨fun h => ⟨h.1, h.2.1, h.2.2.1, h.2.2.2⟩,
      fun h => ⟨h.predecessor, h.broker, h.quantity, h.unique⟩⟩

instance : Decidable (RecordCondition m label) :=
  inferInstanceAs (Decidable (∀ write ∈ m.recording label, _))

end Decidable

section Write

variable {j : Journal} {row intent : BoxOrderIntent} {order : BrokerOrder} {message : String}

theorem updateAdmitted_orderPatch :
    updateAdmitted row (orderPatch order) none = true ↔
      row.state ∈ intentStatePredecessors order.state ∧
        row.filledQuantity ≤ order.filledQuantity ∧
        (order.brokerOrderId = none ∨ order.brokerOrderId = some "" ∨
          row.brokerOrderId = none ∨ row.brokerOrderId = order.brokerOrderId) := by
  cases hbroker : order.brokerOrderId with
  | none => simp [updateAdmitted, orderPatch, hbroker]
  | some b =>
      by_cases hempty : b = ""
      · simp [updateAdmitted, orderPatch, hbroker, hempty]
      · simp [updateAdmitted, orderPatch, hbroker, hempty, and_assoc]

theorem constraintViolation_eq_none {after : BoxOrderIntent} :
    constraintViolation j after = none ↔
      after.filledQuantity ≤ after.quantity ∧
        (after.brokerOrderId = none ∨ ∀ other ∈ j.rows.values,
          other.clientOrderId ≠ after.clientOrderId →
            other.brokerOrderId ≠ after.brokerOrderId) := by
  rw [constraintViolation]
  by_cases hfill : after.quantity < after.filledQuantity
  · simp [hfill]
  · cases hbroker : after.brokerOrderId with
    | none => simp [hfill, Nat.le_of_not_lt hfill]
    | some b => simp [hfill, Nat.le_of_not_lt hfill]

/-- A snapshot that is not behind its row may be written over it exactly when neither the
guard nor a constraint of the table objects. -/
theorem recordable_iff (hle : row.filledQuantity ≤ order.filledQuantity)
    (audit : BoxOrderIntentAudit) :
    Recordable j row order ↔
      repository.admits row (orderPatch order) none = true ∧
        repository.violates j (((orderPatch order).apply row).recordAudit audit) = none := by
  show _ ↔ updateAdmitted row (orderPatch order) none = true ∧ constraintViolation j _ = none
  rw [updateAdmitted_orderPatch, constraintViolation_eq_none, recordAudit_filledQuantity,
    recordAudit_brokerOrderId, recordAudit_clientOrderId, recordAudit_quantity]
  constructor
  · intro h
    exact ⟨⟨h.predecessor, hle, h.broker⟩, h.quantity, h.unique⟩
  · rintro ⟨⟨hpredecessor, -, hbroker⟩, hquantity, hunique⟩
    exact ⟨hpredecessor, hbroker, hquantity, hunique⟩

/-- The row after the write of a snapshot that is not behind it. -/
theorem find_perform_persistCall (message : String)
    (hrow : j.find intent.clientOrderId = some row)
    (hle : row.filledQuantity ≤ order.filledQuantity) :
    ∃ written,
      (j.perform repository (persistCall intent order message)).1.find intent.clientOrderId =
        some written ∧
      (Recordable j row order → written.filledQuantity = order.filledQuantity ∧
        written.state = order.state) ∧
      (¬ Recordable j row order → written = row) := by
  let audit := auditFor intent order.state order.brokerOrderId message order.lastFillId none
  have hiff := recordable_iff (j := j) hle audit
  simp only [persistCall, Journal.perform, Journal.updateBoxOrderIntent, hrow]
  by_cases hadmits : repository.admits row (orderPatch order) none = true
  · simp only [if_pos hadmits]
    cases hviolates : repository.violates j (((orderPatch order).apply row).recordAudit audit)
      with
    | none =>
        refine ⟨((orderPatch order).apply row).recordAudit audit, ?_, ?_, ?_⟩
        · show Journal.find (if _ then _ else _) _ = _
          rw [Journal.find_written, recordAudit_clientOrderId, apply_clientOrderId,
            j.keyed _ row hrow, if_pos rfl]
        · intro _
          rw [recordAudit_filledQuantity, recordAudit_state]
          exact ⟨rfl, rfl⟩
        · intro hnot
          exact absurd (hiff.mpr ⟨hadmits, hviolates⟩) hnot
    | some constraint =>
        refine ⟨row, hrow, ?_, fun _ => rfl⟩
        intro hrecordable
        rw [(hiff.mp hrecordable).2] at hviolates
        cases hviolates
  · simp only [if_neg hadmits]
    exact ⟨row, hrow, fun hrecordable => absurd (hiff.mp hrecordable).1 hadmits, fun _ => rfl⟩

end Write

section Runs

variable {cfg : Config} {m : OrderManager} {label : Label}
variable {intent row : BoxOrderIntent} {order : BrokerOrder}

theorem answer_journal (caller : Caller) (reply : JournalReply) :
    (m.answer caller reply).journal = m.journal := by
  cases caller with
  | action i =>
      simp only [OrderManager.answer]
      split <;> rfl
  | reconcile =>
      simp only [OrderManager.answer]
      split <;> rfl

theorem step_of_pending {caller : Caller} {call : JournalCall}
    (h : m.pending caller = some (call, none)) :
    ∃ m', m.step cfg (.serve caller) = some m' ∧
      m'.journal = (m.journal.perform cfg.persistence call).1 := by
  simp only [OrderManager.step, OrderManager.serve, h]
  exact ⟨_, rfl, answer_journal _ _⟩

/-- A label that lets a snapshot be written performs the update of `persistOrder`. -/
theorem step_of_recording (h : m.recording label = some (intent, order)) :
    ∃ m' message, m.step cfg label = some m' ∧
      m'.journal =
        (m.journal.perform cfg.persistence (persistCall intent order message)).1 := by
  rw [OrderManager.recording.eq_def] at h
  split at h
  next i =>
    obtain ⟨t, ht, hphase⟩ := Option.bind_eq_some_iff.mp h
    split at hphase
    next site found hpersisting hreply =>
      obtain ⟨rfl, rfl⟩ := Prod.mk.inj (Option.some.inj hphase)
      have hpending : m.pending (.action i) =
          some (persistCall (site.intentOf t.intent) found (persistMessage site found), none) := by
        simp [OrderManager.pending, ht, Task.call, hpersisting, hreply]
      obtain ⟨m', hstep, hjournal⟩ := step_of_pending hpending
      exact ⟨m', _, hstep, hjournal⟩
    · cases hphase
  next =>
    obtain ⟨run, hrun, hphase⟩ := Option.bind_eq_some_iff.mp h
    split at hphase
    next intent' found hpersisting hreply =>
      obtain ⟨rfl, rfl⟩ := Prod.mk.inj (Option.some.inj hphase)
      have hpending : m.pending .reconcile =
          some (persistCall intent' found "broker reconciliation snapshot", none) := by
        simp [OrderManager.pending, hrun, ReconcileRun.call, hpersisting, hreply]
      obtain ⟨m', hstep, hjournal⟩ := step_of_pending hpending
      exact ⟨m', _, hstep, hjournal⟩
    · cases hphase
  · cases h

/-- A write records the truth exactly when it meets the condition. -/
theorem truthRecorded_iff (hstore : cfg.persistence = repository) :
    TruthRecorded cfg m label ↔ RecordCondition m label := by
  have hwrite : ∀ write ∈ m.recording label,
      ∀ row ∈ m.journal.find write.1.clientOrderId,
      row.filledQuantity ≤ write.2.filledQuantity →
      ((∀ m' ∈ m.step cfg label, ∃ written ∈ m'.journal.find write.1.clientOrderId,
        TruthIn row.state write.2 written) ↔
        Recordable m.journal row write.2 ∨ TruthIn row.state write.2 row) := by
    rintro ⟨intent, order⟩ hrecording row hrow hle
    obtain ⟨m', message, hstep, hjournal⟩ := step_of_recording hrecording
    rw [hstore] at hjournal
    obtain ⟨written, hwritten, hyes, hno⟩ :=
      find_perform_persistCall message hrow hle
    rw [← hjournal] at hwritten
    constructor
    · intro h
      obtain ⟨found, hfound, htruth⟩ := h m' hstep
      obtain rfl := Option.some.inj (hwritten.symm.trans hfound)
      by_cases hrecordable : Recordable m.journal row order
      · exact .inl hrecordable
      · rw [hno hrecordable] at htruth
        exact .inr htruth
    · intro h other hother
      obtain rfl := Option.some.inj (hstep.symm.trans hother)
      refine ⟨written, hwritten, ?_⟩
      by_cases hrecordable : Recordable m.journal row order
      · exact ⟨(hyes hrecordable).1, fun _ _ => (hyes hrecordable).2⟩
      · rw [hno hrecordable]
        exact h.resolve_left hrecordable
  constructor
  · intro h write hrecording row hrow hle
    exact (hwrite write hrecording row hrow hle).mp (h write hrecording row hrow hle)
  · intro h write hrecording row hrow hle
    exact (hwrite write hrecording row hrow hle).mpr (h write hrecording row hrow hle)

/-- Along every run of the manager over its own journal, every write of `persistOrder`
records what the broker said exactly when every one of them meets the condition. -/
theorem broker_truth_recorded_iff (cfg : Config) (hstore : cfg.persistence = repository)
    (m : OrderManager) (labels : List Label) :
    Heeds (OrderManager.step cfg) (TruthRecorded cfg) m labels ↔
      Heeds (OrderManager.step cfg) RecordCondition m labels := by
  constructor
  · intro h
    exact h.mono fun _ _ => (truthRecorded_iff hstore).mp
  · intro h
    exact h.mono fun _ _ => (truthRecorded_iff hstore).mpr

end Runs

namespace Sample

/-- One order is created and submitted, and the broker answers with a snapshot. -/
def entryAnswered (state : BoxOrderIntentState) (filled : Nat) : List Label :=
  warmUp ++ [.submit (world 100) (request .k1Ce .buy .entry) none none] ++ prepared 0 ++
    returned 0 (order (request .k1Ce .buy .entry) state filled)

end Sample

/-- An order that the broker cancelled after a partial fill is reported straight from
SUBMITTING. The guard refuses it, and the row keeps neither the fill nor the state. -/
theorem cancellation_lost :
    ¬Heeds (OrderManager.step Sample.config) (TruthRecorded Sample.config)
        (Sample.manager .empty) (Sample.entryAnswered .cancelled 25) ∧
      (managerRun Sample.config (Sample.manager .empty)
          (Sample.entryAnswered .cancelled 25)).bind (fun m => (m.journal.find "k1_ce").map
            fun row => (row.state, row.filledQuantity)) = some (.submitting, 0) := by
  constructor
  · decide +kernel
  · decide +kernel

theorem broker_truth_recorded_sample :
    Heeds (OrderManager.step Sample.config) (TruthRecorded Sample.config)
      (Sample.manager .empty) (Sample.entryAnswered .complete 75) :=
  (broker_truth_recorded_iff Sample.config rfl (Sample.manager .empty)
    (Sample.entryAnswered .complete 75)).mpr (by decide +kernel)

end Strikedge.Orders
