import Strikedge.OrderStream.Consumer

/-!
# What the consumer holds about one order

Of everything the consumer keeps, one order's share decides what becomes of its next
observation: the ledger's total and identities, and the label and price noted last. The
record below is that share, `hear` says what one observation does to it and whether the
adapter is handed an update, and the consumer computes it.
-/

namespace Strikedge.OrderStream

open Machine Orders

namespace NormalizedOrderObservation

variable (obs : NormalizedOrderObservation)

def label : Option String := normaliseStatusLabel obs.rawStatus

def price : Option ℚ := observedPrice obs

/-- The whole quantity the observation reports. -/
def total : Int := (obs.cumulativeQty.finite?.map (⌊·⌋)).getD 0

def identity : String := (OrderUpdateProjection.fillEvent obs).identity

/-- The payload carried a quantity. -/
def Counted : Prop := OrderUpdateProjection.evidenceOf obs = .confirmed

instance : Decidable obs.Counted := inferInstanceAs (Decidable (_ = _))

end NormalizedOrderObservation

structure OrderRecord where
  total : Int
  seen : List String
  label : Option String
  price : Option ℚ
  deriving DecidableEq, Repr

namespace OrderRecord

variable (r : OrderRecord) (obs : NormalizedOrderObservation)

def note : OrderRecord :=
  { r with label := obs.label <|> r.label, price := obs.price <|> r.price }

/-- The observation carries a label or a price other than the one noted. -/
def Differs : Prop :=
  obs.label.isSome ∧ obs.label ≠ r.label ∨ obs.price.isSome ∧ obs.price ≠ r.price

/-- The identity of the observation has been recorded. -/
def Repeats : Prop := obs.identity ≠ "" ∧ obs.identity ∈ r.seen

instance : Decidable (r.Differs obs) := inferInstanceAs (Decidable (_ ∨ _))

instance : Decidable (r.Repeats obs) := inferInstanceAs (Decidable (_ ∧ _))

def count : OrderRecord :=
  { r with
    total := max r.total obs.total
    seen := if obs.identity = "" then r.seen else r.seen ++ [obs.identity] }

/-- Whether an observation is forwarded, and the record afterwards. -/
def hear : Bool × OrderRecord :=
  if ¬ obs.Counted then (true, r.note obs)
  else if r.Repeats obs then (false, r)
  else if r.total < obs.total ∨ r.Differs obs then (true, (r.count obs).note obs)
  else (false, r.count obs)

end OrderRecord

namespace OrderStreamConsumer

/-- The share of one registered order. -/
def record (c : OrderStreamConsumer) (id : String) : Option OrderRecord :=
  (c.proj.ledgers.get? id).map fun l => {
    total := l.cumulativeQty
    seen := l.seenEventIds
    label := (c.lastForwarded.get? id).bind (·.status)
    price := (c.lastForwarded.get? id).bind (·.price) }

end OrderStreamConsumer

/-- The observation belongs to the order, and its quantity is a number. -/
def About (p : OrderUpdateProjection) (id : String) (obs : NormalizedOrderObservation) : Prop :=
  OrderUpdateProjection.isMalformed obs.cumulativeQty = false ∧ p.resolveOwner obs = some id ∧
    p.isForeign id obs = false

instance (p : OrderUpdateProjection) (id : String) (obs : NormalizedOrderObservation) :
    Decidable (About p id obs) :=
  inferInstanceAs (Decidable (_ ∧ _ ∧ _))

section Ledger

variable {l : CumulativeFillLedger} {event : CumulativeFillEvent} {raw : ℚ}

theorem remember_seen (id : String) :
    (l.remember id).seenEventIds =
      if id = "" then l.seenEventIds else l.seenEventIds ++ [id] := by
  rw [CumulativeFillLedger.remember]
  split <;> rfl

/-- What an event with a fresh identity leaves in the ledger, and how it is answered. -/
theorem apply_fresh (hqty : event.validQty = some raw)
    (hfresh : ¬ (event.identity ≠ "" ∧ event.identity ∈ l.seenEventIds)) :
    (l.apply event).2.cumulativeQty = max l.cumulativeQty ⌊raw⌋ ∧
      (l.apply event).2.seenEventIds =
        (if event.identity = "" then l.seenEventIds else l.seenEventIds ++ [event.identity]) ∧
      ((l.apply event).1.outcome = .applied ∨ (l.apply event).1.outcome = .appliedOverfill ↔
        l.cumulativeQty < ⌊raw⌋) ∧
      (l.apply event).1.outcome ≠ .duplicateEvent ∧ (l.apply event).1.outcome ≠ .invalid := by
  obtain ⟨hreports, htotal, -, -⟩ := CumulativeFillLedger.apply_fresh_spec hqty hfresh
  refine ⟨htotal, ?_, ?_, ?_⟩
  · rw [CumulativeFillLedger.apply_of_fresh hqty hfresh,
      (CumulativeFillLedger.reports_advance _ _ _ _).2.2,
      (CumulativeFillLedger.noteSequence_spec _ _).2.2.2, remember_seen]
  · rw [← hreports.applied, hreports.delta, htotal]
    omega
  · rw [CumulativeFillLedger.apply_of_fresh hqty hfresh, CumulativeFillLedger.advance]
    split
    · exact ⟨by rintro ⟨⟩, by rintro ⟨⟩⟩
    · dsimp only [CumulativeFillLedger.result]
      split <;> exact ⟨by simp, by simp⟩

end Ledger

section Refinement

variable {c : OrderStreamConsumer} {p : OrderUpdateProjection} {id : String} {r : OrderRecord}
variable {obs : NormalizedOrderObservation} {now : ℚ} {sink : Sink} {result : IngestResult}

theorem validQty_of_about (h : About p id obs) :
    ∃ raw, (OrderUpdateProjection.fillEvent obs).validQty = some raw ∧ ⌊raw⌋ = obs.total := by
  have hqty : (OrderUpdateProjection.fillEvent obs).validQty.isNone = false := h.1
  obtain ⟨raw, hraw⟩ := Option.isSome_iff_exists.mp (Option.isNone_eq_false_iff.mp hqty)
  refine ⟨raw, hraw, ?_⟩
  have hfinite : obs.cumulativeQty.finite? = some raw := (Option.filter_eq_some_iff.mp hraw).1
  rw [NormalizedOrderObservation.total, hfinite]
  rfl

theorem owner_noteLiveness (p : OrderUpdateProjection) (id : String)
    (obs obs' : NormalizedOrderObservation) :
    (p.noteLiveness obs').resolveOwner obs = p.resolveOwner obs ∧
      (p.noteLiveness obs').isForeign id obs = p.isForeign id obs ∧
      (p.noteLiveness obs').ledgers = p.ledgers := by
  rw [OrderUpdateProjection.noteLiveness]
  split <;> exact ⟨rfl, rfl, rfl⟩

theorem ingest_of_about (h : About p id obs) :
    p.ingest obs = (p.noteLiveness obs).ingestOwned id obs := by
  obtain ⟨hquantity, howner, hforeign⟩ := h
  obtain ⟨howner', hforeign', -⟩ := owner_noteLiveness p id obs obs
  have hnotForeign : ¬ (p.noteLiveness obs).isForeign id obs = true := by
    rw [hforeign', hforeign]
    exact Bool.false_ne_true
  rw [OrderUpdateProjection.ingest]
  rw [hquantity, if_neg Bool.false_ne_true, howner'.trans howner]
  exact if_neg hnotForeign

theorem ledgers_learn (brokerOrderId : Option String) :
    (p.learnBrokerOrderId id brokerOrderId).ledgers = p.ledgers := by
  rw [OrderUpdateProjection.learnBrokerOrderId]
  split <;> rfl

theorem evidence_absent (hcounted : ¬ obs.Counted) :
    OrderUpdateProjection.evidenceOf obs = .absent := by
  rw [NormalizedOrderObservation.Counted] at hcounted
  cases hevidence : OrderUpdateProjection.evidenceOf obs with
  | confirmed => exact absurd hevidence hcounted
  | absent => rfl

theorem not_absent (hcounted : obs.Counted) :
    ¬ OrderUpdateProjection.evidenceOf obs = .absent := by
  rw [show OrderUpdateProjection.evidenceOf obs = .confirmed from hcounted]
  exact nofun

/-- What the projection answers about an owned observation, and the ledger afterwards. -/
theorem ingest_owned {l : CumulativeFillLedger} (h : About p id obs)
    (hledger : p.ledgers.get? id = some l) :
    if obs.Counted then
      (p.ingest obs).1 = OrderUpdateProjection.attributed obs id
          (some (l.apply (OrderUpdateProjection.fillEvent obs)).1) ∧
        (p.ingest obs).2.ledgers.get? id =
          some (l.apply (OrderUpdateProjection.fillEvent obs)).2
    else
      (p.ingest obs).1 = OrderUpdateProjection.attributed obs id none ∧
        (p.ingest obs).2.ledgers.get? id = some l := by
  have hlearnt : ((p.noteLiveness obs).learnBrokerOrderId id obs.brokerOrderId).ledgers.get? id =
      some l := by
    rw [ledgers_learn, (owner_noteLiveness p id obs obs).2.2, hledger]
  rw [ingest_of_about h, OrderUpdateProjection.ingestOwned]
  dsimp only
  rw [hlearnt]
  dsimp only
  by_cases hcounted : obs.Counted
  · rw [if_pos hcounted, if_neg (not_absent hcounted)]
    refine ⟨rfl, ?_⟩
    dsimp only
    rw [OrderedMap.get?_set, if_pos rfl]
  · rw [if_neg hcounted, if_pos (evidence_absent hcounted)]
    exact ⟨rfl, hlearnt⟩

theorem record_congr {c' : OrderStreamConsumer} (hledger : c'.proj = c.proj)
    (hmemo : ((c'.lastForwarded.get? id).bind (·.status)) =
      (c.lastForwarded.get? id).bind (·.status))
    (hprice : ((c'.lastForwarded.get? id).bind (·.price)) =
      (c.lastForwarded.get? id).bind (·.price)) : c'.record id = c.record id := by
  rw [OrderStreamConsumer.record, OrderStreamConsumer.record, hledger, hmemo, hprice]

theorem record_schedule : (c.scheduleReconciliation id).record id = c.record id := by
  rw [OrderStreamConsumer.scheduleReconciliation]
  split <;> rfl

theorem record_settle (merged : Option BoxOrderIntentState) :
    (c.settleIfTerminal id merged result).record id = c.record id := by
  rw [OrderStreamConsumer.settleIfTerminal]
  split
  · cases hmemo : c.lastForwarded.get? id with
    | none => rfl
    | some memo =>
        apply record_congr
        · rfl
        · show ((c.lastForwarded.set id _).get? id).bind _ = _
          rw [OrderedMap.get?_set, if_pos rfl, hmemo]
          rfl
        · show ((c.lastForwarded.set id _).get? id).bind _ = _
          rw [OrderedMap.get?_set, if_pos rfl, hmemo]
          rfl
  · split <;> rfl

theorem record_note (hrecord : c.record id = some r) :
    (c.noteForwarded id obs).record id = some (r.note obs) := by
  obtain ⟨l, hledger, rfl⟩ := Option.map_eq_some_iff.mp hrecord
  have hnoted : ((c.noteForwarded id obs).lastForwarded).get? id = some {
      status := obs.label <|> (c.lastForwarded.get? id).bind (·.status)
      price := obs.price <|> (c.lastForwarded.get? id).bind (·.price)
      terminal := (c.lastForwarded.get? id).any (·.terminal) } := by
    show (c.lastForwarded.set id _).get? id = _
    rw [OrderedMap.get?_set, if_pos rfl]
    rfl
  show (c.proj.ledgers.get? id).map _ = _
  rw [hledger, hnoted]
  rfl

/-- Something other than the quantity is new exactly when it differs from what was noted. -/
theorem changed_iff_differs (hrecord : c.record id = some r) :
    (c.classifyNonQuantityChange id obs).statusChanged = true ∨
      (c.classifyNonQuantityChange id obs).priceChanged = true ↔ r.Differs obs := by
  obtain ⟨l, -, rfl⟩ := Option.map_eq_some_iff.mp hrecord
  rw [OrderRecord.Differs, OrderStreamConsumer.classifyNonQuantityChange]
  dsimp only
  cases c.lastForwarded.get? id with
  | none =>
      show obs.label.isSome = true ∨ obs.price.isSome = true ↔ _
      cases obs.label <;> cases obs.price <;> simp
  | some prior =>
      show (obs.label.isSome && decide (obs.label ≠ prior.status)) = true ∨
        (obs.price.isSome && decide (obs.price ≠ prior.price)) = true ↔ _
      simp

/-- What a working sink is handed. -/
def handedTo (sink : Sink) (update : ExternalOrderUpdate) : Option ExternalOrderUpdate :=
  (applyToAdapter sink update).2

theorem record_ingestAbsent (hrecord : c.record id = some r) :
    (c.ingestAbsent id obs result now sink).consumer.record id = some (r.note obs) ∧
      (c.ingestAbsent id obs result now sink).handed =
        handedTo sink (externalUpdate id obs true now) := by
  refine ⟨?_, rfl⟩
  show (OrderStreamConsumer.scheduleReconciliation _ id).record id = _
  rw [record_schedule, record_settle, record_note hrecord]

variable (obs now sink) in
theorem record_ingestConfirmed (hrecord : c.record id = some r) {apply : FillApplyResult}
    (happly : result.apply = some apply) (hinvalid : apply.outcome ≠ .invalid) :
    if apply.outcome ≠ .duplicateEvent ∧
        ((apply.outcome = .applied ∨ apply.outcome = .appliedOverfill) ∨ r.Differs obs) then
      (c.ingestConfirmed id obs result now sink).consumer.record id = some (r.note obs) ∧
        (c.ingestConfirmed id obs result now sink).handed =
          handedTo sink (externalUpdate id obs false now)
    else
      (c.ingestConfirmed id obs result now sink).consumer.record id = some r ∧
        (c.ingestConfirmed id obs result now sink).handed = none := by
  have hscheduled (b b' : Prop) [Decidable b] [Decidable b'] :
      (if b' then (if b then c.scheduleReconciliation id else c).scheduleReconciliation id
        else if b then c.scheduleReconciliation id else c).record id = some r := by
    have hone : (if b then c.scheduleReconciliation id else c).record id = some r := by
      split
      · rw [record_schedule, hrecord]
      · exact hrecord
    split
    · rw [record_schedule, hone]
    · exact hone
  have hforwards : (some apply.outcome ≠ some FillApplyOutcome.duplicateEvent ∧
      ((some apply.outcome = some FillApplyOutcome.applied ∨
          some apply.outcome = some FillApplyOutcome.appliedOverfill) ∨
        (c.classifyNonQuantityChange id obs).statusChanged = true ∨
          (c.classifyNonQuantityChange id obs).priceChanged = true)) ↔
      apply.outcome ≠ .duplicateEvent ∧
        ((apply.outcome = .applied ∨ apply.outcome = .appliedOverfill) ∨ r.Differs obs) := by
    rw [changed_iff_differs hrecord]
    simp
  rw [OrderStreamConsumer.ingestConfirmed, happly]
  dsimp only [Option.map_some]
  rw [if_neg (mt Option.some.inj hinvalid)]
  by_cases h : apply.outcome ≠ .duplicateEvent ∧
      ((apply.outcome = .applied ∨ apply.outcome = .appliedOverfill) ∨ r.Differs obs)
  · rw [if_pos h, if_pos (hforwards.mpr h)]
    refine ⟨?_, rfl⟩
    show (OrderStreamConsumer.settleIfTerminal _ id _ _).record id = _
    rw [record_settle]
    exact record_note (hscheduled _ _)
  · rw [if_neg h, if_neg (mt hforwards.mp h)]
    refine ⟨?_, rfl⟩
    show (OrderStreamConsumer.settleIfTerminal _ id _ _).record id = _
    rw [record_settle]
    exact hscheduled _ _

/-- Stamping an observation with the time of its arrival changes no update. -/
theorem externalUpdate_stamped (quantityAbsent : Bool) :
    externalUpdate id { obs with observedAtWall := obs.observedAtWall <|> some now }
      quantityAbsent now = externalUpdate id obs quantityAbsent now := by
  rw [externalUpdate, externalUpdate]
  cases obs.observedAtWall <;> rfl

/-- The record after the ledger has seen an observation. -/
theorem record_counted (hrecord : c.record id = some r) (h : About c.proj id obs)
    {consumer : OrderStreamConsumer} {l : CumulativeFillLedger}
    (hold : c.proj.ledgers.get? id = some l)
    (hledger : consumer.proj.ledgers.get? id =
      some (l.apply (OrderUpdateProjection.fillEvent obs)).2)
    (hmemo : consumer.lastForwarded = c.lastForwarded) :
    consumer.record id = some (if r.Repeats obs then r else r.count obs) := by
  obtain ⟨raw, hqty, htotal⟩ := validQty_of_about h
  have hr : r = {
      total := l.cumulativeQty
      seen := l.seenEventIds
      label := (c.lastForwarded.get? id).bind (·.status)
      price := (c.lastForwarded.get? id).bind (·.price) } := by
    rw [OrderStreamConsumer.record, hold] at hrecord
    exact (Option.some.inj hrecord).symm
  rw [OrderStreamConsumer.record, hledger, hmemo, Option.map_some]
  apply congrArg some
  by_cases hrepeats : r.Repeats obs
  · have hdup : (OrderUpdateProjection.fillEvent obs).identity ≠ "" ∧
        (OrderUpdateProjection.fillEvent obs).identity ∈ l.seenEventIds := by
      rw [hr] at hrepeats
      exact hrepeats
    rw [if_pos hrepeats, (CumulativeFillLedger.apply_of_duplicate hqty hdup).2.2, hr]
  · have hfresh : ¬ ((OrderUpdateProjection.fillEvent obs).identity ≠ "" ∧
        (OrderUpdateProjection.fillEvent obs).identity ∈ l.seenEventIds) := by
      rw [hr] at hrepeats
      exact hrepeats
    obtain ⟨hcumulative, hseen, -⟩ := apply_fresh hqty hfresh
    rw [if_neg hrepeats, hcumulative, hseen, htotal, hr]
    rfl

/-- The ledger's answer in the terms of the record. -/
theorem outcome_iff (hrecord : c.record id = some r) (h : About c.proj id obs)
    {l : CumulativeFillLedger} (hold : c.proj.ledgers.get? id = some l) :
    (l.apply (OrderUpdateProjection.fillEvent obs)).1.outcome ≠ .invalid ∧
      ((l.apply (OrderUpdateProjection.fillEvent obs)).1.outcome ≠ .duplicateEvent ↔
        ¬ r.Repeats obs) ∧
      (¬ r.Repeats obs →
        ((l.apply (OrderUpdateProjection.fillEvent obs)).1.outcome = .applied ∨
          (l.apply (OrderUpdateProjection.fillEvent obs)).1.outcome = .appliedOverfill ↔
            r.total < obs.total)) := by
  obtain ⟨raw, hqty, htotal⟩ := validQty_of_about h
  rw [OrderStreamConsumer.record, hold] at hrecord
  obtain rfl := Option.some.inj hrecord
  by_cases hdup : (OrderUpdateProjection.fillEvent obs).identity ≠ "" ∧
      (OrderUpdateProjection.fillEvent obs).identity ∈ l.seenEventIds
  · have houtcome := (CumulativeFillLedger.apply_of_duplicate hqty hdup).1
    rw [houtcome]
    exact ⟨nofun, iff_of_false (not_not.mpr rfl) (not_not.mpr hdup), fun hfresh =>
      absurd hdup hfresh⟩
  · obtain ⟨-, -, happlied, hduplicate, hinvalid⟩ := apply_fresh hqty hdup
    refine ⟨hinvalid, iff_of_true hduplicate hdup, fun _ => ?_⟩
    rw [happlied, htotal]

/-- What follows once the projection has answered. -/
theorem record_received (h : About c.proj id obs) (hrecord : c.record id = some r)
    (seenAt : Option ℚ) :
    let received := { c with
      proj := (c.proj.ingest obs).2
      lastStreamEventAtWall := seenAt }
    let done := if obs.Counted then
        received.ingestConfirmed id obs (c.proj.ingest obs).1 now sink
      else received.ingestAbsent id obs (c.proj.ingest obs).1 now sink
    done.consumer.record id = some (r.hear obs).2 ∧
      done.handed =
        if (r.hear obs).1 then handedTo sink (externalUpdate id obs (!decide obs.Counted) now)
        else none := by
  intro received done
  obtain ⟨l, hold, -⟩ := Option.map_eq_some_iff.mp hrecord
  have howned := ingest_owned h hold
  by_cases hcounted : obs.Counted
  · rw [if_pos hcounted] at howned
    obtain ⟨hinvalid, hduplicate, happlied⟩ := outcome_iff hrecord h hold
    have hcount : received.record id = some (if r.Repeats obs then r else r.count obs) :=
      record_counted hrecord h hold howned.2 rfl
    have hdone := record_ingestConfirmed obs now sink hcount
      (congrArg IngestResult.apply howned.1) hinvalid
    have hdone' : done = received.ingestConfirmed id obs (c.proj.ingest obs).1 now sink :=
      if_pos hcounted
    rw [← hdone'] at hdone
    rw [OrderRecord.hear, if_neg (not_not.mpr hcounted), decide_eq_true hcounted]
    by_cases hrepeats : r.Repeats obs
    · rw [if_pos hrepeats]
      rw [if_neg (fun hforward => hduplicate.mp hforward.1 hrepeats), if_pos hrepeats] at hdone
      exact hdone
    · rw [if_neg hrepeats]
      rw [if_neg hrepeats] at hdone
      by_cases hnews : r.total < obs.total ∨ r.Differs obs
      · rw [if_pos hnews]
        rw [if_pos ⟨hduplicate.mpr hrepeats, hnews.imp_left (happlied hrepeats).mpr⟩] at hdone
        exact hdone
      · rw [if_neg hnews]
        rw [if_neg (fun hforward => hnews (hforward.2.imp_left (happlied hrepeats).mp))] at hdone
        exact hdone
  · rw [if_neg hcounted] at howned
    have hkept : received.record id = some r := by
      rw [← hrecord, OrderStreamConsumer.record, OrderStreamConsumer.record, howned.2, hold]
    have hdone' : done = received.ingestAbsent id obs (c.proj.ingest obs).1 now sink :=
      if_neg hcounted
    rw [hdone', OrderRecord.hear, if_pos hcounted, decide_eq_false hcounted]
    exact record_ingestAbsent hkept

variable (sink) in
/-- An owned observation is scored as one with a quantity or as one without. -/
theorem ingest_of_attributed {apply : Option FillApplyResult}
    (hanswer : (c.proj.ingest { obs with
        observedAtWall := obs.observedAtWall <|> some now }).1 =
      OrderUpdateProjection.attributed
        { obs with observedAtWall := obs.observedAtWall <|> some now } id apply) :
    ∃ seenAt : Option ℚ,
      let stamped := { obs with observedAtWall := obs.observedAtWall <|> some now }
      let received := { c with
        proj := (c.proj.ingest stamped).2
        lastStreamEventAtWall := seenAt }
      c.ingest obs now sink =
        if stamped.Counted then
          received.ingestConfirmed id stamped (c.proj.ingest stamped).1 now sink
        else received.ingestAbsent id stamped (c.proj.ingest stamped).1 now sink := by
  refine ⟨if OrderUpdateProjection.isStreamSource obs.source ∧
      (c.proj.ingest { obs with
        observedAtWall := obs.observedAtWall <|> some now }).1.attributed then
      obs.observedAtWall <|> some now else c.lastStreamEventAtWall, ?_⟩
  dsimp only
  rw [OrderStreamConsumer.ingest]
  dsimp only
  rw [hanswer]
  dsimp only [OrderUpdateProjection.attributed]
  by_cases hcounted : NormalizedOrderObservation.Counted
      { obs with observedAtWall := obs.observedAtWall <|> some now }
  · rw [if_pos hcounted]
    exact if_neg (not_absent hcounted)
  · rw [if_neg hcounted]
    exact if_pos (evidence_absent hcounted)

variable (now sink) in
/-- The refinement: the consumer does to an order's record what `hear` says, and hands its
sink an update when `hear` says so. -/
theorem record_ingest (h : About c.proj id obs) (hrecord : c.record id = some r) :
    (c.ingest obs now sink).consumer.record id = some (r.hear obs).2 ∧
      (c.ingest obs now sink).handed =
        if (r.hear obs).1 then handedTo sink (externalUpdate id obs (!decide obs.Counted) now)
        else none := by
  obtain ⟨l, hold, -⟩ := Option.map_eq_some_iff.mp hrecord
  have hstamped : About c.proj id
      { obs with observedAtWall := obs.observedAtWall <|> some now } := h
  have hanswer : ∃ apply, (c.proj.ingest
      { obs with observedAtWall := obs.observedAtWall <|> some now }).1 =
        OrderUpdateProjection.attributed
          { obs with observedAtWall := obs.observedAtWall <|> some now } id apply := by
    have howned := ingest_owned hstamped hold
    split at howned
    · exact ⟨_, howned.1⟩
    · exact ⟨_, howned.1⟩
  obtain ⟨apply, hanswer⟩ := hanswer
  obtain ⟨seenAt, hingest⟩ := ingest_of_attributed sink hanswer
  rw [hingest, ← externalUpdate_stamped]
  exact record_received hstamped hrecord seenAt

end Refinement

end Strikedge.OrderStream
