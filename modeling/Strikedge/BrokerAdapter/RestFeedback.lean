import Strikedge.BrokerAdapter.OrderUpdate
import Strikedge.OrderStream.OrderRecord

/-!
# REST snapshots fed back to the adapter

Every snapshot the manager takes from the adapter goes to the order-stream consumer as a REST
observation, and the update the consumer makes of it goes back to the adapter. On the way the
normalised state of the snapshot travels as a status label, and the adapter reads it by the
table it has for the labels of its broker.
-/

namespace Strikedge.BrokerAdapter

open Machine Orders OrderStream

/-- The observation `noteStreamBrokerSnapshot` makes of a snapshot. -/
def restObservation (ownerTag : String) (order : SessionOrder) : NormalizedOrderObservation where
  ownerTag := ownerTag
  brokerOrderId := order.brokerOrderId
  account := none
  cumulativeQty := .finite order.filledQuantity
  quantityPresent := some (order.executionEvidence.map (·.quantity) ≠ some .missing)
  averagePrice := order.averagePrice.map .finite
  rawStatus := some order.state.text
  eventId := some s!"rest:{order.clientOrderId}:{order.filledQuantity}:{order.state.text}"
  source := .restPoll

/-- The consumer once it knows the broker's id of the order. -/
def learnt (c : OrderStreamConsumer) (clientOrderId : ClientOrderId) (order : SessionOrder) :
    OrderStreamConsumer :=
  if order.brokerOrderId.any (· ≠ "") then
    c.learnBrokerOrderId clientOrderId order.brokerOrderId
  else c

/-- `noteStreamBrokerSnapshot` of an order, with the adapter behind the consumer. Whether an
update is handed on does not depend on what the adapter answers to it. -/
def noteStreamBrokerSnapshot (d : Dialect) (c : OrderStreamConsumer) (session : Session)
    (clientOrderId : ClientOrderId) (ownerTag : String) (order : SessionOrder) (now : ℚ) :
    OrderStreamConsumer × Session :=
  let c := learnt c clientOrderId order
  let obs := restObservation ownerTag order
  let unanswered := c.ingestRestObservation obs .restPoll now (.works none)
  match unanswered.handed with
  | none => (unanswered.consumer, session)
  | some update =>
    let (merged, session) := d.applyOrderUpdate session update
    ((c.ingestRestObservation obs .restPoll now (.works (merged.map (·.state)))).consumer, session)

/-- The consumer hands on what it makes of the snapshot: it attributes the observation to the
order, and the observation is news to what it holds of the order. -/
def Forwards (c : OrderStreamConsumer) (clientOrderId : ClientOrderId) (ownerTag : String)
    (order : SessionOrder) : Prop :=
  About (learnt c clientOrderId order).proj order.clientOrderId (restObservation ownerTag order) ∧
    ((learnt c clientOrderId order).record order.clientOrderId).any
      fun r => (r.hear (restObservation ownerTag order)).1

/-- The snapshot carried no quantity of its own. -/
def SessionOrder.Unquantified (order : SessionOrder) : Prop :=
  order.executionEvidence.map (·.quantity) = some .missing

/-- The state of the order survives being read as a label of Kite. -/
def SessionOrder.ReadsBackOnKite (order : SessionOrder) : Prop :=
  isBrokerOrderTerminal order.state ∨
    (order.state = .open ∨ order.state = .unknown) ∧
      ¬ partly order.filledQuantity order.quantity ∨
    order.state = .partiallyFilled ∧ partly order.filledQuantity order.quantity ∨
    order.Unquantified ∧
      (partly order.filledQuantity order.quantity ∨ order.state = .cancelRequested)

/-- The state of the order survives being read as a label of Dhan. -/
def SessionOrder.ReadsBackOnDhan (order : SessionOrder) : Prop :=
  isBrokerOrderTerminal order.state ∨ order.state = .unknown

/-- State, quantity and price of the order are in the session as they are in the snapshot. -/
def KeepsOrder (order : SessionOrder) (session : Session) : Prop :=
  ∃ after, session.orders.get? order.clientOrderId = some after ∧ after.state = order.state ∧
    after.filledQuantity = order.filledQuantity ∧ after.averagePrice = order.averagePrice

section Merge

variable {d : Dialect} {order : SessionOrder} {update : ExternalOrderUpdate}

/-- An update that says of an order what its snapshot says. -/
structure Echoes (order : SessionOrder) (update : ExternalOrderUpdate) : Prop where
  label : update.rawStatus = some order.state.text
  quantity : readNonNegativeInteger update.cumulativeQty =
    if order.executionEvidence.map (·.quantity) = some .missing then none
    else some order.filledQuantity
  price : ∀ p ∈ readPositivePrice update.averagePrice, order.averagePrice = some p

theorem Echoes.observed (h : Echoes order update) :
    ∀ q ∈ readNonNegativeInteger update.cumulativeQty, q = order.filledQuantity := by
  intro q hq
  rw [h.quantity] at hq
  split at hq
  · cases hq
  · exact (Option.some.inj hq).symm

theorem Echoes.observe_spec (h : Echoes order update) :
    (d.observe order update).label = order.state.text ∧
      (d.observe order update).regressed = false ∧
      (d.observe order update).verdict.filledQuantity = order.filledQuantity ∧
      ((d.observe order update).verdict.sufficient ↔
        ¬ (order.Unquantified ∧ freezesAccounting
          (d.orderState order.state.text order.filledQuantity order.quantity))) ∧
      ∀ p, (d.observe order update).verdict.averagePrice = some p →
        order.averagePrice = some p := by
  have hlabel : update.rawStatus.getD "" = order.state.text := by rw [h.label, Option.getD_some]
  have hquantity : (readNonNegativeInteger update.cumulativeQty).getD order.filledQuantity =
      order.filledQuantity := by
    rw [h.quantity]
    split <;> rfl
  refine ⟨hlabel, ?_, filledQuantity_of_same h.observed, ?_, ?_⟩
  · show (readNonNegativeInteger update.cumulativeQty).any (· < order.filledQuantity) = false
    cases hread : readNonNegativeInteger update.cumulativeQty with
    | none => rfl
    | some q => exact decide_eq_false (by rw [h.observed q hread]; exact Nat.lt_irrefl _)
  · rw [Dialect.observe, sufficient_iff, hlabel, hquantity, h.quantity,
      SessionOrder.Unquantified]
    split
    · next hmissing => simp [hmissing]
    · next hmissing => simp [hmissing]
  · intro p hp
    have hp : (evaluateExecutionEvidence _ _ _ _ _).averagePrice = some p := hp
    exact h.price p (price_of_averagePrice hp)

/-- The state of the order survives being read as a label. -/
def Dialect.ReadsBack (d : Dialect) (order : SessionOrder) : Prop :=
  let parsed := d.orderState order.state.text order.filledQuantity order.quantity
  order.Unquantified ∧ freezesAccounting parsed ∨
    isBrokerOrderTerminal order.state ∧ ¬ isBrokerOrderTerminal parsed ∨ parsed = order.state

theorem Echoes.merge_spec (h : Echoes order update) :
    (d.merge order (d.observe order update)).filledQuantity = order.filledQuantity ∧
      (d.merge order (d.observe order update)).averagePrice = order.averagePrice ∧
      ((d.merge order (d.observe order update)).state = order.state ↔ d.ReadsBack order) := by
  obtain ⟨hlabel, hregressed, hfilled, hsufficient, hprice⟩ := h.observe_spec (d := d)
  generalize d.observe order update = o at *
  refine ⟨?_, ?_, ?_⟩
  · rw [Dialect.merge]
    simp [hregressed, hfilled]
  · rw [Dialect.merge]
    cases hpriced : o.verdict.averagePrice with
    | none => simp
    | some p => simp [hregressed, hprice p hpriced]
  · rw [Dialect.merge, Dialect.ReadsBack]
    simp only [hregressed, Bool.false_eq_true, if_false, hfilled, Dialect.mergedState, hlabel]
    by_cases hproves : o.verdict.sufficient = true
    · have hclosed := hsufficient.mp hproves
      rw [if_pos hproves]
      simp only [hclosed, false_or]
      split
      · next hguard => exact ⟨fun _ => .inl hguard, fun _ => rfl⟩
      · next hguard => exact ⟨.inr, fun h => h.resolve_left hguard⟩
    · have hopen := not_not.mp (hsufficient.not.mp hproves)
      rw [if_neg hproves]
      simp [hopen]

variable {session : Session}

/-- An update about another order leaves this one alone. -/
theorem get?_of_other (hother : update.clientOrderId ≠ order.clientOrderId) :
    (d.applyOrderUpdate session update).2.orders.get? order.clientOrderId =
      session.orders.get? order.clientOrderId := by
  rw [Dialect.applyOrderUpdate]
  split
  · rfl
  · dsimp only
    split
    · rfl
    · dsimp only
      rw [OrderedMap.get?_set, if_neg hother.symm]

theorem Echoes.keeps_iff (h : Echoes order update)
    (hself : update.clientOrderId = order.clientOrderId)
    (hknown : session.orders.get? order.clientOrderId = some order) :
    KeepsOrder order (d.applyOrderUpdate session update).2 ↔ d.ReadsBack order := by
  obtain ⟨hfilled, hprice, hstate⟩ := h.merge_spec (d := d)
  obtain ⟨-, hregressed, -⟩ := h.observe_spec (d := d)
  have hafter : (d.applyOrderUpdate session update).2.orders.get? order.clientOrderId =
      some (d.merge order (d.observe order update)) := by
    rw [Dialect.applyOrderUpdate, hself, hknown]
    dsimp only
    rw [hregressed, if_neg (fun hback => Bool.false_ne_true hback.1)]
    dsimp only
    rw [OrderedMap.get?_set, if_pos rfl]
  rw [KeepsOrder, hafter, ← hstate]
  constructor
  · rintro ⟨after, heq, hkept, -, -⟩
    rw [Option.some.inj heq]
    exact hkept
  · intro hkept
    exact ⟨_, rfl, hkept, hfilled, hprice⟩

end Merge

section Feed

variable {c : OrderStreamConsumer} {order : SessionOrder} {ownerTag : String} {now : ℚ}
variable {obs : NormalizedOrderObservation} {sink : Sink} {source : FillEventSource}

theorem ingestRest_handed : (c.ingestRestObservation obs source now sink).handed =
    (c.ingest { obs with source := source } now sink).handed := by
  rw [OrderStreamConsumer.ingestRestObservation]
  dsimp only
  split
  · rfl
  · split <;> rfl

/-- An observation of no registered order is not attributed. -/
theorem not_attributed {p : OrderUpdateProjection}
    (h : ∀ id, About p id obs → p.ledgers.get? id = none) :
    (p.ingest obs).1.attributed = false := by
  rw [OrderUpdateProjection.ingest]
  split
  · rfl
  · next hquantity =>
    split
    · rfl
    · next id howner =>
      obtain ⟨howner', hforeign', hledgers⟩ := owner_noteLiveness p id obs obs
      split
      · rfl
      · next hforeign =>
        have habout : About p id obs :=
          ⟨Bool.not_eq_true _ ▸ hquantity, howner' ▸ howner, by
            rw [← hforeign']
            exact Bool.not_eq_true _ ▸ hforeign⟩
        rw [OrderUpdateProjection.ingestOwned, ledgers_learn, hledgers, h id habout]
        rfl

variable (now sink) in
theorem handed_none_of_unregistered
    (h : ∀ id, About c.proj id obs → c.record id = none) :
    (c.ingest obs now sink).handed = none := by
  have hnot : (c.proj.ingest { obs with
      observedAtWall := obs.observedAtWall <|> some now }).1.attributed = false :=
    not_attributed fun id habout => Option.map_eq_none_iff.mp (h id habout)
  rw [OrderStreamConsumer.ingest]
  dsimp only
  rw [hnot]

/-- The update a consumer hands on, by what the observation is about. -/
theorem handed_iff {update : ExternalOrderUpdate} {merged : Option BoxOrderIntentState} :
    (c.ingest obs now (.works merged)).handed = some update ↔
      ∃ id r, About c.proj id obs ∧ c.record id = some r ∧ (r.hear obs).1 ∧
        update = externalUpdate id obs (!decide obs.Counted) now := by
  constructor
  · intro hhanded
    by_cases hregistered : ∃ id, About c.proj id obs ∧ c.record id ≠ none
    · obtain ⟨id, habout, hrecord⟩ := hregistered
      obtain ⟨r, hr⟩ := Option.ne_none_iff_exists'.mp hrecord
      rw [(record_ingest now (.works merged) habout hr).2] at hhanded
      split at hhanded
      · next hnews => exact ⟨id, r, habout, hr, hnews, (Option.some.inj hhanded).symm⟩
      · cases hhanded
    · have hnone := handed_none_of_unregistered now (.works merged)
        fun id habout => not_not.mp fun hrecord => hregistered ⟨id, habout, hrecord⟩
      rw [hnone] at hhanded
      cases hhanded
  · rintro ⟨id, r, habout, hr, hnews, rfl⟩
    rw [(record_ingest now (.works merged) habout hr).2, if_pos hnews]
    rfl

variable (ownerTag order) in
theorem restObservation_counted :
    (restObservation ownerTag order).Counted ↔ ¬ order.Unquantified := by
  rw [NormalizedOrderObservation.Counted, SessionOrder.Unquantified,
    OrderUpdateProjection.evidenceOf, restObservation]
  dsimp only
  by_cases hmissing : order.executionEvidence.map (·.quantity) = some .missing
  · simp [hmissing]
  · simp [hmissing]

/-- The update made of a snapshot says what the snapshot says. -/
theorem echoes_externalUpdate (id : String) :
    Echoes order (externalUpdate id (restObservation ownerTag order)
      (!decide (restObservation ownerTag order).Counted) now) where
  label := rfl
  quantity := by
    have hcounted := restObservation_counted order ownerTag
    rw [SessionOrder.Unquantified] at hcounted
    rw [externalUpdate]
    dsimp only
    by_cases hmissing : order.executionEvidence.map (·.quantity) = some .missing
    · rw [if_pos hmissing, decide_eq_false (fun h => hcounted.mp h hmissing)]
      rfl
    · rw [if_neg hmissing, decide_eq_true (hcounted.mpr hmissing)]
      exact readNonNegativeInteger_natCast order.filledQuantity
  price := by
    intro p hp
    have hp : readPositivePrice (order.averagePrice.map .finite) = some p := hp
    cases hprice : order.averagePrice with
    | none =>
      rw [hprice] at hp
      cases hp
    | some q =>
      rw [hprice, Option.map_some, readPositivePrice_finite] at hp
      split at hp
      · exact hp
      · cases hp

variable {d : Dialect} {session : Session} {clientOrderId : ClientOrderId}

/-- A snapshot keeps its order in the session exactly when it is not handed on or survives
the table. -/
theorem keepsOrder_iff (hknown : session.orders.get? order.clientOrderId = some order) :
    KeepsOrder order
        (noteStreamBrokerSnapshot d c session clientOrderId ownerTag order now).2 ↔
      ¬ Forwards c clientOrderId ownerTag order ∨ d.ReadsBack order := by
  have hkept : KeepsOrder order session := ⟨order, hknown, rfl, rfl, rfl⟩
  rw [noteStreamBrokerSnapshot, Forwards]
  dsimp only
  generalize learnt c clientOrderId order = c
  split
  · next hnone =>
    have hnone : (c.ingest (restObservation ownerTag order) now (.works none)).handed = none :=
      ingestRest_handed.symm.trans hnone
    refine ⟨fun _ => .inl ?_, fun _ => hkept⟩
    rintro ⟨habout, hrecord⟩
    obtain ⟨r, hr, hnews⟩ := (Option.any_eq_true _ _).mp hrecord
    rw [handed_iff.mpr ⟨_, r, habout, hr, hnews, rfl⟩] at hnone
    cases hnone
  · next update hsome =>
    obtain ⟨id, r, habout, hr, hnews, hupdate⟩ :=
      handed_iff.mp (ingestRest_handed.symm.trans hsome)
    have hechoes : Echoes order update := hupdate ▸ echoes_externalUpdate id
    by_cases hself : id = order.clientOrderId
    · subst hself
      rw [hechoes.keeps_iff (congrArg ExternalOrderUpdate.clientOrderId hupdate) hknown]
      refine ⟨.inr, fun h => h.resolve_left fun hnot => hnot ⟨habout, ?_⟩⟩
      rw [hr]
      exact hnews
    · have hother : update.clientOrderId ≠ order.clientOrderId := by
        rw [hupdate]
        exact hself
      refine ⟨fun _ => .inl ?_, fun _ => ?_⟩
      · rintro ⟨habout', -⟩
        exact hself (Option.some.inj (habout.2.1.symm.trans habout'.2.1))
      · rw [KeepsOrder, get?_of_other hother]
        exact hkept

end Feed

inductive LiveBroker where
  | kite
  | dhan
  deriving DecidableEq, Repr

def LiveBroker.dialect (beyond : Char → List Char) : LiveBroker → Dialect
  | .kite => BrokerAdapter.kite beyond
  | .dhan => BrokerAdapter.dhan beyond

def LiveBroker.ReadsBack : LiveBroker → SessionOrder → Prop
  | .kite, order => order.ReadsBackOnKite
  | .dhan, order => order.ReadsBackOnDhan

section Brokers

variable (beyond : Char → List Char) (order : SessionOrder)

theorem readsBack_kite : (BrokerAdapter.kite beyond).ReadsBack order ↔ order.ReadsBackOnKite := by
  rw [Dialect.ReadsBack, SessionOrder.ReadsBackOnKite, BrokerAdapter.kite]
  dsimp only
  rw [kiteState_text]
  generalize partly order.filledQuantity order.quantity = part
  cases order.state <;> cases part <;> simp [freezesAccounting, isBrokerOrderTerminal]

theorem readsBack_dhan : (BrokerAdapter.dhan beyond).ReadsBack order ↔ order.ReadsBackOnDhan := by
  rw [Dialect.ReadsBack, SessionOrder.ReadsBackOnDhan, BrokerAdapter.dhan]
  dsimp only
  rw [dhanOrderState_text]
  cases order.state <;> simp [freezesAccounting, isBrokerOrderTerminal]

end Brokers

/-- Feeding a snapshot back leaves its order as it is exactly when the consumer does not hand
it on or its state survives the broker's own table of labels. -/
theorem snapshot_survives_feedback_iff (beyond : Char → List Char) (broker : LiveBroker)
    (c : OrderStreamConsumer) (session : Session) (clientOrderId : ClientOrderId)
    (ownerTag : String) (order : SessionOrder) (now : ℚ)
    (hknown : session.orders.get? order.clientOrderId = some order) :
    KeepsOrder order
        (noteStreamBrokerSnapshot (broker.dialect beyond) c session clientOrderId ownerTag order
          now).2 ↔
      ¬ Forwards c clientOrderId ownerTag order ∨ broker.ReadsBack order := by
  rw [keepsOrder_iff hknown]
  cases broker with
  | kite => exact or_congr_right (readsBack_kite beyond order)
  | dhan => exact or_congr_right (readsBack_dhan beyond order)

namespace Sample

/-- A consumer with one order, just registered. -/
def consumer : OrderStreamConsumer :=
  (OrderStreamConsumer.new { streamEnabled := true }).registerIntent
    { clientOrderId := "BOX-1", ownerTag := "BXT1", requestedQty := .finite 75 } none

/-- An order nothing of which is filled. -/
def unfilled (state : BoxOrderIntentState) : SessionOrder where
  clientOrderId := "BOX-1"
  brokerOrderId := some "O-1"
  quantity := 75
  state := state
  filledQuantity := 0
  pendingQuantity := 75
  averagePrice := none
  fills := []
  executionEvidence := some ⟨.confirmed, .notApplicable, .complete⟩
  rejectReason := none
  updatedAt := 0

def session (order : SessionOrder) : Session where
  orders := OrderedMap.set ∅ order.clientOrderId order

/-- What the adapter holds once the snapshot has been fed back. -/
def stateAfter (broker : LiveBroker) (order : SessionOrder) : Option BoxOrderIntentState :=
  ((noteStreamBrokerSnapshot (broker.dialect asciiOnly) consumer (session order) "BOX-1" "BXT1"
    order 1).2.orders.get? "BOX-1").map (·.state)

theorem not_keepsOrder {broker : LiveBroker} {state : BoxOrderIntentState}
    (h : stateAfter broker (unfilled state) ≠ some state) :
    ¬ KeepsOrder (unfilled state) (noteStreamBrokerSnapshot (broker.dialect asciiOnly) consumer
      (session (unfilled state)) "BOX-1" "BXT1" (unfilled state) 1).2 := by
  rintro ⟨after, hafter, hstate, -⟩
  have hafter : (noteStreamBrokerSnapshot (broker.dialect asciiOnly) consumer
    (session (unfilled state)) "BOX-1" "BXT1" (unfilled state) 1).2.orders.get? "BOX-1" =
      some after := hafter
  exact h (by rw [stateAfter, hafter, Option.map_some, hstate]; rfl)

end Sample

open Sample in
theorem snapshot_survives_feedback_sample :
    KeepsOrder (unfilled .open) (noteStreamBrokerSnapshot (LiveBroker.kite.dialect asciiOnly)
      consumer (session (unfilled .open)) "BOX-1" "BXT1" (unfilled .open) 1).2 :=
  (snapshot_survives_feedback_iff asciiOnly .kite consumer (session (unfilled .open)) "BOX-1" "BXT1"
    (unfilled .open) 1 (by decide)).mpr (.inr (.inr (.inl ⟨.inl rfl, by decide⟩)))

open Sample in
/-- A working order of Dhan and an acknowledged one of Kite come back unknown. -/
theorem working_orders_come_back_unknown :
    ¬ KeepsOrder (unfilled .open) (noteStreamBrokerSnapshot (LiveBroker.dhan.dialect asciiOnly)
        consumer (session (unfilled .open)) "BOX-1" "BXT1" (unfilled .open) 1).2 ∧
      ¬ KeepsOrder (unfilled .acknowledged) (noteStreamBrokerSnapshot (LiveBroker.kite.dialect
        asciiOnly) consumer (session (unfilled .acknowledged)) "BOX-1" "BXT1"
        (unfilled .acknowledged) 1).2 := by
  have hdhan : stateAfter .dhan (unfilled .open) = some .unknown := by decide +kernel
  have hkite : stateAfter .kite (unfilled .acknowledged) = some .unknown := by decide +kernel
  exact ⟨not_keepsOrder (by rw [hdhan]; decide), not_keepsOrder (by rw [hkite]; decide)⟩

end Strikedge.BrokerAdapter
