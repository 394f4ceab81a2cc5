import Strikedge.BrokerAdapter.OrderUpdate
import Strikedge.Machine.Arithmetic

/-!
# The order an adapter projects from a record of its broker

`normalizeKiteOrder` of the Kite adapter, `project` and `orphanOrder` of the Dhan adapter. The
role, the instrument and the attempt, which are copied, and the family of a rejection are left
out. A field that a record does not have is none.
-/

namespace Strikedge.BrokerAdapter

open Machine Orders

inductive ProjectedFillId where
  | aggregate (id : FillId)
  /-- the trade id of the exchange -/
  | trade (id : String)
  | entry (order : String) (index : Nat) (quantity price : Option Number)
  deriving DecidableEq, Repr

structure ProjectedFill where
  fillId : ProjectedFillId
  quantity : ℚ
  price : Option ℚ
  time : ℚ
  deriving DecidableEq, Repr

structure ProjectedOrder where
  clientOrderId : ClientOrderId
  brokerOrderId : Option String
  tag : Option String
  quantity : Number
  limitPrice : Number
  state : BoxOrderIntentState
  filledQuantity : Nat
  pendingQuantity : Number
  averagePrice : Option ℚ
  fills : List ProjectedFill
  executionEvidence : Option ExecutionEvidenceQuality
  rejectReason : Option String
  createdAt : ℚ
  updatedAt : ℚ
  deriving DecidableEq, Repr

/-- `numberOr` -/
def numberOr (value : Number) (fallback : ℚ) : ℚ := value.finite?.getD fallback

/-- The state of a projection: what the table of the broker makes of the quantity accepted,
where the record proves it. -/
def projectedState (table : Nat → BoxOrderIntentState) (verdict : ExecutionEvidenceVerdict) :
    BoxOrderIntentState :=
  if verdict.sufficient then table verdict.filledQuantity else .reconciliationRequired

/-- A row of the order book of Kite. A time that does not parse is none. -/
structure KiteTransportOrder where
  orderId : String
  status : Option String
  quantity : Number
  filledQuantity : Option Number
  averagePrice : Option Number
  price : Number
  tag : Option String
  statusMessage : Option String
  orderTimestamp : Option ℚ
  exchangeUpdateTimestamp : Option ℚ
  deriving DecidableEq, Repr

/-- `normalizeKiteOrder`. A row without a status fails. -/
def normalizeKiteOrder (beyond : Char → List Char) (raw : KiteTransportOrder)
    (known : Option ProjectedOrder) (now : ℚ) : Option ProjectedOrder :=
  raw.status.map fun status =>
    let observedQuantity := readNonNegativeInteger raw.filledQuantity
    let observedPrice := readPositivePrice raw.averagePrice
    let priorFilled := (known.map (·.filledQuantity)).getD 0
    let claimedState :=
      kiteState beyond status (observedQuantity.getD priorFilled) raw.quantity
    let verdict :=
      evaluateExecutionEvidence status claimedState priorFilled observedQuantity observedPrice
    let filled := verdict.filledQuantity
    let state := projectedState (kiteState beyond status · raw.quantity) verdict
    { clientOrderId := (known.map (·.clientOrderId)).getD ("KITE_ORPHAN:" ++ raw.orderId)
      brokerOrderId := some raw.orderId
      tag := raw.tag <|> known.bind (·.tag)
      quantity := raw.quantity
      limitPrice := raw.price
      state := state
      filledQuantity := filled
      pendingQuantity := (raw.quantity.minus (.finite filled)).atLeastZero
      averagePrice := verdict.averagePrice
      fills :=
        if 0 < filled then
          [{ fillId := .aggregate ⟨"kite", raw.orderId, filled, verdict.averagePrice⟩
             quantity := filled
             price := verdict.averagePrice
             time := raw.exchangeUpdateTimestamp.getD now }]
        else []
      executionEvidence := some verdict.quality
      rejectReason :=
        if state = .rejected then raw.statusMessage <|> some status else verdict.detail
      createdAt := (known.map (·.createdAt)).getD (raw.orderTimestamp.getD now)
      updatedAt := raw.exchangeUpdateTimestamp.getD now }

/-- A time as Dhan prints it, and what it parses to if it does. -/
abbrev PrintedTime := Option ℚ

/-- `parseDhanTime` -/
def parseDhanTime (value : Option PrintedTime) (fallback : ℚ) : ℚ := value.join.getD fallback

/-- An order as Dhan reports it. The quantity and the price are `NaN` where they are missing. -/
structure DhanOrder where
  orderId : Option String
  correlationId : Option String
  orderStatus : Option String
  quantity : Number
  price : Number
  remainingQuantity : Option Number
  averageTradedPrice : Option Number
  filledQty : Option Number
  omsErrorCode : Option String
  omsErrorDescription : Option String
  createTime : Option PrintedTime
  updateTime : Option PrintedTime
  exchangeTime : Option PrintedTime
  deriving DecidableEq, Repr

structure DhanTrade where
  exchangeTradeId : Option String
  tradedQuantity : Option Number
  tradedPrice : Option Number
  createTime : Option PrintedTime
  updateTime : Option PrintedTime
  exchangeTime : Option PrintedTime
  deriving DecidableEq, Repr

/-- What `project` reads of a request, which has no fill, or of an order of the session. -/
structure Template where
  clientOrderId : ClientOrderId
  quantity : Nat
  limitPrice : ℚ
  filledQuantity : Option Nat
  deriving DecidableEq, Repr

def DhanTrade.fill (t : DhanTrade) (order : String) (index : Nat) (now : ℚ) : ProjectedFill :=
  { fillId :=
      match t.exchangeTradeId.filter (· ≠ "") with
      | some id => .trade id
      | none => .entry order index t.tradedQuantity t.tradedPrice
    quantity := numberOr (t.tradedQuantity.getD .nan) 0
    -- a price that is not published is absent, never zero
    price := readPositivePrice t.tradedPrice
    time := parseDhanTime (t.exchangeTime <|> t.updateTime <|> t.createTime) now }

/-- `project` -/
def project (beyond : Char → List Char) (template : Template) (remote : DhanOrder)
    (correlationId : String) (fills : List DhanTrade) (now : ℚ) : ProjectedOrder :=
  let quantity := template.quantity
  let priorFilled := template.filledQuantity.getD 0
  let status := remote.orderStatus.getD ""
  let order := remote.orderId.getD "undefined"
  let observedQuantity := readNonNegativeInteger remote.filledQty
  let observedPrice := readPositivePrice remote.averageTradedPrice
  let claimedState := dhanOrderState beyond status (observedQuantity.getD priorFilled) quantity
  let verdict :=
    evaluateExecutionEvidence status claimedState priorFilled observedQuantity observedPrice
  let filled := verdict.filledQuantity
  let state := projectedState (dhanOrderState beyond status · quantity) verdict
  let remaining : ℚ := ((quantity - filled : Nat) : ℚ)
  { clientOrderId := template.clientOrderId
    brokerOrderId := remote.orderId
    tag := some correlationId
    quantity := .finite quantity
    limitPrice := .finite template.limitPrice
    state := state
    filledQuantity := filled
    pendingQuantity :=
      .finite ((remote.remainingQuantity.map (numberOr · remaining)).getD remaining)
    averagePrice := verdict.averagePrice
    fills :=
      if fills ≠ [] then fills.mapIdx fun index t => t.fill order index now
      else if 0 < filled then
        -- one fill stands for the trades that are not known
        [{ fillId := .aggregate ⟨"dhan", order, filled, verdict.averagePrice⟩
           quantity := filled
           price := verdict.averagePrice
           time := parseDhanTime (remote.exchangeTime <|> remote.updateTime) now }]
      else []
    executionEvidence := some verdict.quality
    rejectReason :=
      if state = .rejected then
        remote.omsErrorDescription <|> remote.omsErrorCode <|> some "Dhan rejected the order."
      else verdict.detail
    createdAt := parseDhanTime remote.createTime now
    updatedAt := parseDhanTime (remote.updateTime <|> remote.exchangeTime) now }

/-- `orphanOrder`: an order that the session did not create. -/
def orphanOrder (beyond : Char → List Char) (order : DhanOrder) (now : ℚ) : ProjectedOrder :=
  let quantity := numberOr order.quantity 0
  let status := order.orderStatus.getD ""
  let observedQuantity := readNonNegativeInteger order.filledQty
  let observedPrice := readPositivePrice order.averageTradedPrice
  let claimedState := dhanOrderState beyond status (observedQuantity.getD 0) quantity
  let verdict := evaluateExecutionEvidence status claimedState 0 observedQuantity observedPrice
  let filled := verdict.filledQuantity
  { clientOrderId := "DHAN_ORPHAN:" ++ order.orderId.getD "undefined"
    brokerOrderId := order.orderId
    tag := order.correlationId
    quantity := .finite quantity
    limitPrice := .finite (numberOr order.price 0)
    state := projectedState (dhanOrderState beyond status · quantity) verdict
    filledQuantity := filled
    pendingQuantity := .finite (max 0 (quantity - filled))
    averagePrice := verdict.averagePrice
    fills := []
    executionEvidence := some verdict.quality
    rejectReason := verdict.detail
    createdAt := parseDhanTime order.createTime now
    updatedAt := parseDhanTime order.updateTime now }

/-- The quantities behind a projection: the one requested, the one held before and the one the
record reports, if it does. -/
structure Snapshot where
  requested : Number
  held : Nat
  reported : Option Nat
  deriving DecidableEq, Repr

namespace Snapshot

/-- The quantity that is proven. -/
def filled (s : Snapshot) : Nat := max s.held (s.reported.getD 0)

/-- Less is proven than was requested. -/
def Short (s : Snapshot) : Prop := Number.less (.finite s.filled) s.requested

/-- Some of the quantity is proven and some is not. -/
def InPart (s : Snapshot) : Prop := 0 < s.filled ∧ s.Short

/-- The quantity is more than was requested. -/
def Exceeds (requested : Number) (n : Nat) : Prop := requested.less (.finite n)

end Snapshot

/-- The label of a row as the tables read it. -/
def KiteTransportOrder.label (beyond : Char → List Char) (raw : KiteTransportOrder) : String :=
  labelOf beyond (raw.status.getD "")

def DhanOrder.label (beyond : Char → List Char) (order : DhanOrder) : String :=
  labelOf beyond (order.orderStatus.getD "")

def KiteTransportOrder.snapshot (raw : KiteTransportOrder) (known : Option ProjectedOrder) :
    Snapshot :=
  ⟨raw.quantity, (known.map (·.filledQuantity)).getD 0, readNonNegativeInteger raw.filledQuantity⟩

def DhanOrder.snapshot (remote : DhanOrder) (template : Template) : Snapshot :=
  ⟨.finite template.quantity, template.filledQuantity.getD 0,
    readNonNegativeInteger remote.filledQty⟩

def DhanOrder.orphanSnapshot (order : DhanOrder) : Snapshot :=
  ⟨.finite (numberOr order.quantity 0), 0, readNonNegativeInteger order.filledQty⟩

/-- A label of Kite with which an order is over. -/
def KiteOver (label : String) : Prop :=
  label = "COMPLETE" ∨ includes label "CANCELLED" ∨ includes label "REJECT"

/-- A label of Kite that its quantity contradicts, or that tells of a cancellation to come. -/
def KiteUnclear (label : String) (s : Snapshot) : Prop :=
  s.reported.isSome ∧ (label = "COMPLETE" ∧ s.Short ∨
    includes label "CANCEL" ∧ ¬ includes label "CANCELLED")

/-- An order of Dhan is over. What expired or traded in part is not. -/
def DhanOver (label : String) (s : Snapshot) : Prop :=
  label = "CANCELLED" ∨ label = "CLOSED" ∨ label = "REJECTED" ∨
    label = "PART_TRADED" ∧ ¬ s.Short ∧ Number.less (.finite 0) s.requested ∨
    (label = "TRADED" ∨ label = "EXPIRED") ∧ ¬ s.InPart

/-- Dhan reports an order as traded of which nothing is filled. -/
def DhanUnclear (label : String) (s : Snapshot) : Prop :=
  s.reported.isSome ∧ label = "TRADED" ∧ s.filled = 0 ∧ s.Short

/-- What holds of a projection. -/
structure Projects (s : Snapshot) (ended unclear : Prop) (o : ProjectedOrder) : Prop where
  requested : o.quantity = s.requested
  /-- the larger of the two quantities stands, whatever the state -/
  filled : o.filledQuantity = s.filled
  bounded : Snapshot.Exceeds o.quantity o.filledQuantity ↔
    Snapshot.Exceeds s.requested s.held ∨ ∃ n ∈ s.reported, Snapshot.Exceeds s.requested n
  complete : ¬ unclear → o.state = .complete → ¬ s.Short
  terminal : ¬ unclear → (isBrokerOrderTerminal o.state ↔ s.reported.isSome ∧ ended)

/-- What would hold of a projection if no broker ever contradicted itself or filled too much. -/
structure Consistent (ended : Prop) (o : ProjectedOrder) : Prop where
  complete : o.state = .complete → o.quantity = .finite o.filledQuantity
  rejected : o.state = .rejected → o.filledQuantity = 0
  bounded : ¬ Snapshot.Exceeds o.quantity o.filledQuantity
  terminal : isBrokerOrderTerminal o.state ↔ ended

section Verdict

variable {label : String} {claimed : BoxOrderIntentState} {held : Nat} {reported : Option Nat}
variable {price : Option ℚ}

theorem filledQuantity_eq :
    (evaluateExecutionEvidence label claimed held reported price).filledQuantity =
      max held (reported.getD 0) := by
  rw [evaluateExecutionEvidence.eq_def]
  cases reported with
  | none =>
    dsimp only
    split
    · exact (Nat.max_zero held).symm
    · exact (Nat.max_zero held).symm
  | some observed =>
    dsimp only
    split
    · next hzero => exact hzero.symm
    · rfl

/-- A state that freezes accounting is reached on a reported quantity only. -/
theorem projectedState_eq_iff {table : Nat → BoxOrderIntentState} {state : BoxOrderIntentState}
    (hfreezes : freezesAccounting state) :
    projectedState table
        (evaluateExecutionEvidence label (table (reported.getD held)) held reported price) =
        state ↔
      reported.isSome ∧ table (max held (reported.getD 0)) = state := by
  rw [projectedState, filledQuantity_eq]
  cases reported with
  | none =>
    simp only [Option.isSome_none, Bool.false_eq_true, false_and, iff_false]
    split
    · next hsufficient =>
      rintro rfl
      exact sufficient_iff.mp hsufficient ⟨rfl, by simpa using hfreezes⟩
    · rintro rfl
      cases hfreezes
  | some observed =>
    have hsufficient : (evaluateExecutionEvidence label (table observed) held (some observed)
        price).sufficient := sufficient_iff.mpr (by simp)
    simp [hsufficient]

end Verdict

theorem isBrokerOrderTerminal_iff {state : BoxOrderIntentState} :
    isBrokerOrderTerminal state ↔
      state = .complete ∨ state = .cancelled ∨ state = .rejected := by
  cases state <;> decide

section Tables

variable {beyond : Char → List Char} {status : String} {filled : Nat}

theorem includes_of_includes {text long short : String} (h : includes text long)
    (hsub : short.toList <:+: long.toList) : includes text short := by
  rw [includes, decide_eq_true_eq] at h ⊢
  exact hsub.trans h

theorem kiteState_complete_iff {quantity : Number} :
    kiteState beyond status filled quantity = .complete ↔
      labelOf beyond status = "COMPLETE" := by
  rw [kiteState]
  split
  · next hvalue => exact ⟨fun _ => hvalue, fun _ => rfl⟩
  · next hvalue =>
    refine ⟨fun h => ?_, fun h => absurd h hvalue⟩
    repeat' split at h
    all_goals cases h

theorem kiteState_terminal_iff {quantity : Number} :
    isBrokerOrderTerminal (kiteState beyond status filled quantity) ↔
      labelOf beyond status = "COMPLETE" ∨ includes (labelOf beyond status) "CANCEL" ∨
        includes (labelOf beyond status) "REJECT" := by
  simp only [kiteState]
  split_ifs with hcomplete hcancel hreject
  all_goals simp_all [isBrokerOrderTerminal]

/-- A short fill is a fill of a positive quantity. -/
theorem shortFill_iff {quantity : ℚ} :
    (0 < quantity ∧ 0 < filled ∧ (filled : ℚ) < quantity) ↔
      0 < filled ∧ (filled : ℚ) < quantity := by
  refine ⟨And.right, fun h => ⟨?_, h⟩⟩
  exact (Nat.cast_nonneg filled).trans_lt h.2

theorem dhanOrderState_complete_iff {quantity : ℚ} :
    dhanOrderState beyond status filled quantity = .complete ↔
      labelOf beyond status = "PART_TRADED" ∧ quantity ≤ filled ∧ 0 < quantity ∨
        labelOf beyond status = "TRADED" ∧ ¬ (0 < filled ∧ filled < quantity) := by
  simp only [dhanOrderState, shortFill_iff]
  split_ifs
  all_goals simp_all

theorem dhanOrderState_terminal_iff {quantity : ℚ} :
    isBrokerOrderTerminal (dhanOrderState beyond status filled quantity) ↔
      labelOf beyond status = "CANCELLED" ∨ labelOf beyond status = "CLOSED" ∨
        labelOf beyond status = "REJECTED" ∨
        labelOf beyond status = "PART_TRADED" ∧ quantity ≤ filled ∧ 0 < quantity ∨
        (labelOf beyond status = "TRADED" ∨ labelOf beyond status = "EXPIRED") ∧
          ¬ (0 < filled ∧ filled < quantity) := by
  by_cases hover : labelOf beyond status = "CANCELLED" ∨ labelOf beyond status = "CLOSED"
  · rcases hover with hlabel | hlabel
    · simp [dhanOrderState, hlabel, isBrokerOrderTerminal]
    · simp [dhanOrderState, hlabel, isBrokerOrderTerminal]
  · obtain ⟨hcancelled, hclosed⟩ := not_or.mp hover
    simp only [dhanOrderState, shortFill_iff]
    split_ifs
    all_goals simp_all [isBrokerOrderTerminal]

end Tables

section Projection

variable (beyond : Char → List Char)

/-- The state is terminal on a reported quantity that the table takes to be final. -/
theorem projectedState_terminal_iff {table : Nat → BoxOrderIntentState} {label : String}
    {held : Nat} {reported : Option Nat} {price : Option ℚ} :
    isBrokerOrderTerminal (projectedState table
        (evaluateExecutionEvidence label (table (reported.getD held)) held reported price)) ↔
      reported.isSome ∧ isBrokerOrderTerminal (table (max held (reported.getD 0))) := by
  rw [isBrokerOrderTerminal_iff, isBrokerOrderTerminal_iff, projectedState_eq_iff,
    projectedState_eq_iff, projectedState_eq_iff, ← and_or_left, ← and_or_left]
  all_goals rfl

theorem Snapshot.exceeds_of_le {requested : Number} {n m : Nat} (h : n ≤ m)
    (hn : Snapshot.Exceeds requested n) : Snapshot.Exceeds requested m := by
  rw [Snapshot.Exceeds] at hn ⊢
  have hle : (n : ℚ) ≤ m := by exact_mod_cast h
  cases requested with
  | finite q =>
    simp only [Number.finite_less, decide_eq_true_eq] at hn ⊢
    exact hn.trans_le hle
  | nan => cases hn
  | infinity => cases hn
  | negativeInfinity => rfl

theorem Snapshot.exceeds_filled (s : Snapshot) :
    Snapshot.Exceeds s.requested s.filled ↔
      Snapshot.Exceeds s.requested s.held ∨ ∃ n ∈ s.reported, Snapshot.Exceeds s.requested n := by
  obtain ⟨requested, held, reported⟩ := s
  cases reported with
  | none => simp [Snapshot.filled]
  | some n =>
    simp only [Snapshot.filled, Option.getD_some, Option.mem_some_iff, exists_eq_left']
    constructor
    · intro h
      rcases max_choice held n with hmax | hmax
      · exact .inl (hmax ▸ h)
      · exact .inr (hmax ▸ h)
    · rintro (h | h)
      · exact Snapshot.exceeds_of_le (le_max_left held n) h
      · exact Snapshot.exceeds_of_le (le_max_right held n) h

/-- A projection is judged by what its table makes of the quantity that is proven. -/
theorem Projects.of_state (table : Nat → BoxOrderIntentState) {s : Snapshot}
    {ended unclear : Prop} {o : ProjectedOrder} {label : String} {price : Option ℚ}
    (hrequested : o.quantity = s.requested)
    (hfilled : o.filledQuantity = s.filled)
    (hstate : o.state = projectedState table
      (evaluateExecutionEvidence label (table (s.reported.getD s.held)) s.held s.reported price))
    (hcomplete : s.reported.isSome → ¬ unclear → table s.filled = .complete → ¬ s.Short)
    (hterminal : s.reported.isSome → ¬ unclear →
      (isBrokerOrderTerminal (table s.filled) ↔ ended)) :
    Projects s ended unclear o := by
  refine ⟨hrequested, hfilled, ?_, ?_, ?_⟩
  · rw [hrequested, hfilled]
    exact s.exceeds_filled
  · intro hclear hstated
    rw [hstate, projectedState_eq_iff rfl] at hstated
    exact hcomplete hstated.1 hclear hstated.2
  · intro hclear
    rw [hstate, projectedState_terminal_iff]
    exact and_congr_right fun hreported => hterminal hreported hclear

theorem normalizeKiteOrder_projects (raw : KiteTransportOrder) (known : Option ProjectedOrder)
    (now : ℚ) :
    (normalizeKiteOrder beyond raw known now).elim (raw.status = none) fun o =>
      Projects (raw.snapshot known) (KiteOver (raw.label beyond))
        (KiteUnclear (raw.label beyond) (raw.snapshot known)) o := by
  rw [KiteTransportOrder.label]
  cases hstatus : raw.status with
  | none => simp [normalizeKiteOrder, hstatus]
  | some status =>
    rw [normalizeKiteOrder, hstatus]
    refine Projects.of_state (kiteState beyond status · raw.quantity) rfl filledQuantity_eq rfl
      ?_ ?_
    · intro hreported hclear htable hshort
      exact hclear ⟨hreported, .inl ⟨kiteState_complete_iff.mp htable, hshort⟩⟩
    · intro hreported hclear
      rw [kiteState_terminal_iff]
      refine or_congr_right (or_congr_left ?_)
      refine ⟨fun hcancel => ?_, fun hcancelled => includes_of_includes hcancelled (by decide)⟩
      by_contra hpending
      exact hclear ⟨hreported, .inr ⟨hcancel, hpending⟩⟩

theorem Snapshot.finite_exceeds {requested : ℚ} {n : Nat} :
    Snapshot.Exceeds (.finite requested) n ↔ requested < n := by
  rw [Snapshot.Exceeds, Number.finite_less, decide_eq_true_eq]

/-- The same for the table of Dhan and a finite quantity. -/
theorem Projects.of_dhanOrderState (price : Option ℚ) {requested : ℚ} {held : Nat}
    {reported : Option Nat} {status : String} {o : ProjectedOrder}
    (hrequested : o.quantity = .finite requested)
    (hfilled : o.filledQuantity = max held (reported.getD 0))
    (hstate : o.state = projectedState (dhanOrderState beyond status · requested)
      (evaluateExecutionEvidence status
        (dhanOrderState beyond status (reported.getD held) requested) held reported price)) :
    Projects ⟨.finite requested, held, reported⟩
      (DhanOver (labelOf beyond status) ⟨.finite requested, held, reported⟩)
      (DhanUnclear (labelOf beyond status) ⟨.finite requested, held, reported⟩) o := by
  refine Projects.of_state (dhanOrderState beyond status · requested) hrequested hfilled hstate
    ?_ ?_
  · intro hreported hclear htable hshort
    have hless := hshort
    rw [Snapshot.Short, Number.finite_less, decide_eq_true_eq] at hless
    rcases dhanOrderState_complete_iff.mp htable with ⟨_, hwhole, _⟩ | ⟨hlabel, hpart⟩
    · exact absurd hless (not_lt.mpr hwhole)
    · refine hclear ⟨hreported, hlabel, ?_, hshort⟩
      by_contra hzero
      exact hpart ⟨Nat.pos_of_ne_zero hzero, hless⟩
  · intro _ _
    rw [dhanOrderState_terminal_iff, DhanOver, Snapshot.InPart, Snapshot.Short]
    simp only [Number.finite_less, decide_eq_true_eq, not_lt]

theorem project_projects (template : Template) (remote : DhanOrder) (correlationId : String)
    (fills : List DhanTrade) (now : ℚ) :
    Projects (remote.snapshot template) (DhanOver (remote.label beyond) (remote.snapshot template))
      (DhanUnclear (remote.label beyond) (remote.snapshot template))
      (project beyond template remote correlationId fills now) := by
  refine Projects.of_dhanOrderState beyond (readPositivePrice remote.averageTradedPrice) rfl
    filledQuantity_eq rfl

theorem orphanOrder_projects (order : DhanOrder) (now : ℚ) :
    Projects order.orphanSnapshot (DhanOver (order.label beyond) order.orphanSnapshot)
      (DhanUnclear (order.label beyond) order.orphanSnapshot) (orphanOrder beyond order now) :=
  Projects.of_dhanOrderState beyond (readPositivePrice order.averageTradedPrice) rfl
    filledQuantity_eq rfl

/-- Without an overfill, and without a fill of what was rejected, a record that reports its
quantity is projected consistently. -/
theorem Projects.consistent {s : Snapshot} {ended unclear : Prop} {o : ProjectedOrder} {q : ℚ}
    (h : Projects s ended unclear o) (hclear : ¬ unclear) (hreported : s.reported.isSome)
    (hrequested : s.requested = .finite q) (hwithin : ¬ Snapshot.Exceeds s.requested s.filled)
    (hrejected : o.state = .rejected → s.filled = 0) : Consistent ended o := by
  refine ⟨?_, ?_, ?_, ?_⟩
  · intro hcomplete
    have hshort := h.complete hclear hcomplete
    rw [Snapshot.Short, hrequested, Number.finite_less, decide_eq_true_eq, not_lt] at hshort
    rw [hrequested, Snapshot.finite_exceeds, not_lt] at hwithin
    rw [h.requested, hrequested, h.filled, le_antisymm hshort hwithin]
  · intro hstate
    rw [h.filled]
    exact hrejected hstate
  · rw [h.requested, h.filled]
    exact hwithin
  · rw [h.terminal hclear]
    exact and_iff_right hreported

/-- Every order the two adapters project, of any record and any order held before. -/
theorem adapters_project (raw : KiteTransportOrder) (known : Option ProjectedOrder)
    (template : Template) (remote : DhanOrder) (correlationId : String) (fills : List DhanTrade)
    (now : ℚ) :
    ((normalizeKiteOrder beyond raw known now).elim (raw.status = none) fun o =>
      Projects (raw.snapshot known) (KiteOver (raw.label beyond))
        (KiteUnclear (raw.label beyond) (raw.snapshot known)) o) ∧
    Projects (remote.snapshot template) (DhanOver (remote.label beyond) (remote.snapshot template))
      (DhanUnclear (remote.label beyond) (remote.snapshot template))
      (project beyond template remote correlationId fills now) ∧
    Projects remote.orphanSnapshot (DhanOver (remote.label beyond) remote.orphanSnapshot)
      (DhanUnclear (remote.label beyond) remote.orphanSnapshot) (orphanOrder beyond remote now) :=
  ⟨normalizeKiteOrder_projects beyond raw known now,
    project_projects beyond template remote correlationId fills now,
    orphanOrder_projects beyond remote now⟩

end Projection

def kiteRow (status : String) (quantity filled : Nat) : KiteTransportOrder :=
  { orderId := "1", status := some status, quantity := .finite quantity
    filledQuantity := some (.finite filled), averagePrice := some (.finite 10)
    price := .finite 10, tag := none, statusMessage := none, orderTimestamp := none
    exchangeUpdateTimestamp := none }

def dhanRow (status : String) (filled : Option Nat) : DhanOrder :=
  { orderId := some "1", correlationId := none, orderStatus := some status
    quantity := .finite 75, price := .finite 10, remainingQuantity := none
    averageTradedPrice := some (.finite 10), filledQty := filled.map fun n => .finite n
    omsErrorCode := none, omsErrorDescription := none, createTime := none, updateTime := none
    exchangeTime := none }

/-- An order can be filled beyond what it asked for, be rejected after a fill, be cancelled
without its quantity, and expire when part of it is filled. -/
theorem contradictory_records :
    (∃ o ∈ normalizeKiteOrder asciiOnly (kiteRow "COMPLETE" 50 60) none 0, ¬ Consistent True o) ∧
    (∃ o ∈ normalizeKiteOrder asciiOnly (kiteRow "REJECTED" 50 20) none 0, ¬ Consistent True o) ∧
    ¬ Consistent True
      (project asciiOnly ⟨"a", 75, 10, none⟩ (dhanRow "CANCELLED" none) "t" [] 0) ∧
    ¬ Consistent True
      (project asciiOnly ⟨"a", 75, 10, none⟩ (dhanRow "EXPIRED" (some 25)) "t" [] 0) := by
  refine ⟨⟨_, rfl, fun h => ?_⟩, ⟨_, rfl, fun h => ?_⟩, fun h => ?_, fun h => ?_⟩
  · exact absurd (h.complete (by decide +kernel)) (by decide +kernel)
  · exact absurd (h.rejected (by decide +kernel)) (by decide +kernel)
  · exact absurd (h.terminal.mpr trivial) (by decide +kernel)
  · exact absurd (h.terminal.mpr trivial) (by decide +kernel)

end Strikedge.BrokerAdapter
