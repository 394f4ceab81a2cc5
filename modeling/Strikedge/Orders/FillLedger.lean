import Strikedge.Machine.HighWater
import Strikedge.Machine.Number

/-!
# The cumulative fill ledger

One ledger belongs to one order, and every observation of the order's filled quantity
goes through `apply`. An event reports the broker's running total, not a delta: it is
dropped when its identity was seen before or when its total is not higher than the
recorded one. The two rejections agree as long as events that share an identity report
the same total, and then the ledger is the high-water mark of the totals it was handed.
-/

namespace Strikedge.Orders

open Machine

inductive FillEventSource where
  | restPoll
  | orderUpdate
  | postback
  | tradeBook
  | reconciliation
  | paper
  deriving DecidableEq, Repr

structure CumulativeFillEvent where
  cumulativeQty : Number
  averagePrice : Option Number := none
  eventId : Option String := none
  sequence : Option Number := none
  observedAtMono : Option Number := none
  observedAtWall : Option Number := none
  source : FillEventSource
  deriving DecidableEq, Repr

inductive FillApplyOutcome where
  | applied
  | appliedOverfill
  | duplicateEvent
  | staleCumulative
  | invalid
  deriving DecidableEq, Repr

structure FillApplyResult where
  outcome : FillApplyOutcome
  delta : Int
  cumulative : Int
  remaining : Int
  averagePrice : Option ℚ
  overfill : Int
  sequenceRegression : Bool
  deriving DecidableEq, Repr

structure CumulativeFillLedger where
  clientOrderId : String
  requested : Int
  cumulativeQty : Int := 0
  avgPrice : Option ℚ := none
  overfillQty : Int := 0
  appliedCount : Nat := 0
  duplicateCount : Nat := 0
  staleCount : Nat := 0
  regressionCount : Nat := 0
  highestSequence : Option ℚ := none
  lastSourceSeen : Option FillEventSource := none
  firstFillMono : Option ℚ := none
  lastFillMono : Option ℚ := none
  firstFillWall : Option ℚ := none
  lastFillWall : Option ℚ := none
  seenEventIds : List String := []
  deriving DecidableEq, Repr

namespace CumulativeFillLedger

def new (clientOrderId : String) (requestedQty : Number) : CumulativeFillLedger where
  clientOrderId := clientOrderId
  requested := match requestedQty.finite? with
    | some q => max 0 ⌊q⌋
    | none => 0

variable (l : CumulativeFillLedger)

def remaining : Int := max 0 (l.requested - l.cumulativeQty)

def result (outcome : FillApplyOutcome) (delta : Int) (sequenceRegression : Bool) :
    FillApplyResult where
  outcome := outcome
  delta := delta
  cumulative := l.cumulativeQty
  remaining := l.remaining
  averagePrice := l.avgPrice
  overfill := l.overfillQty
  sequenceRegression := sequenceRegression

/-- Detect an out-of-order sequence number. Nothing but the counter depends on it. -/
def noteSequence (sequence : Option Number) : Bool × CumulativeFillLedger :=
  match sequence.bind Number.finite? with
  | none => (false, l)
  | some sequence =>
    if l.highestSequence.any (sequence ≤ ·) then
      (true, { l with regressionCount := l.regressionCount + 1 })
    else (false, { l with highestSequence := some sequence })

/-- What an advancing event leaves in the ledger besides the quantity. -/
def noteFill (event : CumulativeFillEvent) : CumulativeFillLedger :=
  let price := (event.averagePrice.bind Number.finite?).filter (0 < ·)
  let mono := event.observedAtMono.bind Number.finite?
  let wall := event.observedAtWall.bind Number.finite?
  { l with
    appliedCount := l.appliedCount + 1
    lastSourceSeen := some event.source
    avgPrice := price <|> l.avgPrice
    firstFillMono := l.firstFillMono <|> mono
    lastFillMono := mono <|> l.lastFillMono
    firstFillWall := l.firstFillWall <|> wall
    lastFillWall := wall <|> l.lastFillWall }

/-- Record an identity that has not been seen. A blank one is no identity. -/
def remember (id : String) : CumulativeFillLedger :=
  if id = "" then l else { l with seenEventIds := l.seenEventIds ++ [id] }

/-- The cumulative rule, for an event that is valid and not a duplicate. -/
def advance (event : CumulativeFillEvent) (observed : Int) (regression : Bool) :
    FillApplyResult × CumulativeFillLedger :=
  if observed ≤ l.cumulativeQty then
    let l := { l with staleCount := l.staleCount + 1 }
    (l.result .staleCumulative 0 regression, l)
  else
    let delta := observed - l.cumulativeQty
    let l := { l.noteFill event with
      cumulativeQty := observed
      overfillQty := max 0 (observed - l.requested) }
    (l.result (if l.overfillQty > 0 then .appliedOverfill else .applied) delta regression, l)

end CumulativeFillLedger

/-- The quantity of a well-formed event: finite and not negative. -/
def CumulativeFillEvent.validQty (event : CumulativeFillEvent) : Option ℚ :=
  event.cumulativeQty.finite?.filter (0 ≤ ·)

/-- `event.eventId?.trim()`, where a missing identity reads like a blank one. -/
def CumulativeFillEvent.identity (event : CumulativeFillEvent) : String :=
  (event.eventId.map trim).getD ""

namespace CumulativeFillLedger

def apply (l : CumulativeFillLedger) (event : CumulativeFillEvent) :
    FillApplyResult × CumulativeFillLedger :=
  match event.validQty with
  | none => (l.result .invalid 0 false, l)
  | some raw =>
    let observed := ⌊raw⌋
    let id := event.identity
    if id ≠ "" ∧ id ∈ l.seenEventIds then
      let l := { l with duplicateCount := l.duplicateCount + 1 }
      (l.result .duplicateEvent 0 false, l)
    else
      let (regression, l) := (l.remember id).noteSequence event.sequence
      l.advance event observed regression

/-- Hand a sequence of events to the ledger, in order. -/
def applyAll (l : CumulativeFillLedger) :
    List CumulativeFillEvent → List FillApplyResult × CumulativeFillLedger
  | [] => ([], l)
  | event :: events =>
    let (r, l) := l.apply event
    let (rs, l) := l.applyAll events
    (r :: rs, l)

section Apply

variable {l : CumulativeFillLedger} {event : CumulativeFillEvent} {observed : Int}
variable {id : String} {past events : List CumulativeFillEvent}

@[simp] theorem remember_cumulativeQty : (l.remember id).cumulativeQty = l.cumulativeQty := by
  rw [remember]; split <;> rfl

@[simp] theorem remember_requested : (l.remember id).requested = l.requested := by
  rw [remember]; split <;> rfl

@[simp] theorem remember_overfillQty : (l.remember id).overfillQty = l.overfillQty := by
  rw [remember]; split <;> rfl

theorem mem_remember {x : String} (h : x ∈ (l.remember id).seenEventIds) :
    x ∈ l.seenEventIds ∨ x = id := by
  rw [remember] at h
  split at h
  · exact .inl h
  · simpa using h

/-- Detecting the order of delivery touches the diagnostics only. -/
theorem noteSequence_spec (l : CumulativeFillLedger) (sequence : Option Number) :
    (l.noteSequence sequence).2.cumulativeQty = l.cumulativeQty ∧
      (l.noteSequence sequence).2.requested = l.requested ∧
      (l.noteSequence sequence).2.overfillQty = l.overfillQty ∧
      (l.noteSequence sequence).2.seenEventIds = l.seenEventIds := by
  rw [noteSequence]
  split
  · exact ⟨rfl, rfl, rfl, rfl⟩
  · split <;> exact ⟨rfl, rfl, rfl, rfl⟩

/-- The overfill is what the recorded total exceeds the requested quantity by. -/
def Balanced (l : CumulativeFillLedger) : Prop :=
  l.overfillQty = max 0 (l.cumulativeQty - l.requested)

theorem balanced_new (clientOrderId : String) (requestedQty : Number) :
    (new clientOrderId requestedQty).Balanced := by
  have hrequested : 0 ≤ (new clientOrderId requestedQty).requested := by
    rw [new]
    cases requestedQty.finite? with
    | none => exact le_rfl
    | some q => exact le_max_left 0 ⌊q⌋
  show 0 = max 0 (0 - (new clientOrderId requestedQty).requested)
  omega

/-- What a result says about the ledger before and after the event it answers. -/
structure Reports (before after : CumulativeFillLedger) (r : FillApplyResult) : Prop where
  delta : r.delta = after.cumulativeQty - before.cumulativeQty
  grows : before.cumulativeQty ≤ after.cumulativeQty
  applied : 0 < r.delta ↔ r.outcome = .applied ∨ r.outcome = .appliedOverfill
  requested : after.requested = before.requested
  cumulative : r.cumulative = after.cumulativeQty
  remaining : r.remaining = after.remaining
  overfill : r.overfill = after.overfillQty
  balanced : before.Balanced → after.Balanced

/-- A rejected event leaves the quantities alone and reports no delta. -/
theorem reports_rejected {after : CumulativeFillLedger} {outcome : FillApplyOutcome}
    {regression : Bool} (hcumulative : after.cumulativeQty = l.cumulativeQty)
    (hrequested : after.requested = l.requested) (hoverfill : after.overfillQty = l.overfillQty)
    (happlied : outcome ≠ .applied) (hover : outcome ≠ .appliedOverfill) :
    Reports l after (after.result outcome 0 regression) where
  delta := by rw [hcumulative, sub_self]; rfl
  grows := hcumulative.ge
  applied := by simp [result, happlied, hover]
  requested := hrequested
  cumulative := rfl
  remaining := rfl
  overfill := rfl
  balanced h := by rw [Balanced, hcumulative, hrequested, hoverfill, h]

theorem reports_advance (l : CumulativeFillLedger) (event : CumulativeFillEvent)
    (observed : Int) (regression : Bool) :
    Reports l (l.advance event observed regression).2
        (l.advance event observed regression).1 ∧
      (l.advance event observed regression).2.cumulativeQty = max l.cumulativeQty observed ∧
      (l.advance event observed regression).2.seenEventIds = l.seenEventIds := by
  by_cases hstale : observed ≤ l.cumulativeQty
  · rw [advance, if_pos hstale]
    exact ⟨reports_rejected rfl rfl rfl nofun nofun, (max_eq_left hstale).symm, rfl⟩
  · rw [advance, if_neg hstale]
    have hnew : l.cumulativeQty < observed := not_le.mp hstale
    refine ⟨⟨rfl, hnew.le, ?_, rfl, rfl, rfl, rfl, fun _ => rfl⟩,
      (max_eq_right hnew.le).symm, rfl⟩
    have hdelta : 0 < observed - l.cumulativeQty := by omega
    refine iff_of_true hdelta ?_
    dsimp only [result]
    split
    · exact .inr rfl
    · exact .inl rfl

theorem Reports.congr {before before' after : CumulativeFillLedger} {r : FillApplyResult}
    (h : Reports before after r) (hcumulative : before.cumulativeQty = before'.cumulativeQty)
    (hrequested : before.requested = before'.requested)
    (hoverfill : before.overfillQty = before'.overfillQty) : Reports before' after r where
  delta := hcumulative ▸ h.delta
  grows := hcumulative ▸ h.grows
  applied := h.applied
  requested := h.requested.trans hrequested
  cumulative := h.cumulative
  remaining := h.remaining
  overfill := h.overfill
  balanced hb := h.balanced (by rw [Balanced, hcumulative, hrequested, hoverfill, hb])

theorem apply_of_duplicate {raw : ℚ} (hqty : event.validQty = some raw)
    (hdup : event.identity ≠ "" ∧ event.identity ∈ l.seenEventIds) :
    (l.apply event).1.outcome = .duplicateEvent ∧ (l.apply event).1.delta = 0 ∧
      (l.apply event).2 = { l with duplicateCount := l.duplicateCount + 1 } := by
  rw [apply, hqty]
  dsimp only
  rw [if_pos hdup]
  exact ⟨rfl, rfl, rfl⟩

/-- An identity that was not seen before leaves the decision to the cumulative rule. -/
theorem apply_of_fresh {raw : ℚ} (hqty : event.validQty = some raw)
    (hfresh : ¬ (event.identity ≠ "" ∧ event.identity ∈ l.seenEventIds)) :
    l.apply event =
      ((l.remember event.identity).noteSequence event.sequence).2.advance event ⌊raw⌋
        ((l.remember event.identity).noteSequence event.sequence).1 := by
  rw [apply, hqty]
  dsimp only
  rw [if_neg hfresh]

/-- An advance past the requested quantity is the only thing reported as an overfill. -/
theorem advance_overfill_iff {regression : Bool} :
    (l.advance event observed regression).1.outcome = .appliedOverfill ↔
      l.cumulativeQty < observed ∧ l.requested < observed := by
  by_cases hstale : observed ≤ l.cumulativeQty
  · rw [advance, if_pos hstale]
    simp [result, hstale]
  · have hnew : l.cumulativeQty < observed := not_le.mp hstale
    rw [advance, if_neg hstale]
    dsimp only [result]
    split
    case isTrue h => exact iff_of_true rfl ⟨hnew, by omega⟩
    case isFalse h => exact iff_of_false nofun fun hover => h (by omega)

/-- For a well-formed event whose identity was not seen before. -/
theorem apply_fresh_spec {raw : ℚ} (hqty : event.validQty = some raw)
    (hfresh : ¬ (event.identity ≠ "" ∧ event.identity ∈ l.seenEventIds)) :
    Reports l (l.apply event).2 (l.apply event).1 ∧
      (l.apply event).2.cumulativeQty = max l.cumulativeQty ⌊raw⌋ ∧
      (∀ id ∈ (l.apply event).2.seenEventIds, id ∈ l.seenEventIds ∨ id = event.identity) ∧
      ((l.apply event).1.outcome = .appliedOverfill ↔
        l.cumulativeQty < ⌊raw⌋ ∧ l.requested < ⌊raw⌋) := by
  rw [apply_of_fresh hqty hfresh]
  obtain ⟨hcumulative, hrequested, hoverfill, hseen⟩ :=
    noteSequence_spec (l.remember event.identity) event.sequence
  rw [remember_cumulativeQty] at hcumulative
  rw [remember_requested] at hrequested
  rw [remember_overfillQty] at hoverfill
  obtain ⟨hreports, htotal, hids⟩ := reports_advance
    ((l.remember event.identity).noteSequence event.sequence).2 event ⌊raw⌋
    ((l.remember event.identity).noteSequence event.sequence).1
  refine ⟨hreports.congr hcumulative hrequested hoverfill, ?_, ?_, ?_⟩
  · rw [htotal, hcumulative]
  · intro id hid
    rw [hids, hseen] at hid
    exact mem_remember hid
  · rw [advance_overfill_iff, hcumulative, hrequested]

/-- Every event either is dropped as malformed or as a repeated identity, or raises the
recorded total to its own where that is higher. -/
theorem apply_spec (l : CumulativeFillLedger) (event : CumulativeFillEvent) :
    Reports l (l.apply event).2 (l.apply event).1 ∧
      (event.validQty = none ∧ (l.apply event).2 = l ∨
        ∃ raw, event.validQty = some raw ∧
          (event.identity ∈ l.seenEventIds ∧ event.identity ≠ "" ∧
              (l.apply event).2 = { l with duplicateCount := l.duplicateCount + 1 } ∨
            (l.apply event).2.cumulativeQty = max l.cumulativeQty ⌊raw⌋ ∧
              ∀ id ∈ (l.apply event).2.seenEventIds,
                id ∈ l.seenEventIds ∨ id = event.identity)) := by
  cases hqty : event.validQty with
  | none =>
      rw [apply, hqty]
      exact ⟨reports_rejected rfl rfl rfl nofun nofun, .inl ⟨rfl, rfl⟩⟩
  | some raw =>
      by_cases hdup : event.identity ≠ "" ∧ event.identity ∈ l.seenEventIds
      · refine ⟨?_, .inr ⟨raw, rfl, .inl ⟨hdup.2, hdup.1, (apply_of_duplicate hqty hdup).2.2⟩⟩⟩
        rw [apply, hqty]
        dsimp only
        rw [if_pos hdup]
        exact reports_rejected rfl rfl rfl nofun nofun
      · obtain ⟨hreports, htotal, hids, -⟩ := apply_fresh_spec hqty hdup
        exact ⟨hreports, .inr ⟨raw, rfl, .inr ⟨htotal, hids⟩⟩⟩

end Apply

end CumulativeFillLedger

/-- The totals that the well-formed events of a sequence report. -/
def totals (events : List CumulativeFillEvent) : List Int :=
  (events.filterMap CumulativeFillEvent.validQty).map (⌊·⌋)

/-- Well-formed events that share an identity report the same quantity. -/
def SameIdSameQuantity (events : List CumulativeFillEvent) : Prop :=
  ∀ e ∈ events, ∀ e' ∈ events, e.identity ≠ "" → e.identity = e'.identity →
    ∀ q ∈ e.validQty, ∀ q' ∈ e'.validQty, q = q'

instance (events : List CumulativeFillEvent) : Decidable (SameIdSameQuantity events) :=
  inferInstanceAs (Decidable (∀ e ∈ events, ∀ e' ∈ events, _ → _ → _))

section Totals

variable {events past : List CumulativeFillEvent} {event : CumulativeFillEvent} {raw : ℚ}

theorem totals_concat_none (h : event.validQty = none) :
    totals (past ++ [event]) = totals past := by
  rw [totals, List.filterMap_append, List.filterMap_cons_none h, List.filterMap_nil,
    List.append_nil, totals]

theorem totals_concat_some (h : event.validQty = some raw) :
    totals (past ++ [event]) = totals past ++ [⌊raw⌋] := by
  rw [totals, List.filterMap_append, List.filterMap_cons_some h, List.filterMap_nil,
    List.map_append, List.map_cons, List.map_nil, totals]

theorem mem_totals (h : event ∈ events) (hqty : event.validQty = some raw) :
    ⌊raw⌋ ∈ totals events :=
  List.mem_map.mpr ⟨raw, List.mem_filterMap.mpr ⟨event, h, hqty⟩, rfl⟩

end Totals

namespace CumulativeFillLedger

variable {l : CumulativeFillLedger} {past events : List CumulativeFillEvent}
variable {event : CumulativeFillEvent}

/-- The ledger after the events of `past`. -/
structure Accounts (l : CumulativeFillLedger) (past : List CumulativeFillEvent) : Prop where
  cumulative : l.cumulativeQty = highWater 0 (totals past)
  seen : ∀ id ∈ l.seenEventIds, ∃ e ∈ past, e.identity = id ∧ e.validQty.isSome

theorem accounts_new (clientOrderId : String) (requestedQty : Number) :
    (new clientOrderId requestedQty).Accounts [] where
  cumulative := rfl
  seen := nofun

/-- An event with an identity seen before reports a total the ledger has already reached,
so both rejection rules agree and dropping it loses nothing. -/
theorem Accounts.apply (h : l.Accounts past) (hids : SameIdSameQuantity (past ++ [event])) :
    (l.apply event).2.Accounts (past ++ [event]) := by
  obtain ⟨hreports, ⟨hqty, hsame⟩ | ⟨raw, hqty, ⟨hdup, hid, hsame⟩ | ⟨htotal, hseen⟩⟩⟩ :=
    apply_spec l event
  · rw [hsame]
    refine ⟨by rw [totals_concat_none hqty, h.cumulative], fun id hid => ?_⟩
    obtain ⟨e, he, hfact⟩ := h.seen id hid
    exact ⟨e, List.mem_append_left _ he, hfact⟩
  · rw [hsame]
    obtain ⟨e, he, heid, hsome⟩ := h.seen event.identity hdup
    obtain ⟨raw', hraw'⟩ := Option.isSome_iff_exists.mp hsome
    have hold : raw = raw' :=
      hids event (by simp) e (List.mem_append_left _ he) hid heid.symm raw hqty raw' hraw'
    have hreached : ⌊raw⌋ ≤ highWater 0 (totals past) := by
      rw [hold]
      exact le_highWater (mem_totals he hraw')
    refine ⟨?_, fun id hid => ?_⟩
    · show l.cumulativeQty = _
      rw [totals_concat_some hqty, highWater_concat, max_eq_left hreached, h.cumulative]
    · obtain ⟨e, he, hfact⟩ := h.seen id hid
      exact ⟨e, List.mem_append_left _ he, hfact⟩
  · refine ⟨by rw [htotal, totals_concat_some hqty, highWater_concat, h.cumulative],
      fun id hid => ?_⟩
    obtain hid | rfl := hseen id hid
    · obtain ⟨e, he, hfact⟩ := h.seen id hid
      exact ⟨e, List.mem_append_left _ he, hfact⟩
    · exact ⟨event, by simp, rfl, by rw [hqty]; rfl⟩

theorem Accounts.applyAll (h : l.Accounts past) (hids : SameIdSameQuantity (past ++ events)) :
    (l.applyAll events).2.Accounts (past ++ events) := by
  induction events generalizing l past with
  | nil => rwa [List.append_nil]
  | cons event events ih =>
      rw [List.append_cons] at hids ⊢
      have hfirst : SameIdSameQuantity (past ++ [event]) := by
        intro e he e' he'
        exact hids e (List.mem_append_left _ he) e' (List.mem_append_left _ he')
      exact ih (h.apply hfirst) hids

/-- What the results of a sequence say about the ledger before and after it. -/
theorem reports_applyAll (hbalanced : l.Balanced) (events : List CumulativeFillEvent) :
    (l.applyAll events).2.Balanced ∧
      (l.applyAll events).2.requested = l.requested ∧
      ((l.applyAll events).1.map (·.delta)).sum =
        (l.applyAll events).2.cumulativeQty - l.cumulativeQty ∧
      ∀ r ∈ (l.applyAll events).1,
        0 ≤ r.delta ∧ (0 < r.delta ↔ r.outcome = .applied ∨ r.outcome = .appliedOverfill) ∧
          r.remaining = max 0 (l.requested - r.cumulative) ∧
          r.overfill = max 0 (r.cumulative - l.requested) := by
  induction events generalizing l with
  | nil => exact ⟨hbalanced, rfl, (sub_self _).symm, nofun⟩
  | cons event events ih =>
      have hr := (apply_spec l event).1
      obtain ⟨hbal, hreq, hsum, hall⟩ := ih (hr.balanced hbalanced)
      refine ⟨hbal, hreq.trans hr.requested, ?_, ?_⟩
      · show (l.apply event).1.delta + (((l.apply event).2.applyAll events).1.map _).sum =
          ((l.apply event).2.applyAll events).2.cumulativeQty - l.cumulativeQty
        rw [hsum, hr.delta]
        omega
      · intro r hmem
        have hmem : r = (l.apply event).1 ∨ r ∈ ((l.apply event).2.applyAll events).1 :=
          List.mem_cons.mp hmem
        obtain hmem | hmem := hmem
        · rw [hmem]
          refine ⟨by rw [hr.delta]; exact sub_nonneg.mpr hr.grows, hr.applied, ?_, ?_⟩
          · rw [hr.remaining, CumulativeFillLedger.remaining, hr.requested, hr.cumulative]
          · rw [hr.overfill, hr.balanced hbalanced, hr.requested, hr.cumulative]
        · rw [← hr.requested]
          exact hall r hmem

end CumulativeFillLedger

/-- For every requested quantity and every sequence of events in which those that share an
identity agree, the ledger ends at the floor of the largest quantity reported, the deltas
add up to it, and no reordering or repetition of the events changes where it ends. -/
theorem fill_ledger_order_independent (clientOrderId : String) (requestedQty : Number)
    (events : List CumulativeFillEvent) (hids : SameIdSameQuantity events) :
    let ledger := CumulativeFillLedger.new clientOrderId requestedQty
    let (results, final) := ledger.applyAll events
    final.cumulativeQty = ⌊highWater 0 (events.filterMap CumulativeFillEvent.validQty)⌋ ∧
      (results.map (·.delta)).sum = final.cumulativeQty ∧
      (∀ r ∈ results, 0 ≤ r.delta ∧
        (0 < r.delta ↔ r.outcome = .applied ∨ r.outcome = .appliedOverfill) ∧
        r.remaining = max 0 (ledger.requested - r.cumulative) ∧
        r.overfill = max 0 (r.cumulative - ledger.requested)) ∧
      final.remaining = max 0 (ledger.requested - final.cumulativeQty) ∧
      final.overfillQty = max 0 (final.cumulativeQty - ledger.requested) ∧
      ∀ events', (∀ e, e ∈ events' ↔ e ∈ events) →
        let final' := (ledger.applyAll events').2
        final'.cumulativeQty = final.cumulativeQty ∧ final'.remaining = final.remaining ∧
          final'.overfillQty = final.overfillQty := by
  intro ledger
  have hbalanced : ledger.Balanced := CumulativeFillLedger.balanced_new clientOrderId requestedQty
  have hempty : ledger.Accounts [] := CumulativeFillLedger.accounts_new clientOrderId requestedQty
  have hends : ∀ es, SameIdSameQuantity es →
      (ledger.applyAll es).2.cumulativeQty = highWater 0 (totals es) :=
    fun es hes => (hempty.applyAll hes).cumulative
  obtain ⟨hbal, hreq, hsum, hall⟩ := CumulativeFillLedger.reports_applyAll hbalanced events
  refine ⟨?_, hsum.trans (sub_zero _), hall, ?_, ?_, ?_⟩
  · have hfloor : Monotone fun q : ℚ => ⌊q⌋ := Int.floor_mono
    rw [hends events hids, totals, map_highWater hfloor, Int.floor_zero]
  · rw [CumulativeFillLedger.remaining, hreq]
  · rw [hbal, hreq]
  · intro events' hsame
    obtain ⟨hbal', hreq', -, -⟩ := CumulativeFillLedger.reports_applyAll hbalanced events'
    have hids' : SameIdSameQuantity events' := by
      intro e he e' he'
      exact hids e ((hsame e).mp he) e' ((hsame e').mp he')
    have htotals : (ledger.applyAll events').2.cumulativeQty =
        (ledger.applyAll events).2.cumulativeQty := by
      rw [hends events hids, hends events' hids']
      apply highWater_congr
      intro x
      simp only [totals, List.mem_map, List.mem_filterMap, hsame]
    exact ⟨htotals, by rw [CumulativeFillLedger.remaining, CumulativeFillLedger.remaining, hreq,
      hreq', htotals], by rw [hbal, hbal', hreq, hreq', htotals]⟩

/-- A redelivered trade, a late lower total, a fractional one and a malformed one. -/
theorem fill_ledger_order_independent_sample :
    let events : List CumulativeFillEvent :=
      [{ cumulativeQty := .finite 50, eventId := some "t1", source := .restPoll },
       { cumulativeQty := .finite 50, eventId := some " t1 ", source := .orderUpdate },
       { cumulativeQty := .finite (40 : ℚ), source := .restPoll },
       { cumulativeQty := .finite (161 / 2), eventId := some "t2", source := .tradeBook },
       { cumulativeQty := .nan, eventId := some "t3", source := .postback }]
    let ledger := CumulativeFillLedger.new "o" (.finite 75)
    (ledger.applyAll events).2.cumulativeQty = 80 ∧ (ledger.applyAll events).2.overfillQty = 5 ∧
      (ledger.applyAll events.reverse).2.cumulativeQty = 80 := by
  intro events ledger
  have h := fill_ledger_order_independent "o" (.finite 75) events (by decide +kernel)
  refine ⟨by decide +kernel, by decide +kernel, ?_⟩
  have hreverse := (h.2.2.2.2.2 events.reverse fun e => List.mem_reverse).1
  exact hreverse.trans (by decide +kernel)

end Strikedge.Orders
