import Strikedge.Machine.Run
import Strikedge.Orders.BoundedCache
import Strikedge.Orders.FillLedger
import Strikedge.Orders.Types

/-!
# The overfill tripwire

Every snapshot the manager persists also goes through a ledger of its own, kept in a cache
bounded by age and count, whose only purpose is to trip the breaker when the broker reports
more filled than was requested. A snapshot is identified there by the id of its last fill,
and by its quantity in the journal; the module says when the two agree.
-/

namespace Strikedge.Orders

open Machine

/-- One call of `persistOrder`, as the tripwire sees it. -/
structure Observation where
  now : Int
  order : BrokerOrder
  averagePrice : Option Number := none
  updatedAt : Number := .finite 0
  deriving DecidableEq, Repr

/-- The tripwire, with the snapshots it was handed and the orders it tripped for. -/
structure Tripwire where
  overfillTripwireLedgers : BoundedTtlCache CumulativeFillLedger :=
    .new (60 * 60000) 512
  clock : Int := 0
  observed : List BrokerOrder := []
  tripped : List ClientOrderId := []

namespace Tripwire

/-- What the tripwire hands its ledger. -/
def fillEvent (o : Observation) : CumulativeFillEvent where
  cumulativeQty := .finite o.order.filledQuantity
  averagePrice := o.averagePrice
  eventId := o.order.lastFillId
  observedAtWall := some o.updatedAt
  source := .restPoll

/-- The text of a trip. -/
def overfillText (order : BrokerOrder) (r : FillApplyResult) (ledger : CumulativeFillLedger) :
    String :=
  s!"broker reported {r.cumulative} filled for {order.clientOrderId}, exceeding the {ledger.requested} requested"

/-- The ledger of an order, opened with the snapshot's quantity where none is fresh. -/
def ledgerFor (s : Tripwire) (o : Observation) :
    CumulativeFillLedger × BoundedTtlCache CumulativeFillLedger :=
  let found := s.overfillTripwireLedgers.get o.now o.order.clientOrderId
  match found.1 with
  | some ledger => (ledger, found.2)
  | none =>
    let ledger := .new o.order.clientOrderId (.finite o.order.quantity)
    (ledger, found.2.set o.now o.order.clientOrderId ledger)

/-- Route a snapshot through the order's ledger. The trip it raises is the text, if any. -/
def checkOverfillTripwire (s : Tripwire) (o : Observation) : Option String × Tripwire :=
  let (ledger, cache) := s.ledgerFor o
  let (r, ledger') := ledger.apply (fillEvent o)
  let overfill := r.outcome = .appliedOverfill
  (if overfill then some (overfillText o.order r ledger') else none,
    { s with
      overfillTripwireLedgers := cache.mutate o.order.clientOrderId ledger'
      clock := o.now
      observed := s.observed ++ [o.order]
      tripped := if overfill then s.tripped ++ [o.order.clientOrderId] else s.tripped })

def overfillTripwireCumulative (s : Tripwire) (now : Int) (clientOrderId : ClientOrderId) :
    Option Int :=
  (s.overfillTripwireLedgers.get now clientOrderId).1.map (·.cumulativeQty)

/-- The manager observes snapshots, one after another. -/
def step (s : Tripwire) (o : Observation) : Option Tripwire := some (s.checkOverfillTripwire o).2

/-- The highest cumulative quantity observed for an order. -/
def highest (s : Tripwire) (clientOrderId : ClientOrderId) : Int :=
  highWater 0 ((s.observed.filter (·.clientOrderId = clientOrderId)).map
    fun order => (order.filledQuantity : Int))

/-- The tripwire reports the highest quantity of the order it has just observed, no ledger
it holds reports another, and it has tripped for exactly the orders filled beyond what
was requested. -/
structure Agrees (requested : ClientOrderId → Nat) (s : Tripwire) : Prop where
  reported : ∀ order ∈ s.observed.getLast?,
    s.overfillTripwireCumulative s.clock order.clientOrderId = some (s.highest order.clientOrderId)
  held : ∀ id ledger, s.overfillTripwireLedgers.held id = some ledger →
    ledger.cumulativeQty = s.highest id
  tripped : ∀ id, id ∈ s.tripped ↔ (requested id : Int) < s.highest id

/-- What an observation must meet, given the ledgers that stand when it arrives. A fresh
ledger that has seen the id of the last fill must not be told a new total, a ledger that is
gone must not come back with a lower one, and the quantity a ledger was opened with must
not disagree with the requested one about the total. -/
def Faithful (requested : ClientOrderId → Nat) (s : Tripwire) (o : Observation) : Prop :=
  let id := o.order.clientOrderId
  let filled : Int := o.order.filledQuantity
  match (s.overfillTripwireLedgers.get o.now id).1 with
  | some ledger =>
    ((fillEvent o).identity ∈ ledger.seenEventIds → (fillEvent o).identity ≠ "" →
        filled ≤ s.highest id) ∧
      (s.highest id < filled → s.highest id ≤ requested id →
        (ledger.requested < filled ↔ (requested id : Int) < filled))
  | none =>
    s.highest id ≤ filled ∧
      (s.highest id ≤ requested id →
        ((o.order.quantity : Int) < filled ↔ (requested id : Int) < filled))

variable {s : Tripwire} {o : Observation} {requested : ClientOrderId → Nat}

/-- The bookkeeping is bounded by an age that is positive. -/
def Bounded (s : Tripwire) : Prop := 0 < s.overfillTripwireLedgers.ttlMs

theorem bounded_step (h : s.Bounded) : (s.checkOverfillTripwire o).2.Bounded := by
  show 0 < ((s.ledgerFor o).2.mutate _ _).ttlMs
  rw [BoundedTtlCache.mutate_ttlMs, ledgerFor]
  dsimp only
  split
  · rw [BoundedTtlCache.get_ttlMs]
    exact h
  · rw [BoundedTtlCache.set_ttlMs, BoundedTtlCache.get_ttlMs]
    exact h

theorem validQty_fillEvent : (fillEvent o).validQty = some (o.order.filledQuantity : ℚ) := by
  rw [CumulativeFillEvent.validQty, fillEvent, Number.finite?_finite]
  exact Option.filter_eq_some_iff.mpr ⟨rfl, decide_eq_true (Nat.cast_nonneg _)⟩

/-- The ledger a snapshot goes through is fresh in the cache it is about to change. -/
theorem get_ledgerFor (h : s.Bounded) :
    ((s.ledgerFor o).2.get o.now o.order.clientOrderId).1 = some (s.ledgerFor o).1 := by
  rw [ledgerFor]
  dsimp only
  split
  case h_1 ledger hfound => rw [BoundedTtlCache.get_of_fresh hfound, hfound]
  case h_2 =>
    apply BoundedTtlCache.get_set
    rw [BoundedTtlCache.get_ttlMs]
    exact h

theorem held_ledgerFor {id : String} {ledger : CumulativeFillLedger}
    (hid : id ≠ o.order.clientOrderId) (h : (s.ledgerFor o).2.held id = some ledger) :
    s.overfillTripwireLedgers.held id = some ledger := by
  rw [ledgerFor] at h
  dsimp only at h
  split at h
  · exact BoundedTtlCache.held_get h
  · have hset := BoundedTtlCache.held_set h
    rw [if_neg hid] at hset
    exact BoundedTtlCache.held_get hset

/-- Observing a snapshot raises the order's mark to the snapshot's total. -/
theorem highest_check (id : ClientOrderId) :
    (s.checkOverfillTripwire o).2.highest id =
      if id = o.order.clientOrderId then max (s.highest id) o.order.filledQuantity
      else s.highest id := by
  show highWater 0 (((s.observed ++ [o.order]).filter (·.clientOrderId = id)).map _) = _
  rw [List.filter_append, List.map_append]
  by_cases hid : id = o.order.clientOrderId
  · rw [if_pos hid, List.filter_cons_of_pos (by simp [hid]), List.filter_nil, List.map_cons,
      List.map_nil, highWater_concat]
    rfl
  · rw [if_neg hid, List.filter_cons_of_neg (by simpa using Ne.symm hid), List.filter_nil,
      List.map_nil, List.append_nil]
    rfl

theorem highest_nonneg (id : ClientOrderId) : 0 ≤ s.highest id := base_le_highWater

/-- One observation keeps the agreement precisely when the ledger it goes through ends at
the new mark and the trip it may raise is due. -/
theorem agrees_check_iff (hbounded : s.Bounded) (h : s.Agrees requested) :
    (s.checkOverfillTripwire o).2.Agrees requested ↔
      let r := (s.ledgerFor o).1.apply (fillEvent o)
      let mark := max (s.highest o.order.clientOrderId) o.order.filledQuantity
      r.2.cumulativeQty = mark ∧
        ((requested o.order.clientOrderId : Int) < s.highest o.order.clientOrderId ∨
            r.1.outcome = .appliedOverfill ↔
          (requested o.order.clientOrderId : Int) < mark) := by
  set r := (s.ledgerFor o).1.apply (fillEvent o) with hr
  set id := o.order.clientOrderId with hid
  have hcache : (s.checkOverfillTripwire o).2.overfillTripwireLedgers =
      (s.ledgerFor o).2.mutate id r.2 := rfl
  have hmark := highest_check (s := s) (o := o) id
  rw [if_pos rfl] at hmark
  have hreported : (s.checkOverfillTripwire o).2.overfillTripwireCumulative o.now id =
      some r.2.cumulativeQty := by
    rw [overfillTripwireCumulative, hcache,
      BoundedTtlCache.get_mutate (get_ledgerFor hbounded)]
    rfl
  have htripped : ∀ x, x ∈ (s.checkOverfillTripwire o).2.tripped ↔
      x ∈ s.tripped ∨ x = id ∧ r.1.outcome = .appliedOverfill := by
    intro x
    show x ∈ (if r.1.outcome = .appliedOverfill then s.tripped ++ [id] else s.tripped) ↔ _
    split
    case isTrue hover => simp [hover]
    case isFalse hover => simp [hover]
  constructor
  · intro ht
    refine ⟨?_, ?_⟩
    · have hlast := ht.reported o.order (by
        show o.order ∈ (s.observed ++ [o.order]).getLast?
        rw [List.getLast?_concat]
        rfl)
      have hsame := hreported.symm.trans hlast
      rw [← hid, hmark] at hsame
      exact Option.some.inj hsame
    · rw [← h.tripped id, ← hmark, ← ht.tripped id, htripped id]
      simp
  · rintro ⟨hcumulative, htrip⟩
    refine ⟨?_, ?_, ?_⟩
    · intro order horder
      have hlast : order = o.order := by
        have : (s.observed ++ [o.order]).getLast? = some order := horder
        rw [List.getLast?_concat] at this
        exact (Option.some.inj this).symm
      subst hlast
      show (s.checkOverfillTripwire o).2.overfillTripwireCumulative o.now id = _
      rw [hreported, hmark, hcumulative]
    · intro x ledger hheld
      rw [hcache] at hheld
      have hledger := BoundedTtlCache.held_mutate hheld
      rw [highest_check]
      by_cases hx : x = id
      · rw [if_pos hx] at hledger
        rw [if_pos hx, hledger, hcumulative, hx]
      · rw [if_neg hx] at hledger
        rw [if_neg hx]
        exact h.held x ledger (held_ledgerFor hx hledger)
    · intro x
      rw [htripped x, h.tripped x, highest_check]
      by_cases hx : x = id
      · rw [if_pos hx, hx, ← htrip]
        simp
      · rw [if_neg hx]
        simp [hx]

theorem new_cumulativeQty (clientOrderId : String) (requestedQty : Number) :
    (CumulativeFillLedger.new clientOrderId requestedQty).cumulativeQty = 0 := rfl

theorem new_requested (clientOrderId : String) (quantity : Nat) :
    (CumulativeFillLedger.new clientOrderId (.finite quantity)).requested = quantity := by
  show max 0 ⌊(quantity : ℚ)⌋ = quantity
  rw [Int.floor_natCast]
  omega

theorem floor_filled (quantity : Nat) : ⌊(quantity : ℚ)⌋ = quantity := Int.floor_natCast quantity

theorem faithful_iff (h : s.Agrees requested) :
    Faithful requested s o ↔
      let r := (s.ledgerFor o).1.apply (fillEvent o)
      let mark := max (s.highest o.order.clientOrderId) o.order.filledQuantity
      r.2.cumulativeQty = mark ∧
        ((requested o.order.clientOrderId : Int) < s.highest o.order.clientOrderId ∨
            r.1.outcome = .appliedOverfill ↔
          (requested o.order.clientOrderId : Int) < mark) := by
  have hnonneg := highest_nonneg (s := s) o.order.clientOrderId
  rw [Faithful, ledgerFor]
  dsimp only
  split
  case h_1 ledger hfound =>
    have hheld := h.held _ ledger (BoundedTtlCache.held_of_get hfound)
    by_cases hdup : (fillEvent o).identity ≠ "" ∧ (fillEvent o).identity ∈ ledger.seenEventIds
    · -- a repeated id: the ledger stays where it is, and nothing is tripped
      obtain ⟨houtcome, -, hsame⟩ :=
        CumulativeFillLedger.apply_of_duplicate validQty_fillEvent hdup
      have hcumulative : (ledger.apply (fillEvent o)).2.cumulativeQty =
          s.highest o.order.clientOrderId := by rw [hsame, ← hheld]
      rw [hcumulative, houtcome]
      simp only [hdup.1, hdup.2, ne_eq, not_false_eq_true, forall_const, reduceCtorEq, or_false]
      omega
    · obtain ⟨-, htotal, -, hover⟩ :=
        CumulativeFillLedger.apply_fresh_spec validQty_fillEvent hdup
      rw [htotal, hover, floor_filled, hheld]
      have hpass : ((fillEvent o).identity ∈ ledger.seenEventIds →
          (fillEvent o).identity ≠ "" →
            (o.order.filledQuantity : Int) ≤ s.highest o.order.clientOrderId) ↔ True :=
        iff_true_intro fun hseen hid => absurd ⟨hid, hseen⟩ hdup
      rw [hpass, true_and, eq_self_iff_true, true_and]
      omega
  case h_2 =>
    have hdup : ¬ ((fillEvent o).identity ≠ "" ∧ (fillEvent o).identity ∈
        (CumulativeFillLedger.new o.order.clientOrderId
          (.finite o.order.quantity)).seenEventIds) := by
      rintro ⟨-, hseen⟩
      cases hseen
    obtain ⟨-, htotal, -, hover⟩ :=
      CumulativeFillLedger.apply_fresh_spec validQty_fillEvent hdup
    rw [htotal, hover, floor_filled, new_cumulativeQty, new_requested]
    omega

theorem agrees_new (requested : ClientOrderId → Nat) : Agrees requested {} where
  reported order h := by cases h
  held id ledger h := by
    have hnone : (BoundedTtlCache.new (60 * 60000) 512 :
        BoundedTtlCache CumulativeFillLedger).held id = none := rfl
    exact absurd (hnone.symm.trans h) nofun
  tripped id := by
    have hzero : highest {} id = 0 := rfl
    rw [hzero]
    exact iff_of_false List.not_mem_nil (by omega)

/-- The tripwire agrees with the journal throughout a run precisely when every snapshot
the manager observes is one its ledger reads the way the journal does. -/
theorem overfill_tripwire_agrees_iff (requested : ClientOrderId → Nat)
    (observations : List Observation) :
    Throughout step (Agrees requested) {} observations ↔
      Heeds step (Faithful requested) {} observations := by
  apply throughout_iff_heeds (I := Bounded) (L := fun _ => True)
  · intro s o t _ hbounded _ _ hstep
    obtain rfl := Option.some.inj hstep
    exact bounded_step hbounded
  · intro s o t _ hbounded hagrees hstep
    obtain rfl := Option.some.inj hstep
    exact (agrees_check_iff hbounded hagrees).trans (faithful_iff hagrees).symm
  · show (0 : Int) < 60 * 60000
    omega
  · exact agrees_new requested
  · exact fun _ _ => trivial

/-- A snapshot of an order for 75 whose only fill is the trade `T1`. -/
def amendedOrder (filledQuantity : Nat) : BrokerOrder where
  clientOrderId := "BOX:T:ENTRY:k1_ce:A"
  brokerOrderId := some "B1"
  tag := none
  exchange := "NFO"
  tradingsymbol := "NIFTY24500CE"
  token := 1001
  side := .buy
  quantity := 75
  state := .open
  filledQuantity := filledQuantity
  lastFillId := some "T1"
  rejectReason := none

/-- The broker first reports 50 filled and then 80, more than requested, under one trade id. -/
def amendedRun : List Observation :=
  [{ now := 1000, order := amendedOrder 50 }, { now := 2000, order := amendedOrder 80 }]

/-- The second total is dropped: the tripwire stays at 50 and never trips. -/
theorem amended_trade_hidden :
    ¬ ∀ (requested : ClientOrderId → Nat) (observations : List Observation),
      Throughout step (Agrees requested) {} observations := by
  intro h
  obtain ⟨s, hrun, htripped, hmark⟩ : ∃ s, run step {} amendedRun = some s ∧
      s.tripped = [] ∧ s.highest "BOX:T:ENTRY:k1_ce:A" = 80 :=
    ⟨_, rfl, by decide +kernel, by decide +kernel⟩
  have hagrees := (h (fun _ => 75) amendedRun).last hrun
  have hdue := (hagrees.tripped "BOX:T:ENTRY:k1_ce:A").mpr (by rw [hmark]; decide)
  rw [htripped] at hdue
  cases hdue

end Tripwire

end Strikedge.Orders
