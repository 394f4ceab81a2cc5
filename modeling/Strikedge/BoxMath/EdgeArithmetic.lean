import Strikedge.Positions.ValueConservation

/-!
# The arithmetic of an edge

`evaluateCandidate` prices the four legs of a strike pair at the touch of their books, in one
direction, and `evaluateExitDecision` measures an open box against them. The two directions
trade opposite sides of each leg, so together they pay the spreads of the books, and what an
exit captures of the entry edge is its gross P&L. Amounts are rational numbers of rupees.
-/

namespace Strikedge.BoxMath

open Machine Orders ExecutionGateway OrderPricing
open Positions (ExitDecisionArgs debitSign directionSign evaluateExitDecision
  exitNetCreditPerUnit paise)

structure BoxDepthLevel where
  price : ℚ
  qty : ℕ
  deriving DecidableEq, Repr

structure BoxQuote where
  bid : ℚ
  bidQty : ℕ
  ask : ℚ
  askQty : ℕ
  bids : List BoxDepthLevel
  asks : List BoxDepthLevel
  version : ℕ
  receivedAt : ℚ
  exchangeAt : Option ℚ
  deriving DecidableEq, Repr

inductive BookSide where
  | bid
  | ask
  deriving DecidableEq, Repr

/-- Highest bid, lowest ask. -/
def BookSide.better : BookSide → ℚ → ℚ → ℚ
  | .bid => max
  | .ask => min

/-- The loop of `bestPrice`, with the best level so far. -/
def bestOf (side : BookSide) (best : Option ℚ) : List BoxDepthLevel → Option ℚ
  | [] => best
  | lv :: rest =>
    if 0 < lv.price then
      match best with
      | none => bestOf side (some lv.price) rest
      | some price => bestOf side (some (side.better price lv.price)) rest
    else bestOf side best rest

def bestPrice (levels : List BoxDepthLevel) (side : BookSide) : Option ℚ := bestOf side none levels

def qtyAtPrice (levels : List BoxDepthLevel) (price : ℚ) : ℕ :=
  ((levels.filter fun lv => lv.price = price).map (·.qty)).sum

structure BoxTouch where
  price : Option ℚ
  qty : ℕ
  deriving DecidableEq, Repr

/-- The touch of one side, the scalar of the tick where there is no depth. -/
def touchOn (levels : List BoxDepthLevel) (side : BookSide) (scalar : ℚ) (scalarQty : ℕ) :
    BoxTouch :=
  match (bestPrice levels side).orElse fun _ => if 0 < scalar then some scalar else none with
  | none => ⟨none, 0⟩
  | some price =>
    let resting := qtyAtPrice levels price
    ⟨some price, if resting ≠ 0 then resting else if scalar = price then scalarQty else 0⟩

def touchFor (quote : BoxQuote) : OrderSide → BoxTouch
  | .buy => touchOn quote.asks .ask quote.ask quote.askQty
  | .sell => touchOn quote.bids .bid quote.bid quote.bidQty

inductive OptionType where
  | ce
  | pe
  deriving DecidableEq, Repr

structure BoxOptionInstrument where
  token : ℕ
  tradingsymbol : String
  strike : ℚ
  instrumentType : OptionType
  deriving DecidableEq, Repr

structure BoxLegEvaluation where
  role : BoxLegRole
  side : OrderSide
  inst : BoxOptionInstrument
  price : Option ℚ
  qtyAtTouch : ℕ
  bid : ℚ
  bidQty : ℕ
  ask : ℚ
  askQty : ℕ
  quoteAt : Option ℚ
  exchangeAt : Option ℚ
  quoteVersion : Option ℕ
  depth : Option (List BoxDepthLevel × List BoxDepthLevel)
  ageMs : Option ℚ
  fresh : Bool
  executable : Bool
  deriving DecidableEq, Repr

/-- The books by token, and how they are looked at. -/
structure BookView where
  quotes : ℕ → Option BoxQuote
  now : ℚ
  maxAgeMs : ℚ
  captureDepth : Bool := false

def evaluateLeg (view : BookView) (lotSize : ℕ) (role : BoxLegRole) (side : OrderSide)
    (inst : BoxOptionInstrument) : BoxLegEvaluation :=
  match view.quotes inst.token with
  | none =>
    { role, side, inst
      price := none
      qtyAtTouch := 0
      bid := 0
      bidQty := 0
      ask := 0
      askQty := 0
      quoteAt := none
      exchangeAt := none
      quoteVersion := none
      depth := none
      ageMs := none
      fresh := false
      executable := false }
  | some quote =>
    let age := view.now - quote.receivedAt
    let touch := touchFor quote side
    { role, side, inst
      price := touch.price
      qtyAtTouch := touch.qty
      bid := quote.bid
      bidQty := quote.bidQty
      ask := quote.ask
      askQty := quote.askQty
      quoteAt := some quote.receivedAt
      exchangeAt := quote.exchangeAt
      quoteVersion := some quote.version
      depth := if view.captureDepth then some (quote.bids, quote.asks) else none
      ageMs := some age
      fresh := 0 ≤ age ∧ age ≤ view.maxAgeMs
      executable := touch.price.any (0 < ·) ∧ lotSize ≤ touch.qty }

inductive BoxRejectReason where
  | noQuote
  | staleQuote
  | missingBid
  | missingAsk
  | insufficientQty
  deriving DecidableEq, Repr

def firstRejectReason (legs : List BoxLegEvaluation) (lotSize : ℕ) : Option BoxRejectReason :=
  if legs.any (·.quoteAt.isNone) then some .noQuote
  else if legs.any (!·.fresh) then some .staleQuote
  else
    match legs.find? (!·.price.any (0 < ·)) with
    | some leg => some (if leg.side = .buy then .missingAsk else .missingBid)
    | none => if legs.any (·.qtyAtTouch < lotSize) then some .insufficientQty else none

/-- A strike pair in one direction; the width is the one `buildCandidates` gives it. -/
structure BoxCandidate where
  direction : BoxDirection
  lowerStrike : ℚ
  upperStrike : ℚ
  boxWidth : ℚ
  lotSize : ℕ
  legs : BoxLegRole → BoxOptionInstrument
  width_eq : boxWidth = round2 (upperStrike - lowerStrike)

/-- The same strike pair, traded in `direction`. -/
def BoxCandidate.towards (c : BoxCandidate) (direction : BoxDirection) : BoxCandidate :=
  { c with direction := direction }

structure BoxEvaluation where
  legs : List BoxLegEvaluation
  entryNetDebitPerUnit : Option ℚ
  grossEdgePerUnit : Option ℚ
  grossEdge : Option ℚ
  tradable : Bool
  depthOk : Bool
  worstAgeMs : Option ℚ
  quoteVersion : Option ℕ
  reject : Option BoxRejectReason
  deriving DecidableEq, Repr

/-- What the loop over the legs has gathered. -/
structure LegSweep where
  havePrices : Bool := true
  netDebit : ℚ := 0
  worstAge : Option ℚ := none
  agesSeen : ℕ := 0
  version : Option ℕ := none
  depthOk : Bool := true

/-- The larger of two values, where either may be missing. -/
def largest {α : Type} [Max α] (best next : Option α) : Option α :=
  match best, next with
  | some a, some b => some (max a b)
  | none, next => next
  | best, none => best

def LegSweep.visit (lotSize : ℕ) (sweep : LegSweep) (leg : BoxLegEvaluation) : LegSweep where
  havePrices := sweep.havePrices && leg.price.isSome
  netDebit := sweep.netDebit + (leg.price.map (debitSign leg.side * ·)).getD 0
  worstAge := largest sweep.worstAge leg.ageMs
  agesSeen := if leg.ageMs.isSome then sweep.agesSeen + 1 else sweep.agesSeen
  version := largest sweep.version leg.quoteVersion
  depthOk := sweep.depthOk && (leg.price.any (0 < ·) && lotSize ≤ leg.qtyAtTouch)

def grossPerUnit (direction : BoxDirection) (boxWidth netDebit : ℚ) : ℚ :=
  round2 (directionSign direction * boxWidth - netDebit)

def grossEdge (direction : BoxDirection) (boxWidth netDebit : ℚ) (lotSize : ℕ) : ℚ :=
  round2 (grossPerUnit direction boxWidth netDebit * lotSize)

def entryLegs (c : BoxCandidate) (view : BookView) : List BoxLegEvaluation :=
  boxLegRoles.map fun role =>
    evaluateLeg view c.lotSize role (boxEntrySide c.direction role) (c.legs role)

def evaluateCandidate (c : BoxCandidate) (view : BookView) : BoxEvaluation :=
  let legs := entryLegs c view
  let sweep := legs.foldl (LegSweep.visit c.lotSize) {}
  let netDebitPerUnit := if sweep.havePrices then some (round2 sweep.netDebit) else none
  let gross := netDebitPerUnit.map fun debit => grossEdge c.direction c.boxWidth debit c.lotSize
  let reject := firstRejectReason legs c.lotSize
  { legs := legs
    entryNetDebitPerUnit := netDebitPerUnit
    grossEdgePerUnit := netDebitPerUnit.map (grossPerUnit c.direction c.boxWidth)
    grossEdge := gross
    tradable := reject.isNone && gross.isSome
    depthOk := sweep.depthOk
    worstAgeMs := if sweep.agesSeen = boxLegRoles.length then sweep.worstAge else none
    quoteVersion := sweep.version
    reject := reject }

/-- What `evaluateExitDecision` reads of a leg. -/
def BoxLegEvaluation.toExitLeg (leg : BoxLegEvaluation) : Positions.ExitLeg where
  role := leg.role
  price := leg.price
  side := leg.side
  fresh := leg.fresh
  executable := leg.executable

def evaluateExitLegs (legs : List (BoxLegRole × BoxOptionInstrument)) (view : BookView)
    (lotSize : ℕ) (direction : BoxDirection) : List BoxLegEvaluation :=
  legs.map fun leg => evaluateLeg view lotSize leg.1 (exitSideFor leg.1 direction) leg.2

section Paise

variable {side : BookSide} {levels : List BoxDepthLevel} {best : Option ℚ} {amount price : ℚ}

theorem round2_mem_paise (amount : ℚ) : round2 amount ∈ paise := by
  rw [round2, Positions.paise, AddSubgroup.mem_zmultiples_iff]
  exact ⟨mathRound (amount * 100), by rw [zsmul_eq_mul]; ring⟩

theorem better_mem_paise (hamount : amount ∈ paise) (hprice : price ∈ paise) :
    side.better amount price ∈ paise := by
  cases side with
  | bid =>
    obtain h | h := max_choice amount price
    · rwa [BookSide.better, h]
    · rwa [BookSide.better, h]
  | ask =>
    obtain h | h := min_choice amount price
    · rwa [BookSide.better, h]
    · rwa [BookSide.better, h]

theorem bestOf_mem_paise (hbest : ∀ price ∈ best, price ∈ paise)
    (hlevels : ∀ lv ∈ levels, lv.price ∈ paise) :
    ∀ price ∈ bestOf side best levels, price ∈ paise := by
  induction levels generalizing best with
  | nil => exact hbest
  | cons lv rest ih =>
    rw [List.forall_mem_cons] at hlevels
    simp only [bestOf]
    split
    · cases best with
      | none =>
        apply ih _ hlevels.2
        rintro _ ⟨⟩
        exact hlevels.1
      | some first =>
        apply ih _ hlevels.2
        rintro _ ⟨⟩
        exact better_mem_paise (hbest first rfl) hlevels.1
    · exact ih hbest hlevels.2

theorem BoxCandidate.signedWidth_mem (c : BoxCandidate) :
    directionSign c.direction * c.boxWidth ∈ paise := by
  have hround := round2_mem_paise (c.upperStrike - c.lowerStrike)
  rw [c.width_eq]
  cases c.direction with
  | longBox => simpa [directionSign] using hround
  | shortBox => simpa [directionSign] using hround

/-- Every price of the book is whole paise. -/
structure BoxQuote.InPaise (quote : BoxQuote) : Prop where
  bid : quote.bid ∈ paise
  ask : quote.ask ∈ paise
  bids : ∀ lv ∈ quote.bids, lv.price ∈ paise
  asks : ∀ lv ∈ quote.asks, lv.price ∈ paise

theorem touchOn_mem_paise {scalar : ℚ} {scalarQty : ℕ} (hscalar : scalar ∈ paise)
    (hlevels : ∀ lv ∈ levels, lv.price ∈ paise) :
    ∀ price ∈ (touchOn levels side scalar scalarQty).price, price ∈ paise := by
  intro price hprice
  rw [touchOn] at hprice
  cases hbest : bestPrice levels side with
  | some touch =>
    rw [hbest] at hprice
    obtain rfl := Option.some.inj hprice
    exact bestOf_mem_paise (by simp) hlevels touch hbest
  | none =>
    rw [hbest] at hprice
    by_cases hpos : 0 < scalar
    · simp only [Option.orElse_none, if_pos hpos, Option.mem_def, Option.some.injEq] at hprice
      exact hprice ▸ hscalar
    · simp [hpos] at hprice

theorem BoxQuote.InPaise.touch {quote : BoxQuote} (h : quote.InPaise) (side : OrderSide) :
    ∀ price ∈ (touchFor quote side).price, price ∈ paise := by
  cases side with
  | buy => exact touchOn_mem_paise h.ask h.asks
  | sell => exact touchOn_mem_paise h.bid h.bids

end Paise

section Sweep

variable {view : BookView} {c : BoxCandidate} {lotSize : ℕ} {legs : List BoxLegEvaluation}
variable {sweep : LegSweep}

/-- What a leg costs, if it has a price. -/
def BoxLegEvaluation.debit (leg : BoxLegEvaluation) : ℚ :=
  (leg.price.map (debitSign leg.side * ·)).getD 0

theorem foldl_visit_netDebit : (legs.foldl (LegSweep.visit lotSize) sweep).netDebit =
    sweep.netDebit + (legs.map (·.debit)).sum := by
  induction legs generalizing sweep with
  | nil => simp
  | cons leg legs ih =>
    rw [List.foldl_cons, ih, List.map_cons, List.sum_cons, LegSweep.visit,
      BoxLegEvaluation.debit]
    ring

theorem foldl_visit_havePrices : (legs.foldl (LegSweep.visit lotSize) sweep).havePrices =
    (sweep.havePrices && legs.all (·.price.isSome)) := by
  induction legs generalizing sweep with
  | nil => simp
  | cons leg legs ih =>
    rw [List.foldl_cons, ih, List.all_cons, LegSweep.visit, Bool.and_assoc]

/-- The touch an order on `side` of this instrument meets. -/
def touchPrice (view : BookView) (inst : BoxOptionInstrument) (side : OrderSide) : Option ℚ :=
  (view.quotes inst.token).bind fun quote => (touchFor quote side).price

@[simp] theorem evaluateLeg_price (role : BoxLegRole) (side : OrderSide)
    (inst : BoxOptionInstrument) :
    (evaluateLeg view lotSize role side inst).price = touchPrice view inst side := by
  rw [evaluateLeg, touchPrice]
  cases view.quotes inst.token <;> rfl

@[simp] theorem evaluateLeg_side (role : BoxLegRole) (side : OrderSide)
    (inst : BoxOptionInstrument) : (evaluateLeg view lotSize role side inst).side = side := by
  rw [evaluateLeg]
  cases view.quotes inst.token <;> rfl

/-- A candidate has a gross edge only where each of its legs has a touch. -/
theorem touched_of_grossEdge {edge : ℚ} (h : (evaluateCandidate c view).grossEdge = some edge)
    (role : BoxLegRole) :
    ∃ price, touchPrice view (c.legs role) (boxEntrySide c.direction role) = some price := by
  have hprices : ((entryLegs c view).foldl (LegSweep.visit c.lotSize) {}).havePrices = true := by
    by_contra hnot
    simp [evaluateCandidate, hnot] at h
  rw [foldl_visit_havePrices, Bool.true_and, List.all_eq_true] at hprices
  have hleg := hprices _ (List.mem_map_of_mem (a := role) (by cases role <;> decide))
  rw [evaluateLeg_price] at hleg
  exact Option.isSome_iff_exists.mp hleg

/-- The sides of a direction at the touch. -/
def sideDebit (direction : BoxDirection) (touch : BoxLegRole → OrderSide → ℚ) : ℚ :=
  (boxLegRoles.map fun role =>
    debitSign (boxEntrySide direction role) * touch role (boxEntrySide direction role)).sum

/-- With every touch in whole paise no rounding takes anything away. -/
theorem grossEdge_eq {touch : BoxLegRole → OrderSide → ℚ}
    (htouch : ∀ role, touchPrice view (c.legs role) (boxEntrySide c.direction role) =
      some (touch role (boxEntrySide c.direction role)))
    (hpaise : ∀ role side, touch role side ∈ paise) :
    (evaluateCandidate c view).grossEdge =
      some ((directionSign c.direction * c.boxWidth - sideDebit c.direction touch) *
        c.lotSize) := by
  have hdebits : (entryLegs c view).map (·.debit) = boxLegRoles.map fun role =>
      debitSign (boxEntrySide c.direction role) * touch role (boxEntrySide c.direction role) := by
    rw [entryLegs, List.map_map]
    apply List.map_congr_left
    intro role _
    simp [BoxLegEvaluation.debit, htouch role]
  have hprices : (entryLegs c view).all (·.price.isSome) = true := by
    rw [List.all_eq_true]
    intro leg hleg
    obtain ⟨role, -, rfl⟩ := List.mem_map.mp hleg
    rw [evaluateLeg_price, htouch role, Option.isSome_some]
  have hdebit : sideDebit c.direction touch ∈ paise := by
    apply list_sum_mem
    intro signed hsigned
    obtain ⟨role, -, rfl⟩ := List.mem_map.mp hsigned
    exact Positions.debitSign_mul_mem (hpaise role _)
  have hwidth := c.signedWidth_mem
  have hunit := sub_mem hwidth hdebit
  have hlot := Positions.mul_mem_paise hunit (Rat.den_natCast c.lotSize)
  simp only [evaluateCandidate, foldl_visit_havePrices, foldl_visit_netDebit, hprices, hdebits,
    Bool.true_and, if_true, zero_add, Option.map_some]
  rw [← sideDebit, Positions.round2_of_mem hdebit, grossEdge, grossPerUnit,
    Positions.round2_of_mem hunit, Positions.round2_of_mem hlot]

/-- The opposite sides of the two directions leave the spreads. -/
theorem sideDebit_add (touch : BoxLegRole → OrderSide → ℚ) :
    sideDebit .longBox touch + sideDebit .shortBox touch =
      (boxLegRoles.map fun role => touch role .buy - touch role .sell).sum := by
  simp only [sideDebit, boxLegRoles, boxEntrySide, debitSign, List.map_cons, List.map_nil,
    List.sum_cons, List.sum_nil]
  ring

end Sweep

section Exit

variable {args : ExitDecisionArgs} {c : BoxCandidate}

/-- The position is of the strike pair, and its entry edge is the gross edge of its entry. -/
structure OpenedFrom (args : ExitDecisionArgs) (c : BoxCandidate) : Prop where
  direction : args.direction = c.direction
  boxWidth : args.boxWidth = c.boxWidth
  lotSize : args.lotSize = c.lotSize
  entryDebit : args.entryNetDebitPerUnit ∈ paise
  entryEdge : args.entryEdge =
    grossEdge c.direction c.boxWidth args.entryNetDebitPerUnit c.lotSize

theorem OpenedFrom.withLegs (h : OpenedFrom args c) (legs : List Positions.ExitLeg) :
    OpenedFrom { args with legs := legs } c :=
  ⟨h.direction, h.boxWidth, h.lotSize, h.entryDebit, h.entryEdge⟩

theorem exitCredit_mem_paise {legs : List Positions.ExitLeg} {credit : ℚ}
    (h : exitNetCreditPerUnit legs = some credit) : credit ∈ paise := by
  have hloop : ∀ legs acc, Positions.exitNetCredit acc legs = some credit → credit ∈ paise := by
    intro legs
    induction legs with
    | nil =>
      intro acc hacc
      obtain rfl := Option.some.inj hacc
      exact round2_mem_paise acc
    | cons leg legs ih =>
      intro acc hacc
      rw [Positions.exitNetCredit] at hacc
      cases hprice : leg.price with
      | none =>
        rw [hprice] at hacc
        cases hacc
      | some price =>
        rw [hprice] at hacc
        by_cases hpos : 0 < price
        · exact ih _ (by simpa [hpos] using hacc)
        · simp [hpos] at hacc
  exact hloop legs 0 h

/-- What is captured of the entry edge is the gross P&L, to the paisa. -/
theorem OpenedFrom.capturedEdge (h : OpenedFrom args c) :
    (evaluateExitDecision args).capturedEdge = (evaluateExitDecision args).grossPnl ∧
      (evaluateExitDecision args).grossPnl = (exitNetCreditPerUnit args.legs).map fun credit =>
        (credit - args.entryNetDebitPerUnit) * args.lotSize := by
  have hwidth := c.signedWidth_mem
  have hlot (amount : ℚ) (hamount : amount ∈ paise) : amount * args.lotSize ∈ paise :=
    Positions.mul_mem_paise hamount (Rat.den_natCast args.lotSize)
  have hunit := sub_mem hwidth h.entryDebit
  have hedge : args.entryEdge =
      (directionSign c.direction * c.boxWidth - args.entryNetDebitPerUnit) * args.lotSize := by
    rw [h.entryEdge, ← h.lotSize, grossEdge, grossPerUnit, Positions.round2_of_mem hunit,
      Positions.round2_of_mem (hlot _ hunit)]
  cases hcredit : exitNetCreditPerUnit args.legs with
  | none => simp [evaluateExitDecision, hcredit]
  | some credit =>
    have hpaise := exitCredit_mem_paise hcredit
    have hgross := hlot _ (sub_mem hpaise h.entryDebit)
    have hremaining := hlot _ (sub_mem hwidth hpaise)
    have hcaptured : (directionSign c.direction * c.boxWidth - args.entryNetDebitPerUnit) *
        args.lotSize - (directionSign c.direction * c.boxWidth - credit) * args.lotSize =
        (credit - args.entryNetDebitPerUnit) * args.lotSize := by
      ring
    simp only [evaluateExitDecision, hcredit, Option.map_some, Option.some.injEq, h.direction,
      h.boxWidth, hedge]
    rw [Positions.round2_of_mem hremaining, hcaptured, Positions.round2_of_mem hgross]
    exact ⟨rfl, rfl⟩

end Exit

/-- The legs of a position at the books of its exit. -/
def exitLegsAt (legs : List (BoxLegRole × BoxOptionInstrument)) (view : BookView)
    (args : ExitDecisionArgs) : List Positions.ExitLeg :=
  (evaluateExitLegs legs view args.lotSize args.direction).map (·.toExitLeg)

/-- The eight touches of a strike pair: of each leg the ask, where it is bought, and the bid. -/
def Touches (c : BoxCandidate) (view : BookView) (touch : BoxLegRole → OrderSide → ℚ) : Prop :=
  ∀ role side, touchPrice view (c.legs role) side = some (touch role side)

section Directions

variable {view : BookView} {c : BoxCandidate} {touch : BoxLegRole → OrderSide → ℚ}

theorem Touches.mem_paise (htouch : Touches c view touch)
    (hbooks : ∀ token, ∀ quote ∈ view.quotes token, quote.InPaise) (role : BoxLegRole)
    (side : OrderSide) : touch role side ∈ paise := by
  obtain ⟨quote, hquote, hprice⟩ := Option.bind_eq_some_iff.mp (htouch role side)
  exact (hbooks _ quote hquote).touch side _ hprice

/-- Each direction has an edge where all eight touches are there. -/
theorem Touches.grossEdge (htouch : Touches c view touch)
    (hbooks : ∀ token, ∀ quote ∈ view.quotes token, quote.InPaise) (direction : BoxDirection) :
    (evaluateCandidate (c.towards direction) view).grossEdge =
      some ((directionSign direction * c.boxWidth - sideDebit direction touch) * c.lotSize) :=
  grossEdge_eq (c := c.towards direction) (fun role => htouch role _) (htouch.mem_paise hbooks)

/-- The two directions look at both sides of each book. -/
theorem exists_touches
    (h : ∀ direction, (evaluateCandidate (c.towards direction) view).grossEdge.isSome = true) :
    ∃ touch, Touches c view touch := by
  have htouched (direction : BoxDirection) (role : BoxLegRole) :
      ∃ price, touchPrice view (c.legs role) (boxEntrySide direction role) = some price := by
    obtain ⟨edge, hedge⟩ := Option.isSome_iff_exists.mp (h direction)
    exact touched_of_grossEdge hedge role
  refine ⟨fun role side => (touchPrice view (c.legs role) side).getD 0, fun role side => ?_⟩
  obtain ⟨price, hprice⟩ : ∃ price, touchPrice view (c.legs role) side = some price := by
    have hlong := htouched .longBox role
    have hshort := htouched .shortBox role
    cases role <;> cases side <;> assumption
  simp [hprice]

end Directions

namespace Sample

def ofPaise (n : ℤ) : ℚ := n / 100

theorem ofPaise_mem (n : ℤ) : ofPaise n ∈ paise :=
  AddSubgroup.mem_zmultiples_iff.mpr ⟨n, by rw [zsmul_eq_mul, ofPaise]; ring⟩

def quote (bid ask : ℤ) : BoxQuote where
  bid := ofPaise bid
  bidQty := 75
  ask := ofPaise ask
  askQty := 75
  bids := [⟨ofPaise bid, 75⟩]
  asks := [⟨ofPaise ask, 75⟩]
  version := 1
  receivedAt := 0
  exchangeAt := none

def inst (role : BoxLegRole) : BoxOptionInstrument where
  token :=
    match role with
    | .k1Ce => 1
    | .k2Ce => 2
    | .k2Pe => 3
    | .k1Pe => 4
  tradingsymbol := "NIFTY-" ++ role.text
  strike := 0
  instrumentType := .ce

def candidate : BoxCandidate where
  direction := .longBox
  lowerStrike := 100
  upperStrike := 150
  boxWidth := round2 (150 - 100)
  lotSize := 75
  legs := inst
  width_eq := rfl

def view : BookView where
  quotes := fun token =>
    match token with
    | 1 => some (quote 6000 6050)
    | 2 => some (quote 3000 3025)
    | 3 => some (quote 4000 4010)
    | 4 => some (quote 2100 2200)
    | _ => none
  now := 0
  maxAgeMs := 1000

/-- The touches of the four books. -/
def touch : BoxLegRole → OrderSide → ℚ
  | .k1Ce, .buy => ofPaise 6050
  | .k1Ce, .sell => ofPaise 6000
  | .k2Ce, .buy => ofPaise 3025
  | .k2Ce, .sell => ofPaise 3000
  | .k2Pe, .buy => ofPaise 4010
  | .k2Pe, .sell => ofPaise 4000
  | .k1Pe, .buy => ofPaise 2200
  | .k1Pe, .sell => ofPaise 2100

def exitArgs : ExitDecisionArgs where
  direction := .longBox
  boxWidth := round2 (150 - 100)
  lotSize := 75
  entryNetDebitPerUnit := ofPaise 4960
  entryEdge := 30
  entryNetEdge := 10
  entryChargesTotal := none
  currentExitChargesTotal := none
  legs := []
  cfg := ⟨0, 0, 0, 0, 0⟩

theorem quote_inPaise (bid ask : ℤ) : (quote bid ask).InPaise where
  bid := ofPaise_mem bid
  ask := ofPaise_mem ask
  bids := by
    simp only [quote, List.mem_singleton, forall_eq]
    exact ofPaise_mem bid
  asks := by
    simp only [quote, List.mem_singleton, forall_eq]
    exact ofPaise_mem ask

theorem view_inPaise : ∀ token, ∀ book ∈ view.quotes token, book.InPaise := by
  intro token book hbook
  simp only [view, Option.mem_def] at hbook
  split at hbook <;> cases hbook <;> exact quote_inPaise _ _

end Sample

end Strikedge.BoxMath
