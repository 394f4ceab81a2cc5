import Mathlib.Data.List.Sort
import Strikedge.Machine.Double
import Strikedge.OrderPricing.BoundedLimit

/-!
# Walking the book

The depth walk of `orderPricing.ts` and the policy that prices a paper order. A walk visits the
levels of one book from the best price on, stops at the limit, and takes from each level what the
queue model and the reservations of other attempts leave.

A slice records the price of its level to the paisa. Where the limit is whole paise, as every
limit is that the policy computes, the recorded price is within the limit as well.
-/

namespace Strikedge.PaperLegs

open Machine Orders OrderPricing

structure BoxDepthLevel where
  price : ℚ
  qty : ℕ
  deriving DecidableEq, Repr

/-- The book of one instrument with the time it was received. -/
structure BoxQuote where
  bids : List BoxDepthLevel
  asks : List BoxDepthLevel
  version : ℕ
  receivedAt : ℚ
  deriving DecidableEq, Repr

def BoxDepthLevel.Usable (lv : BoxDepthLevel) : Prop := 0 < lv.price ∧ 0 < lv.qty

instance (lv : BoxDepthLevel) : Decidable lv.Usable := inferInstanceAs (Decidable (_ ∧ _))

/-- The side of the book an order takes from. -/
def BoxQuote.levels (quote : BoxQuote) : OrderSide → List BoxDepthLevel
  | .buy => quote.asks
  | .sell => quote.bids

/-- Whether a price is better for a side than another, or as good. -/
def AsGood (side : OrderSide) (price other : ℚ) : Prop :=
  match side with
  | .buy => price ≤ other
  | .sell => other ≤ price

instance (side : OrderSide) (price other : ℚ) : Decidable (AsGood side price other) :=
  match side with
  | .buy => inferInstanceAs (Decidable (_ ≤ _))
  | .sell => inferInstanceAs (Decidable (_ ≤ _))

/-- The best price of the levels, `touchPrice` of a book. -/
def touchOf (side : OrderSide) : Option ℚ → List BoxDepthLevel → Option ℚ
  | best, [] => best
  | best, lv :: rest =>
    if ¬lv.Usable then touchOf side best rest
    else
      match best with
      | none => touchOf side (some lv.price) rest
      | some price =>
        touchOf side (some (if AsGood side price lv.price then price else lv.price)) rest

def touchPrice (side : OrderSide) (quote : BoxQuote) : Option ℚ :=
  touchOf side none (quote.levels side)

inductive BoxQueueModel where
  | none
  | haircut
  deriving DecidableEq, Repr

inductive LegExecutionMode where
  | parallel
  | sequential
  deriving DecidableEq, Repr

inductive ExecutionPhase where
  | entry
  | unwind
  deriving DecidableEq, Repr

/-- The part of the configuration the policy reads. -/
structure BoxConfig where
  legExecutionMode : LegExecutionMode
  legTimeoutMs : ℚ
  simulatedLatencyMs : ℚ
  quoteMaxAgeMs : ℚ
  queueModel : BoxQueueModel
  queueLiquidityHaircutPct : ℚ
  legMaxChaseTicks : ℤ
  unwindMaxChaseTicks : ℤ
  defaultTickSize : ℚ

namespace BoxConfig

def timeout (cfg : BoxConfig) : ℚ := max 0 cfg.legTimeoutMs

def latencyMs (cfg : BoxConfig) : ℚ := max 0 cfg.simulatedLatencyMs

def chaseTicksFor (cfg : BoxConfig) : ExecutionPhase → ℤ
  | .entry => cfg.legMaxChaseTicks
  | .unwind => cfg.unwindMaxChaseTicks

def tickSizeFor (cfg : BoxConfig) : Option ℚ → ℚ
  | some tick => if 0 < tick then tick else cfg.defaultTickSize
  | none => cfg.defaultTickSize

def priceOrder (cfg : BoxConfig) (side : OrderSide) (referencePrice : ℚ) (tickSize : Option ℚ)
    (phase : ExecutionPhase) : LimitPricing :=
  buildOrderPricing side referencePrice (cfg.tickSizeFor tickSize) (cfg.chaseTicksFor phase)

end BoxConfig

/-- Prices are compared up to `EPS`. -/
def eps : ℚ := 1 / 1000000000

def WithinLimit (side : OrderSide) (price limit : ℚ) : Prop :=
  0 < price ∧ 0 < limit ∧
    match side with
    | .buy => price ≤ limit + eps
    | .sell => limit - eps ≤ price

instance (side : OrderSide) (price limit : ℚ) : Decidable (WithinLimit side price limit) :=
  match side with
  | .buy => inferInstanceAs (Decidable (_ ∧ _))
  | .sell => inferInstanceAs (Decidable (_ ∧ _))

/-- What of a displayed quantity is not queued ahead of us. Each operation is rounded to a double:
of 75 at eighty per cent 14 are left. -/
def effectiveQty (displayed : ℕ) (model : BoxQueueModel) (haircutPct : ℚ) : ℕ :=
  match model with
  | .none => displayed
  | .haircut => ⌊nearest (displayed * nearest (1 - nearest (min 100 (max 0 haircutPct) / 100)))⌋₊

example : effectiveQty 75 .haircut 80 = 14 := by decide +kernel

structure PaperFillSlice where
  price : ℚ
  qty : ℕ
  displayedQty : ℕ
  effectiveQty : ℕ
  takenAt : ℚ
  quoteVersion : ℕ
  deriving DecidableEq, Repr

/-- What a walk takes besides the levels and the quantity. -/
structure WalkTerms where
  side : OrderSide
  limitPrice : ℚ
  queueModel : BoxQueueModel
  haircutPct : ℚ
  takenAt : ℚ
  quoteVersion : ℕ
  /-- What other attempts have reserved of a level. -/
  reserved : ℚ → ℕ

/-- The running totals of a walk, and its result. -/
structure DepthWalk where
  remaining : ℕ
  filledQty : ℕ
  slices : List PaperFillSlice
  deriving DecidableEq, Repr

/-- What a walk can take of a level. -/
def WalkTerms.executable (terms : WalkTerms) (lv : BoxDepthLevel) : ℕ :=
  PaperLegs.effectiveQty lv.qty terms.queueModel terms.haircutPct - terms.reserved lv.price

def WalkTerms.slice (terms : WalkTerms) (lv : BoxDepthLevel) (take : ℕ) : PaperFillSlice where
  price := round2 lv.price
  qty := take
  displayedQty := lv.qty
  effectiveQty := terms.executable lv
  takenAt := terms.takenAt
  quoteVersion := terms.quoteVersion

def DepthWalk.take (walk : DepthWalk) (terms : WalkTerms) (lv : BoxDepthLevel) : DepthWalk :=
  let take := min walk.remaining (terms.executable lv)
  if take = 0 then walk
  else
    { remaining := walk.remaining - take
      filledQty := walk.filledQty + take
      slices := walk.slices ++ [terms.slice lv take] }

/-- The loop over the levels. Behind the first level past the limit there are only worse ones. -/
def walkLevels (terms : WalkTerms) : DepthWalk → List BoxDepthLevel → DepthWalk
  | walk, [] => walk
  | walk, lv :: rest =>
    if ¬WithinLimit terms.side lv.price terms.limitPrice then walk
    else walkLevels terms (walk.take terms lv) rest

/-- The usable levels from the best price on. -/
def bestFirst (side : OrderSide) (levels : List BoxDepthLevel) : List BoxDepthLevel :=
  (levels.filter fun lv => decide lv.Usable).insertionSort fun a b => AsGood side a.price b.price

def walkDepth (terms : WalkTerms) (levels : List BoxDepthLevel) (remainingQty : ℕ) : DepthWalk :=
  if remainingQty = 0 ∨ terms.limitPrice ≤ 0 then ⟨remainingQty, 0, []⟩
  else walkLevels terms ⟨remainingQty, 0, []⟩ (bestFirst terms.side levels)

/-- A slice of a level within the limit. -/
def WalkTerms.Takes (terms : WalkTerms) (slice : PaperFillSlice) : Prop :=
  slice.takenAt = terms.takenAt ∧
    ∃ price, WithinLimit terms.side price terms.limitPrice ∧ slice.price = round2 price

/-- The totals of a walk over some quantity. -/
structure DepthWalk.Adds (walk : DepthWalk) (terms : WalkTerms) (quantity : ℕ) : Prop where
  total : walk.filledQty + walk.remaining = quantity
  sum : walk.filledQty = (walk.slices.map PaperFillSlice.qty).sum
  takes : ∀ slice ∈ walk.slices, terms.Takes slice

section Walk

variable {terms : WalkTerms} {walk : DepthWalk} {quantity : ℕ} {lv : BoxDepthLevel}

theorem DepthWalk.Adds.take (h : walk.Adds terms quantity)
    (hlimit : WithinLimit terms.side lv.price terms.limitPrice) :
    (walk.take terms lv).Adds terms quantity := by
  simp only [DepthWalk.take]
  split
  · exact h
  · have hle : min walk.remaining (terms.executable lv) ≤ walk.remaining := min_le_left _ _
    have htotal := h.total
    have hsum := h.sum
    constructor
    · simp only
      omega
    · simp only [WalkTerms.slice, List.map_append, List.map_cons, List.map_nil, List.sum_append,
        List.sum_cons, List.sum_nil]
      omega
    · intro slice hslice
      rcases List.mem_append.mp hslice with hold | hnew
      · exact h.takes slice hold
      · obtain rfl := List.mem_singleton.mp hnew
        exact ⟨rfl, lv.price, hlimit, rfl⟩

theorem walkLevels_adds (levels : List BoxDepthLevel) (h : walk.Adds terms quantity) :
    (walkLevels terms walk levels).Adds terms quantity := by
  induction levels generalizing walk with
  | nil => exact h
  | cons lv rest ih =>
      rw [walkLevels]
      split
      · exact h
      · rename_i hlimit
        exact ih (h.take (not_not.mp hlimit))

/-- A walk splits the quantity it is given, and takes it within the limit. -/
theorem walkDepth_adds (terms : WalkTerms) (levels : List BoxDepthLevel) (quantity : ℕ) :
    (walkDepth terms levels quantity).Adds terms quantity := by
  have hstart : (⟨quantity, 0, []⟩ : DepthWalk).Adds terms quantity :=
    ⟨Nat.zero_add quantity, rfl, by simp⟩
  rw [walkDepth]
  split
  · exact hstart
  · exact walkLevels_adds _ hstart

end Walk

/-- A number of whole paise. -/
def WholePaise (price : ℚ) : Prop := ∃ paise : ℤ, price = paise / 100

section Paise

variable {price limit other : ℚ} {side : OrderSide}

theorem wholePaise_round2 (price : ℚ) : WholePaise (round2 price) := ⟨mathRound (price * 100), rfl⟩

theorem round2_mono (h : price ≤ other) : round2 price ≤ round2 other := by
  have hround : mathRound (price * 100) ≤ mathRound (other * 100) := by
    apply Int.floor_le_floor
    linarith
  have hcast : (mathRound (price * 100) : ℚ) ≤ mathRound (other * 100) := by exact_mod_cast hround
  rw [round2, round2]
  linarith

/-- Less than half a paisa is rounded away. -/
theorem round2_near {paise : ℤ} {noise : ℚ} (hlow : -(1 / 200) ≤ noise) (hhigh : noise < 1 / 200) :
    round2 (paise / 100 + noise) = paise / 100 := by
  have hfloor : mathRound ((paise / 100 + noise) * 100) = paise := by
    rw [mathRound, Int.floor_eq_iff]
    constructor
    · linarith
    · linarith
  rw [round2, hfloor]

/-- The recorded price of a level, against the limit up to the paisa. -/
theorem WithinLimit.recorded (h : WithinLimit side price limit) :
    match side with
    | .buy => round2 price ≤ round2 (limit + eps)
    | .sell => round2 (limit - eps) ≤ round2 price := by
  obtain ⟨-, -, hprice⟩ := h
  cases side with
  | buy => exact round2_mono hprice
  | sell => exact round2_mono hprice

/-- With a limit of whole paise nothing is lost. -/
theorem WithinLimit.asGood (h : WithinLimit side price limit) (hpaise : WholePaise limit) :
    AsGood side (round2 price) limit := by
  obtain ⟨paise, rfl⟩ := hpaise
  have hrecorded := h.recorded
  cases side with
  | buy =>
      have hround : round2 (paise / 100 + eps) = paise / 100 :=
        round2_near (by norm_num [eps]) (by norm_num [eps])
      exact hrecorded.trans hround.le
  | sell =>
      have hround : round2 (paise / 100 + -eps) = paise / 100 :=
        round2_near (by norm_num [eps]) (by norm_num [eps])
      rw [← sub_eq_add_neg] at hround
      exact hround.ge.trans hrecorded

theorem wholePaise_roundToTick (price tick : ℚ) : WholePaise (roundToTick price tick) := by
  rw [roundToTick]
  split
  · exact wholePaise_round2 _
  · exact wholePaise_round2 _

/-- The limits the policy computes. -/
theorem priceOrder_wholePaise (cfg : BoxConfig) (side : OrderSide) (referencePrice : ℚ)
    (tickSize : Option ℚ) (phase : ExecutionPhase) :
    WholePaise (cfg.priceOrder side referencePrice tickSize phase).limitPrice :=
  wholePaise_roundToTick _ _

end Paise

end Strikedge.PaperLegs
