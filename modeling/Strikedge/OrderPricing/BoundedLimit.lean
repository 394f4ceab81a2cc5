import Mathlib.Algebra.Order.Floor.Ring
import Mathlib.Algebra.Order.Round
import Mathlib.Data.Rat.Floor
import Mathlib.Tactic.FieldSimp
import Mathlib.Tactic.Linarith
import Mathlib.Tactic.Positivity
import Mathlib.Tactic.Ring
import Strikedge.Machine.Number
import Strikedge.Orders.Types

/-!
# Bounded limits

The pricing of `orderPricing.ts` and the assertion of `brokerAdapter.ts` that every order has to
pass before it is sent. The gateway prices a request as a limit so many ticks past the touch.
The assertion checks the envelope and the band again, from the numbers in the request.

On a tick grid of whole paise nothing is lost by rounding, and the two agree on the band. A
sell whose band reaches to zero has a limit that the assertion refuses.
-/

namespace Strikedge.OrderPricing

open Machine Orders

def roundToTick (price tick : ℚ) : ℚ :=
  if 0 < tick then round2 (mathRound (price / tick) * tick) else round2 price

def computeLimitPrice (side : OrderSide) (referencePrice tickSize : ℚ) (maxChaseTicks : ℤ) : ℚ :=
  let chase := max 0 maxChaseTicks * (if 0 < tickSize then tickSize else 0)
  let raw :=
    match side with
    | .buy => referencePrice + chase
    | .sell => referencePrice - chase
  roundToTick raw tickSize

/-- The fields of `PaperOrderPricing` that a request takes over. -/
structure LimitPricing where
  referencePrice : ℚ
  tickSize : ℚ
  maxChaseTicks : ℤ
  limitPrice : ℚ
  deriving DecidableEq, Repr

def buildOrderPricing (side : OrderSide) (referencePrice tickSize : ℚ) (maxChaseTicks : ℤ) :
    LimitPricing :=
  let tick := if 0 < tickSize then tickSize else 5 / 100
  { referencePrice := round2 referencePrice
    tickSize := tick
    maxChaseTicks := max 0 maxChaseTicks
    limitPrice := computeLimitPrice side referencePrice tick maxChaseTicks }

/-- What an order is priced and checked by. -/
structure PricedRequest where
  side : OrderSide
  quantity : ℤ
  phase : BoxOrderPhase
  pricing : LimitPricing
  deriving DecidableEq, Repr

/-- The chase limits are clamped to whole counts when the configuration is read. -/
structure PricingConfig where
  liveMaxChaseTicks : ℕ
  legMaxChaseTicks : ℕ
  unwindMaxChaseTicks : ℕ
  defaultTickSize : ℚ

/-- The chase of a phase, within the limit of the live adapter. -/
def PricingConfig.maxChaseTicks (cfg : PricingConfig) (phase : BoxOrderPhase) : ℕ :=
  min cfg.liveMaxChaseTicks <|
    match phase with
    | .unwind => cfg.unwindMaxChaseTicks
    | .entry | .exit => cfg.legMaxChaseTicks

/-- The tick size an instrument is priced with. -/
def PricingConfig.tickSize (cfg : PricingConfig) (instrument : Option ℚ) : ℚ :=
  instrument.getD cfg.defaultTickSize

/-- `request` of the gateway -/
def request (cfg : PricingConfig) (side : OrderSide) (quantity : ℤ) (instrumentTick : Option ℚ)
    (referencePrice : ℚ) (phase : BoxOrderPhase) : PricedRequest where
  side := side
  quantity := quantity
  phase := phase
  pricing := buildOrderPricing side referencePrice (cfg.tickSize instrumentTick)
    (cfg.maxChaseTicks phase)

/-- The four errors of `assertBoundedLimit`. -/
inductive LimitError where
  | invalidQuantity
  | invalidEnvelope
  | unaligned
  | outsideBand
  deriving DecidableEq, Repr

/-- The upper bound the broker has for a price. -/
def maxLimitPrice : ℚ := 10000000

/-- The envelope is well formed. -/
def LimitPricing.WellFormed (p : LimitPricing) (configuredMaxChaseTicks : Option ℤ) : Prop :=
  0 < p.referencePrice ∧ 0 < p.tickSize ∧ 0 ≤ p.maxChaseTicks ∧
    (∀ configured ∈ configuredMaxChaseTicks, p.maxChaseTicks ≤ configured) ∧
    0 < p.limitPrice ∧ p.limitPrice ≤ maxLimitPrice

instance (p : LimitPricing) (configured : Option ℤ) : Decidable (p.WellFormed configured) :=
  inferInstanceAs (Decidable (_ ∧ _))

def LimitPricing.tolerance (p : LimitPricing) : ℚ := max (1 / 100000000) (p.tickSize / 10000)

/-- The limit is a multiple of the tick, up to the noise of a division. -/
def LimitPricing.Aligned (p : LimitPricing) : Prop :=
  let ticks := p.limitPrice / p.tickSize
  |ticks - mathRound ticks| ≤ 1 / 10000000

instance (p : LimitPricing) : Decidable p.Aligned := inferInstanceAs (Decidable (_ ≤ _))

def LimitPricing.CorrectlyDirected (p : LimitPricing) (side : OrderSide) : Prop :=
  let band := p.tickSize * p.maxChaseTicks
  match side with
  | .buy => p.referencePrice - p.tolerance ≤ p.limitPrice ∧
      p.limitPrice ≤ p.referencePrice + band + p.tolerance
  | .sell => p.limitPrice ≤ p.referencePrice + p.tolerance ∧
      p.referencePrice - band - p.tolerance ≤ p.limitPrice

instance (p : LimitPricing) (side : OrderSide) : Decidable (p.CorrectlyDirected side) :=
  match side with
  | .buy => inferInstanceAs (Decidable (_ ∧ _))
  | .sell => inferInstanceAs (Decidable (_ ∧ _))

def assertBoundedLimit (req : PricedRequest) (configuredMaxChaseTicks : Option ℤ) :
    Except LimitError Unit :=
  if req.quantity ≤ 0 then .error .invalidQuantity
  else if ¬ req.pricing.WellFormed configuredMaxChaseTicks then .error .invalidEnvelope
  else if ¬ req.pricing.Aligned then .error .unaligned
  else if ¬ req.pricing.CorrectlyDirected req.side then .error .outsideBand
  else .ok ()

theorem assertBoundedLimit_ok_iff {req : PricedRequest} {configured : Option ℤ} :
    assertBoundedLimit req configured = .ok () ↔
      0 < req.quantity ∧ req.pricing.WellFormed configured ∧ req.pricing.Aligned ∧
        req.pricing.CorrectlyDirected req.side := by
  rw [assertBoundedLimit]
  constructor
  · intro h
    split at h
    · cases h
    · rename_i hquantity
      split at h
      · cases h
      · rename_i hformed
        split at h
        · cases h
        · rename_i haligned
          split at h
          · cases h
          · rename_i hdirected
            exact ⟨not_le.mp hquantity, not_not.mp hformed, not_not.mp haligned,
              not_not.mp hdirected⟩
  · rintro ⟨hquantity, hformed, haligned, hdirected⟩
    rw [if_neg (not_le.mpr hquantity), if_neg (not_not.mpr hformed),
      if_neg (not_not.mpr haligned), if_neg (not_not.mpr hdirected)]

theorem mathRound_intCast (n : ℤ) : mathRound n = n := by
  rw [mathRound, Int.floor_intCast_add]
  norm_num

/-- The tick sizes of whole paise. -/
def PaiseTick (tick : ℚ) : Prop := ∃ paise : ℕ, 0 < paise ∧ tick = paise / 100

/-- A price on the grid of a tick. -/
def OnGrid (tick price : ℚ) : Prop := ∃ ticks : ℤ, price = ticks * tick

section Grid

variable {tick price referencePrice : ℚ} {side : OrderSide} {ticks chase : ℤ}

theorem PaiseTick.pos (h : PaiseTick tick) : 0 < tick := by
  obtain ⟨paise, hpaise, rfl⟩ := h
  positivity

/-- Whole paise survive the rounding to paise. -/
theorem round2_ticks (h : PaiseTick tick) (ticks : ℤ) : round2 (ticks * tick) = ticks * tick := by
  obtain ⟨paise, -, rfl⟩ := h
  have hwhole : (ticks : ℚ) * (paise / 100) * 100 = ((ticks * paise : ℤ) : ℚ) := by
    push_cast
    ring
  rw [round2, hwhole, mathRound_intCast]
  push_cast
  ring

/-- A price on the grid survives the rounding to the grid. -/
theorem roundToTick_ticks (h : PaiseTick tick) (ticks : ℤ) :
    roundToTick (ticks * tick) tick = ticks * tick := by
  have hne : tick ≠ 0 := h.pos.ne'
  rw [roundToTick, if_pos h.pos, mul_div_cancel_right₀ _ hne, mathRound_intCast,
    round2_ticks h]

/-- The ticks of the limit, counted from zero. -/
def limitTicks (side : OrderSide) (ticks chase : ℤ) : ℤ :=
  match side with
  | .buy => ticks + max 0 chase
  | .sell => ticks - max 0 chase

theorem computeLimitPrice_ticks (h : PaiseTick tick) (side : OrderSide) (ticks chase : ℤ) :
    computeLimitPrice side (ticks * tick) tick chase = limitTicks side ticks chase * tick := by
  simp only [computeLimitPrice, if_pos h.pos]
  rw [← roundToTick_ticks h (limitTicks side ticks chase)]
  cases side with
  | buy =>
      congr 1
      simp only [limitTicks]
      push_cast
      ring
  | sell =>
      congr 1
      simp only [limitTicks]
      push_cast
      ring

theorem buildOrderPricing_ticks (h : PaiseTick tick) (side : OrderSide) (ticks chase : ℤ) :
    buildOrderPricing side (ticks * tick) tick chase =
      { referencePrice := ticks * tick
        tickSize := tick
        maxChaseTicks := max 0 chase
        limitPrice := limitTicks side ticks chase * tick } := by
  rw [buildOrderPricing, if_pos h.pos, round2_ticks h, computeLimitPrice_ticks h]

theorem aligned_of_pricing (h : PaiseTick tick) (side : OrderSide) (ticks chase : ℤ) :
    (buildOrderPricing side (ticks * tick) tick chase).Aligned := by
  rw [buildOrderPricing_ticks h, LimitPricing.Aligned, mul_div_cancel_right₀ _ h.pos.ne',
    mathRound_intCast, sub_self, abs_zero]
  norm_num

theorem tolerance_pos (p : LimitPricing) : 0 < p.tolerance :=
  lt_max_of_lt_left (by norm_num)

/-- The limit that was priced is within the band that is checked. -/
theorem correctlyDirected_of_pricing (h : PaiseTick tick) (side : OrderSide) (ticks chase : ℤ) :
    (buildOrderPricing side (ticks * tick) tick chase).CorrectlyDirected side := by
  rw [buildOrderPricing_ticks h]
  have htolerance := tolerance_pos
    { referencePrice := ticks * tick, tickSize := tick, maxChaseTicks := max 0 chase,
      limitPrice := limitTicks side ticks chase * tick }
  have hband : (0 : ℚ) ≤ (max 0 chase : ℤ) * tick :=
    mul_nonneg (by exact_mod_cast le_max_left 0 chase) h.pos.le
  cases side with
  | buy =>
      simp only [LimitPricing.CorrectlyDirected, limitTicks, Int.cast_add, add_mul] at htolerance ⊢
      constructor
      · linarith
      · linarith
  | sell =>
      simp only [LimitPricing.CorrectlyDirected, limitTicks, Int.cast_sub, sub_mul] at htolerance ⊢
      constructor
      · linarith
      · linarith

/-- A price of some ticks is positive if there are any. -/
theorem ticks_pos_iff (h : PaiseTick tick) : 0 < (ticks : ℚ) * tick ↔ 0 < ticks := by
  rw [mul_pos_iff_of_pos_right h.pos]
  exact Int.cast_pos

/-- Within the bound of the broker the envelope can only lack a positive limit. -/
theorem wellFormed_of_pricing_iff {configured : ℤ} (h : PaiseTick tick) (hticks : 0 < ticks)
    (hchase : max 0 chase ≤ configured)
    (hbound : (buildOrderPricing side (ticks * tick) tick chase).limitPrice ≤ maxLimitPrice) :
    (buildOrderPricing side (ticks * tick) tick chase).WellFormed (some configured) ↔
      0 < limitTicks side ticks chase := by
  rw [buildOrderPricing_ticks h] at hbound ⊢
  constructor
  · rintro ⟨-, -, -, -, hlimit, -⟩
    exact (ticks_pos_iff h).mp hlimit
  · intro hlimit
    refine ⟨(ticks_pos_iff h).mpr hticks, h.pos, le_max_left 0 chase, ?_,
      (ticks_pos_iff h).mpr hlimit, hbound⟩
    intro other hother
    obtain rfl := Option.some.inj hother
    exact hchase

/-- Only a sell has to have more ticks than its chase. -/
theorem limitTicks_pos_iff (h : PaiseTick tick) (hticks : 0 < ticks) (chase : ℕ) :
    0 < limitTicks side ticks chase ↔ (side = .sell → (chase : ℚ) * tick < ticks * tick) := by
  rw [mul_lt_mul_iff_left₀ h.pos]
  have hcast : (chase : ℚ) < ticks ↔ (chase : ℤ) < ticks := by
    rw [← Int.cast_natCast chase, Int.cast_lt]
  rw [hcast]
  cases side with
  | buy =>
      simp only [limitTicks]
      constructor
      · intro _ hsell
        cases hsell
      · intro _
        omega
  | sell =>
      simp only [limitTicks]
      constructor
      · intro hpos _
        omega
      · intro hless
        have hlt := hless trivial
        omega

end Grid

/-- An order the gateway prices on the grid passes the assertion exactly where its quantity is
positive, and a sell has more ticks than its chase takes. -/
theorem assertion_passes_iff (cfg : PricingConfig) (side : OrderSide) (quantity : ℤ)
    (instrumentTick : Option ℚ) (referencePrice : ℚ) (phase : BoxOrderPhase)
    (htick : PaiseTick (cfg.tickSize instrumentTick)) (hpositive : 0 < referencePrice)
    (hgrid : OnGrid (cfg.tickSize instrumentTick) referencePrice)
    (hbound : (request cfg side quantity instrumentTick referencePrice phase).pricing.limitPrice ≤
      maxLimitPrice) :
    assertBoundedLimit (request cfg side quantity instrumentTick referencePrice phase)
        (some cfg.liveMaxChaseTicks) = .ok () ↔
      0 < quantity ∧ (side = .sell →
        cfg.maxChaseTicks phase * cfg.tickSize instrumentTick < referencePrice) := by
  obtain ⟨ticks, rfl⟩ := hgrid
  have hticks : 0 < ticks := (ticks_pos_iff htick).mp hpositive
  have hlive : max 0 (cfg.maxChaseTicks phase : ℤ) ≤ cfg.liveMaxChaseTicks :=
    max_le (Int.natCast_nonneg _) (Int.ofNat_le.mpr (min_le_left _ _))
  rw [assertBoundedLimit_ok_iff, ← limitTicks_pos_iff htick hticks,
    ← wellFormed_of_pricing_iff htick hticks hlive hbound]
  constructor
  · rintro ⟨hquantity, hformed, -, -⟩
    exact ⟨hquantity, hformed⟩
  · rintro ⟨hquantity, hformed⟩
    exact ⟨hquantity, hformed, aligned_of_pricing htick side ticks _,
      correctlyDirected_of_pricing htick side ticks _⟩

namespace NearZero

def cfg : PricingConfig := ⟨2, 2, 5, 5 / 100⟩

theorem paiseTick : PaiseTick (cfg.tickSize none) := ⟨5, by decide, rfl⟩

end NearZero

open NearZero

/-- The same order with one tick more can be sent. -/
theorem assertion_passes_iff_sample :
    assertBoundedLimit (request cfg .sell 75 none (15 / 100) .unwind) (some 2) = .ok () := by
  refine (assertion_passes_iff cfg .sell 75 none (15 / 100) .unwind paiseTick (by norm_num)
    ⟨3, by decide +kernel⟩ (by decide +kernel)).mpr ⟨by decide, fun _ => ?_⟩
  decide +kernel

/-- Two ticks above zero the unwind of an option cannot be priced. -/
theorem unwind_near_zero_refused :
    ¬∀ side referencePrice phase, 0 < referencePrice →
      OnGrid (cfg.tickSize none) referencePrice →
      (request cfg side 75 none referencePrice phase).pricing.limitPrice ≤ maxLimitPrice →
      assertBoundedLimit (request cfg side 75 none referencePrice phase)
        (some cfg.liveMaxChaseTicks) = .ok () := by
  intro h
  have hpasses := h .sell (10 / 100) .unwind (by norm_num) ⟨2, by decide +kernel⟩
    (by decide +kernel)
  revert hpasses
  decide +kernel

end Strikedge.OrderPricing
