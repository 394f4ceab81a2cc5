import Mathlib.Algebra.Order.Field.Power
import Mathlib.Algebra.Order.Floor.Ring
import Mathlib.Data.Int.Log
import Mathlib.Data.Rat.Floor
import Mathlib.Tactic.FieldSimp
import Mathlib.Tactic.Linarith
import Mathlib.Tactic.NormNum
import Mathlib.Tactic.Positivity
import Strikedge.Machine.Number

/-!
# Double precision

Rounding a rational number to the nearest double, ties to the even significand. The result keeps
the order of the numbers, whole numbers of up to 53 bits are their own, and between two powers of
two the doubles are a fixed step apart. An operation rounds the exact result.
-/

namespace Strikedge.Machine

def roundHalfEven (x : ℚ) : ℤ :=
  let below := ⌊x⌋
  if x - below < 1 / 2 then below
  else if 1 / 2 < x - below then below + 1
  else if below % 2 = 0 then below
  else below + 1

section HalfEven

variable {x y : ℚ}

@[simp] theorem roundHalfEven_intCast (n : ℤ) : roundHalfEven n = n := by
  simp [roundHalfEven]

theorem floor_le_roundHalfEven (x : ℚ) : ⌊x⌋ ≤ roundHalfEven x := by
  rw [roundHalfEven]
  grind

theorem roundHalfEven_le_floor_add_one (x : ℚ) : roundHalfEven x ≤ ⌊x⌋ + 1 := by
  rw [roundHalfEven]
  grind

/-- Between the same two whole numbers the larger one does not go down where the smaller goes
up; otherwise a whole number lies between them. -/
theorem roundHalfEven_mono (h : x ≤ y) : roundHalfEven x ≤ roundHalfEven y := by
  obtain heq | hlt := (Int.floor_le_floor h).eq_or_lt
  · rw [roundHalfEven, roundHalfEven, heq]
    grind
  · have hx := roundHalfEven_le_floor_add_one x
    have hy := floor_le_roundHalfEven y
    omega

end HalfEven

/-- The exponent of a positive number, which is bounded for the smallest ones. -/
def exponent (q : ℚ) : ℤ := max (Int.log 2 q) (-1022)

/-- How far the doubles around a positive number are apart. -/
def ulp (q : ℚ) : ℚ := 2 ^ (exponent q - 52)

/-- The double nearest to a positive number, of unbounded size. -/
def nearest (q : ℚ) : ℚ := roundHalfEven (q / ulp q) * ulp q

section Nearest

variable {q r : ℚ} {e : ℤ} {n : ℕ}

theorem ulp_pos (q : ℚ) : 0 < ulp q := zpow_pos (by norm_num) _

theorem lt_two_zpow_exponent_add_one (q : ℚ) : q < 2 ^ (exponent q + 1) := by
  have hlog : q < 2 ^ (Int.log 2 q + 1) := by
    exact_mod_cast Int.lt_zpow_succ_log_self (b := 2) (by norm_num) q
  refine hlog.trans_le (zpow_le_zpow_right₀ (by norm_num) ?_)
  have hle := le_max_left (Int.log 2 q) (-1022)
  rw [← exponent] at hle
  omega

theorem exponent_mono (hq : 0 < q) (h : q ≤ r) : exponent q ≤ exponent r :=
  max_le_max_right _ (Int.log_mono_right hq h)

/-- Above the smallest exponent the exponent is the logarithm. -/
theorem two_zpow_exponent_le (hq : 0 < q) (h : -1022 < exponent q) : 2 ^ exponent q ≤ q := by
  have heq : exponent q = Int.log 2 q := by
    rw [exponent] at h ⊢
    exact max_eq_left ((lt_max_iff.mp h).resolve_right (lt_irrefl _)).le
  rw [heq]
  exact_mod_cast Int.zpow_log_le_self (b := 2) (by norm_num) hq

theorem exponent_eq (he : -1022 ≤ e) (hlow : 2 ^ e ≤ q) (hhigh : q < 2 ^ (e + 1)) :
    exponent q = e := by
  have hq : 0 < q := (zpow_pos (by norm_num) e).trans_le hlow
  have hle : e ≤ Int.log 2 q := by
    rw [← Int.zpow_le_iff_le_log (by norm_num) hq]
    exact_mod_cast hlow
  have hlt : Int.log 2 q < e + 1 := by
    rw [← Int.lt_zpow_iff_log_lt (by norm_num) hq]
    exact_mod_cast hhigh
  rw [exponent]
  omega

/-- A multiple of the step is a double. -/
theorem nearest_eq_self (m : ℤ) (h : q = m * ulp q) : nearest q = q := by
  have hdiv : q / ulp q = m := by
    rw [div_eq_iff (ulp_pos q).ne']
    exact h
  rw [nearest, hdiv, roundHalfEven_intCast, ← h]

theorem nearest_eq_self_iff : nearest q = q ↔ ∃ m : ℤ, q = m * ulp q :=
  ⟨fun h => ⟨_, h.symm⟩, fun ⟨m, h⟩ => nearest_eq_self m h⟩

/-- A power of two is a multiple of every smaller one. -/
theorem two_zpow_add (e : ℤ) (k : ℕ) : (2 : ℚ) ^ (e + k) = ((2 ^ k : ℤ) : ℚ) * 2 ^ e := by
  rw [zpow_add₀ (by norm_num), zpow_natCast, mul_comm]
  push_cast
  rfl

/-- The power of two above a number is a multiple of its step. -/
theorem nearest_le_two_zpow (q : ℚ) : nearest q ≤ 2 ^ (exponent q + 1) := by
  have hpow := two_zpow_add (exponent q - 52) 53
  rw [show exponent q - 52 + (53 : ℕ) = exponent q + 1 by push_cast; ring, ← ulp] at hpow
  have hdiv : q / ulp q ≤ ((2 ^ 53 : ℤ) : ℚ) := by
    rw [div_le_iff₀ (ulp_pos q), ← hpow]
    exact (lt_two_zpow_exponent_add_one q).le
  have hround := roundHalfEven_mono hdiv
  rw [roundHalfEven_intCast] at hround
  rw [nearest, hpow]
  exact mul_le_mul_of_nonneg_right (by exact_mod_cast hround) (ulp_pos q).le

theorem two_zpow_le_nearest (h : 2 ^ exponent q ≤ q) : 2 ^ exponent q ≤ nearest q := by
  have hpow := two_zpow_add (exponent q - 52) 52
  rw [show exponent q - 52 + (52 : ℕ) = exponent q by push_cast; ring, ← ulp] at hpow
  have hdiv : ((2 ^ 52 : ℤ) : ℚ) ≤ q / ulp q := by
    rw [le_div_iff₀ (ulp_pos q), ← hpow]
    exact h
  have hround := roundHalfEven_mono hdiv
  rw [roundHalfEven_intCast] at hround
  rw [nearest, hpow]
  exact mul_le_mul_of_nonneg_right (by exact_mod_cast hround) (ulp_pos q).le

/-- Rounding keeps the order: in one binade by the rounding of whole numbers, and otherwise
across the power of two between the two. -/
theorem nearest_mono (hq : 0 < q) (h : q ≤ r) : nearest q ≤ nearest r := by
  obtain heq | hlt := (exponent_mono hq h).eq_or_lt
  · have hulp : ulp q = ulp r := by rw [ulp, ulp, heq]
    have hround : roundHalfEven (q / ulp q) ≤ roundHalfEven (r / ulp q) :=
      roundHalfEven_mono (div_le_div_of_nonneg_right h (ulp_pos q).le)
    rw [nearest, nearest, ← hulp]
    exact mul_le_mul_of_nonneg_right (by exact_mod_cast hround) (ulp_pos q).le
  · have hlow : -1022 < exponent r := (le_max_right (Int.log 2 q) (-1022)).trans_lt hlt
    have hr := two_zpow_le_nearest (two_zpow_exponent_le (hq.trans_le h) hlow)
    refine (nearest_le_two_zpow q).trans (le_trans ?_ hr)
    exact zpow_le_zpow_right₀ (by norm_num) (by omega)

theorem nearest_nonneg (hq : 0 ≤ q) : 0 ≤ nearest q := by
  have hfloor : 0 ≤ ⌊q / ulp q⌋ := Int.floor_nonneg.mpr (div_nonneg hq (ulp_pos q).le)
  have hround := hfloor.trans (floor_le_roundHalfEven (q / ulp q))
  exact mul_nonneg (by exact_mod_cast hround) (ulp_pos q).le

theorem nearest_zero : nearest 0 = 0 := by simp [nearest, roundHalfEven]

/-- A whole number of up to 53 bits is a double. -/
theorem nearest_natCast (h : n < 2 ^ 53) : nearest n = n := by
  obtain rfl | hpos := Nat.eq_zero_or_pos n
  · rw [Nat.cast_zero, nearest_zero]
  · have hn : (0 : ℚ) < n := by exact_mod_cast hpos
    have hexp : exponent n ≤ 52 := by
      have hlog : Int.log 2 (n : ℚ) < 53 := by
        rw [← Int.lt_zpow_iff_log_lt (by norm_num) hn]
        exact_mod_cast h
      rw [exponent]
      omega
    obtain ⟨k, hk⟩ := Int.eq_ofNat_of_zero_le (show 0 ≤ 52 - exponent (n : ℚ) by omega)
    refine nearest_eq_self (n * 2 ^ k) ?_
    rw [ulp, show exponent (n : ℚ) - 52 = -(k : ℤ) by omega, zpow_neg, zpow_natCast]
    push_cast
    field_simp

end Nearest

section Below

variable {bound d s : ℚ} {m e : ℤ}

/-- The number is a multiple of the step of the binade it ends or is in. -/
structure Stepped (bound : ℚ) (e m : ℤ) : Prop where
  exponent : -1022 ≤ e
  multiple : bound = m * 2 ^ (e - 52)
  low : 2 ^ e < bound
  high : bound ≤ 2 ^ (e + 1)

namespace Stepped

theorem two_pow_lt (h : Stepped bound e m) : 2 ^ 52 < m := by
  have hpow := two_zpow_add (e - 52) 52
  rw [show e - 52 + (52 : ℕ) = e by push_cast; ring] at hpow
  have hlow := h.low
  rw [hpow, h.multiple] at hlow
  have hlt := lt_of_mul_lt_mul_right hlow (zpow_pos (by norm_num) _).le
  exact_mod_cast hlt

/-- A step below it is still in the binade. -/
theorem le_sub (h : Stepped bound e m) : 2 ^ e ≤ bound - 2 ^ (e - 52) := by
  have hpow := two_zpow_add (e - 52) 52
  rw [show e - 52 + (52 : ℕ) = e by push_cast; ring] at hpow
  have hle : ((2 ^ 52 : ℤ) : ℚ) ≤ ((m - 1 : ℤ) : ℚ) := by
    have hlt := h.two_pow_lt
    exact_mod_cast (by omega : (2 : ℤ) ^ 52 ≤ m - 1)
  have hmul := mul_le_mul_of_nonneg_right hle (zpow_pos (by norm_num : (0 : ℚ) < 2) (e - 52)).le
  rw [← hpow] at hmul
  rw [h.multiple]
  refine hmul.trans (le_of_eq ?_)
  push_cast
  ring

theorem nearest_sub (h : Stepped bound e m) :
    nearest (bound - 2 ^ (e - 52)) = bound - 2 ^ (e - 52) := by
  have hstep : (0 : ℚ) < 2 ^ (e - 52) := zpow_pos (by norm_num) _
  have hexp : Machine.exponent (bound - 2 ^ (e - 52)) = e :=
    exponent_eq h.exponent h.le_sub (by linarith [h.high])
  refine nearest_eq_self (m - 1) ?_
  rw [ulp, hexp, h.multiple]
  push_cast
  ring

theorem le_sub_of_lt (h : Stepped bound e m) (hd : nearest d = d) (hlt : d < bound) :
    d ≤ bound - 2 ^ (e - 52) := by
  obtain hlow | hhigh := lt_or_ge d (2 ^ e)
  · exact hlow.le.trans h.le_sub
  · have hexp : Machine.exponent d = e := exponent_eq h.exponent hhigh (hlt.trans_le h.high)
    obtain ⟨n, hn⟩ := nearest_eq_self_iff.mp hd
    rw [ulp, hexp] at hn
    have hstep : (0 : ℚ) < 2 ^ (e - 52) := zpow_pos (by norm_num) _
    rw [hn, h.multiple] at hlt
    have hless : n < m := by exact_mod_cast lt_of_mul_lt_mul_right hlt hstep.le
    have hle : (n : ℚ) ≤ ((m - 1 : ℤ) : ℚ) := by exact_mod_cast (by omega : n ≤ m - 1)
    rw [hn, h.multiple]
    refine (mul_le_mul_of_nonneg_right hle hstep.le).trans (le_of_eq ?_)
    push_cast
    ring

end Stepped

/-- A whole number is a multiple of every step below one. -/
theorem stepped_natCast {n : ℕ} (he : -1022 ≤ e) (hle : e ≤ 52) (hlow : 2 ^ e < (n : ℚ))
    (hhigh : (n : ℚ) ≤ 2 ^ (e + 1)) : ∃ m, Stepped (n : ℚ) e m := by
  obtain ⟨k, hk⟩ := Int.eq_ofNat_of_zero_le (show 0 ≤ 52 - e by omega)
  refine ⟨n * 2 ^ k, he, ?_, hlow, hhigh⟩
  rw [show e - 52 = -(k : ℤ) by omega, zpow_neg, zpow_natCast]
  push_cast
  field_simp

/-- A double below a multiple of the scale, divided by the scale, is not rounded up to the whole
number, when the scale is at most the power of two between the steps. -/
theorem nearest_div_lt {n : ℕ} {scale : ℕ} {k : ℕ} (hscale : 0 < scale) (hpow : scale ≤ 2 ^ k)
    {m' : ℤ} (hquotient : Stepped (n : ℚ) e m) (hproduct : Stepped ((n * scale : ℕ) : ℚ) (e + k) m')
    (hd : nearest d = d) (hpos : 0 < d) (hlt : d < (n * scale : ℕ)) :
    nearest (d / scale) < n := by
  have hs : (0 : ℚ) < scale := by exact_mod_cast hscale
  have hstep : (0 : ℚ) < 2 ^ (e - 52) := zpow_pos (by norm_num) _
  have hle := hproduct.le_sub_of_lt hd hlt
  have hscaled : (2 : ℚ) ^ (e - 52) * scale ≤ 2 ^ (e + k - 52) := by
    have hk : (scale : ℚ) ≤ 2 ^ (k : ℤ) := by
      rw [zpow_natCast]
      exact_mod_cast hpow
    refine (mul_le_mul_of_nonneg_left hk hstep.le).trans (le_of_eq ?_)
    rw [← zpow_add₀ (by norm_num)]
    congr 1
    ring
  have hdiv : d / scale ≤ n - 2 ^ (e - 52) := by
    rw [div_le_iff₀ hs]
    push_cast at hle
    linarith
  refine (nearest_mono (div_pos hpos hs) hdiv).trans_lt ?_
  rw [hquotient.nearest_sub]
  linarith

end Below

/-- The double nearest to any number, of unbounded size. -/
def rounded (q : ℚ) : ℚ := if q < 0 then -nearest (-q) else nearest q

theorem rounded_of_nonneg {q : ℚ} (h : 0 ≤ q) : rounded q = nearest q := if_neg (not_lt.mpr h)

/-- A part of a whole number of up to 53 bits is rounded to no more than it. -/
theorem nearest_natCast_mul_le {n : ℕ} {fraction : ℚ} (hn : n < 2 ^ 53) (hlow : 0 ≤ fraction)
    (hhigh : fraction ≤ 1) : nearest (n * fraction) ≤ n := by
  have hpart : (n : ℚ) * fraction ≤ n := mul_le_of_le_one_right (Nat.cast_nonneg n) hhigh
  obtain hzero | hpos := (mul_nonneg (Nat.cast_nonneg n) hlow).eq_or_lt
  · rw [← hzero, nearest_zero]
    exact Nat.cast_nonneg n
  · exact (nearest_mono hpos hpart).trans (nearest_natCast hn).le

/-- The double a rational number is rounded to. -/
def toDouble (q : ℚ) : Number :=
  if 2 ^ 1024 ≤ nearest |q| then
    if q < 0 then .negativeInfinity else .infinity
  else if q < 0 then .finite (-nearest |q|) else .finite (nearest |q|)

theorem lt_overflow {q : ℚ} (h : q ≤ 2 ^ 64) : q < 2 ^ 1024 :=
  h.trans_lt (pow_lt_pow_right₀ (by norm_num) (by norm_num))

/-- A positive number below the largest double is rounded to its nearest one. -/
theorem toDouble_of_lt {q : ℚ} (hq : 0 ≤ q) (h : nearest q < 2 ^ 1024) :
    toDouble q = .finite (nearest q) := by
  rw [toDouble, abs_of_nonneg hq, if_neg (not_le.mpr h), if_neg (not_lt.mpr hq)]

theorem nearest_of_toDouble {q d : ℚ} (hq : 0 ≤ q) (h : toDouble q = .finite d) :
    nearest q = d := by
  rw [toDouble, abs_of_nonneg hq, if_neg (not_lt.mpr hq), if_neg (not_lt.mpr hq)] at h
  split at h
  · cases h
  · exact Number.finite.inj h

/-- The double an operation comes to that keeps the values that are not finite. -/
def Number.through (op : ℚ → ℚ) : Number → Number
  | finite value => toDouble (op value)
  | other => other

end Strikedge.Machine
