import Strikedge.DhanFeed.Feed
import Strikedge.Machine.Double

/-!
# Internal tokens

`dhanInternalToken` folds a segment and a security id into one number, a thousand million apart
for each segment, and `dhanIdentityFromToken` takes it apart again. Both compute in doubles, so a
token gives its identity back when the id is below the radix and the token is not rounded.
-/

namespace Strikedge.DhanInstruments

open Machine
open DhanFeed (DhanExchangeSegment dhanCodeBySegment dhanCodeBySegment_inj)

/-- The entries of `DHAN_CODE_BY_SEGMENT`, in their order. -/
def segments : List DhanExchangeSegment :=
  [.idxI, .nseEq, .nseFno, .nseCurrency, .bseEq, .mcxComm, .bseCurrency, .bseFno]

/-- `1_000_000_000` -/
def radix : ℕ := 1000000000

/-- The sum of the segment's high part and the id, before it is rounded. -/
def exactToken (segment : DhanExchangeSegment) (securityId : ℚ) : ℚ :=
  (dhanCodeBySegment segment * radix : ℕ) + securityId

def dhanInternalToken (segment : DhanExchangeSegment) (securityId : ℚ) : Number :=
  toDouble (exactToken segment securityId)

/-- The operator `%`, which is exact. -/
def remainder (a b : ℚ) : ℚ := a - b * (if a / b < 0 then ⌈a / b⌉ else ⌊a / b⌋)

def dhanIdentityFromToken : Number → Option (DhanExchangeSegment × ℚ)
  | .finite token =>
    match toDouble (token / radix) with
    | .finite quotient =>
      let segmentCode := ⌊quotient⌋
      let securityId := remainder token radix
      match segments.find? fun segment => (dhanCodeBySegment segment : ℤ) == segmentCode with
      | some segment => if securityId ≤ 0 then none else some (segment, securityId)
      | none => none
    | _ => none
  | _ => none

section Identity

variable {segment : DhanExchangeSegment} {id token : ℚ}

theorem radix_pos : (0 : ℚ) < radix := by norm_num [radix]

theorem find_segment (segment : DhanExchangeSegment) :
    segments.find? (fun other => (dhanCodeBySegment other : ℤ) == dhanCodeBySegment segment) =
      some segment := by
  cases segment <;> rfl

theorem remainder_of_nonneg (h : 0 ≤ token) :
    remainder token radix = token - radix * ⌊token / radix⌋ := by
  rw [remainder, if_neg (not_lt.mpr (div_nonneg h radix_pos.le))]

theorem remainder_lt (h : 0 ≤ token) : remainder token radix < radix := by
  have hlt := Int.lt_floor_add_one (token / radix)
  rw [div_lt_iff₀ radix_pos] at hlt
  rw [remainder_of_nonneg h]
  linarith

theorem remainder_add {n : ℕ} (hpos : 0 ≤ id) (hlt : id < radix) :
    remainder ((n * radix : ℕ) + id) radix = id := by
  have hsum : (0 : ℚ) ≤ (n * radix : ℕ) + id := add_nonneg (Nat.cast_nonneg _) hpos
  have hfloor : ⌊(((n * radix : ℕ) : ℚ) + id) / radix⌋ = n := by
    rw [Int.floor_eq_iff, le_div_iff₀ radix_pos, div_lt_iff₀ radix_pos]
    push_cast
    constructor <;> linarith
  rw [remainder_of_nonneg hsum, hfloor]
  push_cast
  ring

/-- The exponent of the quotients just below the end of a segment. -/
def lastExponent : DhanExchangeSegment → ℤ
  | .idxI => -1
  | .nseEq => 0
  | .nseFno => 1
  | .nseCurrency => 1
  | .bseEq => 2
  | .mcxComm => 2
  | .bseCurrency => 2
  | .bseFno => 3

theorem lastExponent_mem (segment : DhanExchangeSegment) :
    -1 ≤ lastExponent segment ∧ lastExponent segment ≤ 3 := by
  cases segment <;> decide

theorem lastExponent_quotient (segment : DhanExchangeSegment) :
    2 ^ lastExponent segment < ((dhanCodeBySegment segment + 1 : ℕ) : ℚ) ∧
      ((dhanCodeBySegment segment + 1 : ℕ) : ℚ) ≤ 2 ^ (lastExponent segment + 1) := by
  cases segment <;> norm_num [lastExponent, dhanCodeBySegment]

theorem lastExponent_token (segment : DhanExchangeSegment) :
    2 ^ (lastExponent segment + (30 : ℕ)) <
        (((dhanCodeBySegment segment + 1) * radix : ℕ) : ℚ) ∧
      (((dhanCodeBySegment segment + 1) * radix : ℕ) : ℚ) ≤
        2 ^ (lastExponent segment + (30 : ℕ) + 1) := by
  cases segment <;> norm_num [lastExponent, dhanCodeBySegment, radix]

/-- Below the end of a segment a token's quotient is not rounded up to it. -/
theorem nearest_quotient_lt (hd : nearest token = token) (hpos : 0 < token)
    (hlt : token < ((dhanCodeBySegment segment + 1) * radix : ℕ)) :
    nearest (token / radix) < (dhanCodeBySegment segment + 1 : ℕ) := by
  obtain ⟨hleast, hmost⟩ := lastExponent_mem segment
  obtain ⟨hlow, hhigh⟩ := lastExponent_quotient segment
  obtain ⟨hlow', hhigh'⟩ := lastExponent_token segment
  obtain ⟨m, hquotient⟩ := stepped_natCast (by omega) (by omega) hlow hhigh
  obtain ⟨m', hproduct⟩ := stepped_natCast (by push_cast; omega) (by push_cast; omega) hlow' hhigh'
  exact nearest_div_lt (by decide) (by decide) hquotient hproduct hd hpos hlt

theorem dhanCodeBySegment_lt (segment : DhanExchangeSegment) : dhanCodeBySegment segment < 9 := by
  cases segment <;> decide

theorem nearest_code (segment : DhanExchangeSegment) :
    nearest (dhanCodeBySegment segment : ℕ) = (dhanCodeBySegment segment : ℕ) := by
  have hlt := dhanCodeBySegment_lt segment
  exact nearest_natCast (by omega)

/-- A whole quotient is kept below by rounding. -/
theorem code_le_nearest (hpos : 0 < token)
    (hle : ((dhanCodeBySegment segment * radix : ℕ) : ℚ) ≤ token) :
    ((dhanCodeBySegment segment : ℕ) : ℚ) ≤ nearest (token / radix) := by
  obtain hzero | hcode := Nat.eq_zero_or_pos (dhanCodeBySegment segment)
  · rw [hzero]
    exact_mod_cast nearest_nonneg (div_nonneg hpos.le radix_pos.le)
  · have hdiv : ((dhanCodeBySegment segment : ℕ) : ℚ) ≤ token / radix := by
      rw [le_div_iff₀ radix_pos]
      exact_mod_cast hle
    have hmono := nearest_mono (by exact_mod_cast hcode) hdiv
    rwa [nearest_code] at hmono

/-- A token that was not rounded, of an id below the radix, is taken apart into both. -/
theorem identity_of_exact (hpos : 0 < id) (hlt : id < radix)
    (hexact : nearest (exactToken segment id) = exactToken segment id) :
    dhanIdentityFromToken (dhanInternalToken segment id) = some (segment, id) := by
  have hcode := dhanCodeBySegment_lt segment
  have hsum : 0 < exactToken segment id := add_pos_of_nonneg_of_pos (Nat.cast_nonneg _) hpos
  have hend : exactToken segment id < ((dhanCodeBySegment segment + 1) * radix : ℕ) := by
    rw [exactToken]
    push_cast
    linarith
  have hquotient := nearest_quotient_lt hexact hsum hend
  have hbound : ((dhanCodeBySegment segment + 1 : ℕ) : ℚ) ≤ 9 := by exact_mod_cast hcode
  have hmax : ((dhanCodeBySegment segment + 1) * radix : ℕ) < (2 : ℚ) ^ 1024 := by
    have hle : (((dhanCodeBySegment segment + 1) * radix : ℕ) : ℚ) ≤ 9 * radix := by
      push_cast at hbound ⊢
      exact mul_le_mul_of_nonneg_right hbound radix_pos.le
    exact lt_overflow (hle.trans (by norm_num [radix]))
  have htoken : dhanInternalToken segment id = .finite (exactToken segment id) := by
    rw [dhanInternalToken, toDouble_of_lt hsum.le (by rw [hexact]; exact hend.trans hmax), hexact]
  have hdiv : toDouble (exactToken segment id / radix) =
      .finite (nearest (exactToken segment id / radix)) :=
    toDouble_of_lt (div_nonneg hsum.le radix_pos.le)
      (lt_overflow ((hquotient.le.trans hbound).trans (by norm_num)))
  have hfloor : ⌊nearest (exactToken segment id / radix)⌋ = dhanCodeBySegment segment := by
    rw [Int.floor_eq_iff]
    refine ⟨?_, by exact_mod_cast hquotient⟩
    exact_mod_cast code_le_nearest hsum (le_add_of_nonneg_right hpos.le)
  have hid : remainder (exactToken segment id) radix = id := remainder_add hpos.le hlt
  rw [htoken, dhanIdentityFromToken, hdiv]
  simp only [hfloor, find_segment, hid, if_neg (not_le.mpr hpos)]

/-- What a token is taken apart into is its remainder. -/
theorem exists_of_identity (h : dhanIdentityFromToken (dhanInternalToken segment id) =
    some (segment, id)) (hpos : 0 < id) :
    0 ≤ nearest (exactToken segment id) ∧
      remainder (nearest (exactToken segment id)) radix = id := by
  have hsum : 0 < exactToken segment id := add_pos_of_nonneg_of_pos (Nat.cast_nonneg _) hpos
  refine ⟨nearest_nonneg hsum.le, ?_⟩
  cases htoken : dhanInternalToken segment id with
  | finite token =>
    rw [nearest_of_toDouble hsum.le htoken]
    rw [htoken, dhanIdentityFromToken] at h
    split at h
    · dsimp only at h
      split at h
      · split at h
        · cases h
        · exact congrArg Prod.snd (Option.some.inj h)
      · cases h
    · cases h
  | _ => simp [htoken, dhanIdentityFromToken] at h

/-- A token gives its identity back exactly when the id is below the radix and the sum of both
parts is a double. -/
theorem identity_iff (hpos : 0 < id) :
    dhanIdentityFromToken (dhanInternalToken segment id) = some (segment, id) ↔
      id < radix ∧ nearest (exactToken segment id) = exactToken segment id := by
  refine ⟨fun h => ?_, fun ⟨hlt, hexact⟩ => identity_of_exact hpos hlt hexact⟩
  obtain ⟨hnonneg, hrem⟩ := exists_of_identity h hpos
  have hlt : id < radix := hrem ▸ remainder_lt hnonneg
  refine ⟨hlt, ?_⟩
  have hcode := dhanCodeBySegment_lt segment
  have hsmall : ∀ n, n ≤ 9 → n * radix < 2 ^ 53 := by
    intro n hn
    rw [radix]
    omega
  have hsum : 0 < exactToken segment id := add_pos_of_nonneg_of_pos (Nat.cast_nonneg _) hpos
  have hlow : ((dhanCodeBySegment segment * radix : ℕ) : ℚ) ≤ nearest (exactToken segment id) := by
    obtain hzero | hcodepos := Nat.eq_zero_or_pos (dhanCodeBySegment segment)
    · rw [hzero, Nat.zero_mul]
      exact_mod_cast hnonneg
    · have hstart : (0 : ℚ) < (dhanCodeBySegment segment * radix : ℕ) := by
        exact_mod_cast Nat.mul_pos hcodepos (by decide)
      have hle : ((dhanCodeBySegment segment * radix : ℕ) : ℚ) ≤ exactToken segment id :=
        le_add_of_nonneg_right hpos.le
      have hmono := nearest_mono hstart hle
      rwa [nearest_natCast (hsmall _ (by omega))] at hmono
  have hhigh : nearest (exactToken segment id) ≤ ((dhanCodeBySegment segment + 1) * radix : ℕ) := by
    have hle : exactToken segment id ≤ ((dhanCodeBySegment segment + 1) * radix : ℕ) := by
      rw [exactToken]
      push_cast
      linarith
    have hmono := nearest_mono hsum hle
    rwa [nearest_natCast (hsmall _ (by omega))] at hmono
  rw [remainder_of_nonneg hnonneg] at hrem
  have hfloor : ⌊nearest (exactToken segment id) / radix⌋ = dhanCodeBySegment segment := by
    have hge : (dhanCodeBySegment segment : ℤ) ≤ ⌊nearest (exactToken segment id) / radix⌋ := by
      rw [Int.le_floor, le_div_iff₀ radix_pos]
      exact_mod_cast hlow
    have hless : ⌊nearest (exactToken segment id) / radix⌋ < dhanCodeBySegment segment + 1 := by
      rw [Int.floor_lt, div_lt_iff₀ radix_pos]
      refine lt_of_le_of_ne (by exact_mod_cast hhigh) fun heq => ?_
      have hwhole : nearest (exactToken segment id) / radix =
          ((dhanCodeBySegment segment + 1 : ℤ) : ℚ) := by
        rw [div_eq_iff radix_pos.ne']
        exact heq
      rw [hwhole, Int.floor_intCast, heq] at hrem
      linarith
    omega
  rw [hfloor] at hrem
  rw [exactToken] at hrem ⊢
  push_cast at hrem ⊢
  linarith

end Identity

end Strikedge.DhanInstruments
