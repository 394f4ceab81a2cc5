import Strikedge.Machine.Arithmetic
import Strikedge.Machine.GreedyFill
import Strikedge.PaperLegs.Depth

/-!
# The depth walk over any levels

`walkDepth` for a book as it comes: levels in any order, repeated prices, and entries that are no
level at all, with all that the walk returns. What is left of the levels is filled greedily from
the best price on, so no other allotment of the same quantity within the limit is better. A slice
records the price of its level to the paisa. The average price comes from a sum that is rounded to
a double at each slice, so it alone may change with the order of levels that have one price.
-/

namespace Strikedge.BookWalk

open Machine Orders OrderPricing GreedyFill
open PaperLegs (AsGood BoxQueueModel WithinLimit eps)

/-- `Number.MAX_SAFE_INTEGER` -/
def maxSafeInteger : ℕ := 2 ^ 53 - 1

/-- A positive safe integer, if the number is one. -/
def positiveSafe? (n : Number) : Option ℕ :=
  match n.finite? with
  | some value => if value.den = 1 ∧ 0 < value.num ∧ value.num ≤ maxSafeInteger then
      some value.num.toNat else none
  | none => none

theorem positiveSafe?_of_pos {n : ℕ} (hpos : 0 < n) (h : n ≤ maxSafeInteger) :
    positiveSafe? (.finite n) = some n := by
  have hcond : ((n : ℚ).den = 1 ∧ 0 < (n : ℚ).num ∧ (n : ℚ).num ≤ maxSafeInteger) := by
    simp only [Rat.den_natCast, Rat.num_natCast, true_and]
    exact ⟨Int.natCast_pos.mpr hpos, Int.ofNat_le.mpr h⟩
  rw [positiveSafe?, Number.finite?_finite]
  simp only
  rw [if_pos hcond, Rat.num_natCast, Int.toNat_natCast]

theorem positiveSafe?_natCast {n : ℕ} (h : n ≤ maxSafeInteger) :
    (positiveSafe? (.finite n)).getD 0 = n := by
  obtain rfl | hpos := Nat.eq_zero_or_pos n
  · rfl
  · rw [positiveSafe?_of_pos hpos h, Option.getD_some]

/-- A product that a double still holds. -/
def Representable (amount : ℚ) : Prop := |amount| < 2 ^ 1024 - 2 ^ 970

instance (amount : ℚ) : Decidable (Representable amount) := inferInstanceAs (Decidable (_ < _))

/-- One entry of a book as it comes. -/
structure BoxDepthLevel where
  price : Number
  qty : Number
  deriving DecidableEq, Repr

/-- An entry that the filter keeps. -/
structure Level where
  price : ℚ
  qty : ℕ
  price_pos : 0 < price
  deriving DecidableEq

def usable? (lv : BoxDepthLevel) : Option Level :=
  match lv.price.finite?, positiveSafe? lv.qty with
  | some price, some qty =>
    if h : 0 < price ∧ Representable (price * 100) ∧ Representable (price * qty) then
      some ⟨price, qty, h.1⟩
    else none
  | _, _ => none

def bestFirst (side : OrderSide) (levels : List BoxDepthLevel) : List Level :=
  (levels.filterMap usable?).insertionSort fun a b => AsGood side a.price b.price

def effectiveQty (displayed : ℕ) (model : BoxQueueModel) (haircutPct : Number) : ℕ :=
  match model with
  | .none => displayed
  | .haircut =>
    match haircutPct.finite? with
    | some pct => PaperLegs.effectiveQty displayed .haircut pct
    | none => 0

structure PaperFillSlice where
  price : ℚ
  qty : ℕ
  displayedQty : ℕ
  effectiveQty : ℕ
  takenAt : ℚ
  quoteVersion : Option ℕ
  deriving DecidableEq, Repr

structure WalkArgs where
  side : OrderSide
  remainingQty : ℕ
  limitPrice : ℚ
  queueModel : BoxQueueModel
  haircutPct : Number
  takenAt : ℚ
  quoteVersion : Option ℕ
  reserved : Option (ℚ → Option ℕ → Number)

namespace WalkArgs

/-- What other attempts hold of a level; anything but a positive safe integer is nothing. -/
def already (args : WalkArgs) (lv : Level) : ℕ :=
  match args.reserved with
  | some reserved => (positiveSafe? (reserved lv.price args.quoteVersion)).getD 0
  | none => 0

def effective (args : WalkArgs) (lv : Level) : ℕ :=
  effectiveQty lv.qty args.queueModel args.haircutPct - args.already lv

def Within (args : WalkArgs) (lv : Level) : Prop :=
  WithinLimit args.side lv.price args.limitPrice

instance (args : WalkArgs) : DecidablePred args.Within := fun _ =>
  inferInstanceAs (Decidable (WithinLimit _ _ _))

def slice (args : WalkArgs) (lv : Level) (take : ℕ) : PaperFillSlice where
  price := round2 lv.price
  qty := take
  displayedQty := lv.qty
  effectiveQty := args.effective lv
  takenAt := args.takenAt
  quoteVersion := args.quoteVersion

end WalkArgs

/-- The running totals, and beside them what was taken of which level. -/
structure WalkState where
  remaining : ℕ
  filled : ℕ
  valueSum : Number
  executableWithinLimit : ℕ
  slices : List PaperFillSlice
  taken : List (Level × ℕ)
  deriving DecidableEq

/-- `valueSum += lv.price * take` -/
def addValue (valueSum : Number) (share : Level × ℕ) : Number :=
  (valueSum.plus (toDouble (share.1.price * share.2))).through id

/-- `round2` in double precision. -/
def round2Double (v : Number) : Number :=
  ((v.through (· * 100)).through fun v => mathRound v).through (· / 100)

def WalkState.visit (st : WalkState) (args : WalkArgs) (lv : Level) : WalkState :=
  let effective := args.effective lv
  let st := { st with
    executableWithinLimit := min maxSafeInteger (st.executableWithinLimit + effective) }
  let take := min st.remaining effective
  if take = 0 then st
  else
    { st with
      slices := st.slices ++ [args.slice lv take]
      filled := st.filled + take
      valueSum := addValue st.valueSum (lv, take)
      remaining := st.remaining - take
      taken := st.taken ++ [(lv, take)] }

/-- The loop, which ends at the first level past the limit. -/
def walkLevels (args : WalkArgs) : WalkState → List Level → WalkState
  | st, [] => st
  | st, lv :: rest => if args.Within lv then walkLevels args (st.visit args lv) rest else st

structure DepthWalkResult where
  filledQty : ℕ
  averagePrice : Option Number
  slices : List PaperFillSlice
  executableWithinLimit : ℕ
  deriving DecidableEq, Repr

/-- The average price of what was filled, to the paisa. -/
def averageOf (valueSum : Number) (filled : ℕ) : Option Number :=
  if 0 < filled then some (round2Double (valueSum.through (· / filled))) else none

/-- The totals behind the loop. -/
def walked (args : WalkArgs) (levels : List BoxDepthLevel) : WalkState :=
  walkLevels args ⟨args.remainingQty, 0, .finite 0, 0, [], []⟩ (bestFirst args.side levels)

def walkDepth (args : WalkArgs) (levels : List BoxDepthLevel) : DepthWalkResult :=
  if args.remainingQty = 0 ∨ maxSafeInteger < args.remainingQty ∨ args.limitPrice ≤ 0 then
    ⟨0, none, [], 0⟩
  else
    let st := walked args levels
    { filledQty := st.filled
      averagePrice := averageOf st.valueSum st.filled
      slices := st.slices
      executableWithinLimit := st.executableWithinLimit }

section Loop

variable {args : WalkArgs} {st : WalkState} {levels : List Level}

/-- The shares that are not empty. -/
def takenOf (shares : List (Level × ℕ)) : List (Level × ℕ) := shares.filter fun share => share.2 ≠ 0

def slicesOf (args : WalkArgs) (shares : List (Level × ℕ)) : List PaperFillSlice :=
  (takenOf shares).map fun share => args.slice share.1 share.2

theorem takenOf_cons (share : Level × ℕ) (shares : List (Level × ℕ)) :
    takenOf (share :: shares) = takenOf [share] ++ takenOf shares := by
  by_cases hzero : share.2 = 0 <;> simp [takenOf, hzero]

theorem cost_takenOf (shares : List (Level × ℕ)) :
    cost Level.price (takenOf shares) = cost Level.price shares := by
  induction shares with
  | nil => rfl
  | cons share rest ih =>
    rw [takenOf_cons, cost, List.map_append, List.sum_append, ← cost, ← cost, ih]
    by_cases hzero : share.2 = 0 <;> simp [takenOf, cost, hzero]

/-- One level gives one share, and a slice if the share is not empty. -/
theorem visit_eq (st : WalkState) (args : WalkArgs) (lv : Level) :
    let take := min st.remaining (args.effective lv)
    st.visit args lv =
      { remaining := st.remaining - take
        filled := st.filled + take
        valueSum := (takenOf [(lv, take)]).foldl addValue st.valueSum
        executableWithinLimit :=
          min maxSafeInteger (st.executableWithinLimit + args.effective lv)
        slices := st.slices ++ slicesOf args [(lv, take)]
        taken := st.taken ++ takenOf [(lv, take)] } := by
  intro take
  by_cases hzero : take = 0
  · have hmin : min st.remaining (args.effective lv) = 0 := hzero
    simp [WalkState.visit, hmin, hzero, slicesOf, takenOf]
  · have hmin : min st.remaining (args.effective lv) ≠ 0 := hzero
    simp [WalkState.visit, hmin, slicesOf, takenOf, take]

/-- The loop fills what is wanted from the levels in front of the first one past the limit. -/
theorem walkLevels_eq (args : WalkArgs) (st : WalkState) (levels : List Level)
    (hexecutable : st.executableWithinLimit ≤ maxSafeInteger) :
    let kept := levels.takeWhile fun lv => decide (args.Within lv)
    let shares := fill args.effective st.remaining kept
    walkLevels args st levels =
      { remaining := st.remaining - amount shares
        filled := st.filled + amount shares
        valueSum := (takenOf shares).foldl addValue st.valueSum
        executableWithinLimit :=
          min maxSafeInteger (st.executableWithinLimit + room args.effective kept)
        slices := st.slices ++ slicesOf args shares
        taken := st.taken ++ takenOf shares } := by
  induction levels generalizing st with
  | nil => simp [walkLevels, fill, amount, room, slicesOf, takenOf, hexecutable]
  | cons lv rest ih =>
    by_cases hwithin : args.Within lv
    · have hvisit : (st.visit args lv).executableWithinLimit ≤ maxSafeInteger := by
        rw [visit_eq]
        exact min_le_left _ _
      have hkept : (lv :: rest).takeWhile (fun lv => decide (args.Within lv)) =
          lv :: rest.takeWhile fun lv => decide (args.Within lv) := by
        rw [List.takeWhile_cons, if_pos (decide_eq_true hwithin)]
      simp only [walkLevels, if_pos hwithin, ih _ hvisit]
      simp only [hkept, visit_eq, fill, slicesOf, takenOf_cons _ (fill _ _ _), amount, room,
        List.map_cons, List.map_append, List.sum_cons, List.foldl_append, WalkState.mk.injEq,
        List.append_assoc, and_true, true_and]
      refine ⟨Nat.sub_sub _ _ _, Nat.add_assoc _ _ _, ?_⟩
      omega
    · simp [walkLevels, hwithin, fill, amount, room, slicesOf, takenOf, hexecutable]

end Loop

section Limit

variable {args : WalkArgs} {levels others : List BoxDepthLevel} {side : OrderSide}

/-- The price to be kept low. -/
def signedPrice (side : OrderSide) (lv : Level) : ℚ :=
  match side with
  | .buy => lv.price
  | .sell => -lv.price

theorem asGood_iff_signedPrice {a b : Level} :
    AsGood side a.price b.price ↔ signedPrice side a ≤ signedPrice side b := by
  cases side with
  | buy => exact Iff.rfl
  | sell => exact neg_le_neg_iff.symm

theorem bestFirst_perm : (bestFirst side levels).Perm (levels.filterMap usable?) :=
  List.perm_insertionSort _ _

theorem bestFirst_sorted :
    (bestFirst side levels).Pairwise fun a b => signedPrice side a ≤ signedPrice side b := by
  have total : Std.Total fun a b : Level => AsGood side a.price b.price := by
    constructor
    intro a b
    simp only [asGood_iff_signedPrice]
    exact le_total _ _
  have trans : IsTrans Level fun a b => AsGood side a.price b.price := by
    constructor
    intro a b c
    simp only [asGood_iff_signedPrice]
    exact le_trans
  have hsorted := List.pairwise_insertionSort (fun a b : Level => AsGood side a.price b.price)
    (levels.filterMap usable?)
  exact hsorted.imp fun h => asGood_iff_signedPrice.mp h

/-- A better price than one within the limit is within it. -/
theorem within_of_signedPrice_le {a b : Level}
    (h : signedPrice args.side a ≤ signedPrice args.side b) (hb : args.Within b) :
    args.Within a := by
  obtain ⟨-, hlimit, hprice⟩ := hb
  refine ⟨a.price_pos, hlimit, ?_⟩
  have hgood := asGood_iff_signedPrice.mpr h
  cases hside : args.side with
  | buy =>
    rw [hside] at hgood hprice
    exact le_trans hgood hprice
  | sell =>
    rw [hside] at hgood hprice
    exact le_trans hprice hgood

/-- The usable levels within the limit. -/
def WalkArgs.usable (args : WalkArgs) (levels : List BoxDepthLevel) : List Level :=
  (levels.filterMap usable?).filter fun lv => decide (args.Within lv)

/-- The levels the loop sees. -/
def WalkArgs.kept (args : WalkArgs) (levels : List BoxDepthLevel) : List Level :=
  (bestFirst args.side levels).takeWhile fun lv => decide (args.Within lv)

theorem takeWhile_eq_filter_of_sorted {ι : Type} {price : ι → ℚ} {keep : ι → Bool} {l : List ι}
    (hsorted : l.Pairwise fun a b => price a ≤ price b)
    (hkeep : ∀ a b, price a ≤ price b → keep b = true → keep a = true) :
    l.takeWhile keep = l.filter keep := by
  induction l with
  | nil => rfl
  | cons a rest ih =>
    obtain ⟨hfirst, hrest⟩ := List.pairwise_cons.mp hsorted
    cases ha : keep a with
    | true => rw [List.takeWhile_cons_of_pos ha, List.filter_cons_of_pos ha, ih hrest]
    | false =>
      have hnone : rest.filter keep = [] := by
        rw [List.filter_eq_nil_iff]
        intro b hb hkept
        rw [hkeep a b (hfirst b hb) hkept] at ha
        cases ha
      have hnot : ¬ keep a = true := by
        rw [ha]
        exact Bool.false_ne_true
      rw [List.takeWhile_cons_of_neg hnot, List.filter_cons_of_neg hnot, hnone]

theorem kept_eq_filter :
    args.kept levels = (bestFirst args.side levels).filter fun lv => decide (args.Within lv) := by
  apply takeWhile_eq_filter_of_sorted bestFirst_sorted
  intro a b h hb
  exact decide_eq_true (within_of_signedPrice_le h (of_decide_eq_true hb))

theorem kept_perm : (args.kept levels).Perm (args.usable levels) := by
  rw [kept_eq_filter]
  exact bestFirst_perm.filter _

theorem kept_sorted : (args.kept levels).Pairwise fun a b =>
    signedPrice args.side a ≤ signedPrice args.side b :=
  bestFirst_sorted.sublist (List.takeWhile_sublist _)

theorem room_kept : room args.effective (args.kept levels) =
    room args.effective (args.usable levels) :=
  (kept_perm.map _).sum_eq

/-- What is filled from each level. -/
def WalkArgs.shares (args : WalkArgs) (levels : List BoxDepthLevel) : List (Level × ℕ) :=
  fill args.effective args.remainingQty (args.kept levels)

theorem walked_eq : walked args levels =
    { remaining := args.remainingQty - amount (args.shares levels)
      filled := amount (args.shares levels)
      valueSum := (takenOf (args.shares levels)).foldl addValue (.finite 0)
      executableWithinLimit := min maxSafeInteger (room args.effective (args.usable levels))
      slices := slicesOf args (args.shares levels)
      taken := takenOf (args.shares levels) } := by
  have hloop := walkLevels_eq args ⟨args.remainingQty, 0, .finite 0, 0, [], []⟩
    (bestFirst args.side levels) (Nat.zero_le _)
  rw [walked, hloop]
  simp only [zero_add, List.nil_append, WalkState.mk.injEq]
  refine ⟨rfl, rfl, rfl, ?_, rfl, rfl⟩
  rw [← room_kept]
  rfl

theorem shares_allots : Allots args.effective (args.usable levels)
    (min args.remainingQty (room args.effective (args.usable levels))) (args.shares levels) := by
  rw [← room_kept]
  exact fill_allots.of_perm kept_perm

/-- What the shares cost, the least for a buyer and the most for a seller. -/
theorem shares_best {allotment : List (Level × ℕ)}
    (h : Allots args.effective (args.usable levels)
      (min args.remainingQty (room args.effective (args.usable levels))) allotment) :
    AsGood args.side (cost Level.price (args.shares levels)) (cost Level.price allotment) := by
  rw [← room_kept] at h
  have hle := cost_fill_le kept_sorted (h.of_perm kept_perm.symm)
  have hsigned (shares : List (Level × ℕ)) : cost (signedPrice args.side) shares =
      match args.side with
      | .buy => cost Level.price shares
      | .sell => -cost Level.price shares := by
    cases args.side with
    | buy => rfl
    | sell => simp [cost, signedPrice, List.sum_neg, Function.comp_def]
  rw [hsigned, hsigned] at hle
  cases hside : args.side with
  | buy =>
    rw [hside] at hle
    exact hle
  | sell =>
    rw [hside] at hle
    exact neg_le_neg_iff.mp hle

/-- Books that are the same but for their order cost the same. -/
theorem cost_shares_eq_of_perm (h : levels.Perm others) :
    cost Level.price (args.shares levels) = cost Level.price (args.shares others) := by
  have husable : (args.usable levels).Perm (args.usable others) :=
    (h.filterMap usable?).filter _
  have hroom : room args.effective (args.usable levels) =
      room args.effective (args.usable others) := (husable.map _).sum_eq
  have hthere : AsGood args.side (cost Level.price (args.shares levels))
      (cost Level.price (args.shares others)) := by
    apply shares_best
    rw [hroom]
    exact shares_allots.of_perm husable.symm
  have hback : AsGood args.side (cost Level.price (args.shares others))
      (cost Level.price (args.shares levels)) := by
    apply shares_best
    rw [← hroom]
    exact shares_allots.of_perm husable
  cases hside : args.side with
  | buy =>
    rw [hside] at hthere hback
    exact le_antisymm hthere hback
  | sell =>
    rw [hside] at hthere hback
    exact le_antisymm hback hthere

theorem takeWhile_prefix_takeWhile {ι : Type} {keep more : ι → Bool} {l : List ι}
    (h : ∀ a, keep a = true → more a = true) : l.takeWhile keep <+: l.takeWhile more := by
  induction l with
  | nil => exact List.prefix_rfl
  | cons a rest ih =>
    cases ha : keep a with
    | true =>
      rw [List.takeWhile_cons_of_pos ha, List.takeWhile_cons_of_pos (h a ha)]
      exact List.prefix_cons_inj a |>.mpr ih
    | false =>
      rw [List.takeWhile_cons_of_neg (by simp [ha])]
      exact List.nil_prefix

/-- The same order with another quantity and another limit. -/
def WalkArgs.asking (args : WalkArgs) (want : ℕ) (limit : ℚ) : WalkArgs :=
  { args with remainingQty := want, limitPrice := limit }

/-- A looser limit keeps what the tighter one keeps, and more behind it. -/
theorem kept_prefix (levels : List BoxDepthLevel) (want : ℕ) {limit : ℚ} (hlimit : 0 < limit)
    (hlooser : AsGood args.side args.limitPrice limit) :
    args.kept levels <+: (args.asking want limit).kept levels := by
  apply takeWhile_prefix_takeWhile
  intro lv hlv
  obtain ⟨hpos, -, hprice⟩ := of_decide_eq_true hlv
  apply decide_eq_true
  refine ⟨hpos, hlimit, ?_⟩
  simp only [WalkArgs.asking]
  cases hside : args.side with
  | buy =>
    rw [hside] at hprice hlooser
    exact le_trans hprice (add_le_add_left hlooser _)
  | sell =>
    rw [hside] at hprice hlooser
    exact le_trans (sub_le_sub_right hlooser _) hprice

section Looser

variable {want : ℕ} {limit : ℚ} (hlimit : 0 < limit)
  (hlooser : AsGood args.side args.limitPrice limit) (hmore : args.remainingQty ≤ want)
include hlimit hlooser hmore

theorem amount_shares_mono :
    amount (args.shares levels) ≤ amount ((args.asking want limit).shares levels) := by
  obtain ⟨back, hback⟩ := kept_prefix levels want hlimit hlooser
  have hroom : room args.effective (args.kept levels) ≤
      room args.effective ((args.asking want limit).kept levels) := by
    rw [← hback, room, room, List.map_append, List.sum_append]
    exact Nat.le_add_right _ _
  rw [WalkArgs.shares, WalkArgs.shares, amount_fill, amount_fill]
  exact le_min (le_trans (min_le_left _ _) hmore) (le_trans (min_le_right _ _) hroom)

theorem cost_shares_mono : cost Level.price (args.shares levels) ≤
    cost Level.price ((args.asking want limit).shares levels) := by
  obtain ⟨back, hback⟩ := kept_prefix levels want hlimit hlooser
  have hprice (items : List Level) : ∀ lv ∈ items, 0 ≤ lv.price := fun lv _ => lv.price_pos.le
  rw [WalkArgs.shares, WalkArgs.shares, ← hback]
  exact le_trans (cost_fill_mono (hprice _) hmore) (cost_fill_le_append (hprice back))

end Looser

end Limit

section Walk

variable {args : WalkArgs} {levels : List BoxDepthLevel}

/-- The walk of an order that asks for something at a price. -/
theorem walkDepth_eq (levels : List BoxDepthLevel) (hwant : 0 < args.remainingQty)
    (hsafe : args.remainingQty ≤ maxSafeInteger) (hlimit : 0 < args.limitPrice) :
    walkDepth args levels =
      let shares := args.shares levels
      { filledQty := amount shares
        averagePrice := averageOf ((takenOf shares).foldl addValue (.finite 0)) (amount shares)
        slices := slicesOf args shares
        executableWithinLimit :=
          min maxSafeInteger (room args.effective (args.usable levels)) } := by
  have hguard : ¬(args.remainingQty = 0 ∨ maxSafeInteger < args.remainingQty ∨
      args.limitPrice ≤ 0) := by
    rintro (h | h | h)
    · omega
    · omega
    · exact absurd h (not_le.mpr hlimit)
  rw [walkDepth, if_neg hguard, walked_eq]

theorem mem_slicesOf {shares : List (Level × ℕ)} {slice : PaperFillSlice} :
    slice ∈ slicesOf args shares ↔
      ∃ share ∈ shares, share.2 ≠ 0 ∧ args.slice share.1 share.2 = slice := by
  simp [slicesOf, takenOf, and_assoc]

/-- A slice is of a level within the limit, to the paisa, and within what the level gives. -/
theorem slice_of_shares {slice : PaperFillSlice}
    (h : slice ∈ slicesOf args (args.shares levels)) :
    ∃ lv ∈ args.usable levels, slice.price = round2 lv.price ∧ slice.displayedQty = lv.qty ∧
      slice.qty ≤ args.effective lv := by
  obtain ⟨share, hshare, -, rfl⟩ := mem_slicesOf.mp h
  have hlevel : share.1 ∈ args.usable levels :=
    shares_allots.perm.subset (List.mem_map_of_mem hshare)
  exact ⟨share.1, hlevel, rfl, rfl, shares_allots.within share hshare⟩

/-- Levels of different prices have one order from the best price on. -/
theorem shares_eq_of_perm {others : List BoxDepthLevel} (h : levels.Perm others)
    (hprices : ((args.usable levels).map Level.price).Nodup) :
    args.shares others = args.shares levels := by
  have husable : (args.usable levels).Perm (args.usable others) :=
    (h.filterMap usable?).filter _
  have hperm : (args.kept others).Perm (args.kept levels) :=
    kept_perm.trans (husable.symm.trans kept_perm.symm)
  have hkept : args.kept others = args.kept levels := by
    apply List.Perm.eq_of_pairwise _ kept_sorted kept_sorted hperm
    intro a b ha hb hab hba
    have hprice : a.price = b.price := by
      have heq := le_antisymm hab hba
      cases hside : args.side with
      | buy => simpa [signedPrice, hside] using heq
      | sell => simpa [signedPrice, hside] using heq
    exact List.inj_on_of_nodup_map hprices (kept_perm.subset (hperm.subset ha))
      (kept_perm.subset hb) hprice
  rw [WalkArgs.shares, WalkArgs.shares, hkept]

/-- What the walk pays, which is price times quantity over all it takes. -/
def WalkArgs.spent (args : WalkArgs) (levels : List BoxDepthLevel) : ℚ :=
  cost Level.price (walked args levels).taken

theorem spent_eq : args.spent levels = cost Level.price (args.shares levels) := by
  rw [WalkArgs.spent, walked_eq, cost_takenOf]

end Walk

section PaperOrder

open PaperLegs (WalkTerms DepthWalk)

/-- The terms of a paper order as the walk is called with them. -/
def WalkArgs.ofTerms (terms : WalkTerms) (quantity : ℕ) : WalkArgs where
  side := terms.side
  remainingQty := quantity
  limitPrice := terms.limitPrice
  queueModel := terms.queueModel
  haircutPct := .finite terms.haircutPct
  takenAt := terms.takenAt
  quoteVersion := some terms.quoteVersion
  reserved := some fun price _ => .finite (terms.reserved price)

def BoxDepthLevel.ofPaper (lv : PaperLegs.BoxDepthLevel) : BoxDepthLevel :=
  ⟨.finite lv.price, .finite lv.qty⟩

def Level.toPaper (lv : Level) : PaperLegs.BoxDepthLevel := ⟨lv.price, lv.qty⟩

def PaperFillSlice.ofPaper (slice : PaperLegs.PaperFillSlice) : PaperFillSlice where
  price := slice.price
  qty := slice.qty
  displayedQty := slice.displayedQty
  effectiveQty := slice.effectiveQty
  takenAt := slice.takenAt
  quoteVersion := some slice.quoteVersion

/-- The numbers of a level are within what the walk counts with. -/
structure Counted (terms : WalkTerms) (lv : PaperLegs.BoxDepthLevel) : Prop where
  qty : lv.qty ≤ maxSafeInteger
  paise : Representable (lv.price * 100)
  value : Representable (lv.price * lv.qty)
  reserved : terms.reserved lv.price ≤ maxSafeInteger

variable {terms : WalkTerms} {books : List PaperLegs.BoxDepthLevel} {quantity : ℕ}

theorem usable?_ofPaper {lv : PaperLegs.BoxDepthLevel} (h : Counted terms lv) :
    (usable? (.ofPaper lv)).map Level.toPaper = if lv.Usable then some lv else none := by
  obtain hzero | hpos := Nat.eq_zero_or_pos lv.qty
  · have hnone : positiveSafe? (.finite 0) = none := rfl
    simp [usable?, BoxDepthLevel.ofPaper, PaperLegs.BoxDepthLevel.Usable, hzero, hnone]
  · have hsome := positiveSafe?_of_pos hpos h.qty
    by_cases hprice : 0 < lv.price
    · simp [usable?, BoxDepthLevel.ofPaper, PaperLegs.BoxDepthLevel.Usable, Level.toPaper, hsome,
        hpos, hprice, h.paise, h.value]
    · simp [usable?, BoxDepthLevel.ofPaper, PaperLegs.BoxDepthLevel.Usable, hsome, hprice]

theorem bestFirst_ofPaper (side : OrderSide) (h : ∀ lv ∈ books, Counted terms lv) :
    (bestFirst side (books.map .ofPaper)).map Level.toPaper = PaperLegs.bestFirst side books := by
  have hkept : ((books.map BoxDepthLevel.ofPaper).filterMap usable?).map Level.toPaper =
      books.filter fun lv => decide lv.Usable := by
    induction books with
    | nil => rfl
    | cons lv rest ih =>
      obtain ⟨hlevel, hrest⟩ := List.forall_mem_cons.mp h
      have hread := usable?_ofPaper hlevel
      rw [List.map_cons, List.filterMap_cons, List.filter_cons, ← ih hrest]
      cases hmade : usable? (BoxDepthLevel.ofPaper lv) with
      | none =>
        rw [hmade] at hread
        by_cases husable : lv.Usable <;> simp_all
      | some level =>
        rw [hmade] at hread
        by_cases husable : lv.Usable <;> simp_all
  rw [bestFirst, PaperLegs.bestFirst, ← hkept]
  exact List.map_insertionSort _ _ Level.toPaper _ fun _ _ _ _ => Iff.rfl

theorem effective_ofTerms {lv : Level} (h : terms.reserved lv.price ≤ maxSafeInteger) :
    (WalkArgs.ofTerms terms quantity).effective lv = terms.executable lv.toPaper := by
  have halready : (WalkArgs.ofTerms terms quantity).already lv = terms.reserved lv.price :=
    positiveSafe?_natCast h
  rw [WalkArgs.effective, halready, WalkTerms.executable]
  cases hmodel : terms.queueModel with
  | none => simp [WalkArgs.ofTerms, effectiveQty, PaperLegs.effectiveQty, hmodel, Level.toPaper]
  | haircut => simp [WalkArgs.ofTerms, effectiveQty, hmodel, Level.toPaper]

theorem visit_ofPaper {lv : Level} {st : WalkState} {walk : DepthWalk}
    (h : terms.reserved lv.price ≤ maxSafeInteger) (hremaining : st.remaining = walk.remaining)
    (hfilled : st.filled = walk.filledQty) (hslices : st.slices = walk.slices.map .ofPaper) :
    let after := st.visit (.ofTerms terms quantity) lv
    let taken := walk.take terms lv.toPaper
    after.remaining = taken.remaining ∧ after.filled = taken.filledQty ∧
      after.slices = taken.slices.map .ofPaper := by
  have heffective := @effective_ofTerms terms quantity lv h
  by_cases hzero : min walk.remaining (terms.executable lv.toPaper) = 0
  · simp [WalkState.visit, DepthWalk.take, heffective, hremaining, hzero, hfilled, hslices]
  · have hslice : (WalkArgs.ofTerms terms quantity).slice lv
        (min walk.remaining (terms.executable lv.toPaper)) =
        .ofPaper (terms.slice lv.toPaper (min walk.remaining (terms.executable lv.toPaper))) := by
      rw [WalkArgs.slice, heffective]
      rfl
    simp [WalkState.visit, DepthWalk.take, heffective, hremaining, hzero, hfilled, hslices, hslice]

/-- The two loops go together over the same levels. -/
theorem walkLevels_ofPaper {levels : List Level} {st : WalkState} {walk : DepthWalk}
    (h : ∀ lv ∈ levels, terms.reserved lv.price ≤ maxSafeInteger)
    (hremaining : st.remaining = walk.remaining) (hfilled : st.filled = walk.filledQty)
    (hslices : st.slices = walk.slices.map .ofPaper) :
    let after := walkLevels (.ofTerms terms quantity) st levels
    let walked := PaperLegs.walkLevels terms walk (levels.map Level.toPaper)
    after.filled = walked.filledQty ∧ after.slices = walked.slices.map .ofPaper := by
  induction levels generalizing st walk with
  | nil => exact ⟨hfilled, hslices⟩
  | cons lv rest ih =>
    obtain ⟨hlevel, hrest⟩ := List.forall_mem_cons.mp h
    by_cases hwithin : PaperLegs.WithinLimit terms.side lv.price terms.limitPrice
    · have hstep : (WalkArgs.ofTerms terms quantity).Within lv := hwithin
      simp only [walkLevels, if_pos hstep, List.map_cons, PaperLegs.walkLevels, Level.toPaper,
        hwithin, not_true_eq_false, if_false]
      obtain ⟨hrest', hfilled', hslices'⟩ := visit_ofPaper hlevel hremaining hfilled hslices
      exact ih hrest hrest' hfilled' hslices'
    · have hstep : ¬(WalkArgs.ofTerms terms quantity).Within lv := hwithin
      simp only [walkLevels, if_neg hstep, List.map_cons, PaperLegs.walkLevels, Level.toPaper,
        hwithin, not_false_eq_true, if_true]
      exact ⟨hfilled, hslices⟩

/-- A paper order fills what the general walk fills on the same book. -/
theorem walkDepth_ofPaper (h : ∀ lv ∈ books, Counted terms lv) (hsafe : quantity ≤ maxSafeInteger) :
    let result := walkDepth (.ofTerms terms quantity) (books.map .ofPaper)
    let walk := PaperLegs.walkDepth terms books quantity
    result.filledQty = walk.filledQty ∧ result.slices = walk.slices.map .ofPaper := by
  let args := WalkArgs.ofTerms terms quantity
  by_cases hguard : quantity = 0 ∨ terms.limitPrice ≤ 0
  · have hstop : args.remainingQty = 0 ∨ maxSafeInteger < args.remainingQty ∨
        args.limitPrice ≤ 0 := hguard.imp_right .inr
    rw [walkDepth, if_pos hstop, PaperLegs.walkDepth, if_pos hguard]
    exact ⟨rfl, rfl⟩
  · have hgo : ¬(args.remainingQty = 0 ∨ maxSafeInteger < args.remainingQty ∨
        args.limitPrice ≤ 0) := by
      rintro (hzero | hbig | hlimit)
      · exact hguard (.inl hzero)
      · exact absurd hsafe (not_le.mpr hbig)
      · exact hguard (.inr hlimit)
    have hbest := bestFirst_ofPaper terms.side h
    have hreserved : ∀ lv ∈ bestFirst terms.side (books.map .ofPaper),
        terms.reserved lv.price ≤ maxSafeInteger := by
      intro lv hlv
      have hmem : lv.toPaper ∈ PaperLegs.bestFirst terms.side books :=
        hbest ▸ List.mem_map_of_mem hlv
      have hbook : lv.toPaper ∈ books :=
        List.mem_of_mem_filter ((List.perm_insertionSort _ _).subset hmem)
      exact (h _ hbook).reserved
    have hloop := @walkLevels_ofPaper terms quantity _ ⟨quantity, 0, .finite 0, 0, [], []⟩
      ⟨quantity, 0, []⟩ hreserved rfl rfl rfl
    rw [hbest] at hloop
    rw [walkDepth, if_neg hgo, PaperLegs.walkDepth, if_neg hguard]
    exact hloop

end PaperOrder

namespace Sample

/-- A buyer of ten at up to 10.006. -/
def args : WalkArgs where
  side := .buy
  remainingQty := 10
  limitPrice := 10006 / 1000
  queueModel := .none
  haircutPct := .finite 0
  takenAt := 0
  quoteVersion := some 1
  reserved := none

/-- One level inside the limit, a cheaper one behind it, and an entry without a price. -/
def levels : List BoxDepthLevel :=
  [⟨.finite (10006 / 1000), .finite 8⟩, ⟨.nan, .finite 5⟩, ⟨.finite 10, .finite 4⟩]

/-- Three levels at 22.91 and one at 22.99. -/
def atOnePrice (a b c : ℚ) : List BoxDepthLevel :=
  [⟨.finite (nearest (2291 / 100)), .finite a⟩, ⟨.finite (nearest (2291 / 100)), .finite b⟩,
    ⟨.finite (nearest (2291 / 100)), .finite c⟩, ⟨.finite (nearest (2299 / 100)), .finite 41⟩]

end Sample

/-- Levels of one price are added up in the order they come in. -/
example :
    let args := Sample.args.asking 656 23
    (walkDepth args (Sample.atOnePrice 233 187 195)).averagePrice =
        some (.finite (nearest (2292 / 100))) ∧
      (walkDepth args (Sample.atOnePrice 187 195 233)).averagePrice =
        some (.finite (nearest (2291 / 100))) := by
  decide +kernel

end Strikedge.BookWalk
