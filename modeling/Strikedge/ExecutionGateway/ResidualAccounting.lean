import Strikedge.Machine.Run
import Strikedge.Machine.Tally
import Strikedge.ExecutionGateway.ResidualFlatten

/-!
# Residual accounting over many passes

A residual leg is worked pass after pass. What a pass returns is saved, or lost in a crash
and the pass replayed from the row before it. Beside the row the run keeps the books: what
the saved passes last observed of every identity, what they credited and what they billed.
-/

namespace Strikedge.ExecutionGateway

open Machine Orders

/-- One pass, and whether its result reaches the durable row. -/
structure FlattenLabel where
  answers : FlattenAnswers
  estimate : Nat → Option Nat
  saved : Bool

/-- The value of an identity, none counting as zero. -/
def valueAt {A : Type} [Zero A] (m : OrderedMap Nat A) (attempt : Nat) : A :=
  (m.get? attempt).getD 0

/-- The durable row, the world of its identities and the books. -/
structure FlattenRun where
  /-- the row, none once it is flattened -/
  saved : Option ResidualLegExposure
  /-- the quantity each identity has been submitted with -/
  requested : OrderedMap Nat Nat
  /-- the identities that a local refusal has proven unused -/
  refused : List Nat
  /-- the highest fill any pass has seen of an identity -/
  seen : OrderedMap Nat Nat
  /-- the last fill a saved pass has observed of an identity -/
  observed : OrderedMap Nat Nat
  /-- the fills the saved passes have credited under an identity -/
  credited : OrderedMap Nat Nat := ∅
  /-- the charges the saved passes have billed under an identity -/
  billed : OrderedMap Nat Int := ∅
  /-- the highest cumulative charge a saved pass has estimated for an identity -/
  estimated : OrderedMap Nat Int := ∅

namespace FlattenRun

/-- The pass of a label. -/
def passOf (residual : ResidualLegExposure) (label : FlattenLabel) : ResidualFlattenPass :=
  flattenOneResidual residual label.answers

/-- The attempts a pass has skipped. -/
def skipped (residual : ResidualLegExposure) (label : FlattenLabel) : List Nat :=
  List.range' (residualFlattenAttempt residual)
    ((passOf residual label).attempt - residualFlattenAttempt residual)

/-- The pass hands an order to the manager. -/
def submits (residual : ResidualLegExposure) (label : FlattenLabel) : Bool :=
  (selectedAttempt label.answers.probe residual).2.isNone && label.answers.objection.isNone

/-- The quantities of the identities once the pass has submitted. -/
def requestedBy (s : FlattenRun) (residual : ResidualLegExposure) (label : FlattenLabel) :
    OrderedMap Nat Nat :=
  let attempt := (passOf residual label).attempt
  if submits residual label && !s.requested.has attempt then
    s.requested.set attempt residual.quantity
  else s.requested

/-- What the broker is trusted with: the order of an identity has the requested quantity, a
fill that never falls and never exceeds the quantity, and an identity that was refused
locally, so that a pass skipped it, has no fill. -/
structure Truthful (s : FlattenRun) (residual : ResidualLegExposure) (label : FlattenLabel) :
    Prop where
  skipped : ∀ attempt ∈ skipped residual label, valueAt s.seen attempt = 0
  unposted : ∀ order ∈ (passOf residual label).order,
    (passOf residual label).attempt ∈ s.refused → order.filledQuantity = 0
  quantity : ∀ order ∈ (passOf residual label).order,
    (s.requestedBy residual label).get? (passOf residual label).attempt = some order.quantity
  growing : ∀ order ∈ (passOf residual label).order,
    valueAt s.seen (passOf residual label).attempt ≤ order.filledQuantity
  within : ∀ order ∈ (passOf residual label).order, order.filledQuantity ≤ order.quantity

instance (s : FlattenRun) (residual : ResidualLegExposure) (label : FlattenLabel) :
    Decidable (s.Truthful residual label) :=
  decidable_of_iff
    ((∀ attempt ∈ FlattenRun.skipped residual label, valueAt s.seen attempt = 0) ∧
      (∀ order ∈ (passOf residual label).order,
        (passOf residual label).attempt ∈ s.refused → order.filledQuantity = 0) ∧
      (∀ order ∈ (passOf residual label).order,
        (s.requestedBy residual label).get? (passOf residual label).attempt =
          some order.quantity) ∧
      (∀ order ∈ (passOf residual label).order,
        valueAt s.seen (passOf residual label).attempt ≤ order.filledQuantity) ∧
      ∀ order ∈ (passOf residual label).order, order.filledQuantity ≤ order.quantity)
    ⟨fun h => ⟨h.1, h.2.1, h.2.2.1, h.2.2.2.1, h.2.2.2.2⟩,
      fun h => ⟨h.skipped, h.unposted, h.quantity, h.growing, h.within⟩⟩

/-- What a pass tells, saved or not. -/
def learn (s : FlattenRun) (residual : ResidualLegExposure) (label : FlattenLabel) : FlattenRun :=
  let pass := passOf residual label
  { s with
    requested := s.requestedBy residual label
    refused := s.refused ++ skipped residual label
    seen := match pass.order with
      | none => s.seen
      | some order => s.seen.set pass.attempt order.filledQuantity }

/-- What the pass of a label returns. -/
def resultOf (keyPrefix : String) (residual : ResidualLegExposure) (label : FlattenLabel) :
    FlattenResult :=
  flattenResidual keyPrefix [(residual, label.answers, label.estimate)]

/-- Save the result of a pass and enter it into the books. -/
def save (keyPrefix : String) (s : FlattenRun) (residual : ResidualLegExposure)
    (label : FlattenLabel) : FlattenRun :=
  let pass := passOf residual label
  let result := resultOf keyPrefix residual label
  let n := pass.attempt
  let s := { s with saved := result.remaining.head? }
  match pass.order with
  | none => s
  | some order =>
      let charge := residualCumulativeCharges label.estimate order.filledQuantity 0
      { s with
        observed := s.observed.set n order.filledQuantity
        credited := s.credited.set n
          (valueAt s.credited n + (result.flattenedByRole.map Prod.snd).sum)
        billed := s.billed.set n (valueAt s.billed n + result.flattenCharges)
        estimated := s.estimated.set n (max (valueAt s.estimated n) charge) }

/-- One pass over the saved row. -/
def step (keyPrefix : String) (s : FlattenRun) (label : FlattenLabel) : Option FlattenRun :=
  match s.saved with
  | none => none
  | some residual =>
      if s.Truthful residual label then
        let s := s.learn residual label
        some (if label.saved then s.save keyPrefix residual label else s)
      else none

/-- The quantity that remains. -/
def remaining (s : FlattenRun) : Nat := s.saved.elim 0 (·.quantity)

/-- What a starting row has accounted of its identity: its watermark, or on a row without
one what the quantity of the order has over it. -/
def accountedAtStart (residual : ResidualLegExposure) (requested : OrderedMap Nat Nat) : Nat :=
  match residual.flattenAccountedFilled with
  | some raw => raw.toNat
  | none =>
      ((requested.get? (residualFlattenAttempt residual)).getD residual.quantity) -
        residual.quantity

/-- A row the loop can have left, with or without watermarks, and the identities submitted
so far: the identity of the row has what the row has and what it has accounted, and the
later ones have what the row has, all before them being refused. A refused identity has
accounted nothing. -/
structure Startable (residual : ResidualLegExposure) (requested : OrderedMap Nat Nat)
    (refused : List Nat) : Prop where
  outstanding : 0 < residual.quantity
  watermarks : (residual.flattenAccountedFilled = none ∧
      residual.flattenAccountedCharges = none) ∨
    ∃ filled charges : Nat, residual.flattenAccountedFilled = some (filled : Int) ∧
      residual.flattenAccountedCharges = some (charges : Int)
  own : ∀ q ∈ requested.get? (residualFlattenAttempt residual),
    q = residual.quantity + accountedAtStart residual requested
  unused : requested.get? (residualFlattenAttempt residual) = none →
    accountedAtStart residual requested = 0
  later : ∀ n, residualFlattenAttempt residual < n → ∀ q ∈ requested.get? n,
    q = residual.quantity ∧ ∀ m, residualFlattenAttempt residual ≤ m → m < n → m ∈ refused
  unposted : residualFlattenAttempt residual ∈ refused → accountedAtStart residual requested = 0

/-- A run starts from a row. What the row has accounted counts as observed. -/
def begin (residual : ResidualLegExposure) (requested : OrderedMap Nat Nat)
    (refused : List Nat) : FlattenRun :=
  let accounted := OrderedMap.set ∅ (residualFlattenAttempt residual)
    (accountedAtStart residual requested)
  { saved := some residual
    requested := requested
    refused := refused
    seen := accounted
    observed := accounted }

/-- What a starting row has accounted, by identity. -/
def baseOf (residual : ResidualLegExposure) (requested : OrderedMap Nat Nat) (attempt : Nat) :
    Nat :=
  if attempt = residualFlattenAttempt residual then accountedAtStart residual requested else 0

section Values

variable {A : Type} [Zero A] {m : OrderedMap Nat A} {n k : Nat} {v : A}

@[simp] theorem valueAt_empty : valueAt (∅ : OrderedMap Nat A) n = 0 := rfl

@[simp] theorem valueAt_set : valueAt (m.set k v) n = if n = k then v else valueAt m n := by
  rw [valueAt, OrderedMap.get?_set]
  by_cases h : n = k
  · rw [if_pos h, if_pos h, Option.getD_some]
  · rw [if_neg h, if_neg h, valueAt]

end Values

/-- Setting an identity replaces what it counted in the sum. -/
theorem total_set (m : OrderedMap Nat Nat) (n v : Nat) :
    (m.set n v).tally (fun _ w => w) + valueAt m n = m.tally (fun _ w => w) + v := by
  have hset := OrderedMap.tally_set (fun _ w => w) m n v
  cases h : m.get? n with
  | none =>
      rw [OrderedMap.share_of_none h] at hset
      simpa [valueAt, h] using hset
  | some w =>
      rw [OrderedMap.share_of_some h] at hset
      simpa [valueAt, h] using hset

/-- No identity counts for more than all do. -/
theorem valueAt_le_total (m : OrderedMap Nat Nat) (n : Nat) :
    valueAt m n ≤ m.tally (fun _ w => w) := by
  have hdelete := OrderedMap.tally_delete (fun _ w => w) m n
  cases h : m.get? n with
  | none =>
      rw [valueAt, h]
      exact Nat.zero_le _
  | some w =>
      rw [OrderedMap.share_of_some h] at hdelete
      rw [valueAt, h, Option.getD_some]
      omega

end FlattenRun

theorem residualFlattenAttempt_pos (residual : ResidualLegExposure) :
    1 ≤ residualFlattenAttempt residual := by
  rw [residualFlattenAttempt.eq_def]
  split
  · exact Nat.le_refl 1
  · next raw _ =>
    by_cases h : (firstResidualFlattenAttempt : Int) ≤ raw
    · rw [if_pos h]
      rw [firstResidualFlattenAttempt] at h
      omega
    · rw [if_neg h]
      exact Nat.le_refl 1

/-- A generation the gateway writes is the one it reads back. -/
theorem residualFlattenAttempt_some {residual : ResidualLegExposure} {n : Nat} (hn : 1 ≤ n)
    (h : residual.flattenAttempt = some (n : Int)) : residualFlattenAttempt residual = n := by
  rw [residualFlattenAttempt.eq_def, h]
  show (if (firstResidualFlattenAttempt : Int) ≤ n then (n : Int).toNat else _) = n
  rw [if_pos (by rw [firstResidualFlattenAttempt]; omega), Int.toNat_natCast]

theorem firstAdoptableResidualAttempt_le (probe : Nat → Except String (Option BoxOrderIntent))
    (fuel attempt : Nat) : attempt ≤ (firstAdoptableResidualAttempt probe fuel attempt).1 := by
  induction fuel generalizing attempt with
  | zero => exact Nat.le_refl attempt
  | succ fuel ih =>
      rw [firstAdoptableResidualAttempt]
      cases probeVerdict (probe attempt) with
      | select terminalIntent => exact Nat.le_refl attempt
      | skip => exact Nat.le_of_succ_le (ih (attempt + 1))

@[simp] theorem settledPass_residual {residual : ResidualLegExposure} {n : Nat}
    {submission : Except OrderError BrokerOrder} :
    (settledPass residual n submission).residual = residual := by
  rw [settledPass.eq_def]
  split
  · dsimp only
    split <;> rfl
  · split <;> rfl

@[simp] theorem settledPass_attempt {residual : ResidualLegExposure} {n : Nat}
    {submission : Except OrderError BrokerOrder} :
    (settledPass residual n submission).attempt = n := by
  rw [settledPass.eq_def]
  split
  · dsimp only
    split <;> rfl
  · split <;> rfl

@[simp] theorem terminalPass_residual {residual : ResidualLegExposure} {n : Nat}
    {intent : BoxOrderIntent} : (terminalPass residual n intent).residual = residual := by
  rw [terminalPass]
  split <;> rfl

@[simp] theorem terminalPass_attempt {residual : ResidualLegExposure} {n : Nat}
    {intent : BoxOrderIntent} : (terminalPass residual n intent).attempt = n := by
  rw [terminalPass]
  split <;> rfl

theorem flattenOneResidual_eq (residual : ResidualLegExposure) (answers : FlattenAnswers) :
    (flattenOneResidual residual answers).residual = residual ∧
      (flattenOneResidual residual answers).attempt =
        (selectedAttempt answers.probe residual).1 := by
  rw [flattenOneResidual]
  rcases selectedAttempt answers.probe residual with ⟨n, _ | intent⟩
  · cases answers.objection with
    | none => exact ⟨settledPass_residual, settledPass_attempt⟩
    | some detail => exact ⟨rfl, rfl⟩
  · exact ⟨terminalPass_residual, terminalPass_attempt⟩

@[simp] theorem carryResidualForward_quantity {residual : ResidualLegExposure} {q n : Nat}
    {disposition : ResidualFlattenDisposition} {accounting : ResidualFlattenAccounting} :
    (carryResidualForward residual q n disposition accounting).quantity = q := by
  rw [carryResidualForward]
  split <;> rfl

section Account

variable {keyPrefix : String} {estimate : Nat → Option Nat} {pass : ResidualFlattenPass}
  {order : BrokerOrder} {filled : Nat} {accounted : Nat} {charges fallback : Int}

theorem residualCumulativeCharges_of_some (h : 0 < filled) {charge : Nat}
    (hcharge : estimate filled = some charge) :
    residualCumulativeCharges estimate filled fallback = charge := by
  rw [residualCumulativeCharges, if_neg (by omega), hcharge]
  rfl

/-- A cumulative charge is the fallback or does not depend on it. -/
theorem residualCumulativeCharges_cases (estimate : Nat → Option Nat) (filled : Nat)
    (fallback : Int) :
    residualCumulativeCharges estimate filled fallback = fallback ∨
      ∀ other, residualCumulativeCharges estimate filled fallback =
        residualCumulativeCharges estimate filled other := by
  by_cases hzero : filled = 0
  · left
    rw [residualCumulativeCharges, if_pos hzero]
  · cases h : estimate filled with
    | none =>
        left
        rw [residualCumulativeCharges, if_neg hzero, h]
        rfl
    | some charge =>
        right
        intro other
        rw [residualCumulativeCharges_of_some (by omega) h,
          residualCumulativeCharges_of_some (by omega) h]

theorem residualCumulativeCharges_nonneg (h : 0 ≤ fallback) :
    0 ≤ residualCumulativeCharges estimate filled fallback := by
  rw [residualCumulativeCharges]
  by_cases hzero : filled = 0
  · rw [if_pos hzero]
    exact h
  · rw [if_neg hzero]
    cases estimate filled with
    | none => exact h
    | some charge => exact Int.natCast_nonneg charge

/-- What an order is worth that fits what is accounted of it: its fill and its charge over
the accounted ones. -/
def creditedAccount (estimate : Nat → Option Nat) (pass : ResidualFlattenPass)
    (order : BrokerOrder) (accounted : Nat) (charges : Int) : PassAccount where
  fillDelta := order.filledQuantity - accounted
  chargeDelta := max 0 (residualCumulativeCharges estimate order.filledQuantity charges - charges)
  disposition := pass.disposition
  accounting := ⟨some (order.filledQuantity : Int),
    some (max charges (residualCumulativeCharges estimate order.filledQuantity charges))⟩

variable (keyPrefix) in
/-- An order whose fill lies between what is accounted and its quantity is credited with
what it has over the accounted. -/
theorem orderAccount_of_within (hquantity : order.quantity = pass.residual.quantity + accounted)
    (hgrown : accounted ≤ order.filledQuantity) (hwithin : order.filledQuantity ≤ order.quantity) :
    orderAccount keyPrefix estimate pass order accounted charges =
      creditedAccount estimate pass order accounted charges := by
  have hregular : ¬((order.filledQuantity : Int) < accounted ∨
      order.quantity < order.filledQuantity) := by omega
  rw [orderAccount, if_neg hregular, if_neg (by omega)]
  have hdelta : ((order.filledQuantity : Int) - accounted).toNat =
      order.filledQuantity - accounted := by omega
  rw [hdelta]
  rfl

variable {w : Nat} {c : Int}

/-- On a row without watermarks, and on a generation the row does not carry, the order tells
what is accounted. -/
theorem accountPass_of_legacy (horder : pass.order = some order)
    (h : pass.attempt = residualFlattenAttempt pass.residual →
      pass.residual.flattenAccountedFilled = none ∧
        pass.residual.flattenAccountedCharges = none)
    (hquantity : order.quantity = pass.residual.quantity + accounted)
    (hgrown : accounted ≤ order.filledQuantity) (hwithin : order.filledQuantity ≤ order.quantity) :
    accountPass keyPrefix estimate pass = creditedAccount estimate pass order accounted
      (residualCumulativeCharges estimate accounted 0) := by
  have haccounted : order.quantity - pass.residual.quantity = accounted := by omega
  rw [← orderAccount_of_within keyPrefix hquantity hgrown hwithin,
    ← haccounted, accountPass]
  by_cases hsame : pass.attempt = residualFlattenAttempt pass.residual
  · rw [if_pos hsame, if_pos hsame, (h hsame).1, (h hsame).2]
    dsimp only
    rw [horder]
  · rw [if_neg hsame, if_neg hsame]
    dsimp only
    rw [horder]

theorem accountPass_of_watermarks (horder : pass.order = some order)
    (hsame : pass.attempt = residualFlattenAttempt pass.residual)
    (hw : pass.residual.flattenAccountedFilled = some (w : Int))
    (hc : pass.residual.flattenAccountedCharges = some c) (hnonneg : 0 ≤ c) :
    accountPass keyPrefix estimate pass =
      orderAccount keyPrefix estimate pass order (w : Int) c := by
  have hvalid : (some (w : Int)).any (decide <| 0 ≤ ·) && (some c).any (decide <| 0 ≤ ·) := by
    simpa using hnonneg
  rw [accountPass]
  dsimp only
  rw [if_pos hsame, if_pos hsame, hw, hc]
  dsimp only
  rw [hvalid, horder]
  simp [readableWatermark, hnonneg]

variable (keyPrefix estimate) in
/-- A pass without an order credits nothing and keeps the watermarks of its row. -/
theorem accountPass_of_no_order (horder : pass.order = none)
    (h : (pass.residual.flattenAccountedFilled = none ∧
        pass.residual.flattenAccountedCharges = none) ∨
      ∃ (w : Nat) (c : Int), pass.residual.flattenAccountedFilled = some (w : Int) ∧
        pass.residual.flattenAccountedCharges = some c ∧ 0 ≤ c) :
    (accountPass keyPrefix estimate pass).fillDelta = 0 ∧
      (accountPass keyPrefix estimate pass).disposition = pass.disposition ∧
      (accountPass keyPrefix estimate pass).accounting.cumulativeFilled.or
          pass.residual.flattenAccountedFilled = pass.residual.flattenAccountedFilled ∧
      (accountPass keyPrefix estimate pass).accounting.cumulativeCharges.or
          pass.residual.flattenAccountedCharges = pass.residual.flattenAccountedCharges := by
  rw [accountPass]
  dsimp only
  by_cases hsame : pass.attempt = residualFlattenAttempt pass.residual
  · rw [if_pos hsame, if_pos hsame]
    rcases h with ⟨hw, hc⟩ | ⟨w, c, hw, hc, hnonneg⟩
    · rw [hw, hc]
      dsimp only
      rw [horder]
      exact ⟨rfl, rfl, rfl, rfl⟩
    · rw [hw, hc]
      dsimp only
      rw [horder]
      simp [readableWatermark, hnonneg]
  · rw [if_neg hsame, if_neg hsame]
    dsimp only
    rw [horder]
    exact ⟨rfl, rfl, Option.none_or, Option.none_or⟩

end Account

namespace FlattenRun

variable {keyPrefix : String} {s t : FlattenRun} {residual : ResidualLegExposure}
  {label : FlattenLabel} {order : BrokerOrder} {base : Nat → Nat} {n q : Nat}

/-- The books of every identity. -/
structure Booked (base : Nat → Nat) (s : FlattenRun) : Prop where
  observed : ∀ n, valueAt s.observed n ≤ valueAt s.seen n
  refused : ∀ n ∈ s.refused, valueAt s.seen n = 0
  credited : ∀ n, valueAt s.credited n + base n = valueAt s.observed n
  billed : ∀ n, valueAt s.billed n ≤ valueAt s.estimated n

/-- Nothing is booked of the identities after `n`. One of them is submitted with `q` and only
when those before it are refused. -/
def Later (s : FlattenRun) (n q : Nat) : Prop :=
  ∀ m, n < m → valueAt s.observed m = 0 ∧ valueAt s.billed m = 0 ∧
    ∀ p ∈ s.requested.get? m, p = q ∧ ∀ k, n ≤ k → k < m → k ∈ s.refused

/-- The books tell of the row what the row itself tells. -/
structure Fits (s : FlattenRun) (residual : ResidualLegExposure) : Prop where
  outstanding : 0 < residual.quantity
  watermarks : (residual.flattenAccountedFilled = none ∧
      residual.flattenAccountedCharges = none ∧
      valueAt s.billed (residualFlattenAttempt residual) = 0) ∨
    ∃ charges : Int, residual.flattenAccountedFilled =
        some ((valueAt s.observed (residualFlattenAttempt residual) : Nat) : Int) ∧
      residual.flattenAccountedCharges = some charges ∧ 0 ≤ charges ∧
      valueAt s.billed (residualFlattenAttempt residual) ≤ charges
  own : ∀ p ∈ s.requested.get? (residualFlattenAttempt residual),
    p = residual.quantity + valueAt s.observed (residualFlattenAttempt residual)
  unused : s.requested.get? (residualFlattenAttempt residual) = none →
    valueAt s.observed (residualFlattenAttempt residual) = 0
  later : s.Later (residualFlattenAttempt residual) residual.quantity

/-- What every state of a run meets. -/
structure Accounted (base : Nat → Nat) (total : Nat) (s : FlattenRun) : Prop where
  booked : s.Booked base
  total : s.remaining + s.observed.tally (fun _ v => v) = total
  row : ∀ residual ∈ s.saved, s.Fits residual

theorem Later.mono (h : s.Later n q) {m : Nat} (hm : n ≤ m) : s.Later m q := by
  intro k hk
  obtain ⟨hobserved, hbilled, hrequested⟩ := h k (by omega)
  refine ⟨hobserved, hbilled, fun p hp => ?_⟩
  obtain ⟨hpq, hrefused⟩ := hrequested p hp
  exact ⟨hpq, fun j hj => hrefused j (by omega)⟩

/-- The row a pass leaves fits the books when its attempt does. A retired attempt leaves an
identity nothing is known of. -/
theorem Fits.carry {disposition : ResidualFlattenDisposition}
    {accounting : ResidualFlattenAccounting} (hn : 1 ≤ n) (hq : 0 < q) (hlater : s.Later n q)
    (hown : ∀ p ∈ s.requested.get? n, p = q + valueAt s.observed n)
    (hunused : s.requested.get? n = none → valueAt s.observed n = 0)
    (hwatermarks : (accounting.cumulativeFilled.or residual.flattenAccountedFilled = none ∧
        accounting.cumulativeCharges.or residual.flattenAccountedCharges = none ∧
        valueAt s.billed n = 0) ∨
      ∃ charges : Int, accounting.cumulativeFilled.or residual.flattenAccountedFilled =
          some ((valueAt s.observed n : Nat) : Int) ∧
        accounting.cumulativeCharges.or residual.flattenAccountedCharges = some charges ∧
        0 ≤ charges ∧ valueAt s.billed n ≤ charges) :
    s.Fits (carryResidualForward residual q n disposition accounting) := by
  rw [carryResidualForward]
  by_cases hretire : disposition = .retireAttempt
  · rw [if_pos hretire]
    obtain ⟨hobserved, hbilled, hrequested⟩ := hlater (n + 1) (Nat.lt_succ_self n)
    have hattempt : residualFlattenAttempt { residual with
        quantity := q, flattenAttempt := some ((n : Int) + 1)
        flattenAccountedFilled := some 0, flattenAccountedCharges := some 0 } = n + 1 :=
      residualFlattenAttempt_some (by omega) rfl
    constructor
    · exact hq
    · right
      rw [hattempt, hobserved, hbilled]
      exact ⟨0, rfl, rfl, le_refl 0, le_refl 0⟩
    · rw [hattempt, hobserved]
      exact fun p hp => (hrequested p hp).1
    · rw [hattempt]
      exact fun _ => hobserved
    · rw [hattempt]
      exact hlater.mono (Nat.le_succ n)
  · rw [if_neg hretire]
    have hattempt : residualFlattenAttempt { residual with
        quantity := q, flattenAttempt := some (n : Int)
        flattenAccountedFilled :=
          accounting.cumulativeFilled.or residual.flattenAccountedFilled
        flattenAccountedCharges :=
          accounting.cumulativeCharges.or residual.flattenAccountedCharges } = n :=
      residualFlattenAttempt_some hn rfl
    constructor
    · exact hq
    · rw [hattempt]
      exact hwatermarks
    · rw [hattempt]
      exact hown
    · rw [hattempt]
      exact hunused
    · rw [hattempt]
      exact hlater

theorem attempt_le (residual : ResidualLegExposure) (label : FlattenLabel) :
    residualFlattenAttempt residual ≤ (passOf residual label).attempt := by
  rw [passOf, (flattenOneResidual_eq residual label.answers).2]
  exact firstAdoptableResidualAttempt_le _ _ _

theorem mem_skipped {m : Nat} :
    m ∈ skipped residual label ↔
      residualFlattenAttempt residual ≤ m ∧ m < (passOf residual label).attempt := by
  rw [skipped, List.mem_range'_1]
  have := attempt_le residual label
  omega

/-- An identity has been submitted already, or the pass submits it with what the row has. -/
theorem requestedBy_cases {m p : Nat}
    (h : (s.requestedBy residual label).get? m = some p) :
    s.requested.get? m = some p ∨
      s.requested.get? m = none ∧ m = (passOf residual label).attempt ∧
        p = residual.quantity := by
  rw [requestedBy] at h
  split at h
  · next hnew =>
    rw [OrderedMap.get?_set] at h
    by_cases hm : m = (passOf residual label).attempt
    · rw [if_pos hm] at h
      have hfresh : s.requested.get? (passOf residual label).attempt = none := by
        simpa [OrderedMap.has] using (Bool.and_eq_true_iff.mp hnew).2
      exact .inr ⟨hm ▸ hfresh, hm, (Option.some.inj h).symm⟩
    · rw [if_neg hm] at h
      exact .inl h
  · exact .inl h

theorem requested_none {m : Nat} (h : (s.requestedBy residual label).get? m = none) :
    s.requested.get? m = none := by
  rw [requestedBy] at h
  split at h
  · rw [OrderedMap.get?_set] at h
    by_cases hm : m = (passOf residual label).attempt
    · rw [if_pos hm] at h
      cases h
    · rwa [if_neg hm] at h
  · exact h

@[simp] theorem learn_refused :
    (s.learn residual label).refused = s.refused ++ skipped residual label := rfl

@[simp] theorem learn_observed : (s.learn residual label).observed = s.observed := rfl

/-- A pass sees no less of an identity than the passes before it. -/
theorem Truthful.seen_le (h : s.Truthful residual label) (m : Nat) :
    valueAt s.seen m ≤ valueAt (s.learn residual label).seen m := by
  rw [learn]
  cases horder : (passOf residual label).order with
  | none => exact Nat.le_refl _
  | some order =>
      dsimp only
      rw [valueAt_set]
      by_cases hm : m = (passOf residual label).attempt
      · rw [if_pos hm, hm]
        exact h.growing order horder
      · rw [if_neg hm]

theorem seen_learn_of_order (horder : (passOf residual label).order = some order) :
    valueAt (s.learn residual label).seen (passOf residual label).attempt =
      order.filledQuantity := by
  rw [learn, horder]
  dsimp only
  rw [valueAt_set, if_pos rfl]

theorem Truthful.refused_seen (h : s.Truthful residual label) (hbooked : s.Booked base)
    {m : Nat} (hm : m ∈ (s.learn residual label).refused) :
    valueAt (s.learn residual label).seen m = 0 := by
  rw [learn_refused, List.mem_append] at hm
  have hbefore : valueAt s.seen m = 0 := hm.elim (hbooked.refused m) (h.skipped m)
  cases horder : (passOf residual label).order with
  | none => rw [learn, horder]; exact hbefore
  | some order =>
      by_cases heq : m = (passOf residual label).attempt
      · subst heq
        rw [seen_learn_of_order horder]
        refine h.unposted order horder (hm.resolve_right fun hskip => ?_)
        exact Nat.lt_irrefl _ (mem_skipped.mp hskip).2
      · rw [learn, horder]
        dsimp only
        rw [valueAt_set, if_neg heq]
        exact hbefore

theorem Booked.learn (hbooked : s.Booked base) (h : s.Truthful residual label) :
    (s.learn residual label).Booked base where
  observed := fun n => (hbooked.observed n).trans (h.seen_le n)
  refused := fun _ hn => h.refused_seen hbooked hn
  credited := hbooked.credited
  billed := hbooked.billed

theorem Fits.learn (hfits : s.Fits residual) : (s.learn residual label).Fits residual where
  outstanding := hfits.outstanding
  watermarks := hfits.watermarks
  own := by
    intro p hp
    rcases requestedBy_cases hp with hp | ⟨hnone, -, rfl⟩
    · exact hfits.own p hp
    · rw [learn_observed, hfits.unused hnone, Nat.add_zero]
  unused := fun hnone => hfits.unused (requested_none hnone)
  later := by
    intro m hm
    obtain ⟨hobserved, hbilled, hrequested⟩ := hfits.later m hm
    refine ⟨hobserved, hbilled, fun p hp => ?_⟩
    rcases requestedBy_cases hp with hp | ⟨-, rfl, rfl⟩
    · obtain ⟨hpq, hrefused⟩ := hrequested p hp
      exact ⟨hpq, fun k hk hkm => List.mem_append_left _ (hrefused k hk hkm)⟩
    · exact ⟨rfl, fun k hk hkm => List.mem_append_right _ (mem_skipped.mpr ⟨hk, hkm⟩)⟩

/-- The order of a later identity, too, has what the row has and what is observed of it. -/
theorem Fits.requested_at (hfits : s.Fits residual) (hn : residualFlattenAttempt residual ≤ n)
    {p : Nat} (hp : s.requested.get? n = some p) :
    p = residual.quantity + valueAt s.observed n := by
  rcases Nat.eq_or_lt_of_le hn with rfl | hlt
  · exact hfits.own p hp
  · obtain ⟨hobserved, -, hrequested⟩ := hfits.later n hlt
    rw [hobserved, Nat.add_zero]
    exact (hrequested p hp).1

theorem Fits.unused_at (hfits : s.Fits residual) (hn : residualFlattenAttempt residual ≤ n)
    (hnone : s.requested.get? n = none) : valueAt s.observed n = 0 := by
  rcases Nat.eq_or_lt_of_le hn with rfl | hlt
  · exact hfits.unused hnone
  · exact (hfits.later n hlt).1

/-- The account of the pass of a label. -/
abbrev accountOf (keyPrefix : String) (residual : ResidualLegExposure) (label : FlattenLabel) :
    PassAccount :=
  accountPass keyPrefix label.estimate (passOf residual label)

@[simp] theorem passOf_residual : (passOf residual label).residual = residual :=
  (flattenOneResidual_eq residual label.answers).1

theorem resultOf_remaining : (resultOf keyPrefix residual label).remaining.head? =
    remainingOf (passOf residual label) (accountOf keyPrefix residual label) := by
  rw [resultOf, flattenResidual, accountOf, passOf]
  simp only [List.map_cons, List.map_nil, List.filterMap_cons, List.filterMap_nil]
  cases remainingOf (flattenOneResidual residual label.answers)
    (accountPass keyPrefix label.estimate (flattenOneResidual residual label.answers)) with
  | none => rfl
  | some row => rfl

theorem resultOf_flattened : ((resultOf keyPrefix residual label).flattenedByRole.map
    Prod.snd).sum = (accountOf keyPrefix residual label).fillDelta :=
  List.sum_singleton

theorem resultOf_charges : (resultOf keyPrefix residual label).flattenCharges =
    (accountOf keyPrefix residual label).chargeDelta :=
  List.sum_singleton

variable (keyPrefix) in
/-- The watermark a pass is judged against is what is observed of its identity, and its
charge watermark is no less than what is billed of it. -/
theorem Fits.account (hfits : s.Fits residual)
    (horder : (passOf residual label).order = some order)
    (hquantity : order.quantity =
      residual.quantity + valueAt s.observed (passOf residual label).attempt)
    (hgrown : valueAt s.observed (passOf residual label).attempt ≤ order.filledQuantity)
    (hwithin : order.filledQuantity ≤ order.quantity) :
    ∃ charges : Int, 0 ≤ charges ∧
      valueAt s.billed (passOf residual label).attempt ≤ charges ∧
      accountOf keyPrefix residual label = creditedAccount label.estimate
        (passOf residual label) order
        (valueAt s.observed (passOf residual label).attempt) charges := by
  have hpass : order.quantity = (passOf residual label).residual.quantity +
      valueAt s.observed (passOf residual label).attempt := by rwa [passOf_residual]
  have hnonneg : 0 ≤ residualCumulativeCharges label.estimate
      (valueAt s.observed (passOf residual label).attempt) 0 :=
    residualCumulativeCharges_nonneg (le_refl 0)
  by_cases hsame : (passOf residual label).attempt = residualFlattenAttempt residual
  · rcases hfits.watermarks with ⟨hw, hc, hbilled⟩ | ⟨c, hw, hc, hcharge, hbilled⟩
    · refine ⟨_, hnonneg, ?_,
        accountPass_of_legacy horder (fun _ => ?_) hpass hgrown hwithin⟩
      · rw [hsame, hbilled]
        exact residualCumulativeCharges_nonneg (le_refl 0)
      · rw [passOf_residual]
        exact ⟨hw, hc⟩
    · refine ⟨c, hcharge, hsame ▸ hbilled, (accountPass_of_watermarks horder ?_ ?_ ?_
        hcharge).trans (orderAccount_of_within keyPrefix hpass hgrown hwithin)⟩
      · rwa [passOf_residual]
      · rw [passOf_residual, hsame]
        exact hw
      · rw [passOf_residual]
        exact hc
  · have hlater : residualFlattenAttempt residual < (passOf residual label).attempt :=
      lt_of_le_of_ne (attempt_le residual label) fun h => hsame h.symm
    refine ⟨_, hnonneg, ?_,
      accountPass_of_legacy horder (fun h => ?_) hpass hgrown hwithin⟩
    · rw [(hfits.later _ hlater).2.1]
      exact hnonneg
    · rw [passOf_residual] at h
      exact absurd h hsame

/-- A pass without an order leaves the books and the quantity of the row. -/
theorem Accounted.save_of_no_order {total : Nat} (h : s.Accounted base total)
    (hsaved : s.saved = some residual) (horder : (passOf residual label).order = none)
    (hskipped : ∀ m ∈ skipped residual label, m ∈ s.refused)
    (hused : (s.requested.get? (passOf residual label).attempt = none →
      valueAt s.observed (passOf residual label).attempt = 0)) :
    (s.save keyPrefix residual label).Accounted base total := by
  have hfits := h.row residual hsaved
  have hle := attempt_le residual label
  have hwater : (residual.flattenAccountedFilled = none ∧
      residual.flattenAccountedCharges = none) ∨
      ∃ (w : Nat) (c : Int), residual.flattenAccountedFilled = some (w : Int) ∧
        residual.flattenAccountedCharges = some c ∧ 0 ≤ c :=
    hfits.watermarks.imp (fun ⟨hw, hc, _⟩ => ⟨hw, hc⟩)
      fun ⟨c, hw, hc, hnonneg, _⟩ => ⟨_, c, hw, hc, hnonneg⟩
  obtain ⟨hfill, -, hfilled, hcharges⟩ := accountPass_of_no_order keyPrefix
    label.estimate horder (by rwa [passOf_residual])
  rw [passOf_residual] at hfilled hcharges
  have hrow : (s.save keyPrefix residual label).saved = some (carryResidualForward residual
      residual.quantity (passOf residual label).attempt
      (accountOf keyPrefix residual label).disposition
      (accountOf keyPrefix residual label).accounting) := by
    rw [save, horder]
    show (resultOf keyPrefix residual label).remaining.head? = _
    rw [resultOf_remaining, remainingOf, passOf_residual, hfill, Nat.sub_zero,
      if_neg (Nat.pos_iff_ne_zero.mp hfits.outstanding)]
  have hbooks : s.save keyPrefix residual label =
      { s with saved := (s.save keyPrefix residual label).saved } := by
    rw [save, horder]
  have hcarried : s.Fits (carryResidualForward residual residual.quantity
      (passOf residual label).attempt (accountOf keyPrefix residual label).disposition
      (accountOf keyPrefix residual label).accounting) := by
    refine Fits.carry ((residualFlattenAttempt_pos residual).trans hle) hfits.outstanding
      (hfits.later.mono hle) (fun p hp => hfits.requested_at hle hp) hused ?_
    rw [hfilled, hcharges]
    rcases Nat.eq_or_lt_of_le hle with heq | hlt
    · rw [← heq]
      exact hfits.watermarks
    · -- the row's own attempt was refused, so its watermark is zero like the new attempt's
      obtain ⟨hobserved, hbilled, -⟩ := hfits.later _ hlt
      have hrefused := h.booked.refused _
        (hskipped _ (mem_skipped.mpr ⟨Nat.le_refl _, hlt⟩))
      have hzero : valueAt s.observed (residualFlattenAttempt residual) = 0 :=
        Nat.le_zero.mp (hrefused ▸ h.booked.observed _)
      rw [hobserved, hbilled]
      refine hfits.watermarks.imp (fun ⟨hw, hc, _⟩ => ⟨hw, hc, rfl⟩)
        fun ⟨c, hw, hc, hnonneg, _⟩ => ⟨c, ?_, hc, hnonneg, hnonneg⟩
      rw [hw, hzero]
  have htotal := h.total
  rw [remaining, hsaved] at htotal
  rw [hbooks, hrow]
  constructor
  · exact ⟨h.booked.observed, h.booked.refused, h.booked.credited, h.booked.billed⟩
  · show (carryResidualForward residual residual.quantity _ _ _).quantity + _ = total
    rw [carryResidualForward_quantity]
    exact htotal
  · intro row hmem
    obtain rfl := Option.some.inj hmem
    exact ⟨hcarried.outstanding, hcarried.watermarks, hcarried.own, hcarried.unused,
      hcarried.later⟩

/-- The books after a saved pass with an order. -/
theorem Booked.save (h : s.Booked base) (horder : (passOf residual label).order = some order)
    {charges : Int}
    (haccount : accountOf keyPrefix residual label = creditedAccount label.estimate
      (passOf residual label) order (valueAt s.observed (passOf residual label).attempt) charges)
    (hbilled : valueAt s.billed (passOf residual label).attempt ≤ charges)
    (hgrown : valueAt s.observed (passOf residual label).attempt ≤ order.filledQuantity)
    (hseen : valueAt s.seen (passOf residual label).attempt = order.filledQuantity) :
    (s.save keyPrefix residual label).Booked base := by
  rw [FlattenRun.save, horder]
  constructor
  · intro n
    show valueAt (s.observed.set _ _) n ≤ valueAt s.seen n
    rw [valueAt_set]
    by_cases hn : n = (passOf residual label).attempt
    · rw [if_pos hn, hn, hseen]
    · rw [if_neg hn]
      exact h.observed n
  · exact h.refused
  · intro n
    show valueAt (s.credited.set _ _) n + base n = valueAt (s.observed.set _ _) n
    rw [valueAt_set, valueAt_set]
    by_cases hn : n = (passOf residual label).attempt
    · have hcredited := h.credited n
      rw [if_pos hn, if_pos hn, resultOf_flattened, haccount, ← hn]
      show valueAt s.credited n + (order.filledQuantity - valueAt s.observed n) + base n = _
      rw [← hn] at hgrown
      omega
    · rw [if_neg hn, if_neg hn]
      exact h.credited n
  · intro n
    show valueAt (s.billed.set _ _) n ≤ valueAt (s.estimated.set _ _) n
    rw [valueAt_set, valueAt_set]
    by_cases hn : n = (passOf residual label).attempt
    · have hbefore := h.billed n
      rw [← hn] at hbilled
      rw [if_pos hn, if_pos hn, resultOf_charges, haccount, ← hn]
      show valueAt s.billed n + max 0 (residualCumulativeCharges label.estimate
        order.filledQuantity charges - charges) ≤ max (valueAt s.estimated n) _
      -- either the order was not priced, or its price does not depend on the watermark
      rcases residualCumulativeCharges_cases label.estimate order.filledQuantity charges with
        hfallback | hpriced
      · rw [hfallback]
        omega
      · rw [hpriced 0]
        omega
    · rw [if_neg hn, if_neg hn]
      exact h.billed n

/-- A pass with an order credits what the broker filled beyond the books. -/
theorem Accounted.save_of_order {total : Nat} (h : s.Accounted base total)
    (hsaved : s.saved = some residual) (horder : (passOf residual label).order = some order)
    (hrequested : s.requested.get? (passOf residual label).attempt = some order.quantity)
    (hseen : valueAt s.seen (passOf residual label).attempt = order.filledQuantity)
    (hwithin : order.filledQuantity ≤ order.quantity) :
    (s.save keyPrefix residual label).Accounted base total := by
  have hfits := h.row residual hsaved
  have hle := attempt_le residual label
  have hgrown : valueAt s.observed (passOf residual label).attempt ≤ order.filledQuantity :=
    hseen ▸ h.booked.observed _
  have hquantity := hfits.requested_at hle hrequested
  obtain ⟨charges, hnonneg, hbilled, haccount⟩ :=
    hfits.account keyPrefix horder hquantity hgrown hwithin
  have hrow : (s.save keyPrefix residual label).saved =
      remainingOf (passOf residual label) (accountOf keyPrefix residual label) := by
    rw [FlattenRun.save, horder]
    exact resultOf_remaining
  have hobserved : (s.save keyPrefix residual label).observed =
      s.observed.set (passOf residual label).attempt order.filledQuantity := by
    rw [FlattenRun.save, horder]
  have hbills : (s.save keyPrefix residual label).billed =
      s.billed.set (passOf residual label).attempt
        (valueAt s.billed (passOf residual label).attempt +
          (accountOf keyPrefix residual label).chargeDelta) := by
    rw [FlattenRun.save, horder, ← resultOf_charges]
  have hworld : (s.save keyPrefix residual label).requested = s.requested ∧
      (s.save keyPrefix residual label).refused = s.refused := by
    rw [FlattenRun.save, horder]
    exact ⟨rfl, rfl⟩
  have htotal := h.total
  rw [remaining, hsaved, Option.elim_some] at htotal
  have hset := total_set s.observed (passOf residual label).attempt order.filledQuantity
  rw [remainingOf, haccount, passOf_residual] at hrow
  have hdelta : (creditedAccount label.estimate (passOf residual label) order
      (valueAt s.observed (passOf residual label).attempt) charges).fillDelta =
      order.filledQuantity - valueAt s.observed (passOf residual label).attempt := rfl
  rw [hdelta] at hrow
  refine ⟨h.booked.save horder haccount hbilled hgrown hseen, ?_, ?_⟩
  · rw [remaining, hobserved]
    by_cases hdone : residual.quantity -
        (order.filledQuantity - valueAt s.observed (passOf residual label).attempt) = 0
    · rw [hrow, if_pos hdone, Option.elim_none]
      omega
    · rw [hrow, if_neg hdone, Option.elim_some]
      show (carryResidualForward residual _ _ _ _).quantity + _ = total
      rw [carryResidualForward_quantity]
      omega
  · intro row hmem
    rw [hrow] at hmem
    by_cases hdone : residual.quantity -
        (order.filledQuantity - valueAt s.observed (passOf residual label).attempt) = 0
    · rw [if_pos hdone] at hmem
      cases hmem
    rw [if_neg hdone] at hmem
    obtain rfl := Option.some.inj hmem
    refine Fits.carry ((residualFlattenAttempt_pos residual).trans hle)
      (Nat.pos_of_ne_zero hdone) ?_ ?_ ?_ (.inr ?_)
    · intro m hm
      obtain ⟨hzero, hfree, hlater⟩ := (hfits.later.mono hle) m hm
      rw [hobserved, hbills, hworld.1, hworld.2, valueAt_set, valueAt_set,
        if_neg (Nat.ne_of_gt hm), if_neg (Nat.ne_of_gt hm)]
      refine ⟨hzero, hfree, fun p hp => ?_⟩
      obtain ⟨rfl, hrefused⟩ := hlater p hp
      -- a later identity is submitted only past a refused one, which has no fill
      have hnone := h.booked.refused _ (hrefused _ (Nat.le_refl _) hm)
      exact ⟨by omega, hrefused⟩
    · intro p hp
      rw [hworld.1, hrequested] at hp
      obtain rfl := Option.some.inj hp
      rw [hobserved, valueAt_set, if_pos rfl]
      omega
    · intro hnone
      rw [hworld.1, hrequested] at hnone
      cases hnone
    · refine ⟨_, ?_, rfl, hnonneg.trans (le_max_left _ _), ?_⟩
      · rw [hobserved, valueAt_set, if_pos rfl]
        rfl
      · rw [hbills, valueAt_set, if_pos rfl, haccount]
        show _ + max 0 _ ≤ max _ _
        omega

/-- What one pass keeps, saved or not. -/
theorem Accounted.step {total : Nat} (h : s.Accounted base total)
    (hstep : FlattenRun.step keyPrefix s label = some t) : t.Accounted base total := by
  rw [FlattenRun.step.eq_def] at hstep
  split at hstep
  · cases hstep
  · next residual hsaved =>
    split at hstep
    · next htruth =>
      obtain rfl := Option.some.inj hstep
      have hlearned : (s.learn residual label).Accounted base total := by
        refine ⟨h.booked.learn htruth, h.total, fun row hrow => ?_⟩
        obtain rfl := Option.some.inj (hsaved.symm.trans hrow)
        exact (h.row residual hsaved).learn
      by_cases hsave : label.saved = true
      · show (if label.saved = true then _ else _ : FlattenRun).Accounted base total
        rw [if_pos hsave]
        cases horder : (passOf residual label).order with
        | none =>
            refine hlearned.save_of_no_order hsaved horder
              (fun m hm => List.mem_append_right _ hm) fun hnone => ?_
            exact (hlearned.row residual hsaved).unused_at (attempt_le residual label) hnone
        | some order =>
            exact hlearned.save_of_order hsaved horder (htruth.quantity order horder)
              (seen_learn_of_order horder) (htruth.within order horder)
      · show (if label.saved = true then _ else _ : FlattenRun).Accounted base total
        rw [if_neg hsave]
        exact hlearned
    · cases hstep

variable {start : ResidualLegExposure} {requested : OrderedMap Nat Nat} {refused : List Nat}

theorem Startable.accounted (h : Startable start requested refused) :
    (begin start requested refused).Accounted (baseOf start requested)
      (start.quantity + accountedAtStart start requested) := by
  have hown : valueAt (begin start requested refused).observed
      (residualFlattenAttempt start) = accountedAtStart start requested := by
    rw [begin]
    simp
  constructor
  · constructor
    · exact fun n => Nat.le_refl _
    · intro n hn
      show valueAt (OrderedMap.set ∅ _ _) n = 0
      rw [valueAt_set]
      by_cases hsame : n = residualFlattenAttempt start
      · rw [if_pos hsame]
        exact h.unposted (hsame ▸ hn)
      · rw [if_neg hsame, valueAt_empty]
    · intro n
      show 0 + baseOf start requested n = valueAt (OrderedMap.set ∅ _ _) n
      rw [valueAt_set, Nat.zero_add, baseOf, valueAt_empty]
    · exact fun n => le_refl 0
  · show start.quantity + OrderedMap.tally _ (OrderedMap.set ∅ _ _) = _
    rw [OrderedMap.tally_set_new OrderedMap.get?_empty, OrderedMap.tally_empty, Nat.zero_add]
  · intro row hrow
    obtain rfl := Option.some.inj hrow
    constructor
    · exact h.outstanding
    · rw [hown]
      refine h.watermarks.imp (fun ⟨hw, hc⟩ => ⟨hw, hc, rfl⟩) fun ⟨w, c, hw, hc⟩ => ?_
      refine ⟨c, ?_, hc, Int.natCast_nonneg c, Int.natCast_nonneg c⟩
      rw [accountedAtStart, hw]
      rfl
    · rw [hown]
      exact h.own
    · rw [hown]
      exact h.unused
    · intro m hm
      refine ⟨?_, rfl, h.later m hm⟩
      show valueAt (OrderedMap.set ∅ _ _) m = 0
      rw [valueAt_set, if_neg (Nat.ne_of_gt hm), valueAt_empty]

/-- Over every run of passes, saved or replayed, what has left the row is what the broker has
filled under its identities beyond what the row had accounted. Each fill is credited once,
and no identity is billed more than the highest estimate of its cumulative charge. -/
theorem residual_accounted_once (keyPrefix : String) (start : ResidualLegExposure)
    (requested : OrderedMap Nat Nat) (refused : List Nat) (labels : List FlattenLabel)
    (s : FlattenRun) (hstart : Startable start requested refused)
    (hrun : run (FlattenRun.step keyPrefix) (begin start requested refused) labels = some s) :
    s.remaining ≤ start.quantity ∧
      s.observed.tally (fun _ filled => filled) =
        start.quantity - s.remaining + accountedAtStart start requested ∧
      (∀ n, valueAt s.credited n + baseOf start requested n = valueAt s.observed n) ∧
      ∀ n, valueAt s.billed n ≤ valueAt s.estimated n := by
  have haccounted : s.Accounted (baseOf start requested)
      (start.quantity + accountedAtStart start requested) :=
    run_invariant (fun _ _ _ h hstep => h.step hstep) hstart.accounted hrun
  have htotal := haccounted.total
  have hown := haccounted.booked.credited (residualFlattenAttempt start)
  rw [baseOf, if_pos rfl] at hown
  have hle := valueAt_le_total s.observed (residualFlattenAttempt start)
  exact ⟨by omega, by omega, haccounted.booked.credited, haccounted.booked.billed⟩

namespace Sample

/-- A sold leg of one lot that is to be bought back. -/
def leg : ResidualLegExposure where
  token := 11
  tradingsymbol := "K2CE"
  exchange := some "NFO"
  role := .k2Ce
  side := .buy
  quantity := 75
  createdAt := 0

/-- The order of an identity. -/
def snapshot (quantity : Nat) (state : BoxOrderIntentState) (filled : Nat) : BrokerOrder where
  clientOrderId := "R"
  brokerOrderId := some "1"
  tag := none
  exchange := "NFO"
  tradingsymbol := "K2CE"
  token := 11
  side := .buy
  quantity := quantity
  state := state
  filledQuantity := filled
  lastFillId := none
  rejectReason := none

/-- A pass whose submission returns an order, priced at one paisa a unit. -/
def pass (order : BrokerOrder) (saved : Bool) : FlattenLabel where
  answers := ⟨fun _ => .ok none, none, .ok order⟩
  estimate := some
  saved := saved

/-- A pass is lost and replayed, its order is cancelled with more filled, and what is left
goes under the next identity. -/
def passes : List FlattenLabel :=
  [pass (snapshot 75 .open 25) false, pass (snapshot 75 .open 25) true,
    pass (snapshot 75 .cancelled 40) true, pass (snapshot 35 .complete 35) true]

theorem startable_leg : Startable leg ∅ [] where
  outstanding := by decide
  watermarks := .inl ⟨rfl, rfl⟩
  own := nofun
  unused := fun _ => rfl
  later := nofun
  unposted := nofun

/-- The leg once two thirds of its order are filled and accounted. -/
def worked : ResidualLegExposure :=
  { leg with
    quantity := 25
    flattenAttempt := some 1
    flattenAccountedFilled := some 50
    flattenAccountedCharges := some 50 }

end Sample

theorem residual_accounted_once_sample :
    ∃ s, run (FlattenRun.step "P") (begin Sample.leg ∅ []) Sample.passes = some s ∧
      s.remaining = 0 ∧ s.observed.tally (fun _ filled => filled) = 75 ∧
      ∀ n, valueAt s.billed n ≤ valueAt s.estimated n := by
  have hend : (run (FlattenRun.step "P") (begin Sample.leg ∅ []) Sample.passes).map
      (·.remaining) = some 0 := by decide +kernel
  obtain ⟨s, hrun, hremaining⟩ := Option.map_eq_some_iff.mp hend
  obtain ⟨-, htotal, -, hbilled⟩ :=
    residual_accounted_once "P" Sample.leg ∅ [] Sample.passes s Sample.startable_leg hrun
  exact ⟨s, hrun, hremaining, by rw [htotal, hremaining]; rfl, hbilled⟩

/-- The fills a starting row has accounted before are not part of its quantity. -/
theorem watermark_not_in_quantity :
    ∃ s, Startable Sample.worked (OrderedMap.set ∅ 1 75) [] ∧
      run (FlattenRun.step "P") (begin Sample.worked (OrderedMap.set ∅ 1 75) [])
        [Sample.pass (Sample.snapshot 75 .complete 75) true] = some s ∧
      s.remaining = 0 ∧
      s.observed.tally (fun _ filled => filled) ≠ Sample.worked.quantity - s.remaining := by
  have hstart : Startable Sample.worked (OrderedMap.set ∅ 1 75) [] := by
    refine ⟨by decide, .inr ⟨50, 50, rfl, rfl⟩, by decide, by decide, fun n hn q hq => ?_,
      nofun⟩
    have hother : n ≠ 1 := Nat.ne_of_gt hn
    rw [OrderedMap.get?_set, if_neg hother] at hq
    cases hq
  have hend : (run (FlattenRun.step "P") (begin Sample.worked (OrderedMap.set ∅ 1 75) [])
      [Sample.pass (Sample.snapshot 75 .complete 75) true]).map
      (fun s => (s.remaining, s.observed.tally fun _ filled => filled)) = some (0, 75) := by
    decide +kernel
  obtain ⟨s, hrun, hvalues⟩ := Option.map_eq_some_iff.mp hend
  obtain ⟨hremaining, htotal⟩ := Prod.mk.inj hvalues
  refine ⟨s, hstart, hrun, hremaining, ?_⟩
  rw [htotal, hremaining]
  decide

end FlattenRun

end Strikedge.ExecutionGateway
