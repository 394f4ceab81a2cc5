import Strikedge.ExecutionGateway.ResidualProjection

/-!
# What a pass does to a leg

A pass rewrites the generation and the two watermarks of every leg it leaves. The canonical
form of a row has no watermarks. Here a leg of a pass is classified from its row and its
order: the pass progresses on it, which its canonical form or its charge shows, or the leg
stays where it is, and then the row the pass leaves is the row before it only where that
row was marked already.
-/

namespace Strikedge.ExecutionGateway

open Machine Orders

namespace ResidualFlattenPass

variable (estimate : Nat → Option Nat) (pass : ResidualFlattenPass)

/-- The watermarks of the row, when it carries the generation of the pass. -/
def watermarks : Option Int × Option Int :=
  if pass.attempt = residualFlattenAttempt pass.residual then
    (pass.residual.flattenAccountedFilled, pass.residual.flattenAccountedCharges)
  else (none, none)

/-- Both watermarks can be read. -/
def Valid : Prop :=
  (pass.watermarks.1.any (0 ≤ ·) && pass.watermarks.2.any (0 ≤ ·)) = true

/-- The row has no watermarks for the generation. -/
def Legacy : Prop := pass.watermarks.1 = none ∧ pass.watermarks.2 = none

instance : Decidable pass.Valid := inferInstanceAs (Decidable (_ = _))

instance : Decidable pass.Legacy := inferInstanceAs (Decidable (_ ∧ _))

/-- What is accounted under the identity before the pass: by the watermarks or, where there
are none, by what the quantity of the order has over the residual. -/
def accountedBefore : Nat × Int :=
  match pass.order with
  | none => ((readableWatermark pass.watermarks.1).toNat, readableWatermark pass.watermarks.2)
  | some order =>
      if pass.Legacy then
        let filled := order.quantity - pass.residual.quantity
        (filled, residualCumulativeCharges estimate filled 0)
      else ((readableWatermark pass.watermarks.1).toNat, readableWatermark pass.watermarks.2)

/-- The fill of the order lies within what is accounted and what is outstanding. -/
def Fits (order : BrokerOrder) : Prop :=
  (pass.accountedBefore estimate).1 ≤ order.filledQuantity ∧
    order.filledQuantity ≤ order.quantity ∧
    order.filledQuantity ≤ (pass.accountedBefore estimate).1 + pass.residual.quantity

/-- The order has filled or cost more than is accounted. -/
def Gains (order : BrokerOrder) : Prop :=
  (pass.accountedBefore estimate).1 < order.filledQuantity ∨
    (pass.accountedBefore estimate).2 <
      residualCumulativeCharges estimate order.filledQuantity (pass.accountedBefore estimate).2

instance (order : BrokerOrder) : Decidable (pass.Fits estimate order) :=
  inferInstanceAs (Decidable (_ ∧ _ ∧ _))

instance (order : BrokerOrder) : Decidable (pass.Gains estimate order) :=
  inferInstanceAs (Decidable (_ ∨ _))

/-- Neither the row nor the order is quarantined. -/
def Trusted : Prop := (pass.Legacy ∨ pass.Valid) ∧ ∀ order ∈ pass.order, pass.Fits estimate order

instance : Decidable (pass.Trusted estimate) := inferInstanceAs (Decidable (_ ∧ _))

/-- The pass progresses on its leg: nothing was outstanding, the generation moves, or a fill
or a charge is accounted that was not. -/
def Progresses : Prop :=
  pass.residual.quantity = 0 ∨ (pass.attempt : Int) ≠ pass.residual.flattenAttempt.getD 1 ∨
    pass.Trusted estimate ∧
      (pass.disposition = .retireAttempt ∨ ∃ order ∈ pass.order, pass.Gains estimate order)

instance : Decidable (pass.Progresses estimate) :=
  inferInstanceAs (Decidable (_ ∨ _ ∨ _ ∧ (_ ∨ _)))

/-- The row carries its generation and its watermarks already, or no watermarks and the pass
has seen no order. -/
def Marked : Prop :=
  pass.residual.flattenAttempt = some (pass.attempt : Int) ∧
    (pass.residual.flattenAccountedFilled.any (0 ≤ ·) ∧
        pass.residual.flattenAccountedCharges.any (0 ≤ ·) ∨
      pass.residual.flattenAccountedFilled = none ∧
        pass.residual.flattenAccountedCharges = none ∧ pass.order = none)

instance : Decidable pass.Marked := inferInstanceAs (Decidable (_ ∧ (_ ∧ _ ∨ _ ∧ _ ∧ _)))

end ResidualFlattenPass

section Account

variable {keyPrefix : String} {estimate : Nat → Option Nat} {pass : ResidualFlattenPass}
  {order : BrokerOrder} {accounted : Nat × Int}

theorem readableWatermark_nonneg (raw : Option Int) : 0 ≤ readableWatermark raw :=
  Int.le_max_left 0 _

/-- A watermark that can be read is read as it is. -/
theorem some_readableWatermark_iff {raw : Option Int} :
    some (readableWatermark raw) = raw ↔ raw.any (0 ≤ ·) = true := by
  cases raw with
  | none => simp
  | some w =>
      show some (max 0 w) = some w ↔ decide (0 ≤ w) = true
      rw [Option.some.injEq, decide_eq_true_iff]
      omega

/-- The account leaves the books alone and the identity where it is. -/
structure PassAccount.Quarantines (account : PassAccount) (accounted : Nat × Int) : Prop where
  fillDelta : account.fillDelta = 0
  chargeDelta : account.chargeDelta = 0
  disposition : account.disposition = .adoptAttempt
  accounting : account.accounting = ⟨some (accounted.1 : Int), some accounted.2⟩

variable (keyPrefix) in
theorem orderAccount_of_fits (h : accounted.1 ≤ order.filledQuantity ∧
    order.filledQuantity ≤ order.quantity ∧
    order.filledQuantity ≤ accounted.1 + pass.residual.quantity) :
    orderAccount keyPrefix estimate pass order accounted.1 accounted.2 =
      creditedAccount estimate pass order accounted.1 accounted.2 := by
  have hregular : ¬ ((order.filledQuantity : Int) < accounted.1 ∨
      order.quantity < order.filledQuantity) := by omega
  have hdelta : ((order.filledQuantity : Int) - accounted.1).toNat =
      order.filledQuantity - accounted.1 := by omega
  rw [orderAccount, if_neg hregular, if_neg (by omega), hdelta]
  rfl

variable (keyPrefix) in
theorem orderAccount_of_not_fits (h : ¬ (accounted.1 ≤ order.filledQuantity ∧
    order.filledQuantity ≤ order.quantity ∧
    order.filledQuantity ≤ accounted.1 + pass.residual.quantity)) :
    (orderAccount keyPrefix estimate pass order accounted.1 accounted.2).Quarantines
      accounted := by
  by_cases hregression : (order.filledQuantity : Int) < accounted.1 ∨
      order.quantity < order.filledQuantity
  · rw [orderAccount, if_pos (.inl hregression)]
    exact ⟨rfl, rfl, rfl, rfl⟩
  · have hover : (pass.residual.quantity : Int) < order.filledQuantity - accounted.1 := by omega
    rw [orderAccount, if_neg hregression, if_pos (.inr hover)]
    exact ⟨rfl, rfl, rfl, rfl⟩

theorem watermarks_fst : pass.watermarks.1 =
    if pass.attempt = residualFlattenAttempt pass.residual then
      pass.residual.flattenAccountedFilled
    else none := by
  rw [ResidualFlattenPass.watermarks]
  split <;> rfl

theorem watermarks_snd : pass.watermarks.2 =
    if pass.attempt = residualFlattenAttempt pass.residual then
      pass.residual.flattenAccountedCharges
    else none := by
  rw [ResidualFlattenPass.watermarks]
  split <;> rfl

variable (keyPrefix estimate) in
theorem accountPass_of_legacy_order (h : pass.Legacy) (horder : pass.order = some order) :
    accountPass keyPrefix estimate pass =
      orderAccount keyPrefix estimate pass order (pass.accountedBefore estimate).1
        (pass.accountedBefore estimate).2 := by
  have hbefore : pass.accountedBefore estimate =
      (order.quantity - pass.residual.quantity,
        residualCumulativeCharges estimate (order.quantity - pass.residual.quantity) 0) := by
    rw [ResidualFlattenPass.accountedBefore.eq_def, horder]
    exact if_pos h
  rw [accountPass]
  dsimp only
  rw [← watermarks_fst, ← watermarks_snd, h.1, h.2, hbefore, horder]

variable (keyPrefix estimate) in
theorem accountPass_of_legacy_alone (h : pass.Legacy) (horder : pass.order = none) :
    accountPass keyPrefix estimate pass =
      { disposition := pass.disposition, accounting := ⟨none, none⟩ } := by
  rw [accountPass]
  dsimp only
  rw [← watermarks_fst, ← watermarks_snd, h.1, h.2, horder]

/-- Watermarks that are there tell what is accounted. -/
theorem accountedBefore_of_watermarks (h : ¬ pass.Legacy) :
    pass.accountedBefore estimate =
      ((readableWatermark pass.watermarks.1).toNat, readableWatermark pass.watermarks.2) := by
  rw [ResidualFlattenPass.accountedBefore.eq_def]
  split
  · rfl
  · rw [if_neg h]

variable (keyPrefix estimate) in
/-- The account of a pass whose row has watermarks. -/
theorem accountPass_of_not_legacy (h : ¬ pass.Legacy) :
    accountPass keyPrefix estimate pass =
      if pass.Valid then
        match pass.order with
        | none =>
            { disposition := pass.disposition
              accounting := ⟨some ((pass.accountedBefore estimate).1 : Int),
                some (pass.accountedBefore estimate).2⟩ }
        | some order => orderAccount keyPrefix estimate pass order
            (pass.accountedBefore estimate).1 (pass.accountedBefore estimate).2
      else
        { disposition := .adoptAttempt
          accounting := ⟨some ((pass.accountedBefore estimate).1 : Int),
            some (pass.accountedBefore estimate).2⟩
          violation := some <|
            s!"residual {keyPrefix} {pass.residual.role.text} attempt-{pass.attempt} has " ++
            "inconsistent cumulative accounting watermarks" } := by
  have hfilled : (((readableWatermark pass.watermarks.1).toNat : Nat) : Int) =
      readableWatermark pass.watermarks.1 := Int.toNat_of_nonneg (readableWatermark_nonneg _)
  rw [accountedBefore_of_watermarks h, hfilled, accountPass]
  dsimp only
  rw [← watermarks_fst, ← watermarks_snd]
  by_cases hvalid : pass.Valid
  · rw [if_pos hvalid]
    rw [ResidualFlattenPass.Valid] at hvalid
    generalize pass.watermarks = marks at hvalid ⊢
    obtain ⟨_ | w, c⟩ := marks
    · cases hvalid
    · dsimp only at hvalid ⊢
      rw [hvalid]
      rfl
  · rw [if_neg hvalid]
    rw [ResidualFlattenPass.Valid, Bool.not_eq_true] at hvalid
    rw [ResidualFlattenPass.Legacy] at h
    generalize pass.watermarks = marks at h hvalid ⊢
    obtain ⟨_ | w, _ | c⟩ := marks
    · exact absurd ⟨rfl, rfl⟩ h
    · rfl
    · dsimp only at hvalid ⊢
      rw [hvalid]
      rfl
    · dsimp only at hvalid ⊢
      rw [hvalid]
      rfl

/-- An order is accounted for in full or quarantined. -/
theorem accountPass_of_order {keyPrefix : String} (hmarks : pass.Legacy ∨ pass.Valid)
    (horder : pass.order = some order)
    (heq : accountPass keyPrefix estimate pass =
      orderAccount keyPrefix estimate pass order (pass.accountedBefore estimate).1
        (pass.accountedBefore estimate).2) :
    pass.Trusted estimate ∧
        accountPass keyPrefix estimate pass =
          creditedAccount estimate pass order (pass.accountedBefore estimate).1
            (pass.accountedBefore estimate).2 ∨
      ¬ pass.Trusted estimate ∧
        (accountPass keyPrefix estimate pass).Quarantines (pass.accountedBefore estimate) := by
  rw [heq]
  by_cases hfits : pass.Fits estimate order
  · refine .inl ⟨⟨hmarks, fun o ho => ?_⟩, orderAccount_of_fits keyPrefix hfits⟩
    obtain rfl : order = o := Option.some.inj (horder.symm.trans ho)
    exact hfits
  · exact .inr ⟨fun h => hfits (h.2 order horder), orderAccount_of_not_fits keyPrefix hfits⟩

/-- The account of a pass: of its row alone, of its order, or of nothing. -/
theorem accountPass_cases (keyPrefix : String) (estimate : Nat → Option Nat)
    (pass : ResidualFlattenPass) :
    (pass.Trusted estimate ∧ pass.order = none ∧
      accountPass keyPrefix estimate pass =
        { disposition := pass.disposition
          accounting := ⟨pass.watermarks.1, pass.watermarks.2⟩ }) ∨
    (∃ order, pass.Trusted estimate ∧ pass.order = some order ∧
      accountPass keyPrefix estimate pass = creditedAccount estimate pass order
        (pass.accountedBefore estimate).1 (pass.accountedBefore estimate).2) ∨
    (¬ pass.Trusted estimate ∧ ¬ (pass.Legacy ∧ pass.order = none) ∧
      (accountPass keyPrefix estimate pass).Quarantines (pass.accountedBefore estimate)) := by
  have halone (hmarks : pass.Legacy ∨ pass.Valid) (horder : pass.order = none) :
      pass.Trusted estimate := ⟨hmarks, fun o ho => by rw [horder] at ho; cases ho⟩
  cases horder : pass.order with
  | none =>
    by_cases hlegacy : pass.Legacy
    · refine .inl ⟨halone (.inl hlegacy) horder, rfl, ?_⟩
      rw [accountPass_of_legacy_alone keyPrefix estimate hlegacy horder, hlegacy.1, hlegacy.2]
    · by_cases hvalid : pass.Valid
      · refine .inl ⟨halone (.inr hvalid) horder, rfl, ?_⟩
        obtain ⟨hw, hc⟩ := Bool.and_eq_true_iff.mp hvalid
        rw [accountPass_of_not_legacy keyPrefix estimate hlegacy, if_pos hvalid, horder,
          accountedBefore_of_watermarks hlegacy, some_readableWatermark_iff.mpr hc,
          Int.toNat_of_nonneg (readableWatermark_nonneg _), some_readableWatermark_iff.mpr hw]
      · refine .inr (.inr ⟨fun h => h.1.elim hlegacy hvalid, fun h => hlegacy h.1, ?_⟩)
        rw [accountPass_of_not_legacy keyPrefix estimate hlegacy, if_neg hvalid]
        exact ⟨rfl, rfl, rfl, rfl⟩
  | some order =>
    have hsome : ¬ (pass.Legacy ∧ some order = none) := fun h => by cases h.2
    have heq : pass.Legacy ∨ pass.Valid → accountPass keyPrefix estimate pass =
        orderAccount keyPrefix estimate pass order (pass.accountedBefore estimate).1
          (pass.accountedBefore estimate).2 := by
      intro hmarks
      by_cases hlegacy : pass.Legacy
      · exact accountPass_of_legacy_order keyPrefix estimate hlegacy horder
      · rw [accountPass_of_not_legacy keyPrefix estimate hlegacy,
          if_pos (hmarks.resolve_left hlegacy), horder]
    by_cases hmarks : pass.Legacy ∨ pass.Valid
    · rcases accountPass_of_order hmarks horder (heq hmarks) with ⟨ht, h⟩ | ⟨ht, h⟩
      · exact .inr (.inl ⟨order, ht, rfl, h⟩)
      · exact .inr (.inr ⟨ht, hsome, h⟩)
    · obtain ⟨hlegacy, hvalid⟩ := not_or.mp hmarks
      refine .inr (.inr ⟨fun h => hmarks h.1, hsome, ?_⟩)
      rw [accountPass_of_not_legacy keyPrefix estimate hlegacy, if_neg hvalid]
      exact ⟨rfl, rfl, rfl, rfl⟩

end Account

section Leg

variable {keyPrefix : String} {estimate : Nat → Option Nat} {pass : ResidualFlattenPass}
  {row left : ResidualLegExposure} {account : PassAccount}

theorem canonicalLeg_carry {quantity attempt : Nat} {disposition : ResidualFlattenDisposition}
    {accounting : ResidualFlattenAccounting} :
    canonicalLeg (carryResidualForward row quantity attempt disposition accounting) =
      { canonicalLeg row with
        quantity := quantity
        flattenAttempt := if disposition = .retireAttempt then attempt + 1 else attempt } := by
  rw [carryResidualForward]
  split <;> rfl

theorem canonical_attempt_le (row : ResidualLegExposure) :
    (canonicalLeg row).flattenAttempt ≤ residualFlattenAttempt row := by
  rw [residualFlattenAttempt.eq_def]
  show row.flattenAttempt.getD 1 ≤ _
  cases row.flattenAttempt with
  | none => exact Int.le_refl 1
  | some raw =>
    show raw ≤ ((if (firstResidualFlattenAttempt : Int) ≤ raw then raw.toNat
      else firstResidualFlattenAttempt : Nat) : Int)
    rw [firstResidualFlattenAttempt]
    split
    · omega
    · omega

/-- A pass whose attempt is the one in the canonical form works the generation of its row. -/
theorem same_generation (hattempt : residualFlattenAttempt row ≤ pass.attempt)
    (h : (pass.attempt : Int) = row.flattenAttempt.getD 1) :
    pass.attempt = residualFlattenAttempt row := by
  have hle : row.flattenAttempt.getD 1 ≤ residualFlattenAttempt row := canonical_attempt_le row
  omega

variable (keyPrefix) in
/-- What moves in the books is what the pass progresses by. -/
theorem account_moves_iff :
    (0 < (accountPass keyPrefix estimate pass).fillDelta ∨
        0 < (accountPass keyPrefix estimate pass).chargeDelta ∨
        (accountPass keyPrefix estimate pass).disposition = .retireAttempt) ↔
      pass.Trusted estimate ∧
        (pass.disposition = .retireAttempt ∨ ∃ order ∈ pass.order, pass.Gains estimate order) := by
  rcases accountPass_cases keyPrefix estimate pass with
    ⟨htrusted, horder, heq⟩ | ⟨order, htrusted, horder, heq⟩ | ⟨huntrusted, -, h⟩
  · rw [heq, horder]
    simp [htrusted]
  · rw [heq, horder]
    have hfill : 0 < order.filledQuantity - (pass.accountedBefore estimate).1 ↔
        (pass.accountedBefore estimate).1 < order.filledQuantity := by omega
    have hcharge (a b : Int) : 0 < max 0 (a - b) ↔ b < a := by omega
    simp only [creditedAccount, hfill, hcharge, htrusted, true_and, Option.mem_some_iff,
      exists_eq_left', ResidualFlattenPass.Gains]
    tauto
  · rw [h.fillDelta, h.chargeDelta, h.disposition]
    simp [huntrusted]

/-- The leg the pass leaves, if its quantity is not flattened. -/
theorem remainingOf_eq :
    remainingOf pass account =
      if pass.residual.quantity - account.fillDelta = 0 then none
      else some <| carryResidualForward pass.residual (pass.residual.quantity - account.fillDelta)
        pass.attempt account.disposition account.accounting := rfl

/-- A leg only loses quantity and only gains generations. -/
theorem canonical_monotone (hattempt : residualFlattenAttempt pass.residual ≤ pass.attempt)
    (hleft : remainingOf pass account = some left) :
    (canonicalLeg left).quantity ≤ (canonicalLeg pass.residual).quantity ∧
      (canonicalLeg pass.residual).flattenAttempt ≤ (canonicalLeg left).flattenAttempt := by
  have hgen := canonical_attempt_le pass.residual
  rw [remainingOf_eq] at hleft
  split at hleft
  · cases hleft
  · obtain rfl := Option.some.inj hleft
    rw [canonicalLeg_carry]
    refine ⟨Nat.sub_le _ _, ?_⟩
    dsimp only
    split <;> omega

/-- A leg whose quantity and generation stay is canonically the same leg. -/
theorem canonical_eq (hleft : remainingOf pass account = some left)
    (hquantity : (canonicalLeg left).quantity = (canonicalLeg pass.residual).quantity)
    (hattempt : (canonicalLeg left).flattenAttempt = (canonicalLeg pass.residual).flattenAttempt) :
    canonicalLeg left = canonicalLeg pass.residual := by
  rw [remainingOf_eq] at hleft
  split at hleft
  · cases hleft
  · obtain rfl := Option.some.inj hleft
    rw [canonicalLeg_carry] at hquantity hattempt
    have hq : pass.residual.quantity - account.fillDelta =
        (canonicalLeg pass.residual).quantity := hquantity
    have ha : (if account.disposition = .retireAttempt then (pass.attempt : Int) + 1
        else pass.attempt) = (canonicalLeg pass.residual).flattenAttempt := hattempt
    rw [canonicalLeg_carry, hq, ha]

/-- The pass leaves the leg in its canonical place and bills nothing. -/
def Stays (keyPrefix : String) (estimate : Nat → Option Nat) (pass : ResidualFlattenPass) : Prop :=
  (∃ left, remainingOf pass (accountPass keyPrefix estimate pass) = some left ∧
    canonicalLeg left = canonicalLeg pass.residual) ∧
  ¬ 0 < (accountPass keyPrefix estimate pass).chargeDelta

/-- A leg stays where it is exactly when the pass does not progress on it. -/
theorem stays_iff (hattempt : residualFlattenAttempt pass.residual ≤ pass.attempt) :
    Stays keyPrefix estimate pass ↔ ¬ pass.Progresses estimate := by
  have hmoves := @account_moves_iff keyPrefix estimate pass
  rw [ResidualFlattenPass.Progresses, ← hmoves, Stays]
  generalize accountPass keyPrefix estimate pass = account
  have hgen : (canonicalLeg pass.residual).flattenAttempt ≤ _ := canonical_attempt_le pass.residual
  have hraw : (canonicalLeg pass.residual).flattenAttempt =
      pass.residual.flattenAttempt.getD 1 := rfl
  rw [hraw] at hgen
  constructor
  · rintro ⟨⟨left, hleft, hcanonical⟩, hcharge⟩
    rw [remainingOf_eq] at hleft
    split at hleft
    · cases hleft
    · next hout =>
      obtain rfl := Option.some.inj hleft
      rw [canonicalLeg_carry] at hcanonical
      have hquantity : pass.residual.quantity - account.fillDelta = pass.residual.quantity :=
        congrArg CanonicalLeg.quantity hcanonical
      have hattempt' : (if account.disposition = .retireAttempt then (pass.attempt : Int) + 1
          else pass.attempt) = pass.residual.flattenAttempt.getD 1 :=
        congrArg CanonicalLeg.flattenAttempt hcanonical
      have hkeeps : account.disposition ≠ .retireAttempt := by
        intro hretire
        rw [if_pos hretire] at hattempt'
        omega
      rw [if_neg hkeeps] at hattempt'
      rintro (hzero | hmoved | hfill | hbilled | hretire)
      · omega
      · exact hmoved hattempt'
      · omega
      · exact hcharge hbilled
      · exact hkeeps hretire
  · intro h
    simp only [not_or, Decidable.not_not] at h
    obtain ⟨hzero, hsame, hfill, hcharge, hkeeps⟩ := h
    refine ⟨⟨_, by rw [remainingOf_eq, if_neg (by omega)], ?_⟩, hcharge⟩
    have hquantity : pass.residual.quantity - account.fillDelta = pass.residual.quantity := by
      omega
    rw [canonicalLeg_carry, if_neg hkeeps, hquantity, hsame]
    rfl

theorem watermarks_of_same (h : pass.attempt = residualFlattenAttempt pass.residual) :
    pass.watermarks =
      (pass.residual.flattenAccountedFilled, pass.residual.flattenAccountedCharges) :=
  if_pos h

variable (keyPrefix) in
/-- What the account of a pass that gains nothing writes over the watermarks of its row. -/
theorem rewrites_watermarks (htame : ¬ (pass.Trusted estimate ∧
      (pass.disposition = .retireAttempt ∨ ∃ order ∈ pass.order, pass.Gains estimate order))) :
    (accountPass keyPrefix estimate pass).accounting.cumulativeFilled.or pass.watermarks.1 =
          pass.watermarks.1 ∧
        (accountPass keyPrefix estimate pass).accounting.cumulativeCharges.or pass.watermarks.2 =
          pass.watermarks.2 ↔
      pass.Valid ∨ pass.Legacy ∧ pass.order = none := by
  have hread : ¬ pass.Legacy →
      (some ((pass.accountedBefore estimate).1 : Int) = pass.watermarks.1 ∧
          some (pass.accountedBefore estimate).2 = pass.watermarks.2 ↔ pass.Valid) := by
    intro hlegacy
    rw [accountedBefore_of_watermarks hlegacy, Int.toNat_of_nonneg (readableWatermark_nonneg _),
      some_readableWatermark_iff, some_readableWatermark_iff, ResidualFlattenPass.Valid,
      Bool.and_eq_true]
  have hnone : pass.Legacy → ¬ pass.Valid := by
    intro hlegacy hvalid
    rw [ResidualFlattenPass.Valid, hlegacy.1] at hvalid
    cases hvalid
  rcases accountPass_cases keyPrefix estimate pass with
    ⟨htrusted, horder, heq⟩ | ⟨order, htrusted, horder, heq⟩ | ⟨-, hsome, h⟩
  · rw [heq]
    simp only [Option.or_self, horder, and_true, true_iff]
    exact htrusted.1.symm
  · obtain ⟨-, htame⟩ := not_or.mp fun h => htame ⟨htrusted, h⟩
    obtain ⟨hfilled, hcharges⟩ := not_or.mp fun h => htame ⟨order, horder, h⟩
    obtain ⟨hgrown, -, -⟩ := htrusted.2 order horder
    have hfilled : order.filledQuantity = (pass.accountedBefore estimate).1 := by omega
    rw [heq]
    show some (order.filledQuantity : Int) = _ ∧ some (max _ _) = _ ↔ _
    rw [Int.max_eq_left (by omega), hfilled, horder]
    by_cases hlegacy : pass.Legacy
    · simp [hlegacy.1, hnone hlegacy]
    · simp only [hread hlegacy, hlegacy, false_and, or_false]
  · rw [h.accounting]
    show some _ = _ ∧ some _ = _ ↔ _
    by_cases hlegacy : pass.Legacy
    · simp only [hlegacy.1, reduceCtorEq, false_and, false_iff, not_or]
      exact ⟨hnone hlegacy, hsome⟩
    · simp only [hread hlegacy, hlegacy, false_and, or_false]

/-- The row a pass leaves of a leg that stays is the row before it only where that row was
marked. -/
theorem left_eq_iff (hattempt : residualFlattenAttempt pass.residual ≤ pass.attempt)
    (h : ¬ pass.Progresses estimate)
    (hleft : remainingOf pass (accountPass keyPrefix estimate pass) = some left) :
    left = pass.residual ↔ pass.Marked := by
  obtain ⟨hzero, h⟩ := not_or.mp h
  obtain ⟨hmoved, htame⟩ := not_or.mp h
  have hsame : pass.attempt = residualFlattenAttempt pass.residual :=
    same_generation hattempt (Decidable.not_not.mp hmoved)
  have hrewrites := rewrites_watermarks keyPrefix htame
  obtain ⟨hfill, hstill⟩ := not_or.mp ((account_moves_iff keyPrefix).not.mpr htame)
  obtain ⟨-, hkeeps⟩ := not_or.mp hstill
  have hmarked : pass.Valid ∨ pass.Legacy ∧ pass.order = none ↔
      (pass.residual.flattenAccountedFilled.any (0 ≤ ·) ∧
          pass.residual.flattenAccountedCharges.any (0 ≤ ·) ∨
        pass.residual.flattenAccountedFilled = none ∧
          pass.residual.flattenAccountedCharges = none ∧ pass.order = none) := by
    rw [ResidualFlattenPass.Valid, ResidualFlattenPass.Legacy, watermarks_of_same hsame,
      Bool.and_eq_true, and_assoc]
  rw [watermarks_of_same hsame] at hrewrites
  rw [remainingOf_eq, Nat.eq_zero_of_not_pos hfill, Nat.sub_zero, if_neg hzero,
    carryResidualForward, if_neg hkeeps] at hleft
  obtain rfl := Option.some.inj hleft
  rw [ResidualFlattenPass.Marked, ← hmarked, ← hrewrites]
  constructor
  · intro heq
    exact ⟨(congrArg ResidualLegExposure.flattenAttempt heq).symm,
      congrArg ResidualLegExposure.flattenAccountedFilled heq,
      congrArg ResidualLegExposure.flattenAccountedCharges heq⟩
  · rintro ⟨hgeneration, hfilled, hcharges⟩
    rw [hfilled, hcharges, ← hgeneration]

end Leg

end Strikedge.ExecutionGateway
