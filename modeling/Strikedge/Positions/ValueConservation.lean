import Mathlib.Algebra.Group.Submonoid.BigOperators
import Mathlib.Algebra.Order.BigOperators.Group.List
import Strikedge.Positions.Conservation
import Strikedge.Positions.PartialExitPnl

/-!
# A partial exit conserves value

What the attempts have booked and what is marked add up to what the roles are worth against their
entry prices: the closed quantity at its fill prices, and the rest at the current marks. While
nothing is closed this is the gross P&L of the whole box.
-/

namespace Strikedge.Positions

open Machine Orders ExecutionGateway OrderPricing

theorem round2_of_mem {amount : ℚ} (h : amount ∈ paise) : round2 amount = amount := by
  obtain ⟨n, rfl⟩ := AddSubgroup.mem_zmultiples_iff.mp h
  have hwhole : n • (1 / 100 : ℚ) * 100 = (n : ℚ) := by
    rw [zsmul_eq_mul]
    ring
  rw [round2, hwhole, mathRound_intCast, zsmul_eq_mul]
  ring

theorem mul_mem_paise {amount quantity : ℚ} (h : amount ∈ paise) (hwhole : quantity.den = 1) :
    amount * quantity ∈ paise := by
  have hquantity : (quantity.num : ℚ) = quantity := (Rat.den_eq_one_iff quantity).mp hwhole
  rw [← hquantity, mul_comm, ← zsmul_eq_mul]
  exact zsmul_mem h quantity.num

theorem legPnl_mem {direction : BoxDirection} {role : BoxLegRole} {entryPrice price : ℚ}
    (hentry : entryPrice ∈ paise) (hprice : price ∈ paise) :
    legPnl direction role entryPrice price ∈ paise := by
  rw [legPnl]
  split
  · exact sub_mem hprice hentry
  · exact sub_mem hentry hprice

section Attempt

variable {pos : PricedPosition} {result : LeggingExitResult} {leg : BoxLegEvaluation}
variable {record : PaperLeggingExecutionRecord} {closing : Closing} {role : BoxLegRole}
variable {legs : List BoxLegEvaluation} {closings : List Closing} {acc : ClosedQuantity}

/-- What a closing earns against the entry. -/
def PricedPosition.earned (pos : PricedPosition) (closing : Closing) : ℚ :=
  legPnl pos.direction closing.role (pos.entryPrices closing.role) closing.price *
    closing.quantity

theorem closing?_eq_some (h : closing? record leg = some closing) :
    closing.role = leg.role ∧ closing.quantity = record.confirmed leg.role ∧
      0 < record.confirmed leg.role ∧ leg.price = some closing.price ∧ 0 < closing.price := by
  obtain ⟨price, hprice, hclosing⟩ := Option.bind_eq_some_iff.mp h
  split at hclosing
  case isTrue hpos =>
    obtain rfl := Option.some.inj hclosing
    exact ⟨rfl, rfl, hpos.2, hprice, hpos.1⟩
  case isFalse => exact nomatch hclosing

theorem addGross_eq (gross : ℚ) (leg : BoxLegEvaluation) :
    addGross pos record gross leg = gross + ((closing? record leg).map pos.earned).getD 0 := by
  rw [addGross, closing?]
  by_cases hclosed : record.confirmed leg.role ≤ 0
  case pos =>
    cases leg.price with
    | none => simp [hclosed]
    | some price => simp [hclosed, not_lt.mpr hclosed]
  case neg =>
    cases leg.price with
    | none => simp
    | some price =>
        by_cases hprice : 0 < price
        case pos => simp [hclosed, hprice, not_le.mp hclosed, PricedPosition.earned]
        case neg => simp [hprice]

/-- The loop over the closed legs adds up what they earned. -/
theorem addGross_foldl (gross : ℚ) (legs : List BoxLegEvaluation) :
    (legs.filter fun leg => 0 < record.confirmed leg.role).foldl (addGross pos record) gross =
      gross + ((legs.filterMap (closing? record)).map pos.earned).sum := by
  induction legs generalizing gross with
  | nil => simp
  | cons leg legs ih =>
      by_cases hfill : 0 < record.confirmed leg.role
      case pos =>
        rw [List.filter_cons_of_pos (by simpa using hfill), List.foldl_cons, ih, addGross_eq,
          List.filterMap_cons]
        cases closing? record leg with
        | none => simp
        | some closing => simp [add_assoc]
      case neg =>
        have hnone : closing? record leg = none := by
          rw [closing?]
          cases leg.price with
          | none => rfl
          | some price => simp [hfill]
        rw [List.filter_cons_of_neg (by simpa using hfill), ih, List.filterMap_cons, hnone]

theorem attemptGross_eq :
    attemptGross pos result = round2 ((result.closings.map pos.earned).sum) := by
  rw [attemptGross, LeggingExitResult.closedLegs, addGross_foldl, zero_add]
  rfl

theorem closeLeg_fills (pos : BoxOpenPosition) (acc : ClosedQuantity) (leg : BoxLegEvaluation)
    (role : BoxLegRole) :
    (closeLeg pos record acc leg).fills role =
      (closing? record leg).elim (acc.fills role) fun closing =>
        if role = closing.role then closing.quantity else acc.fills role := by
  rw [closeLeg, closing?]
  by_cases hclosed : record.confirmed leg.role ≤ 0
  case pos =>
    cases leg.price with
    | none => simp [hclosed]
    | some price => simp [hclosed, not_lt.mpr hclosed]
  case neg =>
    cases hprice : leg.price with
    | none => simp [hclosed, BoxLegEvaluation.priced, hprice]
    | some price =>
        by_cases hpos : 0 < price
        case pos =>
          simp [hclosed, BoxLegEvaluation.priced, hprice, hpos, not_le.mp hclosed,
            Function.update_apply]
        case neg => simp [hclosed, BoxLegEvaluation.priced, hprice, hpos]

theorem role_of_mem_closings {legs : List BoxLegEvaluation}
    (h : closing ∈ legs.filterMap (closing? record)) :
    closing.role ∈ legs.map (·.role) := by
  obtain ⟨leg, hleg, hclosing⟩ := List.mem_filterMap.mp h
  exact List.mem_map.mpr ⟨leg, hleg, (closing?_eq_some hclosing).1.symm⟩

theorem closedQty_eq_zero (h : ∀ closing ∈ closings, closing.role ≠ role) :
    closedQty closings role = 0 := by
  rw [closedQty, List.filter_eq_nil_iff.mpr (by simpa using h)]
  rfl

theorem closedQty_append (closings others : List Closing) (role : BoxLegRole) :
    closedQty (closings ++ others) role = closedQty closings role + closedQty others role := by
  rw [closedQty, List.filter_append, List.map_append, List.sum_append]
  rfl

/-- The fills the loop collects are the quantities that are closed. -/
theorem fills_closeLeg_foldl (pos : BoxOpenPosition) (hnodup : (legs.map (·.role)).Nodup)
    (hfree : ∀ leg ∈ legs, acc.fills leg.role = 0) (role : BoxLegRole) :
    ((legs.filter fun leg => 0 < record.confirmed leg.role).foldl
        (closeLeg pos record) acc).fills role =
      acc.fills role + closedQty (legs.filterMap (closing? record)) role := by
  induction legs generalizing acc with
  | nil => simp [closedQty]
  | cons leg legs ih =>
      obtain ⟨hleg, hrest⟩ : leg.role ∉ legs.map (·.role) ∧ (legs.map (·.role)).Nodup :=
        List.nodup_cons.mp hnodup
      have hfree' : ∀ other ∈ legs, acc.fills other.role = 0 := fun other hother =>
        hfree other (List.mem_cons_of_mem leg hother)
      by_cases hfill : 0 < record.confirmed leg.role
      case pos =>
        rw [List.filter_cons_of_pos (by simpa using hfill), List.foldl_cons]
        have hstill : ∀ other ∈ legs,
            (closeLeg pos record acc leg).fills other.role = 0 := by
          intro other hother
          rw [closeLeg_fills]
          cases hclosing : closing? record leg with
          | none => exact hfree' other hother
          | some closing =>
              have hne : other.role ≠ closing.role := by
                rw [(closing?_eq_some hclosing).1]
                exact fun heq => hleg (heq ▸ List.mem_map.mpr ⟨other, hother, rfl⟩)
              exact (if_neg hne).trans (hfree' other hother)
        rw [ih hrest hstill, closeLeg_fills, List.filterMap_cons]
        cases hclosing : closing? record leg with
        | none => rfl
        | some closing =>
            have hrole : closing.role = leg.role := (closing?_eq_some hclosing).1
            by_cases heq : role = closing.role
            case pos =>
              have hzero : closedQty (legs.filterMap (closing? record)) role = 0 := by
                refine closedQty_eq_zero fun other hother hsame => hleg ?_
                rw [← hrole, ← heq, ← hsame]
                exact role_of_mem_closings hother
              have hacc : acc.fills role = 0 := by
                rw [heq, hrole]
                exact hfree leg List.mem_cons_self
              have hcons : closedQty (closing :: legs.filterMap (closing? record)) role =
                  closing.quantity + closedQty (legs.filterMap (closing? record)) role := by
                simp [closedQty, heq]
              rw [hcons, hzero, hacc]
              simp [heq]
            case neg =>
              have hcons : closedQty (closing :: legs.filterMap (closing? record)) role =
                  closedQty (legs.filterMap (closing? record)) role := by
                simp [closedQty, Ne.symm heq]
              rw [hcons]
              simp [heq]
      case neg =>
        have hnone : closing? record leg = none := by
          rw [closing?]
          cases leg.price with
          | none => rfl
          | some price => simp [hfill]
        rw [List.filter_cons_of_neg (by simpa using hfill), ih hrest hfree', List.filterMap_cons,
          hnone]

/-- What is left of a role, and what the result closes of it, is what was open. -/
theorem closedQuantity_closings {pos : BoxOpenPosition}
    (hvalid : PositionMonitor.ValidFills pos result.record) (hpriced : result.Priced)
    (role : BoxLegRole) :
    ((closedQuantity pos result).remaining role : ℚ) + closedQty result.closings role =
      pos.remainingQtyByRole role := by
  have hfills : (closedQuantity pos result).fills role = closedQty result.closings role := by
    rw [closedQuantity, LeggingExitResult.closedLegs,
      fills_closeLeg_foldl pos hpriced.nodup fun _ _ => rfl]
    exact zero_add _
  rw [← hfills]
  exact (PositionMonitor.collected_closedQuantity hvalid).conserved role

theorem earned_mem {position : BoxOpenPosition} (hentry : ∀ role, pos.entryPrices role ∈ paise)
    (hvalid : PositionMonitor.ValidFills position result.record) (hpriced : result.Priced)
    (hclosing : closing ∈ result.closings) : pos.earned closing ∈ paise := by
  obtain ⟨leg, hleg, hsome⟩ := List.mem_filterMap.mp hclosing
  obtain ⟨-, hquantity, -, hprice, -⟩ := closing?_eq_some hsome
  refine mul_mem_paise (legPnl_mem (hentry _) (hpriced.pricePaise leg hleg _ hprice)) ?_
  rw [hquantity]
  exact (hvalid leg.role).1

theorem attemptGross_of_valid {position : BoxOpenPosition}
    (hentry : ∀ role, pos.entryPrices role ∈ paise)
    (hvalid : PositionMonitor.ValidFills position result.record) (hpriced : result.Priced) :
    attemptGross pos result = (result.closings.map pos.earned).sum ∧
      attemptGross pos result ∈ paise := by
  have hmem : (result.closings.map pos.earned).sum ∈ paise := by
    refine list_sum_mem fun amount hamount => ?_
    obtain ⟨closing, hclosing, rfl⟩ := List.mem_map.mp hamount
    exact earned_mem hentry hvalid hpriced hclosing
  rw [attemptGross_eq, round2_of_mem hmem]
  exact ⟨rfl, hmem⟩

end Attempt

section Sequence

variable {pos : PricedPosition} {attempt : ExitAttempt} {closings : List Closing}

theorem apply_direction (pos : PricedPosition) (attempt : ExitAttempt) :
    (pos.apply attempt).direction = pos.direction := by
  rw [PricedPosition.apply]
  split <;> rfl

theorem apply_quantity (pos : PricedPosition) (attempt : ExitAttempt) :
    (pos.apply attempt).quantity = pos.quantity := by
  rw [PricedPosition.apply]
  split <;> rfl

theorem foldl_apply_quantity (pos : PricedPosition) (attempts : List ExitAttempt) :
    (attempts.foldl PricedPosition.apply pos).quantity = pos.quantity := by
  induction attempts generalizing pos with
  | nil => rfl
  | cons attempt attempts ih => rw [List.foldl_cons, ih, apply_quantity]

theorem apply_entryPrices (pos : PricedPosition) (attempt : ExitAttempt) :
    (pos.apply attempt).entryPrices = pos.entryPrices := by
  rw [PricedPosition.apply]
  split <;> rfl

/-- What is booked behind the closings so far. -/
structure Booked (pos : PricedPosition) (closings : List Closing) : Prop where
  entry : ∀ role, pos.entryPrices role ∈ paise
  positive : ∀ closing ∈ closings, 0 < closing.quantity
  quantities : ∀ role,
    closedQty closings role + pos.position.remainingQtyByRole role = pos.quantity
  gross : (pos.grossPnl.map (·.getD 0)).sum = (closings.map pos.earned).sum
  grossPaise : (pos.grossPnl.map (·.getD 0)).sum ∈ paise

theorem PricedPosition.Whole.booked (h : pos.Whole) : Booked pos [] where
  entry := h.entryPaise
  positive := fun closing hclosing => nomatch hclosing
  quantities := fun role => by rw [h.remaining role, closedQty]; simp
  gross := by rw [h.attempts]; rfl
  grossPaise := by rw [h.attempts]; exact zero_mem paise

/-- What an attempt does to the quantities and what it books. -/
theorem apply_cases (pos : PricedPosition) (attempt : ExitAttempt) :
    ((pos.apply attempt).position.remainingQtyByRole = pos.position.remainingQtyByRole ∧
        appliedClosings pos attempt = [] ∧
        ((pos.apply attempt).grossPnl.map (·.getD 0)).sum =
          (pos.grossPnl.map (·.getD 0)).sum) ∨
      PositionMonitor.ValidFills pos.position attempt.result.record ∧
        (pos.apply attempt).position.remainingQtyByRole =
          (closedQuantity pos.position attempt.result).remaining ∧
        appliedClosings pos attempt = attempt.result.closings ∧
        ((pos.apply attempt).grossPnl.map (·.getD 0)).sum =
          (pos.grossPnl.map (·.getD 0)).sum + attemptGross pos attempt.result := by
  simp only [PricedPosition.apply, appliedClosings, applyLeggingExitResult]
  by_cases huncertain : attempt.result.uncertain attempt.live = true
  · rw [if_pos huncertain]
    exact .inl ⟨rfl, rfl, by simp⟩
  rw [if_neg huncertain]
  by_cases hempty : attempt.result.closedLegs.isEmpty = true
  · rw [if_pos hempty]
    exact .inl ⟨rfl, rfl, rfl⟩
  rw [if_neg hempty]
  by_cases hinvalid : (attempt.result.invalidRole pos.position).isSome = true
  · rw [if_pos hinvalid]
    exact .inl ⟨rfl, rfl, by simp⟩
  rw [if_neg hinvalid]
  have hvalid : PositionMonitor.ValidFills pos.position attempt.result.record :=
    PositionMonitor.validFills_of_none (by simpa using hinvalid)
  split_ifs
  · exact .inr ⟨hvalid, rfl, rfl, by simp⟩
  · exact .inr ⟨hvalid, rfl, rfl, by simp⟩

theorem apply_earned (pos : PricedPosition) (attempt : ExitAttempt) :
    (pos.apply attempt).earned = pos.earned := by
  funext closing
  rw [PricedPosition.earned, apply_direction, apply_entryPrices]
  rfl

theorem Booked.apply (h : Booked pos closings) (hpriced : attempt.result.Priced) :
    Booked (pos.apply attempt) (closings ++ appliedClosings pos attempt) := by
  refine ⟨?_, ?_, ?_, ?_, ?_⟩
  · rw [apply_entryPrices]
    exact h.entry
  · intro closing hclosing
    obtain hclosing | hclosing := List.mem_append.mp hclosing
    · exact h.positive closing hclosing
    · obtain ⟨-, hnone, -⟩ | ⟨-, -, hclosings, -⟩ := apply_cases pos attempt
      · rw [hnone] at hclosing
        exact nomatch hclosing
      · rw [hclosings] at hclosing
        obtain ⟨leg, -, hsome⟩ := List.mem_filterMap.mp hclosing
        obtain ⟨-, hquantity, hfill, -⟩ := closing?_eq_some hsome
        exact hquantity ▸ hfill
  · intro role
    rw [apply_quantity, ← h.quantities role]
    obtain ⟨hremaining, hnone, -⟩ | ⟨hvalid, hremaining, hclosings, -⟩ := apply_cases pos attempt
    · rw [hremaining, hnone, List.append_nil]
    · have hleft := closedQuantity_closings hvalid hpriced role
      rw [hremaining, hclosings, closedQty_append]
      linarith
  · rw [apply_earned, List.map_append, List.sum_append, ← h.gross]
    obtain ⟨-, hnone, hgross⟩ | ⟨hvalid, -, hclosings, hgross⟩ := apply_cases pos attempt
    · rw [hgross, hnone]
      simp
    · rw [hgross, hclosings, (attemptGross_of_valid h.entry hvalid hpriced).1]
  · obtain ⟨-, -, hgross⟩ | ⟨hvalid, -, -, hgross⟩ := apply_cases pos attempt
    · rw [hgross]
      exact h.grossPaise
    · rw [hgross]
      exact add_mem h.grossPaise (attemptGross_of_valid h.entry hvalid hpriced).2

theorem Booked.applyAll (h : Booked pos closings) {attempts : List ExitAttempt}
    (hpriced : ∀ attempt ∈ attempts, attempt.result.Priced) :
    Booked (attempts.foldl PricedPosition.apply pos) (closings ++ allClosings pos attempts) := by
  induction attempts generalizing pos closings with
  | nil => rwa [allClosings, List.append_nil]
  | cons attempt attempts ih =>
      have hhead := h.apply (hpriced attempt List.mem_cons_self)
      have htail := ih hhead fun other hother => hpriced other (List.mem_cons_of_mem _ hother)
      rwa [List.append_assoc] at htail

end Sequence

section Marking

variable {pos : PricedPosition} {quotes other : BoxLegRole → ExitQuote}
variable {charges : MarkCharges} {closings : List Closing} {role : BoxLegRole}

/-- Quotes in whole paise. -/
def PaiseQuotes (quotes : BoxLegRole → ExitQuote) : Prop :=
  ∀ role price, (quotes role).price = some price → price ∈ paise

/-- What is left of a role, at its mark. -/
def unrealised (pos : PricedPosition) (quotes : BoxLegRole → ExitQuote) (role : BoxLegRole) : ℚ :=
  legPnl pos.direction role (pos.entryPrices role) ((quotes role).price.getD 0) *
    pos.position.remainingQtyByRole role

theorem mark_leg_of_marked (hmarked : Marked pos quotes) (mark : Mark) (role : BoxLegRole) :
    mark.leg pos.direction pos.position.remainingQtyByRole pos.entryPrices
        (exitLeg pos.direction quotes role) =
      { mark with unrealised := mark.unrealised + unrealised pos quotes role } := by
  rw [Mark.leg, unrealised]
  by_cases hflat : pos.position.remainingQtyByRole role = 0
  case pos => simp [exitLeg, hflat]
  case neg =>
    obtain ⟨price, hprice, hpos⟩ := hmarked role (Nat.pos_of_ne_zero hflat)
    simp [exitLeg, hflat, hprice, hpos]

/-- The loop over the marks of some roles. -/
def PricedPosition.marks (pos : PricedPosition) (quotes : BoxLegRole → ExitQuote) (mark : Mark)
    (roles : List BoxLegRole) : Mark :=
  (roles.map (exitLeg pos.direction quotes)).foldl
    (Mark.leg pos.direction pos.position.remainingQtyByRole pos.entryPrices) mark

theorem mark_eq (pos : PricedPosition) (quotes : BoxLegRole → ExitQuote)
    (charges : MarkCharges) :
    pos.mark quotes charges =
      (pos.marks quotes {} boxLegRoles).figures (realisedExitGross pos) charges := rfl

theorem unrealisedGross_eq (pos : PricedPosition) (quotes : BoxLegRole → ExitQuote)
    (charges : MarkCharges) :
    (pos.mark quotes charges).unrealisedGross =
      if (pos.marks quotes {} boxLegRoles).markable then
        some (round2 (pos.marks quotes {} boxLegRoles).unrealised)
      else none := rfl

theorem gross_eq (pos : PricedPosition) (quotes : BoxLegRole → ExitQuote)
    (charges : MarkCharges) :
    (pos.mark quotes charges).gross = (pos.mark quotes charges).unrealisedGross.map
      fun unrealised => round2 (realisedExitGross pos + unrealised) := rfl

/-- The loop over the marks adds up what is left of each role. -/
theorem marks_of_marked (hmarked : Marked pos quotes) (mark : Mark) (roles : List BoxLegRole) :
    pos.marks quotes mark roles =
      { mark with unrealised := mark.unrealised + (roles.map (unrealised pos quotes)).sum } := by
  induction roles generalizing mark with
  | nil => simp [PricedPosition.marks]
  | cons role roles ih =>
      rw [PricedPosition.marks, List.map_cons, List.foldl_cons, mark_leg_of_marked hmarked]
      refine (ih _).trans ?_
      rw [List.map_cons, List.sum_cons, add_assoc]

theorem unrealised_mem (hentry : ∀ role, pos.entryPrices role ∈ paise) (hmarked : Marked pos quotes)
    (hquotes : PaiseQuotes quotes) (role : BoxLegRole) : unrealised pos quotes role ∈ paise := by
  rw [unrealised]
  by_cases hflat : pos.position.remainingQtyByRole role = 0
  case pos =>
    rw [hflat, Nat.cast_zero, mul_zero]
    exact zero_mem paise
  case neg =>
    obtain ⟨price, hprice, -⟩ := hmarked role (Nat.pos_of_ne_zero hflat)
    refine mul_mem_paise (legPnl_mem (hentry role) ?_) (Rat.den_natCast _)
    rw [hprice]
    exact hquotes role price hprice

/-- A box is markable when each role that is open has a price. -/
theorem markable_iff (mark : Mark) (roles : List BoxLegRole) :
    (pos.marks quotes mark roles).markable = true ↔
      mark.markable = true ∧ ∀ role ∈ roles, 0 < pos.position.remainingQtyByRole role →
        ∃ price, (quotes role).price = some price ∧ 0 < price := by
  induction roles generalizing mark with
  | nil => simp [PricedPosition.marks]
  | cons role roles ih =>
      rw [PricedPosition.marks, List.map_cons, List.foldl_cons]
      refine (ih _).trans ?_
      rw [List.forall_mem_cons, ← and_assoc]
      refine and_congr_left fun _ => ?_
      rw [Mark.leg]
      by_cases hflat : pos.position.remainingQtyByRole role = 0
      case pos => simp [exitLeg, hflat]
      case neg =>
        cases hprice : (quotes role).price with
        | none => simp [exitLeg, hflat, hprice, Nat.pos_of_ne_zero hflat]
        | some price =>
            by_cases hpos : 0 < price
            case pos => simp [exitLeg, hflat, hprice, hpos]
            case neg => simp [exitLeg, hflat, hprice, hpos, Nat.pos_of_ne_zero hflat]

/-- Two quotes of a role that is flat mark alike. -/
theorem marks_congr (hsame : ∀ role, 0 < pos.position.remainingQtyByRole role →
      other role = quotes role) (mark : Mark) (roles : List BoxLegRole) :
    pos.marks other mark roles = pos.marks quotes mark roles := by
  induction roles generalizing mark with
  | nil => rfl
  | cons role roles ih =>
      rw [PricedPosition.marks, PricedPosition.marks, List.map_cons, List.map_cons,
        List.foldl_cons, List.foldl_cons]
      by_cases hflat : pos.position.remainingQtyByRole role = 0
      case pos =>
        have hskip : ∀ leg : ExitLeg, leg.role = role →
            mark.leg pos.direction pos.position.remainingQtyByRole pos.entryPrices leg =
              mark := by
          intro leg hleg
          rw [Mark.leg, hleg, if_pos hflat]
        rw [hskip _ rfl, hskip _ rfl]
        exact ih mark
      case neg =>
        have hleg : exitLeg pos.direction other role = exitLeg pos.direction quotes role := by
          rw [exitLeg, hsame role (Nat.pos_of_ne_zero hflat)]
          rfl
        rw [hleg]
        exact ih _

/-- The closings of the roles together are all closings. -/
theorem sum_by_role (f : Closing → ℚ) (closings : List Closing) :
    (boxLegRoles.map fun role => ((closings.filter (·.role = role)).map f).sum).sum =
      (closings.map f).sum := by
  induction closings with
  | nil => simp
  | cons closing closings ih =>
      rw [List.map_cons, List.sum_cons, ← ih]
      obtain ⟨role, quantity, price⟩ := closing
      cases role <;> simp [boxLegRoles] <;> ring

theorem sum_roleWorth :
    (boxLegRoles.map (roleWorth pos closings quotes)).sum =
      (closings.map pos.earned).sum + (boxLegRoles.map (unrealised pos quotes)).sum := by
  have hrole : ∀ role, roleWorth pos closings quotes role =
      ((closings.filter (·.role = role)).map pos.earned).sum + unrealised pos quotes role := by
    intro role
    rw [roleWorth, unrealised]
    congr 2
    refine List.map_congr_left fun closing hclosing => ?_
    have hsame : closing.role = role := by simpa using (List.mem_filter.mp hclosing).2
    rw [PricedPosition.earned, hsame]
  rw [← sum_by_role, ← List.sum_map_add]
  exact congrArg List.sum (List.map_congr_left fun role _ => hrole role)

theorem unrealisedGross_of_marked (hbooked : Booked pos closings) (hmarked : Marked pos quotes)
    (hquotes : PaiseQuotes quotes) (charges : MarkCharges) :
    (pos.mark quotes charges).unrealisedGross =
        some (boxLegRoles.map (unrealised pos quotes)).sum ∧
      (pos.mark quotes charges).gross =
        some (realisedExitGross pos + (boxLegRoles.map (unrealised pos quotes)).sum) := by
  have hsum : (boxLegRoles.map (unrealised pos quotes)).sum ∈ paise := by
    refine list_sum_mem fun amount hamount => ?_
    obtain ⟨role, -, rfl⟩ := List.mem_map.mp hamount
    exact unrealised_mem hbooked.entry hmarked hquotes role
  have hrealised : realisedExitGross pos ∈ paise := by
    rw [realisedExitGross, round2_of_mem hbooked.grossPaise]
    exact hbooked.grossPaise
  have hmarks := marks_of_marked hmarked {} boxLegRoles
  have hunrealised : (pos.mark quotes charges).unrealisedGross =
      some (boxLegRoles.map (unrealised pos quotes)).sum := by
    rw [unrealisedGross_eq, hmarks, if_pos rfl, zero_add, round2_of_mem hsum]
  refine ⟨hunrealised, ?_⟩
  rw [gross_eq, hunrealised, Option.map_some, round2_of_mem (add_mem hrealised hsum)]

end Marking

section WholeBox

variable {pos : PricedPosition} {quotes : BoxLegRole → ExitQuote} {charges : MarkCharges}
variable {closings : List Closing} {legs : List ExitLeg}

/-- Every role has a price. -/
def AllPriced (quotes : BoxLegRole → ExitQuote) : Prop :=
  ∀ role, ∃ price, (quotes role).price = some price ∧ 0 < price

theorem mem_boxLegRoles (role : BoxLegRole) : role ∈ boxLegRoles := by
  cases role <;> decide

theorem closedQty_nonneg (hpositive : ∀ closing ∈ closings, 0 < closing.quantity)
    (role : BoxLegRole) : 0 ≤ closedQty closings role := by
  refine List.sum_nonneg fun quantity hquantity => ?_
  obtain ⟨closing, hclosing, rfl⟩ := List.mem_map.mp hquantity
  exact (hpositive closing (List.mem_of_mem_filter hclosing)).le

/-- A box of which nothing is missing has closed nothing. -/
theorem Booked.closings_eq_nil (h : Booked pos closings) (hwhole : isPartialBox pos = false) :
    closings = [] ∧ ∀ role, pos.position.remainingQtyByRole role = pos.quantity := by
  have hzero : ∀ role, closedQty closings role = 0 ∧
      pos.position.remainingQtyByRole role = pos.quantity := by
    intro role
    have hopen : pos.quantity ≤ pos.position.remainingQtyByRole role := by
      simpa using List.any_eq_false.mp hwhole role (mem_boxLegRoles role)
    have hcast : (pos.quantity : ℚ) ≤ pos.position.remainingQtyByRole role := by
      exact_mod_cast hopen
    have hnonneg := closedQty_nonneg h.positive role
    have hquantity := h.quantities role
    have hclosed : closedQty closings role = 0 := by linarith
    rw [hclosed, zero_add] at hquantity
    exact ⟨hclosed, by exact_mod_cast hquantity⟩
  refine ⟨List.eq_nil_iff_forall_not_mem.mpr fun closing hclosing => ?_, fun role =>
    (hzero role).2⟩
  have hle : closing.quantity ≤ closedQty closings closing.role := by
    refine List.single_le_sum (fun quantity hquantity => ?_) _ (List.mem_map.mpr
      ⟨closing, List.mem_filter.mpr ⟨hclosing, by simp⟩, rfl⟩)
    obtain ⟨other, hother, rfl⟩ := List.mem_map.mp hquantity
    exact (h.positive other (List.mem_of_mem_filter hother)).le
  rw [(hzero closing.role).1] at hle
  exact absurd (h.positive closing hclosing) (not_lt.mpr hle)

theorem exitNetCredit_eq_none (credit : ℚ)
    (h : ∃ leg ∈ legs, ∀ price, leg.price = some price → ¬ 0 < price) :
    exitNetCredit credit legs = none := by
  induction legs generalizing credit with
  | nil => simp at h
  | cons leg legs ih =>
      rw [exitNetCredit]
      cases hprice : leg.price with
      | none => rfl
      | some price =>
          by_cases hpos : 0 < price
          case pos =>
            obtain ⟨other, hother, hunpriced⟩ := h
            obtain rfl | hother := List.mem_cons.mp hother
            · exact absurd hpos (hunpriced price hprice)
            · simp only [if_pos hpos]
              exact ih _ ⟨other, hother, hunpriced⟩
          case neg => simp only [if_neg hpos]

/-- The credit of four priced legs. -/
theorem exitNetCreditPerUnit_eq (direction : BoxDirection) (hpriced : AllPriced quotes) :
    exitNetCreditPerUnit (evaluateExitLegs direction quotes) =
      some (round2 (boxLegRoles.map fun role =>
        debitSign (boxEntrySide direction role) * (quotes role).price.getD 0).sum) := by
  obtain ⟨p1, h1, hpos1⟩ := hpriced .k1Ce
  obtain ⟨p2, h2, hpos2⟩ := hpriced .k2Ce
  obtain ⟨p3, h3, hpos3⟩ := hpriced .k2Pe
  obtain ⟨p4, h4, hpos4⟩ := hpriced .k1Pe
  cases direction <;>
    simp [exitNetCreditPerUnit, evaluateExitLegs, boxLegRoles, exitNetCredit, exitLeg, h1, h2, h3,
      h4, hpos1, hpos2, hpos3, hpos4, exitSideFor, boxEntrySide, debitSign] <;>
    ring_nf

theorem debitSign_mul_mem {side : OrderSide} {amount : ℚ} (h : amount ∈ paise) :
    debitSign side * amount ∈ paise := by
  cases side with
  | buy => simpa [debitSign] using h
  | sell => simpa [debitSign] using h

theorem sum_debitSign_mem {direction : BoxDirection} {amount : BoxLegRole → ℚ}
    (h : ∀ role, amount role ∈ paise) :
    (boxLegRoles.map fun role => debitSign (boxEntrySide direction role) * amount role).sum ∈
      paise := by
  refine list_sum_mem fun signed hsigned => ?_
  obtain ⟨role, -, rfl⟩ := List.mem_map.mp hsigned
  exact debitSign_mul_mem (h role)

/-- The whole box earns what its roles earn. -/
theorem sum_unrealised_whole (hremaining : ∀ role,
      pos.position.remainingQtyByRole role = pos.quantity) :
    (boxLegRoles.map (unrealised pos quotes)).sum =
      ((boxLegRoles.map fun role =>
          debitSign (boxEntrySide pos.direction role) * (quotes role).price.getD 0).sum -
        impliedNetDebit pos) * pos.quantity := by
  rw [impliedNetDebit]
  cases hdirection : pos.direction <;>
    simp [boxLegRoles, unrealised, legPnl, boxEntrySide, debitSign, hremaining, hdirection] <;>
    ring

theorem grossPnl_whole (hbooked : Booked pos closings) (hlot : 0 < pos.quantity)
    (hwhole : isPartialBox pos = false) (hquotes : PaiseQuotes quotes)
    {args : ExitDecisionArgs} (hsize : args.lotSize = pos.quantity)
    (hdebit : args.entryNetDebitPerUnit = impliedNetDebit pos)
    (hlegs : args.legs = evaluateExitLegs pos.direction quotes) :
    (evaluateExitDecision args).grossPnl = (pos.mark quotes charges).gross := by
  obtain ⟨hnil, hremaining⟩ := hbooked.closings_eq_nil hwhole
  have hdecision : (evaluateExitDecision args).grossPnl =
      (exitNetCreditPerUnit (evaluateExitLegs pos.direction quotes)).map fun credit =>
        round2 ((credit - impliedNetDebit pos) * pos.quantity) := by
    rw [← hlegs, ← hdebit, ← hsize]
    rfl
  rw [hdecision]
  by_cases hpriced : AllPriced quotes
  case pos =>
    have hmarked : Marked pos quotes := fun role _ => hpriced role
    have hrealised : realisedExitGross pos = 0 := by
      rw [realisedExitGross, hbooked.gross, hnil]
      exact round2_of_mem (zero_mem paise)
    have hcredit : (boxLegRoles.map fun role =>
        debitSign (boxEntrySide pos.direction role) * (quotes role).price.getD 0).sum ∈ paise := by
      refine sum_debitSign_mem fun role => ?_
      obtain ⟨price, hprice, -⟩ := hpriced role
      rw [hprice]
      exact hquotes role price hprice
    have hdebit : impliedNetDebit pos ∈ paise := sum_debitSign_mem hbooked.entry
    have hworth := mul_mem_paise (sub_mem hcredit hdebit) (Rat.den_natCast pos.quantity)
    rw [(unrealisedGross_of_marked hbooked hmarked hquotes charges).2, hrealised, zero_add,
      sum_unrealised_whole hremaining, exitNetCreditPerUnit_eq pos.direction hpriced,
      Option.map_some, round2_of_mem hcredit, round2_of_mem hworth]
  case neg =>
    obtain ⟨role, hrole⟩ := not_forall.mp hpriced
    have hunpriced : ∀ price, (quotes role).price = some price → ¬ 0 < price :=
      fun price hprice hpos => hrole ⟨price, hprice, hpos⟩
    have hcredit : exitNetCreditPerUnit (evaluateExitLegs pos.direction quotes) = none :=
      exitNetCredit_eq_none 0 ⟨exitLeg pos.direction quotes role,
        List.mem_map.mpr ⟨role, mem_boxLegRoles role, rfl⟩, hunpriced⟩
    have hmarkable : ¬ (pos.marks quotes {} boxLegRoles).markable = true := by
      intro hmarkable
      have hopen : 0 < pos.position.remainingQtyByRole role := by
        rw [hremaining]
        exact hlot
      exact hrole (((markable_iff {} boxLegRoles).mp hmarkable).2 role (mem_boxLegRoles role) hopen)
    rw [hcredit, gross_eq, unrealisedGross_eq, if_neg hmarkable]
    rfl

end WholeBox

/-- Behind any sequence of attempts, what was booked and what is marked add up to what the roles
are worth against their entry. -/
theorem partial_exit_conserves_value (pos : PricedPosition) (hwhole : pos.Whole)
    (attempts : List ExitAttempt) (hpriced : ∀ attempt ∈ attempts, attempt.result.Priced)
    (quotes : BoxLegRole → ExitQuote) (hquotes : PaiseQuotes quotes) (charges : MarkCharges) :
    Conserves (attempts.foldl PricedPosition.apply pos) (allClosings pos attempts) quotes
      charges := by
  have hbooked := hwhole.booked.applyAll hpriced
  have hlot : 0 < (attempts.foldl PricedPosition.apply pos).quantity := by
    rw [foldl_apply_quantity]
    exact hwhole.lot
  rw [List.nil_append] at hbooked
  generalize attempts.foldl PricedPosition.apply pos = s at hbooked hlot ⊢
  generalize allClosings pos attempts = closings at hbooked ⊢
  have hrealised : realisedExitGross s = (closings.map s.earned).sum := by
    rw [realisedExitGross, round2_of_mem hbooked.grossPaise, hbooked.gross]
  refine ⟨hbooked.quantities, fun hmarked => ?_, fun other hsame => ?_, fun hflat => ?_, ?_⟩
  · obtain ⟨hunrealised, hgross⟩ := unrealisedGross_of_marked hbooked hmarked hquotes charges
    refine ⟨_, hunrealised, hgross, ?_⟩
    rw [hrealised, sum_roleWorth]
  · rw [mark_eq, mark_eq, marks_congr hsame]
  · have hzero : ∀ role, s.position.remainingQtyByRole role = 0 := by
      intro role
      simpa using List.all_eq_true.mp hflat role (mem_boxLegRoles role)
    have hmarked : Marked s quotes := by
      intro role hopen
      rw [hzero] at hopen
      exact absurd hopen (lt_irrefl 0)
    rw [(unrealisedGross_of_marked hbooked hmarked hquotes charges).2, realisedExitGross,
      round2_of_mem hbooked.grossPaise]
    simp [boxLegRoles, unrealised, hzero]
  · intro hwhole args _ hsize hdebit hlegs
    exact grossPnl_whole hbooked hlot hwhole hquotes hsize hdebit hlegs

namespace PartialExitSample

open PositionMonitor.Sample

/-- One lot of a long box. -/
def pricedBox : PricedPosition where
  position := wholeBox
  direction := .longBox
  quantity := 75
  entryPrices := fun role =>
    match role with
    | .k1Ce => 120
    | .k2Ce => 60
    | .k2Pe => 110
    | .k1Pe => 55

/-- Two exits close a short leg in two parts. -/
def attempts : List ExitAttempt :=
  [⟨true, 0, .auto, reported "live exit partially filled" .k2Ce 50 (some (121 / 2))⟩,
    ⟨true, 1, .auto, reported "live exit partially filled" .k2Ce 25 (some 58)⟩]

def quotes : BoxLegRole → ExitQuote := fun _ => ⟨some 100, true, true⟩

theorem hundred_mem : (100 : ℚ) ∈ paise := ⟨10000, by norm_num⟩

theorem pricedBox_whole : pricedBox.Whole where
  lot := by decide
  attempts := rfl
  remaining := fun _ => rfl
  entryPaise := by
    intro role
    cases role with
    | k1Ce => exact ⟨12000, by norm_num [pricedBox]⟩
    | k2Ce => exact ⟨6000, by norm_num [pricedBox]⟩
    | k2Pe => exact ⟨11000, by norm_num [pricedBox]⟩
    | k1Pe => exact ⟨5500, by norm_num [pricedBox]⟩

theorem attempts_priced : ∀ attempt ∈ attempts, attempt.result.Priced := by
  intro attempt hattempt
  obtain rfl | hattempt := List.mem_cons.mp hattempt
  · refine ⟨List.nodup_singleton _, fun leg hleg price hprice => ?_⟩
    obtain rfl := List.mem_singleton.mp hleg
    obtain rfl : 121 / 2 = price := Option.some.inj hprice
    exact ⟨6050, by norm_num⟩
  · obtain rfl := List.mem_singleton.mp hattempt
    refine ⟨List.nodup_singleton _, fun leg hleg price hprice => ?_⟩
    obtain rfl := List.mem_singleton.mp hleg
    obtain rfl : 58 = price := Option.some.inj hprice
    exact ⟨5800, by norm_num⟩

end PartialExitSample

theorem partial_exit_conserves_value_sample :
    Conserves (PartialExitSample.attempts.foldl PricedPosition.apply PartialExitSample.pricedBox)
        (allClosings PartialExitSample.pricedBox PartialExitSample.attempts)
        PartialExitSample.quotes ⟨0, none, none, 0⟩ ∧
      realisedExitGross (PartialExitSample.attempts.foldl PricedPosition.apply
        PartialExitSample.pricedBox) = 25 := by
  refine ⟨partial_exit_conserves_value PartialExitSample.pricedBox
    PartialExitSample.pricedBox_whole PartialExitSample.attempts
    PartialExitSample.attempts_priced PartialExitSample.quotes ?_ ⟨0, none, none, 0⟩, ?_⟩
  · intro role price hprice
    obtain rfl : 100 = price := Option.some.inj hprice
    exact PartialExitSample.hundred_mem
  · decide +kernel

end Strikedge.Positions
