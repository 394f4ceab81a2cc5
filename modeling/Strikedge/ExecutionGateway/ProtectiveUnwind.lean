import Strikedge.ExecutionGateway.LeggingExit
import Strikedge.Machine.Portions

/-!
# The protective unwind

`unwindConfirmed`, cut at its awaits. Every short the entry created is bought back first, one
role after the other. Then the long hedges are sold, each as far as the reversal of its short
has proven it free. What a reversal comes back with is read as in the live exit.
-/

namespace Strikedge.ExecutionGateway

open Machine Orders

/-- The confirmed exposure of one role: the last of its orders, and the fills of all. -/
structure ConfirmedLeg where
  order : BrokerOrder
  quantity : Nat
  deriving DecidableEq, Repr

/-- One turn of the loop that builds `exposure`. -/
def noteExposure (exposure : BoxLegRole → Option ConfirmedLeg)
    (entry : BoxLegRole × BrokerOrder) : BoxLegRole → Option ConfirmedLeg :=
  if entry.2.filledQuantity = 0 then exposure
  else fun role =>
    if role = entry.1 then
      some ⟨entry.2, (exposure role).elim 0 (·.quantity) + entry.2.filledQuantity⟩
    else exposure role

def entryExposure (orders : List (BoxLegRole × BrokerOrder)) : BoxLegRole → Option ConfirmedLeg :=
  orders.foldl noteExposure fun _ => none

/-- A reversal handed to the manager. -/
structure Reversal where
  role : BoxLegRole
  side : OrderSide
  quantity : Nat
  /-- the confirmed order it reverses -/
  reverses : ClientOrderId
  deriving DecidableEq, Repr

/-- A reversal that has settled. -/
abbrev SettledReversal := Reversal × Except OrderError BrokerOrder

structure Unwind where
  attemptId : AttemptId
  exposure : BoxLegRole → Option ConfirmedLeg
  /-- the roles either loop has not come to yet -/
  wave0 : List BoxLegRole := boxLegRoles
  wave1 : List BoxLegRole := boxLegRoles
  reduced : BoxLegRole → Option ExitWaveOutcome := fun _ => none
  inFlight : Option Reversal := none
  settled : List SettledReversal := []
  /-- the reasons handed to `manager.invariantViolation` -/
  violations : List String := []

inductive UnwindLabel where
  /-- the next role: whether a touch price is there, and what building the request and the
  precheck of its book say -/
  | visit (priced : Bool) (checked : Except String Unit)
  /-- `manager.submit` settles -/
  | settle (result : Except OrderError BrokerOrder)
  deriving DecidableEq, Repr

namespace Unwind

def start (attemptId : AttemptId) (orders : List (BoxLegRole × BrokerOrder)) : Unwind where
  attemptId := attemptId
  exposure := entryExposure orders

/-- The orders pushed to `unwinds`. -/
def unwinds (u : Unwind) : List (BoxLegRole × BrokerOrder) :=
  u.settled.filterMap fun (reversal, result) =>
    (readSettlement result).1.map (reversal.role, ·)

/-- `invariantViolation` -/
def violate (u : Unwind) (reason : String) : Unwind :=
  { u with violations := u.violations ++ [reason] }

/-- What `reverse` returned. Wave 0 keeps it, and wave 0 alone reverses by buying. -/
def proves (u : Unwind) (role : BoxLegRole) (side : OrderSide) (outcome : ExitWaveOutcome) :
    Unwind :=
  match side with
  | .buy =>
      { u with reduced := fun other => if other = role then some outcome else u.reduced other }
  | .sell => u

/-- The catch of `reverse`, and its result. -/
def failed (u : Unwind) (r : Reversal) (error : OrderError) : Unwind :=
  (u.violate s!"protective unwind failed for {r.reverses}: {error.message}").proves r.role r.side
    (readSettlement (.error error)).2.2

/-- `reverse` up to its await. -/
def reverse (u : Unwind) (role : BoxLegRole) (leg : ConfirmedLeg) (quantity : Nat)
    (priced : Bool) (checked : Except String Unit) : Unwind :=
  let r : Reversal := ⟨role, reverseSide leg.order.side, quantity, leg.order.clientOrderId⟩
  if !priced then
    (u.violate s!"cannot price protective unwind for {r.reverses}").proves role r.side ⟨0, false⟩
  else
    match checked with
    | .ok () => { u with inFlight := some r }
    | .error message => u.failed r (.other message)

/-- The quantity of the short beside a hedge, as the entry filled it. -/
def shortOutstanding (u : Unwind) (role : BoxLegRole) : Nat :=
  match u.exposure (verticalPartner role) with
  | some short => if short.order.side = .sell then short.quantity else 0
  | none => 0

/-- The quantity of a hedge that wave 0 has proven free. -/
def releasable (u : Unwind) (role : BoxLegRole) (leg : ConfirmedLeg) : Nat :=
  let evidence := u.reduced (verticalPartner role)
  releasableHedgeQuantity leg.quantity
    { shortOutstanding := u.shortOutstanding role
      confirmedClosed := (evidence.map (·.filled)).getD 0
      certain := (evidence.map (·.certain)).getD false }

/-- Why a hedge is kept. -/
def preservedText (u : Unwind) (role : BoxLegRole) (leg : ConfirmedLeg) : String :=
  let short := u.shortOutstanding role
  let closed := (u.reduced (verticalPartner role)).elim 0 fun evidence =>
    if evidence.certain then evidence.filled else 0
  s!"protective unwind {u.attemptId} preserved hedge {role.text} ({leg.quantity}) because " ++
  s!"short {(verticalPartner role).text} still has {short - min closed short} outstanding; " ++
  "the exposure is carried as residual instead of sold"

/-- One turn of the loop of wave 0. -/
def buyBack (u : Unwind) (role : BoxLegRole) (priced : Bool) (checked : Except String Unit) :
    Unwind :=
  match u.exposure role with
  | some leg =>
      if leg.order.side = .sell then u.reverse role leg leg.quantity priced checked else u
  | none => u

/-- One turn of the loop of wave 1. -/
def release (u : Unwind) (role : BoxLegRole) (priced : Bool) (checked : Except String Unit) :
    Unwind :=
  match u.exposure role with
  | some leg =>
      if leg.order.side = .buy then
        if u.releasable role leg = 0 then u.violate (u.preservedText role leg)
        else u.reverse role leg (u.releasable role leg) priced checked
      else u
  | none => u

/-- The submission of a reversal settles. -/
def settle (u : Unwind) (r : Reversal) (result : Except OrderError BrokerOrder) : Unwind :=
  let u := { u with inFlight := none, settled := u.settled ++ [(r, result)] }
  match result with
  | .ok _ => u.proves r.role r.side (readSettlement result).2.2
  | .error error => u.failed r error

def step (u : Unwind) (label : UnwindLabel) : Option Unwind :=
  match label, u.inFlight with
  | .visit priced checked, none =>
      match u.wave0, u.wave1 with
      | role :: rest, _ => some ({ u with wave0 := rest }.buyBack role priced checked)
      | [], role :: rest => some ({ u with wave1 := rest }.release role priced checked)
      | [], [] => none
  | .settle result, some r => some (u.settle r result)
  | _, _ => none

/-- Every reversal handed to the manager. -/
def submitted (u : Unwind) : List Reversal := u.settled.map (·.1) ++ u.inFlight.toList

/-- The quantity of a hedge handed to the manager to be sold. -/
def sold (u : Unwind) (role : BoxLegRole) : Nat :=
  (((u.submitted.filter (·.role = role)).filter (·.side = .sell)).map (·.quantity)).sum

/-- What a settled reversal has confirmed. -/
def confirmedFill (s : SettledReversal) : Nat := (readSettlement s.2).2.2.filled

/-- The fill of a reversal whose broker state is terminal. -/
def terminalFill (s : SettledReversal) : Nat :=
  match s.2 with
  | .ok order => if isBrokerOrderTerminal order.state then order.filledQuantity else 0
  | .error _ => 0

/-- The fill a role's reversal has confirmed. -/
def unwound (u : Unwind) (role : BoxLegRole) : Nat :=
  ((u.settled.filter (·.1.role = role)).map confirmedFill).sum

/-- The part of a short that a terminal fill has proven closed. -/
def provenClosed (u : Unwind) (role : BoxLegRole) : Nat :=
  ((u.settled.filter (·.1.role = role)).map terminalFill).sum

end Unwind

/-- The fills of a role on one side. -/
def sideFill (orders : List (BoxLegRole × BrokerOrder)) (side : OrderSide)
    (role : BoxLegRole) : Nat :=
  ((orders.filter fun entry => entry.1 = role ∧ entry.2.side = side).map
    (·.2.filledQuantity)).sum

/-- The fills of a role, one for each of its orders. -/
def entryFills (orders : List (BoxLegRole × BrokerOrder)) (role : BoxLegRole) : List Nat :=
  (orders.filter (·.1 = role)).map (·.2.filledQuantity)

/-- The orders of a role are on one side. -/
def OneSide (orders : List (BoxLegRole × BrokerOrder)) : Prop :=
  ∀ a ∈ orders, ∀ b ∈ orders, a.1 = b.1 → a.2.side = b.2.side

instance (orders : List (BoxLegRole × BrokerOrder)) : Decidable (OneSide orders) :=
  inferInstanceAs (Decidable (∀ a ∈ orders, ∀ b ∈ orders, a.1 = b.1 → a.2.side = b.2.side))

section Exposure

variable {orders : List (BoxLegRole × BrokerOrder)} {role : BoxLegRole} {leg : ConfirmedLeg}

/-- The exposure of a role adds up all its fills, under one of its orders. -/
theorem foldl_noteExposure (exposure : BoxLegRole → Option ConfirmedLeg) :
    ((orders.foldl noteExposure exposure) role).elim 0 (·.quantity) =
        (exposure role).elim 0 (·.quantity) + (entryFills orders role).sum ∧
      (((orders.foldl noteExposure exposure) role) = exposure role ∨
        ∃ entry ∈ orders, entry.1 = role ∧
          ((orders.foldl noteExposure exposure) role).map (·.order) = some entry.2) := by
  induction orders generalizing exposure with
  | nil => simp [entryFills]
  | cons entry rest ih =>
      obtain ⟨hquantity, horder⟩ := ih (noteExposure exposure entry)
      rw [List.foldl_cons]
      by_cases hzero : entry.2.filledQuantity = 0
      · have hsame : noteExposure exposure entry = exposure := by
          rw [noteExposure, if_pos hzero]
        rw [hsame] at hquantity horder ⊢
        refine ⟨hquantity.trans ?_, horder.imp_right ?_⟩
        · by_cases hrole : entry.1 = role <;> simp [entryFills, hrole, hzero]
        · rintro ⟨other, hother, h⟩
          exact ⟨other, List.mem_cons_of_mem entry hother, h⟩
      · by_cases hrole : entry.1 = role
        · have hnoted : noteExposure exposure entry role = some ⟨entry.2,
              (exposure role).elim 0 (·.quantity) + entry.2.filledQuantity⟩ := by
            rw [noteExposure, if_neg hzero, if_pos hrole.symm]
          rw [hnoted] at hquantity horder
          refine ⟨hquantity.trans ?_, .inr ?_⟩
          · simp [entryFills, hrole, Nat.add_assoc]
          · rcases horder with horder | ⟨other, hother, h⟩
            · exact ⟨entry, List.mem_cons_self, hrole, by rw [horder]; rfl⟩
            · exact ⟨other, List.mem_cons_of_mem entry hother, h⟩
        · have hother : noteExposure exposure entry role = exposure role := by
            rw [noteExposure, if_neg hzero, if_neg (Ne.symm hrole)]
          rw [hother] at hquantity horder
          refine ⟨hquantity.trans ?_, horder.imp_right ?_⟩
          · simp [entryFills, hrole]
          · rintro ⟨other, hmem, h⟩
            exact ⟨other, List.mem_cons_of_mem entry hmem, h⟩

theorem exposure_quantity :
    (entryExposure orders role).elim 0 (·.quantity) = (entryFills orders role).sum := by
  have hfold := (@foldl_noteExposure orders role fun _ => none).1
  rwa [Option.elim_none, Nat.zero_add] at hfold

theorem exposure_order (h : entryExposure orders role = some leg) :
    ∃ entry ∈ orders, entry.1 = role ∧ entry.2 = leg.order := by
  rcases (@foldl_noteExposure orders role fun _ => none).2 with
    hnone | ⟨entry, hentry, hrole, horder⟩
  · rw [entryExposure, hnone] at h
    cases h
  · rw [entryExposure] at h
    rw [h] at horder
    exact ⟨entry, hentry, hrole, (Option.some.inj horder).symm⟩

/-- Where a role has one side, its fills are those on the side of any of its orders. -/
theorem sideFill_eq (h : OneSide orders) {entry : BoxLegRole × BrokerOrder}
    (hentry : entry ∈ orders) (side : OrderSide) :
    sideFill orders side entry.1 =
      if entry.2.side = side then (entryFills orders entry.1).sum else 0 := by
  rw [sideFill, entryFills]
  split
  · rename_i hside
    congr 2
    refine List.filter_congr fun other hother => ?_
    rw [decide_eq_decide]
    exact ⟨And.left, fun hrole => ⟨hrole, (h other hother entry hentry hrole).trans hside⟩⟩
  · rename_i hside
    have hnone : orders.filter (fun other => other.1 = entry.1 ∧ other.2.side = side) = [] := by
      refine List.filter_eq_nil_iff.mpr fun other hother hboth => hside ?_
      obtain ⟨hrole, hother'⟩ := of_decide_eq_true hboth
      exact (h other hother entry hentry hrole).symm.trans hother'
    rw [hnone]
    rfl

/-- The confirmed exposure of a role is what filled on its side. -/
theorem sideFill_of_exposure (h : OneSide orders) (hleg : entryExposure orders role = some leg)
    (side : OrderSide) :
    sideFill orders side role = if leg.order.side = side then leg.quantity else 0 := by
  obtain ⟨entry, hentry, rfl, horder⟩ := exposure_order hleg
  have hquantity := @exposure_quantity orders entry.1
  rw [hleg, Option.elim_some] at hquantity
  rw [sideFill_eq h hentry, horder, hquantity]

theorem sideFill_of_no_exposure (hnone : entryExposure orders role = none) (side : OrderSide) :
    sideFill orders side role = 0 := by
  have hquantity := @exposure_quantity orders role
  rw [hnone, Option.elim_none] at hquantity
  have hzero := List.sum_eq_zero_iff.mp hquantity.symm
  refine List.sum_eq_zero fun x hx => hzero x ?_
  obtain ⟨entry, hentry, rfl⟩ := List.mem_map.mp hx
  obtain ⟨hmem, hboth⟩ := List.mem_filter.mp hentry
  refine List.mem_map_of_mem (List.mem_filter.mpr ⟨hmem, ?_⟩)
  simpa using (of_decide_eq_true hboth).1

end Exposure

end Strikedge.ExecutionGateway
