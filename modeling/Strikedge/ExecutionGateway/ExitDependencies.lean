import Strikedge.Orders.Scheduling

/-!
# Exit dependencies

`exitDependencies.ts`: which legs of an outstanding position may be closed at once, and how
much of a hedge the proven closure of its short releases. `isExposureSafeExitSequence`
says from the transmitted legs alone whether a hedge was sold while it was needed.
Quantities are the safe integers that `outstandingRoles` lets through.
-/

namespace Strikedge.ExecutionGateway

open Orders

/-- The other leg of the same vertical. -/
def verticalPartner : BoxLegRole → BoxLegRole
  | .k1Ce => .k2Ce
  | .k2Ce => .k1Ce
  | .k1Pe => .k2Pe
  | .k2Pe => .k1Pe

/-- The side that closes a leg. -/
def exitSideFor (role : BoxLegRole) (direction : BoxDirection) : OrderSide :=
  match boxEntrySide direction role with
  | .buy => .sell
  | .sell => .buy

inductive ExitLegKind where
  | closeShort
  | releaseHedge
  | closeUnpairedLong
  deriving DecidableEq, Repr

structure ExitDependencySlot where
  role : BoxLegRole
  side : OrderSide
  kind : ExitLegKind
  outstanding : Nat
  wave : Nat
  covers : Option BoxLegRole
  deriving DecidableEq, Repr

/-- The slot of one role that has quantity outstanding. -/
def exitSlot (direction : BoxDirection) (outstanding : BoxLegRole → Nat) (role : BoxLegRole) :
    Option ExitDependencySlot :=
  let own := outstanding role
  let side := exitSideFor role direction
  if own = 0 then none
  else if boxEntrySide direction role = .sell then
    some ⟨role, side, .closeShort, own, 0, none⟩
  else
    let partner := verticalPartner role
    let partnerOutstanding :=
      if boxEntrySide direction partner = .sell then outstanding partner else 0
    if 0 < partnerOutstanding then some ⟨role, side, .releaseHedge, own, 1, some partner⟩
    else some ⟨role, side, .closeUnpairedLong, own, 0, none⟩

structure ExitDependencyPlan where
  slots : List ExitDependencySlot
  wave0 : List ExitDependencySlot
  wave1 : List ExitDependencySlot
  deriving DecidableEq, Repr

def planExitDependencies (direction : BoxDirection) (outstanding : BoxLegRole → Nat) :
    ExitDependencyPlan :=
  let slots := boxLegRoles.filterMap (exitSlot direction outstanding)
  { slots := slots
    wave0 := slots.filter (·.wave = 0)
    wave1 := slots.filter (·.wave = 1) }

/-- What one short-closing attempt proves. -/
structure ShortCloseEvidence where
  shortOutstanding : Nat
  confirmedClosed : Nat
  certain : Bool
  deriving DecidableEq, Repr

/-- How much of a hedge is proven free to sell. -/
def releasableHedgeQuantity (hedgeOutstanding : Nat) (short : ShortCloseEvidence) : Nat :=
  if hedgeOutstanding = 0 then 0
  else
    let closed :=
      if short.certain && decide (0 < short.confirmedClosed) then
        min short.confirmedClosed short.shortOutstanding
      else 0
    let shortRemaining := short.shortOutstanding - closed
    min hedgeOutstanding (hedgeOutstanding - shortRemaining)

/-- One transmitted exit leg. -/
structure TransmittedLeg where
  role : BoxLegRole
  quantity : Nat
  filled : Nat
  deriving DecidableEq, Repr

/-- The quantities that stand after one leg: `remaining.set(role, ..)`. -/
def standAfter (remaining : BoxLegRole → Nat) (leg : TransmittedLeg) (role : BoxLegRole) : Nat :=
  if role = leg.role then remaining role - leg.filled else remaining role

/-- The loop of `isExposureSafeExitSequence`. -/
def exposureSafeFrom (direction : BoxDirection) (remaining : BoxLegRole → Nat) :
    List TransmittedLeg → Bool
  | [] => true
  | leg :: rest =>
      if boxEntrySide direction leg.role = .sell then
        exposureSafeFrom direction (standAfter remaining leg) rest
      else
        let partner := verticalPartner leg.role
        let shortStanding :=
          if boxEntrySide direction partner = .sell then remaining partner else 0
        if remaining leg.role - shortStanding < leg.quantity then false
        else exposureSafeFrom direction (standAfter remaining leg) rest

def isExposureSafeExitSequence (direction : BoxDirection) (outstanding : BoxLegRole → Nat)
    (transmitted : List TransmittedLeg) : Bool :=
  exposureSafeFrom direction outstanding transmitted

section Plan

variable {direction : BoxDirection} {outstanding remaining : BoxLegRole → Nat}
variable {role : BoxLegRole} {slot : ExitDependencySlot} {leg : TransmittedLeg}
variable {legs rest : List TransmittedLeg}

/-- A vertical pairs one long leg with one short leg. -/
theorem side_verticalPartner (h : boxEntrySide direction role = .buy) :
    boxEntrySide direction (verticalPartner role) = .sell := by
  cases direction <;> cases role <;> first | rfl | cases h

/-- The slot of a role belongs to it and has its quantity. -/
theorem exitSlot_role (h : exitSlot direction outstanding role = some slot) :
    slot.role = role ∧ slot.outstanding = outstanding role := by
  cases hside : boxEntrySide direction role with
  | sell =>
      simp only [exitSlot, hside, if_true] at h
      split at h
      · cases h
      · obtain rfl := Option.some.inj h
        exact ⟨rfl, rfl⟩
  | buy =>
      simp only [exitSlot, hside, side_verticalPartner hside, reduceCtorEq, if_false, if_true]
        at h
      split at h
      · cases h
      · split at h
        · obtain rfl := Option.some.inj h
          exact ⟨rfl, rfl⟩
        · obtain rfl := Option.some.inj h
          exact ⟨rfl, rfl⟩

/-- A long leg goes at once exactly when no short stands beside it. -/
theorem exitSlot_long (h : exitSlot direction outstanding role = some slot)
    (hlong : boxEntrySide direction role = .buy) :
    (slot.wave = 0 ∧ outstanding (verticalPartner role) = 0) ∨
      (slot.wave = 1 ∧ slot.covers = some (verticalPartner role) ∧
        0 < outstanding (verticalPartner role)) := by
  simp only [exitSlot, hlong, side_verticalPartner hlong, reduceCtorEq, if_false, if_true] at h
  split at h
  · cases h
  · split at h
    next hpartner =>
      obtain rfl := Option.some.inj h
      exact .inr ⟨rfl, rfl, hpartner⟩
    next hpartner =>
      obtain rfl := Option.some.inj h
      exact .inl ⟨rfl, by omega⟩

/-- A short leg goes at once. -/
theorem exitSlot_short (h : exitSlot direction outstanding role = some slot)
    (hshort : boxEntrySide direction role = .sell) : slot.wave = 0 := by
  simp only [exitSlot, hshort, if_true] at h
  split at h
  · cases h
  · obtain rfl := Option.some.inj h
    rfl

/-- An outstanding short has a slot. -/
theorem exists_exitSlot (h : 0 < outstanding role)
    (hshort : boxEntrySide direction role = .sell) :
    ∃ slot, exitSlot direction outstanding role = some slot := by
  rw [exitSlot]
  simp only [hshort, if_true, if_neg (Nat.ne_of_gt h)]
  exact ⟨_, rfl⟩

theorem mem_slots_of (h : exitSlot direction outstanding role = some slot) :
    slot ∈ (planExitDependencies direction outstanding).slots := by
  refine List.mem_filterMap.mpr ⟨role, ?_, h⟩
  cases role <;> decide

theorem mem_slots (h : slot ∈ (planExitDependencies direction outstanding).slots) :
    exitSlot direction outstanding slot.role = some slot := by
  obtain ⟨role, -, hslot⟩ := List.mem_filterMap.mp h
  rw [(exitSlot_role hslot).1, hslot]

/-- Every role has at most one slot. -/
theorem nodup_slots (direction : BoxDirection) (outstanding : BoxLegRole → Nat) :
    ((planExitDependencies direction outstanding).slots.map (·.role)).Nodup := by
  have hsub : ((boxLegRoles.filterMap (exitSlot direction outstanding)).map (·.role)).Sublist
      boxLegRoles := by
    induction boxLegRoles with
    | nil => exact .slnil
    | cons role roles ih =>
        rw [List.filterMap_cons]
        cases hslot : exitSlot direction outstanding role with
        | none => exact ih.cons _
        | some slot =>
            rw [List.map_cons, (exitSlot_role hslot).1]
            exact ih.cons_cons _
  exact hsub.nodup (by decide)

/-- What is released leaves the short that is not proven closed covered. -/
theorem releasable_le (hedge : Nat) (short : ShortCloseEvidence) :
    releasableHedgeQuantity hedge short ≤
      hedge - (short.shortOutstanding - if short.certain then short.confirmedClosed else 0) := by
  rw [releasableHedgeQuantity]
  cases hcertain : short.certain with
  | false =>
      simp only [Bool.false_and, Bool.false_eq_true, if_false]
      split
      · omega
      · omega
  | true =>
      simp only [Bool.true_and, decide_eq_true_eq, if_true]
      split
      · omega
      · split
        · omega
        · omega

end Plan

section Oracle

variable {direction : BoxDirection} {remaining : BoxLegRole → Nat}
variable {legs rest : List TransmittedLeg}

/-- The quantities that stand after some legs. -/
def standAfterAll (remaining : BoxLegRole → Nat) (legs : List TransmittedLeg) :
    BoxLegRole → Nat :=
  legs.foldl standAfter remaining

theorem standAfter_le (remaining : BoxLegRole → Nat) (leg : TransmittedLeg)
    (role : BoxLegRole) : standAfter remaining leg role ≤ remaining role := by
  rw [standAfter]
  split
  · omega
  · exact Nat.le_refl _

/-- A leg of another role leaves a role's quantity alone. -/
theorem standAfterAll_other {role : BoxLegRole} (h : ∀ leg ∈ legs, leg.role ≠ role) :
    standAfterAll remaining legs role = remaining role := by
  induction legs generalizing remaining with
  | nil => rfl
  | cons leg legs ih =>
      have hrest : standAfterAll (standAfter remaining leg) legs role =
          standAfter remaining leg role :=
        ih fun other hother => h other (List.mem_cons_of_mem leg hother)
      rw [standAfterAll, List.foldl_cons]
      refine hrest.trans ?_
      rw [standAfter, if_neg (Ne.symm (h leg List.mem_cons_self))]

/-- A leg of a role that no other leg has takes its fill off the role's quantity. -/
theorem standAfterAll_own {leg : TransmittedLeg} (hleg : leg ∈ legs)
    (hroles : (legs.map (·.role)).Nodup) :
    standAfterAll remaining legs leg.role = remaining leg.role - leg.filled := by
  induction legs generalizing remaining with
  | nil => cases hleg
  | cons head legs ih =>
      rw [List.map_cons, List.nodup_cons] at hroles
      rw [standAfterAll, List.foldl_cons]
      obtain rfl | htail := List.mem_cons.mp hleg
      · have hother : ∀ other ∈ legs, other.role ≠ leg.role := by
          intro other hother heq
          exact hroles.1 (heq ▸ List.mem_map_of_mem hother)
        refine (standAfterAll_other hother).trans ?_
        rw [standAfter, if_pos rfl]
      · have hne : leg.role ≠ head.role := by
          intro heq
          exact hroles.1 (heq ▸ List.mem_map_of_mem htail)
        refine (ih htail hroles.2).trans ?_
        rw [standAfter, if_neg hne]

/-- Legs that are safe as they are reached are a safe sequence: no long leg takes more than
what its role has over its short, and no leg touches the role of a later one. -/
theorem exposureSafeFrom_append
    (hroles : (legs.map (·.role)).Nodup)
    (hlong : ∀ leg ∈ legs, boxEntrySide direction leg.role = .buy →
      leg.quantity ≤ remaining leg.role - remaining (verticalPartner leg.role)) :
    exposureSafeFrom direction remaining (legs ++ rest) =
      exposureSafeFrom direction (standAfterAll remaining legs) rest := by
  induction legs generalizing remaining with
  | nil => rfl
  | cons leg legs ih =>
      rw [List.map_cons, List.nodup_cons] at hroles
      have htail : ∀ other ∈ legs, boxEntrySide direction other.role = .buy →
          other.quantity ≤ standAfter remaining leg other.role -
            standAfter remaining leg (verticalPartner other.role) := by
        intro other hother hside
        have hbound := hlong other (List.mem_cons_of_mem leg hother) hside
        have hne : other.role ≠ leg.role := by
          intro heq
          exact hroles.1 (heq ▸ List.mem_map_of_mem hother)
        have hpartner := standAfter_le remaining leg (verticalPartner other.role)
        rw [standAfter, if_neg hne]
        omega
      have hrest := ih hroles.2 htail
      rw [List.cons_append, exposureSafeFrom]
      cases hside : boxEntrySide direction leg.role with
      | sell =>
          rw [if_pos rfl]
          exact hrest
      | buy =>
          have hbound := hlong leg List.mem_cons_self hside
          rw [if_neg nofun]
          simp only [side_verticalPartner hside, if_true]
          rw [if_neg (by omega)]
          exact hrest

end Oracle

end Strikedge.ExecutionGateway
