import Mathlib.Algebra.BigOperators.Group.List.Basic
import Mathlib.Algebra.Order.BigOperators.Group.List
import Mathlib.Tactic.Linarith
import Strikedge.ExecutionGateway.PartialEntry

/-!
# The recovery of a partial entry

`planPartialEntryRecovery` and `verifyQuantityConservation` over any outcomes: a reported
quantity is any number, a role has any number of outcomes, and the expected roles are any list.
-/

namespace Strikedge.ExecutionGateway.EntryRecovery

open Machine Orders

inductive ViolationKind where
  | unwoundMoreThanConfirmed
  | negativeResidual
  | overfill
  deriving DecidableEq, Repr

structure ConservationViolation where
  role : BoxLegRole
  kind : ViolationKind
  confirmed : ℚ
  unwound : ℚ
  requested : Number
  deriving DecidableEq, Repr

structure ConservationResult where
  violations : List ConservationViolation := []
  /-- Exposure still held per role after the unwind, never negative. -/
  residualByRole : OrderedMap BoxLegRole ℚ := ∅
  totalResidual : ℚ := 0
  requiresRecovery : Bool := false

def ConservationResult.conserved (result : ConservationResult) : Bool :=
  result.violations.length = 0

def EntryLegOutcome.confirmed (leg : EntryLegOutcome) : ℚ :=
  leg.confirmedFilled.finite?.getD 0

/-- The broker confirmed more than was asked for. -/
def EntryLegOutcome.overfilled (leg : EntryLegOutcome) : Bool :=
  leg.requested.less (.finite leg.confirmed)

def conservationViolations (leg : EntryLegOutcome) (unwound : ℚ) : List ConservationViolation :=
  let violation kind := ⟨leg.role, kind, leg.confirmed, unwound, leg.requested⟩
  (if leg.overfilled then [violation .overfill] else []) ++
    (if leg.confirmed < unwound then [violation .unwoundMoreThanConfirmed] else []) ++
    (if leg.confirmed - unwound < 0 then [violation .negativeResidual] else [])

/-- One turn of the loop over the entry. -/
def ConservationResult.visit (unwoundByRole : OrderedMap BoxLegRole ℚ)
    (result : ConservationResult) (leg : EntryLegOutcome) : ConservationResult :=
  let unwound := (unwoundByRole.get? leg.role).getD 0
  let violations := conservationViolations leg unwound
  let safeResidual := max 0 (leg.confirmed - unwound)
  { violations := result.violations ++ violations
    residualByRole := result.residualByRole.set leg.role safeResidual
    totalResidual := result.totalResidual + safeResidual
    requiresRecovery := result.requiresRecovery || !violations.isEmpty }

def verifyQuantityConservation (entry : List EntryLegOutcome)
    (unwoundByRole : OrderedMap BoxLegRole ℚ) : ConservationResult :=
  entry.foldl (ConservationResult.visit unwoundByRole) {}

/-- What each role has unwound once the reversals have filled, added up as the gateway does. -/
def unwoundInFull (unwind : List PlannedUnwind) : OrderedMap BoxLegRole ℚ :=
  unwind.foldl (fun unwound item =>
    unwound.set item.role ((unwound.get? item.role).getD 0 + item.quantity)) ∅

/-- The quantity of the outcome is proven: the broker state is known and the reading finite. -/
def EntryLegOutcome.Provable (leg : EntryLegOutcome) : Prop :=
  leg.brokerStateKnown = true ∧ leg.confirmedFilled.finite?.isSome = true

instance (leg : EntryLegOutcome) : Decidable leg.Provable :=
  inferInstanceAs (Decidable (_ ∧ _))

/-- The confirmed quantity of a role. Fills are cumulative and irreversible, so it is the
largest quantity an outcome of the role reports. -/
def confirmedQuantity (legs : List EntryLegOutcome) (role : BoxLegRole) : ℚ :=
  ((legs.filter (·.role = role)).map EntryLegOutcome.filled).foldr max 0

/-- The outcome an unwind reverses. -/
def Reverses (u : PlannedUnwind) (leg : EntryLegOutcome) : Prop :=
  u.role = leg.role ∧ u.side = reverseSide leg.side ∧ leg.confirmedFilled = .finite u.quantity

/-- The plan accounts for what the outcomes report. -/
structure Accounts (legs : List EntryLegOutcome) (plan : PartialEntryPlan) : Prop where
  settled : plan.action = .unwindConfirmedExposure →
    ∀ leg ∈ legs, leg.submitted = true → leg.terminal = true ∧ leg.brokerStateKnown = true
  unwinds : plan.action = .unwindConfirmedExposure →
    ∀ role, 0 < confirmedQuantity legs role →
      ∃ u, plan.unwind.filter (·.role = role) = [u] ∧
        u.quantity = confirmedQuantity legs role ∧ ∃ leg ∈ legs, Reverses u leg
  only : ∀ u ∈ plan.unwind, 0 < confirmedQuantity legs u.role
  nothing : plan.action = .noExposure →
    ∀ leg ∈ legs, leg.confirmedFilled.isPositive = false ∧ leg.Provable
  unknown : (∃ leg ∈ legs, ¬ leg.Provable) → plan.action = .quarantineUnknown
  /-- Nothing is left of the exposure once the reversals have filled. -/
  conserved : plan.action = .unwindConfirmedExposure ∨ plan.action = .noExposure →
    (∀ leg ∈ legs, leg.overfilled = false) →
      (verifyQuantityConservation legs (unwoundInFull plan.unwind)).totalResidual = 0 ∧
      (verifyQuantityConservation legs (unwoundInFull plan.unwind)).violations = []

section Survey

variable {legs : List EntryLegOutcome} {role : BoxLegRole} {roles done : List BoxLegRole}
variable {s : Survey}

/-- The outcome the plan takes for a role: the last one listed, if it was submitted. -/
def heard (legs : List EntryLegOutcome) (role : BoxLegRole) : Option EntryLegOutcome :=
  (outcomeOf legs role).filter (·.submitted)

def heardFill (legs : List EntryLegOutcome) (role : BoxLegRole) : ℚ :=
  (heard legs role).elim 0 EntryLegOutcome.filled

/-- The role has provably reached what was asked for. -/
def Met (legs : List EntryLegOutcome) (role : BoxLegRole) : Prop :=
  ∃ leg, heard legs role = some leg ∧ leg.brokerStateKnown = true ∧ leg.terminal = true ∧
    (Number.finite leg.filled).less leg.requested = false

def Unknown (legs : List EntryLegOutcome) (role : BoxLegRole) : Prop :=
  ∃ leg, heard legs role = some leg ∧ leg.brokerStateKnown = false

def Working (legs : List EntryLegOutcome) (role : BoxLegRole) : Prop :=
  ∃ leg, heard legs role = some leg ∧ leg.brokerStateKnown = true ∧ leg.terminal = false

/-- The variables of the loop behind the roles it has gone through. -/
structure Survey.Of (legs : List EntryLegOutcome) (done : List BoxLegRole) (s : Survey) :
    Prop where
  unknown : s.quantityUnknown = true ↔ ∃ role ∈ done, Unknown legs role
  working : 0 < s.awaitTerminalRoles.length ↔ ∃ role ∈ done, Working legs role
  met : s.allRequestedMet = true ↔ ∀ role ∈ done, Met legs role
  total : s.totalConfirmed = (done.map (heardFill legs)).sum
  confirmed : ∀ role ∈ done, s.confirmedByRole.get? role = some (heardFill legs role)

theorem EntryLegOutcome.filled_nonneg (leg : EntryLegOutcome) : 0 ≤ leg.filled := by
  rw [EntryLegOutcome.filled]
  split
  · exact le_max_left _ _
  · exact le_rfl

theorem heardFill_nonneg (legs : List EntryLegOutcome) (role : BoxLegRole) :
    0 ≤ heardFill legs role := by
  rw [heardFill]
  cases heard legs role with
  | none => exact le_rfl
  | some leg => exact leg.filled_nonneg

/-- The quantity of a role that was confirmed in front of this turn stays confirmed. -/
theorem confirmed_visit (h : s.Of legs done) :
    ∀ x ∈ done ++ [role],
      (s.confirmedByRole.set role (heardFill legs role)).get? x = some (heardFill legs x) := by
  intro x hx
  rw [OrderedMap.get?_set]
  split
  case isTrue heq => rw [heq]
  case isFalse hne =>
    obtain hx | hx := List.mem_append.mp hx
    · exact h.confirmed x hx
    · exact absurd (List.mem_singleton.mp hx) hne

theorem Survey.Of.visit (h : s.Of legs done) (role : BoxLegRole) :
    (s.visit legs role).Of legs (done ++ [role]) := by
  have hconfirmed : ∀ x ∈ done ++ [role],
      (s.confirmedByRole.set role (heardFill legs role)).get? x = some (heardFill legs x) :=
    confirmed_visit h
  have htotal : s.totalConfirmed + heardFill legs role =
      ((done ++ [role]).map (heardFill legs)).sum := by
    simp [h.total]
  cases hheard : heard legs role with
  | none =>
      have hfill : heardFill legs role = 0 := by rw [heardFill, hheard]; rfl
      have hvisit : s.visit legs role = { s with
          stopSubmitRoles := s.stopSubmitRoles ++ [role]
          allRequestedMet := false
          confirmedByRole := s.confirmedByRole.set role 0 } := by
        rw [heard] at hheard
        simp only [Survey.visit, hheard]
      rw [hvisit]
      rw [hfill] at hconfirmed htotal
      refine ⟨?_, ?_, ?_, ?_, hconfirmed⟩
      · simp [Unknown, hheard, h.unknown, or_and_right, exists_or]
      · simp [Working, hheard, h.working, or_and_right, exists_or]
      · simp [Met, hheard]
      · simpa using htotal
  | some leg =>
      have hfind : (outcomeOf legs role).filter (·.submitted) = some leg := hheard
      have hfill : heardFill legs role = leg.filled := by rw [heardFill, hheard]; rfl
      have hunknown : Unknown legs role ↔ leg.brokerStateKnown = false := by
        simp [Unknown, hheard]
      have hworking : Working legs role ↔
          leg.brokerStateKnown = true ∧ leg.terminal = false := by
        simp [Working, hheard]
      have hmet : Met legs role ↔ leg.brokerStateKnown = true ∧ leg.terminal = true ∧
          (Number.finite leg.filled).less leg.requested = false := by
        simp [Met, hheard]
      rw [hfill] at hconfirmed htotal
      simp only [Survey.visit, hfind]
      cases hknown : leg.brokerStateKnown with
      | false =>
          refine ⟨?_, ?_, ?_, htotal, hconfirmed⟩
          · simp [hunknown, hknown, or_and_right, exists_or]
          · simp [hworking, hknown, h.working, or_and_right, exists_or]
          · simp [hmet, hknown, or_imp, forall_and]
      | true =>
          cases hterminal : leg.terminal with
          | false =>
              refine ⟨?_, ?_, ?_, htotal, hconfirmed⟩
              · simp [hunknown, hknown, h.unknown, or_and_right, exists_or]
              · simp [hworking, hknown, hterminal, or_and_right, exists_or]
              · simp [hmet, hterminal, or_imp, forall_and]
          | true =>
              cases hshort : (Number.finite leg.filled).less leg.requested with
              | false =>
                  refine ⟨?_, ?_, ?_, htotal, hconfirmed⟩
                  · simp [hunknown, hknown, h.unknown, or_and_right, exists_or]
                  · simp [hworking, hterminal, h.working, or_and_right, exists_or]
                  · simp [hmet, hknown, hterminal, hshort, h.met, or_imp, forall_and]
              | true =>
                  refine ⟨?_, ?_, ?_, htotal, hconfirmed⟩
                  · simp [hunknown, hknown, h.unknown, or_and_right, exists_or]
                  · simp [hworking, hterminal, h.working, or_and_right, exists_or]
                  · simp [hmet, hshort, or_imp, forall_and]

theorem Survey.Of.survey (h : s.Of legs done) (roles : List BoxLegRole) :
    (roles.foldl (Survey.visit legs) s).Of legs (done ++ roles) := by
  induction roles generalizing s done with
  | nil => rwa [List.append_nil]
  | cons role roles ih =>
      have hrest := ih (h.visit role)
      rwa [List.append_assoc] at hrest

theorem survey_of (legs : List EntryLegOutcome) (roles : List BoxLegRole) :
    (roles.foldl (Survey.visit legs) {}).Of legs roles := by
  have hinit : Survey.Of legs [] {} := ⟨by simp, by simp, by simp, by simp, by simp⟩
  exact hinit.survey roles

/-- The reversal the plan holds for a role. -/
def reversal (legs : List EntryLegOutcome) (role : BoxLegRole) : Option PlannedUnwind :=
  (heard legs role).bind fun leg =>
    if leg.filled ≤ 0 then none else some ⟨role, reverseSide leg.side, leg.filled⟩

/-- Every occurrence of a role among the expected ones reverses the outcome heard for it. -/
theorem plannedUnwinds_eq (h : s.Of legs roles) :
    plannedUnwinds legs s.confirmedByRole roles = roles.filterMap (reversal legs) := by
  refine List.filterMap_congr fun role hrole => ?_
  rw [h.confirmed role hrole, reversal, Option.getD_some, heardFill]
  cases hfind : outcomeOf legs role with
  | none => simp [heard, hfind]
  | some leg =>
      cases hsubmitted : leg.submitted with
      | false => simp [heard, hfind, Option.filter, hsubmitted]
      | true => simp [heard, hfind, Option.filter, hsubmitted]

/-- The five answers, with the reversals each comes with. -/
inductive Answers (legs : List EntryLegOutcome) (roles : List BoxLegRole) :
    PartialEntryAction → List PlannedUnwind → Prop where
  | qualify (hroles : roles ≠ []) (hmet : ∀ role ∈ roles, Met legs role) :
      Answers legs roles .qualifyCompleteBox []
  | quarantine (hunknown : ∃ role ∈ roles, Unknown legs role) :
      Answers legs roles .quarantineUnknown []
  | await (hknown : ∀ role ∈ roles, ¬ Unknown legs role)
      (hworking : ∃ role ∈ roles, Working legs role) : Answers legs roles .awaitTerminal []
  | nothing (hknown : ∀ role ∈ roles, ¬ Unknown legs role)
      (hdone : ∀ role ∈ roles, ¬ Working legs role)
      (hshort : ¬ (roles ≠ [] ∧ ∀ role ∈ roles, Met legs role))
      (htotal : ∀ role ∈ roles, heardFill legs role = 0) : Answers legs roles .noExposure []
  | unwind (hknown : ∀ role ∈ roles, ¬ Unknown legs role)
      (hdone : ∀ role ∈ roles, ¬ Working legs role)
      (hshort : ¬ (roles ≠ [] ∧ ∀ role ∈ roles, Met legs role))
      (htotal : ∃ role ∈ roles, 0 < heardFill legs role) :
      Answers legs roles .unwindConfirmedExposure (roles.filterMap (reversal legs))

/-- A sum of confirmed quantities is zero only if each of them is. -/
theorem sum_heardFill_eq_zero :
    (roles.map (heardFill legs)).sum = 0 ↔ ∀ role ∈ roles, heardFill legs role = 0 := by
  induction roles with
  | nil => simp
  | cons role roles ih =>
      have hhead := heardFill_nonneg legs role
      have htail : 0 ≤ (roles.map (heardFill legs)).sum :=
        List.sum_nonneg (by simpa using fun x _ => heardFill_nonneg legs x)
      rw [List.map_cons, List.sum_cons, add_eq_zero_iff_of_nonneg hhead htail, ih,
        List.forall_mem_cons]

theorem plan_answers (legs : List EntryLegOutcome) (roles : List BoxLegRole) :
    Answers legs roles (planPartialEntryRecovery legs roles).action
      (planPartialEntryRecovery legs roles).unwind := by
  have hsurvey := survey_of legs roles
  simp only [planPartialEntryRecovery]
  generalize roles.foldl (Survey.visit legs) {} = s at hsurvey ⊢
  have hroles : 0 < roles.length ↔ roles ≠ [] := List.length_pos_iff
  split
  case isTrue hmet => exact .qualify (hroles.mp hmet.2) (hsurvey.met.mp hmet.1)
  case isFalse hmet =>
    have hshort : ¬ (roles ≠ [] ∧ ∀ role ∈ roles, Met legs role) := fun h =>
      hmet ⟨hsurvey.met.mpr h.2, hroles.mpr h.1⟩
    split
    case isTrue hunknown => exact .quarantine (hsurvey.unknown.mp hunknown)
    case isFalse hunknown =>
      have hknown : ∀ role ∈ roles, ¬ Unknown legs role := fun role hrole h =>
        hunknown (hsurvey.unknown.mpr ⟨role, hrole, h⟩)
      split
      case isTrue hworking => exact .await hknown (hsurvey.working.mp hworking)
      case isFalse hworking =>
        have hdone : ∀ role ∈ roles, ¬ Working legs role := fun role hrole h =>
          hworking (hsurvey.working.mpr ⟨role, hrole, h⟩)
        rw [hsurvey.total, plannedUnwinds_eq hsurvey]
        split
        case isTrue htotal => exact .nothing hknown hdone hshort (sum_heardFill_eq_zero.mp htotal)
        case isFalse htotal =>
          refine .unwind hknown hdone hshort ?_
          by_contra hnone
          refine htotal (sum_heardFill_eq_zero.mpr fun role hrole => ?_)
          by_contra hne
          exact hnone ⟨role, hrole, (heardFill_nonneg legs role).lt_of_ne' hne⟩

end Survey

section Reports

variable {legs : List EntryLegOutcome} {leg : EntryLegOutcome} {role : BoxLegRole}
variable {roles : List BoxLegRole}

theorem mem_of_heard (h : heard legs role = some leg) : leg ∈ legs ∧ leg.role = role := by
  obtain ⟨hfind, -⟩ := Option.filter_eq_some_iff.mp h
  refine ⟨List.mem_reverse.mp (List.mem_of_find?_eq_some hfind), ?_⟩
  simpa using List.find?_some hfind

theorem foldr_max_mem (quantities : List ℚ) :
    quantities.foldr max 0 = 0 ∨ quantities.foldr max 0 ∈ quantities := by
  induction quantities with
  | nil => exact .inl rfl
  | cons quantity quantities ih =>
      rw [List.foldr_cons]
      obtain hmax | hmax := max_choice quantity (quantities.foldr max 0)
      · exact .inr (by rw [hmax]; exact List.mem_cons_self)
      · rw [hmax]
        exact ih.imp_right (List.mem_cons_of_mem quantity)

theorem le_foldr_max {quantities : List ℚ} {quantity : ℚ} (h : quantity ∈ quantities) :
    quantity ≤ quantities.foldr max 0 := by
  induction quantities with
  | nil => exact nomatch h
  | cons head quantities ih =>
      obtain rfl | h := List.mem_cons.mp h
      · exact le_max_left _ _
      · exact (ih h).trans (le_max_right _ _)

theorem filled_le_confirmedQuantity (hleg : leg ∈ legs) :
    leg.filled ≤ confirmedQuantity legs leg.role :=
  le_foldr_max (List.mem_map.mpr ⟨leg, List.mem_filter.mpr ⟨hleg, by simp⟩, rfl⟩)

/-- A positive confirmed quantity is reported by an outcome of the role. -/
theorem exists_confirmed (h : 0 < confirmedQuantity legs role) :
    ∃ leg ∈ legs, leg.role = role ∧ leg.filled = confirmedQuantity legs role := by
  obtain hzero | hmem := foldr_max_mem
    ((legs.filter (·.role = role)).map EntryLegOutcome.filled)
  · exact absurd hzero h.ne'
  · obtain ⟨leg, hleg, hfilled⟩ := List.mem_map.mp hmem
    obtain ⟨hleg, hrole⟩ := List.mem_filter.mp hleg
    exact ⟨leg, hleg, by simpa using hrole, hfilled⟩

theorem heardFill_le_confirmedQuantity : heardFill legs role ≤ confirmedQuantity legs role := by
  cases hheard : heard legs role with
  | none =>
      rw [heardFill, hheard]
      cases hq : (legs.filter (·.role = role)).map EntryLegOutcome.filled with
      | nil => rw [confirmedQuantity, hq]; exact le_rfl
      | cons quantity quantities =>
          have hmem : quantity ∈ (legs.filter (·.role = role)).map EntryLegOutcome.filled := by
            rw [hq]; exact List.mem_cons_self
          obtain ⟨leg, -, rfl⟩ := List.mem_map.mp hmem
          exact leg.filled_nonneg.trans (le_foldr_max hmem)
  | some leg =>
      obtain ⟨hleg, rfl⟩ := mem_of_heard hheard
      rw [heardFill, hheard]
      exact filled_le_confirmedQuantity hleg

theorem EntryLegOutcome.Provable.reading (h : leg.Provable) :
    ∃ quantity, leg.confirmedFilled = .finite quantity ∧ leg.confirmed = quantity ∧
      leg.filled = max 0 quantity := by
  have hfinite := h.2
  cases hread : leg.confirmedFilled with
  | finite quantity =>
      refine ⟨quantity, rfl, ?_, ?_⟩
      · rw [EntryLegOutcome.confirmed, hread]
        rfl
      · simp only [EntryLegOutcome.filled, hread, Number.finite?_finite]
  | nan => rw [hread] at hfinite; exact nomatch hfinite
  | infinity => rw [hread] at hfinite; exact nomatch hfinite
  | negativeInfinity => rw [hread] at hfinite; exact nomatch hfinite

/-- A provable quantity that counts is the one that was read. -/
theorem EntryLegOutcome.Provable.confirmedFilled_eq (h : leg.Provable) (hpos : 0 < leg.filled) :
    leg.confirmedFilled = .finite leg.filled := by
  obtain ⟨quantity, hread, -, hfilled⟩ := h.reading
  rw [hfilled, lt_max_iff] at hpos
  rw [hread, hfilled, max_eq_right (hpos.resolve_left (lt_irrefl 0)).le]

theorem EntryLegOutcome.Provable.isPositive_iff (h : leg.Provable) :
    leg.confirmedFilled.isPositive = false ↔ leg.filled ≤ 0 := by
  obtain ⟨quantity, hread, -, hfilled⟩ := h.reading
  simp [hread, hfilled, Number.isPositive]

end Reports

section Reversals

variable {legs : List EntryLegOutcome} {leg : EntryLegOutcome} {role : BoxLegRole}
variable {roles : List BoxLegRole} {unwind : List PlannedUnwind} {u : PlannedUnwind}

theorem reversal_eq_some (h : reversal legs role = some u) :
    ∃ leg, heard legs role = some leg ∧ 0 < leg.filled ∧
      u = ⟨role, reverseSide leg.side, leg.filled⟩ := by
  obtain ⟨leg, hheard, hu⟩ := Option.bind_eq_some_iff.mp h
  split at hu
  case isTrue => exact nomatch hu
  case isFalse hpos => exact ⟨leg, hheard, not_le.mp hpos, (Option.some.inj hu).symm⟩

theorem reversal_of_pos (h : 0 < heardFill legs role) :
    ∃ leg, heard legs role = some leg ∧ leg.filled = heardFill legs role ∧
      reversal legs role = some ⟨role, reverseSide leg.side, leg.filled⟩ := by
  cases hheard : heard legs role with
  | none =>
      rw [heardFill, hheard] at h
      exact absurd h (lt_irrefl 0)
  | some leg =>
      have hfill : heardFill legs role = leg.filled := by rw [heardFill, hheard]; rfl
      rw [hfill] at h
      exact ⟨leg, rfl, hfill.symm, by rw [reversal, hheard]; exact if_neg (not_le.mpr h)⟩

/-- A role is reversed once for each time it is expected. -/
theorem filter_reversals (legs : List EntryLegOutcome) (roles : List BoxLegRole)
    (role : BoxLegRole) :
    (roles.filterMap (reversal legs)).filter (·.role = role) =
      (reversal legs role).elim [] (List.replicate (roles.count role)) := by
  induction roles with
  | nil => cases reversal legs role <;> rfl
  | cons head roles ih =>
      have hrole : ∀ u, reversal legs head = some u → u.role = head := by
        intro u hu
        obtain ⟨leg, -, -, rfl⟩ := reversal_eq_some hu
        rfl
      by_cases heq : head = role
      case pos =>
        subst heq
        cases hhead : reversal legs head with
        | none => simpa [hhead] using ih
        | some u =>
            rw [hhead] at ih
            simp [hhead, hrole u hhead, ih, List.replicate_succ]
      case neg =>
        rw [List.count_cons_of_ne heq, ← ih, List.filterMap_cons]
        cases hhead : reversal legs head with
        | none => rfl
        | some u =>
            rw [List.filter_cons_of_neg]
            simpa [hrole u hhead] using heq

/-- What a role has unwound is the sum of its reversals. -/
theorem unwoundInFull_from (unwind : List PlannedUnwind) (unwound : OrderedMap BoxLegRole ℚ)
    (role : BoxLegRole) :
    ((unwind.foldl (fun unwound item =>
        unwound.set item.role ((unwound.get? item.role).getD 0 + item.quantity))
      unwound).get? role).getD 0 =
      (unwound.get? role).getD 0 + ((unwind.filter (·.role = role)).map (·.quantity)).sum := by
  induction unwind generalizing unwound with
  | nil => simp
  | cons item unwind ih =>
      rw [List.foldl_cons, ih, OrderedMap.get?_set]
      by_cases heq : item.role = role
      case pos =>
        subst heq
        simp [add_assoc]
      case neg =>
        have hne : ¬ role = item.role := fun h => heq h.symm
        rw [if_neg hne, List.filter_cons_of_neg (by simpa using heq)]

theorem unwoundInFull_get? (unwind : List PlannedUnwind) (role : BoxLegRole) :
    ((unwoundInFull unwind).get? role).getD 0 =
      ((unwind.filter (·.role = role)).map (·.quantity)).sum := by
  rw [unwoundInFull, unwoundInFull_from]
  simp

end Reversals

section Conservation

variable {legs : List EntryLegOutcome} {leg : EntryLegOutcome}
variable {unwoundByRole : OrderedMap BoxLegRole ℚ} {result : ConservationResult}

theorem conservationViolations_eq_nil {unwound : ℚ} :
    conservationViolations leg unwound = [] ↔
      leg.overfilled = false ∧ unwound ≤ leg.confirmed := by
  simp [conservationViolations]

/-- Nothing is left and nothing is violated behind the outcomes checked. -/
def ConservationResult.Clean (result : ConservationResult) : Prop :=
  result.totalResidual = 0 ∧ result.violations = []

theorem clean_visit (hnonneg : 0 ≤ result.totalResidual) :
    (result.visit unwoundByRole leg).Clean ↔ result.Clean ∧ leg.overfilled = false ∧
      leg.confirmed = (unwoundByRole.get? leg.role).getD 0 := by
  simp only [ConservationResult.visit, ConservationResult.Clean, List.append_eq_nil_iff,
    conservationViolations_eq_nil]
  generalize (unwoundByRole.get? leg.role).getD 0 = unwound
  rw [add_eq_zero_iff_of_nonneg hnonneg (le_max_left _ _)]
  constructor
  · rintro ⟨⟨hzero, hresidual⟩, hviolations, hover, hle⟩
    have hge : leg.confirmed - unwound ≤ 0 := max_eq_left_iff.mp hresidual
    exact ⟨⟨hzero, hviolations⟩, hover, by linarith⟩
  · rintro ⟨⟨hzero, hviolations⟩, hover, rfl⟩
    exact ⟨⟨hzero, by simp⟩, hviolations, hover, le_rfl⟩

theorem clean_foldl (hnonneg : 0 ≤ result.totalResidual) :
    (legs.foldl (ConservationResult.visit unwoundByRole) result).Clean ↔
      result.Clean ∧ ∀ leg ∈ legs, leg.overfilled = false ∧
        leg.confirmed = (unwoundByRole.get? leg.role).getD 0 := by
  induction legs generalizing result with
  | nil => simp
  | cons leg legs ih =>
      have hvisit : 0 ≤ (result.visit unwoundByRole leg).totalResidual :=
        add_nonneg hnonneg (le_max_left _ _)
      rw [List.foldl_cons, ih hvisit, clean_visit hnonneg, List.forall_mem_cons, and_assoc]

/-- The check is clean where every outcome is unwound for what it reports. -/
theorem verify_clean :
    (verifyQuantityConservation legs unwoundByRole).Clean ↔
      ∀ leg ∈ legs, leg.overfilled = false ∧
        leg.confirmed = (unwoundByRole.get? leg.role).getD 0 := by
  rw [verifyQuantityConservation, clean_foldl le_rfl]
  simp [ConservationResult.Clean]

end Conservation

section Accounts

variable {legs : List EntryLegOutcome} {leg : EntryLegOutcome} {role : BoxLegRole}
variable {roles : List BoxLegRole}

/-- An outcome that reports a fill is carried: the order of every submitted outcome has ended,
and the outcome heard for the role, which is expected once, reports the confirmed quantity. -/
def Carried (legs : List EntryLegOutcome) (roles : List BoxLegRole) (leg : EntryLegOutcome) :
    Prop :=
  (∀ other ∈ legs, other.submitted = true → other.terminal = true) ∧
    roles.count leg.role = 1 ∧ heardFill legs leg.role = confirmedQuantity legs leg.role

/-- The outcomes a plan accounts for. Either the plan hears an unknown state, or every quantity
is proven and, where the plan sizes an unwind, each fill is carried and no two outcomes of
a role differ. -/
def Accountable (legs : List EntryLegOutcome) (roles : List BoxLegRole) : Prop :=
  (∃ role ∈ roles, Unknown legs role) ∨
    (∀ leg ∈ legs, leg.Provable) ∧
      ((roles ≠ [] ∧ ∀ role ∈ roles, Met legs role) ∨ (∃ role ∈ roles, Working legs role) ∨
        (∀ leg ∈ legs, 0 < leg.filled → Carried legs roles leg) ∧
          ((∀ leg ∈ legs, leg.overfilled = false) →
            ∀ leg ∈ legs, leg.confirmed = confirmedQuantity legs leg.role))

theorem not_unknown_of_met (h : Met legs role) : ¬ Unknown legs role := by
  obtain ⟨leg, hheard, hknown, -⟩ := h
  rintro ⟨other, hother, hunknown⟩
  obtain rfl := Option.some.inj (hheard.symm.trans hother)
  exact absurd hunknown (by rw [hknown]; exact nofun)

/-- Where nothing unknown is heard, every quantity has to be proven. -/
theorem accountable_iff (hknown : ∀ role ∈ roles, ¬ Unknown legs role) :
    Accountable legs roles ↔ (∀ leg ∈ legs, leg.Provable) ∧
      ((roles ≠ [] ∧ ∀ role ∈ roles, Met legs role) ∨ (∃ role ∈ roles, Working legs role) ∨
        (∀ leg ∈ legs, 0 < leg.filled → Carried legs roles leg) ∧
          ((∀ leg ∈ legs, leg.overfilled = false) →
            ∀ leg ∈ legs, leg.confirmed = confirmedQuantity legs leg.role)) :=
  or_iff_right fun ⟨role, hrole, hunknown⟩ => hknown role hrole hunknown

/-- An answer that unwinds nothing and does not deny an exposure owes only the quarantine. -/
theorem accounts_iff_unknown {plan : PartialEntryPlan}
    (hunwind : plan.action ≠ .unwindConfirmedExposure) (hnothing : plan.action ≠ .noExposure)
    (hnil : plan.unwind = []) : Accounts legs plan ↔
      ((∃ leg ∈ legs, ¬ leg.Provable) → plan.action = .quarantineUnknown) := by
  refine ⟨fun h => h.unknown, fun h => ⟨fun ha => absurd ha hunwind, fun ha => absurd ha hunwind,
    ?_, fun ha => absurd ha hnothing, h, ?_⟩⟩
  · rw [hnil]
    exact fun u hu => nomatch hu
  · rintro (ha | ha)
    · exact absurd ha hunwind
    · exact absurd ha hnothing

theorem forall_provable_of_accounts {plan : PartialEntryPlan} (h : Accounts legs plan)
    (haction : plan.action ≠ .quarantineUnknown) : ∀ leg ∈ legs, leg.Provable := by
  intro leg hleg
  by_contra hprovable
  exact haction (h.unknown ⟨leg, hleg, hprovable⟩)

theorem confirmedQuantity_nonneg : 0 ≤ confirmedQuantity legs role :=
  (heardFill_nonneg legs role).trans heardFill_le_confirmedQuantity

theorem confirmedQuantity_eq_zero (h : ∀ leg ∈ legs, leg.filled ≤ 0) :
    confirmedQuantity legs role = 0 := by
  by_contra hne
  obtain ⟨leg, hleg, -, hfilled⟩ :=
    exists_confirmed (confirmedQuantity_nonneg.lt_of_ne' hne)
  exact hne (le_antisymm (hfilled ▸ h leg hleg) confirmedQuantity_nonneg)

/-- The answer that there is no exposure. -/
theorem accounts_nothing {plan : PartialEntryPlan} (haction : plan.action = .noExposure)
    (hnil : plan.unwind = []) (htotal : ∀ role ∈ roles, heardFill legs role = 0) :
    Accounts legs plan ↔ (∀ leg ∈ legs, leg.Provable) ∧
      (∀ leg ∈ legs, 0 < leg.filled → Carried legs roles leg) ∧
        ((∀ leg ∈ legs, leg.overfilled = false) →
          ∀ leg ∈ legs, leg.confirmed = confirmedQuantity legs leg.role) := by
  have hunwound : ∀ role, ((unwoundInFull plan.unwind).get? role).getD 0 = 0 := by
    intro role
    rw [hnil]
    rfl
  constructor
  · intro h
    have hprovable := forall_provable_of_accounts h (by rw [haction]; exact nofun)
    have hnone : ∀ leg ∈ legs, leg.filled ≤ 0 := fun leg hleg =>
      (hprovable leg hleg).isPositive_iff.mp (h.nothing haction leg hleg).1
    refine ⟨hprovable, fun leg hleg hpos => absurd (hnone leg hleg) (not_le.mpr hpos), ?_⟩
    intro hover leg hleg
    have hclean := verify_clean.mp (h.conserved (.inr haction) hover)
    rw [(hclean leg hleg).2, hunwound, confirmedQuantity_eq_zero hnone]
  · rintro ⟨hprovable, hcarried, hagree⟩
    have hnone : ∀ leg ∈ legs, leg.filled ≤ 0 := by
      intro leg hleg
      by_contra hpos
      obtain ⟨-, hcount, hheard⟩ := hcarried leg hleg (not_le.mp hpos)
      have hrole : leg.role ∈ roles := List.count_pos_iff.mp (by omega)
      rw [htotal leg.role hrole] at hheard
      exact hpos (hheard ▸ filled_le_confirmedQuantity hleg)
    refine ⟨fun ha => ?_, fun ha => ?_, ?_, ?_, ?_, ?_⟩
    · rw [haction] at ha
      exact nomatch ha
    · rw [haction] at ha
      exact nomatch ha
    · rw [hnil]
      exact fun u hu => nomatch hu
    · intro _ leg hleg
      exact ⟨(hprovable leg hleg).isPositive_iff.mpr (hnone leg hleg), hprovable leg hleg⟩
    · rintro ⟨leg, hleg, hnot⟩
      exact absurd (hprovable leg hleg) hnot
    · intro _ hover
      refine verify_clean.mpr fun leg hleg => ⟨hover leg hleg, ?_⟩
      rw [hagree hover leg hleg, hunwound, confirmedQuantity_eq_zero hnone]

/-- A role is unwound once, for its confirmed quantity, exactly when it is expected once and the
outcome heard for it reports this quantity. -/
theorem reversed_iff (hpos : 0 < confirmedQuantity legs role) :
    (∃ u, (roles.filterMap (reversal legs)).filter (·.role = role) = [u] ∧
        u.quantity = confirmedQuantity legs role) ↔
      roles.count role = 1 ∧ heardFill legs role = confirmedQuantity legs role := by
  rw [filter_reversals]
  constructor
  · rintro ⟨u, hfilter, hquantity⟩
    cases hreversal : reversal legs role with
    | none =>
        rw [hreversal] at hfilter
        exact nomatch hfilter
    | some v =>
        rw [hreversal] at hfilter
        have hcount : roles.count role = 1 := by
          simpa using congrArg List.length hfilter
        rw [hcount] at hfilter
        obtain rfl : v = u := (List.cons.inj hfilter).1
        obtain ⟨leg, hheard, -, rfl⟩ := reversal_eq_some hreversal
        refine ⟨hcount, ?_⟩
        rw [heardFill, hheard]
        exact hquantity
  · rintro ⟨hcount, hheard⟩
    obtain ⟨leg, -, hfilled, hreversal⟩ := reversal_of_pos (by rwa [hheard])
    refine ⟨_, by rw [hreversal, hcount]; rfl, ?_⟩
    exact hfilled.trans hheard

/-- Reversals of the confirmed quantities unwind these and nothing else. -/
theorem unwound_eq_confirmedQuantity (h : 0 < confirmedQuantity legs role →
      roles.count role = 1 ∧ heardFill legs role = confirmedQuantity legs role) :
    ((unwoundInFull (roles.filterMap (reversal legs))).get? role).getD 0 =
      confirmedQuantity legs role := by
  rw [unwoundInFull_get?]
  by_cases hpos : 0 < confirmedQuantity legs role
  case pos =>
    obtain ⟨u, hfilter, hquantity⟩ := (reversed_iff hpos).mpr (h hpos)
    rw [hfilter]
    simpa using hquantity
  case neg =>
    have hzero : confirmedQuantity legs role = 0 :=
      le_antisymm (not_lt.mp hpos) confirmedQuantity_nonneg
    have hnone : reversal legs role = none := by
      cases hreversal : reversal legs role with
      | none => rfl
      | some u =>
          obtain ⟨leg, hheard, hfilled, -⟩ := reversal_eq_some hreversal
          obtain ⟨hleg, rfl⟩ := mem_of_heard hheard
          exact absurd (hfilled.trans_le (filled_le_confirmedQuantity hleg)) hpos
    rw [filter_reversals, hnone, hzero]
    rfl

/-- The answer that unwinds. -/
theorem accounts_unwind {plan : PartialEntryPlan}
    (haction : plan.action = .unwindConfirmedExposure)
    (hunwind : plan.unwind = roles.filterMap (reversal legs))
    (htotal : ∃ role ∈ roles, 0 < heardFill legs role) :
    Accounts legs plan ↔ (∀ leg ∈ legs, leg.Provable) ∧
      (∀ leg ∈ legs, 0 < leg.filled → Carried legs roles leg) ∧
        ((∀ leg ∈ legs, leg.overfilled = false) →
          ∀ leg ∈ legs, leg.confirmed = confirmedQuantity legs leg.role) := by
  constructor
  · intro h
    have hreversed : ∀ role, 0 < confirmedQuantity legs role →
        roles.count role = 1 ∧ heardFill legs role = confirmedQuantity legs role := by
      intro role hpos
      obtain ⟨u, hfilter, hquantity, -⟩ := h.unwinds haction role hpos
      exact (reversed_iff hpos).mp ⟨u, hunwind ▸ hfilter, hquantity⟩
    refine ⟨forall_provable_of_accounts h (by rw [haction]; exact nofun), ?_, ?_⟩
    · intro leg hleg hpos
      refine ⟨fun other hother hsubmitted => (h.settled haction other hother hsubmitted).1, ?_⟩
      exact hreversed leg.role (hpos.trans_le (filled_le_confirmedQuantity hleg))
    · intro hover leg hleg
      have hclean := verify_clean.mp (h.conserved (.inl haction) hover)
      rw [(hclean leg hleg).2, hunwind, unwound_eq_confirmedQuantity (hreversed leg.role)]
  · rintro ⟨hprovable, hcarried, hagree⟩
    have hreversed : ∀ role, 0 < confirmedQuantity legs role →
        roles.count role = 1 ∧ heardFill legs role = confirmedQuantity legs role := by
      intro role hpos
      obtain ⟨leg, hleg, rfl, hfilled⟩ := exists_confirmed hpos
      exact (hcarried leg hleg (hfilled ▸ hpos)).2
    refine ⟨?_, ?_, ?_, fun ha => ?_, ?_, ?_⟩
    · intro _ leg hleg hsubmitted
      obtain ⟨role, -, hpos⟩ := htotal
      obtain ⟨heardLeg, hheard, hfilled, -⟩ := reversal_of_pos hpos
      obtain ⟨hterminal, -⟩ := hcarried heardLeg (mem_of_heard hheard).1 (hfilled ▸ hpos)
      exact ⟨hterminal leg hleg hsubmitted, (hprovable leg hleg).1⟩
    · intro _ role hpos
      obtain ⟨hcount, hheardFill⟩ := hreversed role hpos
      obtain ⟨leg, hheard, hfilled, hreversal⟩ := reversal_of_pos (by rwa [hheardFill])
      obtain ⟨hleg, rfl⟩ := mem_of_heard hheard
      have hquantity : leg.filled = confirmedQuantity legs leg.role := hfilled.trans hheardFill
      refine ⟨⟨leg.role, reverseSide leg.side, leg.filled⟩, ?_, hquantity, leg, hleg, rfl, rfl,
        (hprovable leg hleg).confirmedFilled_eq (hquantity ▸ hpos)⟩
      rw [hunwind, filter_reversals, hreversal, hcount]
      rfl
    · intro u hu
      rw [hunwind] at hu
      obtain ⟨role, -, hreversal⟩ := List.mem_filterMap.mp hu
      obtain ⟨leg, hheard, hfilled, rfl⟩ := reversal_eq_some hreversal
      obtain ⟨hleg, rfl⟩ := mem_of_heard hheard
      exact hfilled.trans_le (filled_le_confirmedQuantity hleg)
    · rw [haction] at ha
      exact nomatch ha
    · rintro ⟨leg, hleg, hnot⟩
      exact absurd (hprovable leg hleg) hnot
    · intro _ hover
      refine verify_clean.mpr fun leg hleg => ⟨hover leg hleg, ?_⟩
      rw [hagree hover leg hleg, hunwind, unwound_eq_confirmedQuantity (hreversed leg.role)]

/-- A plan accounts for its outcomes exactly when these are accountable. -/
theorem accounts_iff_accountable (legs : List EntryLegOutcome) (roles : List BoxLegRole) :
    Accounts legs (planPartialEntryRecovery legs roles) ↔ Accountable legs roles := by
  have hanswers := plan_answers legs roles
  generalize planPartialEntryRecovery legs roles = plan at hanswers ⊢
  generalize haction : plan.action = action at hanswers
  generalize hunwind : plan.unwind = unwind at hanswers
  cases hanswers with
  | qualify hroles hmet =>
      have hknown : ∀ role ∈ roles, ¬ Unknown legs role := fun role hrole =>
        not_unknown_of_met (hmet role hrole)
      rw [accounts_iff_unknown (by rw [haction]; exact nofun) (by rw [haction]; exact nofun)
        hunwind, accountable_iff hknown, haction]
      constructor
      · intro h
        refine ⟨fun leg hleg => ?_, .inl ⟨hroles, hmet⟩⟩
        by_contra hnot
        exact nomatch h ⟨leg, hleg, hnot⟩
      · rintro ⟨hprovable, -⟩ ⟨leg, hleg, hnot⟩
        exact absurd (hprovable leg hleg) hnot
  | quarantine hunknown =>
      rw [accounts_iff_unknown (by rw [haction]; exact nofun) (by rw [haction]; exact nofun)
        hunwind]
      exact ⟨fun _ => .inl hunknown, fun _ _ => haction⟩
  | await hknown hworking =>
      rw [accounts_iff_unknown (by rw [haction]; exact nofun) (by rw [haction]; exact nofun)
        hunwind, accountable_iff hknown, haction]
      constructor
      · intro h
        refine ⟨fun leg hleg => ?_, .inr (.inl hworking)⟩
        by_contra hnot
        exact nomatch h ⟨leg, hleg, hnot⟩
      · rintro ⟨hprovable, -⟩ ⟨leg, hleg, hnot⟩
        exact absurd (hprovable leg hleg) hnot
  | nothing hknown hdone hshort htotal =>
      rw [accounts_nothing haction hunwind htotal, accountable_iff hknown, or_iff_right hshort,
        or_iff_right fun ⟨role, hrole, hworking⟩ => hdone role hrole hworking]
  | unwind hknown hdone hshort htotal =>
      rw [accounts_unwind haction hunwind htotal, accountable_iff hknown, or_iff_right hshort,
        or_iff_right fun ⟨role, hrole, hworking⟩ => hdone role hrole hworking]

/-- A quantity that is not a number is taken for a leg that did not fill. -/
theorem unprovable_reading_denied :
    ¬ Accounts [⟨.k1Ce, .buy, .finite 65, .nan, true, true, true⟩]
      (planPartialEntryRecovery [⟨.k1Ce, .buy, .finite 65, .nan, true, true, true⟩]
        boxLegRoles) := by
  intro h
  have haction := h.unknown ⟨_, List.mem_singleton_self _, by decide⟩
  exact absurd haction (by decide +kernel)

end Accounts

end Strikedge.ExecutionGateway.EntryRecovery
