import Mathlib.Algebra.GroupWithZero.Nat
import Mathlib.Algebra.Ring.Int.Defs
import Mathlib.Data.List.Infix
import Mathlib.Data.List.Sort
import Strikedge.Machine.Arithmetic
import Strikedge.Machine.OrderedMap
import Strikedge.Orders.Types

/-!
# What an entry comes to

`simulateLeggingEntry` from the moment its four submissions have settled. The gateway does
not see what the manager did with a leg: it sees an order or an error, and reads from these
whether the leg is uncertain, what it filled, or that it was never submitted. An entry that
is not complete is recovered by the plan of `planPartialEntryRecovery`.
-/

namespace Strikedge.ExecutionGateway

open Machine Orders

inductive PartialEntryAction where
  | qualifyCompleteBox
  | noExposure
  | unwindConfirmedExposure
  | awaitTerminal
  | quarantineUnknown
  deriving DecidableEq, Repr

def PartialEntryAction.text : PartialEntryAction → String
  | .qualifyCompleteBox => "qualify_complete_box"
  | .noExposure => "no_exposure"
  | .unwindConfirmedExposure => "unwind_confirmed_exposure"
  | .awaitTerminal => "await_terminal"
  | .quarantineUnknown => "quarantine_unknown"

def reverseSide : OrderSide → OrderSide
  | .buy => .sell
  | .sell => .buy

namespace EntryRecovery

/-- One entry leg's outcome, as observed from the broker. -/
structure EntryLegOutcome where
  role : BoxLegRole
  side : OrderSide
  requested : Number
  confirmedFilled : Number
  terminal : Bool
  submitted : Bool
  brokerStateKnown : Bool
  deriving DecidableEq, Repr

structure PlannedUnwind where
  role : BoxLegRole
  side : OrderSide
  quantity : ℚ
  deriving DecidableEq, Repr

structure PartialEntryPlan where
  action : PartialEntryAction
  complete : Bool := false
  quantityUnknown : Bool := false
  cancelRoles : List BoxLegRole := []
  awaitTerminalRoles : List BoxLegRole := []
  stopSubmitRoles : List BoxLegRole := []
  unwind : List PlannedUnwind := []
  totalConfirmedQuantity : ℚ
  confirmedByRole : OrderedMap BoxLegRole ℚ

/-- The variables of the loop over the expected roles. -/
structure Survey where
  confirmedByRole : OrderedMap BoxLegRole ℚ := ∅
  cancelRoles : List BoxLegRole := []
  awaitTerminalRoles : List BoxLegRole := []
  stopSubmitRoles : List BoxLegRole := []
  totalConfirmed : ℚ := 0
  quantityUnknown : Bool := false
  allRequestedMet : Bool := true

/-- The last outcome listed for a role. -/
def outcomeOf (legs : List EntryLegOutcome) (role : BoxLegRole) : Option EntryLegOutcome :=
  legs.reverse.find? (·.role = role)

/-- A negative reading is clamped to zero, and one that is not finite counts as zero. -/
def EntryLegOutcome.filled (leg : EntryLegOutcome) : ℚ :=
  match leg.confirmedFilled.finite? with
  | some confirmed => max 0 confirmed
  | none => 0

/-- One turn of the loop. -/
def Survey.visit (legs : List EntryLegOutcome) (s : Survey) (role : BoxLegRole) : Survey :=
  match (outcomeOf legs role).filter (·.submitted) with
  | none =>
      { s with
        stopSubmitRoles := s.stopSubmitRoles ++ [role]
        allRequestedMet := false
        confirmedByRole := s.confirmedByRole.set role 0 }
  | some leg =>
      let filled := leg.filled
      let s := { s with
        confirmedByRole := s.confirmedByRole.set role filled
        totalConfirmed := s.totalConfirmed + filled }
      if !leg.brokerStateKnown then
        { s with quantityUnknown := true, allRequestedMet := false }
      else if !leg.terminal then
        { s with
          cancelRoles := s.cancelRoles ++ [role]
          awaitTerminalRoles := s.awaitTerminalRoles ++ [role]
          allRequestedMet := false }
      else if (Number.finite filled).less leg.requested then { s with allRequestedMet := false }
      else s

/-- The reversals of the confirmed exposure. -/
def plannedUnwinds (legs : List EntryLegOutcome) (confirmedByRole : OrderedMap BoxLegRole ℚ)
    (expectedRoles : List BoxLegRole) : List PlannedUnwind :=
  expectedRoles.filterMap fun role =>
    match outcomeOf legs role with
    | none => none
    | some leg =>
      let filled := (confirmedByRole.get? role).getD 0
      if filled ≤ 0 then none else some ⟨role, reverseSide leg.side, filled⟩

def planPartialEntryRecovery (legs : List EntryLegOutcome) (expectedRoles : List BoxLegRole) :
    PartialEntryPlan :=
  let s := expectedRoles.foldl (Survey.visit legs) {}
  if s.allRequestedMet ∧ 0 < expectedRoles.length then
    { action := .qualifyCompleteBox
      complete := true
      totalConfirmedQuantity := s.totalConfirmed
      confirmedByRole := s.confirmedByRole }
  else if s.quantityUnknown then
    -- unknown outranks everything
    { action := .quarantineUnknown
      quantityUnknown := true
      cancelRoles := s.cancelRoles
      awaitTerminalRoles := s.awaitTerminalRoles
      stopSubmitRoles := s.stopSubmitRoles
      totalConfirmedQuantity := s.totalConfirmed
      confirmedByRole := s.confirmedByRole }
  else if 0 < s.awaitTerminalRoles.length then
    { action := .awaitTerminal
      cancelRoles := s.cancelRoles
      awaitTerminalRoles := s.awaitTerminalRoles
      stopSubmitRoles := s.stopSubmitRoles
      totalConfirmedQuantity := s.totalConfirmed
      confirmedByRole := s.confirmedByRole }
  else if s.totalConfirmed = 0 then
    { action := .noExposure
      cancelRoles := s.cancelRoles
      awaitTerminalRoles := s.awaitTerminalRoles
      stopSubmitRoles := s.stopSubmitRoles
      totalConfirmedQuantity := 0
      confirmedByRole := s.confirmedByRole }
  else
    { action := .unwindConfirmedExposure
      cancelRoles := s.cancelRoles
      awaitTerminalRoles := s.awaitTerminalRoles
      stopSubmitRoles := s.stopSubmitRoles
      unwind := plannedUnwinds legs s.confirmedByRole expectedRoles
      totalConfirmedQuantity := s.totalConfirmed
      confirmedByRole := s.confirmedByRole }

/-- The detail of a plan that quarantines or waits, which is the one that is handed on. -/
def PartialEntryPlan.unsettledDetail (plan : PartialEntryPlan) : String :=
  if plan.quantityUnknown then
    "at least one leg's broker filled quantity is unprovable (UNKNOWN / " ++
    "RECONCILIATION_REQUIRED); quarantining instead of unwinding, because unwinding an " ++
    "unproven quantity would create opposite naked exposure"
  else
    s!"{plan.awaitTerminalRoles.length} leg(s) are still working; cancellation requested and " ++
    "the plan will be rebuilt from authoritative terminal quantities, since a cancel can " ++
    "race a fill"

section Plan

variable {legs : List EntryLegOutcome} {role : BoxLegRole} {roles : List BoxLegRole} {s : Survey}

/-- The quantities of the legs are proven. -/
def AllTerminal (legs : List EntryLegOutcome) : Prop :=
  ∀ leg ∈ legs, leg.brokerStateKnown = true ∧ leg.terminal = true

/-- Nothing in the survey asks to wait or to quarantine. -/
def Survey.Settled (s : Survey) : Prop :=
  s.quantityUnknown = false ∧ s.awaitTerminalRoles = []

theorem Survey.Settled.visit (hlegs : AllTerminal legs) (h : s.Settled) :
    (s.visit legs role).Settled := by
  rw [Survey.visit]
  split
  · exact h
  next leg hleg =>
    have hmem : leg ∈ legs := by
      rw [Option.filter_eq_some_iff] at hleg
      exact List.mem_reverse.mp (List.mem_of_find?_eq_some hleg.1)
    obtain ⟨hknown, hterminal⟩ := hlegs leg hmem
    simp only [hknown, hterminal, Bool.not_true, Bool.false_eq_true, if_false]
    split
    · exact h
    · exact h

theorem Survey.Settled.survey (h : s.Settled) (roles : List BoxLegRole)
    (hlegs : AllTerminal legs) : (roles.foldl (Survey.visit legs) s).Settled := by
  induction roles generalizing s with
  | nil => exact h
  | cons role roles ih => exact ih (h.visit hlegs)

/-- A plan made from proven quantities never waits and never quarantines. -/
theorem action_of_allTerminal (hlegs : AllTerminal legs) (roles : List BoxLegRole) :
    (planPartialEntryRecovery legs roles).action ≠ .quarantineUnknown ∧
      (planPartialEntryRecovery legs roles).action ≠ .awaitTerminal := by
  have hinit : ({} : Survey).Settled := ⟨rfl, rfl⟩
  obtain ⟨hknown, hwait⟩ := hinit.survey roles hlegs
  simp only [planPartialEntryRecovery, hknown, hwait, Bool.false_eq_true, if_false, ne_eq,
    List.length_nil, Nat.lt_irrefl]
  split
  · exact ⟨nofun, nofun⟩
  · split
    · exact ⟨nofun, nofun⟩
    · exact ⟨nofun, nofun⟩

end Plan

end EntryRecovery

open EntryRecovery

/-- How one submission settled, under the role of its request. The order of a result has
the role of the request too. -/
abbrev Settled := BoxLegRole × Except OrderError BrokerOrder

/-- A message contains one of some words, in any case. -/
def mentions (words : List String) (message : String) : Bool :=
  words.any fun word => includes message.toLower word

/-- `/unknown|ambiguous|reconcil/i` -/
def uncertainText (message : String) : Bool :=
  mentions ["unknown", "ambiguous", "reconcil"] message

/-- The order that survives a settlement. -/
def survivingOrder : Except OrderError BrokerOrder → Option BrokerOrder
  | .ok order => some order
  | .error (.ambiguousSubmit _ order) => order
  | .error (.persistenceAfterFill order) => some order
  | .error _ => none

def ordersFromSettled (settled : List Settled) : List (BoxLegRole × BrokerOrder) :=
  settled.filterMap fun (role, result) => (survivingOrder result).map (role, ·)

/-- Back to the canonical order of the roles. -/
def canonicalRoleOrder (orders : List (BoxLegRole × BrokerOrder)) :
    List (BoxLegRole × BrokerOrder) :=
  orders.insertionSort fun a b => boxLegRoles.idxOf a.1 ≤ boxLegRoles.idxOf b.1

/-- A rejection the gateway takes for uncertain. -/
def uncertainRejection : OrderError → Bool
  | .persistenceAfterFill _ => true
  | error => uncertainText error.message

/-- `uncertain` of the settle classification. -/
def uncertain (settled : List Settled) (orders : List (BoxLegRole × BrokerOrder)) : Bool :=
  settled.any (fun (_, result) =>
      match result with
      | .ok _ => false
      | .error error => uncertainRejection error) ||
    orders.any fun (_, order) => isReconcileState order.state

/-- The outcome of one request. A role without an order is taken for never submitted. -/
def entryLegOutcome (orders : List (BoxLegRole × BrokerOrder)) (request : BrokerOrderRequest) :
    EntryLegOutcome :=
  match orders.reverse.find? (·.1 = request.role) with
  | none =>
      { role := request.role
        side := request.side
        requested := .finite request.quantity
        confirmedFilled := .finite 0
        terminal := true
        submitted := false
        brokerStateKnown := true }
  | some (role, order) =>
      let provable := !isReconcileState order.state
      { role := role
        side := order.side
        requested := .finite order.quantity
        confirmedFilled := .finite order.filledQuantity
        terminal := provable
        submitted := true
        brokerStateKnown := provable }

def entryLegOutcomes (requests : List BrokerOrderRequest)
    (orders : List (BoxLegRole × BrokerOrder)) : List EntryLegOutcome :=
  requests.map (entryLegOutcome orders)

/-- What the reversals left of the confirmed fills. -/
def residualAfterUnwind (entries unwinds : List (BoxLegRole × BrokerOrder)) :
    List (BoxLegRole × Nat) :=
  entries.filterMap fun (role, entry) =>
    let reversed := (unwinds.reverse.find? (·.1 = role)).elim 0 (·.2.filledQuantity)
    if entry.filledQuantity ≤ reversed then none
    else some (role, entry.filledQuantity - reversed)

/-- What `simulateLeggingEntry` does and returns once the submissions have settled. -/
structure EntryConclusion where
  opened : Bool := false
  /-- the reason it hands to `manager.invariantViolation` when it quarantines the entry -/
  quarantine : Option String := none
  /-- the outcomes the recovery is planned from -/
  outcomes : List EntryLegOutcome := []
  /-- the confirmed orders it has reversed -/
  unwound : List (BoxLegRole × BrokerOrder) := []
  residual : List (BoxLegRole × Nat) := []
  reason : Option String := none
  detail : String := ""
  outcomeClass : Option String := none
  deriving DecidableEq, Repr

/-- The confirmed orders `unwindConfirmed` has to reverse. -/
def confirmedExposure (orders : List (BoxLegRole × BrokerOrder)) :
    List (BoxLegRole × BrokerOrder) :=
  orders.filter (0 < ·.2.filledQuantity)

/-- The recovery of an entry that is not complete. `unwinds` are the orders its reversals
come back with. -/
def recoverEntry (attemptId : AttemptId) (requests : List BrokerOrderRequest)
    (orders unwinds : List (BoxLegRole × BrokerOrder)) : EntryConclusion :=
  let outcomes := entryLegOutcomes requests orders
  let plan := planPartialEntryRecovery outcomes boxLegRoles
  match plan.action with
  | .quarantineUnknown | .awaitTerminal =>
      { quarantine := some <|
          s!"live entry {attemptId} reached partial-entry recovery with a non-terminal or " ++
          s!"unprovable leg ({plan.action.text}); quarantined instead of unwinding"
        outcomes := outcomes
        reason := some "legging_incomplete"
        detail := s!"entry quarantined: {plan.unsettledDetail}"
        outcomeClass := some "QUARANTINED_UNKNOWN" }
  | .noExposure =>
      { outcomes := outcomes
        residual := residualAfterUnwind orders []
        reason := some "legging_incomplete"
        detail := "entry did not fill; no exposure to unwind"
        outcomeClass := some "NO_FILL" }
  | .qualifyCompleteBox | .unwindConfirmedExposure =>
      let residual := residualAfterUnwind orders unwinds
      { outcomes := outcomes
        unwound := confirmedExposure orders
        residual := residual
        reason := some "legging_incomplete"
        detail := "entry incomplete; confirmed fills were protectively unwound"
        outcomeClass := some <|
          if residual = [] then "PARTIAL_ENTRY_UNWOUND" else "PARTIAL_ENTRY_RESIDUAL" }

/-- `simulateLeggingEntry` after `Promise.allSettled`. `qualifies` is the verdict on the
executed prices. -/
def concludeEntry (attemptId : AttemptId) (requests : List BrokerOrderRequest)
    (settled : List Settled) (unwinds : List (BoxLegRole × BrokerOrder)) (qualifies : Bool) :
    EntryConclusion :=
  let orders := canonicalRoleOrder (ordersFromSettled settled)
  if uncertain settled orders then
    { quarantine := some s!"live entry {attemptId} has uncertain broker terminal quantity"
      reason := some "legging_incomplete"
      detail := "broker terminal quantity is uncertain; entry quarantined" }
  else if orders.length = requests.length ∧
      ∀ entry ∈ orders, entry.2.quantity ≤ entry.2.filledQuantity then
    if qualifies then { opened := true, outcomeClass := some "OPENED" }
    else
      { unwound := confirmedExposure orders
        residual := residualAfterUnwind orders unwinds
        reason := some "abort_after_fill"
        detail := "executed prices failed final economics; confirmed box was unwound"
        outcomeClass := some "FILLED_THEN_ECONOMICS_ABORT" }
  else recoverEntry attemptId requests orders unwinds

/-- The quarantine branch was taken: the violation is raised, nothing is reversed and no
leg is taken for never submitted. -/
def EntryConclusion.Quarantined (c : EntryConclusion) : Prop :=
  c.quarantine.isSome = true ∧ c.unwound = [] ∧ ∀ leg ∈ c.outcomes, leg.submitted = true

instance (c : EntryConclusion) : Decidable c.Quarantined :=
  inferInstanceAs (Decidable (_ ∧ _))

section Conclusion

variable {settled : List Settled} {orders unwinds : List (BoxLegRole × BrokerOrder)}
variable {requests : List BrokerOrderRequest} {attemptId : AttemptId} {qualifies : Bool}

/-- What one settlement shows of its leg: the gateway takes it for uncertain. -/
def shows (result : Except OrderError BrokerOrder) : Bool :=
  (match result with
    | .ok _ => false
    | .error error => uncertainRejection error) ||
  (survivingOrder result).any fun order => isReconcileState order.state

theorem mem_canonicalRoleOrder {entry : BoxLegRole × BrokerOrder} :
    entry ∈ canonicalRoleOrder orders ↔ entry ∈ orders :=
  (List.perm_insertionSort _ orders).mem_iff

/-- The entry is uncertain exactly when one of its settlements shows it. -/
theorem uncertain_iff :
    uncertain settled (canonicalRoleOrder (ordersFromSettled settled)) = true ↔
      ∃ leg ∈ settled, shows leg.2 = true := by
  simp only [uncertain, shows, Bool.or_eq_true, List.any_eq_true]
  constructor
  · rintro (⟨leg, hleg, hrejected⟩ | ⟨entry, hentry, hstate⟩)
    · exact ⟨leg, hleg, .inl hrejected⟩
    · rw [mem_canonicalRoleOrder, ordersFromSettled, List.mem_filterMap] at hentry
      obtain ⟨leg, hleg, horder⟩ := hentry
      obtain ⟨order, hsurvives, rfl⟩ := Option.map_eq_some_iff.mp horder
      refine ⟨leg, hleg, .inr ?_⟩
      rw [hsurvives]
      exact hstate
  · rintro ⟨leg, hleg, hrejected | hstate⟩
    · exact .inl ⟨leg, hleg, hrejected⟩
    · cases hsurvives : survivingOrder leg.2 with
      | none => simp [hsurvives] at hstate
      | some order =>
          rw [hsurvives] at hstate
          refine .inr ⟨(leg.1, order), ?_, hstate⟩
          rw [mem_canonicalRoleOrder, ordersFromSettled, List.mem_filterMap]
          refine ⟨leg, hleg, ?_⟩
          show (survivingOrder leg.2).map (leg.1, ·) = _
          rw [hsurvives]
          rfl

theorem allTerminal_entryLegOutcomes (requests : List BrokerOrderRequest)
    (h : ∀ entry ∈ orders, isReconcileState entry.2.state = false) :
    AllTerminal (entryLegOutcomes requests orders) := by
  intro leg hleg
  obtain ⟨request, -, rfl⟩ := List.mem_map.mp hleg
  rw [entryLegOutcome]
  split
  · exact ⟨rfl, rfl⟩
  next role order hfound =>
    have hstate := h _ (List.mem_reverse.mp (List.mem_of_find?_eq_some hfound))
    exact ⟨by simpa using hstate, by simpa using hstate⟩

theorem recoverEntry_quarantine (h : ∀ entry ∈ orders, isReconcileState entry.2.state = false) :
    (recoverEntry attemptId requests orders unwinds).quarantine = none := by
  obtain ⟨hunknown, hwait⟩ :=
    action_of_allTerminal (allTerminal_entryLegOutcomes requests h) boxLegRoles
  rw [recoverEntry]
  split
  next haction => exact absurd haction hunknown
  next haction => exact absurd haction hwait
  · rfl
  · rfl
  · rfl

/-- The entry is quarantined exactly when one of its settlements shows an uncertain leg. -/
theorem quarantined_iff :
    (concludeEntry attemptId requests settled unwinds qualifies).Quarantined ↔
      ∃ leg ∈ settled, shows leg.2 = true := by
  rw [← uncertain_iff, concludeEntry]
  by_cases huncertain :
      uncertain settled (canonicalRoleOrder (ordersFromSettled settled)) = true
  · simp [EntryConclusion.Quarantined, huncertain]
  · have hknown : ∀ entry ∈ canonicalRoleOrder (ordersFromSettled settled),
        isReconcileState entry.2.state = false := by
      intro entry hentry
      by_contra hstate
      apply huncertain
      rw [uncertain, Bool.or_eq_true]
      exact .inr (List.any_eq_true.mpr ⟨entry, hentry, by simpa using hstate⟩)
    rw [iff_false_right huncertain, if_neg huncertain]
    rintro ⟨hquarantine, -, -⟩
    revert hquarantine
    split
    · split
      · exact nofun
      · exact nofun
    · rw [recoverEntry_quarantine hknown]
      exact nofun

end Conclusion

end Strikedge.ExecutionGateway
