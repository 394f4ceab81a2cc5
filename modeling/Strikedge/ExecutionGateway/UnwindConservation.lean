import Strikedge.ExecutionGateway.ProtectiveUnwind
import Strikedge.Orders.Scheduling

/-!
# Cover and conservation of the unwind

At every moment what has been asked to be sold of a hedge leaves the short beside it covered,
as far as that short is not proven closed, and no role is reversed beyond its fill. The legs
that `residualAfterUnwind` derives are what is left of a role where its fill is in one order,
which is how the gateway submits an entry: one request a role.
-/

namespace Strikedge.ExecutionGateway

open Machine Orders

/-- The quantity of a role among residual legs. -/
def residualOf (residual : List (BoxLegRole × Nat)) (role : BoxLegRole) : Nat :=
  ((residual.filter (·.1 = role)).map (·.2)).sum

namespace Unwind

/-- The outcomes of a reversal: none, part or all of what it asks for fills. -/
def WithinRequest (u : Unwind) (label : UnwindLabel) : Prop :=
  match label with
  | .settle result => ∀ r ∈ u.inFlight, confirmedFill (r, result) ≤ r.quantity
  | .visit _ _ => True

instance (u : Unwind) (label : UnwindLabel) : Decidable (WithinRequest u label) :=
  match label with
  | .settle result =>
      inferInstanceAs (Decidable (∀ r ∈ u.inFlight, confirmedFill (r, result) ≤ r.quantity))
  | .visit _ _ => .isTrue trivial

/-- Cover is kept and no exposure is lost. -/
structure KeepsExposure (orders : List (BoxLegRole × BrokerOrder)) (u : Unwind) : Prop where
  covered : ∀ role, u.sold role ≤ sideFill orders .buy role -
    (sideFill orders .sell (verticalPartner role) - u.provenClosed (verticalPartner role))
  bounded : ∀ role, u.unwound role ≤ (entryFills orders role).sum
  conserved : ∀ role, residualOf (residualAfterUnwind orders u.unwinds) role + u.unwound role =
    (entryFills orders role).sum

/-- No role has two orders. -/
def OnePerRole (orders : List (BoxLegRole × BrokerOrder)) : Prop := (orders.map (·.1)).Nodup

/-- A role has one filled order, or its reversal has confirmed nothing or everything. -/
def Separable (orders : List (BoxLegRole × BrokerOrder)) (u : Unwind) : Prop :=
  ∀ role, ((entryFills orders role).filter (0 < ·)).length ≤ 1 ∨ u.unwound role = 0 ∨
    u.unwound role = (entryFills orders role).sum

section Invariant

variable {orders : List (BoxLegRole × BrokerOrder)} {u u' : Unwind} {role : BoxLegRole}
variable {leg : ConfirmedLeg} {r : Reversal} {result : Except OrderError BrokerOrder}
variable {priced : Bool} {checked : Except String Unit} {quantity : Nat}

/-- What holds of the two loops at every moment. -/
structure Sound (orders : List (BoxLegRole × BrokerOrder)) (u : Unwind) : Prop where
  exposure : u.exposure = entryExposure orders
  distinct0 : u.wave0.Nodup
  distinct1 : u.wave1.Nodup
  /-- a role is reversed once -/
  roles : (u.submitted.map (·.role)).Nodup
  ahead0 : ∀ role ∈ u.wave0, role ∉ u.submitted.map (·.role)
  ahead1 : ∀ role ∈ u.wave1, ∀ leg ∈ entryExposure orders role, leg.order.side = .buy →
    role ∉ u.submitted.map (·.role)
  asked : ∀ r ∈ u.submitted, ∃ leg ∈ entryExposure orders r.role,
    r.side = reverseSide leg.order.side ∧ r.quantity ≤ leg.quantity ∧
      (r.side = .sell → r.quantity ≤ leg.quantity -
        (u.shortOutstanding r.role - u.provenClosed (verticalPartner r.role)))
  /-- what wave 0 takes for certain is a terminal fill -/
  evidence : ∀ role, ∀ outcome ∈ u.reduced role, outcome.certain = true →
    outcome.filled ≤ u.provenClosed role
  within : ∀ s ∈ u.settled, confirmedFill s ≤ s.1.quantity

theorem sound_start (attemptId : AttemptId) (orders : List (BoxLegRole × BrokerOrder)) :
    Sound orders (start attemptId orders) where
  exposure := rfl
  distinct0 := by
    change boxLegRoles.Nodup
    decide
  distinct1 := by
    change boxLegRoles.Nodup
    decide
  roles := List.nodup_nil
  ahead0 := fun _ _ => List.not_mem_nil
  ahead1 := fun _ _ _ _ _ => List.not_mem_nil
  asked := fun r hr => absurd hr List.not_mem_nil
  evidence := fun _ _ h => by cases h
  within := fun s hs => absurd hs List.not_mem_nil

theorem Sound.violate (h : Sound orders u) (reason : String) : Sound orders (u.violate reason) :=
  ⟨h.exposure, h.distinct0, h.distinct1, h.roles, h.ahead0, h.ahead1, h.asked, h.evidence,
    h.within⟩

theorem Sound.proves (h : Sound orders u) {side : OrderSide} {outcome : ExitWaveOutcome}
    (hproven : outcome.certain = true → outcome.filled ≤ u.provenClosed role) :
    Sound orders (u.proves role side outcome) := by
  cases side with
  | sell => exact h
  | buy =>
      refine ⟨h.exposure, h.distinct0, h.distinct1, h.roles, h.ahead0, h.ahead1, h.asked, ?_,
        h.within⟩
      intro other outcome' houtcome hcertain
      simp only [Unwind.proves, Option.mem_def] at houtcome
      split at houtcome
      · rename_i hother
        obtain rfl := Option.some.inj houtcome
        rw [hother]
        exact hproven hcertain
      · exact h.evidence other outcome' houtcome hcertain

/-- An error is no evidence of a fill. -/
theorem certain_error {error : OrderError}
    (h : (readSettlement (.error error)).2.2.certain = true) :
    (readSettlement (.error error)).2.2.filled = 0 := by
  cases error with
  | preSubmitRefused => rfl
  | persistenceAfterFill => cases h
  | _ => rfl

theorem Sound.failed (h : Sound orders u) (r : Reversal) (error : OrderError) :
    Sound orders (u.failed r error) := by
  refine (h.violate _).proves fun hcertain => ?_
  rw [certain_error hcertain]
  exact Nat.zero_le _

theorem submitted_dispatch (hidle : u.inFlight = none) :
    ({ u with inFlight := some r } : Unwind).submitted = u.submitted ++ [r] := by
  simp [submitted, hidle]

/-- A reversal is asked for once, within the fill, and within what is free of a hedge. -/
theorem Sound.dispatch (h : Sound orders u) (hidle : u.inFlight = none)
    (hleg : entryExposure orders r.role = some leg) (hside : r.side = reverseSide leg.order.side)
    (hnew : r.role ∉ u.submitted.map (·.role)) (h0 : r.role ∉ u.wave0)
    (h1 : leg.order.side = .buy → r.role ∉ u.wave1) (hquantity : r.quantity ≤ leg.quantity)
    (hfree : r.side = .sell → r.quantity ≤ leg.quantity -
      (u.shortOutstanding r.role - u.provenClosed (verticalPartner r.role))) :
    Sound orders { u with inFlight := some r } := by
  have hsub := submitted_dispatch (r := r) hidle
  refine ⟨h.exposure, h.distinct0, h.distinct1, ?_, ?_, ?_, ?_, h.evidence, h.within⟩
  · rw [hsub, List.map_append, List.nodup_append]
    refine ⟨h.roles, List.nodup_singleton _, ?_⟩
    rintro role hrole role' hrole' rfl
    rw [List.map_singleton, List.mem_singleton] at hrole'
    exact hnew (hrole' ▸ hrole)
  · intro role hrole hmem
    rw [hsub, List.map_append, List.mem_append, List.map_singleton, List.mem_singleton] at hmem
    rcases hmem with hmem | rfl
    · exact h.ahead0 role hrole hmem
    · exact h0 hrole
  · intro role hrole leg' hleg' hbuy hmem
    rw [hsub, List.map_append, List.mem_append, List.map_singleton, List.mem_singleton] at hmem
    rcases hmem with hmem | rfl
    · exact h.ahead1 role hrole leg' hleg' hbuy hmem
    · obtain rfl := Option.some.inj (hleg.symm.trans hleg')
      exact h1 hbuy hrole
  · intro other hother
    rw [hsub, List.mem_append, List.mem_singleton] at hother
    rcases hother with hother | rfl
    · exact h.asked other hother
    · exact ⟨leg, hleg, hside, hquantity, hfree⟩

theorem Sound.reverse (h : Sound orders u) (hidle : u.inFlight = none)
    (hleg : entryExposure orders role = some leg) (hnew : role ∉ u.submitted.map (·.role))
    (h0 : role ∉ u.wave0) (h1 : leg.order.side = .buy → role ∉ u.wave1)
    (hquantity : quantity ≤ leg.quantity)
    (hfree : leg.order.side = .buy → quantity ≤ leg.quantity -
      (u.shortOutstanding role - u.provenClosed (verticalPartner role))) :
    Sound orders (u.reverse role leg quantity priced checked) := by
  simp only [Unwind.reverse]
  split
  · exact (h.violate _).proves fun hcertain => by cases hcertain
  · cases checked with
    | error message => exact h.failed _ (.other message)
    | ok _ =>
        refine h.dispatch hidle hleg rfl hnew h0 h1 hquantity fun hsell => hfree ?_
        cases hside : leg.order.side with
        | buy => rfl
        | sell =>
            simp only [hside, reverseSide] at hsell
            cases hsell

theorem Sound.pop0 (h : Sound orders u) {rest : List BoxLegRole} (hwave : u.wave0 = role :: rest) :
    Sound orders { u with wave0 := rest } := by
  have hdistinct := hwave ▸ h.distinct0
  refine ⟨h.exposure, (List.nodup_cons.mp hdistinct).2, h.distinct1, h.roles, ?_, h.ahead1,
    h.asked, h.evidence, h.within⟩
  intro other hother
  exact h.ahead0 other (hwave ▸ List.mem_cons_of_mem role hother)

theorem Sound.pop1 (h : Sound orders u) {rest : List BoxLegRole} (hwave : u.wave1 = role :: rest) :
    Sound orders { u with wave1 := rest } := by
  have hdistinct := hwave ▸ h.distinct1
  refine ⟨h.exposure, h.distinct0, (List.nodup_cons.mp hdistinct).2, h.roles, h.ahead0, ?_,
    h.asked, h.evidence, h.within⟩
  intro other hother
  exact h.ahead1 other (hwave ▸ List.mem_cons_of_mem role hother)

theorem Sound.buyBack (h : Sound orders u) (hidle : u.inFlight = none)
    (hnew : role ∉ u.submitted.map (·.role)) (h0 : role ∉ u.wave0) :
    Sound orders (u.buyBack role priced checked) := by
  rw [Unwind.buyBack, h.exposure]
  split
  · rename_i leg hleg
    split
    · rename_i hside
      have hnot : leg.order.side ≠ .buy := by
        rw [hside]
        nofun
      exact h.reverse hidle hleg hnew h0 (fun hbuy => absurd hbuy hnot) (Nat.le_refl _)
        fun hbuy => absurd hbuy hnot
    · exact h
  · exact h

/-- What wave 1 releases of a hedge is what the evidence frees, and the evidence is proven. -/
theorem Sound.releasable_le (h : Sound orders u) : u.releasable role leg ≤ leg.quantity -
    (u.shortOutstanding role - u.provenClosed (verticalPartner role)) := by
  rw [Unwind.releasable]
  refine (ExecutionGateway.releasable_le _ _).trans ?_
  cases hevidence : u.reduced (verticalPartner role) with
  | none =>
      simp only [Option.map_none, Option.getD_none, Bool.false_eq_true, if_false]
      omega
  | some outcome =>
      have hproven := h.evidence _ outcome hevidence
      cases hcertain : outcome.certain with
      | true =>
          have hle := hproven hcertain
          simp only [Option.map_some, Option.getD_some, hcertain, if_true]
          omega
      | false =>
          simp only [Option.map_some, Option.getD_some, hcertain, Bool.false_eq_true, if_false]
          omega

theorem Sound.release (h : Sound orders u) (hidle : u.inFlight = none)
    (hnew : ∀ leg ∈ entryExposure orders role, leg.order.side = .buy →
      role ∉ u.submitted.map (·.role))
    (h0 : u.wave0 = []) (h1 : role ∉ u.wave1) :
    Sound orders (u.release role priced checked) := by
  rw [Unwind.release, h.exposure]
  split
  · rename_i leg hleg
    split
    · rename_i hside
      split
      · exact h.violate _
      · have hfree := @Sound.releasable_le orders u role leg h
        refine h.reverse hidle hleg (hnew leg hleg hside) ?_ (fun _ => h1) (by omega)
          fun _ => hfree
        rw [h0]
        exact List.not_mem_nil
    · exact h
  · exact h

theorem provenClosed_append (s : SettledReversal) (inFlight : Option Reversal) :
    ({ u with inFlight := inFlight, settled := u.settled ++ [s] } : Unwind).provenClosed role =
      u.provenClosed role + if s.1.role = role then terminalFill s else 0 := by
  by_cases hrole : s.1.role = role <;> simp [provenClosed, hrole]

theorem submitted_settle (hflight : u.inFlight = some r) :
    ({ u with inFlight := none, settled := u.settled ++ [(r, result)] } : Unwind).submitted =
      u.submitted := by
  simp [submitted, hflight]

theorem Sound.settle (h : Sound orders u) (hflight : u.inFlight = some r)
    (hfill : confirmedFill (r, result) ≤ r.quantity) : Sound orders (u.settle r result) := by
  have hsub := @submitted_settle u r result hflight
  have hrecorded :
      Sound orders { u with inFlight := none, settled := u.settled ++ [(r, result)] } := by
    refine ⟨h.exposure, h.distinct0, h.distinct1, hsub ▸ h.roles, hsub ▸ h.ahead0,
      hsub ▸ h.ahead1, ?_, ?_, ?_⟩
    · intro other hother
      obtain ⟨leg, hleg, hside, hquantity, hfree⟩ := h.asked other (hsub ▸ hother)
      refine ⟨leg, hleg, hside, hquantity, fun hsell => (hfree hsell).trans ?_⟩
      rw [provenClosed_append]
      simp only [shortOutstanding]
      omega
    · intro role outcome houtcome hcertain
      rw [provenClosed_append]
      exact (h.evidence role outcome houtcome hcertain).trans (Nat.le_add_right _ _)
    · intro s hs
      rcases List.mem_append.mp hs with hs | hs
      · exact h.within s hs
      · rw [List.mem_singleton.mp hs]
        exact hfill
  cases result with
  | error error => exact hrecorded.failed r error
  | ok order =>
      refine hrecorded.proves fun hcertain => ?_
      rw [provenClosed_append, if_pos rfl]
      have hterminal : isBrokerOrderTerminal order.state = true := hcertain
      simp only [terminalFill, hterminal, if_true]
      exact Nat.le_add_left _ _

theorem Sound.step (h : Sound orders u) {label : UnwindLabel} (hfill : WithinRequest u label)
    (hstep : u.step label = some u') : Sound orders u' := by
  rw [Unwind.step.eq_def] at hstep
  split at hstep
  · rename_i priced checked hidle
    split at hstep
    · rename_i role rest hwave
      obtain rfl := Option.some.inj hstep
      have hdistinct := hwave ▸ h.distinct0
      exact (h.pop0 hwave).buyBack hidle (h.ahead0 role (hwave ▸ List.mem_cons_self))
        (List.nodup_cons.mp hdistinct).1
    · rename_i role rest h0 hwave
      obtain rfl := Option.some.inj hstep
      have hdistinct := hwave ▸ h.distinct1
      exact (h.pop1 hwave).release hidle (h.ahead1 role (hwave ▸ List.mem_cons_self)) h0
        (List.nodup_cons.mp hdistinct).1
    · cases hstep
  · rename_i result r hflight
    obtain rfl := Option.some.inj hstep
    exact h.settle hflight (hfill r hflight)
  · cases hstep

theorem sound_run {attemptId : AttemptId} {labels : List UnwindLabel}
    (hfills : Heeds step WithinRequest (start attemptId orders) labels)
    (hrun : run step (start attemptId orders) labels = some u) : Sound orders u :=
  (Throughout.of_heeds (fun _ _ _ h hfill hstep => h.step hfill hstep)
    (sound_start attemptId orders) hfills).last hrun

/-- No role is asked for more than once, so its sales are within what is free of the hedge. -/
theorem Sound.covered (h : Sound orders u) (hsides : OneSide orders) (role : BoxLegRole) :
    u.sold role ≤ sideFill orders .buy role -
      (sideFill orders .sell (verticalPartner role) - u.provenClosed (verticalPartner role)) := by
  rw [sold, List.filter_filter, List.filter_congr fun r _ => Bool.and_comm _ _,
    ← List.filter_filter]
  refine sum_key_le ?_ fun r hr hrole => ?_
  · exact h.roles.sublist (List.filter_sublist.map _)
  · obtain ⟨hmem, hsell⟩ := List.mem_filter.mp hr
    have hsell : r.side = .sell := by simpa using hsell
    obtain ⟨leg, hleg, hside, -, hfree⟩ := h.asked r hmem
    subst hrole
    have hbuy : leg.order.side = .buy := by
      cases hside' : leg.order.side with
      | buy => rfl
      | sell =>
          rw [hside', hsell] at hside
          cases hside
    refine (hfree hsell).trans ?_
    have hhedge := sideFill_of_exposure hsides hleg .buy
    rw [if_pos hbuy] at hhedge
    have hshort : u.shortOutstanding r.role =
        sideFill orders .sell (verticalPartner r.role) := by
      rw [shortOutstanding, h.exposure]
      cases hpartner : entryExposure orders (verticalPartner r.role) with
      | none => exact (sideFill_of_no_exposure hpartner .sell).symm
      | some short => exact (sideFill_of_exposure hsides hpartner .sell).symm
    omega

theorem Sound.settled_roles (h : Sound orders u) :
    (u.settled.map (·.1.role)).Nodup := by
  refine h.roles.sublist ?_
  rw [submitted, List.map_append, List.map_map]
  exact List.sublist_append_left _ _

/-- No role is reversed beyond its confirmed fill. -/
theorem Sound.bounded (h : Sound orders u) (role : BoxLegRole) :
    u.unwound role ≤ (entryFills orders role).sum := by
  refine sum_key_le h.settled_roles fun s hs hrole => ?_
  have hsub : s.1 ∈ u.submitted := List.mem_append_left _ (List.mem_map_of_mem hs)
  obtain ⟨leg, hleg, -, hquantity, -⟩ := h.asked s.1 hsub
  have hfill := @exposure_quantity orders s.1.role
  rw [hleg, Option.elim_some, hrole] at hfill
  exact (h.within s hs).trans (hquantity.trans hfill.le)

/-- A reversal that confirmed a fill comes back with its order. -/
theorem sum_unwinds (settled : List SettledReversal) (role : BoxLegRole) :
    ((((settled.filterMap fun s => (readSettlement s.2).1.map (s.1.role, ·)).filter
      (·.1 = role)).map (·.2.filledQuantity)).sum) =
      ((settled.filter (·.1.role = role)).map confirmedFill).sum := by
  induction settled with
  | nil => rfl
  | cons s rest ih =>
      have hread : ((readSettlement s.2).1.elim 0 (·.filledQuantity)) = confirmedFill s := by
        rw [confirmedFill]
        cases s.2 with
        | ok order => rfl
        | error error => cases error <;> rfl
      cases horder : (readSettlement s.2).1 with
      | none =>
          rw [horder, Option.elim_none] at hread
          by_cases hrole : s.1.role = role <;> simp [horder, hrole, ih, ← hread]
      | some order =>
          rw [horder, Option.elim_some] at hread
          by_cases hrole : s.1.role = role <;> simp [horder, hrole, ih, ← hread]

/-- The fill that `residualAfterUnwind` finds for a role. -/
def reversedFill (unwinds : List (BoxLegRole × BrokerOrder)) (role : BoxLegRole) : Nat :=
  (unwinds.reverse.find? (·.1 = role)).elim 0 (·.2.filledQuantity)

theorem residualOf_append (a b : List (BoxLegRole × Nat)) (role : BoxLegRole) :
    residualOf (a ++ b) role = residualOf a role + residualOf b role := by
  simp [residualOf]

/-- One entry order leaves what the reversal of its role does not reach. -/
theorem residualAfterUnwind_cons (entry : BoxLegRole × BrokerOrder)
    (rest unwinds : List (BoxLegRole × BrokerOrder)) :
    residualAfterUnwind (entry :: rest) unwinds =
      (if entry.2.filledQuantity ≤ reversedFill unwinds entry.1 then []
        else [(entry.1, entry.2.filledQuantity - reversedFill unwinds entry.1)]) ++
      residualAfterUnwind rest unwinds := by
  by_cases hle : entry.2.filledQuantity ≤ reversedFill unwinds entry.1
  · rw [if_pos hle, List.nil_append]
    exact List.filterMap_cons_none (if_pos hle)
  · rw [if_neg hle, List.singleton_append]
    exact List.filterMap_cons_some (if_neg hle)

/-- The residual takes the whole reversal of its role off each order. -/
theorem residualOf_eq (orders unwinds : List (BoxLegRole × BrokerOrder)) (role : BoxLegRole) :
    residualOf (residualAfterUnwind orders unwinds) role =
      ((entryFills orders role).map (· - reversedFill unwinds role)).sum := by
  induction orders with
  | nil => rfl
  | cons entry rest ih =>
      rw [residualAfterUnwind_cons, residualOf_append, ih]
      by_cases hrole : entry.1 = role
      · have hfills : entryFills (entry :: rest) role =
            entry.2.filledQuantity :: entryFills rest role := by
          simp [entryFills, hrole]
        rw [hfills, List.map_cons, List.sum_cons, hrole]
        split
        · simp only [residualOf, List.filter_nil, List.map_nil, List.sum_nil]
          omega
        · simp [residualOf]
      · have hfills : entryFills (entry :: rest) role = entryFills rest role := by
          simp [entryFills, hrole]
        rw [hfills]
        split
        · simp [residualOf]
        · simp [residualOf, hrole]

/-- The orders of the reversals have the roles of the reversals that come back with one. -/
theorem map_unwinds (settled : List SettledReversal) :
    ((settled.filterMap fun s => (readSettlement s.2).1.map (s.1.role, ·)).map (·.1)).Sublist
      (settled.map (·.1.role)) := by
  induction settled with
  | nil => exact .slnil
  | cons s rest ih =>
      cases horder : (readSettlement s.2).1 with
      | none => simpa [horder] using ih.cons _
      | some order => simpa [horder] using ih

theorem Sound.reversedFill_eq (h : Sound orders u) (role : BoxLegRole) :
    reversedFill u.unwinds role = u.unwound role := by
  have hroles : (u.unwinds.map (·.1)).Nodup :=
    h.settled_roles.sublist (map_unwinds u.settled)
  have hsum : ((u.unwinds.filter (·.1 = role)).map (·.2.filledQuantity)).sum = u.unwound role :=
    sum_unwinds u.settled role
  rw [filter_key_eq hroles] at hsum
  rw [reversedFill, ← hsum]
  cases u.unwinds.reverse.find? (·.1 = role) with
  | none => rfl
  | some order => simp

theorem Sound.residual (h : Sound orders u) (role : BoxLegRole) :
    residualOf (residualAfterUnwind orders u.unwinds) role =
      ((entryFills orders role).map (· - u.unwound role)).sum := by
  rw [residualOf_eq, h.reversedFill_eq]

theorem Sound.keepsExposure_iff (h : Sound orders u) (hsides : OneSide orders) :
    KeepsExposure orders u ↔ Separable orders u := by
  constructor
  · intro hkeeps role
    have hconserved := hkeeps.conserved role
    rw [h.residual] at hconserved
    exact (sum_sub_add_eq_iff (h.bounded role)).mp hconserved
  · intro hseparable
    refine ⟨h.covered hsides, h.bounded, fun role => ?_⟩
    rw [h.residual]
    exact (sum_sub_add_eq_iff (h.bounded role)).mpr (hseparable role)

/-- With one order a role nothing is left of what is reversed, and nothing dropped. -/
theorem Sound.keepsExposure_of_distinct (h : Sound orders u) (hroles : OnePerRole orders) :
    KeepsExposure orders u := by
  have hsides : OneSide orders := by
    intro a ha b hb hrole
    rw [List.inj_on_of_nodup_map hroles ha hb hrole]
  refine (h.keepsExposure_iff hsides).mpr fun role => .inl ?_
  refine (List.length_filter_le _ _).trans ?_
  rw [entryFills, List.length_map, filter_key_eq hroles]
  cases orders.reverse.find? (·.1 = role) with
  | none => exact Nat.zero_le _
  | some entry => exact Nat.le_refl _

end Invariant

section Gateway

variable {settled : List Settled} {direction : BoxDirection}

/-- An order that survives its settlement has the role of its request. -/
theorem roles_ordersFromSettled :
    ((ordersFromSettled settled).map (·.1)).Sublist (settled.map (·.1)) := by
  induction settled with
  | nil => exact .slnil
  | cons leg rest ih =>
      obtain ⟨role, result⟩ := leg
      cases horder : survivingOrder result with
      | none => simpa [ordersFromSettled, horder] using ih.cons role
      | some order => simpa [ordersFromSettled, horder] using ih.cons_cons role

/-- The gateway makes one request a role, so the orders it has reversed are one a role. -/
theorem onePerRole_of_requests
    (h : settled.map (·.1) = (entrySubmissionOrder direction).map (·.role)) :
    OnePerRole (canonicalRoleOrder (ordersFromSettled settled)) := by
  have hrequests : (settled.map (·.1)).Nodup := by
    rw [h]
    cases direction <;> decide
  have hperm := (List.perm_insertionSort
    (fun a b : BoxLegRole × BrokerOrder => boxLegRoles.idxOf a.1 ≤ boxLegRoles.idxOf b.1)
    (ordersFromSettled settled)).map (·.1)
  exact hperm.nodup_iff.mpr (hrequests.sublist roles_ordersFromSettled)

end Gateway

/-- At every moment of the unwind of an entry cover is kept and no exposure is lost. -/
theorem exposure_kept (attemptId : AttemptId) (orders : List (BoxLegRole × BrokerOrder))
    (labels : List UnwindLabel) (u : Unwind) (hroles : OnePerRole orders)
    (hfills : Heeds step WithinRequest (start attemptId orders) labels)
    (hrun : run step (start attemptId orders) labels = some u) : KeepsExposure orders u := by
  have hsound := sound_run hfills hrun
  exact hsound.keepsExposure_of_distinct hroles

namespace PartialReversal

def unwindOrder (id : String) (side : OrderSide) (quantity filled : Nat)
    (state : BoxOrderIntentState) : BrokerOrder where
  clientOrderId := id
  brokerOrderId := some id
  tag := none
  exchange := "NFO"
  tradingsymbol := "NIFTY24000CE"
  token := 101
  side := side
  quantity := quantity
  state := state
  filledQuantity := filled
  lastFillId := none
  rejectReason := none

/-- A whole hedge, and two thirds of the short beside it; the put legs are not sent. -/
def partialSettled : List Settled :=
  [(.k1Ce, .ok (unwindOrder "A" .buy 75 75 .complete)), (.k2Pe, .error (.other "no slot")),
    (.k2Ce, .ok (unwindOrder "B" .sell 75 50 .cancelled)), (.k1Pe, .error (.other "no slot"))]

def partialEntry : List (BoxLegRole × BrokerOrder) :=
  canonicalRoleOrder (ordersFromSettled partialSettled)

def turn : UnwindLabel := .visit true (.ok ())

def fills (side : OrderSide) (quantity filled : Nat) : UnwindLabel :=
  .settle (.ok (unwindOrder "C" side quantity filled .cancelled))

/-- The short is bought back by thirty, which frees fifty-five of the hedge. -/
def partialLabels : List UnwindLabel :=
  [turn, turn, fills .buy 50 30, turn, turn, turn, fills .sell 55 55, turn, turn, turn]

def partialEnd : Unwind := (run step (start "1:unwind" partialEntry) partialLabels).getD
  (start "1:unwind" partialEntry)

end PartialReversal

open PartialReversal

/-- Twenty of each leg are left. -/
theorem exposure_kept_partialEntry : KeepsExposure partialEntry partialEnd ∧
    residualAfterUnwind partialEntry partialEnd.unwinds = [(.k1Ce, 20), (.k2Ce, 20)] := by
  refine ⟨exposure_kept "1:unwind" partialEntry partialLabels partialEnd ?_
    (by decide +kernel) rfl, by decide +kernel⟩
  have hrequests : partialSettled.map (·.1) = (entrySubmissionOrder .longBox).map (·.role) := by
    decide
  exact onePerRole_of_requests hrequests

end Unwind

end Strikedge.ExecutionGateway
