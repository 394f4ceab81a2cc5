import Strikedge.Machine.Run
import Strikedge.Machine.OrderedMap
import Strikedge.ExecutionGateway.ExitDependencies
import Strikedge.ExecutionGateway.PartialEntry
import Strikedge.Orders.Process

/-!
# The live exit

`simulateLeggingExit`, cut at its awaits. Wave 0 is submitted at once: every short-closing
BUY and every long leg without a short beside it. When all of it has settled, wave 1 sells
the hedges, each as far as the broker has proven its short closed. The submissions of a
wave settle one by one, in any order.
-/

namespace Strikedge.ExecutionGateway

open Machine Orders

/-- The position to exit. `outstanding` is the quantity `outstandingRoles` found. -/
structure ExitRequest where
  attemptId : AttemptId
  direction : BoxDirection
  outstanding : BoxLegRole → Nat

/-- One request of a wave: `manager.submit` with this role and quantity. -/
structure ExitLeg where
  role : BoxLegRole
  quantity : Nat
  deriving DecidableEq, Repr

/-- What one settled submission says of its leg. -/
structure ExitWaveOutcome where
  filled : Nat
  certain : Bool
  deriving DecidableEq, Repr

structure ExitResult where
  ok : Bool
  /-- the reason handed to `manager.invariantViolation` -/
  violation : Option String := none
  attempted : Nat := 0
  orders : List (BoxLegRole × BrokerOrder) := []
  reason : Option String := none
  detail : Option String := none
  deriving DecidableEq, Repr

inductive ExitPhase where
  | planned
  | wave0
  | wave1
  | returned (result : ExitResult)
  deriving DecidableEq, Repr

structure LeggingExit where
  phase : ExitPhase := .planned
  /-- the requests handed to the manager -/
  wave0 : List ExitLeg := []
  wave1 : List ExitLeg := []
  settled : OrderedMap BoxLegRole (Except OrderError BrokerOrder) := ∅
  withheld : List String := []

/-- `runWave` up to its await: the precheck of the books may throw. -/
inductive ExitLabel where
  | start (checked : Except String Unit)
  /-- a submission settles -/
  | settle (role : BoxLegRole) (result : Except OrderError BrokerOrder)
  /-- `Promise.allSettled` resolves -/
  | allSettled (checked : Except String Unit)
  deriving DecidableEq, Repr

/-- What one settlement contributes: an order, whether its terminal quantity is uncertain,
and the outcome of its role. -/
def readSettlement : Except OrderError BrokerOrder → Option BrokerOrder × Bool × ExitWaveOutcome
  | .ok order =>
      (some order, isReconcileState order.state,
        ⟨order.filledQuantity, isBrokerOrderTerminal order.state⟩)
  | .error (.preSubmitRefused _ _) => (none, false, ⟨0, true⟩)
  | .error (.persistenceAfterFill order) => (some order, true, ⟨order.filledQuantity, false⟩)
  | .error _ => (none, true, ⟨0, false⟩)

namespace LeggingExit

/-- The orders of a wave, in the order of its requests. -/
def ordersOf (s : LeggingExit) (wave : List ExitLeg) : List (BoxLegRole × BrokerOrder) :=
  wave.filterMap fun leg =>
    (s.settled.get? leg.role).bind fun result =>
      (readSettlement result).1.map (leg.role, ·)

/-- `uncertain` after a wave. -/
def uncertainIn (s : LeggingExit) (wave : List ExitLeg) : Bool :=
  wave.any fun leg => (s.settled.get? leg.role).any fun result => (readSettlement result).2.1

/-- `wave0.get(role)` -/
def outcome (s : LeggingExit) (role : BoxLegRole) : Option ExitWaveOutcome :=
  if s.wave0.any (·.role = role) then
    (s.settled.get? role).map fun result => (readSettlement result).2.2
  else none

/-- The quantity of a hedge that wave 0 has proven free. -/
def releasable (x : ExitRequest) (s : LeggingExit) (slot : ExitDependencySlot) : Nat :=
  let short := slot.covers
  let evidence := short.bind s.outcome
  releasableHedgeQuantity slot.outstanding
    { shortOutstanding := short.elim 0 x.outstanding
      confirmedClosed := (evidence.map (·.filled)).getD 0
      certain := (evidence.map (·.certain)).getD false }

/-- The requests of wave 1. -/
def releases (x : ExitRequest) (s : LeggingExit) : List ExitLeg :=
  (planExitDependencies x.direction x.outstanding).wave1.filterMap fun slot =>
    let quantity := s.releasable x slot
    if quantity = 0 then none else some ⟨slot.role, quantity⟩

/-- The hedges held back, as the caller is told. -/
def heldBack (x : ExitRequest) (s : LeggingExit) : List String :=
  (planExitDependencies x.direction x.outstanding).wave1.filterMap fun slot =>
    let kept := slot.outstanding - s.releasable x slot
    let short := (slot.covers.map (·.text)).getD "undefined"
    if kept = 0 then none
    else some s!"{slot.role.text} held back {kept} covering {short}"

/-- The requests of wave 0. -/
def closes (x : ExitRequest) : List ExitLeg :=
  (planExitDependencies x.direction x.outstanding).wave0.map fun slot =>
    ⟨slot.role, slot.outstanding⟩

/-- The quantity confirmed closed for a role. -/
def closedBy (orders : List (BoxLegRole × BrokerOrder)) (role : BoxLegRole) : Nat :=
  ((orders.filter (·.1 = role)).map (·.2.filledQuantity)).sum

/-- The end of the function, `attempted` requests having been built. -/
def finish (x : ExitRequest) (s : LeggingExit) (attempted : Nat) : LeggingExit :=
  let waves := s.wave0 ++ s.wave1
  let orders := s.ordersOf waves
  let uncertain := s.uncertainIn waves
  let clean := !uncertain && s.withheld.isEmpty &&
    boxLegRoles.all fun role => decide (x.outstanding role ≤ closedBy orders role)
  let detail :=
    if uncertain then "exit terminal quantity uncertain; position moved to recovery"
    else if s.withheld.isEmpty then "live exit partially filled"
    else "live exit preserved required hedge cover: " ++ "; ".intercalate s.withheld
  let result : ExitResult :=
    { ok := clean
      violation :=
        if uncertain then
          some s!"live exit {x.attemptId} has uncertain broker terminal quantity"
        else none
      attempted := attempted
      orders := orders
      reason := if clean then none else some "legging_incomplete"
      detail := if clean then none else some detail }
  { s with phase := .returned result }

/-- The requests of the wave in flight. -/
def pending (s : LeggingExit) : List ExitLeg :=
  match s.phase with
  | .wave0 => s.wave0
  | .wave1 => s.wave1
  | _ => []

def alreadyFlat : ExitResult where
  ok := false
  reason := some "legging_incomplete"
  detail := some "position already flat"

/-- The precheck of wave 0 threw. -/
def notExecutable (x : ExitRequest) (message : String) : ExitResult where
  ok := false
  attempted := (closes x).length
  reason := some "insufficient_quantity"
  detail := some message

/-- Plan the exit and submit wave 0. -/
def start (x : ExitRequest) (s : LeggingExit) (checked : Except String Unit) : LeggingExit :=
  if boxLegRoles.all fun role => x.outstanding role = 0 then
    { s with phase := .returned alreadyFlat }
  else
    match checked with
    | .ok () => { s with phase := .wave0, wave0 := closes x }
    | .error message => { s with phase := .returned (notExecutable x message) }

/-- Size the hedge releases from wave 0 and submit wave 1. -/
def release (x : ExitRequest) (s : LeggingExit) (checked : Except String Unit) : LeggingExit :=
  let releases := s.releases x
  let s := { s with withheld := s.heldBack x }
  let attempted := s.wave0.length + releases.length
  if releases = [] then s.finish x attempted
  else
    match checked with
    | .ok () => { s with phase := .wave1, wave1 := releases }
    | .error message =>
        -- the hedges stay on, which is the safe side
        { s with withheld := s.withheld ++ [s!"hedge release blocked: {message}"] }.finish x
          attempted

def step (x : ExitRequest) (s : LeggingExit) : ExitLabel → Option LeggingExit
  | .start checked => if s.phase = .planned then some (s.start x checked) else none
  | .settle role result =>
      if s.pending.any (·.role = role) ∧ s.settled.get? role = none then
        some { s with settled := s.settled.set role result }
      else none
  | .allSettled checked =>
      if s.pending.all fun leg => s.settled.has leg.role then
        match s.phase with
        | .wave0 => some (s.release x checked)
        | .wave1 => some (s.finish x (s.wave0.length + s.wave1.length))
        | _ => none
      else none

/-- The quantity of a role handed to the manager so far. -/
def sold (s : LeggingExit) (role : BoxLegRole) : Nat :=
  (((s.wave0 ++ s.wave1).filter (·.role = role)).map (·.quantity)).sum

/-- The quantity of a role that a terminal broker fill has proven closed so far. -/
def provenClosed (s : LeggingExit) (role : BoxLegRole) : Nat :=
  match s.settled.get? role with
  | some (.ok order) => if isBrokerOrderTerminal order.state then order.filledQuantity else 0
  | _ => 0

/-- The transmitted legs, with what each filled in the end. -/
def transmitted (s : LeggingExit) (filled : BoxLegRole → Nat) : List TransmittedLeg :=
  (s.wave0 ++ s.wave1).map fun leg => ⟨leg.role, leg.quantity, filled leg.role⟩

/-- The fills are what the terminal snapshots say. Whatever is not terminal may still come to
any fill. -/
def FillsAgree (s : LeggingExit) (filled : BoxLegRole → Nat) : Prop :=
  ∀ role order, s.settled.get? role = some (.ok order) →
    isBrokerOrderTerminal order.state = true → filled role = order.filledQuantity

section Invariant

variable {x : ExitRequest} {s s' : LeggingExit} {label : ExitLabel} {role : BoxLegRole}
variable {leg : ExitLeg} {filled : BoxLegRole → Nat}

/-- What holds of the two waves at every moment. -/
structure Covered (x : ExitRequest) (s : LeggingExit) : Prop where
  /-- nothing is transmitted before the plan -/
  planned : s.phase = .planned → s.wave0 = []
  sent : s.phase = .wave0 → s.wave0 = closes x
  /-- wave 1 is transmitted after wave 0 -/
  waiting : s.phase = .planned ∨ s.phase = .wave0 → s.wave1 = []
  distinct : ((s.wave0 ++ s.wave1).map (·.role)).Nodup
  /-- a long leg of wave 0 has no short beside it -/
  unpaired : ∀ leg ∈ s.wave0, leg.quantity = x.outstanding leg.role ∧
    (boxEntrySide x.direction leg.role = .buy → x.outstanding (verticalPartner leg.role) = 0)
  /-- a leg of wave 1 is a hedge, its short was closed in wave 0, and what is not proven
  closed stays covered -/
  released : ∀ leg ∈ s.wave1, boxEntrySide x.direction leg.role = .buy ∧
    (∃ close ∈ s.wave0, close.role = verticalPartner leg.role) ∧
    leg.quantity ≤ x.outstanding leg.role -
      (x.outstanding (verticalPartner leg.role) - s.provenClosed (verticalPartner leg.role))

theorem closes_role (h : leg ∈ closes x) :
    ∃ slot, exitSlot x.direction x.outstanding leg.role = some slot ∧ slot.wave = 0 ∧
      leg.quantity = x.outstanding leg.role := by
  obtain ⟨slot, hslot, rfl⟩ := List.mem_map.mp h
  obtain ⟨hslot, hwave⟩ := List.mem_filter.mp hslot
  have hrole := mem_slots hslot
  exact ⟨slot, hrole, by simpa using hwave, (exitSlot_role hrole).2⟩

theorem nodup_waves :
    ((closes x).map (·.role) ++
      (planExitDependencies x.direction x.outstanding).wave1.map (·.role)).Nodup := by
  have hslots := nodup_slots x.direction x.outstanding
  have hcloses : (closes x).map (·.role) =
      (planExitDependencies x.direction x.outstanding).wave0.map (·.role) := by
    rw [closes, List.map_map]
    rfl
  rw [hcloses, List.nodup_append]
  refine ⟨hslots.sublist (List.filter_sublist.map _), hslots.sublist (List.filter_sublist.map _),
    ?_⟩
  rintro role h0 role' h1 rfl
  obtain ⟨slot, hslot, rfl⟩ := List.mem_map.mp h0
  obtain ⟨slot', hslot', hrole⟩ := List.mem_map.mp h1
  obtain ⟨hslot, hwave⟩ := List.mem_filter.mp hslot
  obtain ⟨hslot', hwave'⟩ := List.mem_filter.mp hslot'
  have hsame := (mem_slots hslot').symm.trans (hrole ▸ mem_slots hslot)
  obtain rfl := Option.some.inj hsame
  simp only [decide_eq_true_eq] at hwave hwave'
  omega

/-- What wave 0 says of a short is what the broker has proven of it. -/
theorem closed_eq_provenClosed (h : s.wave0.any (·.role = role) = true) :
    (if ((s.outcome role).map (·.certain)).getD false then
      ((s.outcome role).map (·.filled)).getD 0 else 0) = s.provenClosed role := by
  rw [outcome, if_pos h, provenClosed]
  cases s.settled.get? role with
  | none => rfl
  | some result =>
      cases result with
      | ok order => rfl
      | error error => cases error <;> rfl

theorem mem_releases (hsent : s.wave0 = closes x) (h : leg ∈ s.releases x) :
    boxEntrySide x.direction leg.role = .buy ∧
      (∃ close ∈ s.wave0, close.role = verticalPartner leg.role) ∧
      leg.quantity ≤ x.outstanding leg.role -
        (x.outstanding (verticalPartner leg.role) -
          s.provenClosed (verticalPartner leg.role)) := by
  obtain ⟨slot, hslot, hleg⟩ := List.mem_filterMap.mp h
  dsimp only at hleg
  split at hleg
  · cases hleg
  · obtain rfl := Option.some.inj hleg
    obtain ⟨hslot, hwave⟩ := List.mem_filter.mp hslot
    have hexit := mem_slots hslot
    have hlong : boxEntrySide x.direction slot.role = .buy := by
      cases hside : boxEntrySide x.direction slot.role with
      | buy => rfl
      | sell =>
          rw [exitSlot_short hexit hside] at hwave
          cases hwave
    obtain ⟨hzero, -⟩ | ⟨-, hcovers, hshort⟩ := exitSlot_long hexit hlong
    · rw [hzero] at hwave
      cases hwave
    have hclose : ∃ close ∈ s.wave0, close.role = verticalPartner slot.role := by
      obtain ⟨close, hclose⟩ := exists_exitSlot hshort (side_verticalPartner hlong)
      refine ⟨⟨close.role, close.outstanding⟩, ?_, (exitSlot_role hclose).1⟩
      rw [hsent]
      refine List.mem_map.mpr ⟨close, List.mem_filter.mpr ⟨mem_slots_of hclose, ?_⟩, rfl⟩
      rw [exitSlot_short hclose (side_verticalPartner hlong)]
      rfl
    refine ⟨hlong, hclose, ?_⟩
    have hany : s.wave0.any (·.role = verticalPartner slot.role) = true := by
      obtain ⟨close, hmem, hrole⟩ := hclose
      exact List.any_eq_true.mpr ⟨close, hmem, by simpa using hrole⟩
    have hbound := releasable_le slot.outstanding
      ⟨x.outstanding (verticalPartner slot.role),
        ((s.outcome (verticalPartner slot.role)).map (·.filled)).getD 0,
        ((s.outcome (verticalPartner slot.role)).map (·.certain)).getD false⟩
    rw [closed_eq_provenClosed hany, (exitSlot_role hexit).2] at hbound
    rw [releasable, hcovers, (exitSlot_role hexit).2]
    exact hbound

theorem releases_sublist :
    ((s.releases x).map (·.role)).Sublist
      ((planExitDependencies x.direction x.outstanding).wave1.map (·.role)) := by
  rw [releases]
  induction (planExitDependencies x.direction x.outstanding).wave1 with
  | nil => exact .slnil
  | cons slot slots ih =>
      rw [List.filterMap_cons]
      dsimp only
      split
      next hnone => exact ih.cons _
      next leg hleg =>
        have hrole : leg.role = slot.role := by
          split at hleg
          · cases hleg
          · obtain rfl := Option.some.inj hleg
            rfl
        rw [List.map_cons, List.map_cons, hrole]
        exact ih.cons_cons _

/-- The end of the function leaves what was transmitted. -/
theorem Covered.finish (h : Covered x s) (attempted : Nat) : Covered x (s.finish x attempted) where
  planned := nofun
  sent := nofun
  waiting := nofun
  distinct := h.distinct
  unpaired := h.unpaired
  released := h.released

theorem Covered.withhold (h : Covered x s) (withheld : List String) :
    Covered x { s with withheld := withheld } where
  planned := h.planned
  sent := h.sent
  waiting := h.waiting
  distinct := h.distinct
  unpaired := h.unpaired
  released := h.released

/-- The plan of the exit: wave 0 has the shorts and the long legs without one. -/
theorem Covered.start (hphase : s.phase = .planned) (h : Covered x s)
    (checked : Except String Unit) : Covered x (s.start x checked) := by
  have hreturned : ∀ result, Covered x { s with phase := .returned result } := fun result =>
    { planned := nofun
      sent := nofun
      waiting := nofun
      distinct := h.distinct
      unpaired := h.unpaired
      released := h.released }
  have hwave1 := h.waiting (.inl hphase)
  rw [LeggingExit.start.eq_def]
  split
  · exact hreturned _
  · cases checked with
    | error message => exact hreturned _
    | ok u =>
        refine
          { planned := nofun
            sent := fun _ => rfl
            waiting := fun _ => hwave1
            distinct := ?_
            unpaired := ?_
            released := ?_ }
        · show ((closes x ++ s.wave1).map (·.role)).Nodup
          rw [hwave1, List.append_nil]
          exact (List.nodup_append.mp nodup_waves).1
        · intro leg hleg
          obtain ⟨slot, hslot, hwave, hquantity⟩ := closes_role hleg
          refine ⟨hquantity, fun hlong => ?_⟩
          obtain ⟨-, hpartner⟩ | ⟨hone, -⟩ := exitSlot_long hslot hlong
          · exact hpartner
          · omega
        · intro leg hleg
          rw [show s.wave1 = [] from hwave1] at hleg
          cases hleg

/-- The hedges are released as far as wave 0 has proven. -/
theorem Covered.release (hphase : s.phase = .wave0) (h : Covered x s)
    (checked : Except String Unit) : Covered x (s.release x checked) := by
  have hsent := h.sent hphase
  rw [LeggingExit.release.eq_def]
  dsimp only
  split
  · exact (h.withhold _).finish _
  · cases checked with
    | error message => exact (h.withhold _).finish _
    | ok u =>
        refine
          { planned := nofun
            sent := nofun
            waiting := nofun
            distinct := ?_
            unpaired := h.unpaired
            released := fun leg hleg => mem_releases hsent hleg }
        show ((s.wave0 ++ s.releases x).map (·.role)).Nodup
        rw [List.map_append, hsent]
        exact nodup_waves.sublist (releases_sublist.append_left _)

/-- A settlement only adds to what is proven. -/
theorem Covered.settle {result : Except OrderError BrokerOrder} (h : Covered x s)
    (hnew : s.settled.get? role = none) :
    Covered x { s with settled := s.settled.set role result } where
  planned := h.planned
  sent := h.sent
  waiting := h.waiting
  distinct := h.distinct
  unpaired := h.unpaired
  released leg hleg := by
    obtain ⟨hlong, hclose, hbound⟩ := h.released leg hleg
    refine ⟨hlong, hclose, Nat.le_trans hbound ?_⟩
    have hproven : s.provenClosed (verticalPartner leg.role) ≤
        ({ s with settled := s.settled.set role result } : LeggingExit).provenClosed
          (verticalPartner leg.role) := by
      rw [provenClosed, provenClosed, OrderedMap.get?_set]
      by_cases hrole : verticalPartner leg.role = role
      · rw [hrole, hnew]
        exact Nat.zero_le _
      · rw [if_neg hrole]
    omega

theorem Covered.step (h : Covered x s) (hstep : s.step x label = some s') : Covered x s' := by
  cases label with
  | start checked =>
      simp only [LeggingExit.step, Option.ite_none_right_eq_some] at hstep
      obtain ⟨hphase, hs'⟩ := hstep
      obtain rfl := Option.some.inj hs'
      exact h.start hphase checked
  | settle role result =>
      simp only [LeggingExit.step, Option.ite_none_right_eq_some] at hstep
      obtain ⟨⟨-, hnew⟩, hs'⟩ := hstep
      obtain rfl := Option.some.inj hs'
      exact h.settle hnew
  | allSettled checked =>
      simp only [LeggingExit.step, Option.ite_none_right_eq_some] at hstep
      obtain ⟨-, hs'⟩ := hstep
      split at hs'
      next hphase =>
        obtain rfl := Option.some.inj hs'
        exact h.release hphase checked
      next hphase =>
        obtain rfl := Option.some.inj hs'
        exact h.finish _
      · cases hs'

theorem covered_initial : Covered x {} where
  planned _ := rfl
  sent := nofun
  waiting _ := rfl
  distinct := List.nodup_nil
  unpaired := nofun
  released := nofun

theorem covered_run {labels : List ExitLabel} (hrun : run (LeggingExit.step x) {} labels = some s) :
    Covered x s :=
  run_invariant (fun _ _ _ h hstep => h.step hstep) covered_initial hrun

/-- A role that occurs once has the quantity of its leg. -/
theorem quantityOf_le {legs : List ExitLeg} {bound : Nat}
    (hdistinct : (legs.map (·.role)).Nodup)
    (hbound : ∀ leg ∈ legs, leg.role = role → leg.quantity ≤ bound) :
    ((legs.filter (·.role = role)).map (·.quantity)).sum ≤ bound := by
  induction legs with
  | nil => exact Nat.zero_le _
  | cons leg legs ih =>
      rw [List.map_cons, List.nodup_cons] at hdistinct
      by_cases hrole : leg.role = role
      · have hnone : legs.filter (·.role = role) = [] := by
          rw [List.filter_eq_nil_iff]
          intro other hother heq
          apply hdistinct.1
          rw [hrole, ← of_decide_eq_true heq]
          exact List.mem_map_of_mem hother
        rw [List.filter_cons_of_pos (by simpa using hrole), hnone]
        simpa using hbound leg List.mem_cons_self hrole
      · rw [List.filter_cons_of_neg (by simpa using hrole)]
        exact ih hdistinct.2 fun other hother => hbound other (List.mem_cons_of_mem leg hother)

/-- No more of a hedge is transmitted than its outstanding quantity has over the part of its
short that is not proven closed. -/
theorem Covered.sold_bound (h : Covered x s) (hlong : boxEntrySide x.direction role = .buy) :
    s.sold role ≤ x.outstanding role -
      (x.outstanding (verticalPartner role) - s.provenClosed (verticalPartner role)) := by
  apply quantityOf_le h.distinct
  rintro leg hleg rfl
  obtain hwave | hwave := List.mem_append.mp hleg
  · obtain ⟨hquantity, hpartner⟩ := h.unpaired leg hwave
    rw [hpartner hlong, hquantity]
    omega
  · exact (h.released leg hwave).2.2

/-- The fills that come of the legs are at least what is proven. -/
theorem provenClosed_le (hfills : s.FillsAgree filled) (role : BoxLegRole) :
    s.provenClosed role ≤ filled role := by
  rw [provenClosed]
  split
  next order hsettled =>
    split
    next hterminal => exact Nat.le_of_eq (hfills role order hsettled hterminal).symm
    · exact Nat.zero_le _
  · exact Nat.zero_le _

/-- The legs of a wave with their fills. -/
def filledLegs (wave : List ExitLeg) (filled : BoxLegRole → Nat) : List TransmittedLeg :=
  wave.map fun leg => ⟨leg.role, leg.quantity, filled leg.role⟩

theorem filledLegs_roles {wave : List ExitLeg} :
    (filledLegs wave filled).map (·.role) = wave.map (·.role) := by
  rw [filledLegs, List.map_map]
  rfl

/-- The oracle accepts what has been transmitted. -/
theorem Covered.exposureSafe (h : Covered x s) (hfills : s.FillsAgree filled) :
    isExposureSafeExitSequence x.direction x.outstanding (s.transmitted filled) = true := by
  have hroles := h.distinct
  rw [List.map_append, List.nodup_append] at hroles
  obtain ⟨hroles0, hroles1, happart⟩ := hroles
  have hwave0 : ∀ leg ∈ filledLegs s.wave0 filled,
      boxEntrySide x.direction leg.role = .buy →
        leg.quantity ≤ x.outstanding leg.role - x.outstanding (verticalPartner leg.role) := by
    intro leg hleg hlong
    obtain ⟨close, hclose, rfl⟩ := List.mem_map.mp hleg
    obtain ⟨hquantity, hpartner⟩ := h.unpaired close hclose
    show close.quantity ≤ x.outstanding close.role - _
    rw [hpartner hlong, hquantity]
    exact Nat.le_refl _
  have hwave1 : ∀ leg ∈ filledLegs s.wave1 filled,
      boxEntrySide x.direction leg.role = .buy →
        leg.quantity ≤ standAfterAll x.outstanding (filledLegs s.wave0 filled) leg.role -
          standAfterAll x.outstanding (filledLegs s.wave0 filled)
            (verticalPartner leg.role) := by
    intro leg hleg _
    obtain ⟨hedge, hhedge, rfl⟩ := List.mem_map.mp hleg
    obtain ⟨hlong, ⟨close, hclose, hpartner⟩, hbound⟩ := h.released hedge hhedge
    have hown : standAfterAll x.outstanding (filledLegs s.wave0 filled) hedge.role =
        x.outstanding hedge.role := by
      apply standAfterAll_other
      intro other hother
      obtain ⟨leg, hleg, rfl⟩ := List.mem_map.mp hother
      exact happart _ (List.mem_map_of_mem hleg) _ (List.mem_map_of_mem hhedge)
    have hmem : ⟨close.role, close.quantity, filled close.role⟩ ∈ filledLegs s.wave0 filled :=
      List.mem_map.mpr ⟨close, hclose, rfl⟩
    have hshort : standAfterAll x.outstanding (filledLegs s.wave0 filled) close.role =
        x.outstanding close.role - filled close.role :=
      standAfterAll_own hmem (filledLegs_roles.symm ▸ hroles0)
    have hproven := provenClosed_le hfills (verticalPartner hedge.role)
    rw [hpartner] at hshort
    show hedge.quantity ≤ standAfterAll _ _ hedge.role - standAfterAll _ _ _
    rw [hown, hshort]
    omega
  rw [isExposureSafeExitSequence, transmitted, List.map_append]
  show exposureSafeFrom _ _ (filledLegs s.wave0 filled ++ filledLegs s.wave1 filled) = true
  rw [exposureSafeFrom_append (filledLegs_roles.symm ▸ hroles0) hwave0,
    ← List.append_nil (filledLegs s.wave1 filled),
    exposureSafeFrom_append (filledLegs_roles.symm ▸ hroles1) hwave1]
  rfl

end Invariant

end LeggingExit

/-- At every moment of every live exit, for both directions, any outstanding quantities and
any settlements in any order: of a hedge no more is transmitted than its outstanding
quantity has over the part of its short that no terminal broker fill has proven closed, and
`isExposureSafeExitSequence` accepts what is transmitted, whatever the legs that are not
terminal come to. -/
theorem exit_keeps_cover (x : ExitRequest) (labels : List ExitLabel) (s : LeggingExit)
    (hrun : run (LeggingExit.step x) {} labels = some s) :
    (∀ hedge, boxEntrySide x.direction hedge = .buy →
      s.sold hedge ≤ x.outstanding hedge -
        (x.outstanding (verticalPartner hedge) - s.provenClosed (verticalPartner hedge))) ∧
    ∀ filled, s.FillsAgree filled →
      isExposureSafeExitSequence x.direction x.outstanding (s.transmitted filled) = true := by
  have hcovered := LeggingExit.covered_run hrun
  constructor
  · intro hedge hlong
    exact hcovered.sold_bound hlong
  · intro filled hfills
    exact hcovered.exposureSafe hfills

namespace Sample

open Orders.Sample

/-- A long box of one lot. -/
def exit : ExitRequest where
  attemptId := "X"
  direction := .longBox
  outstanding := fun _ => 75

/-- The close of a short comes back with a snapshot. -/
def closed (role : BoxLegRole) (state : BoxOrderIntentState) (filled : Nat) : ExitLabel :=
  .settle role (.ok (order (request role .buy .exit) state filled))

/-- One short is closed, of the other one 30 are when the order is cancelled. -/
def partlyCovered : List ExitLabel :=
  [.start (.ok ()), closed .k1Pe .complete 75, closed .k2Ce .cancelled 30, .allSettled (.ok ())]

end Sample

/-- The hedge of a short that is closed for 30 is sold for 30. -/
theorem exit_keeps_cover_sample :
    ∃ s, run (LeggingExit.step Sample.exit) {} Sample.partlyCovered = some s ∧
      s.sold .k1Ce = 30 ∧ s.sold .k2Pe = 75 ∧
      s.sold .k1Ce ≤ 75 - (75 - s.provenClosed .k2Ce) := by
  have hend : (run (LeggingExit.step Sample.exit) {} Sample.partlyCovered).map
      (fun s => (s.sold .k1Ce, s.sold .k2Pe)) = some (30, 75) := by decide
  obtain ⟨s, hrun, hsold⟩ := Option.map_eq_some_iff.mp hend
  obtain ⟨hcall, hput⟩ := Prod.mk.inj hsold
  exact ⟨s, hrun, hcall, hput, (exit_keeps_cover Sample.exit _ s hrun).1 .k1Ce rfl⟩

end Strikedge.ExecutionGateway
