import Strikedge.Machine.Run
import Strikedge.Positions.ExitApplication
import Mathlib.Tactic.Linarith

/-!
# Conservation of the exited quantity

What remains of a position and what its applied attempts have filled add up to what it
started with, no execution is applied twice, and no exit is called for more than the results
have left. The last holds in the runs whose steps meet `ExitCondition`: every fill that is
reported is applied or puts the position into recovery, and no manual close is started over
a projection that waits for its persistence.
-/

namespace Strikedge.Positions

open Machine Orders

namespace PositionMonitor

/-- What remains and what the applied attempts have filled add up, and no execution is
applied twice. -/
structure Balanced (initial : BoxLegRole → ℚ) (p : BoxOpenPosition) : Prop where
  conserved : ∀ role,
    (p.remainingQtyByRole role : ℚ) + appliedFills p.exitAttempts role = initial role
  once : (p.exitAttempts.map (·.execution)).Nodup

/-- What is claimed of every state. -/
structure Conserved (initial : BoxLegRole → ℚ) (s : PositionMonitor) : Prop where
  /-- no call may close more than the results before it have left -/
  open' : ∀ call ∈ s.calls, ∀ role,
    (call.closable role : ℚ) ≤ initial role - call.reported role
  durable : Balanced initial s.durable
  position : Balanced initial s.position

/-- A reported fill is applied or puts the position into recovery: the result is uncertain,
or it has an invalid fill, or each of its fills has a leg with a price. -/
def LeggingExitResult.Accounted (live : Bool) (pos : BoxOpenPosition)
    (result : LeggingExitResult) : Prop :=
  result.uncertain live = true ∨
    (result.closedLegs.isEmpty = false ∧ (result.invalidRole pos).isSome = true) ∨
    ∀ role ∈ boxLegRoles, 0 < result.record.confirmed role →
      ∃ leg ∈ result.legs.getD [], leg.role = role ∧ leg.priced = true

instance (live : Bool) (pos : BoxOpenPosition) (result : LeggingExitResult) :
    Decidable (LeggingExitResult.Accounted live pos result) := by
  unfold LeggingExitResult.Accounted
  infer_instance

/-- The condition on a step: every reported fill is accounted for, and a manual close is not
started while a projection waits for its persistence. -/
def ExitCondition (live : Bool) (s : PositionMonitor) : ExitLabel → Prop
  | .executed result => LeggingExitResult.Accounted live s.position result
  | .closeManually look =>
      s.present = true → s.runsManualClose look = true → s.pendingPartialPersist.isNone = true
  | _ => True

instance (live : Bool) (s : PositionMonitor) (label : ExitLabel) :
    Decidable (ExitCondition live s label) := by
  cases label <;> unfold ExitCondition <;> infer_instance

/-- What a run may start from: attempts of different executions, numbered below the next. -/
structure Watchable (position : BoxOpenPosition) (executions : Nat) : Prop where
  once : (position.exitAttempts.map (·.execution)).Nodup
  numbered : ∀ attempt ∈ position.exitAttempts, attempt.execution < executions

/-- The quantity a position has started with. -/
def initialQuantity (position : BoxOpenPosition) (role : BoxLegRole) : ℚ :=
  position.remainingQtyByRole role + appliedFills position.exitAttempts role

variable {live : Bool} {s t : PositionMonitor} {pos p : BoxOpenPosition}
  {result : LeggingExitResult} {initial : BoxLegRole → ℚ} {origin : ExitOrigin} {n : Nat}

theorem appliedFills_concat (attempts : List BoxExitAttempt) (attempt : BoxExitAttempt)
    (role : BoxLegRole) :
    appliedFills (attempts ++ [attempt]) role =
      appliedFills attempts role + if attempt.status.applied then attempt.fillsByRole role else 0 := by
  by_cases h : attempt.status.applied = true
  · simp [appliedFills, h]
  · simp [appliedFills, h]

/-- Balance, with the executions numbered below a bound. -/
structure BalancedBelow (initial : BoxLegRole → ℚ) (bound : Nat) (p : BoxOpenPosition) : Prop
    extends Balanced initial p where
  numbered : ∀ attempt ∈ p.exitAttempts, attempt.execution < bound

theorem BalancedBelow.mono {bound bound' : Nat} (h : BalancedBelow initial bound p)
    (hle : bound ≤ bound') : BalancedBelow initial bound' p :=
  ⟨h.toBalanced, fun attempt ha => (h.numbered attempt ha).trans_le hle⟩

/-- Balance reads the quantities and the attempts alone. -/
theorem BalancedBelow.congr {bound : Nat} (h : BalancedBelow initial bound pos)
    (hremaining : p.remainingQtyByRole = pos.remainingQtyByRole)
    (hattempts : p.exitAttempts = pos.exitAttempts) : BalancedBelow initial bound p := by
  constructor
  · constructor
    · intro role
      rw [hremaining, hattempts]
      exact h.conserved role
    · rw [hattempts]
      exact h.once
  · rw [hattempts]
    exact h.numbered

/-- A new attempt keeps the balance when it applies what leaves the position. -/
theorem BalancedBelow.concat (h : BalancedBelow initial n pos) (attempt : BoxExitAttempt)
    (hexecution : attempt.execution = n)
    (hattempts : p.exitAttempts = pos.exitAttempts ++ [attempt])
    (hremaining : ∀ role, (p.remainingQtyByRole role : ℚ) +
        (if attempt.status.applied then attempt.fillsByRole role else 0) =
      pos.remainingQtyByRole role) :
    BalancedBelow initial (n + 1) p := by
  have hfresh : n ∉ pos.exitAttempts.map (·.execution) := by
    intro hmem
    obtain ⟨old, hold, heq⟩ := List.mem_map.mp hmem
    have := h.numbered old hold
    omega
  constructor
  · constructor
    · intro role
      rw [hattempts, appliedFills_concat]
      have hbefore := h.conserved role
      have hstep := hremaining role
      linarith
    · rw [hattempts, List.map_append, List.map_singleton, hexecution]
      exact List.nodup_append.mpr ⟨h.once, List.nodup_singleton n, fun a ha b hb hab =>
        hfresh (by rw [List.mem_singleton] at hb; rwa [← hb, ← hab])⟩
  · intro other hother
    rw [hattempts, List.mem_append, List.mem_singleton] at hother
    rcases hother with hold | rfl
    · exact (h.numbered other hold).trans (Nat.lt_succ_self n)
    · rw [hexecution]
      exact Nat.lt_succ_self n

/-- A recovery projection keeps the quantities and applies nothing. -/
theorem balanced_recovery {status : ExitAttemptStatus} (h : BalancedBelow initial n pos)
    (hstatus : status.applied = false) :
    BalancedBelow initial (n + 1) (recoveryProjection n origin pos result status) := by
  refine h.concat (exitAttempt n origin pos result status result.record.confirmed
    pos.remainingQtyByRole) rfl rfl fun role => ?_
  show (pos.remainingQtyByRole role : ℚ) + (if status.applied then _ else 0) = _
  rw [hstatus, if_neg Bool.false_ne_true, add_zero]

/-- Every fill of a record is a whole number within what is left. -/
def ValidFills (pos : BoxOpenPosition) (record : PaperLeggingExecutionRecord) : Prop :=
  ∀ role, (record.confirmed role).den = 1 ∧ 0 ≤ record.confirmed role ∧
    record.confirmed role ≤ pos.remainingQtyByRole role

theorem validFills_of_none (h : result.invalidRole pos = none) :
    ValidFills pos result.record := by
  intro role
  by_cases hkey : role ∈ result.record.fillsByRole.keys
  · have hvalid := List.find?_eq_none.mp h role (List.mem_append_right _ hkey)
    simp only [ne_eq, decide_eq_true_eq, not_or, not_not, not_lt] at hvalid
    exact hvalid
  · have hzero : result.record.confirmed role = 0 := by
      rw [PaperLeggingExecutionRecord.confirmed]
      cases hget : result.record.fillsByRole.get? role with
      | none => rfl
      | some fill => exact absurd (OrderedMap.mem_keys_iff.mpr ⟨fill, hget⟩) hkey
    rw [hzero]
    exact ⟨rfl, le_refl 0, Nat.cast_nonneg _⟩

/-- What the loop has collected adds up, and a fill is collected whole or not at all. -/
structure Collected (pos : BoxOpenPosition) (record : PaperLeggingExecutionRecord)
    (acc : ClosedQuantity) : Prop where
  conserved : ∀ role,
    (acc.remaining role : ℚ) + acc.fills role = pos.remainingQtyByRole role
  whole : ∀ role, acc.fills role = 0 ∨ acc.fills role = record.confirmed role

theorem Collected.closeLeg {record : PaperLeggingExecutionRecord} {acc : ClosedQuantity}
    (h : Collected pos record acc) (hvalid : ValidFills pos record) (leg : BoxLegEvaluation) :
    Collected pos record (closeLeg pos record acc leg) := by
  rw [Positions.closeLeg]
  by_cases hclosed : record.confirmed leg.role ≤ 0
  · rw [if_pos hclosed]
    exact h
  rw [if_neg hclosed]
  by_cases hpriced : leg.priced = true
  · obtain ⟨hwhole, hnonneg, hwithin⟩ := hvalid leg.role
    have hnum : record.confirmed leg.role = ((record.confirmed leg.role).num : ℚ) :=
      ((Rat.den_eq_one_iff _).mp hwhole).symm
    rw [if_neg (by simpa using hpriced)]
    constructor
    · intro role
      by_cases hrole : role = leg.role
      · subst hrole
        show ((Function.update acc.remaining leg.role _ leg.role : Nat) : ℚ) +
          Function.update acc.fills leg.role _ leg.role = _
        rw [Function.update_self, Function.update_self]
        have hle : (record.confirmed leg.role).num ≤ (pos.remainingQtyByRole leg.role : Int) := by
          rw [hnum] at hwithin
          exact_mod_cast hwithin
        have hcast : (((pos.remainingQtyByRole leg.role -
            (record.confirmed leg.role).num : Int).toNat : Nat) : ℚ) =
            pos.remainingQtyByRole leg.role - (record.confirmed leg.role).num := by
          have htoNat := Int.toNat_of_nonneg (sub_nonneg.mpr hle)
          exact_mod_cast htoNat
        rw [hcast, ← hnum]
        linarith
      · show ((Function.update acc.remaining leg.role _ role : Nat) : ℚ) +
          Function.update acc.fills leg.role _ role = _
        rw [Function.update_of_ne hrole, Function.update_of_ne hrole]
        exact h.conserved role
    · intro role
      show Function.update acc.fills leg.role _ role = 0 ∨
        Function.update acc.fills leg.role _ role = _
      by_cases hrole : role = leg.role
      · subst hrole
        rw [Function.update_self]
        exact .inr rfl
      · rw [Function.update_of_ne hrole]
        exact h.whole role
  · rw [if_pos (by simpa using hpriced)]
    exact h

theorem Collected.foldl {record : PaperLeggingExecutionRecord} {acc : ClosedQuantity}
    (h : Collected pos record acc) (hvalid : ValidFills pos record)
    (legs : List BoxLegEvaluation) :
    Collected pos record (legs.foldl (Positions.closeLeg pos record) acc) := by
  induction legs generalizing acc with
  | nil => exact h
  | cons leg legs ih => exact ih (h.closeLeg hvalid leg)

/-- A fill that is collected stays collected. -/
theorem fills_foldl {record : PaperLeggingExecutionRecord} {acc : ClosedQuantity}
    {role : BoxLegRole} (h : acc.fills role = record.confirmed role)
    (legs : List BoxLegEvaluation) :
    (legs.foldl (Positions.closeLeg pos record) acc).fills role = record.confirmed role := by
  induction legs generalizing acc with
  | nil => exact h
  | cons leg legs ih =>
      apply ih
      rw [Positions.closeLeg]
      split
      · exact h
      · split
        · exact h
        · show Function.update acc.fills leg.role _ role = _
          by_cases hrole : role = leg.role
          · subst hrole
            rw [Function.update_self]
          · rw [Function.update_of_ne hrole]
            exact h

/-- A priced leg with a fill is collected. -/
theorem fills_of_priced {record : PaperLeggingExecutionRecord} {acc : ClosedQuantity}
    {legs : List BoxLegEvaluation} {leg : BoxLegEvaluation} (hleg : leg ∈ legs)
    (hpriced : leg.priced = true) (hfill : 0 < record.confirmed leg.role) :
    (legs.foldl (Positions.closeLeg pos record) acc).fills leg.role =
      record.confirmed leg.role := by
  induction legs generalizing acc with
  | nil => cases hleg
  | cons head legs ih =>
      rcases List.mem_cons.mp hleg with rfl | hrest
      · rw [List.foldl_cons]
        apply fills_foldl
        rw [Positions.closeLeg, if_neg (not_le.mpr hfill), if_neg (by simpa using hpriced)]
        exact Function.update_self _ _ _
      · exact ih hrest

theorem collected_closedQuantity (hvalid : ValidFills pos result.record) :
    Collected pos result.record (closedQuantity pos result) := by
  apply Collected.foldl _ hvalid
  exact ⟨fun role => add_zero _, fun role => .inl rfl⟩

@[simp] theorem exitAttempt_status {status : ExitAttemptStatus} {fills : BoxLegRole → ℚ}
    {after : BoxLegRole → Nat} :
    (exitAttempt n origin pos result status fills after).status = status := rfl

theorem closedStatus_applied (remaining : BoxLegRole → Nat) :
    (if isBoxPositionFlat remaining then ExitAttemptStatus.complete
      else .partialClose).applied = true := by
  split <;> rfl

/-- The projection of valid fills is balanced. -/
theorem balanced_closed (h : BalancedBelow initial n pos)
    (hvalid : ValidFills pos result.record) :
    BalancedBelow initial (n + 1) (closedProjection n origin pos result) := by
  refine h.concat (exitAttempt n origin pos result _ (closedQuantity pos result).fills
    (closedQuantity pos result).remaining) rfl rfl fun role => ?_
  show ((closedQuantity pos result).remaining role : ℚ) +
    (if (exitAttempt n origin pos result _ _ _).status.applied then
      (closedQuantity pos result).fills role else 0) = _
  rw [exitAttempt_status, closedStatus_applied, if_pos rfl]
  exact (collected_closedQuantity hvalid).conserved role

/-- Everything reported is applied. -/
def Covers (reported : BoxLegRole → ℚ) (p : BoxOpenPosition) : Prop :=
  ∀ role, reported role ≤ appliedFills p.exitAttempts role

/-- When each fill has a priced leg, the projection applies all of them. -/
theorem covers_closed {reported : BoxLegRole → ℚ} (h : Covers reported pos)
    (hvalid : ValidFills pos result.record)
    (hpriced : ∀ role ∈ boxLegRoles, 0 < result.record.confirmed role →
      ∃ leg ∈ result.legs.getD [], leg.role = role ∧ leg.priced = true) :
    Covers (fun role => reported role + max 0 (result.record.confirmed role))
      (closedProjection n origin pos result) := by
  intro role
  have hbefore := h role
  have hnonneg := (hvalid role).2.1
  have hfills : appliedFills (closedProjection n origin pos result).exitAttempts role =
      appliedFills pos.exitAttempts role + (closedQuantity pos result).fills role := by
    rw [closedProjection, appliedFills_concat]
    show _ + (if (exitAttempt n origin pos result _ _ _).status.applied then
      (closedQuantity pos result).fills role else 0) = _
    rw [exitAttempt_status, closedStatus_applied, if_pos rfl]
  show reported role + max 0 (result.record.confirmed role) ≤ _
  rw [hfills, max_eq_right hnonneg]
  rcases hnonneg.eq_or_lt with hzero | hpositive
  · rcases (collected_closedQuantity hvalid).whole role with hnone | hall
    · rw [hnone, ← hzero]
      linarith
    · rw [hall]
      linarith
  · have hrole : role ∈ boxLegRoles := by cases role <;> decide
    obtain ⟨leg, hleg, rfl, hprice⟩ := hpriced role hrole hpositive
    have hclosed : leg ∈ result.closedLegs :=
      List.mem_filter.mpr ⟨hleg, by simpa using hpositive⟩
    have hall : (closedQuantity pos result).fills leg.role =
        result.record.confirmed leg.role := fills_of_priced hclosed hprice hpositive
    rw [hall]
    linarith

/-- No new exit starts from here. -/
def Quarantined (s : PositionMonitor) : Prop :=
  s.position.positionState = .recovery ∨ s.pendingPartialPersist.isSome = true ∨
    s.present = false

/-- Nothing waits for its persistence. -/
structure Clear (s : PositionMonitor) : Prop where
  final : s.pendingFinalPersist = none
  part : s.pendingPartialPersist = none

/-- What holds of the exit in flight. -/
def ExitSound (initial : BoxLegRole → ℚ) (s : PositionMonitor) : Option ExitPhase → Prop
  | none => s.Quarantined ∨ Covers s.reported s.position
  | some (.executing _ execution) =>
      s.Clear ∧ Covers s.reported s.position ∧ s.executions = execution + 1 ∧
        BalancedBelow initial execution s.position
  | some (.quarantining projected) | some (.violating projected) =>
      s.Clear ∧ BalancedBelow initial s.executions projected ∧
        projected.remainingQtyByRole = s.position.remainingQtyByRole ∧
        projected.positionState = .recovery
  | some (.closing projected) => s.Clear ∧ BalancedBelow initial s.executions projected
  | some (.reducing projected) =>
      s.Clear ∧ BalancedBelow initial s.executions projected ∧ Covers s.reported projected

/-- What holds of the retry in flight. -/
def RetrySound (s : PositionMonitor) : Option RetryPhase → Prop
  | none => True
  | some (.closing pending) => s.pendingFinalPersist = some pending
  | some (.reducing pending) => s.pendingPartialPersist = some pending

structure Sound (initial : BoxLegRole → ℚ) (s : PositionMonitor) : Prop where
  calls : ∀ call ∈ s.calls, ∀ role,
    (call.closable role : ℚ) ≤ initial role - call.reported role
  position : BalancedBelow initial s.executions s.position
  durable : BalancedBelow initial s.executions s.durable
  pendingPartial : ∀ p ∈ s.pendingPartialPersist, BalancedBelow initial s.executions p ∧
    (p.positionState = .recovery ∨ Covers s.reported p)
  pendingFinal : ∀ p ∈ s.pendingFinalPersist, BalancedBelow initial s.executions p ∧
    s.position.positionState = .recovery ∧ s.pendingPartialPersist = none
  closing : s.exit.isSome = true → s.closingId = true
  exit : s.ExitSound initial s.exit
  retry : s.RetrySound s.retry

/-- While nothing waits for its persistence, nothing is retried. -/
theorem Sound.retry_none (h : s.Sound initial) (hclear : s.Clear) : s.retry = none := by
  have hretry := h.retry
  cases hphase : s.retry with
  | none => rfl
  | some phase =>
      rw [hphase] at hretry
      cases phase with
      | closing pending => exact absurd (hclear.final.symm.trans hretry) nofun
      | reducing pending => exact absurd (hclear.part.symm.trans hretry) nofun

/-- An exit is called for what remains, and all that is reported has left it. -/
theorem Sound.beginExit (h : s.Sound initial) (hexit : s.exit = none) (hclear : s.Clear)
    (hopen : ¬s.Quarantined) (origin : ExitOrigin) : (s.beginExit origin).Sound initial := by
  have hsound := h.exit
  rw [hexit] at hsound
  have hcovers : Covers s.reported s.position := hsound.resolve_left hopen
  constructor
  · intro call hcall role
    rcases List.mem_cons.mp hcall with rfl | hold
    · show (s.position.remainingQtyByRole role : ℚ) ≤ initial role - s.reported role
      have hconserved := h.position.conserved role
      have hrole := hcovers role
      linarith
    · exact h.calls call hold role
  · exact (h.position.mono (Nat.le_succ _)).congr rfl rfl
  · exact h.durable.mono (Nat.le_succ _)
  · intro p hp
    exact absurd (hclear.part.symm.trans hp) nofun
  · intro p hp
    exact absurd (hclear.final.symm.trans hp) nofun
  · exact fun _ => rfl
  · exact ⟨⟨hclear.final, hclear.part⟩, hcovers, rfl, h.position.congr rfl rfl⟩
  · show RetrySound _ s.retry
    rw [h.retry_none hclear]
    trivial

theorem runsExit_spec {look : ExitLook} (h : s.runsExit look = true) :
    s.closingId = false ∧ s.Clear ∧ s.position.positionState ≠ .recovery := by
  rw [runsExit] at h
  split at h
  · cases h
  · next hclosing =>
    split at h
    · cases h
    · next hpending =>
      simp only [Bool.or_eq_true, not_or, Bool.not_eq_true] at hclosing hpending
      refine ⟨hclosing.2, ⟨?_, ?_⟩, fun hrecovery => ?_⟩
      · exact Option.isSome_eq_false_iff.mp hpending.1 |> Option.isNone_iff_eq_none.mp
      · exact Option.isSome_eq_false_iff.mp hpending.2 |> Option.isNone_iff_eq_none.mp
      · rw [hrecovery] at h
        split at h
        · cases h
        · cases h

theorem runsManualClose_spec {look : ExitLook} (h : s.runsManualClose look = true) :
    s.closingId = false ∧ s.position.positionState ≠ .recovery := by
  rw [runsManualClose] at h
  split at h
  · cases h
  · next hrecovery =>
    split at h
    · cases h
    · next hclosing =>
      simp only [Bool.or_eq_true, not_or, Bool.not_eq_true] at hclosing
      exact ⟨hclosing.2, hrecovery⟩

theorem Sound.exit_none (h : s.Sound initial) (hclosing : s.closingId = false) :
    s.exit = none := by
  cases hexit : s.exit with
  | none => rfl
  | some phase =>
      have := h.closing (by rw [hexit]; rfl)
      rw [hclosing] at this
      cases this

/-- The end of an exit: it is sound when the position is quarantined or covered. -/
theorem finishExit_sound (hcalls : ∀ call ∈ s.calls, ∀ role,
      (call.closable role : ℚ) ≤ initial role - call.reported role)
    (hposition : BalancedBelow initial s.executions s.position)
    (hdurable : BalancedBelow initial s.executions s.durable)
    (hpart : ∀ p ∈ s.pendingPartialPersist, BalancedBelow initial s.executions p ∧
      (p.positionState = .recovery ∨ Covers s.reported p))
    (hfinal : ∀ p ∈ s.pendingFinalPersist, BalancedBelow initial s.executions p ∧
      s.position.positionState = .recovery ∧ s.pendingPartialPersist = none)
    (hend : s.Quarantined ∨ Covers s.reported s.position) (hretry : s.retry = none) :
    s.finishExit.Sound initial where
  calls := hcalls
  position := hposition.congr rfl rfl
  durable := hdurable
  pendingPartial := hpart
  pendingFinal := hfinal
  closing := nofun
  exit := hend
  retry := by
    show RetrySound _ s.retry
    rw [hretry]
    trivial

/-- An exit goes on to a phase that is sound. -/
theorem Sound.goOn (h : s.Sound initial) (hclear : s.Clear) (hclosing : s.closingId = true)
    (reported : BoxLegRole → ℚ) (phase : ExitPhase)
    (hphase : ExitSound initial { s with reported := reported, exit := some phase }
      (some phase)) :
    Sound initial { s with reported := reported, exit := some phase } where
  calls := h.calls
  position := h.position
  durable := h.durable
  pendingPartial := fun _ hp => absurd (hclear.part.symm.trans hp) nofun
  pendingFinal := fun _ hp => absurd (hclear.final.symm.trans hp) nofun
  closing := fun _ => hclosing
  exit := hphase
  retry := by
    show RetrySound _ s.retry
    rw [h.retry_none hclear]
    trivial

/-- What the application of a result leaves. -/
theorem Sound.executed (h : s.Sound initial) {execution : Nat}
    (hexit : s.exit = some (.executing origin execution))
    (haccounted : LeggingExitResult.Accounted live s.position result) :
    (s.executed live origin execution result).Sound initial := by
  have hsound := h.exit
  rw [hexit] at hsound
  obtain ⟨hclear, hcovers, hnumber, hbalanced⟩ := hsound
  have hclosing : s.closingId = true := h.closing (by rw [hexit]; rfl)
  have hrecovery : ∀ status : ExitAttemptStatus, status.applied = false →
      BalancedBelow initial s.executions
        (recoveryProjection execution origin s.position result status) := by
    intro status hstatus
    rw [hnumber]
    exact balanced_recovery hbalanced hstatus
  rw [PositionMonitor.executed, applyLeggingExitResult]
  by_cases huncertain : result.uncertain live = true
  · rw [if_pos huncertain]
    exact h.goOn hclear hclosing _ _
      ⟨⟨hclear.final, hclear.part⟩, hrecovery _ rfl, rfl, rfl⟩
  rw [if_neg huncertain]
  have haccounted := haccounted.resolve_left huncertain
  by_cases hempty : result.closedLegs.isEmpty = true
  · rw [if_pos hempty]
    have hpriced := haccounted.resolve_left fun hbad => by rw [hempty] at hbad; cases hbad.1
    refine finishExit_sound h.calls h.position h.durable
      (fun p hp => absurd (hclear.part.symm.trans hp) nofun)
      (fun p hp => absurd (hclear.final.symm.trans hp) nofun) (.inr fun role => ?_)
      (h.retry_none hclear)
    -- a fill without a leg would contradict the condition
    have hnone : ¬0 < result.record.confirmed role := by
      intro hfill
      have hrole : role ∈ boxLegRoles := by cases role <;> decide
      obtain ⟨leg, hleg, rfl, -⟩ := hpriced role hrole hfill
      have hclosed : leg ∈ result.closedLegs :=
        List.mem_filter.mpr ⟨hleg, by simpa using hfill⟩
      rw [List.isEmpty_iff.mp hempty] at hclosed
      cases hclosed
    show s.reported role + max 0 (result.record.confirmed role) ≤ _
    rw [max_eq_left (not_lt.mp hnone), add_zero]
    exact hcovers role
  rw [if_neg hempty]
  by_cases hinvalid : (result.invalidRole s.position).isSome = true
  · rw [if_pos hinvalid]
    exact h.goOn hclear hclosing _ _
      ⟨⟨hclear.final, hclear.part⟩, hrecovery _ rfl, rfl, rfl⟩
  rw [if_neg hinvalid]
  have hpriced := haccounted.resolve_left fun hbad => hinvalid hbad.2
  have hvalid : ValidFills s.position result.record :=
    validFills_of_none (by simpa using hinvalid)
  have hprojected : BalancedBelow initial s.executions
      (closedProjection execution origin s.position result) := by
    rw [hnumber]
    exact balanced_closed hbalanced hvalid
  by_cases hflat : isBoxPositionFlat
      (closedProjection execution origin s.position result).remainingQtyByRole = true
  · rw [if_pos hflat]
    exact h.goOn hclear hclosing _ _ ⟨⟨hclear.final, hclear.part⟩, hprojected⟩
  · rw [if_neg hflat]
    exact h.goOn hclear hclosing _ _
      ⟨⟨hclear.final, hclear.part⟩, hprojected, covers_closed hcovers hvalid hpriced⟩

/-- The store holds the trade or the projection of the call. -/
theorem balanced_store {bound : Nat} (outcome : PersistOutcome)
    (hdurable : BalancedBelow initial bound s.durable) (hp : BalancedBelow initial bound p) :
    BalancedBelow initial bound (s.store p outcome).durable := by
  show BalancedBelow initial bound (if outcome.written then p else s.durable)
  split
  · exact hp
  · exact hdurable

theorem removes_of_succeeded {outcome : PersistOutcome} (h : outcome.succeeded = true) :
    outcome.removes = true := by
  cases outcome with
  | stored => rfl
  | refused => cases h
  | threw written removed => cases h

/-- What the settlement of an exit's persistence call leaves. -/
theorem Sound.persisted (h : s.Sound initial) {phase : ExitPhase} {outcome : PersistOutcome}
    (hexit : s.exit = some phase) (hstep : s.persisted outcome phase = some t) :
    t.Sound initial := by
  have hsound := h.exit
  rw [hexit] at hsound
  cases phase with
  | executing origin execution => cases hstep
  | quarantining projected =>
      obtain ⟨hclear, hbalanced, hquantities, hrecovery⟩ := hsound
      obtain rfl := Option.some.inj hstep
      have hretry := h.retry_none hclear
      have hdurable := balanced_store outcome h.durable hbalanced
      by_cases hok : outcome.succeeded = true
      · rw [if_pos hok]
        exact finishExit_sound h.calls (hbalanced.congr hquantities.symm rfl) hdurable
          (fun p hp => absurd (hclear.part.symm.trans hp) nofun)
          (fun p hp => absurd (hclear.final.symm.trans hp) nofun) (.inl (.inl rfl)) hretry
      · rw [if_neg hok]
        refine finishExit_sound h.calls h.position hdurable (fun p hp => ?_)
          (fun p hp => absurd (hclear.final.symm.trans hp) nofun) (.inl (.inr (.inl rfl)))
          hretry
        obtain rfl := Option.some.inj hp
        exact ⟨hbalanced, .inl hrecovery⟩
  | violating projected =>
      obtain ⟨hclear, hbalanced, hquantities, hrecovery⟩ := hsound
      obtain rfl := Option.some.inj hstep
      have hretry := h.retry_none hclear
      have hdurable := balanced_store outcome h.durable hbalanced
      by_cases hok : outcome.succeeded = true
      · rw [if_pos hok]
        exact finishExit_sound h.calls (hbalanced.congr hquantities.symm rfl) hdurable
          (fun p hp => absurd (hclear.part.symm.trans hp) nofun)
          (fun p hp => absurd (hclear.final.symm.trans hp) nofun) (.inl (.inl hrecovery))
          hretry
      · rw [if_neg hok]
        refine finishExit_sound h.calls (h.position.congr rfl rfl) hdurable (fun p hp => ?_)
          (fun p hp => absurd (hclear.final.symm.trans hp) nofun) (.inl (.inl rfl)) hretry
        obtain rfl := Option.some.inj hp
        exact ⟨hbalanced, .inl hrecovery⟩
  | closing projected =>
      obtain ⟨hclear, hbalanced⟩ := hsound
      obtain rfl := Option.some.inj hstep
      have hretry := h.retry_none hclear
      have hdurable := balanced_store outcome h.durable hbalanced
      by_cases hok : outcome.succeeded = true
      · rw [if_pos hok]
        refine finishExit_sound h.calls (hbalanced.congr rfl rfl) hdurable
          (fun p hp => absurd (hclear.part.symm.trans hp) nofun)
          (fun p hp => absurd (hclear.final.symm.trans hp) nofun) (.inl (.inr (.inr ?_))) hretry
        show (s.present && !outcome.removes) = false
        rw [removes_of_succeeded hok, Bool.not_true, Bool.and_false]
      · rw [if_neg hok]
        refine finishExit_sound h.calls (h.position.congr rfl rfl) hdurable
          (fun p hp => absurd (hclear.part.symm.trans hp) nofun) (fun p hp => ?_)
          (.inl (.inl rfl)) hretry
        obtain rfl := Option.some.inj hp
        exact ⟨hbalanced, rfl, hclear.part⟩
  | reducing projected =>
      obtain ⟨hclear, hbalanced, hcovers⟩ := hsound
      obtain rfl := Option.some.inj hstep
      have hretry := h.retry_none hclear
      have hdurable := balanced_store outcome h.durable hbalanced
      by_cases hok : outcome.succeeded = true
      · rw [if_pos hok]
        exact finishExit_sound h.calls (hbalanced.congr rfl rfl) hdurable
          (fun p hp => absurd (hclear.part.symm.trans hp) nofun)
          (fun p hp => absurd (hclear.final.symm.trans hp) nofun) (.inr hcovers) hretry
      · rw [if_neg hok]
        refine finishExit_sound h.calls (h.position.congr rfl rfl) hdurable (fun p hp => ?_)
          (fun p hp => absurd (hclear.final.symm.trans hp) nofun) (.inl (.inl rfl)) hretry
        obtain rfl := Option.some.inj hp
        exact ⟨hbalanced, .inr hcovers⟩

/-- An exit in flight has nothing that waits for its persistence. -/
theorem Sound.clear_of_exit (h : s.Sound initial) {phase : ExitPhase}
    (hexit : s.exit = some phase) : s.Clear := by
  have hsound := h.exit
  rw [hexit] at hsound
  cases phase with
  | executing origin execution => exact hsound.1
  | quarantining projected => exact hsound.1
  | violating projected => exact hsound.1
  | closing projected => exact hsound.1
  | reducing projected => exact hsound.1

theorem Sound.exit_of_pending (h : s.Sound initial)
    (hpending : s.pendingFinalPersist = some p ∨ s.pendingPartialPersist = some p) :
    s.exit = none := by
  cases hexit : s.exit with
  | none => rfl
  | some phase =>
      have hclear := h.clear_of_exit hexit
      rcases hpending with hfinal | hpart
      · exact absurd (hclear.final.symm.trans hfinal) nofun
      · exact absurd (hclear.part.symm.trans hpart) nofun

/-- While no exit is in flight, the monitor is sound when its parts are. -/
theorem sound_idle (hexit : s.exit = none) (hcalls : ∀ call ∈ s.calls, ∀ role,
      (call.closable role : ℚ) ≤ initial role - call.reported role)
    (hposition : BalancedBelow initial s.executions s.position)
    (hdurable : BalancedBelow initial s.executions s.durable)
    (hpart : ∀ p ∈ s.pendingPartialPersist, BalancedBelow initial s.executions p ∧
      (p.positionState = .recovery ∨ Covers s.reported p))
    (hfinal : ∀ p ∈ s.pendingFinalPersist, BalancedBelow initial s.executions p ∧
      s.position.positionState = .recovery ∧ s.pendingPartialPersist = none)
    (hend : s.Quarantined ∨ Covers s.reported s.position) (hretry : s.RetrySound s.retry) :
    s.Sound initial where
  calls := hcalls
  position := hposition
  durable := hdurable
  pendingPartial := hpart
  pendingFinal := hfinal
  closing := fun hsome => by rw [hexit] at hsome; cases hsome
  exit := by rw [hexit]; exact hend
  retry := hretry

theorem Sound.idle (h : s.Sound initial) (hexit : s.exit = none) :
    s.Quarantined ∨ Covers s.reported s.position := by
  have hsound := h.exit
  rwa [hexit] at hsound

theorem Sound.retryFinal (h : s.Sound initial) (hretry : s.retry = none) :
    s.retryFinal.Sound initial := by
  rw [PositionMonitor.retryFinal]
  split
  · exact h
  · next pending hpending =>
    have hexit := h.exit_of_pending (.inl hpending)
    obtain ⟨-, hrecovery, -⟩ := h.pendingFinal pending hpending
    split
    · exact sound_idle hexit h.calls h.position h.durable h.pendingPartial h.pendingFinal
        (.inl (.inl hrecovery)) hpending
    · refine sound_idle hexit h.calls h.position h.durable h.pendingPartial nofun
        (.inl (.inl hrecovery)) ?_
      show RetrySound _ s.retry
      rw [hretry]
      trivial

theorem Sound.retryPartial (h : s.Sound initial) (hretry : s.retry = none) :
    s.retryPartial.Sound initial := by
  rw [PositionMonitor.retryPartial]
  split
  · exact h
  · next pending hpending =>
    have hexit := h.exit_of_pending (.inr hpending)
    have hfinal : ∀ p, s.pendingFinalPersist ≠ some p := fun p hp =>
      absurd ((h.pendingFinal p hp).2.2.symm.trans hpending) nofun
    split
    · exact sound_idle hexit h.calls h.position h.durable h.pendingPartial h.pendingFinal
        (h.idle hexit) hpending
    · next habsent =>
      refine sound_idle hexit h.calls h.position h.durable nofun
        (fun p hp => absurd hp (hfinal p)) (.inl (.inr (.inr (by simpa using habsent)))) ?_
      show RetrySound _ s.retry
      rw [hretry]
      trivial

/-- What the settlement of a retry's persistence call leaves. -/
theorem Sound.retried (h : s.Sound initial) {phase : RetryPhase} {outcome : PersistOutcome}
    (hretry : s.retry = some phase) : (s.retried outcome phase).Sound initial := by
  have hsound := h.retry
  rw [hretry] at hsound
  cases phase with
  | closing pending =>
      have hpending : s.pendingFinalPersist = some pending := hsound
      have hexit := h.exit_of_pending (.inl hpending)
      obtain ⟨hbalanced, hrecovery, hpart⟩ := h.pendingFinal pending hpending
      have hdurable := balanced_store outcome h.durable hbalanced
      rw [PositionMonitor.retried]
      split
      · exact sound_idle hexit h.calls h.position hdurable h.pendingPartial nofun
          (.inl (.inl hrecovery)) trivial
      · exact sound_idle hexit h.calls h.position hdurable h.pendingPartial h.pendingFinal
          (.inl (.inl hrecovery)) trivial
  | reducing pending =>
      have hpending : s.pendingPartialPersist = some pending := hsound
      have hexit := h.exit_of_pending (.inr hpending)
      obtain ⟨hbalanced, hcovers⟩ := h.pendingPartial pending hpending
      have hfinal : ∀ p, s.pendingFinalPersist ≠ some p := fun p hp =>
        absurd ((h.pendingFinal p hp).2.2.symm.trans hpending) nofun
      have hdurable := balanced_store outcome h.durable hbalanced
      rw [PositionMonitor.retried]
      split
      · exact sound_idle hexit h.calls (hbalanced.congr rfl rfl) hdurable nofun
          (fun p hp => absurd hp (hfinal p)) (hcovers.imp .inl id) trivial
      · exact sound_idle hexit h.calls h.position hdurable h.pendingPartial h.pendingFinal
          (h.idle hexit) trivial

theorem Sound.step (h : s.Sound initial) {label : ExitLabel}
    (hcondition : ExitCondition live s label)
    (hstep : PositionMonitor.step live s label = some t) : t.Sound initial := by
  cases label with
  | evaluate look =>
      rw [PositionMonitor.step] at hstep
      split at hstep
      · next hpresent =>
        obtain rfl := Option.some.inj hstep
        split
        · next hruns =>
          obtain ⟨hclosing, hclear, hstate⟩ := runsExit_spec hruns
          refine h.beginExit (h.exit_none hclosing) hclear ?_ .auto
          rintro (hrecovery | hpending | habsent)
          · exact hstate hrecovery
          · rw [hclear.part] at hpending
            cases hpending
          · rw [hpresent] at habsent
            cases habsent
        · exact h
      · cases hstep
  | closeManually look =>
      rw [PositionMonitor.step] at hstep
      split at hstep
      · next hpresent =>
        obtain rfl := Option.some.inj hstep
        split
        · next hruns =>
          obtain ⟨hclosing, hstate⟩ := runsManualClose_spec hruns
          have hpart : s.pendingPartialPersist = none :=
            Option.isNone_iff_eq_none.mp (hcondition hpresent hruns)
          have hfinal : s.pendingFinalPersist = none := by
            cases hpending : s.pendingFinalPersist with
            | none => rfl
            | some pending => exact absurd (h.pendingFinal pending hpending).2.1 hstate
          refine h.beginExit (h.exit_none hclosing) ⟨hfinal, hpart⟩ ?_ .manual
          rintro (hrecovery | hpending | habsent)
          · exact hstate hrecovery
          · rw [hpart] at hpending
            cases hpending
          · rw [hpresent] at habsent
            cases habsent
        · exact h
      · obtain rfl := Option.some.inj hstep
        exact h
  | executed result =>
      rw [PositionMonitor.step] at hstep
      split at hstep
      · next origin execution hexit =>
        obtain rfl := Option.some.inj hstep
        exact h.executed hexit hcondition
      · cases hstep
  | executionThrew =>
      rw [PositionMonitor.step] at hstep
      split at hstep
      · next origin execution hexit =>
        obtain rfl := Option.some.inj hstep
        have hclear := h.clear_of_exit hexit
        have hsound := h.exit
        rw [hexit] at hsound
        exact finishExit_sound h.calls h.position h.durable h.pendingPartial h.pendingFinal
          (.inr hsound.2.1) (h.retry_none hclear)
      · cases hstep
  | persisted outcome =>
      obtain ⟨phase, hexit, hpersisted⟩ := Option.bind_eq_some_iff.mp hstep
      exact h.persisted hexit hpersisted
  | retryPendingFinalPersists =>
      rw [PositionMonitor.step] at hstep
      split at hstep
      · next hnone =>
        obtain rfl := Option.some.inj hstep
        exact h.retryFinal (Option.isNone_iff_eq_none.mp hnone)
      · cases hstep
  | retryPendingPartialPersists =>
      rw [PositionMonitor.step] at hstep
      split at hstep
      · next hnone =>
        obtain rfl := Option.some.inj hstep
        exact h.retryPartial (Option.isNone_iff_eq_none.mp hnone)
      · cases hstep
  | retried outcome =>
      obtain ⟨phase, hretry, rfl⟩ := Option.map_eq_some_iff.mp hstep
      exact h.retried hretry

theorem Watchable.sound {position : BoxOpenPosition} {executions : Nat}
    (h : Watchable position executions) :
    (watch position executions).Sound (initialQuantity position) := by
  have hbalanced : BalancedBelow (initialQuantity position) executions position :=
    ⟨⟨fun role => rfl, h.once⟩, h.numbered⟩
  exact sound_idle rfl nofun hbalanced hbalanced nofun nofun (.inr fun role => le_refl _) trivial

theorem Sound.conserved (h : s.Sound initial) : Conserved initial s :=
  ⟨h.calls, h.durable.toBalanced, h.position.toBalanced⟩

/-- In every run whose steps meet the condition, the position and the stored trade stay
balanced and no exit is called for exposure that a result has reported closed. -/
theorem exits_conserve_quantity (live : Bool) (position : BoxOpenPosition) (executions : Nat)
    (labels : List ExitLabel) (hstart : Watchable position executions)
    (hcondition : Heeds (PositionMonitor.step live) (ExitCondition live)
      (watch position executions) labels) :
    Throughout (PositionMonitor.step live) (Conserved (initialQuantity position))
      (watch position executions) labels :=
  (Throughout.of_heeds (fun _ _ _ h hc hstep => h.step hc hstep) hstart.sound hcondition).mono
    fun _ h => h.conserved

namespace Sample

/-- One lot of every leg. -/
def wholeBox : BoxOpenPosition where
  id := "T"
  remainingQtyByRole := fun _ => 75
  positionState := .box

def look : ExitLook := ⟨true, true, false, true, true⟩

/-- A live exit that reports one fill. -/
def reported (detail : String) (role : BoxLegRole) (fill : ℚ) (price : Option ℚ) :
    LeggingExitResult where
  ok := false
  detail := detail
  legs := some [⟨role, price⟩]
  record := ⟨[⟨role, some "1", 75⟩], OrderedMap.set ∅ role fill⟩

/-- The projection of a partial close is refused, retried and stored, and the exit is called
again. -/
def retriedExit : List ExitLabel :=
  [.evaluate look, .executed (reported "live exit partially filled" .k2Ce 50 (some 100)),
    .persisted .refused, .closeManually look, .retryPendingPartialPersists, .retried .stored,
    .closeManually look]

/-- An uncertain exit cannot be persisted, and the position is closed by hand. -/
def manualOverUncertain : List ExitLabel :=
  [.evaluate look,
    .executed (reported "exit terminal quantity uncertain; position moved to recovery" .k2Ce 75
      (some 100)),
    .persisted .refused, .closeManually look]

theorem watchable_wholeBox : Watchable wholeBox 0 := ⟨List.nodup_nil, nofun⟩

end Sample

theorem exits_conserve_quantity_sample :
    Throughout (PositionMonitor.step true) (Conserved (initialQuantity Sample.wholeBox))
        (watch Sample.wholeBox 0) Sample.retriedExit ∧
      ((run (PositionMonitor.step true) (watch Sample.wholeBox 0) Sample.retriedExit).map
        fun s => s.calls.map (·.closable .k2Ce)) = some [25, 75] := by
  refine ⟨exits_conserve_quantity true Sample.wholeBox 0 Sample.retriedExit
    Sample.watchable_wholeBox ?_, ?_⟩
  · decide +kernel
  · decide +kernel

/-- The leg that an uncertain result has reported closed is submitted once more. -/
theorem uncertain_exit_resubmitted :
    ¬Throughout (PositionMonitor.step true) (Conserved (initialQuantity Sample.wholeBox))
      (watch Sample.wholeBox 0) Sample.manualOverUncertain := by
  intro h
  have hend : (run (PositionMonitor.step true) (watch Sample.wholeBox 0)
      Sample.manualOverUncertain).map
        (fun s => s.calls.head?.map fun call => (call.closable .k2Ce, call.reported .k2Ce)) =
      some (some (75, 75)) := by decide +kernel
  obtain ⟨s, hrun, hhead⟩ := Option.map_eq_some_iff.mp hend
  obtain ⟨call, hcall, hvalues⟩ := Option.map_eq_some_iff.mp hhead
  obtain ⟨hclosable, hreported⟩ := Prod.mk.inj hvalues
  have hopen := (h.last hrun).open' call (List.mem_of_mem_head? hcall) .k2Ce
  rw [hclosable, hreported] at hopen
  have hinitial : initialQuantity Sample.wholeBox .k2Ce = 75 := by decide +kernel
  rw [hinitial] at hopen
  norm_num at hopen

end PositionMonitor

end Strikedge.Positions
