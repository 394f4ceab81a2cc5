import Strikedge.ExecutionGateway.ResidualProjection

/-!
# Committing a projection command

`applyBoxExecutionAttemptProjection` of `repository.ts` and the pure model of it in
`executionAttemptProjection.ts`. Both compare the version and the identity a command expects
with those of the row, and keep a bounded ring of the application ids they have applied.

A run hands a sequence of commands to both, in any order and with any repetitions; a crash
before an acknowledgement is a command that comes again. Charges are whole paise. A durable
version that is no safe integer reads like an absent one.
-/

namespace Strikedge.ExecutionGateway

open Machine Orders

def maxFlattenApplicationIds : Nat := 32

inductive BoxExecutionAttemptProjectionStatus where
  | applied
  | alreadyApplied
  | stale
  | notFound
  deriving DecidableEq, Repr

structure BoxExecutionAttemptProjectionResult (δ : Type) where
  status : BoxExecutionAttemptProjectionStatus
  projectionVersion : Option Nat
  projectionIdentity : Option δ
  residualExposure : Option (List ResidualLegExposure)
  flattenCharges : Option Nat
  flattenChargeDay : Option String
  flattenChargesForDay : Option Nat
  deriving DecidableEq, Repr

/-- The columns of a durable attempt a projection reads and writes. The schema keeps the
charges nonnegative and the ring present. -/
structure BoxExecutionAttemptRecord (δ : Type) where
  projectionVersion : Option Nat
  residualProjectionIdentity : Option δ
  residualExposure : Option (List ResidualLegExposure)
  flattenCharges : Nat
  flattenChargeDay : Option String
  flattenChargesForDay : Nat
  appliedFlattenApplications : List δ
  resolved : Bool
  deriving DecidableEq, Repr

/-- What the pure model reads of an attempt. -/
structure BoxExecutionAttemptProjectionSnapshot (δ : Type) where
  projectionVersion : Option Nat
  residualProjectionIdentity : Option δ
  residualExposure : Option (List ResidualLegExposure)
  flattenCharges : Option Int
  flattenChargeDay : Option String
  flattenChargesForDay : Option Int
  appliedFlattenApplications : Option (List δ)
  resolved : Option Bool
  deriving DecidableEq, Repr

/-- `slice(-MAX_FLATTEN_APPLICATION_IDS)` -/
def recentApplications {δ : Type} (applications : List δ) : List δ :=
  applications.drop (applications.length - maxFlattenApplicationIds)

/-- The answer where there is no row. -/
def missingResult {δ : Type} (status : BoxExecutionAttemptProjectionStatus) :
    BoxExecutionAttemptProjectionResult δ where
  status := status
  projectionVersion := none
  projectionIdentity := none
  residualExposure := none
  flattenCharges := none
  flattenChargeDay := none
  flattenChargesForDay := none

section Store

variable {δ : Type} (hash : ContentHash δ)

def projectionResult (status : BoxExecutionAttemptProjectionStatus)
    (row : BoxExecutionAttemptRecord δ) : BoxExecutionAttemptProjectionResult δ :=
  let residual := row.residualExposure.getD []
  { status := status
    projectionVersion := some (row.projectionVersion.getD 0)
    projectionIdentity :=
      row.residualProjectionIdentity <|> some (residualProjectionIdentity hash residual)
    residualExposure := some residual
    flattenCharges := some row.flattenCharges
    flattenChargeDay := row.flattenChargeDay
    flattenChargesForDay := some row.flattenChargesForDay }

namespace BoxExecutionAttemptRecord

variable (before : BoxExecutionAttemptRecord δ) (command : BoxExecutionAttemptProjectionCommand δ)

def VersionMatches : Prop :=
  before.projectionVersion.getD 0 = command.expectedVersion ∨
    command.expectedVersion = 0 ∧ before.projectionVersion = none

/-- The stored identity is the expected one. A row without an identity is compared by its
content, and only at version zero. -/
def IdentityMatches : Prop :=
  before.residualProjectionIdentity = some command.expectedProjectionIdentity ∨
    command.expectedVersion = 0 ∧ before.residualProjectionIdentity = none ∧
      ExecutionGateway.residualProjectionIdentity hash (before.residualExposure.getD []) =
        command.expectedProjectionIdentity

/-- The row a command leaves. -/
def update : BoxExecutionAttemptRecord δ :=
  let chargedNow := 0 < command.flattenChargeDelta
  let priorForDay := before.flattenChargesForDay
  { projectionVersion := some (before.projectionVersion.getD 0 + 1)
    residualProjectionIdentity := some command.nextProjectionIdentity
    residualExposure := some command.residualExposure
    flattenCharges := before.flattenCharges + command.flattenChargeDelta
    flattenChargeDay :=
      if chargedNow then some command.flattenChargeDay else before.flattenChargeDay
    flattenChargesForDay :=
      if chargedNow then
        (if before.flattenChargeDay = some command.flattenChargeDay then priorForDay else 0) +
          command.flattenChargeDelta
      else priorForDay
    appliedFlattenApplications :=
      recentApplications (before.appliedFlattenApplications ++ [command.applicationId])
    resolved := command.residualExposure.isEmpty }

instance : Decidable (before.VersionMatches command) := inferInstanceAs (Decidable (_ ∨ _))

instance [DecidableEq δ] : Decidable (before.IdentityMatches hash command) :=
  inferInstanceAs (Decidable (_ ∨ _))

end BoxExecutionAttemptRecord

variable [DecidableEq δ]

/-- `applyBoxExecutionAttemptProjection`: the answer and the row once the transaction is
committed. There is no row where the store is off or the id is not one of its own. -/
def applyBoxExecutionAttemptProjection (row : Option (BoxExecutionAttemptRecord δ))
    (command : BoxExecutionAttemptProjectionCommand δ) :
    BoxExecutionAttemptProjectionResult δ × Option (BoxExecutionAttemptRecord δ) :=
  match row with
  | none => (missingResult .notFound, none)
  | some before =>
    if command.applicationId ∈ before.appliedFlattenApplications then
      (projectionResult hash .alreadyApplied before, some before)
    else if ¬ before.VersionMatches command ∨ ¬ before.IdentityMatches hash command then
      (projectionResult hash .stale before, some before)
    else (projectionResult hash .applied (before.update command), some (before.update command))

def snapshotResult (status : BoxExecutionAttemptProjectionStatus)
    (snapshot : BoxExecutionAttemptProjectionSnapshot δ) :
    BoxExecutionAttemptProjectionResult δ :=
  let residual := snapshot.residualExposure.getD []
  { status := status
    projectionVersion := some (snapshot.projectionVersion.getD 0)
    projectionIdentity :=
      snapshot.residualProjectionIdentity <|> some (residualProjectionIdentity hash residual)
    residualExposure := some residual
    flattenCharges := some (max 0 (snapshot.flattenCharges.getD 0)).toNat
    flattenChargeDay := snapshot.flattenChargeDay
    flattenChargesForDay := some (max 0 (snapshot.flattenChargesForDay.getD 0)).toNat }

/-- The snapshot a command leaves. -/
def BoxExecutionAttemptProjectionSnapshot.update
    (snapshot : BoxExecutionAttemptProjectionSnapshot δ)
    (command : BoxExecutionAttemptProjectionCommand δ) :
    BoxExecutionAttemptProjectionSnapshot δ where
  projectionVersion := some (snapshot.projectionVersion.getD 0 + 1)
  residualProjectionIdentity := some command.nextProjectionIdentity
  residualExposure := some command.residualExposure
  flattenCharges := some (max 0 (snapshot.flattenCharges.getD 0) + command.flattenChargeDelta)
  flattenChargeDay :=
    if 0 < command.flattenChargeDelta then some command.flattenChargeDay
    else snapshot.flattenChargeDay
  flattenChargesForDay :=
    if 0 < command.flattenChargeDelta then
      some ((if snapshot.flattenChargeDay = some command.flattenChargeDay then
        max 0 (snapshot.flattenChargesForDay.getD 0) else 0) + command.flattenChargeDelta)
    else some (snapshot.flattenChargesForDay.getD 0)
  appliedFlattenApplications :=
    some (recentApplications
      (snapshot.appliedFlattenApplications.getD [] ++ [command.applicationId]))
  resolved := some command.residualExposure.isEmpty

def transitionResidualProjectionSnapshot
    (snapshot : Option (BoxExecutionAttemptProjectionSnapshot δ))
    (command : BoxExecutionAttemptProjectionCommand δ) :
    BoxExecutionAttemptProjectionResult δ × Option (BoxExecutionAttemptProjectionSnapshot δ) :=
  match snapshot with
  | none => (missingResult .notFound, none)
  | some snapshot =>
    let applications := snapshot.appliedFlattenApplications.getD []
    if command.applicationId ∈ applications then
      (snapshotResult hash .alreadyApplied snapshot, some snapshot)
    else
      let version := snapshot.projectionVersion.getD 0
      let residual := snapshot.residualExposure.getD []
      let identity :=
        snapshot.residualProjectionIdentity.getD (residualProjectionIdentity hash residual)
      if version ≠ command.expectedVersion ∨ identity ≠ command.expectedProjectionIdentity then
        (snapshotResult hash .stale snapshot, some snapshot)
      else
        (snapshotResult hash .applied (snapshot.update command), some (snapshot.update command))

end Store

namespace BoxExecutionAttemptRecord

variable {δ : Type} [DecidableEq δ] {hash : ContentHash δ}
variable {before : BoxExecutionAttemptRecord δ} {command : BoxExecutionAttemptProjectionCommand δ}

/-- The row as the pure model sees it. -/
def snapshot (row : BoxExecutionAttemptRecord δ) : BoxExecutionAttemptProjectionSnapshot δ where
  projectionVersion := row.projectionVersion
  residualProjectionIdentity := row.residualProjectionIdentity
  residualExposure := row.residualExposure
  flattenCharges := some row.flattenCharges
  flattenChargeDay := row.flattenChargeDay
  flattenChargesForDay := some row.flattenChargesForDay
  appliedFlattenApplications := some row.appliedFlattenApplications
  resolved := some row.resolved

variable (hash) in
/-- The store applies the command. -/
def Accepts (before : BoxExecutionAttemptRecord δ)
    (command : BoxExecutionAttemptProjectionCommand δ) : Prop :=
  command.applicationId ∉ before.appliedFlattenApplications ∧ before.VersionMatches command ∧
    before.IdentityMatches hash command

variable (hash) in
/-- A row without an identity whose version and content are the expected ones, at a version
beyond zero. -/
def Unadoptable (before : BoxExecutionAttemptRecord δ)
    (command : BoxExecutionAttemptProjectionCommand δ) : Prop :=
  command.applicationId ∉ before.appliedFlattenApplications ∧
    before.residualProjectionIdentity = none ∧
    before.projectionVersion = some command.expectedVersion ∧ command.expectedVersion ≠ 0 ∧
    ExecutionGateway.residualProjectionIdentity hash (before.residualExposure.getD []) =
      command.expectedProjectionIdentity

instance : Decidable (before.Accepts hash command) := inferInstanceAs (Decidable (_ ∧ _ ∧ _))

instance : Decidable (before.Unadoptable hash command) :=
  inferInstanceAs (Decidable (_ ∧ _ ∧ _ ∧ _ ∧ _))

omit [DecidableEq δ] in
theorem versionMatches_iff :
    before.VersionMatches command ↔ before.projectionVersion.getD 0 = command.expectedVersion := by
  constructor
  · rintro (h | ⟨hzero, hnone⟩)
    · exact h
    · rw [hnone, hzero, Option.getD_none]
  · exact .inl

omit [DecidableEq δ] in
theorem snapshotResult_snapshot (status : BoxExecutionAttemptProjectionStatus)
    (row : BoxExecutionAttemptRecord δ) :
    snapshotResult hash status row.snapshot = projectionResult hash status row := by
  rw [snapshotResult, projectionResult]
  simp [snapshot]

omit [DecidableEq δ] in
theorem update_snapshot : before.snapshot.update command = (before.update command).snapshot := by
  rw [update, BoxExecutionAttemptProjectionSnapshot.update]
  by_cases hcharged : 0 < command.flattenChargeDelta
  · by_cases hday : before.flattenChargeDay = some command.flattenChargeDay
    · simp [snapshot, hcharged, hday]
    · simp [snapshot, hcharged, hday]
  · simp [snapshot, hcharged]

theorem apply_of_accepts (h : before.Accepts hash command) :
    applyBoxExecutionAttemptProjection hash (some before) command =
      (projectionResult hash .applied (before.update command), some (before.update command)) := by
  obtain ⟨hfresh, hversion, hidentity⟩ := h
  rw [applyBoxExecutionAttemptProjection, if_neg hfresh,
    if_neg (not_or.mpr ⟨not_not.mpr hversion, not_not.mpr hidentity⟩)]

/-- A command the store does not apply leaves the row alone. -/
theorem apply_of_not_accepts (h : ¬ before.Accepts hash command) :
    ∃ status, status ≠ .applied ∧
      applyBoxExecutionAttemptProjection hash (some before) command =
        (projectionResult hash status before, some before) := by
  rw [applyBoxExecutionAttemptProjection]
  by_cases hreplay : command.applicationId ∈ before.appliedFlattenApplications
  · exact ⟨.alreadyApplied, nofun, if_pos hreplay⟩
  · refine ⟨.stale, nofun, ?_⟩
    have hstale : ¬ before.VersionMatches command ∨ ¬ before.IdentityMatches hash command := by
      rw [← not_and_or]
      exact fun hmatches => h ⟨hreplay, hmatches⟩
    rw [if_neg hreplay, if_pos hstale]

omit [DecidableEq δ] in
/-- The model compares an absent identity by its content at every version. -/
theorem identity_getD_iff (hversion : before.projectionVersion.getD 0 = command.expectedVersion)
    (hfresh : command.applicationId ∉ before.appliedFlattenApplications) :
    before.residualProjectionIdentity.getD
          (ExecutionGateway.residualProjectionIdentity hash (before.residualExposure.getD [])) =
        command.expectedProjectionIdentity ↔
      before.IdentityMatches hash command ∨ before.Unadoptable hash command := by
  cases hidentity : before.residualProjectionIdentity with
  | some identity =>
    rw [Option.getD_some, IdentityMatches, Unadoptable, hidentity]
    simp
  | none =>
    rw [Option.getD_none, IdentityMatches, Unadoptable, hidentity]
    have hsome : command.expectedVersion ≠ 0 →
        before.projectionVersion = some command.expectedVersion := by
      intro hzero
      cases hstored : before.projectionVersion with
      | none => exact absurd (by rw [← hversion, hstored, Option.getD_none]) hzero
      | some version => rw [← hversion, hstored, Option.getD_some]
    simp only [reduceCtorEq, false_or, true_and, hfresh, not_false_eq_true]
    constructor
    · intro hcontent
      by_cases hzero : command.expectedVersion = 0
      · exact .inl ⟨hzero, hcontent⟩
      · exact .inr ⟨hsome hzero, hzero, hcontent⟩
    · rintro (⟨-, hcontent⟩ | ⟨-, -, hcontent⟩)
      · exact hcontent
      · exact hcontent

/-- The model on the snapshot of a row, in terms of the row. -/
theorem transition_snapshot :
    transitionResidualProjectionSnapshot hash (some before.snapshot) command =
      if command.applicationId ∈ before.appliedFlattenApplications then
        (projectionResult hash .alreadyApplied before, some before.snapshot)
      else if before.projectionVersion.getD 0 ≠ command.expectedVersion ∨
          before.residualProjectionIdentity.getD (ExecutionGateway.residualProjectionIdentity hash
            (before.residualExposure.getD [])) ≠ command.expectedProjectionIdentity then
        (projectionResult hash .stale before, some before.snapshot)
      else
        (projectionResult hash .applied (before.update command),
          some (before.update command).snapshot) := by
  rw [transitionResidualProjectionSnapshot, update_snapshot, snapshotResult_snapshot,
    snapshotResult_snapshot, snapshotResult_snapshot]
  rfl

/-- The model applies what the store applies, and what only an identity keeps the store
from. -/
theorem transition_cases :
    ((before.Accepts hash command ∨ before.Unadoptable hash command) →
      transitionResidualProjectionSnapshot hash (some before.snapshot) command =
        (projectionResult hash .applied (before.update command),
          some (before.update command).snapshot)) ∧
    (¬ before.Unadoptable hash command → ¬ before.Accepts hash command →
      transitionResidualProjectionSnapshot hash (some before.snapshot) command =
        ((applyBoxExecutionAttemptProjection hash (some before) command).1,
          some before.snapshot)) := by
  constructor
  · intro h
    have hfresh : command.applicationId ∉ before.appliedFlattenApplications :=
      h.elim (·.1) (·.1)
    have hversion : before.projectionVersion.getD 0 = command.expectedVersion :=
      h.elim (fun h => versionMatches_iff.mp h.2.1) fun h => by rw [h.2.2.1, Option.getD_some]
    have hidentity := (identity_getD_iff hversion hfresh).mpr (h.imp (·.2.2) id)
    rw [transition_snapshot, if_neg hfresh,
      if_neg (not_or.mpr ⟨not_not.mpr hversion, not_not.mpr hidentity⟩)]
  · intro hadoptable hrefused
    rw [transition_snapshot, applyBoxExecutionAttemptProjection]
    by_cases hreplay : command.applicationId ∈ before.appliedFlattenApplications
    · rw [if_pos hreplay, if_pos hreplay]
    · have hstale : ¬ before.VersionMatches command ∨ ¬ before.IdentityMatches hash command := by
        rw [← not_and_or]
        exact fun hmatches => hrefused ⟨hreplay, hmatches⟩
      have hstale' : before.projectionVersion.getD 0 ≠ command.expectedVersion ∨
          before.residualProjectionIdentity.getD (ExecutionGateway.residualProjectionIdentity hash
            (before.residualExposure.getD [])) ≠ command.expectedProjectionIdentity := by
        by_cases hversion : before.projectionVersion.getD 0 = command.expectedVersion
        · refine .inr fun hidentity => ?_
          obtain hmatches | h := (identity_getD_iff hversion hreplay).mp hidentity
          · exact hstale.elim (fun h => h (versionMatches_iff.mpr hversion)) fun h => h hmatches
          · exact hadoptable h
        · exact .inl hversion
      rw [if_neg hreplay, if_pos hstale', if_neg hreplay, if_pos hstale]

omit [DecidableEq δ] in
theorem adoptable_of_accepts (h : before.Accepts hash command) :
    ¬ before.Unadoptable hash command := by
  rintro ⟨-, hnone, -, hzero, -⟩
  obtain hsome | ⟨hversion, -⟩ := h.2.2
  · rw [hnone] at hsome
    cases hsome
  · exact hzero hversion

/-- The model answers as the store does, unless the row has no identity at a version beyond
zero and the content the command expects. -/
theorem transition_agrees_iff :
    (transitionResidualProjectionSnapshot hash (some before.snapshot) command).1 =
        (applyBoxExecutionAttemptProjection hash (some before) command).1 ∧
      (transitionResidualProjectionSnapshot hash (some before.snapshot) command).2 =
        (applyBoxExecutionAttemptProjection hash (some before) command).2.map snapshot ↔
      ¬ before.Unadoptable hash command := by
  by_cases haccepts : before.Accepts hash command
  · have hidentity := adoptable_of_accepts haccepts
    rw [transition_cases.1 (.inl haccepts), apply_of_accepts haccepts]
    exact ⟨fun _ => hidentity, fun _ => ⟨rfl, rfl⟩⟩
  · obtain ⟨status, hstatus, hrefused⟩ := apply_of_not_accepts haccepts
    by_cases hunadoptable : before.Unadoptable hash command
    · rw [transition_cases.1 (.inr hunadoptable), hrefused]
      refine ⟨fun h => ?_, fun h => absurd hunadoptable h⟩
      exact absurd (congrArg BoxExecutionAttemptProjectionResult.status h.1).symm hstatus
    · rw [transition_cases.2 hunadoptable haccepts, hrefused]
      exact ⟨fun _ => hunadoptable, fun _ => ⟨rfl, rfl⟩⟩

end BoxExecutionAttemptRecord

/-- The store and its model after a sequence of commands. -/
structure ProjectionCas (δ : Type) where
  row : BoxExecutionAttemptRecord δ
  snapshot : BoxExecutionAttemptProjectionSnapshot δ
  /-- every command so far was answered alike -/
  agreed : Bool := true
  /-- the commands the store has applied -/
  applied : List (BoxExecutionAttemptProjectionCommand δ) := []
  deriving DecidableEq, Repr

namespace ProjectionCas

variable {δ : Type}

def start (row : BoxExecutionAttemptRecord δ) : ProjectionCas δ where
  row := row
  snapshot := row.snapshot

/-- The charges a list of commands has for a day. -/
def chargedOn (day : Option String)
    (applied : List (BoxExecutionAttemptProjectionCommand δ)) : Nat :=
  ((applied.filter fun command => some command.flattenChargeDay = day).map
    (·.flattenChargeDelta)).sum

/-- The charges a row has for a day: those of its bucket. -/
def bucketFor (row : BoxExecutionAttemptRecord δ) (day : Option String) : Nat :=
  if row.flattenChargeDay = day then row.flattenChargesForDay else 0

variable [DecidableEq δ]

/-- Hand a command to the store and to the model. -/
def step (hash : ContentHash δ) (s : ProjectionCas δ)
    (command : BoxExecutionAttemptProjectionCommand δ) : Option (ProjectionCas δ) :=
  let stored := applyBoxExecutionAttemptProjection hash (some s.row) command
  let modelled := transitionResidualProjectionSnapshot hash (some s.snapshot) command
  some
    { row := stored.2.getD s.row
      snapshot := modelled.2.getD s.snapshot
      agreed := s.agreed && decide (modelled.1 = stored.1)
      applied := if stored.1.status = .applied then s.applied ++ [command] else s.applied }

/-- The store and the model agree, no command is applied twice, and the charges are those
of the row at the start and of the commands applied, in total and for the day of the
bucket. -/
structure AppliesOnce (first : BoxExecutionAttemptRecord δ) (s : ProjectionCas δ) : Prop where
  agreed : s.agreed = true
  same : s.snapshot = s.row.snapshot
  once : s.applied.Nodup
  charges : s.row.flattenCharges =
    first.flattenCharges + (s.applied.map (·.flattenChargeDelta)).sum
  day : s.row.flattenChargesForDay =
    bucketFor first s.row.flattenChargeDay + chargedOn s.row.flattenChargeDay s.applied

/-- The store applies a charge for a day that is not the bucket's and has been charged
before. -/
def Reopens (hash : ContentHash δ) (first : BoxExecutionAttemptRecord δ) (s : ProjectionCas δ)
    (command : BoxExecutionAttemptProjectionCommand δ) : Prop :=
  s.row.Accepts hash command ∧ 0 < command.flattenChargeDelta ∧
    s.row.flattenChargeDay ≠ some command.flattenChargeDay ∧
    bucketFor first (some command.flattenChargeDay) +
      chargedOn (some command.flattenChargeDay) s.applied ≠ 0

/-- The row can be adopted, and no day is reopened. -/
def Regular (hash : ContentHash δ) (first : BoxExecutionAttemptRecord δ) (s : ProjectionCas δ)
    (command : BoxExecutionAttemptProjectionCommand δ) : Prop :=
  ¬ s.row.Unadoptable hash command ∧ ¬ Reopens hash first s command

variable {hash : ContentHash δ} {first : BoxExecutionAttemptRecord δ} {s t : ProjectionCas δ}
variable {command : BoxExecutionAttemptProjectionCommand δ}

instance : Decidable (Regular hash first s command) :=
  inferInstanceAs (Decidable (¬ s.row.Unadoptable hash command ∧
    ¬ (s.row.Accepts hash command ∧ 0 < command.flattenChargeDelta ∧
      s.row.flattenChargeDay ≠ some command.flattenChargeDay ∧
      bucketFor first (some command.flattenChargeDay) +
        chargedOn (some command.flattenChargeDay) s.applied ≠ 0)))

omit [DecidableEq δ] in
theorem chargedOn_append (day : Option String)
    (applied : List (BoxExecutionAttemptProjectionCommand δ)) :
    chargedOn day (applied ++ [command]) = chargedOn day applied +
      if some command.flattenChargeDay = day then command.flattenChargeDelta else 0 := by
  rw [chargedOn, List.filter_append, List.map_append, List.sum_append, chargedOn]
  by_cases hday : some command.flattenChargeDay = day
  · rw [if_pos hday, List.filter_cons_of_pos (by exact decide_eq_true hday)]
    rfl
  · rw [if_neg hday, List.filter_cons_of_neg (by simpa using hday)]
    rfl

/-- The versions the applied commands expected lie below the row's. -/
def Ascending (s : ProjectionCas δ) : Prop :=
  ∀ command ∈ s.applied, command.expectedVersion < s.row.projectionVersion.getD 0

theorem step_of_accepts (hsame : s.snapshot = s.row.snapshot)
    (h : s.row.Accepts hash command) :
    step hash s command = some
      { row := s.row.update command
        snapshot := (s.row.update command).snapshot
        agreed := s.agreed
        applied := s.applied ++ [command] } := by
  rw [step, hsame, BoxExecutionAttemptRecord.transition_cases.1 (.inl h),
    BoxExecutionAttemptRecord.apply_of_accepts h]
  simp [projectionResult]

theorem step_of_not_accepts (hsame : s.snapshot = s.row.snapshot)
    (h : ¬ s.row.Accepts hash command) :
    ∃ snapshot, (¬ s.row.Unadoptable hash command → snapshot = s.row.snapshot) ∧
      step hash s command = some
        { row := s.row
          snapshot := snapshot
          agreed := s.agreed && decide (¬ s.row.Unadoptable hash command)
          applied := s.applied } := by
  obtain ⟨status, hstatus, hrefused⟩ := BoxExecutionAttemptRecord.apply_of_not_accepts h
  rw [step, hsame]
  by_cases hunadoptable : s.row.Unadoptable hash command
  · rw [BoxExecutionAttemptRecord.transition_cases.1 (.inr hunadoptable), hrefused]
    have hdiffer : projectionResult hash .applied (s.row.update command) ≠
        projectionResult hash status s.row := fun h =>
      absurd (congrArg BoxExecutionAttemptProjectionResult.status h).symm hstatus
    have hkept : (projectionResult hash status s.row).status ≠ .applied := hstatus
    exact ⟨(s.row.update command).snapshot, fun h => absurd hunadoptable h,
      by simp [hdiffer, hkept, hunadoptable]⟩
  · rw [BoxExecutionAttemptRecord.transition_cases.2 hunadoptable h, hrefused]
    have hkept : (projectionResult hash status s.row).status ≠ .applied := hstatus
    exact ⟨_, fun _ => rfl, by simp [hkept, hunadoptable]⟩

omit [DecidableEq δ] in
/-- A bucket that closes holds what its day has been charged, and one that opens starts from
nothing. -/
theorem day_update_iff (hday : s.row.flattenChargesForDay =
      bucketFor first s.row.flattenChargeDay + chargedOn s.row.flattenChargeDay s.applied)
    (haccepts : s.row.Accepts hash command) :
    (s.row.update command).flattenChargesForDay =
        bucketFor first (s.row.update command).flattenChargeDay +
          chargedOn (s.row.update command).flattenChargeDay (s.applied ++ [command]) ↔
      ¬ Reopens hash first s command := by
  rw [chargedOn_append, Reopens, BoxExecutionAttemptRecord.update]
  dsimp only
  by_cases hcharged : 0 < command.flattenChargeDelta
  · simp only [hcharged, haccepts, if_true, true_and]
    by_cases hsame : s.row.flattenChargeDay = some command.flattenChargeDay
    · rw [hsame] at hday
      simp only [hsame, if_true, ne_eq, not_true_eq_false, false_and, not_false_eq_true, iff_true]
      omega
    · simp only [hsame, if_false, ne_eq, not_false_eq_true, true_and]
      omega
  · have hzero : command.flattenChargeDelta = 0 := by omega
    simp only [hzero, Nat.lt_irrefl, if_false, ite_self, Nat.add_zero, false_and, and_false,
      not_false_eq_true, iff_true]
    exact hday

omit [DecidableEq δ] in
theorem fresh_of_ascending (h : s.Ascending) (haccepts : s.row.Accepts hash command) :
    command ∉ s.applied := by
  intro hmem
  have hversion := BoxExecutionAttemptRecord.versionMatches_iff.mp haccepts.2.1
  exact Nat.lt_irrefl _ (hversion ▸ h command hmem)

theorem ascending_step (h : s.Ascending) (hsame : s.snapshot = s.row.snapshot)
    (hstep : step hash s command = some t) : t.Ascending := by
  by_cases haccepts : s.row.Accepts hash command
  · obtain rfl := Option.some.inj ((step_of_accepts hsame haccepts).symm.trans hstep)
    have hversion := BoxExecutionAttemptRecord.versionMatches_iff.mp haccepts.2.1
    intro other hother
    show other.expectedVersion < s.row.projectionVersion.getD 0 + 1
    obtain hother | hother := List.mem_append.mp hother
    · exact Nat.lt_succ_of_lt (h other hother)
    · obtain rfl := List.mem_singleton.mp hother
      omega
  · obtain ⟨snapshot, -, hrefused⟩ := step_of_not_accepts hsame haccepts
    obtain rfl := Option.some.inj (hrefused.symm.trans hstep)
    exact h

end ProjectionCas

open ProjectionCas in
/-- Over every sequence of commands, the store answers as its model does, applies no command
twice and keeps the charges of the commands it applied, in total and for the day, exactly
when no command meets a row it cannot adopt and no day is reopened. -/
theorem projection_applies_once {δ : Type} [DecidableEq δ] (hash : ContentHash δ)
    (first : BoxExecutionAttemptRecord δ)
    (commands : List (BoxExecutionAttemptProjectionCommand δ)) :
    Throughout (step hash) (AppliesOnce first) (start first) commands ↔
      Heeds (step hash) (Regular hash first) (start first) commands := by
  have hstart : AppliesOnce first (start first) := by
    refine ⟨rfl, rfl, List.nodup_nil, rfl, ?_⟩
    show _ = bucketFor first first.flattenChargeDay + 0
    rw [bucketFor, if_pos rfl, Nat.add_zero]
    rfl
  refine throughout_iff_heeds (I := Ascending) (L := fun _ => True)
    (fun s command t _ hI hs _ hstep => ascending_step hI hs.same hstep)
    (fun s command t _ hI hs hstep => ?_) (fun _ h => absurd h List.not_mem_nil) hstart
    fun _ _ => trivial
  by_cases haccepts : s.row.Accepts hash command
  · obtain rfl := Option.some.inj ((step_of_accepts hs.same haccepts).symm.trans hstep)
    have hadoptable : ¬ s.row.Unadoptable hash command :=
      BoxExecutionAttemptRecord.adoptable_of_accepts haccepts
    have hday := day_update_iff hs.day haccepts
    constructor
    · intro ht
      exact ⟨hadoptable, hday.mp ht.day⟩
    · intro hregular
      refine ⟨hs.agreed, rfl, ?_, ?_, hday.mpr hregular.2⟩
      · exact List.nodup_append.mpr ⟨hs.once, List.nodup_singleton command,
          fun c hc d hd => fun heq =>
            fresh_of_ascending hI haccepts (List.mem_singleton.mp hd ▸ heq ▸ hc)⟩
      · show s.row.flattenCharges + command.flattenChargeDelta = _
        rw [List.map_append, List.sum_append, hs.charges, Nat.add_assoc]
        rfl
  · obtain ⟨snapshot, hsnapshot, hrefused⟩ := step_of_not_accepts hs.same haccepts
    obtain rfl := Option.some.inj (hrefused.symm.trans hstep)
    constructor
    · intro ht
      have hagreed := ht.agreed
      rw [hs.agreed, Bool.true_and] at hagreed
      exact ⟨of_decide_eq_true hagreed, fun h => haccepts h.1⟩
    · intro hregular
      refine ⟨?_, hsnapshot hregular.1, hs.once, hs.charges, hs.day⟩
      show (s.agreed && decide _) = true
      rw [hs.agreed, Bool.true_and]
      exact decide_eq_true hregular.1

namespace ProjectionCas.Sample

open FlattenRun.Sample (leg)

/-- A row from before the projections, holding one leg. -/
def legacyRow (version : Option Nat) : BoxExecutionAttemptRecord PlainDigest where
  projectionVersion := version
  residualProjectionIdentity := none
  residualExposure := some [leg]
  flattenCharges := 0
  flattenChargeDay := none
  flattenChargesForDay := 0
  appliedFlattenApplications := []
  resolved := false

/-- The leg with a quantity left of it. -/
def outstanding (quantity : Nat) : List ResidualLegExposure := [{ leg with quantity := quantity }]

/-- A command that flattens part of the leg, at one paisa a unit. -/
def flatten (version : Nat) (before after : Nat) (day : String) :
    BoxExecutionAttemptProjectionCommand PlainDigest :=
  createResidualProjectionCommand plainHash "R" version (outstanding before) (outstanding after)
    (before - after) day

end ProjectionCas.Sample

open ProjectionCas ProjectionCas.Sample in
/-- A command that is applied, replayed and overtaken leaves its charge once. -/
theorem projection_applies_once_sample :
    Throughout (step plainHash) (AppliesOnce (legacyRow none)) (start (legacyRow none))
      [flatten 0 75 50 "2026-09-07", flatten 0 75 50 "2026-09-07",
        flatten 1 50 40 "2026-09-08", flatten 0 75 60 "2026-09-07"] :=
  (projection_applies_once plainHash (legacyRow none) _).mpr (by decide +kernel)

open ProjectionCas ProjectionCas.Sample in
/-- The store never adopts a row without an identity at version three, which its model does,
and a day that is charged again after another starts from nothing. -/
theorem unadoptable_row_and_reopened_day :
    ¬ Throughout (step plainHash) (AppliesOnce (legacyRow (some 3))) (start (legacyRow (some 3)))
        [flatten 3 75 50 "2026-09-07"] ∧
      ¬ Throughout (step plainHash) (AppliesOnce (legacyRow none)) (start (legacyRow none))
        [flatten 0 75 50 "2026-09-07", flatten 1 50 40 "2026-09-08",
          flatten 2 40 10 "2026-09-07"] := by
  constructor
  · intro h
    have hend : (run (step plainHash) (start (legacyRow (some 3)))
        [flatten 3 75 50 "2026-09-07"]).any (·.agreed = false) := by decide +kernel
    obtain ⟨s, hrun, hdisagreed⟩ := (Option.any_eq_true _ _).mp hend
    have hagreed := (h.last hrun).agreed
    rw [of_decide_eq_true hdisagreed] at hagreed
    cases hagreed
  · intro h
    have hend : (run (step plainHash) (start (legacyRow none))
        [flatten 0 75 50 "2026-09-07", flatten 1 50 40 "2026-09-08",
          flatten 2 40 10 "2026-09-07"]).any
        (fun s => s.row.flattenChargesForDay ≠ bucketFor (legacyRow none) s.row.flattenChargeDay +
          chargedOn s.row.flattenChargeDay s.applied) := by decide +kernel
    obtain ⟨s, hrun, hshort⟩ := (Option.any_eq_true _ _).mp hend
    exact of_decide_eq_true hshort (h.last hrun).day

end Strikedge.ExecutionGateway
