import Mathlib.Algebra.Order.BigOperators.Group.List
import Mathlib.Algebra.Order.Group.Int
import Mathlib.Algebra.Order.Group.Nat
import Strikedge.ExecutionGateway.LegProgress

/-!
# Which watermarks reach the store

The change test of the projection command compares the canonical forms of the rows before
and after a pass. Quantities only fall and generations only rise, so no leg can take the
place of another and the test reports a change exactly when the pass progresses on some leg.
A pass that progresses on none is dropped with whatever watermarks it wrote.

The run below is the loop of `flattenResiduals` over one attempt: the rows a pass starts
from are the ones that reached the store.
-/

namespace Strikedge.ExecutionGateway

open Machine Orders

/-- Where members only shrink and age, the list is rearranged only if none of them has. -/
theorem kept_of_perm {A B : Type} {l : List A} {f : A → Option B} {g : A → B}
    (size : B → Nat) (age : B → Int)
    (hmono : ∀ a ∈ l, ∀ b, f a = some b → size b ≤ size (g a) ∧ age (g a) ≤ age b)
    (hperm : (l.filterMap f).Perm (l.map g)) :
    ∀ a ∈ l, ∃ b, f a = some b ∧ size b = size (g a) ∧ age b = age (g a) := by
  have hlength : (l.filterMap f).length = l.length := by
    rw [hperm.length_eq, List.length_map]
  have hsome := List.filterMap_length_eq_length.mp hlength
  have hget (a : A) (ha : a ∈ l) : f a = some ((f a).getD (g a)) := by
    obtain ⟨b, hb⟩ := Option.isSome_iff_exists.mp (hsome a ha)
    rw [hb, Option.getD_some]
  have hmap : l.filterMap f = l.map fun a => (f a).getD (g a) := by
    rw [← List.filterMap_eq_map]
    exact List.filterMap_congr hget
  rw [hmap] at hperm
  have hsize := (hperm.map size).sum_eq
  have hage := (hperm.map age).sum_eq
  rw [List.map_map, List.map_map] at hsize hage
  intro a ha
  refine ⟨_, hget a ha, ?_, ?_⟩
  · by_contra hne
    refine Nat.ne_of_lt (List.sum_lt_sum _ _ (fun b hb => ?_) ⟨a, ha, ?_⟩) hsize
    · exact (hmono b hb _ (hget b hb)).1
    · exact Nat.lt_of_le_of_ne (hmono a ha _ (hget a ha)).1 hne
  · by_contra hne
    refine Int.ne_of_lt (List.sum_lt_sum _ _ (fun b hb => ?_) ⟨a, ha, ?_⟩) hage.symm
    · exact (hmono b hb _ (hget b hb)).2
    · exact lt_of_le_of_ne (hmono a ha _ (hget a ha)).2 (Ne.symm hne)

/-- A leg, what its surroundings answer and how its order is priced. -/
abbrev FlattenEntry := ResidualLegExposure × FlattenAnswers × (Nat → Option Nat)

namespace FlattenEntry

variable (keyPrefix : String) (entry : FlattenEntry)

def pass : ResidualFlattenPass := flattenOneResidual entry.1 entry.2.1

def account : PassAccount := accountPass keyPrefix entry.2.2 entry.pass

def left : Option ResidualLegExposure := remainingOf entry.pass (entry.account keyPrefix)

/-- The pass progresses on the leg. -/
def Progresses : Prop := entry.pass.Progresses entry.2.2

/-- The row of the leg has all that the pass would write. -/
def Marked : Prop := entry.pass.Marked

instance : Decidable entry.Progresses :=
  inferInstanceAs (Decidable (entry.pass.Progresses entry.2.2))

instance : Decidable entry.Marked := inferInstanceAs (Decidable entry.pass.Marked)

@[simp] theorem pass_residual : entry.pass.residual = entry.1 :=
  (flattenOneResidual_eq entry.1 entry.2.1).1

theorem le_attempt : residualFlattenAttempt entry.pass.residual ≤ entry.pass.attempt := by
  rw [pass_residual, pass, (flattenOneResidual_eq entry.1 entry.2.1).2]
  exact firstAdoptableResidualAttempt_le _ _ _

end FlattenEntry

section Entries

variable {δ : Type} {keyPrefix : String} {entries : List FlattenEntry}

theorem flattenResidual_remaining : (flattenResidual keyPrefix entries).remaining =
    entries.filterMap (·.left keyPrefix) := by
  rw [flattenResidual]
  dsimp only
  rw [List.filterMap_map]
  rfl

theorem flattenResidual_charges : (flattenResidual keyPrefix entries).flattenCharges =
    (entries.map (·.account keyPrefix |>.chargeDelta)).sum := by
  rw [flattenResidual]
  dsimp only
  rw [List.map_map]
  rfl

/-- The leg stays canonically where it is and bills nothing. -/
def FlattenEntry.Stays (keyPrefix : String) (entry : FlattenEntry) : Prop :=
  ExecutionGateway.Stays keyPrefix entry.2.2 entry.pass

theorem FlattenEntry.stays_iff (keyPrefix : String) {entry : FlattenEntry} :
    entry.Stays keyPrefix ↔ ¬ entry.Progresses :=
  ExecutionGateway.stays_iff entry.le_attempt

theorem canonical_map_of_stays (h : ∀ entry ∈ entries, entry.Stays keyPrefix) :
    (entries.filterMap (·.left keyPrefix)).map canonicalLeg =
      (entries.map (·.1)).map canonicalLeg := by
  induction entries with
  | nil => rfl
  | cons entry entries ih =>
    obtain ⟨⟨left, hleft, hcanonical⟩, -⟩ := h entry List.mem_cons_self
    have hleft : entry.left keyPrefix = some left := hleft
    rw [List.filterMap_cons_some hleft, List.map_cons, List.map_cons, List.map_cons,
      ih fun e he => h e (List.mem_cons_of_mem entry he), hcanonical, entry.pass_residual]

theorem charges_of_stays (h : ∀ entry ∈ entries, entry.Stays keyPrefix) :
    (entries.map (·.account keyPrefix |>.chargeDelta)).sum ≤ 0 := by
  induction entries with
  | nil => exact Int.le_refl 0
  | cons entry entries ih =>
    have hhead : ¬ 0 < (entry.account keyPrefix).chargeDelta := (h entry List.mem_cons_self).2
    have htail := ih fun e he => h e (List.mem_cons_of_mem entry he)
    rw [List.map_cons, List.sum_cons]
    omega

/-- A pass never takes a charge back. -/
theorem FlattenEntry.chargeDelta_nonneg (keyPrefix : String) (entry : FlattenEntry) :
    0 ≤ (entry.account keyPrefix).chargeDelta := by
  rw [FlattenEntry.account]
  rcases accountPass_cases keyPrefix entry.2.2 entry.pass with
    ⟨-, -, heq⟩ | ⟨order, -, -, heq⟩ | ⟨-, -, h⟩
  · rw [heq]
  · rw [heq]
    exact Int.le_max_left 0 _
  · rw [h.chargeDelta]

theorem chargeDelta_le_sum (keyPrefix : String) {entry : FlattenEntry} (hmem : entry ∈ entries) :
    (entry.account keyPrefix).chargeDelta ≤
      (entries.map (·.account keyPrefix |>.chargeDelta)).sum := by
  have hnonneg : ∀ x ∈ entries.map (·.account keyPrefix |>.chargeDelta), 0 ≤ x := by
    intro x hx
    obtain ⟨e, -, rfl⟩ := List.mem_map.mp hx
    exact e.chargeDelta_nonneg keyPrefix
  exact List.single_le_sum hnonneg _ (List.mem_map_of_mem hmem)

theorem stays_of_canonical (hperm : ((entries.filterMap (·.left keyPrefix)).map canonicalLeg).Perm
      ((entries.map (·.1)).map canonicalLeg))
    (hcharges : ¬ 0 < (entries.map (·.account keyPrefix |>.chargeDelta)).sum) :
    ∀ entry ∈ entries, entry.Stays keyPrefix := by
  intro entry hmem
  have hperm : (entries.filterMap fun entry => (entry.left keyPrefix).map canonicalLeg).Perm
      (entries.map fun entry => canonicalLeg entry.1) := by
    rwa [List.map_filterMap, List.map_map] at hperm
  have hkept := kept_of_perm CanonicalLeg.quantity CanonicalLeg.flattenAttempt
    (fun e _ b hb => ?_) hperm entry hmem
  · obtain ⟨b, hb, hquantity, hattempt⟩ := hkept
    obtain ⟨left, hleft, rfl⟩ := Option.map_eq_some_iff.mp hb
    refine ⟨⟨left, hleft, canonical_eq hleft ?_ ?_⟩, ?_⟩
    · rw [entry.pass_residual, hquantity]
    · rw [entry.pass_residual, hattempt]
    · have hle := chargeDelta_le_sum keyPrefix hmem
      have heq : accountPass keyPrefix entry.2.2 entry.pass = entry.account keyPrefix := rfl
      rw [heq]
      omega
  · obtain ⟨left, hleft, rfl⟩ := Option.map_eq_some_iff.mp hb
    have hmono := canonical_monotone e.le_attempt hleft
    rwa [e.pass_residual] at hmono

end Entries

section Changes

variable {δ : Type} [DecidableEq δ] (hash : ContentHash δ)

theorem command_changes_iff {attemptId : String} {version : Int}
    {before after : List ResidualLegExposure} {charges : Int} {day : String} :
    residualProjectionChanges
        (createResidualProjectionCommand hash attemptId version before after charges day) ↔
      residualProjectionIdentity hash before ≠ residualProjectionIdentity hash after ∨
        0 < charges := by
  rw [residualProjectionChanges, Bool.or_eq_true, decide_eq_true_iff, decide_eq_true_iff,
    createResidualProjectionCommand]
  dsimp only
  refine or_congr_right ?_
  by_cases hpos : 0 < charges
  · rw [if_pos hpos]
    omega
  · rw [if_neg hpos]
    omega

/-- The command of a pass over the legs of an attempt. -/
def passCommand (attemptId : String) (version : Int) (entries : List FlattenEntry)
    (day : String) : BoxExecutionAttemptProjectionCommand δ :=
  let result := flattenResidual attemptId entries
  createResidualProjectionCommand hash attemptId version (entries.map (·.1)) result.remaining
    result.flattenCharges day

variable {attemptId : String} {version : Int} {entries : List FlattenEntry} {day : String}

/-- The change test reports the passes that progress on some leg. -/
theorem passCommand_changes_iff (hhash : Function.Injective hash.residual) :
    residualProjectionChanges (passCommand hash attemptId version entries day) ↔
      ∃ entry ∈ entries, entry.Progresses := by
  rw [passCommand, command_changes_iff, flattenResidual_remaining, flattenResidual_charges]
  constructor
  · intro h
    by_contra hnone
    have hstays : ∀ entry ∈ entries, entry.Stays attemptId := fun entry hmem =>
      (FlattenEntry.stays_iff attemptId).mpr fun hprogress => hnone ⟨entry, hmem, hprogress⟩
    have hcharges := charges_of_stays hstays
    obtain hidentity | hbilled := h
    · refine hidentity ?_
      rw [residualProjectionIdentity, residualProjectionIdentity, canonicalResidual,
        canonicalResidual, canonical_map_of_stays hstays]
    · omega
  · rintro ⟨entry, hmem, hprogress⟩
    by_contra h
    obtain ⟨hidentity, hcharges⟩ := not_or.mp h
    have hcanonical := hhash (Decidable.not_not.mp hidentity)
    rw [canonicalResidual, canonicalResidual] at hcanonical
    have hperm := (List.perm_insertionSort _ _).symm.trans
      (hcanonical ▸ List.perm_insertionSort (hash.precedes · ·) _)
    have hstays := stays_of_canonical hperm hcharges entry hmem
    exact (FlattenEntry.stays_iff attemptId).mp hstays hprogress

variable (attemptId) in
/-- A pass that progresses on no leg leaves the rows as they are exactly when every row is
marked. -/
theorem remaining_eq_iff (hstays : ∀ entry ∈ entries, ¬ entry.Progresses) :
    (flattenResidual attemptId entries).remaining = entries.map (·.1) ↔
      ∀ entry ∈ entries, entry.Marked := by
  rw [flattenResidual_remaining]
  induction entries with
  | nil => simp
  | cons entry entries ih =>
    have hhead := hstays entry List.mem_cons_self
    obtain ⟨⟨left, hleft, -⟩, -⟩ := (FlattenEntry.stays_iff attemptId).mpr hhead
    have hmarked := left_eq_iff entry.le_attempt hhead hleft
    have hleft : entry.left attemptId = some left := hleft
    rw [List.filterMap_cons_some hleft, List.map_cons, List.cons_eq_cons, List.forall_mem_cons,
      ih fun e he => hstays e (List.mem_cons_of_mem entry he)]
    rw [entry.pass_residual] at hmarked
    exact and_congr_left' hmarked

end Changes

/-- A durable row, and what has been applied under the identity it carries. -/
structure ProjectedLeg where
  residual : ResidualLegExposure
  credited : Nat := 0
  billed : Int := 0
  deriving DecidableEq, Repr

/-- What is applied is covered by the watermarks a pass over the row starts from. -/
structure ProjectedLeg.Covered (leg : ProjectedLeg) : Prop where
  credited : (leg.credited : Int) ≤ readableWatermark leg.residual.flattenAccountedFilled
  billed : leg.billed ≤ readableWatermark leg.residual.flattenAccountedCharges

/-- One pass: what the surroundings answer for each leg, the trading day, and whether the
process dies before the command is committed. -/
structure ProjectionLabel where
  answers : List (FlattenAnswers × (Nat → Option Nat))
  day : String
  crashes : Bool := false

/-- The durable rows of one attempt. -/
structure ProjectionRun where
  legs : List ProjectedLeg
  version : Nat
  /-- a pass has left rows that differ from the stored ones and were dropped -/
  lost : Bool := false
  deriving DecidableEq, Repr

namespace ProjectionRun

def start (rows : List ResidualLegExposure) (version : Nat) : ProjectionRun where
  legs := rows.map ({ residual := · })
  version := version

def entries (s : ProjectionRun) (label : ProjectionLabel) : List FlattenEntry :=
  (s.legs.zip label.answers).map fun (leg, answers) => (leg.residual, answers)

/-- The leg a committed pass leaves, and what is then applied under its identity. -/
def advance (keyPrefix : String)
    (worked : ProjectedLeg × FlattenAnswers × (Nat → Option Nat)) : Option ProjectedLeg :=
  let (leg, answers) := worked
  let entry : FlattenEntry := (leg.residual, answers)
  let account := entry.account keyPrefix
  let same := entry.pass.attempt = residualFlattenAttempt leg.residual
  (entry.left keyPrefix).map fun residual =>
    if account.disposition = .retireAttempt then { residual := residual }
    else
      { residual := residual
        credited := (if same then leg.credited else 0) + account.fillDelta
        billed := (if same then leg.billed else 0) + account.chargeDelta }

/-- One turn of the loop of `flattenResiduals`: a command without a change is dropped, and
the next pass starts from the stored rows again. -/
def step {δ : Type} [DecidableEq δ] (hash : ContentHash δ) (attemptId : String)
    (s : ProjectionRun) (label : ProjectionLabel) : Option ProjectionRun :=
  if label.answers.length = s.legs.length then
    let command := passCommand hash attemptId s.version (s.entries label) label.day
    if residualProjectionChanges command then
      if label.crashes then some s
      else some { s with
        legs := (s.legs.zip label.answers).filterMap (advance attemptId)
        version := s.version + 1 }
    else some { s with
      lost := s.lost ||
        decide (command.residualExposure ≠ command.expectedResidualExposure) }
  else none

/-- No pass left a difference behind, and every row covers what is applied. -/
structure Persisted (s : ProjectionRun) : Prop where
  kept : s.lost = false
  covered : ∀ leg ∈ s.legs, leg.Covered

/-- The pass progresses on some leg, or every row has all that the pass would write. -/
def Reaches (s : ProjectionRun) (label : ProjectionLabel) : Prop :=
  (∃ entry ∈ s.entries label, entry.Progresses) ∨ ∀ entry ∈ s.entries label, entry.Marked

end ProjectionRun

namespace ProjectionRun

variable {δ : Type} [DecidableEq δ] {hash : ContentHash δ} {attemptId : String}
variable {s t : ProjectionRun} {label : ProjectionLabel} {leg leg' : ProjectedLeg}
variable {answers : FlattenAnswers × (Nat → Option Nat)}

theorem readableWatermark_ge (w : Int) : w ≤ readableWatermark (some w) := Int.le_max_right 0 w

theorem accountedBefore_nonneg (estimate : Nat → Option Nat) (pass : ResidualFlattenPass) :
    0 ≤ (pass.accountedBefore estimate).2 := by
  rw [ResidualFlattenPass.accountedBefore.eq_def]
  split
  · exact readableWatermark_nonneg _
  · split
    · exact residualCumulativeCharges_nonneg (Int.le_refl 0)
    · exact readableWatermark_nonneg _

/-- What is applied under the identity of a pass is accounted before it. -/
theorem applied_le_accounted (estimate : Nat → Option Nat) {pass : ResidualFlattenPass}
    {credited : Nat} {billed : Int}
    (hcredited : (credited : Int) ≤ readableWatermark pass.residual.flattenAccountedFilled)
    (hbilled : billed ≤ readableWatermark pass.residual.flattenAccountedCharges)
    (hsame : pass.attempt = residualFlattenAttempt pass.residual) :
    credited ≤ (pass.accountedBefore estimate).1 ∧ billed ≤ (pass.accountedBefore estimate).2 := by
  have hnonneg := accountedBefore_nonneg estimate pass
  by_cases hlegacy : pass.Legacy
  · rw [ResidualFlattenPass.Legacy, watermarks_of_same hsame] at hlegacy
    obtain ⟨hfilled, hcharges⟩ : pass.residual.flattenAccountedFilled = none ∧
      pass.residual.flattenAccountedCharges = none := hlegacy
    rw [hfilled] at hcredited
    rw [hcharges] at hbilled
    have hzero : readableWatermark none = 0 := rfl
    omega
  · rw [accountedBefore_of_watermarks hlegacy, watermarks_of_same hsame]
    dsimp only
    omega

/-- Over what was applied before it, a pass applies no more than the watermarks it leaves. -/
theorem account_covered (keyPrefix : String) (estimate : Nat → Option Nat)
    (pass : ResidualFlattenPass) (credited : Nat) (billed : Int)
    (hcredited : (credited : Int) ≤ readableWatermark pass.residual.flattenAccountedFilled)
    (hbilled : billed ≤ readableWatermark pass.residual.flattenAccountedCharges) :
    let account := accountPass keyPrefix estimate pass
    let same := pass.attempt = residualFlattenAttempt pass.residual
    (((if same then credited else 0) + account.fillDelta : Nat) : Int) ≤ readableWatermark
        (account.accounting.cumulativeFilled.or pass.residual.flattenAccountedFilled) ∧
      (if same then billed else 0) + account.chargeDelta ≤ readableWatermark
        (account.accounting.cumulativeCharges.or pass.residual.flattenAccountedCharges) := by
  intro account same
  have hbase : (if same then credited else 0) ≤ (pass.accountedBefore estimate).1 ∧
      (if same then billed else 0) ≤ (pass.accountedBefore estimate).2 := by
    by_cases hsame : same
    · rw [if_pos hsame, if_pos hsame]
      exact applied_le_accounted estimate hcredited hbilled hsame
    · rw [if_neg hsame, if_neg hsame]
      exact ⟨Nat.zero_le _, accountedBefore_nonneg estimate pass⟩
  rcases accountPass_cases keyPrefix estimate pass with
    ⟨-, -, heq⟩ | ⟨order, htrusted, horder, heq⟩ | ⟨-, -, h⟩
  · have heq : account = _ := heq
    rw [heq]
    by_cases hsame : same
    · rw [if_pos hsame, if_pos hsame, watermarks_of_same hsame, Option.or_self, Option.or_self]
      exact ⟨by simpa using hcredited, by simpa using hbilled⟩
    · have hnone : pass.watermarks = (none, none) := if_neg hsame
      rw [if_neg hsame, if_neg hsame, hnone, Option.none_or, Option.none_or]
      exact ⟨readableWatermark_nonneg _, readableWatermark_nonneg _⟩
  · have heq : account = _ := heq
    obtain ⟨hgrown, -, -⟩ := htrusted.2 order horder
    have hfilled := readableWatermark_ge order.filledQuantity
    have hcharges := readableWatermark_ge (max (pass.accountedBefore estimate).2
      (residualCumulativeCharges estimate order.filledQuantity (pass.accountedBefore estimate).2))
    rw [heq]
    simp only [creditedAccount, Option.some_or]
    omega
  · have hfilled := readableWatermark_ge (pass.accountedBefore estimate).1
    have hcharges := readableWatermark_ge (pass.accountedBefore estimate).2
    have h : account.Quarantines _ := h
    rw [h.accounting, h.fillDelta, h.chargeDelta]
    simp only [Option.some_or]
    omega

/-- A committed pass keeps what it applies covered. -/
theorem advance_covered (h : leg.Covered)
    (hadvance : advance attemptId (leg, answers) = some leg') : leg'.Covered := by
  obtain ⟨left, hleft, rfl⟩ := Option.map_eq_some_iff.mp hadvance
  by_cases hretire : (FlattenEntry.account attemptId (leg.residual, answers)).disposition =
      .retireAttempt
  · rw [if_pos hretire]
    exact ⟨readableWatermark_nonneg _, readableWatermark_nonneg _⟩
  · rw [if_neg hretire]
    have hcovered := account_covered attemptId answers.2
      (FlattenEntry.pass (leg.residual, answers)) leg.credited leg.billed
      (by rw [FlattenEntry.pass_residual]; exact h.credited)
      (by rw [FlattenEntry.pass_residual]; exact h.billed)
    rw [FlattenEntry.left, remainingOf_eq] at hleft
    split at hleft
    · cases hleft
    · obtain rfl := Option.some.inj hleft
      rw [carryResidualForward, if_neg hretire]
      rw [FlattenEntry.pass_residual] at hcovered ⊢
      exact ⟨hcovered.1, hcovered.2⟩

/-- A pass is persisted, or lost, as its legs decide. -/
theorem step_cases (hhash : Function.Injective hash.residual)
    (h : step hash attemptId s label = some t) :
    (∃ entry ∈ s.entries label, entry.Progresses) ∧
        (t = s ∨ t = { s with
          legs := (s.legs.zip label.answers).filterMap (advance attemptId)
          version := s.version + 1 }) ∨
      (¬ ∃ entry ∈ s.entries label, entry.Progresses) ∧
        t = { s with lost := s.lost || decide (¬ ∀ entry ∈ s.entries label, entry.Marked) } := by
  rw [step] at h
  split at h
  · by_cases hchanges : residualProjectionChanges
        (passCommand hash attemptId s.version (s.entries label) label.day) = true
    · refine .inl ⟨(passCommand_changes_iff hash hhash).mp hchanges, ?_⟩
      dsimp only at h
      rw [if_pos hchanges] at h
      split at h
      · exact .inl (Option.some.inj h).symm
      · exact .inr (Option.some.inj h).symm
    · have hnone := (passCommand_changes_iff hash hhash).not.mp hchanges
      refine .inr ⟨hnone, ?_⟩
      dsimp only at h
      rw [if_neg hchanges] at h
      obtain rfl := Option.some.inj h
      have heq := remaining_eq_iff attemptId fun entry hmem hprogress =>
        hnone ⟨entry, hmem, hprogress⟩
      have hlost : decide ((passCommand hash attemptId s.version (s.entries label)
            label.day).residualExposure ≠
          (passCommand hash attemptId s.version (s.entries label)
            label.day).expectedResidualExposure) =
          decide (¬ ∀ entry ∈ s.entries label, entry.Marked) :=
        decide_eq_decide.mpr heq.not
      rw [hlost]
  · cases h

theorem advance_all_covered (h : ∀ leg ∈ s.legs, leg.Covered) :
    ∀ leg ∈ (s.legs.zip label.answers).filterMap (advance attemptId), leg.Covered := by
  intro leg hleg
  obtain ⟨⟨before, answers⟩, hmem, hadvance⟩ := List.mem_filterMap.mp hleg
  exact advance_covered (h before (List.of_mem_zip hmem).1) hadvance

end ProjectionRun

open ProjectionRun in
/-- Over every sequence of passes, crashed ones among them, no pass drops what it wrote over
a row, and every pass starts from watermarks that cover what is applied, exactly when every
pass progresses on some leg or finds nothing to write. -/
theorem watermarks_survive_dropped_passes {δ : Type} [DecidableEq δ] (hash : ContentHash δ)
    (hhash : Function.Injective hash.residual) (attemptId : String)
    (rows : List ResidualLegExposure) (version : Nat) (labels : List ProjectionLabel) :
    Throughout (step hash attemptId) Persisted (start rows version) labels ↔
      Heeds (step hash attemptId) Reaches (start rows version) labels := by
  have hstart : (start rows version).Persisted := by
    refine ⟨rfl, fun leg hleg => ?_⟩
    obtain ⟨row, -, rfl⟩ := List.mem_map.mp hleg
    exact ⟨readableWatermark_nonneg _, readableWatermark_nonneg _⟩
  refine throughout_iff_heeds (I := fun _ => True) (L := fun _ => True)
    (fun _ _ _ _ _ _ _ _ => trivial) (fun s label t _ _ hs hstep => ?_) trivial hstart
    fun _ _ => trivial
  rcases step_cases hhash hstep with ⟨hprogress, rfl | rfl⟩ | ⟨hnone, rfl⟩
  · exact ⟨fun _ => .inl hprogress, fun _ => hs⟩
  · exact ⟨fun _ => .inl hprogress, fun _ => ⟨hs.kept, advance_all_covered hs.covered⟩⟩
  · constructor
    · intro ht
      have hlost := ht.kept
      rw [hs.kept, Bool.false_or, decide_eq_false_iff_not, Decidable.not_not] at hlost
      exact .inr hlost
    · rintro (hprogress | hmarked)
      · exact absurd hprogress hnone
      · refine ⟨?_, hs.covered⟩
        show (s.lost || decide _) = false
        rw [hs.kept, Bool.false_or, decide_eq_false_iff_not, Decidable.not_not]
        exact hmarked

namespace ProjectionRun

instance (s : ProjectionRun) (label : ProjectionLabel) : Decidable (s.Reaches label) :=
  inferInstanceAs (Decidable ((∃ entry ∈ s.entries label, entry.Progresses) ∨
    ∀ entry ∈ s.entries label, entry.Marked))

namespace Sample

open FlattenRun.Sample (leg snapshot)

/-- A pass over one leg that submits and gets an order back, priced at one paisa a unit. -/
def orderPass (order : BrokerOrder) (crashes : Bool) : ProjectionLabel where
  answers := [(⟨fun _ => .ok none, none, .ok order⟩, some)]
  day := "2026-09-07"
  crashes := crashes

/-- A pass over one leg that finds no executable book. -/
def noBookPass : ProjectionLabel where
  answers := [(⟨fun _ => .ok none, some "no current executable BUY touch", .error (.other "")⟩,
    some)]
  day := "2026-09-07"

/-- A leg whose row carries a fill watermark without a charge watermark. -/
def halfMarked : ResidualLegExposure :=
  { leg with
    quantity := 45
    flattenAttempt := some 1
    flattenAccountedFilled := some 30 }

end Sample

end ProjectionRun

open ProjectionRun ProjectionRun.Sample FlattenRun.Sample in
theorem watermarks_survive_dropped_passes_sample :
    Throughout (step plainHash "R") Persisted (start [leg] 0)
      [orderPass (snapshot 75 .open 25) true, orderPass (snapshot 75 .open 25) false,
        noBookPass, orderPass (snapshot 75 .complete 75) false] :=
  (watermarks_survive_dropped_passes plainHash plainHash_residual_injective "R" [leg] 0 _).mpr
    (by decide +kernel)

open ProjectionRun ProjectionRun.Sample in
/-- The pair of watermarks is normalised, and the pass that did it is dropped. -/
theorem normalised_watermarks_are_dropped :
    ¬ Throughout (step plainHash "R") Persisted (start [halfMarked] 1) [noBookPass] := by
  intro h
  have hrun : run (step plainHash "R") (start [halfMarked] 1) [noBookPass] =
      some ⟨[{ residual := halfMarked }], 1, true⟩ := by decide +kernel
  have hlost := (h.last hrun).kept
  cases hlost

end Strikedge.ExecutionGateway
