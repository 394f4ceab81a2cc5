import Strikedge.Machine.Meter
import Strikedge.ExecutionGateway.ProjectionStore

/-!
# The charge watermarks of a process

`executionAttemptProjection.ts`. A process keeps what it has observed of the flatten charges
of every attempt, over its lifetime and for each day, so that a charge of a durable row is
debited once however often the row is acknowledged. Watermarks are seeded from rows that
the daily risk already includes, and compacted to the attempts that can still be
acknowledged.

A run commits projection commands to the durable rows of several attempts and hands any
version of a row, as often as it likes, to the three entry points, while the day rolls over
and compactions run. Charges are whole paise, the watermarks of the days are always given,
and a number that is not finite reads like an absent one.
-/

namespace Strikedge.ExecutionGateway

open Machine Orders

/-- The two maps of a process. The key of a day bucket joins the attempt and the day. -/
structure FlattenWatermarks where
  observedByAttempt : OrderedMap String Nat := ∅
  observedByAttemptDay : OrderedMap (String × String) Nat := ∅

structure FlattenChargeDayObservation where
  chargeDay : String
  previousChargesForDay : Nat
  chargesForDay : Nat
  deriving DecidableEq, Repr

/-- What `onNewCharge` is called with. -/
structure NewCharge where
  charge : Nat
  observation : Option FlattenChargeDayObservation
  deriving DecidableEq, Repr

/-- `round2(Math.max(0, value ?? 0))` -/
def chargePaise (value : Option Int) : Nat := (max 0 (value.getD 0)).toNat

namespace FlattenWatermarks

variable (marks : FlattenWatermarks) (attemptId : String)

def lifetimeMark : Nat := (marks.observedByAttempt.get? attemptId).getD 0

def dayMark (chargeDay : String) : Nat :=
  (marks.observedByAttemptDay.get? (attemptId, chargeDay)).getD 0

def setLifetime (charges : Nat) : FlattenWatermarks :=
  { marks with observedByAttempt := marks.observedByAttempt.set attemptId charges }

def setDay (chargeDay : String) (charges : Nat) : FlattenWatermarks :=
  { marks with
    observedByAttemptDay := marks.observedByAttemptDay.set (attemptId, chargeDay) charges }

/-- The process has a lifetime watermark for the attempt. -/
def Registered : Prop := marks.observedByAttempt.has attemptId = true

def seedObservedFlattenCharges (cumulativeCharges : Option Int) : FlattenWatermarks :=
  marks.setLifetime attemptId (max (marks.lifetimeMark attemptId) (chargePaise cumulativeCharges))

def seedObservedFlattenChargesForDay (chargeDay : Option String) (chargesForDay : Option Int) :
    FlattenWatermarks :=
  match chargeDay.filter (· ≠ ""), chargesForDay with
  | some day, some charges =>
    marks.setDay attemptId day (max (marks.dayMark attemptId day) (chargePaise charges))
  | _, _ => marks

/-- Lifetime bookkeeping never falls. -/
def advanceLifetime (cumulative : Nat) : FlattenWatermarks :=
  if marks.lifetimeMark attemptId < cumulative then marks.setLifetime attemptId cumulative
  else marks

/-- `reconcileObservedFlattenCharges`. It returns the charge it reports, zero for none. -/
def reconcileObservedFlattenCharges (cumulativeCharges : Option Int) (chargeDay : Option String)
    (chargesForDay : Option Int) : FlattenWatermarks × Option NewCharge :=
  match cumulativeCharges with
  | none => (marks, none)
  | some cumulativeCharges =>
    let cumulative := chargePaise cumulativeCharges
    let observedLifetime := marks.lifetimeMark attemptId
    let lifetimeDelta := if observedLifetime < cumulative then cumulative - observedLifetime else 0
    let advanced := marks.advanceLifetime attemptId cumulative
    match chargeDay.filter (· ≠ ""), chargesForDay with
    | some day, some charges =>
      let chargesForDay := chargePaise charges
      let previousChargesForDay := advanced.dayMark attemptId day
      if chargesForDay ≤ previousChargesForDay then (advanced, none)
      else
        (advanced.setDay attemptId day chargesForDay,
          some
            { charge := chargesForDay - previousChargesForDay
              observation := some ⟨day, previousChargesForDay, chargesForDay⟩ })
    | _, _ =>
      -- Callers without the day bookkeeping are told the lifetime increment.
      (advanced, if 0 < lifetimeDelta then some ⟨lifetimeDelta, none⟩ else none)

/-- `adoptObservedFlattenCharges`. A row that was charged before the process first saw it is
debited for the current day only. -/
def adoptObservedFlattenCharges (cumulativeCharges : Option Int) (currentDay : String)
    (chargeDay : Option String) (chargesForDay : Option Int) :
    FlattenWatermarks × Option NewCharge :=
  let cumulative := chargePaise cumulativeCharges
  if marks.observedByAttempt.has attemptId then
    marks.reconcileObservedFlattenCharges attemptId (some cumulative) chargeDay chargesForDay
  else
    let today := if chargeDay = some currentDay then chargePaise chargesForDay else 0
    let seeded := (marks.setLifetime attemptId cumulative).seedObservedFlattenChargesForDay
      attemptId chargeDay chargesForDay
    (seeded, if 0 < today then some ⟨today, some ⟨currentDay, 0, today⟩⟩ else none)

def compactObservedFlattenChargeWatermarks (retainAttemptIds : List String)
    (currentDay : String) : FlattenWatermarks where
  observedByAttempt :=
    marks.observedByAttempt.filter fun attempt _ => decide (attempt ∈ retainAttemptIds)
  observedByAttemptDay :=
    marks.observedByAttemptDay.filter fun key _ =>
      decide (key.1 ∈ retainAttemptIds) && decide (key.2 = currentDay)

end FlattenWatermarks

namespace BoxExecutionAttemptProjectionSnapshot

variable {δ : Type} (row : BoxExecutionAttemptProjectionSnapshot δ)

/-- The bucket a row has for a day. -/
def bucketOn (day : String) : Nat :=
  if row.flattenChargeDay = some day then chargePaise row.flattenChargesForDay else 0

/-- The bucket of a row is part of its lifetime charges. -/
def WellCharged : Prop := ∀ day, row.bucketOn day ≤ chargePaise row.flattenCharges

variable {row} {command : BoxExecutionAttemptProjectionCommand δ}

theorem bucketOn_of_ne {day : String} (h : row.flattenChargeDay ≠ some day) :
    row.bucketOn day = 0 := if_neg h

theorem charged_of_bucketOn {day : String} (h : 0 < row.bucketOn day) :
    row.flattenChargeDay = some day := by
  by_contra hday
  rw [bucketOn_of_ne hday] at h
  omega

theorem WellCharged.update (h : row.WellCharged) : (row.update command).WellCharged := by
  intro day
  have hday := h day
  rw [bucketOn] at hday ⊢
  simp only [BoxExecutionAttemptProjectionSnapshot.update, chargePaise] at hday ⊢
  by_cases hdelta : 0 < command.flattenChargeDelta
  · by_cases hcommand : command.flattenChargeDay = day
    · by_cases hrow : row.flattenChargeDay = some day
      · simp only [hdelta, hcommand, hrow, if_true] at hday ⊢
        simp only [Option.getD_some]
        omega
      · simp only [hdelta, hcommand, hrow, if_true, if_false, Option.getD_some]
        omega
    · simp [hdelta, hcommand]
  · by_cases hrow : row.flattenChargeDay = some day
    · simp only [hdelta, hrow, if_true, if_false] at hday ⊢
      simp only [Option.getD_some]
      omega
    · simp [hdelta, hrow]

/-- A command leaves the row or updates it. -/
theorem transition_cases [DecidableEq δ] (hash : ContentHash δ) :
    (transitionResidualProjectionSnapshot hash (some row) command).2 = some row ∨
      (transitionResidualProjectionSnapshot hash (some row) command).2 =
        some (row.update command) := by
  simp only [transitionResidualProjectionSnapshot]
  split
  · exact .inl rfl
  · split
    · exact .inl rfl
    · exact .inr rfl

end BoxExecutionAttemptProjectionSnapshot

namespace FlattenWatermarks

variable {δ : Type} {marks after : FlattenWatermarks} {attemptId : String}
variable {row : BoxExecutionAttemptProjectionSnapshot δ}

theorem dayMark_setDay {other chargeDay day : String} {charges : Nat} :
    (marks.setDay attemptId chargeDay charges).dayMark other day =
      if other = attemptId ∧ day = chargeDay then charges else marks.dayMark other day := by
  rw [dayMark, setDay, OrderedMap.get?_set]
  by_cases h : other = attemptId ∧ day = chargeDay
  · rw [if_pos (Prod.mk.injEq .. ▸ h), if_pos h, Option.getD_some]
  · rw [if_neg (Prod.mk.injEq .. ▸ h), if_neg h, dayMark]

theorem registered_setLifetime {other : String} {charges : Nat} :
    (marks.setLifetime attemptId charges).Registered other ↔
      other = attemptId ∨ marks.Registered other := by
  rw [Registered, setLifetime, OrderedMap.has_set, Bool.or_eq_true, decide_eq_true_iff, Registered]

@[simp] theorem registered_setDay {other chargeDay : String} {charges : Nat} :
    (marks.setDay attemptId chargeDay charges).Registered other ↔ marks.Registered other := Iff.rfl

theorem registered_of_lifetimeMark_pos (h : 0 < marks.lifetimeMark attemptId) :
    marks.Registered attemptId := by
  rw [lifetimeMark] at h
  rw [Registered, OrderedMap.has]
  cases hmark : marks.observedByAttempt.get? attemptId with
  | none =>
    rw [hmark] at h
    exact absurd h (Nat.lt_irrefl 0)
  | some charges => rfl

/-- A call on a row raises the day buckets of its attempt to the row's, leaves the others
alone and keeps the lifetime watermarks, one of which it has if the row's bucket is not
empty. -/
structure Observes (marks : FlattenWatermarks) (attemptId : String)
    (row : BoxExecutionAttemptProjectionSnapshot δ) (after : FlattenWatermarks) : Prop where
  frame : ∀ other day, day ≠ "" → other ≠ attemptId →
    after.dayMark other day = marks.dayMark other day
  raised : ∀ day, day ≠ "" →
    after.dayMark attemptId day = max (marks.dayMark attemptId day) (row.bucketOn day)
  kept : ∀ other, marks.Registered other → after.Registered other
  registered : ∀ day, 0 < row.bucketOn day → after.Registered attemptId

/-- The charge a delivery reports for a day: what the row's bucket adds to the watermark. -/
def increment (marks : FlattenWatermarks) (attemptId : String)
    (row : BoxExecutionAttemptProjectionSnapshot δ) (day : String) : Option NewCharge :=
  if marks.dayMark attemptId day < row.bucketOn day then
    some
      { charge := row.bucketOn day - marks.dayMark attemptId day
        observation := some ⟨day, marks.dayMark attemptId day, row.bucketOn day⟩ }
  else none

/-- A row has a bucket for one day, or for none. -/
theorem bucket_cases (row : BoxExecutionAttemptProjectionSnapshot δ) :
    (∃ chargeDay charges, row.flattenChargeDay.filter (· ≠ "") = some chargeDay ∧
        row.flattenChargesForDay = some charges ∧
        row.bucketOn chargeDay = chargePaise (some charges) ∧
        ∀ day, day ≠ chargeDay → row.bucketOn day = 0) ∨
      (row.flattenChargeDay.filter (· ≠ "") = none ∨ row.flattenChargesForDay = none) ∧
        ∀ day, day ≠ "" → row.bucketOn day = 0 := by
  cases hday : row.flattenChargeDay.filter (· ≠ "") with
  | none =>
    refine .inr ⟨.inl rfl, fun day hne => ?_⟩
    refine BoxExecutionAttemptProjectionSnapshot.bucketOn_of_ne fun hrow => ?_
    rw [hrow, Option.filter_some, if_pos (decide_eq_true hne)] at hday
    cases hday
  | some chargeDay =>
    obtain ⟨hrow, -⟩ := Option.filter_eq_some_iff.mp hday
    cases hcharges : row.flattenChargesForDay with
    | none =>
      refine .inr ⟨.inr rfl, fun day _ => ?_⟩
      rw [BoxExecutionAttemptProjectionSnapshot.bucketOn, hcharges]
      exact ite_self 0
    | some charges =>
      refine .inl ⟨chargeDay, charges, rfl, rfl, ?_, fun day hne => ?_⟩
      · rw [BoxExecutionAttemptProjectionSnapshot.bucketOn, if_pos hrow, hcharges]
      · exact BoxExecutionAttemptProjectionSnapshot.bucketOn_of_ne fun h =>
          hne (Option.some.inj (h.symm.trans hrow))

theorem seedForDay_of_none {chargeDay : Option String} {charges : Option Int}
    (h : chargeDay.filter (· ≠ "") = none ∨ charges = none) :
    marks.seedObservedFlattenChargesForDay attemptId chargeDay charges = marks := by
  rw [seedObservedFlattenChargesForDay.eq_def]
  obtain h | rfl := h
  · rw [h]
  · cases chargeDay.filter (· ≠ "") <;> rfl

theorem seedForDay_of_some {chargeDay : Option String} {day : String} {charges : Int}
    (h : chargeDay.filter (· ≠ "") = some day) :
    marks.seedObservedFlattenChargesForDay attemptId chargeDay (some charges) =
      marks.setDay attemptId day
        (max (marks.dayMark attemptId day) (chargePaise (some charges))) := by
  rw [seedObservedFlattenChargesForDay.eq_def, h]

/-- Seeding the bucket of a row raises that bucket and nothing else. -/
theorem seedForDay_dayMark {other day : String} (hday : day ≠ "") :
    (marks.seedObservedFlattenChargesForDay attemptId row.flattenChargeDay
      row.flattenChargesForDay).dayMark other day =
      if other = attemptId then max (marks.dayMark other day) (row.bucketOn day)
      else marks.dayMark other day := by
  obtain ⟨chargeDay, charges, hchargeDay, hcharges, hbucket, hother⟩ | ⟨hnone, hzero⟩ :=
    bucket_cases row
  · rw [hcharges, seedForDay_of_some hchargeDay, dayMark_setDay, ← hbucket]
    by_cases hattempt : other = attemptId
    · subst hattempt
      by_cases hsame : day = chargeDay
      · subst hsame
        rw [if_pos ⟨rfl, rfl⟩, if_pos rfl]
      · rw [if_neg fun h => hsame h.2, if_pos rfl, hother day hsame, Nat.max_zero]
    · rw [if_neg fun h => hattempt h.1, if_neg hattempt]
  · rw [seedForDay_of_none hnone, hzero day hday, Nat.max_zero, ite_self]

theorem registered_seedForDay {other : String} {chargeDay : Option String}
    {charges : Option Int} :
    (marks.seedObservedFlattenChargesForDay attemptId chargeDay charges).Registered other ↔
      marks.Registered other := by
  cases hday : chargeDay.filter (· ≠ "") with
  | none => rw [seedForDay_of_none (.inl hday)]
  | some day =>
    cases charges with
    | none => rw [seedForDay_of_none (.inr rfl)]
    | some charges => rw [seedForDay_of_some hday, registered_setDay]

/-- Seeding a row, its lifetime and its bucket, observes it. -/
theorem seed_observes :
    Observes marks attemptId row
      ((marks.seedObservedFlattenCharges attemptId
        row.flattenCharges).seedObservedFlattenChargesForDay attemptId row.flattenChargeDay
          row.flattenChargesForDay) := by
  refine ⟨fun other day hday hother => ?_, fun day hday => ?_, fun other h => ?_, fun _ _ => ?_⟩
  · rw [seedForDay_dayMark hday, if_neg hother]
    rfl
  · rw [seedForDay_dayMark hday, if_pos rfl]
    rfl
  · exact registered_seedForDay.mpr (registered_setLifetime.mpr (.inr h))
  · exact registered_seedForDay.mpr (registered_setLifetime.mpr (.inl rfl))

@[simp] theorem dayMark_advanceLifetime {other day : String} {cumulative : Nat} :
    (marks.advanceLifetime attemptId cumulative).dayMark other day = marks.dayMark other day := by
  rw [advanceLifetime]
  split <;> rfl

theorem Registered.advanceLifetime {other : String} {cumulative : Nat}
    (h : marks.Registered other) :
    (marks.advanceLifetime attemptId cumulative).Registered other := by
  rw [FlattenWatermarks.advanceLifetime]
  split
  · exact registered_setLifetime.mpr (.inr h)
  · exact h

theorem registered_advanceLifetime {cumulative : Nat} (h : 0 < cumulative) :
    (marks.advanceLifetime attemptId cumulative).Registered attemptId := by
  rw [advanceLifetime]
  by_cases hmark : marks.lifetimeMark attemptId < cumulative
  · rw [if_pos hmark]
    exact registered_setLifetime.mpr (.inl rfl)
  · rw [if_neg hmark]
    exact registered_of_lifetimeMark_pos (by omega)

/-- Without a day bucket the lifetime increment is reported, for no day. -/
theorem reconcile_of_none {cumulative : Int} {chargeDay : Option String} {charges : Option Int}
    (h : chargeDay.filter (· ≠ "") = none ∨ charges = none) :
    ∃ delta : Nat,
      marks.reconcileObservedFlattenCharges attemptId (some cumulative) chargeDay charges =
        (marks.advanceLifetime attemptId (chargePaise (some cumulative)),
          if 0 < delta then some ⟨delta, none⟩ else none) := by
  refine ⟨if marks.lifetimeMark attemptId < chargePaise (some cumulative) then
    chargePaise (some cumulative) - marks.lifetimeMark attemptId else 0, ?_⟩
  rw [reconcileObservedFlattenCharges.eq_def]
  obtain h | rfl := h
  · rw [h]
  · cases chargeDay.filter (· ≠ "") <;> rfl

theorem reconcile_of_some {cumulative charges : Int} {chargeDay : Option String} {day : String}
    (h : chargeDay.filter (· ≠ "") = some day) :
    marks.reconcileObservedFlattenCharges attemptId (some cumulative) chargeDay (some charges) =
      if chargePaise (some charges) ≤ marks.dayMark attemptId day then
        (marks.advanceLifetime attemptId (chargePaise (some cumulative)), none)
      else
        ((marks.advanceLifetime attemptId (chargePaise (some cumulative))).setDay attemptId day
            (chargePaise (some charges)),
          some
            { charge := chargePaise (some charges) - marks.dayMark attemptId day
              observation :=
                some ⟨day, marks.dayMark attemptId day, chargePaise (some charges)⟩ }) := by
  simp only [reconcileObservedFlattenCharges, h, dayMark_advanceLifetime]

theorem increment_of_zero {day : String} (h : row.bucketOn day = 0) :
    marks.increment attemptId row day = none := by
  rw [increment, h, if_neg (Nat.not_lt_zero _)]

/-- The watermarks with the lifetime advanced observe a row whose buckets they have. -/
theorem advanceLifetime_observes (hrow : row.WellCharged)
    (h : ∀ day, day ≠ "" → row.bucketOn day ≤ marks.dayMark attemptId day) :
    Observes marks attemptId row
      (marks.advanceLifetime attemptId (chargePaise row.flattenCharges)) := by
  refine ⟨fun other day _ _ => dayMark_advanceLifetime, fun day hday => ?_,
    fun other hother => hother.advanceLifetime, fun day hday => ?_⟩
  · rw [dayMark_advanceLifetime, max_eq_left (h day hday)]
  · exact registered_advanceLifetime (hday.trans_le (hrow day))

/-- A reconciled row is observed, and each day is told what its bucket adds. -/
theorem reconcile_observes (hrow : row.WellCharged) {cumulative : Option Int}
    (hcumulative : chargePaise cumulative = chargePaise row.flattenCharges) :
    Observes marks attemptId row
        (marks.reconcileObservedFlattenCharges attemptId cumulative row.flattenChargeDay
          row.flattenChargesForDay).1 ∧
      ∀ day, day ≠ "" →
        (marks.reconcileObservedFlattenCharges attemptId cumulative row.flattenChargeDay
          row.flattenChargesForDay).2.filter (·.observation.any (·.chargeDay = day)) =
          marks.increment attemptId row day := by
  cases cumulative with
  | none =>
    have hzero : ∀ day, row.bucketOn day = 0 := fun day =>
      Nat.le_zero.mp ((hrow day).trans (hcumulative ▸ Nat.le_refl 0))
    refine ⟨⟨fun _ _ _ _ => rfl, fun day _ => ?_, fun _ h => h, fun day h => ?_⟩, fun day _ => ?_⟩
    · rw [hzero, Nat.max_zero]
      rfl
    · rw [hzero] at h
      exact absurd h (Nat.lt_irrefl 0)
    · rw [increment_of_zero (hzero day)]
      rfl
  | some cumulative =>
    obtain ⟨chargeDay, charges, hday, hcharges, hbucket, hother⟩ | ⟨hnone, hzero⟩ :=
      bucket_cases row
    · have hnonempty : chargeDay ≠ "" :=
        of_decide_eq_true (Option.filter_eq_some_iff.mp hday).2
      rw [hcharges, reconcile_of_some hday, hcumulative, ← hbucket]
      by_cases hmark : row.bucketOn chargeDay ≤ marks.dayMark attemptId chargeDay
      · have hle : ∀ day, row.bucketOn day ≤ marks.dayMark attemptId day := by
          intro day
          by_cases hsame : day = chargeDay
          · exact hsame ▸ hmark
          · rw [hother day hsame]
            exact Nat.zero_le _
        rw [if_pos hmark]
        refine ⟨advanceLifetime_observes hrow fun day _ => hle day, fun day _ => ?_⟩
        rw [increment, if_neg (Nat.not_lt.mpr (hle day))]
        rfl
      · rw [if_neg hmark]
        refine ⟨⟨fun other day _ hne => ?_, fun day _ => ?_, fun other h => ?_, fun day h => ?_⟩,
          fun day _ => ?_⟩
        · rw [dayMark_setDay, if_neg fun h => hne h.1, dayMark_advanceLifetime]
        · rw [dayMark_setDay, dayMark_advanceLifetime]
          by_cases hsame : day = chargeDay
          · rw [if_pos ⟨rfl, hsame⟩, hsame, max_eq_right (Nat.not_le.mp hmark).le]
          · rw [if_neg fun h => hsame h.2, hother day hsame, Nat.max_zero]
        · exact registered_setDay.mpr h.advanceLifetime
        · exact registered_setDay.mpr (registered_advanceLifetime (h.trans_le (hrow day)))
        · by_cases hsame : day = chargeDay
          · subst hsame
            rw [increment, if_pos (Nat.not_le.mp hmark)]
            simp
          · rw [increment_of_zero (hother day hsame)]
            simp [Ne.symm hsame]
    · obtain ⟨delta, heq⟩ : ∃ delta : Nat, marks.reconcileObservedFlattenCharges attemptId
          (some cumulative) row.flattenChargeDay row.flattenChargesForDay = (_, _) :=
        reconcile_of_none hnone
      rw [heq, hcumulative]
      refine ⟨advanceLifetime_observes hrow fun day hday => ?_, fun day hday => ?_⟩
      · rw [hzero day hday]
        exact Nat.zero_le _
      · rw [increment_of_zero (hzero day hday)]
        split <;> rfl

/-- An adopted row is observed, and the current day is told what its bucket adds. An attempt
without a lifetime watermark has no buckets. -/
theorem adopt_observes (hrow : row.WellCharged) (currentDay : String)
    (hmarks : currentDay ≠ "" → 0 < marks.dayMark attemptId currentDay →
      marks.Registered attemptId) :
    Observes marks attemptId row
        (marks.adoptObservedFlattenCharges attemptId row.flattenCharges currentDay
          row.flattenChargeDay row.flattenChargesForDay).1 ∧
      (currentDay ≠ "" → (marks.adoptObservedFlattenCharges attemptId row.flattenCharges currentDay
        row.flattenChargeDay row.flattenChargesForDay).2.filter
          (·.observation.any (·.chargeDay = currentDay)) =
        marks.increment attemptId row currentDay) := by
  rw [adoptObservedFlattenCharges]
  by_cases hregistered : marks.observedByAttempt.has attemptId = true
  · have hcumulative : chargePaise (some (chargePaise row.flattenCharges : Int)) =
        chargePaise row.flattenCharges := by
      rw [chargePaise, Option.getD_some]
      omega
    rw [if_pos hregistered]
    exact (reconcile_observes hrow hcumulative).imp_right fun hcharge => hcharge currentDay
  · rw [if_neg hregistered]
    refine ⟨⟨fun other day hne hother => ?_, fun day hne => ?_, fun other h => ?_, fun _ _ => ?_⟩,
      fun hday => ?_⟩
    · rw [seedForDay_dayMark hne, if_neg hother]
      rfl
    · rw [seedForDay_dayMark hne, if_pos rfl]
      rfl
    · exact registered_seedForDay.mpr (registered_setLifetime.mpr (.inr h))
    · exact registered_seedForDay.mpr (registered_setLifetime.mpr (.inl rfl))
    · have hzero : marks.dayMark attemptId currentDay = 0 :=
        Nat.le_zero.mp (Nat.not_lt.mp fun hpos => hregistered (hmarks hday hpos))
      rw [increment, hzero, BoxExecutionAttemptProjectionSnapshot.bucketOn]
      dsimp only
      by_cases hpos : 0 <
          if row.flattenChargeDay = some currentDay then chargePaise row.flattenChargesForDay else 0
      · rw [if_pos hpos, if_pos hpos, Nat.sub_zero]
        simp
      · rw [if_neg hpos, if_neg hpos]
        rfl

theorem dayMark_compact {retain : List String} {currentDay other day : String} :
    (marks.compactObservedFlattenChargeWatermarks retain currentDay).dayMark other day =
      if other ∈ retain ∧ day = currentDay then marks.dayMark other day else 0 := by
  rw [dayMark, compactObservedFlattenChargeWatermarks, OrderedMap.get?_filter]
  by_cases h : other ∈ retain ∧ day = currentDay
  · rw [if_pos h, dayMark]
    cases marks.observedByAttemptDay.get? (other, day) with
    | none => rfl
    | some charges =>
      rw [Option.filter_some, if_pos (by simp [h])]
  · rw [if_neg h]
    cases marks.observedByAttemptDay.get? (other, day) with
    | none => rfl
    | some charges =>
      have hdropped : (decide (other ∈ retain) && decide (day = currentDay)) = false := by
        simpa using h
      rw [Option.filter_some, if_neg (by simp [hdropped]), Option.getD_none]

theorem registered_compact {retain : List String} {currentDay other : String}
    (hretain : other ∈ retain) :
    (marks.compactObservedFlattenChargeWatermarks retain currentDay).Registered other ↔
      marks.Registered other := by
  rw [Registered, Registered, OrderedMap.has, OrderedMap.has,
    compactObservedFlattenChargeWatermarks, OrderedMap.get?_filter]
  cases marks.observedByAttempt.get? other with
  | none => exact Iff.rfl
  | some charges => simp [hretain]

end FlattenWatermarks

end Strikedge.ExecutionGateway
