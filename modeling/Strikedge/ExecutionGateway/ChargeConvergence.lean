import Strikedge.Machine.Run
import Strikedge.ExecutionGateway.FlattenWatermarks

/-!
# Flatten charges converge

Every call on a row reads a meter: the bucket the row has for the current day. A delivery is
a reading that is billed, a seed one that is written off. The charges a process reports for
a day while it is current are the ranges its readings bill, so every paisa is reported once
or lies in what a seed wrote off.
-/

namespace Strikedge.ExecutionGateway

open Machine Orders

/-- A call on a row: the attempt, the day it is made on, the bucket the row has for that day,
and whether the row is delivered or seeded. -/
structure FlattenChargeCall where
  attempt : String
  on : String
  reading : MeterReading
  deriving DecidableEq, Repr

structure ReportedCharge where
  attempt : String
  on : String
  newCharge : NewCharge
  deriving DecidableEq, Repr

/-- The rows of several attempts and one process that observes their charges. -/
structure FlattenChargeRun (δ : Type) where
  /-- every version of the row of an attempt, the newest first -/
  history : OrderedMap String (List (BoxExecutionAttemptProjectionSnapshot δ)) := ∅
  currentDay : String
  marks : FlattenWatermarks := {}
  calls : List FlattenChargeCall := []
  reported : List ReportedCharge := []
  /-- the attempts each compaction has retained -/
  retained : List (List String) := []

inductive FlattenChargeLabel (δ : Type) where
  | insert (attempt : String) (residual : List ResidualLegExposure)
  | commit (attempt : String) (command : BoxExecutionAttemptProjectionCommand δ)
  | roll (day : String)
  | seed (attempt : String) (version : Nat)
  | adopt (attempt : String) (version : Nat)
  | reconcile (attempt : String) (version : Nat)
  | compact (retain : List String)

namespace FlattenChargeRun

variable {δ : Type}

/-- A version of the row of an attempt, counted back from the newest. -/
def row (s : FlattenChargeRun δ) (attempt : String) (version : Nat) :
    Option (BoxExecutionAttemptProjectionSnapshot δ) :=
  (s.history.get? attempt).bind (·[version]?)

/-- An attempt as it is inserted. -/
def inserted (hash : ContentHash δ) (residual : List ResidualLegExposure) :
    BoxExecutionAttemptProjectionSnapshot δ where
  projectionVersion := some 0
  residualProjectionIdentity := some (residualProjectionIdentity hash residual)
  residualExposure := some residual
  flattenCharges := some 0
  flattenChargeDay := none
  flattenChargesForDay := some 0
  appliedFlattenApplications := some []
  resolved := some residual.isEmpty

/-- The state after a call on a row. -/
def record (s : FlattenChargeRun δ) (attempt : String)
    (row : BoxExecutionAttemptProjectionSnapshot δ) (billed : Bool)
    (outcome : FlattenWatermarks × Option NewCharge) : FlattenChargeRun δ :=
  { s with
    marks := outcome.1
    calls := s.calls ++ [⟨attempt, s.currentDay, ⟨row.bucketOn s.currentDay, billed⟩⟩]
    reported := s.reported ++ outcome.2.toList.map (⟨attempt, s.currentDay, ·⟩) }

def step [DecidableEq δ] (hash : ContentHash δ) (s : FlattenChargeRun δ) :
    FlattenChargeLabel δ → Option (FlattenChargeRun δ)
  | .insert attempt residual =>
    if s.history.has attempt then none
    else some { s with history := s.history.set attempt [inserted hash residual] }
  | .commit attempt command =>
    match s.history.get? attempt with
    | some (newest :: older) =>
      let committed := (transitionResidualProjectionSnapshot hash (some newest) command).2
      some { s with history := s.history.set attempt (committed.toList ++ newest :: older) }
    | _ => some s
  | .roll day => some { s with currentDay := day }
  | .seed attempt version =>
    (s.row attempt version).map fun row =>
      s.record attempt row false
        ((s.marks.seedObservedFlattenCharges attempt
          row.flattenCharges).seedObservedFlattenChargesForDay attempt row.flattenChargeDay
            row.flattenChargesForDay, none)
  | .adopt attempt version =>
    (s.row attempt version).map fun row =>
      s.record attempt row true (s.marks.adoptObservedFlattenCharges attempt row.flattenCharges
        s.currentDay row.flattenChargeDay row.flattenChargesForDay)
  | .reconcile attempt version =>
    (s.row attempt version).map fun row =>
      s.record attempt row true (s.marks.reconcileObservedFlattenCharges attempt
        row.flattenCharges row.flattenChargeDay row.flattenChargesForDay)
  | .compact retain => some
    { s with
      marks := s.marks.compactObservedFlattenChargeWatermarks retain s.currentDay
      retained := s.retained ++ [retain] }

/-- Every compaction has retained the attempt. -/
def Retained (s : FlattenChargeRun δ) (attempt : String) : Prop :=
  ∀ retain ∈ s.retained, attempt ∈ retain

/-- Some version of a row of the attempt is charged on the day. -/
def ChargedOn (s : FlattenChargeRun δ) (attempt day : String) : Prop :=
  ∃ rows row, s.history.get? attempt = some rows ∧ row ∈ rows ∧ row.flattenChargeDay = some day

/-- A delivery is of an attempt that every compaction has retained, and a day begins before
anything is charged on it. -/
def Acknowledgeable (s : FlattenChargeRun δ) : FlattenChargeLabel δ → Prop
  | .adopt attempt _ => s.Retained attempt
  | .reconcile attempt _ => s.Retained attempt
  | .roll day => ∀ e ∈ s.history.entries, ∀ row ∈ e.2, row.flattenChargeDay ≠ some day
  | _ => True

instance (s : FlattenChargeRun δ) : ∀ label, Decidable (s.Acknowledgeable label)
  | .adopt attempt _ => inferInstanceAs (Decidable (∀ retain ∈ s.retained, attempt ∈ retain))
  | .reconcile attempt _ => inferInstanceAs (Decidable (∀ retain ∈ s.retained, attempt ∈ retain))
  | .roll day => inferInstanceAs
      (Decidable (∀ e ∈ s.history.entries, ∀ row ∈ e.2, row.flattenChargeDay ≠ some day))
  | .insert _ _ => .isTrue trivial
  | .commit _ _ => .isTrue trivial
  | .seed _ _ => .isTrue trivial
  | .compact _ => .isTrue trivial

/-- The readings of an attempt on a day while the day is current. -/
def readings (s : FlattenChargeRun δ) (attempt day : String) : List MeterReading :=
  (s.calls.filter fun call => decide (call.attempt = attempt ∧ call.on = day)).map (·.reading)

/-- The charges reported for an attempt and a day while the day is current. -/
def chargesFor (s : FlattenChargeRun δ) (attempt day : String) : List NewCharge :=
  ((s.reported.filter fun report => decide (report.attempt = attempt ∧ report.on = day)).map
    (·.newCharge)).filter (·.observation.any (·.chargeDay = day))

/-- The charge for the range of paise between two buckets. -/
def chargeOf (day : String) (range : Nat × Nat) : NewCharge where
  charge := range.2 - range.1
  observation := some ⟨day, range.1, range.2⟩

/-- What holds between the watermarks, the calls and the reports. -/
structure Metered (s : FlattenChargeRun δ) : Prop where
  wellCharged : ∀ attempt rows row, s.history.get? attempt = some rows → row ∈ rows →
    row.WellCharged
  registered : ∀ attempt, s.Retained attempt → ∀ day, day ≠ "" →
    0 < s.marks.dayMark attempt day → s.marks.Registered attempt
  markCharged : ∀ attempt day, day ≠ "" → 0 < s.marks.dayMark attempt day →
    s.ChargedOn attempt day
  readingCharged : ∀ attempt day, ∀ reading ∈ s.readings attempt day, 0 < reading.level →
    s.ChargedOn attempt day
  current : s.currentDay ≠ "" → ∀ attempt, s.Retained attempt →
    s.marks.dayMark attempt s.currentDay = readingMark 0 (s.readings attempt s.currentDay)
  exact : ∀ attempt day, day ≠ "" → s.chargesFor attempt day =
    (billedRanges 0 (s.readings attempt day)).map (chargeOf day)

def start (day : String) : FlattenChargeRun δ where
  currentDay := day

variable {s : FlattenChargeRun δ} {attempt other day : String} {version : Nat} {billed : Bool}
variable {row : BoxExecutionAttemptProjectionSnapshot δ}
variable {outcome : FlattenWatermarks × Option NewCharge}

theorem readings_record :
    (s.record attempt row billed outcome).readings other day =
      s.readings other day ++
        if other = attempt ∧ day = s.currentDay then [⟨row.bucketOn s.currentDay, billed⟩]
        else [] := by
  rw [readings, record, List.filter_append, List.map_append, readings]
  by_cases h : other = attempt ∧ day = s.currentDay
  · rw [if_pos h, List.filter_cons_of_pos (by exact decide_eq_true ⟨h.1.symm, h.2.symm⟩)]
    rfl
  · have hother : ¬ (attempt = other ∧ s.currentDay = day) := fun h' => h ⟨h'.1.symm, h'.2.symm⟩
    rw [if_neg h, List.filter_cons_of_neg (by exact fun h' => hother (of_decide_eq_true h'))]
    rfl

theorem chargesFor_record :
    (s.record attempt row billed outcome).chargesFor other day =
      s.chargesFor other day ++
        if other = attempt ∧ day = s.currentDay then
          (outcome.2.filter (·.observation.any (·.chargeDay = day))).toList else [] := by
  rw [chargesFor, record, List.filter_append, List.map_append, List.filter_append, chargesFor]
  cases outcome.2 with
  | none => simp
  | some newCharge =>
    rw [Option.toList_some, List.map_singleton]
    by_cases h : other = attempt ∧ day = s.currentDay
    · rw [if_pos h, List.filter_cons_of_pos (by exact decide_eq_true ⟨h.1.symm, h.2.symm⟩),
        List.filter_nil, List.map_singleton, Option.filter_some, List.filter_singleton]
      cases newCharge.observation.any (·.chargeDay = day) <;> rfl
    · have hother : ¬ (attempt = other ∧ s.currentDay = day) :=
        fun h' => h ⟨h'.1.symm, h'.2.symm⟩
      rw [if_neg h, List.filter_cons_of_neg (by exact fun h' => hother (of_decide_eq_true h'))]
      rfl

theorem mem_of_row (h : s.row attempt version = some row) :
    ∃ rows, s.history.get? attempt = some rows ∧ row ∈ rows := by
  obtain ⟨rows, hrows, hrow⟩ := Option.bind_eq_some_iff.mp h
  exact ⟨rows, hrows, List.mem_of_getElem? hrow⟩

/-- A call that observes its row, and reports what a delivery has to report, keeps the books. -/
theorem Metered.record (hs : s.Metered) (hrow : s.row attempt version = some row)
    (hobserves : s.marks.Observes attempt row outcome.1)
    (hretained : billed = true → s.Retained attempt)
    (hcharge : s.currentDay ≠ "" →
      outcome.2.filter (·.observation.any (·.chargeDay = s.currentDay)) =
        if billed then s.marks.increment attempt row s.currentDay else none) :
    (s.record attempt row billed outcome).Metered := by
  obtain ⟨rows, hrows, hmem⟩ := mem_of_row hrow
  have hcharged : ∀ day, 0 < row.bucketOn day → s.ChargedOn attempt day := fun day h =>
    ⟨rows, row, hrows, hmem, BoxExecutionAttemptProjectionSnapshot.charged_of_bucketOn h⟩
  refine ⟨hs.wellCharged, fun other hother day hday hpos => ?_, fun other day hday hpos => ?_,
    fun other day reading hreading hpos => ?_, fun hday other hother => ?_,
    fun other day hday => ?_⟩
  · by_cases hsame : other = attempt
    · subst hsame
      have hraised := hobserves.raised day hday
      by_cases hbucket : 0 < row.bucketOn day
      · exact hobserves.registered day hbucket
      · have hmark : 0 < s.marks.dayMark other day := by
          change 0 < outcome.1.dayMark other day at hpos
          omega
        exact hobserves.kept other (hs.registered other hother day hday hmark)
    · have hmark : 0 < s.marks.dayMark other day := hobserves.frame other day hday hsame ▸ hpos
      exact hobserves.kept other (hs.registered other hother day hday hmark)
  · by_cases hsame : other = attempt
    · subst hsame
      have hraised := hobserves.raised day hday
      by_cases hbucket : 0 < row.bucketOn day
      · exact hcharged day hbucket
      · refine hs.markCharged other day hday ?_
        change 0 < outcome.1.dayMark other day at hpos
        omega
    · exact hs.markCharged other day hday (hobserves.frame other day hday hsame ▸ hpos)
  · rw [readings_record] at hreading
    obtain hreading | hreading := List.mem_append.mp hreading
    · exact hs.readingCharged other day reading hreading hpos
    · by_cases hsame : other = attempt ∧ day = s.currentDay
      · rw [if_pos hsame] at hreading
        obtain rfl := List.mem_singleton.mp hreading
        obtain ⟨rfl, rfl⟩ := hsame
        exact hcharged _ hpos
      · rw [if_neg hsame] at hreading
        exact absurd hreading List.not_mem_nil
  · rw [readings_record]
    change s.currentDay ≠ "" at hday
    change outcome.1.dayMark other s.currentDay = readingMark 0 (s.readings other s.currentDay ++
      if other = attempt ∧ s.currentDay = s.currentDay then
        [⟨row.bucketOn s.currentDay, billed⟩] else [])
    have hcurrent := hs.current hday other hother
    by_cases hsame : other = attempt
    · subst hsame
      rw [if_pos ⟨rfl, rfl⟩, readingMark_concat, ← hcurrent, hobserves.raised _ hday]
    · rw [if_neg fun h => hsame h.1, List.append_nil, ← hcurrent,
        hobserves.frame other _ hday hsame]
  · rw [readings_record, chargesFor_record, hs.exact other day hday]
    by_cases hsame : other = attempt ∧ day = s.currentDay
    · obtain ⟨rfl, rfl⟩ := hsame
      rw [if_pos ⟨rfl, rfl⟩, if_pos ⟨rfl, rfl⟩, billedRanges_concat, List.map_append, hcharge hday]
      congr 1
      cases billed with
      | false => rfl
      | true =>
        rw [if_pos rfl, FlattenWatermarks.increment, hs.current hday other (hretained rfl)]
        by_cases hrise :
            readingMark 0 (s.readings other s.currentDay) < row.bucketOn s.currentDay
        · rw [if_pos hrise, if_pos ⟨rfl, hrise⟩]
          rfl
        · rw [if_neg hrise, if_neg fun h => hrise h.2]
          rfl
    · rw [if_neg hsame, if_neg hsame, List.append_nil, List.append_nil]

theorem readingMark_eq_zero {readings : List MeterReading}
    (h : ∀ reading ∈ readings, reading.level = 0) : readingMark 0 readings = 0 := by
  refine Nat.le_zero.mp (highWater_le_iff.mpr ⟨Nat.le_refl 0, fun level hlevel => ?_⟩)
  obtain ⟨reading, hreading, rfl⟩ := List.mem_map.mp hlevel
  exact Nat.le_of_eq (h reading hreading)

/-- Nothing has been observed of a day that nothing is charged on. -/
theorem Metered.roll (hs : s.Metered)
    (h : ∀ e ∈ s.history.entries, ∀ row ∈ e.2, row.flattenChargeDay ≠ some day) :
    ({ s with currentDay := day } : FlattenChargeRun δ).Metered := by
  have huncharged : ∀ other, ¬ s.ChargedOn other day := by
    rintro other ⟨rows, row, hrows, hmem, hcharged⟩
    exact h (other, rows) (OrderedMap.mem_entries_iff.mpr hrows) row hmem hcharged
  refine ⟨hs.wellCharged, hs.registered, hs.markCharged, hs.readingCharged,
    fun hday other _ => ?_, hs.exact⟩
  have hmark : s.marks.dayMark other day = 0 := by
    by_contra hpos
    exact huncharged other (hs.markCharged other day hday (Nat.pos_of_ne_zero hpos))
  refine hmark.trans (readingMark_eq_zero fun reading hreading => ?_).symm
  by_contra hpos
  exact huncharged other (hs.readingCharged other day reading hreading (Nat.pos_of_ne_zero hpos))

/-- A compaction keeps the bucket of the current day of every attempt it retains. -/
theorem Metered.compact (hs : s.Metered) (retain : List String) :
    ({ s with
        marks := s.marks.compactObservedFlattenChargeWatermarks retain s.currentDay
        retained := s.retained ++ [retain] } : FlattenChargeRun δ).Metered := by
  have hretained : ∀ other, (∀ kept ∈ s.retained ++ [retain], other ∈ kept) →
      s.Retained other ∧ other ∈ retain := fun other h =>
    ⟨fun kept hkept => h kept (List.mem_append_left _ hkept),
      h retain (List.mem_append_right _ List.mem_cons_self)⟩
  have hdropped : ∀ other day, 0 <
      (s.marks.compactObservedFlattenChargeWatermarks retain s.currentDay).dayMark other day →
        0 < s.marks.dayMark other day := by
    intro other day hpos
    rw [FlattenWatermarks.dayMark_compact] at hpos
    split at hpos
    · exact hpos
    · exact absurd hpos (Nat.lt_irrefl 0)
  refine ⟨hs.wellCharged, fun other hother day hday hpos => ?_, fun other day hday hpos => ?_,
    hs.readingCharged, fun hday other hother => ?_, hs.exact⟩
  · obtain ⟨hkept, hmem⟩ := hretained other hother
    exact (FlattenWatermarks.registered_compact hmem).mpr
      (hs.registered other hkept day hday (hdropped other day hpos))
  · exact hs.markCharged other day hday (hdropped other day hpos)
  · obtain ⟨hkept, hmem⟩ := hretained other hother
    exact (FlattenWatermarks.dayMark_compact.trans (if_pos ⟨hmem, rfl⟩)).trans
      (hs.current hday other hkept)

/-- The row of an attempt gets one more version, or its first. -/
theorem Metered.extend {rows added : List (BoxExecutionAttemptProjectionSnapshot δ)}
    (hs : s.Metered) (hrows : (s.history.get? attempt).getD [] = rows)
    (hadded : ∀ row ∈ added, row.WellCharged) :
    ({ s with history := s.history.set attempt (added ++ rows) } : FlattenChargeRun δ).Metered := by
  have hcharged : ∀ other day, s.ChargedOn other day →
      ({ s with history := s.history.set attempt (added ++ rows) } :
        FlattenChargeRun δ).ChargedOn other day := by
    rintro other day ⟨found, row, hfound, hmem, hday⟩
    by_cases hsame : other = attempt
    · obtain rfl : found = rows := by rw [← hrows, ← hsame, hfound, Option.getD_some]
      exact ⟨_, row, by rw [OrderedMap.get?_set, if_pos hsame], List.mem_append_right _ hmem, hday⟩
    · exact ⟨found, row, by rw [OrderedMap.get?_set, if_neg hsame, hfound], hmem, hday⟩
  refine ⟨fun other found row hfound hmem => ?_, hs.registered,
    fun other day hday hpos => hcharged other day (hs.markCharged other day hday hpos),
    fun other day reading hreading hpos =>
      hcharged other day (hs.readingCharged other day reading hreading hpos),
    hs.current, hs.exact⟩
  obtain ⟨-, rfl⟩ | ⟨-, hfound⟩ := OrderedMap.get?_set_eq_some.mp hfound
  · obtain hmem | hmem := List.mem_append.mp hmem
    · exact hadded row hmem
    · cases hbefore : s.history.get? attempt with
      | none =>
        rw [← hrows, hbefore] at hmem
        exact absurd hmem List.not_mem_nil
      | some before =>
        rw [← hrows, hbefore] at hmem
        exact hs.wellCharged attempt before row hbefore hmem
  · exact hs.wellCharged other found row hfound hmem

theorem wellCharged_inserted (hash : ContentHash δ) (residual : List ResidualLegExposure) :
    (inserted hash residual).WellCharged := by
  intro day
  rw [BoxExecutionAttemptProjectionSnapshot.bucketOn_of_ne (Option.some_ne_none day).symm]
  exact Nat.zero_le _

theorem metered_start : (start day : FlattenChargeRun δ).Metered where
  wellCharged _ _ _ h := nomatch h
  registered _ _ _ _ h := absurd h (Nat.lt_irrefl 0)
  markCharged _ _ _ h := absurd h (Nat.lt_irrefl 0)
  readingCharged _ _ _ h := absurd h List.not_mem_nil
  current _ _ _ := rfl
  exact _ _ _ := rfl

variable [DecidableEq δ] {hash : ContentHash δ} {t : FlattenChargeRun δ}
variable {label : FlattenChargeLabel δ}

theorem metered_step (hs : s.Metered) (hlabel : s.Acknowledgeable label)
    (hstep : step hash s label = some t) : t.Metered := by
  cases label with
  | insert attempt residual =>
    rw [step] at hstep
    split at hstep
    · cases hstep
    · rename_i hfresh
      obtain rfl := Option.some.inj hstep
      rw [OrderedMap.has, Bool.not_eq_true, Option.isSome_eq_false_iff,
        Option.isNone_iff_eq_none] at hfresh
      have hnone : (s.history.get? attempt).getD [] = [] := by rw [hfresh, Option.getD_none]
      exact hs.extend hnone fun row hrow =>
        List.mem_singleton.mp hrow ▸ wellCharged_inserted hash residual
  | commit attempt command =>
    rw [step] at hstep
    split at hstep
    · rename_i newest older hrows
      obtain rfl := Option.some.inj hstep
      refine hs.extend (by rw [hrows, Option.getD_some]) fun row hrow => ?_
      have hnewest := hs.wellCharged attempt _ newest hrows List.mem_cons_self
      have hrow := Option.mem_toList.mp hrow
      obtain h | h : _ = some newest ∨ _ = some (newest.update command) :=
        BoxExecutionAttemptProjectionSnapshot.transition_cases hash
      · rw [h] at hrow
        exact Option.some.inj hrow ▸ hnewest
      · rw [h] at hrow
        exact Option.some.inj hrow ▸ hnewest.update
    · exact Option.some.inj hstep ▸ hs
  | roll day => exact Option.some.inj hstep ▸ hs.roll hlabel
  | seed attempt version =>
    obtain ⟨row, hrow, rfl⟩ := Option.map_eq_some_iff.mp hstep
    exact hs.record hrow FlattenWatermarks.seed_observes (by simp) fun _ => rfl
  | adopt attempt version =>
    obtain ⟨row, hrow, rfl⟩ := Option.map_eq_some_iff.mp hstep
    obtain ⟨rows, hrows, hmem⟩ := mem_of_row hrow
    have hwell := hs.wellCharged attempt rows row hrows hmem
    obtain ⟨hobserves, hcharge⟩ := FlattenWatermarks.adopt_observes hwell s.currentDay
      fun hday => hs.registered attempt hlabel s.currentDay hday
    exact hs.record hrow hobserves (fun _ => hlabel) hcharge
  | reconcile attempt version =>
    obtain ⟨row, hrow, rfl⟩ := Option.map_eq_some_iff.mp hstep
    obtain ⟨rows, hrows, hmem⟩ := mem_of_row hrow
    have hwell := hs.wellCharged attempt rows row hrows hmem
    obtain ⟨hobserves, hcharge⟩ := FlattenWatermarks.reconcile_observes hwell rfl
    exact hs.record hrow hobserves (fun _ => hlabel) fun hday => hcharge _ hday
  | compact retain => exact Option.some.inj hstep ▸ hs.compact retain

/-- What the charges reported for an attempt and a day come to: each raises the bucket it
observes, a paisa is reported once if the first call that reaches it is a delivery and never
if it is a seed, and where the seeds come first their sum is the highest bucket called with
less the highest one seeded. -/
structure Converges (s : FlattenChargeRun δ) (attempt day : String) : Prop where
  positive : ∀ newCharge ∈ s.chargesFor attempt day, 0 < newCharge.charge
  raises : ∀ newCharge ∈ s.chargesFor attempt day, ∃ previous,
    newCharge.observation = some ⟨day, previous, previous + newCharge.charge⟩
  once : ∀ paisa, (s.chargesFor attempt day).countP (fun newCharge =>
    newCharge.observation.any fun o =>
      decide (o.previousChargesForDay ≤ paisa ∧ paisa < o.chargesForDay)) =
    if firstBilled paisa (s.readings attempt day) then 1 else 0
  sum : ∀ seeds deliveries, s.readings attempt day = seeds ++ deliveries →
    (∀ reading ∈ seeds, reading.billed = false) →
    (∀ reading ∈ deliveries, reading.billed = true) →
    ((s.chargesFor attempt day).map (·.charge)).sum =
      max (readingMark 0 seeds) (readingMark 0 deliveries) - readingMark 0 seeds

end FlattenChargeRun

open FlattenChargeRun in
/-- Over every order of commits, day rolls, seeds, deliveries and compactions, the charges
reported for a day while it is current bill every paisa of the day's bucket that a delivery
reaches first, once, and no other. -/
theorem flatten_charges_converge {δ : Type} [DecidableEq δ] (hash : ContentHash δ)
    {today : String} {labels : List (FlattenChargeLabel δ)} {s : FlattenChargeRun δ}
    (hheeds : Heeds (step hash) Acknowledgeable (start today) labels)
    (hrun : run (step hash) (start today) labels = some s) {attempt day : String}
    (hday : day ≠ "") : s.Converges attempt day := by
  have hmetered : s.Metered :=
    (Throughout.of_heeds (fun _ _ _ hs hlabel hstep => metered_step hs hlabel hstep)
      metered_start hheeds).last hrun
  have hexact := hmetered.exact attempt day hday
  refine ⟨fun newCharge hmem => ?_, fun newCharge hmem => ?_, fun paisa => ?_,
    fun seeds deliveries hreadings hseeds hdeliveries => ?_⟩
  · rw [hexact] at hmem
    obtain ⟨range, hrange, rfl⟩ := List.mem_map.mp hmem
    exact Nat.sub_pos_of_lt (range_of_mem_billedRanges hrange).2
  · rw [hexact] at hmem
    obtain ⟨range, hrange, rfl⟩ := List.mem_map.mp hmem
    refine ⟨range.1, ?_⟩
    rw [chargeOf, Nat.add_sub_cancel' (range_of_mem_billedRanges hrange).2.le]
  · rw [hexact, List.countP_map, ← countP_inRange_billedRanges (Nat.zero_le paisa)]
    refine List.countP_congr fun range _ => ?_
    simp [chargeOf, inRange]
  · have hbilled : readingMark 0 seeds + billedUnits (billedRanges 0 (seeds ++ deliveries)) =
        readingMark (readingMark 0 seeds) deliveries := by
      rw [billedRanges_append_of_free hseeds, billedUnits_of_billed hdeliveries]
    have hsum : ((s.chargesFor attempt day).map (·.charge)).sum =
        billedUnits (billedRanges 0 (seeds ++ deliveries)) := by
      rw [hexact, hreadings, List.map_map]
      rfl
    rw [hsum, ← readingMark_base, ← hbilled, Nat.add_sub_cancel_left]

namespace FlattenChargeRun.Sample

open ProjectionCas.Sample (flatten outstanding)

/-- An attempt is charged five paise, which the daily risk includes, then three more. Its rows
come again and late, and the next day charges it seven. -/
def acknowledged : List (FlattenChargeLabel PlainDigest) :=
  [.insert "R" (outstanding 75), .commit "R" (flatten 0 75 70 "2026-09-07"), .seed "R" 0,
    .commit "R" (flatten 1 70 67 "2026-09-07"), .adopt "R" 0, .reconcile "R" 1,
    .reconcile "R" 0, .compact ["R"], .roll "2026-09-08",
    .commit "R" (flatten 2 67 60 "2026-09-08"), .reconcile "R" 1, .adopt "R" 0]

/-- Five paise are delivered before a seed that includes eight. -/
def overtaken : List (FlattenChargeLabel PlainDigest) :=
  [.insert "R" (outstanding 75), .commit "R" (flatten 0 75 70 "2026-09-07"), .reconcile "R" 0,
    .commit "R" (flatten 1 70 67 "2026-09-07"), .seed "R" 0, .reconcile "R" 0]

/-- The charges of a day, the highest bucket delivered and the highest one seeded. -/
def summary (s : FlattenChargeRun PlainDigest) (attempt day : String) : Nat × Nat × Nat :=
  (((s.chargesFor attempt day).map (·.charge)).sum,
    readingMark 0 ((s.readings attempt day).filter (·.billed)),
    readingMark 0 ((s.readings attempt day).filter (!·.billed)))

end FlattenChargeRun.Sample

open FlattenChargeRun FlattenChargeRun.Sample in
theorem flatten_charges_converge_sample :
    ∃ s, run (step plainHash) (start "2026-09-07") acknowledged = some s ∧
      summary s "R" "2026-09-07" = (3, 8, 5) ∧ s.Converges "R" "2026-09-07" := by
  have hend : (run (step plainHash) (start "2026-09-07") acknowledged).any
      (fun s => summary s "R" "2026-09-07" = (3, 8, 5)) := by decide +kernel
  obtain ⟨s, hrun, hsummary⟩ := (Option.any_eq_true _ _).mp hend
  exact ⟨s, hrun, of_decide_eq_true hsummary,
    flatten_charges_converge plainHash (by decide +kernel) hrun (by decide)⟩

open FlattenChargeRun FlattenChargeRun.Sample in
/-- A seed that overtakes a delivery takes paise from the charges that the highest bucket
delivered, less the one seeded, does not account for. -/
theorem seed_overtakes_delivery :
    ¬ ∀ (labels : List (FlattenChargeLabel PlainDigest)) (s : FlattenChargeRun PlainDigest),
      Heeds (step plainHash) Acknowledgeable (start "2026-09-07") labels →
      run (step plainHash) (start "2026-09-07") labels = some s →
      ((summary s "R" "2026-09-07").1 : Int) =
        (summary s "R" "2026-09-07").2.1 - (summary s "R" "2026-09-07").2.2 := by
  intro h
  have hend : (run (step plainHash) (start "2026-09-07") overtaken).any
      (fun s => summary s "R" "2026-09-07" = (5, 8, 8)) := by decide +kernel
  obtain ⟨s, hrun, hsummary⟩ := (Option.any_eq_true _ _).mp hend
  have hclaim := h overtaken s (by decide +kernel) hrun
  rw [of_decide_eq_true hsummary] at hclaim
  exact absurd hclaim (by decide)

end Strikedge.ExecutionGateway
