import Strikedge.PaperLegs.Lineup

/-!
# Sequential release

The loop releases the next leg behind a fill at the arrival of a leg. The tick callback does not:
a leg that a tick completes releases nothing, no leg is left to wait for, and the run ends with
the rest unresolved.

The run is in turn as long as no tick completes a leg that is not the last, and the loop does not
run out of iterations.
-/

namespace Strikedge.PaperLegs

open Orders Machine

def LegState.SubmittedAt (st : LegState) (submitAt : ℚ) : Prop :=
  st.leg.status ≠ .created ∧ st.cause ≠ some .notSubmitted ∧ st.leg.submitAt = submitAt

/-- A filled leg has released the next, and a returned leg is unreleased only behind a leg that
ended without a complete fill. -/
structure RunState.InTurn (s : RunState) : Prop where
  submitted : ∀ (i : ℕ) (st next : LegState) (filledAt : ℚ), s.legs[i]? = some st →
    st.leg.status = .filled → st.leg.fillAt = some filledAt → s.legs[i + 1]? = some next →
    next.SubmittedAt filledAt
  recorded : s.point = .ended → ∀ (j : ℕ) (st : LegState), s.legs[j]? = some st → st.Unreleased →
    ∃ i < j, ∃ other : LegState, s.legs[i]? = some other ∧
      other.leg.status.terminal = true ∧ other.leg.status ≠ .filled

/-- What is asked as long as no abort is requested. -/
def RunState.Released (s : RunState) : Prop := s.aborted = none → s.InTurn

/-- A tick covers no leg that another one waits for, and the loop does not run out of iterations
while a leg that has been submitted works without a recorded reason. -/
def LegRun.FillsOnArrival (r : LegRun) (s : RunState) (a : LegAction) : Prop :=
  s.aborted = none →
    match a with
    | .tick now changed quotes reserved =>
      ∀ i st, s.legs[i]? = some st → i + 1 < s.legs.length → st.Wakes changed now →
        ¬r.Covers st now (quotes st.req.token) (reserved i)
    | .loop _ _ =>
      s.guard < maxIterations ∨
        ∀ st ∈ s.legs, st.done = false → st.leg.status ≠ .created → st.leg.failReason ≠ none
    | .wake _ _ => True

section Line

open LegState

variable {r : LegRun} {now : ℚ} {legs : List LegState} {st : LegState} {i k : ℕ}

variable {s t : RunState}

/-- In a line, every filled leg has released the next as long as the current one has nothing
ahead. -/
theorem submitted_iff (hgood : ∀ st ∈ legs, st.Good now) (hline : Lineup legs k) :
    (∀ (i : ℕ) (st next : LegState) (filledAt : ℚ), legs[i]? = some st →
        st.leg.status = .filled → st.leg.fillAt = some filledAt → legs[i + 1]? = some next →
        next.SubmittedAt filledAt) ↔ NothingAhead legs k := by
  constructor
  · intro h st hst hfilled
    cases hnext : legs[k + 1]? with
    | none => rfl
    | some next =>
        exfalso
        have hplaced := (hgood st (List.mem_of_getElem? hst)).placed
        rw [Placed, hfilled] at hplaced
        obtain ⟨filledAt, hfillAt⟩ := Option.ne_none_iff_exists'.mp hplaced
        obtain ⟨hcreated, hcause, -⟩ := h k st next filledAt hst hfilled hfillAt hnext
        obtain ⟨hstatus, -⟩ | ⟨-, hskipped⟩ := hline.ahead_cases (Nat.lt_succ_self k) hnext
        · exact hcreated hstatus
        · exact hcause hskipped
  · intro h i st next filledAt hst hfilled hfillAt hnext
    obtain hlt | rfl | hlt := lt_trichotomy i k
    · have hreleased := hline.released i st next hlt hst hnext
      have hsubmitAt : next.leg.submitAt = filledAt :=
        Option.some.inj (hreleased.symm.trans hfillAt)
      obtain hlt' | rfl := Nat.lt_or_eq_of_le (Nat.succ_le_of_lt hlt)
      · obtain ⟨hstatus, hreason⟩ := hline.behind (i + 1) next hlt' hnext
        refine ⟨by simp [hstatus], ?_, hsubmitAt⟩
        exact fun hcause => not_unreleased_of_none hreason (.inl hcause)
      · obtain ⟨hcreated, hunreleased⟩ := hline.current next hnext
        exact ⟨hcreated, fun hcause => hunreleased (.inl hcause), hsubmitAt⟩
    · rw [h st hst hfilled] at hnext
      cases hnext
    · obtain ⟨hstatus, -⟩ | ⟨hstatus, -⟩ := hline.ahead_cases hlt hst
      · rw [hfilled] at hstatus
        cases hstatus
      · rw [hfilled] at hstatus
        cases hstatus

/-- Before the run has ended only the releases are asked for. -/
theorem inTurn_iff (hgood : ∀ st ∈ s.legs, st.Good now) (hline : Lineup s.legs k)
    (hpoint : s.point ≠ .ended) : s.InTurn ↔ NothingAhead s.legs k := by
  rw [← submitted_iff hgood hline]
  exact ⟨fun h => h.submitted, fun h => ⟨h, fun hended => absurd hended hpoint⟩⟩

theorem close_of_open (hopen : st.done = false) (hgood : st.Good now) (closedAt : ℚ) :
    (st.close closedAt).leg.status ≠ .filled ∧ (st.close closedAt).leg.status ≠ .created ∧
      (st.close closedAt).leg.submitAt = st.leg.submitAt ∧
      (st.close closedAt).cause =
        some (st.leg.failReason.getD FailCause.unresolved.reason).cause := by
  rw [close, if_neg (by simp [hopen]), abandon,
    if_neg (by simp [hgood.not_terminal hopen])]
  refine ⟨?_, ?_, rfl, rfl⟩
  · simp only
    split
    · simp
    · simp
  · simp only
    split
    · simp
    · simp

/-- A leg that works when the loop is left is unresolved only if it records no other reason. -/
theorem close_unreleased (hopen : st.done = false) (hgood : st.Good now)
    (hengaged : st.Engaged) (closedAt : ℚ) :
    (st.close closedAt).Unreleased ↔ st.leg.failReason = none := by
  obtain ⟨-, -, -, hcause⟩ := close_of_open hopen hgood closedAt
  rw [Unreleased, hcause]
  cases hreason : st.leg.failReason with
  | none => exact ⟨fun _ => rfl, fun _ => .inr rfl⟩
  | some reason =>
      have hunreleased := hengaged.2
      rw [Unreleased, cause, hreason] at hunreleased
      exact ⟨fun hclosed => absurd hclosed hunreleased, by simp⟩

theorem close_of_done (hdone : st.done = true) (closedAt : ℚ) : st.close closedAt = st := by
  rw [close, if_pos hdone]

theorem getElem?_finish (s : RunState) (i : ℕ) :
    s.finish.legs[i]? = s.legs[i]?.map (LegState.close s.now) :=
  List.getElem?_map

/-- The legs behind the current one are closed as they are. -/
theorem close_behind (hgood : ∀ st ∈ legs, st.Good now) (hline : Lineup legs k) (hlt : i < k)
    (hst : legs[i]? = some st) (closedAt : ℚ) : st.close closedAt = st := by
  apply close_of_done
  rw [(hgood st (List.mem_of_getElem? hst)).done_eq, (hline.behind i st hlt hst).1]
  rfl

/-- The loop is left in turn exactly if no leg works without a reason. -/
theorem finish_inTurn_iff (hgood : ∀ st ∈ s.legs, st.Good s.now) (hline : Lineup s.legs k)
    (hnothing : NothingAhead s.legs k) :
    s.finish.InTurn ↔ ∀ st ∈ s.legs, st.done = false → st.leg.status ≠ .created →
      st.leg.failReason ≠ none := by
  have hclosed : ∀ (j : ℕ) (st' : LegState), s.finish.legs[j]? = some st' →
      ∃ st : LegState, s.legs[j]? = some st ∧ st' = st.close s.now := by
    intro j st' hst'
    rw [getElem?_finish] at hst'
    obtain ⟨st, hst, hsame⟩ := Option.map_eq_some_iff.mp hst'
    exact ⟨st, hst, hsame.symm⟩
  constructor
  · intro h st hmem hopen hcreated hnone
    obtain ⟨i, hst⟩ := List.mem_iff_getElem?.mp hmem
    have hst' := hgood st hmem
    obtain rfl := hline.eq_current hst hst' hopen hcreated
    have hunreleased := (close_unreleased hopen hst' (hline.current st hst) s.now).mpr hnone
    have hfinish : s.finish.legs[i]? = some (st.close s.now) := by
      rw [getElem?_finish, hst, Option.map_some]
    obtain ⟨j, hlt, other, hother, -, hfilled⟩ := h.recorded rfl i _ hfinish hunreleased
    obtain ⟨before, hbefore, rfl⟩ := hclosed j other hother
    rw [close_behind hgood hline hlt hbefore] at hfilled
    exact hfilled (hline.behind j before hlt hbefore).1
  · intro h
    have hsubmitted := (submitted_iff hgood hline).mpr hnothing
    constructor
    · intro i st' next' filledAt hst' hfilled hfillAt hnext'
      obtain ⟨st, hst, rfl⟩ := hclosed i st' hst'
      obtain ⟨next, hnext, rfl⟩ := hclosed (i + 1) next' hnext'
      have hdone : st.done = true := by
        by_contra hopen
        exact (close_of_open (Bool.not_eq_true _ ▸ hopen)
          (hgood st (List.mem_of_getElem? hst)) s.now).1 hfilled
      rw [close_of_done hdone] at hfilled hfillAt
      obtain ⟨hcreated, hcause, hsubmitAt⟩ :=
        hsubmitted i st next filledAt hst hfilled hfillAt hnext
      by_cases hnextDone : next.done = true
      · rw [close_of_done hnextDone]
        exact ⟨hcreated, hcause, hsubmitAt⟩
      · have hopen : next.done = false := Bool.not_eq_true _ ▸ hnextDone
        obtain ⟨-, hcreated', hsubmitAt', hcause'⟩ :=
          close_of_open hopen (hgood next (List.mem_of_getElem? hnext)) s.now
        refine ⟨hcreated', ?_, hsubmitAt'.trans hsubmitAt⟩
        rw [hcause']
        intro hnot
        cases hreason : next.leg.failReason with
        | none =>
            rw [hreason] at hnot
            cases Option.some.inj hnot
        | some reason =>
            rw [cause, hreason] at hcause
            rw [hreason] at hnot
            exact hcause hnot
    · intro _ j st' hst' hunreleased
      obtain ⟨st, hst, rfl⟩ := hclosed j st' hst'
      obtain hlt | rfl | hlt := lt_trichotomy j k
      · rw [close_behind hgood hline hlt hst] at hunreleased
        exact absurd hunreleased (not_unreleased_of_none (hline.behind j st hlt hst).2)
      · exfalso
        have hengaged := hline.current st hst
        by_cases hdone : st.done = true
        · rw [close_of_done hdone] at hunreleased
          exact hengaged.2 hunreleased
        · have hopen : st.done = false := Bool.not_eq_true _ ▸ hdone
          have hmem := List.mem_of_getElem? hst
          exact h st hmem hopen hengaged.1
            ((close_unreleased hopen (hgood st hmem) hengaged s.now).mp hunreleased)
      · obtain ⟨hbound, -⟩ := List.getElem?_eq_some_iff.mp hst
        obtain ⟨current, hcurrent⟩ : ∃ current, s.legs[k]? = some current :=
          ⟨s.legs[k], List.getElem?_eq_getElem (by omega)⟩
        have hcurrentGood := hgood current (List.mem_of_getElem? hcurrent)
        have hfinish : s.finish.legs[k]? = some (current.close s.now) := by
          rw [getElem?_finish, hcurrent, Option.map_some]
        refine ⟨k, hlt, _, hfinish, ?_, ?_⟩
        · have hmoved := finish_advances s k
          rw [hcurrent, hfinish] at hmoved
          cases hmoved with
          | some hadvance =>
              rw [← (hadvance hcurrentGood).1.good.done_eq]
              exact current.close_done s.now
        · by_cases hdone : current.done = true
          · rw [close_of_done hdone]
            intro hfilled
            have hlast := hnothing current hcurrent hfilled
            rw [List.getElem?_eq_none_iff] at hlast
            omega
          · exact (close_of_open (Bool.not_eq_true _ ▸ hdone) hcurrentGood s.now).1

/-- Without a boundary only legs that were never released are open. -/
theorem created_of_nextBoundary (hgood : ∀ st ∈ legs, st.Good now)
    (h : nextBoundary legs = none) : ∀ st ∈ legs, st.done = false → st.leg.status = .created := by
  intro st hst hopen
  rw [nextBoundary, List.min?_eq_none_iff] at h
  have hnone : st.boundary = none := by
    cases hboundary : st.boundary with
    | none => rfl
    | some due =>
        have hdue : due ∈ legs.filterMap LegState.boundary :=
          List.mem_filterMap.mpr ⟨st, hst, hboundary⟩
        rw [h] at hdue
        cases hdue
  have hplaced := (hgood st hst).placed
  have hterminal := (hgood st hst).not_terminal hopen
  rw [boundary, if_neg (by rw [hopen]; nofun)] at hnone
  rw [Placed] at hplaced
  cases hstatus : st.leg.status with
  | created => rfl
  | inFlight =>
      rw [hstatus] at hnone
      cases hnone
  | pending =>
      rw [hstatus] at hnone hplaced
      exact absurd hnone hplaced.1
  | partiallyFilled =>
      rw [hstatus] at hnone hplaced
      exact absurd hnone hplaced.1
  | cancelRequested =>
      rw [hstatus] at hnone hplaced
      exact absurd hnone hplaced.2
  | filled | timedOut | cancelled | failed =>
      rw [hstatus] at hterminal
      cases hterminal

/-- What every run keeps: sound legs, in a line as long as no abort is requested. -/
structure RunState.InLine (r : LegRun) (s : RunState) : Prop where
  sound : s.Sound r
  line : s.aborted = none → s.point ≠ .ended → ∃ k, Lineup s.legs k

/-- A state that is in turn, in a loop that has not been left. -/
theorem RunState.InLine.onTurn (h : s.InLine r) (hreleased : s.Released) (habort : s.aborted = none)
    (hpoint : s.point ≠ .ended) : OnTurn s.now s.legs := by
  obtain ⟨k, hline⟩ := h.line habort hpoint
  exact ⟨h.sound.good, k, hline,
    (inTurn_iff h.sound.good hline hpoint).mp (hreleased habort)⟩

theorem OnTurn.inTurn (h : OnTurn now s.legs) (hpoint : s.point ≠ .ended) : s.InTurn := by
  obtain ⟨k, hline, hnothing⟩ := h.line
  exact (inTurn_iff h.good hline hpoint).mpr hnothing

theorem advance_aborted (s : RunState) (reserved : ℕ → ℚ → ℕ) :
    (r.advance s reserved).aborted = s.aborted := by
  rw [LegRun.advance]
  split
  · rfl
  · split
    · rfl
    · rfl

/-- Once an abort is requested it stays requested. -/
theorem step_aborted {a : LegAction} (h : r.step s a = some t) (habort : s.aborted ≠ none) :
    t.aborted ≠ none := by
  obtain ⟨abort, reserved, -, -, rfl⟩ | ⟨next, now, reserved, -, -, -, rfl⟩ |
    ⟨next, now, changed, quotes, reserved, -, -, -, rfl⟩ := step_cases h
  · rw [LegRun.iterate]
    split
    · exact habort
    · rw [advance_aborted]
      cases abort with
      | none => exact habort
      | some detail =>
          rw [LegRun.sweepAbort, if_pos habort]
          exact habort
  · rw [LegRun.resume]
    split
    · exact habort
    · exact habort
  · exact habort

/-- What is asked of the state behind a step, and of the step. -/
def LegRun.StepsInTurn (r : LegRun) (s : RunState) (a : LegAction) (t : RunState) : Prop :=
  (t.aborted = none → t.point ≠ .ended → ∃ k, Lineup t.legs k) ∧
    (t.Released ↔ r.FillsOnArrival s a)

theorem stepsInTurn_of_aborted {a : LegAction} (hs : s.aborted ≠ none) (ht : t.aborted ≠ none) :
    r.StepsInTurn s a t :=
  ⟨fun hnone => absurd hnone ht,
    fun _ hnone => absurd hnone hs, fun _ hnone => absurd hnone ht⟩

/-- A step behind which the legs are on turn. -/
theorem stepsInTurn_of_onTurn {a : LegAction} (h : OnTurn now t.legs) (hpoint : t.point ≠ .ended)
    (hheeds : r.FillsOnArrival s a) : r.StepsInTurn s a t := by
  refine ⟨fun _ _ => ?_, fun _ => hheeds, fun _ _ => h.inTurn hpoint⟩
  obtain ⟨k, hline, -⟩ := h.line
  exact ⟨k, hline⟩

theorem stepsInTurn_finish {a : LegAction} (h : OnTurn t.now t.legs) (habort : t.aborted = none)
    (hheeds : r.FillsOnArrival s a ↔ ∀ st ∈ t.legs, st.done = false → st.leg.status ≠ .created →
      st.leg.failReason ≠ none) :
    r.StepsInTurn s a t.finish := by
  obtain ⟨k, hline, hnothing⟩ := h.line
  refine ⟨fun _ hpoint => absurd rfl hpoint, ?_⟩
  rw [hheeds, ← finish_inTurn_iff h.good hline hnothing]
  exact ⟨fun hreleased => hreleased habort, fun hturn _ => hturn⟩

theorem advance_inTurn (hmode : r.Sequential) {abort : Option String}
    {asked reserved : ℕ → ℚ → ℕ} (h : OnTurn t.now t.legs) (htop : t.point = .top)
    (habort : t.aborted = none) (hguard : s.guard < maxIterations) :
    r.StepsInTurn s (.loop abort asked) (r.advance t reserved) := by
  have hheeds : r.FillsOnArrival s (.loop abort asked) := fun _ => .inl hguard
  rw [LegRun.advance]
  split
  · rename_i hnone
    refine stepsInTurn_finish h habort ⟨fun _ st hst hopen hcreated => ?_, fun _ => hheeds⟩
    exact absurd (created_of_nextBoundary h.good hnone st hst hopen) hcreated
  · split
    · exact stepsInTurn_of_onTurn h (by simp) hheeds
    · refine stepsInTurn_of_onTurn (h.atBoundary hmode t.quotes reserved) ?_ hheeds
      simp only
      rw [htop]
      simp

theorem iterate_inTurn (hmode : r.Sequential) (h : OnTurn s.now s.legs) (htop : s.point = .top)
    (habort : s.aborted = none) (abort : Option String) (reserved : ℕ → ℚ → ℕ) :
    r.StepsInTurn s (.loop abort reserved) (r.iterate s abort reserved) := by
  rw [LegRun.iterate]
  split
  · rename_i hguard
    refine stepsInTurn_finish h habort ⟨fun hheeds => ?_, fun hreasons _ => .inr hreasons⟩
    exact (hheeds habort).resolve_left (by omega)
  · rename_i hguard
    cases abort with
    | none => exact advance_inTurn hmode h htop habort (by omega)
    | some detail =>
        have hrequested : (r.advance (r.sweepAbort { s with guard := s.guard + 1 }
            (some detail)) reserved).aborted ≠ none := by
          rw [advance_aborted, LegRun.sweepAbort, if_neg (not_not.mpr habort)]
          simp
        exact ⟨fun hnone => absurd hnone hrequested, fun _ _ => .inl (by omega),
          fun _ hnone => absurd hnone hrequested⟩

theorem resume_inTurn (hmode : r.Sequential) (h : OnTurn s.now s.legs) {next later : ℚ}
    (hle : s.now ≤ later) (reserved : ℕ → ℚ → ℕ) :
    r.StepsInTurn s (.wake later reserved) (r.resume s next later reserved) := by
  have hlater : OnTurn later s.legs := ⟨fun st hst => (h.good st hst).later hle, h.line⟩
  rw [LegRun.resume]
  split
  · exact stepsInTurn_of_onTurn hlater (by simp) fun _ => trivial
  · exact stepsInTurn_of_onTurn (hlater.atBoundary hmode s.quotes reserved) (by simp) fun _ => trivial

theorem step_inTurn (hmode : r.Sequential) {a : LegAction} (hs : s.InLine r)
    (hreleased : s.Released) (hstep : r.step s a = some t) : r.StepsInTurn s a t := by
  by_cases habort : s.aborted = none
  · obtain ⟨abort, reserved, rfl, htop, rfl⟩ | ⟨next, later, reserved, rfl, hwaiting, hle, rfl⟩ |
      ⟨next, later, changed, quotes, reserved, rfl, hwaiting, hle, rfl⟩ := step_cases hstep
    · exact iterate_inTurn hmode (hs.onTurn hreleased habort (by rw [htop]; nofun)) htop habort
        abort reserved
    · exact resume_inTurn hmode (hs.onTurn hreleased habort (by rw [hwaiting]; nofun)) hle reserved
    · have hturn := hs.onTurn hreleased habort (by rw [hwaiting]; nofun)
      obtain ⟨k, hline, hnothing⟩ := hturn.line
      have hgood : ∀ st ∈ s.legs, st.Good later := fun st hst => (hturn.good st hst).later hle
      obtain ⟨htick, hcovers⟩ :=
        OnTurn.tick (r := r) hgood hline hnothing changed quotes reserved
      refine ⟨fun _ _ => ⟨k, htick⟩, ?_⟩
      have hafter := good_of_advances hgood
        (onQuotes_advances (r := r) changed quotes reserved s.legs)
      have hiff := inTurn_iff
        (s := { s with
          now := later
          quotes := quotes
          legs := r.onQuotes later changed quotes reserved s.legs })
        hafter htick (by simp only; rw [hwaiting]; nofun)
      rw [hcovers] at hiff
      exact ⟨fun h _ => hiff.mp (h habort), fun h _ => hiff.mpr (h habort)⟩
  · exact stepsInTurn_of_aborted habort (step_aborted hstep habort)

theorem initialLegs_line (hmode : r.Sequential) :
    Lineup r.initialLegs 0 ∧ NothingAhead r.initialLegs 0 := by
  have hget : ∀ i, r.initialLegs[i]? = r.requests[i]?.map fun req =>
      if r.Sequential ∧ i ≠ 0 then LegState.blank req
      else r.submit i r.submitAt (r.plannedArrival i) (LegState.blank req) := fun i => by
    rw [LegRun.initialLegs, List.getElem?_mapIdx]
  have hfirst : ∀ st : LegState, r.initialLegs[0]? = some st →
      st.leg.status = .inFlight ∧ st.leg.failReason = none := by
    intro st hst
    rw [hget] at hst
    obtain ⟨req, -, rfl⟩ := Option.map_eq_some_iff.mp hst
    rw [if_neg fun hlater => hlater.2 rfl]
    cases r.plannedArrival 0 with
    | none => exact ⟨rfl, rfl⟩
    | some planned => exact ⟨rfl, rfl⟩
  constructor
  · constructor
    · exact fun i st hlt => absurd hlt (Nat.not_lt_zero i)
    · exact fun i st next hlt => absurd hlt (Nat.not_lt_zero i)
    · intro st hst
      obtain ⟨hstatus, hreason⟩ := hfirst st hst
      exact ⟨by simp [hstatus], not_unreleased_of_none hreason⟩
    · refine .inl fun j st hlt hst => ?_
      rw [hget] at hst
      obtain ⟨req, -, rfl⟩ := Option.map_eq_some_iff.mp hst
      rw [if_pos ⟨hmode, by omega⟩]
      exact ⟨rfl, rfl⟩
  · intro st hst hfilled
    rw [(hfirst st hst).1] at hfilled
    cases hfilled

end Line

/-- Every leg is released when the one before it is filled, in the runs in which no tick completes
a leg that another one waits for, and no others. -/
theorem released_iff_fillsOnArrival (r : LegRun) (hmode : r.Sequential) (now : ℚ)
    (quotes : ℕ → Option BoxQuote) (as : List LegAction) :
    Throughout r.step RunState.Released (r.start now quotes) as ↔
      Heeds r.step r.FillsOnArrival (r.start now quotes) as := by
  obtain ⟨hline, hnothing⟩ := initialLegs_line hmode
  have hsound := start_sound (r := r) now quotes
  refine throughout_iff_heeds (L := fun _ => True) (I := RunState.InLine r) ?_ ?_
    ⟨hsound, fun _ _ => ⟨0, hline⟩⟩ ?_ fun _ _ => trivial
  · intro s a t _ hs hreleased _ hstep
    exact ⟨(hs.sound.step hstep).1, (step_inTurn hmode hs hreleased hstep).1⟩
  · intro s a t _ hs hreleased hstep
    exact (step_inTurn hmode hs hreleased hstep).2
  · exact fun _ => (inTurn_iff hsound.good hline nofun).mpr hnothing

namespace TwoLegs

def request (token : ℕ) : LegOrderRequest where
  side := .buy
  token := token
  tickSize := none
  detectedPrice := some 100
  quantity := 75
  pricing := none

def legRun : LegRun where
  cfg :=
    { legExecutionMode := .sequential
      legTimeoutMs := 500
      simulatedLatencyMs := 10
      quoteMaxAgeMs := 15000
      queueModel := .none
      queueLiquidityHaircutPct := 0
      legMaxChaseTicks := 2
      unwindMaxChaseTicks := 5
      defaultTickSize := 5 / 100 }
  phase := .entry
  requests := [request 1, request 2]
  submitAt := 0
  latencyMs := none
  latencySource := none
  arrivalPlanner := none
  cancelRace := none

/-- A book with so much to sell at the limit. -/
def book (qty : ℕ) (receivedAt : ℚ) : ℕ → Option BoxQuote := fun _ =>
  some ⟨[], [⟨100, qty⟩], 1, receivedAt⟩

def free : ℕ → ℚ → ℕ := fun _ _ => 0

/-- Part of the first leg fills at its arrival, the rest from a tick. -/
def completedByTick : List LegAction :=
  [.loop none free, .wake 10 free, .loop none free, .tick 30 [1] (book 45 30) free,
    .wake 30 free, .loop none free]

def outcome (st : LegState) : PaperLegStatus × Option FailCause := (st.leg.status, st.cause)

def shape (s : RunState) : List (PaperLegStatus × Option FailCause) × Bool × Option String :=
  (s.legs.map outcome, decide (s.point = .ended), s.aborted)

theorem run_completedByTick :
    (run legRun.step (legRun.start 0 (book 30 0)) completedByTick).map shape =
      some ([(.filled, none), (.failed, some .unresolved)], true, none) := by
  decide +kernel

end TwoLegs

/-- A first leg that fills at its arrival releases the second. -/
theorem released_iff_fillsOnArrival_twoLegs :
    Throughout TwoLegs.legRun.step RunState.Released
        (TwoLegs.legRun.start 0 (TwoLegs.book 75 0)) [.loop none TwoLegs.free] :=
  (released_iff_fillsOnArrival TwoLegs.legRun rfl 0 (TwoLegs.book 75 0) _).mpr
    fun _ _ => ⟨fun _ => .inl (by decide), trivial⟩

/-- The leg behind one that a tick completes is left unresolved. -/
theorem tick_strands_next_leg :
    ¬∀ (r : LegRun), r.Sequential → ∀ (now : ℚ) (quotes : ℕ → Option BoxQuote)
      (as : List LegAction), Throughout r.step RunState.Released (r.start now quotes) as := by
  intro h
  obtain ⟨s, hrun, hshape⟩ := Option.map_eq_some_iff.mp TwoLegs.run_completedByTick
  have hreleased := (h TwoLegs.legRun rfl 0 (TwoLegs.book 30 0) TwoLegs.completedByTick).last hrun
  simp only [TwoLegs.shape, Prod.mk.injEq, decide_eq_true_eq] at hshape
  obtain ⟨hlegs, hended, habort⟩ := hshape
  have hget : ∀ i : ℕ, s.legs[i]?.map TwoLegs.outcome =
      [(PaperLegStatus.filled, none), (.failed, some FailCause.unresolved)][i]? := fun i => by
    rw [← hlegs, List.getElem?_map]
  obtain ⟨second, hsecond, hunresolved⟩ := Option.map_eq_some_iff.mp (hget 1)
  obtain ⟨i, hlt, first, hfirst, -, hfilled⟩ := (hreleased habort).recorded hended 1 second hsecond
    (.inr (Prod.ext_iff.mp hunresolved).2)
  obtain rfl : i = 0 := by omega
  obtain ⟨other, hother, hstatus⟩ := Option.map_eq_some_iff.mp (hget 0)
  obtain rfl := Option.some.inj (hfirst.symm.trans hother)
  exact hfilled (Prod.ext_iff.mp hstatus).1

end Strikedge.PaperLegs
