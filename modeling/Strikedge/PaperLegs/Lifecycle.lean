import Strikedge.Machine.Entrywise
import Strikedge.PaperLegs.Order

/-!
# The lifecycle of the orders

Fills come from the loop and from ticks, and between them a leg arrives, times out, is cancelled
and has its cancel confirmed. In whatever order this happens each leg stays good, and a leg that
is terminal does not change any more. Behind the loop every leg is terminal.

The prices of the slices are recorded to the paisa. A limit of an adapter that is not whole paise
can be passed by the recorded price.
-/

namespace Strikedge.PaperLegs

open Orders OrderPricing Machine

section Leg

variable {r : LegRun} {now : ℚ} {st st' st'' : LegState}

namespace LegState

/-- What a step may do to a leg: nothing, once the leg is done. -/
def Advances (now : ℚ) (st st' : LegState) : Prop :=
  st.Good now → st.Follows now st' ∧ (st.done = true → st' = st)

theorem Advances.refl (st : LegState) : st.Advances now st := fun h => ⟨.refl h, fun _ => rfl⟩

theorem Advances.trans (h : st.Advances now st') (h' : st'.Advances now st'') :
    st.Advances now st'' := by
  intro hgood
  obtain ⟨hfollows, hkept⟩ := h hgood
  obtain ⟨hfollows', hkept'⟩ := h' hfollows.good
  refine ⟨hfollows.trans hfollows', ?_⟩
  intro hdone
  have hsame := hkept hdone
  rw [hsame] at hkept'
  exact hkept' hdone

theorem Advances.of_open (hopen : st.done = false)
    (h : st.Good now → st.Follows now st') : st.Advances now st' := by
  intro hgood
  refine ⟨h hgood, ?_⟩
  intro hdone
  rw [hopen] at hdone
  cases hdone

end LegState

end Leg

section Sweep

open LegState

variable {r : LegRun} {now : ℚ} {legs : List LegState} {st : LegState}

theorem entrywise_trans {legs legs' legs'' : List LegState}
    (h : Entrywise (Advances now) legs legs') (h' : Entrywise (Advances now) legs' legs'') :
    Entrywise (Advances now) legs legs'' :=
  h.trans (fun _ _ _ => Advances.trans) h'

theorem entrywise_refl (legs : List LegState) : Entrywise (Advances now) legs legs :=
  .refl Advances.refl legs

theorem entrywise_set {i : ℕ} {st' : LegState} (hst : legs[i]? = some st)
    (h : st.Advances now st') : Entrywise (Advances now) legs (legs.set i st') :=
  .set Advances.refl hst h

theorem cancelRemaining_advances (legs : List LegState) (i : ℕ) :
    Entrywise (Advances now) legs (cancelRemaining legs i) := by
  apply Entrywise.mapIdx
  intro j st _
  split
  · rename_i hwaiting
    exact .of_open hwaiting.2.1 fun hgood => hgood.notSubmitted hwaiting.2.1
  · exact .refl st

theorem submitNext_advances (legs : List LegState) (i : ℕ) :
    Entrywise (Advances now) legs (r.submitNext legs i now) := by
  rw [LegRun.submitNext]
  split
  · exact entrywise_refl legs
  · rename_i next hnext
    split
    · exact entrywise_refl legs
    · rename_i hcreated
      apply entrywise_set hnext
      intro hgood
      refine ⟨hgood.submit (not_not.mp hcreated) now none, ?_⟩
      intro hdone
      have hterminal := hgood.done_eq
      rw [hdone, not_not.mp hcreated] at hterminal
      cases hterminal

theorem arrive_advances (quotes : ℕ → Option BoxQuote) (reserved : ℕ → ℚ → ℕ)
    (legs : List LegState) (i : ℕ) :
    Entrywise (Advances now) legs (r.arrive now quotes reserved legs i) := by
  rw [LegRun.arrive]
  split
  · exact entrywise_refl legs
  · rename_i st hst
    split
    · exact entrywise_refl legs
    · rename_i hvisited
      obtain ⟨hdone, hvisited⟩ := not_or.mp hvisited
      obtain ⟨hflight, -⟩ := not_or.mp hvisited
      have hopen : st.done = false := Bool.not_eq_true _ ▸ hdone
      have hflight := not_not.mp hflight
      simp only
      split
      · have hset : Entrywise (Advances now) legs
            (legs.set i (r.expire i now (r.arriveAtExchange now st))) := by
          apply entrywise_set hst
          refine .of_open hopen fun hgood => ?_
          have harrived := hgood.arriveAtExchange (r := r) hflight hopen
          exact harrived.trans (harrived.good.expire hopen)
        split
        · exact entrywise_trans hset (cancelRemaining_advances _ i)
        · exact hset
      · rename_i hlate
        have hset : Entrywise (Advances now) legs
            (legs.set i (r.attempt now quotes (reserved i) (r.arriveAtExchange now st)).1) := by
          apply entrywise_set hst
          refine .of_open hopen fun hgood => ?_
          have harrived := hgood.arriveAtExchange (r := r) hflight hopen
          exact harrived.trans
            (harrived.good.attempt (hgood.arrived_fillable hflight hopen hlate) quotes _)
        split
        · exact entrywise_trans hset (submitNext_advances _ i)
        · exact hset

theorem pull_advances (legs : List LegState) (i : ℕ) :
    Entrywise (Advances now) legs (r.pull now legs i) := by
  rw [LegRun.pull]
  split
  · exact entrywise_refl legs
  · rename_i st hst
    split
    · exact entrywise_refl legs
    · rename_i hvisited
      have hopen : st.done = false := Bool.not_eq_true _ ▸ (not_or.mp hvisited).1
      have hset : Entrywise (Advances now) legs (legs.set i (r.expire i now st)) :=
        entrywise_set hst (.of_open hopen fun hgood => hgood.expire hopen)
      simp only
      split
      · exact entrywise_trans hset (cancelRemaining_advances _ i)
      · exact hset

theorem confirm_advances (legs : List LegState) (i : ℕ) :
    Entrywise (Advances now) legs (r.confirm now legs i) := by
  rw [LegRun.confirm]
  split
  · exact entrywise_refl legs
  · rename_i st hst
    split
    · exact entrywise_refl legs
    · rename_i hvisited
      have hopen : st.done = false := Bool.not_eq_true _ ▸ (not_or.mp hvisited).1
      have hset : Entrywise (Advances now) legs (legs.set i (r.confirmCancel now st)) :=
        entrywise_set hst (.of_open hopen fun hgood => hgood.confirmCancel hopen)
      simp only
      split
      · exact entrywise_trans hset (cancelRemaining_advances _ i)
      · exact hset

theorem sweep_advances {visit : List LegState → ℕ → List LegState}
    (h : ∀ legs i, Entrywise (Advances now) legs (visit legs i)) (legs : List LegState) :
    Entrywise (Advances now) legs (sweep visit legs) :=
  .foldl Advances.refl (fun _ _ _ => Advances.trans) h _ legs

theorem atBoundary_advances (quotes : ℕ → Option BoxQuote) (reserved : ℕ → ℚ → ℕ)
    (legs : List LegState) :
    Entrywise (Advances now) legs (r.atBoundary now quotes reserved legs) :=
  entrywise_trans (sweep_advances (arrive_advances quotes reserved) legs)
    (entrywise_trans (sweep_advances pull_advances _) (sweep_advances confirm_advances _))

theorem onQuotes_advances (changed : List ℕ) (quotes : ℕ → Option BoxQuote)
    (reserved : ℕ → ℚ → ℕ) (legs : List LegState) :
    Entrywise (Advances now) legs (r.onQuotes now changed quotes reserved legs) := by
  apply Entrywise.mapIdx
  intro i st _
  split
  · rename_i hwakes
    exact .of_open hwakes.1 fun hgood => hgood.attempt (hwakes.fillable hgood) quotes _
  · exact .refl st

variable {s t : RunState}

theorem finish_advances (s : RunState) : Entrywise (Advances s.now) s.legs s.finish.legs := by
  apply Entrywise.map
  intro st _
  rw [close]
  split
  · exact .refl st
  · rename_i hdone
    have hopen : st.done = false := Bool.not_eq_true _ ▸ hdone
    exact .of_open hopen fun hgood => hgood.abandon hopen _ _

theorem sweepAbort_advances (s : RunState) (abort : Option String) :
    Entrywise (Advances s.now) s.legs (r.sweepAbort s abort).legs := by
  cases abort with
  | none => exact entrywise_refl s.legs
  | some detail =>
      rw [LegRun.sweepAbort]
      split
      · exact entrywise_refl s.legs
      · apply Entrywise.mapIdx
        intro i st _
        split
        · exact .refl st
        · rename_i hdone
          have hopen : st.done = false := Bool.not_eq_true _ ▸ hdone
          exact .of_open hopen fun hgood => hgood.requestCancel hopen _ _

theorem sweepAbort_now (s : RunState) (abort : Option String) :
    (r.sweepAbort s abort).now = s.now := by
  cases abort with
  | none => rfl
  | some detail =>
      rw [LegRun.sweepAbort]
      split
      · rfl
      · rfl

theorem advance_now (s : RunState) (reserved : ℕ → ℚ → ℕ) : (r.advance s reserved).now = s.now := by
  rw [LegRun.advance]
  split
  · rfl
  · split
    · rfl
    · rfl

theorem advance_advances (s : RunState) (reserved : ℕ → ℚ → ℕ) :
    Entrywise (Advances s.now) s.legs (r.advance s reserved).legs := by
  rw [LegRun.advance]
  split
  · exact finish_advances s
  · split
    · exact entrywise_refl s.legs
    · exact atBoundary_advances s.quotes reserved s.legs

theorem iterate_now (s : RunState) (abort : Option String) (reserved : ℕ → ℚ → ℕ) :
    (r.iterate s abort reserved).now = s.now := by
  rw [LegRun.iterate]
  split
  · rfl
  · rw [advance_now, sweepAbort_now]

theorem iterate_advances (s : RunState) (abort : Option String) (reserved : ℕ → ℚ → ℕ) :
    Entrywise (Advances s.now) s.legs (r.iterate s abort reserved).legs := by
  rw [LegRun.iterate]
  split
  · exact finish_advances { s with guard := s.guard + 1 }
  · have habort := sweepAbort_advances (r := r) { s with guard := s.guard + 1 } abort
    have hadvance := advance_advances (r := r)
      (r.sweepAbort { s with guard := s.guard + 1 } abort) reserved
    rw [sweepAbort_now] at hadvance
    exact entrywise_trans habort hadvance

theorem resume_now (s : RunState) (next : ℚ) (reserved : ℕ → ℚ → ℕ) :
    (r.resume s next now reserved).now = now := by
  rw [LegRun.resume]
  split
  · rfl
  · rfl

theorem resume_advances (s : RunState) (next : ℚ) (reserved : ℕ → ℚ → ℕ) :
    Entrywise (Advances now) s.legs (r.resume s next now reserved).legs := by
  rw [LegRun.resume]
  split
  · exact entrywise_refl s.legs
  · exact atBoundary_advances s.quotes reserved s.legs

/-- The labels of a step, with the state they are enabled in and the one they lead to. -/
theorem step_cases {a : LegAction} (h : r.step s a = some t) :
    (∃ abort reserved, a = .loop abort reserved ∧ s.point = .top ∧
        t = r.iterate s abort reserved) ∨
      (∃ next now reserved, a = .wake now reserved ∧ s.point = .waiting next ∧ s.now ≤ now ∧
        t = r.resume s next now reserved) ∨
      ∃ next now changed quotes reserved, a = .tick now changed quotes reserved ∧
        s.point = .waiting next ∧ s.now ≤ now ∧
        t = { s with
          now := now
          quotes := quotes
          legs := r.onQuotes now changed quotes reserved s.legs } := by
  cases a with
  | loop abort reserved =>
      cases hpoint : s.point with
      | top =>
          rw [LegRun.step, hpoint] at h
          exact .inl ⟨abort, reserved, rfl, rfl, (Option.some.inj h).symm⟩
      | waiting next =>
          rw [LegRun.step, hpoint] at h
          cases h
      | ended =>
          rw [LegRun.step, hpoint] at h
          cases h
  | wake now reserved =>
      cases hpoint : s.point with
      | top =>
          rw [LegRun.step, hpoint] at h
          cases h
      | waiting next =>
          rw [LegRun.step, hpoint] at h
          simp only at h
          split at h
          · rename_i hle
            exact .inr (.inl ⟨next, now, reserved, rfl, rfl, hle, (Option.some.inj h).symm⟩)
          · cases h
      | ended =>
          rw [LegRun.step, hpoint] at h
          cases h
  | tick now changed quotes reserved =>
      cases hpoint : s.point with
      | top =>
          rw [LegRun.step, hpoint] at h
          cases h
      | waiting next =>
          rw [LegRun.step, hpoint] at h
          simp only at h
          split at h
          · rename_i hle
            exact .inr (.inr ⟨next, now, changed, quotes, reserved, rfl, rfl, hle,
              (Option.some.inj h).symm⟩)
          · cases h
      | ended =>
          rw [LegRun.step, hpoint] at h
          cases h

/-- Every step moves each leg on, and the clock. -/
theorem step_advances {a : LegAction} (h : r.step s a = some t) :
    s.now ≤ t.now ∧ Entrywise (Advances t.now) s.legs t.legs := by
  obtain ⟨abort, reserved, -, -, rfl⟩ | ⟨next, now, reserved, -, -, hle, rfl⟩ |
    ⟨next, now, changed, quotes, reserved, -, -, hle, rfl⟩ := step_cases h
  · rw [iterate_now]
    exact ⟨le_rfl, iterate_advances s abort reserved⟩
  · rw [resume_now]
    exact ⟨hle, resume_advances s next reserved⟩
  · exact ⟨hle, onQuotes_advances changed quotes reserved s.legs⟩

theorem LegState.close_done (now : ℚ) (st : LegState) : (st.close now).done = true := by
  rw [LegState.close]
  split
  · assumption
  · rw [LegState.abandon]
    split
    · rfl
    · rfl

/-- Behind the loop every leg is done. -/
def RunState.Closed (s : RunState) : Prop := s.point = .ended → ∀ st ∈ s.legs, st.done = true

theorem finish_closed (s : RunState) : s.finish.Closed := by
  intro _ st hst
  obtain ⟨before, -, rfl⟩ := List.mem_map.mp hst
  exact before.close_done s.now

theorem closed_of_point (h : s.point ≠ .ended) : s.Closed := fun hended => absurd hended h

theorem sweepAbort_point (s : RunState) (abort : Option String) :
    (r.sweepAbort s abort).point = s.point := by
  cases abort with
  | none => rfl
  | some detail =>
      rw [LegRun.sweepAbort]
      split
      · rfl
      · rfl

theorem step_closed {a : LegAction} (h : r.step s a = some t) : t.Closed := by
  obtain ⟨abort, reserved, -, htop, rfl⟩ | ⟨next, now, reserved, -, -, -, rfl⟩ |
    ⟨next, now, changed, quotes, reserved, -, hwaiting, -, rfl⟩ := step_cases h
  · rw [LegRun.iterate]
    split
    · exact finish_closed _
    · rw [LegRun.advance]
      split
      · exact finish_closed _
      · split
        · exact closed_of_point nofun
        · apply closed_of_point
          simp only
          rw [sweepAbort_point]
          simp only
          rw [htop]
          nofun
  · rw [LegRun.resume]
    split
    · exact closed_of_point nofun
    · exact closed_of_point nofun
  · apply closed_of_point
    simp only
    rw [hwaiting]
    nofun

/-- Every leg is good, belongs to its request, and is done when the run has ended. -/
structure RunState.Sound (r : LegRun) (s : RunState) : Prop where
  good : ∀ st ∈ s.legs, st.Good s.now
  requests : s.legs.map LegState.req = r.requests
  closed : s.Closed

/-- What happens to a leg of a sound state: its envelope is fixed, and nothing once it is
terminal. -/
structure LegState.Kept (st st' : LegState) : Prop where
  terminal : st.leg.status.terminal = true → st' = st
  req : st'.req = st.req
  pricing : ∀ pricing, st.leg.pricing = some pricing → st'.leg.pricing = some pricing

theorem LegState.Kept.refl (st : LegState) : st.Kept st := ⟨fun _ => rfl, rfl, fun _ hp => hp⟩

theorem LegState.Kept.trans {st st' st'' : LegState} (h : st.Kept st') (h' : st'.Kept st'') :
    st.Kept st'' := by
  refine ⟨?_, h'.req.trans h.req, fun pricing hp => h'.pricing pricing (h.pricing pricing hp)⟩
  intro hterminal
  have hsame := h.terminal hterminal
  rw [← hsame]
  exact h'.terminal (hsame ▸ hterminal)

theorem RunState.Sound.step {a : LegAction} (hs : s.Sound r) (h : r.step s a = some t) :
    t.Sound r ∧ Entrywise LegState.Kept s.legs t.legs := by
  obtain ⟨hle, hadvances⟩ := step_advances h
  have hmoves : Entrywise (fun st st' => st.Follows t.now st' ∧ st.Kept st') s.legs t.legs := by
    refine hadvances.imp fun st hst st' hadvance => ?_
    have hgood := hs.good st hst
    obtain ⟨hfollows, hkept⟩ := hadvance (hgood.later hle)
    exact ⟨hfollows, fun hterminal => hkept (hgood.done_eq.trans hterminal), hfollows.req,
      hfollows.pricing⟩
  refine ⟨⟨?_, ?_, step_closed h⟩, hmoves.imp fun _ _ _ hmove => hmove.2⟩
  · intro st' hst'
    obtain ⟨st, -, hfollows, -⟩ := hmoves.of_mem hst'
    exact hfollows.good
  · rw [hmoves.map_eq fun _ _ hmove => hmove.1.req]
    exact hs.requests

theorem initialLegs_good : ∀ st ∈ r.initialLegs, st.Good now := by
  intro st hst
  obtain ⟨i, hi⟩ := List.mem_iff_getElem?.mp hst
  rw [LegRun.initialLegs, List.getElem?_mapIdx] at hi
  obtain ⟨req, -, rfl⟩ := Option.map_eq_some_iff.mp hi
  split
  · exact .blank req
  · exact (LegState.Good.submit (.blank req) rfl _ _).good

theorem submit_req (i : ℕ) (submitAt : ℚ) (planned : Option ℚ) (st : LegState) :
    (r.submit i submitAt planned st).req = st.req := by
  cases planned with
  | none => rfl
  | some planned => rfl

theorem initialLegs_requests : r.initialLegs.map LegState.req = r.requests := by
  apply List.ext_getElem?
  intro i
  rw [List.getElem?_map, LegRun.initialLegs, List.getElem?_mapIdx]
  cases r.requests[i]? with
  | none => rfl
  | some req =>
      simp only [Option.map_some]
      split
      · rfl
      · rw [submit_req]
        rfl

theorem start_sound (now : ℚ) (quotes : ℕ → Option BoxQuote) : (r.start now quotes).Sound r :=
  ⟨initialLegs_good, initialLegs_requests, closed_of_point nofun⟩

/-- What a leg accounts for, and by when. -/
structure LegState.Accounted (st : LegState) : Prop where
  total : st.leg.fillQty + st.leg.remainingQty = st.leg.quantity
  sum : st.leg.fillQty = (st.leg.fills.map PaperFillSlice.qty).sum
  /-- Each slice took a price within the limit, and records one within a limit of whole paise. -/
  within : ∀ slice ∈ st.leg.fills, ∃ pricing, st.leg.pricing = some pricing ∧
    (∃ quoted, WithinLimit st.req.side quoted pricing.limitPrice ∧ slice.price = round2 quoted) ∧
    (WholePaise pricing.limitPrice → AsGood st.req.side slice.price pricing.limitPrice)
  /-- The limits the policy prices are of whole paise. -/
  priced : st.req.pricing = none →
    ∀ pricing, st.leg.pricing = some pricing → WholePaise pricing.limitPrice
  arrived : ∀ slice ∈ st.leg.fills, st.leg.arrivalAt ≤ slice.takenAt
  inTime : ∀ slice ∈ st.leg.fills, ∃ due,
    (st.leg.cancelConfirmedAt = some due ∨
      st.leg.cancelConfirmedAt = none ∧ st.leg.timeoutAt = some due) ∧ slice.takenAt ≤ due
  whole : 0 < st.leg.fillQty → st.leg.fillQty = st.leg.quantity → st.leg.status = .filled

theorem LegState.Good.accounted (h : st.Good now) : st.Accounted where
  total := h.recorded.total
  sum := h.recorded.sum
  within := by
    intro slice hslice
    obtain ⟨pricing, hpricing, quoted, hquoted, hprice⟩ := h.recorded.within slice hslice
    refine ⟨pricing, hpricing, ⟨quoted, hquoted, hprice⟩, fun hpaise => ?_⟩
    rw [hprice]
    exact hquoted.asGood hpaise
  priced := h.recorded.priced
  arrived := fun slice hslice => (h.timed slice hslice).1
  inTime := by
    intro slice hslice
    obtain ⟨-, -, due, hdue, hle⟩ := h.timed slice hslice
    refine ⟨due, ?_, hle⟩
    rw [PaperLegExecution.deadline] at hdue
    split at hdue
    · rename_i hconfirmed
      exact .inl (hconfirmed.trans hdue)
    · rename_i hnone
      exact .inr ⟨hnone, hdue⟩
  whole := by
    intro hfills hwhole
    by_contra hstatus
    have htotal := h.recorded.total
    have hnothing := h.whole hstatus (by omega)
    omega

/-- The legs of a run account for what they take, are terminal when it returns, and stay what they
are once they are terminal. -/
structure RunState.Accounted (r : LegRun) (s : RunState) : Prop where
  requests : s.legs.map LegState.req = r.requests
  legs : ∀ st ∈ s.legs, st.Accounted
  terminal : s.point = .ended → ∀ st ∈ s.legs, st.leg.status.terminal = true
  kept : ∀ later, Throughout r.step (fun t => Entrywise LegState.Kept s.legs t.legs) s later

theorem RunState.Sound.kept (h : s.Sound r) (later : List LegAction) :
    Throughout r.step (fun t => Entrywise LegState.Kept s.legs t.legs) s later := by
  have hkept : Throughout r.step
      (fun t => t.Sound r ∧ Entrywise LegState.Kept s.legs t.legs) s later := by
    refine Throughout.of_invariant ?_ ⟨h, .refl LegState.Kept.refl s.legs⟩
    intro t a u ⟨hsound, hbefore⟩ hstep
    obtain ⟨hu, hafter⟩ := hsound.step hstep
    exact ⟨hu, hbefore.trans (fun _ _ _ => LegState.Kept.trans) hafter⟩
  exact hkept.mono fun t ht => ht.2

theorem RunState.Sound.accounted (h : s.Sound r) : s.Accounted r where
  requests := h.requests
  legs := fun st hst => (h.good st hst).accounted
  terminal := fun hended st hst => (h.good st hst).done_eq.symm.trans (h.closed hended st hst)
  kept := h.kept

end Sweep

namespace FineTick

/-- Bought at the limit, which the recorded price exceeds. -/
def request : LegOrderRequest where
  side := .buy
  token := 1
  tickSize := some (1 / 500)
  detectedPrice := none
  quantity := 75
  pricing := some ⟨100, 1 / 500, 3, 100 + 3 / 500⟩

def legRun : LegRun where
  cfg :=
    { legExecutionMode := .parallel
      legTimeoutMs := 500
      simulatedLatencyMs := 0
      quoteMaxAgeMs := 1000
      queueModel := .none
      queueLiquidityHaircutPct := 0
      legMaxChaseTicks := 2
      unwindMaxChaseTicks := 5
      defaultTickSize := 5 / 100 }
  phase := .entry
  requests := [request]
  submitAt := 0
  latencyMs := none
  latencySource := none
  arrivalPlanner := none
  cancelRace := none

def quotes : ℕ → Option BoxQuote := fun _ => some ⟨[], [⟨100 + 3 / 500, 75⟩], 1, 0⟩

/-- Every recorded price is within the limit of its leg. -/
def withinLimits (s : RunState) : Bool :=
  s.legs.all fun st => st.leg.fills.all fun slice => st.leg.pricing.toList.all fun pricing =>
    decide (AsGood st.req.side slice.price pricing.limitPrice)

theorem withinLimits_iff {s : RunState} :
    withinLimits s = true ↔ ∀ st ∈ s.legs, ∀ slice ∈ st.leg.fills, ∀ pricing ∈ st.leg.pricing,
      AsGood st.req.side slice.price pricing.limitPrice := by
  simp only [withinLimits, List.all_eq_true, decide_eq_true_eq, Option.mem_toList, Option.mem_def]

theorem run_withinLimits :
    (run legRun.step (legRun.start 0 quotes) [.loop none fun _ _ => 0]).map withinLimits =
      some false := by
  decide +kernel

end FineTick

end Strikedge.PaperLegs
