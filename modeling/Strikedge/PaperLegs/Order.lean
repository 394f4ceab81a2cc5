import Strikedge.PaperLegs.Executor

/-!
# One paper order

A leg accounts for its quantity slice by slice, and takes nothing before it arrives or after its
deadline. One predicate on legs carries this, and every function of the executor that touches an
open leg keeps it. None of them changes the request of a leg, or an envelope that it has.
-/

namespace Strikedge.PaperLegs

open Machine Orders OrderPricing

/-- The confirmation of a cancel, or the timeout where no cancel is in flight. -/
def PaperLegExecution.deadline (leg : PaperLegExecution) : Option ℚ :=
  match leg.cancelConfirmedAt with
  | some confirmedAt => some confirmedAt
  | none => leg.timeoutAt

/-- The slice took a price within the limit of the leg, and records it to the paisa. -/
def LegState.TookWithin (st : LegState) (slice : PaperFillSlice) : Prop :=
  ∃ pricing, st.leg.pricing = some pricing ∧
    ∃ quoted, WithinLimit st.req.side quoted pricing.limitPrice ∧ slice.price = round2 quoted

/-- The quantities of a leg, and the prices of its slices. -/
structure LegState.Recorded (st : LegState) : Prop where
  quantity : st.leg.quantity = st.req.quantity
  total : st.leg.fillQty + st.leg.remainingQty = st.leg.quantity
  sum : st.leg.fillQty = (st.leg.fills.map PaperFillSlice.qty).sum
  within : ∀ slice ∈ st.leg.fills, st.TookWithin slice
  priced : st.req.pricing = none →
    ∀ pricing, st.leg.pricing = some pricing → WholePaise pricing.limitPrice

/-- The slices of a leg are taken from its arrival on, up to now and to its deadline. -/
def LegState.Timed (st : LegState) (now : ℚ) : Prop :=
  ∀ slice ∈ st.leg.fills, st.leg.arrivalAt ≤ slice.takenAt ∧ slice.takenAt ≤ now ∧
    ∃ due, st.leg.deadline = some due ∧ slice.takenAt ≤ due

/-- What the status of a leg says about its other fields. -/
def LegState.Placed (st : LegState) : Prop :=
  match st.leg.status with
  | .created | .inFlight =>
    st.leg.fills = [] ∧ st.leg.cancelRequestedAt = none ∧ st.leg.cancelConfirmedAt = none
  | .pending | .partiallyFilled =>
    st.leg.timeoutAt ≠ none ∧ st.leg.cancelRequestedAt = none ∧ st.leg.cancelConfirmedAt = none
  | .cancelRequested => st.leg.cancelRequestedAt ≠ none ∧ st.leg.cancelConfirmedAt ≠ none
  | .filled => st.leg.fillAt ≠ none
  | .timedOut | .cancelled | .failed => True

structure LegState.Good (now : ℚ) (st : LegState) : Prop where
  recorded : st.Recorded
  timed : st.Timed now
  placed : st.Placed
  done_eq : st.done = st.leg.status.terminal
  whole : st.leg.status ≠ .filled → st.leg.remainingQty = 0 → st.leg.fillQty = 0

/-- A good leg after another, of the same request and with the envelope fixed. -/
structure LegState.Follows (now : ℚ) (st st' : LegState) : Prop where
  good : st'.Good now
  req : st'.req = st.req
  pricing : ∀ pricing, st.leg.pricing = some pricing → st'.leg.pricing = some pricing

section Leg

variable {r : LegRun} {now : ℚ} {st st' st'' : LegState} {i : ℕ}

theorem LegState.Follows.refl (h : st.Good now) : st.Follows now st := ⟨h, rfl, fun _ hp => hp⟩

theorem LegState.Follows.trans (h : st.Follows now st') (h' : st'.Follows now st'') :
    st.Follows now st'' :=
  ⟨h'.good, h'.req.trans h.req, fun pricing hp => h'.pricing pricing (h.pricing pricing hp)⟩

namespace LegState

/-- The fields the quantities and prices are about. -/
def filling (st : LegState) : ℕ × Option LimitPricing × List PaperFillSlice × ℕ × ℕ :=
  (st.leg.quantity, st.leg.pricing, st.leg.fills, st.leg.fillQty, st.leg.remainingQty)

theorem Recorded.congr (h : st.Recorded) (hreq : st'.req = st.req)
    (hfilling : st'.filling = st.filling) : st'.Recorded := by
  simp only [filling, Prod.mk.injEq] at hfilling
  obtain ⟨hquantity, hpricing, hfills, hfillQty, hremaining⟩ := hfilling
  constructor
  · rw [hquantity, hreq]
    exact h.quantity
  · rw [hquantity, hfillQty, hremaining]
    exact h.total
  · rw [hfillQty, hfills]
    exact h.sum
  · simp only [TookWithin]
    rw [hfills, hpricing, hreq]
    exact h.within
  · rw [hreq, hpricing]
    exact h.priced

theorem Timed.congr (h : st.Timed now) (hfills : st'.leg.fills = st.leg.fills)
    (harrival : st'.leg.arrivalAt = st.leg.arrivalAt)
    (hdeadline : st'.leg.deadline = st.leg.deadline) : st'.Timed now := by
  rw [Timed, hfills, harrival, hdeadline]
  exact h

theorem Timed.of_nil (h : st.leg.fills = []) : st.Timed now := by
  rw [Timed, h]
  exact fun _ hslice => absurd hslice List.not_mem_nil

theorem Timed.later {later : ℚ} (h : st.Timed now) (hle : now ≤ later) : st.Timed later := by
  intro slice hslice
  obtain ⟨harrived, hnow, hdue⟩ := h slice hslice
  exact ⟨harrived, hnow.trans hle, hdue⟩

theorem Good.later {later : ℚ} (h : st.Good now) (hle : now ≤ later) : st.Good later :=
  { h with timed := h.timed.later hle }

theorem Good.not_filled (h : st.Good now) (hopen : st.done = false) : st.leg.status ≠ .filled := by
  intro hfilled
  have hdone := h.done_eq
  rw [hopen, hfilled] at hdone
  cases hdone

theorem Good.not_terminal (h : st.Good now) (hopen : st.done = false) :
    st.leg.status.terminal = false :=
  h.done_eq.symm.trans hopen

theorem Good.blank (req : LegOrderRequest) : (LegState.blank req).Good now where
  recorded :=
    { quantity := rfl
      total := Nat.zero_add _
      sum := rfl
      within := fun _ hslice => absurd hslice List.not_mem_nil
      priced := fun hnone pricing hpricing => by
        rw [show (LegState.blank req).leg.pricing = req.pricing from rfl] at hpricing
        rw [show (LegState.blank req).req.pricing = req.pricing from rfl, hpricing] at hnone
        cases hnone }
  timed := Timed.of_nil rfl
  placed := ⟨rfl, rfl, rfl⟩
  done_eq := rfl
  whole := fun _ _ => rfl

theorem Good.submit (h : st.Good now) (hcreated : st.leg.status = .created) (submitAt : ℚ)
    (planned : Option ℚ) : st.Follows now (r.submit i submitAt planned st) := by
  have hplaced := h.placed
  rw [Placed, hcreated] at hplaced
  have hdone : st.done = false := by rw [h.done_eq, hcreated, PaperLegStatus.terminal]
  have hwhole := h.whole (by rw [hcreated]; nofun)
  cases planned with
  | some planned =>
      exact ⟨⟨h.recorded.congr rfl rfl, Timed.of_nil hplaced.1, hplaced, hdone, fun _ => hwhole⟩,
        rfl, fun _ hp => hp⟩
  | none =>
      exact ⟨⟨h.recorded.congr rfl rfl, Timed.of_nil hplaced.1, hplaced, hdone, fun _ => hwhole⟩,
        rfl, fun _ hp => hp⟩

theorem Good.notSubmitted (h : st.Good now) (hopen : st.done = false) :
    st.Follows now st.notSubmitted :=
  ⟨⟨h.recorded.congr rfl rfl, h.timed.congr rfl rfl rfl, trivial, rfl,
    fun _ => h.whole (h.not_filled hopen)⟩, rfl, fun _ hp => hp⟩

theorem Good.abandon (h : st.Good now) (hopen : st.done = false) (resolvedAt : ℚ)
    (detail : FailReason) : st.Follows now (st.abandon resolvedAt detail) := by
  rw [LegState.abandon, if_neg (by rw [h.not_terminal hopen]; nofun)]
  have hwhole := h.whole (h.not_filled hopen)
  by_cases hfills : 0 < st.leg.fillQty
  · simp only [if_pos hfills]
    exact ⟨⟨h.recorded.congr rfl rfl, h.timed.congr rfl rfl rfl, trivial, rfl, fun _ => hwhole⟩,
      rfl, fun _ hp => hp⟩
  · simp only [if_neg hfills]
    exact ⟨⟨h.recorded.congr rfl rfl, h.timed.congr rfl rfl rfl, trivial, rfl, fun _ => hwhole⟩,
      rfl, fun _ hp => hp⟩

theorem Good.timeOut (h : st.Good now) (hopen : st.done = false) (resolvedAt : ℚ)
    (detail : FailReason) : st.Follows now (st.timeOut resolvedAt detail) :=
  ⟨⟨h.recorded.congr rfl rfl, h.timed.congr rfl rfl rfl, trivial, rfl,
    fun _ => h.whole (h.not_filled hopen)⟩, rfl, fun _ hp => hp⟩

theorem Good.staged (h : st.Good now) (stage : PaperLegCancelStage) :
    st.Follows now { st with leg.cancelStage := some stage } :=
  ⟨⟨h.recorded.congr rfl rfl, h.timed.congr rfl rfl rfl, h.placed, h.done_eq, h.whole⟩, rfl,
    fun _ hp => hp⟩

theorem Good.arriveAtExchange (h : st.Good now) (hflight : st.leg.status = .inFlight)
    (hopen : st.done = false) : st.Follows now (r.arriveAtExchange now st) := by
  have hplaced := h.placed
  rw [Placed, hflight] at hplaced
  exact ⟨⟨h.recorded.congr rfl rfl, Timed.of_nil hplaced.1, ⟨nofun, hplaced.2⟩, hopen,
    fun _ => h.whole (h.not_filled hopen)⟩, rfl, fun _ hp => hp⟩

/-- The statuses of an order that rests at the exchange. -/
def Resting (st : LegState) : Prop :=
  st.leg.status = .pending ∨ st.leg.status = .partiallyFilled ∨ st.leg.status = .cancelRequested

theorem Good.cancelResting (h : st.Good now) (hopen : st.done = false) (cause : CancelCause)
    (detail : FailReason) : st.Follows now (r.cancelResting i now cause detail st) := by
  simp only [LegRun.cancelResting]
  split
  · cases cause with
    | timeout => exact h.timeOut hopen now detail
    | abort => exact h.abandon hopen now detail
  · rename_i latencyMs hrace
    split
    · exact .refl h
    · refine ⟨⟨h.recorded.congr rfl rfl, ?_, ⟨nofun, nofun⟩, hopen,
        fun _ => h.whole (h.not_filled hopen)⟩, rfl, fun _ hp => hp⟩
      -- what is taken so far lies before the request
      intro slice hslice
      obtain ⟨harrived, hnow, -⟩ := h.timed slice hslice
      have hlatency : 0 ≤ max 0 (latencyMs i) := le_max_left _ _
      exact ⟨harrived, hnow, _, rfl, by linarith⟩

theorem Good.requestCancel (h : st.Good now) (hopen : st.done = false) (cause : CancelCause)
    (detail : FailReason) : st.Follows now (r.requestCancel i now cause detail st) := by
  have hterminal := h.not_terminal hopen
  simp only [LegRun.requestCancel]
  split
  · rename_i hstatus
    rw [hstatus] at hterminal
    cases hterminal
  · rename_i hstatus
    rw [hstatus] at hterminal
    cases hterminal
  · rename_i hstatus
    rw [hstatus] at hterminal
    cases hterminal
  · rename_i hstatus
    rw [hstatus] at hterminal
    cases hterminal
  · have hstaged := h.staged .preSubmission
    exact hstaged.trans (hstaged.good.abandon hopen now detail)
  · rename_i hflight
    split
    · have hstaged := h.staged .inTransport
      exact hstaged.trans (hstaged.good.abandon hopen now detail)
    · have harrived := h.arriveAtExchange (r := r) hflight hopen
      exact harrived.trans (harrived.good.cancelResting hopen cause detail)
  · exact h.cancelResting hopen cause detail
  · exact h.cancelResting hopen cause detail
  · exact h.cancelResting hopen cause detail

theorem Good.expire (h : st.Good now) (hopen : st.done = false) :
    st.Follows now (r.expire i now st) := by
  simp only [LegRun.expire]
  split
  · exact h.requestCancel hopen .timeout _
  · exact h.timeOut hopen now _

theorem Good.confirmCancel (h : st.Good now) (hopen : st.done = false) :
    st.Follows now (r.confirmCancel now st) := by
  have hwhole := h.whole (h.not_filled hopen)
  simp only [LegRun.confirmCancel]
  split
  · exact ⟨⟨h.recorded.congr rfl rfl, h.timed.congr rfl rfl rfl, nofun, rfl, nofun⟩, rfl,
      fun _ hp => hp⟩
  · split
    · exact ⟨⟨h.recorded.congr rfl rfl, h.timed.congr rfl rfl rfl, trivial, rfl, fun _ => hwhole⟩,
        rfl, fun _ hp => hp⟩
    · by_cases hfills : 0 < st.leg.noteRacedQuantity.fillQty
      · simp only [if_pos hfills]
        exact ⟨⟨h.recorded.congr rfl rfl, h.timed.congr rfl rfl rfl, trivial, rfl,
          fun _ => hwhole⟩, rfl, fun _ hp => hp⟩
      · simp only [if_neg hfills]
        exact ⟨⟨h.recorded.congr rfl rfl, h.timed.congr rfl rfl rfl, trivial, rfl,
          fun _ => hwhole⟩, rfl, fun _ hp => hp⟩

theorem Good.failing (h : st.Good now) (cause : FailCause) :
    st.Follows now (st.failing cause) :=
  ⟨⟨h.recorded.congr rfl rfl, h.timed.congr rfl rfl rfl, h.placed, h.done_eq, h.whole⟩, rfl,
    fun _ hp => hp⟩

/-- The first book prices a leg, and no other book does. -/
theorem envelope_fixed {quote : BoxQuote} {pricing fixed : LimitPricing}
    (henvelope : r.envelope st quote = some pricing) (hfixed : st.leg.pricing = some fixed) :
    pricing = fixed := by
  rw [LegRun.envelope, hfixed] at henvelope
  exact (Option.some.inj henvelope).symm

theorem envelope_wholePaise {quote : BoxQuote} {pricing : LimitPricing}
    (henvelope : r.envelope st quote = some pricing) (hnone : st.leg.pricing = none) :
    WholePaise pricing.limitPrice := by
  rw [LegRun.envelope, hnone] at henvelope
  obtain ⟨ref, -, hpriced⟩ := Option.bind_eq_some_iff.mp henvelope
  split at hpriced
  · obtain rfl := Option.some.inj hpriced
    exact priceOrder_wholePaise _ _ _ _ _
  · cases hpriced

theorem Good.priced (h : st.Good now) {quote : BoxQuote} {pricing : LimitPricing}
    (henvelope : r.envelope st quote = some pricing) : st.Follows now (st.priced pricing) := by
  have hkept : ∀ fixed, st.leg.pricing = some fixed → some pricing = some fixed := by
    intro fixed hfixed
    rw [envelope_fixed henvelope hfixed]
  refine ⟨⟨⟨h.recorded.quantity, h.recorded.total, h.recorded.sum, ?_, ?_⟩,
    h.timed.congr rfl rfl rfl, h.placed, h.done_eq, h.whole⟩, rfl, hkept⟩
  · intro slice hslice
    obtain ⟨fixed, hfixed, htook⟩ := h.recorded.within slice hslice
    exact ⟨fixed, hkept fixed hfixed, htook⟩
  · intro hnone other hother
    obtain rfl := Option.some.inj hother
    cases hfixed : st.leg.pricing with
    | none => exact envelope_wholePaise henvelope hfixed
    | some fixed =>
        rw [envelope_fixed henvelope hfixed]
        exact h.recorded.priced hnone fixed hfixed

/-- A walk of a leg, with what it leaves. -/
theorem Recorded.applySlices (h : st.Recorded) {terms : WalkTerms} {walk : DepthWalk}
    {pricing : LimitPricing} (hpricing : st.leg.pricing = some pricing)
    (hside : terms.side = st.req.side) (hlimit : terms.limitPrice = pricing.limitPrice)
    (hwalk : walk.Adds terms st.leg.remainingQty) : (st.applySlices walk).Recorded := by
  have htotal := h.total
  have hsplit := hwalk.total
  refine ⟨h.quantity, ?_, ?_, ?_, h.priced⟩
  · simp only [LegState.applySlices]
    omega
  · simp only [LegState.applySlices, List.map_append, List.sum_append]
    rw [h.sum, hwalk.sum]
  · intro slice hslice
    rcases List.mem_append.mp hslice with hold | hnew
    · exact h.within slice hold
    · obtain ⟨-, quoted, hquoted, hprice⟩ := hwalk.takes slice hnew
      rw [hside, hlimit] at hquoted
      exact ⟨pricing, hpricing, quoted, hquoted, hprice⟩

theorem Timed.applySlices (h : st.Timed now) {terms : WalkTerms} {walk : DepthWalk} {quantity : ℕ}
    (hnow : terms.takenAt = now) (harrived : st.leg.arrivalAt ≤ now)
    (hdue : ∃ due, st.leg.deadline = some due ∧ now ≤ due)
    (hwalk : walk.Adds terms quantity) : (st.applySlices walk).Timed now := by
  intro slice hslice
  rcases List.mem_append.mp hslice with hold | hnew
  · exact h slice hold
  · obtain ⟨htaken, -⟩ := hwalk.takes slice hnew
    rw [hnow] at htaken
    rw [htaken]
    exact ⟨harrived, le_rfl, hdue⟩

/-- Where the last slice is taken the leg is filled, whatever cancel is in flight. -/
theorem Good.complete (hrecorded : st.Recorded) (htimed : st.Timed now) :
    (st.complete now).Good now := by
  refine ⟨hrecorded.congr rfl rfl, ?_, nofun, rfl, nofun⟩
  by_cases hcancel : st.leg.cancelRequestedAt = none
  · have hdeadline : (st.complete now).leg.deadline = st.leg.deadline := by
      simp only [LegState.complete, PaperLegExecution.deadline, if_pos hcancel]
      rfl
    exact Timed.congr htimed rfl rfl hdeadline
  · intro slice hslice
    obtain ⟨harrived, hnow, -⟩ := htimed slice hslice
    refine ⟨harrived, hnow, now, ?_, hnow⟩
    simp only [LegState.complete, PaperLegExecution.deadline, if_neg hcancel]

theorem Placed.applySlices (h : st.Placed) (hresting : st.Resting) (walk : DepthWalk) :
    (st.applySlices walk).Placed := by
  rw [Placed] at h ⊢
  rcases hresting with hstatus | hstatus | hstatus
  · simp only [LegState.applySlices, hstatus] at h ⊢
    exact h
  · simp only [LegState.applySlices, hstatus] at h ⊢
    exact h
  · simp only [LegState.applySlices, hstatus] at h ⊢
    exact h

/-- An order that goes on resting keeps its cancel in flight. -/
theorem Placed.rest (h : st.Placed) (hresting : st.Resting) : st.rest.Placed := by
  rw [Placed] at h ⊢
  rcases hresting with hstatus | hstatus | hstatus
  · simp only [LegState.rest, hstatus] at h ⊢
    exact h
  · simp only [LegState.rest, hstatus] at h ⊢
    exact h
  · simp only [LegState.rest, hstatus] at h ⊢
    exact h

theorem rest_open : st.rest.leg.status.terminal = false := by
  rw [LegState.rest]
  split
  · rfl
  · rfl

theorem Good.rest (hrecorded : st.Recorded) (htimed : st.Timed now) (hopen : st.done = false)
    (hresting : st.Resting) (hplaced : st.Placed) (hremaining : st.leg.remainingQty ≠ 0) :
    st.rest.Good now where
  recorded := hrecorded.congr rfl rfl
  timed := htimed.congr rfl rfl rfl
  placed := hplaced.rest hresting
  done_eq := hopen.trans rest_open.symm
  whole := fun _ hzero => absurd hzero hremaining

/-- An order that may still take something at this instant. -/
structure Fillable (st : LegState) (now : ℚ) : Prop where
  unsettled : st.done = false
  resting : st.Resting
  due : ∃ due, st.leg.deadline = some due ∧ now ≤ due

theorem Good.attempted (h : st.Good now) (attempts : ℕ) :
    st.Follows now { st with fillAttempts := attempts } :=
  ⟨⟨h.recorded.congr rfl rfl, h.timed.congr rfl rfl rfl, h.placed, h.done_eq, h.whole⟩, rfl,
    fun _ hp => hp⟩

theorem Good.settle (h : st.Good now) (hfillable : st.Fillable now)
    (harrived : st.leg.arrivalAt ≤ now) {terms : WalkTerms} {walk : DepthWalk}
    {pricing : LimitPricing} (hpricing : st.leg.pricing = some pricing)
    (hside : terms.side = st.req.side) (hlimit : terms.limitPrice = pricing.limitPrice)
    (hnow : terms.takenAt = now) (hwalk : walk.Adds terms st.leg.remainingQty) :
    st.Follows now ((st.applySlices walk).settle now).1 := by
  have hrecorded := h.recorded.applySlices hpricing hside hlimit hwalk
  have htimed := h.timed.applySlices hnow harrived hfillable.due hwalk
  rw [LegState.settle]
  split
  · exact ⟨.complete hrecorded htimed, rfl, fun _ hp => hp⟩
  · rename_i hremaining
    exact ⟨.rest hrecorded htimed hfillable.unsettled hfillable.resting
      (h.placed.applySlices hfillable.resting walk) hremaining, rfl, fun _ hp => hp⟩

theorem Good.tryFill (h : st.Good now) (hfillable : st.Fillable now) (book : Option BoxQuote)
    (reserved : ℚ → ℕ) : st.Follows now (r.tryFill now book reserved st).1 := by
  simp only [LegRun.tryFill]
  split
  · exact h.failing _
  · rename_i hlive
    obtain ⟨-, harrived⟩ := not_or.mp hlive
    split
    · exact h.failing _
    · rename_i quote
      split
      · exact h.failing _
      · split
        · exact h.failing _
        · rename_i pricing henvelope
          have hpriced := h.priced henvelope
          have hwalk : (r.walk st pricing quote now reserved).Adds
              (r.walkTerms st pricing quote now reserved) st.leg.remainingQty :=
            walkDepth_adds _ _ _
          split
          · exact hpriced.trans (hpriced.good.failing _)
          · have hstill : (st.priced pricing).Fillable now :=
              ⟨hfillable.unsettled, hfillable.resting, hfillable.due⟩
            exact hpriced.trans (hpriced.good.settle hstill (not_lt.mp harrived) rfl rfl rfl rfl
              hwalk)

theorem Good.attempt (h : st.Good now) (hfillable : st.Fillable now)
    (quotes : ℕ → Option BoxQuote) (reserved : ℚ → ℕ) :
    st.Follows now (r.attempt now quotes reserved st).1 := by
  have hattempted := h.attempted (st.fillAttempts + 1)
  have hstill : { st with fillAttempts := st.fillAttempts + 1 : LegState }.Fillable now :=
    ⟨hfillable.unsettled, hfillable.resting, hfillable.due⟩
  exact hattempted.trans (hattempted.good.tryFill hstill _ _)

theorem due_of_not_past {deadline : Option ℚ} (hset : deadline ≠ none) (h : ¬Past deadline now) :
    ∃ due, deadline = some due ∧ now ≤ due := by
  obtain ⟨due, rfl⟩ := Option.ne_none_iff_exists'.mp hset
  exact ⟨due, rfl, not_lt.mp fun hlt => h ⟨due, rfl, hlt⟩⟩

theorem Wakes.fillable {changed : List ℕ} (h : st.Wakes changed now) (hgood : st.Good now) :
    st.Fillable now := by
  obtain ⟨hopen, hresting, -, -, -, hconfirmed, htimeout⟩ := h
  refine ⟨hopen, hresting, ?_⟩
  have hplaced := hgood.placed
  rw [Placed] at hplaced
  rcases hresting with hstatus | hstatus | hstatus
  · rw [hstatus] at hplaced
    rw [PaperLegExecution.deadline, hplaced.2.2]
    exact due_of_not_past hplaced.1 (htimeout (by rw [hstatus]; nofun))
  · rw [hstatus] at hplaced
    rw [PaperLegExecution.deadline, hplaced.2.2]
    exact due_of_not_past hplaced.1 (htimeout (by rw [hstatus]; nofun))
  · rw [hstatus] at hplaced
    obtain ⟨due, hdue, hle⟩ := due_of_not_past hplaced.2 hconfirmed
    rw [PaperLegExecution.deadline, hdue]
    exact ⟨due, rfl, hle⟩

/-- An order that has just arrived, and not too late. -/
theorem Good.arrived_fillable (h : st.Good now) (hflight : st.leg.status = .inFlight)
    (hopen : st.done = false) (hlate : ¬Past (r.arriveAtExchange now st).leg.timeoutAt now) :
    (r.arriveAtExchange now st).Fillable now := by
  have hplaced := h.placed
  rw [Placed, hflight] at hplaced
  refine ⟨hopen, .inl rfl, ?_⟩
  have hdeadline : (r.arriveAtExchange now st).leg.deadline =
      (r.arriveAtExchange now st).leg.timeoutAt := by
    rw [PaperLegExecution.deadline, LegRun.arriveAtExchange, hplaced.2.2]
  rw [hdeadline]
  exact due_of_not_past nofun hlate

end LegState

end Leg

end Strikedge.PaperLegs
