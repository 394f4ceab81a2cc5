import Strikedge.PaperLegs.Lifecycle

/-!
# Legs in a line

In sequential mode a leg is submitted when the leg before it is filled. Without an abort the legs
are in a line. Those behind the current leg are filled and have released the next one at that
time, those ahead of it wait, or are skipped once the current leg has failed.

The loop keeps the line and leaves no filled leg with another one ahead. A tick keeps the line,
but where it completes the current leg it releases nothing.
-/

namespace Strikedge.PaperLegs

open Orders Machine

def LegState.cause (st : LegState) : Option FailCause := st.leg.failReason.map FailReason.cause

/-- Recorded as not submitted, or as unresolved. -/
def LegState.Unreleased (st : LegState) : Prop :=
  st.cause = some .notSubmitted ∨ st.cause = some .unresolved

/-- The fresh book of a leg covers what remains of it, within its limit. -/
def LegRun.Covers (r : LegRun) (st : LegState) (now : ℚ) (book : Option BoxQuote)
    (reserved : ℚ → ℕ) : Prop :=
  ∃ quote pricing, book = some quote ∧ r.Fresh quote now ∧ r.envelope st quote = some pricing ∧
    (r.walk st pricing quote now reserved).filledQty ≠ 0 ∧
    (r.walk st pricing quote now reserved).remaining = 0

section Leg

variable {r : LegRun} {now : ℚ} {st st' : LegState} {i : ℕ}

namespace LegState

/-- Submitted, and not recorded otherwise. -/
def Engaged (st : LegState) : Prop := st.leg.status ≠ .created ∧ ¬st.Unreleased

/-- An engaged leg goes on, from the same submission. -/
structure Continues (st st' : LegState) : Prop where
  engaged : st'.Engaged
  submitAt : st'.leg.submitAt = st.leg.submitAt
  arrived : st'.leg.status ≠ .inFlight

theorem not_unreleased_of_cause {cause : FailCause} (hcause : st.cause = some cause)
    (hsubmitted : cause ≠ .notSubmitted) (hresolved : cause ≠ .unresolved) : ¬st.Unreleased := by
  rintro (hnot | hunresolved)
  · rw [hcause] at hnot
    exact hsubmitted (Option.some.inj hnot)
  · rw [hcause] at hunresolved
    exact hresolved (Option.some.inj hunresolved)

theorem not_unreleased_of_none (hnone : st.leg.failReason = none) : ¬st.Unreleased := by
  rintro (hnot | hunresolved)
  · rw [cause, hnone] at hnot
    cases hnot
  · rw [cause, hnone] at hunresolved
    cases hunresolved

end LegState

open LegState

theorem emptyWalkCause_ne (side : OrderSide) (quote : BoxQuote) (limit : ℚ) :
    emptyWalkCause side quote limit ≠ .notSubmitted ∧
      emptyWalkCause side quote limit ≠ .unresolved := by
  rw [emptyWalkCause]
  split
  · split
    · exact ⟨nofun, nofun⟩
    · exact ⟨nofun, nofun⟩
  · exact ⟨nofun, nofun⟩

/-- An attempt on an order at the exchange either fails for a reason, or takes slices. -/
theorem tryFill_cases {book : Option BoxQuote} {reserved : ℚ → ℕ}
    (hlive : ¬(st.leg.pendingSince = none ∨ now < st.leg.arrivalAt)) (hgood : st.Good now) :
    (∃ tried cause, r.tryFill now book reserved st = (tried.failing cause, .nothing) ∧
        (tried = st ∨ ∃ pricing, tried = st.priced pricing) ∧
        (cause ≠ .notSubmitted ∧ cause ≠ .unresolved) ∧ ¬r.Covers st now book reserved) ∨
      ∃ pricing walk,
        r.tryFill now book reserved st = ((st.priced pricing).applySlices walk).settle now ∧
        (r.Covers st now book reserved ↔
          ((st.priced pricing).applySlices walk).leg.remainingQty = 0) := by
  simp only [LegRun.tryFill, if_neg hlive]
  cases book with
  | none =>
      refine .inl ⟨st, .noBook, rfl, .inl rfl, ⟨by simp, by simp⟩, ?_⟩
      rintro ⟨quote, pricing, hquote, -⟩
      cases hquote
  | some quote =>
      simp only
      split
      · rename_i hstale
        refine .inl ⟨st, _, rfl, .inl rfl, ⟨by simp, by simp⟩, ?_⟩
        rintro ⟨other, pricing, hquote, hfresh, -⟩
        obtain rfl := Option.some.inj hquote
        exact hstale hfresh
      · rename_i hfresh
        cases henvelope : r.envelope st quote with
        | none =>
            refine .inl ⟨st, .nothingToPrice, rfl, .inl rfl, ⟨by simp, by simp⟩, ?_⟩
            rintro ⟨other, pricing, hquote, -, hpricing, -⟩
            obtain rfl := Option.some.inj hquote
            rw [henvelope] at hpricing
            cases hpricing
        | some pricing =>
            simp only
            split
            · rename_i hempty
              refine .inl ⟨_, _, rfl, .inr ⟨pricing, rfl⟩, emptyWalkCause_ne _ _ _, ?_⟩
              rintro ⟨other, envelope, hquote, -, hpricing, hfilled, -⟩
              obtain rfl := Option.some.inj hquote
              obtain rfl := Option.some.inj (henvelope.symm.trans hpricing)
              exact hfilled hempty
            · rename_i hfilled
              refine .inr ⟨pricing, _, rfl, ?_⟩
              have hsplit : (r.walk st pricing quote now reserved).filledQty +
                  (r.walk st pricing quote now reserved).remaining = st.leg.remainingQty :=
                (walkDepth_adds _ _ _).total
              have htotal := hgood.recorded.total
              simp only [applySlices, priced]
              constructor
              · rintro ⟨other, envelope, hquote, -, hpricing, -, hremaining⟩
                obtain rfl := Option.some.inj hquote
                obtain rfl := Option.some.inj (henvelope.symm.trans hpricing)
                omega
              · intro hremaining
                exact ⟨quote, pricing, rfl, not_not.mp hfresh, henvelope, hfilled, by omega⟩

/-- What an attempt reports is what it does. -/
theorem tryFill_continues (st : LegState) {book : Option BoxQuote} {reserved : ℚ → ℕ}
    (hlive : ¬(st.leg.pendingSince = none ∨ now < st.leg.arrivalAt)) (hgood : st.Good now)
    (hopen : st.done = false) (hengaged : st.Engaged) (hflight : st.leg.status ≠ .inFlight) :
    st.Continues (r.tryFill now book reserved st).1 ∧
      ((r.tryFill now book reserved st).2 = .filled ∧
          (r.tryFill now book reserved st).1.leg.status = .filled ∧
          (r.tryFill now book reserved st).1.leg.fillAt = some now ∧
          (r.tryFill now book reserved st).1.leg.failReason = none ∧
          r.Covers st now book reserved ∨
        (r.tryFill now book reserved st).2 ≠ .filled ∧
          (r.tryFill now book reserved st).1.leg.status ≠ .filled ∧
          ¬r.Covers st now book reserved) := by
  have hnotFilled := hgood.not_filled hopen
  obtain ⟨tried, cause, hresult, htried, hcause, hcovers⟩ | ⟨pricing, walk, hresult, hcovers⟩ :=
    tryFill_cases hlive hgood
  · rw [hresult]
    have hunreleased : ¬(tried.failing cause).Unreleased :=
      not_unreleased_of_cause rfl hcause.1 hcause.2
    have hsame : tried.leg.status = st.leg.status ∧ tried.leg.submitAt = st.leg.submitAt := by
      obtain rfl | ⟨pricing, rfl⟩ := htried
      · exact ⟨rfl, rfl⟩
      · exact ⟨rfl, rfl⟩
    have hstatus : (tried.failing cause).leg.status = st.leg.status := hsame.1
    refine ⟨⟨⟨?_, hunreleased⟩, hsame.2, ?_⟩, .inr ⟨by simp, ?_, hcovers⟩⟩
    · rw [hstatus]
      exact hengaged.1
    · rw [hstatus]
      exact hflight
    · rw [hstatus]
      exact hnotFilled
  · rw [hresult, settle]
    split
    · rename_i hremaining
      exact ⟨⟨⟨by rintro ⟨⟩, not_unreleased_of_none rfl⟩, rfl, by rintro ⟨⟩⟩,
        .inl ⟨rfl, rfl, rfl, rfl, hcovers.mpr hremaining⟩⟩
    · rename_i hremaining
      have hstatus : ∀ status, status ≠ .cancelRequested → status ≠ .partiallyFilled →
          ((st.priced pricing).applySlices walk).rest.leg.status ≠ status := by
        intro status hcancel hpartly
        simp only [rest]
        split
        · exact hcancel.symm
        · exact hpartly.symm
      exact ⟨⟨⟨hstatus _ (by simp) (by simp), not_unreleased_of_none rfl⟩, rfl, hstatus _ (by simp) (by simp)⟩,
        .inr ⟨by simp, hstatus _ (by simp) (by simp), fun hcovered => hremaining (hcovers.mp hcovered)⟩⟩

theorem attempt_continues (quotes : ℕ → Option BoxQuote) (reserved : ℚ → ℕ)
    (hlive : ¬(st.leg.pendingSince = none ∨ now < st.leg.arrivalAt)) (hgood : st.Good now)
    (hopen : st.done = false) (hengaged : st.Engaged) (hflight : st.leg.status ≠ .inFlight) :
    st.Continues (r.attempt now quotes reserved st).1 ∧
      ((r.attempt now quotes reserved st).2 = .filled ∧
          (r.attempt now quotes reserved st).1.leg.status = .filled ∧
          (r.attempt now quotes reserved st).1.leg.fillAt = some now ∧
          (r.attempt now quotes reserved st).1.leg.failReason = none ∧
          r.Covers st now (quotes st.req.token) reserved ∨
        (r.attempt now quotes reserved st).2 ≠ .filled ∧
          (r.attempt now quotes reserved st).1.leg.status ≠ .filled ∧
          ¬r.Covers st now (quotes st.req.token) reserved) := by
  obtain ⟨hcontinues, hresult⟩ :=
    tryFill_continues { st with fillAttempts := st.fillAttempts + 1 } hlive
      (hgood.attempted (st.fillAttempts + 1)).good hopen hengaged hflight
  exact ⟨⟨hcontinues.engaged, hcontinues.submitAt, hcontinues.arrived⟩, hresult⟩

/-- The deadline of an order at the exchange does not fill it. -/
theorem expire_continues (now : ℚ)
    (hworking : st.leg.status = .pending ∨ st.leg.status = .partiallyFilled)
    (hengaged : st.Engaged) :
    st.Continues (r.expire i now st) ∧ (r.expire i now st).leg.status ≠ .filled := by
  have hexpired : ∀ detail, detail.cause = (r.unfilledReason st).cause →
      st.Continues (st.timeOut now detail) ∧ (st.timeOut now detail).leg.status ≠ .filled := by
    intro detail hcause
    have hunreleased : ¬(st.timeOut now detail).Unreleased :=
      not_unreleased_of_cause (congrArg some hcause) (by rintro ⟨⟩) (by rintro ⟨⟩)
    exact ⟨⟨⟨by rintro ⟨⟩, hunreleased⟩, rfl, by rintro ⟨⟩⟩, by rintro ⟨⟩⟩
  rw [LegRun.expire]
  split
  · rename_i latencyMs hrace
    have hcancel : r.requestCancel i now .timeout (r.unfilledReason st) st =
        r.cancelResting i now .timeout (r.unfilledReason st) st := by
      rw [LegRun.requestCancel]
      obtain hstatus | hstatus := hworking
      · rw [hstatus]
      · rw [hstatus]
    rw [hcancel, LegRun.cancelResting, hrace]
    simp only
    split
    · refine ⟨⟨hengaged, rfl, ?_⟩, ?_⟩
      · obtain hstatus | hstatus := hworking
        · rw [hstatus]
          simp
        · rw [hstatus]
          simp
      · obtain hstatus | hstatus := hworking
        · rw [hstatus]
          simp
        · rw [hstatus]
          simp
    · exact ⟨⟨⟨by simp, not_unreleased_of_cause rfl (by rintro ⟨⟩) (by rintro ⟨⟩)⟩, rfl, by simp⟩, by simp⟩
  · exact hexpired _ rfl

/-- A confirmed cancel leaves an open leg without a complete fill. -/
theorem confirmCancel_continues (hgood : st.Good now) (hopen : st.done = false)
    (hengaged : st.Engaged) :
    st.Continues (r.confirmCancel now st) ∧ (r.confirmCancel now st).leg.status ≠ .filled := by
  have hwhole := hgood.whole (hgood.not_filled hopen)
  simp only [LegRun.confirmCancel]
  split
  · rename_i hcomplete
    have hnothing := hwhole hcomplete.1
    have hsomething : 0 < st.leg.fillQty := hcomplete.2
    omega
  · split
    · exact ⟨⟨⟨by simp, not_unreleased_of_cause rfl (by rintro ⟨⟩) (by rintro ⟨⟩)⟩, rfl, by simp⟩, by simp⟩
    · have hstatus : ∀ status, status ≠ .cancelled → status ≠ .failed →
          (if 0 < st.leg.noteRacedQuantity.fillQty then PaperLegStatus.cancelled
            else PaperLegStatus.failed) ≠ status := by
        intro status hcancelled hfailed
        split
        · exact hcancelled.symm
        · exact hfailed.symm
      refine ⟨⟨⟨hstatus _ (by simp) (by simp), ?_⟩, rfl, hstatus _ (by simp) (by simp)⟩, hstatus _ (by simp) (by simp)⟩
      by_cases hraced : 0 < st.leg.noteRacedQuantity.racedFillQty
      · simp only [if_pos hraced]
        have hunreleased := hengaged.2
        simp only [Unreleased, cause] at hunreleased
        change ¬(some (st.leg.failReason.getD FailCause.cancelled.reason).cause =
              some .notSubmitted ∨
            some (st.leg.failReason.getD FailCause.cancelled.reason).cause = some .unresolved)
        cases hreason : st.leg.failReason with
        | none => exact not_or.mpr ⟨by rintro ⟨⟩, by rintro ⟨⟩⟩
        | some reason =>
            rw [hreason] at hunreleased
            exact hunreleased
      · simp only [if_neg hraced]
        exact hengaged.2

end Leg

def LegState.Waiting (st : LegState) : Prop :=
  st.leg.status = .created ∧ st.leg.failReason = none

def LegState.Skipped (st : LegState) : Prop :=
  st.leg.status = .failed ∧ st.cause = some .notSubmitted

/-- The legs as long as no abort is requested, and the loop is not left. -/
structure Lineup (legs : List LegState) (k : ℕ) : Prop where
  behind : ∀ (i : ℕ) (st : LegState), i < k → legs[i]? = some st →
    st.leg.status = .filled ∧ st.leg.failReason = none
  released : ∀ (i : ℕ) (st next : LegState), i < k → legs[i]? = some st →
    legs[i + 1]? = some next → st.leg.fillAt = some next.leg.submitAt
  current : ∀ st : LegState, legs[k]? = some st → st.Engaged
  ahead : (∀ (j : ℕ) (st : LegState), k < j → legs[j]? = some st → st.Waiting) ∨
    (∀ (j : ℕ) (st : LegState), k < j → legs[j]? = some st → st.Skipped) ∧
      ∀ st : LegState, legs[k]? = some st → st.leg.status ≠ .inFlight

/-- A filled leg is the last, as long as it is the current one. -/
def NothingAhead (legs : List LegState) (k : ℕ) : Prop :=
  ∀ st : LegState, legs[k]? = some st → st.leg.status = .filled → legs[k + 1]? = none

section Line

open LegState

variable {r : LegRun} {now : ℚ} {legs : List LegState} {st st' : LegState} {i j k : ℕ}

namespace Lineup

/-- Nothing ahead of the current leg is engaged. -/
theorem ahead_cases (h : Lineup legs k) (hlt : k < j) (hst : legs[j]? = some st) :
    st.Waiting ∨ st.Skipped := by
  obtain hwaiting | ⟨hskipped, -⟩ := h.ahead
  · exact .inl (hwaiting j st hlt hst)
  · exact .inr (hskipped j st hlt hst)

/-- The leg that is worked is the current one. -/
theorem eq_current (h : Lineup legs k) (hst : legs[i]? = some st) (hgood : st.Good now)
    (hopen : st.done = false) (hcreated : st.leg.status ≠ .created) : i = k := by
  by_contra hne
  obtain hlt | hlt := lt_or_gt_of_ne hne
  · exact hgood.not_filled hopen (h.behind i st hlt hst).1
  · obtain ⟨hstatus, -⟩ | ⟨hstatus, -⟩ := h.ahead_cases hlt hst
    · exact hcreated hstatus
    · have hterminal := hgood.not_terminal hopen
      rw [hstatus] at hterminal
      cases hterminal

/-- The current leg goes on. -/
theorem set (h : Lineup legs k) (hst : legs[k]? = some st) (hnext : st.Continues st') :
    Lineup (legs.set k st') k := by
  obtain ⟨hbound, -⟩ := List.getElem?_eq_some_iff.mp hst
  constructor
  · intro i other hlt hother
    rw [List.getElem?_set_ne (by omega)] at hother
    exact h.behind i other hlt hother
  · intro i other next hlt hother hnext'
    rw [List.getElem?_set_ne (by omega)] at hother
    rw [List.getElem?_set] at hnext'
    split at hnext'
    · rename_i heq
      obtain rfl := Option.some.inj hnext'
      rw [hnext.submitAt]
      exact h.released i other st hlt hother (heq ▸ hst)
    · exact h.released i other next hlt hother hnext'
  · intro other hother
    rw [List.getElem?_set_self hbound] at hother
    obtain rfl := Option.some.inj hother
    exact hnext.engaged
  · have hsame : ∀ j, k < j → (legs.set k st')[j]? = legs[j]? := fun j hlt =>
      List.getElem?_set_ne (by omega)
    obtain hwaiting | ⟨hskipped, -⟩ := h.ahead
    · exact .inl fun j other hlt hother => hwaiting j other hlt (hsame j hlt ▸ hother)
    · refine .inr ⟨fun j other hlt hother => hskipped j other hlt (hsame j hlt ▸ hother), ?_⟩
      intro other hother
      rw [List.getElem?_set_self hbound] at hother
      obtain rfl := Option.some.inj hother
      exact hnext.arrived

theorem getElem?_cancelRemaining (legs : List LegState) (i j : ℕ) :
    (cancelRemaining legs i)[j]? = legs[j]?.map fun st =>
      if i < j ∧ st.done = false ∧ st.leg.status = .created then st.notSubmitted else st := by
  rw [cancelRemaining, List.getElem?_mapIdx]

theorem getElem?_cancelRemaining_of_le (hle : j ≤ i) :
    (cancelRemaining legs i)[j]? = legs[j]? := by
  rw [getElem?_cancelRemaining]
  cases legs[j]? with
  | none => rfl
  | some st => rw [Option.map_some, if_neg fun hahead => absurd hahead.1 (by omega)]

/-- Behind a leg that has failed the rest is skipped. -/
theorem cancelRemaining (h : Lineup legs k) (hgood : ∀ st ∈ legs, st.Good now)
    (harrived : ∀ st, legs[k]? = some st → st.leg.status ≠ .inFlight) :
    Lineup (cancelRemaining legs k) k := by
  constructor
  · intro i other hlt hother
    rw [getElem?_cancelRemaining_of_le (by omega)] at hother
    exact h.behind i other hlt hother
  · intro i other next hlt hother hnext
    rw [getElem?_cancelRemaining_of_le (by omega)] at hother hnext
    exact h.released i other next hlt hother hnext
  · intro other hother
    rw [getElem?_cancelRemaining_of_le le_rfl] at hother
    exact h.current other hother
  · refine .inr ⟨?_, fun other hother => ?_⟩
    · intro j other hlt hother
      rw [getElem?_cancelRemaining] at hother
      obtain ⟨before, hbefore, rfl⟩ := Option.map_eq_some_iff.mp hother
      obtain ⟨hcreated, -⟩ | hskipped := h.ahead_cases hlt hbefore
      · have hopen : before.done = false := by
          rw [(hgood before (List.mem_of_getElem? hbefore)).done_eq, hcreated]
          rfl
        rw [if_pos ⟨hlt, hopen, hcreated⟩]
        exact ⟨rfl, rfl⟩
      · rw [if_neg fun hahead => by rw [hskipped.1] at hahead; cases hahead.2.2]
        exact hskipped
    · rw [getElem?_cancelRemaining_of_le le_rfl] at hother
      exact harrived other hother

/-- A filled leg lets the next one go. -/
theorem submitNext {next : LegState} (h : Lineup legs k) (hst : legs[k]? = some st)
    (hfilled : st.leg.status = .filled) (hreason : st.leg.failReason = none)
    (hfillAt : st.leg.fillAt = some now) (hnext : legs[k + 1]? = some next)
    (hahead : ∀ (j : ℕ) (st : LegState), k < j → legs[j]? = some st → st.Waiting) :
    Lineup (legs.set (k + 1) (r.submit (k + 1) now none next)) (k + 1) := by
  obtain ⟨hbound, -⟩ := List.getElem?_eq_some_iff.mp hnext
  have hself : (legs.set (k + 1) (r.submit (k + 1) now none next))[k + 1]? =
      some (r.submit (k + 1) now none next) := List.getElem?_set_self hbound
  have hother : ∀ j, j ≠ k + 1 →
      (legs.set (k + 1) (r.submit (k + 1) now none next))[j]? = legs[j]? := fun j hne =>
    List.getElem?_set_ne hne.symm
  constructor
  · intro i other hlt hi
    rw [hother i (by omega)] at hi
    obtain hlt' | rfl := Nat.lt_succ_iff_lt_or_eq.mp hlt
    · exact h.behind i other hlt' hi
    · obtain rfl := Option.some.inj (hst.symm.trans hi)
      exact ⟨hfilled, hreason⟩
  · intro i other following hlt hi hfollowing
    rw [hother i (by omega)] at hi
    obtain hlt' | rfl := Nat.lt_succ_iff_lt_or_eq.mp hlt
    · rw [hother (i + 1) (by omega)] at hfollowing
      exact h.released i other following hlt' hi hfollowing
    · rw [hself] at hfollowing
      obtain rfl := Option.some.inj hfollowing
      obtain rfl := Option.some.inj (hst.symm.trans hi)
      exact hfillAt
  · intro other hi
    rw [hself] at hi
    obtain rfl := Option.some.inj hi
    exact ⟨nofun, not_unreleased_of_none (hahead (k + 1) next (by omega) hnext).2⟩
  · refine .inl fun j other hlt hi => ?_
    rw [hother j (by omega)] at hi
    exact hahead j other (by omega) hi

end Lineup

theorem nothingAhead_set (hst : legs[k]? = some st) (hfilled : st'.leg.status ≠ .filled) :
    NothingAhead (legs.set k st') k := by
  obtain ⟨hbound, -⟩ := List.getElem?_eq_some_iff.mp hst
  intro other hother hstatus
  rw [List.getElem?_set_self hbound] at hother
  obtain rfl := Option.some.inj hother
  exact absurd hstatus hfilled

theorem nothingAhead_cancelRemaining (h : NothingAhead legs k) :
    NothingAhead (cancelRemaining legs k) k := by
  intro other hother hstatus
  rw [Lineup.getElem?_cancelRemaining_of_le le_rfl] at hother
  rw [Lineup.getElem?_cancelRemaining, h other hother hstatus]
  rfl

/-- Good legs in a line, with nothing behind a complete fill to wait for. -/
structure OnTurn (now : ℚ) (legs : List LegState) : Prop where
  good : ∀ st ∈ legs, st.Good now
  line : ∃ k, Lineup legs k ∧ NothingAhead legs k

theorem good_of_advances {legs' : List LegState} (hgood : ∀ st ∈ legs, st.Good now)
    (h : Entrywise (Advances now) legs legs') : ∀ st ∈ legs', st.Good now := by
  intro st' hst'
  obtain ⟨st, hst, hadvance⟩ := h.of_mem hst'
  exact (hadvance (hgood st hst)).1.good

theorem good_set (hgood : ∀ st ∈ legs, st.Good now) (hst' : st'.Good now) :
    ∀ st ∈ legs.set k st', st.Good now := by
  intro st hst
  obtain hold | rfl := List.mem_or_eq_of_mem_set hst
  · exact hgood st hold
  · exact hst'

/-- The current leg goes on without a complete fill. -/
theorem Lineup.goesOn (h : Lineup legs k) (hst : legs[k]? = some st) (hnext : st.Continues st')
    (hfilled : st'.leg.status ≠ .filled) :
    ∃ k', Lineup (legs.set k st') k' ∧ NothingAhead (legs.set k st') k' :=
  ⟨k, h.set hst hnext, nothingAhead_set hst hfilled⟩

/-- The current leg fails, and the rest is skipped. -/
theorem Lineup.fails (h : Lineup legs k) (hst : legs[k]? = some st) (hnext : st.Continues st')
    (hfilled : st'.leg.status ≠ .filled) (hgood : ∀ st ∈ legs, st.Good now)
    (hst' : st'.Good now) :
    ∃ k', Lineup (PaperLegs.cancelRemaining (legs.set k st') k) k' ∧
      NothingAhead (PaperLegs.cancelRemaining (legs.set k st') k) k' := by
  obtain ⟨hbound, -⟩ := List.getElem?_eq_some_iff.mp hst
  refine ⟨k, (h.set hst hnext).cancelRemaining (good_set hgood hst') ?_,
    nothingAhead_cancelRemaining (nothingAhead_set hst hfilled)⟩
  intro other hother
  rw [List.getElem?_set_self hbound] at hother
  obtain rfl := Option.some.inj hother
  exact hnext.arrived

/-- The current leg is filled and releases the next, if there is one. -/
theorem Lineup.releases (h : Lineup legs k) (hst : legs[k]? = some st)
    (hfilled : st.leg.status = .filled) (hreason : st.leg.failReason = none)
    (hfillAt : st.leg.fillAt = some now)
    (hahead : ∀ (j : ℕ) (st : LegState), k < j → legs[j]? = some st → st.Waiting) :
    ∃ k', Lineup (r.submitNext legs k now) k' ∧ NothingAhead (r.submitNext legs k now) k' := by
  rw [LegRun.submitNext]
  split
  · rename_i hlast
    exact ⟨k, h, fun _ _ _ => hlast⟩
  · rename_i next hnext
    obtain ⟨hbound, -⟩ := List.getElem?_eq_some_iff.mp hnext
    rw [if_neg (not_not.mpr (hahead (k + 1) next (by omega) hnext).1)]
    refine ⟨k + 1, h.submitNext hst hfilled hreason hfillAt hnext hahead, ?_⟩
    intro other hother hstatus
    rw [List.getElem?_set_self hbound] at hother
    obtain rfl := Option.some.inj hother
    cases hstatus

theorem OnTurn.arrive (hmode : r.Sequential) (h : OnTurn now legs) (quotes : ℕ → Option BoxQuote)
    (reserved : ℕ → ℚ → ℕ) (i : ℕ) : OnTurn now (r.arrive now quotes reserved legs i) := by
  refine ⟨good_of_advances h.good (arrive_advances quotes reserved legs i), ?_⟩
  obtain ⟨k, hline, hnothing⟩ := h.line
  rw [LegRun.arrive]
  split
  · exact ⟨k, hline, hnothing⟩
  · rename_i st hst
    split
    · exact ⟨k, hline, hnothing⟩
    · rename_i hvisited
      obtain ⟨hdone, hvisited⟩ := not_or.mp hvisited
      obtain ⟨hflight, harrival⟩ := not_or.mp hvisited
      have hopen : st.done = false := Bool.not_eq_true _ ▸ hdone
      have hflight := not_not.mp hflight
      have hgood := h.good st (List.mem_of_getElem? hst)
      obtain rfl := hline.eq_current hst hgood hopen (by simp [hflight])
      obtain ⟨hbound, -⟩ := List.getElem?_eq_some_iff.mp hst
      have hengaged := hline.current st hst
      have harrived := hgood.arriveAtExchange (r := r) hflight hopen
      have hengaged' : (r.arriveAtExchange now st).Engaged := ⟨by rintro ⟨⟩, hengaged.2⟩
      have hwaiting := hline.ahead.resolve_right fun hskipped => hskipped.2 st hst hflight
      simp only
      split
      · obtain ⟨hcontinues, hfilled⟩ := expire_continues (r := r) (i := i) now
          (.inl rfl : (r.arriveAtExchange now st).leg.status = .pending ∨ _) hengaged'
        exact hline.fails hst ⟨hcontinues.engaged, hcontinues.submitAt, hcontinues.arrived⟩ hfilled
          h.good (harrived.good.expire hopen).good
      · have hlive : ¬((r.arriveAtExchange now st).leg.pendingSince = none ∨
            now < (r.arriveAtExchange now st).leg.arrivalAt) :=
          not_or.mpr ⟨by rintro ⟨⟩, harrival⟩
        obtain ⟨hcontinues, hresult⟩ := attempt_continues quotes (reserved i)
          hlive harrived.good hopen hengaged' (by rintro ⟨⟩)
        obtain ⟨hfull, hstatus, hfillAt, hreason, -⟩ | ⟨hpart, hstatus, -⟩ := hresult
        · rw [if_pos ⟨hmode, hfull⟩]
          have hnext := hline.set hst
            ⟨hcontinues.engaged, hcontinues.submitAt, hcontinues.arrived⟩
          refine hnext.releases (List.getElem?_set_self hbound) hstatus hreason hfillAt ?_
          intro j other hlt hother
          rw [List.getElem?_set_ne (by omega)] at hother
          exact hwaiting j other hlt hother
        · rw [if_neg fun hreleases => hpart hreleases.2]
          exact hline.goesOn hst ⟨hcontinues.engaged, hcontinues.submitAt, hcontinues.arrived⟩
            hstatus

theorem OnTurn.pull (h : OnTurn now legs) (i : ℕ) : OnTurn now (r.pull now legs i) := by
  refine ⟨good_of_advances h.good (pull_advances legs i), ?_⟩
  obtain ⟨k, hline, hnothing⟩ := h.line
  rw [LegRun.pull]
  split
  · exact ⟨k, hline, hnothing⟩
  · rename_i st hst
    split
    · exact ⟨k, hline, hnothing⟩
    · rename_i hvisited
      obtain ⟨hdone, hvisited⟩ := not_or.mp hvisited
      have hopen : st.done = false := Bool.not_eq_true _ ▸ hdone
      have hworking : st.leg.status = .pending ∨ st.leg.status = .partiallyFilled := by
        by_contra hneither
        exact hvisited (.inl (not_or.mp hneither))
      have hgood := h.good st (List.mem_of_getElem? hst)
      have hcreated : st.leg.status ≠ .created := by
        obtain hstatus | hstatus := hworking
        · rw [hstatus]
          simp
        · rw [hstatus]
          simp
      obtain rfl := hline.eq_current hst hgood hopen hcreated
      obtain ⟨hcontinues, hfilled⟩ := expire_continues (r := r) (i := i) now hworking
        (hline.current st hst)
      simp only
      split
      · exact hline.fails hst hcontinues hfilled h.good (hgood.expire hopen).good
      · exact hline.goesOn hst hcontinues hfilled

theorem OnTurn.confirm (hmode : r.Sequential) (h : OnTurn now legs) (i : ℕ) :
    OnTurn now (r.confirm now legs i) := by
  refine ⟨good_of_advances h.good (confirm_advances legs i), ?_⟩
  obtain ⟨k, hline, hnothing⟩ := h.line
  rw [LegRun.confirm]
  split
  · exact ⟨k, hline, hnothing⟩
  · rename_i st hst
    split
    · exact ⟨k, hline, hnothing⟩
    · rename_i hvisited
      obtain ⟨hdone, hvisited⟩ := not_or.mp hvisited
      have hopen : st.done = false := Bool.not_eq_true _ ▸ hdone
      have hcancelling := not_not.mp (not_or.mp hvisited).1
      have hgood := h.good st (List.mem_of_getElem? hst)
      obtain rfl := hline.eq_current hst hgood hopen (by simp [hcancelling])
      obtain ⟨hcontinues, hfilled⟩ := confirmCancel_continues (r := r) hgood hopen
        (hline.current st hst)
      simp only
      exact hline.fails hst hcontinues hfilled h.good (hgood.confirmCancel hopen).good

theorem OnTurn.sweep {visit : List LegState → ℕ → List LegState}
    (hvisit : ∀ legs i, OnTurn now legs → OnTurn now (visit legs i)) (h : OnTurn now legs) :
    OnTurn now (sweep visit legs) := by
  rw [PaperLegs.sweep]
  generalize List.range legs.length = indices
  induction indices generalizing legs with
  | nil => exact h
  | cons i indices ih => exact ih (hvisit legs i h)

theorem OnTurn.atBoundary (hmode : r.Sequential) (h : OnTurn now legs)
    (quotes : ℕ → Option BoxQuote) (reserved : ℕ → ℚ → ℕ) :
    OnTurn now (r.atBoundary now quotes reserved legs) := by
  have harrived := h.sweep fun legs i hlegs => hlegs.arrive hmode quotes reserved i
  have hpulled := harrived.sweep fun legs i hlegs => hlegs.pull (r := r) i
  exact hpulled.sweep fun legs i hlegs => hlegs.confirm hmode i

theorem getElem?_onQuotes (changed : List ℕ) (quotes : ℕ → Option BoxQuote)
    (reserved : ℕ → ℚ → ℕ) (legs : List LegState) (i : ℕ) :
    (r.onQuotes now changed quotes reserved legs)[i]? = legs[i]?.map fun st =>
      if st.Wakes changed now then (r.attempt now quotes (reserved i) st).1 else st := by
  rw [LegRun.onQuotes, List.getElem?_mapIdx]

theorem LegState.Wakes.not_created {changed : List ℕ} (h : st.Wakes changed now) :
    st.leg.status ≠ .created := by
  obtain ⟨-, hstatus | hstatus | hstatus, -⟩ := h
  · rw [hstatus]
    nofun
  · rw [hstatus]
    nofun
  · rw [hstatus]
    nofun

theorem LegState.Wakes.not_inFlight {changed : List ℕ} (h : st.Wakes changed now) :
    st.leg.status ≠ .inFlight := by
  obtain ⟨-, hstatus | hstatus | hstatus, -⟩ := h
  · rw [hstatus]
    nofun
  · rw [hstatus]
    nofun
  · rw [hstatus]
    nofun

/-- A tick leaves the line, and nothing ahead exactly if it covers no leg with one behind it. -/
theorem OnTurn.tick (hgood : ∀ st ∈ legs, st.Good now) (hline : Lineup legs k)
    (hnothing : NothingAhead legs k) (changed : List ℕ) (quotes : ℕ → Option BoxQuote)
    (reserved : ℕ → ℚ → ℕ) :
    Lineup (r.onQuotes now changed quotes reserved legs) k ∧
      (NothingAhead (r.onQuotes now changed quotes reserved legs) k ↔
        ∀ i st, legs[i]? = some st → i + 1 < legs.length → st.Wakes changed now →
          ¬r.Covers st now (quotes st.req.token) (reserved i)) := by
  have honly : ∀ i st, legs[i]? = some st → st.Wakes changed now → i = k := fun i st hst hwakes =>
    hline.eq_current hst (hgood st (List.mem_of_getElem? hst)) hwakes.1 hwakes.not_created
  by_cases hcurrent : ∃ st, legs[k]? = some st ∧ st.Wakes changed now
  · obtain ⟨st, hst, hwakes⟩ := hcurrent
    obtain ⟨hbound, -⟩ := List.getElem?_eq_some_iff.mp hst
    have hset : r.onQuotes now changed quotes reserved legs =
        legs.set k (r.attempt now quotes (reserved k) st).1 := by
      apply List.ext_getElem?
      intro i
      rw [getElem?_onQuotes]
      by_cases heq : i = k
      · subst heq
        rw [List.getElem?_set_self hbound, hst, Option.map_some, if_pos hwakes]
      · rw [List.getElem?_set_ne (Ne.symm heq)]
        cases hother : legs[i]? with
        | none => rfl
        | some other =>
            rw [Option.map_some, if_neg fun hwoken => heq (honly i other hother hwoken)]
    have hlive : ¬(st.leg.pendingSince = none ∨ now < st.leg.arrivalAt) :=
      not_or.mpr ⟨hwakes.2.2.2.1, not_lt.mpr hwakes.2.2.2.2.1⟩
    obtain ⟨hcontinues, hresult⟩ := attempt_continues (r := r) quotes (reserved k)
      hlive (hgood st (List.mem_of_getElem? hst)) hwakes.1
      (hline.current st hst) hwakes.not_inFlight
    rw [hset]
    refine ⟨hline.set hst hcontinues, ?_⟩
    obtain ⟨-, hstatus, -, -, hcovers⟩ | ⟨-, hstatus, hcovers⟩ := hresult
    · constructor
      · intro hlast i other hother hahead hwoken
        obtain rfl := honly i other hother hwoken
        have hnone := hlast _ (List.getElem?_set_self hbound) hstatus
        rw [List.getElem?_eq_none_iff, List.length_set] at hnone
        omega
      · intro hcovered other hother hfilled
        rw [List.getElem?_eq_none_iff, List.length_set]
        by_contra hlt
        exact hcovered k st hst (by omega) hwakes hcovers
    · constructor
      · intro _ i other hother _ hwoken
        obtain rfl := honly i other hother hwoken
        obtain rfl := Option.some.inj (hst.symm.trans hother)
        exact hcovers
      · intro _
        exact nothingAhead_set hst hstatus
  · have hsame : r.onQuotes now changed quotes reserved legs = legs := by
      apply List.ext_getElem?
      intro i
      rw [getElem?_onQuotes]
      cases hst : legs[i]? with
      | none => rfl
      | some st =>
          rw [Option.map_some, if_neg]
          intro hwoken
          obtain rfl := honly i st hst hwoken
          exact hcurrent ⟨st, hst, hwoken⟩
    rw [hsame]
    refine ⟨hline, fun _ i st hst _ hwoken => ?_, fun _ => hnothing⟩
    obtain rfl := honly i st hst hwoken
    exact absurd ⟨st, hst, hwoken⟩ hcurrent

end Line

end Strikedge.PaperLegs
