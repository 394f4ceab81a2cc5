import Strikedge.Outbox.Lineup

/-!
# The order of an aggregate

A pass publishes the rows of one aggregate in their sequence, as far as it has claimed them.
A row that waits for its retry, or that another pass has locked, is not claimed, and neither
is one that is not committed yet: the rows after it may overtake it.
-/

namespace Strikedge.Outbox

open Machine

variable {cfg : ProjectorConfig}

/-- The row is to be claimed: at once when it is due and free, and after the pass that holds it
otherwise. -/
def Claimable (s : State) (row : OutboxRow) : Prop :=
  row.pending = true ∧
    ((s.rows.free row.eventId = true ∧ ∀ now, row.nextAttemptAt ≤ now →
        row ∈ State.batch { s with now := now } s.rows.committed.size) ∨
      ∃ tx, s.rows.locks.get? row.eventId = some tx ∧ s.passes.has tx = true)

/-- Rows are first written in the order of their aggregate, and none is lost. -/
structure InOrder (s : State) : Prop where
  /-- Before a pass writes a row for the first time, it sees those before it settled. -/
  next : ∀ tx pass row rest groups, s.passes.get? tx = some pass →
    pass.remaining = (row :: rest) :: groups → documentFor s row = none →
      ∀ k lower, s.rows.view k tx = some lower → lower.aggregate = row.aggregate →
        lower.sequence < row.sequence → lower.pending = false
  /-- No row turns up before one that is written. -/
  written : ∀ k row, s.rows.committed.get? k = some row → documentFor s row ≠ none →
    ∀ k' lower, s.rows.committed.get? k' = some lower → lower.aggregate = row.aggregate →
      lower.sequence < row.sequence →
        documentFor s lower ≠ none ∨ lower.deadLetteredAt.isSome = true
  kept : ∀ enqueued ∈ s.enqueued, s.rows.committed.get? enqueued.event.eventId ≠ none
  settled : ∀ k row, s.rows.committed.get? k = some row → row.pending = false ∨ Claimable s row
  faithful : ∀ k row, s.rows.committed.get? k = some row → row.publishedAt.isSome = true →
    (documentFor s row).map (·.data) = some row.payload

namespace Orderly

variable {s : State} {tx : TxId}

theorem next (h : Orderly cfg s) {pass : Pass} {row : OutboxRow} {rest : List OutboxRow}
    {groups : List (List OutboxRow)} (hpass : s.passes.get? tx = some pass)
    (hremaining : pass.remaining = (row :: rest) :: groups) (hnone : documentFor s row = none)
    {k : String} {lower : OutboxRow} (hview : s.rows.view k tx = some lower)
    (haggregate : lower.aggregate = row.aggregate) (hlt : lower.sequence < row.sequence) :
    lower.pending = false := by
  rw [RowLocks.view] at hview
  split at hview
  · rename_i hown
    have hl := RowLocks.owns_iff.mp hown
    obtain hs | ⟨hnotStaged, hc⟩ := Option.or_eq_some_iff.mp hview
    · -- the pass has recorded an outcome, which must be that the row is published
      obtain ⟨u, hu, hid, hcase⟩ := h.sound.staged k lower hs
      obtain rfl := Option.some.inj (hl.symm.trans hu)
      obtain ⟨hw, -⟩ | ⟨-, base, hbase, houtcome, -⟩ := hcase
      · rw [OrderedMap.has, h.sound.apart_of_pass hpass] at hw
        cases hw
      · have hdone := h.done_before_head hpass hremaining hnone hbase
          (houtcome.aggregate.symm.trans haggregate) (by rw [← houtcome.sequence]; exact hlt)
        obtain hsettled | ⟨-, result, hresult, hpublished⟩ := hdone
        · rw [h.pending_of_lock hpass hl hbase] at hsettled
          cases hsettled
        · rw [h.sound.keyed k base hbase, hs] at hresult
          cases hresult
          rw [OutboxRow.pending, Option.isNone_eq_false_iff.mpr hpublished, Bool.false_and]
    · obtain hsettled | ⟨-, result, hresult, -⟩ :=
        h.done_before_head hpass hremaining hnone hc haggregate hlt
      · exact hsettled
      · rw [h.sound.keyed k lower hc, hnotStaged] at hresult
        cases hresult
  · rename_i hown
    obtain hsettled | ⟨hl, -⟩ :=
      h.done_before_head hpass hremaining hnone hview haggregate hlt
    · exact hsettled
    · rw [h.sound.keyed k lower hview] at hl
      exact absurd (RowLocks.owns_iff.mpr hl) hown

/-- A pending row can be claimed, or a pass holds it. -/
theorem claimable (h : Orderly cfg s) {k : String} {row : OutboxRow}
    (hrow : s.rows.committed.get? k = some row) (hpending : row.pending = true) :
    Claimable s row := by
  have hid := h.sound.keyed k row hrow
  refine ⟨hpending, ?_⟩
  cases hl : s.rows.locks.get? row.eventId with
  | none =>
    refine .inl ⟨RowLocks.free_iff.mpr hl, fun now hnow => ?_⟩
    simp only [State.batch]
    rw [List.take_of_length_le]
    · rw [List.mem_insertionSort, List.mem_filter]
      refine ⟨OrderedMap.mem_values_iff.mpr ⟨k, hrow⟩, ?_⟩
      rw [OutboxRow.due, hpending, decide_eq_true hnow, RowLocks.free_iff.mpr hl]
      rfl
    · rw [List.length_insertionSort]
      refine (List.length_filter_le _ _).trans ?_
      rw [OrderedMap.values, List.length_map]
      exact le_rfl
  | some tx =>
    refine .inr ⟨tx, rfl, ?_⟩
    rw [hid] at hl
    obtain hw | hp := h.sound.live k tx hl
    · rw [h.unknown tx k hw hl] at hrow
      cases hrow
    · exact hp

theorem inOrder (h : Orderly cfg s) : InOrder s where
  next tx pass row rest groups hpass hremaining hnone k lower hview haggregate hlt :=
    h.next hpass hremaining hnone hview haggregate hlt
  written := h.written
  kept := h.kept
  settled k row hrow := by
    cases hpending : row.pending with
    | false => exact .inl rfl
    | true => exact .inr (h.claimable hrow hpending)
  faithful k row hrow hpublished :=
    documentFor_of_delivered (h.sound.delivered k row hrow hpublished)

end Orderly

instance (s : State) : ∀ a, Decidable (InTurn s a)
  | .claim _ => by
    rw [InTurn]
    infer_instance
  | .commit _ => by
    rw [InTurn]
    infer_instance
  | .tick _ | .begin | .enqueue .. | .execute _ | .rollback _ | .publish .. | .finish _
  | .crash _ => .isTrue trivial

/-- In every run of events whose claims and commits come in turn, however the passes overlap,
fail or die, the rows of each aggregate are first written in order, and none is lost. -/
theorem rows_in_order (cfg : ProjectorConfig) (as : List Action)
    (hevents : ∀ a ∈ as, EventsOnly a) (hturn : Heeds (State.step cfg) InTurn {} as) :
    Throughout (State.step cfg) InOrder {} as := by
  have h : Throughout (State.step cfg) (Orderly cfg) {} as :=
    Throughout.of_heeds_among (fun s a t ha hs hturn hstep => hs.step ha hturn hstep)
      Orderly.initial hevents hturn
  exact h.mono fun s hs => hs.inOrder

namespace Overtaken

def event (id : String) : Enqueued where
  kind := .event
  event := {
    eventId := id
    aggregateType := "box_trade_event"
    aggregateId := "T-1"
    eventType := id
    payload := .null }

/-- Both events are enqueued by one transaction. -/
def enqueues : List Action :=
  [.begin, .enqueue 0 (event "OPENED"), .execute 0, .enqueue 0 (event "CLOSED"), .execute 0,
    .commit 0]

def published : List Action :=
  enqueues ++ [.claim 10, .publish 1 .replaced, .publish 1 .replaced, .finish 1]

theorem rows_in_order_published : Throughout (State.step ⟨60000, 10⟩) InOrder {} published :=
  rows_in_order ⟨60000, 10⟩ published (by simp [published, enqueues, event, EventsOnly])
    (by decide +kernel)

/-- The first one fails and waits, and the next pass claims the second one alone. -/
def overtaken : List Action :=
  enqueues ++ [.claim 10, .publish 1 (.failed "down" false), .finish 1, .claim 10,
    .publish 2 .replaced]

/-- The second event is in Mongo, and the first one is neither there nor given up. -/
def closedFirst (t : State) : Bool :=
  match t.rows.committed.get? "OPENED", t.rows.committed.get? "CLOSED" with
  | some opened, some closed =>
    decide (opened.aggregate = closed.aggregate ∧ opened.sequence < closed.sequence ∧
      documentFor t opened = none ∧ opened.deadLetteredAt = none ∧
      (documentFor t closed).isSome = true)
  | _, _ => false

theorem closedFirst_overtaken :
    (run (State.step ⟨60000, 10⟩) {} overtaken).map closedFirst = some true := by
  decide +kernel

end Overtaken

/-- A row that waits for its retry is overtaken by the next one of its aggregate. -/
theorem retry_is_overtaken : ¬ ∀ (cfg : ProjectorConfig) (as : List Action),
    (∀ a ∈ as, EventsOnly a) → Throughout (State.step cfg) InOrder {} as := by
  intro h
  have hthroughout := h ⟨60000, 10⟩ Overtaken.overtaken
    (by simp [Overtaken.overtaken, Overtaken.enqueues, Overtaken.event, EventsOnly])
  obtain ⟨t, hrun, hfirst⟩ := Option.map_eq_some_iff.mp Overtaken.closedFirst_overtaken
  have hinOrder := hthroughout.last hrun
  rw [Overtaken.closedFirst] at hfirst
  split at hfirst
  · rename_i opened closed hopened hclosed
    obtain ⟨haggregate, hlt, hunsent, halive, hsent⟩ := of_decide_eq_true hfirst
    obtain hdocument | hdead := hinOrder.written _ closed hclosed
      (Option.isSome_iff_ne_none.mp hsent) _ opened hopened haggregate hlt
    · exact hdocument hunsent
    · rw [halive] at hdead
      cases hdead
  · cases hfirst

end Strikedge.Outbox
