import Strikedge.Outbox.Transactions

/-!
# The latest value of a snapshot

The row of a snapshot carries the payload of the last committed value, and so does the version
that a writer has staged. A pass neither changes a payload nor lets a writer in before it ends.
-/

namespace Strikedge.Outbox

open Machine

variable {cfg : ProjectorConfig} {id : String}

/-- The payload of the last value that was enqueued under an identity. -/
def lastPayload (id : String) (enqueues : List Enqueued) : Option Json :=
  ((enqueues.filter (·.event.eventId = id)).getLast?).map (·.event.payload)

theorem lastPayload_append {as bs : List Enqueued} :
    lastPayload id (as ++ bs) = (lastPayload id bs).or (lastPayload id as) := by
  rw [lastPayload, List.filter_append, List.getLast?_append, Option.map_or]
  rfl

theorem lastPayload_singleton {enqueued : Enqueued} :
    lastPayload id [enqueued] =
      if enqueued.event.eventId = id then some enqueued.event.payload else none := by
  by_cases h : enqueued.event.eventId = id
  · simp [lastPayload, h]
  · simp [lastPayload, h]

/-- Every value under the identity is enqueued as a snapshot. -/
def SnapshotsOf (id : String) : Action → Prop
  | .enqueue _ enqueued => enqueued.event.eventId = id → enqueued.kind = .snapshot
  | _ => True

/-- The row has run out of attempts, or can never be delivered. -/
def Exhausted (cfg : ProjectorConfig) (row : OutboxRow) : Prop :=
  poison row ≠ none ∨ cfg.maxAttempts ≤ row.attempts

/-- The row and its staged version carry the last payload. -/
structure Latest (cfg : ProjectorConfig) (id : String) (s : State) : Prop where
  sound : Sound cfg s
  committed : (s.rows.committed.get? id).map (·.payload) = lastPayload id s.enqueued
  executed : ∀ tx writer, s.writers.get? tx = some writer →
    lastPayload id writer.executed =
      if s.rows.locks.get? id = some tx then (s.rows.staged.get? id).map (·.payload) else none
  snapshots : ∀ tx writer enqueued row, s.writers.get? tx = some writer →
    writer.statement = some (enqueued, row) → enqueued.event.eventId = id →
      enqueued.kind = .snapshot
  exhausted : ∀ row, s.rows.committed.get? id = some row → row.deadLetteredAt.isSome = true →
    Exhausted cfg row

namespace Latest

variable {s t : State} {tx : TxId}

theorem initial : Latest cfg id {} where
  sound := Sound.initial
  committed := rfl
  executed _ _ h := by cases h
  snapshots _ _ _ _ h := by cases h
  exhausted _ h := by cases h

/-- A pass leaves the payloads of the writers alone. -/
theorem executed_of_locks (h : Latest cfg id s) (hw : t.writers = s.writers)
    (hrows : ∀ u, s.writers.has u = true →
      (t.rows.locks.get? id = some u ↔ s.rows.locks.get? id = some u) ∧
      (s.rows.locks.get? id = some u → t.rows.staged.get? id = s.rows.staged.get? id)) :
    ∀ u writer, t.writers.get? u = some writer →
      lastPayload id writer.executed =
        if t.rows.locks.get? id = some u then (t.rows.staged.get? id).map (·.payload)
        else none := by
  intro u writer hwriter
  rw [hw] at hwriter
  obtain ⟨hlock, hstaged⟩ := hrows u (OrderedMap.has_iff.mpr ⟨writer, hwriter⟩)
  rw [h.executed u writer hwriter]
  by_cases hl : s.rows.locks.get? id = some u
  · rw [if_pos hl, if_pos (hlock.mpr hl), hstaged hl]
  · rw [if_neg hl, if_neg fun ht => hl (hlock.mp ht)]

/-- A writer that commits or is rolled back leaves the others what they have staged. -/
theorem executed_ended (h : Latest cfg id s) (e : Sound.Ended s t tx) :
    ∀ u writer, t.writers.get? u = some writer →
      lastPayload id writer.executed =
        if t.rows.locks.get? id = some u then (t.rows.staged.get? id).map (·.payload)
        else none := by
  intro u writer hwriter
  rw [e.writers u] at hwriter
  split at hwriter
  · cases hwriter
  · rename_i hu
    rw [h.executed u writer hwriter]
    by_cases hl : s.rows.locks.get? id = some u
    · have hown : ¬ s.rows.owns id tx = true := fun ho =>
        hu (Option.some.inj (hl.symm.trans (RowLocks.owns_iff.mp ho)))
      rw [if_pos hl, if_pos (e.locks.mpr ⟨hl, hu⟩), e.staged, if_neg hown]
    · rw [if_neg hl, if_neg fun ht => hl (e.locks.mp ht).1]

theorem snapshots_ended (h : Latest cfg id s) (e : Sound.Ended s t tx) :
    ∀ u writer enqueued row, t.writers.get? u = some writer →
      writer.statement = some (enqueued, row) → enqueued.event.eventId = id →
        enqueued.kind = .snapshot := by
  intro u writer enqueued row hwriter
  rw [e.writers u] at hwriter
  split at hwriter
  · cases hwriter
  · exact h.snapshots u writer enqueued row hwriter

/-- A row is dead-lettered for a failure that was its last. -/
theorem exhausted_ended (h : Latest cfg id s) (e : Sound.Ended s t tx) :
    ∀ row, t.rows.committed.get? id = some row → row.deadLetteredAt.isSome = true →
      Exhausted cfg row := by
  intro row hrow hdead
  obtain hc | ⟨hl, hs⟩ := e.committed_cases hrow
  · exact h.exhausted row hc hdead
  · obtain ⟨u, hu, -, hcase⟩ := h.sound.staged id row hs
    obtain ⟨-, hpending, -⟩ | ⟨hp, base, hbase, houtcome, -⟩ := hcase
    · rw [(pending_iff.mp hpending).2] at hdead
      cases hdead
    · obtain ⟨current, hcurrent, hpending⟩ := h.sound.claimed id u hu hp
      obtain rfl := Option.some.inj (hcurrent.symm.trans hbase)
      exact houtcome.deadLettered (pending_iff.mp hpending).2 hdead

/-- The commit of a writer makes what it has staged the last value. -/
theorem committed_commit (h : Latest cfg id s) {writer : Writer}
    (hwriter : s.writers.get? tx = some writer) :
    ((s.rows.commit tx).committed.get? id).map (·.payload) =
      lastPayload id (s.enqueued ++ writer.executed) := by
  rw [lastPayload_append, h.executed tx writer hwriter, ← h.committed,
    RowLocks.committed_commit]
  by_cases hl : s.rows.locks.get? id = some tx
  · rw [if_pos (RowLocks.owns_iff.mpr hl), if_pos hl, Option.map_or]
  · rw [if_neg fun ho => hl (RowLocks.owns_iff.mp ho), if_neg hl]
    rfl

/-- The commit of a pass leaves the payload. -/
theorem committed_finish (h : Latest cfg id s) {pass : Pass}
    (hpass : s.passes.get? tx = some pass) :
    ((s.rows.commit tx).committed.get? id).map (·.payload) = lastPayload id s.enqueued := by
  rw [← h.committed, RowLocks.committed_commit]
  split
  · rename_i hown
    cases hs : s.rows.staged.get? id with
    | none => rfl
    | some row =>
      obtain ⟨u, hu, -, hcase⟩ := h.sound.staged id row hs
      obtain rfl := Option.some.inj ((RowLocks.owns_iff.mp hown).symm.trans hu)
      obtain ⟨hw, -⟩ | ⟨-, base, hbase, houtcome, -⟩ := hcase
      · rw [OrderedMap.has, h.sound.apart_of_pass hpass] at hw
        cases hw
      · rw [hbase, Option.some_or, Option.map_some, Option.map_some, houtcome.payload]
  · rfl

/-- A statement about the row stages its payload. -/
theorem executedStep (h : Latest cfg id s) {writer : Writer}
    (hwriter : s.writers.get? tx = some writer) (hstep : s.execute tx writer = some t) :
    Latest cfg id t := by
  have hsound := h.sound.executed hwriter hstep
  obtain ⟨enqueued, row, rows, sequence, hstatement, hexecuted, rfl⟩ :=
    Sound.executed_of_execute hstep
  obtain ⟨seq, now, hrow⟩ := h.sound.stated tx writer enqueued row hwriter hstatement
  have hid : row.eventId = enqueued.event.eventId := by rw [hrow]; rfl
  have hmine := h.executed tx writer hwriter
  -- the staged version of the row is the new value, and the other rows stay
  have hstage : ∀ fresh : OutboxRow, fresh.payload = enqueued.event.payload →
      (s.rows.locks.get? row.eventId = none ∨ s.rows.locks.get? row.eventId = some tx) →
      ∀ u other, (s.writers.set tx ⟨writer.executed ++ [enqueued], none⟩).get? u = some other →
        lastPayload id other.executed =
          if ((s.rows.lock row.eventId tx).stage row.eventId fresh).locks.get? id = some u then
            (((s.rows.lock row.eventId tx).stage row.eventId fresh).staged.get? id).map
              (·.payload)
          else none := by
    intro fresh hpayload hfree u other hother
    rw [RowLocks.locks_stage, RowLocks.get?_lock, RowLocks.get?_stage, RowLocks.staged_lock]
    rw [OrderedMap.get?_set] at hother
    by_cases hk : id = row.eventId
    · rw [if_pos hk, if_pos hk]
      split at hother
      · rename_i hu
        cases hother
        rw [if_pos (by rw [hu]), lastPayload_append, lastPayload_singleton,
          if_pos (hid.symm.trans hk.symm), Option.some_or, Option.map_some, hpayload]
      · rename_i hu
        rw [if_neg fun he => hu (Option.some.inj he).symm, h.executed u other hother, if_neg ?_]
        rw [hk]
        intro hl
        obtain hn | htx := hfree
        · rw [hn] at hl
          cases hl
        · exact hu (Option.some.inj (hl.symm.trans htx))
    · rw [if_neg hk, if_neg hk]
      split at hother
      · rename_i hu
        cases hother
        rw [lastPayload_append, lastPayload_singleton,
          if_neg fun he => hk (he.symm.trans hid.symm), Option.none_or, hmine, hu]
      · exact h.executed u other hother
  refine ⟨hsound, ?_, ?_, ?_, ?_⟩
  · cases hexecuted <;> exact h.committed
  · cases hexecuted with
    | ignored event =>
      intro u other hother
      dsimp only at hother ⊢
      rw [OrderedMap.get?_set] at hother
      split at hother
      · rename_i hu
        cases hother
        have hne : enqueued.event.eventId ≠ id := by
          intro he
          rw [h.snapshots tx writer enqueued row hwriter hstatement he] at event
          cases event
        rw [lastPayload_append, lastPayload_singleton, if_neg hne, Option.none_or, hmine, hu]
      · exact h.executed u other hother
    | inserted unknown mine => exact hstage row (by rw [hrow]; rfl) mine
    | revived _ _ _ known mine =>
      rw [h.sound.view_eventId known]
      exact hstage _ rfl mine
  · intro u other enqueued' row' hother hstatement'
    dsimp only at hother
    rw [OrderedMap.get?_set] at hother
    split at hother
    · cases hother
      cases hstatement'
    · exact h.snapshots u other enqueued' row' hother hstatement'
  · cases hexecuted <;> exact h.exhausted

theorem put (h : Latest cfg id s) {pass : Pass} {row : OutboxRow}
    (hpass : s.passes.get? tx = some pass) (hrow : row ∈ pass.remaining.flatten) :
    Latest cfg id (s.put row) := by
  refine ⟨h.sound.put hpass hrow, ?_, ?_, ?_, ?_⟩
  · rw [State.rows_put, State.enqueued_put]
    exact h.committed
  · rw [State.writers_put, State.rows_put]
    exact h.executed
  · rw [State.writers_put]
    exact h.snapshots
  · rw [State.rows_put]
    exact h.exhausted

theorem crash (h : Latest cfg id s) {pass : Pass} (hpass : s.passes.get? tx = some pass) :
    Latest cfg id (s.crash tx) := by
  have he : Sound.Ended s (s.crash tx) tx :=
    h.sound.ended_pass hpass (.inr rfl) rfl rfl rfl rfl
  exact ⟨h.sound.ended he, h.committed, h.executed_ended he, h.snapshots_ended he, h.exhausted⟩

/-- A pass stages what became of a row of its own. -/
theorem recorded (h : Latest cfg id s) {pass : Pass} {row result : OutboxRow}
    {remaining : List (List OutboxRow)} (hpass : s.passes.get? tx = some pass)
    (hrow : row ∈ pass.remaining.flatten) (hid : result.eventId = row.eventId)
    (hsound : Sound cfg (s.record tx result remaining)) :
    Latest cfg id (s.record tx result remaining) := by
  obtain ⟨hlock, -, -⟩ := (h.sound.held tx pass hpass).1 row hrow
  refine ⟨hsound, h.committed, h.executed_of_locks rfl fun u hu => ⟨Iff.rfl, fun hl => ?_⟩,
    h.snapshots, h.exhausted⟩
  rw [State.record, RowLocks.get?_stage, if_neg]
  intro hk
  rw [hk, hid, hlock] at hl
  cases hl
  rw [OrderedMap.has, h.sound.apart_of_pass hpass] at hu
  cases hu

theorem sent (h : Latest cfg id s) {pass : Pass} {row : OutboxRow} {rest : List OutboxRow}
    {groups : List (List OutboxRow)} (hpass : s.passes.get? tx = some pass)
    (hremaining : pass.remaining = (row :: rest) :: groups)
    (hsent : s.Sent cfg tx row rest groups t) : Latest cfg id t := by
  have hsound := h.sound.sent hpass hremaining hsent
  have hrow : row ∈ pass.remaining.flatten := by
    rw [hremaining, List.flatten_cons]
    exact List.mem_append_left _ List.mem_cons_self
  have htried : ∀ u, s.Tried row u → Latest cfg id u ∧ u.passes.get? tx = some pass := by
    rintro u (rfl | ⟨-, rfl⟩)
    · exact ⟨h, hpass⟩
    · refine ⟨h.put hpass hrow, ?_⟩
      rw [State.passes_put]
      exact hpass
  cases hsent with
  | died tried =>
    obtain ⟨hu, hp⟩ := htried _ tried
    exact hu.crash hp
  | published sound =>
    obtain ⟨hu, hp⟩ := htried _ (.inr ⟨sound, rfl⟩)
    exact hu.recorded hp hrow rfl hsound
  | failed tried error poisoned cause =>
    obtain ⟨hu, hp⟩ := htried _ tried
    have houtcome : Outcome cfg row (failedRow cfg row s.now error poisoned) :=
      .inr ⟨_, _, _, rfl, cause⟩
    exact hu.recorded hp hrow houtcome.eventId hsound

theorem step (h : Latest cfg id s) {a : Action} (ha : SnapshotsOf id a)
    (hstep : State.step cfg s a = some t) : Latest cfg id t := by
  have hsound := h.sound.step hstep
  cases a with
  | tick now =>
    simp only [State.step] at hstep
    split at hstep
    · cases hstep
      exact ⟨hsound, h.committed, h.executed, h.snapshots, h.exhausted⟩
    · cases hstep
  | begin =>
    cases hstep
    refine ⟨hsound, h.committed, ?_, ?_, h.exhausted⟩
    · intro u writer hwriter
      dsimp only at hwriter ⊢
      rw [OrderedMap.get?_set] at hwriter
      split at hwriter
      · rename_i hu
        cases hwriter
        rw [if_neg]
        · rfl
        · intro hl
          obtain ⟨hw, hp⟩ := h.sound.fresh s.nextTx le_rfl
          rw [hu] at hl
          have hlive := h.sound.live id s.nextTx hl
          rw [OrderedMap.has, OrderedMap.has, hw, hp] at hlive
          simp at hlive
      · exact h.executed u writer hwriter
    · intro u writer enqueued row hwriter hstatement
      dsimp only at hwriter
      rw [OrderedMap.get?_set] at hwriter
      split at hwriter
      · cases hwriter
        cases hstatement
      · exact h.snapshots u writer enqueued row hwriter hstatement
  | enqueue tx enqueued =>
    obtain ⟨writer, hwriter, hstep⟩ := Option.bind_eq_some_iff.mp hstep
    rw [State.enqueue] at hstep
    split at hstep
    · cases hstep
    · split at hstep
      · cases hstep
        exact h
      · cases hstep
        refine ⟨hsound, h.committed, ?_, ?_, h.exhausted⟩
        · intro u other hother
          dsimp only at hother ⊢
          rw [OrderedMap.get?_set] at hother
          split at hother
          · rename_i hu
            cases hother
            rw [hu]
            exact h.executed tx writer hwriter
          · exact h.executed u other hother
        · intro u other enqueued' row hother hstatement
          dsimp only at hother
          rw [OrderedMap.get?_set] at hother
          split at hother
          · cases hother
            cases hstatement
            exact ha
          · exact h.snapshots u other enqueued' row hother hstatement
  | execute tx =>
    obtain ⟨writer, hwriter, hstep⟩ := Option.bind_eq_some_iff.mp hstep
    exact h.executedStep hwriter hstep
  | commit tx =>
    obtain ⟨writer, hwriter, hstep⟩ := Option.bind_eq_some_iff.mp hstep
    split at hstep
    · cases hstep
    · cases hstep
      have he := h.sound.ended_writer hwriter (t := { s with
          rows := s.rows.commit tx
          writers := s.writers.delete tx
          enqueued := s.enqueued ++ writer.executed }) (.inl rfl) rfl rfl rfl rfl
      exact ⟨hsound, h.committed_commit hwriter, h.executed_ended he, h.snapshots_ended he,
        h.exhausted_ended he⟩
  | rollback tx =>
    obtain ⟨writer, hwriter, rfl⟩ := Option.map_eq_some_iff.mp hstep
    have he := h.sound.ended_writer hwriter (t := { s with
        rows := s.rows.release tx
        writers := s.writers.delete tx }) (.inr rfl) rfl rfl rfl rfl
    exact ⟨hsound, h.committed, h.executed_ended he, h.snapshots_ended he, h.exhausted⟩
  | claim batchSize =>
    cases hstep
    refine ⟨hsound, ?_, ?_, h.snapshots, ?_⟩
    · rw [State.claim, State.committed_lockAll]
      exact h.committed
    · refine h.executed_of_locks rfl fun u hu => ?_
      rw [State.claim, State.staged_lockAll, State.get?_lockAll]
      refine ⟨?_, fun _ => rfl⟩
      split
      · rename_i hmem
        obtain ⟨row, hrow, rfl⟩ := List.mem_map.mp hmem
        rw [(State.mem_batch hrow).2.2]
        constructor
        · intro he
          cases he
          rw [OrderedMap.has, (h.sound.fresh s.nextTx le_rfl).1] at hu
          cases hu
        · intro he
          cases he
      · exact Iff.rfl
    · rw [State.claim, State.committed_lockAll]
      exact h.exhausted
  | publish tx answer =>
    obtain ⟨pass, hpass, hstep⟩ := Option.bind_eq_some_iff.mp hstep
    obtain ⟨row, rest, groups, hremaining, hsent⟩ := State.sent_of_publishRow hstep
    exact h.sent hpass hremaining hsent
  | finish tx =>
    obtain ⟨pass, hpass, hstep⟩ := Option.bind_eq_some_iff.mp hstep
    split at hstep
    · cases hstep
      have he := h.sound.ended_pass hpass (t := { s with
          rows := s.rows.commit tx
          passes := s.passes.delete tx }) (.inl rfl) rfl rfl rfl rfl
      exact ⟨hsound, h.committed_finish hpass, h.executed_ended he, h.snapshots_ended he,
        h.exhausted_ended he⟩
    · cases hstep
  | crash tx =>
    obtain ⟨pass, hpass, rfl⟩ := Option.map_eq_some_iff.mp hstep
    exact h.crash hpass

end Latest

/-- A published row has its last payload in Mongo, and a pass sends no other. -/
structure Converged (cfg : ProjectorConfig) (id : String) (s : State) : Prop where
  current : (s.rows.committed.get? id).map (·.payload) = lastPayload id s.enqueued
  published : ∀ row, s.rows.committed.get? id = some row → row.publishedAt.isSome = true →
    (documentFor s row).map (·.data) = lastPayload id s.enqueued
  deadLettered : ∀ row, s.rows.committed.get? id = some row →
    row.deadLetteredAt.isSome = true → Exhausted cfg row
  inFlight : ∀ tx pass row, s.passes.get? tx = some pass → row ∈ pass.remaining.flatten →
    row.eventId = id → lastPayload id s.enqueued = some row.payload

/-- The commit of a value leaves a row that is yet to be published, at its first attempt. -/
def Renews (cfg : ProjectorConfig) (id : String) (s : State) : Prop :=
  ∀ tx writer t, s.writers.get? tx = some writer → lastPayload id writer.executed ≠ none →
    State.step cfg s (.commit tx) = some t →
      ∃ row, t.rows.committed.get? id = some row ∧ row.pending = true ∧ row.attempts = 0 ∧
        lastPayload id writer.executed = some row.payload

namespace Latest

variable {s : State}

theorem converged (h : Latest cfg id s) : Converged cfg id s where
  current := h.committed
  published row hrow hpublished := by
    rw [documentFor_of_delivered (h.sound.delivered id row hrow hpublished), ← h.committed,
      hrow, Option.map_some]
  deadLettered := h.exhausted
  inFlight tx pass row hpass hrow hid := by
    obtain ⟨-, hc, -⟩ := (h.sound.held tx pass hpass).1 row hrow
    rw [hid] at hc
    rw [← h.committed, hc, Option.map_some]

theorem renews (h : Latest cfg id s) : Renews cfg id s := by
  intro tx writer t hwriter hsome hstep
  obtain ⟨other, hother, hstep⟩ := Option.bind_eq_some_iff.mp hstep
  obtain rfl := Option.some.inj (hwriter.symm.trans hother)
  have hlast := h.executed tx writer hwriter
  split at hstep
  · cases hstep
  · cases hstep
    by_cases hl : s.rows.locks.get? id = some tx
    · rw [if_pos hl] at hlast
      have hstaged : s.rows.staged.get? id ≠ none := by
        intro hnone
        rw [hnone] at hlast
        exact hsome hlast
      obtain ⟨row, hrow⟩ := Option.ne_none_iff_exists'.mp hstaged
      obtain ⟨u, hu, -, hcase⟩ := h.sound.staged id row hrow
      obtain rfl := Option.some.inj (hl.symm.trans hu)
      obtain ⟨-, hpending, hattempts⟩ | ⟨hp, -⟩ := hcase
      · refine ⟨row, ?_, hpending, hattempts, ?_⟩
        · rw [RowLocks.committed_commit, if_pos (RowLocks.owns_iff.mpr hl), hrow, Option.some_or]
        · rw [hlast, hrow, Option.map_some]
      · rw [OrderedMap.has, h.sound.apart_of_writer hwriter] at hp
        cases hp
    · rw [if_neg hl] at hlast
      exact absurd hlast hsome

end Latest

/-- Over every run, whatever fails or dies: a published snapshot shows its last committed
value, and a commit of a value makes the row pending again. -/
theorem snapshot_converges (cfg : ProjectorConfig) (id : String) (as : List Action)
    (hsnapshots : ∀ a ∈ as, SnapshotsOf id a) :
    Throughout (State.step cfg) (fun s => Converged cfg id s ∧ Renews cfg id s) {} as := by
  have h : Throughout (State.step cfg) (Latest cfg id) {} as :=
    Throughout.of_invariant_among (fun s a t ha hs hstep => hs.step ha hstep) Latest.initial
      hsnapshots
  exact h.mono fun s hs => ⟨hs.converged, hs.renews⟩

/-- What a report would show: settled and in no pass, a row has its last payload in Mongo. -/
def Reported (id : String) (s : State) : Prop :=
  ∀ row, s.rows.committed.get? id = some row →
    (row.publishedAt.isSome = true → s.passes.size = 0 →
      (documentFor s row).map (·.data) = lastPayload id s.enqueued) ∧
    (row.pending = false → ∀ document, documentFor s row = some document →
      lastPayload id s.enqueued = some document.data)

namespace GivenUp

def event (payload : Json) : OutboxEvent where
  eventId := "pnl-1"
  aggregateType := "box_daily_pnl"
  aggregateId := "1"
  eventType := "SNAPSHOT"
  payload := payload

def writes (tx : TxId) (payload : Json) : List Action :=
  [.begin, .enqueue tx ⟨.snapshot, event payload⟩, .execute tx, .commit tx]

/-- The first value arrives. The only attempt at the second one fails. -/
def actions : List Action :=
  writes 0 (.bool false) ++ [.claim 10, .publish 1 .replaced, .finish 1] ++
    writes 2 (.bool true) ++ [.claim 10, .publish 3 (.failed "down" false), .finish 3]

def flag : Json → Option Bool
  | .bool value => some value
  | _ => none

theorem snapshotsOf_actions : ∀ a ∈ actions, SnapshotsOf "pnl-1" a := by
  simp [actions, writes, SnapshotsOf]

theorem snapshot_converges_given_up : Throughout (State.step ⟨60000, 1⟩)
    (fun s => Converged ⟨60000, 1⟩ "pnl-1" s ∧ Renews ⟨60000, 1⟩ "pnl-1" s) {} actions :=
  snapshot_converges ⟨60000, 1⟩ "pnl-1" actions snapshotsOf_actions

/-- What is looked at in the end. -/
def seen (t : State) : Option (Bool × Option (Option Bool)) × Option (Option Bool) :=
  ((t.rows.committed.get? "pnl-1").map fun row =>
    (row.deadLetteredAt.isSome, (documentFor t row).map fun document => flag document.data),
    (lastPayload "pnl-1" t.enqueued).map flag)

theorem seen_actions : (run (State.step ⟨60000, 1⟩) {} actions).map seen =
    some (some (true, some (some false)), some (some true)) := by
  decide +kernel

end GivenUp

/-- A value whose attempts are used up leaves the row dead-lettered, and the one before it in
Mongo. -/
theorem dead_letter_keeps_older : ¬ ∀ (cfg : ProjectorConfig) (id : String) (as : List Action),
    (∀ a ∈ as, SnapshotsOf id a) → Throughout (State.step cfg) (Reported id) {} as := by
  intro h
  have hthroughout := h ⟨60000, 1⟩ "pnl-1" GivenUp.actions GivenUp.snapshotsOf_actions
  obtain ⟨t, hrun, hseen⟩ := Option.map_eq_some_iff.mp GivenUp.seen_actions
  have hreported := hthroughout.last hrun
  obtain ⟨hrow, hlast⟩ := Prod.mk.inj hseen
  obtain ⟨row, hcommitted, hrow⟩ := Option.map_eq_some_iff.mp hrow
  obtain ⟨hdead, hdocument⟩ := Prod.mk.inj hrow
  obtain ⟨document, hdocument, hdata⟩ := Option.map_eq_some_iff.mp hdocument
  have hpending : row.pending = false := by
    rw [OutboxRow.pending, Option.isNone_eq_false_iff.mpr hdead, Bool.and_false]
  rw [(hreported row hcommitted).2 hpending document hdocument, Option.map_some, hdata] at hlast
  cases hlast

end Strikedge.Outbox
