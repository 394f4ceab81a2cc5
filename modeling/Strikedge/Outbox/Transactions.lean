import Strikedge.Outbox.Passes

/-!
# What the transactions of the outbox respect

Each lock belongs to a running transaction, a row is staged under its lock only, and a pass
works on the committed versions of its rows. A row marked as published has its document.
-/

namespace Strikedge.Outbox

open Machine

variable {cfg : ProjectorConfig}

/-- A pass holds the rows it has still to publish, and has not touched them. -/
def Held (rows : RowLocks String OutboxRow TxId) (tx : TxId) (remaining : List OutboxRow) : Prop :=
  (∀ row ∈ remaining, rows.locks.get? row.eventId = some tx ∧
      rows.committed.get? row.eventId = some row ∧ rows.staged.get? row.eventId = none) ∧
    (remaining.map (·.eventId)).Nodup

/-- A staged row waits to be published, or is what a pass made of the committed one. -/
def Staged (cfg : ProjectorConfig) (s : State) (tx : TxId) (k : String) (row : OutboxRow) : Prop :=
  row.eventId = k ∧
    (s.writers.has tx = true ∧ row.pending = true ∧ row.attempts = 0 ∨
      s.passes.has tx = true ∧ ∃ base, s.rows.committed.get? k = some base ∧
        Outcome cfg base row ∧ (row.publishedAt.isSome = true → Delivered s.mongo row))

/-- What holds between the steps. -/
structure Sound (cfg : ProjectorConfig) (s : State) : Prop where
  fresh : ∀ tx, s.nextTx ≤ tx → s.writers.get? tx = none ∧ s.passes.get? tx = none
  apart : ∀ tx, s.writers.get? tx = none ∨ s.passes.get? tx = none
  keyed : ∀ k row, s.rows.committed.get? k = some row → row.eventId = k
  live : ∀ k tx, s.rows.locks.get? k = some tx →
    s.writers.has tx = true ∨ s.passes.has tx = true
  claimed : ∀ k tx, s.rows.locks.get? k = some tx → s.passes.has tx = true →
    ∃ row, s.rows.committed.get? k = some row ∧ row.pending = true
  staged : ∀ k row, s.rows.staged.get? k = some row →
    ∃ tx, s.rows.locks.get? k = some tx ∧ Staged cfg s tx k row
  held : ∀ tx pass, s.passes.get? tx = some pass → Held s.rows tx pass.remaining.flatten
  delivered : ∀ k row, s.rows.committed.get? k = some row → row.publishedAt.isSome = true →
    Delivered s.mongo row
  stated : ∀ tx writer enqueued row, s.writers.get? tx = some writer →
    writer.statement = some (enqueued, row) →
      ∃ sequence now, row = insertedRow enqueued.event sequence now

namespace Sound

variable {s t : State} {tx : TxId} {k : String}

theorem initial : Sound cfg {} where
  fresh _ _ := ⟨rfl, rfl⟩
  apart _ := .inl rfl
  keyed _ _ h := by cases h
  live _ _ h := by cases h
  claimed _ _ h := by cases h
  staged _ _ h := by cases h
  held _ _ h := by cases h
  delivered _ _ h := by cases h
  stated _ _ _ _ h := by cases h

/-- A transaction commits or is rolled back, and is gone. -/
structure Ended (s t : State) (tx : TxId) : Prop where
  rows : t.rows = s.rows.commit tx ∨ t.rows = s.rows.release tx
  writers : ∀ u, t.writers.get? u = if u = tx then none else s.writers.get? u
  passes : ∀ u, t.passes.get? u = if u = tx then none else s.passes.get? u
  mongo : t.mongo = s.mongo
  nextTx : t.nextTx = s.nextTx

namespace Ended

variable (e : Ended s t tx)

include e

theorem locks {u : TxId} : t.rows.locks.get? k = some u ↔
    s.rows.locks.get? k = some u ∧ u ≠ tx := by
  obtain hr | hr := e.rows
  · rw [hr, RowLocks.locks_commit, RowLocks.locks_release]
  · rw [hr, RowLocks.locks_release]

theorem staged : t.rows.staged.get? k =
    if s.rows.owns k tx then none else s.rows.staged.get? k := by
  obtain hr | hr := e.rows
  · rw [hr, RowLocks.staged_commit, RowLocks.staged_release]
  · rw [hr, RowLocks.staged_release]

/-- A row that is not in the hands of the transaction stays. -/
theorem committed (h : s.rows.locks.get? k ≠ some tx) :
    t.rows.committed.get? k = s.rows.committed.get? k := by
  obtain hr | hr := e.rows
  · rw [hr, RowLocks.committed_commit, if_neg fun ho => h (RowLocks.owns_iff.mp ho)]
  · rw [hr, RowLocks.committed_release]

/-- A committed row was there before, or the transaction has staged it. -/
theorem committed_cases {row : OutboxRow} (h : t.rows.committed.get? k = some row) :
    s.rows.committed.get? k = some row ∨
      s.rows.locks.get? k = some tx ∧ s.rows.staged.get? k = some row := by
  obtain hr | hr := e.rows
  · rw [hr, RowLocks.committed_commit] at h
    split at h
    · rename_i ho
      obtain hs | hs := Option.or_eq_some_iff.mp h
      · exact .inr ⟨RowLocks.owns_iff.mp ho, hs⟩
      · exact .inl hs.2
    · exact .inl h
  · rw [hr, RowLocks.committed_release] at h
    exact .inl h

theorem has_writers {u : TxId} (h : s.writers.has u = true) (hu : u ≠ tx) :
    t.writers.has u = true := by
  rw [OrderedMap.has, e.writers u, if_neg hu]
  exact h

theorem has_passes {u : TxId} (h : s.passes.has u = true) (hu : u ≠ tx) :
    t.passes.has u = true := by
  rw [OrderedMap.has, e.passes u, if_neg hu]
  exact h

theorem has_passes_of {u : TxId} (h : t.passes.has u = true) :
    s.passes.has u = true ∧ u ≠ tx := by
  rw [OrderedMap.has, e.passes u] at h
  split at h
  · cases h
  · rename_i hu
    exact ⟨h, hu⟩

end Ended

theorem ended (h : Sound cfg s) (e : Ended s t tx) : Sound cfg t where
  fresh u hu := by
    rw [e.nextTx] at hu
    obtain ⟨hw, hp⟩ := h.fresh u hu
    rw [e.writers u, e.passes u, hw, hp]
    simp
  apart u := by
    rw [e.writers u, e.passes u]
    obtain hw | hp := h.apart u
    · simp [hw]
    · simp [hp]
  keyed k row hrow := by
    obtain hc | ⟨-, hs⟩ := e.committed_cases hrow
    · exact h.keyed k row hc
    · obtain ⟨u, -, hk, -⟩ := h.staged k row hs
      exact hk
  live k u hl := by
    obtain ⟨hl, hu⟩ := e.locks.mp hl
    obtain hw | hp := h.live k u hl
    · exact .inl (e.has_writers hw hu)
    · exact .inr (e.has_passes hp hu)
  claimed k u hl hp := by
    obtain ⟨hl, hu⟩ := e.locks.mp hl
    obtain ⟨row, hrow, hpending⟩ := h.claimed k u hl (e.has_passes_of hp).1
    refine ⟨row, ?_, hpending⟩
    rw [e.committed fun htx => hu (Option.some.inj (hl.symm.trans htx)), hrow]
  staged k row hs := by
    rw [e.staged] at hs
    split at hs
    · cases hs
    · rename_i hown
      have hown : s.rows.locks.get? k ≠ some tx := fun ho => hown (RowLocks.owns_iff.mpr ho)
      obtain ⟨u, hl, hk, hcase⟩ := h.staged k row hs
      have hu : u ≠ tx := by
        rintro rfl
        exact hown hl
      refine ⟨u, e.locks.mpr ⟨hl, hu⟩, hk, ?_⟩
      obtain ⟨hw, hnew⟩ | ⟨hp, base, hbase, houtcome, hdelivered⟩ := hcase
      · exact .inl ⟨e.has_writers hw hu, hnew⟩
      · refine .inr ⟨e.has_passes hp hu, base, ?_, houtcome, ?_⟩
        · rw [e.committed hown, hbase]
        · rw [e.mongo]
          exact hdelivered
  held u pass hpass := by
    rw [e.passes u] at hpass
    split at hpass
    · cases hpass
    · rename_i hu
      obtain ⟨hheld, hnodup⟩ := h.held u pass hpass
      refine ⟨fun row hrow => ?_, hnodup⟩
      obtain ⟨hl, hc, hs⟩ := hheld row hrow
      have hown : s.rows.locks.get? row.eventId ≠ some tx :=
        fun ho => hu (Option.some.inj (hl.symm.trans ho))
      refine ⟨e.locks.mpr ⟨hl, hu⟩, ?_, ?_⟩
      · rw [e.committed hown, hc]
      · rw [e.staged, if_neg fun ho => hown (RowLocks.owns_iff.mp ho), hs]
  delivered k row hrow hpublished := by
    rw [e.mongo]
    obtain hc | ⟨-, hs⟩ := e.committed_cases hrow
    · exact h.delivered k row hc hpublished
    · obtain ⟨u, -, -, hcase⟩ := h.staged k row hs
      obtain ⟨-, hpending, -⟩ | ⟨-, base, -, -, hdelivered⟩ := hcase
      · rw [(pending_iff.mp hpending).1] at hpublished
        cases hpublished
      · exact hdelivered hpublished
  stated u writer enqueued row hwriter := by
    rw [e.writers u] at hwriter
    split at hwriter
    · cases hwriter
    · exact h.stated u writer enqueued row hwriter

theorem apart_of_writer (h : Sound cfg s) {writer : Writer}
    (hwriter : s.writers.get? tx = some writer) : s.passes.get? tx = none := by
  obtain hn | hp := h.apart tx
  · rw [hn] at hwriter
    cases hwriter
  · exact hp

theorem apart_of_pass (h : Sound cfg s) {pass : Pass} (hpass : s.passes.get? tx = some pass) :
    s.writers.get? tx = none := by
  obtain hw | hn := h.apart tx
  · exact hw
  · rw [hn] at hpass
    cases hpass

theorem lt_of_writer (h : Sound cfg s) {writer : Writer}
    (hwriter : s.writers.get? tx = some writer) : tx < s.nextTx := by
  by_contra hge
  rw [(h.fresh tx (not_lt.mp hge)).1] at hwriter
  cases hwriter

theorem ended_writer (h : Sound cfg s) {writer : Writer}
    (hwriter : s.writers.get? tx = some writer)
    (hrows : t.rows = s.rows.commit tx ∨ t.rows = s.rows.release tx)
    (hwriters : t.writers = s.writers.delete tx) (hpasses : t.passes = s.passes)
    (hmongo : t.mongo = s.mongo) (hnext : t.nextTx = s.nextTx) : Ended s t tx where
  rows := hrows
  writers u := by rw [hwriters, OrderedMap.get?_delete]
  passes u := by
    rw [hpasses]
    split
    · rename_i hu
      rw [hu]
      exact h.apart_of_writer hwriter
    · rfl
  mongo := hmongo
  nextTx := hnext

theorem ended_pass (h : Sound cfg s) {pass : Pass} (hpass : s.passes.get? tx = some pass)
    (hrows : t.rows = s.rows.commit tx ∨ t.rows = s.rows.release tx)
    (hwriters : t.writers = s.writers) (hpasses : t.passes = s.passes.delete tx)
    (hmongo : t.mongo = s.mongo) (hnext : t.nextTx = s.nextTx) : Ended s t tx where
  rows := hrows
  writers u := by
    rw [hwriters]
    split
    · rename_i hu
      rw [hu]
      exact h.apart_of_pass hpass
    · rfl
  passes u := by rw [hpasses, OrderedMap.get?_delete]
  mongo := hmongo
  nextTx := hnext

/-- A writer begins or goes on, without a row. -/
theorem writing (h : Sound cfg s) {w : Writer} (hpass : s.passes.get? tx = none)
    (hlt : tx < t.nextTx) (hnext : s.nextTx ≤ t.nextTx) (hrows : t.rows = s.rows)
    (hwriters : t.writers = s.writers.set tx w) (hpasses : t.passes = s.passes)
    (hmongo : t.mongo = s.mongo)
    (hstated : ∀ enqueued row, w.statement = some (enqueued, row) →
      ∃ sequence now, row = insertedRow enqueued.event sequence now) : Sound cfg t := by
  have hhas : ∀ u, s.writers.has u = true → t.writers.has u = true := by
    intro u hu
    rw [hwriters, OrderedMap.has_set, hu, Bool.or_true]
  refine ⟨?_, ?_, ?_, ?_, ?_, ?_, ?_, ?_, ?_⟩
  · intro u hu
    obtain ⟨hw, hp⟩ := h.fresh u (hnext.trans hu)
    have hne : u ≠ tx := by
      rintro rfl
      exact absurd hu (not_le_of_gt hlt)
    rw [hwriters, OrderedMap.get?_set, if_neg hne, hpasses]
    exact ⟨hw, hp⟩
  · intro u
    rw [hwriters, OrderedMap.get?_set, hpasses]
    split
    · rename_i hu
      rw [hu]
      exact .inr hpass
    · exact h.apart u
  · rw [hrows]
    exact h.keyed
  · intro k u hl
    rw [hrows] at hl
    rw [hpasses]
    exact (h.live k u hl).imp_left (hhas u)
  · rw [hrows, hpasses]
    exact h.claimed
  · intro k row hs
    rw [hrows] at hs
    obtain ⟨u, hl, hk, hcase⟩ := h.staged k row hs
    refine ⟨u, by rw [hrows]; exact hl, hk, ?_⟩
    rw [hrows, hpasses, hmongo]
    exact hcase.imp_left fun hw => ⟨hhas u hw.1, hw.2⟩
  · rw [hrows, hpasses]
    exact h.held
  · rw [hrows, hmongo]
    exact h.delivered
  · intro u writer enqueued row hwriter hstatement
    rw [hwriters, OrderedMap.get?_set] at hwriter
    split at hwriter
    · cases hwriter
      exact hstated enqueued row hstatement
    · exact h.stated u writer enqueued row hwriter hstatement

/-- A writer stages a row that nobody else has locked. -/
theorem staging (h : Sound cfg s) {row : OutboxRow} (hw : s.writers.has tx = true)
    (hlock : s.rows.locks.get? k = none ∨ s.rows.locks.get? k = some tx)
    (hk : row.eventId = k) (hpending : row.pending = true) (hattempts : row.attempts = 0) :
    Sound cfg { s with rows := (s.rows.lock k tx).stage k row } := by
  have hpass : s.passes.get? tx = none := by
    obtain ⟨w, hw⟩ := OrderedMap.has_iff.mp hw
    exact h.apart_of_writer hw
  have hother : ∀ u, s.passes.has u = true → s.rows.locks.get? k ≠ some u := by
    intro u hu hl
    obtain hn | htx := hlock
    · rw [hn] at hl
      cases hl
    · obtain rfl := Option.some.inj (htx.symm.trans hl)
      rw [OrderedMap.has, hpass] at hu
      cases hu
  refine ⟨h.fresh, h.apart, h.keyed, ?_, ?_, ?_, ?_, h.delivered, h.stated⟩
  · intro x u hl
    rw [RowLocks.locks_stage, RowLocks.get?_lock] at hl
    split at hl
    · cases hl
      exact .inl hw
    · exact h.live x u hl
  · intro x u hl hu
    rw [RowLocks.locks_stage, RowLocks.get?_lock] at hl
    split at hl
    · cases hl
      change s.passes.has tx = true at hu
      rw [OrderedMap.has, hpass] at hu
      cases hu
    · exact h.claimed x u hl hu
  · intro x staged hs
    rw [RowLocks.get?_stage, RowLocks.staged_lock] at hs
    split at hs
    · rename_i hx
      cases hs
      refine ⟨tx, ?_, hk.trans hx.symm, .inl ⟨hw, hpending, hattempts⟩⟩
      rw [RowLocks.locks_stage, RowLocks.get?_lock, if_pos hx]
    · rename_i hx
      obtain ⟨u, hl, hstaged⟩ := h.staged x staged hs
      refine ⟨u, ?_, hstaged⟩
      rw [RowLocks.locks_stage, RowLocks.get?_lock, if_neg hx, hl]
  · intro u pass hu
    obtain ⟨hheld, hnodup⟩ := h.held u pass hu
    refine ⟨fun other hmem => ?_, hnodup⟩
    obtain ⟨hl, hc, hs⟩ := hheld other hmem
    have hne : other.eventId ≠ k := by
      rintro rfl
      exact hother u (OrderedMap.has_iff.mpr ⟨pass, hu⟩) hl
    refine ⟨?_, hc, ?_⟩
    · rw [RowLocks.locks_stage, RowLocks.get?_lock, if_neg hne, hl]
    · rw [RowLocks.get?_stage, RowLocks.staged_lock, if_neg hne, hs]

theorem claim (h : Sound cfg s) (batchSize : Nat) : Sound cfg (s.claim batchSize) := by
  have hbatch : ∀ row ∈ s.batch batchSize, s.rows.committed.get? row.eventId = some row ∧
      row.pending = true ∧ s.rows.locks.get? row.eventId = none := by
    intro row hrow
    obtain ⟨hmem, hdue, hfree⟩ := State.mem_batch hrow
    obtain ⟨k, hk⟩ := OrderedMap.mem_values_iff.mp hmem
    rw [h.keyed k row hk]
    refine ⟨hk, (Bool.and_eq_true_iff.mp hdue).1, ?_⟩
    rw [← h.keyed k row hk]
    exact hfree
  have hlocks : ∀ k u, (State.lockAll s.rows (s.batch batchSize) s.nextTx).locks.get? k = some u →
      u = s.nextTx ∧ (∃ row ∈ s.batch batchSize, row.eventId = k) ∨
        s.rows.locks.get? k = some u := by
    intro k u hl
    rw [State.get?_lockAll] at hl
    split at hl
    · rename_i hk
      cases hl
      exact .inl ⟨rfl, List.mem_map.mp hk⟩
    · exact .inr hl
  have hkeep : ∀ k u, s.rows.locks.get? k = some u →
      (State.lockAll s.rows (s.batch batchSize) s.nextTx).locks.get? k = some u := by
    intro k u hl
    rw [State.get?_lockAll, if_neg ?_, hl]
    intro hk
    obtain ⟨row, hrow, rfl⟩ := List.mem_map.mp hk
    rw [(hbatch row hrow).2.2] at hl
    cases hl
  have hhas : ∀ u, s.passes.has u = true → (s.claim batchSize).passes.has u = true := by
    intro u hu
    rw [State.claim, OrderedMap.has_set, hu, Bool.or_true]
  obtain ⟨hnw, hnp⟩ := h.fresh s.nextTx le_rfl
  refine ⟨?_, ?_, ?_, ?_, ?_, ?_, ?_, ?_, h.stated⟩
  · intro u hu
    have hlt : s.nextTx < u := hu
    obtain ⟨hw, hp⟩ := h.fresh u hlt.le
    refine ⟨hw, ?_⟩
    rw [State.claim, OrderedMap.get?_set, if_neg hlt.ne', hp]
  · intro u
    rw [State.claim, OrderedMap.get?_set]
    split
    · rename_i hu
      rw [hu]
      exact .inl hnw
    · exact h.apart u
  · rw [State.claim, State.committed_lockAll]
    exact h.keyed
  · intro k u hl
    obtain ⟨rfl, -⟩ | hl := hlocks k u hl
    · refine .inr ?_
      rw [State.claim, OrderedMap.has_set]
      simp
    · exact (h.live k u hl).imp_right (hhas u)
  · intro k u hl hu
    rw [State.claim, State.committed_lockAll]
    obtain ⟨rfl, row, hrow, rfl⟩ | hl := hlocks k u hl
    · obtain ⟨hc, hpending, -⟩ := hbatch row hrow
      exact ⟨row, hc, hpending⟩
    · refine h.claimed k u hl ?_
      obtain hw | hp := h.live k u hl
      · have hne : u ≠ s.nextTx := by
          rintro rfl
          rw [OrderedMap.has, hnw] at hw
          cases hw
        rw [State.claim, OrderedMap.has_set, decide_eq_false hne, Bool.false_or] at hu
        exact hu
      · exact hp
  · intro k row hs
    rw [State.claim, State.staged_lockAll] at hs
    obtain ⟨u, hl, hk, hcase⟩ := h.staged k row hs
    refine ⟨u, hkeep k u hl, hk, ?_⟩
    rw [State.claim, State.committed_lockAll]
    obtain hw | ⟨hp, hrest⟩ := hcase
    · exact .inl hw
    · exact .inr ⟨hhas u hp, hrest⟩
  · intro u pass hu
    rw [State.claim, OrderedMap.get?_set] at hu
    split at hu
    · rename_i hnext
      cases hu
      rw [hnext]
      refine ⟨fun row hrow => ?_, ?_⟩
      · have hmem := flatten_groupByAggregate.mem_iff.mp hrow
        obtain ⟨hc, -, hfree⟩ := hbatch row hmem
        rw [State.claim, State.committed_lockAll, State.staged_lockAll, State.get?_lockAll,
          if_pos (List.mem_map.mpr ⟨row, hmem, rfl⟩)]
        refine ⟨rfl, hc, ?_⟩
        by_contra hs
        obtain ⟨staged, hs⟩ := Option.ne_none_iff_exists'.mp hs
        obtain ⟨u, hl, -⟩ := h.staged _ staged hs
        rw [hfree] at hl
        cases hl
      · exact ((flatten_groupByAggregate.map _).nodup_iff).mpr
          (State.nodup_batch (nodup_eventIds h.keyed))
    · obtain ⟨hheld, hnodup⟩ := h.held u pass hu
      refine ⟨fun row hrow => ?_, hnodup⟩
      obtain ⟨hl, hc, hs⟩ := hheld row hrow
      rw [State.claim, State.committed_lockAll, State.staged_lockAll]
      exact ⟨hkeep _ _ hl, hc, hs⟩
  · rw [State.claim, State.committed_lockAll]
    exact h.delivered

/-- The document of a held row may be replaced: the row is not published yet. -/
theorem put (h : Sound cfg s) {pass : Pass} {row : OutboxRow} (hpass : s.passes.get? tx = some pass)
    (hrow : row ∈ pass.remaining.flatten) : Sound cfg (s.put row) := by
  obtain ⟨hl, hc, hs⟩ := (h.held tx pass hpass).1 row hrow
  have hdelivered : ∀ other : OutboxRow, other.eventId ≠ row.eventId → Delivered s.mongo other →
      Delivered (s.put row).mongo other := by
    rintro other hne ⟨collection, document, hcollection, hdocument, hdata⟩
    refine ⟨collection, document, hcollection, ?_, hdata⟩
    rw [State.get?_mongo_put hne, hdocument]
  refine ⟨?_, ?_, ?_, ?_, ?_, ?_, ?_, ?_, ?_⟩
  · simpa using h.fresh
  · simpa using h.apart
  · simpa using h.keyed
  · simpa using h.live
  · simpa using h.claimed
  · intro k staged hstaged
    rw [State.rows_put] at hstaged ⊢
    obtain ⟨u, hu, hk, hcase⟩ := h.staged k staged hstaged
    refine ⟨u, hu, hk, ?_⟩
    rw [State.writers_put, State.passes_put, State.rows_put]
    refine hcase.imp_right fun ⟨hp, base, hbase, houtcome, hpublished⟩ => ?_
    refine ⟨hp, base, hbase, houtcome, fun hsome => hdelivered staged ?_ (hpublished hsome)⟩
    intro hid
    rw [hk] at hid
    rw [hid, hs] at hstaged
    cases hstaged
  · simpa using h.held
  · intro k other hother hpublished
    rw [State.rows_put] at hother
    refine hdelivered other ?_ (h.delivered k other hother hpublished)
    intro hid
    obtain ⟨base, hbase, hpending⟩ := h.claimed _ tx hl (OrderedMap.has_iff.mpr ⟨pass, hpass⟩)
    rw [h.keyed k other hother] at hid
    rw [hid] at hother
    obtain rfl := Option.some.inj (hother.symm.trans hbase)
    rw [(pending_iff.mp hpending).1] at hpublished
    cases hpublished
  · rw [State.writers_put]
    exact h.stated

/-- What became of a held row is staged. -/
theorem recorded (h : Sound cfg s) {pass : Pass} {row result : OutboxRow}
    {others : List OutboxRow} {remaining : List (List OutboxRow)}
    (hpass : s.passes.get? tx = some pass) (hheld : pass.remaining.flatten = row :: others)
    (hsub : (State.nonempty remaining).flatten.Sublist others) (houtcome : Outcome cfg row result)
    (hdelivered : result.publishedAt.isSome = true → Delivered s.mongo result) :
    Sound cfg (s.record tx result remaining) := by
  obtain ⟨hmine, hnodup⟩ := h.held tx pass hpass
  rw [hheld] at hmine hnodup
  obtain ⟨hl, hc, hs⟩ := hmine row List.mem_cons_self
  have hid : result.eventId = row.eventId := houtcome.eventId
  have hhas : ∀ u, (s.record tx result remaining).passes.has u = s.passes.has u := by
    intro u
    rw [State.record, OrderedMap.has_set]
    by_cases hu : u = tx
    · rw [hu, OrderedMap.has_iff.mpr ⟨pass, hpass⟩, Bool.or_true]
    · rw [decide_eq_false hu, Bool.false_or]
  refine ⟨?_, ?_, h.keyed, ?_, ?_, ?_, ?_, h.delivered, h.stated⟩
  · intro u hu
    obtain ⟨hw, hp⟩ := h.fresh u hu
    refine ⟨hw, ?_⟩
    rw [State.record, OrderedMap.get?_set, if_neg ?_, hp]
    rintro rfl
    rw [hpass] at hp
    cases hp
  · intro u
    rw [State.record, OrderedMap.get?_set]
    split
    · rename_i hu
      rw [hu]
      obtain hw | hp := h.apart tx
      · exact .inl hw
      · rw [hpass] at hp
        cases hp
    · exact h.apart u
  · intro k u hlock
    rw [hhas]
    exact h.live k u hlock
  · intro k u hlock hu
    rw [hhas] at hu
    exact h.claimed k u hlock hu
  · intro k staged hstaged
    rw [State.record, RowLocks.get?_stage] at hstaged
    split at hstaged
    · rename_i hk
      cases hstaged
      refine ⟨tx, by rw [hk, hid]; exact hl, hk.symm, .inr ⟨?_, row, ?_, houtcome, hdelivered⟩⟩
      · rw [hhas]
        exact OrderedMap.has_iff.mpr ⟨pass, hpass⟩
      · rw [hk, hid]
        exact hc
    · obtain ⟨u, hu, hid', hcase⟩ := h.staged k staged hstaged
      refine ⟨u, hu, hid', ?_⟩
      rw [hhas]
      exact hcase
  · intro u other hother
    rw [State.record, OrderedMap.get?_set] at hother
    have hne : ∀ r : OutboxRow, r.eventId ≠ row.eventId → s.rows.staged.get? r.eventId = none →
        (s.record tx result remaining).rows.staged.get? r.eventId = none := by
      intro r hr hnone
      rw [State.record, RowLocks.get?_stage, hid, if_neg hr, hnone]
    split at hother
    · rename_i hu
      cases hother
      rw [hu]
      obtain ⟨hfresh, hrest⟩ := List.nodup_cons.mp hnodup
      refine ⟨fun r hr => ?_, hrest.sublist (hsub.map _)⟩
      have hr' := hsub.subset hr
      obtain ⟨hrl, hrc, hrs⟩ := hmine r (List.mem_cons_of_mem _ hr')
      refine ⟨hrl, hrc, hne r (fun heq => hfresh ?_) hrs⟩
      exact List.mem_map.mpr ⟨r, hr', heq⟩
    · rename_i hu
      obtain ⟨hheld', hnodup'⟩ := h.held u other hother
      refine ⟨fun r hr => ?_, hnodup'⟩
      obtain ⟨hrl, hrc, hrs⟩ := hheld' r hr
      refine ⟨hrl, hrc, hne r (fun heq => hu ?_) hrs⟩
      rw [heq] at hrl
      exact Option.some.inj (hrl.symm.trans hl)

/-- A transaction sees a row under its identity. -/
theorem view_eventId (h : Sound cfg s) {row : OutboxRow} (hv : s.rows.view k tx = some row) :
    row.eventId = k := by
  rw [RowLocks.view] at hv
  split at hv
  · obtain hs | ⟨-, hc⟩ := Option.or_eq_some_iff.mp hv
    · obtain ⟨u, -, hk, -⟩ := h.staged k row hs
      exact hk
    · exact h.keyed k row hc
  · exact h.keyed k row hv

/-- What a statement does to the row it is about. -/
inductive Executed (s : State) (tx : TxId) (enqueued : Enqueued) (row : OutboxRow) :
    RowLocks String OutboxRow TxId → Prop
  | ignored {current : OutboxRow} (event : enqueued.kind = .event)
      (known : s.rows.view row.eventId tx = some current) : Executed s tx enqueued row s.rows
  | inserted (unknown : s.rows.view row.eventId tx = none)
      (mine : s.rows.locks.get? row.eventId = none ∨ s.rows.locks.get? row.eventId = some tx) :
      Executed s tx enqueued row ((s.rows.lock row.eventId tx).stage row.eventId row)
  | revived {current : OutboxRow} (sequence now : Nat) (snapshot : enqueued.kind = .snapshot)
      (known : s.rows.view row.eventId tx = some current)
      (mine : s.rows.locks.get? row.eventId = none ∨ s.rows.locks.get? row.eventId = some tx) :
      Executed s tx enqueued row ((s.rows.lock current.eventId tx).stage current.eventId
        (revivedRow current enqueued.event sequence now))

theorem executed_of_execute {writer : Writer} (h : s.execute tx writer = some t) :
    ∃ enqueued row rows sequence, writer.statement = some (enqueued, row) ∧
      Executed s tx enqueued row rows ∧
      t = { s with
        sequence := sequence
        rows := rows
        writers := s.writers.set tx ⟨writer.executed ++ [enqueued], none⟩ } := by
  simp only [State.execute, Option.bind_eq_some_iff] at h
  obtain ⟨⟨enqueued, row⟩, hstatement, h⟩ := h
  have hmine : (s.rows.free row.eventId || s.rows.owns row.eventId tx) = true →
      s.rows.locks.get? row.eventId = none ∨ s.rows.locks.get? row.eventId = some tx := by
    intro hor
    exact (Bool.or_eq_true_iff.mp hor).imp RowLocks.free_iff.mp RowLocks.owns_iff.mp
  refine ⟨enqueued, row, ?_⟩
  split at h
  · rename_i current hkind hknown
    cases h
    exact ⟨_, _, hstatement, .ignored hkind hknown, rfl⟩
  · rename_i hunknown
    split at h
    · rename_i hor
      cases h
      exact ⟨_, _, hstatement, .inserted hunknown (hmine hor), rfl⟩
    · cases h
  · rename_i current hkind hknown
    split at h
    · rename_i hor
      cases h
      exact ⟨_, _, hstatement, .revived _ _ hkind hknown (hmine hor), rfl⟩
    · cases h

theorem executed (h : Sound cfg s) {writer : Writer} (hwriter : s.writers.get? tx = some writer)
    (hstep : s.execute tx writer = some t) : Sound cfg t := by
  obtain ⟨enqueued, row, rows, sequence, hstatement, hexecuted, rfl⟩ := executed_of_execute hstep
  obtain ⟨seq, now, hrow⟩ := h.stated tx writer enqueued row hwriter hstatement
  -- first the writer goes on, and then its row is staged
  have hdone : Sound cfg { s with
      sequence := sequence
      writers := s.writers.set tx ⟨writer.executed ++ [enqueued], none⟩ } :=
    h.writing (h.apart_of_writer hwriter) (h.lt_of_writer hwriter) le_rfl rfl rfl rfl rfl (by simp)
  have hhas : (s.writers.set tx ⟨writer.executed ++ [enqueued], none⟩).has tx = true := by
    simp
  cases hexecuted with
  | ignored => exact hdone
  | inserted unknown mine =>
    refine hdone.staging hhas mine rfl ?_ ?_
    · rw [hrow]
      rfl
    · rw [hrow]
      rfl
  | revived _ _ _ known mine =>
    have hid := h.view_eventId known
    rw [← hid] at mine
    exact hdone.staging hhas mine rfl rfl rfl

theorem sent (h : Sound cfg s) {pass : Pass} {row : OutboxRow} {rest : List OutboxRow}
    {groups : List (List OutboxRow)} (hpass : s.passes.get? tx = some pass)
    (hremaining : pass.remaining = (row :: rest) :: groups)
    (hsent : s.Sent cfg tx row rest groups t) : Sound cfg t := by
  have hflat : pass.remaining.flatten = row :: (rest ++ groups.flatten) := by
    rw [hremaining]
    rfl
  have hrow : row ∈ pass.remaining.flatten := by
    rw [hflat]
    exact List.mem_cons_self
  have htried : ∀ u, s.Tried row u → Sound cfg u ∧ u.passes.get? tx = some pass := by
    rintro u (rfl | ⟨-, rfl⟩)
    · exact ⟨h, hpass⟩
    · refine ⟨h.put hpass hrow, ?_⟩
      rw [State.passes_put]
      exact hpass
  have hnone : row.publishedAt = none := by
    obtain ⟨hl, hc, -⟩ := (h.held tx pass hpass).1 row hrow
    obtain ⟨base, hbase, hpending⟩ :=
      h.claimed _ tx hl (OrderedMap.has_iff.mpr ⟨pass, hpass⟩)
    obtain rfl := Option.some.inj (hbase.symm.trans hc)
    exact (pending_iff.mp hpending).1
  cases hsent with
  | @died u tried =>
    obtain ⟨hu, hp⟩ := htried u tried
    exact hu.ended (hu.ended_pass hp (.inr rfl) rfl rfl rfl rfl)
  | published sound =>
    obtain ⟨hu, hp⟩ := htried _ (.inr ⟨sound, rfl⟩)
    refine hu.recorded hp hflat ?_ (.inl ⟨_, rfl⟩) fun _ => ?_
    · rw [State.flatten_nonempty]
      exact List.Sublist.refl _
    · exact State.delivered_put sound
  | @failed u tried error poisoned cause =>
    obtain ⟨hu, hp⟩ := htried u tried
    refine hu.recorded hp hflat ?_ (.inr ⟨_, _, _, rfl, cause⟩) fun hsome => ?_
    · rw [State.flatten_nonempty]
      exact List.sublist_append_right rest _
    · rw [publishedAt_failedRow, hnone] at hsome
      cases hsome

theorem step (h : Sound cfg s) {a : Action} (hstep : State.step cfg s a = some t) :
    Sound cfg t := by
  cases a with
  | tick now =>
    simp only [State.step] at hstep
    split at hstep
    · cases hstep
      exact ⟨h.fresh, h.apart, h.keyed, h.live, h.claimed, h.staged, h.held, h.delivered,
        h.stated⟩
    · cases hstep
  | begin =>
    cases hstep
    exact h.writing (h.fresh s.nextTx le_rfl).2 (Nat.lt_succ_self s.nextTx)
      (Nat.le_succ s.nextTx) rfl rfl rfl rfl (by simp)
  | enqueue tx enqueued =>
    obtain ⟨writer, hwriter, hstep⟩ := Option.bind_eq_some_iff.mp hstep
    rw [State.enqueue] at hstep
    split at hstep
    · cases hstep
    · split at hstep
      · cases hstep
        exact h
      · cases hstep
        refine h.writing (h.apart_of_writer hwriter) (h.lt_of_writer hwriter) le_rfl rfl rfl rfl
          rfl ?_
        rintro _ _ heq
        cases heq
        exact ⟨_, _, rfl⟩
  | execute tx =>
    obtain ⟨writer, hwriter, hstep⟩ := Option.bind_eq_some_iff.mp hstep
    exact h.executed hwriter hstep
  | commit tx =>
    obtain ⟨writer, hwriter, hstep⟩ := Option.bind_eq_some_iff.mp hstep
    split at hstep
    · cases hstep
    · cases hstep
      exact h.ended (h.ended_writer hwriter (.inl rfl) rfl rfl rfl rfl)
  | rollback tx =>
    obtain ⟨writer, hwriter, rfl⟩ := Option.map_eq_some_iff.mp hstep
    exact h.ended (h.ended_writer hwriter (.inr rfl) rfl rfl rfl rfl)
  | claim batchSize =>
    cases hstep
    exact h.claim batchSize
  | publish tx answer =>
    obtain ⟨pass, hpass, hstep⟩ := Option.bind_eq_some_iff.mp hstep
    obtain ⟨row, rest, groups, hremaining, hsent⟩ := State.sent_of_publishRow hstep
    exact h.sent hpass hremaining hsent
  | finish tx =>
    obtain ⟨pass, hpass, hstep⟩ := Option.bind_eq_some_iff.mp hstep
    split at hstep
    · cases hstep
      exact h.ended (h.ended_pass hpass (.inl rfl) rfl rfl rfl rfl)
    · cases hstep
  | crash tx =>
    obtain ⟨pass, hpass, rfl⟩ := Option.map_eq_some_iff.mp hstep
    exact h.ended (h.ended_pass hpass (.inr rfl) rfl rfl rfl rfl)

end Sound

end Strikedge.Outbox
