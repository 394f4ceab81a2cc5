import Strikedge.Outbox.Transactions

/-!
# Rows in line

As long as claims and commits come in turn, the rows before an unwritten row of a pass are
settled, or the pass has them too and publishes them first.
-/

namespace Strikedge.Outbox

open Machine

variable {cfg : ProjectorConfig}

/-- Every row is enqueued as an event. -/
def EventsOnly : Action → Prop
  | .enqueue _ enqueued => enqueued.kind = .event
  | _ => True

/-- A pass that claims a row which is not written yet finds those before it settled or
claimable. A transaction commits no row before one that is written or held by a pass. -/
def InTurn (s : State) : Action → Prop
  | .claim batchSize =>
    ∀ row ∈ s.batch batchSize, documentFor s row = none →
      ∀ lower ∈ s.rows.committed.values, lower.aggregate = row.aggregate →
        lower.sequence < row.sequence →
          lower.pending = false ∨ lower.due s.now = true ∧ s.rows.free lower.eventId = true
  | .commit tx =>
    ∀ late ∈ s.rows.staged.values, s.rows.owns late.eventId tx = true →
      ∀ row ∈ s.rows.committed.values, late.aggregate = row.aggregate →
        late.sequence < row.sequence →
          s.rows.free row.eventId = true ∧ documentFor s row = none
  | _ => True

/-- The pass need not wait for the row: it is settled, or the pass has published it. -/
def Done (s : State) (tx : TxId) (row : OutboxRow) : Prop :=
  row.pending = false ∨
    s.rows.locks.get? row.eventId = some tx ∧
      ∃ result, s.rows.staged.get? row.eventId = some result ∧ result.publishedAt.isSome = true

/-- A group is sorted, and the rows before its unwritten ones are done or in it. -/
structure Lined (s : State) (tx : TxId) (group : List OutboxRow) : Prop where
  sorted : group.Pairwise fun a b => a.sequence ≤ b.sequence
  before : ∀ row ∈ group, documentFor s row = none →
    ∀ k lower, s.rows.committed.get? k = some lower → lower.aggregate = row.aggregate →
      lower.sequence < row.sequence → Done s tx lower ∨ lower ∈ group

structure Orderly (cfg : ProjectorConfig) (s : State) : Prop where
  sound : Sound cfg s
  events : ∀ tx writer enqueued row, s.writers.get? tx = some writer →
    writer.statement = some (enqueued, row) → enqueued.kind = .event
  unknown : ∀ tx k, s.writers.has tx = true → s.rows.locks.get? k = some tx →
    s.rows.committed.get? k = none
  executed : ∀ tx writer, s.writers.get? tx = some writer → ∀ enqueued ∈ writer.executed,
    s.rows.view enqueued.event.eventId tx ≠ none
  kept : ∀ enqueued ∈ s.enqueued, s.rows.committed.get? enqueued.event.eventId ≠ none
  known : ∀ collection k document, s.mongo.get? (collection, k) = some document →
    ∃ row, s.rows.committed.get? k = some row
  lined : ∀ tx pass, s.passes.get? tx = some pass → ∀ group ∈ pass.remaining, Lined s tx group
  written : ∀ k row, s.rows.committed.get? k = some row → documentFor s row ≠ none →
    ∀ k' lower, s.rows.committed.get? k' = some lower → lower.aggregate = row.aggregate →
      lower.sequence < row.sequence →
        documentFor s lower ≠ none ∨ lower.deadLetteredAt.isSome = true

/-- The document of a row depends on where it is kept. -/
theorem documentFor_congr {s : State} {row other : OutboxRow}
    (hid : other.eventId = row.eventId) (haggregate : other.aggregate = row.aggregate) :
    documentFor s other = documentFor s row := by
  have htype : other.aggregateType = row.aggregateType := congrArg Prod.fst haggregate
  rw [documentFor, documentFor, hid, htype]

section Frame

variable {s t : State} {tx : TxId}

theorem documentFor_of_mongo (h : t.mongo = s.mongo) (row : OutboxRow) :
    documentFor t row = documentFor s row := by
  rw [documentFor, documentFor, h]

theorem Done.of_locks {row : OutboxRow} (h : Done s tx row)
    (hrows : ∀ k, s.rows.locks.get? k = some tx →
      t.rows.locks.get? k = some tx ∧ t.rows.staged.get? k = s.rows.staged.get? k) :
    Done t tx row := by
  obtain hsettled | ⟨hl, result, hresult, hpublished⟩ := h
  · exact .inl hsettled
  · obtain ⟨hl', hs'⟩ := hrows _ hl
    exact .inr ⟨hl', result, by rw [hs', hresult], hpublished⟩

/-- Whoever leaves a pass its rows, the table and the documents leaves its groups in line. -/
theorem Lined.of_locks {group : List OutboxRow} (h : Lined s tx group)
    (hcommitted : t.rows.committed = s.rows.committed) (hmongo : t.mongo = s.mongo)
    (hrows : ∀ k, s.rows.locks.get? k = some tx →
      t.rows.locks.get? k = some tx ∧ t.rows.staged.get? k = s.rows.staged.get? k) :
    Lined t tx group where
  sorted := h.sorted
  before row hrow hnone k lower hlower haggregate hlt := by
    rw [documentFor_of_mongo hmongo] at hnone
    rw [hcommitted] at hlower
    exact (h.before row hrow hnone k lower hlower haggregate hlt).imp_left fun hd =>
      hd.of_locks hrows

end Frame

namespace Orderly

variable {s t : State} {tx : TxId}

theorem initial : Orderly cfg {} where
  sound := Sound.initial
  events _ _ _ _ h := by cases h
  unknown _ _ h := by cases h
  executed _ _ h := by cases h
  kept _ h := by cases h
  known _ _ _ h := by cases h
  lined _ _ h := by cases h
  written _ _ h := by cases h

/-- The row at the head of a pass comes after nothing that is open. -/
theorem done_before_head (h : Orderly cfg s) {pass : Pass} {row : OutboxRow}
    {rest : List OutboxRow} {groups : List (List OutboxRow)}
    (hpass : s.passes.get? tx = some pass) (hremaining : pass.remaining = (row :: rest) :: groups)
    (hnone : documentFor s row = none) {k : String} {lower : OutboxRow}
    (hlower : s.rows.committed.get? k = some lower) (haggregate : lower.aggregate = row.aggregate)
    (hlt : lower.sequence < row.sequence) : Done s tx lower := by
  have hlined := h.lined tx pass hpass (row :: rest) (by rw [hremaining]; exact List.mem_cons_self)
  obtain hdone | hmem :=
    hlined.before row List.mem_cons_self hnone k lower hlower haggregate hlt
  · exact hdone
  · obtain ⟨hfirst, -⟩ := List.pairwise_cons.mp hlined.sorted
    obtain rfl | hrest := List.mem_cons.mp hmem
    · omega
    · have hle := hfirst lower hrest
      omega

/-- A row that a pass has locked is pending. -/
theorem pending_of_lock (h : Orderly cfg s) {pass : Pass} {k : String} {row : OutboxRow}
    (hpass : s.passes.get? tx = some pass) (hl : s.rows.locks.get? k = some tx)
    (hrow : s.rows.committed.get? k = some row) : row.pending = true := by
  obtain ⟨base, hbase, hpending⟩ :=
    h.sound.claimed k tx hl (OrderedMap.has_iff.mpr ⟨pass, hpass⟩)
  obtain rfl := Option.some.inj (hbase.symm.trans hrow)
  exact hpending

/-- A statement changes nothing that is committed, and nothing that a pass has locked. -/
theorem executedStep (h : Orderly cfg s) {writer : Writer}
    (hwriter : s.writers.get? tx = some writer) (hstep : s.execute tx writer = some t) :
    Orderly cfg t := by
  have hsound := h.sound.executed hwriter hstep
  obtain ⟨enqueued, row, rows, sequence, hstatement, hexecuted, rfl⟩ :=
    Sound.executed_of_execute hstep
  obtain ⟨seq, now, hrow⟩ := h.sound.stated tx writer enqueued row hwriter hstatement
  have hid : row.eventId = enqueued.event.eventId := by rw [hrow]; rfl
  have hevent := h.events tx writer enqueued row hwriter hstatement
  have hevents : ∀ u other enqueued' row',
      (s.writers.set tx ⟨writer.executed ++ [enqueued], none⟩).get? u = some other →
        other.statement = some (enqueued', row') → enqueued'.kind = .event := by
    intro u other enqueued' row' hother hstatement'
    rw [OrderedMap.get?_set] at hother
    split at hother
    · cases hother
      cases hstatement'
    · exact h.events u other enqueued' row' hother hstatement'
  have hwriters : ∀ u, (s.writers.set tx ⟨writer.executed ++ [enqueued], none⟩).has u = true →
      s.writers.has u = true := by
    intro u hu
    rw [OrderedMap.has_set, Bool.or_eq_true] at hu
    obtain hu | hu := hu
    · rw [of_decide_eq_true hu]
      exact OrderedMap.has_iff.mpr ⟨writer, hwriter⟩
    · exact hu
  cases hexecuted with
  | ignored event known =>
    refine ⟨hsound, hevents, fun u k hu hl => h.unknown u k (hwriters u hu) hl, ?_, h.kept,
      h.known, ?_, h.written⟩
    · intro u other hother executed hmem
      dsimp only at hother
      rw [OrderedMap.get?_set] at hother
      split at hother
      · rename_i hu
        cases hother
        rw [hu]
        obtain hold | hnew := List.mem_append.mp hmem
        · exact h.executed tx writer hwriter executed hold
        · rw [List.mem_singleton.mp hnew, ← hid]
          exact Option.ne_none_iff_exists'.mpr ⟨_, known⟩
      · exact h.executed u other hother executed hmem
    · intro u pass hu group hgroup
      exact (h.lined u pass hu group hgroup).of_locks rfl rfl fun k hk => ⟨hk, rfl⟩
  | inserted unknown mine =>
    have hnone : s.rows.committed.get? row.eventId = none := by
      rw [RowLocks.view] at unknown
      split at unknown
      · exact (Option.or_eq_none_iff.mp unknown).2
      · exact unknown
    have hother : ∀ u k, u ≠ tx → s.rows.locks.get? k = some u → k ≠ row.eventId := by
      rintro u k hu hl rfl
      obtain hn | htx := mine
      · rw [hn] at hl
        cases hl
      · exact hu (Option.some.inj (hl.symm.trans htx))
    have hview : ∀ u k, s.rows.view k u ≠ none →
        ((s.rows.lock row.eventId tx).stage row.eventId row).view k u ≠ none := by
      intro u k hv
      by_cases hk : k = row.eventId
      · rw [hk] at hv ⊢
        by_cases hu : u = tx
        · rw [hu] at hv
          exact absurd unknown hv
        · rw [RowLocks.view, if_neg, RowLocks.committed_stage, RowLocks.committed_lock]
          · rw [RowLocks.view, if_neg] at hv
            · exact hv
            · intro ho
              exact hother u _ hu (RowLocks.owns_iff.mp ho) rfl
          · intro ho
            have hl := RowLocks.owns_iff.mp ho
            rw [RowLocks.locks_stage, RowLocks.get?_lock, if_pos rfl] at hl
            exact hu (Option.some.inj hl).symm
      · rw [RowLocks.view, RowLocks.owns, RowLocks.locks_stage, RowLocks.get?_lock, if_neg hk,
          RowLocks.get?_stage, if_neg hk, RowLocks.committed_stage, RowLocks.committed_lock,
          RowLocks.staged_lock]
        exact hv
    refine ⟨hsound, hevents, ?_, ?_, h.kept, h.known, ?_, h.written⟩
    · intro u k hu hl
      dsimp only at hl ⊢
      rw [RowLocks.locks_stage, RowLocks.get?_lock] at hl
      rw [RowLocks.committed_stage, RowLocks.committed_lock]
      split at hl
      · rename_i hk
        rw [hk]
        exact hnone
      · exact h.unknown u k (hwriters u hu) hl
    · intro u other hget executed hmem
      dsimp only at hget ⊢
      rw [OrderedMap.get?_set] at hget
      split at hget
      · rename_i hu
        cases hget
        rw [hu]
        obtain hold | hnew := List.mem_append.mp hmem
        · exact hview tx _ (h.executed tx writer hwriter executed hold)
        · rw [List.mem_singleton.mp hnew, ← hid, RowLocks.view, if_pos, RowLocks.get?_stage,
            if_pos rfl, Option.some_or]
          · exact Option.some_ne_none _
          · rw [RowLocks.owns_iff, RowLocks.locks_stage, RowLocks.get?_lock, if_pos rfl]
      · exact hview u _ (h.executed u other hget executed hmem)
    · intro u pass hu group hgroup
      refine (h.lined u pass hu group hgroup).of_locks rfl rfl fun k hk => ?_
      have hne : u ≠ tx := by
        rintro rfl
        rw [h.sound.apart_of_writer hwriter] at hu
        cases hu
      have hk' := hother u k hne hk
      rw [RowLocks.locks_stage, RowLocks.get?_lock, if_neg hk', RowLocks.get?_stage, if_neg hk',
        RowLocks.staged_lock]
      exact ⟨hk, rfl⟩
  | revived _ _ snapshot =>
    rw [hevent] at snapshot
    cases snapshot

/-- No row is lost. -/
theorem grows (e : Sound.Ended s t tx) {k : String} (h : s.rows.committed.get? k ≠ none) :
    t.rows.committed.get? k ≠ none := by
  obtain hr | hr := e.rows
  · rw [hr, RowLocks.committed_commit]
    split
    · intro hn
      exact h (Option.or_eq_none_iff.mp hn).2
    · exact h
  · rw [hr, RowLocks.committed_release]
    exact h

/-- A transaction that ends leaves those that go on what they see, or more. -/
theorem view_ended (e : Sound.Ended s t tx) {u : TxId} {k : String} (hu : u ≠ tx)
    (hv : s.rows.view k u ≠ none) : t.rows.view k u ≠ none := by
  rw [RowLocks.view] at hv ⊢
  by_cases hown : s.rows.owns k u = true
  · have hl := RowLocks.owns_iff.mp hown
    have hnot : ¬ s.rows.owns k tx = true := fun ho =>
      hu (Option.some.inj (hl.symm.trans (RowLocks.owns_iff.mp ho)))
    rw [if_pos hown] at hv
    rw [if_pos (RowLocks.owns_iff.mpr (e.locks.mpr ⟨hl, hu⟩)), e.staged, if_neg hnot]
    intro hn
    obtain ⟨hs, hc⟩ := Option.or_eq_none_iff.mp hn
    rw [hs, Option.none_or] at hv
    exact grows e hv hc
  · rw [if_neg hown] at hv
    rw [if_neg fun ho => hown (RowLocks.owns_iff.mpr (e.locks.mp (RowLocks.owns_iff.mp ho)).1)]
    exact grows e hv

/-- Where a committed row comes from when a transaction has ended. -/
inductive Origin (cfg : ProjectorConfig) (s : State) (tx : TxId) (k : String) (row : OutboxRow) : Prop
  | kept (before : s.rows.committed.get? k = some row)
  | settled (base : OutboxRow) (before : s.rows.committed.get? k = some base)
      (mine : s.rows.locks.get? k = some tx) (pass : s.passes.has tx = true)
      (outcome : Outcome cfg base row)
  | late (before : s.rows.committed.get? k = none) (mine : s.rows.locks.get? k = some tx)
      (writer : s.writers.has tx = true) (staged : s.rows.staged.get? k = some row)

theorem origin (h : Orderly cfg s) (e : Sound.Ended s t tx) {k : String} {row : OutboxRow}
    (hrow : t.rows.committed.get? k = some row) : Origin cfg s tx k row := by
  obtain hc | ⟨hl, hs⟩ := e.committed_cases hrow
  · exact .kept hc
  · obtain ⟨u, hu, -, hcase⟩ := h.sound.staged k row hs
    obtain rfl := Option.some.inj (hl.symm.trans hu)
    obtain ⟨hw, -⟩ | ⟨hp, base, hbase, houtcome, -⟩ := hcase
    · exact .late (h.unknown tx k hw hl) hl hw hs
    · exact .settled base hbase hl hp houtcome

/-- What a transaction may bring in late: nothing before a row that is written or held. -/
def NotLate (s t : State) (tx : TxId) : Prop :=
  ∀ k late, s.rows.locks.get? k = some tx → s.writers.has tx = true →
    t.rows.committed.get? k = some late → ∀ k' row, s.rows.committed.get? k' = some row →
      late.aggregate = row.aggregate → late.sequence < row.sequence →
        s.rows.locks.get? k' = none ∧ documentFor s row = none

theorem notLate_of_pass (h : Orderly cfg s) {pass : Pass}
    (hpass : s.passes.get? tx = some pass) : NotLate s t tx := by
  intro k late hl hw
  rw [OrderedMap.has, h.sound.apart_of_pass hpass] at hw
  cases hw

theorem lined_ended (h : Orderly cfg s) (e : Sound.Ended s t tx) (hlate : NotLate s t tx)
    {u : TxId} {pass : Pass} (hpass : s.passes.get? u = some pass) (hu : u ≠ tx)
    {group : List OutboxRow} (hgroup : group ∈ pass.remaining) : Lined t u group := by
  have hlined := h.lined u pass hpass group hgroup
  have hheld : ∀ row ∈ group, s.rows.locks.get? row.eventId = some u ∧
      s.rows.committed.get? row.eventId = some row := by
    intro row hrow
    obtain ⟨hl, hc, -⟩ :=
      (h.sound.held u pass hpass).1 row (List.mem_flatten.mpr ⟨group, hgroup, hrow⟩)
    exact ⟨hl, hc⟩
  refine ⟨hlined.sorted, fun row hrow hnone k lower hlower haggregate hlt => ?_⟩
  rw [documentFor_of_mongo e.mongo] at hnone
  obtain ⟨hlrow, hcrow⟩ := hheld row hrow
  cases h.origin e hlower with
  | kept before =>
    refine (hlined.before row hrow hnone k lower before haggregate hlt).imp_left fun hd => ?_
    refine hd.of_locks fun k' hk' => ⟨e.locks.mpr ⟨hk', hu⟩, ?_⟩
    rw [e.staged, if_neg fun ho => hu (Option.some.inj (hk'.symm.trans (RowLocks.owns_iff.mp ho)))]
  | settled base before mine pass' outcome =>
    -- the base was held by the pass that ends, so it was neither settled nor of this pass
    exfalso
    obtain ⟨other, hother⟩ := OrderedMap.has_iff.mp pass'
    have hid := h.sound.keyed k base before
    have hmine : s.rows.locks.get? base.eventId ≠ some u := by
      rw [hid, mine]
      exact fun heq => hu (Option.some.inj heq).symm
    obtain (hsettled | ⟨hl, -⟩) | hmem := hlined.before row hrow hnone k base before
      (outcome.aggregate.symm.trans haggregate) (by rw [← outcome.sequence]; exact hlt)
    · rw [h.pending_of_lock hother mine before] at hsettled
      cases hsettled
    · exact hmine hl
    · exact hmine (hheld base hmem).1
  | late before mine writer staged =>
    exfalso
    obtain ⟨hfree, -⟩ := hlate k lower mine writer hlower row.eventId row hcrow haggregate hlt
    rw [hfree] at hlrow
    cases hlrow

theorem written_ended (h : Orderly cfg s) (e : Sound.Ended s t tx) (hlate : NotLate s t tx)
    {k k' : String} {row lower : OutboxRow} (hrow : t.rows.committed.get? k = some row)
    (hdocument : documentFor t row ≠ none) (hlower : t.rows.committed.get? k' = some lower)
    (haggregate : lower.aggregate = row.aggregate) (hlt : lower.sequence < row.sequence) :
    documentFor t lower ≠ none ∨ lower.deadLetteredAt.isSome = true := by
  rw [documentFor_of_mongo e.mongo] at hdocument ⊢
  -- the row was there before, since a late one has no document
  obtain ⟨base, hbase, hsame, hsequence, hbaseDocument⟩ : ∃ base,
      s.rows.committed.get? k = some base ∧ row.aggregate = base.aggregate ∧
        row.sequence = base.sequence ∧ documentFor s base ≠ none := by
    cases h.origin e hrow with
    | kept before => exact ⟨row, before, rfl, rfl, hdocument⟩
    | settled base before _ _ outcome =>
      refine ⟨base, before, outcome.aggregate, outcome.sequence, ?_⟩
      rw [← documentFor_congr outcome.eventId outcome.aggregate]
      exact hdocument
    | late before _ _ staged =>
      exfalso
      obtain ⟨u, -, hid, -⟩ := h.sound.staged k row staged
      obtain ⟨document, hdocument⟩ := Option.ne_none_iff_exists'.mp hdocument
      obtain ⟨collection, -, hget⟩ := Option.bind_eq_some_iff.mp hdocument
      obtain ⟨other, hother⟩ := h.known collection row.eventId document hget
      rw [hid, before] at hother
      cases hother
  cases h.origin e hlower with
  | kept before =>
    exact h.written k base hbase hbaseDocument k' lower before (haggregate.trans hsame)
      (by rw [← hsequence]; exact hlt)
  | settled first before mine pass outcome =>
    obtain ⟨other, hother⟩ := OrderedMap.has_iff.mp pass
    rw [documentFor_congr outcome.eventId outcome.aggregate]
    obtain hd | hdead := h.written k base hbase hbaseDocument k' first before
      (outcome.aggregate.symm.trans (haggregate.trans hsame))
      (by rw [← outcome.sequence, ← hsequence]; exact hlt)
    · exact .inl hd
    · have hpending := h.pending_of_lock hother mine before
      rw [(pending_iff.mp hpending).2] at hdead
      cases hdead
  | late before mine writer staged =>
    exfalso
    obtain ⟨-, hnone⟩ := hlate k' lower mine writer hlower k base hbase
      (haggregate.trans hsame) (by rw [← hsequence]; exact hlt)
    exact hbaseDocument hnone

theorem ended (h : Orderly cfg s) (e : Sound.Ended s t tx) (hlate : NotLate s t tx)
    (hkept : ∀ enqueued ∈ t.enqueued, t.rows.committed.get? enqueued.event.eventId ≠ none) :
    Orderly cfg t where
  sound := h.sound.ended e
  events u writer enqueued row hwriter := by
    rw [e.writers u] at hwriter
    split at hwriter
    · cases hwriter
    · exact h.events u writer enqueued row hwriter
  unknown u k hu hl := by
    obtain ⟨hl, hne⟩ := e.locks.mp hl
    obtain ⟨writer, hwriter⟩ := OrderedMap.has_iff.mp hu
    rw [e.writers u, if_neg hne] at hwriter
    rw [e.committed fun htx => hne (Option.some.inj (hl.symm.trans htx))]
    exact h.unknown u k (OrderedMap.has_iff.mpr ⟨writer, hwriter⟩) hl
  executed u writer hwriter enqueued hmem := by
    rw [e.writers u] at hwriter
    split at hwriter
    · cases hwriter
    · rename_i hu
      exact view_ended e hu (h.executed u writer hwriter enqueued hmem)
  kept := hkept
  known collection k document hdocument := by
    rw [e.mongo] at hdocument
    obtain ⟨row, hrow⟩ := h.known collection k document hdocument
    exact Option.ne_none_iff_exists'.mp (grows e (by rw [hrow]; exact Option.some_ne_none row))
  lined u pass hpass group hgroup := by
    rw [e.passes u] at hpass
    split at hpass
    · cases hpass
    · rename_i hu
      exact h.lined_ended e hlate hpass hu hgroup
  written k row hrow hdocument k' lower hlower haggregate hlt :=
    h.written_ended e hlate hrow hdocument hlower haggregate hlt

theorem put (h : Orderly cfg s) {pass : Pass} {row : OutboxRow} {rest : List OutboxRow}
    {groups : List (List OutboxRow)} (hpass : s.passes.get? tx = some pass)
    (hremaining : pass.remaining = (row :: rest) :: groups) : Orderly cfg (s.put row) := by
  have hmem : row ∈ pass.remaining.flatten := by
    rw [hremaining, List.flatten_cons]
    exact List.mem_append_left _ List.mem_cons_self
  obtain ⟨-, hrow, -⟩ := (h.sound.held tx pass hpass).1 row hmem
  -- a document that is there stays, and only the row can get one
  have hstays : ∀ other, documentFor s other ≠ none → documentFor (s.put row) other ≠ none := by
    intro other hother
    obtain ⟨document, hdocument⟩ := Option.ne_none_iff_exists'.mp hother
    obtain ⟨collection, hcollection, hget⟩ := Option.bind_eq_some_iff.mp hdocument
    rw [documentFor, hcollection, Option.bind_some]
    rw [State.put]
    split
    · rw [hget]
      exact Option.some_ne_none document
    · rw [OrderedMap.get?_set]
      split
      · exact Option.some_ne_none _
      · rw [hget]
        exact Option.some_ne_none document
  have hothers : ∀ other : OutboxRow, other.eventId ≠ row.eventId →
      documentFor (s.put row) other = documentFor s other := by
    intro other hother
    cases hcollection : collectionForAggregate other.aggregateType with
    | none => rw [documentFor, documentFor, hcollection, Option.bind_none, Option.bind_none]
    | some collection =>
      rw [documentFor, documentFor, hcollection, Option.bind_some, Option.bind_some,
        State.get?_mongo_put hother]
  refine ⟨h.sound.put hpass hmem, ?_, ?_, ?_, ?_, ?_, ?_, ?_⟩
  · rw [State.writers_put]
    exact h.events
  · rw [State.writers_put, State.rows_put]
    exact h.unknown
  · rw [State.writers_put, State.rows_put]
    exact h.executed
  · rw [State.rows_put, State.enqueued_put]
    exact h.kept
  · intro collection k document hdocument
    rw [State.rows_put]
    by_cases hk : k = row.eventId
    · rw [hk]
      exact ⟨row, hrow⟩
    · rw [State.get?_mongo_put hk] at hdocument
      exact h.known collection k document hdocument
  · intro u other hother group hgroup
    rw [State.passes_put] at hother
    have hlined := h.lined u other hother group hgroup
    refine ⟨hlined.sorted, fun r hr hnone k lower hlower haggregate hlt => ?_⟩
    rw [State.rows_put] at hlower
    have hbefore : documentFor s r = none := by
      by_contra hd
      exact hstays r hd hnone
    refine (hlined.before r hr hbefore k lower hlower haggregate hlt).imp_left fun hd => ?_
    exact hd.of_locks fun k hk => by rw [State.rows_put]; exact ⟨hk, rfl⟩
  · intro k other hother hdocument k' lower hlower haggregate hlt
    rw [State.rows_put] at hother hlower
    by_cases hbefore : documentFor s other = none
    · -- this is the first write of the row
      have hid : other.eventId = row.eventId := by
        by_contra hne
        rw [hothers other hne] at hdocument
        exact hdocument hbefore
      have heq : other = row := by
        rw [h.sound.keyed k other hother] at hid
        rw [hid, hrow] at hother
        exact (Option.some.inj hother).symm
      subst heq
      have hdelivered : ∀ delivered : OutboxRow, delivered.eventId = lower.eventId →
          delivered.aggregate = lower.aggregate → Delivered s.mongo delivered →
            documentFor (s.put other) lower ≠ none := by
        intro delivered hid' hagg hd
        refine hstays lower fun hnone => ?_
        have hsome := documentFor_of_delivered hd
        rw [documentFor_congr hid' hagg, hnone] at hsome
        cases hsome
      have hkey := h.sound.keyed k' lower hlower
      obtain hsettled | ⟨hl, result, hresult, hpublished⟩ :=
        h.done_before_head hpass hremaining hbefore hlower haggregate hlt
      · cases hp : lower.publishedAt with
        | none =>
          rw [OutboxRow.pending, hp] at hsettled
          exact .inr (Option.isNone_eq_false_iff.mp hsettled)
        | some at' =>
          refine .inl (hdelivered lower rfl rfl (h.sound.delivered k' lower hlower ?_))
          rw [hp]
          rfl
      · obtain ⟨u, hu, hidr, hcase⟩ := h.sound.staged _ result hresult
        obtain rfl := Option.some.inj (hl.symm.trans hu)
        obtain ⟨hw, -⟩ | ⟨-, base, hbase, houtcome, hdone⟩ := hcase
        · rw [OrderedMap.has, h.sound.apart_of_pass hpass] at hw
          cases hw
        · rw [hkey, hlower] at hbase
          cases hbase
          exact .inl (hdelivered result houtcome.eventId houtcome.aggregate (hdone hpublished))
    · exact (h.written k other hother hbefore k' lower hlower haggregate hlt).imp_left
        (hstays lower)

/-- A pass that has recorded an outcome goes on with what remains of its groups. -/
theorem recorded (h : Orderly cfg s) {pass : Pass} {row result : OutboxRow}
    {remaining : List (List OutboxRow)} (hpass : s.passes.get? tx = some pass)
    (hrow : row ∈ pass.remaining.flatten) (hid : result.eventId = row.eventId)
    (hsound : Sound cfg (s.record tx result remaining))
    (hlined : ∀ group ∈ State.nonempty remaining,
      Lined (s.record tx result remaining) tx group) :
    Orderly cfg (s.record tx result remaining) := by
  obtain ⟨hlock, hcommitted, -⟩ := (h.sound.held tx pass hpass).1 row hrow
  refine ⟨hsound, h.events, h.unknown, ?_, h.kept, h.known, ?_, h.written⟩
  · intro u writer hwriter enqueued hmem
    have hv := h.executed u writer hwriter enqueued hmem
    rw [State.record]
    dsimp only
    rw [RowLocks.view] at hv ⊢
    rw [RowLocks.committed_stage, RowLocks.get?_stage]
    have hown : (s.rows.stage result.eventId result).owns enqueued.event.eventId u =
        s.rows.owns enqueued.event.eventId u := rfl
    rw [hown]
    split
    · rename_i ho
      rw [if_pos ho] at hv
      split
      · exact fun hn => absurd (Option.or_eq_none_iff.mp hn).1 (Option.some_ne_none _)
      · exact hv
    · rename_i ho
      rw [if_neg ho] at hv
      exact hv
  · intro u other hother group hgroup
    rw [State.record, OrderedMap.get?_set] at hother
    split at hother
    · rename_i hu
      cases hother
      rw [hu]
      exact hlined group hgroup
    · rename_i hu
      refine (h.lined u other hother group hgroup).of_locks rfl rfl fun k hk => ⟨hk, ?_⟩
      rw [State.record, RowLocks.get?_stage, if_neg]
      rintro rfl
      rw [hid, hlock] at hk
      exact hu (Option.some.inj hk).symm

/-- What the pass has published before is still staged when it records another outcome. -/
theorem done_record (h : Orderly cfg s) {pass : Pass} {row result lower : OutboxRow}
    {remaining : List (List OutboxRow)} (hpass : s.passes.get? tx = some pass)
    (hrow : row ∈ pass.remaining.flatten) (hid : result.eventId = row.eventId)
    (hdone : Done s tx lower) : Done (s.record tx result remaining) tx lower := by
  obtain ⟨-, -, hstaged⟩ := (h.sound.held tx pass hpass).1 row hrow
  obtain hsettled | ⟨hl, published, hpublished, hsome⟩ := hdone
  · exact .inl hsettled
  · refine .inr ⟨hl, published, ?_, hsome⟩
    rw [State.record, RowLocks.get?_stage, if_neg, hpublished]
    intro heq
    rw [heq, hid, hstaged] at hpublished
    cases hpublished

theorem sent (h : Orderly cfg s) {pass : Pass} {row : OutboxRow} {rest : List OutboxRow}
    {groups : List (List OutboxRow)} (hpass : s.passes.get? tx = some pass)
    (hremaining : pass.remaining = (row :: rest) :: groups)
    (hsent : s.Sent cfg tx row rest groups t) : Orderly cfg t := by
  have hsound := h.sound.sent hpass hremaining hsent
  have hrow : row ∈ pass.remaining.flatten := by
    rw [hremaining, List.flatten_cons]
    exact List.mem_append_left _ List.mem_cons_self
  have htried : ∀ u, s.Tried row u → Orderly cfg u ∧ u.passes.get? tx = some pass := by
    rintro u (rfl | ⟨-, rfl⟩)
    · exact ⟨h, hpass⟩
    · refine ⟨h.put hpass hremaining, ?_⟩
      rw [State.passes_put]
      exact hpass
  have hgroups : ∀ u result remaining, Orderly cfg u → u.passes.get? tx = some pass →
      result.eventId = row.eventId → ∀ group ∈ groups,
        Lined (u.record tx result remaining) tx group := by
    intro u result remaining hu hp hid group hgroup
    have hmem : group ∈ pass.remaining := by
      rw [hremaining]
      exact List.mem_cons_of_mem _ hgroup
    have hlined := hu.lined tx pass hp group hmem
    refine ⟨hlined.sorted, fun r hr hnone k lower hlower haggregate hlt => ?_⟩
    exact (hlined.before r hr hnone k lower hlower haggregate hlt).imp_left
      (hu.done_record hp hrow hid)
  cases hsent with
  | @died u tried =>
    obtain ⟨hu, hp⟩ := htried u tried
    exact hu.ended (hu.sound.ended_pass hp (.inr rfl) rfl rfl rfl rfl)
      (hu.notLate_of_pass hp) hu.kept
  | published sound =>
    obtain ⟨hu, hp⟩ := htried _ (.inr ⟨sound, rfl⟩)
    refine hu.recorded hp hrow rfl hsound fun group hgroup => ?_
    obtain rfl | hgroup := List.mem_cons.mp (List.mem_filter.mp hgroup).1
    · have hlined := hu.lined tx pass hp (row :: group)
        (by rw [hremaining]; exact List.mem_cons_self)
      refine ⟨(List.pairwise_cons.mp hlined.sorted).2, fun r hr hnone k lower hlower hagg hlt => ?_⟩
      obtain hdone | hmem :=
        hlined.before r (List.mem_cons_of_mem row hr) hnone k lower hlower hagg hlt
      · exact .inl (hu.done_record hp hrow rfl hdone)
      · obtain rfl | hrest := List.mem_cons.mp hmem
        · -- the row itself is published now
          obtain ⟨hl, -, -⟩ := (hu.sound.held tx pass hp).1 lower hrow
          refine .inl (.inr ⟨hl, publishedRow lower s.now, ?_, rfl⟩)
          rw [State.record, RowLocks.get?_stage]
          exact if_pos rfl
        · exact .inr hrest
    · exact hgroups _ (publishedRow row s.now) (rest :: groups) hu hp rfl group hgroup
  | failed tried error poisoned cause =>
    obtain ⟨hu, hp⟩ := htried _ tried
    have houtcome : Outcome cfg row (failedRow cfg row s.now error poisoned) :=
      .inr ⟨_, _, _, rfl, cause⟩
    have hid := houtcome.eventId
    refine hu.recorded hp hrow hid hsound fun group hgroup => ?_
    exact hgroups _ _ _ hu hp hid group (List.mem_filter.mp hgroup).1

theorem claim (h : Orderly cfg s) {batchSize : Nat} (hturn : InTurn s (.claim batchSize)) :
    Orderly cfg (s.claim batchSize) := by
  have hkeep : ∀ k u, s.rows.locks.get? k = some u →
      (State.lockAll s.rows (s.batch batchSize) s.nextTx).locks.get? k = some u := by
    intro k u hl
    rw [State.get?_lockAll, if_neg ?_, hl]
    intro hk
    obtain ⟨row, hrow, rfl⟩ := List.mem_map.mp hk
    rw [(State.mem_batch hrow).2.2] at hl
    cases hl
  refine ⟨h.sound.claim batchSize, h.events, ?_, ?_, ?_, ?_, ?_, ?_⟩
  · intro u k hu hl
    rw [State.claim, State.committed_lockAll]
    rw [State.claim, State.get?_lockAll] at hl
    split at hl
    · cases hl
      change s.writers.has s.nextTx = true at hu
      rw [OrderedMap.has, (h.sound.fresh s.nextTx le_rfl).1] at hu
      cases hu
    · exact h.unknown u k hu hl
  · intro u writer hwriter enqueued hmem
    have hv := h.executed u writer hwriter enqueued hmem
    rw [State.claim]
    dsimp only
    rw [RowLocks.view] at hv ⊢
    rw [State.committed_lockAll, State.staged_lockAll]
    by_cases ho : s.rows.locks.get? enqueued.event.eventId = some u
    · rw [if_pos (RowLocks.owns_iff.mpr ho)] at hv
      rw [if_pos (RowLocks.owns_iff.mpr (hkeep _ u ho))]
      exact hv
    · rw [if_neg fun hown => ho (RowLocks.owns_iff.mp hown)] at hv
      rw [if_neg]
      · exact hv
      · intro hown
        have hl := RowLocks.owns_iff.mp hown
        rw [State.get?_lockAll] at hl
        split at hl
        · cases hl
          change s.writers.get? s.nextTx = some writer at hwriter
          rw [(h.sound.fresh s.nextTx le_rfl).1] at hwriter
          cases hwriter
        · exact ho hl
  · rw [State.claim, State.committed_lockAll]
    exact h.kept
  · rw [State.claim, State.committed_lockAll]
    exact h.known
  · intro u pass hpass group hgroup
    rw [State.claim, OrderedMap.get?_set] at hpass
    split at hpass
    · cases hpass
      obtain ⟨key, hkey⟩ := mem_group_iff hgroup
      refine ⟨sorted_group hgroup, fun row hrow hnone k lower hlower haggregate hlt => ?_⟩
      rw [State.claim, State.committed_lockAll] at hlower
      obtain ⟨hbatch, hrowKey⟩ := (hkey row).mp hrow
      have hlowerMem : lower ∈ s.rows.committed.values :=
        OrderedMap.mem_values_iff.mpr ⟨k, hlower⟩
      obtain hsettled | ⟨hdue, hfree⟩ := hturn row hbatch hnone lower hlowerMem haggregate hlt
      · exact .inl (.inl hsettled)
      · refine .inr ((hkey lower).mpr ⟨?_, haggregate.trans hrowKey⟩)
        exact State.mem_batch_of_lt hbatch hlowerMem hdue hfree hlt
    · refine (h.lined u pass hpass group hgroup).of_locks ?_ rfl fun k hk => ?_
      · rw [State.claim, State.committed_lockAll]
      · rw [State.claim, State.staged_lockAll]
        exact ⟨hkeep k u hk, rfl⟩
  · rw [State.claim, State.committed_lockAll]
    exact h.written

theorem step (h : Orderly cfg s) {a : Action} (ha : EventsOnly a) (hturn : InTurn s a)
    (hstep : State.step cfg s a = some t) : Orderly cfg t := by
  have hsound := h.sound.step hstep
  cases a with
  | tick now =>
    simp only [State.step] at hstep
    split at hstep
    · cases hstep
      refine ⟨hsound, h.events, h.unknown, h.executed, h.kept, h.known, ?_, h.written⟩
      intro u pass hpass group hgroup
      exact (h.lined u pass hpass group hgroup).of_locks rfl rfl fun k hk => ⟨hk, rfl⟩
    · cases hstep
  | begin =>
    cases hstep
    have hnone : ∀ k, s.rows.locks.get? k ≠ some s.nextTx := by
      intro k hl
      obtain ⟨hw, hp⟩ := h.sound.fresh s.nextTx le_rfl
      have hlive := h.sound.live k s.nextTx hl
      rw [OrderedMap.has, OrderedMap.has, hw, hp] at hlive
      simp at hlive
    refine ⟨hsound, ?_, ?_, ?_, h.kept, h.known, ?_, h.written⟩
    · intro u writer enqueued row hwriter hstatement
      dsimp only at hwriter
      rw [OrderedMap.get?_set] at hwriter
      split at hwriter
      · cases hwriter
        cases hstatement
      · exact h.events u writer enqueued row hwriter hstatement
    · intro u k hu hl
      refine h.unknown u k ?_ hl
      have hne : u ≠ s.nextTx := by
        rintro rfl
        exact hnone k hl
      dsimp only at hu
      rw [OrderedMap.has_set, decide_eq_false hne, Bool.false_or] at hu
      exact hu
    · intro u writer hwriter enqueued hmem
      dsimp only at hwriter
      rw [OrderedMap.get?_set] at hwriter
      split at hwriter
      · cases hwriter
        cases hmem
      · exact h.executed u writer hwriter enqueued hmem
    · intro u pass hpass group hgroup
      exact (h.lined u pass hpass group hgroup).of_locks rfl rfl fun k hk => ⟨hk, rfl⟩
  | enqueue tx enqueued =>
    obtain ⟨writer, hwriter, hstep⟩ := Option.bind_eq_some_iff.mp hstep
    rw [State.enqueue] at hstep
    split at hstep
    · cases hstep
    · split at hstep
      · cases hstep
        exact h
      · cases hstep
        refine ⟨hsound, ?_, ?_, ?_, h.kept, h.known, ?_, h.written⟩
        · intro u other enqueued' row hother hstatement
          dsimp only at hother
          rw [OrderedMap.get?_set] at hother
          split at hother
          · cases hother
            cases hstatement
            exact ha
          · exact h.events u other enqueued' row hother hstatement
        · intro u k hu hl
          refine h.unknown u k ?_ hl
          dsimp only at hu
          rw [OrderedMap.has_set, Bool.or_eq_true] at hu
          obtain hu | hu := hu
          · rw [of_decide_eq_true hu]
            exact OrderedMap.has_iff.mpr ⟨writer, hwriter⟩
          · exact hu
        · intro u other hother executed hmem
          dsimp only at hother
          rw [OrderedMap.get?_set] at hother
          split at hother
          · rename_i hu
            cases hother
            rw [hu]
            exact h.executed tx writer hwriter executed hmem
          · exact h.executed u other hother executed hmem
        · intro u pass hpass group hgroup
          exact (h.lined u pass hpass group hgroup).of_locks rfl rfl fun k hk => ⟨hk, rfl⟩
  | execute tx =>
    obtain ⟨writer, hwriter, hstep⟩ := Option.bind_eq_some_iff.mp hstep
    exact h.executedStep hwriter hstep
  | commit tx =>
    obtain ⟨writer, hwriter, hstep⟩ := Option.bind_eq_some_iff.mp hstep
    split at hstep
    · cases hstep
    · cases hstep
      have he := h.sound.ended_writer hwriter (t := { s with
          rows := s.rows.commit tx
          writers := s.writers.delete tx
          enqueued := s.enqueued ++ writer.executed }) (.inl rfl) rfl rfl rfl rfl
      refine h.ended he ?_ ?_
      · intro k late hl hw hlate k' row hrow haggregate hlt
        obtain hc | ⟨-, hs⟩ := he.committed_cases hlate
        · rw [h.unknown tx k hw hl] at hc
          cases hc
        · obtain ⟨u, hu, hid, -⟩ := h.sound.staged k late hs
          obtain ⟨hfree, hnone⟩ := hturn late (OrderedMap.mem_values_iff.mpr ⟨k, hs⟩)
            (RowLocks.owns_iff.mpr (by rw [hid]; exact hl)) row
            (OrderedMap.mem_values_iff.mpr ⟨k', hrow⟩) haggregate hlt
          rw [h.sound.keyed k' row hrow] at hfree
          exact ⟨RowLocks.free_iff.mp hfree, hnone⟩
      · intro enqueued hmem
        obtain hold | hnew := List.mem_append.mp hmem
        · exact grows he (h.kept enqueued hold)
        · have hv := h.executed tx writer hwriter enqueued hnew
          dsimp only
          rw [RowLocks.committed_commit_eq_view]
          exact hv
  | rollback tx =>
    obtain ⟨writer, hwriter, rfl⟩ := Option.map_eq_some_iff.mp hstep
    have he := h.sound.ended_writer hwriter (t := { s with
        rows := s.rows.release tx
        writers := s.writers.delete tx }) (.inr rfl) rfl rfl rfl rfl
    refine h.ended he ?_ h.kept
    intro k late hl hw hlate
    rw [show (s.rows.release tx).committed = s.rows.committed from rfl,
      h.unknown tx k hw hl] at hlate
    cases hlate
  | claim batchSize =>
    cases hstep
    exact h.claim hturn
  | publish tx answer =>
    obtain ⟨pass, hpass, hstep⟩ := Option.bind_eq_some_iff.mp hstep
    obtain ⟨row, rest, groups, hremaining, hsent⟩ := State.sent_of_publishRow hstep
    exact h.sent hpass hremaining hsent
  | finish tx =>
    obtain ⟨pass, hpass, hstep⟩ := Option.bind_eq_some_iff.mp hstep
    split at hstep
    · cases hstep
      have he := h.sound.ended_pass hpass (t := { s with
          rows := s.rows.commit tx
          passes := s.passes.delete tx }) (.inl rfl) rfl rfl rfl rfl
      refine h.ended he ?_ fun enqueued hmem => grows he (h.kept enqueued hmem)
      exact h.notLate_of_pass hpass
    · cases hstep
  | crash tx =>
    obtain ⟨pass, hpass, rfl⟩ := Option.map_eq_some_iff.mp hstep
    have he := h.sound.ended_pass hpass (t := s.crash tx) (.inr rfl) rfl rfl rfl rfl
    exact h.ended he (h.notLate_of_pass hpass) h.kept

end Orderly

end Strikedge.Outbox
