import Strikedge.Outbox.Projector

/-!
# The steps of a pass

What a pass makes of one row, and which rows its batch holds. Sending a row touches no other
document, and the groups of a batch hold its rows and nothing else.
-/

namespace Strikedge.Outbox

open Machine

variable {cfg : ProjectorConfig}

/-- The document of a row is in its collection and holds the payload. -/
def Delivered (mongo : OrderedMap (String × String) ProjectionDocument) (row : OutboxRow) : Prop :=
  ∃ collection document, collectionForAggregate row.aggregateType = some collection ∧
    mongo.get? (collection, row.eventId) = some document ∧ document.data = row.payload

/-- The document of a row, if its collection has one. -/
def documentFor (s : State) (row : OutboxRow) : Option ProjectionDocument :=
  (collectionForAggregate row.aggregateType).bind fun collection =>
    s.mongo.get? (collection, row.eventId)

theorem documentFor_of_delivered {s : State} {row : OutboxRow} (h : Delivered s.mongo row) :
    (documentFor s row).map (·.data) = some row.payload := by
  obtain ⟨collection, document, hcollection, hdocument, hdata⟩ := h
  rw [documentFor, hcollection, Option.bind_some, hdocument, Option.map_some, hdata]

/-- What a pass makes of a row: it is marked as published, or a failure is counted. -/
def Outcome (cfg : ProjectorConfig) (row result : OutboxRow) : Prop :=
  (∃ now, result = publishedRow row now) ∨
    ∃ now error poisoned, result = failedRow cfg row now error poisoned ∧
      (poisoned = true → poison row ≠ none)

namespace Outcome

variable {row result : OutboxRow}

theorem eventId (h : Outcome cfg row result) : result.eventId = row.eventId := by
  obtain ⟨now, rfl⟩ | ⟨now, error, poisoned, rfl, -⟩ := h
  · rfl
  · rw [failedRow]
    split <;> rfl

theorem aggregate (h : Outcome cfg row result) : result.aggregate = row.aggregate := by
  obtain ⟨now, rfl⟩ | ⟨now, error, poisoned, rfl, -⟩ := h
  · rfl
  · rw [failedRow]
    split <;> rfl

theorem sequence (h : Outcome cfg row result) : result.sequence = row.sequence := by
  obtain ⟨now, rfl⟩ | ⟨now, error, poisoned, rfl, -⟩ := h
  · rfl
  · rw [failedRow]
    split <;> rfl

theorem payload (h : Outcome cfg row result) : result.payload = row.payload := by
  obtain ⟨now, rfl⟩ | ⟨now, error, poisoned, rfl, -⟩ := h
  · rfl
  · rw [failedRow]
    split <;> rfl

/-- A row is dead-lettered when it can never be delivered, or after its last attempt. -/
theorem deadLettered (h : Outcome cfg row result) (hrow : row.deadLetteredAt = none)
    (hdead : result.deadLetteredAt.isSome = true) :
    poison result ≠ none ∨ cfg.maxAttempts ≤ result.attempts := by
  obtain ⟨now, rfl⟩ | ⟨now, error, poisoned, rfl, hcause⟩ := h
  · rw [publishedRow, hrow] at hdead
    cases hdead
  · rw [failedRow] at hdead ⊢
    split at hdead
    · rename_i hcond
      rw [if_pos hcond]
      obtain hp | hmax := Bool.or_eq_true_iff.mp hcond
      · exact .inl (hcause hp)
      · exact .inr (of_decide_eq_true hmax)
    · dsimp only at hdead
      rw [hrow] at hdead
      cases hdead

end Outcome

/-- A failure does not publish. -/
theorem publishedAt_failedRow {row : OutboxRow} {now : Nat} {error : String} {poisoned : Bool} :
    (failedRow cfg row now error poisoned).publishedAt = row.publishedAt := by
  rw [failedRow]
  split <;> rfl

theorem pending_iff {row : OutboxRow} :
    row.pending = true ↔ row.publishedAt = none ∧ row.deadLetteredAt = none := by
  simp [OutboxRow.pending]

theorem collection_of_poison {row : OutboxRow} (h : poison row = none) :
    ∃ collection, collectionForAggregate row.aggregateType = some collection := by
  rw [poison] at h
  split at h
  · cases h
  · rename_i hsome
    exact Option.ne_none_iff_exists'.mp fun hnone => hsome (by rw [hnone]; rfl)

namespace State

variable {s t : State} {tx : TxId}

@[simp] theorem rows_put {row : OutboxRow} : (s.put row).rows = s.rows := by
  rw [put]
  split <;> rfl

@[simp] theorem writers_put {row : OutboxRow} : (s.put row).writers = s.writers := by
  rw [put]
  split <;> rfl

@[simp] theorem passes_put {row : OutboxRow} : (s.put row).passes = s.passes := by
  rw [put]
  split <;> rfl

@[simp] theorem nextTx_put {row : OutboxRow} : (s.put row).nextTx = s.nextTx := by
  rw [put]
  split <;> rfl

@[simp] theorem enqueued_put {row : OutboxRow} : (s.put row).enqueued = s.enqueued := by
  rw [put]
  split <;> rfl

theorem mongo_put {row : OutboxRow} {collection : String}
    (h : collectionForAggregate row.aggregateType = some collection) :
    (s.put row).mongo = s.mongo.set (collection, row.eventId) (documentOf row s.now) := by
  rw [put, h]

/-- The replacement of one document leaves those of the other rows. -/
theorem get?_mongo_put {row : OutboxRow} {key : String × String} (h : key.2 ≠ row.eventId) :
    (s.put row).mongo.get? key = s.mongo.get? key := by
  rw [put]
  split
  · rfl
  · rw [OrderedMap.get?_set, if_neg fun hk => h (by rw [hk])]

theorem delivered_put {row : OutboxRow} (h : poison row = none) :
    Delivered (s.put row).mongo row := by
  obtain ⟨collection, hc⟩ := collection_of_poison h
  refine ⟨collection, documentOf row s.now, hc, ?_, rfl⟩
  rw [mongo_put hc, OrderedMap.get?_set, if_pos rfl]

/-- The next row may have been written to Mongo. -/
def Tried (s : State) (row : OutboxRow) (u : State) : Prop :=
  u = s ∨ poison row = none ∧ u = s.put row

/-- How a pass goes on from its next row. -/
inductive Sent (cfg : ProjectorConfig) (s : State) (tx : TxId) (row : OutboxRow)
    (rest : List OutboxRow) (groups : List (List OutboxRow)) : State → Prop
  | died {u : State} (tried : s.Tried row u) : Sent cfg s tx row rest groups (u.crash tx)
  | published (sound : poison row = none) : Sent cfg s tx row rest groups
      ((s.put row).record tx (publishedRow row s.now) (rest :: groups))
  | failed {u : State} (tried : s.Tried row u) (error : String) (poisoned : Bool)
      (cause : poisoned = true → poison row ≠ none) :
      Sent cfg s tx row rest groups
        (u.record tx (failedRow cfg row s.now error poisoned) groups)

theorem sent_fail {u : State} {row : OutboxRow} {rest : List OutboxRow}
    {groups : List (List OutboxRow)} {error : String} {poisoned : Bool}
    (tried : s.Tried row u) (cause : poisoned = true → poison row ≠ none) :
    s.Sent cfg tx row rest groups (u.fail cfg tx row groups error poisoned) := by
  have hnow : u.now = s.now := by
    obtain rfl | ⟨-, rfl⟩ := tried
    · rfl
    · rw [put]
      split <;> rfl
  rw [fail, hnow]
  split
  · exact .failed tried _ _ cause
  · exact .died tried

theorem sent_of_publishRow {pass : Pass} {answer : MongoAnswer}
    (h : s.publishRow cfg tx pass answer = some t) :
    ∃ row rest groups, pass.remaining = (row :: rest) :: groups ∧
      s.Sent cfg tx row rest groups t := by
  rw [publishRow] at h
  split at h
  · rename_i row rest groups hremaining
    refine ⟨row, rest, groups, hremaining, ?_⟩
    split at h
    · rename_i error herror
      have ht := Option.some.inj h
      rw [← ht]
      exact sent_fail (.inl rfl) fun _ => by simp [herror]
    · rename_i hpoison
      split at h
      · have ht := Option.some.inj h
        rw [← ht]
        exact .published hpoison
      · rename_i message applied
        have ht := Option.some.inj h
        rw [← ht]
        refine sent_fail ?_ nofun
        cases applied with
        | false => exact .inl rfl
        | true => exact .inr ⟨hpoison, rfl⟩
  · cases h

end State

namespace State

variable {s : State} {tx : TxId} {k : String}

@[simp] theorem committed_lockAll {rows : RowLocks String OutboxRow TxId}
    {batch : List OutboxRow} : (lockAll rows batch tx).committed = rows.committed := by
  induction batch generalizing rows with
  | nil => rfl
  | cons row batch ih =>
    rw [lockAll, List.foldl_cons, ← lockAll, ih, RowLocks.committed_lock]

@[simp] theorem staged_lockAll {rows : RowLocks String OutboxRow TxId}
    {batch : List OutboxRow} : (lockAll rows batch tx).staged = rows.staged := by
  induction batch generalizing rows with
  | nil => rfl
  | cons row batch ih =>
    rw [lockAll, List.foldl_cons, ← lockAll, ih, RowLocks.staged_lock]

theorem get?_lockAll {rows : RowLocks String OutboxRow TxId} {batch : List OutboxRow} :
    (lockAll rows batch tx).locks.get? k =
      if k ∈ batch.map (·.eventId) then some tx else rows.locks.get? k := by
  induction batch generalizing rows with
  | nil => rfl
  | cons row batch ih =>
    rw [lockAll, List.foldl_cons, ← lockAll, ih, RowLocks.get?_lock, List.map_cons]
    by_cases hk : k = row.eventId
    · simp [hk]
    · simp [hk]

theorem mem_batch {batchSize : Nat} {row : OutboxRow} (h : row ∈ s.batch batchSize) :
    row ∈ s.rows.committed.values ∧ row.due s.now = true ∧
      s.rows.locks.get? row.eventId = none := by
  simp only [batch] at h
  have hfilter := (List.mem_insertionSort _).mp (List.mem_of_mem_take h)
  obtain ⟨hmem, htest⟩ := List.mem_filter.mp hfilter
  obtain ⟨hdue, hfree⟩ := Bool.and_eq_true_iff.mp htest
  exact ⟨hmem, hdue, RowLocks.free_iff.mp hfree⟩

theorem flatten_nonempty {groups : List (List OutboxRow)} :
    (nonempty groups).flatten = groups.flatten := by
  induction groups with
  | nil => rfl
  | cons group groups ih =>
    rw [nonempty] at ih ⊢
    cases group with
    | nil => simpa using ih
    | cons row rest => simpa using ih

/-- A batch takes the claimable rows from the lowest sequence on. -/
theorem mem_batch_of_lt {batchSize : Nat} {row lower : OutboxRow} (h : row ∈ s.batch batchSize)
    (hmem : lower ∈ s.rows.committed.values) (hdue : lower.due s.now = true)
    (hfree : s.rows.free lower.eventId = true) (hlt : lower.sequence < row.sequence) :
    lower ∈ s.batch batchSize := by
  simp only [batch] at h ⊢
  have hclaimable : lower ∈ (s.rows.committed.values.filter fun row =>
      row.due s.now && s.rows.free row.eventId).insertionSort
        fun a b => a.sequence ≤ b.sequence := by
    rw [List.mem_insertionSort, List.mem_filter]
    exact ⟨hmem, by rw [hdue, hfree]; rfl⟩
  have hsorted := List.pairwise_insertionSort (fun a b : OutboxRow => a.sequence ≤ b.sequence)
    (s.rows.committed.values.filter fun row => row.due s.now && s.rows.free row.eventId)
  rw [← List.take_append_drop batchSize (List.insertionSort _ _)] at hclaimable hsorted
  obtain htake | hdrop := List.mem_append.mp hclaimable
  · exact htake
  · have hle := (List.pairwise_append.mp hsorted).2.2 row h lower hdrop
    omega

theorem nodup_batch {batchSize : Nat} (h : (s.rows.committed.values.map (·.eventId)).Nodup) :
    ((s.batch batchSize).map (·.eventId)).Nodup := by
  simp only [batch]
  refine List.Nodup.sublist ((List.take_sublist _ _).map _) ?_
  refine (((List.perm_insertionSort _ _).map _).nodup_iff).mpr ?_
  exact h.sublist (List.filter_sublist.map _)

end State

/-- Rows that carry the keys they are stored under have distinct identities. -/
theorem nodup_eventIds {rows : OrderedMap String OutboxRow}
    (h : ∀ k row, rows.get? k = some row → row.eventId = k) :
    (rows.values.map (·.eventId)).Nodup := by
  have hkeys : rows.values.map (·.eventId) = rows.keys := by
    rw [OrderedMap.values, OrderedMap.keys, List.map_map]
    refine List.map_congr_left fun entry hentry => ?_
    exact h entry.1 entry.2 (OrderedMap.mem_entries_iff.mp hentry)
  rw [hkeys]
  exact rows.nodup

section Groups

variable {rows : List OutboxRow}

/-- One row goes to the end of the group of its key. -/
theorem flatten_put (entries : List ((String × String) × List OutboxRow))
    (key : String × String) (row : OutboxRow) :
    ((OrderedMap.put entries key (((OrderedMap.find entries key).getD []) ++ [row])).map
        Prod.snd).flatten.Perm ((entries.map Prod.snd).flatten ++ [row]) := by
  induction entries with
  | nil => simp [OrderedMap.put, OrderedMap.find]
  | cons entry entries ih =>
    obtain ⟨key', group⟩ := entry
    rw [OrderedMap.find, OrderedMap.put]
    split
    · simp only [Option.getD_some, List.map_cons, List.flatten_cons, List.append_assoc]
      exact List.Perm.append_left group List.perm_append_comm
    · simp only [List.map_cons, List.flatten_cons, List.append_assoc]
      exact List.Perm.append_left group ih

/-- The groups before they are sorted. -/
def groupsFrom (groups : OrderedMap (String × String) (List OutboxRow)) (rows : List OutboxRow) :
    OrderedMap (String × String) (List OutboxRow) :=
  rows.foldl (fun groups row =>
    groups.set row.aggregate ((groups.get? row.aggregate).getD [] ++ [row])) groups

theorem groupByAggregate_eq :
    groupByAggregate rows =
      (groupsFrom ∅ rows).values.map (·.insertionSort fun a b => a.sequence ≤ b.sequence) := rfl

theorem flatten_groupsFrom {groups : OrderedMap (String × String) (List OutboxRow)} :
    (groupsFrom groups rows).values.flatten.Perm (groups.values.flatten ++ rows) := by
  induction rows generalizing groups with
  | nil => simp [groupsFrom]
  | cons row rows ih =>
    rw [groupsFrom, List.foldl_cons, ← groupsFrom]
    refine ih.trans ?_
    have hput := flatten_put groups.entries row.aggregate row
    have happ := hput.append_right rows
    rw [List.append_assoc] at happ
    exact happ

/-- The groups hold the rows of the batch. -/
theorem flatten_groupByAggregate : (groupByAggregate rows).flatten.Perm rows := by
  rw [groupByAggregate_eq]
  have hperm : (groupsFrom ∅ rows).values.flatten.Perm rows := flatten_groupsFrom
  refine List.Perm.trans (List.Perm.flatten_congr ?_) hperm
  rw [List.forall₂_map_left_iff]
  exact List.forall₂_same.mpr fun group _ => List.perm_insertionSort _ _

theorem get?_groupsFrom {groups : OrderedMap (String × String) (List OutboxRow)}
    {key : String × String} : ((groupsFrom groups rows).get? key).getD [] =
      (groups.get? key).getD [] ++ rows.filter (·.aggregate = key) := by
  induction rows generalizing groups with
  | nil => simp [groupsFrom]
  | cons row rows ih =>
    rw [groupsFrom, List.foldl_cons, ← groupsFrom, ih, OrderedMap.get?_set]
    by_cases hkey : key = row.aggregate
    · simp [hkey]
    · simp [hkey, Ne.symm hkey]

/-- A group is in the order of the sequence. -/
theorem sorted_group {group : List OutboxRow} (h : group ∈ groupByAggregate rows) :
    group.Pairwise fun a b => a.sequence ≤ b.sequence := by
  rw [groupByAggregate_eq] at h
  obtain ⟨unsorted, -, rfl⟩ := List.mem_map.mp h
  exact List.pairwise_insertionSort _ _

/-- A group has all rows of its aggregate. -/
theorem mem_group_iff {group : List OutboxRow} (h : group ∈ groupByAggregate rows) :
    ∃ key, ∀ row, row ∈ group ↔ row ∈ rows ∧ row.aggregate = key := by
  rw [groupByAggregate_eq] at h
  obtain ⟨unsorted, hmem, rfl⟩ := List.mem_map.mp h
  obtain ⟨key, hkey⟩ := OrderedMap.mem_values_iff.mp hmem
  have hget : ((groupsFrom ∅ rows).get? key).getD [] = rows.filter (·.aggregate = key) :=
    get?_groupsFrom
  rw [hkey, Option.getD_some] at hget
  refine ⟨key, fun row => ?_⟩
  rw [List.mem_insertionSort, hget]
  simp

end Groups

end Strikedge.Outbox
