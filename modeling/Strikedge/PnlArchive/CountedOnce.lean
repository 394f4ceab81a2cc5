import Strikedge.PnlArchive.Archiver

/-!
# A trade is counted once

The open positions and the closed trades are read at two moments, and their rows are put one
after the other. A trade that is closed in between, or whose closed record precedes its
leaving the book, is in both lists: such snapshots, and no others, count a trade twice.
-/

namespace Strikedge.PnlArchive

open Machine

section Read

variable {book : OrderedMap String OpenPosition} {table : OrderedMap String BoxTrade}
variable {id : String} {sinceMs : Int}

theorem openPnlInputs_ids : (openPnlInputs book).map (·.id) = book.keys := by
  rw [openPnlInputs, List.map_map]
  rfl

theorem openPnlInputs_nodup : ((openPnlInputs book).map (·.id)).Nodup := by
  rw [openPnlInputs_ids]
  exact book.nodup

theorem loadBoxTradesClosedSince_ids :
    ((loadBoxTradesClosedSince table sinceMs).map (·.id)).Perm
      ((table.entries.filter fun e => closedSince sinceMs e.2).map Prod.fst) := by
  simp only [loadBoxTradesClosedSince, List.map_map]
  exact (List.perm_insertionSort _ _).map Prod.fst

theorem loadBoxTradesClosedSince_nodup :
    ((loadBoxTradesClosedSince table sinceMs).map (·.id)).Nodup :=
  loadBoxTradesClosedSince_ids.nodup_iff.mpr (OrderedMap.nodup_filter table.nodup _)

/-- The query finds the trades whose record is closed in the table, and no others. -/
theorem mem_loadBoxTradesClosedSince_ids :
    id ∈ (loadBoxTradesClosedSince table sinceMs).map (·.id) ↔
      ∃ t ∈ table.get? id, closedSince sinceMs t = true := by
  rw [loadBoxTradesClosedSince_ids.mem_iff, List.mem_map]
  constructor
  · rintro ⟨⟨_, t⟩, hentry, rfl⟩
    obtain ⟨hentry, hclosed⟩ := List.mem_filter.mp hentry
    exact ⟨t, OrderedMap.mem_entries_iff.mp hentry, hclosed⟩
  · rintro ⟨t, ht, hclosed⟩
    exact ⟨(id, t), List.mem_filter.mpr ⟨OrderedMap.mem_entries_iff.mpr ht, hclosed⟩, rfl⟩

end Read

theorem buildDaySnapshot_ids (day nowIso : Int) (running : List OpenPnlInput)
    (closed : List ClosedPnlInput) :
    (buildDaySnapshot day running closed nowIso).rows.map (·.tradeId) =
      running.map (·.id) ++ closed.map (·.id) := by
  simp only [buildDaySnapshot, List.map_append, List.map_map]
  rfl

/-- The snapshot leaves out the trades that are being deleted. -/
def Work.sparesDeleted : Work → Bool
  | .buildSnapshot _ => false
  | _ => true

namespace State

variable {cfg : Config} {s t : State}

/-- No position of the book that was read has its record closed in the table that the query
found, since the start of the day, unless the snapshot leaves the trade out. -/
def ClearOf (s : State) (a : Activity) : Prop :=
  match a.stage with
  | .closed day book table =>
    ∀ id ∈ book.keys, ∀ t ∈ table.get? id, closedSince (istDayStartMs day) t = true →
      a.work.sparesDeleted = true ∧ id ∈ s.deletedTradeIds
  | _ => True

/-- The snapshot that is about to be made is clear of trades read twice. -/
def Clear (s : State) (action : Action) : Prop :=
  match action with
  | .resume id .settled _ => ∀ a ∈ s.activities.get? id, s.ClearOf a
  | _ => True

theorem safeSnapshot_countsOnce_iff {day nowIso : Int} {rows : List BoxDailyPnlRow} :
    CountsOnce (s.safeSnapshot day nowIso rows) ↔
      ((s.survivors rows).map (·.tradeId)).Nodup :=
  countsOnce_iff

theorem survivors_ids (rows : List BoxDailyPnlRow) :
    (s.survivors rows).map (·.tradeId) =
      (rows.map (·.tradeId)).filter (· ∉ s.deletedTradeIds) := by
  rw [survivors, List.filter_map]
  rfl

/-- A snapshot that leaves out what is being deleted may have read a trade twice if it is one of
these. -/
theorem spared_countsOnce_iff {work : Work} {day nowIso : Int}
    {book : OrderedMap String OpenPosition} {table : OrderedMap String BoxTrade}
    (hspares : work.sparesDeleted = true) :
    CountsOnce (s.built work day nowIso (openPnlInputs book)
        (loadBoxTradesClosedSince table (istDayStartMs day))) ↔
      s.ClearOf ⟨work, .closed day book table⟩ := by
  have hbuilt : s.built work day nowIso (openPnlInputs book)
      (loadBoxTradesClosedSince table (istDayStartMs day)) = s.safeSnapshot day nowIso
        (buildDaySnapshot day (openPnlInputs book)
          (loadBoxTradesClosedSince table (istDayStartMs day)) nowIso).rows := by
    cases work <;> simp_all [built, Work.sparesDeleted]
  have hbook : book.keys.Nodup := book.nodup
  rw [hbuilt, safeSnapshot_countsOnce_iff, survivors_ids, buildDaySnapshot_ids, openPnlInputs_ids,
    List.filter_append, List.nodup_append]
  simp only [hbook.filter, loadBoxTradesClosedSince_nodup.filter, true_and, List.mem_filter,
    decide_eq_true_eq, mem_loadBoxTradesClosedSince_ids, ClearOf, hspares]
  constructor
  · intro h id hid t ht hsince
    by_contra hkept
    exact h id ⟨hid, hkept⟩ id ⟨⟨t, ht, hsince⟩, hkept⟩ rfl
  · rintro h id ⟨hid, hkept⟩ _ ⟨⟨t, ht, hsince⟩, -⟩ rfl
    exact hkept (h id hid t ht hsince)

/-- The snapshot counts each trade once exactly if no trade was read twice. -/
theorem built_countsOnce_iff {work : Work} {day nowIso : Int}
    {book : OrderedMap String OpenPosition} {table : OrderedMap String BoxTrade} :
    CountsOnce (s.built work day nowIso (openPnlInputs book)
        (loadBoxTradesClosedSince table (istDayStartMs day))) ↔
      s.ClearOf ⟨work, .closed day book table⟩ := by
  cases work with
  | buildSnapshot today =>
    have hbook : book.keys.Nodup := book.nodup
    have hids := buildDaySnapshot_ids day nowIso (openPnlInputs book)
      (loadBoxTradesClosedSince table (istDayStartMs day))
    rw [buildDaySnapshot, openPnlInputs_ids] at hids
    rw [built, buildDaySnapshot, countsOnce_iff, hids, List.nodup_append]
    simp only [hbook, loadBoxTradesClosedSince_nodup, true_and,
      mem_loadBoxTradesClosedSince_ids, ClearOf, Work.sparesDeleted]
    constructor
    · intro h id hid t ht hsince
      exact absurd rfl (h id hid id ⟨t, ht, hsince⟩)
    · rintro h id hid _ ⟨t, ht, hsince⟩ rfl
      exact absurd (h id hid t ht hsince).1 (by decide)
  | _ => exact spared_countsOnce_iff rfl

/-- The snapshot that a step makes, if any. -/
def made (s : State) (a : Activity) (answer : Answer) (nowIso : Int) : List DaySnapshot :=
  match a.stage, answer with
  | .closed day book table, .settled =>
    [s.built a.work day nowIso (openPnlInputs book)
      (loadBoxTradesClosedSince table (istDayStartMs day))]
  | .loadPersistedDay day, .persisted stored existing =>
    [s.safeSnapshot day nowIso (stored.rows.filter fun row => row.tradeId ∈ existing)]
  | _, _ => []

theorem deliver_snapshots (id : Nat) (work : Work) (snapshot : DaySnapshot) :
    (s.deliver id work snapshot).snapshots = s.snapshots ++ [snapshot] := by
  cases work <;> rfl

theorem enter_snapshots (id : Nat) (work : Work) :
    (s.enter cfg id work).snapshots = s.snapshots := by
  cases work <;> simp only [State.enter] <;> first | rfl | (split <;> rfl)

theorem call_snapshots (work : Work) : (s.call work).snapshots = s.snapshots := by
  cases work <;> rfl

theorem cleaned_snapshots (work : Work) : (s.cleaned work).snapshots = s.snapshots := by
  cases work <;> rfl

theorem collectDay_snapshots (id : Nat) (work : Work) (day : Int) :
    (s.collectDay id work day).snapshots = s.snapshots := by
  rw [State.collectDay]
  split <;> rfl

/-- A call that goes on makes the snapshot it is due. -/
theorem resume_snapshots {id : Nat} {a : Activity} {answer : Answer} {nowIso : Int}
    (hstep : s.resume cfg id a answer nowIso = some t) :
    t.snapshots = s.snapshots ++ s.made a answer nowIso := by
  obtain ⟨work, stage⟩ := a
  rw [State.resume.eq_def] at hstep
  split at hstep
  next =>
    simp only at *
    subst_vars
    split at hstep
    next =>
      cases hstep
      simp [enter_snapshots, made]
    next => cases hstep
  all_goals
    simp only at *
    subst_vars
    try cases hstep
  next => simp [collectDay_snapshots, made]
  next => simp [State.ends, made]
  next => exact deliver_snapshots id work _
  next => simp [State.ends, made]
  next => simp [State.goesTo, made]
  next => simp [State.ends, made]
  next => exact deliver_snapshots id work _
  next => simp [State.ends, made]
  next => simp [State.ends, made]
  next => simp [cleaned_snapshots, State.ends, made]
  next => simp [cleaned_snapshots, State.ends, made]

/-- The snapshot a step makes, if it makes one, counts each trade once exactly if the step is
clear. -/
theorem made_countsOnce_iff {id : Nat} {a : Activity} {answer : Answer} {nowIso : Int}
    (ha : s.activities.get? id = some a) :
    (∀ snapshot ∈ s.made a answer nowIso, CountsOnce snapshot) ↔
      s.Clear (.resume id answer nowIso) := by
  obtain ⟨work, stage⟩ := a
  rcases stage with _ | _ | day | _ | ⟨day, book, table⟩ | _ | _
  case closed =>
    cases answer with
    | settled =>
      simp only [made, List.mem_singleton, forall_eq, Clear, ha, Option.mem_def,
        Option.some.injEq, forall_eq']
      exact built_countsOnce_iff
    | failed | persisted => simp [made, Clear]
  case loadPersistedDay =>
    cases answer with
    | persisted stored existing =>
      simp only [made, List.mem_singleton, forall_eq, Clear, iff_true]
      exact safeSnapshot_countsOnce_iff.mpr (nodup_filter_rows _ (nodup_filter_rows _ stored.nodup))
    | failed | settled => simp [made, Clear, ClearOf, ha]
  all_goals cases answer <;> simp [made, Clear, ClearOf, ha]

/-- What an action does to the snapshots. -/
theorem step_countsOnce_iff {action : Action} (hstep : s.step cfg action = some t)
    (hbefore : ∀ snapshot ∈ s.snapshots, CountsOnce snapshot) :
    (∀ snapshot ∈ t.snapshots, CountsOnce snapshot) ↔ s.Clear action := by
  cases action with
  | resume id answer nowIso =>
    obtain ⟨a, ha, hresume⟩ := Option.bind_eq_some_iff.mp hstep
    rw [← made_countsOnce_iff ha, resume_snapshots hresume]
    simp only [List.mem_append, or_imp, forall_and]
    exact and_iff_right hbefore
  | call work =>
    cases hstep
    simpa [call_snapshots, Clear] using hbefore
  | dayRolls day =>
    cases hstep
    simpa [Clear] using hbefore
  | position id p | trade id p =>
    cases p with
    | _ =>
      cases hstep
      simpa [Clear] using hbefore

end State

/-- Every snapshot of a run counts each trade once if and only if no snapshot is made from a book
and a later table in which a trade of the book is closed. -/
theorem counted_once_iff_clear (cfg : Config) (today : Int) (actions : List Action) :
    Throughout (State.step cfg) (fun s => ∀ snapshot ∈ s.snapshots, CountsOnce snapshot)
        (State.initial today) actions ↔
      Heeds (State.step cfg) State.Clear (State.initial today) actions :=
  throughout_iff_heeds (L := fun _ => True) (I := fun _ => True)
    (fun _ _ _ _ _ _ _ _ => trivial)
    (fun _ _ _ _ _ hP hstep => State.step_countsOnce_iff hstep hP) trivial
    (by simp [State.initial]) fun _ _ => trivial

namespace ClosedMeanwhile

def terms : BoxTerms := ⟨"NIFTY", "LONG_BOX", 24000, 24100, "2026-07-30", 1000⟩

/-- The trade is closed while the snapshot waits for the query. -/
def actions : List Action :=
  [.trade "T1" (some ⟨.running, terms, none, none, none, none⟩),
    .position "T1" (some ⟨terms, some (.finite 120), some (.finite 100), some (.finite 90)⟩),
    .call .writeCacheSnapshot,
    .resume 0 .settled 2000,
    .trade "T1" (some ⟨.closed, terms, some 3000, some (.finite 130), some (.finite 110),
      some (.finite 110)⟩),
    .resume 0 .settled 4000,
    .position "T1" none,
    .resume 0 .settled 5000]

end ClosedMeanwhile

open ClosedMeanwhile

/-- The trade is counted as open and as closed, and its net is counted twice. -/
theorem counted_twice :
    ¬Throughout (State.step ⟨true, true⟩) (fun s => ∀ snapshot ∈ s.snapshots, CountsOnce snapshot)
        (State.initial 0) actions ∧
      (run (State.step ⟨true, true⟩) (State.initial 0) actions).map (fun s =>
        s.snapshots.map fun snapshot => (snapshot.rows.map (·.tradeId),
          snapshot.summary.openCount, snapshot.summary.closedCount,
          snapshot.summary.totalNetPnl)) = some [(["T1", "T1"], 1, 1, 210)] := by
  have hend : (run (State.step ⟨true, true⟩) (State.initial 0) actions).map (fun s =>
      s.snapshots.map fun snapshot => (snapshot.rows.map (·.tradeId),
        snapshot.summary.openCount, snapshot.summary.closedCount,
        snapshot.summary.totalNetPnl)) = some [(["T1", "T1"], 1, 1, 210)] := by
    decide +kernel
  refine ⟨fun h => ?_, hend⟩
  obtain ⟨t, hrun, hsnapshots⟩ := Option.map_eq_some_iff.mp hend
  have honce := h.last hrun
  obtain ⟨snapshot, hsnapshot⟩ := List.map_eq_singleton_iff.mp hsnapshots
  have hids : snapshot.rows.map (·.tradeId) = ["T1", "T1"] := congrArg Prod.fst hsnapshot.2
  have hnodup := (honce snapshot (by simp [hsnapshot.1])).distinct
  rw [hids] at hnodup
  exact absurd hnodup (by decide)

end Strikedge.PnlArchive
