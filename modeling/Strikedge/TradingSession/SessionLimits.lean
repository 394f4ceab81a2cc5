import Strikedge.TradingSession.SpentBudget

/-!
# The limits of a session under overlapping entries

An entry passes the gate and has its attempt counted in one synchronous block, so the limit
on attempts holds however entries overlap, as long as no failing save erases another. A cycle
is spent only when the box is established, long after the gate was read: the limit on boxes
holds if an entry is admitted beside others only while these leave a cycle for it.
-/

namespace Strikedge.TradingSession

open Machine

inductive EntryStage where
  /-- The attempt is being saved. -/
  | accounting
  /-- The attempt could not be saved. -/
  | refused
  | underway
  | opened (tradeId : TradeId)
  /-- Ended without a box. -/
  | aborted
  deriving DecidableEq, Repr

/-- A call of `coordinateEntry` that passed the gate. Its attempt is counted from the oldest
of the saves. -/
structure Entry where
  attempt : Nat
  stage : EntryStage
  deriving DecidableEq, Repr

namespace Entry

variable (entry : Entry)

def passed : Bool := entry.stage != .accounting && entry.stage != .refused

def onTheWay : Bool := entry.stage == .accounting || entry.stage == .underway

def box : Option TradeId :=
  match entry.stage with
  | .opened tradeId => some tradeId
  | _ => none

/-- The save at a position settles. -/
def answered (position : Nat) (landed : Bool) : Entry :=
  if entry.attempt = position ∧ entry.stage = .accounting then
    { entry with stage := if landed then .underway else .refused }
  else entry

end Entry

structure Trading where
  store : TradingSessionStore
  entries : List Entry := []
  deriving DecidableEq, Repr

inductive EntryCall where
  | coordinateEntry (recoveryActive : Bool)
  | settle (n : Nat) (landed : Bool)
  /-- The `i`-th newest entry opens a box, whose id is new. -/
  | openBox (i : Nat) (tradeId : TradeId)
  | abort (i : Nat)
  | recordAborted
  | recordCompleted (tradeId : TradeId)
  | retryPendingWrite

structure EntryLabel where
  call : EntryCall
  now : ℚ := 0

namespace Trading

variable (cfg : SessionConfig) (s : Trading)

/-- The trade ids of the boxes that were opened. -/
def boxes : List TradeId := s.entries.filterMap Entry.box

/-- The gate and the attempt: nothing runs between the two. -/
def coordinateEntry (recoveryActive : Bool) (now : ℚ) : Trading :=
  if (s.store.evaluateEntry cfg recoveryActive).allowed = false then s
  else
    let store := s.store.recordAttemptStarted cfg now
    match s.store.attemptAnswer cfg with
    | .refused => s
    | .uncounted => ⟨store, ⟨s.store.saves.length, .underway⟩ :: s.entries⟩
    | .awaiting => ⟨store, ⟨s.store.saves.length, .accounting⟩ :: s.entries⟩

def settle (n : Nat) (landed : Bool) : Option Trading :=
  match s.store.settle n landed with
  | none => none
  | some store =>
    some ⟨store, s.entries.map (·.answered (s.store.saves.length - 1 - n) landed)⟩

def openBox (i : Nat) (tradeId : TradeId) (now : ℚ) : Option Trading :=
  match s.entries[i]? with
  | none => none
  | some entry =>
    if entry.stage = .underway ∧ tradeId ≠ "" ∧ tradeId ∉ s.boxes then
      some ⟨s.store.recordEstablished cfg now tradeId,
        s.entries.set i { entry with stage := .opened tradeId }⟩
    else none

def abort (i : Nat) : Option Trading :=
  match s.entries[i]? with
  | none => none
  | some entry =>
    if entry.stage = .underway then
      some { s with entries := s.entries.set i { entry with stage := .aborted } }
    else none

def step (label : EntryLabel) : Option Trading :=
  match label.call with
  | .coordinateEntry recoveryActive => some (s.coordinateEntry cfg recoveryActive label.now)
  | .settle n landed => s.settle n landed
  | .openBox i tradeId => s.openBox cfg i tradeId label.now
  | .abort i => s.abort i
  | .recordAborted => some { s with store := s.store.recordAborted cfg label.now }
  | .recordCompleted tradeId =>
    some { s with store := s.store.recordCompleted cfg label.now tradeId }
  | .retryPendingWrite => some { s with store := s.store.retryPendingWrite cfg }

end Trading

/-- A session that has just been armed, with a limit on its boxes and one on its attempts. -/
structure ArmedSession where
  cfg : SessionConfig
  record : BoxSessionRecord
  available : cfg.persistenceAvailable = true
  armed : isArmed record = true
  unspent : spending record = (0, [])
  cycles_pos : 0 < record.maxCompletedTrades
  attempts_pos : 0 < record.maxEntryAttempts

def ArmedSession.start (session : ArmedSession) : Trading where
  store := { record := session.record, loaded := true, stored := some session.record }

/-- What the limits of the session promise. -/
structure WithinLimits (session : ArmedSession) (s : Trading) : Prop where
  attempts : s.entries.countP Entry.passed ≤ session.record.maxEntryAttempts
  boxes : s.boxes.length ≤ session.record.maxCompletedTrades

/-- An entry that the gate lets through beside others finds a cycle they leave, and a failing
save restores nothing that a later call changed. -/
def Spaced (cfg : SessionConfig) (s : Trading) (label : EntryLabel) : Prop :=
  match label.call with
  | .coordinateEntry recoveryActive =>
      (s.store.evaluateEntry cfg recoveryActive).allowed = true →
        s.entries.countP Entry.onTheWay = 0 ∨
          ∀ cycles ∈ remainingCycles s.store.record, s.entries.countP Entry.onTheWay < cycles
  | .settle n false => ∀ save ∈ s.store.saves[n]?, save.kind.rollbackOnFailure = true →
      Restorable spending s.store.saves n
  | _ => True

/-- An attempt that is being saved has its entry waiting for the answer. -/
def Waiting (saves : List Save) (entries : List Entry) : Prop :=
  ∀ n, ∀ save ∈ saves[n]?, save.kind = .attempt → save.status = .inFlight →
    ∃ entry ∈ entries, entry.stage = .accounting ∧ entry.attempt + n + 1 = saves.length

def alive (entry : Entry) : Bool := entry.stage != .refused

section Entries

variable {saves newer older : List Save} {entries entries' : List Entry} {save : Save}
variable {entry : Entry} {n position : Nat} {landed : Bool} {stage : EntryStage}

theorem Waiting.push (h : Waiting saves entries) (hsub : entries ⊆ entries')
    (hfresh : save.kind = .attempt → save.status = .inFlight →
      ∃ entry ∈ entries', entry.stage = .accounting ∧ entry.attempt = saves.length) :
    Waiting (save :: saves) entries' := by
  intro n call hcall hkind hflight
  cases n with
  | zero =>
      obtain rfl : save = call := Option.some.inj hcall
      obtain ⟨entry, hmem, hstage, hattempt⟩ := hfresh hkind hflight
      exact ⟨entry, hmem, hstage, by simp [hattempt]⟩
  | succ n =>
      obtain ⟨entry, hmem, hstage, hattempt⟩ := h n call hcall hkind hflight
      exact ⟨entry, hsub hmem, hstage, by rw [List.length_cons, ← hattempt]; omega⟩

theorem Waiting.settle (h : Waiting saves entries) (hn : n < saves.length)
    {status : WriteStatus} (hstatus : status ≠ .inFlight) :
    Waiting (saves.set n (save.settle status))
      (entries.map (·.answered (saves.length - 1 - n) landed)) := by
  intro m call hcall hkind hflight
  rw [Option.mem_def, List.getElem?_set] at hcall
  split at hcall
  · obtain rfl := Option.some.inj hcall
    exact absurd hflight hstatus
  · rename_i hne
    obtain ⟨entry, hmem, hstage, hattempt⟩ := h m call hcall hkind hflight
    refine ⟨entry, List.mem_map.mpr ⟨entry, hmem, if_neg fun hsame => ?_⟩, hstage, ?_⟩
    · omega
    · rw [List.length_set, hattempt]

@[simp] theorem answered_box : (entry.answered position landed).box = entry.box := by
  rw [Entry.answered]
  split
  · rename_i hwaits
    cases landed <;> simp [Entry.box, hwaits.2]
  · rfl

theorem onTheWay_of_answered (h : (entry.answered position landed).onTheWay = true) :
    entry.onTheWay = true := by
  rw [Entry.answered] at h
  split at h
  · rename_i hwaits
    simp [Entry.onTheWay, hwaits.2]
  · exact h

theorem alive_of_answered (h : alive (entry.answered position landed) = true) :
    alive entry = true := by
  rw [Entry.answered] at h
  split at h
  · rename_i hwaits
    simp [alive, hwaits.2]
  · exact h

/-- A refusal takes an entry off the way. -/
theorem answered_refused (hattempt : entry.attempt = position)
    (hstage : entry.stage = .accounting) :
    alive entry = true ∧ alive (entry.answered position false) = false := by
  rw [Entry.answered, if_pos ⟨hattempt, hstage⟩]
  exact ⟨by simp [alive, hstage], rfl⟩

theorem countP_map_le {α : Type*} {p : α → Bool} {f : α → α} {xs : List α}
    (h : ∀ x, p (f x) = true → p x = true) : (xs.map f).countP p ≤ xs.countP p := by
  rw [List.countP_map]
  exact List.countP_mono_left fun x _ hx => h x hx

theorem countP_map_lt {α : Type*} {p : α → Bool} {f : α → α} {xs : List α}
    (h : ∀ x, p (f x) = true → p x = true) {x : α} (hx : x ∈ xs) (hp : p x = true)
    (hf : p (f x) = false) : (xs.map f).countP p < xs.countP p := by
  induction xs with
  | nil => cases hx
  | cons y rest ih =>
      rw [List.map_cons, List.countP_cons, List.countP_cons]
      rcases List.mem_cons.mp hx with rfl | hx
      · have hrest : (rest.map f).countP p ≤ rest.countP p := countP_map_le h
        simp only [hp, hf, if_true, Bool.false_eq_true, if_false]
        omega
      · have hrest := ih hx
        by_cases hy : p (f y) = true
        · simp only [hy, h y hy, if_true]
          omega
        · simp only [hy, Bool.false_eq_true, if_false]
          omega

/-- The entry at an index moves to another stage. -/
theorem countP_set_stage {p : Entry → Bool} (hentry : entries[n]? = some entry) (next : Entry) :
    (entries.set n next).countP p + (if p entry then 1 else 0) =
      entries.countP p + (if p next then 1 else 0) := by
  obtain ⟨newer, older, rfl, -, hset⟩ := getElem?_split hentry
  rw [hset]
  simp only [List.countP_append, List.countP_cons]
  omega

theorem Waiting.set (h : Waiting saves entries) (hentry : entries[n]? = some entry)
    (hstage : entry.stage ≠ .accounting) (next : Entry) : Waiting saves (entries.set n next) := by
  intro m call hcall hkind hflight
  obtain ⟨waiting, hmem, haccounting, hattempt⟩ := h m call hcall hkind hflight
  obtain ⟨newer, older, rfl, -, hset⟩ := getElem?_split hentry
  refine ⟨waiting, ?_, haccounting, hattempt⟩
  rw [hset]
  rcases List.mem_append.mp hmem with hmem | hmem
  · exact List.mem_append_left _ hmem
  · rcases List.mem_cons.mp hmem with rfl | hmem
    · exact absurd haccounting hstage
    · exact List.mem_append_right _ (List.mem_cons_of_mem _ hmem)

theorem boxes_set (hentry : entries[n]? = some entry) (hbox : entry.box = none) (next : Entry) :
    ((entries.set n next).filterMap Entry.box).Perm
      (next.box.toList ++ entries.filterMap Entry.box) := by
  obtain ⟨newer, older, rfl, -, hset⟩ := getElem?_split hentry
  rw [hset, List.filterMap_append, List.filterMap_append, List.filterMap_cons_none hbox]
  cases hnext : next.box with
  | none => simp [List.filterMap_cons_none hnext]
  | some tradeId =>
      rw [List.filterMap_cons_some hnext]
      exact List.perm_middle

end Entries

/-- The record is one of the session. -/
structure InSession (session : ArmedSession) (record : BoxSessionRecord) : Prop where
  armed : isArmed record = true
  cycles : record.maxCompletedTrades = session.record.maxCompletedTrades
  attempts : record.maxEntryAttempts = session.record.maxEntryAttempts

/-- What holds of the store, and between its counters and the entries. -/
structure Bounded (session : ArmedSession) (s : Trading) : Prop where
  loaded : s.store.loaded = true
  record : InSession session s.store.record
  saves : ∀ save ∈ s.store.saves, save.kind ≠ .arm ∧ Recorded save ∧
    InSession session save.previous
  traced : Traced spending session.record s.store.record s.store.saves
  waiting : Waiting s.store.saves s.entries
  listed : s.store.record.establishedTradeIds ⊆ s.boxes
  opened : s.boxes.length ≤ consumedCycles s.store.record
  cycles : consumedCycles s.store.record + s.entries.countP Entry.onTheWay ≤
    session.record.maxCompletedTrades
  counted : s.entries.countP alive ≤ s.store.record.entryAttempts
  attempts : s.store.record.entryAttempts ≤ session.record.maxEntryAttempts

section Bounded

variable {session : ArmedSession} {s s' : Trading} {change : Change} {next : BoxSessionRecord}
variable {now : ℚ} {tradeId : TradeId} {label : EntryLabel} {recoveryActive : Bool}

theorem InSession.changed {record next : BoxSessionRecord} (h : InSession session record)
    (hid : next.sessionId = record.sessionId) (hat : next.armedAt = record.armedAt)
    (hcycles : next.maxCompletedTrades = record.maxCompletedTrades)
    (hattempts : next.maxEntryAttempts = record.maxEntryAttempts) : InSession session next := by
  refine ⟨?_, hcycles.trans h.cycles, hattempts.trans h.attempts⟩
  rw [isArmed, hid, hat]
  exact h.armed

theorem Bounded.enforcing (h : Bounded session s) : s.store.enforcing session.cfg = true := by
  have hpos := session.cycles_pos
  rw [← h.record.cycles] at hpos
  simp [TradingSessionStore.enforcing, h.record.armed, hpos]

/-- What the gate found when it let an entry through. -/
theorem Bounded.gate (h : Bounded session s)
    (hallowed : (s.store.evaluateEntry session.cfg recoveryActive).allowed = true) :
    consumedCycles s.store.record < session.record.maxCompletedTrades ∧
      s.store.record.entryAttempts < session.record.maxEntryAttempts := by
  have hcycles := session.cycles_pos
  have hattempts := session.attempts_pos
  rw [← h.record.cycles] at hcycles ⊢
  rw [← h.record.attempts] at hattempts ⊢
  rw [TradingSessionStore.evaluateEntry, if_neg (by simp [h.enforcing]),
    if_neg (by simp [session.available]), if_neg (by simp [h.loaded])] at hallowed
  split at hallowed
  · cases hallowed
  · rw [evaluateSessionEntry] at hallowed
    split at hallowed
    · cases hallowed
    · rw [if_neg (by simp [h.record.armed])] at hallowed
      split at hallowed
      · cases hallowed
      · rename_i hbudget
        split at hallowed
        · cases hallowed
        · rename_i hattempt
          simp only [isBudgetExhausted, isAttemptBudgetExhausted, Bool.and_eq_true, bne_iff_ne,
            decide_eq_true_eq, not_and, not_le] at hbudget hattempt
          exact ⟨hbudget (by omega), hattempt (by omega)⟩

/-- A change of the record that spends nothing. -/
theorem Bounded.spendless (h : Bounded session s) (hspent : spending next = spending s.store.record)
    (hnext : InSession session next)
    (hrecorded : Recorded ⟨change, s.store.record, next, .inFlight⟩)
    (harm : change ≠ .arm) (hattempt : change ≠ .attempt) :
    Bounded session { s with store := s.store.commit change next } := by
  have hsame := Prod.ext_iff.mp hspent
  simp only [spending] at hsame
  refine ⟨h.loaded, hnext, fun save hsave => ?_, h.traced.push,
    h.waiting.push (fun _ h => h) fun hkind => absurd hkind hattempt, ?_, ?_, ?_, ?_, ?_⟩
  · rcases List.mem_cons.mp hsave with rfl | hsave
    · exact ⟨harm, hrecorded, h.record⟩
    · exact h.saves save hsave
  · rw [TradingSessionStore.commit, hsame.2]
    exact h.listed
  · rw [TradingSessionStore.commit, consumedCycles, hsame.2]
    exact h.opened
  · rw [TradingSessionStore.commit, consumedCycles, hsame.2]
    exact h.cycles
  · rw [TradingSessionStore.commit, hsame.1]
    exact h.counted
  · rw [TradingSessionStore.commit, hsame.1]
    exact h.attempts

theorem Bounded.awaiting (h : Bounded session s) :
    s.store.attemptAnswer session.cfg = .awaiting := by
  rw [TradingSessionStore.attemptAnswer, if_neg (by simp [h.enforcing, session.available]),
    if_neg (by simp [h.loaded, h.record.armed])]

theorem bounded_coordinateEntry (h : Bounded session s)
    (hspaced : Spaced session.cfg s ⟨.coordinateEntry recoveryActive, now⟩) :
    Bounded session (s.coordinateEntry session.cfg recoveryActive now) := by
  rw [Trading.coordinateEntry]
  split
  · exact h
  · rename_i hallowed
    have hpasses : (s.store.evaluateEntry session.cfg recoveryActive).allowed = true := by
      simpa using hallowed
    obtain ⟨hcycle, hattempt⟩ := h.gate hpasses
    rw [TradingSessionStore.recordAttemptStarted, h.awaiting]
    have hroom : consumedCycles s.store.record + s.entries.countP Entry.onTheWay <
        session.record.maxCompletedTrades := by
      rcases hspaced hpasses with hnone | hfew
      · omega
      · have hpos := session.cycles_pos
        rw [← h.record.cycles] at hpos hcycle ⊢
        have hremaining : remainingCycles s.store.record =
            some (s.store.record.maxCompletedTrades - consumedCycles s.store.record) := by
          rw [remainingCycles, if_neg (by omega)]
        have hless := hfew _ hremaining
        omega
    refine ⟨h.loaded, h.record.changed rfl rfl rfl rfl, fun save hsave => ?_, h.traced.push,
      h.waiting.push (List.subset_cons_self _ _) fun _ _ => ⟨_, List.mem_cons_self, rfl, rfl⟩,
      h.listed, h.opened, ?_, ?_, ?_⟩
    · rcases List.mem_cons.mp hsave with rfl | hsave
      · exact ⟨by simp, .inr rfl, h.record⟩
      · exact h.saves save hsave
    · rw [List.countP_cons_of_pos rfl]
      exact hroom
    · rw [List.countP_cons_of_pos rfl]
      exact Nat.succ_le_succ h.counted
    · exact hattempt

/-- The box of a new trade is stored with its trade id behind the others. -/
theorem Bounded.recordEstablished_eq (h : Bounded session s) (hid : tradeId ≠ "")
    (hnew : tradeId ∉ s.store.record.establishedTradeIds) :
    s.store.recordEstablished session.cfg now tradeId =
      s.store.commit (.established tradeId) { s.store.record with
        establishedTradeIds := s.store.record.establishedTradeIds ++ [tradeId]
        updatedAt := now } := by
  have hrecord : recordEstablishedBox s.store.record tradeId now = { s.store.record with
      establishedTradeIds := s.store.record.establishedTradeIds ++ [tradeId]
      updatedAt := now } := by
    rw [recordEstablishedBox, if_neg (not_or.mpr ⟨hid, hnew⟩)]
  rw [TradingSessionStore.recordEstablished,
    if_neg (by simp [session.available, h.loaded, h.record.armed]), hrecord, if_neg]
  rintro ⟨hsame, -⟩
  have hids := congrArg (fun r : BoxSessionRecord => r.establishedTradeIds.length) hsame
  simp at hids

theorem bounded_openBox (h : Bounded session s) {i : Nat}
    (hstep : s.openBox session.cfg i tradeId now = some s') : Bounded session s' := by
  rw [Trading.openBox] at hstep
  split at hstep
  · cases hstep
  · rename_i entry hentry
    split at hstep
    · rename_i hopens
      obtain ⟨hstage, hid, hnew⟩ := hopens
      obtain rfl := Option.some.inj hstep
      have hstore : s.store.recordEstablished session.cfg now tradeId = _ :=
        h.recordEstablished_eq hid fun hlisted => hnew (h.listed hlisted)
      have hbox : entry.box = none := by simp [Entry.box, hstage]
      have hperm := boxes_set hentry hbox { entry with stage := .opened tradeId }
      have hway := countP_set_stage (p := Entry.onTheWay) hentry
        { entry with stage := .opened tradeId }
      have halive := countP_set_stage (p := alive) hentry { entry with stage := .opened tradeId }
      rw [if_pos (by simp [Entry.onTheWay, hstage]), if_neg (by simp [Entry.onTheWay])] at hway
      rw [if_pos (by simp [alive, hstage]), if_pos (by simp [alive])] at halive
      rw [hstore]
      refine ⟨h.loaded, ?_, fun save hsave => ?_, h.traced.push, ?_, ?_, ?_, ?_, ?_, ?_⟩
      · exact h.record.changed rfl rfl rfl rfl
      · rcases List.mem_cons.mp hsave with rfl | hsave
        · exact ⟨by simp, ⟨by simp, rfl, List.subset_append_left _ _, by simp⟩, h.record⟩
        · exact h.saves save hsave
      · exact (h.waiting.set hentry (by simp [hstage]) _).push (fun _ h => h) (by simp)
      · refine fun id hlisted => hperm.mem_iff.mpr ?_
        rcases List.mem_append.mp hlisted with hlisted | hown
        · exact List.mem_cons_of_mem _ (h.listed hlisted)
        · exact List.mem_cons.mpr (.inl (List.mem_singleton.mp hown))
      · have hopened := h.opened
        rw [Trading.boxes, hperm.length_eq]
        simp only [TradingSessionStore.commit, consumedCycles, List.length_append]
        simp only [Entry.box, Option.toList_some, List.length_singleton]
        rw [Trading.boxes, consumedCycles] at hopened
        omega
      · have hcycles := h.cycles
        simp only [TradingSessionStore.commit, consumedCycles, List.length_append,
          List.length_singleton] at hcycles ⊢
        omega
      · have hcounted := h.counted
        simp only [TradingSessionStore.commit]
        omega
      · exact h.attempts
    · cases hstep

theorem bounded_abort (h : Bounded session s) {i : Nat} (hstep : s.abort i = some s') :
    Bounded session s' := by
  rw [Trading.abort] at hstep
  split at hstep
  · cases hstep
  · rename_i entry hentry
    split at hstep
    · rename_i hstage
      obtain rfl := Option.some.inj hstep
      have hbox : entry.box = none := by simp [Entry.box, hstage]
      have hperm := boxes_set hentry hbox { entry with stage := .aborted }
      have hway := countP_set_stage (p := Entry.onTheWay) hentry { entry with stage := .aborted }
      have halive := countP_set_stage (p := alive) hentry { entry with stage := .aborted }
      have hcycles := h.cycles
      have hcounted := h.counted
      rw [if_pos (by simp [Entry.onTheWay, hstage]), if_neg (by simp [Entry.onTheWay])] at hway
      rw [if_pos (by simp [alive, hstage]), if_pos (by simp [alive])] at halive
      refine ⟨h.loaded, h.record, h.saves, h.traced, h.waiting.set hentry (by simp [hstage]) _,
        fun id hlisted => hperm.mem_iff.mpr (h.listed hlisted), ?_, ?_, ?_, h.attempts⟩
      · rw [Trading.boxes, hperm.length_eq]
        exact h.opened
      · dsimp only
        omega
      · dsimp only
        omega
    · cases hstep

/-- What is left of the record when the save of a call fails. -/
theorem Bounded.restored (h : Bounded session s) {save : Save} (hsave : save ∈ s.store.saves)
    (hrollback : save.kind.rollbackOnFailure = true) (hflight : save.status = .inFlight)
    (hshown : spending s.store.record = spending save.next) :
    save.previous.establishedTradeIds = s.store.record.establishedTradeIds ∧
      save.previous.entryAttempts + (if save.kind = .attempt then 1 else 0) =
        s.store.record.entryAttempts := by
  obtain ⟨harm, hrecorded, -⟩ := h.saves save hsave
  obtain ⟨kind, previous, next, status⟩ := save
  cases kind with
  | arm => exact absurd rfl harm
  | established tradeId | retry => cases hrollback
  | attempt =>
      have hnext := Prod.ext_iff.mp (hshown.trans (hrecorded.resolve_left (by simp_all)))
      exact ⟨hnext.2.symm, hnext.1.symm⟩
  | disarm | completed | aborted | reconcile =>
      have hnext := Prod.ext_iff.mp (hshown.trans hrecorded)
      exact ⟨hnext.2.symm, hnext.1.symm⟩

/-- An answer moves no entry onto the way, and opens and closes no box. -/
theorem Bounded.answered (h : Bounded session s) (position : Nat) (landed : Bool) :
    s.store.record.establishedTradeIds ⊆
        (s.entries.map (·.answered position landed)).filterMap Entry.box ∧
      ((s.entries.map (·.answered position landed)).filterMap Entry.box).length ≤
        consumedCycles s.store.record ∧
      consumedCycles s.store.record +
          (s.entries.map (·.answered position landed)).countP Entry.onTheWay ≤
        session.record.maxCompletedTrades ∧
      (s.entries.map (·.answered position landed)).countP alive ≤ s.store.record.entryAttempts := by
  have hboxes : (s.entries.map (·.answered position landed)).filterMap Entry.box = s.boxes := by
    rw [List.filterMap_map, Trading.boxes]
    exact List.filterMap_congr fun entry _ => answered_box
  rw [hboxes]
  refine ⟨h.listed, h.opened, le_trans (Nat.add_le_add_left ?_ _) h.cycles, le_trans ?_ h.counted⟩
  · exact countP_map_le fun _ => onTheWay_of_answered
  · exact countP_map_le fun _ => alive_of_answered

theorem bounded_settle (h : Bounded session s) {n : Nat} {landed : Bool}
    (hspaced : Spaced session.cfg s ⟨.settle n landed, now⟩) (hstep : s.settle n landed = some s') :
    Bounded session s' := by
  rw [Trading.settle] at hstep
  split at hstep
  · cases hstep
  · rename_i store hstore
    obtain rfl := Option.some.inj hstep
    rw [TradingSessionStore.settle] at hstore
    split at hstore
    · cases hstore
    · rename_i save hsave
      split at hstore
      · cases hstore
      · rename_i hflight
        have hflight : save.status = .inFlight := not_not.mp hflight
        have hn : n < s.store.saves.length := (List.getElem?_eq_some_iff.mp hsave).1
        obtain ⟨harm, hrecorded, hprevious⟩ := h.saves save (List.mem_of_getElem? hsave)
        have hsaves : ∀ status, (status = .undone → save.kind.rollbackOnFailure = true) →
            ∀ call ∈ s.store.saves.set n (save.settle status),
              call.kind ≠ .arm ∧ Recorded call ∧ InSession session call.previous := by
          intro status hstatus call hcall
          rcases List.mem_or_eq_of_mem_set hcall with hcall | rfl
          · exact h.saves call hcall
          · exact ⟨harm, hrecorded.settle hflight hstatus, hprevious⟩
        obtain ⟨hlisted, hopened, hcycles, hcounted⟩ :=
          h.answered (s.store.saves.length - 1 - n) landed
        split at hstore
        · obtain rfl := Option.some.inj hstore
          exact ⟨h.loaded, h.record, hsaves .saved (by simp),
            h.traced.stand hsave hflight (by simp), h.waiting.settle hn (by simp), hlisted,
            hopened, hcycles, hcounted, h.attempts⟩
        · rename_i hfailed
          obtain rfl : landed = false := by simpa using hfailed
          split at hstore
          · rename_i hrollback
            obtain rfl := Option.some.inj hstore
            have hrestorable := hspaced save hsave hrollback
            obtain ⟨hids, hattempts⟩ := h.restored (List.mem_of_getElem? hsave) hrollback hflight
              (h.traced.memory_eq hsave hflight hrestorable)
            have hfewer := h.attempts
            refine ⟨h.loaded, hprevious, hsaves .undone fun _ => hrollback,
              h.traced.undo hsave hflight hrestorable, h.waiting.settle hn (by simp),
              ?_, ?_, ?_, ?_, ?_⟩
            · exact hids ▸ hlisted
            · rw [consumedCycles, hids]
              exact hopened
            · rw [consumedCycles, hids]
              exact hcycles
            · dsimp only
              by_cases hkind : save.kind = .attempt
              · -- The entry that waited for this save is refused.
                obtain ⟨entry, hmem, hstage, hposition⟩ := h.waiting n save hsave hkind hflight
                have hattempt : entry.attempt = s.store.saves.length - 1 - n := by omega
                obtain ⟨hlive, hgone⟩ := answered_refused hattempt hstage
                have hless := countP_map_lt (fun _ => alive_of_answered) hmem hlive hgone
                have hcount := h.counted
                rw [if_pos hkind] at hattempts
                omega
              · rw [if_neg hkind] at hattempts
                omega
            · dsimp only
              omega
          · obtain rfl := Option.some.inj hstore
            exact ⟨h.loaded, h.record, hsaves .retained (by simp),
              h.traced.stand hsave hflight (by simp), h.waiting.settle hn (by simp), hlisted,
              hopened, hcycles, hcounted, h.attempts⟩

theorem bounded_step (h : Bounded session s) (hspaced : Spaced session.cfg s label)
    (hstep : s.step session.cfg label = some s') : Bounded session s' := by
  obtain ⟨call, now⟩ := label
  cases call with
  | coordinateEntry recoveryActive =>
      obtain rfl := Option.some.inj hstep
      exact bounded_coordinateEntry h hspaced
  | settle n landed => exact bounded_settle h hspaced hstep
  | openBox i tradeId => exact bounded_openBox h hstep
  | abort i => exact bounded_abort h hstep
  | recordAborted =>
      obtain rfl := Option.some.inj hstep
      dsimp only [TradingSessionStore.recordAborted]
      split
      · exact h
      · exact h.spendless spending_aborted (h.record.changed rfl rfl rfl rfl) spending_aborted
          (by simp) (by simp)
  | recordCompleted tradeId =>
      obtain rfl := Option.some.inj hstep
      dsimp only [TradingSessionStore.recordCompleted]
      split
      · exact h
      · split
        · exact h
        · refine h.spendless spending_completed ?_ spending_completed (by simp) (by simp)
          rw [recordCompletedBox]
          split
          · exact h.record
          · exact h.record.changed rfl rfl rfl rfl
  | retryPendingWrite =>
      obtain rfl := Option.some.inj hstep
      dsimp only [TradingSessionStore.retryPendingWrite]
      split
      · exact h
      · exact h.spendless rfl h.record rfl (by simp) (by simp)

theorem Bounded.withinLimits (h : Bounded session s) : WithinLimits session s := by
  have hpassed : s.entries.countP Entry.passed ≤ s.entries.countP alive := by
    refine List.countP_mono_left fun entry _ hpassed => ?_
    simp only [Entry.passed, Bool.and_eq_true] at hpassed
    exact hpassed.2
  have hcounted := h.counted
  have hattempts := h.attempts
  have hopened := h.opened
  have hcycles := h.cycles
  exact ⟨by omega, by omega⟩

theorem bounded_start (session : ArmedSession) : Bounded session session.start := by
  have hunspent := Prod.ext_iff.mp session.unspent
  simp only [spending] at hunspent
  refine ⟨rfl, ⟨session.armed, rfl, rfl⟩, fun _ hsave => absurd hsave List.not_mem_nil,
    traced_start, ?_, ?_, Nat.zero_le _, ?_, Nat.zero_le _, ?_⟩
  · intro n save hsave
    cases hsave
  · rw [ArmedSession.start, hunspent.2]
    exact List.nil_subset _
  · rw [ArmedSession.start, consumedCycles, hunspent.2]
    exact Nat.zero_le _
  · rw [ArmedSession.start, hunspent.1]
    exact Nat.zero_le _

end Bounded

/-- However the entries of a session overlap, its limits hold as long as they are spaced. -/
theorem ArmedSession.limits_hold (session : ArmedSession) (labels : List EntryLabel)
    (h : Heeds (Trading.step session.cfg) (Spaced session.cfg) session.start labels) :
    Throughout (Trading.step session.cfg) (WithinLimits session) session.start labels := by
  have hbounded : Throughout (Trading.step session.cfg) (Bounded session) session.start labels :=
    .of_heeds (fun _ _ _ hs hspaced hstep => bounded_step hs hspaced hstep)
      (bounded_start session) h
  exact hbounded.mono fun _ hs => hs.withinLimits

/-- A session of so many boxes and four attempts. -/
def armedFor (boxes : Nat) (h : 0 < boxes) : ArmedSession where
  cfg := ⟨.finite boxes, .finite 4, true⟩
  record := { idleSessionRecord 0 with
    sessionId := "S", armedAt := some 0, maxCompletedTrades := boxes, maxEntryAttempts := 4 }
  available := rfl
  armed := rfl
  unspent := rfl
  cycles_pos := h
  attempts_pos := Nat.zero_lt_succ 3

instance (cfg : SessionConfig) (s : Trading) : (label : EntryLabel) → Decidable (Spaced cfg s label)
  | ⟨.coordinateEntry recoveryActive, _⟩ =>
      inferInstanceAs (Decidable ((s.store.evaluateEntry cfg recoveryActive).allowed = true →
        s.entries.countP Entry.onTheWay = 0 ∨
          ∀ cycles ∈ remainingCycles s.store.record, s.entries.countP Entry.onTheWay < cycles))
  | ⟨.settle n false, _⟩ => inferInstanceAs (Decidable (∀ save ∈ s.store.saves[n]?,
      save.kind.rollbackOnFailure = true → Restorable spending s.store.saves n))
  | ⟨.settle _ true, _⟩ | ⟨.openBox _ _, _⟩ | ⟨.abort _, _⟩ | ⟨.recordAborted, _⟩
  | ⟨.recordCompleted _, _⟩ | ⟨.retryPendingWrite, _⟩ => .isTrue trivial

/-- Two entries overlap in a session of two boxes, and the gate refuses a third beside them. The
save of a later attempt fails, and the last call finds no cycle left. -/
theorem ArmedSession.limits_hold_sample :
    Throughout (Trading.step (armedFor 2 (by decide)).cfg) (WithinLimits (armedFor 2 (by decide)))
      (armedFor 2 (by decide)).start
      [⟨.coordinateEntry false, 1⟩, ⟨.coordinateEntry false, 2⟩, ⟨.coordinateEntry true, 2⟩,
        ⟨.settle 1 true, 3⟩, ⟨.settle 0 true, 4⟩, ⟨.openBox 1 "T", 5⟩, ⟨.abort 0, 6⟩,
        ⟨.recordAborted, 7⟩,
        ⟨.settle 1 true, 8⟩, ⟨.settle 0 true, 9⟩, ⟨.coordinateEntry false, 10⟩,
        ⟨.settle 0 false, 11⟩, ⟨.coordinateEntry false, 12⟩, ⟨.settle 0 true, 13⟩,
        ⟨.openBox 0 "U", 14⟩, ⟨.settle 0 true, 15⟩, ⟨.coordinateEntry false, 16⟩] :=
  limits_hold (armedFor 2 (by decide)) _ (by decide +kernel)

/-- In a session of one box two entries pass the gate before either has opened its box. -/
theorem ArmedSession.overlapping_entries_exceed_limit :
    ¬∀ labels, Throughout (Trading.step (armedFor 1 (by decide)).cfg)
      (WithinLimits (armedFor 1 (by decide))) (armedFor 1 (by decide)).start labels := by
  intro h
  have hlimits := (h [⟨.coordinateEntry false, 1⟩, ⟨.coordinateEntry false, 2⟩, ⟨.settle 1 true, 3⟩,
    ⟨.settle 0 true, 4⟩, ⟨.openBox 1 "T", 5⟩, ⟨.openBox 0 "U", 6⟩]).last rfl
  have hboxes := hlimits.boxes
  revert hboxes
  decide +kernel

end Strikedge.TradingSession
