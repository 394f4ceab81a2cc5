import Strikedge.TradingSession.SessionStore

/-!
# A spent budget stays spent

The store takes a failed save back to the record it replaced, whatever has been committed in
between, and lets a late save overwrite a later one. As long as neither happens, the record
in memory counts every attempt that was admitted and every box that was established since the
session was armed, and whenever entry is allowed with nothing under way the database agrees.
-/

namespace Strikedge.TradingSession

open Machine

/-- The call armed the session, and was not taken back. -/
def arms (save : Save) : Bool := save.kind == .arm && save.stands

/-- The calls since the newest arming. -/
def sinceArm (saves : List Save) : List Save :=
  if saves.any arms then saves.takeWhile (!arms ·) else []

/-- An attempt that was answered with `ok: true`. -/
def admitted (save : Save) : Bool :=
  save.kind == .attempt && (save.status == .saved || save.status == .skipped)

def okAttempts (saves : List Save) : Nat := (sinceArm saves).countP admitted

def Change.establishes : Change → Option TradeId
  | established tradeId => some tradeId
  | _ => none

/-- The trade ids passed to `recordEstablished` while the session was armed. -/
def establishments (saves : List Save) : List TradeId :=
  (sinceArm saves).filterMap (·.kind.establishes)

section SinceArm

variable {save : Save} {older : List Save}

theorem sinceArm_cons_arms (h : arms save = true) : sinceArm (save :: older) = [] := by
  simp [sinceArm, h]

theorem sinceArm_cons (h : arms save = false) (hany : older.any arms = true) :
    sinceArm (save :: older) = save :: sinceArm older := by
  simp [sinceArm, h, hany]

theorem sinceArm_of_none (h : older.any arms = false) : sinceArm older = [] := by
  simp [sinceArm, h]

end SinceArm

/-- What the session guarantees in one state. -/
structure BudgetKept (cfg : SessionConfig) (s : TradingSessionStore) : Prop where
  attempts : okAttempts s.saves ≤ s.record.entryAttempts
  established : ∀ tradeId ∈ establishments s.saves, tradeId ∈ s.record.establishedTradeIds
  durable : ∀ recoveryActive now, s.enforcing cfg = true →
    (s.evaluateEntry cfg recoveryActive).allowed = true →
      (∀ save ∈ s.saves, save.inFlight = false) →
        (s.restarted now).entryAttempts = s.record.entryAttempts ∧
          (s.restarted now).establishedTradeIds = s.record.establishedTradeIds

def Recorded (save : Save) : Prop :=
  match save.kind with
  | .arm => spending save.next = (0, [])
  | .attempt => save.status = .skipped ∨
      spending save.next = (save.previous.entryAttempts + 1, save.previous.establishedTradeIds)
  | .established tradeId => save.status ≠ .undone ∧
      save.next.entryAttempts = save.previous.entryAttempts ∧
      save.previous.establishedTradeIds ⊆ save.next.establishedTradeIds ∧
      tradeId ∈ save.next.establishedTradeIds
  | _ => spending save.next = spending save.previous

/-- Attempts that nothing counts are older than the session. -/
def UncountedApart : List Save → Prop
  | [] => True
  | save :: older =>
    (save.kind = .attempt → save.status = .skipped → older.any arms = false) ∧
      UncountedApart older

section Recorded

variable {save : Save} {saves newer older older' : List Save} {n : Nat} {base : BoxSessionRecord}
variable {status : WriteStatus}

theorem Recorded.settle (h : Recorded save) (hflight : save.status = .inFlight)
    (hstatus : status = .undone → save.kind.rollbackOnFailure = true) :
    Recorded (save.settle status) := by
  rw [Recorded] at h ⊢
  simp only [Write.settle_kind, Write.settle_next, Write.settle_previous, Write.settle_status]
  split at h
  · exact h
  · exact .inr (h.resolve_left (by simp [hflight]))
  · rename_i hkind
    refine ⟨fun hundone => ?_, h.2⟩
    have hrollback := hstatus hundone
    rw [hkind] at hrollback
    cases hrollback
  · exact h

theorem UncountedApart.replace (h : UncountedApart (newer ++ older)) (h' : UncountedApart older')
    (hany : older.any arms = false → older'.any arms = false) :
    UncountedApart (newer ++ older') := by
  induction newer with
  | nil => exact h'
  | cons save rest ih =>
      refine ⟨fun hkind hstatus => ?_, ih h.2⟩
      have hnone := h.1 hkind hstatus
      simp only [List.append_eq, List.any_append, Bool.or_eq_false_iff] at hnone ⊢
      exact ⟨hnone.1, hany hnone.2⟩

theorem UncountedApart.behind (h : UncountedApart (newer ++ older)) : UncountedApart older := by
  induction newer with
  | nil => exact h
  | cons save rest ih => exact ih h.2

theorem UncountedApart.settle (h : UncountedApart saves) (hsave : saves[n]? = some save)
    (hflight : save.status = .inFlight) (hstatus : status ≠ .skipped) :
    UncountedApart (saves.set n (save.settle status)) := by
  obtain ⟨newer, older, rfl, -, hset⟩ := getElem?_split hsave
  rw [hset]
  refine h.replace ⟨fun _ hskipped => absurd hskipped hstatus, h.behind.2⟩ fun hnone => ?_
  rw [List.any_cons, Bool.or_eq_false_iff] at hnone ⊢
  have hkind : ¬save.kind = .arm := by simpa [arms, Write.stands, hflight] using hnone.1
  exact ⟨by simp [arms, hkind], hnone.2⟩

/-- A call that was taken back was neither admitted nor an establishment. -/
theorem undone_uncounted (h : Recorded save) (hstands : save.stands = false) :
    admitted save = false ∧ save.kind.establishes = none := by
  have hstatus : save.status = .undone := by simpa [Write.stands] using hstands
  refine ⟨by simp [admitted, hstatus], ?_⟩
  rw [Recorded] at h
  split at h
  · rename_i hkind
    rw [hkind]
    rfl
  · rename_i hkind
    rw [hkind]
    rfl
  · exact absurd hstatus h.1
  · rename_i hother
    cases hkind : save.kind with
    | established tradeId => exact absurd hkind (hother tradeId)
    | _ => rfl

/-- A call adds to the counters what it admits or establishes. -/
theorem standing_counted (h : Recorded save) (harms : arms save = false)
    (hstands : save.stands = true) (huncounted : save.kind = .attempt → save.status ≠ .skipped) :
    save.previous.entryAttempts + (if admitted save then 1 else 0) ≤ save.next.entryAttempts ∧
      save.previous.establishedTradeIds ⊆ save.next.establishedTradeIds ∧
      ∀ tradeId ∈ save.kind.establishes, tradeId ∈ save.next.establishedTradeIds := by
  obtain ⟨kind, previous, next, status⟩ := save
  cases kind with
  | arm => simp [arms, hstands] at harms
  | attempt =>
      have hnext := Prod.ext_iff.mp (h.resolve_left (huncounted rfl))
      simp only [spending] at hnext
      refine ⟨?_, by rw [hnext.2]; exact fun _ h => h, nofun⟩
      dsimp only
      split <;> omega
  | established tradeId =>
      obtain ⟨-, hattempts, hsubset, hid⟩ := h
      refine ⟨le_of_eq hattempts.symm, hsubset, fun id hid' => ?_⟩
      obtain rfl : tradeId = id := Option.some.inj hid'
      exact hid
  | disarm | completed | aborted | retry | reconcile =>
      have hnext := Prod.ext_iff.mp h
      simp only [spending] at hnext
      refine ⟨le_of_eq hnext.1.symm, ?_, nofun⟩
      rw [hnext.2]
      exact fun _ h => h

/-- The value of the standing calls counts all that was admitted and established. -/
theorem counted (hchained : Chained spending base saves) (hrecorded : ∀ save ∈ saves, Recorded save)
    (hapart : UncountedApart saves) :
    okAttempts saves ≤ (spending (valueOf Write.stands base saves)).1 ∧
      establishments saves ⊆ (spending (valueOf Write.stands base saves)).2 := by
  induction saves with
  | nil => exact ⟨Nat.zero_le _, nofun⟩
  | cons save older ih =>
      obtain ⟨hcount, hids⟩ :=
        ih hchained.2 (fun s hs => hrecorded s (List.mem_cons_of_mem save hs)) hapart.2
      have hwrites := hrecorded save List.mem_cons_self
      cases harms : arms save with
      | true =>
          rw [okAttempts, establishments, sinceArm_cons_arms harms]
          exact ⟨Nat.zero_le _, nofun⟩
      | false =>
          cases hany : older.any arms with
          | false =>
              rw [okAttempts, establishments, sinceArm_of_none (by simp [harms, hany])]
              exact ⟨Nat.zero_le _, nofun⟩
          | true =>
              rw [okAttempts, establishments, sinceArm_cons harms hany]
              rw [okAttempts] at hcount
              rw [establishments] at hids
              cases hstands : save.stands with
              | false =>
                  obtain ⟨hnot, hnone⟩ := undone_uncounted hwrites hstands
                  rw [valueOf_cons_of_neg hstands, List.countP_cons_of_neg (by simp [hnot]),
                    @List.filterMap_cons_none _ _ (fun x : Save => x.kind.establishes) save _ hnone]
                  exact ⟨hcount, hids⟩
              | true =>
                  have hcounted : save.kind = .attempt → save.status ≠ .skipped := by
                    intro hkind hstatus
                    rw [hapart.1 hkind hstatus] at hany
                    cases hany
                  obtain ⟨hattempts, hsubset, hid⟩ :=
                    standing_counted hwrites harms hstands hcounted
                  rw [← hchained.1 hstands] at hcount hids
                  rw [valueOf_cons_of_pos hstands, List.countP_cons]
                  simp only [spending] at hcount hids ⊢
                  refine ⟨by omega, fun id hmem => ?_⟩
                  obtain ⟨call, hcall, hsome⟩ := List.mem_filterMap.mp hmem
                  rcases List.mem_cons.mp hcall with rfl | hcall
                  · exact hid id hsome
                  · exact hsubset (hids (List.mem_filterMap.mpr ⟨call, hcall, hsome⟩))

end Recorded

/-- A failing save restores nothing that a later call changed, a save does not land behind a
later one, boxes have an id, and once a session was armed attempts are made while its limits
are enforced. -/
def Careful (cfg : SessionConfig) (s : TradingSessionStore) (label : Label) : Prop :=
  match label.call with
  | .settle n true => InOrder spending s.saves n
  | .settle n false => ∀ save ∈ s.saves[n]?, save.kind.rollbackOnFailure = true →
      Restorable spending s.saves n
  | .recordEstablished tradeId => tradeId ≠ ""
  | .recordAttemptStarted => s.saves.any arms = true → s.enforcing cfg = true
  | _ => True

/-- Before the load there is no session and nothing to save. -/
structure Unread (cfg : SessionConfig) (s : TradingSessionStore) : Prop where
  unarmed : s.saves.any arms = false
  unspent : spending s.record = (0, [])
  absent : cfg.persistenceAvailable = false → s.stored = none
  healthy : s.writeFailed = false
  quiet : ∀ save ∈ s.saves, save.inFlight = false

instance (cfg : SessionConfig) (s : TradingSessionStore) : (label : Label) →
    Decidable (Careful cfg s label)
  | ⟨.settle n true, _⟩ => inferInstanceAs (Decidable (InOrder spending s.saves n))
  | ⟨.settle n false, _⟩ => inferInstanceAs (Decidable (∀ save ∈ s.saves[n]?,
      save.kind.rollbackOnFailure = true → Restorable spending s.saves n))
  | ⟨.recordEstablished tradeId, _⟩ => inferInstanceAs (Decidable (tradeId ≠ ""))
  | ⟨.recordAttemptStarted, _⟩ =>
    inferInstanceAs (Decidable (s.saves.any arms = true → s.enforcing cfg = true))
  | ⟨.initialise _, _⟩ | ⟨.reconcile _, _⟩ | ⟨.arm _, _⟩ | ⟨.disarm, _⟩ | ⟨.retryPendingWrite, _⟩
  | ⟨.recordCompleted _, _⟩ | ⟨.recordAborted, _⟩ => .isTrue trivial

/-- The record, the row and the calls fit together. -/
structure Sound (cfg : SessionConfig) (s : TradingSessionStore) : Prop where
  recorded : ∀ save ∈ s.saves, Recorded save
  apart : UncountedApart s.saves
  unloaded : s.loaded = false → Unread cfg s
  loaded : s.loaded = true → cfg.persistenceAvailable = true ∧
    ∃ base, Consistent spending base s.record (s.restarted 0) s.writeFailed s.saves

section Sound

variable {cfg : SessionConfig} {s s' : TradingSessionStore} {change : Change}
variable {next : BoxSessionRecord} {now : ℚ} {tradeId : TradeId} {label : Label}

theorem restarted_spending (now now' : ℚ) :
    spending (s.restarted now) = spending (s.restarted now') := by
  rw [TradingSessionStore.restarted, TradingSessionStore.restarted]
  cases s.stored <;> rfl

/-- Nothing in a commit depends on what the change is, save what it records. -/
theorem Sound.commit (h : Sound cfg s) (hloaded : s.loaded = true)
    (hrecorded : Recorded ⟨change, s.record, next, .inFlight⟩) :
    Sound cfg (s.commit change next) := by
  obtain ⟨havailable, base, hconsistent⟩ := h.loaded hloaded
  refine ⟨fun save hsave => ?_, ⟨fun _ => nofun, h.apart⟩, fun hnot => ?_, fun _ => ?_⟩
  · rcases List.mem_cons.mp hsave with rfl | hsave
    · exact hrecorded
    · exact h.recorded save hsave
  · exact absurd (hloaded.symm.trans hnot) (by simp)
  · exact ⟨havailable, base, hconsistent.push⟩

theorem Sound.skip (h : Sound cfg s)
    (hrecorded : Recorded ⟨change, s.record, s.record, .skipped⟩)
    (hnot : change ≠ .arm) (hapart : change = .attempt → s.saves.any arms = false) :
    Sound cfg (s.skip change) := by
  refine ⟨fun save hsave => ?_, ⟨fun hkind _ => hapart hkind, h.apart⟩, fun hunloaded => ?_,
    fun hloaded => ?_⟩
  · rcases List.mem_cons.mp hsave with rfl | hsave
    · exact hrecorded
    · exact h.recorded save hsave
  · have hunread := h.unloaded hunloaded
    refine ⟨?_, hunread.unspent, hunread.absent, hunread.healthy, fun save hsave => ?_⟩
    · simp only [TradingSessionStore.skip, List.any_cons, hunread.unarmed, Bool.or_false]
      simp [arms, hnot]
    · rcases List.mem_cons.mp hsave with rfl | hsave
      · rfl
      · exact hunread.quiet save hsave
  · obtain ⟨havailable, base, hconsistent⟩ := h.loaded hloaded
    exact ⟨havailable, base, hconsistent.skip⟩

theorem sound_initialise (h : Sound cfg s) {readable : Bool}
    (hstep : s.initialise cfg now readable = some s') : Sound cfg s' := by
  rw [TradingSessionStore.initialise] at hstep
  split at hstep
  · cases hstep
  · split at hstep
    · rename_i havailable
      obtain rfl := Option.some.inj hstep
      simp only [Bool.and_eq_true] at havailable
      refine ⟨fun _ hsave => absurd hsave List.not_mem_nil, trivial,
        fun hnot => Bool.noConfusion hnot, fun _ => ⟨havailable.1, s.restarted now, ?_⟩⟩
      exact consistent_start (restarted_spending 0 now)
    · obtain rfl := Option.some.inj hstep
      exact h

theorem sound_attempt (h : Sound cfg s) (hcareful : s.saves.any arms = true →
    s.enforcing cfg = true) : Sound cfg (s.recordAttemptStarted cfg now) := by
  rw [TradingSessionStore.recordAttemptStarted, TradingSessionStore.attemptAnswer]
  by_cases hopen : s.enforcing cfg = false ∨ cfg.persistenceAvailable = false
  · rw [if_pos hopen]
    refine h.skip (.inl rfl) nofun fun _ => ?_
    cases hloaded : s.loaded with
    | false => exact (h.unloaded hloaded).unarmed
    | true =>
        refine Bool.eq_false_iff.mpr fun hany => ?_
        rcases hopen with hidle | hnone
        · exact absurd (hcareful hany) (Bool.eq_false_iff.mp hidle)
        · exact absurd (h.loaded hloaded).1 (Bool.eq_false_iff.mp hnone)
  · rw [if_neg hopen]
    by_cases hready : s.loaded = false ∨ isArmed s.record = false
    · rw [if_pos hready]
      exact h
    · rw [if_neg hready]
      have hloaded : s.loaded = true := by simpa using fun hnot => hready (.inl hnot)
      exact h.commit hloaded (.inr rfl)

theorem sound_established (h : Sound cfg s) (hid : tradeId ≠ "") :
    Sound cfg (s.recordEstablished cfg now tradeId) := by
  obtain ⟨hattempts, hsubset, hmem⟩ := @established_spending s.record tradeId now hid
  rw [TradingSessionStore.recordEstablished]
  split
  · exact h
  · rename_i hready
    have hloaded : s.loaded = true := by simpa using fun hnot => hready (.inr (.inl hnot))
    split
    · rename_i hknown
      rw [hknown.1] at hmem
      exact h.skip ⟨nofun, rfl, fun _ h => h, hmem⟩ nofun nofun
    · exact h.commit hloaded ⟨nofun, hattempts, hsubset, hmem⟩

theorem sound_settle (h : Sound cfg s) {n : Nat} {landed : Bool}
    (hcareful : Careful cfg s ⟨.settle n landed, now⟩) (hstep : s.settle n landed = some s') :
    Sound cfg s' := by
  rw [TradingSessionStore.settle] at hstep
  split at hstep
  · cases hstep
  · rename_i save hsave
    split at hstep
    · cases hstep
    · rename_i hflight
      have hflight : save.status = .inFlight := not_not.mp hflight
      have hloaded : s.loaded = true := by
        by_contra hnot
        have hquiet := (h.unloaded (by simpa using hnot)).quiet save
          (List.mem_of_getElem? hsave)
        rw [(Write.inFlight_iff save).mpr hflight] at hquiet
        cases hquiet
      obtain ⟨havailable, base, hconsistent⟩ := h.loaded hloaded
      have hwrites := h.recorded save (List.mem_of_getElem? hsave)
      have hset : ∀ status, (status = .undone → save.kind.rollbackOnFailure = true) →
          ∀ call ∈ s.saves.set n (save.settle status), Recorded call := by
        intro status hstatus call hcall
        rcases List.mem_or_eq_of_mem_set hcall with hcall | rfl
        · exact h.recorded call hcall
        · exact hwrites.settle hflight hstatus
      have hunloaded : s.loaded ≠ false := by simp [hloaded]
      split at hstep
      · rename_i hlanded
        obtain rfl := Option.some.inj hstep
        subst hlanded
        exact ⟨hset .saved nofun, h.apart.settle hsave hflight nofun,
          fun hnot => absurd hnot hunloaded,
          fun _ => ⟨havailable, base, hconsistent.save hsave hflight hcareful⟩⟩
      · rename_i hfailed
        obtain rfl : landed = false := by simpa using hfailed
        split at hstep
        · rename_i hrollback
          obtain rfl := Option.some.inj hstep
          exact ⟨hset .undone fun _ => hrollback, h.apart.settle hsave hflight nofun,
            fun hnot => absurd hnot hunloaded, fun _ => ⟨havailable, base,
              hconsistent.undo hsave hflight (hcareful save hsave hrollback)⟩⟩
        · obtain rfl := Option.some.inj hstep
          exact ⟨hset .retained nofun, h.apart.settle hsave hflight nofun,
            fun hnot => absurd hnot hunloaded,
            fun _ => ⟨havailable, base, hconsistent.retain hsave hflight⟩⟩

theorem sound_step (h : Sound cfg s) (hcareful : Careful cfg s label)
    (hstep : s.step cfg label = some s') : Sound cfg s' := by
  obtain ⟨call, now⟩ := label
  cases call with
  | initialise readable => exact sound_initialise h hstep
  | settle n landed => exact sound_settle h hcareful hstep
  | recordEstablished tradeId =>
      obtain rfl := Option.some.inj hstep
      exact sound_established h hcareful
  | recordAttemptStarted =>
      obtain rfl := Option.some.inj hstep
      exact sound_attempt h hcareful
  | reconcile flatTradeIds =>
      obtain rfl := Option.some.inj hstep
      dsimp only [TradingSessionStore.reconcile]
      split
      · exact h
      · rename_i hready
        exact h.commit (by simpa using fun hnot => hready (.inl hnot)) spending_reconciled
  | arm request =>
      obtain rfl := Option.some.inj hstep
      dsimp only [TradingSessionStore.arm]
      split
      · exact h
      · rename_i hloaded
        split
        · exact h
        · exact h.commit (by simpa using hloaded) spending_arm
  | disarm =>
      obtain rfl := Option.some.inj hstep
      dsimp only [TradingSessionStore.disarm]
      split
      · exact h
      · rename_i hloaded
        exact h.commit (by simpa using hloaded) spending_disarm
  | retryPendingWrite =>
      obtain rfl := Option.some.inj hstep
      dsimp only [TradingSessionStore.retryPendingWrite]
      split
      · exact h
      · rename_i hpending
        refine h.commit ?_ rfl
        by_contra hnot
        exact hpending (.inl (h.unloaded (by simpa using hnot)).healthy)
  | recordCompleted tradeId =>
      obtain rfl := Option.some.inj hstep
      dsimp only [TradingSessionStore.recordCompleted]
      split
      · exact h
      · rename_i hready
        split
        · exact h
        · exact h.commit (by simpa using fun hnot => hready (.inr hnot)) spending_completed
  | recordAborted =>
      obtain rfl := Option.some.inj hstep
      dsimp only [TradingSessionStore.recordAborted]
      split
      · exact h
      · rename_i hready
        exact h.commit (by simpa using fun hnot => hready (.inr (.inl hnot))) spending_aborted

/-- With entry allowed and nothing under way, the row shows what memory does. -/
theorem Sound.durable (h : Sound cfg s) {recoveryActive : Bool}
    (henforcing : s.enforcing cfg = true)
    (hallowed : (s.evaluateEntry cfg recoveryActive).allowed = true)
    (hsettled : ∀ save ∈ s.saves, save.inFlight = false) :
    spending (s.restarted now) = spending s.record := by
  rw [TradingSessionStore.evaluateEntry, if_neg (by simp [henforcing])] at hallowed
  cases hloaded : s.loaded with
  | false =>
      have hunread := h.unloaded hloaded
      cases havailable : cfg.persistenceAvailable with
      | false =>
          rw [TradingSessionStore.restarted, hunread.absent havailable, hunread.unspent]
          rfl
      | true => simp [havailable, hloaded, SessionVerdict.refuse] at hallowed
  | true =>
      obtain ⟨havailable, base, hconsistent⟩ := h.loaded hloaded
      have hhealthy : s.writeFailed = false := by
        refine Bool.eq_false_iff.mpr fun hfailed => ?_
        simp [havailable, hloaded, hfailed, SessionVerdict.refuse] at hallowed
      rw [restarted_spending now 0]
      rw [hhealthy] at hconsistent
      exact hconsistent.settled hsettled

theorem Sound.budgetKept (h : Sound cfg s) : BudgetKept cfg s := by
  have hcounted : okAttempts s.saves ≤ (spending s.record).1 ∧
      establishments s.saves ⊆ (spending s.record).2 := by
    cases hloaded : s.loaded with
    | false =>
        rw [okAttempts, establishments, sinceArm_of_none (h.unloaded hloaded).unarmed]
        exact ⟨Nat.zero_le _, nofun⟩
    | true =>
        obtain ⟨-, base, hconsistent⟩ := h.loaded hloaded
        rw [hconsistent.memory]
        exact counted hconsistent.chained h.recorded h.apart
  refine ⟨hcounted.1, fun _ hid => hcounted.2 hid, fun _ now henforcing hallowed hsettled => ?_⟩
  exact Prod.ext_iff.mp (h.durable henforcing hallowed hsettled)

end Sound

theorem sound_boot (cfg : SessionConfig) (now : ℚ) (stored : Option BoxSessionRecord) :
    Sound cfg (TradingSessionStore.boot cfg now stored) := by
  refine ⟨fun _ hsave => absurd hsave List.not_mem_nil, trivial,
    fun _ => ⟨rfl, rfl, fun havailable => ?_, rfl, fun _ hsave => absurd hsave List.not_mem_nil⟩,
    fun hloaded => Bool.noConfusion hloaded⟩
  simp [TradingSessionStore.boot, havailable]

/-- In every run whose steps are careful, no attempt and no establishment of the session is
forgotten, in memory or by a restart. -/
theorem TradingSessionStore.spending_survives (cfg : SessionConfig) (now : ℚ)
    (stored : Option BoxSessionRecord) (labels : List Label)
    (h : Heeds (step cfg) (Careful cfg) (boot cfg now stored) labels) :
    Throughout (step cfg) (BudgetKept cfg) (boot cfg now stored) labels := by
  have hsound : Throughout (step cfg) (Sound cfg) (boot cfg now stored) labels :=
    .of_heeds (fun _ _ _ hs hcareful hstep => sound_step hs hcareful hstep)
      (sound_boot cfg now stored) h
  exact hsound.mono fun _ hs => hs.budgetKept

/-- A deployment that bounds attempts, and the boot and arming of a session in it. -/
def bounded : SessionConfig := ⟨.finite 1, .finite 3, true⟩

def opening : List Label :=
  [⟨.initialise true, 0⟩, ⟨.arm { sessionId := "S" }, 1⟩, ⟨.settle 0 true, 2⟩]

/-- An attempt fails to be saved, a second one opens a box whose first save fails, and a
failing abort overlaps with a completion. -/
theorem TradingSessionStore.spending_survives_sample :
    Throughout (step bounded) (BudgetKept bounded) (boot bounded 0 none) (opening ++
      [⟨.recordAttemptStarted, 3⟩, ⟨.settle 0 false, 4⟩, ⟨.recordAttemptStarted, 5⟩,
        ⟨.settle 0 true, 6⟩, ⟨.recordEstablished "T", 7⟩, ⟨.settle 0 false, 8⟩,
        ⟨.retryPendingWrite, 9⟩, ⟨.settle 0 true, 10⟩, ⟨.recordAborted, 11⟩,
        ⟨.recordCompleted "T", 12⟩, ⟨.settle 0 true, 13⟩, ⟨.settle 1 false, 14⟩]) :=
  spending_survives bounded 0 none _ (by decide +kernel)

/-- Two attempts overlap. The later is saved and admitted, the earlier fails, and the record
it captured counts neither. -/
theorem TradingSessionStore.failed_save_erases_attempt :
    ¬∀ labels, Throughout (step bounded) (BudgetKept bounded) (boot bounded 0 none) labels := by
  intro h
  have hkept := (h (opening ++ [⟨.recordAttemptStarted, 3⟩, ⟨.recordAttemptStarted, 4⟩,
    ⟨.settle 0 true, 5⟩, ⟨.settle 1 false, 6⟩])).last rfl
  have hattempts := hkept.attempts
  revert hattempts
  decide +kernel

end Strikedge.TradingSession
