import Strikedge.Orders.Exposure

/-!
# Where the actions of a state come from

After a step an action is one that was there before, one that the pump has just started, or
the one the label is about: the journal has answered it, or it was resumed and is suspended
again. The journal changes only where it performs a call.
-/

namespace Strikedge.Orders

open Machine OrderManager

/-- The phase a stretch suspends its task in. -/
def Next.phase : Next → Phase
  | .await phase => phase
  | .barrier => .turn
  | .settle => .settled

/-- The task a stretch leaves. -/
def Stretch.suspended (s : Stretch) : Task := { s.task with phase := s.next.phase, reply := none }

/-- The action a label hands an answer of the broker. -/
def Label.answers : Label → Option TaskId
  | .fetched _ i _ | .submitted _ i _ | .cancelled _ i _ => some i
  | _ => none

/-- What a label does to the task it is about. -/
inductive TaskMove (cfg : Config) (m : OrderManager) (t : Task) : Label → TaskId → Task → Prop
  | served {i : TaskId} {call : JournalCall} (hcall : t.call = some call) :
      TaskMove cfg m t (.serve (.action i)) i
        { t with reply := some (m.journal.perform cfg.persistence call).2 }
  | brokenDown {i : TaskId} (message : String) :
      TaskMove cfg m t (.breakDown (.action i) message) i
        { t with reply := some (.threw message) }
  | resumed {i : TaskId} {w : World} {reply : JournalReply} {s : Stretch}
      (hreply : t.reply = some reply) (hs : t.resume cfg w m.book reply = some s) :
      TaskMove cfg m t (.resume w (.action i)) i s.suspended
  | fetched {i : TaskId} {w : World} {answer : Except OrderError (Option BrokerOrder)}
      {s : Stretch} (hs : t.fetched cfg w m.book answer = some s) :
      TaskMove cfg m t (.fetched w i answer) i s.suspended
  | passed {i : TaskId} (hturn : t.phase = .turn) :
      TaskMove cfg m t (.pass i) i { t with phase := .sending, reply := none }
  | asked {i : TaskId} {w : World} {t' : Task} (hsending : t.phase = .sending)
      (hphase : t'.phase = .sending) (hintent : t'.intent = t.intent)
      (hreply : t'.reply = t.reply) : TaskMove cfg m t (.prePost w i) i t'
  | submitted {i : TaskId} {w : World} {answer : Except OrderError BrokerOrder}
      (hsending : t.phase = .sending) :
      TaskMove cfg m t (.submitted w i answer) i (t.submitted w m.book answer).suspended
  | cancelled {i : TaskId} {w : World} {answer : Except OrderError (Option BrokerOrder)}
      (hcancelling : t.phase = .cancelling) :
      TaskMove cfg m t (.cancelled w i answer) i (t.cancelled w m.book answer).suspended

namespace OrderManager

/-- Actions may have started or ended; the journal and the pass are as they were. -/
structure Pumped (cfg : Config) (m m' : OrderManager) : Prop where
  tasks : ∀ i t, m'.tasks.get? i = some t →
    m.tasks.get? i = some t ∨ ∃ action slot, t = startedTask cfg action slot
  journal : m'.journal = m.journal
  pass : m'.reconcileRun = m.reconcileRun

namespace Pumped

variable {cfg : Config} {m m' m'' : OrderManager} {i : TaskId}

theorem of_same (htasks : m'.tasks = m.tasks) (hjournal : m'.journal = m.journal)
    (hpass : m'.reconcileRun = m.reconcileRun) : Pumped cfg m m' where
  tasks _ _ ht := .inl (htasks ▸ ht)
  journal := hjournal
  pass := hpass

theorem refl (m : OrderManager) : Pumped cfg m m := .of_same rfl rfl rfl

theorem trans (h : Pumped cfg m m') (h' : Pumped cfg m' m'') : Pumped cfg m m'' where
  tasks i t ht := by
    rcases h'.tasks i t ht with hbefore | hstarted
    · exact h.tasks i t hbefore
    · exact .inr hstarted
  journal := h'.journal.trans h.journal
  pass := h'.pass.trans h.pass

theorem setBook (m : OrderManager) (b : Book) : Pumped cfg m { m with book := b } :=
  .of_same rfl rfl rfl

theorem block (m : OrderManager) (action : Action) (reason : String) :
    Pumped cfg m (m.block action reason) := .of_same rfl rfl rfl

theorem start (m : OrderManager) (action : Action) (slot : BoxSchedulingSlot) :
    Pumped cfg m (m.start cfg action slot) where
  tasks i t ht := by
    rw [OrderManager.start, OrderedMap.get?_set] at ht
    by_cases hi : i = m.nextTask
    · rw [if_pos hi] at ht
      exact .inr ⟨action, slot, (Option.some.inj ht).symm⟩
    · rw [if_neg hi] at ht
      exact .inl ht
  journal := rfl
  pass := rfl

theorem pumpFrom (w : World) (queue : List QueuedAction) (m : OrderManager) :
    Pumped cfg m (OrderManager.pumpFrom cfg w queue m) := by
  induction queue generalizing m with
  | nil => exact .of_same rfl rfl rfl
  | cons q rest ih =>
      rw [OrderManager.pumpFrom]
      split
      · exact .of_same rfl rfl rfl
      · split
        · exact .of_same rfl rfl rfl
        · split
          · exact ((setBook m _).trans (block _ q.action _)).trans (ih _)
          · exact ((setBook m _).trans (start _ q.action _)).trans (ih _)

theorem pump (h : Pumped cfg m m') (w : World) : Pumped cfg m (OrderManager.pump cfg w m') :=
  h.trans (pumpFrom w m'.queue m')

theorem enqueue (w : World) (m : OrderManager) (action : Action) :
    Pumped cfg m (m.enqueue cfg w action) := by
  rw [OrderManager.enqueue]
  apply Pumped.pump
  exact .of_same rfl rfl rfl

theorem submit (w : World) (m : OrderManager) (request : BrokerOrderRequest)
    (capital : Option EntryCapitalStamp) (entry : Option LiveEntryTransportGuard) :
    Pumped cfg m (m.submit cfg w request capital entry) := by
  have hregister : ∀ action, Pumped cfg m (m.register cfg action) := by
    intro action
    rw [register]
    split <;> exact .of_same rfl rfl rfl
  rw [OrderManager.submit]
  generalize hregistered : m.register cfg _ = n
  have hn : Pumped cfg m n := hregistered ▸ hregister _
  split
  · rw [releaseOnReject]
    split <;> exact hn.trans (.of_same rfl rfl rfl)
  · exact (hn.trans (setBook n _)).trans (enqueue w _ _)

theorem release (w : World) (m : OrderManager) (i : TaskId) (t : Task) :
    Pumped cfg m (m.release cfg w i t) := by
  rw [OrderManager.release]
  apply Pumped.pump
  refine ⟨fun j u hu => .inl ?_, rfl, rfl⟩
  rw [OrderedMap.get?_delete] at hu
  by_cases hj : j = i
  · rw [if_pos hj] at hu
    cases hu
  · rwa [if_neg hj] at hu

theorem dispose (m : OrderManager) : Pumped cfg m m.dispose := by
  have hfold : ∀ (actions : List Action) (n : OrderManager),
      Pumped cfg n (actions.foldl disposeQueued n) := by
    intro actions
    induction actions with
    | nil => exact .refl
    | cons action rest ih =>
        intro n
        have hhead : Pumped cfg n (disposeQueued n action) := .of_same rfl rfl rfl
        exact hhead.trans (ih _)
  rw [OrderManager.dispose]
  generalize hdrained : ({ m with
      book := { m.book with disposed := true, risk := m.book.risk.dispose }
      gates := ∅
      queue := [] } : OrderManager) = n
  have hn : Pumped cfg m n := hdrained ▸ .of_same rfl rfl rfl
  exact hn.trans (hfold _ n)

end Pumped

/-- The journal a label leaves. -/
def journalAfter (cfg : Config) (m : OrderManager) : Label → Journal
  | .serve caller =>
      match m.pending caller with
      | some (call, _) => (m.journal.perform cfg.persistence call).1
      | none => m.journal
  | .foreign row => m.journal.put row
  | _ => m.journal

/-- Every action after a step was there, was just started, or is the one the label moved. -/
structure Stepped (cfg : Config) (m : OrderManager) (label : Label) (m' : OrderManager) :
    Prop where
  tasks : ∀ i t', m'.tasks.get? i = some t' →
    m.tasks.get? i = some t' ∨ (∃ action slot, t' = startedTask cfg action slot) ∨
      ∃ t, m.tasks.get? i = some t ∧ TaskMove cfg m t label i t'
  journal : m'.journal = journalAfter cfg m label

section Steps

variable {cfg : Config} {w : World} {m m' : OrderManager} {label : Label} {i : TaskId}
variable {t : Task} {s : Stretch}

theorem Pumped.stepped (h : Pumped cfg m m') (hjournal : journalAfter cfg m label = m.journal) :
    Stepped cfg m label m' where
  tasks j u hu := by
    rcases h.tasks j u hu with hbefore | hstarted
    · exact .inl hbefore
    · exact .inr (.inl hstarted)
  journal := h.journal.trans hjournal.symm

/-- The task of a label is replaced by its moved self. -/
theorem stepped_set {t' : Task} (ht : m.tasks.get? i = some t)
    (hmove : TaskMove cfg m t label i t') (htasks : m'.tasks = m.tasks.set i t')
    (hjournal : m'.journal = journalAfter cfg m label) : Stepped cfg m label m' where
  tasks j u hu := by
    rw [htasks, OrderedMap.get?_set] at hu
    by_cases hj : j = i
    · subst hj
      rw [if_pos rfl] at hu
      exact .inr (.inr ⟨t, ht, Option.some.inj hu ▸ hmove⟩)
    · rw [if_neg hj] at hu
      exact .inl hu
  journal := hjournal

theorem commitReconcile_journal (cfg : Config) (w : World) (m : OrderManager)
    (s : ReconcileStretch) : (m.commitReconcile cfg w s).journal = m.journal := by
  have hsame := reconcile_journal cfg w { m with book := s.book }
  simp only [commitReconcile]
  cases s.violated with
  | false => cases s.next <;> rfl
  | true => cases s.next <;> exact hsame

/-- The end of a synchronous block suspends the task it is about. -/
theorem commit_tasks (cfg : Config) (w : World) (m : OrderManager) (i : TaskId) (s : Stretch) :
    (m.commit cfg w i s).tasks = m.tasks.set i s.suspended ∧
      (m.commit cfg w i s).journal = m.journal ∧
      (m.commit cfg w i s).reconcileRun = (m.absorb cfg w s).reconcileRun := by
  have htasks := (SameLegs.absorb cfg w m s).tasks
  have hjournal := absorb_journal cfg w m s
  rw [OrderManager.commit]
  generalize m.absorb cfg w s = n at htasks hjournal ⊢
  rw [← htasks, ← hjournal]
  cases hnext : s.next with
  | await phase =>
      simp only [Stretch.suspended, hnext]
      exact ⟨rfl, rfl, rfl⟩
  | barrier =>
      simp only [Stretch.suspended, hnext, awaitTurn]
      split <;> exact ⟨rfl, rfl, rfl⟩
  | settle =>
      simp only [Stretch.suspended, hnext, settleRank]
      split <;> exact ⟨rfl, rfl, rfl⟩

theorem stepped_commit (ht : m.tasks.get? i = some t)
    (hmove : TaskMove cfg m t label i s.suspended)
    (hjournal : journalAfter cfg m label = m.journal) :
    Stepped cfg m label (m.commit cfg w i s) := by
  obtain ⟨htasks, hsame, -⟩ := commit_tasks cfg w m i s
  exact stepped_set ht hmove htasks (hsame.trans hjournal.symm)

theorem stepped_prePost (ht : m.tasks.get? i = some t) (hsending : t.phase = .sending) :
    Stepped cfg m (.prePost w i) (m.prePost cfg w i t) := by
  have hset : ∀ (t' : Task) (m' : OrderManager), t'.phase = .sending → t'.intent = t.intent →
      t'.reply = t.reply → m'.tasks = m.tasks.set i t' → m'.journal = m.journal →
      Stepped cfg m (.prePost w i) m' := by
    intro t' m' hphase hintent hreply htasks hjournal
    exact stepped_set ht (.asked hsending hphase hintent hreply) htasks hjournal
  rw [OrderManager.prePost]
  split
  · rename_i reason _
    exact hset { t with hedgeFailureReason := some reason } _ hsending rfl rfl rfl rfl
  · split
    · exact hset { t with postBegan := true } _ hsending rfl rfl rfl rfl
    · dsimp only
      split
      · rename_i reason _
        exact hset { t with hedgeFailureReason := some reason } _ hsending rfl rfl rfl rfl
      · exact hset { t with postBegan := true } _ hsending rfl rfl rfl rfl

/-- An answer to a pending call moves the action that awaits it. -/
theorem stepped_answer {caller : Caller} {call : JournalCall} {reply' : Option JournalReply}
    {journal : Journal} (hpending : m.pending caller = some (call, reply')) (reply : JournalReply)
    (hmove : ∀ i t, caller = .action i → m.tasks.get? i = some t → t.call = some call →
      TaskMove cfg m t label i { t with reply := some reply })
    (hjournal : journal = journalAfter cfg m label) :
    Stepped cfg m label ({ m with journal := journal }.answer caller reply) := by
  cases caller with
  | action i =>
      obtain ⟨t, ht, hcall⟩ := Option.bind_eq_some_iff.mp hpending
      obtain ⟨call', hcall', heq⟩ := Option.map_eq_some_iff.mp hcall
      obtain ⟨rfl, -⟩ := Prod.mk.inj heq
      refine stepped_set ht (hmove i t rfl ht hcall') ?_ ?_
      · simp only [answer, ht]
        rfl
      · simp only [answer, ht]
        exact hjournal
  | reconcile =>
      rw [answer]
      split <;> exact ⟨fun j u hu => .inl hu, hjournal⟩

theorem step_stepped (hstep : m.step cfg label = some m') : Stepped cfg m label m' := by
  have hpumped : ∀ {n}, Pumped cfg m n → some n = some m' →
      journalAfter cfg m label = m.journal → Stepped cfg m label m' := by
    intro n hn heq hjournal
    exact Option.some.inj heq ▸ hn.stepped hjournal
  cases label with
  | submit w request capital entry => exact hpumped (.submit w m request capital entry) hstep rfl
  | enqueueCancel w intent => exact hpumped (.enqueue w m (.cancel intent)) hstep rfl
  | serve caller =>
      simp only [step, serve] at hstep
      split at hstep
      · rename_i call hpending
        refine Option.some.inj hstep ▸ stepped_answer hpending _ ?_ ?_
        · rintro i t rfl - hcall
          exact .served hcall
        · simp only [journalAfter, hpending]
      · cases hstep
  | breakDown caller message =>
      simp only [step, breakDown] at hstep
      split at hstep
      · rename_i call hpending
        have hjournal : m.journal = journalAfter cfg m (.breakDown caller message) := rfl
        refine Option.some.inj hstep ▸ stepped_answer hpending _ ?_ hjournal
        rintro i t rfl - -
        exact .brokenDown message
      · cases hstep
  | resume w caller =>
      cases caller with
      | action i =>
          obtain ⟨t, ht, h1⟩ := Option.bind_eq_some_iff.mp hstep
          obtain ⟨call, -, h2⟩ := Option.bind_eq_some_iff.mp h1
          obtain ⟨reply, hreply, h3⟩ := Option.bind_eq_some_iff.mp h2
          obtain ⟨s, hs, h4⟩ := Option.bind_eq_some_iff.mp h3
          exact Option.some.inj h4 ▸ stepped_commit ht (.resumed hreply hs) rfl
      | reconcile =>
          obtain ⟨run, -, h1⟩ := Option.bind_eq_some_iff.mp hstep
          obtain ⟨call, -, h2⟩ := Option.bind_eq_some_iff.mp h1
          obtain ⟨reply, -, h3⟩ := Option.bind_eq_some_iff.mp h2
          obtain ⟨s, -, h4⟩ := Option.bind_eq_some_iff.mp h3
          have hsame := SameLegs.commitReconcile cfg w m s
          refine Option.some.inj h4 ▸ ⟨fun j u hu => .inl (hsame.tasks ▸ hu), ?_⟩
          exact commitReconcile_journal cfg w m s
  | fetched w i answer =>
      obtain ⟨t, ht, h1⟩ := Option.bind_eq_some_iff.mp hstep
      obtain ⟨s, hs, h2⟩ := Option.bind_eq_some_iff.mp h1
      exact Option.some.inj h2 ▸ stepped_commit ht (.fetched hs) rfl
  | pass i =>
      obtain ⟨t, ht, hpass⟩ := Option.bind_eq_some_iff.mp hstep
      rw [pass] at hpass
      split at hpass
      · rename_i hturn
        exact Option.some.inj hpass ▸ stepped_set ht (.passed hturn.1) rfl rfl
      · cases hpass
  | prePost w i =>
      obtain ⟨t, ht, rfl⟩ := Option.map_eq_some_iff.mp hstep
      obtain ⟨hget, hsending⟩ := LegInvariant.taskIn ht
      exact stepped_prePost hget hsending
  | submitted w i answer =>
      obtain ⟨t, ht, rfl⟩ := Option.map_eq_some_iff.mp hstep
      obtain ⟨hget, hsending⟩ := LegInvariant.taskIn ht
      exact stepped_commit hget (.submitted hsending) rfl
  | cancelled w i answer =>
      obtain ⟨t, ht, rfl⟩ := Option.map_eq_some_iff.mp hstep
      obtain ⟨hget, hcancelling⟩ := LegInvariant.taskIn ht
      exact stepped_commit hget (.cancelled hcancelling) rfl
  | release w i =>
      obtain ⟨t, ht, rfl⟩ := Option.map_eq_some_iff.mp hstep
      exact (Pumped.release w m i t).stepped rfl
  | reconcile w =>
      have hsame := SameLegs.reconcile cfg w m
      refine Option.some.inj hstep ▸ ⟨fun j u hu => .inl (hsame.tasks ▸ hu), ?_⟩
      exact reconcile_journal cfg w m
  | reconcileAnswered w answer =>
      obtain ⟨run, -, h1⟩ := Option.bind_eq_some_iff.mp hstep
      split at h1
      · cases answer with
        | reported => exact Option.some.inj h1 ▸ ⟨fun j u hu => .inl hu, rfl⟩
        | threw message => exact Option.some.inj h1 ▸ ⟨fun j u hu => .inl hu, rfl⟩
        | health _ => cases h1
        | orders _ => cases h1
        | positions _ => cases h1
        | adopted _ => cases h1
      · obtain ⟨s, -, h2⟩ := Option.bind_eq_some_iff.mp h1
        have hsame := SameLegs.commitReconcile cfg w m s
        refine Option.some.inj h2 ▸ ⟨fun j u hu => .inl (hsame.tasks ▸ hu), ?_⟩
        exact commitReconcile_journal cfg w m s
  | setControls controls => exact hpumped (.setBook m _) hstep rfl
  | setExposure openBoxes residualLegs => exact hpumped (.setBook m _) hstep rfl
  | setFeedHealthy w healthy => exact hpumped (.setBook m _) hstep rfl
  | setCrashOnlyAttributedExposure exists' => exact hpumped (.setBook m _) hstep rfl
  | recordRealisedPnl delta => exact hpumped (.setBook m _) hstep rfl
  | seedLimits day seed => exact hpumped (.setBook m _) hstep rfl
  | dailyRiskLoaded generation seed => exact hpumped (.setBook m _) hstep rfl
  | invariantViolation w reason =>
      have hsame := SameLegs.reconcile cfg w { m with book := m.book.invariantViolation reason }
      refine Option.some.inj hstep ▸ ⟨fun j u hu => .inl (hsame.tasks ▸ hu), ?_⟩
      exact reconcile_journal cfg w _
  | dispose => exact hpumped (.dispose m) hstep rfl
  | foreign row => exact Option.some.inj hstep ▸ ⟨fun j u hu => .inl hu, rfl⟩

end Steps

end OrderManager

/-- On the way to `adapter.submitOrder`, or in it. -/
def Phase.toBroker : Phase → Bool
  | .turn | .sending => true
  | _ => false

/-- In `persistOrder`. -/
def Phase.writing : Phase → Bool
  | .persisting .. => true
  | _ => false

/-- The action neither turns to the broker nor calls `persistOrder`. -/
structure Next.Quiet (n : Next) : Prop where
  toBroker : n.phase.toBroker = false
  writing : n.phase.writing = false

theorem quiet_settle : Next.settle.Quiet := ⟨rfl, rfl⟩

namespace Task

variable {cfg : Config} {w : World} {b : Book} {t : Task} {s : Stretch}

theorem quiet_threw (error : OrderError) : (t.threw cfg b error).next.Quiet := by
  rw [threw]
  split <;> exact quiet_settle

theorem quiet_created (row : BoxOrderIntent) : (t.created cfg w b row).next.Quiet := by
  simp only [created]
  split
  · exact ⟨rfl, rfl⟩
  · split <;> exact ⟨rfl, rfl⟩

theorem quiet_refusedDone (stage : LiveEntryGuardStage) (reason : String)
    (result : UpdateResult) : (t.refusedDone cfg b stage reason result).next.Quiet := by
  rw [refusedDone]
  split
  · exact quiet_settle
  · split
    · exact quiet_settle
    · exact ⟨rfl, rfl⟩

theorem quiet_persistedDone (site : PersistSite) (order : BrokerOrder) (p : Book.Persisted) :
    (t.persistedDone cfg site order p).next.Quiet := by
  have hsnapshot : (t.snapshotDone cfg p.book order).next.Quiet := by
    rw [snapshotDone]
    split
    · exact quiet_settle
    · dsimp only
      split <;> exact quiet_settle
  rw [persistedDone]
  split
  · exact quiet_threw _
  · dsimp only
    rw [persistedAt.eq_def]
    cases site with
    | snapshot => exact hsnapshot
    | existing => exact quiet_settle
    | rejected => exact quiet_settle
    | ambiguous message => exact quiet_settle
    | owner current => exact quiet_settle
    | cancel => exact quiet_settle

theorem quiet_quarantineDone (error : OrderError) (result : UpdateResult) :
    (t.quarantineDone cfg b error result).next.Quiet := by
  rw [quarantineDone]
  split <;> exact quiet_settle

theorem quiet_journalThrew (message : String) :
    (t.journalThrew cfg b message).next.Quiet := by
  rw [journalThrew]
  split
  · exact quiet_persistedDone _ _ _
  · exact quiet_threw _

/-- The transition to SUBMITTING was applied, and the row says so. -/
def Submits (t : Task) (reply : JournalReply) (row : BoxOrderIntent) : Prop :=
  t.phase = .submitting ∧ row.state = .submitting ∧
    ∃ previous current, reply = .updated (.applied row previous current)

/-- Past the transition to SUBMITTING an action is refused, or on its way to the broker with
the row the transition wrote. -/
theorem submittingDone_next (result : UpdateResult) :
    (t.submittingDone cfg w b result).next.Quiet ∨
      ∃ row previous current, result = .applied row previous current ∧
        row.state = .submitting ∧ (t.submittingDone cfg w b result).task.intent = row := by
  cases result with
  | missing => exact .inl quiet_settle
  | refused row => exact .inl ⟨rfl, rfl⟩
  | applied row previous current =>
      simp only [submittingDone, Book.transitioned]
      by_cases hstate : row.state = .submitting
      · refine .inr ⟨row, previous, current, rfl, hstate, ?_⟩
        rw [if_neg (not_not_intro hstate)]
        split
        · rfl
        · split <;> rfl
      · rw [if_pos hstate]
        exact .inl quiet_settle

/-- The journal resumes an action to a quiet phase, or to the broker. -/
theorem resume_next {reply : JournalReply} (h : t.resume cfg w b reply = some s) :
    s.next.Quiet ∨ ∃ row, t.Submits reply row ∧ s.task.intent = row ∧
      s.next.phase.writing = false := by
  rw [resume.eq_def] at h
  split at h
  · exact .inl (Option.some.inj h ▸ quiet_created _)
  · rename_i result hphase
    obtain rfl := Option.some.inj h
    rcases @submittingDone_next cfg w b t result with hquiet |
      ⟨row, previous, current, rfl, hstate, hintent⟩
    · exact .inl hquiet
    · refine .inr ⟨row, ⟨hphase, hstate, previous, current, rfl⟩, hintent, ?_⟩
      simp only [submittingDone, Book.transitioned, if_neg (not_not_intro hstate)]
      split
      · rfl
      · split <;> rfl
  · exact .inl (Option.some.inj h ▸ quiet_refusedDone _ _ _)
  · exact .inl (Option.some.inj h ▸ quiet_persistedDone _ _ _)
  · exact .inl (Option.some.inj h ▸ quiet_quarantineDone _ _)
  · exact .inl (Option.some.inj h ▸ quiet_journalThrew _)
  · cases h

/-! An answer of the broker leads to a write or to the end, never back to the broker. -/

theorem fetched_answered {answer : Except OrderError (Option BrokerOrder)}
    (h : t.fetched cfg w b answer = some s) : s.next.phase.toBroker = false := by
  rw [fetched] at h
  split at h
  · obtain rfl := Option.some.inj h
    rw [existingFetched.eq_def]
    split <;> rfl
  · obtain rfl := Option.some.inj h
    rw [ownerFetched.eq_def]
    split <;> rfl
  · cases h

theorem submitted_answered (answer : Except OrderError BrokerOrder) :
    (t.submitted w b answer).next.phase.toBroker = false := by
  rw [submitted.eq_def]
  split <;> rfl

theorem cancelled_answered (answer : Except OrderError (Option BrokerOrder)) :
    (t.cancelled w b answer).next.phase.toBroker = false := by
  rw [cancelled.eq_def]
  split <;> rfl

end Task

namespace TaskMove

variable {cfg : Config} {m : OrderManager} {label : Label} {i : TaskId} {t t' : Task}

/-- An action on its way to the broker was so before with the same intent, or the journal
has just told it that its intent is SUBMITTING. -/
theorem toBroker (h : TaskMove cfg m t label i t')
    (hphase : t'.phase.toBroker = true) :
    t.phase.toBroker = true ∧ t.intent = t'.intent ∨
      ∃ w reply, label = .resume w (.action i) ∧ t.reply = some reply ∧
        t.Submits reply t'.intent := by
  have habsurd : ∀ {n : Next}, n.phase.toBroker = false → ¬ n.phase.toBroker = true := by
    intro n hfalse htrue
    rw [hfalse] at htrue
    cases htrue
  cases h with
  | served hcall => exact .inl ⟨hphase, rfl⟩
  | brokenDown message => exact .inl ⟨hphase, rfl⟩
  | resumed hreply hs =>
      rcases Task.resume_next hs with hquiet | ⟨row, hsubmits, rfl, -⟩
      · exact absurd hphase (habsurd hquiet.toBroker)
      · exact .inr ⟨_, _, rfl, hreply, hsubmits⟩
  | fetched hs => exact absurd hphase (habsurd (Task.fetched_answered hs))
  | passed hturn => exact .inl ⟨by rw [hturn]; rfl, rfl⟩
  | asked hsending _ hintent _ => exact .inl ⟨by rw [hsending]; rfl, hintent.symm⟩
  | submitted hsending => exact absurd hphase (habsurd (Task.submitted_answered _))
  | cancelled hcancelling => exact absurd hphase (habsurd (Task.cancelled_answered _))

/-- An action that writes a snapshot has been doing so, or the broker has just answered. -/
theorem writes (h : TaskMove cfg m t label i t') {site : PersistSite} {order : BrokerOrder}
    (hphase : t'.phase = .persisting site order) :
    (t.phase = .persisting site order ∧ t.intent = t'.intent) ∨ label.answers = some i := by
  cases h with
  | served hcall => exact .inl ⟨hphase, rfl⟩
  | brokenDown message => exact .inl ⟨hphase, rfl⟩
  | @resumed _ _ _ s hreply hs =>
      have hwriting : s.next.phase.writing = false := by
        rcases Task.resume_next hs with hquiet | ⟨row, -, -, hwrites⟩
        · exact hquiet.writing
        · exact hwrites
      rw [show s.next.phase = .persisting site order from hphase] at hwriting
      cases hwriting
  | fetched hs => exact .inr rfl
  | passed hturn => cases hphase
  | asked _ hsending _ _ =>
      rw [hsending] at hphase
      cases hphase
  | submitted hsending => exact .inr rfl
  | cancelled hcancelling => exact .inr rfl

/-- An action learns that its transition was applied when the journal performs it. -/
theorem learns (h : TaskMove cfg m t label i t') {result : UpdateResult}
    (hphase : t'.phase = .submitting) (hreply : t'.reply = some (.updated result)) :
    t' = t ∨ label = .serve (.action i) ∧ t.phase = .submitting ∧ ∃ call,
      t.call = some call ∧ (m.journal.perform cfg.persistence call).2 = .updated result := by
  cases h with
  | served hcall => exact .inr ⟨rfl, hphase, _, hcall, Option.some.inj hreply⟩
  | brokenDown message => cases hreply
  | resumed hreply' hs => cases hreply
  | fetched hs => cases hreply
  | passed hturn => cases hphase
  | asked _ hsending _ _ =>
      rw [hsending] at hphase
      cases hphase
  | submitted hsending => cases hreply
  | cancelled hcancelling => cases hreply

end TaskMove

/-- The pass does not end a stretch in `persistOrder`. -/
def ReconcileNext.Unwritten : ReconcileNext → Prop
  | .await run => ∀ intent order, run.phase ≠ .persisting intent order
  | _ => True

namespace ReconcileRun

variable {b : Book} {s : ReconcileStretch}

theorem unwritten_checkMissing (run : ReconcileRun) (intents : List BoxOrderIntent) :
    (checkMissing b run intents).next.Unwritten := by
  induction intents generalizing b run with
  | nil => trivial
  | cons intent rest ih =>
      simp only [checkMissing]
      split
      · exact ih run
      · split
        · simp [ReconcileNext.Unwritten]
        · exact ih { run with missingAtBroker := run.missingAtBroker ++ [intent.clientOrderId] }

theorem unwritten_scanOrders (run : ReconcileRun) (orders : List BrokerOrder) :
    (scanOrders b run orders).next.Unwritten := by
  induction orders generalizing b run with
  | nil => exact unwritten_checkMissing { run with brokerOrders := [] } _
  | cons order rest ih =>
      simp only [scanOrders]
      split
      · split
        · exact ih { run with ownedLookingOrphans := run.ownedLookingOrphans + 1 }
        · exact ih run
      · rename_i intent _
        generalize run.matchCounts.set intent.clientOrderId _ = counts
        split
        · exact ih { run with matchCounts := counts }
        · simp [ReconcileNext.Unwritten]

theorem unwritten_mismatched (run : ReconcileRun) (intent : BoxOrderIntent) (message : String) :
    (mismatched b run intent message).next.Unwritten :=
  unwritten_scanOrders _ _

/-- A pass that the journal resumes looks for the next order, or goes on after the last. -/
theorem unwritten_resume {run : ReconcileRun} {reply : JournalReply}
    (h : run.resume b reply = some s) : s.next.Unwritten := by
  rw [resume.eq_def] at h
  split at h
  · obtain rfl := Option.some.inj h
    simp [ReconcileNext.Unwritten]
  · obtain rfl := Option.some.inj h
    simp [loadedOwned, ReconcileNext.Unwritten]
  · rename_i intent order result _
    obtain rfl := Option.some.inj h
    dsimp only
    rw [persistedDone.eq_def]
    split
    · exact unwritten_mismatched run intent _
    · exact unwritten_scanOrders _ _
  · rename_i intent rest result _
    obtain rfl := Option.some.inj h
    rw [quarantineDone]
    split
    · trivial
    · exact unwritten_checkMissing _ _
  · rename_i message
    obtain rfl := Option.some.inj h
    rw [journalThrew]
    split
    · exact unwritten_mismatched run _ _
    · trivial
    · trivial
  · cases h

end ReconcileRun

namespace OrderManager

variable {cfg : Config} {w : World} {m m' : OrderManager} {label : Label}

/-- A pass that persists a snapshot has been doing so. -/
def KeepsPass (m m' : OrderManager) : Prop :=
  ∀ run' intent order, m'.reconcileRun = some run' → run'.phase = .persisting intent order →
    ∃ run, m.reconcileRun = some run ∧ run.phase = .persisting intent order

theorem KeepsPass.of_same (h : m'.reconcileRun = m.reconcileRun) : KeepsPass m m' :=
  fun run' _ _ hrun hphase => ⟨run', h ▸ hrun, hphase⟩

/-- A pass that has just started persists nothing. -/
theorem KeepsPass.of_started (h : m'.reconcileRun = m.reconcileRun ∨
    m.reconcileRun = none ∧ m'.reconcileRun = some {}) : KeepsPass m m' := by
  rcases h with hsame | ⟨-, hstart⟩
  · exact .of_same hsame
  · intro run' intent order hrun hphase
    rw [hstart] at hrun
    obtain rfl := Option.some.inj hrun
    cases hphase

/-- Its own continuations start no write of a snapshot, except with the broker's answers. -/
theorem keepsPass_commitReconcile {s : ReconcileStretch} (h : s.next.Unwritten) :
    KeepsPass m (m.commitReconcile cfg w s) := by
  intro run' intent order hrun hphase
  simp only [commitReconcile] at hrun
  cases hnext : s.next with
  | await run =>
      rw [hnext] at hrun h
      obtain rfl := Option.some.inj hrun
      exact absurd hphase (h intent order)
  | rebuild run =>
      rw [hnext] at hrun
      obtain rfl := Option.some.inj hrun
      cases hphase
  | failed message =>
      rw [hnext] at hrun
      cases hrun

theorem keepsPass_answer (journal : Journal) (caller : Caller) (reply : JournalReply) :
    KeepsPass m ({ m with journal := journal }.answer caller reply) := by
  cases caller with
  | action i =>
      rw [answer]
      split <;> exact .of_same rfl
  | reconcile =>
      simp only [answer]
      split
      · exact .of_same rfl
      · rename_i run hrun
        intro run' intent order hrun' hphase
        obtain rfl := Option.some.inj hrun'
        exact ⟨run, hrun, hphase⟩

/-- Only an answer of the broker makes the pass persist a snapshot. -/
theorem step_keepsPass (hstep : m.step cfg label = some m')
    (hanswer : ∀ w answer, label ≠ .reconcileAnswered w answer) : KeepsPass m m' := by
  have hsame : ∀ {n}, n.reconcileRun = m.reconcileRun → some n = some m' → KeepsPass m m' := by
    intro n hn heq
    exact Option.some.inj heq ▸ .of_same hn
  have hcommit : ∀ w i s, KeepsPass m (m.commit cfg w i s) := by
    intro w i s
    apply KeepsPass.of_started
    rw [(commit_tasks cfg w m i s).2.2]
    exact absorb_run cfg w m s
  cases label with
  | submit w request capital entry =>
      exact hsame (Pumped.submit w m request capital entry).pass hstep
  | enqueueCancel w intent => exact hsame (Pumped.enqueue w m (.cancel intent)).pass hstep
  | serve caller =>
      simp only [step, serve] at hstep
      split at hstep
      · exact Option.some.inj hstep ▸ keepsPass_answer _ caller _
      · cases hstep
  | breakDown caller message =>
      simp only [step, breakDown] at hstep
      split at hstep
      · exact Option.some.inj hstep ▸ keepsPass_answer m.journal caller _
      · cases hstep
  | resume w caller =>
      cases caller with
      | action i =>
          obtain ⟨t, -, h1⟩ := Option.bind_eq_some_iff.mp hstep
          obtain ⟨call, -, h2⟩ := Option.bind_eq_some_iff.mp h1
          obtain ⟨reply, -, h3⟩ := Option.bind_eq_some_iff.mp h2
          obtain ⟨s, -, h4⟩ := Option.bind_eq_some_iff.mp h3
          exact Option.some.inj h4 ▸ hcommit w i s
      | reconcile =>
          obtain ⟨run, -, h1⟩ := Option.bind_eq_some_iff.mp hstep
          obtain ⟨call, -, h2⟩ := Option.bind_eq_some_iff.mp h1
          obtain ⟨reply, -, h3⟩ := Option.bind_eq_some_iff.mp h2
          obtain ⟨s, hs, h4⟩ := Option.bind_eq_some_iff.mp h3
          exact Option.some.inj h4 ▸ keepsPass_commitReconcile (run.unwritten_resume hs)
  | fetched w i answer =>
      obtain ⟨t, -, h1⟩ := Option.bind_eq_some_iff.mp hstep
      obtain ⟨s, -, h2⟩ := Option.bind_eq_some_iff.mp h1
      exact Option.some.inj h2 ▸ hcommit w i s
  | pass i =>
      obtain ⟨t, -, hpass⟩ := Option.bind_eq_some_iff.mp hstep
      rw [pass] at hpass
      split at hpass
      · exact Option.some.inj hpass ▸ .of_same rfl
      · cases hpass
  | prePost w i =>
      obtain ⟨t, -, rfl⟩ := Option.map_eq_some_iff.mp hstep
      apply KeepsPass.of_same
      rw [OrderManager.prePost]
      split
      · rfl
      · split
        · rfl
        · dsimp only
          split <;> rfl
  | submitted w i answer =>
      obtain ⟨t, -, rfl⟩ := Option.map_eq_some_iff.mp hstep
      exact hcommit w i _
  | cancelled w i answer =>
      obtain ⟨t, -, rfl⟩ := Option.map_eq_some_iff.mp hstep
      exact hcommit w i _
  | release w i =>
      obtain ⟨t, -, rfl⟩ := Option.map_eq_some_iff.mp hstep
      exact .of_same (@Pumped.release cfg w m i t).pass
  | reconcile w => exact Option.some.inj hstep ▸ .of_started (reconcile_run cfg w m)
  | reconcileAnswered w answer => exact absurd rfl (hanswer w answer)
  | setControls controls => exact Option.some.inj hstep ▸ .of_same rfl
  | setExposure openBoxes residualLegs => exact Option.some.inj hstep ▸ .of_same rfl
  | setFeedHealthy w healthy => exact Option.some.inj hstep ▸ .of_same rfl
  | setCrashOnlyAttributedExposure exists' => exact Option.some.inj hstep ▸ .of_same rfl
  | recordRealisedPnl delta => exact Option.some.inj hstep ▸ .of_same rfl
  | seedLimits day seed => exact Option.some.inj hstep ▸ .of_same rfl
  | dailyRiskLoaded generation seed => exact Option.some.inj hstep ▸ .of_same rfl
  | invariantViolation w reason =>
      exact Option.some.inj hstep ▸ .of_started (reconcile_run cfg w _)
  | dispose => exact hsame (@Pumped.dispose cfg m).pass hstep
  | foreign row => exact Option.some.inj hstep ▸ .of_same rfl

end OrderManager

end Strikedge.Orders
