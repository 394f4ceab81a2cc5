import Strikedge.Orders.Process

/-!
# What a step does to the legs

The barrier, the queue and the actions in flight change in few ways: a leg registers and
is rejected or enqueued, the pump blocks or starts the head of the queue, an action moves
to another phase, arrives at the barrier, settles or gives its slot back, and disposal
drops the gates and the queue. A `LegInvariant` survives each of them, and then survives
every step of the manager whose label meets its conditions.
-/

namespace Strikedge.Orders

open Machine

namespace OrderManager

/-- The event of a blocked action. -/
def blockedEvents (action : Action) : List Event :=
  match action.leg with
  | some (request, guard) => [.blocked request guard]
  | none => []

/-- Everything an invariant of the legs may look at is the same. -/
structure SameLegs (m m' : OrderManager) : Prop where
  queue : m'.queue = m.queue
  sequence : m'.sequence = m.sequence
  slots : m'.slots = m.slots
  gates : m'.gates = m.gates
  tasks : m'.tasks = m.tasks
  nextTask : m'.nextTask = m.nextTask
  history : m'.history = m.history

namespace SameLegs

variable {m m' m'' : OrderManager}

theorem refl (m : OrderManager) : SameLegs m m := ⟨rfl, rfl, rfl, rfl, rfl, rfl, rfl⟩

theorem trans (h : SameLegs m m') (h' : SameLegs m' m'') : SameLegs m m'' :=
  ⟨h'.queue.trans h.queue, h'.sequence.trans h.sequence, h'.slots.trans h.slots,
    h'.gates.trans h.gates, h'.tasks.trans h.tasks, h'.nextTask.trans h.nextTask,
    h'.history.trans h.history⟩

theorem setBook (m : OrderManager) (b : Book) : SameLegs m { m with book := b } :=
  ⟨rfl, rfl, rfl, rfl, rfl, rfl, rfl⟩

theorem settleAction (m : OrderManager) (action : Action)
    (result : Except OrderError (Option BrokerOrder)) :
    SameLegs m (m.settleAction action result) :=
  ⟨rfl, rfl, rfl, rfl, rfl, rfl, rfl⟩

theorem reconcile (cfg : Config) (w : World) (m : OrderManager) :
    SameLegs m (m.reconcile cfg w) := by
  simp only [OrderManager.reconcile]
  split <;> exact ⟨rfl, rfl, rfl, rfl, rfl, rfl, rfl⟩

theorem reconcileFailed (cfg : Config) (m : OrderManager) (message : String) :
    SameLegs m (m.reconcileFailed cfg message) :=
  ⟨rfl, rfl, rfl, rfl, rfl, rfl, rfl⟩

theorem commitReconcile (cfg : Config) (w : World) (m : OrderManager) (s : ReconcileStretch) :
    SameLegs m (m.commitReconcile cfg w s) := by
  simp only [OrderManager.commitReconcile]
  have hstart : SameLegs m
      (if s.violated then { m with book := s.book }.reconcile cfg w
        else { m with book := s.book }) := by
    split
    · exact (setBook m s.book).trans (reconcile cfg w _)
    · exact setBook m s.book
  cases s.next with
  | await run => exact hstart.trans ⟨rfl, rfl, rfl, rfl, rfl, rfl, rfl⟩
  | failed message => exact hstart.trans (reconcileFailed cfg _ message)
  | rebuild run => exact hstart.trans ⟨rfl, rfl, rfl, rfl, rfl, rfl, rfl⟩

theorem absorb (cfg : Config) (w : World) (m : OrderManager) (s : Stretch) :
    SameLegs m (m.absorb cfg w s) := by
  have hbook : SameLegs m (if s.violated then { m with book := s.book }.reconcile cfg w
      else { m with book := s.book }) := by
    split
    · exact (setBook m s.book).trans (reconcile cfg w _)
    · exact setBook m s.book
  simp only [OrderManager.absorb]
  cases s.outcome with
  | none => exact hbook
  | some result => exact hbook.trans (settleAction _ _ _)

end SameLegs

/-- The rank a task decides does not depend on its phase. -/
theorem settleRank_suspended (cfg : Config) (m : OrderManager) (t : Task) (phase : Phase)
    (reply : Option JournalReply) :
    m.settleRank cfg { t with phase := phase, reply := reply } = m.settleRank cfg t := rfl

/-- The block of a head action, books and settlements aside. -/
theorem sameLegs_block (m : OrderManager) (action : Action) (reason : String) :
    SameLegs { m with history := blockedEvents action ++ m.history }
      (m.block action reason) := by
  cases action with
  | submit request capital entry => exact ⟨rfl, rfl, rfl, rfl, rfl, rfl, rfl⟩
  | cancel intent => exact ⟨rfl, rfl, rfl, rfl, rfl, rfl, rfl⟩

end OrderManager

open OrderManager

/-- An invariant of the queue, the gates and the actions in flight. `maySubmit` and
`mayArrive` are the conditions under which a leg registers and arrives at the barrier. -/
structure LegInvariant (cfg : Config)
    (maySubmit : List Event → BrokerOrderRequest → LiveEntryTransportGuard → Prop)
    (mayArrive : EntryTransportGates → List Event → BrokerOrderRequest →
      LiveEntryTransportGuard → Prop)
    (I : OrderManager → Prop) : Prop where
  frame : ∀ m m', SameLegs m m' → I m → I m'
  rejected : ∀ m request guard reason, maySubmit m.history request guard → I m →
    I (decideRank cfg
      { m with
        gates := m.gates.ensure cfg.account request guard
        history := .registered request guard :: m.history }
      request guard .noPost (some reason) none)
  accepted : ∀ m action, (∀ request guard, action.leg = some (request, guard) →
      maySubmit m.history request guard) → I m →
    I { m.register cfg action with
      queue := sortQueue (m.queue ++ [{ action := action, sequence := m.sequence }])
      sequence := m.sequence + 1 }
  blocked : ∀ m q rest, m.queue = q :: rest → I m →
    I { m with queue := rest, history := blockedEvents q.action ++ m.history }
  started : ∀ m q rest slot, m.queue = q :: rest → I m →
    I ({ m with queue := rest }.start cfg q.action slot)
  advanced : ∀ m i t t', m.tasks.get? i = some t → t.phase ≠ .settled →
    (t.phase = .turn → m.gates.parked i = false) → t'.action = t.action →
    t'.slot = t.slot → t'.phase ≠ .settled → t'.phase ≠ .turn → I m → I (m.setTask i t')
  arrived : ∀ m i t t' request guard, m.tasks.get? i = some t → t.phase ≠ .settled →
    t.phase ≠ .turn → t'.action = t.action → t'.slot = t.slot → t'.phase = .turn →
    t'.action.leg = some (request, guard) → mayArrive m.gates m.history request guard →
    I m → I { m.setTask i t' with gates := m.gates.awaitTurn request guard i }
  settled : ∀ m i t t', m.tasks.get? i = some t → t.phase ≠ .settled → t.phase ≠ .turn →
    t'.action = t.action → t'.slot = t.slot → t'.phase = .settled → I m →
    I ((m.setTask i t').settleRank cfg t')
  claimed : ∀ m i t t' request guard, m.tasks.get? i = some t → t.phase = .sending →
    t'.action = t.action → t'.slot = t.slot → t'.phase = .sending →
    t'.action.leg = some (request, guard) → I m →
    I { m.setTask i t' with gates := (m.gates.hedgeCoverageGap request guard).1 }
  posted : ∀ m i t t' request guard, m.tasks.get? i = some t → t.phase = .sending →
    t'.action = t.action → t'.slot = t.slot → t'.phase = .sending →
    t'.action.leg = some (request, guard) →
    (m.gates.hedgeCoverageGap request guard).2 = none → I m →
    I { m.setTask i t' with
      gates := (m.gates.hedgeCoverageGap request guard).1
      history := .posted request guard :: m.history }
  released : ∀ m i t, m.tasks.get? i = some t → t.phase = .settled → I m →
    I { m with slots := m.slots.release t.action t.slot, tasks := m.tasks.delete i }
  disposed : ∀ m, I m → I { m with gates := ∅, queue := [] }

/-- The leg a submission carries, if any. -/
def submittedLeg (request : BrokerOrderRequest) (entry : Option LiveEntryTransportGuard) :
    Option (BrokerOrderRequest × LiveEntryTransportGuard) :=
  if request.purpose = .entry then entry.map fun guard => (request, guard) else none

/-- The leg a label submits. -/
def Label.leg : Label → Option (BrokerOrderRequest × LiveEntryTransportGuard)
  | .submit _ request _ entry => submittedLeg request entry
  | _ => none

/-- The leg that a resumption takes to the barrier, if it does. -/
def arrivingLeg (cfg : Config) (w : World) (m : OrderManager) (i : TaskId) :
    Option (BrokerOrderRequest × LiveEntryTransportGuard) := do
  let t ← m.tasks.get? i
  let _ ← t.call
  let reply ← t.reply
  let s ← t.resume cfg w m.book reply
  if s.next = .barrier then s.task.action.leg else none

/-- A label meets the conditions on submission and on arrival. -/
def LegConditions (cfg : Config)
    (maySubmit : List Event → BrokerOrderRequest → LiveEntryTransportGuard → Prop)
    (mayArrive : EntryTransportGates → List Event → BrokerOrderRequest →
      LiveEntryTransportGuard → Prop)
    (m : OrderManager) : Label → Prop
  | .submit _ request _ entry =>
      ∀ leg ∈ submittedLeg request entry, maySubmit m.history leg.1 leg.2
  | .resume w (.action i) =>
      ∀ leg ∈ arrivingLeg cfg w m i, mayArrive m.gates m.history leg.1 leg.2
  | _ => True

/-- A stretch continues a task: the same action in the same slot goes on. -/
structure Stretch.Continues (t : Task) (s : Stretch) : Prop where
  action : s.task.action = t.action
  slot : s.task.slot = t.slot
  awaits : ∀ phase, s.next = .await phase → phase ≠ .settled ∧ phase ≠ .turn ∧ phase ≠ .creating
  barrier : s.next = .barrier → ∃ leg, t.action.leg = some leg

namespace Task

variable {cfg : Config} {w : World} {b : Book} {t : Task} {s : Stretch}

theorem continues_settle (h : s.next = .settle) (ha : s.task.action = t.action)
    (hs : s.task.slot = t.slot) : s.Continues t where
  action := ha
  slot := hs
  awaits phase hp := by rw [h] at hp; cases hp
  barrier hb := by rw [h] at hb; cases hb

theorem continues_await {phase : Phase} (h : s.next = .await phase)
    (hp : phase ≠ .settled ∧ phase ≠ .turn ∧ phase ≠ .creating) (ha : s.task.action = t.action)
    (hs : s.task.slot = t.slot) : s.Continues t where
  action := ha
  slot := hs
  awaits phase' hp' := by
    rw [h] at hp'
    obtain rfl := Next.await.inj hp'
    exact hp
  barrier hb := by rw [h] at hb; cases hb

theorem continues_barrier {leg : BrokerOrderRequest × LiveEntryTransportGuard}
    (h : s.next = .barrier) (hleg : t.action.leg = some leg)
    (ha : s.task.action = t.action) (hs : s.task.slot = t.slot) : s.Continues t where
  action := ha
  slot := hs
  awaits phase hp := by rw [h] at hp; cases hp
  barrier _ := ⟨leg, hleg⟩

theorem continues_failed (error : OrderError) : (t.failed cfg b error).Continues t :=
  continues_settle rfl rfl rfl

theorem continues_threw (error : OrderError) : (t.threw cfg b error).Continues t := by
  rw [threw]
  split
  · exact continues_failed error
  · exact continues_settle rfl rfl rfl

theorem continues_resolved (order : Option BrokerOrder) : (t.resolved b order).Continues t :=
  continues_settle rfl rfl rfl

theorem continues_persist (site : PersistSite) (order : BrokerOrder) :
    (t.persist w b site order).Continues t :=
  continues_await rfl ⟨nofun, nofun, nofun⟩ rfl rfl

theorem continues_resolveOwner (current : BoxOrderIntent) :
    (t.resolveOwner b current).Continues t :=
  continues_await rfl ⟨nofun, nofun, nofun⟩ rfl rfl

theorem continues_created (row : BoxOrderIntent) : (t.created cfg w b row).Continues t := by
  simp only [created]
  split
  · exact continues_await rfl ⟨nofun, nofun, nofun⟩ rfl rfl
  · split
    · exact continues_await rfl ⟨nofun, nofun, nofun⟩ rfl rfl
    · exact continues_await rfl ⟨nofun, nofun, nofun⟩ rfl rfl

theorem continues_existingFetched (answer : Except OrderError (Option BrokerOrder)) :
    (t.existingFetched cfg w b answer).Continues t := by
  cases answer with
  | error error => exact continues_failed error
  | ok found =>
      cases found with
      | none => exact continues_failed _
      | some order => exact continues_persist _ _

theorem continues_ownerFetched (current : BoxOrderIntent)
    (answer : Except OrderError (Option BrokerOrder)) :
    (t.ownerFetched cfg w b current answer).Continues t := by
  cases answer with
  | error error => exact continues_failed error
  | ok found =>
      cases found with
      | none => exact continues_settle rfl rfl rfl
      | some order => exact continues_persist _ _

theorem continues_submittingDone (result : UpdateResult) :
    (t.submittingDone cfg w b result).Continues t := by
  simp only [submittingDone]
  split
  · exact continues_failed _
  · exact continues_resolveOwner _
  · split
    · exact continues_settle rfl rfl rfl
    · split
      · exact continues_await rfl ⟨nofun, nofun, nofun⟩ rfl rfl
      · rename_i hleg
        split
        · exact continues_await rfl ⟨nofun, nofun, nofun⟩ rfl rfl
        · cases h : t.action.leg with
          | none => exact absurd (congrArg Option.isNone h) hleg
          | some leg => exact continues_barrier rfl h rfl rfl

theorem continues_refusedDone (stage : LiveEntryGuardStage) (reason : String)
    (result : UpdateResult) : (t.refusedDone cfg b stage reason result).Continues t := by
  simp only [refusedDone]
  split
  · exact continues_failed _
  · split
    · exact continues_settle rfl rfl rfl
    · exact continues_resolveOwner _

theorem continues_ambiguousDone (error : OrderError) :
    (t.ambiguousDone cfg b error).Continues t :=
  continues_settle rfl rfl rfl

theorem continues_snapshotDone (order : BrokerOrder) :
    (t.snapshotDone cfg b order).Continues t := by
  simp only [snapshotDone]
  split
  · exact continues_settle rfl rfl rfl
  · split <;> exact continues_settle rfl rfl rfl

theorem continues_persistedAt (site : PersistSite) (order : BrokerOrder) :
    (t.persistedAt cfg b order site).Continues t := by
  cases site with
  | existing => exact continues_resolved _
  | snapshot => exact continues_snapshotDone order
  | rejected => exact continues_settle rfl rfl rfl
  | ambiguous message => exact continues_ambiguousDone _
  | owner current => exact continues_resolved _
  | cancel => exact continues_resolved _

theorem continues_violated (v : Bool) (h : s.Continues t) :
    ({ s with violated := v } : Stretch).Continues t :=
  ⟨h.action, h.slot, h.awaits, h.barrier⟩

theorem continues_persistedDone (site : PersistSite) (order : BrokerOrder)
    (p : Book.Persisted) : (t.persistedDone cfg site order p).Continues t := by
  rw [persistedDone]
  split
  · exact continues_violated _ (continues_threw _)
  · exact continues_violated _ (continues_persistedAt _ _)

theorem continues_quarantineDone (error : OrderError) (result : UpdateResult) :
    (t.quarantineDone cfg b error result).Continues t := by
  simp only [quarantineDone]
  split
  · exact continues_failed _
  · exact continues_ambiguousDone _

theorem continues_submitted (answer : Except OrderError BrokerOrder) :
    (t.submitted w b answer).Continues t := by
  rw [submitted.eq_def]
  split
  · exact continues_persist _ _
  · exact continues_await rfl ⟨nofun, nofun, nofun⟩ rfl rfl
  · exact continues_persist _ _
  · exact continues_persist _ _
  · exact continues_await rfl ⟨nofun, nofun, nofun⟩ rfl rfl

theorem continues_cancelled (answer : Except OrderError (Option BrokerOrder)) :
    (t.cancelled w b answer).Continues t := by
  rw [cancelled.eq_def]
  split
  · exact continues_settle rfl rfl rfl
  · exact continues_resolved _
  · exact continues_persist _ _

theorem continues_journalThrew (message : String) :
    (t.journalThrew cfg b message).Continues t := by
  rw [journalThrew]
  split
  · exact continues_persistedDone _ _ _
  · exact continues_threw _

theorem continues_resume {reply : JournalReply} (h : t.resume cfg w b reply = some s) :
    s.Continues t := by
  rw [resume.eq_def] at h
  split at h
  · exact Option.some.inj h ▸ continues_created _
  · exact Option.some.inj h ▸ continues_submittingDone _
  · exact Option.some.inj h ▸ continues_refusedDone _ _ _
  · exact Option.some.inj h ▸ continues_persistedDone _ _ _
  · exact Option.some.inj h ▸ continues_quarantineDone _ _
  · exact Option.some.inj h ▸ continues_journalThrew _
  · cases h

theorem continues_fetched {answer : Except OrderError (Option BrokerOrder)}
    (h : t.fetched cfg w b answer = some s) : s.Continues t := by
  rw [fetched] at h
  split at h
  · exact Option.some.inj h ▸ continues_existingFetched _
  · exact Option.some.inj h ▸ continues_ownerFetched _ _
  · cases h

theorem persist_next {site : PersistSite} {order : BrokerOrder} :
    (t.persist w b site order).next ≠ .barrier := nofun

/-- A broker's answer to `getOrder` takes no leg to the barrier. -/
theorem fetched_next {answer : Except OrderError (Option BrokerOrder)}
    (h : t.fetched cfg w b answer = some s) : s.next ≠ .barrier := by
  rw [fetched] at h
  split at h
  · obtain rfl := Option.some.inj h
    cases answer with
    | error error => exact nofun
    | ok found =>
        cases found with
        | none => exact nofun
        | some order => exact persist_next
  · obtain rfl := Option.some.inj h
    cases answer with
    | error error => exact nofun
    | ok found =>
        cases found with
        | none => exact nofun
        | some order => exact persist_next
  · cases h

theorem submitted_next {answer : Except OrderError BrokerOrder} :
    (t.submitted w b answer).next ≠ .barrier := by
  rw [submitted.eq_def]
  split <;> exact nofun

theorem cancelled_next {answer : Except OrderError (Option BrokerOrder)} :
    (t.cancelled w b answer).next ≠ .barrier := by
  rw [cancelled.eq_def]
  split <;> exact nofun

/-- A task that awaits the journal is neither at the barrier nor settled. -/
theorem phase_of_call {call : JournalCall} (h : t.call = some call) :
    t.phase ≠ .settled ∧ t.phase ≠ .turn := by
  constructor
  · intro hp
    simp [Task.call, hp] at h
  · intro hp
    simp [Task.call, hp] at h

end Task

namespace LegInvariant

variable {cfg : Config} {I : OrderManager → Prop}
variable {maySubmit : List Event → BrokerOrderRequest → LiveEntryTransportGuard → Prop}
variable {mayArrive : EntryTransportGates → List Event → BrokerOrderRequest →
  LiveEntryTransportGuard → Prop}
variable {m m' : OrderManager}

theorem pumpFrom (h : LegInvariant cfg maySubmit mayArrive I) (w : World)
    (queue : List QueuedAction) (hm : I { m with queue := queue }) :
    I (OrderManager.pumpFrom cfg w queue m) := by
  induction queue generalizing m with
  | nil => exact hm
  | cons q rest ih =>
      rw [OrderManager.pumpFrom]
      split
      · exact hm
      · split
        · exact hm
        · rename_i slot _
          split
          · rename_i b reason _
            apply ih
            refine h.frame _ _ ?_ (h.blocked _ q rest rfl hm)
            have hblock := sameLegs_block { m with book := b } q.action reason
            exact ⟨rfl, hblock.sequence, hblock.slots, hblock.gates, hblock.tasks,
              hblock.nextTask, hblock.history⟩
          · rename_i b _
            apply ih
            refine h.frame _ _ ?_ (h.started _ q rest slot rfl hm)
            exact ⟨rfl, rfl, rfl, rfl, rfl, rfl, rfl⟩

theorem pump (h : LegInvariant cfg maySubmit mayArrive I) (w : World) (hm : I m) :
    I (m.pump cfg w) :=
  h.pumpFrom w m.queue hm

theorem releaseOnReject (h : LegInvariant cfg maySubmit mayArrive I) (action : Action)
    (error : OrderError) (hn : SameLegs (m.register cfg action) m')
    (hok : ∀ request guard, action.leg = some (request, guard) →
      maySubmit m.history request guard) (hm : I m) :
    I (m'.releaseOnReject cfg action error) := by
  rw [OrderManager.releaseOnReject]
  rw [register] at hn
  cases hleg : action.leg with
  | none =>
      rw [hleg] at hn
      exact h.frame _ _ (hn.trans (.settleAction m' action _)) hm
  | some leg =>
      obtain ⟨request, guard⟩ := leg
      rw [hleg] at hn
      refine h.frame _ _ ?_ (h.rejected m request guard error.message
        (hok request guard hleg) hm)
      exact ⟨hn.queue, hn.sequence, hn.slots, by simp [decideRank, rejectAction,
        settleAction, hn.gates], hn.tasks, hn.nextTask, by simp [decideRank, rejectAction,
        settleAction, hn.history]⟩

theorem enqueue (h : LegInvariant cfg maySubmit mayArrive I) (w : World) (action : Action)
    (hn : SameLegs (m.register cfg action) m')
    (hok : ∀ request guard, action.leg = some (request, guard) →
      maySubmit m.history request guard) (hm : I m) :
    I (m'.enqueue cfg w action) := by
  have hqueue : m'.queue = m.queue := by
    rw [hn.queue, register]
    split <;> rfl
  have hsequence : m'.sequence = m.sequence := by
    rw [hn.sequence, register]
    split <;> rfl
  rw [OrderManager.enqueue, hqueue, hsequence]
  apply h.pump
  refine h.frame _ _ ?_ (h.accepted m action hok hm)
  exact ⟨rfl, rfl, hn.slots, hn.gates, hn.tasks, hn.nextTask, hn.history⟩

theorem submit (h : LegInvariant cfg maySubmit mayArrive I) (w : World)
    (request : BrokerOrderRequest) (capital : Option EntryCapitalStamp)
    (entry : Option LiveEntryTransportGuard)
    (hok : ∀ leg ∈ submittedLeg request entry, maySubmit m.history leg.1 leg.2) (hm : I m) :
    I (m.submit cfg w request capital entry) := by
  have hleg : ∀ request' guard, (Action.submit request capital
      (if request.purpose = .entry then entry else none)).leg = some (request', guard) →
      maySubmit m.history request' guard := by
    intro request' guard heq
    apply hok (request', guard)
    rw [Option.mem_def, ← heq, submittedLeg, Action.leg]
    split <;> rfl
  rw [OrderManager.submit]
  split
  · exact h.releaseOnReject _ _ (.setBook _ _) hleg hm
  · exact h.enqueue w _ (.setBook _ _) hleg hm

theorem enqueueCancel (h : LegInvariant cfg maySubmit mayArrive I) (w : World)
    (intent : BoxOrderIntent) (hm : I m) : I (m.enqueueCancel cfg w intent) := by
  have hleg : ∀ request guard, (Action.cancel intent).leg = some (request, guard) →
      maySubmit m.history request guard := by
    intro request guard heq
    simp [Action.leg] at heq
  have hregister : m.register cfg (.cancel intent) = m := by simp [register, Action.leg]
  rw [OrderManager.enqueueCancel]
  exact h.enqueue w (.cancel intent) (hregister ▸ .refl m) hleg hm

theorem setBook (h : LegInvariant cfg maySubmit mayArrive I) (b : Book) (hm : I m) :
    I { m with book := b } :=
  h.frame _ _ (.setBook m b) hm

/-- The end of a synchronous block keeps the invariant. -/
theorem commit (h : LegInvariant cfg maySubmit mayArrive I) (w : World) {i : TaskId}
    {t : Task} {s : Stretch} (ht : m.tasks.get? i = some t) (hlive : t.phase ≠ .settled)
    (hturn : t.phase ≠ .turn) (hs : s.Continues t)
    (harrive : s.next = .barrier → ∀ leg ∈ s.task.action.leg,
      mayArrive m.gates m.history leg.1 leg.2) (hm : I m) :
    I (m.commit cfg w i s) := by
  have habsorb : SameLegs m (m.absorb cfg w s) := .absorb cfg w m s
  rw [OrderManager.commit]
  generalize m.absorb cfg w s = n at habsorb ⊢
  have hn : I n := h.frame _ _ habsorb hm
  have htn : n.tasks.get? i = some t := by rw [habsorb.tasks, ht]
  cases hnext : s.next with
  | await phase =>
      obtain ⟨hsettled, hphase, -⟩ := hs.awaits phase hnext
      exact h.advanced n i t { s.task with phase := phase, reply := none } htn hlive
        (fun hp => absurd hp hturn) hs.action hs.slot hsettled hphase hn
  | barrier =>
      obtain ⟨⟨request, guard⟩, hleg⟩ := hs.barrier hnext
      have hleg' : s.task.action.leg = some (request, guard) := by rw [hs.action, hleg]
      have hmay : mayArrive n.gates n.history request guard := by
        rw [habsorb.gates, habsorb.history]
        exact harrive hnext (request, guard) hleg'
      have harrived := h.arrived n i t { s.task with phase := .turn, reply := none } request
        guard htn hlive hturn hs.action hs.slot rfl hleg' hmay hn
      show I ((n.suspend i s.task .turn).awaitTurn i s.task.action)
      rw [OrderManager.awaitTurn, hleg']
      exact harrived
  | settle =>
      have hsettled := h.settled n i t { s.task with phase := .settled, reply := none } htn
        hlive hturn hs.action hs.slot rfl hn
      rw [settleRank_suspended] at hsettled
      exact hsettled

theorem prePost (h : LegInvariant cfg maySubmit mayArrive I) (w : World) {i : TaskId}
    {t : Task} (ht : m.tasks.get? i = some t) (hphase : t.phase = .sending) (hm : I m) :
    I (m.prePost cfg w i t) := by
  have advance : ∀ t' : Task, t'.action = t.action → t'.slot = t.slot →
      t'.phase = .sending → I (m.setTask i t') := by
    intro t' ha hs hp
    exact h.advanced m i t t' ht (by simp [hphase]) (by simp [hphase]) ha hs (by simp [hp])
      (by simp [hp]) hm
  rw [OrderManager.prePost]
  split
  · exact advance _ rfl rfl hphase
  · split
    · exact advance _ rfl rfl hphase
    · rename_i request guard hleg
      dsimp only
      split
      · rename_i refusal reason _
        refine h.frame _ _ ?_ (h.claimed m i t
          { t with hedgeFailureReason := some reason } request guard ht hphase rfl rfl
          hphase hleg hm)
        exact ⟨rfl, rfl, rfl, rfl, rfl, rfl, rfl⟩
      · rename_i hallowed
        have hgap : (m.gates.hedgeCoverageGap request guard).2 = none :=
          no_gap_of_allowed hallowed
        refine h.frame _ _ ?_ (h.posted m i t { t with postBegan := true } request guard ht
          hphase rfl rfl hphase hleg hgap hm)
        exact ⟨rfl, rfl, rfl, rfl, rfl, rfl, rfl⟩

theorem release (h : LegInvariant cfg maySubmit mayArrive I) (w : World) {i : TaskId}
    {t : Task} (ht : m.tasks.get? i = some t) (hphase : t.phase = .settled) (hm : I m) :
    I (m.release cfg w i t) := by
  apply h.pump
  refine h.frame _ _ ?_ (h.released m i t ht hphase hm)
  exact ⟨rfl, rfl, rfl, rfl, rfl, rfl, rfl⟩

theorem dispose (h : LegInvariant cfg maySubmit mayArrive I) (hm : I m) : I m.dispose := by
  have hfold : ∀ (actions : List Action) (n : OrderManager), I n →
      I (actions.foldl disposeQueued n) := by
    intro actions
    induction actions with
    | nil => exact fun n hn => hn
    | cons action rest ih =>
        intro n hn
        apply ih
        exact h.frame n _ ⟨rfl, rfl, rfl, rfl, rfl, rfl, rfl⟩ hn
  apply hfold
  refine h.frame _ _ ?_ (h.disposed m hm)
  exact ⟨rfl, rfl, rfl, rfl, rfl, rfl, rfl⟩

/-- An answer to a pending call. -/
theorem answer (h : LegInvariant cfg maySubmit mayArrive I) {caller : Caller}
    {call : JournalCall} {reply' : Option JournalReply}
    (hpending : m.pending caller = some (call, reply')) (reply : JournalReply) (hm : I m) :
    I (m.answer caller reply) := by
  cases caller with
  | action i =>
      rw [OrderManager.answer]
      cases ht : m.tasks.get? i with
      | none => exact hm
      | some t =>
          obtain ⟨t', ht', hcall⟩ := Option.bind_eq_some_iff.mp hpending
          obtain rfl := Option.some.inj (ht.symm.trans ht')
          obtain ⟨call', hcall', -⟩ := Option.map_eq_some_iff.mp hcall
          obtain ⟨hsettled, hturn⟩ := Task.phase_of_call hcall'
          exact h.advanced m i t { t with reply := some reply } ht hsettled
            (fun hp => absurd hp hturn) rfl rfl hsettled hturn hm
  | reconcile =>
      rw [OrderManager.answer]
      split
      · exact hm
      · exact h.frame m _ ⟨rfl, rfl, rfl, rfl, rfl, rfl, rfl⟩ hm

theorem taskIn {i : TaskId} {t : Task} {phase : Phase} (h : m.taskIn i phase = some t) :
    m.tasks.get? i = some t ∧ t.phase = phase := by
  obtain ⟨ht, hp⟩ := Option.filter_eq_some_iff.mp h
  exact ⟨ht, by simpa using hp⟩

/-- Every step of the manager keeps an invariant of the legs, if its label meets the
conditions on submission and arrival. -/
theorem step (h : LegInvariant cfg maySubmit mayArrive I) {label : Label} (hm : I m)
    (hc : LegConditions cfg maySubmit mayArrive m label)
    (hstep : m.step cfg label = some m') : I m' := by
  cases label with
  | submit w request capital entry =>
      exact Option.some.inj hstep ▸ h.submit w request capital entry hc hm
  | enqueueCancel w intent => exact Option.some.inj hstep ▸ h.enqueueCancel w intent hm
  | serve caller =>
      simp only [OrderManager.step, OrderManager.serve] at hstep
      split at hstep
      · rename_i call hpending
        refine Option.some.inj hstep ▸ ?_
        refine h.frame _ _ ?_ (h.answer hpending
          (m.journal.perform cfg.persistence call).2 hm)
        cases caller with
        | action i =>
            simp only [OrderManager.answer]
            split <;> exact ⟨rfl, rfl, rfl, rfl, rfl, rfl, rfl⟩
        | reconcile =>
            simp only [OrderManager.answer]
            split <;> exact ⟨rfl, rfl, rfl, rfl, rfl, rfl, rfl⟩
      · cases hstep
  | breakDown caller message =>
      simp only [OrderManager.step, OrderManager.breakDown] at hstep
      split at hstep
      · rename_i call hpending
        exact Option.some.inj hstep ▸ h.answer hpending _ hm
      · cases hstep
  | resume w caller =>
      cases caller with
      | action i =>
          obtain ⟨t, ht, h1⟩ := Option.bind_eq_some_iff.mp hstep
          obtain ⟨call, hcall, h2⟩ := Option.bind_eq_some_iff.mp h1
          obtain ⟨reply, hreply, h3⟩ := Option.bind_eq_some_iff.mp h2
          obtain ⟨s, hs, h4⟩ := Option.bind_eq_some_iff.mp h3
          obtain ⟨hsettled, hturn⟩ := Task.phase_of_call hcall
          refine Option.some.inj h4 ▸ h.commit w ht hsettled hturn
            (Task.continues_resume hs) (fun hbarrier leg hleg => hc leg ?_) hm
          simp [arrivingLeg, ht, hcall, hreply, hs, hbarrier, Option.mem_def.mp hleg]
      | reconcile =>
          obtain ⟨run, -, h1⟩ := Option.bind_eq_some_iff.mp hstep
          obtain ⟨call, -, h2⟩ := Option.bind_eq_some_iff.mp h1
          obtain ⟨reply, -, h3⟩ := Option.bind_eq_some_iff.mp h2
          obtain ⟨s, -, h4⟩ := Option.bind_eq_some_iff.mp h3
          exact Option.some.inj h4 ▸ h.frame _ _ (.commitReconcile cfg w m s) hm
  | fetched w i answer =>
      obtain ⟨t, ht, h1⟩ := Option.bind_eq_some_iff.mp hstep
      obtain ⟨s, hs, h2⟩ := Option.bind_eq_some_iff.mp h1
      have hphase : t.phase ≠ .settled ∧ t.phase ≠ .turn := by
        constructor
        · intro hp
          simp [Task.fetched, hp] at hs
        · intro hp
          simp [Task.fetched, hp] at hs
      have hcontinues := Task.continues_fetched hs
      refine Option.some.inj h2 ▸ h.commit w ht hphase.1 hphase.2 hcontinues ?_ hm
      intro hbarrier
      exact absurd hbarrier (Task.fetched_next hs)
  | pass i =>
      obtain ⟨t, ht, hpass⟩ := Option.bind_eq_some_iff.mp hstep
      rw [OrderManager.pass] at hpass
      split at hpass
      · rename_i hturn
        refine Option.some.inj hpass ▸ h.advanced m i t _ ht ?_ (fun _ => hturn.2) rfl rfl
          nofun nofun hm
        simp [hturn.1]
      · cases hpass
  | prePost w i =>
      obtain ⟨t, ht, rfl⟩ := Option.map_eq_some_iff.mp hstep
      exact h.prePost w (taskIn ht).1 (taskIn ht).2 hm
  | submitted w i answer =>
      obtain ⟨t, ht, rfl⟩ := Option.map_eq_some_iff.mp hstep
      obtain ⟨hget, hphase⟩ := taskIn ht
      refine h.commit w hget (by simp [hphase]) (by simp [hphase])
        (Task.continues_submitted answer) (fun hbarrier => ?_) hm
      exact absurd hbarrier Task.submitted_next
  | cancelled w i answer =>
      obtain ⟨t, ht, rfl⟩ := Option.map_eq_some_iff.mp hstep
      obtain ⟨hget, hphase⟩ := taskIn ht
      refine h.commit w hget (by simp [hphase]) (by simp [hphase])
        (Task.continues_cancelled answer) (fun hbarrier => ?_) hm
      exact absurd hbarrier Task.cancelled_next
  | release w i =>
      obtain ⟨t, ht, rfl⟩ := Option.map_eq_some_iff.mp hstep
      exact h.release w (taskIn ht).1 (taskIn ht).2 hm
  | reconcile w => exact Option.some.inj hstep ▸ h.frame _ _ (.reconcile cfg w m) hm
  | reconcileAnswered w answer =>
      obtain ⟨run, -, h1⟩ := Option.bind_eq_some_iff.mp hstep
      split at h1
      · cases answer with
        | reported =>
            exact Option.some.inj h1 ▸
              h.frame m _ ⟨rfl, rfl, rfl, rfl, rfl, rfl, rfl⟩ hm
        | threw message =>
            exact Option.some.inj h1 ▸ h.frame _ _ (.reconcileFailed cfg m message) hm
        | health _ => cases h1
        | orders _ => cases h1
        | positions _ => cases h1
        | adopted _ => cases h1
      · obtain ⟨s, -, h2⟩ := Option.bind_eq_some_iff.mp h1
        exact Option.some.inj h2 ▸ h.frame _ _ (.commitReconcile cfg w m s) hm
  | setControls controls => exact Option.some.inj hstep ▸ h.setBook _ hm
  | setExposure openBoxes residualLegs => exact Option.some.inj hstep ▸ h.setBook _ hm
  | setFeedHealthy w healthy => exact Option.some.inj hstep ▸ h.setBook _ hm
  | setCrashOnlyAttributedExposure exists' =>
      exact Option.some.inj hstep ▸ h.setBook _ hm
  | recordRealisedPnl delta => exact Option.some.inj hstep ▸ h.setBook _ hm
  | seedLimits day seed => exact Option.some.inj hstep ▸ h.setBook _ hm
  | dailyRiskLoaded generation seed => exact Option.some.inj hstep ▸ h.setBook _ hm
  | invariantViolation w reason =>
      refine Option.some.inj hstep ▸ h.frame _ _ ?_ hm
      exact (SameLegs.setBook m _).trans (.reconcile cfg w _)
  | dispose => exact Option.some.inj hstep ▸ h.dispose hm
  | foreign row =>
      exact Option.some.inj hstep ▸ h.frame m _ ⟨rfl, rfl, rfl, rfl, rfl, rfl, rfl⟩ hm

end LegInvariant

end Strikedge.Orders
