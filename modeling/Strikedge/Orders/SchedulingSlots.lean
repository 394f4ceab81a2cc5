import Strikedge.Orders.Actions
import Strikedge.Orders.Barrier

/-!
# The scheduling slots

The counters of the pump are kept by pairs of calls around executions that end in any order.
In every state they count the actions in flight, the base slots suffice, the entries in flight
belong to one attempt, and the burst is no wider than it is configured.
-/

namespace Strikedge.Orders

open Machine OrderManager

/-- The slots are as they were, and at most one action has gone on, in its slot. -/
structure SameSlots (m m' : OrderManager) : Prop where
  slots : m'.slots = m.slots
  nextTask : m'.nextTask = m.nextTask
  tasks : m'.tasks = m.tasks ∨ ∃ i t t', m.tasks.get? i = some t ∧ t'.action = t.action ∧
    t'.slot = t.slot ∧ m'.tasks = m.tasks.set i t'

/-- The slots change only where the pump runs, after a release or without one. -/
inductive SlotStep (cfg : Config) (m : OrderManager) : OrderManager → Prop
  | kept {m' : OrderManager} (h : SameSlots m m') : SlotStep cfg m m'
  | pumped {n : OrderManager} (w : World) (h : SameSlots m n) : SlotStep cfg m (n.pump cfg w)
  | released {n : OrderManager} {i : TaskId} {t : Task} (w : World)
      (ht : m.tasks.get? i = some t) (hslots : n.slots = m.slots.release t.action t.slot)
      (htasks : n.tasks = m.tasks.delete i) (hnext : n.nextTask = m.nextTask) :
      SlotStep cfg m (n.pump cfg w)

namespace SameSlots

variable {cfg : Config} {m n m' : OrderManager} {i : TaskId} {t u : Task}

theorem of_same (hslots : m'.slots = m.slots) (hnext : m'.nextTask = m.nextTask)
    (htasks : m'.tasks = m.tasks) : SameSlots m m' :=
  ⟨hslots, hnext, .inl htasks⟩

theorem of_legs (h : SameLegs m m') : SameSlots m m' := of_same h.slots h.nextTask h.tasks

theorem of_set (ht : m.tasks.get? i = some t) (haction : u.action = t.action)
    (hslot : u.slot = t.slot) (hslots : m'.slots = m.slots) (hnext : m'.nextTask = m.nextTask)
    (htasks : m'.tasks = m.tasks.set i u) : SameSlots m m' :=
  ⟨hslots, hnext, .inr ⟨i, t, u, ht, haction, hslot, htasks⟩⟩

theorem register (action : Action) : SameSlots m (m.register cfg action) := by
  rw [OrderManager.register]
  split <;> exact of_same rfl rfl rfl

theorem trans_same (h : SameSlots m n) (hslots : m'.slots = n.slots)
    (hnext : m'.nextTask = n.nextTask) (htasks : m'.tasks = n.tasks) : SameSlots m m' where
  slots := hslots.trans h.slots
  nextTask := hnext.trans h.nextTask
  tasks := by
    rw [htasks]
    exact h.tasks

/-- The end of a synchronous block suspends its action in its slot. -/
theorem commit (w : World) {s : Stretch} (ht : m.tasks.get? i = some t) (hs : s.Continues t) :
    SameSlots m (m.commit cfg w i s) := by
  have habsorb : SameLegs m (m.absorb cfg w s) := .absorb cfg w m s
  have hparts : (m.commit cfg w i s).slots = m.slots ∧
      (m.commit cfg w i s).nextTask = m.nextTask := by
    rw [← habsorb.slots, ← habsorb.nextTask, OrderManager.commit]
    generalize m.absorb cfg w s = n
    cases s.next with
    | await phase => exact ⟨rfl, rfl⟩
    | barrier =>
      dsimp only
      rw [awaitTurn]
      split <;> exact ⟨rfl, rfl⟩
    | settle =>
      dsimp only
      rw [settleRank]
      split <;> exact ⟨rfl, rfl⟩
  exact of_set ht (u := s.suspended) hs.action hs.slot hparts.1 hparts.2
    (commit_tasks cfg w m i s).1

theorem prePost (w : World) (ht : m.tasks.get? i = some t) :
    SameSlots m (m.prePost cfg w i t) := by
  have hset : ∀ (t' : Task) (m' : OrderManager), t'.action = t.action → t'.slot = t.slot →
      m'.slots = m.slots → m'.nextTask = m.nextTask → m'.tasks = m.tasks.set i t' →
      SameSlots m m' := by
    intro t' m' haction hslot hslots hnext htasks
    exact of_set ht haction hslot hslots hnext htasks
  rw [OrderManager.prePost]
  split
  next reason _ => exact hset { t with hedgeFailureReason := some reason } _ rfl rfl rfl rfl rfl
  next =>
    split
    next => exact hset { t with postBegan := true } _ rfl rfl rfl rfl rfl
    next =>
      dsimp only
      split
      next reason _ =>
        exact hset { t with hedgeFailureReason := some reason } _ rfl rfl rfl rfl rfl
      next => exact hset { t with postBegan := true } _ rfl rfl rfl rfl rfl

/-- An answer to a pending call stays with the action that awaits it. -/
theorem answer (caller : Caller) (reply : JournalReply) (journal : Journal) :
    SameSlots m ({ m with journal := journal }.answer caller reply) := by
  cases caller with
  | action i =>
    rw [OrderManager.answer]
    split
    next => exact of_same rfl rfl rfl
    next t ht => exact of_set ht (u := { t with reply := some reply }) rfl rfl rfl rfl rfl
  | reconcile =>
    rw [OrderManager.answer]
    split <;> exact of_same rfl rfl rfl

theorem dispose (m : OrderManager) : SameSlots m m.dispose := by
  have hfold : ∀ (actions : List Action) (n : OrderManager), SameSlots m n →
      SameSlots m (actions.foldl disposeQueued n) := by
    intro actions
    induction actions with
    | nil => exact fun n hn => hn
    | cons action rest ih => exact fun n hn => ih _ (hn.trans_same rfl rfl rfl)
  exact hfold _ _ (of_same rfl rfl rfl)

end SameSlots

section Steps

variable {cfg : Config} {m m' : OrderManager} {label : Label}

theorem slotStep_enqueue {n : OrderManager} (w : World) (action : Action) (h : SameSlots m n) :
    SlotStep cfg m (n.enqueue cfg w action) :=
  .pumped w (h.trans_same rfl rfl rfl)

theorem slotStep_submit (w : World) (request : BrokerOrderRequest)
    (capital : Option EntryCapitalStamp) (entry : Option LiveEntryTransportGuard) :
    SlotStep cfg m (m.submit cfg w request capital entry) := by
  rw [OrderManager.submit]
  generalize Action.submit request capital _ = action
  have hregister : SameSlots m (m.register cfg action) := .register action
  dsimp only
  generalize m.register cfg action = n at hregister ⊢
  split
  next b error _ =>
    refine .kept ?_
    rw [OrderManager.releaseOnReject]
    split <;> exact hregister.trans_same rfl rfl rfl
  next => exact slotStep_enqueue w action (hregister.trans_same rfl rfl rfl)

/-- What any step does to the slots. -/
theorem step_slotStep (hstep : m.step cfg label = some m') : SlotStep cfg m m' := by
  cases label with
  | submit w request capital entry =>
    exact Option.some.inj hstep ▸ slotStep_submit w request capital entry
  | enqueueCancel w intent =>
    exact Option.some.inj hstep ▸ slotStep_enqueue w _ (.of_same rfl rfl rfl)
  | serve caller =>
    simp only [step, serve] at hstep
    split at hstep
    next => exact Option.some.inj hstep ▸ .kept (.answer caller _ _)
    next => cases hstep
  | breakDown caller message =>
    simp only [step, breakDown] at hstep
    split at hstep
    next => exact Option.some.inj hstep ▸ .kept (.answer caller _ m.journal)
    next => cases hstep
  | resume w caller =>
    cases caller with
    | action i =>
      obtain ⟨t, ht, h1⟩ := Option.bind_eq_some_iff.mp hstep
      obtain ⟨call, -, h2⟩ := Option.bind_eq_some_iff.mp h1
      obtain ⟨reply, -, h3⟩ := Option.bind_eq_some_iff.mp h2
      obtain ⟨s, hs, h4⟩ := Option.bind_eq_some_iff.mp h3
      exact Option.some.inj h4 ▸ .kept (.commit w ht (Task.continues_resume hs))
    | reconcile =>
      obtain ⟨run, -, h1⟩ := Option.bind_eq_some_iff.mp hstep
      obtain ⟨call, -, h2⟩ := Option.bind_eq_some_iff.mp h1
      obtain ⟨reply, -, h3⟩ := Option.bind_eq_some_iff.mp h2
      obtain ⟨s, -, h4⟩ := Option.bind_eq_some_iff.mp h3
      exact Option.some.inj h4 ▸ .kept (.of_legs (.commitReconcile cfg w m s))
  | fetched w i answer =>
    obtain ⟨t, ht, h1⟩ := Option.bind_eq_some_iff.mp hstep
    obtain ⟨s, hs, h2⟩ := Option.bind_eq_some_iff.mp h1
    exact Option.some.inj h2 ▸ .kept (.commit w ht (Task.continues_fetched hs))
  | pass i =>
    obtain ⟨t, ht, hpass⟩ := Option.bind_eq_some_iff.mp hstep
    rw [OrderManager.pass] at hpass
    split at hpass
    next =>
      have hturn : SameSlots m (m.suspend i t .sending) :=
        .of_set ht (u := { t with phase := .sending, reply := none }) rfl rfl rfl rfl rfl
      exact Option.some.inj hpass ▸ .kept hturn
    next => cases hpass
  | prePost w i =>
    obtain ⟨t, ht, rfl⟩ := Option.map_eq_some_iff.mp hstep
    exact .kept (.prePost w (LegInvariant.taskIn ht).1)
  | submitted w i answer =>
    obtain ⟨t, ht, rfl⟩ := Option.map_eq_some_iff.mp hstep
    exact .kept (.commit w (LegInvariant.taskIn ht).1 (Task.continues_submitted answer))
  | cancelled w i answer =>
    obtain ⟨t, ht, rfl⟩ := Option.map_eq_some_iff.mp hstep
    exact .kept (.commit w (LegInvariant.taskIn ht).1 (Task.continues_cancelled answer))
  | release w i =>
    obtain ⟨t, ht, rfl⟩ := Option.map_eq_some_iff.mp hstep
    exact .released w (LegInvariant.taskIn ht).1 rfl rfl rfl
  | reconcile w => exact Option.some.inj hstep ▸ .kept (.of_legs (.reconcile cfg w m))
  | reconcileAnswered w answer =>
    obtain ⟨run, -, h1⟩ := Option.bind_eq_some_iff.mp hstep
    split at h1
    next =>
      cases answer with
      | reported => exact Option.some.inj h1 ▸ .kept (.of_same rfl rfl rfl)
      | threw message =>
        exact Option.some.inj h1 ▸ .kept (.of_legs (.reconcileFailed cfg m message))
      | _ => cases h1
    next =>
      obtain ⟨s, -, h2⟩ := Option.bind_eq_some_iff.mp h1
      exact Option.some.inj h2 ▸ .kept (.of_legs (.commitReconcile cfg w m s))
  | invariantViolation w reason =>
    refine Option.some.inj hstep ▸ .kept (.of_legs ?_)
    exact (SameLegs.setBook m _).trans (.reconcile cfg w _)
  | dispose => exact Option.some.inj hstep ▸ .kept (.dispose m)
  | _ => exact Option.some.inj hstep ▸ .kept (.of_same rfl rfl rfl)

end Steps

/-- The base slots of a configuration. -/
def baseSlots (cfg : Config) : Nat := max 1 cfg.limits.maxConcurrentExecutions

/-- The width of the entry burst, base slots included. -/
def burstWidth (cfg : Config) : Nat := clampEntrySubmitConcurrency cfg.limits.entrySubmitConcurrency

/-- What the policy says of an action. -/
def verdict (cfg : Config) (slots : Slots) (action : Action) : Except String BoxSchedulingSlot :=
  admitBoxOperation action.purpose action.attemptId slots.occupancy
    cfg.limits.maxConcurrentExecutions cfg.limits.entrySubmitConcurrency

section Admission

variable {purpose : BoxOrderPurpose} {attemptId : AttemptId} {occupancy : BoxSchedulingOccupancy}
variable {base entryWidth : Nat} {slot : BoxSchedulingSlot}

/-- The room an admitted operation has found. -/
theorem room_of_admitted
    (h : admitBoxOperation purpose attemptId occupancy base entryWidth = .ok slot) :
    (slot = .base → occupancy.baseInFlight < max 1 base) ∧
      (slot = .entryBurst → occupancy.burstInFlight <
        clampEntrySubmitConcurrency entryWidth - max 1 base) := by
  simp only [admitBoxOperation] at h
  split at h
  next =>
    split at h
    next hfree =>
      obtain rfl := Except.ok.inj h
      exact ⟨fun _ => hfree, nofun⟩
    next => cases h
  next =>
    split at h
    next => cases h
    next =>
      split at h
      next hfree =>
        obtain rfl := Except.ok.inj h
        exact ⟨fun _ => hfree, nofun⟩
      next hfull =>
        split at h
        next => cases h
        next =>
          split at h
          next => cases h
          next =>
            split at h
            next => cases h
            next hroom =>
              obtain rfl := Except.ok.inj h
              exact ⟨nofun, fun _ => by omega⟩

/-- An entry is admitted only beside entries of its own attempt. -/
theorem owner_of_admitted
    (h : admitBoxOperation purpose attemptId occupancy base entryWidth = .ok slot)
    (hentry : purpose = .entry) {other : AttemptId}
    (hother : occupancy.entryAttemptId = some other) : other = attemptId := by
  by_contra hne
  simp [admitBoxOperation, hentry, hother, Option.filter, hne] at h

/-- An operation that is not an entry is refused only when the base slots are taken. -/
theorem full_of_refused {reason : String} (hother : purpose ≠ .entry)
    (h : admitBoxOperation purpose attemptId occupancy base entryWidth = .error reason) :
    max 1 base ≤ occupancy.baseInFlight := by
  simp only [admitBoxOperation, if_pos hother] at h
  split at h
  next => cases h
  next hfull => exact not_lt.mp hfull

end Admission

structure SlotLaw (cfg : Config) (slots : Slots) (tasks : OrderedMap TaskId Task)
    (nextTask : TaskId) : Prop where
  counted : SlotsCounted slots tasks
  fresh : ∀ (i : TaskId) (t : Task), tasks.get? i = some t → i < nextTask
  base_le : slots.baseInFlight ≤ baseSlots cfg
  burst_le : slots.burstInFlight ≤ burstWidth cfg - baseSlots cfg
  /-- the entries in flight belong to the attempt that is named -/
  owned : ∀ (i : TaskId) (t : Task), tasks.get? i = some t → t.action.purpose = .entry →
    slots.entryAttemptInFlight = some t.action.attemptId

namespace SlotLaw

variable {cfg : Config} {slots : Slots} {tasks : OrderedMap TaskId Task} {nextTask i : TaskId}
variable {t t' : Task} {m m' : OrderManager}

theorem setTask (h : SlotLaw cfg slots tasks nextTask) (ht : tasks.get? i = some t)
    (haction : t'.action = t.action) (hslot : t'.slot = t.slot) :
    SlotLaw cfg slots (tasks.set i t') nextTask where
  counted := h.counted.setTask ht haction hslot
  fresh := by
    intro j u hu
    rw [OrderedMap.get?_set] at hu
    split at hu
    next hj => exact hj ▸ h.fresh i t ht
    next => exact h.fresh j u hu
  base_le := h.base_le
  burst_le := h.burst_le
  owned := by
    intro j u hu hentry
    rw [OrderedMap.get?_set] at hu
    split at hu
    next =>
      obtain rfl := Option.some.inj hu
      rw [haction] at hentry ⊢
      exact h.owned i t ht hentry
    next => exact h.owned j u hu hentry

theorem occupy_owner (action : Action) (slot : BoxSchedulingSlot) :
    (slots.occupy action slot).entryAttemptInFlight =
      if action.purpose = .entry then some action.attemptId else slots.entryAttemptInFlight := by
  cases slot <;> by_cases h : action.purpose = .entry <;> simp [Slots.occupy, h]

theorem release_owner (action : Action) (slot : BoxSchedulingSlot)
    (hleft : (slots.release action slot).entryInFlight ≠ 0) :
    (slots.release action slot).entryAttemptInFlight = slots.entryAttemptInFlight := by
  rw [Slots.release_entryInFlight] at hleft
  by_cases h : action.purpose = .entry
  · rw [if_pos h] at hleft
    cases slot <;> simp [Slots.release, h, hleft]
  · cases slot <;> simp [Slots.release, h]

/-- An admitted action takes a slot that is there. -/
theorem start (h : SlotLaw cfg slots tasks nextTask) {action : Action} {slot : BoxSchedulingSlot}
    (hadmitted : verdict cfg slots action = .ok slot) :
    SlotLaw cfg (slots.occupy action slot) (tasks.set nextTask (startedTask cfg action slot))
      (nextTask + 1) where
  counted := by
    have hnew : tasks.get? nextTask = none := by
      by_contra hold
      obtain ⟨t, ht⟩ := Option.ne_none_iff_exists'.mp hold
      exact Nat.lt_irrefl _ (h.fresh nextTask t ht)
    exact h.counted.occupy (t := startedTask cfg action slot) hnew
  fresh := by
    intro j u hu
    rw [OrderedMap.get?_set] at hu
    split at hu
    next hj => exact hj ▸ Nat.lt_succ_self _
    next => exact Nat.lt_succ_of_lt (h.fresh j u hu)
  base_le := by
    have hroom := (room_of_admitted hadmitted).1
    have hle := h.base_le
    rw [Slots.occupy_baseInFlight]
    split
    next hslot => exact hroom hslot
    next => omega
  burst_le := by
    have hroom := (room_of_admitted hadmitted).2
    have hle := h.burst_le
    rw [Slots.occupy_burstInFlight]
    split
    next hslot => exact hroom hslot
    next => omega
  owned := by
    intro j u hu hentry
    rw [OrderedMap.get?_set] at hu
    rw [occupy_owner]
    split at hu
    next =>
      obtain rfl := Option.some.inj hu
      have haction : action.purpose = .entry := hentry
      rw [if_pos haction]
      rfl
    next =>
      have howner := h.owned j u hu hentry
      split
      next haction => rw [owner_of_admitted hadmitted haction howner]
      next => exact howner

/-- A release leaves the entries in flight to their attempt. -/
theorem release (h : SlotLaw cfg slots tasks nextTask) (ht : tasks.get? i = some t) :
    SlotLaw cfg (slots.release t.action t.slot) (tasks.delete i) nextTask where
  counted := h.counted.release ht
  fresh := by
    intro j u hu
    rw [OrderedMap.get?_delete] at hu
    split at hu
    next => cases hu
    next => exact h.fresh j u hu
  base_le := by
    have hle := h.base_le
    rw [Slots.release_baseInFlight]
    omega
  burst_le := by
    have hle := h.burst_le
    rw [Slots.release_burstInFlight]
    omega
  owned := by
    intro j u hu hentry
    have hleft : (slots.release t.action t.slot).entryInFlight ≠ 0 := by
      rw [(h.counted.release ht).entry]
      refine Nat.pos_iff_ne_zero.mp (OrderedMap.tally_pos_iff.mpr ⟨j, u, hu, ?_⟩)
      rw [entryWeight, if_pos hentry]
      exact Nat.one_pos
    rw [release_owner _ _ hleft]
    rw [OrderedMap.get?_delete] at hu
    split at hu
    next => cases hu
    next => exact h.owned j u hu hentry

theorem sameSlots (h : SlotLaw cfg m.slots m.tasks m.nextTask) (hsame : SameSlots m m') :
    SlotLaw cfg m'.slots m'.tasks m'.nextTask := by
  rw [hsame.slots, hsame.nextTask]
  rcases hsame.tasks with htasks | ⟨i, t, t', ht, haction, hslot, htasks⟩
  · rw [htasks]
    exact h
  · rw [htasks]
    exact h.setTask ht haction hslot

theorem pumpFrom (w : World) (queue : List QueuedAction)
    (h : SlotLaw cfg m.slots m.tasks m.nextTask) :
    SlotLaw cfg (OrderManager.pumpFrom cfg w queue m).slots
      (OrderManager.pumpFrom cfg w queue m).tasks
      (OrderManager.pumpFrom cfg w queue m).nextTask := by
  induction queue generalizing m with
  | nil => exact h
  | cons q rest ih =>
    rw [OrderManager.pumpFrom]
    split
    next => exact h
    next =>
      split
      next => exact h
      next slot hadmitted =>
        split
        next b reason _ =>
          apply ih
          have hblock := sameLegs_block { m with book := b } q.action reason
          rw [hblock.slots, hblock.tasks, hblock.nextTask]
          exact h
        next => exact ih (h.start hadmitted)

theorem step {label : Label} (h : SlotLaw cfg m.slots m.tasks m.nextTask)
    (hstep : m.step cfg label = some m') : SlotLaw cfg m'.slots m'.tasks m'.nextTask := by
  cases step_slotStep hstep with
  | kept hsame => exact h.sameSlots hsame
  | pumped w hsame => exact pumpFrom w _ (h.sameSlots hsame)
  | released w ht hslots htasks hnext =>
    apply pumpFrom
    rw [hslots, htasks, hnext]
    exact h.release ht

theorem create (controls : OrderManagerControls) (day : String) (journal : Journal) :
    SlotLaw cfg (OrderManager.create controls day journal).slots
      (OrderManager.create controls day journal).tasks
      (OrderManager.create controls day journal).nextTask where
  counted := ⟨rfl, rfl, rfl, rfl, rfl, fun _ => rfl⟩
  fresh i t ht := by simp [OrderManager.create] at ht
  base_le := Nat.zero_le _
  burst_le := Nat.zero_le _
  owned i t ht := by simp [OrderManager.create] at ht

end SlotLaw

/-- The executing actions that pass a test. -/
def executing (m : OrderManager) (p : Task → Bool) : Nat := m.tasks.values.countP p

/-- The counters count what is executing, within the limits, and admission follows them. -/
structure SlotsRight (cfg : Config) (m : OrderManager) : Prop where
  base : m.slots.baseInFlight = executing m (·.slot = .base)
  burst : m.slots.burstInFlight = executing m (·.slot = .entryBurst)
  entry : m.slots.entryInFlight = executing m (·.action.purpose = .entry)
  nonEntry : m.slots.nonEntryInFlight = executing m (·.action.purpose ≠ .entry)
  inFlight : m.slots.inFlight = m.tasks.size
  base_le : m.slots.baseInFlight ≤ baseSlots cfg
  oneAttempt : ∀ (i : TaskId) (t : Task), m.tasks.get? i = some t → t.action.purpose = .entry →
    m.slots.entryAttemptInFlight = some t.action.attemptId
  noAttempt : executing m (·.action.purpose = .entry) = 0 → m.slots.entryAttemptInFlight = none
  entry_le : executing m (·.action.purpose = .entry) ≤ max (baseSlots cfg) (burstWidth cfg)
  refused : ∀ (q : QueuedAction) (rest : List QueuedAction) (reason : String),
    m.queue = q :: rest → q.action.purpose ≠ .entry →
      verdict cfg m.slots q.action = .error reason →
        executing m (·.slot = .base) = baseSlots cfg

theorem tally_eq_countP {tasks : OrderedMap TaskId Task} (p : Task → Bool) (f : Task → Nat)
    (hf : ∀ t, f t = if p t then 1 else 0) :
    tasks.tally (fun _ => f) = tasks.values.countP p := by
  rw [OrderedMap.tally, OrderedMap.values]
  induction tasks.entries with
  | nil => rfl
  | cons e es ih =>
    rw [List.map_cons, List.sum_cons, ih, hf, List.map_cons, List.countP_cons]
    omega

theorem SlotLaw.right {cfg : Config} {m : OrderManager}
    (h : SlotLaw cfg m.slots m.tasks m.nextTask) : SlotsRight cfg m := by
  have hbase : m.slots.baseInFlight = executing m (·.slot = .base) :=
    h.counted.base.trans (tally_eq_countP _ _ fun t => by simp [baseWeight])
  have hburst : m.slots.burstInFlight = executing m (·.slot = .entryBurst) :=
    h.counted.burst.trans (tally_eq_countP _ _ fun t => by simp [burstWeight])
  have hentry : m.slots.entryInFlight = executing m (·.action.purpose = .entry) :=
    h.counted.entry.trans (tally_eq_countP _ _ fun t => by simp [entryWeight])
  have hnonEntry : m.slots.nonEntryInFlight = executing m (·.action.purpose ≠ .entry) :=
    h.counted.nonEntry.trans (tally_eq_countP _ _ fun t => by
      by_cases hp : t.action.purpose = .entry <;> simp [nonEntryWeight, hp])
  have hin : m.slots.inFlight = m.tasks.size := by
    rw [h.counted.inFlight, tally_eq_countP (fun _ => true) (fun _ => 1) fun _ => rfl]
    simp [OrderedMap.values, OrderedMap.size]
  -- Every action holds a slot, so the entries are no more than the two kinds together.
  have hheld : executing m (·.action.purpose = .entry) ≤
      executing m (·.slot = .base) + executing m (·.slot = .entryBurst) := by
    have htotal : executing m (·.slot = .base) + executing m (·.slot = .entryBurst) =
        m.tasks.values.length := by
      rw [executing, executing, List.length_eq_countP_add_countP (·.slot = .base)]
      congr 2
      funext t
      cases t.slot <;> rfl
    rw [htotal]
    exact List.countP_le_length
  exact {
    base := hbase
    burst := hburst
    entry := hentry
    nonEntry := hnonEntry
    inFlight := hin
    base_le := h.base_le
    oneAttempt := h.owned
    noAttempt := fun hnone => h.counted.attempt (hentry.trans hnone)
    entry_le := by
      have hb := h.base_le
      have hu := h.burst_le
      rw [hbase] at hb
      rw [hburst] at hu
      omega
    refused := by
      intro q rest reason _ hother hrefused
      have hfull : baseSlots cfg ≤ m.slots.baseInFlight := full_of_refused hother hrefused
      have hb := h.base_le
      omega }

/-- In every state of a run the counters of the slots are right. -/
theorem scheduling_slots (cfg : Config) (controls : OrderManagerControls) (day : String)
    (journal : Journal) (labels : List Label) :
    Throughout (OrderManager.step cfg) (SlotsRight cfg)
      (OrderManager.create controls day journal) labels :=
  Throughout.mono (fun _ h => h.right)
    (Throughout.of_invariant (I := fun m => SlotLaw cfg m.slots m.tasks m.nextTask)
      (fun _ _ _ h hstep => h.step hstep) (SlotLaw.create controls day journal))

end Strikedge.Orders
