import Strikedge.Machine.Tally
import Strikedge.Orders.HedgeFirst

/-!
# The hedge-first barrier

A dependent leg is parked until the hedges of its attempt have decided. A rank decides
when its action is refused at submission or settles, but not when the pump refuses it, and
a gate is dropped as soon as the ranks registered so far have decided, so that the legs
registered after that wait for a hedge their new gate never hears of. Where no dependent
leg arrives at such a gate, a parked leg always has a hedge that is queued or executing.
-/

namespace Strikedge.Orders

open Machine OrderManager

/-- The action carries the hedge leg of a rank of an attempt. -/
def Action.IsHedge (action : Action) (attempt : AttemptId) (rank : Nat) : Prop :=
  ∃ request guard, action.leg = some (request, guard) ∧ request.attemptId = attempt ∧
    guard.transportRank = rank ∧ guard.hedge = true

/-- The action carries a dependent leg of an attempt. -/
def Action.IsDependent (action : Action) (attempt : AttemptId) : Prop :=
  ∃ request guard, action.leg = some (request, guard) ∧ request.attemptId = attempt ∧
    guard.hedge = false

/-- The hedge of a rank is in the queue or executing. -/
def HedgePending (queue : List QueuedAction) (tasks : OrderedMap TaskId Task)
    (attempt : AttemptId) (rank : Nat) : Prop :=
  (∃ q ∈ queue, q.action.IsHedge attempt rank) ∨
    ∃ i t, tasks.get? i = some t ∧ t.phase ≠ .settled ∧ t.action.IsHedge attempt rank

/-- No leg is stranded: an attempt with a parked leg has an undecided hedge that is queued
or executing, and once everything in flight is parked, nothing is in flight. -/
structure NothingStranded (m : OrderManager) : Prop where
  parked : ∀ attempt g, m.gates.get? attempt = some g → g.waiters ≠ [] →
    ∃ rank < g.hedgeCount, g.decided.has rank = false ∧
      HedgePending m.queue m.tasks attempt rank
  idle : (∀ i t, m.tasks.get? i = some t → m.gates.parked i = true) →
    (∀ attempt g, m.gates.get? attempt = some g → g.waiters = []) ∧
      (∀ i, m.tasks.get? i = none) ∧ m.slots = {}

def Event.isBlocked (attempt : AttemptId) (rank : Nat) : Event → Bool
  | .blocked request guard => request.attemptId = attempt && guard.transportRank = rank
  | _ => false

def Event.registersDependent (attempt : AttemptId) : Event → Bool
  | .registered request guard => request.attemptId = attempt && !guard.hedge
  | _ => false

/-- The pump has refused the leg of a rank. -/
def pumpRefused (history : List Event) (attempt : AttemptId) (rank : Nat) : Bool :=
  history.any (Event.isBlocked attempt rank)

/-- A leg that may be submitted: planned, and a hedge only while no dependent leg of its
attempt has been submitted. This is the order the gateway submits in. -/
def InHedgeOrder (plans : EntryPlans) (history : List Event) (request : BrokerOrderRequest)
    (guard : LiveEntryTransportGuard) : Prop :=
  plans.Planned request guard ∧ request.purpose = .entry ∧
    (guard.hedge = true → history.any (Event.registersDependent request.attemptId) = false)

/-- The gate of an attempt, if there is one, knows every hedge, and the pump has refused
none of them. -/
def HedgesAlive (gates : EntryTransportGates) (history : List Event)
    (request : BrokerOrderRequest) (guard : LiveEntryTransportGuard) : Prop :=
  guard.hedge = false → ∀ g ∈ gates.get? request.attemptId, ∀ rank < g.hedgeCount,
    rank ∈ g.registered ∧ pumpRefused history request.attemptId rank = false

/-- The leg that a label takes to the barrier. -/
def OrderManager.arriving (cfg : Config) (m : OrderManager) :
    Label → Option (BrokerOrderRequest × LiveEntryTransportGuard)
  | .resume w (.action i) => arrivingLeg cfg w m i
  | _ => none

/-- Legs are submitted in order, and a dependent leg arrives at the barrier only where its
hedges are alive. -/
def BarrierCondition (cfg : Config) (plans : EntryPlans) (m : OrderManager) (label : Label) :
    Prop :=
  (∀ leg ∈ label.leg, InHedgeOrder plans m.history leg.1 leg.2) ∧
    ∀ leg ∈ m.arriving cfg label, HedgesAlive m.gates m.history leg.1 leg.2

instance (plans : EntryPlans) (history : List Event) (request : BrokerOrderRequest)
    (guard : LiveEntryTransportGuard) : Decidable (InHedgeOrder plans history request guard) :=
  inferInstanceAs (Decidable (_ ∧ _ ∧ _))

instance (gates : EntryTransportGates) (history : List Event) (request : BrokerOrderRequest)
    (guard : LiveEntryTransportGuard) : Decidable (HedgesAlive gates history request guard) :=
  inferInstanceAs (Decidable (_ → ∀ g ∈ gates.get? request.attemptId, ∀ rank < g.hedgeCount, _))

instance (cfg : Config) (plans : EntryPlans) (m : OrderManager) (label : Label) :
    Decidable (BarrierCondition cfg plans m label) :=
  inferInstanceAs (Decidable (_ ∧ _))

/-- The first action carries a hedge of the attempt that the second is a dependent leg of. -/
def HedgeBefore (a b : Action) : Prop :=
  ∃ attempt rank, a.IsHedge attempt rank ∧ b.IsDependent attempt

/-- What the history tells about the leg of an action. -/
def KnownLeg (plans : EntryPlans) (history : List Event) (action : Action) : Prop :=
  ∀ request guard, action.leg = some (request, guard) → plans.Planned request guard ∧
    request.purpose = .entry ∧ Event.registered request guard ∈ history

/-- The hedges of an attempt go through the queue before its dependent legs. -/
structure QueueInOrder (plans : EntryPlans) (m : OrderManager) : Prop where
  sorted : m.queue.Pairwise QueuedAction.before
  sequences : ∀ q ∈ m.queue, q.sequence < m.sequence
  queued : ∀ q ∈ m.queue, KnownLeg plans m.history q.action
  flying : ∀ i t, m.tasks.get? i = some t → KnownLeg plans m.history t.action
  fresh : ∀ i t, m.tasks.get? i = some t → i < m.nextTask
  hedgeFirst : ∀ q ∈ m.queue, ∀ q' ∈ m.queue, HedgeBefore q.action q'.action →
    q.sequence < q'.sequence
  ahead : ∀ q ∈ m.queue, ∀ i t, m.tasks.get? i = some t → ¬HedgeBefore q.action t.action

section Queue

variable {cfg : Config} {plans : EntryPlans} {m : OrderManager} {action : Action}
variable {request : BrokerOrderRequest} {guard : LiveEntryTransportGuard}
variable {history history' : List Event}

theorem KnownLeg.mono (h : KnownLeg plans history action) (hsub : history ⊆ history') :
    KnownLeg plans history' action := by
  intro request guard hleg
  obtain ⟨hplanned, hpurpose, hmem⟩ := h request guard hleg
  exact ⟨hplanned, hpurpose, hsub hmem⟩

theorem KnownLeg.purpose (h : KnownLeg plans history action) {leg}
    (hleg : action.leg = some leg) : action.purpose = .entry := by
  cases action with
  | submit request capital entry =>
      obtain ⟨guard, hguard, rfl⟩ := Option.map_eq_some_iff.mp hleg
      exact (h request guard hleg).2.1
  | cancel intent => cases hleg

/-- A dependent leg that the history knows keeps later hedges of its attempt out. -/
theorem KnownLeg.dependent_registered {attempt : AttemptId}
    (h : KnownLeg plans history action) (hdependent : action.IsDependent attempt) :
    history.any (Event.registersDependent attempt) = true := by
  obtain ⟨request, guard, hleg, rfl, hhedge⟩ := hdependent
  refine List.any_eq_true.mpr ⟨_, (h request guard hleg).2.2, ?_⟩
  simp [Event.registersDependent, hhedge]

theorem not_hedgeBefore_self : ¬HedgeBefore action action := by
  rintro ⟨attempt, rank, ⟨request, guard, hleg, -, -, hhedge⟩, request', guard', hleg', -,
    hhedge'⟩
  rw [hleg] at hleg'
  cases hleg'
  rw [hhedge] at hhedge'
  cases hhedge'

/-- Among entry legs the queue goes by sequence. -/
theorem sequence_le_of_before {q q' : QueuedAction} (h : q.before q')
    (hpurpose : q.action.purpose = q'.action.purpose) : q.sequence ≤ q'.sequence := by
  rcases h with hlt | ⟨-, hle⟩
  · rw [hpurpose] at hlt
    omega
  · exact hle

/-- Nothing behind the head of the queue is a hedge of the head's attempt, when the head
is a dependent leg. -/
theorem QueueInOrder.head_last (h : QueueInOrder plans m) {q q' : QueuedAction}
    {rest : List QueuedAction} (hq : m.queue = q :: rest) (hq' : q' ∈ rest) :
    ¬HedgeBefore q'.action q.action := by
  intro hbefore
  have hmem : q ∈ m.queue := hq ▸ List.mem_cons_self
  have hmem' : q' ∈ m.queue := hq ▸ List.mem_cons_of_mem q hq'
  have hlt := h.hedgeFirst q' hmem' q hmem hbefore
  have hsorted := List.rel_of_pairwise_cons (hq ▸ h.sorted) hq'
  obtain ⟨attempt, rank, ⟨request, guard, hleg, -⟩, request', guard', hleg', -⟩ := hbefore
  have hpurpose := (h.queued q hmem).purpose hleg'
  have hpurpose' := (h.queued q' hmem').purpose hleg
  have hle := sequence_le_of_before hsorted (hpurpose.trans hpurpose'.symm)
  omega

theorem QueueInOrder.frame {m' : OrderManager} (hsame : SameLegs m m')
    (h : QueueInOrder plans m) : QueueInOrder plans m' where
  sorted := hsame.queue ▸ h.sorted
  sequences := hsame.queue ▸ hsame.sequence ▸ h.sequences
  queued := hsame.queue ▸ hsame.history ▸ h.queued
  flying := hsame.tasks ▸ hsame.history ▸ h.flying
  fresh := hsame.tasks ▸ hsame.nextTask ▸ h.fresh
  hedgeFirst := hsame.queue ▸ h.hedgeFirst
  ahead := hsame.queue ▸ hsame.tasks ▸ h.ahead

/-- Gates may change at will and the history may grow. -/
theorem QueueInOrder.grow (h : QueueInOrder plans m) (gates : EntryTransportGates)
    (events : List Event) :
    QueueInOrder plans { m with gates := gates, history := events ++ m.history } where
  sorted := h.sorted
  sequences := h.sequences
  queued q hq := (h.queued q hq).mono (List.subset_append_right _ _)
  flying i t ht := (h.flying i t ht).mono (List.subset_append_right _ _)
  fresh := h.fresh
  hedgeFirst := h.hedgeFirst
  ahead := h.ahead

/-- An action goes on. -/
theorem QueueInOrder.setTask (h : QueueInOrder plans m) {i : TaskId} {t t' : Task}
    (ht : m.tasks.get? i = some t) (haction : t'.action = t.action) :
    QueueInOrder plans (m.setTask i t') := by
  have htask : ∀ j u, (m.setTask i t').tasks.get? j = some u →
      ∃ v, m.tasks.get? j = some v ∧ u.action = v.action := by
    intro j u hu
    rw [OrderManager.setTask, OrderedMap.get?_set] at hu
    by_cases hj : j = i
    · rw [if_pos hj] at hu
      obtain rfl := Option.some.inj hu
      exact ⟨t, hj ▸ ht, haction⟩
    · rw [if_neg hj] at hu
      exact ⟨u, hu, rfl⟩
  exact
    { sorted := h.sorted
      sequences := h.sequences
      queued := h.queued
      flying := fun j u hu => by
        obtain ⟨v, hv, hsame⟩ := htask j u hu
        rw [hsame]
        exact h.flying j v hv
      fresh := fun j u hu => by
        obtain ⟨v, hv, -⟩ := htask j u hu
        exact h.fresh j v hv
      hedgeFirst := h.hedgeFirst
      ahead := fun q hq j u hu => by
        obtain ⟨v, hv, hsame⟩ := htask j u hu
        rw [hsame]
        exact h.ahead q hq j v hv }

/-- The queue loses its head. -/
theorem QueueInOrder.tail (h : QueueInOrder plans m) {q : QueuedAction}
    {rest : List QueuedAction} (hq : m.queue = q :: rest) :
    QueueInOrder plans { m with queue := rest } := by
  have hsub : ∀ q' ∈ rest, q' ∈ m.queue := fun q' hq' => hq ▸ List.mem_cons_of_mem q hq'
  exact
    { sorted := (List.pairwise_cons.mp (hq ▸ h.sorted)).2
      sequences := fun q' hq' => h.sequences q' (hsub q' hq')
      queued := fun q' hq' => h.queued q' (hsub q' hq')
      flying := h.flying
      fresh := h.fresh
      hedgeFirst := fun a ha b hb => h.hedgeFirst a (hsub a ha) b (hsub b hb)
      ahead := fun q' hq' => h.ahead q' (hsub q' hq') }

theorem mem_sortQueue {queue : List QueuedAction} {q : QueuedAction} :
    q ∈ sortQueue queue ↔ q ∈ queue := List.mem_insertionSort _

theorem sortQueue_sorted (queue : List QueuedAction) :
    (sortQueue queue).Pairwise QueuedAction.before := by
  have : Std.Total QueuedAction.before := ⟨fun a b => by
    simp only [QueuedAction.before]
    omega⟩
  have : IsTrans QueuedAction QueuedAction.before := ⟨fun a b c => by
    simp only [QueuedAction.before]
    omega⟩
  exact List.pairwise_insertionSort _ queue

/-- Registering only adds to the gates and the history. -/
theorem register_grows (cfg : Config) (m : OrderManager) (action : Action) :
    ∃ gates events, m.register cfg action =
        { m with gates := gates, history := events ++ m.history } ∧
      ∀ request guard, action.leg = some (request, guard) →
        Event.registered request guard ∈ events := by
  rw [register]
  cases action.leg with
  | none => exact ⟨m.gates, [], rfl, by simp⟩
  | some leg =>
      refine ⟨_, [.registered leg.1 leg.2], rfl, fun request guard hleg => ?_⟩
      cases hleg
      exact List.mem_singleton_self _

/-- A hedge that may be submitted is not behind a dependent leg of its attempt. -/
theorem not_hedgeBefore_submitted {b : Action}
    (hok : ∀ request guard, action.leg = some (request, guard) →
      InHedgeOrder plans history request guard)
    (hb : KnownLeg plans history b) : ¬HedgeBefore action b := by
  rintro ⟨attempt, rank, ⟨request, guard, hleg, rfl, -, hhedge⟩, hdependent⟩
  have hfirst := (hok request guard hleg).2.2 hhedge
  rw [hb.dependent_registered hdependent] at hfirst
  cases hfirst

theorem QueueInOrder.accepted (h : QueueInOrder plans m)
    (hok : ∀ request guard, action.leg = some (request, guard) →
      InHedgeOrder plans m.history request guard) :
    QueueInOrder plans { m.register cfg action with
      queue := sortQueue (m.queue ++ [{ action := action, sequence := m.sequence }])
      sequence := m.sequence + 1 } := by
  obtain ⟨gates, events, heq, hregistered⟩ := register_grows cfg m action
  have hgrown := h.grow gates events
  have hmem : ∀ q ∈ sortQueue (m.queue ++ [{ action := action, sequence := m.sequence }]),
      q ∈ m.queue ∨ q = { action := action, sequence := m.sequence } := by
    intro q hq
    rw [mem_sortQueue, List.mem_append, List.mem_singleton] at hq
    exact hq
  rw [heq]
  exact
    { sorted := sortQueue_sorted _
      sequences := fun q hq => by
        rcases hmem q hq with hold | rfl
        · exact Nat.lt_succ_of_lt (h.sequences q hold)
        · exact Nat.lt_succ_self _
      queued := fun q hq => by
        rcases hmem q hq with hold | rfl
        · exact hgrown.queued q hold
        · intro request guard hleg
          obtain ⟨hplanned, hpurpose, -⟩ := hok request guard hleg
          exact ⟨hplanned, hpurpose, List.mem_append_left _ (hregistered request guard hleg)⟩
      flying := hgrown.flying
      fresh := h.fresh
      hedgeFirst := fun q hq q' hq' hbefore => by
        rcases hmem q hq with hold | rfl
        · rcases hmem q' hq' with hold' | rfl
          · exact h.hedgeFirst q hold q' hold' hbefore
          · exact h.sequences q hold
        · rcases hmem q' hq' with hold' | rfl
          · exact absurd hbefore (not_hedgeBefore_submitted hok (h.queued q' hold'))
          · exact absurd hbefore not_hedgeBefore_self
      ahead := fun q hq i t ht => by
        rcases hmem q hq with hold | rfl
        · exact h.ahead q hold i t ht
        · exact not_hedgeBefore_submitted hok (h.flying i t ht) }

theorem QueueInOrder.started (h : QueueInOrder plans m) {q : QueuedAction}
    {rest : List QueuedAction} (slot : BoxSchedulingSlot) (hq : m.queue = q :: rest) :
    QueueInOrder plans ({ m with queue := rest }.start cfg q.action slot) := by
  have htail := h.tail hq
  have htask : ∀ j u, ({ m with queue := rest }.start cfg q.action slot).tasks.get? j = some u →
      j = m.nextTask ∧ u.action = q.action ∨ m.tasks.get? j = some u := by
    intro j u hu
    simp only [start, OrderedMap.get?_set] at hu
    by_cases hj : j = m.nextTask
    · rw [if_pos hj] at hu
      obtain rfl := Option.some.inj hu
      exact .inl ⟨hj, rfl⟩
    · rw [if_neg hj] at hu
      exact .inr hu
  exact
    { sorted := htail.sorted
      sequences := htail.sequences
      queued := htail.queued
      flying := fun j u hu => by
        rcases htask j u hu with ⟨-, hsame⟩ | hold
        · rw [hsame]
          exact h.queued q (hq ▸ List.mem_cons_self)
        · exact h.flying j u hold
      fresh := fun j u hu => by
        rcases htask j u hu with ⟨rfl, -⟩ | hold
        · exact Nat.lt_succ_self _
        · exact Nat.lt_succ_of_lt (h.fresh j u hold)
      hedgeFirst := htail.hedgeFirst
      ahead := fun q' hq' j u hu => by
        rcases htask j u hu with ⟨-, hsame⟩ | hold
        · rw [hsame]
          exact h.head_last hq hq'
        · exact htail.ahead q' hq' j u hold }

theorem QueueInOrder.deleted (h : QueueInOrder plans m) (i : TaskId) (slots : Slots) :
    QueueInOrder plans { m with slots := slots, tasks := m.tasks.delete i } := by
  have htask : ∀ j u, (m.tasks.delete i).get? j = some u → m.tasks.get? j = some u := by
    intro j u hu
    rw [OrderedMap.get?_delete] at hu
    by_cases hj : j = i
    · rw [if_pos hj] at hu
      cases hu
    · rwa [if_neg hj] at hu
  exact
    { sorted := h.sorted
      sequences := h.sequences
      queued := h.queued
      flying := fun j u hu => h.flying j u (htask j u hu)
      fresh := fun j u hu => h.fresh j u (htask j u hu)
      hedgeFirst := h.hedgeFirst
      ahead := fun q hq j u hu => h.ahead q hq j u (htask j u hu) }

theorem QueueInOrder.settleRank (h : QueueInOrder plans m) (t : Task) :
    QueueInOrder plans (m.settleRank cfg t) := by
  rw [OrderManager.settleRank]
  cases t.action.leg with
  | none => exact h
  | some leg => exact h.grow _ [_]

theorem queueInOrder_legInvariant (cfg : Config) (plans : EntryPlans) :
    LegInvariant cfg (InHedgeOrder plans) HedgesAlive (QueueInOrder plans) where
  frame _ _ hsame h := h.frame hsame
  rejected _ request guard _ _ h :=
    h.grow _ [.decided request guard .noPost none, .registered request guard]
  accepted _ _ hok h := h.accepted hok
  blocked m _ _ hq h := (h.tail hq).grow m.gates _
  started _ _ _ slot hq h := h.started slot hq
  advanced _ _ _ _ ht _ _ haction _ _ _ h := h.setTask ht haction
  arrived _ _ _ _ _ _ ht _ _ haction _ _ _ _ h := (h.setTask ht haction).grow _ []
  settled _ _ _ t' ht _ _ haction _ _ h := (h.setTask ht haction).settleRank t'
  claimed _ _ _ _ _ _ ht _ haction _ _ _ h := (h.setTask ht haction).grow _ []
  posted _ _ _ _ request guard ht _ haction _ _ _ _ h :=
    (h.setTask ht haction).grow _ [.posted request guard]
  released _ i _ _ _ h := h.deleted i _
  disposed _ h :=
    { sorted := .nil
      sequences := fun _ hq => absurd hq List.not_mem_nil
      queued := fun _ hq => absurd hq List.not_mem_nil
      flying := h.flying
      fresh := h.fresh
      hedgeFirst := fun _ hq => absurd hq List.not_mem_nil
      ahead := fun _ hq => absurd hq List.not_mem_nil }

end Queue

@[simp] theorem pumpRefused_cons {event : Event} {history : List Event} {attempt : AttemptId}
    {rank : Nat} : pumpRefused (event :: history) attempt rank =
      (event.isBlocked attempt rank || pumpRefused history attempt rank) := by
  simp [pumpRefused]

/-- What holds of the gate of an attempt. `due` is the rank that is about to decide. -/
structure GateAlive (due : Option Nat) (plan : EntryPlan) (attempt : AttemptId)
    (queue : List QueuedAction) (tasks : OrderedMap TaskId Task) (history : List Event)
    (g : EntryTransportGate) : Prop where
  hedgeCount : g.hedgeCount = plan.hedgeCount
  /-- a parked leg is a dependent leg of the attempt, suspended at the barrier -/
  waiting : ∀ rank i, (rank, i) ∈ g.waiters → ∃ t, tasks.get? i = some t ∧
    t.phase = .turn ∧ t.action.IsDependent attempt
  /-- a hedge that has registered decides sooner or later, unless the pump refuses it -/
  accounted : ∀ rank ∈ g.registered, rank < g.hedgeCount → due ≠ some rank →
    g.decided.has rank = true ∨ HedgePending queue tasks attempt rank ∨
      pumpRefused history attempt rank = true
  /-- a leg is parked only where its hedges are alive -/
  alive : g.waiters ≠ [] → ∀ rank < g.hedgeCount, rank ∈ g.registered ∧
    pumpRefused history attempt rank = false
  undecided : g.waiters ≠ [] → ∃ rank < g.hedgeCount, g.decided.has rank = false

section Gate

variable {account : String} {plans : EntryPlans} {plan : EntryPlan} {attempt : AttemptId}
variable {queue queue' : List QueuedAction} {tasks tasks' : OrderedMap TaskId Task}
variable {history history' : List Event} {g : EntryTransportGate} {due : Option Nat}
variable {request : BrokerOrderRequest} {guard : LiveEntryTransportGuard}
variable {i : TaskId} {t t' : Task} {rank : Nat}

theorem HedgePending.setTask (h : HedgePending queue tasks attempt rank)
    (ht : tasks.get? i = some t) (haction : t'.action = t.action)
    (hkept : t'.phase ≠ .settled ∨ ¬t.action.IsHedge attempt rank) :
    HedgePending queue (tasks.set i t') attempt rank := by
  rcases h with hqueue | ⟨j, u, hu, hphase, hhedge⟩
  · exact .inl hqueue
  · by_cases hj : j = i
    · subst hj
      obtain rfl := Option.some.inj (ht.symm.trans hu)
      refine .inr ⟨j, t', by simp, ?_, haction ▸ hhedge⟩
      exact hkept.resolve_right fun hnot => hnot hhedge
    · refine .inr ⟨j, u, ?_, hphase, hhedge⟩
      rw [OrderedMap.get?_set, if_neg hj]
      exact hu

theorem not_isHedge_of_leg {action : Action} (hleg : action.leg = some (request, guard))
    (hne : attempt ≠ request.attemptId ∨ rank ≠ guard.transportRank) :
    ¬action.IsHedge attempt rank := by
  rintro ⟨request', guard', hleg', hattempt, hrank, -⟩
  rw [hleg] at hleg'
  cases hleg'
  rcases hne with hne | hne
  · exact hne hattempt.symm
  · exact hne hrank.symm

/-- The surroundings of a gate change. -/
theorem GateAlive.transfer {due' : Option Nat}
    (h : GateAlive due plan attempt queue tasks history g)
    (hwaiting : ∀ rank i t, (rank, i) ∈ g.waiters → tasks.get? i = some t →
      t.phase = .turn → tasks'.get? i = some t)
    (hpending : ∀ rank, HedgePending queue tasks attempt rank →
      HedgePending queue' tasks' attempt rank ∨ pumpRefused history' attempt rank = true ∨
        due' = some rank)
    (hdue : ∀ rank, due = some rank → due' = some rank)
    (hrefused : ∀ rank, pumpRefused history attempt rank = true →
      pumpRefused history' attempt rank = true)
    (hkept : g.waiters ≠ [] → ∀ rank < g.hedgeCount,
      pumpRefused history attempt rank = false → pumpRefused history' attempt rank = false) :
    GateAlive due' plan attempt queue' tasks' history' g where
  hedgeCount := h.hedgeCount
  waiting rank i hmem := by
    obtain ⟨t, ht, hphase, hdependent⟩ := h.waiting rank i hmem
    exact ⟨t, hwaiting rank i t hmem ht hphase, hphase, hdependent⟩
  accounted rank hrank hlt hnot := by
    have hnot' : due ≠ some rank := fun hd => hnot (hdue rank hd)
    rcases h.accounted rank hrank hlt hnot' with hdecided | hpend | href
    · exact .inl hdecided
    · rcases hpending rank hpend with hp | hr | hd
      · exact .inr (.inl hp)
      · exact .inr (.inr hr)
      · exact absurd hd hnot
    · exact .inr (.inr (hrefused rank href))
  alive hne rank hlt := by
    obtain ⟨hregistered, hnot⟩ := h.alive hne rank hlt
    exact ⟨hregistered, hkept hne rank hlt hnot⟩
  undecided := h.undecided

/-- The history grows without a refusal of the pump. -/
theorem GateAlive.grow (h : GateAlive due plan attempt queue tasks history g)
    (hsame : ∀ rank, pumpRefused history' attempt rank = pumpRefused history attempt rank) :
    GateAlive due plan attempt queue tasks history' g :=
  h.transfer (fun _ _ _ _ ht _ => ht) (fun _ hp => .inl hp) (fun _ hd => hd)
    (fun rank hr => (hsame rank).trans hr) fun _ rank _ hr => (hsame rank).trans hr

theorem GateAlive.create (hplanned : plans.Planned request guard) :
    GateAlive due (plans request.attemptId) request.attemptId queue tasks history
      (EntryTransportGate.create request.attemptId guard) where
  hedgeCount := (plans request.attemptId).counts _ hplanned
  waiting _ _ hmem := absurd hmem List.not_mem_nil
  accounted _ hmem := absurd hmem List.not_mem_nil
  alive hne := absurd rfl hne
  undecided hne := absurd rfl hne

/-- A planned leg registers: its rank is due, or its hedge is pending. -/
theorem GateAlive.register
    (h : GateAlive due (plans request.attemptId) request.attemptId queue tasks history g)
    (hplanned : plans.Planned request guard)
    (hpending : guard.hedge = true → due = some guard.transportRank ∨
      HedgePending queue tasks request.attemptId guard.transportRank) :
    GateAlive due (plans request.attemptId) request.attemptId queue tasks history
      (g.register account request guard) := by
  have hplan := (plans request.attemptId).counts _ hplanned
  have hcount : (g.register account request guard).hedgeCount = g.hedgeCount := by
    show max g.hedgeCount guard.hedgeCount = g.hedgeCount
    rw [h.hedgeCount, hplan, Nat.max_self]
  exact
    { hedgeCount := hcount.trans h.hedgeCount
      waiting := h.waiting
      accounted := fun rank hmem hlt hnot => by
        rw [hcount] at hlt
        rcases List.mem_insert_iff.mp hmem with rfl | hold
        · rw [h.hedgeCount] at hlt
          have hhedge := ((plans request.attemptId).hedges _ hplanned).mpr hlt
          rcases hpending hhedge with hd | hp
          · exact absurd hd hnot
          · exact .inr (.inl hp)
        · exact h.accounted rank hold hlt hnot
      alive := fun hne rank hlt => by
        obtain ⟨hregistered, hnot⟩ := h.alive hne rank (hcount ▸ hlt)
        exact ⟨List.mem_insert_of_mem hregistered, hnot⟩
      undecided := fun hne => by
        obtain ⟨rank, hlt, hnot⟩ := h.undecided hne
        exact ⟨rank, hcount ▸ hlt, hnot⟩ }

/-- The rank that was due decides, and whoever may go on is woken. -/
theorem GateAlive.recordDecision {outcome : TransportOutcome} {reason : Option String}
    {order : Option BrokerOrder}
    (h : GateAlive (some guard.transportRank) plan attempt queue tasks history g) :
    GateAlive none plan attempt queue tasks history
      (g.recordDecision account request guard outcome reason order) := by
  have hwaiters : ∀ waiter,
      waiter ∈ (g.recordDecision account request guard outcome reason order).waiters →
        waiter ∈ g.waiters :=
    fun waiter hmem => (EntryTransportGate.mem_recordDecision_waiters.mp hmem).1
  exact
    { hedgeCount := h.hedgeCount
      waiting := fun rank i hmem => h.waiting rank i (hwaiters _ hmem)
      accounted := fun rank hmem hlt _ => by
        rw [EntryTransportGate.recordDecision_decided]
        by_cases hrank : rank = guard.transportRank
        · exact .inl (by simp [hrank])
        · have hnot : some guard.transportRank ≠ some rank :=
            fun heq => hrank (Option.some.inj heq).symm
          rcases h.accounted rank hmem hlt hnot with hdecided | hrest
          · exact .inl (by simp [hdecided])
          · exact .inr hrest
      alive := fun hne => by
        obtain ⟨waiter, hmem⟩ := List.exists_mem_of_ne_nil _ hne
        exact h.alive (List.ne_nil_of_mem (hwaiters waiter hmem))
      undecided := fun hne => by
        obtain ⟨waiter, hmem⟩ := List.exists_mem_of_ne_nil _ hne
        have hwait := (EntryTransportGate.mem_recordDecision_waiters.mp hmem).2
        exact (EntryTransportGate.hedgesDecided_eq_false.mp hwait).2 }

/-- A claim changes the ledger only. -/
theorem GateAlive.claim {before : EntryTransportGate}
    (h : GateAlive due plan attempt queue tasks history before)
    (heq : g = { before with coverage := g.coverage }) :
    GateAlive due plan attempt queue tasks history g := by
  rw [heq]
  exact ⟨h.hedgeCount, h.waiting, h.accounted, h.alive, h.undecided⟩

/-- A dependent leg is parked at a gate whose hedges are alive. -/
theorem GateAlive.park (h : GateAlive due plan attempt queue tasks history g)
    (ht : tasks.get? i = some t) (hphase : t.phase = .turn)
    (hdependent : t.action.IsDependent attempt)
    (halive : ∀ rank < g.hedgeCount, rank ∈ g.registered ∧
      pumpRefused history attempt rank = false)
    (hwaits : g.hedgesDecided guard.transportRank = false) :
    GateAlive due plan attempt queue tasks history
      { g with waiters := g.waiters ++ [(guard.transportRank, i)] } where
  hedgeCount := h.hedgeCount
  waiting rank j hmem := by
    rcases List.mem_append.mp hmem with hold | hnew
    · exact h.waiting rank j hold
    · obtain ⟨rfl, rfl⟩ := Prod.mk.inj (List.mem_singleton.mp hnew)
      exact ⟨t, ht, hphase, hdependent⟩
  accounted := h.accounted
  alive _ := halive
  undecided _ := (EntryTransportGate.hedgesDecided_eq_false.mp hwaits).2

end Gate

/-- Every gate is alive. -/
def GatesAlive (plans : EntryPlans) (m : OrderManager) : Prop :=
  ∀ attempt g, m.gates.get? attempt = some g →
    GateAlive none (plans attempt) attempt m.queue m.tasks m.history g

section Gates

variable {cfg : Config} {plans : EntryPlans} {m : OrderManager} {action : Action}
variable {request : BrokerOrderRequest} {guard : LiveEntryTransportGuard}
variable {i : TaskId} {t t' : Task} {attempt : AttemptId} {rank : Nat}

theorem HedgePending.mono {queue queue' : List QueuedAction} {tasks : OrderedMap TaskId Task}
    (h : HedgePending queue tasks attempt rank) (hsub : ∀ q ∈ queue, q ∈ queue') :
    HedgePending queue' tasks attempt rank := by
  rcases h with ⟨q, hq, hhedge⟩ | hflying
  · exact .inl ⟨q, hsub q hq, hhedge⟩
  · exact .inr hflying

theorem GatesAlive.frame {m' : OrderManager} (hsame : SameLegs m m') (h : GatesAlive plans m) :
    GatesAlive plans m' := by
  intro attempt g hg
  rw [hsame.gates] at hg
  rw [hsame.queue, hsame.tasks, hsame.history]
  exact h attempt g hg

theorem gateAlive_registering (h : GatesAlive plans m)
    (hplanned : plans.Planned request guard) :
    GateAlive none (plans request.attemptId) request.attemptId m.queue m.tasks m.history
      (m.gates.registering request guard) := by
  rw [EntryTransportGates.registering]
  cases hgate : m.gates.get? request.attemptId with
  | none => exact .create hplanned
  | some g => exact h _ g hgate

/-- A gate where a rank becomes due. -/
theorem GateAlive.due {plan : EntryPlan} {queue : List QueuedAction}
    {tasks : OrderedMap TaskId Task} {history : List Event} {g : EntryTransportGate}
    (h : GateAlive none plan attempt queue tasks history g) (rank : Nat) :
    GateAlive (some rank) plan attempt queue tasks history g :=
  h.transfer (fun _ _ _ _ ht _ => ht) (fun _ hp => .inl hp) (fun _ hd => by cases hd)
    (fun _ hr => hr) fun _ _ _ hr => hr

theorem GatesAlive.rejected (h : GatesAlive plans m) (reason : String)
    (hplanned : plans.Planned request guard) :
    GatesAlive plans (decideRank cfg
      { m with
        gates := m.gates.ensure cfg.account request guard
        history := .registered request guard :: m.history }
      request guard .noPost (some reason) none) := by
  intro attempt g hg
  have hhistory : ∀ attempt rank, pumpRefused (.decided request guard .noPost none ::
      .registered request guard :: m.history) attempt rank =
      pumpRefused m.history attempt rank := by
    intro attempt rank
    simp [Event.isBlocked]
  rcases EntryTransportGates.decideRank_get hg with ⟨hne, hold⟩ | ⟨rfl, before, hbefore, rfl⟩
  · rw [EntryTransportGates.ensure_get, if_neg hne] at hold
    exact (h attempt g hold).grow (hhistory attempt)
  · rw [EntryTransportGates.ensure_get, if_pos rfl] at hbefore
    obtain rfl := Option.some.inj hbefore
    have hregistering := (gateAlive_registering h hplanned).due guard.transportRank
    have hregistered : GateAlive _ _ _ _ _ _
        ((m.gates.registering request guard).register cfg.account request guard) :=
      hregistering.register hplanned fun _ => .inl rfl
    exact (hregistered.grow (hhistory _)).recordDecision

theorem GatesAlive.accepted (h : GatesAlive plans m)
    (hok : ∀ request guard, action.leg = some (request, guard) →
      InHedgeOrder plans m.history request guard) :
    GatesAlive plans { m.register cfg action with
      queue := sortQueue (m.queue ++ [{ action := action, sequence := m.sequence }])
      sequence := m.sequence + 1 } := by
  have hsub : ∀ q ∈ m.queue,
      q ∈ sortQueue (m.queue ++ [{ action := action, sequence := m.sequence }]) :=
    fun q hq => mem_sortQueue.mpr (List.mem_append_left _ hq)
  have hnew : { action := action, sequence := m.sequence } ∈
      sortQueue (m.queue ++ [{ action := action, sequence := m.sequence }]) :=
    mem_sortQueue.mpr (List.mem_append_right _ (List.mem_singleton_self _))
  have hqueued : ∀ {attempt plan g history'}, (∀ rank, pumpRefused history' attempt rank =
      pumpRefused m.history attempt rank) →
      GateAlive none plan attempt m.queue m.tasks m.history g → GateAlive none plan attempt
      (sortQueue (m.queue ++ [{ action := action, sequence := m.sequence }])) m.tasks
        history' g :=
    fun hsame halive => (halive.grow hsame).transfer (fun _ _ _ _ ht _ => ht)
      (fun _ hp => .inl (hp.mono hsub)) (fun _ hd => hd) (fun _ hr => hr) fun _ _ _ hr => hr
  rw [register]
  cases hleg : action.leg with
  | none => exact fun attempt g hg => hqueued (fun _ => rfl) (h attempt g hg)
  | some leg =>
      obtain ⟨request, guard⟩ := leg
      have hplanned := (hok request guard hleg).1
      have hsame : ∀ attempt rank, pumpRefused (.registered request guard :: m.history) attempt
          rank = pumpRefused m.history attempt rank := by
        intro attempt rank
        simp [Event.isBlocked]
      intro attempt g hg
      rw [EntryTransportGates.ensure_get] at hg
      by_cases hattempt : attempt = request.attemptId
      · rw [if_pos hattempt] at hg
        subst hattempt
        obtain rfl := Option.some.inj hg
        refine (hqueued (hsame _) (gateAlive_registering h hplanned)).register hplanned ?_
        exact fun hhedge => .inr (.inl ⟨_, hnew, request, guard, hleg, rfl, rfl, hhedge⟩)
      · rw [if_neg hattempt] at hg
        exact hqueued (hsame _) (h attempt g hg)

/-- The pump refuses the head of the queue. A dependent leg of the same attempt that is
already parked would have gone through the queue before its hedge. -/
theorem GatesAlive.blocked (h : GatesAlive plans m) (horder : QueueInOrder plans m)
    {q : QueuedAction} {rest : List QueuedAction} (hq : m.queue = q :: rest) :
    GatesAlive plans { m with
      queue := rest
      history := blockedEvents q.action ++ m.history } := by
  intro attempt g hg
  have halive := h attempt g hg
  have hmem : q ∈ m.queue := hq ▸ List.mem_cons_self
  have hrefuses : ∀ attempt rank, q.action.IsHedge attempt rank →
      pumpRefused (blockedEvents q.action ++ m.history) attempt rank = true := by
    rintro attempt rank ⟨request, guard, hleg, rfl, rfl, -⟩
    simp [blockedEvents, hleg, Event.isBlocked]
  refine halive.transfer (fun _ _ _ _ ht _ => ht) ?_ (fun _ hd => hd) ?_ ?_
  · rintro rank (⟨q', hq', hhedge⟩ | hflying)
    · rw [hq] at hq'
      rcases List.mem_cons.mp hq' with rfl | hrest
      · exact .inr (.inl (hrefuses attempt rank hhedge))
      · exact .inl (.inl ⟨q', hrest, hhedge⟩)
    · exact .inl (.inr hflying)
  · intro rank hr
    rw [pumpRefused, List.any_append, ← pumpRefused, ← pumpRefused, hr, Bool.or_true]
  · intro hne rank hlt hnot
    obtain ⟨⟨rank', j⟩, hwaiter⟩ := List.exists_mem_of_ne_nil _ hne
    obtain ⟨t, ht, -, hdependent⟩ := halive.waiting rank' j hwaiter
    cases hleg : q.action.leg with
    | none => simpa [blockedEvents, hleg] using hnot
    | some leg =>
        obtain ⟨request, guard⟩ := leg
        by_cases hmatch : request.attemptId = attempt ∧ guard.transportRank = rank
        · obtain ⟨rfl, rfl⟩ := hmatch
          have hplanned := (horder.queued q hmem request guard hleg).1
          rw [halive.hedgeCount] at hlt
          have hhedge := ((plans request.attemptId).hedges _ hplanned).mpr hlt
          exact absurd ⟨_, _, ⟨request, guard, hleg, rfl, rfl, hhedge⟩, hdependent⟩
            (horder.ahead q hmem j t ht)
        · simp only [blockedEvents, hleg, List.cons_append, List.nil_append, pumpRefused_cons,
            hnot, Bool.or_false, Event.isBlocked, Bool.and_eq_false_iff]
          rw [decide_eq_false_iff_not, decide_eq_false_iff_not]
          exact not_and_or.mp hmatch

theorem startedTask_live {slot : BoxSchedulingSlot} :
    (startedTask cfg action slot).phase ≠ .settled := by
  cases action with
  | submit request capital entry => simp [startedTask]
  | cancel intent => simp [startedTask]

theorem GatesAlive.started (h : GatesAlive plans m) (horder : QueueInOrder plans m)
    {q : QueuedAction} {rest : List QueuedAction} (slot : BoxSchedulingSlot)
    (hq : m.queue = q :: rest) :
    GatesAlive plans ({ m with queue := rest }.start cfg q.action slot) := by
  have hnew : ∀ i t, m.tasks.get? i = some t → i ≠ m.nextTask :=
    fun i t ht => Nat.ne_of_lt (horder.fresh i t ht)
  intro attempt g hg
  refine (h attempt g hg).transfer ?_ ?_ (fun _ hd => hd) (fun _ hr => hr)
    fun _ _ _ hr => hr
  · intro rank i t _ ht _
    rw [start, OrderedMap.get?_set, if_neg (hnew i t ht)]
    exact ht
  · rintro rank (⟨q', hq', hhedge⟩ | ⟨i, t, ht, hphase, hhedge⟩)
    · rw [hq] at hq'
      rcases List.mem_cons.mp hq' with rfl | hrest
      · exact .inl (.inr ⟨m.nextTask, startedTask cfg q'.action slot, by simp [start],
          startedTask_live, hhedge⟩)
      · exact .inl (.inl ⟨q', hrest, hhedge⟩)
    · refine .inl (.inr ⟨i, t, ?_, hphase, hhedge⟩)
      rw [start, OrderedMap.get?_set, if_neg (hnew i t ht)]
      exact ht

/-- Nobody parked is suspended anywhere but at the barrier. -/
theorem GatesAlive.not_waiting (h : GatesAlive plans m) {g : EntryTransportGate}
    (hg : m.gates.get? attempt = some g) (ht : m.tasks.get? i = some t)
    (haway : t.phase = .turn → m.gates.parked i = false) {rank j : Nat}
    (hmem : (rank, j) ∈ g.waiters) : j ≠ i := by
  rintro rfl
  obtain ⟨u, hu, hphase, -⟩ := (h attempt g hg).waiting rank j hmem
  obtain rfl := Option.some.inj (ht.symm.trans hu)
  have hparked : m.gates.parked j = true := by
    refine List.any_eq_true.mpr ⟨g, OrderedMap.mem_values_iff.mpr ⟨attempt, hg⟩, ?_⟩
    exact List.any_eq_true.mpr ⟨(rank, j), hmem, by simp⟩
  rw [haway hphase] at hparked
  cases hparked

/-- An action that is not parked goes on, and its rank becomes due when it settles. -/
theorem GatesAlive.setTask (h : GatesAlive plans m) (ht : m.tasks.get? i = some t)
    (haway : t.phase = .turn → m.gates.parked i = false) (haction : t'.action = t.action)
    {g : EntryTransportGate} (hg : m.gates.get? attempt = some g) {due : Option Nat}
    (hkept : ∀ rank, t'.phase ≠ .settled ∨ ¬t.action.IsHedge attempt rank ∨ due = some rank) :
    GateAlive due (plans attempt) attempt m.queue (m.tasks.set i t') m.history g := by
  refine (h attempt g hg).transfer ?_ ?_ (fun _ hd => by cases hd) (fun _ hr => hr)
    fun _ _ _ hr => hr
  · intro rank j u hmem hu _
    rw [OrderedMap.get?_set, if_neg (h.not_waiting hg ht haway hmem)]
    exact hu
  · intro rank hp
    rcases hkept rank with hlive | hnot | hdue
    · exact .inl (hp.setTask ht haction (.inl hlive))
    · exact .inl (hp.setTask ht haction (.inr hnot))
    · exact .inr (.inr hdue)

theorem GatesAlive.settled (h : GatesAlive plans m) (ht : m.tasks.get? i = some t)
    (haway : t.phase ≠ .turn) (haction : t'.action = t.action) :
    GatesAlive plans ((m.setTask i t').settleRank cfg t') := by
  have hturn : t.phase = .turn → m.gates.parked i = false := fun hp => absurd hp haway
  rw [OrderManager.settleRank]
  cases hleg : t'.action.leg with
  | none =>
      intro attempt g hg
      refine h.setTask ht hturn haction hg fun rank => .inr (.inl ?_)
      rintro ⟨request, guard, hleg', -⟩
      rw [← haction, hleg] at hleg'
      cases hleg'
  | some leg =>
      obtain ⟨request, guard⟩ := leg
      rw [haction] at hleg
      have hhistory : ∀ outcome order attempt rank, pumpRefused (.decided request guard outcome
          order :: m.history) attempt rank = pumpRefused m.history attempt rank := by
        intro outcome order attempt rank
        simp [Event.isBlocked]
      intro attempt g hg
      rcases EntryTransportGates.decideRank_get hg with ⟨hne, hold⟩ |
        ⟨rfl, before, hbefore, rfl⟩
      · refine (h.setTask ht hturn haction hold fun rank => .inr (.inl ?_)).grow
          (hhistory _ _ attempt)
        exact not_isHedge_of_leg hleg (.inl hne)
      · refine ((h.setTask ht hturn haction hbefore fun rank => .inr ?_).grow
          (hhistory _ _ _)).recordDecision
        by_cases hrank : rank = guard.transportRank
        · exact .inr (congrArg some hrank.symm)
        · exact .inl (not_isHedge_of_leg hleg (.inr hrank))

theorem GatesAlive.deleted (h : GatesAlive plans m) (ht : m.tasks.get? i = some t)
    (hphase : t.phase = .settled) (slots : Slots) :
    GatesAlive plans { m with slots := slots, tasks := m.tasks.delete i } := by
  have haway : t.phase = .turn → m.gates.parked i = false := fun hp => by simp [hphase] at hp
  intro attempt g hg
  refine (h attempt g hg).transfer ?_ ?_ (fun _ hd => hd) (fun _ hr => hr)
    fun _ _ _ hr => hr
  · intro rank j u hmem hu _
    rw [OrderedMap.get?_delete, if_neg (h.not_waiting hg ht haway hmem)]
    exact hu
  · rintro rank (hqueue | ⟨j, u, hu, hlive, hhedge⟩)
    · exact .inl (.inl hqueue)
    · refine .inl (.inr ⟨j, u, ?_, hlive, hhedge⟩)
      have hj : j ≠ i := by
        rintro rfl
        obtain rfl := Option.some.inj (ht.symm.trans hu)
        exact hlive hphase
      rw [OrderedMap.get?_delete, if_neg hj]
      exact hu

/-- A dependent leg arrives where its hedges are alive. -/
theorem GatesAlive.arrived (h : GatesAlive plans m) (ht : m.tasks.get? i = some t)
    (haway : t.phase ≠ .turn) (haction : t'.action = t.action) (hphase : t'.phase = .turn)
    (hleg : t'.action.leg = some (request, guard))
    (halive : HedgesAlive m.gates m.history request guard) :
    GatesAlive plans { m.setTask i t' with gates := m.gates.awaitTurn request guard i } := by
  have hturn : t.phase = .turn → m.gates.parked i = false := fun hp => absurd hp haway
  have hlive : t'.phase ≠ .settled := by simp [hphase]
  intro attempt g hg
  rcases EntryTransportGates.awaitTurn_get hg with
    hold | ⟨rfl, before, hbefore, hdependent, hwaits, rfl⟩
  · exact h.setTask ht hturn haction hold fun _ => .inl hlive
  · have hset : GateAlive none _ _ _ _ _ before :=
      h.setTask ht hturn haction hbefore fun _ => .inl hlive
    exact hset.park (by simp) hphase ⟨request, guard, hleg, rfl, hdependent⟩
      (halive hdependent before hbefore) hwaits

theorem GatesAlive.claimed (h : GatesAlive plans m) (ht : m.tasks.get? i = some t)
    (hsending : t.phase = .sending) (haction : t'.action = t.action)
    (hphase : t'.phase = .sending) {history : List Event}
    (hsame : ∀ attempt rank, pumpRefused history attempt rank =
      pumpRefused m.history attempt rank) :
    GatesAlive plans { m.setTask i t' with
      gates := (m.gates.hedgeCoverageGap request guard).1
      history := history } := by
  have hturn : t.phase = .turn → m.gates.parked i = false := fun hp => by
    simp [hsending] at hp
  intro attempt g hg
  obtain ⟨before, hbefore, heq, -⟩ := EntryTransportGates.hedgeCoverageGap_get hg
  have hset : GateAlive none _ _ _ _ _ before :=
    h.setTask ht hturn haction hbefore fun _ => .inl (by simp [hphase])
  exact (hset.claim heq).grow (hsame attempt)

end Gates

/-- How often an action counts in each of the counters. -/
def baseWeight (t : Task) : Nat := if t.slot = .base then 1 else 0

def burstWeight (t : Task) : Nat := if t.slot = .entryBurst then 1 else 0

def entryWeight (t : Task) : Nat := if t.action.purpose = .entry then 1 else 0

def nonEntryWeight (t : Task) : Nat := if t.action.purpose = .entry then 0 else 1

/-- Each counter counts the actions in flight, and no attempt owns the entries when there
are none. -/
structure SlotsCounted (slots : Slots) (tasks : OrderedMap TaskId Task) : Prop where
  inFlight : slots.inFlight = tasks.tally fun _ _ => 1
  base : slots.baseInFlight = tasks.tally fun _ => baseWeight
  burst : slots.burstInFlight = tasks.tally fun _ => burstWeight
  entry : slots.entryInFlight = tasks.tally fun _ => entryWeight
  nonEntry : slots.nonEntryInFlight = tasks.tally fun _ => nonEntryWeight
  attempt : slots.entryInFlight = 0 → slots.entryAttemptInFlight = none

section Slots

variable {slots : Slots} {tasks : OrderedMap TaskId Task} {i : TaskId} {t t' : Task}

theorem tally_setTask {f : Task → Nat} (ht : tasks.get? i = some t) (hsame : f t' = f t) :
    (tasks.set i t').tally (fun _ => f) = tasks.tally fun _ => f := by
  have hset := OrderedMap.tally_set (fun _ => f) tasks i t'
  rw [OrderedMap.share_of_some ht, hsame] at hset
  exact Nat.add_right_cancel hset

theorem tally_deleteTask {f : Task → Nat} (ht : tasks.get? i = some t) :
    (tasks.delete i).tally (fun _ => f) = (tasks.tally fun _ => f) - f t := by
  have hdelete := OrderedMap.tally_delete (fun _ => f) tasks i
  rw [OrderedMap.share_of_some ht] at hdelete
  omega

theorem SlotsCounted.setTask (h : SlotsCounted slots tasks) (ht : tasks.get? i = some t)
    (haction : t'.action = t.action) (hslot : t'.slot = t.slot) :
    SlotsCounted slots (tasks.set i t') where
  inFlight := h.inFlight.trans (tally_setTask (f := fun _ => 1) ht rfl).symm
  base := h.base.trans (tally_setTask ht (by rw [baseWeight, baseWeight, hslot])).symm
  burst := h.burst.trans (tally_setTask ht (by rw [burstWeight, burstWeight, hslot])).symm
  entry := h.entry.trans (tally_setTask ht (by rw [entryWeight, entryWeight, haction])).symm
  nonEntry := h.nonEntry.trans
    (tally_setTask ht (by rw [nonEntryWeight, nonEntryWeight, haction])).symm
  attempt := h.attempt

/-- `occupySlot` counts the action it starts. -/
theorem SlotsCounted.occupy (h : SlotsCounted slots tasks) (hnew : tasks.get? i = none) :
    SlotsCounted (slots.occupy t.action t.slot) (tasks.set i t) where
  inFlight := by
    rw [Slots.occupy_inFlight, OrderedMap.tally_set_new hnew, h.inFlight]
  base := by
    rw [Slots.occupy_baseInFlight, OrderedMap.tally_set_new hnew, h.base, baseWeight]
  burst := by
    rw [Slots.occupy_burstInFlight, OrderedMap.tally_set_new hnew, h.burst, burstWeight]
  entry := by
    rw [Slots.occupy_entryInFlight, OrderedMap.tally_set_new hnew, h.entry, entryWeight]
  nonEntry := by
    rw [Slots.occupy_nonEntryInFlight, OrderedMap.tally_set_new hnew, h.nonEntry,
      nonEntryWeight]
  attempt := Slots.occupy_attempt h.attempt

/-- `releaseSlot` uncounts the action it ends. -/
theorem SlotsCounted.release (h : SlotsCounted slots tasks) (ht : tasks.get? i = some t) :
    SlotsCounted (slots.release t.action t.slot) (tasks.delete i) where
  inFlight := by
    rw [Slots.release_inFlight, tally_deleteTask (f := fun _ => 1) ht, h.inFlight]
  base := by
    rw [Slots.release_baseInFlight, tally_deleteTask ht, h.base, baseWeight]
  burst := by
    rw [Slots.release_burstInFlight, tally_deleteTask ht, h.burst, burstWeight]
  entry := by
    rw [Slots.release_entryInFlight, tally_deleteTask ht, h.entry, entryWeight]
  nonEntry := by
    rw [Slots.release_nonEntryInFlight, tally_deleteTask ht, h.nonEntry, nonEntryWeight]
  attempt := Slots.release_attempt h.attempt

/-- Without an action in flight no slot is occupied. -/
theorem SlotsCounted.eq_empty (h : SlotsCounted slots tasks) (hnone : ∀ i, tasks.get? i = none) :
    slots = {} := by
  have hbase := h.base
  have hburst := h.burst
  have hentry := h.entry
  have hnon := h.nonEntry
  have hin := h.inFlight
  rw [OrderedMap.tally_eq_zero hnone] at hbase hburst hentry hnon hin
  have hattempt := h.attempt hentry
  cases slots
  simp_all

end Slots

theorem slotsCounted_legInvariant (cfg : Config) (plans : EntryPlans) :
    LegInvariant cfg (InHedgeOrder plans) HedgesAlive
      (fun m => QueueInOrder plans m ∧ GatesAlive plans m ∧ SlotsCounted m.slots m.tasks) where
  frame m m' hsame h := by
    refine ⟨h.1.frame hsame, h.2.1.frame hsame, ?_⟩
    rw [hsame.slots, hsame.tasks]
    exact h.2.2
  rejected m request guard reason hok h :=
    ⟨(queueInOrder_legInvariant cfg plans).rejected m request guard reason hok h.1,
      h.2.1.rejected reason hok.1, h.2.2⟩
  accepted m action hok h := by
    refine ⟨h.1.accepted hok, h.2.1.accepted hok, ?_⟩
    obtain ⟨gates, events, heq, -⟩ := register_grows cfg m action
    rw [heq]
    exact h.2.2
  blocked m q rest hq h := ⟨(h.1.tail hq).grow m.gates _, h.2.1.blocked h.1 hq, h.2.2⟩
  started m q rest slot hq h := by
    refine ⟨h.1.started slot hq, h.2.1.started h.1 slot hq, ?_⟩
    have hnew : m.tasks.get? m.nextTask = none := by
      cases hget : m.tasks.get? m.nextTask with
      | none => rfl
      | some t => exact absurd (h.1.fresh _ t hget) (Nat.lt_irrefl _)
    exact h.2.2.occupy (t := startedTask cfg q.action slot) hnew
  advanced m i t t' ht hlive haway haction hslot hphase _ h :=
    ⟨h.1.setTask ht haction,
      fun _ _ hg => h.2.1.setTask ht haway haction hg fun _ => .inl hphase,
      h.2.2.setTask ht haction hslot⟩
  arrived m i t t' request guard ht _ haway haction hslot hphase hleg halive h :=
    ⟨(h.1.setTask ht haction).grow _ [],
      h.2.1.arrived ht haway haction hphase hleg halive, h.2.2.setTask ht haction hslot⟩
  settled m i t t' ht _ haway haction hslot _ h := by
    refine ⟨(h.1.setTask ht haction).settleRank t', h.2.1.settled ht haway haction, ?_⟩
    rw [OrderManager.settleRank]
    cases t'.action.leg with
    | none => exact h.2.2.setTask ht haction hslot
    | some leg => exact h.2.2.setTask ht haction hslot
  claimed m i t t' request guard ht hsending haction hslot hphase _ h :=
    ⟨(h.1.setTask ht haction).grow _ [],
      h.2.1.claimed ht hsending haction hphase fun _ _ => rfl, h.2.2.setTask ht haction hslot⟩
  posted m i t t' request guard ht hsending haction hslot hphase _ _ h := by
    refine ⟨(h.1.setTask ht haction).grow _ [.posted request guard],
      h.2.1.claimed ht hsending haction hphase fun attempt rank => ?_,
      h.2.2.setTask ht haction hslot⟩
    simp [Event.isBlocked]
  released m i t ht hphase h :=
    ⟨h.1.deleted i _, h.2.1.deleted ht hphase _, h.2.2.release ht⟩
  disposed m h :=
    ⟨(queueInOrder_legInvariant cfg plans).disposed m h.1,
      fun _ _ hg => by simp at hg, h.2.2⟩

theorem NothingStranded.of_alive {plans : EntryPlans} {m : OrderManager}
    (horder : QueueInOrder plans m) (halive : GatesAlive plans m)
    (hslots : SlotsCounted m.slots m.tasks) : NothingStranded m := by
  have hparked : ∀ attempt g, m.gates.get? attempt = some g → g.waiters ≠ [] →
      ∃ rank < g.hedgeCount, g.decided.has rank = false ∧
        HedgePending m.queue m.tasks attempt rank := by
    intro attempt g hg hne
    have hgate := halive attempt g hg
    obtain ⟨rank, hlt, hundecided⟩ := hgate.undecided hne
    obtain ⟨hregistered, hnot⟩ := hgate.alive hne rank hlt
    refine ⟨rank, hlt, hundecided, ?_⟩
    rcases hgate.accounted rank hregistered hlt nofun with hdecided | hpending | hrefused
    · rw [hundecided] at hdecided
      cases hdecided
    · exact hpending
    · rw [hnot] at hrefused
      cases hrefused
  have hwaiting : ∀ i, m.gates.parked i = true → ∃ attempt g rank,
      m.gates.get? attempt = some g ∧ (rank, i) ∈ g.waiters := by
    intro i hi
    obtain ⟨g, hmem, hany⟩ := List.any_eq_true.mp hi
    obtain ⟨attempt, hg⟩ := OrderedMap.mem_values_iff.mp hmem
    obtain ⟨⟨rank, j⟩, hwaiter, hj⟩ := List.any_eq_true.mp hany
    obtain rfl : j = i := by simpa using hj
    exact ⟨attempt, g, rank, hg, hwaiter⟩
  refine ⟨hparked, fun hall => ?_⟩
  -- a parked leg needs a hedge in flight, which is not parked itself
  have hnone : ∀ attempt g, m.gates.get? attempt = some g → g.waiters = [] := by
    intro attempt g hg
    by_contra hne
    obtain ⟨⟨rank, i⟩, hwaiter⟩ := List.exists_mem_of_ne_nil _ hne
    obtain ⟨t, ht, -, hdependent⟩ := (halive attempt g hg).waiting rank i hwaiter
    obtain ⟨hedge, -, -, hpending⟩ := hparked attempt g hg hne
    rcases hpending with ⟨q, hq, hhedge⟩ | ⟨j, u, hu, -, hhedge⟩
    · exact horder.ahead q hq i t ht ⟨attempt, hedge, hhedge, hdependent⟩
    · obtain ⟨attempt', g', rank', hg', hwaiter'⟩ := hwaiting j (hall j u hu)
      obtain ⟨u', hu', -, request, guard, hleg, -, hnot⟩ :=
        (halive attempt' g' hg').waiting rank' j hwaiter'
      obtain rfl := Option.some.inj (hu.symm.trans hu')
      obtain ⟨request', guard', hleg', -, -, hyes⟩ := hhedge
      rw [hleg] at hleg'
      cases hleg'
      rw [hnot] at hyes
      cases hyes
  have hidle : ∀ i, m.tasks.get? i = none := by
    intro i
    cases ht : m.tasks.get? i with
    | none => rfl
    | some t =>
        obtain ⟨attempt, g, rank, hg, hwaiter⟩ := hwaiting i (hall i t ht)
        rw [hnone attempt g hg] at hwaiter
        cases hwaiter
  exact ⟨hnone, hidle, hslots.eq_empty hidle⟩

theorem BarrierCondition.conditions {cfg : Config} {plans : EntryPlans} {m : OrderManager}
    {label : Label} (h : BarrierCondition cfg plans m label) :
    LegConditions cfg (InHedgeOrder plans) HedgesAlive m label := by
  cases label with
  | submit w request capital entry => exact h.1
  | resume w caller =>
      cases caller with
      | action i => exact h.2
      | reconcile => trivial
  | _ => trivial

/-- Where legs are submitted hedges first and no dependent leg arrives at a gate that lacks
a hedge, or whose hedge the pump has refused, no state of a run has a stranded leg. -/
theorem no_leg_stranded (cfg : Config) (plans : EntryPlans) (controls : OrderManagerControls)
    (day : String) (journal : Journal) (labels : List Label)
    (h : Heeds (OrderManager.step cfg) (BarrierCondition cfg plans)
      (OrderManager.create controls day journal) labels) :
    Throughout (OrderManager.step cfg) NothingStranded
      (OrderManager.create controls day journal) labels := by
  have hinit : QueueInOrder plans (OrderManager.create controls day journal) ∧
      GatesAlive plans (OrderManager.create controls day journal) ∧
      SlotsCounted {} ∅ :=
    ⟨⟨.nil, fun _ hq => absurd hq List.not_mem_nil, fun _ hq => absurd hq List.not_mem_nil,
        fun _ _ ht => by simp [OrderManager.create] at ht,
        fun _ _ ht => by simp [OrderManager.create] at ht,
        fun _ hq => absurd hq List.not_mem_nil, fun _ hq => absurd hq List.not_mem_nil⟩,
      fun _ _ hg => by simp [OrderManager.create] at hg,
      ⟨rfl, rfl, rfl, rfl, rfl, fun _ => rfl⟩⟩
  have hinvariant := Throughout.of_heeds (fun m label m' hm hc hstep =>
    (slotsCounted_legInvariant cfg plans).step hm (BarrierCondition.conditions hc) hstep)
    hinit h
  exact hinvariant.mono fun m hm => .of_alive hm.1 hm.2.1 hm.2.2

namespace Sample

/-- The clock of the process when the gateway submits each leg: the feed is still warming
up when it submits the first one. -/
def submitAcrossWarmUp : List Label :=
  (entryLegs.zip [99, 100, 100, 100]).map fun ((request, guard), now) =>
    .submit (world now) request none (some guard)

/-- The first hedge is refused at submission, which drops the gate. The second one fills,
and the SELL legs wait for the first at the gate it was never registered in. -/
def stranded : List Label :=
  warmUp ++ submitAcrossWarmUp ++ entryFilled 0 (request .k2Pe .buy .entry) ++
    [.release (world 100) 0] ++ prepared 1 ++ prepared 2

end Sample

/-- Both SELL legs are parked and occupy slots, the queue is empty and nothing else is in
flight. -/
theorem sell_legs_stranded : (∀ label ∈ Sample.stranded, Sample.entryPlans.Allows label) ∧
    ∃ m, managerRun Sample.config (Sample.manager .empty) Sample.stranded = some m ∧
      m.queue = [] ∧ m.tasks.keys.all m.gates.parked = true ∧ m.slots.inFlight = 2 ∧
      ¬NothingStranded m := by
  refine ⟨by decide +kernel, ?_⟩
  have hend : (managerRun Sample.config (Sample.manager .empty) Sample.stranded).map
      (fun m => (m.queue, m.tasks.keys.all m.gates.parked, m.slots.inFlight)) =
      some ([], true, 2) := by decide +kernel
  obtain ⟨m, hrun, hm⟩ := Option.map_eq_some_iff.mp hend
  obtain ⟨hqueue, hparked, hslots⟩ : m.queue = [] ∧ m.tasks.keys.all m.gates.parked = true ∧
      m.slots.inFlight = 2 := by simpa using hm
  refine ⟨m, hrun, hqueue, hparked, hslots, fun hclaim => ?_⟩
  have hall : ∀ i t, m.tasks.get? i = some t → m.gates.parked i = true := fun i t ht =>
    List.all_eq_true.mp hparked i (OrderedMap.mem_keys_iff.mpr ⟨t, ht⟩)
  rw [(hclaim.idle hall).2.2] at hslots
  cases hslots

/-- Once every leg is accepted, the run of `sellPosted` strands nobody. -/
theorem no_leg_stranded_sample : Throughout (OrderManager.step Sample.config) NothingStranded
    (Sample.manager .empty) (Sample.sellPosted ++ Sample.prepared 3) :=
  no_leg_stranded Sample.config Sample.entryPlans ⟨true, true⟩ "D" .empty _ (by decide +kernel)

end Strikedge.Orders
