import Strikedge.Orders.Legs

/-!
# No naked SELL

Whenever a dependent leg of an entry attempt passes its pre-POST callback, every hedge of
the attempt has already decided with a terminal broker fill of at least its requested
quantity, on the contract and the side it declared. The gate of an attempt may be dropped
and created again in between: what the ledger of the current gate proves always goes back
to a decision in the history.
-/

namespace Strikedge.Orders

open Machine OrderManager

/-- The legs one entry attempt hands to the manager: ranks and roles tell them apart, the
hedges are exactly the ranks below `hedgeCount`, and every leg reports that count. -/
structure EntryPlan where
  legs : List (BrokerOrderRequest × LiveEntryTransportGuard)
  hedgeCount : Nat
  counts : ∀ leg ∈ legs, leg.2.hedgeCount = hedgeCount
  hedges : ∀ leg ∈ legs, leg.2.hedge = true ↔ leg.2.transportRank < hedgeCount
  roles : ∀ leg ∈ legs, ∀ leg' ∈ legs, leg.1.role = leg'.1.role → leg = leg'
  ranks : ∀ leg ∈ legs, ∀ leg' ∈ legs, leg.2.transportRank = leg'.2.transportRank → leg = leg'

/-- The plan of every attempt. -/
abbrev EntryPlans := AttemptId → EntryPlan

/-- The leg belongs to the plan of its attempt. -/
def EntryPlans.Planned (plans : EntryPlans) (request : BrokerOrderRequest)
    (guard : LiveEntryTransportGuard) : Prop :=
  (request, guard) ∈ (plans request.attemptId).legs

instance (plans : EntryPlans) (request : BrokerOrderRequest) (guard : LiveEntryTransportGuard) :
    Decidable (plans.Planned request guard) :=
  inferInstanceAs (Decidable ((request, guard) ∈ (plans request.attemptId).legs))

/-- A label submits nothing but planned legs. -/
def EntryPlans.Allows (plans : EntryPlans) (label : Label) : Prop :=
  ∀ leg ∈ label.leg, plans.Planned leg.1 leg.2

instance (plans : EntryPlans) : DecidablePred plans.Allows := fun label =>
  inferInstanceAs (Decidable (∀ leg ∈ label.leg, plans.Planned leg.1 leg.2))

/-- The guard the gateway gives the leg of a slot. -/
def EntrySubmissionSlot.guard (slots : List EntrySubmissionSlot) (slot : EntrySubmissionSlot) :
    LiveEntryTransportGuard where
  transportRank := slot.rank
  hedge := slot.hedge
  hedgeCount := (slots.filter (·.hedge)).length

/-- The legs `simulateLeggingEntry` submits: one request for each slot of the hedge-first
order, in that order, with the slot's rank. -/
def gatewayLegs (direction : BoxDirection) (request : EntrySubmissionSlot → BrokerOrderRequest) :
    List (BrokerOrderRequest × LiveEntryTransportGuard) :=
  let slots := entrySubmissionOrder direction
  slots.map fun slot => (request slot, slot.guard slots)

/-- What the gateway submits for one attempt is a plan, for both directions. -/
def gatewayPlan (direction : BoxDirection) (request : EntrySubmissionSlot → BrokerOrderRequest)
    (hrole : ∀ slot, (request slot).role = slot.role) : EntryPlan where
  legs := gatewayLegs direction request
  hedgeCount := 2
  counts leg h := by
    obtain ⟨slot, -, rfl⟩ := List.mem_map.mp h
    cases direction with
    | longBox => rfl
    | shortBox => rfl
  hedges leg h := by
    obtain ⟨slot, hslot, rfl⟩ := List.mem_map.mp h
    have ranks : ∀ slot ∈ entrySubmissionOrder direction, slot.hedge = true ↔ slot.rank < 2 := by
      cases direction with
      | longBox => decide
      | shortBox => decide
    exact ranks slot hslot
  roles leg h leg' h' heq := by
    obtain ⟨slot, hslot, rfl⟩ := List.mem_map.mp h
    obtain ⟨slot', hslot', rfl⟩ := List.mem_map.mp h'
    have roles : ∀ slot ∈ entrySubmissionOrder direction,
        ∀ slot' ∈ entrySubmissionOrder direction, slot.role = slot'.role → slot = slot' := by
      cases direction with
      | longBox => decide
      | shortBox => decide
    have hrole' : slot.role = slot'.role := by
      rw [← hrole slot, ← hrole slot']
      exact heq
    rw [roles slot hslot slot' hslot' hrole']
  ranks leg h leg' h' heq := by
    obtain ⟨slot, hslot, rfl⟩ := List.mem_map.mp h
    obtain ⟨slot', hslot', rfl⟩ := List.mem_map.mp h'
    have ranks : ∀ slot ∈ entrySubmissionOrder direction,
        ∀ slot' ∈ entrySubmissionOrder direction, slot.rank = slot'.rank → slot = slot' := by
      cases direction with
      | longBox => decide
      | shortBox => decide
    rw [ranks slot hslot slot' hslot' heq]

/-- The hedge of a rank has decided with a terminal broker fill of its full quantity, on
the token, symbol and side it declared. -/
def HedgeCovered (history : List Event) (attempt : AttemptId) (rank : Nat) : Prop :=
  ∃ request guard outcome order,
    Event.decided request guard outcome (some order) ∈ history ∧
      request.attemptId = attempt ∧ guard.transportRank = rank ∧ guard.hedge = true ∧
      request.side = .buy ∧ isBrokerOrderTerminal order.state = true ∧
      order.token = request.token ∧ order.tradingsymbol = request.tradingsymbol ∧
      order.side = request.side ∧ request.quantity ≤ order.filledQuantity

/-- Every dependent leg in a history was posted after its hedges had covered it. -/
def HedgesBeforePosts : List Event → Prop
  | [] => True
  | .posted request guard :: older =>
      (guard.hedge = false →
        ∀ rank < guard.hedgeCount, HedgeCovered older request.attemptId rank) ∧
      HedgesBeforePosts older
  | _ :: older => HedgesBeforePosts older

theorem HedgesBeforePosts.at {newer older : List Event} {request : BrokerOrderRequest}
    {guard : LiveEntryTransportGuard}
    (h : HedgesBeforePosts (newer ++ .posted request guard :: older)) :
    guard.hedge = false → ∀ rank < guard.hedgeCount, HedgeCovered older request.attemptId rank := by
  induction newer with
  | nil => exact h.1
  | cons event newer ih =>
      cases event with
      | registered _ _ => exact ih h
      | decided _ _ _ _ => exact ih h
      | blocked _ _ => exact ih h
      | posted _ _ => exact ih h.2

theorem hedgesBeforePosts_blocked {action : Action} {history : List Event}
    (h : HedgesBeforePosts history) : HedgesBeforePosts (blockedEvents action ++ history) := by
  rw [blockedEvents]
  split <;> exact h

/-- What a gate knows about an attempt was declared or decided by the attempt's hedges. -/
structure GateProven (account : String) (plan : EntryPlan) (attempt : AttemptId)
    (history : List Event) (g : EntryTransportGate) : Prop where
  hedgeCount : g.hedgeCount = plan.hedgeCount
  declared : ∀ rank req, g.hedgeRequirements.get? rank = some req →
    ∃ request guard, (request, guard) ∈ plan.legs ∧ guard.transportRank = rank ∧
      guard.hedge = true ∧ request.attemptId = attempt ∧
      req = EntryTransportGate.requirementOf account request
  evidenced : ∀ role e, g.coverage.evidenceByRole.get? role = some e →
    ∃ request guard outcome reason order,
      Event.decided request guard outcome order ∈ history ∧ request.attemptId = attempt ∧
        guard.hedge = true ∧ request.role = role ∧
        e = EntryTransportGate.hedgeEvidenceFrom account request outcome reason order

/-- The leg of an action, if it has one, is planned. -/
def PlannedAction (plans : EntryPlans) (action : Action) : Prop :=
  ∀ request guard, action.leg = some (request, guard) → plans.Planned request guard

structure HedgesProven (cfg : Config) (plans : EntryPlans) (m : OrderManager) : Prop where
  queued : ∀ q ∈ m.queue, PlannedAction plans q.action
  flying : ∀ i t, m.tasks.get? i = some t → PlannedAction plans t.action
  decided : ∀ request guard outcome order,
    Event.decided request guard outcome order ∈ m.history → plans.Planned request guard
  gates : ∀ attempt g, m.gates.get? attempt = some g →
    GateProven cfg.account (plans attempt) attempt m.history g
  posts : HedgesBeforePosts m.history

section Gate

variable {account : String} {plans : EntryPlans} {attempt : AttemptId}
variable {history history' : List Event} {g : EntryTransportGate}
variable {request : BrokerOrderRequest} {guard : LiveEntryTransportGuard}

theorem GateProven.mono {plan : EntryPlan} (h : GateProven account plan attempt history g)
    (hsub : history ⊆ history') : GateProven account plan attempt history' g where
  hedgeCount := h.hedgeCount
  declared := h.declared
  evidenced role e he := by
    obtain ⟨request, guard, outcome, reason, order, hmem, rest⟩ := h.evidenced role e he
    exact ⟨request, guard, outcome, reason, order, hsub hmem, rest⟩

/-- A gate keeps what it knows when its waiters or its claimants change. -/
theorem GateProven.of_same {plan : EntryPlan} {g' : EntryTransportGate}
    (h : GateProven account plan attempt history g) (hcount : g'.hedgeCount = g.hedgeCount)
    (hreq : g'.hedgeRequirements = g.hedgeRequirements)
    (hevidence : g'.coverage.evidenceByRole = g.coverage.evidenceByRole) :
    GateProven account plan attempt history g' where
  hedgeCount := hcount.trans h.hedgeCount
  declared := hreq ▸ h.declared
  evidenced := hevidence ▸ h.evidenced

theorem GateProven.create (hplanned : plans.Planned request guard) :
    GateProven account (plans request.attemptId) request.attemptId history
      (EntryTransportGate.create request.attemptId guard) where
  hedgeCount := (plans request.attemptId).counts _ hplanned
  declared _ _ h := by simp [EntryTransportGate.create] at h
  evidenced _ _ h := by simp [EntryTransportGate.create] at h

/-- Registering a planned leg declares what its plan says. -/
theorem GateProven.register
    (h : GateProven account (plans request.attemptId) request.attemptId history g)
    (hplanned : plans.Planned request guard) :
    GateProven account (plans request.attemptId) request.attemptId history
      (g.register account request guard) where
  hedgeCount := by
    have hcount := (plans request.attemptId).counts _ hplanned
    show max g.hedgeCount guard.hedgeCount = _
    rw [h.hedgeCount, hcount, Nat.max_self]
  declared rank req hreq := by
    by_cases hhedge : guard.hedge = true
    · simp only [EntryTransportGate.register, hhedge, if_true, OrderedMap.get?_set] at hreq
      by_cases hrank : rank = guard.transportRank
      · rw [if_pos hrank] at hreq
        exact ⟨request, guard, hplanned, hrank.symm, hhedge, rfl, (Option.some.inj hreq).symm⟩
      · rw [if_neg hrank] at hreq
        exact h.declared rank req hreq
    · simp only [EntryTransportGate.register, hhedge] at hreq
      exact h.declared rank req hreq
  evidenced := h.evidenced

/-- A decision adds at most the evidence of the leg that decides. -/
theorem GateProven.recordDecision {outcome : TransportOutcome} {reason : Option String}
    {order : Option BrokerOrder}
    (h : GateProven account (plans request.attemptId) request.attemptId history g) :
    GateProven account (plans request.attemptId) request.attemptId
      (.decided request guard outcome order :: history)
      (g.recordDecision account request guard outcome reason order) := by
  have hmono := h.mono (List.subset_cons_self (.decided request guard outcome order) history)
  refine ⟨hmono.hedgeCount, hmono.declared, fun role e he => ?_⟩
  rw [EntryTransportGate.recordDecision_coverage] at he
  by_cases hhedge : guard.hedge = true
  · rw [if_pos hhedge] at he
    rcases HedgeCoverageLedger.record_evidence he with hold | ⟨rfl, rfl, -⟩
    · exact hmono.evidenced role e hold
    · exact ⟨request, guard, outcome, reason, order, List.mem_cons_self, rfl, hhedge,
        EntryTransportGate.evidence_role.symm, rfl⟩
  · rw [if_neg hhedge] at he
    exact hmono.evidenced role e he

/-- A requirement the ledger covers goes back to a covering decision. -/
theorem GateProven.covered {rank : Nat} {req : HedgeRequirement}
    (h : GateProven account (plans attempt) attempt history g)
    (hdecided : ∀ request guard outcome order,
      Event.decided request guard outcome order ∈ history → plans.Planned request guard)
    (hreq : g.hedgeRequirements.get? rank = some req)
    (hcovered : g.coverage.coverageFor req = none) : HedgeCovered history attempt rank := by
  obtain ⟨request, guard, hleg, hrank, hhedge, hattempt, rfl⟩ := h.declared rank req hreq
  obtain ⟨e, filled, he, -, -, hside, hbuy, htoken, hsymbol, -, hfill, henough⟩ :=
    HedgeCoverageLedger.covered_evidence hcovered
  obtain ⟨request', guard', outcome, reason, order, hmem, hattempt', -, hrole, rfl⟩ :=
    h.evidenced _ e he
  -- the role tells which leg of the plan has decided
  have hplanned' : (request', guard') ∈ (plans attempt).legs := by
    have := hdecided request' guard' outcome order hmem
    rwa [EntryPlans.Planned, hattempt'] at this
  obtain ⟨rfl, rfl⟩ := Prod.mk.inj
    ((plans attempt).roles (request', guard') hplanned' (request, guard) hleg hrole)
  obtain ⟨o, rfl, hterminal, rfl, htoken', hsymbol', hside'⟩ :=
    EntryTransportGate.confirmed_evidence hfill
  exact ⟨request', guard', outcome, o, hmem, hattempt', hrank, hhedge, hbuy, hterminal,
    htoken'.symm.trans htoken, hsymbol'.symm.trans hsymbol, hside'.symm.trans hside, henough⟩

end Gate

section Steps

variable {cfg : Config} {plans : EntryPlans} {m : OrderManager}
variable {request : BrokerOrderRequest} {guard : LiveEntryTransportGuard}

theorem gateProven_registering (h : HedgesProven cfg plans m)
    (hplanned : plans.Planned request guard) :
    GateProven cfg.account (plans request.attemptId) request.attemptId m.history
      (m.gates.registering request guard) := by
  rw [EntryTransportGates.registering]
  cases hgate : m.gates.get? request.attemptId with
  | none => exact .create hplanned
  | some g => exact h.gates _ g hgate

/-- Registering a planned leg. -/
theorem HedgesProven.ensure (h : HedgesProven cfg plans m)
    (hplanned : plans.Planned request guard) :
    HedgesProven cfg plans { m with
      gates := m.gates.ensure cfg.account request guard
      history := .registered request guard :: m.history } where
  queued := h.queued
  flying := h.flying
  decided r g outcome order hmem := by
    rcases List.mem_cons.mp hmem with heq | hmem
    · cases heq
    · exact h.decided r g outcome order hmem
  gates attempt g hg := by
    have hsub := List.subset_cons_self (Event.registered request guard) m.history
    rw [EntryTransportGates.ensure_get] at hg
    by_cases hattempt : attempt = request.attemptId
    · rw [if_pos hattempt] at hg
      subst hattempt
      obtain rfl := Option.some.inj hg
      exact ((gateProven_registering h hplanned).register hplanned).mono hsub
    · rw [if_neg hattempt] at hg
      exact (h.gates attempt g hg).mono hsub
  posts := h.posts

/-- A planned leg decides its rank. -/
theorem HedgesProven.decideRank (h : HedgesProven cfg plans m)
    (hplanned : plans.Planned request guard) (outcome : TransportOutcome)
    (reason : Option String) (order : Option BrokerOrder) :
    HedgesProven cfg plans (m.decideRank cfg request guard outcome reason order) where
  queued := h.queued
  flying := h.flying
  decided r g outcome' order' hmem := by
    rcases List.mem_cons.mp hmem with heq | hmem
    · cases heq
      exact hplanned
    · exact h.decided r g outcome' order' hmem
  gates attempt g hg := by
    rcases EntryTransportGates.decideRank_get hg with ⟨-, hold⟩ | ⟨rfl, before, hbefore, rfl⟩
    · exact (h.gates attempt g hold).mono (List.subset_cons_self _ _)
    · exact (h.gates _ before hbefore).recordDecision
  posts := h.posts

/-- A task changes without changing its action. -/
theorem HedgesProven.setTask (h : HedgesProven cfg plans m) {i : TaskId} {t t' : Task}
    (ht : m.tasks.get? i = some t) (haction : t'.action = t.action) :
    HedgesProven cfg plans (m.setTask i t') where
  queued := h.queued
  flying j u hu := by
    rw [OrderManager.setTask, OrderedMap.get?_set] at hu
    by_cases hj : j = i
    · rw [if_pos hj] at hu
      obtain rfl := Option.some.inj hu
      rw [haction]
      exact h.flying i t ht
    · rw [if_neg hj] at hu
      exact h.flying j u hu
  decided := h.decided
  gates := h.gates
  posts := h.posts

/-- Coverage is claimed for a dependent leg. -/
theorem HedgesProven.claim (h : HedgesProven cfg plans m) :
    HedgesProven cfg plans
      { m with gates := (m.gates.hedgeCoverageGap request guard).1 } where
  queued := h.queued
  flying := h.flying
  decided := h.decided
  gates attempt g hg := by
    obtain ⟨before, hbefore, heq, hevidence, -⟩ := EntryTransportGates.hedgeCoverageGap_get hg
    have hcount : g.hedgeCount = before.hedgeCount := by rw [heq]
    have hreq : g.hedgeRequirements = before.hedgeRequirements := by rw [heq]
    exact (h.gates attempt before hbefore).of_same hcount hreq hevidence
  posts := h.posts

/-- A dependent leg that may be posted is covered by the history. -/
theorem HedgesProven.covered (h : HedgesProven cfg plans m)
    (hplanned : plans.Planned request guard)
    (hgap : (m.gates.hedgeCoverageGap request guard).2 = none) :
    guard.hedge = false →
      ∀ rank < guard.hedgeCount, HedgeCovered m.history request.attemptId rank := by
  intro hdependent rank hlt
  obtain ⟨g, hg, hcovered⟩ := EntryTransportGates.hedgeCoverageGap_none hdependent hgap
  have hproven := h.gates _ g hg
  have hcount : guard.hedgeCount = g.hedgeCount := by
    rw [hproven.hedgeCount]
    exact (plans request.attemptId).counts _ hplanned
  obtain ⟨req, hreq, hnone⟩ := hcovered rank (hcount ▸ hlt)
  exact hproven.covered h.decided hreq hnone

theorem HedgesProven.post (h : HedgesProven cfg plans m)
    (hplanned : plans.Planned request guard)
    (hgap : (m.gates.hedgeCoverageGap request guard).2 = none) :
    HedgesProven cfg plans { m with
      gates := (m.gates.hedgeCoverageGap request guard).1
      history := .posted request guard :: m.history } where
  queued := h.queued
  flying := h.flying
  decided r g outcome order hmem := by
    rcases List.mem_cons.mp hmem with heq | hmem
    · cases heq
    · exact h.decided r g outcome order hmem
  gates attempt g hg := (h.claim.gates attempt g hg).mono (List.subset_cons_self _ _)
  posts := ⟨h.covered hplanned hgap, h.posts⟩

theorem plannedAction_of_mem_sortQueue {action : Action} {q : QueuedAction}
    (h : HedgesProven cfg plans m) (haction : PlannedAction plans action)
    (hq : q ∈ sortQueue (m.queue ++ [{ action := action, sequence := m.sequence }])) :
    PlannedAction plans q.action := by
  rw [sortQueue, List.mem_insertionSort, List.mem_append, List.mem_singleton] at hq
  rcases hq with hq | rfl
  · exact h.queued q hq
  · exact haction

theorem hedgesProven_legInvariant (cfg : Config) (plans : EntryPlans) :
    LegInvariant cfg (fun _ => plans.Planned) (fun _ _ _ _ => True)
      (HedgesProven cfg plans) where
  frame m m' hsame h :=
    { queued := hsame.queue ▸ h.queued
      flying := hsame.tasks ▸ h.flying
      decided := hsame.history ▸ h.decided
      gates := by
        rw [hsame.gates, hsame.history]
        exact h.gates
      posts := hsame.history ▸ h.posts }
  rejected m request guard reason hplanned h :=
    (h.ensure hplanned).decideRank hplanned .noPost (some reason) none
  accepted m action haction h := by
    have hqueue := fun q => plannedAction_of_mem_sortQueue (q := q) h haction
    rw [register]
    cases hleg : action.leg with
    | none => exact ⟨hqueue, h.flying, h.decided, h.gates, h.posts⟩
    | some leg =>
        have hensure := h.ensure (haction leg.1 leg.2 hleg)
        exact ⟨hqueue, hensure.flying, hensure.decided, hensure.gates, hensure.posts⟩
  blocked m q rest hq h :=
    { queued := fun q' hq' => h.queued q' (hq ▸ List.mem_cons_of_mem q hq')
      flying := h.flying
      decided := by
        intro r g outcome order hmem
        rcases List.mem_append.mp hmem with hmem | hmem
        · rw [blockedEvents] at hmem
          split at hmem
          · cases List.mem_singleton.mp hmem
          · cases hmem
        · exact h.decided r g outcome order hmem
      gates := fun attempt g hg =>
        (h.gates attempt g hg).mono (List.subset_append_right _ _)
      posts := hedgesBeforePosts_blocked h.posts }
  started m q rest slot hq h := by
    have haction : PlannedAction plans q.action := h.queued q (hq ▸ List.mem_cons_self)
    refine ⟨fun q' hq' => h.queued q' (hq ▸ List.mem_cons_of_mem q hq'), ?_, h.decided,
      h.gates, h.posts⟩
    intro j u hu
    simp only [start, OrderedMap.get?_set] at hu
    by_cases hj : j = m.nextTask
    · rw [if_pos hj] at hu
      obtain rfl := Option.some.inj hu
      exact haction
    · rw [if_neg hj] at hu
      exact h.flying j u hu
  advanced m i t t' ht _ _ haction _ _ _ h := h.setTask ht haction
  arrived m i t t' request guard ht _ _ haction _ _ _ _ h := by
    have hset : HedgesProven cfg plans (m.setTask i t') := h.setTask ht haction
    refine ⟨hset.queued, hset.flying, hset.decided, fun attempt g hg => ?_, hset.posts⟩
    rcases EntryTransportGates.awaitTurn_get hg with hold | ⟨rfl, before, hbefore, -, -, rfl⟩
    · exact h.gates attempt g hold
    · exact (h.gates _ before hbefore).of_same rfl rfl rfl
  settled m i t t' ht _ _ haction _ _ h := by
    have hset : HedgesProven cfg plans (m.setTask i t') := h.setTask ht haction
    rw [settleRank]
    cases hleg : t'.action.leg with
    | none => exact hset
    | some leg =>
        have hplanned : plans.Planned leg.1 leg.2 :=
          h.flying i t ht leg.1 leg.2 (haction ▸ hleg)
        exact hset.decideRank hplanned _ _ _
  claimed m i t t' request guard ht _ haction _ _ _ h := (h.setTask ht haction).claim
  posted m i t t' request guard ht _ haction _ _ hleg hgap h :=
    (h.setTask ht haction).post (h.flying i t ht request guard (haction ▸ hleg)) hgap
  released m i t ht _ h := by
    refine ⟨h.queued, fun j u hu => ?_, h.decided, h.gates, h.posts⟩
    rw [OrderedMap.get?_delete] at hu
    by_cases hj : j = i
    · rw [if_pos hj] at hu
      cases hu
    · rw [if_neg hj] at hu
      exact h.flying j u hu
  disposed m h :=
    { queued := fun q hq => absurd hq (List.not_mem_nil)
      flying := h.flying
      decided := h.decided
      gates := fun attempt g hg => by
        rw [OrderedMap.get?_empty] at hg
        cases hg
      posts := h.posts }

end Steps

theorem hedgesProven_create (cfg : Config) (plans : EntryPlans)
    (controls : OrderManagerControls) (day : String) (journal : Journal) :
    HedgesProven cfg plans (OrderManager.create controls day journal) where
  queued _ hq := absurd hq List.not_mem_nil
  flying _ _ ht := by
    simp [OrderManager.create] at ht
  decided _ _ _ _ hmem := absurd hmem List.not_mem_nil
  gates _ _ hg := by
    simp [OrderManager.create] at hg
  posts := trivial

theorem EntryPlans.Allows.conditions {cfg : Config} {plans : EntryPlans} {m : OrderManager}
    {label : Label} (h : plans.Allows label) :
    LegConditions cfg (fun _ => plans.Planned) (fun _ _ _ _ => True) m label := by
  cases label with
  | submit w request capital entry => exact h
  | resume w caller =>
      cases caller with
      | action i => exact fun _ _ => trivial
      | reconcile => trivial
  | _ => trivial

/-- No naked SELL: in every run from a new manager, over any journal and any surroundings,
whenever a dependent leg passes its pre-POST callback, every hedge of its attempt has
decided before with a terminal broker fill of its full quantity. -/
theorem no_naked_sell (cfg : Config) (plans : EntryPlans) (controls : OrderManagerControls)
    (day : String) (journal : Journal) (labels : List Label) (m : OrderManager)
    (hplans : ∀ label ∈ labels, plans.Allows label)
    (hrun : managerRun cfg (OrderManager.create controls day journal) labels = some m) :
    ∀ newer older request guard, m.history = newer ++ .posted request guard :: older →
      guard.hedge = false →
        ∀ rank < guard.hedgeCount, HedgeCovered older request.attemptId rank := by
  have hproven : HedgesProven cfg plans m := by
    have hinit := hedgesProven_create cfg plans controls day journal
    generalize OrderManager.create controls day journal = s at hrun hinit
    induction labels generalizing s with
    | nil => exact Option.some.inj hrun ▸ hinit
    | cons label rest ih =>
        obtain ⟨t, ht, hrest⟩ := run_cons_eq_some.mp hrun
        have hlabel := hplans label List.mem_cons_self
        exact ih (fun l hl => hplans l (List.mem_cons_of_mem label hl)) t hrest
          ((hedgesProven_legInvariant cfg plans).step hinit hlabel.conditions ht)
  intro newer older request guard hhistory
  exact HedgesBeforePosts.at (hhistory ▸ hproven.posts)

namespace Sample

/-- One lot of the contract of an entry slot. -/
def entryRequest (slot : EntrySubmissionSlot) : BrokerOrderRequest :=
  request slot.role slot.side .entry

/-- The four legs of a long box. -/
def entryLegs : List (BrokerOrderRequest × LiveEntryTransportGuard) :=
  gatewayLegs .longBox entryRequest

def entryPlans : EntryPlans := fun _ => gatewayPlan .longBox entryRequest fun _ => rfl

/-- The gateway submits the four legs. -/
def submitLegs : List Label :=
  entryLegs.map fun (request, guard) => .submit (world 100) request none (some guard)

/-- Both hedges fill and the first SELL leg passes its pre-POST callback. -/
def sellPosted : List Label :=
  warmUp ++ submitLegs ++ entryFilled 0 (request .k1Ce .buy .entry) ++
    entryFilled 1 (request .k2Pe .buy .entry) ++ prepared 2 ++
    [.pass 2, .prePost (world 100) 2]

end Sample

/-- The first SELL leg of a long box is posted after both hedges are covered. -/
theorem no_naked_sell_sample : ∃ m older, managerRun Sample.config (Sample.manager .empty)
      Sample.sellPosted = some m ∧
    m.history = .posted (Sample.request .k2Ce .sell .entry) ⟨2, false, 2⟩ :: older ∧
    ∀ rank < 2, HedgeCovered older "A" rank := by
  have hplans : ∀ label ∈ Sample.sellPosted, Sample.entryPlans.Allows label := by
    decide +kernel
  have hhead : (managerRun Sample.config (Sample.manager .empty) Sample.sellPosted).map
      (fun m => m.history.head?) =
      some (some (.posted (Sample.request .k2Ce .sell .entry) ⟨2, false, 2⟩)) := by
    decide +kernel
  obtain ⟨m, hrun, hm⟩ := Option.map_eq_some_iff.mp hhead
  obtain ⟨older, hhistory⟩ := List.head?_eq_some_iff.mp hm
  exact ⟨m, older, hrun, hhistory, no_naked_sell Sample.config Sample.entryPlans ⟨true, true⟩
    "D" .empty Sample.sellPosted m hplans hrun [] older _ _ hhistory rfl⟩

end Strikedge.Orders
