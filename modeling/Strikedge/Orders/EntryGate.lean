import Strikedge.Orders.Coverage
import Strikedge.Orders.Scheduling

/-!
# The hedge-first barrier

Four legs of one entry attempt share an `EntryTransportGate`. Every leg registers its
rank at submission and decides it when its round trip is over. A dependent SELL parks in
the gate until every hedge rank has decided, and at its own pre-POST boundary it must
still claim the coverage the ledger of the gate proves.
-/

namespace Strikedge.Orders

/-- An action in flight, by the order in which it was dequeued. -/
abbrev TaskId := Nat

inductive LiveEntryGuardRefusal where
  | notStillWanted
  | entryDisarmed
  | liveOrdersDisarmed
  | circuitOpen
  | entryNotAdmissible
  | attemptAborted
  | hedgeCoverageUnproven
  | crossLegIncoherent
  | economicEvidenceExpired
  deriving DecidableEq, Repr

structure LiveEntryGuardInputs where
  stage : LiveEntryGuardStage
  stillWanted : Bool
  entryEnabled : Bool
  liveOrderEntryEnabled : Bool
  circuitClosed : Bool
  entryAdmissible : Bool
  attemptAborted : Option String
  hedgeCoverageGap : Option String
  crossLegCoherenceGap : Option String
  economicEvidenceGap : Option String

/-- The first objection to an entry, the most fundamental one first. -/
def evaluateLiveEntryGuard (i : LiveEntryGuardInputs) : Option (LiveEntryGuardRefusal × String) :=
  let place := s!"at {i.stage.text}"
  if !i.stillWanted then
    some (.notStillWanted, s!"entry is no longer wanted {place}: ownership/lease lost, " ++
      "or the scanner decision was withdrawn")
  else if !i.liveOrderEntryEnabled then
    some (.liveOrdersDisarmed, s!"live order authorization was withdrawn {place}")
  else if !i.entryEnabled then some (.entryDisarmed, s!"entry was disarmed {place}")
  else if !i.circuitClosed then
    some (.circuitOpen, s!"the execution circuit breaker is open {place}")
  else
    match i.attemptAborted, i.hedgeCoverageGap, i.crossLegCoherenceGap,
        i.economicEvidenceGap with
    | some why, _, _, _ =>
        some (.attemptAborted,
          s!"the entry attempt was aborted by a sibling leg {place}: {why}")
    | none, some why, _, _ =>
        some (.hedgeCoverageUnproven, s!"a dependent SELL was refused {place} because " ++
          s!"its BUY hedge coverage is not proven: {why}")
    | none, none, some why, _ =>
        some (.crossLegIncoherent,
          s!"the four legs no longer form a coherent snapshot {place}: {why}")
    | none, none, none, some why =>
        some (.economicEvidenceExpired, "the funds/margin evidence that admitted this " ++
          s!"entry no longer applies {place}: {why}")
    | none, none, none, none =>
        if !i.entryAdmissible then
          some (.entryNotAdmissible, s!"order-manager entry admission closed {place}")
        else none

/-- An entry that is allowed has no coverage gap. -/
theorem no_gap_of_allowed {i : LiveEntryGuardInputs} (h : evaluateLiveEntryGuard i = none) :
    i.hedgeCoverageGap = none := by
  simp only [evaluateLiveEntryGuard] at h
  cases hgap : i.hedgeCoverageGap with
  | none => rfl
  | some why =>
      cases habort : i.attemptAborted with
      | none =>
          simp only [hgap, habort] at h
          repeat' split at h
          all_goals cases h
      | some reason =>
          simp only [hgap, habort] at h
          repeat' split at h
          all_goals cases h

/-- How a rank decided. -/
inductive TransportOutcome where
  | posted
  | noPost
  deriving DecidableEq, Repr

/-- The transport sequencing state of one entry attempt. -/
structure EntryTransportGate where
  registered : List Nat
  /-- the first decision of each rank -/
  decided : OrderedMap Nat TransportOutcome
  /-- the parked legs, by rank and by the action that awaits -/
  waiters : List (Nat × TaskId)
  /-- a diagnostic, not a permission -/
  hedgeFailure : Option String
  coverage : HedgeCoverageLedger
  hedgeRequirements : OrderedMap Nat HedgeRequirement
  hedgeCount : Nat

namespace EntryTransportGate

def create (attemptId : AttemptId) (guard : LiveEntryTransportGuard) : EntryTransportGate where
  registered := []
  decided := ∅
  waiters := []
  hedgeFailure := none
  coverage := { attemptId := attemptId }
  hedgeRequirements := ∅
  hedgeCount := guard.hedgeCount

/-- The requirement a hedge leg declares. -/
def requirementOf (account : String) (request : BrokerOrderRequest) : HedgeRequirement where
  attemptId := request.attemptId
  role := request.role
  token := request.token
  tradingsymbol := request.tradingsymbol
  side := request.side
  brokerAccount := account
  requiredQuantity := request.quantity

/-- Register a rank, and the requirement of a hedge. -/
def register (g : EntryTransportGate) (account : String) (request : BrokerOrderRequest)
    (guard : LiveEntryTransportGuard) : EntryTransportGate :=
  { g with
    registered := g.registered.insert guard.transportRank
    hedgeCount := max g.hedgeCount guard.hedgeCount
    hedgeRequirements :=
      if guard.hedge then
        g.hedgeRequirements.set guard.transportRank (requirementOf account request)
      else g.hedgeRequirements }

/-- `entryHedgesDecided`: a hedge waits for nothing, any other rank for every hedge. -/
def hedgesDecided (g : EntryTransportGate) (rank : Nat) : Bool :=
  rank < g.hedgeCount || (List.range g.hedgeCount).all fun hedge => g.decided.has hedge

/-- `entryAllRanksDecided` -/
def allRanksDecided (g : EntryTransportGate) : Bool :=
  g.registered.all fun rank => g.decided.has rank

/-- `wakeEntryTransportWaiters` -/
def wake (g : EntryTransportGate) : EntryTransportGate :=
  { g with waiters := g.waiters.filter fun waiter => !g.hedgesDecided waiter.1 }

/-- `hedgeEvidenceFrom`: a fill is confirmed only by a terminal broker snapshot. -/
def hedgeEvidenceFrom (account : String) (request : BrokerOrderRequest)
    (outcome : TransportOutcome) (reason : Option String) (order : Option BrokerOrder) :
    HedgeOutcomeEvidence :=
  match order.filter fun o => isBrokerOrderTerminal o.state, outcome with
  | some o, _ =>
      { attemptId := request.attemptId
        role := request.role
        brokerAccount := account
        requestedQuantity := request.quantity
        token := o.token
        tradingsymbol := o.tradingsymbol
        side := o.side
        confirmedFillQuantity := some o.filledQuantity
        terminal := true
        detail := s!"broker terminal {o.state.text} filled {o.filledQuantity}/{o.quantity} " ++
          s!"on {o.tradingsymbol}/{o.token}" }
  | none, .noPost =>
      { attemptId := request.attemptId
        role := request.role
        brokerAccount := account
        requestedQuantity := request.quantity
        token := request.token
        tradingsymbol := request.tradingsymbol
        side := request.side
        confirmedFillQuantity := none
        terminal := true
        detail := match reason with
          | some why => s!"no broker POST: {why}"
          | none => "no broker POST" }
  | none, .posted =>
      { attemptId := request.attemptId
        role := request.role
        brokerAccount := account
        requestedQuantity := request.quantity
        token := (order.map (·.token)).getD request.token
        tradingsymbol := (order.map (·.tradingsymbol)).getD request.tradingsymbol
        side := (order.map (·.side)).getD request.side
        confirmedFillQuantity := none
        terminal := false
        detail := match reason, order with
          | some why, _ => s!"hedge outcome not proven terminal: {why}"
          | none, some o => s!"hedge state {o.state.text} is not a terminal proof of fill"
          | none, none => "hedge outcome not proven terminal" }

/-- Record the decision of a rank: the first one counts for the sequence, the evidence
of a hedge goes to the ledger, and the legs that may go on are woken. -/
def recordDecision (g : EntryTransportGate) (account : String) (request : BrokerOrderRequest)
    (guard : LiveEntryTransportGuard) (outcome : TransportOutcome) (reason : Option String)
    (order : Option BrokerOrder) : EntryTransportGate :=
  let how := match outcome with
    | .noPost => "did not reach the broker"
    | .posted => "failed at the broker"
  let failure := (reason.filter fun _ => guard.hedge).map fun why =>
    s!"{request.role.text} ({request.side.text}) {how}: {why}"
  wake { g with
    decided :=
      if g.decided.has guard.transportRank then g.decided
      else g.decided.set guard.transportRank outcome
    hedgeFailure := g.hedgeFailure.or failure
    coverage :=
      if guard.hedge then
        g.coverage.record (hedgeEvidenceFrom account request outcome reason order)
      else g.coverage }

/-- `entryHedgeCoverageGap` at the final boundary: claim the coverage of every hedge. -/
def claimHedges (g : EntryTransportGate) (request : BrokerOrderRequest) :
    EntryTransportGate × Option String :=
  match (List.range g.hedgeCount).find? fun rank => (g.hedgeRequirements.get? rank).isNone with
  | some rank =>
      (g, some <| s!"hedge rank {rank} has not declared its identity for attempt " ++
        s!"{request.attemptId}; coverage is unprovable")
  | none =>
      let requirements := (List.range g.hedgeCount).filterMap g.hedgeRequirements.get?
      let (coverage, claimed) := g.coverage.claimCoverage request.role requirements
      let gap :=
        if claimed then none
        else some <| (coverage.coverageGapFor requirements).getD
          "hedge coverage could not be claimed"
      ({ g with coverage := coverage }, gap)

/-- `alreadyExposed`: some leg of the attempt has been posted. -/
def alreadyExposed (g : EntryTransportGate) : Bool :=
  g.decided.values.any (· = .posted)

end EntryTransportGate

abbrev EntryTransportGates := OrderedMap AttemptId EntryTransportGate

namespace EntryTransportGates

/-- `ensureEntryTransportGate` -/
def ensure (gates : EntryTransportGates) (account : String) (request : BrokerOrderRequest)
    (guard : LiveEntryTransportGuard) : EntryTransportGates :=
  let gate := (gates.get? request.attemptId).getD
    (EntryTransportGate.create request.attemptId guard)
  gates.set request.attemptId (gate.register account request guard)

/-- `decideEntryTransportRank`. The gate is dropped once every registered rank has
decided and nobody is parked. -/
def decideRank (gates : EntryTransportGates) (account : String)
    (request : BrokerOrderRequest) (guard : LiveEntryTransportGuard)
    (outcome : TransportOutcome) (reason : Option String) (order : Option BrokerOrder) :
    EntryTransportGates :=
  match gates.get? request.attemptId with
  | none => gates
  | some g =>
      let g := g.recordDecision account request guard outcome reason order
      if g.waiters.isEmpty && g.allRanksDecided then gates.delete request.attemptId
      else gates.set request.attemptId g

/-- `awaitEntryTransportTurn`: park a dependent leg whose hedges have not all decided. -/
def awaitTurn (gates : EntryTransportGates) (request : BrokerOrderRequest)
    (guard : LiveEntryTransportGuard) (i : TaskId) : EntryTransportGates :=
  match gates.get? request.attemptId with
  | none => gates
  | some g =>
      if guard.hedge || g.hedgesDecided guard.transportRank then gates
      else gates.set request.attemptId
        { g with waiters := g.waiters ++ [(guard.transportRank, i)] }

/-- The leg awaits its turn. -/
def parked (gates : EntryTransportGates) (i : TaskId) : Bool :=
  gates.values.any fun g => g.waiters.any (·.2 = i)

/-- The coverage objection to a dependent SELL at its pre-POST boundary. -/
def hedgeCoverageGap (gates : EntryTransportGates) (request : BrokerOrderRequest)
    (guard : LiveEntryTransportGuard) : EntryTransportGates × Option String :=
  if guard.hedge then (gates, none)
  else
    match gates.get? request.attemptId with
    | none =>
        (gates, some <|
          s!"no transport gate for attempt {request.attemptId}; hedge coverage is unprovable")
    | some g =>
        let (g, gap) := g.claimHedges request
        (gates.set request.attemptId g, gap)

end EntryTransportGates

namespace EntryTransportGate

variable {g : EntryTransportGate} {account : String} {request : BrokerOrderRequest}
variable {guard : LiveEntryTransportGuard} {outcome : TransportOutcome}
variable {reason : Option String} {order : Option BrokerOrder} {rank : Nat}

@[simp] theorem recordDecision_coverage :
    (g.recordDecision account request guard outcome reason order).coverage =
      if guard.hedge then
        g.coverage.record (hedgeEvidenceFrom account request outcome reason order)
      else g.coverage := rfl

/-- A rank is decided once it was, or once it is the one that decides. -/
@[simp] theorem recordDecision_decided :
    (g.recordDecision account request guard outcome reason order).decided.has rank =
      (decide (rank = guard.transportRank) || g.decided.has rank) := by
  show (if g.decided.has guard.transportRank then g.decided
    else g.decided.set guard.transportRank outcome).has rank = _
  by_cases hold : g.decided.has guard.transportRank = true
  · rw [if_pos hold]
    by_cases hrank : rank = guard.transportRank
    · simp [hrank, hold]
    · simp [hrank]
  · rw [if_neg hold, OrderedMap.has_set]

/-- Whoever is parked after a decision was parked before it, and still has to wait. -/
theorem mem_recordDecision_waiters {waiter : Nat × TaskId} :
    waiter ∈ (g.recordDecision account request guard outcome reason order).waiters ↔
      waiter ∈ g.waiters ∧
        (g.recordDecision account request guard outcome reason order).hedgesDecided waiter.1 =
          false := by
  show waiter ∈ List.filter _ g.waiters ↔ _
  rw [List.mem_filter, Bool.not_eq_true']
  exact Iff.rfl

theorem hedgesDecided_eq_false : g.hedgesDecided rank = false ↔
    g.hedgeCount ≤ rank ∧ ∃ hedge < g.hedgeCount, g.decided.has hedge = false := by
  simp [hedgesDecided, List.all_eq_false]

@[simp] theorem claimHedges_coverage_evidence :
    (g.claimHedges request).1.coverage.evidenceByRole = g.coverage.evidenceByRole := by
  simp only [claimHedges]
  split <;> simp

@[simp] theorem claimHedges_coverage_attemptId :
    (g.claimHedges request).1.coverage.attemptId = g.coverage.attemptId := by
  simp only [claimHedges]
  split <;> simp

/-- A claim only records claimants in the ledger. -/
theorem claimHedges_eq :
    (g.claimHedges request).1 = { g with coverage := (g.claimHedges request).1.coverage } := by
  simp only [claimHedges]
  split <;> rfl

/-- A claim without objection: every hedge rank has declared a requirement, and the
ledger proves it covered. -/
theorem claimHedges_none (h : (g.claimHedges request).2 = none) :
    ∀ hedge < g.hedgeCount, ∃ req, g.hedgeRequirements.get? hedge = some req ∧
      g.coverage.coverageFor req = none := by
  intro hedge hlt
  simp only [claimHedges] at h
  split at h
  · cases h
  · rename_i hdeclared
    have hsome : ∃ req, g.hedgeRequirements.get? hedge = some req := by
      have := List.find?_eq_none.mp hdeclared hedge (List.mem_range.mpr hlt)
      exact Option.ne_none_iff_exists'.mp (by simpa using this)
    obtain ⟨req, hreq⟩ := hsome
    refine ⟨req, hreq, ?_⟩
    split at h
    · rename_i hclaimed
      refine (HedgeCoverageLedger.claimCoverage_true hclaimed).2 req ?_
      exact List.mem_filterMap.mpr ⟨hedge, List.mem_range.mpr hlt, hreq⟩
    · cases h

/-- Evidence with a confirmed fill is a terminal broker snapshot. -/
theorem confirmed_evidence {filled : Nat}
    (h : (hedgeEvidenceFrom account request outcome reason order).confirmedFillQuantity =
      some filled) :
    ∃ o, order = some o ∧ isBrokerOrderTerminal o.state = true ∧ o.filledQuantity = filled ∧
      (hedgeEvidenceFrom account request outcome reason order).token = o.token ∧
      (hedgeEvidenceFrom account request outcome reason order).tradingsymbol =
        o.tradingsymbol ∧
      (hedgeEvidenceFrom account request outcome reason order).side = o.side := by
  cases hfilter : order.filter fun o => isBrokerOrderTerminal o.state with
  | some o =>
      obtain ⟨rfl, hterminal⟩ := Option.filter_eq_some_iff.mp hfilter
      simp only [hedgeEvidenceFrom, hfilter, Option.some.injEq] at h ⊢
      exact ⟨o, rfl, hterminal, h, rfl, rfl, rfl⟩
  | none =>
      simp only [hedgeEvidenceFrom, hfilter] at h
      cases outcome with
      | posted => cases h
      | noPost => cases h

@[simp] theorem evidence_role :
    (hedgeEvidenceFrom account request outcome reason order).role = request.role := by
  simp only [hedgeEvidenceFrom]
  split <;> rfl

end EntryTransportGate

namespace EntryTransportGates

variable {gates : EntryTransportGates} {account : String} {request : BrokerOrderRequest}
variable {guard : LiveEntryTransportGuard} {outcome : TransportOutcome} {i : TaskId}
variable {reason : Option String} {order : Option BrokerOrder} {attempt : AttemptId}
variable {g : EntryTransportGate}

/-- The gate a leg registers in. -/
def registering (gates : EntryTransportGates) (request : BrokerOrderRequest)
    (guard : LiveEntryTransportGuard) : EntryTransportGate :=
  (gates.get? request.attemptId).getD (EntryTransportGate.create request.attemptId guard)

theorem ensure_get :
    (gates.ensure account request guard).get? attempt =
      if attempt = request.attemptId then
        some ((gates.registering request guard).register account request guard)
      else gates.get? attempt :=
  OrderedMap.get?_set

/-- What can be found in the gates after a decision. -/
theorem decideRank_get
    (h : (gates.decideRank account request guard outcome reason order).get? attempt =
      some g) :
    (attempt ≠ request.attemptId ∧ gates.get? attempt = some g) ∨
      (attempt = request.attemptId ∧ ∃ before, gates.get? request.attemptId = some before ∧
        g = before.recordDecision account request guard outcome reason order) := by
  rw [decideRank] at h
  cases hbefore : gates.get? request.attemptId with
  | none =>
      rw [hbefore] at h
      refine .inl ⟨?_, h⟩
      rintro rfl
      rw [hbefore] at h
      cases h
  | some before =>
      simp only [hbefore] at h
      by_cases hattempt : attempt = request.attemptId
      · refine .inr ⟨hattempt, before, rfl, ?_⟩
        split at h
        · simp [hattempt] at h
        · rw [OrderedMap.get?_set, if_pos hattempt] at h
          exact (Option.some.inj h).symm
      · refine .inl ⟨hattempt, ?_⟩
        split at h
        · rwa [OrderedMap.get?_delete, if_neg hattempt] at h
        · rwa [OrderedMap.get?_set, if_neg hattempt] at h

/-- What can be found in the gates after a leg has come to the barrier. -/
theorem awaitTurn_get (h : (gates.awaitTurn request guard i).get? attempt = some g) :
    gates.get? attempt = some g ∨
      (attempt = request.attemptId ∧ ∃ before, gates.get? request.attemptId = some before ∧
        guard.hedge = false ∧ before.hedgesDecided guard.transportRank = false ∧
        g = { before with waiters := before.waiters ++ [(guard.transportRank, i)] }) := by
  rw [awaitTurn] at h
  cases hbefore : gates.get? request.attemptId with
  | none =>
      rw [hbefore] at h
      exact .inl h
  | some before =>
      simp only [hbefore] at h
      split at h
      · exact .inl h
      · rename_i hwaits
        rw [Bool.or_eq_true, not_or, Bool.not_eq_true, Bool.not_eq_true] at hwaits
        by_cases hattempt : attempt = request.attemptId
        · rw [OrderedMap.get?_set, if_pos hattempt] at h
          exact .inr ⟨hattempt, before, rfl, hwaits.1, hwaits.2, (Option.some.inj h).symm⟩
        · rw [OrderedMap.get?_set, if_neg hattempt] at h
          exact .inl h

/-- A claim changes a gate only in the claimants of its ledger. -/
theorem hedgeCoverageGap_get
    (h : (gates.hedgeCoverageGap request guard).1.get? attempt = some g) :
    ∃ before, gates.get? attempt = some before ∧
      g = { before with coverage := g.coverage } ∧
      g.coverage.evidenceByRole = before.coverage.evidenceByRole ∧
      g.coverage.attemptId = before.coverage.attemptId := by
  rw [hedgeCoverageGap] at h
  split at h
  · exact ⟨g, h, rfl, rfl, rfl⟩
  · cases hbefore : gates.get? request.attemptId with
    | none =>
        simp only [hbefore] at h
        exact ⟨g, h, rfl, rfl, rfl⟩
    | some before =>
        simp only [hbefore] at h
        by_cases hattempt : attempt = request.attemptId
        · rw [OrderedMap.get?_set, if_pos hattempt] at h
          obtain rfl := Option.some.inj h
          rw [hattempt]
          exact ⟨before, hbefore, EntryTransportGate.claimHedges_eq, by simp, by simp⟩
        · rw [OrderedMap.get?_set, if_neg hattempt] at h
          exact ⟨g, h, rfl, rfl, rfl⟩

/-- A dependent leg without objection has a gate that proves every hedge covered. -/
theorem hedgeCoverageGap_none (hdependent : guard.hedge = false)
    (h : (gates.hedgeCoverageGap request guard).2 = none) :
    ∃ g, gates.get? request.attemptId = some g ∧
      ∀ hedge < g.hedgeCount, ∃ req, g.hedgeRequirements.get? hedge = some req ∧
        g.coverage.coverageFor req = none := by
  rw [hedgeCoverageGap, hdependent] at h
  cases hbefore : gates.get? request.attemptId with
  | none =>
      simp [hbefore] at h
  | some g =>
      simp only [hbefore] at h
      exact ⟨g, rfl, EntryTransportGate.claimHedges_none h⟩

end EntryTransportGates

end Strikedge.Orders
