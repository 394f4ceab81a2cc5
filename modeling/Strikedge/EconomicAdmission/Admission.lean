import Strikedge.EconomicAdmission.Evidence
import Strikedge.Orders.Scheduling

/-!
# Economic admission of an entry

Before any leg is sent the funds and the basket margin are read, aged at one instant after
the reads, and compared with what the entry needs: its worst funding stage in hedge-first
order, or else the margin, or else the gross cost. What an admission rested on is kept, and
checked once more when a leg is about to be sent. Amounts are in rupees unless they are named
in paise.
-/

namespace Strikedge.EconomicAdmission

open Machine Orders

inductive EconomicProvenance where
  | brokerConfirmed
  | estimate
  | unavailable
  | stale
  | invalid
  deriving DecidableEq, Repr

/-- Only a finite value is one. -/
structure EconomicFigure where
  valueRupees : Option ℚ
  provenance : EconomicProvenance
  usable : Bool
  deriving DecidableEq, Repr

def unknownFigure : EconomicFigure := ⟨none, .unavailable, false⟩

def provenanceOf : EvidenceStatus → EconomicProvenance
  | .usable => .brokerConfirmed
  | .stale => .stale
  | .invalid => .invalid
  | .unavailable => .unavailable

def brokerFigure (valueRupees : Option Number) (aged : AgedEvidence) : EconomicFigure :=
  match valueRupees.bind Number.finite? with
  | none => unknownFigure
  | some value => ⟨some value, provenanceOf aged.status, aged.status = .usable⟩

def estimateFigure (valueRupees : Option ℚ) : EconomicFigure :=
  match valueRupees with
  | none => unknownFigure
  | some value => ⟨some value, .estimate, true⟩

def fromPaise (paise : Int) : ℚ := paise / 100

def toPaise (rupees : ℚ) : Int := ⌊rupees * 100 + 1 / 2⌋

def priced (r : BrokerOrderRequest) : Bool :=
  decide (0 < r.quantity) && decide (0 < r.pricing.limitPrice)

def legPaise (r : BrokerOrderRequest) : Int := r.pricing.limitPrice * r.quantity

/-- The gross notional of the legs that are priced, and whether these are all that are
expected. -/
structure BoxCapitalMetrics where
  grossPaise : Int
  complete : Bool
  deriving DecidableEq, Repr

def grossEntryOrderNotional (requests : List BrokerOrderRequest) (expectedLegCount : Nat) :
    BoxCapitalMetrics where
  grossPaise := ((requests.filter priced).map legPaise).sum
  complete := requests.all priced && decide ((requests.filter priced).length = expectedLegCount)

/-- The gross cost at the limit prices, for four priced legs. -/
def worstCaseEntryCost (requests : List BrokerOrderRequest) : Option ℚ :=
  let metrics := grossEntryOrderNotional requests 4
  if metrics.complete then some (fromPaise metrics.grossPaise) else none

structure FundingStages where
  requirements : List (Option ℚ) := []
  unknown : List String := []
  hedgeFirstValid : Bool := true
  debitPaise : Int := 0
  seenSell : Bool := false
  deriving DecidableEq, Repr

/-- The order of a role: the last request for it. -/
def byRole (requests : List BrokerOrderRequest) (role : BoxLegRole) : Option BrokerOrderRequest :=
  requests.reverse.find? (·.role = role)

/-- The stage at which the order of a slot has been sent. Only the last stage may count on the
margin of the completed basket. -/
def fundingStage (requests : List BrokerOrderRequest) (initial final : Option Number)
    (count : Nat) (stages : FundingStages) (slot : EntrySubmissionSlot) : FundingStages :=
  let request := (byRole requests slot.role).filter priced
  let debit := stages.debitPaise +
    (if slot.side = .buy then (request.map legPaise).getD 0 else 0)
  let isFinal := stages.requirements.length + 1 = count
  let margin := (if isFinal then final else initial).bind Number.finite?
  let (requirement, problem) : Option ℚ × Option String :=
    if request.isNone then (none, some (slot.role.text ++ ":unpriced"))
    else
      match margin with
      | none => (none,
          some (slot.role.text ++ ":no_" ++ (if isFinal then "final" else "initial") ++ "_margin"))
      | some margin => (some (max margin (fromPaise debit)), none)
  { requirements := stages.requirements ++ [requirement]
    unknown := stages.unknown ++ problem.toList
    hedgeFirstValid := stages.hedgeFirstValid && !(slot.side = .buy && stages.seenSell)
    debitPaise := debit
    seenSell := stages.seenSell || slot.side = .sell }

def buildFundingStages (requests : List BrokerOrderRequest)
    (transportOrder : List EntrySubmissionSlot) (initial final : Option Number) : FundingStages :=
  let ordered := transportOrder.insertionSort fun a b => a.rank ≤ b.rank
  let stages := ordered.foldl (fundingStage requests initial final ordered.length) {}
  if stages.hedgeFirstValid then stages
  else { stages with unknown := stages.unknown ++ ["sequence:not_hedge_first"] }

structure FundingInputs where
  transportOrder : List EntrySubmissionSlot
  initialMarginRupees : Option Number
  finalMarginRupees : Option Number
  encumbranceRupees : Option Number
  recoveryReserveRupees : Number
  deriving DecidableEq, Repr

structure FundingPicture where
  bindingRequirement : EconomicFigure
  unknownStages : List String
  hedgeFirstSequenceValid : Bool
  deriving DecidableEq, Repr

/-- The worst stage, the charges, the reserve and the encumbrance, if all of them are known. -/
def buildFundingPicture (requests : List BrokerOrderRequest) (marginAged : AgedEvidence)
    (estimatedChargesRupees : Option Number) (inputs : FundingInputs) : FundingPicture :=
  let stages := buildFundingStages requests inputs.transportOrder inputs.initialMarginRupees
    inputs.finalMarginRupees
  let marginUsable := decide (marginAged.status = .usable)
  let worst := (stages.requirements.filterMap id).max?
  let worst := if stages.unknown = [] ∧ marginUsable then worst else none
  let reserve := (inputs.recoveryReserveRupees.finite?.filter (0 ≤ ·)).getD 0
  let binding := do
    let worst ← worst
    let charges ← estimatedChargesRupees.bind Number.finite?
    let encumbrance ← inputs.encumbranceRupees.bind Number.finite?
    return worst + charges + reserve + encumbrance
  { bindingRequirement :=
      match binding with
      | none => unknownFigure
      | some binding =>
        ⟨some binding, if marginUsable then .brokerConfirmed else .stale, marginUsable⟩
    unknownStages := stages.unknown
    hedgeFirstSequenceValid := stages.hedgeFirstValid }

structure EconomicPicture where
  availableFunds : EconomicFigure
  plannedMargin : EconomicFigure
  worstCaseEntry : EconomicFigure
  grossNotionalMetrics : BoxCapitalMetrics
  funding : Option FundingPicture
  deriving DecidableEq, Repr

/-- The arguments of `buildEconomicPicture`. -/
structure EconomicInputs where
  requests : List BrokerOrderRequest
  availableFundsRupees : Option Number
  availableFundsAged : AgedEvidence
  plannedMarginRupees : Option Number
  plannedMarginAged : AgedEvidence
  estimatedChargesRupees : Option Number
  expectedLegCount : Nat := 4
  funding : Option FundingInputs
  deriving DecidableEq, Repr

def buildEconomicPicture (inputs : EconomicInputs) : EconomicPicture where
  availableFunds := brokerFigure inputs.availableFundsRupees inputs.availableFundsAged
  plannedMargin := brokerFigure inputs.plannedMarginRupees inputs.plannedMarginAged
  worstCaseEntry := estimateFigure (worstCaseEntryCost inputs.requests)
  grossNotionalMetrics := grossEntryOrderNotional inputs.requests inputs.expectedLegCount
  funding := inputs.funding.map
    (buildFundingPicture inputs.requests inputs.plannedMarginAged inputs.estimatedChargesRupees)

inductive EconomicRefusalReason where
  | grossNotionalOverCap
  | insufficientAvailableFunds
  | marginEvidenceStaleOrMissing
  | marginEvidenceInvalid
  | fundsEvidenceInvalid
  | fundingStageUnknown
  | hedgeSequenceInvalid
  | metricIncomplete
  deriving DecidableEq, Repr

def grossCapReasons (metrics : BoxCapitalMetrics) (grossCapRupees : Number) :
    List EconomicRefusalReason :=
  match grossCapRupees.finite?.filter (0 < ·) with
  | none => []
  | some cap =>
    if metrics.complete = false then [.metricIncomplete]
    else if toPaise cap < metrics.grossPaise then [.grossNotionalOverCap]
    else []

def marginReasons (margin : EconomicFigure) : List EconomicRefusalReason :=
  if margin.usable then []
  else if margin.provenance = .invalid then [.marginEvidenceInvalid]
  else [.marginEvidenceStaleOrMissing]

def stageReasons : Option FundingPicture → List EconomicRefusalReason
  | none => [.fundingStageUnknown]
  | some funding =>
    (if funding.hedgeFirstSequenceValid then [] else [.hedgeSequenceInvalid]) ++
      if funding.unknownStages ≠ [] ∨ funding.bindingRequirement.usable = false then
        [.fundingStageUnknown]
      else []

/-- What the funds must cover: the strongest requirement that can be proven. -/
def requirement (picture : EconomicPicture) : Option ℚ :=
  let binding := picture.funding.bind fun funding =>
    if funding.bindingRequirement.usable then funding.bindingRequirement.valueRupees else none
  let margin := if picture.plannedMargin.usable then picture.plannedMargin.valueRupees else none
  binding.or (margin.or picture.worstCaseEntry.valueRupees)

def fundsReasons (picture : EconomicPicture) : List EconomicRefusalReason :=
  if picture.availableFunds.provenance = .invalid then [.fundsEvidenceInvalid]
  else
    match picture.availableFunds.usable, picture.availableFunds.valueRupees with
    | true, some funds =>
      match requirement picture with
      | none => [.metricIncomplete]
      | some need => if funds < need then [.insufficientAvailableFunds] else []
    | _, _ => [.insufficientAvailableFunds]

/-- The reasons for a refusal: none of them, and the entry is admitted. -/
def evaluateEconomicAdmission (picture : EconomicPicture) (grossCapRupees : Number)
    (requireFundsCover requireMarginEvidence requireStageFunding : Bool) :
    List EconomicRefusalReason :=
  grossCapReasons picture.grossNotionalMetrics grossCapRupees ++
    (if requireMarginEvidence then marginReasons picture.plannedMargin else []) ++
    (if requireStageFunding then stageReasons picture.funding else []) ++
    -- Stage funding implies the comparison with the funds.
    (if requireFundsCover || requireStageFunding then fundsReasons picture else [])

structure EconomicConfig where
  live : Bool
  liveRequireFundsCover : Bool
  liveRequireMarginEvidence : Bool
  liveRequireStageFunding : Bool
  liveFundsFreshnessMaxAgeMs : Number
  liveMarginFreshnessMaxAgeMs : Number
  liveEvidenceFutureSkewGraceMs : Number
  liveMaxBoxCapitalRupees : Number
  liveRecoveryReserveRupees : Number
  deriving DecidableEq, Repr

def EconomicConfig.fundsRequired (cfg : EconomicConfig) : Bool :=
  cfg.liveRequireFundsCover || cfg.liveRequireStageFunding

def EconomicConfig.marginRequired (cfg : EconomicConfig) : Bool :=
  cfg.liveRequireMarginEvidence || cfg.liveRequireStageFunding

structure AvailableFunds where
  availableRupees : Option Number
  utilisedRupees : Option Number
  deriving DecidableEq, Repr

structure PlannedMargin where
  marginRupees : Option Number
  initialMarginRupees : Option Number
  finalMarginRupees : Option Number
  encumbranceRupees : Option Number
  deriving DecidableEq, Repr

/-- What is spendable, by the declared semantics of each broker: the figure of Zerodha is net
of what is blocked, that of Dhan is read as gross. -/
def usableFundsRupees (broker : Option String) (funds : Option AvailableFunds) : Option ℚ :=
  let available := funds.bind fun f => f.availableRupees.bind Number.finite?
  let utilised := funds.bind fun f => f.utilisedRupees.bind Number.finite?
  if broker = some "zerodha" then available
  else if broker = some "dhan" then available.bind fun a => utilised.map (a - ·)
  else none

/-- What `evaluateEntryEconomics` has read. -/
structure Evaluation where
  requests : List BrokerOrderRequest
  direction : BoxDirection
  funds : TimedObservation AvailableFunds
  margin : TimedObservation PlannedMargin
  evaluatedAt : EvidenceInstant
  currentIdentity : Option EvidenceIdentity
  chargesForRequests : Option Number
  deriving DecidableEq, Repr

/-- What an admission rested on. The requests are bookkeeping. -/
structure EconomicEvidence where
  fundsObservedAtMono : Option Number
  marginObservedAtMono : Option Number
  fundsMaxAgeMs : Number
  marginMaxAgeMs : Number
  requests : List BrokerOrderRequest
  planFingerprint : String
  plan_eq : planFingerprint = orderPlanFingerprint requests
  identity : Option EvidenceIdentity
  fundsRequired : Bool
  marginRequired : Bool
  deriving DecidableEq

namespace Evaluation

variable (cfg : EconomicConfig) (e : Evaluation)

def fundsAged : AgedEvidence :=
  ageEvidence e.funds e.evaluatedAt cfg.liveFundsFreshnessMaxAgeMs
    cfg.liveEvidenceFutureSkewGraceMs e.currentIdentity

def marginAged : AgedEvidence :=
  ageEvidence e.margin e.evaluatedAt cfg.liveMarginFreshnessMaxAgeMs
    cfg.liveEvidenceFutureSkewGraceMs e.currentIdentity

def fundingInputs : Option FundingInputs :=
  e.margin.value.bind fun margin =>
    if margin.initialMarginRupees.isSome ∨ margin.finalMarginRupees.isSome then
      some {
        transportOrder := entrySubmissionOrder e.direction
        initialMarginRupees := margin.initialMarginRupees
        finalMarginRupees := margin.finalMarginRupees
        encumbranceRupees :=
          (e.funds.value.bind (·.utilisedRupees)).or margin.encumbranceRupees
        recoveryReserveRupees := cfg.liveRecoveryReserveRupees }
    else none

/-- What the gateway gives to `buildEconomicPicture`. -/
def inputs : EconomicInputs where
  requests := e.requests
  availableFundsRupees :=
    (usableFundsRupees (e.currentIdentity.map (·.broker)) e.funds.value).map .finite
  availableFundsAged := e.fundsAged cfg
  plannedMarginRupees := e.margin.value.bind (·.marginRupees)
  plannedMarginAged := e.marginAged cfg
  estimatedChargesRupees := e.chargesForRequests
  expectedLegCount := boxLegRoles.length
  funding := e.fundingInputs cfg

def reasons : List EconomicRefusalReason :=
  evaluateEconomicAdmission (buildEconomicPicture (e.inputs cfg)) cfg.liveMaxBoxCapitalRupees
    cfg.liveRequireFundsCover cfg.liveRequireMarginEvidence cfg.liveRequireStageFunding

def evidence : EconomicEvidence where
  fundsObservedAtMono := e.funds.observedAt.map (·.mono)
  marginObservedAtMono := e.margin.observedAt.map (·.mono)
  fundsMaxAgeMs := cfg.liveFundsFreshnessMaxAgeMs
  marginMaxAgeMs := cfg.liveMarginFreshnessMaxAgeMs
  requests := e.requests
  planFingerprint := orderPlanFingerprint e.requests
  plan_eq := rfl
  identity := e.currentIdentity
  fundsRequired := cfg.fundsRequired
  marginRequired := cfg.marginRequired

/-- Paper trading, and live trading without a control, have nothing to evaluate. -/
def controlled : Bool :=
  cfg.live && (cfg.liveRequireFundsCover || cfg.liveRequireMarginEvidence ||
    cfg.liveRequireStageFunding)

/-- The entry is admitted by a control. -/
def admitted : Bool := controlled cfg && (e.reasons cfg).isEmpty

/-- The evidence the gateway keeps once an entry has been evaluated. -/
def evaluateEntryEconomics (kept : Option EconomicEvidence) : Option EconomicEvidence :=
  if controlled cfg = false then kept
  else if (e.reasons cfg).isEmpty then some (e.evidence cfg)
  else none

end Evaluation

inductive BoundaryRefusal where
  | fundsExpired (ageMs : Option ℚ)
  | marginExpired (ageMs : Option ℚ)
  | identity (mismatch : IdentityMismatch)
  | planChanged (leg : String)
  deriving DecidableEq, Repr

/-- The age of an instant is missing or over the bound. -/
def expired (observedAtMono mono maxAgeMs : Number) : Bool :=
  (monoElapsed (some observedAtMono) (some mono)).all fun age => maxAgeMs.less (.finite age)

/-- The last check before a leg is sent. Nothing kept is nothing to check. -/
def economicSendBoundary (kept : Option EconomicEvidence) (request : BrokerOrderRequest)
    (mono : Number) (currentIdentity : Option EvidenceIdentity) : Option BoundaryRefusal :=
  match kept with
  | none => none
  | some evidence =>
    match evidence.fundsObservedAtMono.filter fun at' =>
        evidence.fundsRequired && expired at' mono evidence.fundsMaxAgeMs with
    | some at' => some (.fundsExpired (monoElapsed (some at') (some mono)))
    | none =>
      match evidence.marginObservedAtMono.filter fun at' =>
          evidence.marginRequired && expired at' mono evidence.marginMaxAgeMs with
      | some at' => some (.marginExpired (monoElapsed (some at') (some mono)))
      | none =>
        match identityMismatch evidence.identity currentIdentity with
        | some mismatch => some (.identity mismatch)
        | none =>
          let leg := orderPlanFingerprint [request]
          if leg ∈ split evidence.planFingerprint then none else some (.planChanged leg)

end Strikedge.EconomicAdmission
