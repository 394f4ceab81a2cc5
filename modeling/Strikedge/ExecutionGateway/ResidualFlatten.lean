import Strikedge.ExecutionGateway.PartialEntry

/-!
# Flattening a residual leg

`flattenResidual` and `residualFlatten.ts`. A pass works one residual leg: it picks the
identity of the order from the generation the residual carries and the durable journal,
submits or adopts that order, and classifies the outcome. The accounting then credits what
the broker filled beyond the watermark the residual carries, and the disposition says which
generation the next pass uses. Charges are whole paise. A number of a row that is not
finite reads like a negative one.
-/

namespace Strikedge.ExecutionGateway

open Orders

structure ResidualLegExposure where
  token : Nat
  tradingsymbol : String
  exchange : Option String
  role : BoxLegRole
  side : OrderSide
  quantity : Nat
  createdAt : Nat
  flattenAttempt : Option Int := none
  flattenAccountedFilled : Option Int := none
  flattenAccountedCharges : Option Int := none
  deriving DecidableEq, Repr

def firstResidualFlattenAttempt : Nat := 1

def maxResidualFlattenAttemptProbe : Nat := 64

/-- The generation of the residual's next submission. A missing or a corrupt value reads as
the first one. -/
def residualFlattenAttempt (residual : ResidualLegExposure) : Nat :=
  match residual.flattenAttempt with
  | none => firstResidualFlattenAttempt
  | some raw =>
      if (firstResidualFlattenAttempt : Int) ≤ raw then raw.toNat
      else firstResidualFlattenAttempt

/-- `residualFlattenAttemptId` inside `boxClientOrderId`. -/
def residualIdentity (keyPrefix base : String) (role : BoxLegRole) (attempt : Nat) :
    ClientOrderId :=
  s!"BOX:{keyPrefix}:EMERGENCY_RESIDUAL:{role.text}:{base}-attempt-{attempt}"

inductive ResidualFlattenDisposition where
  | flattened
  | retireAttempt
  | reuseAttempt
  | adoptAttempt
  deriving DecidableEq, Repr

inductive ResidualFlattenFailureKind where
  | noExecutableBook
  | gateRefused
  | alreadyInFlight
  | localPreSubmitRefused
  | brokerRejected
  | persistenceAfterFill
  | brokerStateUnknown
  | identityConflict
  | unexpected
  deriving DecidableEq, Repr

namespace ResidualFlattenFailureKind

def text : ResidualFlattenFailureKind → String
  | .noExecutableBook => "no_executable_book"
  | .gateRefused => "gate_refused"
  | .alreadyInFlight => "already_in_flight"
  | .localPreSubmitRefused => "local_pre_submit_refused"
  | .brokerRejected => "broker_rejected"
  | .persistenceAfterFill => "persistence_after_fill"
  | .brokerStateUnknown => "broker_state_unknown"
  | .identityConflict => "identity_conflict"
  | .unexpected => "unexpected"

/-- `residualFailurePhrase` -/
def phrase : ResidualFlattenFailureKind → String
  | .noExecutableBook => "no executable book on the reducing side"
  | .gateRefused => "an order-manager gate refused the reduction before the broker"
  | .alreadyInFlight => "the same attempt is already queued or in flight"
  | .localPreSubmitRefused => "current executable-feed authority refused before broker POST"
  | .brokerRejected => "the broker terminally rejected the reduction"
  | .persistenceAfterFill => "filled but its durable snapshot failed"
  | .brokerStateUnknown =>
      "uncertain broker terminal quantity; quarantined for reconciliation"
  | .identityConflict =>
      "a stale durable intent blocked this attempt; the generation was retired past it"
  | .unexpected => "an unclassified internal fault"

/-- `residualFailureIsInvariant` -/
def isInvariant : ResidualFlattenFailureKind → Bool
  | .persistenceAfterFill | .brokerStateUnknown | .identityConflict | .unexpected => true
  | _ => false

end ResidualFlattenFailureKind

/-- The disposition a failure kind implies. -/
def dispositionForFailure : ResidualFlattenFailureKind → ResidualFlattenDisposition
  | .noExecutableBook | .gateRefused | .alreadyInFlight => .reuseAttempt
  | .localPreSubmitRefused => .retireAttempt
  | .brokerRejected => .adoptAttempt
  | .identityConflict => .retireAttempt
  | .persistenceAfterFill | .brokerStateUnknown => .adoptAttempt
  | .unexpected => .adoptAttempt

/-- `/reused with different immutable field/i` -/
def identityConflictText (message : String) : Bool :=
  mentions ["reused with different immutable field"] message

def classifyResidualFlattenErrorMessage (message : String) : ResidualFlattenFailureKind :=
  if identityConflictText message then .identityConflict
  else if mentions ["already queued or active"] message then .alreadyInFlight
  else if mentions ["unknown", "ambiguous", "reconcil", "timeout", "time out", "timedout",
      "timed out"] message then .brokerStateUnknown
  else if mentions ["quantity limits", "exposure management", "controls or limits",
      "exposure changed while", "disabled while"] message then .gateRefused
  else .unexpected

/-- Classify the order a residual submission returned. -/
def classifyResidualOrder (order : BrokerOrder) (requested : Nat) : ResidualFlattenDisposition :=
  if !isBrokerOrderTerminal order.state then .adoptAttempt
  else if order.state = .rejected then .adoptAttempt
  else if requested ≤ order.filledQuantity then .flattened
  else .retireAttempt

/-- The accounting a pass observed for its attempt. -/
structure ResidualFlattenAccounting where
  cumulativeFilled : Option Int
  cumulativeCharges : Option Int
  deriving DecidableEq, Repr

/-- Carry a residual to the next pass. Only a retired attempt advances, and what the pass
did not observe stays as the residual has it. -/
def carryResidualForward (residual : ResidualLegExposure) (quantity attempt : Nat)
    (disposition : ResidualFlattenDisposition) (accounting : ResidualFlattenAccounting) :
    ResidualLegExposure :=
  if disposition = .retireAttempt then
    { residual with
      quantity := quantity
      flattenAttempt := some (attempt + 1)
      flattenAccountedFilled := some 0
      flattenAccountedCharges := some 0 }
  else
    { residual with
      quantity := quantity
      flattenAttempt := some attempt
      flattenAccountedFilled :=
        accounting.cumulativeFilled.or residual.flattenAccountedFilled
      flattenAccountedCharges :=
        accounting.cumulativeCharges.or residual.flattenAccountedCharges }

structure ResidualFlattenPass where
  residual : ResidualLegExposure
  attempt : Nat
  order : Option BrokerOrder
  disposition : ResidualFlattenDisposition
  failure : Option ResidualFlattenFailureKind := none
  detail : Option String := none
  deriving DecidableEq, Repr

/-- The pass of a failure. -/
def failedPass (residual : ResidualLegExposure) (attempt : Nat)
    (kind : ResidualFlattenFailureKind) (detail : String) (order : Option BrokerOrder) :
    ResidualFlattenPass where
  residual := residual
  attempt := attempt
  order := order
  disposition := dispositionForFailure kind
  failure := some kind
  detail := some detail

/-- The reason `fail` hands to `manager.invariantViolation`. -/
def ResidualFlattenPass.violation (keyPrefix : String) (pass : ResidualFlattenPass) :
    Option String :=
  (pass.failure.filter (·.isInvariant)).map fun kind =>
    let detail := pass.detail.getD ""
    s!"residual {keyPrefix} {pass.residual.role.text} attempt-{pass.attempt} [{kind.text}]: " ++
      s!"{kind.phrase} — {detail}"

/-- The rejection was local and nothing reached the broker, by the audit of the row. -/
def hasDurableLocalNoPostProvenance (intent : BoxOrderIntent) : Bool :=
  decide (intent.state = .rejected ∧ intent.filledQuantity = 0 ∧ intent.brokerOrderId = none) &&
    intent.audit.any fun event =>
      decide (event.toState = .rejected) &&
        event.localRefusal.any fun (stage, _) => stage ∈ ["dequeue", "post_persist", "pre_post"]

/-- `brokerOrderFromDurableIntent` -/
def brokerOrderFromDurableIntent (intent : BoxOrderIntent) : BrokerOrder where
  clientOrderId := intent.clientOrderId
  brokerOrderId := intent.brokerOrderId
  tag := intent.brokerTag
  exchange := intent.exchange
  tradingsymbol := intent.tradingsymbol
  token := intent.token
  side := intent.side
  quantity := intent.quantity
  state := intent.state
  filledQuantity := intent.filledQuantity
  lastFillId := none
  rejectReason := intent.rejectReason

/-- What one probe of the journal decides: the attempt is this one, with its terminal row,
or it was refused locally and the next one is probed. -/
inductive ProbeVerdict where
  | select (terminalIntent : Option BoxOrderIntent)
  | skip
  deriving DecidableEq, Repr

/-- One turn of the loop of `firstAdoptableResidualAttempt`. -/
def probeVerdict : Except String (Option BoxOrderIntent) → ProbeVerdict
  | .error _ => .select none
  | .ok none => .select none
  | .ok (some existing) =>
      if existing.state = .rejected then
        if hasDurableLocalNoPostProvenance existing then .skip else .select (some existing)
      else if existing.state = .complete ∨ existing.state = .cancelled then
        .select (some existing)
      else .select none

/-- `firstAdoptableResidualAttempt`: the loop over the attempts, `fuel` of which are left. -/
def firstAdoptableResidualAttempt (probe : Nat → Except String (Option BoxOrderIntent)) :
    Nat → Nat → Nat × Option BoxOrderIntent
  | 0, attempt => (attempt, none)
  | fuel + 1, attempt =>
      match probeVerdict (probe attempt) with
      | .select terminalIntent => (attempt, terminalIntent)
      | .skip => firstAdoptableResidualAttempt probe fuel (attempt + 1)

/-- The pass that projects a terminal row. -/
def terminalPass (residual : ResidualLegExposure) (attempt : Nat) (intent : BoxOrderIntent) :
    ResidualFlattenPass :=
  let order := brokerOrderFromDurableIntent intent
  if order.state = .rejected then
    failedPass residual attempt .brokerRejected
      (order.rejectReason.getD "durable broker rejection") (some order)
  else
    { residual := residual
      attempt := attempt
      order := some order
      disposition := classifyResidualOrder order residual.quantity }

/-- The pass whose submission has settled. -/
def settledPass (residual : ResidualLegExposure) (attempt : Nat) :
    Except OrderError BrokerOrder → ResidualFlattenPass
  | .ok order =>
      let disposition := classifyResidualOrder order residual.quantity
      if disposition = .adoptAttempt then
        failedPass residual attempt .brokerStateUnknown
          s!"order state {order.state.text} is not terminal" (some order)
      else
        { residual := residual
          attempt := attempt
          order := some order
          disposition := disposition }
  | .error error =>
      match error with
      | .persistenceAfterFill order =>
          failedPass residual attempt .persistenceAfterFill error.message (some order)
      | .preSubmitRefused _ _ =>
          failedPass residual attempt .localPreSubmitRefused error.message none
      | .orderRejected order =>
          failedPass residual attempt .brokerRejected error.message (some order)
      | .ambiguousSubmit _ order =>
          failedPass residual attempt .brokerStateUnknown error.message order
      | .other message =>
          failedPass residual attempt (classifyResidualFlattenErrorMessage message) message none

/-- What the surroundings answer during a pass: the probes of the journal, an objection to
the book or of the precheck, and the settlement of `manager.submit`. -/
structure FlattenAnswers where
  probe : Nat → Except String (Option BoxOrderIntent)
  objection : Option String
  submission : Except OrderError BrokerOrder

/-- The attempt a pass works, with its terminal row. -/
def selectedAttempt (probe : Nat → Except String (Option BoxOrderIntent))
    (residual : ResidualLegExposure) : Nat × Option BoxOrderIntent :=
  firstAdoptableResidualAttempt probe maxResidualFlattenAttemptProbe
    (residualFlattenAttempt residual)

/-- `flattenOneResidual` -/
def flattenOneResidual (residual : ResidualLegExposure) (answers : FlattenAnswers) :
    ResidualFlattenPass :=
  match selectedAttempt answers.probe residual with
  | (attempt, some intent) => terminalPass residual attempt intent
  | (attempt, none) =>
      match answers.objection with
      | some detail => failedPass residual attempt .noExecutableBook detail none
      | none => settledPass residual attempt answers.submission

/-- `residualCumulativeCharges`: the estimate of the order's cumulative charge, if it can be
priced. -/
def residualCumulativeCharges (estimate : Nat → Option Nat) (filled : Nat) (fallback : Int) :
    Int :=
  if filled = 0 then fallback else ((estimate filled).map Int.ofNat).getD fallback

/-- What one pass adds to the books, and what it leaves. -/
structure PassAccount where
  fillDelta : Nat := 0
  chargeDelta : Int := 0
  disposition : ResidualFlattenDisposition
  accounting : ResidualFlattenAccounting
  violation : Option String := none
  deriving DecidableEq, Repr

/-- The highest readable watermark. -/
def readableWatermark (raw : Option Int) : Int := max 0 (raw.getD 0)

/-- The account of a pass whose order is judged against what is accounted already. -/
def orderAccount (keyPrefix : String) (estimate : Nat → Option Nat)
    (pass : ResidualFlattenPass) (order : BrokerOrder) (accountedFilled accountedCharges : Int) :
    PassAccount :=
  let brokerFilled := order.filledQuantity
  let brokerCharges := residualCumulativeCharges estimate brokerFilled accountedCharges
  let regression := (brokerFilled : Int) < accountedFilled ∨ order.quantity < brokerFilled
  let candidate := if regression then 0 else (brokerFilled - accountedFilled : Int)
  if regression ∨ (pass.residual.quantity : Int) < candidate then
    { disposition := .adoptAttempt
      accounting := ⟨some accountedFilled, some accountedCharges⟩
      violation := some <|
        s!"residual {keyPrefix} {pass.residual.role.text} attempt-{pass.attempt} cumulative " ++
        s!"accounting regressed or exceeded exposure (fill {accountedFilled} -> " ++
        s!"{brokerFilled}, charge {accountedCharges} -> {brokerCharges}, residual " ++
        s!"{pass.residual.quantity})" }
  else
    { fillDelta := candidate.toNat
      chargeDelta := max 0 (brokerCharges - accountedCharges)
      disposition := pass.disposition
      accounting := ⟨some (brokerFilled : Int), some (max accountedCharges brokerCharges)⟩ }

/-- The body of the loop over the passes of `flattenResidual`. -/
def accountPass (keyPrefix : String) (estimate : Nat → Option Nat)
    (pass : ResidualFlattenPass) : PassAccount :=
  let residual := pass.residual
  let sameGeneration := pass.attempt = residualFlattenAttempt residual
  let rawFilled := if sameGeneration then residual.flattenAccountedFilled else none
  let rawCharges := if sameGeneration then residual.flattenAccountedCharges else none
  match rawFilled, rawCharges with
  | none, none =>
      match pass.order with
      | none => { disposition := pass.disposition, accounting := ⟨none, none⟩ }
      | some order =>
          -- a row from before the watermarks: what was projected under its identity is what
          -- the quantity of the order has over the residual
          let accountedFilled := order.quantity - residual.quantity
          let accountedCharges := residualCumulativeCharges estimate accountedFilled 0
          orderAccount keyPrefix estimate pass order accountedFilled accountedCharges
  | rawFilled, rawCharges =>
      let valid := rawFilled.any (0 ≤ ·) && rawCharges.any (0 ≤ ·)
      let accountedFilled := readableWatermark rawFilled
      let accountedCharges := readableWatermark rawCharges
      if !valid then
        { disposition := .adoptAttempt
          accounting := ⟨some accountedFilled, some accountedCharges⟩
          violation := some <|
            s!"residual {keyPrefix} {residual.role.text} attempt-{pass.attempt} has " ++
            "inconsistent cumulative accounting watermarks" }
      else
        match pass.order with
        | none =>
            { disposition := pass.disposition
              accounting := ⟨some accountedFilled, some accountedCharges⟩ }
        | some order =>
            orderAccount keyPrefix estimate pass order accountedFilled accountedCharges

/-- What a pass leaves of its residual. -/
def remainingOf (pass : ResidualFlattenPass) (account : PassAccount) :
    Option ResidualLegExposure :=
  let outstanding := pass.residual.quantity - account.fillDelta
  if outstanding = 0 then none
  else some <|
    carryResidualForward pass.residual outstanding pass.attempt account.disposition
      account.accounting

structure FlattenResult where
  flattenedByRole : List (BoxLegRole × Nat)
  flattenCharges : Int
  remaining : List ResidualLegExposure
  legs : List BrokerOrder
  deriving DecidableEq, Repr

/-- `flattenResidual` in live mode: every residual has its own answers and its own estimates
of charges. -/
def flattenResidual (keyPrefix : String)
    (residuals : List (ResidualLegExposure × FlattenAnswers × (Nat → Option Nat))) :
    FlattenResult :=
  let passes := residuals.map fun (residual, answers, estimate) =>
    let pass := flattenOneResidual residual answers
    (pass, accountPass keyPrefix estimate pass)
  { flattenedByRole := passes.map fun (pass, account) => (pass.residual.role, account.fillDelta)
    flattenCharges := (passes.map (·.2.chargeDelta)).sum
    remaining := passes.filterMap fun (pass, account) => remainingOf pass account
    legs := passes.filterMap (·.1.order) }

end Strikedge.ExecutionGateway
