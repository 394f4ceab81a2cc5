import Strikedge.EconomicAdmission.Admission

/-!
# Admission and the send boundary

Admission adds the lag of the source to the age of a figure and looks at the account the
figure was read for. The send boundary has only the instant of receipt, and the identity at
admission. It lets a leg through that admission would no longer let through exactly where the
lag takes the figure over its bound, where the identity at admission lacked the reference
that has changed since, or where the evidence of the entry is no longer what is kept.
-/

namespace Strikedge.EconomicAdmission

open Machine Orders

variable {α : Type}

/-- The monotonic age of an instant, with a lag, is within a bound. -/
def Within (observedAtMono mono maxAgeMs lag : Number) : Prop :=
  ∃ age, monoElapsed (some observedAtMono) (some mono) = some age ∧
    maxAgeMs.less ((Number.finite age).plus lag) = false

/-- The lag that admission adds to the age of an observation. -/
def materialLag (observation : TimedObservation α) (received : EvidenceInstant)
    (futureSkewGraceMs : Number) : Number :=
  (usedLag received.wall observation.sourceObservedAtWall futureSkewGraceMs).getD (.finite 0)

/-- The figure is within its bound by its own age, and about the current account. -/
def StillGood (observation : TimedObservation α) (mono maxAgeMs futureSkewGraceMs : Number)
    (current : Option EvidenceIdentity) : Prop :=
  identityMismatch observation.identity current = none ∧
    ∀ received ∈ observation.observedAt,
      Within received.mono mono maxAgeMs (materialLag observation received futureSkewGraceMs)

/-- The stored instants are within their bounds, the stored identity agrees, and the leg is a
piece of the stored fingerprint. -/
structure Passes (evidence : EconomicEvidence) (leg : BrokerOrderRequest) (mono : Number)
    (current : Option EvidenceIdentity) : Prop where
  funds : evidence.fundsRequired = true → ∀ at' ∈ evidence.fundsObservedAtMono,
    Within at' mono evidence.fundsMaxAgeMs (.finite 0)
  margin : evidence.marginRequired = true → ∀ at' ∈ evidence.marginObservedAtMono,
    Within at' mono evidence.marginMaxAgeMs (.finite 0)
  identity : identityMismatch evidence.identity current = none
  plan : legFingerprint leg ∈ split evidence.planFingerprint

/-- The clock alone finds the figure in time, and the lag of its source takes it over the
bound. -/
def LagDecides (observation : TimedObservation α) (mono maxAgeMs futureSkewGraceMs : Number) :
    Prop :=
  ∃ received ∈ observation.observedAt, ∃ age,
    monoElapsed (some received.mono) (some mono) = some age ∧
      maxAgeMs.less (.finite age) = false ∧
      ∃ lag ∈ usedLag received.wall observation.sourceObservedAtWall futureSkewGraceMs,
        maxAgeMs.less ((Number.finite age).plus lag) = true

/-- The figure was read for another account or session than the current one, and the identity
at admission lacks the reference that would tell. -/
def HidesSwitch (read admitted current : Option EvidenceIdentity) : Prop :=
  ∃ was ∈ read, ∃ now ∈ current,
    match admitted with
    | none => identityMismatch (some was) (some now) ≠ none
    | some known =>
      known.accountRef = none ∧ differ was.accountRef now.accountRef ≠ none ∨
        known.sessionId = none ∧ differ was.sessionId now.sessionId ≠ none

/-- A fingerprint of the plan falls apart at a separator inside it, and the leg's fingerprint
is one of the pieces but none of the plan's own. -/
def Severed (requests : List BrokerOrderRequest) (leg : BrokerOrderRequest) : Prop :=
  legFingerprint leg ∉ requests.map legFingerprint ∧
    ∃ r ∈ requests, '|' ∈ (legFingerprint r).toList ∧
      legFingerprint leg ∈ split (legFingerprint r)

section Identity

variable {read admitted current : Option EvidenceIdentity}

theorem differ_eq_none_iff {x y : Option String} :
    differ x y = none ↔ ∀ a ∈ x, ∀ b ∈ y, a = b := by
  cases x with
  | none => simp [differ]
  | some a =>
      cases y with
      | none => simp [differ]
      | some b => simp [differ]

theorem identityMismatch_eq_none_iff :
    identityMismatch read current = none ↔ ∀ was ∈ read, ∀ now ∈ current,
      was.broker = now.broker ∧ differ was.accountRef now.accountRef = none ∧
        differ was.sessionId now.sessionId = none := by
  cases read with
  | none => simp [identityMismatch]
  | some was =>
      cases current with
      | none => simp [identityMismatch]
      | some now =>
          simp only [identityMismatch, Option.mem_some_iff, forall_eq']
          by_cases hbroker : was.broker = now.broker
          · cases haccount : differ was.accountRef now.accountRef with
            | some pair => simp [hbroker]
            | none =>
                cases hsession : differ was.sessionId now.sessionId with
                | some pair => simp [hbroker]
                | none => simp [hbroker]
          · simp [hbroker]

/-- Two references that agree with a known one agree with each other. -/
theorem differ_eq_none_of_known {x y : Option String} {known : String}
    (hx : differ x (some known) = none) (hy : differ (some known) y = none) :
    differ x y = none := by
  rw [differ_eq_none_iff] at hx hy ⊢
  intro a ha b hb
  exact (hx a ha known rfl).trans (hy known rfl b hb)

/-- Between two comparisons that found nothing, a switch stays hidden only in a reference that
the identity in the middle does not know. -/
theorem hidesSwitch_iff (hread : identityMismatch read admitted = none)
    (hcurrent : identityMismatch admitted current = none) :
    HidesSwitch read admitted current ↔ identityMismatch read current ≠ none := by
  constructor
  · rintro ⟨was, rfl, now, rfl, h⟩
    cases admitted with
    | none => exact h
    | some known =>
        rw [Ne, identityMismatch_eq_none_iff]
        intro hagree
        obtain ⟨-, haccount, hsession⟩ := hagree was rfl now rfl
        rcases h with ⟨-, h⟩ | ⟨-, h⟩
        · exact h haccount
        · exact h hsession
  · intro h
    cases read with
    | none => exact absurd (by simp [identityMismatch]) h
    | some was =>
        cases current with
        | none => exact absurd (by simp [identityMismatch]) h
        | some now =>
            refine ⟨was, rfl, now, rfl, ?_⟩
            cases admitted with
            | none => exact h
            | some known =>
                obtain ⟨hbroker, haccount, hsession⟩ :=
                  identityMismatch_eq_none_iff.mp hread was rfl known rfl
                obtain ⟨hbroker', haccount', hsession'⟩ :=
                  identityMismatch_eq_none_iff.mp hcurrent known rfl now rfl
                by_contra hknown
                simp only [not_or, not_and, not_not] at hknown
                refine h (identityMismatch_eq_none_iff.mpr fun x hx y hy => ?_)
                obtain rfl := Option.some.inj hx
                obtain rfl := Option.some.inj hy
                refine ⟨hbroker.trans hbroker', ?_, ?_⟩
                · cases href : known.accountRef with
                  | none => exact hknown.1 href
                  | some ref =>
                      rw [href] at haccount haccount'
                      exact differ_eq_none_of_known haccount haccount'
                · cases href : known.sessionId with
                  | none => exact hknown.2 href
                  | some ref =>
                      rw [href] at hsession hsession'
                      exact differ_eq_none_of_known hsession hsession'

end Identity

section Age

variable {observation : TimedObservation α} {evaluatedAt t : EvidenceInstant}
variable {maxAgeMs futureSkewGraceMs mono : Number} {current admitted : Option EvidenceIdentity}
variable {received : EvidenceInstant}

theorem expired_eq_false_iff {observedAtMono : Number} :
    expired observedAtMono mono maxAgeMs = false ↔
      Within observedAtMono mono maxAgeMs (.finite 0) := by
  rw [expired, Within]
  cases monoElapsed (some observedAtMono) (some mono) with
  | none => simp
  | some age => simp

/-- What `ageEvidence` asks of an observation whatever the instant. -/
structure WellTimed (observation : TimedObservation α) (futureSkewGraceMs : Number)
    (received : EvidenceInstant) : Prop where
  succeeded : observation.failure = none
  observed : observation.observedAt = some received
  source : observation.sourceObservedAtWall.any (·.finite?.isNone) = false
  notAhead : ahead received.wall observation.sourceObservedAtWall futureSkewGraceMs = false

theorem monoElapsed_finite {start stop : Number} {age : ℚ}
    (h : monoElapsed (some start) (some stop) = some age) :
    start.finite? ≠ none ∧ stop.finite? ≠ none := by
  rw [monoElapsed] at h
  split at h
  · rename_i hstart hstop
    simp only [Option.bind_some] at hstart hstop
    exact ⟨by simp [hstart], by simp [hstop]⟩
  · cases h

/-- Past the tests of identity and timestamps the age decides. -/
theorem usable_of_wellTimed (h : WellTimed observation futureSkewGraceMs received) :
    (ageEvidence observation t maxAgeMs futureSkewGraceMs current).status = .usable ↔
      identityMismatch observation.identity current = none ∧
        Within received.mono t.mono maxAgeMs
          (materialLag observation received futureSkewGraceMs) := by
  rw [ageEvidence, h.succeeded, h.observed]
  simp only [h.source, h.notAhead, Bool.false_eq_true, if_false, Within, materialLag]
  cases hid : identityMismatch observation.identity current with
  | some mismatch => simp
  | none =>
      cases helapsed : monoElapsed (some received.mono) (some t.mono) with
      | none =>
          simp only [Option.isSome_none, Bool.false_eq_true, if_false]
          split <;> simp
      | some age =>
          obtain ⟨hreceived, ht⟩ := monoElapsed_finite helapsed
          rw [if_neg (by simp), if_neg (by simp [hreceived, ht])]
          simp only [Option.some.injEq, exists_eq_left', true_and]
          split
          · rename_i hold
            simp [hold]
          · rename_i hfresh
            simpa using hfresh

/-- An observation that was usable is well timed. -/
theorem wellTimed_of_usable
    (h : (ageEvidence observation t maxAgeMs futureSkewGraceMs current).status = .usable) :
    ∃ received, WellTimed observation futureSkewGraceMs received := by
  rw [ageEvidence] at h
  split at h
  · rename_i received hfailure hobserved
    refine ⟨received, hfailure, hobserved, ?_, ?_⟩
    · refine Bool.eq_false_iff.mpr fun hsource => ?_
      simp only [hsource, if_true] at h
      split at h
      · cases h
      · split at h <;> cases h
    · refine Bool.eq_false_iff.mpr fun hahead => ?_
      simp only [hahead, if_true] at h
      split at h
      · cases h
      · split at h
        · cases h
        · split at h <;> cases h
  · cases h

theorem usable_iff (h : ∃ received, WellTimed observation futureSkewGraceMs received) :
    (ageEvidence observation t maxAgeMs futureSkewGraceMs current).status = .usable ↔
      StillGood observation t.mono maxAgeMs futureSkewGraceMs current := by
  obtain ⟨received, htimed⟩ := h
  rw [usable_of_wellTimed htimed, StillGood, htimed.observed]
  simp

/-- In time by the clock alone, a figure stays in time unless the lag decides. -/
theorem within_lag_iff
    (hin : ∀ received ∈ observation.observedAt, Within received.mono mono maxAgeMs (.finite 0)) :
    (∀ received ∈ observation.observedAt, Within received.mono mono maxAgeMs
        (materialLag observation received futureSkewGraceMs)) ↔
      ¬LagDecides observation mono maxAgeMs futureSkewGraceMs := by
  constructor
  · rintro h ⟨received, hreceived, age, helapsed, -, lag, hlag, hover⟩
    obtain ⟨age', helapsed', hunder⟩ := h received hreceived
    obtain rfl := Option.some.inj (helapsed.symm.trans helapsed')
    rw [materialLag, Option.mem_def.mp hlag, Option.getD_some, hover] at hunder
    cases hunder
  · intro h received hreceived
    obtain ⟨age, helapsed, hunder⟩ := hin received hreceived
    refine ⟨age, helapsed, ?_⟩
    rw [materialLag]
    cases hlag : usedLag received.wall observation.sourceObservedAtWall futureSkewGraceMs with
    | none => exact hunder
    | some lag =>
        refine Bool.eq_false_iff.mpr fun hover => h ?_
        exact ⟨received, hreceived, age, helapsed, by simpa using hunder, lag, hlag, hover⟩

/-- What passes by the clock alone and by the identity at admission is still good unless the
lag decides or a switch is hidden. -/
theorem stillGood_iff
    (hin : ∀ received ∈ observation.observedAt, Within received.mono mono maxAgeMs (.finite 0))
    (hread : identityMismatch observation.identity admitted = none)
    (hcurrent : identityMismatch admitted current = none) :
    StillGood observation mono maxAgeMs futureSkewGraceMs current ↔
      ¬LagDecides observation mono maxAgeMs futureSkewGraceMs ∧
        ¬HidesSwitch observation.identity admitted current := by
  rw [StillGood, within_lag_iff hin, hidesSwitch_iff hread hcurrent, not_not, and_comm]

end Age

section Boundary

variable {evidence : EconomicEvidence} {leg : BrokerOrderRequest} {mono : Number}
variable {current : Option EvidenceIdentity} {cfg : EconomicConfig} {a : Evaluation}

/-- A stored instant is refused if its control is required and it has expired. -/
theorem filter_expired_eq_none {observedAtMono : Option Number} {required : Bool}
    {maxAgeMs : Number} :
    (observedAtMono.filter fun at' => required && expired at' mono maxAgeMs) = none ↔
      (required = true → ∀ at' ∈ observedAtMono, Within at' mono maxAgeMs (.finite 0)) := by
  rw [Option.filter_eq_none_iff]
  constructor
  · intro h hrequired at' hat
    have hnot := h at' hat
    rw [hrequired, Bool.true_and] at hnot
    exact expired_eq_false_iff.mp (Bool.eq_false_iff.mpr hnot)
  · intro h at' hat hexpired
    rw [Bool.and_eq_true] at hexpired
    have hwithin := expired_eq_false_iff.mpr (h hexpired.1 at' hat)
    rw [hexpired.2] at hwithin
    cases hwithin

/-- The boundary is silent exactly when what it stored passes. -/
theorem boundary_none_iff :
    economicSendBoundary (some evidence) leg mono current = none ↔
      Passes evidence leg mono current := by
  rw [economicSendBoundary]
  constructor
  · intro h
    split at h
    · cases h
    · rename_i hfunds
      split at h
      · cases h
      · rename_i hmargin
        split at h
        · cases h
        · rename_i hidentity
          refine ⟨filter_expired_eq_none.mp hfunds, filter_expired_eq_none.mp hmargin,
            hidentity, ?_⟩
          rw [orderPlanFingerprint_singleton] at h
          by_contra hnot
          rw [if_neg hnot] at h
          cases h
  · intro h
    simp only [filter_expired_eq_none.mpr h.funds, filter_expired_eq_none.mpr h.margin, h.identity,
      orderPlanFingerprint_singleton, if_pos h.plan]

theorem legFingerprint_ne_empty : legFingerprint leg ≠ "" := by
  intro h
  have hchars := congrArg String.toList h
  rw [legFingerprint, String.intercalate_cons_cons] at hchars
  simp at hchars

/-- A leg is found in a stored plan as a piece of a fingerprint of the plan. -/
theorem mem_plan : legFingerprint leg ∈ split evidence.planFingerprint ↔
    ∃ r ∈ evidence.requests, legFingerprint leg ∈ split (legFingerprint r) := by
  rw [evidence.plan_eq, orderPlanFingerprint]
  by_cases hempty : evidence.requests = []
  · have hpieces : split (String.intercalate "|" (sortTexts ([].map legFingerprint))) = [""] := by
      decide
    rw [hempty, hpieces]
    simp [legFingerprint_ne_empty]
  · have hsorted : sortTexts (evidence.requests.map legFingerprint) ≠ [] := by
      obtain ⟨r, hr⟩ := List.exists_mem_of_ne_nil _ hempty
      exact List.ne_nil_of_mem (mem_sortTexts.mpr (List.mem_map_of_mem hr))
    rw [mem_split_intercalate hsorted]
    simp [mem_sortTexts]

/-- A leg found in a stored plan is one of the plan's own unless a fingerprint is severed. -/
theorem mem_requests_iff (hplan : legFingerprint leg ∈ split evidence.planFingerprint) :
    legFingerprint leg ∈ evidence.requests.map legFingerprint ↔
      ¬Severed evidence.requests leg := by
  constructor
  · intro hmem hsevered
    exact hsevered.1 hmem
  · intro hwhole
    by_contra hnot
    obtain ⟨r, hr, hpiece⟩ := mem_plan.mp hplan
    refine hwhole ⟨hnot, r, hr, ?_, hpiece⟩
    by_contra hclean
    rw [split_of_not_mem hclean, List.mem_singleton] at hpiece
    exact hnot (hpiece ▸ List.mem_map_of_mem hr)

theorem brokerFigure_usable {value : Option Number} {aged : AgedEvidence}
    (h : (brokerFigure value aged).usable = true) : aged.status = .usable := by
  rw [brokerFigure] at h
  split at h
  · cases h
  · exact of_decide_eq_true h

/-- An admitted entry has no reason against it from any control. -/
theorem reasons_eq_nil (h : a.admitted cfg = true) :
    (cfg.liveRequireMarginEvidence = true →
        marginReasons (buildEconomicPicture (a.inputs cfg)).plannedMargin = []) ∧
      (cfg.liveRequireStageFunding = true →
        stageReasons (buildEconomicPicture (a.inputs cfg)).funding = []) ∧
      (cfg.fundsRequired = true → fundsReasons (buildEconomicPicture (a.inputs cfg)) = []) := by
  rw [Evaluation.admitted, Bool.and_eq_true, List.isEmpty_iff, Evaluation.reasons,
    evaluateEconomicAdmission] at h
  obtain ⟨-, h⟩ := h
  simp only [List.append_eq_nil_iff] at h
  obtain ⟨⟨⟨-, hmargin⟩, hstage⟩, hfunds⟩ := h
  refine ⟨fun hrequired => ?_, fun hrequired => ?_, fun hrequired => ?_⟩
  · rwa [if_pos hrequired] at hmargin
  · rwa [if_pos hrequired] at hstage
  · rw [EconomicConfig.fundsRequired] at hrequired
    rwa [if_pos hrequired] at hfunds

/-- What an admission says about the observations of its required controls. -/
theorem fundsAged_usable (h : a.admitted cfg = true) (hrequired : cfg.fundsRequired = true) :
    (a.fundsAged cfg).status = .usable := by
  have hnone := (reasons_eq_nil h).2.2 hrequired
  rw [fundsReasons] at hnone
  split at hnone
  · cases hnone
  · split at hnone
    · rename_i husable hvalue
      exact brokerFigure_usable husable
    · cases hnone

theorem marginAged_usable (h : a.admitted cfg = true) (hrequired : cfg.marginRequired = true) :
    (a.marginAged cfg).status = .usable := by
  obtain ⟨hmargin, hstage, -⟩ := reasons_eq_nil h
  rw [EconomicConfig.marginRequired, Bool.or_eq_true] at hrequired
  rcases hrequired with hrequired | hrequired
  · have hnone := hmargin hrequired
    rw [marginReasons] at hnone
    split at hnone
    · rename_i husable
      exact brokerFigure_usable husable
    · split at hnone <;> cases hnone
  · -- The binding requirement of the stages rests on the margin.
    have hnone := hstage hrequired
    rw [buildEconomicPicture, Evaluation.inputs] at hnone
    cases hinputs : a.fundingInputs cfg with
    | none =>
        rw [hinputs] at hnone
        cases hnone
    | some inputs =>
        rw [hinputs] at hnone
        simp only [Option.map_some, stageReasons, List.append_eq_nil_iff] at hnone
        obtain ⟨-, hnone⟩ := hnone
        have husable : (buildFundingPicture a.requests (a.marginAged cfg) a.chargesForRequests
            inputs).bindingRequirement.usable = true := by
          by_contra hnot
          rw [if_pos (.inr (by simpa using hnot))] at hnone
          cases hnone
        rw [buildFundingPicture] at husable
        dsimp only at husable
        split at husable
        · cases husable
        · exact of_decide_eq_true husable

end Boundary

/-- At the boundary a leg of an admitted entry is refused if an observation its entry required
could not be used any more, and a leg that passes belongs to the plan that is kept. -/
structure Agrees (cfg : EconomicConfig) (a : Evaluation) (kept : Option EconomicEvidence)
    (leg : BrokerOrderRequest) (t : EvidenceInstant) (current : Option EvidenceIdentity) :
    Prop where
  funds : leg ∈ a.requests → cfg.fundsRequired = true →
    (ageEvidence a.funds t cfg.liveFundsFreshnessMaxAgeMs cfg.liveEvidenceFutureSkewGraceMs
      current).status ≠ .usable → economicSendBoundary kept leg t.mono current ≠ none
  margin : leg ∈ a.requests → cfg.marginRequired = true →
    (ageEvidence a.margin t cfg.liveMarginFreshnessMaxAgeMs cfg.liveEvidenceFutureSkewGraceMs
      current).status ≠ .usable → economicSendBoundary kept leg t.mono current ≠ none
  plan : ∀ evidence ∈ kept, economicSendBoundary kept leg t.mono current = none →
    legFingerprint leg ∈ evidence.requests.map legFingerprint

/-- What lets an observation through that is no longer good does not occur. While the evidence
of the entry itself is kept that is the lag of the source or a reference that was not known at
admission, and otherwise that nothing is kept or the evidence of another entry. -/
structure Carried (cfg : EconomicConfig) (a : Evaluation) (kept : Option EconomicEvidence)
    (leg : BrokerOrderRequest) (t : EvidenceInstant) (current : Option EvidenceIdentity)
    (observation : TimedObservation α) (maxAgeMs : Number) : Prop where
  sourceLag : kept = some (a.evidence cfg) → Passes (a.evidence cfg) leg t.mono current →
    ¬LagDecides observation t.mono maxAgeMs cfg.liveEvidenceFutureSkewGraceMs
  identity : kept = some (a.evidence cfg) → Passes (a.evidence cfg) leg t.mono current →
    ¬HidesSwitch observation.identity a.currentIdentity current
  dropped : kept = none →
    StillGood observation t.mono maxAgeMs cfg.liveEvidenceFutureSkewGraceMs current
  replaced : ∀ evidence ∈ kept, evidence ≠ a.evidence cfg →
    Passes evidence leg t.mono current →
      StillGood observation t.mono maxAgeMs cfg.liveEvidenceFutureSkewGraceMs current

/-- The exact condition. -/
structure Covered (cfg : EconomicConfig) (a : Evaluation) (kept : Option EconomicEvidence)
    (leg : BrokerOrderRequest) (t : EvidenceInstant) (current : Option EvidenceIdentity) :
    Prop where
  funds : leg ∈ a.requests → cfg.fundsRequired = true →
    Carried cfg a kept leg t current a.funds cfg.liveFundsFreshnessMaxAgeMs
  margin : leg ∈ a.requests → cfg.marginRequired = true →
    Carried cfg a kept leg t current a.margin cfg.liveMarginFreshnessMaxAgeMs
  separators : ∀ evidence ∈ kept, Passes evidence leg t.mono current →
    ¬Severed evidence.requests leg

section Agrees

variable {cfg : EconomicConfig} {a : Evaluation} {kept : Option EconomicEvidence}
variable {leg : BrokerOrderRequest} {t : EvidenceInstant} {current : Option EvidenceIdentity}
variable {observation : TimedObservation α} {maxAgeMs : Number}

theorem silent_iff : economicSendBoundary kept leg t.mono current = none ↔
    ∀ evidence ∈ kept, Passes evidence leg t.mono current := by
  cases kept with
  | none => simp [economicSendBoundary]
  | some evidence =>
      rw [boundary_none_iff]
      simp

/-- A required instant that is kept is never missing. -/
theorem evidence_instants (h : a.admitted cfg = true) :
    (cfg.fundsRequired = true → (a.evidence cfg).fundsObservedAtMono ≠ none) ∧
      (cfg.marginRequired = true → (a.evidence cfg).marginObservedAtMono ≠ none) := by
  refine ⟨fun hrequired => ?_, fun hrequired => ?_⟩
  · obtain ⟨received, htimed⟩ := wellTimed_of_usable (fundsAged_usable h hrequired)
    simp [Evaluation.evidence, htimed.observed]
  · obtain ⟨received, htimed⟩ := wellTimed_of_usable (marginAged_usable h hrequired)
    simp [Evaluation.evidence, htimed.observed]

/-- An observation of the entry that was usable at admission, whose instant the evidence of the
entry keeps under the same bound, is let through too late exactly by one of the causes. -/
theorem refused_iff_carried
    (hadmitted : (ageEvidence observation a.evaluatedAt maxAgeMs
      cfg.liveEvidenceFutureSkewGraceMs a.currentIdentity).status = .usable)
    (hkept : Passes (a.evidence cfg) leg t.mono current →
      ∀ received ∈ observation.observedAt, Within received.mono t.mono maxAgeMs (.finite 0)) :
    ((ageEvidence observation t maxAgeMs cfg.liveEvidenceFutureSkewGraceMs
        current).status ≠ .usable → economicSendBoundary kept leg t.mono current ≠ none) ↔
      Carried cfg a kept leg t current observation maxAgeMs := by
  have htimed := wellTimed_of_usable hadmitted
  have hread : identityMismatch observation.identity a.currentIdentity = none := by
    obtain ⟨received, h⟩ := htimed
    exact ((usable_of_wellTimed h).mp hadmitted).1
  rw [not_imp_not, usable_iff htimed, silent_iff]
  constructor
  · intro h
    have hown : kept = some (a.evidence cfg) → Passes (a.evidence cfg) leg t.mono current →
        ¬LagDecides observation t.mono maxAgeMs cfg.liveEvidenceFutureSkewGraceMs ∧
          ¬HidesSwitch observation.identity a.currentIdentity current := by
      rintro rfl hpasses
      exact (stillGood_iff (hkept hpasses) hread hpasses.identity).mp (h (by simpa using hpasses))
    refine ⟨fun hkeeps hpasses => (hown hkeeps hpasses).1,
      fun hkeeps hpasses => (hown hkeeps hpasses).2, ?_, ?_⟩
    · rintro rfl
      exact h (by simp)
    · rintro evidence hevidence - hpasses
      obtain rfl := Option.mem_def.mp hevidence
      exact h (by simpa using hpasses)
  · intro h hsilent
    cases kept with
    | none => exact h.dropped rfl
    | some evidence =>
        have hpasses := hsilent evidence rfl
        by_cases hown : evidence = a.evidence cfg
        · subst hown
          exact (stillGood_iff (hkept hpasses) hread hpasses.identity).mpr
            ⟨h.sourceLag rfl hpasses, h.identity rfl hpasses⟩
        · exact h.replaced evidence rfl hown hpasses

theorem funds_refused_iff (h : a.admitted cfg = true) (hrequired : cfg.fundsRequired = true) :
    ((ageEvidence a.funds t cfg.liveFundsFreshnessMaxAgeMs cfg.liveEvidenceFutureSkewGraceMs
        current).status ≠ .usable → economicSendBoundary kept leg t.mono current ≠ none) ↔
      Carried cfg a kept leg t current a.funds cfg.liveFundsFreshnessMaxAgeMs := by
  refine refused_iff_carried (fundsAged_usable h hrequired) fun hpasses received hreceived => ?_
  exact hpasses.funds hrequired received.mono (Option.mem_map_of_mem (·.mono) hreceived)

theorem margin_refused_iff (h : a.admitted cfg = true) (hrequired : cfg.marginRequired = true) :
    ((ageEvidence a.margin t cfg.liveMarginFreshnessMaxAgeMs cfg.liveEvidenceFutureSkewGraceMs
        current).status ≠ .usable → economicSendBoundary kept leg t.mono current ≠ none) ↔
      Carried cfg a kept leg t current a.margin cfg.liveMarginFreshnessMaxAgeMs := by
  refine refused_iff_carried (marginAged_usable h hrequired) fun hpasses received hreceived => ?_
  exact hpasses.margin hrequired received.mono (Option.mem_map_of_mem (·.mono) hreceived)

theorem plan_iff : (∀ evidence ∈ kept, economicSendBoundary kept leg t.mono current = none →
      legFingerprint leg ∈ evidence.requests.map legFingerprint) ↔
    ∀ evidence ∈ kept, Passes evidence leg t.mono current →
      ¬Severed evidence.requests leg := by
  cases kept with
  | none => simp
  | some evidence =>
      simp only [Option.mem_some_iff, forall_eq', boundary_none_iff]
      exact forall_congr' fun hpasses => mem_requests_iff hpasses.plan

end Agrees

/-- The boundary agrees with admission exactly under the condition, for every admitted entry
and whatever evidence the gateway keeps at that time. -/
theorem agrees_iff_covered (cfg : EconomicConfig) (a : Evaluation)
    (kept : Option EconomicEvidence) (leg : BrokerOrderRequest) (t : EvidenceInstant)
    (current : Option EvidenceIdentity) (hadmitted : a.admitted cfg = true) :
    Agrees cfg a kept leg t current ↔ Covered cfg a kept leg t current := by
  constructor
  · intro h
    refine ⟨fun hleg hrequired => ?_, fun hleg hrequired => ?_, plan_iff.mp h.plan⟩
    · exact (funds_refused_iff hadmitted hrequired).mp (h.funds hleg hrequired)
    · exact (margin_refused_iff hadmitted hrequired).mp (h.margin hleg hrequired)
  · intro h
    refine ⟨fun hleg hrequired => ?_, fun hleg hrequired => ?_, plan_iff.mpr h.separators⟩
    · exact (funds_refused_iff hadmitted hrequired).mpr (h.funds hleg hrequired)
    · exact (margin_refused_iff hadmitted hrequired).mpr (h.margin hleg hrequired)

namespace Sample

def request (role : BoxLegRole) (side : OrderSide) : BrokerOrderRequest where
  clientOrderId := "BOX-1-" ++ role.text
  role := role
  tradeId := none
  attemptId := "1"
  purpose := .entry
  phase := .entry
  exchange := "NFO"
  tradingsymbol := "NIFTY-" ++ role.text
  token := 101
  side := side
  quantity := 75
  pricing := ⟨1000, 5, 0, 1005⟩
  tag := none

def cfg : EconomicConfig where
  live := true
  liveRequireFundsCover := true
  liveRequireMarginEvidence := false
  liveRequireStageFunding := false
  liveFundsFreshnessMaxAgeMs := .finite 30000
  liveMarginFreshnessMaxAgeMs := .finite 30000
  liveEvidenceFutureSkewGraceMs := .finite 2000
  liveMaxBoxCapitalRupees := .finite 0
  liveRecoveryReserveRupees := .finite 0

def identity : EvidenceIdentity := ⟨"zerodha", some "AB1", none⟩

/-- The funds were received at once, but the source had cached them for 25 seconds. -/
def cached : Evaluation where
  requests := boxLegRoles.map fun role => request role (boxEntrySide .longBox role)
  direction := .longBox
  funds := ⟨some ⟨some (.finite 100000), none⟩, some ⟨.finite 1000, .finite 100000⟩,
    some (.finite 75000), none, some identity⟩
  margin := ⟨none, none, none, some .absent, none⟩
  evaluatedAt := ⟨.finite 1000, .finite 100000⟩
  currentIdentity := some identity
  chargesForRequests := none

def leg : BrokerOrderRequest := request .k1Ce .buy

end Sample

open Sample

/-- Four seconds later the figure is still good, and the leg goes out. -/
theorem agrees_iff_covered_sample :
    Agrees cfg cached (some (cached.evidence cfg)) leg ⟨.finite 5000, .finite 104000⟩
      (some identity) := by
  refine (agrees_iff_covered cfg cached _ leg _ _ (by decide +kernel)).mpr
    ⟨fun _ _ => ⟨fun _ _ => ?_, fun _ _ => ?_, fun h => ?_, fun evidence hkept hother => ?_⟩,
      fun _ hrequired => absurd hrequired (by decide), fun evidence hkept _ hsevered => ?_⟩
  · -- With the lag of 25 seconds the figure is 29 seconds old.
    rintro ⟨received, hreceived, age, helapsed, -, lag, hlag, hover⟩
    obtain rfl := Option.some.inj hreceived
    have hage : monoElapsed (some (.finite 1000)) (some (.finite 5000)) = some 4000 := by
      decide +kernel
    have hcached : usedLag (.finite 100000) (some (.finite 75000)) (.finite 2000) =
        some (.finite 25000) := by
      decide +kernel
    obtain rfl := Option.some.inj (hage.symm.trans helapsed)
    obtain rfl := Option.some.inj (hcached.symm.trans hlag)
    exact absurd hover (by decide +kernel)
  · rintro ⟨was, hwas, now, hnow, h⟩
    obtain rfl := Option.some.inj hwas
    obtain rfl := Option.some.inj hnow
    rcases h with ⟨hknown, -⟩ | ⟨-, hsession⟩
    · cases hknown
    · exact hsession rfl
  · cases h
  · exact absurd (Option.some.inj hkept).symm hother
  · obtain rfl := Option.some.inj hkept
    exact absurd hsevered.1 (by decide +kernel)

/-- Ten seconds later admission would call it stale, but the boundary lets the leg through. -/
theorem boundary_forgets_source_lag :
    cached.admitted cfg = true ∧
      ¬∀ t, Agrees cfg cached (cached.evaluateEntryEconomics cfg none) leg t (some identity) := by
  refine ⟨by decide +kernel, fun h => ?_⟩
  exact (h ⟨.finite 11000, .finite 110000⟩).funds (by decide +kernel) rfl (by decide +kernel)
    (by decide +kernel)

end Strikedge.EconomicAdmission
