import Mathlib.Data.List.Induction
import Mathlib.Data.List.Nodup
import Mathlib.Tactic.Linarith
import Strikedge.EconomicAdmission.Admission

/-!
# Funding every stage of the sequence

The legs are sent one after another, BUYs first. After each of them the account must carry
the margin that applies so far and the premium of the BUYs sent so far; the benefit of the
completed basket counts only once every leg is sent. The funds are compared with one figure,
which covers every stage.
-/

namespace Strikedge.EconomicAdmission

open Machine Orders

/-- The slots in the order in which their legs are sent. -/
def transmitted (transportOrder : List EntrySubmissionSlot) : List EntrySubmissionSlot :=
  transportOrder.insertionSort fun a b => a.rank ≤ b.rank

/-- No BUY is sent after a SELL. -/
def HedgeFirst (slots : List EntrySubmissionSlot) : Prop :=
  slots.Pairwise fun a b => a.side = .sell → b.side = .sell

/-- The limit notional of the requests for a role. -/
def roleNotional (requests : List BrokerOrderRequest) (role : BoxLegRole) : Int :=
  ((requests.filter (·.role = role)).map legPaise).sum

/-- The limit notional of the legs that the slots mark as BUYs. -/
def buyNotional (requests : List BrokerOrderRequest) (slots : List EntrySubmissionSlot) : Int :=
  ((slots.filter (·.side = .buy)).map fun slot => roleNotional requests slot.role).sum

/-- The margin that applies when the first of the legs are sent: the completed basket's only
when they are all of them. -/
def applicableMargin (initial final : Option Number) (count sent : Nat) : Option ℚ :=
  (if sent = count then final else initial).bind Number.finite?

theorem applicableMargin_of_known {initial final : Option Number} {i f : ℚ}
    (hinitial : initial.bind Number.finite? = some i) (hfinal : final.bind Number.finite? = some f)
    (count sent : Nat) :
    applicableMargin initial final count sent = some (if sent = count then f else i) := by
  rw [applicableMargin]
  split
  · exact hfinal
  · exact hinitial

/-- The reserve that is counted: one that is not a finite amount counts as nothing. -/
def countedReserve (reserve : Number) : ℚ := max 0 (reserve.finite?.getD 0)

/-- The amounts an admission rests on. -/
structure Amounts where
  funds : ℚ
  initial : ℚ
  final : ℚ
  charges : ℚ
  encumbrance : ℚ
  deriving DecidableEq, Repr

/-- What the account needs when the first of the legs are sent. -/
def Amounts.need (a : Amounts) (requests : List BrokerOrderRequest)
    (slots : List EntrySubmissionSlot) (reserve : Number) (sent : Nat) : ℚ :=
  max (if sent = slots.length then a.final else a.initial)
      (fromPaise (buyNotional requests (slots.take sent))) +
    a.charges + a.encumbrance + countedReserve reserve

section Stages

variable {requests : List BrokerOrderRequest} {initial final : Option Number} {count : Nat}
variable {sent : List EntrySubmissionSlot} {slot : EntrySubmissionSlot} {stages : FundingStages}

/-- With one request for a role, its notional is that of the request. -/
theorem roleNotional_of_byRole (hone : (requests.map (·.role)).Nodup) {role : BoxLegRole}
    {r : BrokerOrderRequest} (h : byRole requests role = some r) :
    roleNotional requests role = legPaise r := by
  have hmem : r ∈ requests := by
    simpa using List.mem_of_find?_eq_some h
  have hrole : r.role = role := by
    simpa using List.find?_some h
  have hfilter : requests.filter (·.role = role) = requests.filter (· = r) := by
    refine List.filter_congr fun x hx => ?_
    have hinj : x.role = role ↔ x = r := by
      rw [← hrole]
      exact ⟨List.inj_on_of_nodup_map hone hx hmem, congrArg _⟩
    simp [hinj]
  rw [roleNotional, hfilter, List.filter_eq, List.count_eq_one_of_mem hone.of_map hmem]
  simp

theorem buyNotional_concat (requests : List BrokerOrderRequest) :
    buyNotional requests (sent ++ [slot]) = buyNotional requests sent +
      if slot.side = .buy then roleNotional requests slot.role else 0 := by
  by_cases hside : slot.side = .buy
  · simp [buyNotional, hside]
  · simp [buyNotional, hside]

theorem hedgeFirst_concat :
    HedgeFirst (sent ++ [slot]) ↔
      HedgeFirst sent ∧ ∀ a ∈ sent, a.side = .sell → slot.side = .sell := by
  simp [HedgeFirst, List.pairwise_append]

/-- The requirement of the stage reached with the first of the legs. -/
def StageRequirement (requests : List BrokerOrderRequest) (initial final : Option Number)
    (count : Nat) (sent : List EntrySubmissionSlot) (requirement : Option ℚ) : Prop :=
  ∃ margin, applicableMargin initial final count sent.length = some margin ∧
    0 ≤ buyNotional requests sent ∧
    requirement = some (max margin (fromPaise (buyNotional requests sent)))

/-- What the stages say about the legs sent so far. -/
structure Staged (requests : List BrokerOrderRequest) (initial final : Option Number)
    (count : Nat) (sent : List EntrySubmissionSlot) (stages : FundingStages) : Prop where
  counted : stages.requirements.length = sent.length
  sells : stages.seenSell = true ↔ ∃ slot ∈ sent, slot.side = .sell
  hedged : stages.hedgeFirstValid = true → HedgeFirst sent
  debit : stages.unknown = [] →
    stages.debitPaise = buyNotional requests sent ∧ 0 ≤ stages.debitPaise
  known : stages.unknown = [] → ∀ (k : Nat) (requirement : Option ℚ),
    stages.requirements[k]? = some requirement →
      StageRequirement requests initial final count (sent.take (k + 1)) requirement

/-- A stage without a problem has a priced request and a margin that applies. -/
theorem fundingStage_unknown
    (h : (fundingStage requests initial final count stages slot).unknown = []) :
    stages.unknown = [] ∧ ∃ r margin, byRole requests slot.role = some r ∧ priced r = true ∧
      applicableMargin initial final count (stages.requirements.length + 1) = some margin ∧
      (fundingStage requests initial final count stages slot).debitPaise =
        stages.debitPaise + (if slot.side = .buy then legPaise r else 0) ∧
      (fundingStage requests initial final count stages slot).requirements =
        stages.requirements ++ [some (max margin (fromPaise
          (fundingStage requests initial final count stages slot).debitPaise))] := by
  cases hrequest : (byRole requests slot.role).filter priced with
  | none => simp [fundingStage, hrequest] at h
  | some r =>
    obtain ⟨hfound, hpriced⟩ := Option.filter_eq_some_iff.mp hrequest
    cases hmargin : applicableMargin initial final count (stages.requirements.length + 1) with
    | none =>
      rw [applicableMargin] at hmargin
      simp [fundingStage, hrequest, hmargin] at h
    | some margin =>
      have happlies := hmargin
      rw [applicableMargin] at hmargin
      simp only [fundingStage, hrequest, hmargin, Option.isNone_some, Bool.false_eq_true,
        if_false, Option.toList_none, List.append_nil] at h
      refine ⟨h, r, margin, hfound, hpriced, rfl, ?_, ?_⟩
      · simp [fundingStage, hrequest]
      · simp [fundingStage, hrequest, hmargin]

theorem fundingStage_counted :
    (fundingStage requests initial final count stages slot).requirements.length =
      stages.requirements.length + 1 := by
  simp [fundingStage]

theorem legPaise_nonneg {r : BrokerOrderRequest} (h : priced r = true) : 0 ≤ legPaise r := by
  simp only [priced, Bool.and_eq_true, decide_eq_true_eq] at h
  exact Int.mul_nonneg h.2.le (Int.natCast_nonneg _)

/-- Sending one more leg. -/
theorem Staged.step (hone : (requests.map (·.role)).Nodup)
    (h : Staged requests initial final count sent stages) :
    Staged requests initial final count (sent ++ [slot])
      (fundingStage requests initial final count stages slot) where
  counted := by rw [fundingStage_counted, h.counted, List.length_append, List.length_singleton]
  sells := by simp [fundingStage, h.sells, or_and_right, exists_or]
  hedged := by
    intro hvalid
    have hparts : stages.hedgeFirstValid = true ∧ (slot.side = .buy → stages.seenSell = false) := by
      simpa [fundingStage, imp_iff_not_or] using hvalid
    refine hedgeFirst_concat.mpr ⟨h.hedged hparts.1, fun a ha hsell => ?_⟩
    have hseen := h.sells.mpr ⟨a, ha, hsell⟩
    cases hside : slot.side with
    | sell => rfl
    | buy => exact absurd hseen (by simp [hparts.2 hside])
  debit := by
    intro hunknown
    obtain ⟨hbefore, r, margin, hfound, hpriced, -, hdebit, -⟩ := fundingStage_unknown hunknown
    obtain ⟨heq, hnonneg⟩ := h.debit hbefore
    have hleg := legPaise_nonneg hpriced
    rw [hdebit, buyNotional_concat, roleNotional_of_byRole hone hfound, heq]
    refine ⟨rfl, ?_⟩
    rw [← heq]
    split <;> omega
  known := by
    intro hunknown k requirement hrequirement
    obtain ⟨hbefore, r, margin, hfound, hpriced, hmargin, hdebit, hrequirements⟩ :=
      fundingStage_unknown hunknown
    rw [hrequirements] at hrequirement
    rcases Nat.lt_or_ge k stages.requirements.length with hlt | hge
    · rw [List.getElem?_append_left hlt] at hrequirement
      have hold := h.known hbefore k requirement hrequirement
      rwa [List.take_append_of_le_length (by have := h.counted; omega)]
    · -- The new stage: its debit is the notional of all the BUYs so far.
      obtain ⟨heq, hnonneg⟩ := h.debit hbefore
      have hleg := legPaise_nonneg hpriced
      obtain rfl : k = stages.requirements.length := by
        have hk := (List.getElem?_eq_some_iff.mp hrequirement).1
        rw [List.length_append, List.length_singleton] at hk
        omega
      rw [List.getElem?_concat_length, Option.some.injEq] at hrequirement
      have hall : (sent ++ [slot]).take (stages.requirements.length + 1) = sent ++ [slot] :=
        List.take_of_length_le (by simp [h.counted])
      have hnotional : (fundingStage requests initial final count stages slot).debitPaise =
          buyNotional requests (sent ++ [slot]) := by
        rw [hdebit, buyNotional_concat, roleNotional_of_byRole hone hfound, heq]
      rw [hall]
      refine ⟨margin, ?_, ?_, ?_⟩
      · rw [List.length_append, List.length_singleton, ← h.counted, hmargin]
      · rw [← hnotional, hdebit]
        split <;> omega
      · rw [← hrequirement, hnotional]

theorem staged_foldl (hone : (requests.map (·.role)).Nodup) (slots : List EntrySubmissionSlot) :
    Staged requests initial final count slots
      (slots.foldl (fundingStage requests initial final count) {}) := by
  induction slots using List.reverseRecOn with
  | nil =>
    exact ⟨rfl, by simp, fun _ => List.Pairwise.nil, fun _ => ⟨rfl, le_rfl⟩, fun _ k r hr => by
      simp at hr⟩
  | append_singleton slots slot ih =>
    rw [List.foldl_append]
    exact ih.step hone

/-- Stages without a problem are those of the sequence, which is hedge-first. -/
theorem buildFundingStages_known (hone : (requests.map (·.role)).Nodup)
    {transportOrder : List EntrySubmissionSlot}
    (h : (buildFundingStages requests transportOrder initial final).unknown = []) :
    HedgeFirst (transmitted transportOrder) ∧
      Staged requests initial final (transmitted transportOrder).length
        (transmitted transportOrder)
        (buildFundingStages requests transportOrder initial final) := by
  have hstaged := @staged_foldl requests initial final (transmitted transportOrder).length hone
    (transmitted transportOrder)
  simp only [buildFundingStages] at h ⊢
  split at h
  next hvalid =>
    rw [if_pos hvalid]
    exact ⟨hstaged.hedged hvalid, hstaged⟩
  next => simp at h

/-- The worst requirement covers every stage. -/
theorem Staged.stage_le (h : Staged requests initial final count sent stages)
    (hknown : stages.unknown = []) {worst : ℚ}
    (hworst : (stages.requirements.filterMap id).max? = some worst) {k : Nat}
    (hk : k < sent.length) :
    ∃ margin, applicableMargin initial final count (k + 1) = some margin ∧
      0 ≤ buyNotional requests (sent.take (k + 1)) ∧
      max margin (fromPaise (buyNotional requests (sent.take (k + 1)))) ≤ worst := by
  have hlt : k < stages.requirements.length := by
    have := h.counted
    omega
  obtain ⟨margin, hmargin, hnonneg, hrequirement⟩ :=
    h.known hknown k _ (List.getElem?_eq_getElem hlt)
  rw [List.length_take, Nat.min_eq_left (by omega)] at hmargin
  refine ⟨margin, hmargin, hnonneg, (List.max?_eq_some_iff.mp hworst).2 _ ?_⟩
  rw [List.mem_filterMap]
  exact ⟨_, List.getElem_mem hlt, hrequirement⟩

end Stages

section Verdict

variable {requests : List BrokerOrderRequest} {marginAged aged : AgedEvidence}
variable {charges value : Option Number} {funding : FundingInputs}

theorem brokerFigure_usable_eq (h : (brokerFigure value aged).usable = true) :
    aged.status = .usable ∧ ∃ amount, value = some (.finite amount) ∧
      (brokerFigure value aged).valueRupees = some amount := by
  rcases value with _ | (amount | _ | _ | _)
  · simp [brokerFigure, unknownFigure] at h
  · exact ⟨by simpa [brokerFigure] using h, amount, rfl, rfl⟩
  all_goals simp [brokerFigure, unknownFigure, Number.finite?] at h

theorem finite_of_bind {n : Option Number} {amount : ℚ} (h : n.bind Number.finite? = some amount) :
    n = some (.finite amount) := by
  rcases n with _ | (_ | _ | _ | _) <;> simp_all [Number.finite?]

theorem reserve_eq (reserve : Number) :
    (reserve.finite?.filter (0 ≤ ·)).getD 0 = countedReserve reserve := by
  rw [countedReserve]
  cases reserve.finite? with
  | none => rfl
  | some amount =>
    by_cases hamount : 0 ≤ amount
    · simp [Option.filter, hamount]
    · simp [Option.filter, hamount, le_of_not_ge hamount]

/-- A usable binding requirement is the sum of parts that are all known. -/
theorem bindingRequirement_usable
    (h : (buildFundingPicture requests marginAged charges funding).bindingRequirement.usable =
      true) :
    marginAged.status = .usable ∧
      (buildFundingStages requests funding.transportOrder funding.initialMarginRupees
        funding.finalMarginRupees).unknown = [] ∧
      ∃ worst chargesRupees encumbrance,
        ((buildFundingStages requests funding.transportOrder funding.initialMarginRupees
          funding.finalMarginRupees).requirements.filterMap id).max? = some worst ∧
        charges = some (.finite chargesRupees) ∧
        funding.encumbranceRupees = some (.finite encumbrance) ∧
        (buildFundingPicture requests marginAged charges funding).bindingRequirement.valueRupees =
          some (worst + chargesRupees + countedReserve funding.recoveryReserveRupees +
            encumbrance) := by
  simp only [buildFundingPicture, reserve_eq] at h ⊢
  split at h
  next => simp [unknownFigure] at h
  next binding hbinding =>
    simp only [Option.bind_eq_bind, Option.bind_eq_some_iff, Option.pure_def,
      Option.some.injEq] at hbinding
    obtain ⟨worst, hworst, chargesRupees, ⟨c, hc, hcharges⟩, encumbrance, ⟨e, he, hencumbrance⟩,
      rfl⟩ := hbinding
    split at hworst
    next hknown =>
      refine ⟨by simpa using hknown.2, hknown.1, worst, chargesRupees, encumbrance, hworst,
        finite_of_bind (by simp [hc, hcharges]), finite_of_bind (by simp [he, hencumbrance]), ?_⟩
      simp
    next => cases hworst

theorem stageReasons_eq_nil {picture : Option FundingPicture} (h : stageReasons picture = []) :
    ∃ funding, picture = some funding ∧ funding.bindingRequirement.usable = true := by
  cases picture with
  | none => simp [stageReasons] at h
  | some funding =>
    refine ⟨funding, rfl, ?_⟩
    simp only [stageReasons, List.append_eq_nil_iff] at h
    obtain ⟨-, hknown⟩ := h
    by_contra hunusable
    simp [Bool.eq_false_of_not_eq_true hunusable] at hknown

theorem fundsReasons_eq_nil {picture : EconomicPicture} (h : fundsReasons picture = []) :
    picture.availableFunds.usable = true ∧ ∃ funds need,
      picture.availableFunds.valueRupees = some funds ∧ requirement picture = some need ∧
        need ≤ funds := by
  rw [fundsReasons] at h
  split at h
  next => cases h
  next =>
    split at h
    next funds husable hfunds =>
      split at h
      next => cases h
      next need hneed =>
        refine ⟨husable, funds, need, hfunds, hneed, ?_⟩
        by_contra hless
        simp [not_le.mp hless] at h
    next => cases h

/-- What an admission with stage funding required comes to. -/
theorem admitted_parts {inputs : EconomicInputs} {grossCapRupees : Number}
    {requireFundsCover requireMarginEvidence : Bool}
    (h : evaluateEconomicAdmission (buildEconomicPicture inputs) grossCapRupees requireFundsCover
      requireMarginEvidence true = []) :
    ∃ funding funds need, inputs.funding = some funding ∧
      inputs.availableFundsAged.status = .usable ∧
      inputs.availableFundsRupees = some (.finite funds) ∧
      (buildFundingPicture inputs.requests inputs.plannedMarginAged inputs.estimatedChargesRupees
        funding).bindingRequirement.usable = true ∧
      (buildFundingPicture inputs.requests inputs.plannedMarginAged inputs.estimatedChargesRupees
        funding).bindingRequirement.valueRupees = some need ∧
      need ≤ funds := by
  simp only [evaluateEconomicAdmission, List.append_eq_nil_iff, if_true, Bool.or_true] at h
  obtain ⟨⟨-, hstages⟩, hfunds⟩ := h
  obtain ⟨picture, hpicture, husable⟩ := stageReasons_eq_nil hstages
  obtain ⟨hbroker, funds, need, hvalue, hneed, hle⟩ := fundsReasons_eq_nil hfunds
  obtain ⟨hstatus, amount, hamount, hfigure⟩ := brokerFigure_usable_eq hbroker
  obtain ⟨funding, hfunding, rfl⟩ := Option.map_eq_some_iff.mp hpicture
  obtain ⟨-, -, worst, chargesRupees, encumbrance, -, -, -, hbinding⟩ :=
    bindingRequirement_usable husable
  have hfunds : amount = funds := Option.some.inj (hfigure.symm.trans hvalue)
  -- The funds are compared with the binding requirement, and with nothing weaker.
  have hrequired : requirement (buildEconomicPicture inputs) =
      (buildFundingPicture inputs.requests inputs.plannedMarginAged
        inputs.estimatedChargesRupees funding).bindingRequirement.valueRupees := by
    rw [requirement, hpicture]
    simp [husable, hbinding]
  exact ⟨funding, funds, need, hfunding, hstatus, hfunds ▸ hamount, husable,
    hrequired.symm.trans hneed, hle⟩

end Verdict

/-- The figures of an admission, all known, but for the reserve. -/
structure Known (inputs : EconomicInputs) (funding : FundingInputs) (a : Amounts) : Prop where
  given : inputs.funding = some funding
  fundsAged : inputs.availableFundsAged.status = .usable
  marginAged : inputs.plannedMarginAged.status = .usable
  funds : inputs.availableFundsRupees = some (.finite a.funds)
  initial : funding.initialMarginRupees = some (.finite a.initial)
  final : funding.finalMarginRupees = some (.finite a.final)
  charges : inputs.estimatedChargesRupees = some (.finite a.charges)
  encumbrance : funding.encumbranceRupees = some (.finite a.encumbrance)

/-- An entry that is admitted with stage funding required is sent hedge-first, and at every
prefix of the sequence the funds cover what the account needs. -/
theorem stage_funding_sound (inputs : EconomicInputs) (grossCapRupees : Number)
    (requireFundsCover requireMarginEvidence : Bool)
    (hrequests : (inputs.requests.map (·.role)).Perm boxLegRoles)
    (horder : ∀ funding ∈ inputs.funding, (funding.transportOrder.map (·.role)).Perm boxLegRoles)
    (h : evaluateEconomicAdmission (buildEconomicPicture inputs) grossCapRupees requireFundsCover
      requireMarginEvidence true = []) :
    ∃ funding a, Known inputs funding a ∧ HedgeFirst (transmitted funding.transportOrder) ∧
      ∀ sent ≤ (transmitted funding.transportOrder).length,
        a.need inputs.requests (transmitted funding.transportOrder)
          funding.recoveryReserveRupees sent ≤ a.funds := by
  have hone : (inputs.requests.map (·.role)).Nodup := hrequests.nodup_iff.mpr (by decide)
  obtain ⟨funding, funds, need, hfunding, hfundsAged, hfunds, husable, hneed, hle⟩ :=
    admitted_parts h
  obtain ⟨hmarginAged, hunknown, worst, charges, encumbrance, hworst, hcharges, hencumbrance,
    hbinding⟩ := bindingRequirement_usable husable
  obtain ⟨hhedge, hstaged⟩ := buildFundingStages_known hone hunknown
  have hlength : (transmitted funding.transportOrder).length = 4 := by
    rw [transmitted, List.length_insertionSort]
    simpa [boxLegRoles] using (horder funding hfunding).length_eq
  have hstage : ∀ k < 4, _ := fun k hk =>
    hstaged.stage_le hunknown hworst (hlength.symm ▸ hk)
  obtain ⟨initial, hinitial, hpaid, hfirst⟩ := hstage 0 (by omega)
  obtain ⟨final, hfinal, -, -⟩ := hstage 3 (by omega)
  rw [applicableMargin, if_neg (by omega)] at hinitial
  rw [applicableMargin, if_pos (by omega)] at hfinal
  refine ⟨funding, ⟨funds, initial, final, charges, encumbrance⟩, ⟨hfunding, hfundsAged,
    hmarginAged, hfunds, finite_of_bind hinitial, finite_of_bind hfinal, hcharges, hencumbrance⟩,
    hhedge, fun sent hsent => ?_⟩
  rw [hbinding, Option.some.injEq] at hneed
  have hcovered : max (if sent = (transmitted funding.transportOrder).length then final
      else initial) (fromPaise (buyNotional inputs.requests
        ((transmitted funding.transportOrder).take sent))) ≤ worst := by
    cases sent with
    | zero =>
      -- Nothing is sent: what the first stage needs is no less.
      have hpaid : (0 : ℚ) ≤ fromPaise (buyNotional inputs.requests
          ((transmitted funding.transportOrder).take (0 + 1))) :=
        div_nonneg (by exact_mod_cast hpaid) (by norm_num)
      have hnothing : fromPaise (buyNotional inputs.requests
          ((transmitted funding.transportOrder).take 0)) = 0 := by
        simp [buyNotional, fromPaise]
      rw [if_neg (by omega), hnothing]
      exact (max_le_max_left initial hpaid).trans hfirst
    | succ k =>
      obtain ⟨margin, hmargin, -, hmax⟩ := hstage k (by omega)
      rw [applicableMargin_of_known hinitial hfinal, Option.some.injEq] at hmargin
      rwa [hmargin]
  rw [Amounts.need]
  linarith only [hcovered, hneed, hle]

namespace FourLegs

def request (role : BoxLegRole) : BrokerOrderRequest where
  clientOrderId := "BOX-1-" ++ role.text
  role := role
  tradeId := none
  attemptId := "1"
  purpose := .entry
  phase := .entry
  exchange := "NFO"
  tradingsymbol := "NIFTY-" ++ role.text
  token := 101
  side := boxEntrySide .longBox role
  quantity := 75
  pricing := ⟨99500, 5, 100, 100000⟩
  tag := none

def aged : AgedEvidence := ⟨.usable, some (.finite 1000), true⟩

/-- The hedges cost 150000 rupees, the margin 120000 while they go out. -/
def inputs (transportOrder : List EntrySubmissionSlot) (reserve : Number) (funds : ℚ) :
    EconomicInputs where
  requests := boxLegRoles.map request
  availableFundsRupees := some (.finite funds)
  availableFundsAged := aged
  plannedMarginRupees := some (.finite 120000)
  plannedMarginAged := aged
  estimatedChargesRupees := some (.finite 200)
  funding := some ⟨transportOrder, some (.finite 120000), some (.finite 60000),
    some (.finite 300), reserve⟩

/-- The slots of the sequence, all of them marked as SELLs. -/
def unmarked : List EntrySubmissionSlot :=
  (entrySubmissionOrder .longBox).map fun slot => { slot with side := .sell }

end FourLegs

open FourLegs

/-- With a reserve of 500 rupees, 151000 are enough. -/
theorem stage_funding_sound_sample :
    ∃ funding a, Known (inputs (entrySubmissionOrder .longBox) (.finite 500) 151000) funding a ∧
      HedgeFirst (transmitted funding.transportOrder) ∧
      ∀ sent ≤ (transmitted funding.transportOrder).length,
        a.need (inputs (entrySubmissionOrder .longBox) (.finite 500) 151000).requests
          (transmitted funding.transportOrder) funding.recoveryReserveRupees sent ≤ a.funds :=
  stage_funding_sound _ (.finite 0) false false (by decide) (by decide) (by decide +kernel)

/-- An entry is admitted whose reserve is not a number, and one whose funds are less than the
cost of its BUYs, because the slots do not mark them. -/
theorem admitted_without_reserve :
    evaluateEconomicAdmission (buildEconomicPicture
        (inputs (entrySubmissionOrder .longBox) .nan 150500)) (.finite 0) false false true = [] ∧
      evaluateEconomicAdmission (buildEconomicPicture
        (inputs unmarked (.finite 500) 121000)) (.finite 0) false false true = [] ∧
      121000 < fromPaise (((inputs unmarked (.finite 500) 121000).requests.filter
        (·.side = .buy)).map legPaise).sum := by
  decide +kernel

end Strikedge.EconomicAdmission
