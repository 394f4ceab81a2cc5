import Strikedge.Machine.OrderedMap
import Strikedge.Orders.Types

/-!
# Hedge coverage

A dependent SELL of an entry attempt may be sent only when every BUY hedge of the attempt
is proven to have filled. A `HedgeCoverageLedger` holds, for one attempt, the first
terminal evidence of each hedge role and answers whether a declared requirement is met.
Permission needs proof: absent evidence is a gap.
-/

namespace Strikedge.Orders

/-- What one BUY hedge must prove, declared when its leg is submitted. -/
structure HedgeRequirement where
  attemptId : AttemptId
  role : BoxLegRole
  token : Nat
  tradingsymbol : String
  side : OrderSide
  brokerAccount : String
  requiredQuantity : Nat
  deriving DecidableEq, Repr

/-- The outcome of one hedge leg. `confirmedFillQuantity` comes from a terminal broker
snapshot or is absent. -/
structure HedgeOutcomeEvidence where
  attemptId : AttemptId
  role : BoxLegRole
  token : Nat
  tradingsymbol : String
  side : OrderSide
  brokerAccount : String
  requestedQuantity : Nat
  confirmedFillQuantity : Option Nat
  terminal : Bool
  detail : String
  deriving DecidableEq, Repr

inductive HedgeCoverageGap where
  | noEvidence
  | notTerminal
  | noPost
  | contractMismatch
  | sideMismatch
  | accountMismatch
  | attemptMismatch
  | insufficientFill
  deriving DecidableEq, Repr

structure HedgeCoverageLedger where
  attemptId : AttemptId
  evidenceByRole : OrderedMap BoxLegRole HedgeOutcomeEvidence := ∅
  /-- the dependents a role's proven fill has been claimed for -/
  claims : OrderedMap BoxLegRole (List BoxLegRole) := ∅

namespace HedgeCoverageLedger

/-- Record an outcome. The first terminal evidence of a role is never replaced. -/
def record (l : HedgeCoverageLedger) (e : HedgeOutcomeEvidence) : HedgeCoverageLedger :=
  if e.attemptId ≠ l.attemptId then l
  else if (l.evidenceByRole.get? e.role).any (·.terminal) then l
  else { l with evidenceByRole := l.evidenceByRole.set e.role e }

/-- The gap between a requirement and the evidence of its role, none when it is covered. -/
def coverageFor (l : HedgeCoverageLedger) (req : HedgeRequirement) :
    Option (HedgeCoverageGap × String) :=
  if req.attemptId ≠ l.attemptId then
    some (.attemptMismatch,
      s!"requirement is for attempt {req.attemptId}, ledger is {l.attemptId}")
  else
    let role := req.role.text
    match l.evidenceByRole.get? req.role with
    | none => some (.noEvidence, s!"no terminal broker evidence for hedge {role}")
    | some e =>
        if e.attemptId ≠ req.attemptId then
          some (.attemptMismatch, s!"hedge {role} evidence belongs to attempt {e.attemptId}")
        else if e.side ≠ req.side ∨ req.side ≠ .buy then
          some (.sideMismatch,
            s!"hedge {role} must be a BUY; evidence side is {e.side.text}")
        else if e.token ≠ req.token ∨ e.tradingsymbol ≠ req.tradingsymbol then
          some (.contractMismatch,
            s!"hedge {role} evidence is {e.tradingsymbol}/{e.token}, " ++
              s!"required {req.tradingsymbol}/{req.token}")
        else if e.brokerAccount ≠ req.brokerAccount then
          some (.accountMismatch,
            s!"hedge {role} filled on {e.brokerAccount}, required {req.brokerAccount}")
        else if !e.terminal then
          some (.notTerminal,
            s!"hedge {role} is not terminal; coverage cannot be counted while it can still change")
        else
          match e.confirmedFillQuantity with
          | none =>
              some (.noPost,
                s!"hedge {role} has no broker-confirmed fill quantity ({e.detail})")
          | some filled =>
              if filled < req.requiredQuantity then
                some (.insufficientFill,
                  s!"hedge {role} confirmed {filled} of required {req.requiredQuantity}")
              else none

/-- The first gap of a set of requirements. A set without requirements is a gap. -/
def coverageGapFor (l : HedgeCoverageLedger) (reqs : List HedgeRequirement) :
    Option String :=
  if reqs.isEmpty then
    some "no hedge requirements supplied for a dependent SELL; coverage is unprovable"
  else
    reqs.findSome? fun req =>
      (l.coverageFor req).map fun gap =>
        s!"hedge {req.role.text} not proven covered: {gap.2}"

/-- Add a dependent to the claimants of each role of a set. -/
def addClaims (claims : OrderedMap BoxLegRole (List BoxLegRole)) (dependent : BoxLegRole) :
    List HedgeRequirement → OrderedMap BoxLegRole (List BoxLegRole)
  | [] => claims
  | req :: rest =>
      let claimants := (claims.get? req.role).getD []
      addClaims (claims.set req.role (claimants.insert dependent)) dependent rest

/-- Claim a covered set for one dependent; `false` when it is not covered. -/
def claimCoverage (l : HedgeCoverageLedger) (dependent : BoxLegRole)
    (reqs : List HedgeRequirement) : HedgeCoverageLedger × Bool :=
  if (l.coverageGapFor reqs).isSome then (l, false)
  else ({ l with claims := addClaims l.claims dependent reqs }, true)

variable {l : HedgeCoverageLedger} {e : HedgeOutcomeEvidence} {req : HedgeRequirement}
variable {reqs : List HedgeRequirement} {dependent role : BoxLegRole}

@[simp] theorem claimCoverage_attemptId :
    (l.claimCoverage dependent reqs).1.attemptId = l.attemptId := by
  rw [claimCoverage]
  split <;> rfl

@[simp] theorem claimCoverage_evidence :
    (l.claimCoverage dependent reqs).1.evidenceByRole = l.evidenceByRole := by
  rw [claimCoverage]
  split <;> rfl

/-- Evidence in the ledger after a recording was there before or is what was recorded. -/
theorem record_evidence {e' : HedgeOutcomeEvidence}
    (h : (l.record e).evidenceByRole.get? role = some e') :
    l.evidenceByRole.get? role = some e' ∨
      (e' = e ∧ role = e.role ∧ e.attemptId = l.attemptId) := by
  rw [record] at h
  split at h
  · exact .inl h
  · rename_i hattempt
    split at h
    · exact .inl h
    · rw [OrderedMap.get?_set] at h
      by_cases hrole : role = e.role
      · rw [if_pos hrole] at h
        exact .inr ⟨(Option.some.inj h).symm, hrole, not_not.mp hattempt⟩
      · rw [if_neg hrole] at h
        exact .inl h

/-- What it means for a requirement to have no gap: the evidence of its role is a
terminal broker fill of at least the required quantity on the declared contract. -/
theorem covered_evidence (h : l.coverageFor req = none) :
    ∃ e filled, l.evidenceByRole.get? req.role = some e ∧ e.attemptId = req.attemptId ∧
      req.attemptId = l.attemptId ∧ e.side = req.side ∧ req.side = .buy ∧
      e.token = req.token ∧ e.tradingsymbol = req.tradingsymbol ∧ e.terminal = true ∧
      e.confirmedFillQuantity = some filled ∧ req.requiredQuantity ≤ filled := by
  simp only [coverageFor] at h
  split at h
  · cases h
  · rename_i hattempt
    cases he : l.evidenceByRole.get? req.role with
    | none => simp [he] at h
    | some e =>
        cases hfill : e.confirmedFillQuantity with
        | none =>
            simp only [he, hfill] at h
            repeat' split at h
            all_goals cases h
        | some filled =>
            simp only [he, hfill] at h
            repeat' split at h
            all_goals try cases h
            rename_i hown hside hcontract _ hterminal henough
            push Not at hside hcontract hattempt hown
            refine ⟨e, filled, rfl, hown, hattempt, hside.1, hside.2, hcontract.1,
              hcontract.2, ?_, hfill, by omega⟩
            simpa using hterminal

theorem claimCoverage_true (h : (l.claimCoverage dependent reqs).2 = true) :
    reqs ≠ [] ∧ ∀ req ∈ reqs, l.coverageFor req = none := by
  have hgap : l.coverageGapFor reqs = none := by
    by_contra hne
    rw [claimCoverage, if_pos (Option.isSome_iff_ne_none.mpr hne)] at h
    cases h
  rw [coverageGapFor] at hgap
  split at hgap
  · cases hgap
  · rename_i hne
    refine ⟨by simpa using hne, fun req hreq => ?_⟩
    have := List.findSome?_eq_none_iff.mp hgap req hreq
    simpa using this

end HedgeCoverageLedger

end Strikedge.Orders
