import Strikedge.Coordinator.Registered

/-!
# Duplicate suppression

`coordinateEntry` reads the duplicate guard before it may wait for the session's
attempt and for the underlying hold, and claims the opportunity after. `settle` and
`holdOnUncertainty` delete the opportunity whoever it maps to. A stretch that does
either takes an opportunity, and what is taken must be free when it is taken: a run
keeps every opportunity with its one execution exactly when all its steps do so.
-/

namespace Strikedge.Coordinator

open Reservations (InstrumentKey ReservationContext RenewFailure)

namespace Gateway

/-- A running execution carries an opportunity. -/
def Carries (g : Gateway) (id : OwnerId) (opportunityId : String) : Prop :=
  ∃ exec, g.active.get? id = some exec ∧ exec.opportunityId = some opportunityId

/-- The opportunity of every running execution maps to it. -/
def Deduplicated (g : Gateway) : Prop :=
  ∀ id underlying opportunityId, g.registration id = some (underlying, some opportunityId) →
    g.activeOpportunities.get? opportunityId = some id

variable {g g' g'' : Gateway} {id i j : OwnerId} {cfg : BoxConfig} {w : World}
variable {opportunityId : String}

theorem carries_iff : g.Carries id opportunityId ↔
    ∃ underlying, g.registration id = some (underlying, some opportunityId) := by
  unfold Carries registration
  constructor
  · rintro ⟨exec, hexec, hopp⟩
    exact ⟨exec.underlying, by simp [hexec, hopp]⟩
  · rintro ⟨underlying, h⟩
    obtain ⟨exec, hexec, heq⟩ := Option.map_eq_some_iff.mp h
    exact ⟨exec, hexec, congrArg Prod.snd heq⟩

/-- The guard is open exactly when the opportunity maps to no running execution. -/
theorem duplicateOf_eq_none_iff : g.duplicateOf opportunityId = none ↔
    ∀ id, g.activeOpportunities.get? opportunityId = some id → g.registration id = none := by
  unfold duplicateOf
  simp only [Option.filter_eq_none_iff, registration_eq_none_iff, Bool.not_eq_true]

/-- Nobody is registered anew, and who stays registered keeps its opportunity. -/
def Keeps (g g' : Gateway) : Prop :=
  ∀ id underlying opportunityId, g'.registration id = some (underlying, some opportunityId) →
    g.registration id = some (underlying, some opportunityId) ∧
      (g.activeOpportunities.get? opportunityId = some id →
        g'.activeOpportunities.get? opportunityId = some id)

theorem Deduplicated.keeps (h : g.Deduplicated) (hk : Keeps g g') : g'.Deduplicated := by
  intro id underlying opportunityId hreg
  obtain ⟨hbefore, hstill⟩ := hk id underlying opportunityId hreg
  exact hstill (h id underlying opportunityId hbefore)

namespace Keeps

theorem refl (g : Gateway) : Keeps g g := fun _ _ _ h => ⟨h, fun ho => ho⟩

theorem trans (h : Keeps g g') (h' : Keeps g' g'') : Keeps g g'' := by
  intro id underlying opportunityId hreg
  obtain ⟨hmid, hlast⟩ := h' id underlying opportunityId hreg
  obtain ⟨hfirst, hstill⟩ := h id underlying opportunityId hmid
  exact ⟨hfirst, fun ho => hlast (hstill ho)⟩

/-- An operation on records that are neither registrations nor opportunities. -/
theorem of_same (hr : ∀ j, g'.registration j = g.registration j)
    (ho : g'.activeOpportunities = g.activeOpportunities) : Keeps g g' :=
  fun id _ _ h => ⟨hr id ▸ h, fun hmap => ho ▸ hmap⟩

theorem of_claims {positionClaims : OrderedMap String PositionUnderlyingClaim}
    (hg : g' = { g with positionClaims }) : Keeps g g' := by
  subst hg
  exact of_same (fun _ => rfl) rfl

theorem registerActive {keys : List InstrumentKey} {underlying : String}
    {lease : ReservationLease} {context : ReservationContext} :
    Keeps g (g.registerActive i keys underlying lease context) := by
  intro id u o hreg
  rw [registration_registerActive] at hreg
  split at hreg
  · cases hreg
  · exact ⟨hreg, fun ho => ho⟩

theorem grant {keys : List InstrumentKey} {lease : ReservationLease}
    {context : ReservationContext} : Keeps g (g.grant i keys lease context) := by
  obtain ⟨active, h⟩ := grant_eq g i keys lease context
  exact of_same (fun _ => registration_grant) (by rw [h])

theorem abandon : Keeps g (g.abandon i) := by
  intro id u o hreg
  rw [registration_abandon] at hreg
  split at hreg
  · cases hreg
  · rename_i hne
    refine ⟨hreg, fun ho => ?_⟩
    unfold Gateway.abandon
    split
    · exact ho
    · dsimp only
      split
      · exact ho
      · split
        · rename_i hmine
          rw [OrderedMap.get?_delete, if_neg]
          · exact ho
          · rintro rfl
            exact hne (Option.some.inj (ho.symm.trans hmine))
        · exact ho

/-- Concluding an execution that still holds its opportunity takes it from nobody. -/
theorem conclude {opportunityId : Option String}
    (h : ∀ o, opportunityId = some o → g.activeOpportunities.get? o = some i) :
    Keeps g (g.conclude i opportunityId) := by
  cases opportunityId with
  | none => exact abandon
  | some opportunityId =>
      intro id u o hreg
      rw [registration_conclude] at hreg
      split at hreg
      · cases hreg
      · rename_i hne
        have hregA : (g.abandon i).registration id = some (u, some o) := by
          rw [registration_abandon, if_neg hne]
          exact hreg
        refine ⟨hreg, fun ho => ?_⟩
        simp only [Gateway.conclude]
        rw [OrderedMap.get?_delete, if_neg]
        · exact (abandon id u o hregA).2 ho
        · rintro rfl
          exact hne (Option.some.inj (ho.symm.trans (h o rfl)))

theorem retain {exec : Option ActiveExecution} {why : String} {now : Int} :
    Keeps g (g.retain i exec why now) := by
  obtain ⟨holds, h⟩ := retain_eq g i exec why now
  rw [h]
  exact of_same (fun _ => rfl) rfl

theorem holdOnUncertainty {opportunityId : Option String} {why : String} {now : Int}
    (h : ∀ o, opportunityId = some o → g.activeOpportunities.get? o = some i) :
    Keeps g (g.holdOnUncertainty i opportunityId why now) :=
  (conclude h).trans retain

theorem addHolder {claimKey : String} {holder : Holder} :
    Keeps g (g.addHolder claimKey holder) :=
  let ⟨_, h⟩ := addHolder_eq g claimKey holder
  of_claims h

theorem dropUnderlyingHolder {underlying : String} {holder : Holder} :
    Keeps g (g.dropUnderlyingHolder cfg w underlying holder).1 :=
  let ⟨_, h⟩ := dropUnderlyingHolder_eq g cfg w underlying holder
  of_claims h

theorem abandonAndReleaseHold : Keeps g (g.abandonAndReleaseHold cfg w i).1 := by
  obtain ⟨claims, h⟩ := releasePipelineHold_eq g i cfg w ((g.active.get? i).map (·.underlying))
  exact (of_claims h).trans abandon

theorem holdUnderlying {underlying : String} {holder : Holder} {exclusive : Bool}
    {next : HoldStep} (h : g.holdUnderlying cfg w underlying holder exclusive = (g', next)) :
    Keeps g g' := by
  obtain ⟨rfl, -⟩ | ⟨-, -, -, rfl, -⟩ | ⟨-, -, rfl, -⟩ := holdUnderlying_cases h
  · exact refl g'
  · exact addHolder
  · exact of_same (fun _ => rfl) rfl

theorem finishHold {h : Hold} {answer : Answer} {held : Bool}
    (hs : g.finishHold w h answer = some (g', held)) : Keeps g g' := by
  unfold Gateway.finishHold at hs
  split at hs
  · cases hs
    exact of_claims rfl
  · cases hs
    exact refl _
  · cases hs
    exact refl _
  · cases hs
    exact refl _
  · cases hs

theorem renewActive {expiresAt : Int} {fence : Nat} :
    Keeps g (g.renewActive i expiresAt fence) := by
  obtain ⟨active, h⟩ := renewActive_eq g i expiresAt fence
  exact of_same (fun _ => registration_renewActive) (by rw [h])

theorem loseOwnership {reason : RenewFailure} : Keeps g (g.loseOwnership i reason) := by
  obtain ⟨active, violations, h⟩ := loseOwnership_eq g i reason
  exact of_same (fun _ => registration_loseOwnership) (by rw [h])

theorem renewHold {expiresAt : Int} {fence : Nat} :
    Keeps g (g.renewHold i expiresAt fence) := by
  obtain ⟨holds, h⟩ := renewHold_eq g i expiresAt fence
  rw [h]
  exact of_same (fun _ => rfl) rfl

theorem dropHold : Keeps g (g.dropHold i) := of_same (fun _ => rfl) rfl

theorem renewClaim {claimKey : String} {outcome : Reservations.RenewOutcome} :
    Keeps g (g.renewClaim claimKey i outcome) :=
  let ⟨_, h⟩ := renewClaim_eq g i claimKey outcome
  of_claims h

theorem tickClaims {claims : List (String × PositionUnderlyingClaim)} :
    Keeps g (g.tickClaims cfg claims).1 := by
  unfold Gateway.tickClaims
  split
  · exact of_same (fun _ => rfl) rfl
  · exact refl g

theorem tickHolds {now : Int} {holds : List (OwnerId × UncertainHold)} :
    Keeps g (g.tickHolds cfg now holds).1 := by
  induction holds generalizing g with
  | nil => exact tickClaims
  | cons hold holds ih =>
      rw [Gateway.tickHolds]
      split
      · exact dropHold.trans ih
      · exact refl g

end Keeps

/-- A claim keeps every opportunity with its execution exactly when the guard, read
again at the claim, is open. -/
theorem deduplicated_claim_iff {underlying : String} {keys : List InstrumentKey}
    {context : ReservationContext} (hd : g.Deduplicated) (hi : g.Stands i none)
    (hc : ∀ id, ∃ expected, g.Stands id expected) :
    (g.claim i opportunityId underlying keys context).Deduplicated ↔
      g.duplicateOf opportunityId = none := by
  rw [duplicateOf_eq_none_iff]
  constructor
  · intro h id hmap
    obtain ⟨expected, hstands⟩ := hc id
    obtain ⟨u, rfl⟩ := hstands.mapped opportunityId hmap
    have hne : id ≠ i := by
      rintro rfl
      cases hi.registration.symm.trans hstands.registration
    -- the incumbent is still registered, but its opportunity now maps to the claimer
    have hreg : (g.claim i opportunityId underlying keys context).registration id =
        some (u, some opportunityId) := by
      rw [registration_claim, if_neg hne]
      exact hstands.registration
    have hmap' := h id u opportunityId hreg
    simp only [claim, OrderedMap.get?_set, if_true] at hmap'
    exact absurd (Option.some.inj hmap').symm hne
  · intro hfree id u o hreg
    rw [registration_claim] at hreg
    simp only [claim, OrderedMap.get?_set]
    split at hreg
    · rename_i hid
      cases hreg
      simp [hid]
    · have hmap := hd id u o hreg
      have hne : o ≠ opportunityId := by
        rintro rfl
        cases (hfree id hmap).symm.trans hreg
      rw [if_neg hne]
      exact hmap

/-- An opportunity deleted after its execution has left is missed by nobody exactly
when it maps to no running execution. -/
theorem deduplicated_holdOnUncertainty_iff {why : String} {now : Int} (hd : g.Deduplicated)
    (hi : g.Stands i none) (hc : ∀ id, ∃ expected, g.Stands id expected) :
    (g.holdOnUncertainty i (some opportunityId) why now).Deduplicated ↔
      g.duplicateOf opportunityId = none := by
  obtain ⟨holds, hretain⟩ := retain_eq (g.conclude i (some opportunityId)) i (g.active.get? i) why now
  rw [duplicateOf_eq_none_iff, holdOnUncertainty, hretain]
  constructor
  · intro h id hmap
    obtain ⟨expected, hstands⟩ := hc id
    obtain ⟨u, rfl⟩ := hstands.mapped opportunityId hmap
    have hne : id ≠ i := by
      rintro rfl
      cases hi.registration.symm.trans hstands.registration
    have hreg : (g.conclude i (some opportunityId)).registration id =
        some (u, some opportunityId) := by
      rw [registration_conclude, if_neg hne]
      exact hstands.registration
    have hmap' := h id u opportunityId hreg
    simp [conclude] at hmap'
  · intro hfree id u o hreg
    change (g.conclude i (some opportunityId)).registration id = _ at hreg
    rw [registration_conclude] at hreg
    split at hreg
    · cases hreg
    · rename_i hne
      have hmap := hd id u o hreg
      have hregA : (g.abandon i).registration id = some (u, some o) := by
        rw [registration_abandon, if_neg hne]
        exact hreg
      simp only [conclude, OrderedMap.get?_delete]
      rw [if_neg]
      · exact (Keeps.abandon id u o hregA).2 hmap
      · rintro rfl
        cases (hfree id hmap).symm.trans hreg

theorem deduplicated_afterHold_iff {e : Entry} (hd : g.Deduplicated)
    (hi : g.Stands e.executionId none) (hc : ∀ id, ∃ expected, g.Stands id expected) :
    (g.afterHold cfg w e).gateway.Deduplicated ↔
      (g.WithinBudget cfg e → g.duplicateOf e.opportunityId = none) := by
  by_cases hroom : g.WithinBudget cfg e
  · rw [afterHold_within hroom, deduplicated_claim_iff hd hi hc]
    exact ⟨fun h _ => h, fun h => h hroom⟩
  · rw [afterHold_over hroom]
    exact ⟨fun _ h => absurd h hroom, fun _ => hd⟩

end Gateway

open Gateway

/-- The opportunity a continuation takes: claimed after an `await`, or deleted by a
settlement whose release threw, when the execution has already left `active`. -/
def Frame.takes (cfg : BoxConfig) (g : Gateway) : Frame → Answer → Option String
  | .consuming e, .consumed true _ =>
      if cfg.oneActiveBoxPerUnderlying = false ∧ g.WithinBudget cfg e then some e.opportunityId
      else none
  | .held e true, .turn => if g.WithinBudget cfg e then some e.opportunityId else none
  | .settling _ opportunityId _ r, .threw _ => if r.call.swallows then none else opportunityId
  | _, _ => none

/-- Only an exception no chain swallows rejects a release. -/
theorem Releasing.resume_eq_rejected {r : Releasing} {answer : Answer}
    (h : r.resume answer = some .rejected) :
    (∃ message, answer = .threw message) ∧ r.call.swallows = false := by
  have hnext : ∀ rest, Releasing.next rest ≠ .rejected := by
    intro rest
    cases rest <;> exact nofun
  unfold Releasing.resume at h
  split at h
  · exact absurd (Option.some.inj h) (hnext _)
  · exact absurd (Option.some.inj h) (hnext _)
  · rename_i message
    refine ⟨⟨message, rfl⟩, ?_⟩
    cases hsw : r.call.swallows with
    | false => rfl
    | true =>
        rw [hsw, if_pos rfl] at h
        exact absurd (Option.some.inj h) (hnext _)
  · cases h

/-- A release that goes on takes nothing. -/
theorem takes_settling {cfg : BoxConfig} {g : Gateway} {id : OwnerId}
    {opportunityId : Option String} {result : ExecutionResult} {r : Releasing} {answer : Answer}
    {progress : Releasing.Progress} (h : r.resume answer = some progress)
    (hp : progress ≠ .rejected) :
    (Frame.settling id opportunityId result r).takes cfg g answer = none := by
  cases answer with
  | threw message =>
      cases hsw : r.call.swallows with
      | true => simp [Frame.takes, hsw]
      | false =>
          simp only [Releasing.resume, hsw] at h
          exact absurd (Option.some.inj h).symm hp
  | _ => rfl

section Stretches

variable {cfg : BoxConfig} {w : World} {g : Gateway} {frame : Frame} {answer : Answer}
variable {s : Stretch} {e : Entry} {a : Attempt} {lease : ReservationLease}
variable {result : ExecutionResult}

/-- What a claimed execution concludes is its own. -/
theorem Gateway.Claimed.mapped (h : g.Claimed e) (hd : g.Deduplicated) :
    ∀ o, some e.opportunityId = some o → g.activeOpportunities.get? o = some e.executionId := by
  intro o ho
  rw [← Option.some.inj ho]
  exact hd _ _ _ h.registration

theorem Gateway.keeps_settle {id : OwnerId} {opportunityId : Option String}
    {uncertainty : Uncertainty}
    (h : ∀ o, opportunityId = some o → g.activeOpportunities.get? o = some id) :
    Keeps g (g.settle cfg w id opportunityId result uncertainty).gateway := by
  cases uncertainty with
  | clean => exact Keeps.conclude h
  | uncertain => exact (Keeps.conclude h).trans .retain

theorem Gateway.keeps_resumeRelease {more : Releasing → Frame} {done rejected : Stretch}
    {progress : Releasing.Progress} (hdone : Keeps g done.gateway)
    (hrejected : Keeps g rejected.gateway) :
    Keeps g (g.resumeRelease more done rejected progress).gateway := by
  cases progress with
  | more r => exact .refl g
  | done => exact hdone
  | rejected => exact hrejected

theorem Gateway.keeps_afterGranted : Keeps g (g.afterGranted cfg w e a lease).gateway := by
  unfold afterGranted
  split
  · exact .abandonAndReleaseHold
  · exact .refl g

theorem Gateway.keeps_waitForKeys : Keeps g (g.waitForKeys cfg w e a).gateway := by
  unfold waitForKeys
  split
  · exact .refl g
  · exact .abandonAndReleaseHold

theorem Gateway.keeps_handleUnavailable {tier detail : String} :
    Keeps g (g.handleUnavailable cfg w e a tier detail).gateway := by
  unfold handleUnavailable
  split
  · exact .abandonAndReleaseHold
  · split
    · exact .refl g
    · exact .abandonAndReleaseHold

theorem Gateway.keeps_resumeAcquire {threw : Stretch} (hthrew : Keeps g threw.gateway)
    (hs : g.resumeAcquire cfg w e a threw answer = some s) : Keeps g s.gateway := by
  unfold resumeAcquire at hs
  split at hs <;> cases hs
  · exact keeps_afterGranted
  · exact keeps_waitForKeys
  · exact keeps_handleUnavailable
  · exact hthrew

theorem Gateway.keeps_resumeLocal (hs : g.resumeLocal cfg w e a answer = some s) :
    Keeps g s.gateway := by
  unfold resumeLocal at hs
  split at hs <;> cases hs
  · exact keeps_afterGranted
  · split
    · exact .abandonAndReleaseHold
    · exact keeps_waitForKeys
  · split
    · exact .abandonAndReleaseHold
    · exact .abandonAndReleaseHold
  · exact .refl g

theorem Gateway.keeps_dropPipeline : Keeps g (g.dropPipeline cfg w e result).gateway := by
  have h : Keeps g (g.dropUnderlyingHolder cfg w e.candidate.underlying
      (.pipeline e.executionId)).1 := .dropUnderlyingHolder
  unfold dropPipeline
  dsimp only
  split
  · exact h
  · exact h

theorem Gateway.keeps_settleUnderlyingHold :
    Keeps g (g.settleUnderlyingHold cfg w e result).gateway := by
  unfold settleUnderlyingHold
  split
  · split
    · dsimp only
      split
      · exact Keeps.addHolder.trans keeps_dropPipeline
      · split
        · rename_i heq
          exact Keeps.holdUnderlying heq
        · rename_i heq
          exact Keeps.holdUnderlying heq
    · split
      · exact .refl g
      · exact keeps_dropPipeline
  · exact .refl g

theorem Gateway.keeps_afterAttempt (hone : cfg.oneActiveBoxPerUnderlying = true) :
    Keeps g (g.afterAttempt cfg w e).gateway := by
  unfold afterAttempt
  rw [if_pos hone]
  dsimp only
  split
  · exact .refl g
  · split
    · rename_i heq
      exact Keeps.holdUnderlying heq
    · rename_i heq
      exact Keeps.holdUnderlying heq

/-- A continuation keeps every opportunity with its execution exactly when what it
takes is free. -/
theorem Frame.resume_deduplicated_iff (h : frame.Agrees g) (hd : g.Deduplicated)
    (hc : ∀ id, ∃ expected, g.Stands id expected)
    (hs : frame.resume cfg w g answer = some s) : s.gateway.Deduplicated ↔
      ∀ o, frame.takes cfg g answer = some o → g.duplicateOf o = none := by
  obtain ⟨-, hagrees⟩ := h
  have quiet : frame.takes cfg g answer = none → Keeps g s.gateway → (s.gateway.Deduplicated ↔
      ∀ o, frame.takes cfg g answer = some o → g.duplicateOf o = none) := by
    intro ht hk
    rw [ht]
    exact ⟨fun _ => nofun, fun _ => hd.keeps hk⟩
  cases frame with
  | consuming e =>
      have hstands : g.Stands e.executionId none := hagrees _ rfl
      simp only [resume, resumeConsuming] at hs
      split at hs <;> cases hs
      · by_cases hone : cfg.oneActiveBoxPerUnderlying = true
        · exact quiet (by simp [takes, hone]) (keeps_afterAttempt hone)
        · rw [afterAttempt, if_neg hone, deduplicated_afterHold_iff hd hstands hc]
          simp [takes, hone]
      · exact quiet rfl (.refl g)
      · exact quiet rfl (.refl g)
  | holding e hold =>
      obtain ⟨⟨g', held⟩, hfin, rfl⟩ := Option.map_eq_some_iff.mp hs
      exact quiet rfl (.finishHold hfin)
  | held e held =>
      cases held <;> cases answer <;> cases hs
      · exact quiet rfl .abandonAndReleaseHold
      · rw [deduplicated_afterHold_iff hd (hagrees _ rfl) hc]
        simp [takes]
  | acquiring e a => exact quiet rfl (keeps_resumeAcquire .abandonAndReleaseHold hs)
  | acquiringLocal e a => exact quiet rfl (keeps_resumeLocal hs)
  | waiting e a =>
      cases answer <;> cases hs
      exact quiet rfl (.refl g)
  | retrying e a => exact quiet rfl (keeps_resumeAcquire (.refl g) hs)
  | verifying e a lease =>
      simp only [resume, resumeVerifying] at hs
      split at hs <;> cases hs <;> exact quiet rfl (.refl g)
  | permitted e a lease refusal =>
      cases answer <;> cases hs
      cases refusal with
      | none => exact quiet rfl .grant
      | some refusal => exact quiet rfl .abandonAndReleaseHold
  | discarding e refusal r =>
      obtain ⟨progress, -, rfl⟩ := Option.map_eq_some_iff.mp hs
      exact quiet rfl (keeps_resumeRelease (.refl g) (.refl g))
  | executing e =>
      cases answer <;> cases hs
      · exact quiet rfl keeps_settleUnderlyingHold
      · exact quiet rfl (.holdOnUncertainty (Claimed.mapped (hagrees _ rfl) hd))
  | reholding e result hold =>
      obtain ⟨⟨g', held⟩, hfin, rfl⟩ := Option.map_eq_some_iff.mp hs
      exact quiet rfl (.finishHold hfin)
  | reheld e result =>
      cases answer <;> cases hs
      exact quiet rfl keeps_dropPipeline
  | droppingPipeline e result r =>
      obtain ⟨progress, -, rfl⟩ := Option.map_eq_some_iff.mp hs
      have hmapped := Claimed.mapped (e := e) (hagrees _ rfl) hd
      exact quiet rfl (keeps_resumeRelease (keeps_settle hmapped) (.holdOnUncertainty hmapped))
  | holdSettled e result =>
      cases answer <;> cases hs
      exact quiet rfl (keeps_settle (Claimed.mapped (e := e) (hagrees _ rfl) hd))
  | exitAcquiring x =>
      cases answer <;> cases hs
      · exact quiet rfl .registerActive
      · exact quiet rfl (.refl g)
      · exact quiet rfl (.refl g)
      · exact quiet rfl (.refl g)
  | exitAcquiringLocal x =>
      cases answer <;> cases hs
      · exact quiet rfl .registerActive
      · exact quiet rfl (.refl g)
      · exact quiet rfl (.refl g)
      · exact quiet rfl (.refl g)
  | exitExecuting x =>
      cases answer <;> cases hs
      · exact quiet rfl (keeps_settle nofun)
      · exact quiet rfl (.holdOnUncertainty nofun)
  | settling id opportunityId result r =>
      obtain ⟨progress, hprogress, rfl⟩ := Option.map_eq_some_iff.mp hs
      cases progress with
      | rejected =>
          obtain ⟨⟨message, rfl⟩, hbare⟩ := Releasing.resume_eq_rejected hprogress
          cases opportunityId with
          | none => exact quiet (by simp [takes]) (.holdOnUncertainty nofun)
          | some opportunityId =>
              have hiff : (g.holdOnUncertainty id (some opportunityId) "entry threw"
                  w.now).Deduplicated ↔ g.duplicateOf opportunityId = none :=
                deduplicated_holdOnUncertainty_iff hd (hagrees id rfl) hc
              exact hiff.trans (by simp [takes, hbare])
      | more r' => exact quiet (takes_settling hprogress nofun) (.refl g)
      | done => exact quiet (takes_settling hprogress nofun) (.refl g)
  | claiming hold =>
      obtain ⟨⟨g', held⟩, hfin, rfl⟩ := Option.map_eq_some_iff.mp hs
      exact quiet rfl (.finishHold hfin)
  | dropping r =>
      obtain ⟨progress, -, rfl⟩ := Option.map_eq_some_iff.mp hs
      exact quiet rfl (keeps_resumeRelease (.refl g) (.refl g))
  | renewing r =>
      obtain ⟨progress, -, rfl⟩ := Option.map_eq_some_iff.mp hs
      refine quiet rfl ?_
      unfold finishRenewal
      split
      · exact .refl g
      · exact .renewActive
      · exact .loseOwnership
      · exact .refl g
  | tickActive now children =>
      cases answer <;> cases hs
      exact quiet rfl .tickHolds
  | tickHolds now id r rest =>
      obtain ⟨progress, -, rfl⟩ := Option.map_eq_some_iff.mp hs
      refine quiet rfl ?_
      unfold finishHoldRenewal
      split
      · exact .refl g
      · exact Keeps.renewHold.trans .tickHolds
      · split
        · exact .tickHolds
        · exact Keeps.dropHold.trans .tickHolds
      · exact .of_same (fun _ => rfl) rfl
  | tickClaims claimKey r rest =>
      obtain ⟨progress, -, rfl⟩ := Option.map_eq_some_iff.mp hs
      refine quiet rfl ?_
      unfold finishClaimRenewal
      split
      · exact .refl g
      · exact Keeps.renewClaim.trans .tickClaims
      · exact .of_same (fun _ => rfl) rfl

end Stretches

/-- Duplicate suppression in one state: an opportunity has at most one running
execution, maps to exactly that one, and a further call for it is refused. -/
structure SuppressesDuplicates (cfg : BoxConfig) (p : Process) : Prop where
  unique : ∀ o id id', p.gateway.Carries id o → p.gateway.Carries id' o → id = id'
  mapped : ∀ o id, p.gateway.Carries id o → p.gateway.activeOpportunities.get? o = some id
  refused : ∀ w legging candidate id,
    p.gateway.Carries id s!"{toUpperCase w.broker}:{candidate.key}" →
    ¬(cfg.reservationRequireDurable ∧ ¬cfg.chained ∧ cfg.live) →
    ∃ detail, (p.gateway.coordinateEntry cfg w legging candidate).next =
      .finish (.refused (p.gateway.mintId "entry").1 ⟨.duplicate, detail⟩)

/-- What the step takes is free when it is taken. -/
def TakesFreeOpportunities (cfg : BoxConfig) (p : Process) : Label → Prop
  | .resume _ t =>
      match p.tasks[t]? with
      | some (.suspended frame (some answer)) =>
          ∀ o ∈ frame.takes cfg p.gateway answer, p.gateway.duplicateOf o = none
      | _ => True
  | _ => True

instance (cfg : BoxConfig) (p : Process) : ∀ a, Decidable (TakesFreeOpportunities cfg p a)
  | .resume _ t =>
      Task.decidableAnswered (fun frame answer => ∀ o ∈ frame.takes cfg p.gateway answer,
        p.gateway.duplicateOf o = none) p.tasks[t]?
  | .start _ _ | .answer _ _ | .lapse _ _ => .isTrue trivial

section Runs

variable {cfg : BoxConfig} {p p' : Process} {a : Label} {labels : List Label}

theorem suppressesDuplicates_iff :
    SuppressesDuplicates cfg p ↔ p.gateway.Deduplicated := by
  constructor
  · intro h id u o hreg
    exact h.mapped o id (carries_iff.mpr ⟨u, hreg⟩)
  · intro h
    have hmapped : ∀ o id, p.gateway.Carries id o →
        p.gateway.activeOpportunities.get? o = some id := by
      intro o id hcarries
      obtain ⟨u, hreg⟩ := carries_iff.mp hcarries
      exact h id u o hreg
    refine ⟨fun o id id' hc hc' => ?_, hmapped, fun w legging candidate id hc hopen => ?_⟩
    · exact Option.some.inj ((hmapped o id hc).symm.trans (hmapped o id' hc'))
    · have hdup : (p.gateway.mintId "entry").2.duplicateOf
          s!"{toUpperCase w.broker}:{candidate.key}" = some id := by
        have hmap := hmapped _ id hc
        obtain ⟨exec, hexec, -⟩ := hc
        exact Option.filter_eq_some_iff.mpr ⟨hmap, OrderedMap.has_iff.mpr ⟨exec, hexec⟩⟩
      refine ⟨s!"identical opportunity already executing as {id.text}", ?_⟩
      unfold coordinateEntry prologue
      dsimp only [newEntry]
      rw [if_neg hopen, hdup]
      rfl

/-- An operation takes its opportunity in the stretch that reads the guard. -/
theorem begin_deduplicated {w : World} {operation : Operation} (h : Registered p)
    (hd : p.gateway.Deduplicated) : (p.begin cfg w operation).gateway.Deduplicated := by
  cases operation with
  | entry legging candidate =>
      have hmint : Keeps p.gateway (p.gateway.mintId "entry").2 := .of_same (fun _ => rfl) rfl
      have hd' := hd.keeps hmint
      have hc : ∀ id, ∃ expected, (p.gateway.mintId "entry").2.Stands id expected := by
        intro id
        obtain ⟨expected, hs⟩ := h.coherent id
        exact ⟨expected, hs.of_same rfl rfl⟩
      have hstands : (p.gateway.mintId "entry").2.Stands (p.gateway.mintId "entry").1 none :=
        (h.unminted _ (Nat.lt_succ_self _)).of_same rfl rfl
      simp only [Process.begin, coordinateEntry, prologue]
      split
      · exact hd'
      · split
        · exact hd'
        · rename_i hguard
          split
          · exact hd'
          · split
            · exact hd'
            · by_cases hone : cfg.oneActiveBoxPerUnderlying = true
              · exact hd'.keeps (keeps_afterAttempt hone)
              · rw [afterAttempt, if_neg hone]
                exact (deduplicated_afterHold_iff hd' hstands hc).mpr fun _ => hguard
  | exit legging position => exact hd.keeps (.of_same (fun _ => rfl) rfl)
  | claimUnderlyingForPosition underlying tradeId =>
      simp only [Process.begin, claimUnderlying]
      split
      · rename_i heq
        exact hd.keeps (.holdUnderlying heq)
      · rename_i heq
        exact hd.keeps (.holdUnderlying heq)
  | claimUnderlyingForResidual underlying attemptId =>
      simp only [Process.begin, claimUnderlying]
      split
      · rename_i heq
        exact hd.keeps (.holdUnderlying heq)
      · rename_i heq
        exact hd.keeps (.holdUnderlying heq)
  | releaseUnderlyingForPosition underlying tradeId =>
      exact hd.keeps Keeps.dropUnderlyingHolder
  | releaseUnderlyingForResidual underlying attemptId =>
      exact hd.keeps Keeps.dropUnderlyingHolder
  | renewTick =>
      simp only [Process.begin, renewTick]
      split
      · exact hd
      · exact hd.keeps (.of_same (fun _ => rfl) rfl)

theorem step_deduplicated_iff (h : Registered p) (hd : p.gateway.Deduplicated)
    (hstep : p.step cfg a = some p') :
    p'.gateway.Deduplicated ↔ TakesFreeOpportunities cfg p a := by
  obtain ⟨w, operation, rfl, rfl⟩ | ⟨t, frame, answer, leases, rfl, ht, -, rfl⟩ |
    ⟨w, t, frame, answer, s, rfl, ht, hs, rfl⟩ | ⟨tier, owner, rfl, rfl⟩ :=
      Process.step_cases hstep
  · exact ⟨fun _ => trivial, fun _ => begin_deduplicated h hd⟩
  · exact ⟨fun _ => trivial, fun _ => hd⟩
  · unfold TakesFreeOpportunities
    simp only [ht]
    exact Frame.resume_deduplicated_iff (h.agrees t _ ht) hd h.coherent hs
  · exact ⟨fun _ => trivial, fun _ => hd⟩

/-- Duplicates are suppressed throughout a run exactly when every opportunity the run
takes, at a claim after an `await` or at a late deletion, is free when it is taken. -/
theorem duplicates_suppressed_iff (cfg : BoxConfig) (labels : List Label) :
    Machine.Throughout (Process.step cfg) (SuppressesDuplicates cfg) {} labels ↔
      Machine.Heeds (Process.step cfg) (TakesFreeOpportunities cfg) {} labels := by
  refine Machine.throughout_iff_heeds (I := Registered) (L := fun _ => True)
    (fun _ _ _ _ hreg _ _ hstep => hreg.step hstep) (fun p a p' _ hreg hd hstep => ?_)
    Registered.initial ?_ fun _ _ => trivial
  · rw [suppressesDuplicates_iff] at hd ⊢
    exact step_deduplicated_iff hreg hd hstep
  · exact suppressesDuplicates_iff.mpr nofun

end Runs

section Duplicate

def sampleCandidate : BoxCandidate where
  key := "BOX-1"
  underlying := "RELIANCE"
  legs := [⟨1, "C2500", "NFO"⟩, ⟨2, "P2500", "NFO"⟩, ⟨3, "C2600", "NFO"⟩, ⟨4, "P2600", "NFO"⟩]

/-- Both calls read the guard before either has its session attempt consumed. -/
def duplicateRun : List Label :=
  [.start {} (.entry true sampleCandidate), .start {} (.entry true sampleCandidate),
    .answer 0 (.consumed true none), .answer 1 (.consumed true none), .resume {} 0, .resume {} 1]

/-- Two executions of one opportunity are active at once. -/
theorem duplicateRun_not_suppressed :
    ¬Machine.Throughout (Process.step { consumesAttempts := true })
      (SuppressesDuplicates { consumesAttempts := true }) {} duplicateRun := by
  intro h
  obtain ⟨p, hrun⟩ : ∃ p, Machine.run (Process.step { consumesAttempts := true }) {}
      duplicateRun = some p := Option.isSome_iff_exists.mp (by decide)
  have hboth : (Machine.run (Process.step { consumesAttempts := true }) {} duplicateRun).all
      fun p => ∀ seq ∈ [1, 2], p.gateway.registration ⟨"entry", seq⟩ =
        some ("RELIANCE", some "ZERODHA:BOX-1") := by decide
  simp only [hrun, Option.all_some, decide_eq_true_eq] at hboth
  have hcarries : ∀ seq ∈ [1, 2], p.gateway.Carries ⟨"entry", seq⟩ "ZERODHA:BOX-1" :=
    fun seq hseq => carries_iff.mpr ⟨"RELIANCE", hboth seq hseq⟩
  have := (h.last hrun).unique _ _ _ (hcarries 1 (by simp)) (hcarries 2 (by simp))
  cases this

end Duplicate

end Strikedge.Coordinator
