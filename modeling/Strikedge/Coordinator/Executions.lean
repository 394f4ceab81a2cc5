import Strikedge.Coordinator.Process

/-!
# Who owns what in the bookkeeping

Every execution is minted once and belongs to one method. `registration` is what
`active` says of it that never changes while it is there. A stretch writes the
records of its own execution only (`Spares`), so what the tasks of a process expect
of `active` is an invariant of its runs (`Registered`).
-/

namespace Strikedge.Coordinator

open Reservations (InstrumentKey ReservationContext RenewFailure)

namespace Gateway

/-- The underlying and the opportunity under which an execution is in `active`. -/
def registration (g : Gateway) (id : OwnerId) : Option (String × Option String) :=
  (g.active.get? id).map fun exec => (exec.underlying, exec.opportunityId)

/-- The holders recorded under a claim key. -/
def holdersOf (g : Gateway) (claimKey : String) : Option (Finset Holder) :=
  (g.positionClaims.get? claimKey).map (·.holders)

variable {g g' g'' : Gateway} {id i j : OwnerId} {cfg : BoxConfig} {w : World}
variable {keys : List InstrumentKey} {lease : ReservationLease} {context : ReservationContext}
variable {underlying opportunityId why claimKey key : String} {holder : Holder} {now : Int}

theorem registration_eq_none_iff : g.registration id = none ↔ g.active.has id = false := by
  simp [registration, OrderedMap.has]

@[simp] theorem registration_claim :
    (g.claim i opportunityId underlying keys context).registration j =
      if j = i then some (underlying, some opportunityId) else g.registration j := by
  by_cases h : j = i <;> simp [registration, claim, h]

@[simp] theorem registration_registerActive :
    (g.registerActive i keys underlying lease context).registration j =
      if j = i then some (underlying, none) else g.registration j := by
  by_cases h : j = i <;> simp [registration, registerActive, h]

@[simp] theorem registration_grant :
    (g.grant i keys lease context).registration j = g.registration j := by
  unfold grant
  split
  · rfl
  · rename_i exec hexec
    by_cases h : j = i
    · simp [registration, h, hexec]
    · simp [registration, h]

@[simp] theorem registration_abandon :
    (g.abandon i).registration j = if j = i then none else g.registration j := by
  unfold abandon
  split
  · rename_i hnone
    by_cases h : j = i
    · simp [registration, h, hnone]
    · simp [h]
  · by_cases h : j = i <;> simp [registration, h]

@[simp] theorem registration_conclude {opportunityId : Option String} :
    (g.conclude i opportunityId).registration j = if j = i then none else g.registration j := by
  rw [← registration_abandon]
  cases opportunityId <;> rfl

@[simp] theorem registration_renewActive {expiresAt : Int} {fence : Nat} :
    (g.renewActive i expiresAt fence).registration j = g.registration j := by
  unfold renewActive
  split
  · rfl
  · rename_i exec hexec
    by_cases h : j = i
    · simp [registration, h, hexec]
    · simp [registration, h]

@[simp] theorem registration_loseOwnership {reason : RenewFailure} :
    (g.loseOwnership i reason).registration j = g.registration j := by
  simp only [loseOwnership]
  split
  · rfl
  · rename_i exec hexec
    by_cases h : j = i
    · simp [registration, h, hexec]
    · simp [registration, h]

section Unwritten

variable (g i cfg w)

theorem grant_eq (keys : List InstrumentKey) (lease : ReservationLease)
    (context : ReservationContext) : ∃ active, g.grant i keys lease context = { g with active } := by
  unfold grant
  split
  · exact ⟨g.active, rfl⟩
  · exact ⟨_, rfl⟩

theorem abandon_eq : ∃ active activeOpportunities,
    g.abandon i = { g with active, activeOpportunities } := by
  unfold abandon
  split
  · exact ⟨g.active, g.activeOpportunities, rfl⟩
  · exact ⟨_, _, rfl⟩

theorem conclude_eq (opportunityId : Option String) : ∃ active activeOpportunities,
    g.conclude i opportunityId = { g with active, activeOpportunities } := by
  obtain ⟨active, activeOpportunities, h⟩ := abandon_eq g i
  cases opportunityId with
  | none => exact ⟨active, activeOpportunities, h⟩
  | some opportunityId =>
      exact ⟨active, activeOpportunities.delete opportunityId, by simp only [conclude, h]⟩

theorem retain_eq (exec : Option ActiveExecution) (why : String) (now : Int) :
    ∃ holds, g.retain i exec why now = { g with holds } := by
  unfold retain
  split
  · exact ⟨g.holds, rfl⟩
  · split
    · exact ⟨g.holds, rfl⟩
    · split
      · exact ⟨g.holds, rfl⟩
      · exact ⟨_, rfl⟩

theorem renewActive_eq (expiresAt : Int) (fence : Nat) :
    ∃ active, g.renewActive i expiresAt fence = { g with active } := by
  unfold renewActive
  split
  · exact ⟨g.active, rfl⟩
  · exact ⟨_, rfl⟩

theorem loseOwnership_eq (reason : RenewFailure) :
    ∃ active violations, g.loseOwnership i reason = { g with active, violations } := by
  simp only [loseOwnership]
  split
  · exact ⟨g.active, _, rfl⟩
  · exact ⟨_, _, rfl⟩

theorem renewHold_eq (expiresAt : Int) (fence : Nat) :
    ∃ holds, g.renewHold i expiresAt fence = { g with holds } := by
  unfold renewHold
  split
  · exact ⟨g.holds, rfl⟩
  · exact ⟨_, rfl⟩

theorem addHolder_eq (claimKey : String) (holder : Holder) :
    ∃ positionClaims, g.addHolder claimKey holder = { g with positionClaims } := by
  unfold addHolder
  split
  · exact ⟨g.positionClaims, rfl⟩
  · exact ⟨_, rfl⟩

theorem renewClaim_eq (claimKey : String) (outcome : Reservations.RenewOutcome) :
    ∃ positionClaims, g.renewClaim claimKey i outcome = { g with positionClaims } := by
  unfold renewClaim
  split
  · exact ⟨g.positionClaims, rfl⟩
  · split
    · exact ⟨_, rfl⟩
    · exact ⟨g.positionClaims, rfl⟩

theorem dropUnderlyingHolder_eq (underlying : String) (holder : Holder) : ∃ positionClaims,
    (g.dropUnderlyingHolder cfg w underlying holder).1 = { g with positionClaims } := by
  simp only [dropUnderlyingHolder]
  split
  · exact ⟨g.positionClaims, rfl⟩
  · split
    · exact ⟨_, rfl⟩
    · exact ⟨_, rfl⟩

theorem releasePipelineHold_eq (underlying : Option String) : ∃ positionClaims,
    (g.releasePipelineHold cfg w i underlying).1 = { g with positionClaims } := by
  unfold releasePipelineHold
  split
  · exact ⟨g.positionClaims, rfl⟩
  · split
    · exact dropUnderlyingHolder_eq g cfg w _ _
    · exact ⟨g.positionClaims, rfl⟩

end Unwritten

@[simp] theorem registration_retain {exec : Option ActiveExecution} :
    (g.retain i exec why now).registration j = g.registration j := by
  obtain ⟨holds, hr⟩ := retain_eq g i exec why now
  rw [hr]
  rfl

@[simp] theorem registration_addHolder :
    (g.addHolder claimKey holder).registration j = g.registration j := by
  obtain ⟨claims, h⟩ := addHolder_eq g claimKey holder
  rw [h]
  rfl

@[simp] theorem registration_dropUnderlyingHolder :
    (g.dropUnderlyingHolder cfg w underlying holder).1.registration j = g.registration j := by
  obtain ⟨claims, h⟩ := dropUnderlyingHolder_eq g cfg w underlying holder
  rw [h]
  rfl

theorem holdersOf_addHolder : (g.addHolder claimKey holder).holdersOf key =
    if key = claimKey then (g.holdersOf key).map (insert holder ·) else g.holdersOf key := by
  unfold addHolder
  by_cases hk : key = claimKey
  · subst hk
    split
    · rename_i h
      simp [holdersOf, h]
    · rename_i claim h
      simp [holdersOf, h]
  · split
    · simp [hk]
    · simp [holdersOf, hk]

theorem holdersOf_recordClaim {claim : PositionUnderlyingClaim} :
    (g.recordClaim claimKey claim).holdersOf key =
      if key = claimKey then some claim.holders else g.holdersOf key := by
  by_cases hk : key = claimKey <;> simp [recordClaim, holdersOf, hk]

/-- Dropping a holder takes it from the claim under the current broker's key, and the
claim with it when it was the last. -/
theorem holdersOf_dropUnderlyingHolder :
    (g.dropUnderlyingHolder cfg w underlying holder).1.holdersOf key =
      if key = w.positionClaimKey underlying then
        ((g.holdersOf key).map (·.erase holder)).filter (·.Nonempty)
      else g.holdersOf key := by
  simp only [dropUnderlyingHolder]
  by_cases hk : key = w.positionClaimKey underlying
  · subst hk
    split
    · rename_i h
      simp [holdersOf, h]
    · rename_i claim h
      split
      · rename_i hne
        simp [holdersOf, h, hne, Option.filter_some]
      · rename_i hne
        simp [holdersOf, h, hne, Option.filter_some]
  · split
    · simp [hk]
    · split <;> simp [holdersOf, hk]

theorem holdersOf_renewClaim {outcome : Reservations.RenewOutcome} :
    (g.renewClaim claimKey i outcome).holdersOf key = g.holdersOf key := by
  unfold renewClaim
  split
  · rfl
  · rename_i claim h
    split
    · by_cases hk : key = claimKey
      · subst hk
        cases outcome <;> simp [holdersOf, h]
      · simp [holdersOf, hk]
    · rfl

/-- The pipeline of an execution holds the claim under a key. -/
def PipelineAt (g : Gateway) (id : OwnerId) (claimKey : String) : Prop :=
  ∃ holders, g.holdersOf claimKey = some holders ∧ .pipeline id ∈ holders

theorem pipelineAt_addHolder (h : holder ≠ .pipeline j) :
    (g.addHolder claimKey holder).PipelineAt j key ↔ g.PipelineAt j key := by
  unfold PipelineAt
  rw [holdersOf_addHolder]
  split
  · cases g.holdersOf key <;> simp [Ne.symm h]
  · exact Iff.rfl

theorem pipelineAt_dropUnderlyingHolder
    (h : (g.dropUnderlyingHolder cfg w underlying holder).1.PipelineAt j key) :
    g.PipelineAt j key ∧ (key = w.positionClaimKey underlying → holder ≠ .pipeline j) := by
  obtain ⟨holders, hk, hmem⟩ := h
  rw [holdersOf_dropUnderlyingHolder] at hk
  split at hk
  · obtain ⟨hmap, -⟩ := Option.filter_eq_some_iff.mp hk
    obtain ⟨before, hbefore, rfl⟩ := Option.map_eq_some_iff.mp hmap
    obtain ⟨hne, hmem⟩ := Finset.mem_erase.mp hmem
    exact ⟨⟨before, hbefore, hmem⟩, fun _ he => hne he.symm⟩
  · rename_i hne
    exact ⟨⟨holders, hk, hmem⟩, fun he => absurd he hne⟩

/-- What a stretch does to the records of executions that are not its own: nothing to
their registration, and no opportunity or underlying claim becomes theirs. -/
structure Spares (own : Option OwnerId) (g g' : Gateway) : Prop where
  registration : ∀ j, own ≠ some j → g'.registration j = g.registration j
  mapped : ∀ j, own ≠ some j → ∀ o, g'.activeOpportunities.get? o = some j →
    g.activeOpportunities.get? o = some j
  pipelines : ∀ j, own ≠ some j → ∀ key, g'.PipelineAt j key → g.PipelineAt j key
  seq : g.seq ≤ g'.seq

namespace Spares

variable {own : Option OwnerId}

theorem refl (own : Option OwnerId) (g : Gateway) : Spares own g g :=
  ⟨fun _ _ => rfl, fun _ _ _ h => h, fun _ _ _ h => h, Nat.le_refl _⟩

theorem trans (h : Spares own g g') (h' : Spares own g' g'') : Spares own g g'' where
  registration j hj := (h'.registration j hj).trans (h.registration j hj)
  mapped j hj o ho := h.mapped j hj o (h'.mapped j hj o ho)
  pipelines j hj key hk := h.pipelines j hj key (h'.pipelines j hj key hk)
  seq := Nat.le_trans h.seq h'.seq

theorem mintId {kind : String} : Spares own g (g.mintId kind).2 :=
  ⟨fun _ _ => rfl, fun _ _ _ h => h, fun _ _ _ h => h, Nat.le_succ _⟩

theorem claim :
    Spares (some i) g (g.claim i opportunityId underlying keys context) where
  registration j hj := by simp [show j ≠ i from fun h => hj (h ▸ rfl)]
  mapped j hj o ho := by
    have hne : i ≠ j := fun h => hj (h ▸ rfl)
    simp only [Gateway.claim, OrderedMap.get?_set] at ho
    split at ho
    · exact absurd (Option.some.inj ho) hne
    · exact ho
  pipelines _ _ _ h := h
  seq := Nat.le_refl _

theorem registerActive :
    Spares (some i) g (g.registerActive i keys underlying lease context) where
  registration j hj := by simp [show j ≠ i from fun h => hj (h ▸ rfl)]
  mapped _ _ _ h := h
  pipelines _ _ _ h := h
  seq := Nat.le_refl _

/-- An operation that writes `active` without changing what is registered there. -/
theorem of_active {active : OrderedMap OwnerId ActiveExecution} (hg : g' = { g with active })
    (hr : ∀ j, g'.registration j = g.registration j) : Spares own g g' := by
  subst hg
  exact ⟨fun j _ => hr j, fun _ _ _ h => h, fun _ _ _ h => h, Nat.le_refl _⟩

theorem grant : Spares own g (g.grant i keys lease context) :=
  let ⟨_, h⟩ := grant_eq g i keys lease context
  of_active h fun _ => registration_grant

theorem renewActive {expiresAt : Int} {fence : Nat} :
    Spares own g (g.renewActive i expiresAt fence) :=
  let ⟨_, h⟩ := renewActive_eq g i expiresAt fence
  of_active h fun _ => registration_renewActive

theorem loseOwnership {reason : RenewFailure} : Spares own g (g.loseOwnership i reason) := by
  obtain ⟨active, violations, h⟩ := loseOwnership_eq g i reason
  have hr : ∀ j, (g.loseOwnership i reason).registration j = g.registration j :=
    fun _ => registration_loseOwnership
  rw [h] at hr ⊢
  exact ⟨fun j _ => hr j, fun _ _ _ hm => hm, fun _ _ _ hp => hp, Nat.le_refl _⟩

theorem holds (holds : OrderedMap OwnerId UncertainHold) : Spares own g { g with holds } :=
  ⟨fun _ _ => rfl, fun _ _ _ h => h, fun _ _ _ h => h, Nat.le_refl _⟩

theorem heartbeat (heartbeatRunning : Bool) : Spares own g { g with heartbeatRunning } :=
  ⟨fun _ _ => rfl, fun _ _ _ h => h, fun _ _ _ h => h, Nat.le_refl _⟩

theorem retain {exec : Option ActiveExecution} : Spares own g (g.retain i exec why now) := by
  obtain ⟨hs, h⟩ := retain_eq g i exec why now
  rw [h]
  exact holds hs

theorem renewHold {expiresAt : Int} {fence : Nat} :
    Spares own g (g.renewHold i expiresAt fence) := by
  obtain ⟨hs, h⟩ := renewHold_eq g i expiresAt fence
  rw [h]
  exact holds hs

theorem abandon : Spares (some i) g (g.abandon i) where
  registration j hj := by simp [show j ≠ i from fun h => hj (h ▸ rfl)]
  mapped j _ o ho := by
    unfold Gateway.abandon at ho
    split at ho
    · exact ho
    · dsimp only at ho
      split at ho
      · exact ho
      · split at ho
        · rw [OrderedMap.get?_delete] at ho
          split at ho
          · cases ho
          · exact ho
        · exact ho
  pipelines j _ key h := by
    obtain ⟨active, opportunities, he⟩ := abandon_eq g i
    rwa [he] at h
  seq := by
    obtain ⟨active, opportunities, he⟩ := abandon_eq g i
    rw [he]

theorem conclude {opportunityId : Option String} :
    Spares (some i) g (g.conclude i opportunityId) := by
  cases opportunityId with
  | none => exact abandon
  | some opportunityId =>
      refine abandon.trans ⟨fun _ _ => rfl, fun j _ o ho => ?_, fun _ _ _ h => h, Nat.le_refl _⟩
      simp only [Gateway.conclude, OrderedMap.get?_delete] at ho
      split at ho
      · cases ho
      · exact ho

theorem holdOnUncertainty {opportunityId : Option String} :
    Spares (some i) g (g.holdOnUncertainty i opportunityId why now) :=
  conclude.trans retain

/-- An operation that writes the underlying claims only. -/
theorem of_claims {positionClaims : OrderedMap String PositionUnderlyingClaim}
    (hg : g' = { g with positionClaims })
    (hp : ∀ j, own ≠ some j → ∀ key, g'.PipelineAt j key → g.PipelineAt j key) :
    Spares own g g' := by
  subst hg
  exact ⟨fun _ _ => rfl, fun _ _ _ h => h, hp, Nat.le_refl _⟩

theorem addHolder (h : ∀ j, own ≠ some j → holder ≠ .pipeline j) :
    Spares own g (g.addHolder claimKey holder) :=
  let ⟨_, he⟩ := addHolder_eq g claimKey holder
  of_claims he fun j hj _ hp => (pipelineAt_addHolder (h j hj)).mp hp

theorem recordClaim {claim : PositionUnderlyingClaim}
    (h : ∀ j, own ≠ some j → .pipeline j ∉ claim.holders) :
    Spares own g (g.recordClaim claimKey claim) := by
  refine of_claims rfl fun j hj key ⟨holders, hk, hmem⟩ => ?_
  rw [holdersOf_recordClaim] at hk
  split at hk
  · cases hk
    exact absurd hmem (h j hj)
  · exact ⟨holders, hk, hmem⟩

theorem dropUnderlyingHolder :
    Spares own g (g.dropUnderlyingHolder cfg w underlying holder).1 :=
  let ⟨_, he⟩ := dropUnderlyingHolder_eq g cfg w underlying holder
  of_claims he fun _ _ _ hp => (pipelineAt_dropUnderlyingHolder hp).1

theorem releasePipelineHold {underlying : Option String} :
    Spares own g (g.releasePipelineHold cfg w i underlying).1 := by
  unfold Gateway.releasePipelineHold
  split
  · exact refl own g
  · split
    · exact dropUnderlyingHolder
    · exact refl own g

theorem abandonAndReleaseHold : Spares (some i) g (g.abandonAndReleaseHold cfg w i).1 :=
  releasePipelineHold.trans abandon

theorem renewClaim {outcome : Reservations.RenewOutcome} :
    Spares own g (g.renewClaim claimKey i outcome) :=
  let ⟨_, he⟩ := renewClaim_eq g i claimKey outcome
  of_claims he fun _ _ _ ⟨holders, hk, hmem⟩ => ⟨holders, holdersOf_renewClaim ▸ hk, hmem⟩

end Spares

/-- An execution is registered as expected, and no other opportunity maps to it. -/
structure Stands (g : Gateway) (id : OwnerId) (expected : Option (String × Option String)) :
    Prop where
  registration : g.registration id = expected
  mapped : ∀ o, g.activeOpportunities.get? o = some id → ∃ u, expected = some (u, some o)

namespace Stands

variable {expected : Option (String × Option String)} {own : Option OwnerId}

theorem unmapped (h : g.Stands i none) (o : String) : g.activeOpportunities.get? o ≠ some i := by
  intro ho
  obtain ⟨u, hu⟩ := h.mapped o ho
  cases hu

/-- An operation on records that are neither registrations nor opportunities. -/
theorem of_same (h : g.Stands i expected) (hr : g'.registration i = g.registration i)
    (ho : g'.activeOpportunities = g.activeOpportunities) : g'.Stands i expected :=
  ⟨hr.trans h.registration, ho ▸ h.mapped⟩

theorem spared (h : g.Stands i expected) (hs : Spares own g g') (hown : own ≠ some i) :
    g'.Stands i expected :=
  ⟨(hs.registration i hown).trans h.registration, fun o ho => h.mapped o (hs.mapped i hown o ho)⟩

theorem claim (h : g.Stands i none) :
    (g.claim i opportunityId underlying keys context).Stands i
      (some (underlying, some opportunityId)) where
  registration := by simp
  mapped o ho := by
    simp only [Gateway.claim, OrderedMap.get?_set] at ho
    split at ho
    · rename_i heq
      exact ⟨underlying, by rw [heq]⟩
    · exact absurd ho (h.unmapped o)

theorem registerActive (h : g.Stands i none) :
    (g.registerActive i keys underlying lease context).Stands i (some (underlying, none)) where
  registration := by simp
  mapped o ho := absurd ho (h.unmapped o)

theorem grant (h : g.Stands i expected) : (g.grant i keys lease context).Stands i expected := by
  refine h.of_same registration_grant ?_
  obtain ⟨active, he⟩ := grant_eq g i keys lease context
  rw [he]

theorem abandon (h : g.Stands i expected) : (g.abandon i).Stands i none where
  registration := by simp
  mapped o ho := by
    exfalso
    unfold Gateway.abandon at ho
    split at ho
    · rename_i hnone
      obtain ⟨u, hu⟩ := h.mapped o ho
      have := h.registration.trans hu
      simp [Gateway.registration, hnone] at this
    · rename_i exec hexec
      have hreg : g.registration i = some (exec.underlying, exec.opportunityId) := by
        simp [Gateway.registration, hexec]
      -- the deleted opportunity is the only one that maps to the execution
      have honly : ∀ o, g.activeOpportunities.get? o = some i → exec.opportunityId = some o := by
        intro o ho
        obtain ⟨u, hu⟩ := h.mapped o ho
        have := hreg.symm.trans (h.registration.trans hu)
        exact congrArg Prod.snd (Option.some.inj this)
      dsimp only at ho
      split at ho
      · rename_i hnone
        rw [honly o ho] at hnone
        cases hnone
      · rename_i opportunityId hopp
        split at ho
        · rw [OrderedMap.get?_delete] at ho
          split at ho
          · cases ho
          · rename_i hne
            rw [hopp] at honly
            exact hne (Option.some.inj (honly o ho)).symm
        · rename_i hother
          rw [hopp] at honly
          rw [Option.some.inj (honly o ho)] at hother
          exact hother ho

theorem conclude {opportunityId : Option String} (h : g.Stands i expected) :
    (g.conclude i opportunityId).Stands i none := by
  cases opportunityId with
  | none => exact h.abandon
  | some opportunityId =>
      refine ⟨by simp, fun o ho => ?_⟩
      simp only [Gateway.conclude, OrderedMap.get?_delete] at ho
      split at ho
      · cases ho
      · exact absurd ho (h.abandon.unmapped o)

theorem retain {exec : Option ActiveExecution} (h : g.Stands i expected) :
    (g.retain j exec why now).Stands i expected := by
  refine h.of_same registration_retain ?_
  obtain ⟨holds, he⟩ := retain_eq g j exec why now
  rw [he]

theorem holdOnUncertainty {opportunityId : Option String} (h : g.Stands i expected) :
    (g.holdOnUncertainty i opportunityId why now).Stands i none :=
  h.conclude.retain

/-- An operation that writes the underlying claims only. -/
theorem of_claims (h : g.Stands i expected)
    {positionClaims : OrderedMap String PositionUnderlyingClaim}
    (hg : g' = { g with positionClaims }) : g'.Stands i expected := by
  subst hg
  exact h.of_same rfl rfl

theorem addHolder (h : g.Stands i expected) : (g.addHolder claimKey holder).Stands i expected :=
  let ⟨_, he⟩ := addHolder_eq g claimKey holder
  h.of_claims he

theorem dropUnderlyingHolder (h : g.Stands i expected) :
    (g.dropUnderlyingHolder cfg w underlying holder).1.Stands i expected :=
  let ⟨_, he⟩ := dropUnderlyingHolder_eq g cfg w underlying holder
  h.of_claims he

theorem abandonAndReleaseHold (h : g.Stands i expected) :
    (g.abandonAndReleaseHold cfg w i).1.Stands i none := by
  obtain ⟨claims, he⟩ := releasePipelineHold_eq g i cfg w ((g.active.get? i).map (·.underlying))
  exact (h.of_claims he).abandon

end Stands

end Gateway

end Strikedge.Coordinator
