import Strikedge.Coordinator.Duplicates
import Strikedge.Coordinator.Refusals

/-!
# The heartbeat and the end of an execution

A tick captures the leased executions of `active` and renews each over its tiers, while
the executions go on. What it reports was lost by an execution that is still in `active`
as long as no tier refuses the renewal of an execution that has left, and no execution
leaves while a renewal of it that a tier refused is in flight: a settlement that releases
the lease under a renewal makes the next tier refuse it.
-/

namespace Strikedge.Coordinator

open Reservations (InstrumentKey RenewFailure RenewOutcome)

/-- The answer refuses the renewal: what throws inside the chain counts as unavailable. -/
def Renewal.refuses (r : Renewal) : Answer → Bool
  | .notRenewed _ _ => true
  | .threw _ => r.chained
  | _ => false

/-- A tier has refused the renewal: an earlier one, or the one that has just answered. -/
def Renewal.Refused (r : Renewal) (answer : Option Answer) : Prop :=
  r.failure.isSome = true ∨ ∃ given ∈ answer, r.refuses given = true

instance (r : Renewal) (answer : Option Answer) : Decidable (r.Refused answer) :=
  inferInstanceAs (Decidable (_ ∨ _))

/-- The execution whose refused renewal is in flight as this task. -/
def Task.refusedRenewal : Task → Option OwnerId
  | .suspended (.renewing r) answer => if r.Refused answer then some r.owner else none
  | _ => none

namespace Renewal

variable {r r' : Renewal} {answer : Answer} {reason : RenewFailure} {detail : String}

/-- The tier that is asked next is asked for the same lease, with the failure so far. -/
theorem advance_eq_more (h : r.advance = .more r') :
    r'.owner = r.owner ∧ r'.failure = r.failure := by
  unfold advance at h
  split at h
  · cases h
  · cases h
    exact ⟨rfl, rfl⟩

theorem advance_eq_failed (h : r.advance = .done (.failed reason detail)) :
    r.failure.isSome = true := by
  unfold advance at h
  split at h
  · have hout := Progress.done.inj h
    unfold outcome at hout
    split at hout
    · rename_i hfail
      rw [hfail]
      rfl
    · cases hout
  · cases h

theorem resume_eq_more (h : r.resume answer = some (.more r')) :
    r'.owner = r.owner ∧ (r'.failure.isSome = true → r.Refused (some answer)) := by
  cases answer <;> simp only [resume, reduceCtorEq, Option.some.injEq] at h
  case renewed expiresAt fence =>
      obtain ⟨howner, hfail⟩ := advance_eq_more h
      exact ⟨howner, fun hr => .inl (hfail ▸ hr)⟩
  case notRenewed reason detail =>
      exact ⟨(advance_eq_more h).1, fun _ => .inr ⟨_, rfl, rfl⟩⟩
  case threw message =>
      split at h
      · rename_i hchained
        exact ⟨(advance_eq_more h).1, fun _ => .inr ⟨_, rfl, hchained⟩⟩
      · cases h

/-- A renewal fails only after a tier refused it. -/
theorem resume_eq_failed (h : r.resume answer = some (.done (.failed reason detail))) :
    r.Refused (some answer) := by
  cases answer <;> simp only [resume, reduceCtorEq, Option.some.injEq] at h
  case renewed expiresAt fence =>
      have hfail := advance_eq_failed h
      exact .inl hfail
  case notRenewed reason detail => exact .inr ⟨_, rfl, rfl⟩
  case threw message =>
      split at h
      · rename_i hchained
        exact .inr ⟨_, rfl, hchained⟩
      · cases h

end Renewal

/-- The execution that leaves `active` when the method goes on: its entry is abandoned,
its settlement begins, or its legs threw. -/
def Frame.concludes (cfg : BoxConfig) (w : World) : Frame → Answer → Option OwnerId
  | .executing e, .threw _ | .holdSettled e _, .turn => some e.executionId
  | .droppingPipeline e _ r, answer =>
      match r.resume answer with
      | some (.more _) => none
      | _ => some e.executionId
  | .exitExecuting x, _ => some x.executionId
  | frame, answer => (frame.abandons cfg w answer).map (·.executionId)

/-- A tier refuses the renewal of an execution only while the execution is in `active`,
and an execution leaves only while no refused renewal of it is in flight. -/
def RefusalsPrecedeExits (cfg : BoxConfig) (p : Process) : Label → Prop
  | .answer t answer =>
      match p.tasks[t]? with
      | some (.suspended (.renewing r) none) =>
          r.refuses answer = true → p.gateway.active.has r.owner = true
      | _ => True
  | .resume w t =>
      match p.tasks[t]? with
      | some (.suspended frame (some answer)) =>
          ∀ id ∈ frame.concludes cfg w answer, ∀ task ∈ p.tasks, task.refusedRenewal ≠ some id
      | _ => True
  | _ => True

instance (cfg : BoxConfig) (p : Process) : ∀ a, Decidable (RefusalsPrecedeExits cfg p a)
  | .answer t _ => by
      unfold RefusalsPrecedeExits
      dsimp only
      rcases p.tasks[t]? with _ | (⟨frame, answered⟩ | _)
      · exact .isTrue trivial
      · cases frame <;> cases answered <;> infer_instance
      · exact .isTrue trivial
  | .resume w t =>
      Task.decidableAnswered (fun frame answer => ∀ id ∈ frame.concludes cfg w answer,
        ∀ task ∈ p.tasks, task.refusedRenewal ≠ some id) p.tasks[t]?
  | .start _ _ | .lapse _ _ => .isTrue trivial

namespace Gateway

variable {cfg : BoxConfig} {w : World} {g g' : Gateway} {id : OwnerId} {e : Entry} {a : Attempt}
variable {lease : ReservationLease} {answer : Answer} {s : Stretch} {result : ExecutionResult}

@[simp] theorem violations_grant {keys : List InstrumentKey} {context : Reservations.ReservationContext} :
    (g.grant id keys lease context).violations = g.violations := by
  obtain ⟨active, h⟩ := grant_eq g id keys lease context
  rw [h]

@[simp] theorem violations_abandon : (g.abandon id).violations = g.violations := by
  obtain ⟨active, opportunities, h⟩ := abandon_eq g id
  rw [h]

@[simp] theorem violations_conclude {opportunityId : Option String} :
    (g.conclude id opportunityId).violations = g.violations := by
  obtain ⟨active, opportunities, h⟩ := conclude_eq g id opportunityId
  rw [h]

@[simp] theorem violations_retain {exec : Option ActiveExecution} {why : String} {now : Int} :
    (g.retain id exec why now).violations = g.violations := by
  obtain ⟨holds, h⟩ := retain_eq g id exec why now
  rw [h]

@[simp] theorem violations_holdOnUncertainty {opportunityId : Option String} {why : String}
    {now : Int} : (g.holdOnUncertainty id opportunityId why now).violations = g.violations := by
  rw [holdOnUncertainty, violations_retain, violations_conclude]

@[simp] theorem violations_addHolder {claimKey : String} {holder : Holder} :
    (g.addHolder claimKey holder).violations = g.violations := by
  obtain ⟨claims, h⟩ := addHolder_eq g claimKey holder
  rw [h]

@[simp] theorem violations_dropUnderlyingHolder {underlying : String} {holder : Holder} :
    (g.dropUnderlyingHolder cfg w underlying holder).1.violations = g.violations := by
  obtain ⟨claims, h⟩ := dropUnderlyingHolder_eq g cfg w underlying holder
  rw [h]

@[simp] theorem violations_abandonAndReleaseHold :
    (g.abandonAndReleaseHold cfg w id).1.violations = g.violations := by
  obtain ⟨claims, h⟩ := releasePipelineHold_eq g id cfg w ((g.active.get? id).map (·.underlying))
  rw [abandonAndReleaseHold, violations_abandon, h]

@[simp] theorem violations_renewActive {expiresAt : Int} {fence : Nat} :
    (g.renewActive id expiresAt fence).violations = g.violations := by
  obtain ⟨active, h⟩ := renewActive_eq g id expiresAt fence
  rw [h]

@[simp] theorem violations_renewHold {expiresAt : Int} {fence : Nat} :
    (g.renewHold id expiresAt fence).violations = g.violations := by
  obtain ⟨holds, h⟩ := renewHold_eq g id expiresAt fence
  rw [h]

@[simp] theorem violations_renewClaim {claimKey : String} {outcome : RenewOutcome} :
    (g.renewClaim claimKey id outcome).violations = g.violations := by
  obtain ⟨claims, h⟩ := renewClaim_eq g id claimKey outcome
  rw [h]

@[simp] theorem violations_loseOwnership {reason : RenewFailure} :
    (g.loseOwnership id reason).violations = ⟨id, reason, g.active.has id⟩ :: g.violations := by
  simp only [loseOwnership]
  split <;> rfl

theorem violations_holdUnderlying {underlying : String} {holder : Holder} {exclusive : Bool}
    {next : HoldStep} (h : g.holdUnderlying cfg w underlying holder exclusive = (g', next)) :
    g'.violations = g.violations := by
  obtain ⟨rfl, -⟩ | ⟨-, -, -, rfl, -⟩ | ⟨-, -, rfl, -⟩ := holdUnderlying_cases h
  · rfl
  · exact violations_addHolder
  · rfl

theorem violations_finishHold {h : Hold} {held : Bool}
    (hs : g.finishHold w h answer = some (g', held)) : g'.violations = g.violations := by
  unfold finishHold at hs
  split at hs <;> cases hs <;> rfl

/-- A stretch that reports no loss and puts no refused renewal in flight. -/
structure Silent (g : Gateway) (s : Stretch) : Prop where
  violations : s.gateway.violations = g.violations
  next : s.next.task.refusedRenewal = none
  spawned : ∀ f ∈ s.spawned, (Task.suspended f none).refusedRenewal = none

theorem silent_quiet (hg : s.gateway.violations = g.violations)
    (hnext : s.next.task.refusedRenewal = none) (hspawned : s.spawned = []) : Silent g s :=
  ⟨hg, hnext, by simp [hspawned]⟩

theorem droppingFrame_silent {release : Option (ReleaseCall × List ReleaseCall)} :
    ∀ f ∈ droppingFrame release, (Task.suspended f none).refusedRenewal = none := by
  cases release <;> simp [droppingFrame, Task.refusedRenewal]

/-- The exits that abandon an entry. -/
theorem silent_abandoned (hg : s.gateway = (g.abandonAndReleaseHold cfg w id).1)
    (hnext : s.next.task.refusedRenewal = none)
    (hspawned : s.spawned = droppingFrame (g.abandonAndReleaseHold cfg w id).2) : Silent g s where
  violations := hg ▸ violations_abandonAndReleaseHold
  next := hnext
  spawned := hspawned ▸ droppingFrame_silent

theorem silent_afterHold : Silent g (g.afterHold cfg w e) := by
  unfold afterHold
  dsimp only
  split
  · exact silent_quiet rfl rfl rfl
  · exact silent_quiet rfl rfl rfl

theorem silent_afterAttempt : Silent g (g.afterAttempt cfg w e) := by
  unfold afterAttempt
  split
  · dsimp only
    split
    · exact silent_quiet rfl rfl rfl
    · split
      · rename_i heq
        exact silent_quiet (violations_holdUnderlying heq) rfl rfl
      · rename_i heq
        exact silent_quiet (violations_holdUnderlying heq) rfl rfl
  · exact silent_afterHold

theorem silent_prologue : Silent g (g.prologue cfg w e) := by
  unfold prologue
  split
  · exact silent_quiet rfl rfl rfl
  · split
    · exact silent_quiet rfl rfl rfl
    · split
      · exact silent_quiet rfl rfl rfl
      · split
        · exact silent_quiet rfl rfl rfl
        · exact silent_afterAttempt

theorem silent_afterGranted : Silent g (g.afterGranted cfg w e a lease) := by
  unfold afterGranted
  split
  · exact silent_abandoned rfl rfl rfl
  · refine silent_quiet rfl ?_ rfl
    unfold confirmBeforeSubmit
    dsimp only
    split
    · rfl
    · split <;> rfl

theorem silent_waitForKeys : Silent g (g.waitForKeys cfg w e a) := by
  unfold waitForKeys
  split
  · exact silent_quiet rfl rfl rfl
  · exact silent_abandoned rfl rfl rfl

theorem silent_handleUnavailable {tier detail : String} :
    Silent g (g.handleUnavailable cfg w e a tier detail) := by
  unfold handleUnavailable
  split
  · exact silent_abandoned rfl rfl rfl
  · split
    · exact silent_quiet rfl rfl rfl
    · exact silent_abandoned rfl rfl rfl

theorem silent_resumeAcquire {threw : Stretch} (hthrew : Silent g threw)
    (hs : g.resumeAcquire cfg w e a threw answer = some s) : Silent g s := by
  unfold resumeAcquire at hs
  split at hs <;> cases hs
  · exact silent_afterGranted
  · exact silent_waitForKeys
  · exact silent_handleUnavailable
  · exact hthrew

theorem silent_resumeLocal (hs : g.resumeLocal cfg w e a answer = some s) : Silent g s := by
  unfold resumeLocal at hs
  split at hs <;> cases hs
  · exact silent_afterGranted
  · split
    · exact silent_abandoned rfl rfl rfl
    · exact silent_waitForKeys
  · split
    · exact silent_abandoned rfl rfl rfl
    · exact silent_abandoned rfl rfl rfl
  · exact silent_quiet rfl rfl rfl

theorem silent_settle {opportunityId : Option String} {uncertainty : Uncertainty} :
    Silent g (g.settle cfg w id opportunityId result uncertainty) := by
  cases uncertainty with
  | clean => exact silent_quiet violations_conclude rfl rfl
  | uncertain => exact silent_quiet (violations_retain.trans violations_conclude) rfl rfl

theorem silent_dropPipeline : Silent g (g.dropPipeline cfg w e result) := by
  unfold dropPipeline
  dsimp only
  split
  · exact silent_quiet violations_dropUnderlyingHolder rfl rfl
  · exact silent_quiet violations_dropUnderlyingHolder rfl rfl

theorem silent_settleUnderlyingHold : Silent g (g.settleUnderlyingHold cfg w e result) := by
  unfold settleUnderlyingHold
  split
  · split
    · rename_i tradeId _
      dsimp only
      split
      · have hdrop : Silent (g.addHolder (w.positionClaimKey e.candidate.underlying)
            (.trade tradeId)) ((g.addHolder (w.positionClaimKey e.candidate.underlying)
              (.trade tradeId)).dropPipeline cfg w e result) := silent_dropPipeline
        exact ⟨hdrop.violations.trans violations_addHolder, hdrop.next, hdrop.spawned⟩
      · split
        · rename_i heq
          exact silent_quiet (violations_holdUnderlying heq) rfl rfl
        · rename_i heq
          exact silent_quiet (violations_holdUnderlying heq) rfl rfl
    · split
      · exact silent_quiet rfl rfl rfl
      · exact silent_dropPipeline
  · exact silent_quiet rfl rfl rfl

theorem silent_resumeRelease {more : Releasing → Frame} {done rejected : Stretch}
    {progress : Releasing.Progress}
    (hmore : ∀ r, (Task.suspended (more r) none).refusedRenewal = none)
    (hdone : Silent g done) (hrejected : Silent g rejected) :
    Silent g (g.resumeRelease more done rejected progress) := by
  cases progress with
  | more r => exact silent_quiet rfl (hmore r) rfl
  | done => exact hdone
  | rejected => exact hrejected

theorem silent_claimUnderlying {underlying : String} {holder : Holder} :
    Silent g (g.claimUnderlying cfg w underlying holder) := by
  unfold claimUnderlying
  split
  · rename_i heq
    exact silent_quiet (violations_holdUnderlying heq) rfl rfl
  · rename_i heq
    exact silent_quiet (violations_holdUnderlying heq) rfl rfl

theorem silent_releaseUnderlying {underlying : String} {holder : Holder} :
    Silent g (g.releaseUnderlying cfg w underlying holder) := by
  refine silent_quiet violations_dropUnderlyingHolder ?_ rfl
  unfold releaseUnderlying
  dsimp only
  split <;> rfl

/-- A tick starts renewals that nobody has refused. -/
theorem silent_renewTick {base : TaskId} : Silent g (g.renewTick cfg w base) := by
  unfold renewTick
  split
  · exact silent_quiet rfl rfl rfl
  · refine ⟨rfl, rfl, fun f hf => ?_⟩
    obtain ⟨r, hr, rfl⟩ := List.mem_map.mp hf
    obtain ⟨⟨id, exec⟩, -, hexec⟩ := List.mem_filterMap.mp hr
    have hfresh : r.failure = none := by
      dsimp only at hexec
      split at hexec
      · split at hexec
        · cases hexec
        · rw [← Option.some.inj hexec]
          unfold renewLease
          split <;> rfl
      · cases hexec
    simp [Task.refusedRenewal, Renewal.Refused, hfresh]

theorem silent_tickClaims {claims : List (String × PositionUnderlyingClaim)} :
    Silent g (ofTick (g.tickClaims cfg claims)) := by
  unfold tickClaims
  split
  · exact silent_quiet rfl rfl rfl
  · exact silent_quiet rfl rfl rfl

theorem silent_tickHolds {now : Int} {holds : List (OwnerId × UncertainHold)} :
    Silent g (ofTick (g.tickHolds cfg now holds)) := by
  induction holds generalizing g with
  | nil =>
      rw [tickHolds]
      exact silent_tickClaims
  | cons hold holds ih =>
      rw [tickHolds]
      split
      · obtain ⟨hg, hnext, hspawned⟩ := ih (g := g.dropHold hold.1)
        exact ⟨hg, hnext, hspawned⟩
      · exact silent_quiet rfl rfl rfl

theorem Silent.after (h : Silent g' s) (hg : g'.violations = g.violations) : Silent g s :=
  ⟨h.violations.trans hg, h.next, h.spawned⟩

end Gateway

open Gateway

section Stretches

variable {cfg : BoxConfig} {w : World} {g : Gateway} {frame : Frame} {answer : Answer}
variable {s : Stretch} {id : OwnerId}

/-- Only the end of a renewal reports a loss. -/
theorem Frame.resume_silent (hframe : ∀ r, frame ≠ .renewing r)
    (hs : frame.resume cfg w g answer = some s) : Silent g s := by
  cases frame with
  | consuming e =>
      simp only [resume, resumeConsuming] at hs
      split at hs <;> cases hs
      · exact silent_afterAttempt
      · exact silent_quiet rfl rfl rfl
      · exact silent_quiet rfl rfl rfl
  | holding e hold | reholding e result hold | claiming hold =>
      obtain ⟨⟨g', held⟩, hfin, rfl⟩ := Option.map_eq_some_iff.mp hs
      exact silent_quiet (violations_finishHold hfin) rfl rfl
  | held e held =>
      cases held <;> cases answer <;> cases hs
      · exact silent_abandoned rfl rfl rfl
      · exact silent_afterHold
  | acquiring e a =>
      refine silent_resumeAcquire ?_ hs
      exact silent_abandoned rfl rfl rfl
  | acquiringLocal e a => exact silent_resumeLocal hs
  | waiting e a =>
      cases answer <;> cases hs
      exact silent_quiet rfl rfl rfl
  | retrying e a =>
      refine silent_resumeAcquire ?_ hs
      exact silent_quiet rfl rfl rfl
  | verifying e a lease =>
      simp only [resume, resumeVerifying] at hs
      split at hs <;> cases hs <;> exact silent_quiet rfl rfl rfl
  | permitted e a lease refusal =>
      cases answer <;> cases hs
      cases refusal with
      | none => exact silent_quiet violations_grant rfl rfl
      | some refusal => exact silent_abandoned rfl rfl rfl
  | discarding e refusal r | dropping r =>
      obtain ⟨progress, -, rfl⟩ := Option.map_eq_some_iff.mp hs
      exact silent_resumeRelease (fun _ => rfl) (silent_quiet rfl rfl rfl) (silent_quiet rfl rfl rfl)
  | executing e =>
      cases answer <;> cases hs
      · exact silent_settleUnderlyingHold
      · exact silent_quiet violations_holdOnUncertainty rfl rfl
  | reheld e result =>
      cases answer <;> cases hs
      exact silent_dropPipeline
  | droppingPipeline e result r =>
      obtain ⟨progress, -, rfl⟩ := Option.map_eq_some_iff.mp hs
      exact silent_resumeRelease (fun _ => rfl) silent_settle
        (silent_quiet violations_holdOnUncertainty rfl rfl)
  | holdSettled e result =>
      cases answer <;> cases hs
      have hsettle : Silent g (g.settle cfg w e.executionId (some e.opportunityId) result
          (entryUncertainty e result)) := silent_settle
      exact ⟨hsettle.violations, hsettle.next, hsettle.spawned⟩
  | exitAcquiring x =>
      cases answer <;> cases hs
      · exact silent_quiet rfl rfl rfl
      · exact silent_quiet rfl rfl rfl
      · refine silent_quiet rfl ?_ rfl
        dsimp only
        split <;> rfl
      · exact silent_quiet rfl rfl rfl
  | exitAcquiringLocal x => cases answer <;> cases hs <;> exact silent_quiet rfl rfl rfl
  | exitExecuting x =>
      cases answer <;> cases hs
      · exact silent_settle
      · exact silent_quiet violations_holdOnUncertainty rfl rfl
  | settling id opportunityId result r =>
      obtain ⟨progress, -, rfl⟩ := Option.map_eq_some_iff.mp hs
      exact silent_resumeRelease (fun _ => rfl) (silent_quiet rfl rfl rfl)
        (silent_quiet violations_holdOnUncertainty rfl rfl)
  | renewing r => exact absurd rfl (hframe r)
  | tickActive now children =>
      cases answer <;> cases hs
      exact silent_tickHolds
  | tickHolds now id r rest =>
      obtain ⟨progress, -, rfl⟩ := Option.map_eq_some_iff.mp hs
      unfold finishHoldRenewal
      split
      · exact silent_quiet rfl rfl rfl
      · exact silent_tickHolds.after violations_renewHold
      · split
        · exact silent_tickHolds
        · exact silent_tickHolds.after rfl
      · exact silent_quiet rfl rfl rfl
  | tickClaims claimKey r rest =>
      obtain ⟨progress, -, rfl⟩ := Option.map_eq_some_iff.mp hs
      unfold finishClaimRenewal
      split
      · exact silent_quiet rfl rfl rfl
      · exact silent_tickClaims.after violations_renewClaim
      · exact silent_quiet rfl rfl rfl

theorem Gateway.afterGranted_gateway {e : Entry} {a : Attempt} {lease : ReservationLease}
    (h : ¬(a.waited = true ∧ w.revalidation.isSome = true)) :
    (g.afterGranted cfg w e a lease).gateway = g := by
  unfold afterGranted
  split
  · rename_i why hwaited hrevalidated
    exact absurd ⟨hwaited, by rw [hrevalidated]; rfl⟩ h
  · rfl

/-- An acquisition whose answer does not end the entry changes no bookkeeping. -/
theorem Gateway.resumeAcquire_gateway {e : Entry} {a : Attempt} (threw : Stretch)
    (hframe : frame = .acquiring e a ∨ frame = .retrying e a)
    (hstays : frame.abandons cfg w answer = none)
    (hthrew : ∀ message, answer = .threw message → threw.gateway = g)
    (hs : g.resumeAcquire cfg w e a threw answer = some s) : s.gateway = g := by
  unfold resumeAcquire at hs
  split at hs <;> cases hs
  · refine afterGranted_gateway fun hstale => ?_
    obtain rfl | rfl := hframe <;> simp [Frame.abandons, hstale] at hstays
  · have hroom : w.now < a.waitStarted + cfg.conflictWaitMaxMs := by
      obtain rfl | rfl := hframe <;> simpa [Frame.abandons] using hstays
    rw [waitForKeys, if_pos hroom]
  · have hfallback : ¬cfg.live = true ∧ cfg.withLocal = true := by
      obtain rfl | rfl := hframe <;>
        cases hlive : cfg.live <;> cases hlocal : cfg.withLocal <;>
        simp [Frame.abandons, hlive, hlocal] at hstays ⊢
    rw [handleUnavailable, if_neg hfallback.1, if_pos hfallback.2]
  · exact hthrew _ rfl

/-- A method abandons and concludes its own execution only. -/
theorem Frame.concludes_own (h : frame.concludes cfg w answer = some id) :
    some id = frame.execution := by
  have habandons : ∀ e, frame.abandons cfg w answer = some e → some e.executionId =
      frame.execution := by
    intro e he
    unfold Frame.abandons at he
    split at he <;> (try split at he) <;> (try split at he) <;> cases he <;> rfl
  unfold concludes at h
  split at h
  · exact h.symm
  · exact h.symm
  · split at h
    · cases h
    · exact h.symm
  · exact h.symm
  · obtain ⟨e, he, rfl⟩ := Option.map_eq_some_iff.mp h
    exact habandons e he

theorem Gateway.registration_dropPipeline {e : Entry} {result : ExecutionResult} :
    (g.dropPipeline cfg w e result).gateway.registration id = g.registration id := by
  unfold dropPipeline
  dsimp only
  split
  · exact registration_dropUnderlyingHolder
  · exact registration_dropUnderlyingHolder

/-- The settlement of an underlying hold changes nobody's registration. -/
theorem Gateway.registration_settleUnderlyingHold {e : Entry} {result : ExecutionResult} :
    (g.settleUnderlyingHold cfg w e result).gateway.registration id = g.registration id := by
  have hnot : ∀ tradeId j, none ≠ some j → Holder.trade tradeId ≠ .pipeline j :=
    fun _ _ _ => by simp
  unfold settleUnderlyingHold
  split
  · split
    · dsimp only
      split
      · exact registration_dropPipeline.trans registration_addHolder
      · split
        · rename_i heq
          exact (spares_holdUnderlying heq (hnot _)).1.registration id (by simp)
        · rename_i heq
          exact (spares_holdUnderlying heq (hnot _)).1.registration id (by simp)
    · split
      · rfl
      · exact registration_dropPipeline
  · rfl

/-- A method that does not conclude its execution leaves it in `active`. -/
theorem Frame.resume_stays (h : frame.Agrees g) (hid : frame.execution = some id)
    (hstays : frame.concludes cfg w answer = none) (hreg : g.registration id ≠ none)
    (hs : frame.resume cfg w g answer = some s) : s.gateway.registration id ≠ none := by
  have hregistered : frame.registration ≠ none := (h.2 id hid).registration ▸ hreg
  cases frame with
  | acquiring e a =>
      have habandons : (Frame.acquiring e a).abandons cfg w answer = none :=
        Option.map_eq_none_iff.mp hstays
      rw [resumeAcquire_gateway (g.abandonAndThrow cfg w e) (.inl rfl) habandons ?_ hs]
      · exact hreg
      · rintro message rfl
        cases habandons
  | acquiringLocal e a =>
      have habandons : (Frame.acquiringLocal e a).abandons cfg w answer = none :=
        Option.map_eq_none_iff.mp hstays
      suffices hsame : s.gateway = g by rwa [hsame]
      simp only [resume, resumeLocal] at hs
      split at hs <;> cases hs
      · exact afterGranted_gateway fun hstale => by simp [abandons, hstale] at habandons
      · have hroom : a.waited = false ∧ w.now < a.waitStarted + cfg.conflictWaitMaxMs := by
          cases hwaited : a.waited with
          | true => simp [abandons, hwaited] at habandons
          | false => exact ⟨rfl, by simpa [abandons, hwaited] using habandons⟩
        rw [if_neg (by simp [hroom.1]), waitForKeys, if_pos hroom.2]
      · cases habandons
      · rfl
  | waiting e a =>
      cases answer <;> cases hs
      exact hreg
  | retrying e a =>
      have habandons : (Frame.retrying e a).abandons cfg w answer = none :=
        Option.map_eq_none_iff.mp hstays
      rw [resumeAcquire_gateway (g.escape e) (.inr rfl) habandons (fun _ _ => rfl) hs]
      exact hreg
  | verifying e a lease =>
      simp only [resume, resumeVerifying] at hs
      split at hs <;> cases hs <;> exact hreg
  | permitted e a lease refusal =>
      cases answer <;> cases hs
      cases refusal with
      | none =>
          simp only [resumePermitted, registration_grant]
          exact hreg
      | some refusal => cases hstays
  | executing e =>
      cases answer <;> cases hs
      · rw [registration_settleUnderlyingHold]
        exact hreg
      · cases hstays
  | reholding e result hold =>
      obtain ⟨⟨g', held⟩, hfin, rfl⟩ := Option.map_eq_some_iff.mp hs
      have hspares : Spares none g g' := (spares_finishHold (fun j _ => h.1.2 j) hfin).1
      rw [hspares.registration id (by simp)]
      exact hreg
  | reheld e result =>
      cases answer <;> cases hs
      rw [registration_dropPipeline]
      exact hreg
  | droppingPipeline e result r =>
      obtain ⟨progress, hprogress, rfl⟩ := Option.map_eq_some_iff.mp hs
      simp only [concludes, hprogress] at hstays
      cases progress with
      | more r' => exact hreg
      | done => cases hstays
      | rejected => cases hstays
  | holdSettled e result =>
      cases answer <;> cases hs
      cases hstays
  | exitExecuting x => cases hstays
  | _ => exact absurd rfl hregistered

end Stretches

/-- Every loss the heartbeat reported was lost by an execution in `active`. -/
def ReportsActiveOnly (p : Process) : Prop :=
  ∀ loss ∈ p.gateway.violations, loss.wasActive = true

/-- The invariant: what was reported was active, and whose renewal was refused still is. -/
structure Vigilant (p : Process) : Prop extends Registered p where
  reported : ReportsActiveOnly p
  refused : ∀ (t : TaskId) (task : Task) (id : OwnerId), p.tasks[t]? = some task →
    task.refusedRenewal = some id → p.gateway.registration id ≠ none

namespace Vigilant

variable {cfg : BoxConfig} {p p' : Process} {a : Label}

theorem initial : Vigilant {} where
  toRegistered := .initial
  reported loss h := by cases h
  refused t task id h := by simp at h

theorem begin_silent {w : World} {operation : Operation} :
    Silent p.gateway (p.begin cfg w operation) := by
  cases operation with
  | entry legging candidate =>
      let e := newEntry cfg w (p.gateway.mintId "entry").1 legging candidate
      have hs : Silent (p.gateway.mintId "entry").2
          ((p.gateway.mintId "entry").2.prologue cfg w e) := silent_prologue
      exact hs.after rfl
  | exit legging position => exact silent_quiet rfl rfl rfl
  | claimUnderlyingForPosition underlying tradeId => exact silent_claimUnderlying
  | releaseUnderlyingForPosition underlying tradeId => exact silent_releaseUnderlying
  | claimUnderlyingForResidual underlying attemptId => exact silent_claimUnderlying
  | releaseUnderlyingForResidual underlying attemptId => exact silent_releaseUnderlying
  | renewTick => exact silent_renewTick

/-- The rule for a stretch. -/
theorem stretch {own : Option OwnerId} {s : Stretch} {t : TaskId} (h : Vigilant p)
    (hadv : Advances p p' own t s)
    (hreported : ∀ loss ∈ s.gateway.violations, loss.wasActive = true)
    (hnext : ∀ id, s.next.task.refusedRenewal = some id → s.gateway.registration id ≠ none)
    (hspawned : ∀ f ∈ s.spawned, (Task.suspended f none).refusedRenewal = none)
    (hstays : ∀ id, own = some id → (∃ task ∈ p.tasks, task.refusedRenewal = some id) →
      s.gateway.registration id ≠ none) : Vigilant p' := by
  refine ⟨h.toRegistered.stretch hadv, fun loss hloss => ?_, fun u task id hu hid => ?_⟩
  · rw [hadv.gateway] at hloss
    exact hreported loss hloss
  · rw [hadv.gateway]
    obtain ⟨rfl, rfl⟩ | ⟨-, hu⟩ | ⟨frame, hf, rfl⟩ := hadv.tasks u task hu
    · exact hnext id hid
    · by_cases hown : own = some id
      · exact hstays id hown ⟨task, List.mem_of_getElem? hu, hid⟩
      · rw [hadv.follows.spares.registration id hown]
        exact h.refused u task id hu hid
    · rw [hspawned frame hf] at hid
      cases hid

/-- A stretch that reports nothing needs only to leave refused renewals their execution. -/
theorem stretch_silent {own : Option OwnerId} {s : Stretch} {t : TaskId} (h : Vigilant p)
    (hadv : Advances p p' own t s) (hs : Silent p.gateway s)
    (hstays : ∀ id, own = some id → (∃ task ∈ p.tasks, task.refusedRenewal = some id) →
      s.gateway.registration id ≠ none) : Vigilant p' := by
  refine h.stretch hadv ?_ (fun id hid => ?_) hs.spawned hstays
  · rw [hs.violations]
    exact h.reported
  · rw [hs.next] at hid
    cases hid

/-- The end of a renewal, or its next tier: a refused one finds its execution active. -/
theorem finishRenewal {w : World} {t : TaskId} {r : Renewal} {answer : Answer} {s : Stretch}
    (h : Vigilant p) (ht : p.tasks[t]? = some (.suspended (.renewing r) (some answer)))
    (hs : (Frame.renewing r).resume cfg w p.gateway answer = some s)
    (hadv : Advances p p' none t s) : Vigilant p' := by
  have hactive : r.Refused (some answer) → p.gateway.registration r.owner ≠ none :=
    fun hr => h.refused t _ _ ht (if_pos hr)
  obtain ⟨progress, hprogress, rfl⟩ := Option.map_eq_some_iff.mp hs
  cases progress with
  | more r' =>
      obtain ⟨howner, hfailure⟩ := Renewal.resume_eq_more hprogress
      refine h.stretch hadv h.reported (fun id hid => ?_) (by simp [Gateway.finishRenewal]) (by simp)
      change (if r'.Refused none then some r'.owner else none) = some id at hid
      split at hid
      · rename_i hrefused
        rw [← Option.some.inj hid, howner]
        exact hactive (hfailure (hrefused.resolve_right (by simp)))
      · cases hid
  | done outcome =>
      cases outcome with
      | ok expiresAt fence =>
          exact h.stretch_silent hadv (silent_quiet violations_renewActive rfl rfl) (by simp)
      | failed reason detail =>
          have hhas : p.gateway.active.has r.owner = true := by
            have hreg := hactive (Renewal.resume_eq_failed hprogress)
            simpa [registration_eq_none_iff] using hreg
          refine h.stretch hadv (fun loss hloss => ?_) (by rintro _ ⟨⟩) (by simp [Gateway.finishRenewal]) (by simp)
          obtain rfl | hloss := List.mem_cons.mp (violations_loseOwnership ▸ hloss)
          · exact hhas
          · exact h.reported loss hloss
  | rejected => exact h.stretch_silent hadv (silent_quiet rfl rfl rfl) (by simp)

theorem step (h : Vigilant p) (hprecede : RefusalsPrecedeExits cfg p a)
    (hstep : p.step cfg a = some p') : Vigilant p' := by
  have hreg : Registered p' := h.toRegistered.step hstep
  obtain ⟨w, operation, rfl, hadv⟩ | ⟨t, frame, answer, leases, rfl, ht, -, rfl⟩ |
    ⟨w, t, frame, answer, s, rfl, ht, hs, hadv⟩ | ⟨tier, owner, rfl, rfl⟩ :=
      h.toRegistered.step_cases hstep
  · refine h.stretch_silent hadv begin_silent fun id hid => ?_
    -- an execution that is only just minted has no renewal
    rintro ⟨task, htask, hrefused⟩
    obtain ⟨u, hu⟩ := List.mem_iff_getElem?.mp htask
    have hfresh : p.gateway.seq < id.seq := by
      have := (h.begin_minted cfg w hid).1
      omega
    exact absurd (h.unminted id hfresh).registration (h.refused u task id hu hrefused)
  · refine ⟨hreg, h.reported, fun u task id hu hid => ?_⟩
    obtain ⟨rfl, rfl⟩ | ⟨-, hu⟩ := Process.tasks_setTask hu
    · cases frame with
      | renewing r =>
          change (if r.Refused (some answer) then some r.owner else none) = some id at hid
          split at hid
          · rename_i hrefused
            rw [← Option.some.inj hid]
            obtain hfailure | ⟨given, hgiven, hrefuses⟩ := hrefused
            · exact h.refused u _ _ ht (if_pos (.inl hfailure))
            · obtain rfl : answer = given := Option.mem_some_iff.mp hgiven
              have hhas : p.gateway.active.has r.owner = true := by
                simp only [RefusalsPrecedeExits, ht] at hprecede
                exact hprecede hrefuses
              show p.gateway.registration r.owner ≠ none
              simp [registration_eq_none_iff, hhas]
          · cases hid
      | _ => cases hid
    · exact h.refused u task id hu hid
  · by_cases hframe : ∃ r, frame = .renewing r
    · obtain ⟨r, rfl⟩ := hframe
      exact h.finishRenewal ht hs hadv
    · have hquiet : ∀ r, frame ≠ .renewing r := fun r hr => hframe ⟨r, hr⟩
      refine h.stretch_silent hadv (Frame.resume_silent hquiet hs) fun id hid => ?_
      rintro ⟨task, htask, hrefused⟩
      obtain ⟨u, hu⟩ := List.mem_iff_getElem?.mp htask
      simp only [RefusalsPrecedeExits, ht] at hprecede
      refine Frame.resume_stays (h.agrees t _ ht) hid ?_ (h.refused u task id hu hrefused) hs
      cases hconcludes : frame.concludes cfg w answer with
      | none => rfl
      | some id' =>
          -- a method concludes its own execution
          have hown : some id' = frame.execution := Frame.concludes_own hconcludes
          obtain rfl : id' = id := Option.some.inj (hown.trans hid)
          exact absurd hrefused (hprecede id' hconcludes task htask)
  · exact ⟨hreg, h.reported, h.refused⟩

end Vigilant

/-- Throughout every run in which renewals are refused only before their executions
leave, the heartbeat reports a loss only of an execution that is still active. -/
theorem reports_active_only (cfg : BoxConfig) (labels : List Label)
    (h : Machine.Heeds (Process.step cfg) (RefusalsPrecedeExits cfg) {} labels) :
    Machine.Throughout (Process.step cfg) ReportsActiveOnly {} labels :=
  (Machine.Throughout.of_heeds (fun _ _ _ hi hc hstep => Vigilant.step hi hc hstep)
    Vigilant.initial h).mono fun _ => Vigilant.reported

section Released

/-- An entry up to the execution of its legs, as task 0, and a tick that renews it as
task 2. -/
def tickedRun : List Label :=
  [.start {} (.entry true sampleCandidate), .answer 0 (.acquired 100 1 .durable), .resume {} 0,
    .answer 0 .turn, .resume {} 0, .start {} .renewTick]

/-- The entry settles cleanly and releases its lease in both tiers before the renewal
reaches them. -/
def overtakenRun : List Label :=
  tickedRun ++ [.answer 0 (.executed { ok := true }), .resume {} 0, .answer 0 .turn, .resume {} 0,
    .answer 0 .released, .resume {} 0, .answer 0 .released, .answer 2 (.notRenewed .lost ""),
    .resume {} 2, .answer 2 (.notRenewed .lost ""), .resume {} 2]

/-- The execution that had already settled is reported. -/
theorem overtakenRun_reports :
    ¬Machine.Throughout (Process.step {}) ReportsActiveOnly {} overtakenRun := by
  intro h
  obtain ⟨p, hrun⟩ : ∃ p, Machine.run (Process.step {}) {} overtakenRun = some p :=
    Option.isSome_iff_exists.mp (by decide)
  have hend : (Machine.run (Process.step {}) {} overtakenRun).all fun p =>
      p.gateway.violations = [⟨⟨"entry", 1⟩, .lost, false⟩] := by decide
  simp only [hrun, Option.all_some, decide_eq_true_eq] at hend
  have := h.last hrun ⟨⟨"entry", 1⟩, .lost, false⟩ (by simp [hend])
  cases this

/-- The lease lapses in the durable tier while the entry runs, and is reported before
the entry settles. -/
def lapsedRun : List Label :=
  tickedRun ++ [.answer 2 (.renewed 200 1), .resume {} 2, .lapse .durable ⟨"entry", 1⟩,
    .answer 2 (.notRenewed .lost ""), .resume {} 2, .answer 0 (.executed { ok := true }),
    .resume {} 0, .answer 0 .turn, .resume {} 0, .answer 0 .released, .resume {} 0]

theorem reports_active_only_lapsedRun :
    Machine.Throughout (Process.step {}) ReportsActiveOnly {} lapsedRun :=
  reports_active_only {} lapsedRun (by decide)

end Released

end Strikedge.Coordinator
