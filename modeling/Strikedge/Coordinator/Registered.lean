import Strikedge.Coordinator.Executions

/-!
# What the methods in flight expect of `active`

An execution is in `active` from its claim (an entry) or its grant (an exit) until its
method concludes it. `Registered` says so of every task of a process, and that an
execution belongs to one task. The rule is proved of each stretch first and of the
steps and runs of a process from that.
-/

namespace Strikedge.Coordinator

open Reservations (InstrumentKey ReservationContext ReservationDurability)

/-- The execution a method works for. -/
def Frame.execution : Frame → Option OwnerId
  | .consuming e | .holding e _ | .held e _ | .acquiring e _ | .acquiringLocal e _
  | .waiting e _ | .retrying e _ | .verifying e _ _ | .permitted e _ _ _ | .discarding e _ _
  | .executing e | .reholding e _ _ | .reheld e _ | .droppingPipeline e _ _
  | .holdSettled e _ => some e.executionId
  | .exitAcquiring x | .exitAcquiringLocal x | .exitExecuting x => some x.executionId
  | .settling executionId _ _ _ => some executionId
  | .claiming _ | .dropping _ | .renewing _ | .tickActive _ _ | .tickHolds _ _ _ _
  | .tickClaims _ _ _ => none

def Outcome.execution : Outcome → Option OwnerId
  | .refused id _ | .coordinationThrew id | .returned id _ | .threw id | .deferred id => some id
  | .claimed _ | .dropped | .renewed | .ticked | .rejected => none

/-- What `active` says of the execution while its method is suspended here. -/
def Frame.registration : Frame → Option (String × Option String)
  | .acquiring e _ | .acquiringLocal e _ | .waiting e _ | .retrying e _ | .verifying e _ _
  | .permitted e _ _ _ | .executing e | .reholding e _ _ | .reheld e _
  | .droppingPipeline e _ _ | .holdSettled e _ =>
      some (e.candidate.underlying, some e.opportunityId)
  | .exitExecuting x => some (x.position.underlying, none)
  | _ => none

/-- An underlying is acquired under an identity of its own kind, for the pipeline itself
inside `coordinateEntry` and for a trade or a residual everywhere else. -/
def Frame.Sound : Frame → Prop
  | .holding e h => h.owner.kind = "underlying" ∧ h.holder = .pipeline e.executionId
  | .reholding _ _ h | .claiming h => h.owner.kind = "underlying" ∧ ∀ id, h.holder ≠ .pipeline id
  | _ => True

def Outcome.Concluded (g : Gateway) : Outcome → Prop
  -- an exception that escapes `coordinateEntry` may leave the claim behind
  | .coordinationThrew id => ∃ expected, g.Stands id expected
  | outcome => ∀ id, outcome.execution = some id → g.Stands id none

def Next.execution : Next → Option OwnerId
  | .await frame => frame.execution
  | .finish outcome => outcome.execution

def Frame.Agrees (g : Gateway) (frame : Frame) : Prop :=
  frame.Sound ∧ ∀ id, frame.execution = some id → g.Stands id frame.registration

def Next.Agrees (g : Gateway) : Next → Prop
  | .await frame => frame.Agrees g
  | .finish outcome => outcome.Concluded g

/-- Wherever its method goes on or ends, an execution stands somewhere. -/
theorem Next.Agrees.stands {g : Gateway} {next : Next} {id : OwnerId} (h : next.Agrees g)
    (hid : next.execution = some id) : ∃ expected, g.Stands id expected := by
  cases next with
  | await frame => exact ⟨_, h.2 id hid⟩
  | finish outcome =>
      cases outcome with
      | coordinationThrew id' =>
          cases hid
          exact h
      | _ => exact ⟨none, h id hid⟩

/-- A stretch of the method of `own`: it spares the other executions, stays with its own,
leaves `active` as its continuation expects it, and what it spawns owns no execution. -/
structure Stretch.Follows (own : Option OwnerId) (g : Gateway) (s : Stretch) : Prop where
  spares : Gateway.Spares own g s.gateway
  execution : s.next.execution = own
  agrees : s.next.Agrees s.gateway
  spawned : ∀ f ∈ s.spawned, f.execution = none ∧ f.Sound

theorem Stretch.Follows.after {own : Option OwnerId} {g g' : Gateway} {s : Stretch}
    (hspares : Gateway.Spares own g g') (h : s.Follows own g') : s.Follows own g :=
  ⟨hspares.trans h.spares, h.execution, h.agrees, h.spawned⟩

namespace Gateway

variable {cfg : BoxConfig} {w : World} {g : Gateway} {e : Entry} {a : Attempt} {x : Exit}
variable {lease : ReservationLease} {reason : BoxExecutionFailureReason} {detail : String}
variable {result : ExecutionResult} {s : Stretch} {answer : Answer}

theorem droppingFrame_spawned {release : Option (ReleaseCall × List ReleaseCall)} :
    ∀ f ∈ droppingFrame release, f.execution = none ∧ f.Sound := by
  cases release with
  | none => simp [droppingFrame]
  | some r => simp [droppingFrame, Frame.execution, Frame.Sound]

private theorem none_spawned : ∀ f ∈ ([] : List Frame), f.execution = none ∧ f.Sound := by
  simp

/-- Going on to a frame that expects what the current frame expects. -/
theorem follows_await {own : Option OwnerId} {frame : Frame} {events : List DependenceEvent}
    (hexec : frame.execution = own) (hagrees : frame.Agrees g) :
    Stretch.Follows own g { gateway := g, next := .await frame, events := events } :=
  ⟨.refl own g, hexec, hagrees, none_spawned⟩

/-- What an execution's own frames and outcomes expect, said of that execution. -/
theorem agrees_own {frame : Frame} {id : OwnerId} (hsound : frame.Sound)
    (hexec : frame.execution = some id) (h : g.Stands id frame.registration) : frame.Agrees g :=
  ⟨hsound, fun _ hj => Option.some.inj (hexec.symm.trans hj) ▸ h⟩

theorem stands_own {id : OwnerId} (h : g.Stands id none) :
    ∀ j, some id = some j → g.Stands j none :=
  fun _ hj => Option.some.inj hj ▸ h

theorem follows_refuse (h : g.Stands e.executionId none) :
    (g.refuse e reason detail).Follows (some e.executionId) g :=
  ⟨.refl _ g, rfl, stands_own h, none_spawned⟩

theorem follows_escape {expected : Option (String × Option String)}
    (h : g.Stands e.executionId expected) : (g.escape e).Follows (some e.executionId) g :=
  ⟨.refl _ g, rfl, ⟨expected, h⟩, none_spawned⟩

theorem follows_abandonAndRefuse {expected : Option (String × Option String)}
    (h : g.Stands e.executionId expected) :
    (g.abandonAndRefuse cfg w e reason detail).Follows (some e.executionId) g :=
  ⟨.abandonAndReleaseHold, rfl, stands_own h.abandonAndReleaseHold, droppingFrame_spawned⟩

theorem follows_abandonAndThrow {expected : Option (String × Option String)}
    (h : g.Stands e.executionId expected) :
    (g.abandonAndThrow cfg w e).Follows (some e.executionId) g :=
  ⟨.abandonAndReleaseHold, rfl, ⟨none, h.abandonAndReleaseHold⟩, droppingFrame_spawned⟩

theorem follows_discard {expected : Option (String × Option String)}
    (h : g.Stands e.executionId expected) :
    (g.discard cfg w e lease reason detail).Follows (some e.executionId) g :=
  ⟨.abandonAndReleaseHold, rfl, agrees_own trivial rfl h.abandonAndReleaseHold,
    droppingFrame_spawned⟩

/-- The per-underlying budget has room. -/
def WithinBudget (cfg : BoxConfig) (g : Gateway) (e : Entry) : Prop :=
  0 < cfg.maxConcurrentPerUnderlying →
    g.sameUnderlying e.candidate.underlying < cfg.maxConcurrentPerUnderlying

instance : Decidable (g.WithinBudget cfg e) := inferInstanceAs (Decidable (_ → _))

theorem afterHold_within (h : g.WithinBudget cfg e) : g.afterHold cfg w e =
    { gateway := g.claim e.executionId e.opportunityId e.candidate.underlying
        (contractKeys w.broker e.candidate.legs) e.context
      next := .await (.acquiring e
        { keys := contractKeys w.broker e.candidate.legs, waitStarted := w.now }) } :=
  if_neg fun hfull => absurd (h hfull.1) (Nat.not_lt.mpr hfull.2)

theorem afterHold_over (h : ¬g.WithinBudget cfg e) : g.afterHold cfg w e =
    g.refuse e .duplicate (s!"per-underlying execution budget reached " ++
      s!"({g.sameUnderlying e.candidate.underlying}/{cfg.maxConcurrentPerUnderlying})") := by
  unfold WithinBudget at h
  refine if_pos ?_
  omega

theorem follows_afterHold (h : g.Stands e.executionId none) :
    (g.afterHold cfg w e).Follows (some e.executionId) g := by
  by_cases hroom : g.WithinBudget cfg e
  · rw [afterHold_within hroom]
    exact ⟨.claim, rfl, agrees_own trivial rfl h.claim, none_spawned⟩
  · rw [afterHold_over hroom]
    exact follows_refuse h

/-- The three ways `holdUnderlying` goes before it yields: refused, joined, acquiring. -/
theorem holdUnderlying_cases {underlying : String} {holder : Holder} {exclusive : Bool}
    {g' : Gateway} {next : HoldStep}
    (h : g.holdUnderlying cfg w underlying holder exclusive = (g', next)) :
    (g' = g ∧ next = .decided false) ∨
      (exclusive = false ∧ cfg.oneActiveBoxPerUnderlying = true ∧
        g.positionClaims.has (w.positionClaimKey underlying) = true ∧
        g' = g.addHolder (w.positionClaimKey underlying) holder ∧ next = .decided true) ∨
      (cfg.oneActiveBoxPerUnderlying = true ∧
        g.positionClaims.has (w.positionClaimKey underlying) = false ∧
        g' = (g.mintId "underlying").2 ∧
        next = .acquiring (newHold cfg w underlying holder (g.mintId "underlying").1)) := by
  unfold holdUnderlying at h
  split at h
  · rename_i hone
    dsimp only at h
    split at h
    · rename_i hhas
      split at h
      · exact .inl ⟨(congrArg Prod.fst h).symm, (congrArg Prod.snd h).symm⟩
      · rename_i hex
        exact .inr (.inl ⟨by simpa using hex, hone, hhas, (congrArg Prod.fst h).symm,
          (congrArg Prod.snd h).symm⟩)
    · rename_i hhas
      exact .inr (.inr ⟨hone, by simpa using hhas, (congrArg Prod.fst h).symm,
        (congrArg Prod.snd h).symm⟩)
  · exact .inl ⟨(congrArg Prod.fst h).symm, (congrArg Prod.snd h).symm⟩

/-- Before it yields `holdUnderlying` writes its holder and no registration. -/
theorem spares_holdUnderlying {own : Option OwnerId} {underlying : String} {holder : Holder}
    {exclusive : Bool} {g' : Gateway} {next : HoldStep}
    (h : g.holdUnderlying cfg w underlying holder exclusive = (g', next))
    (hown : ∀ j, own ≠ some j → holder ≠ .pipeline j) :
    Spares own g g' ∧ (∀ j expected, g.Stands j expected → g'.Stands j expected) ∧
      ∀ hold, next = .acquiring hold → hold.owner.kind = "underlying" ∧ hold.holder = holder := by
  obtain ⟨rfl, rfl⟩ | ⟨-, -, -, rfl, rfl⟩ | ⟨-, -, rfl, rfl⟩ := holdUnderlying_cases h
  · exact ⟨.refl own g', fun _ _ h => h, nofun⟩
  · exact ⟨.addHolder hown, fun _ _ h => h.addHolder, nofun⟩
  · refine ⟨.mintId, fun _ _ h => h.of_same rfl rfl, fun hold heq => ?_⟩
    rw [← HoldStep.acquiring.inj heq]
    exact ⟨rfl, rfl⟩

theorem pipeline_own {id : OwnerId} :
    ∀ j, some id ≠ some j → Holder.pipeline id ≠ .pipeline j :=
  fun _ hj hp => hj (by rw [Holder.pipeline.inj hp])

theorem follows_afterAttempt (h : g.Stands e.executionId none) :
    (g.afterAttempt cfg w e).Follows (some e.executionId) g := by
  unfold afterAttempt
  split
  · dsimp only
    split
    · exact follows_refuse h
    · split
      · rename_i g' held heq
        obtain ⟨hspares, hstands, -⟩ := spares_holdUnderlying heq pipeline_own
        exact ⟨hspares, rfl, agrees_own trivial rfl (hstands _ _ h), none_spawned⟩
      · rename_i g' hold heq
        obtain ⟨hspares, hstands, hholder⟩ := spares_holdUnderlying heq pipeline_own
        exact ⟨hspares, rfl, agrees_own (hholder hold rfl) rfl (hstands _ _ h), none_spawned⟩
  · exact follows_afterHold h

theorem follows_prologue (h : g.Stands e.executionId none) :
    (g.prologue cfg w e).Follows (some e.executionId) g := by
  unfold prologue
  split
  · exact follows_refuse h
  · split
    · exact follows_refuse h
    · split
      · exact follows_refuse h
      · split
        · exact follows_await rfl (agrees_own trivial rfl h)
        · exact follows_afterAttempt h

/-- `coordinateEntry` from its start, for the execution it mints. -/
theorem follows_coordinateEntry {legging : Bool} {candidate : BoxCandidate}
    (h : g.Stands (g.mintId "entry").1 none) :
    (g.coordinateEntry cfg w legging candidate).Follows (some (g.mintId "entry").1) g :=
  have hmint : (g.mintId "entry").2.Stands (g.mintId "entry").1 none := h.of_same rfl rfl
  .after .mintId
    (follows_prologue (e := newEntry cfg w (g.mintId "entry").1 legging candidate) hmint)

/-- The expectation inside `coordinateEntry` once the claim is made. -/
def Claimed (g : Gateway) (e : Entry) : Prop :=
  g.Stands e.executionId (some (e.candidate.underlying, some e.opportunityId))

/-- Going on to a frame that expects the claim. -/
theorem follows_claimed {frame : Frame} {events : List DependenceEvent}
    (hexec : frame.execution = some e.executionId) (hsound : frame.Sound)
    (hreg : frame.registration = some (e.candidate.underlying, some e.opportunityId))
    (h : g.Claimed e) :
    Stretch.Follows (some e.executionId) g
      { gateway := g, next := .await frame, events := events } :=
  follows_await hexec (agrees_own hsound hexec (hreg ▸ h))

theorem follows_confirmBeforeSubmit (h : g.Claimed e) :
    (g.confirmBeforeSubmit w e a lease).Follows (some e.executionId) g := by
  unfold confirmBeforeSubmit
  dsimp only
  split
  · exact follows_claimed rfl trivial rfl h
  · split
    · exact follows_claimed rfl trivial rfl h
    · exact follows_claimed rfl trivial rfl h

theorem follows_afterGranted (h : g.Claimed e) :
    (g.afterGranted cfg w e a lease).Follows (some e.executionId) g := by
  unfold afterGranted
  split
  · exact follows_discard h
  · exact follows_confirmBeforeSubmit h

theorem follows_waitForKeys (h : g.Claimed e) :
    (g.waitForKeys cfg w e a).Follows (some e.executionId) g := by
  unfold waitForKeys
  split
  · exact follows_claimed rfl trivial rfl h
  · exact follows_abandonAndRefuse h

theorem follows_handleUnavailable {tier : String} (h : g.Claimed e) :
    (g.handleUnavailable cfg w e a tier detail).Follows (some e.executionId) g := by
  unfold handleUnavailable
  split
  · exact follows_abandonAndRefuse h
  · split
    · exact follows_claimed rfl trivial rfl h
    · exact follows_abandonAndRefuse h

theorem follows_resumeAcquire {threw : Stretch} (h : g.Claimed e)
    (hthrew : threw.Follows (some e.executionId) g)
    (hs : g.resumeAcquire cfg w e a threw answer = some s) :
    s.Follows (some e.executionId) g := by
  unfold resumeAcquire at hs
  split at hs <;> cases hs
  · exact follows_afterGranted h
  · exact follows_waitForKeys h
  · exact follows_handleUnavailable h
  · exact hthrew

theorem follows_resumeLocal (h : g.Claimed e)
    (hs : g.resumeLocal cfg w e a answer = some s) : s.Follows (some e.executionId) g := by
  unfold resumeLocal at hs
  split at hs <;> cases hs
  · exact follows_afterGranted h
  · split
    · exact follows_abandonAndRefuse h
    · exact follows_waitForKeys h
  · split
    · exact follows_abandonAndRefuse h
    · exact follows_abandonAndRefuse h
  · exact follows_escape h

theorem follows_resumeConsuming (h : g.Stands e.executionId none)
    (hs : g.resumeConsuming cfg w e answer = some s) : s.Follows (some e.executionId) g := by
  unfold resumeConsuming at hs
  split at hs <;> cases hs
  · exact follows_afterAttempt h
  · exact follows_refuse h
  · exact follows_escape h

theorem follows_resumeVerifying (h : g.Claimed e)
    (hs : g.resumeVerifying e a lease answer = some s) : s.Follows (some e.executionId) g := by
  unfold resumeVerifying at hs
  split at hs <;> cases hs
  · exact follows_claimed rfl trivial rfl h
  · exact follows_claimed rfl trivial rfl h
  · exact follows_escape h

theorem follows_resumePermitted {refusal : Option (String × String)} (h : g.Claimed e) :
    (g.resumePermitted cfg w e a lease refusal).Follows (some e.executionId) g := by
  unfold resumePermitted
  split
  · exact ⟨.grant, rfl, agrees_own trivial rfl h.grant, none_spawned⟩
  · exact follows_discard h

/-- `holdUnderlying` after its `await` records its own claim, or nothing. -/
theorem spares_finishHold {own : Option OwnerId} {h : Hold} {g' : Gateway} {held : Bool}
    (hown : ∀ j, own ≠ some j → h.holder ≠ .pipeline j)
    (hs : g.finishHold w h answer = some (g', held)) :
    Spares own g g' ∧ ∀ j expected, g.Stands j expected → g'.Stands j expected := by
  unfold finishHold at hs
  split at hs
  · cases hs
    refine ⟨.recordClaim fun j hj => ?_, fun _ _ h => h.of_same rfl rfl⟩
    simpa [Hold.claim, Finset.mem_singleton, eq_comm] using hown j hj
  · cases hs
    exact ⟨.refl own _, fun _ _ h => h⟩
  · cases hs
    exact ⟨.refl own _, fun _ _ h => h⟩
  · cases hs
    exact ⟨.refl own _, fun _ _ h => h⟩
  · cases hs

variable {expected : Option (String × Option String)} {id : OwnerId}

theorem follows_settle {opportunityId : Option String} {uncertainty : Uncertainty}
    (h : g.Stands id expected) :
    (g.settle cfg w id opportunityId result uncertainty).Follows (some id) g := by
  unfold settle
  dsimp only
  split
  · exact ⟨.conclude, rfl, agrees_own trivial rfl h.conclude, none_spawned⟩
  · exact ⟨Spares.conclude.trans .retain, rfl, stands_own h.conclude.retain, none_spawned⟩

theorem follows_settlementThrew {opportunityId : Option String} (h : g.Stands id expected) :
    (g.settlementThrew w id opportunityId).Follows (some id) g :=
  ⟨.holdOnUncertainty, rfl, stands_own h.holdOnUncertainty, none_spawned⟩

theorem follows_entryThrew (h : g.Stands e.executionId expected) :
    (g.entryThrew w e).Follows (some e.executionId) g :=
  ⟨.holdOnUncertainty, rfl, stands_own h.holdOnUncertainty, none_spawned⟩

/-- A stretch with other events follows all the same. -/
theorem follows_events {own : Option OwnerId} {events : List DependenceEvent}
    (h : s.Follows own g) : Stretch.Follows own g { s with events } :=
  ⟨h.spares, h.execution, h.agrees, h.spawned⟩

theorem follows_dropPipeline (h : g.Claimed e) :
    (g.dropPipeline cfg w e result).Follows (some e.executionId) g := by
  have hreg : (g.dropUnderlyingHolder cfg w e.candidate.underlying
      (.pipeline e.executionId)).1.Claimed e := h.dropUnderlyingHolder
  unfold dropPipeline
  split
  rename_i g' release heq
  have hspares : Spares (some e.executionId) g g' := by
    have hdrop : Spares (some e.executionId) g (g.dropUnderlyingHolder cfg w
        e.candidate.underlying (.pipeline e.executionId)).1 := .dropUnderlyingHolder
    rwa [heq] at hdrop
  rw [heq] at hreg
  split
  · exact .after hspares (follows_claimed rfl trivial rfl hreg)
  · exact .after hspares (follows_claimed rfl trivial rfl hreg)

theorem follows_settleUnderlyingHold (h : g.Claimed e) :
    (g.settleUnderlyingHold cfg w e result).Follows (some e.executionId) g := by
  have hnot : ∀ tradeId j, some e.executionId ≠ some j → Holder.trade tradeId ≠ .pipeline j :=
    fun _ _ _ => nofun
  unfold settleUnderlyingHold
  split
  · split
    · rename_i tradeId _
      dsimp only
      split
      · exact follows_events (.after (.addHolder (hnot tradeId))
          (follows_dropPipeline h.addHolder))
      · split
        · rename_i g' held heq
          obtain ⟨hspares, hstands, -⟩ := spares_holdUnderlying heq (hnot tradeId)
          exact .after hspares (follows_claimed rfl trivial rfl (hstands _ _ h))
        · rename_i g' hold heq
          obtain ⟨hspares, hstands, hholder⟩ := spares_holdUnderlying heq (hnot tradeId)
          obtain ⟨hkind, hholder⟩ := hholder hold rfl
          refine .after hspares (follows_claimed rfl ⟨hkind, fun id => ?_⟩ rfl (hstands _ _ h))
          rw [hholder]
          exact nofun
    · split
      · exact follows_claimed rfl trivial rfl h
      · exact follows_dropPipeline h
  · exact follows_claimed rfl trivial rfl h

theorem follows_coordinateExit {legging : Bool} {position : BoxPosition}
    (h : g.Stands (g.mintId "exit").1 none) :
    (g.coordinateExit w legging position).Follows (some (g.mintId "exit").1) g :=
  have hmint : (g.mintId "exit").2.Stands (g.mintId "exit").1 none := h.of_same rfl rfl
  have hspares : Spares (some (g.mintId "exit").1) g (g.mintId "exit").2 := .mintId
  ⟨hspares, rfl, agrees_own trivial rfl hmint, none_spawned⟩

theorem follows_exitGranted {expiresAt : Int} {fence : Nat} {durability : ReservationDurability}
    (h : g.Stands x.executionId none) :
    (g.exitGranted cfg w x expiresAt fence durability).Follows (some x.executionId) g :=
  ⟨.registerActive, rfl, agrees_own trivial rfl h.registerActive, none_spawned⟩

theorem follows_claimUnderlying {underlying : String} {holder : Holder}
    (hnot : ∀ j, holder ≠ .pipeline j) :
    (g.claimUnderlying cfg w underlying holder).Follows none g := by
  unfold claimUnderlying
  split
  · rename_i g' held heq
    obtain ⟨hspares, -, -⟩ := spares_holdUnderlying heq fun j _ => hnot j
    exact ⟨hspares, rfl, nofun, none_spawned⟩
  · rename_i g' hold heq
    obtain ⟨hspares, -, hholder⟩ := spares_holdUnderlying heq fun j _ => hnot j
    obtain ⟨hkind, hholder⟩ := hholder hold rfl
    refine ⟨hspares, rfl, ⟨⟨hkind, fun id => ?_⟩, nofun⟩, none_spawned⟩
    rw [hholder]
    exact hnot id

theorem follows_releaseUnderlying {underlying : String} {holder : Holder} :
    (g.releaseUnderlying cfg w underlying holder).Follows none g := by
  have hspares : Spares none g (g.dropUnderlyingHolder cfg w underlying holder).1 :=
    .dropUnderlyingHolder
  unfold releaseUnderlying
  split
  rename_i g' release heq
  rw [heq] at hspares
  cases release with
  | none => exact ⟨hspares, rfl, nofun, none_spawned⟩
  | some r => exact ⟨hspares, rfl, ⟨trivial, nofun⟩, none_spawned⟩

/-- What is left of a tick writes no registration, and owns no execution. -/
structure Ticks (g : Gateway) (r : Gateway × Next) : Prop where
  spares : Spares none g r.1
  execution : r.2.execution = none
  agrees : r.2.Agrees r.1

theorem Ticks.follows {r : Gateway × Next} (h : Ticks g r) : (ofTick r).Follows none g :=
  ⟨h.spares, h.execution, h.agrees, none_spawned⟩

theorem Ticks.after {g' : Gateway} {r : Gateway × Next} (hspares : Spares none g g')
    (h : Ticks g' r) : Ticks g r :=
  ⟨hspares.trans h.spares, h.execution, h.agrees⟩

theorem ticks_tickClaims {claims : List (String × PositionUnderlyingClaim)} :
    Ticks g (g.tickClaims cfg claims) := by
  unfold tickClaims
  split
  · exact ⟨.heartbeat false, rfl, nofun⟩
  · exact ⟨.refl none g, rfl, ⟨trivial, nofun⟩⟩

theorem ticks_tickHolds {now : Int} {holds : List (OwnerId × UncertainHold)} :
    Ticks g (g.tickHolds cfg now holds) := by
  induction holds generalizing g with
  | nil => exact ticks_tickClaims
  | cons hold holds ih =>
      rw [tickHolds]
      split
      · exact .after (.holds _) ih
      · exact ⟨.refl none g, rfl, ⟨trivial, nofun⟩⟩

theorem follows_renewTick {base : TaskId} : (g.renewTick cfg w base).Follows none g := by
  unfold renewTick
  split
  · exact ⟨.refl none g, rfl, nofun, none_spawned⟩
  · refine ⟨.heartbeat true, rfl, ⟨trivial, nofun⟩, fun f hf => ?_⟩
    obtain ⟨r, -, rfl⟩ := List.mem_map.mp hf
    exact ⟨rfl, trivial⟩

theorem follows_finishRenewal {id : OwnerId} {progress : Renewal.Progress} :
    (g.finishRenewal id progress).Follows none g := by
  unfold finishRenewal
  split
  · exact follows_await rfl ⟨trivial, nofun⟩
  · exact ⟨.renewActive, rfl, nofun, none_spawned⟩
  · exact ⟨.loseOwnership, rfl, nofun, none_spawned⟩
  · exact ⟨.refl none g, rfl, nofun, none_spawned⟩

theorem follows_tickRejected : g.tickRejected.Follows none g :=
  ⟨.heartbeat false, rfl, nofun, none_spawned⟩

theorem follows_finishHoldRenewal {now : Int} {id : OwnerId}
    {rest : List (OwnerId × UncertainHold)} {progress : Renewal.Progress} :
    (g.finishHoldRenewal cfg now id rest progress).Follows none g := by
  unfold finishHoldRenewal
  split
  · exact follows_await rfl ⟨trivial, nofun⟩
  · exact (ticks_tickHolds.after .renewHold).follows
  · split
    · exact ticks_tickHolds.follows
    · exact (ticks_tickHolds.after (.holds _)).follows
  · exact follows_tickRejected

theorem follows_finishClaimRenewal {claimKey : String} {owner : OwnerId}
    {rest : List (String × PositionUnderlyingClaim)} {progress : Renewal.Progress} :
    (g.finishClaimRenewal cfg claimKey owner rest progress).Follows none g := by
  unfold finishClaimRenewal
  split
  · exact follows_await rfl ⟨trivial, nofun⟩
  · exact (ticks_tickClaims.after .renewClaim).follows
  · exact follows_tickRejected

theorem follows_resumeRelease {own : Option OwnerId} {more : Releasing → Frame}
    {done rejected : Stretch} {progress : Releasing.Progress}
    (hexec : ∀ r, (more r).execution = own) (hagrees : ∀ r, (more r).Agrees g)
    (hdone : done.Follows own g) (hrejected : rejected.Follows own g) :
    (g.resumeRelease more done rejected progress).Follows own g := by
  unfold resumeRelease
  split
  · exact follows_await (hexec _) (hagrees _)
  · exact hdone
  · exact hrejected

theorem follows_finish {own : Option OwnerId} {outcome : Outcome} (hexec : outcome.execution = own)
    (h : outcome.Concluded g) : Stretch.Follows own g { gateway := g, next := .finish outcome } :=
  ⟨.refl own g, hexec, h, none_spawned⟩

end Gateway

open Gateway

/-- The answer to a hold's acquisition, for a hold that is not the pipeline's own. -/
theorem Gateway.follows_resumeHold {w : World} {g : Gateway} {own : Option OwnerId} {h : Hold}
    {answer : Answer} {s : Stretch} (next : Bool → Next)
    (hown : ∀ j, own ≠ some j → h.holder ≠ .pipeline j)
    (hexec : ∀ held, (next held).execution = own)
    (hagrees : ∀ held g', (∀ j expected, g.Stands j expected → g'.Stands j expected) →
      (next held).Agrees g')
    (hs : ((g.finishHold w h answer).map fun (g, held) =>
      ({ gateway := g, next := next held, events := holdEvents h held } : Stretch)) = some s) :
    s.Follows own g := by
  obtain ⟨⟨g', held⟩, hfin, rfl⟩ := Option.map_eq_some_iff.mp hs
  obtain ⟨hspares, hstands⟩ := spares_finishHold hown hfin
  exact ⟨hspares, hexec held, hagrees held g' hstands, by simp⟩

/-- Every method follows its frame: what its continuation does, it does to its own
execution, and leaves `active` as its next frame expects. -/
theorem Frame.resume_follows {cfg : BoxConfig} {w : World} {g : Gateway} {frame : Frame}
    {answer : Answer} {s : Stretch} (h : frame.Agrees g)
    (hs : frame.resume cfg w g answer = some s) : s.Follows frame.execution g := by
  obtain ⟨hsound, hagrees⟩ := h
  cases frame with
  | consuming e => exact follows_resumeConsuming (hagrees _ rfl) hs
  | holding e hold =>
      refine follows_resumeHold (fun held => .await (.held e held)) ?_ (fun _ => rfl) ?_ hs
      · rw [show hold.holder = .pipeline e.executionId from hsound.2]
        exact pipeline_own
      · intro held g' hstands
        exact agrees_own trivial rfl (hstands _ _ (hagrees _ rfl))
  | held e held =>
      cases held <;> cases answer <;> cases hs
      · exact follows_abandonAndRefuse (hagrees _ rfl)
      · exact follows_afterHold (hagrees _ rfl)
  | acquiring e a =>
      exact follows_resumeAcquire (hagrees _ rfl) (follows_abandonAndThrow (hagrees _ rfl)) hs
  | acquiringLocal e a => exact follows_resumeLocal (hagrees _ rfl) hs
  | waiting e a =>
      cases answer <;> cases hs
      exact follows_claimed rfl trivial rfl (hagrees _ rfl)
  | retrying e a => exact follows_resumeAcquire (hagrees _ rfl) (follows_escape (hagrees _ rfl)) hs
  | verifying e a lease => exact follows_resumeVerifying (hagrees _ rfl) hs
  | permitted e a lease refusal =>
      cases answer <;> cases hs
      exact follows_resumePermitted (hagrees _ rfl)
  | discarding e refusal r =>
      obtain ⟨progress, -, rfl⟩ := Option.map_eq_some_iff.mp hs
      refine follows_resumeRelease (fun _ => rfl) (fun _ => ⟨trivial, hagrees⟩)
        (follows_finish rfl hagrees) (follows_escape (hagrees _ rfl))
  | executing e =>
      cases answer <;> cases hs
      · exact follows_settleUnderlyingHold (hagrees _ rfl)
      · exact follows_entryThrew (hagrees _ rfl)
  | reholding e result hold =>
      refine follows_resumeHold (fun _ => .await (.reheld e result)) (fun j _ => hsound.2 j)
        (fun _ => rfl) ?_ hs
      intro held g' hstands
      exact agrees_own trivial rfl (hstands _ _ (hagrees _ rfl))
  | reheld e result =>
      cases answer <;> cases hs
      exact follows_dropPipeline (hagrees _ rfl)
  | droppingPipeline e result r =>
      obtain ⟨progress, -, rfl⟩ := Option.map_eq_some_iff.mp hs
      exact follows_resumeRelease (fun _ => rfl) (fun _ => ⟨trivial, hagrees⟩)
        (follows_settle (hagrees _ rfl)) (follows_entryThrew (hagrees _ rfl))
  | holdSettled e result =>
      cases answer <;> cases hs
      exact follows_events (follows_settle (hagrees _ rfl))
  | exitAcquiring x =>
      cases answer <;> cases hs
      · exact follows_exitGranted (hagrees _ rfl)
      · exact follows_finish rfl hagrees
      · split
        · exact follows_await rfl ⟨trivial, hagrees⟩
        · exact follows_finish rfl hagrees
      · exact follows_finish rfl hagrees
  | exitAcquiringLocal x =>
      cases answer <;> cases hs
      · exact follows_exitGranted (hagrees _ rfl)
      · exact follows_finish rfl hagrees
      · exact follows_finish rfl hagrees
      · exact follows_finish rfl hagrees
  | exitExecuting x =>
      cases answer <;> cases hs
      · exact follows_settle (hagrees _ rfl)
      · exact follows_settlementThrew (hagrees _ rfl)
  | settling id opportunityId result r =>
      obtain ⟨progress, -, rfl⟩ := Option.map_eq_some_iff.mp hs
      exact follows_resumeRelease (fun _ => rfl) (fun _ => ⟨trivial, hagrees⟩)
        (follows_finish rfl hagrees) (follows_settlementThrew (hagrees _ rfl))
  | claiming hold =>
      exact follows_resumeHold (fun held => .finish (.claimed held)) (fun j _ => hsound.2 j)
        (fun _ => rfl) (fun _ _ _ => nofun) hs
  | dropping r =>
      obtain ⟨progress, -, rfl⟩ := Option.map_eq_some_iff.mp hs
      exact follows_resumeRelease (fun _ => rfl) (fun _ => ⟨trivial, nofun⟩)
        (follows_finish rfl nofun) (follows_finish rfl nofun)
  | renewing r =>
      obtain ⟨progress, -, rfl⟩ := Option.map_eq_some_iff.mp hs
      exact follows_finishRenewal
  | tickActive now children =>
      cases answer <;> cases hs
      exact ticks_tickHolds.follows
  | tickHolds now id r rest =>
      obtain ⟨progress, -, rfl⟩ := Option.map_eq_some_iff.mp hs
      exact follows_finishHoldRenewal
  | tickClaims claimKey r rest =>
      obtain ⟨progress, -, rfl⟩ := Option.map_eq_some_iff.mp hs
      exact follows_finishClaimRenewal

def Task.execution : Task → Option OwnerId
  | .suspended frame _ => frame.execution
  | .done outcome => outcome.execution

def Task.Agrees (g : Gateway) : Task → Prop
  | .suspended frame _ => frame.Agrees g
  | .done outcome => outcome.Concluded g

@[simp] theorem Next.execution_task {next : Next} : next.task.execution = next.execution := by
  cases next <;> rfl

@[simp] theorem Next.agrees_task {next : Next} {g : Gateway} :
    next.task.Agrees g ↔ next.Agrees g := by
  cases next <;> rfl

/-- A stretch of another execution's method keeps what a task expects. -/
theorem Task.Agrees.spared {own : Option OwnerId} {g g' : Gateway} {task : Task}
    (h : task.Agrees g) (hspares : Gateway.Spares own g g')
    (hown : ∀ id, task.execution = some id → own ≠ some id) : task.Agrees g' := by
  cases task with
  | suspended frame answer =>
      exact ⟨h.1, fun id hid => (h.2 id hid).spared hspares (hown id hid)⟩
  | done outcome =>
      have keep : (∀ id, outcome.execution = some id → g.Stands id none) →
          ∀ id, outcome.execution = some id → g'.Stands id none :=
        fun hn id hid => (hn id hid).spared hspares (hown id hid)
      cases outcome with
      | coordinationThrew id =>
          obtain ⟨expected, hs⟩ := h
          exact ⟨expected, hs.spared hspares (hown id rfl)⟩
      | _ => exact keep h

/-- Every task finds in `active` what it expects there, every execution has one task and
is no underlying's identity, and the identities still to be minted are unused. -/
structure Registered (p : Process) : Prop where
  agrees : ∀ (t : TaskId) (task : Task), p.tasks[t]? = some task → task.Agrees p.gateway
  owned : ∀ (t u : TaskId) (task task' : Task) (id : OwnerId), p.tasks[t]? = some task →
    p.tasks[u]? = some task' → task.execution = some id → task'.execution = some id → t = u
  minted : ∀ (t : TaskId) (task : Task) (id : OwnerId), p.tasks[t]? = some task →
    task.execution = some id → id.kind ≠ "underlying" ∧ id.seq ≤ p.gateway.seq
  unminted : ∀ id : OwnerId, p.gateway.seq < id.seq → p.gateway.Stands id none
  /-- no opportunity maps to an execution registered under another one -/
  coherent : ∀ id, ∃ expected, p.gateway.Stands id expected

/-- The execution an operation works for: the one it mints, if it mints one. -/
def Operation.mints (g : Gateway) : Operation → Option OwnerId
  | .entry _ _ => some (g.mintId "entry").1
  | .exit _ _ => some (g.mintId "exit").1
  | _ => none

/-- A stretch taken by a process: it replaces the task `t` of its execution, keeps the
other tasks, and spawns what owns nothing. No other task works for its execution. -/
structure Advances (p p' : Process) (own : Option OwnerId) (t : TaskId) (s : Stretch) :
    Prop where
  follows : s.Follows own p.gateway
  gateway : p'.gateway = s.gateway
  leases : p'.leases = p.leases
  dependents : p'.dependents = s.events.foldl Dependent.record p.dependents
  tasks : ∀ (u : TaskId) (task : Task), p'.tasks[u]? = some task →
    (u = t ∧ task = s.next.task) ∨ (u ≠ t ∧ p.tasks[u]? = some task) ∨
      ∃ frame ∈ s.spawned, task = .suspended frame none
  own : ∀ id, own = some id → (id.kind ≠ "underlying" ∧ id.seq ≤ s.gateway.seq) ∧
    ∀ (u : TaskId) (task : Task), u ≠ t → p.tasks[u]? = some task → task.execution ≠ some id

namespace Registered

variable {cfg : BoxConfig} {p p' : Process} {a : Label} {labels : List Label}

theorem initial : Registered {} where
  agrees t task h := by simp at h
  owned t u task task' id h := by simp at h
  minted t task id h := by simp at h
  unminted id _ := ⟨rfl, nofun⟩
  coherent id := ⟨none, rfl, nofun⟩

/-- An operation follows the execution it mints. -/
theorem begin_follows {w : World} {operation : Operation} (h : Registered p) :
    (p.begin cfg w operation).Follows (operation.mints p.gateway) p.gateway := by
  have hfresh : ∀ kind, p.gateway.Stands (p.gateway.mintId kind).1 none :=
    fun kind => h.unminted _ (Nat.lt_succ_self _)
  cases operation with
  | entry legging candidate => exact Gateway.follows_coordinateEntry (hfresh "entry")
  | exit legging position => exact Gateway.follows_coordinateExit (hfresh "exit")
  | claimUnderlyingForPosition underlying tradeId =>
      exact Gateway.follows_claimUnderlying fun _ => nofun
  | releaseUnderlyingForPosition underlying tradeId => exact Gateway.follows_releaseUnderlying
  | claimUnderlyingForResidual underlying attemptId =>
      exact Gateway.follows_claimUnderlying fun _ => nofun
  | releaseUnderlyingForResidual underlying attemptId => exact Gateway.follows_releaseUnderlying
  | renewTick => exact Gateway.follows_renewTick

theorem begin_minted (cfg : BoxConfig) (w : World) {operation : Operation} (h : Registered p)
    {id : OwnerId} (hid : operation.mints p.gateway = some id) :
    id.seq = p.gateway.seq + 1 ∧ id.kind ≠ "underlying" ∧
      id.seq ≤ (p.begin cfg w operation).gateway.seq := by
  cases operation with
  | entry legging candidate =>
      cases hid
      have hfresh : (p.gateway.mintId "entry").2.Stands (p.gateway.mintId "entry").1 none :=
        (h.unminted _ (Nat.lt_succ_self _)).of_same rfl rfl
      let e := Gateway.newEntry cfg w (p.gateway.mintId "entry").1 legging candidate
      have hfollows : ((p.gateway.mintId "entry").2.prologue cfg w e).Follows (some e.executionId)
          (p.gateway.mintId "entry").2 := Gateway.follows_prologue hfresh
      exact ⟨rfl, by simp [Gateway.mintId], hfollows.spares.seq⟩
  | exit legging position =>
      cases hid
      exact ⟨rfl, by simp [Gateway.mintId], Nat.le_refl _⟩
  | _ => cases hid

/-- The rule for a stretch. -/
theorem stretch {own : Option OwnerId} {s : Stretch} {t : TaskId} (h : Registered p)
    (hadv : Advances p p' own t s) : Registered p' := by
  obtain ⟨hs, hg, -, -, htasks, hown⟩ := hadv
  have hspawned : ∀ frame ∈ s.spawned, (Task.suspended frame none).execution = none :=
    fun frame hf => (hs.spawned frame hf).1
  refine ⟨fun u task hu => ?_, fun u v task task' id hu hv hid hid' => ?_,
    fun u task id hu hid => ?_, fun id hid => ?_, fun id => ?_⟩
  · rw [hg]
    obtain ⟨rfl, rfl⟩ | ⟨hne, hu⟩ | ⟨frame, hf, rfl⟩ := htasks u task hu
    · exact Next.agrees_task.mpr hs.agrees
    · exact (h.agrees u task hu).spared hs.spares
        fun id hid heq => (hown id heq).2 u task hne hu hid
    · refine ⟨(hs.spawned frame hf).2, fun id hid => ?_⟩
      rw [(hs.spawned frame hf).1] at hid
      cases hid
  · -- the stretch's own execution is nobody else's
    have hnext : s.next.task.execution = own := by rw [Next.execution_task, hs.execution]
    obtain ⟨rfl, rfl⟩ | ⟨hu', hu⟩ | ⟨frame, hf, rfl⟩ := htasks u task hu
    · obtain ⟨rfl, rfl⟩ | ⟨hv', hv⟩ | ⟨frame, hf, rfl⟩ := htasks v task' hv
      · rfl
      · exact absurd hid' ((hown id (hnext ▸ hid)).2 v task' hv' hv)
      · rw [hspawned frame hf] at hid'
        cases hid'
    · obtain ⟨rfl, rfl⟩ | ⟨hv', hv⟩ | ⟨frame, hf, rfl⟩ := htasks v task' hv
      · exact absurd hid ((hown id (hnext ▸ hid')).2 u task hu' hu)
      · exact h.owned u v task task' id hu hv hid hid'
      · rw [hspawned frame hf] at hid'
        cases hid'
    · rw [hspawned frame hf] at hid
      cases hid
  · rw [hg]
    obtain ⟨rfl, rfl⟩ | ⟨hne, hu⟩ | ⟨frame, hf, rfl⟩ := htasks u task hu
    · rw [Next.execution_task, hs.execution] at hid
      exact (hown id hid).1
    · obtain ⟨hkind, hseq⟩ := h.minted u task id hu hid
      exact ⟨hkind, Nat.le_trans hseq hs.spares.seq⟩
    · rw [hspawned frame hf] at hid
      cases hid
  · rw [hg] at hid ⊢
    have hne : own ≠ some id := fun heq => absurd (hown id heq).1.2 (Nat.not_le.mpr hid)
    exact (h.unminted id (Nat.lt_of_le_of_lt hs.spares.seq hid)).spared hs.spares hne
  · rw [hg]
    by_cases hid : own = some id
    · exact hs.agrees.stands (hs.execution.trans hid)
    · obtain ⟨expected, hstands⟩ := h.coherent id
      exact ⟨expected, hstands.spared hs.spares hid⟩

/-- The four kinds of step, with what a stretch does to the process. -/
theorem step_cases (h : Registered p) (hstep : p.step cfg a = some p') :
    (∃ w operation, a = .start w operation ∧
      Advances p p' (operation.mints p.gateway) p.tasks.length (p.begin cfg w operation)) ∨
    (∃ t frame answer leases, a = .answer t answer ∧
      p.tasks[t]? = some (.suspended frame none) ∧
      p.serve cfg frame.call answer = some leases ∧
      p' = { p.setTask t (.suspended frame (some answer)) with leases }) ∨
    (∃ w t frame answer s, a = .resume w t ∧
      p.tasks[t]? = some (.suspended frame (some answer)) ∧
      frame.resume cfg w p.gateway answer = some s ∧ Advances p p' frame.execution t s) ∨
    (∃ tier owner, a = .lapse tier owner ∧
      p' = { p with leases := releaseLeases p.leases tier owner none }) := by
  obtain ⟨w, operation, rfl, rfl⟩ | hanswer | ⟨w, t, frame, answer, s, rfl, ht, hs, rfl⟩ |
    hlapse := Process.step_cases hstep
  · refine .inl ⟨w, operation, rfl, h.begin_follows, rfl, rfl, rfl, fun u task hu => ?_,
      fun id hid => ⟨(h.begin_minted cfg w hid).2, fun u task _ hu hexec => ?_⟩⟩
    · obtain hu | ⟨-, hspawned⟩ := Process.tasks_settle hu
      · obtain hu | ⟨rfl, rfl⟩ := Process.tasks_append hu
        · have hlt := (List.getElem?_eq_some_iff.mp hu).1
          exact .inr (.inl ⟨Nat.ne_of_lt hlt, hu⟩)
        · exact .inl ⟨rfl, rfl⟩
      · exact .inr (.inr hspawned)
    · have hseq := (h.begin_minted cfg w hid).1
      have := (h.minted u task id hu hexec).2
      omega
  · exact .inr (.inl hanswer)
  · have hfollows := Frame.resume_follows (h.agrees t _ ht) hs
    refine .inr (.inr (.inl ⟨w, t, frame, answer, s, rfl, ht, hs, hfollows, rfl, rfl, rfl,
      fun u task hu => ?_, fun id hid => ⟨?_, ?_⟩⟩))
    · obtain hu | ⟨-, hspawned⟩ := Process.tasks_settle hu
      · obtain ⟨rfl, rfl⟩ | ⟨hne, hu⟩ := Process.tasks_setTask hu
        · exact .inl ⟨rfl, rfl⟩
        · exact .inr (.inl ⟨hne, hu⟩)
      · exact .inr (.inr hspawned)
    · obtain ⟨hkind, hseq⟩ := h.minted t _ id ht hid
      exact ⟨hkind, Nat.le_trans hseq hfollows.spares.seq⟩
    · intro u task hne hu hexec
      exact hne (h.owned u t task _ id hu ht hexec hid)
  · exact .inr (.inr (.inr hlapse))

theorem step (h : Registered p) (hstep : p.step cfg a = some p') : Registered p' := by
  obtain ⟨w, operation, rfl, hadv⟩ | ⟨t, frame, answer, leases, rfl, ht, -, rfl⟩ |
    ⟨w, t, frame, answer, s, rfl, ht, hs, hadv⟩ | ⟨tier, owner, rfl, rfl⟩ := h.step_cases hstep
  · exact h.stretch hadv
  · -- an answer changes no frame
    have hback : ∀ (u : TaskId) (task : Task),
        ((p.setTask t (.suspended frame (some answer))).tasks)[u]? = some task →
          ∃ task', p.tasks[u]? = some task' ∧ task.execution = task'.execution ∧
            (task'.Agrees p.gateway → task.Agrees p.gateway) := by
      intro u task hu
      obtain ⟨rfl, rfl⟩ | ⟨-, hu⟩ := Process.tasks_setTask hu
      · exact ⟨_, ht, rfl, fun hk => hk⟩
      · exact ⟨task, hu, rfl, fun hk => hk⟩
    refine ⟨fun u task hu => ?_, fun u v task task' id hu hv hid hid' => ?_,
      fun u task id hu hid => ?_, h.unminted, h.coherent⟩
    · obtain ⟨task', hu', -, hkeep⟩ := hback u task hu
      exact hkeep (h.agrees u task' hu')
    · obtain ⟨task₁, hu', heq, -⟩ := hback u task hu
      obtain ⟨task₂, hv', heq', -⟩ := hback v task' hv
      exact h.owned u v task₁ task₂ id hu' hv' (heq ▸ hid) (heq' ▸ hid')
    · obtain ⟨task', hu', heq, -⟩ := hback u task hu
      exact h.minted u task' id hu' (heq ▸ hid)
  · exact h.stretch hadv
  · exact ⟨h.agrees, h.owned, h.minted, h.unminted, h.coherent⟩

end Registered

end Strikedge.Coordinator
