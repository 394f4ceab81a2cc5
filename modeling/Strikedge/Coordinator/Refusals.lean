import Strikedge.Coordinator.Registered

/-!
# Refused entries

An entry that `coordinateEntry` refuses, or that throws out of it, may have taken its
place in `active`, its opportunity, the pipeline hold of its underlying and a contract
lease. `Clean` says at every `await` of the call which of them it may own there, and
so what an exit still has to give back. Three exits do not give back what they hold;
the rest return it all, provided the hold is released under the broker it was taken
under and the releases reach their tiers.
-/

namespace Strikedge.Coordinator

open Reservations (InstrumentKey ReservationDurability)

namespace LeaseTable

variable {t : LeaseTable} {owner id : OwnerId} {keys : List InstrumentKey} {key : InstrumentKey}

theorem get?_grant : (t.grant owner keys).get? key =
    if key ∈ keys then some owner else t.get? key := by
  unfold grant
  induction keys generalizing t with
  | nil => simp
  | cons k ks ih =>
      rw [List.foldl_cons, ih, OrderedMap.get?_set]
      by_cases hks : key ∈ ks
      · simp [hks]
      · by_cases hk : key = k <;> simp [hk, hks]

/-- What a release leaves was there before and was not its to release. -/
theorem get?_release {ks : Option (List InstrumentKey)} :
    (t.release owner ks).get? key = some id ↔
      t.get? key = some id ∧ ¬(id = owner ∧ ∀ covered ∈ ks, key ∈ covered) := by
  rw [release, OrderedMap.get?_filter, Option.filter_eq_some_iff]
  cases ks with
  | none => simp
  | some ks =>
      simp
      tauto

end LeaseTable

/-- The owner holds nothing in any tier. -/
def LeaseFree (leases : TierName → LeaseTable) (id : OwnerId) : Prop :=
  ∀ tier key, (leases tier).get? key ≠ some id

/-- The owner holds at most these keys, in tiers an acquisition writes. -/
def LeasedIn (cfg : BoxConfig) (leases : TierName → LeaseTable) (id : OwnerId)
    (keys : List InstrumentKey) : Prop :=
  ∀ tier key, (leases tier).get? key = some id →
    key ∈ keys ∧ (tier = .durable → cfg.chained = true)

/-- Every lease the owner holds will be released by one of the calls. -/
def Covers (calls : List ReleaseCall) (leases : TierName → LeaseTable) (id : OwnerId) : Prop :=
  ∀ tier key, (leases tier).get? key = some id →
    ∃ call ∈ calls, call.tier = tier ∧ call.owner = id ∧ ∀ covered ∈ call.keys, key ∈ covered

/-- Only the last call of a release may throw past the chain. -/
def BareLast : List ReleaseCall → Prop
  | [] => True
  | call :: rest => (call.swallows = false → rest = []) ∧ BareLast rest

section Leases

variable {cfg : BoxConfig} {p : Process} {leases leases' : TierName → LeaseTable}
variable {id : OwnerId} {keys : List InstrumentKey} {call : Call} {answer : Answer}

theorem LeaseFree.leasedIn (h : LeaseFree leases id) : LeasedIn cfg leases id keys :=
  fun tier key hk => absurd hk (h tier key)

theorem covers_nil : Covers [] leases id ↔ LeaseFree leases id := by
  unfold Covers LeaseFree
  constructor
  · intro h tier key hk
    obtain ⟨call, hmem, -⟩ := h tier key hk
    cases hmem
  · exact fun h tier key hk => absurd hk (h tier key)

/-- Releasing a lease covers all of it. -/
theorem covers_releaseLease {lease : ReservationLease} (h : LeasedIn cfg leases id lease.keys) :
    Covers ((releaseLease cfg id (some lease)).1 :: (releaseLease cfg id (some lease)).2)
      leases id := by
  intro tier key hk
  obtain ⟨hmem, hdurable⟩ := h tier key hk
  unfold releaseLease
  split
  · cases tier with
    | durable => exact ⟨_, List.mem_cons_self, rfl, rfl, by simpa using hmem⟩
    | inProcess =>
        refine ⟨_, List.mem_cons_of_mem _ List.mem_cons_self, rfl, rfl, by simpa using hmem⟩
  · rename_i hbare
    cases tier with
    | durable => exact absurd (hdurable rfl) hbare
    | inProcess => exact ⟨_, List.mem_cons_self, rfl, rfl, by simpa using hmem⟩

theorem bareLast_releaseLease {lease : Option ReservationLease} :
    BareLast ((releaseLease cfg id lease).1 :: (releaseLease cfg id lease).2) := by
  unfold releaseLease
  split
  · dsimp only
    split <;> simp [BareLast]
  · simp [BareLast]

/-- The owner under which a call acquires. -/
def Call.acquirer : Call → Option OwnerId
  | .acquire _ owner _ => some owner
  | _ => none

/-- Whether an answer grants what it was asked for. -/
def Answer.grants : Answer → Bool
  | .acquired _ _ _ => true
  | _ => false

/-- An answer adds leases only under the acquirer's name. -/
theorem serve_spares (h : p.serve cfg call answer = some leases') (hid : call.acquirer ≠ some id)
    {tier : TierName} {key : InstrumentKey} (hk : (leases' tier).get? key = some id) :
    (p.leases tier).get? key = some id := by
  unfold Process.serve at h
  split at h
  case h_4 viaLocal owner ks expiresAt fence durability =>
      split at h <;> cases h
      unfold grantLeases at hk
      split at hk
      · rw [LeaseTable.get?_grant] at hk
        split at hk
        · exact absurd hk hid
        · exact hk
      · exact hk
  case h_11 call' =>
      cases h
      unfold releaseLeases at hk
      split at hk
      · exact (LeaseTable.get?_release.mp hk).1
      · exact hk
  all_goals first
    | (cases h; exact hk)
    | (split at h <;> cases h; exact hk)
    | cases h

end Leases

namespace Gateway

/-- No underlying claim is held by the execution's pipeline. -/
def NoPipeline (g : Gateway) (id : OwnerId) : Prop := ∀ claimKey, ¬g.PipelineAt id claimKey

/-- The claim keys under which the execution's pipeline is recorded. -/
def pipelineKeys (g : Gateway) (id : OwnerId) : List String :=
  (g.positionClaims.entries.filter fun entry => .pipeline id ∈ entry.2.holders).map Prod.fst

variable {g g' : Gateway} {id : OwnerId} {cfg : BoxConfig} {w : World} {claimKey : String}

theorem mem_pipelineKeys : claimKey ∈ g.pipelineKeys id ↔ g.PipelineAt id claimKey := by
  unfold pipelineKeys PipelineAt holdersOf
  simp only [List.mem_map, List.mem_filter, decide_eq_true_eq, Prod.exists, exists_and_right,
    exists_eq_right, OrderedMap.mem_entries_iff, Option.map_eq_some_iff]
  constructor
  · rintro ⟨claim, hclaim, hmem⟩
    exact ⟨claim.holders, ⟨claim, hclaim, rfl⟩, hmem⟩
  · rintro ⟨_, ⟨claim, hclaim, rfl⟩, hmem⟩
    exact ⟨claim, hclaim, hmem⟩

theorem noPipeline_iff : g.NoPipeline id ↔ g.pipelineKeys id = [] := by
  rw [List.eq_nil_iff_forall_not_mem]
  exact forall_congr' fun _ => not_congr mem_pipelineKeys.symm

theorem NoPipeline.spared {own : Option OwnerId} (h : g.NoPipeline id) (hs : Spares own g g')
    (hown : own ≠ some id) : g'.NoPipeline id :=
  fun claimKey hk => h claimKey (hs.pipelines id hown claimKey hk)

/-- Abandoning an execution takes its pipeline off whatever its release reaches. -/
theorem pipelineAt_abandonAndReleaseHold :
    (g.abandonAndReleaseHold cfg w id).1.PipelineAt id claimKey ↔
      (g.releasePipelineHold cfg w id
        ((g.active.get? id).map (·.underlying))).1.PipelineAt id claimKey := by
  obtain ⟨active, opportunities, he⟩ := abandon_eq
    (g.releasePipelineHold cfg w id ((g.active.get? id).map (·.underlying))).1 id
  simp only [Gateway.abandonAndReleaseHold, he]
  exact Iff.rfl

theorem NoPipeline.abandonAndReleaseHold (h : g.NoPipeline id) :
    (g.abandonAndReleaseHold cfg w id).1.NoPipeline id := by
  intro claimKey hk
  have hs : Spares none g (g.releasePipelineHold cfg w id
    ((g.active.get? id).map (·.underlying))).1 := .releasePipelineHold
  exact h claimKey (hs.pipelines id (by simp) claimKey (pipelineAt_abandonAndReleaseHold.mp hk))

/-- The claim under which a pipeline is recorded is the one its abandonment drops it from. -/
def ReachesHold (cfg : BoxConfig) (w : World) (underlying claimKey : String) : Prop :=
  cfg.oneActiveBoxPerUnderlying = true ∧ underlying ≠ "" ∧
    claimKey = w.positionClaimKey underlying

instance {underlying claimKey : String} : Decidable (ReachesHold cfg w underlying claimKey) :=
  inferInstanceAs (Decidable (_ ∧ _))

/-- Abandoning a claimed execution takes its pipeline off the claim it reaches. -/
theorem noPipeline_abandonAndReleaseHold {underlying : String} {opportunityId : Option String}
    (hreg : g.registration id = some (underlying, opportunityId))
    (hreach : ∀ claimKey, g.PipelineAt id claimKey → ReachesHold cfg w underlying claimKey) :
    (g.abandonAndReleaseHold cfg w id).1.NoPipeline id := by
  have hunder : (g.active.get? id).map (·.underlying) = some underlying := by
    obtain ⟨exec, hexec, heq⟩ := Option.map_eq_some_iff.mp hreg
    rw [hexec]
    exact congrArg some (congrArg Prod.fst heq)
  intro claimKey hk
  rw [pipelineAt_abandonAndReleaseHold, hunder] at hk
  simp only [releasePipelineHold] at hk
  split at hk
  · obtain ⟨hbefore, hother⟩ := pipelineAt_dropUnderlyingHolder hk
    exact hother (hreach claimKey hbefore).2.2 rfl
  · rename_i hclosed
    exact hclosed ⟨(hreach claimKey hk).1, (hreach claimKey hk).2.1⟩

end Gateway

open Gateway

def Frame.Clean (cfg : BoxConfig) (g : Gateway) (leases : TierName → LeaseTable) :
    Frame → Option Answer → Prop
  | .consuming e, _ | .holding e _, _ =>
      g.NoPipeline e.executionId ∧ LeaseFree leases e.executionId
  | .held e holds, _ =>
      (holds = false → g.NoPipeline e.executionId) ∧ LeaseFree leases e.executionId
  | .waiting e _, _ => LeaseFree leases e.executionId
  | .acquiring e a, answer | .acquiringLocal e a, answer | .retrying e a, answer =>
      LeasedIn cfg leases e.executionId a.keys ∧
        ((∀ granted ∈ answer, granted.grants = false) → LeaseFree leases e.executionId)
  | .verifying e a lease, _ | .permitted e a lease _, _ =>
      lease.keys = a.keys ∧ LeasedIn cfg leases e.executionId a.keys
  | .discarding e _ r, answer =>
      g.NoPipeline e.executionId ∧ BareLast (r.call :: r.rest) ∧
        Covers (if answer.isSome then r.rest else r.call :: r.rest) leases e.executionId
  | _, _ => True

/-- Nothing is left of an execution: not in `active`, nor as an opportunity, nor as a
holder of an underlying, nor in a tier. -/
structure NothingLeft (g : Gateway) (leases : TierName → LeaseTable) (id : OwnerId) : Prop where
  inactive : g.active.has id = false
  unmapped : ∀ o, g.activeOpportunities.get? o ≠ some id
  noPipeline : ∀ claimKey claim, g.positionClaims.get? claimKey = some claim →
    .pipeline id ∉ claim.holders
  leaseFree : LeaseFree leases id

def Outcome.Clean (g : Gateway) (leases : TierName → LeaseTable) : Outcome → Prop
  | .refused id _ | .coordinationThrew id => NothingLeft g leases id
  | _ => True

def Next.Clean (cfg : BoxConfig) (g : Gateway) (leases : TierName → LeaseTable) : Next → Prop
  | .await frame => frame.Clean cfg g leases none
  | .finish outcome => outcome.Clean g leases

section Exits

variable {cfg : BoxConfig} {w : World} {g : Gateway} {leases : TierName → LeaseTable}
variable {e : Entry} {a : Attempt} {lease : ReservationLease} {answer : Answer} {s : Stretch}
variable {reason : BoxExecutionFailureReason} {detail : String}

theorem nothingLeft_of {id : OwnerId} (hs : g.Stands id none) (hp : g.NoPipeline id)
    (hl : LeaseFree leases id) : NothingLeft g leases id where
  inactive := registration_eq_none_iff.mp hs.registration
  unmapped := hs.unmapped
  noPipeline claimKey claim hclaim hmem :=
    hp claimKey ⟨claim.holders, by simp [holdersOf, hclaim], hmem⟩
  leaseFree := hl

/-- The exits after the claim that abandon it: a throw of the first acquisition, an
expired wait, an unavailable authority with no fallback, a stale opportunity, and a
failed confirmation. -/
def Frame.abandons (cfg : BoxConfig) (w : World) : Frame → Answer → Option Entry
  | .acquiring e _, .threw _ => some e
  | .acquiring e a, .conflict _ | .retrying e a, .conflict _ =>
      if w.now < a.waitStarted + cfg.conflictWaitMaxMs then none else some e
  | .acquiring e _, .unavailable _ _ | .retrying e _, .unavailable _ _ =>
      if cfg.live then some e else if cfg.withLocal then none else some e
  | .acquiringLocal e a, .conflict _ =>
      if a.waited then some e
      else if w.now < a.waitStarted + cfg.conflictWaitMaxMs then none else some e
  | .acquiringLocal e _, .unavailable _ _ => some e
  | .acquiring e a, .acquired _ _ _ | .retrying e a, .acquired _ _ _
  | .acquiringLocal e a, .acquired _ _ _ =>
      if a.waited ∧ w.revalidation.isSome then some e else none
  | .permitted e _ _ (some _), .turn => some e
  | _, _ => none

/-- The exits that give nothing back: the per-underlying budget, and an exception at any
acquisition but the first or at the verification. -/
def Frame.forgets (cfg : BoxConfig) (g : Gateway) : Frame → Answer → Option Entry
  | .held e true, .turn => if g.WithinBudget cfg e then none else some e
  | .acquiringLocal e _, .threw _ | .retrying e _, .threw _ | .verifying e _ _, .threw _ => some e
  | _, _ => none

/-- An exit drops the hold it has where it is recorded, and one that forgets has none. -/
def Frame.GivesBack (cfg : BoxConfig) (w : World) (g : Gateway) (frame : Frame)
    (answer : Answer) : Prop :=
  (∀ e ∈ frame.abandons cfg w answer, ∀ claimKey ∈ g.pipelineKeys e.executionId,
    ReachesHold cfg w e.candidate.underlying claimKey) ∧
  ∀ e ∈ frame.forgets cfg g answer, g.active.has e.executionId = false ∧
    g.pipelineKeys e.executionId = []

theorem clean_abandonAndRefuse (hc : g.Claimed e) (hl : LeaseFree leases e.executionId)
    (hreach : ∀ claimKey ∈ g.pipelineKeys e.executionId,
      ReachesHold cfg w e.candidate.underlying claimKey) :
    (g.abandonAndRefuse cfg w e reason detail).next.Clean cfg
      (g.abandonAndRefuse cfg w e reason detail).gateway leases :=
  nothingLeft_of (Stands.abandonAndReleaseHold hc)
    (noPipeline_abandonAndReleaseHold hc.registration fun claimKey hk =>
      hreach claimKey (mem_pipelineKeys.mpr hk)) hl

theorem clean_discard (hc : g.Claimed e) (hl : LeasedIn cfg leases e.executionId lease.keys)
    (hreach : ∀ claimKey ∈ g.pipelineKeys e.executionId,
      ReachesHold cfg w e.candidate.underlying claimKey) :
    (g.discard cfg w e lease reason detail).next.Clean cfg
      (g.discard cfg w e lease reason detail).gateway leases :=
  ⟨noPipeline_abandonAndReleaseHold hc.registration fun claimKey hk =>
      hreach claimKey (mem_pipelineKeys.mpr hk),
    bareLast_releaseLease, covers_releaseLease hl⟩

theorem clean_afterGranted (hc : g.Claimed e) (hkeys : lease.keys = a.keys)
    (hl : LeasedIn cfg leases e.executionId a.keys)
    (hreach : a.waited = true ∧ w.revalidation.isSome = true →
      ∀ claimKey ∈ g.pipelineKeys e.executionId,
        ReachesHold cfg w e.candidate.underlying claimKey) :
    (g.afterGranted cfg w e a lease).next.Clean cfg
      (g.afterGranted cfg w e a lease).gateway leases := by
  unfold afterGranted
  split
  · rename_i why hwaited hrevalidated
    exact clean_discard hc (hkeys ▸ hl) (hreach ⟨hwaited, by rw [hrevalidated]; rfl⟩)
  · unfold confirmBeforeSubmit
    dsimp only
    split
    · exact ⟨hkeys, hl⟩
    · split
      · exact ⟨hkeys, hl⟩
      · exact ⟨hkeys, hl⟩

theorem clean_waitForKeys (hc : g.Claimed e) (hl : LeaseFree leases e.executionId)
    (hreach : ¬w.now < a.waitStarted + cfg.conflictWaitMaxMs →
      ∀ claimKey ∈ g.pipelineKeys e.executionId,
        ReachesHold cfg w e.candidate.underlying claimKey) :
    (g.waitForKeys cfg w e a).next.Clean cfg (g.waitForKeys cfg w e a).gateway leases := by
  unfold waitForKeys
  split
  · exact hl
  · rename_i hexpired
    exact clean_abandonAndRefuse hc hl (hreach hexpired)

theorem clean_handleUnavailable {tier : String} (hc : g.Claimed e)
    (hl : LeaseFree leases e.executionId)
    (hreach : cfg.live = true ∨ cfg.withLocal = false →
      ∀ claimKey ∈ g.pipelineKeys e.executionId,
        ReachesHold cfg w e.candidate.underlying claimKey) :
    (g.handleUnavailable cfg w e a tier detail).next.Clean cfg
      (g.handleUnavailable cfg w e a tier detail).gateway leases := by
  unfold handleUnavailable
  split
  · rename_i hlive
    exact clean_abandonAndRefuse hc hl (hreach (.inl hlive))
  · split
    · exact ⟨hl.leasedIn, fun _ => hl⟩
    · rename_i hlocal
      exact clean_abandonAndRefuse hc hl (hreach (.inr (by simpa using hlocal)))

theorem clean_afterHold (hs : g.Stands e.executionId none)
    (hl : LeaseFree leases e.executionId)
    (hroom : ¬g.WithinBudget cfg e → g.NoPipeline e.executionId) :
    (g.afterHold cfg w e).next.Clean cfg (g.afterHold cfg w e).gateway leases := by
  by_cases h : g.WithinBudget cfg e
  · rw [afterHold_within h]
    exact ⟨hl.leasedIn, fun _ => hl⟩
  · rw [afterHold_over h]
    exact nothingLeft_of hs (hroom h) hl

theorem clean_afterAttempt (hs : g.Stands e.executionId none) (hp : g.NoPipeline e.executionId)
    (hl : LeaseFree leases e.executionId) :
    (g.afterAttempt cfg w e).next.Clean cfg (g.afterAttempt cfg w e).gateway leases := by
  unfold afterAttempt
  split
  · dsimp only
    split
    · exact nothingLeft_of hs hp hl
    · split
      · rename_i g' held heq
        obtain ⟨rfl, hd⟩ | ⟨hex, -⟩ | ⟨-, -, -, hd⟩ := holdUnderlying_cases heq
        · exact ⟨fun _ => hp, hl⟩
        · cases hex
        · cases hd
      · rename_i g' hold heq
        obtain ⟨-, hd⟩ | ⟨hex, -⟩ | ⟨-, -, rfl, -⟩ := holdUnderlying_cases heq
        · cases hd
        · cases hex
        · exact ⟨hp, hl⟩
  · exact clean_afterHold hs hl fun _ => hp

theorem clean_resumeAcquire {threw : Stretch} (hc : g.Claimed e)
    (hl : LeasedIn cfg leases e.executionId a.keys ∧
      (answer.grants = false → LeaseFree leases e.executionId))
    (hwait : ∀ n, answer = .conflict n → ¬w.now < a.waitStarted + cfg.conflictWaitMaxMs →
      ∀ claimKey ∈ g.pipelineKeys e.executionId,
        ReachesHold cfg w e.candidate.underlying claimKey)
    (hdown : ∀ tier detail, answer = .unavailable tier detail →
      cfg.live = true ∨ cfg.withLocal = false → ∀ claimKey ∈ g.pipelineKeys e.executionId,
        ReachesHold cfg w e.candidate.underlying claimKey)
    (hstale : answer.grants = true → a.waited = true ∧ w.revalidation.isSome = true →
      ∀ claimKey ∈ g.pipelineKeys e.executionId,
        ReachesHold cfg w e.candidate.underlying claimKey)
    (hthrew : ∀ message, answer = .threw message → threw.next.Clean cfg threw.gateway leases)
    (hs : g.resumeAcquire cfg w e a threw answer = some s) :
    s.next.Clean cfg s.gateway leases := by
  unfold resumeAcquire at hs
  split at hs
  · cases hs
    exact clean_afterGranted hc rfl hl.1 (hstale rfl)
  · cases hs
    exact clean_waitForKeys hc (hl.2 rfl) (hwait _ rfl)
  · cases hs
    exact clean_handleUnavailable hc (hl.2 rfl) (hdown _ _ rfl)
  · cases hs
    exact hthrew _ rfl
  · cases hs

theorem clean_dropPipeline {result : ExecutionResult} :
    (g.dropPipeline cfg w e result).next.Clean cfg (g.dropPipeline cfg w e result).gateway
      leases := by
  unfold dropPipeline
  dsimp only
  split <;> trivial

theorem clean_settleUnderlyingHold {result : ExecutionResult} :
    (g.settleUnderlyingHold cfg w e result).next.Clean cfg
      (g.settleUnderlyingHold cfg w e result).gateway leases := by
  unfold settleUnderlyingHold
  split
  · split
    · dsimp only
      split
      · exact clean_dropPipeline
      · split <;> trivial
    · split
      · trivial
      · exact clean_dropPipeline
  · trivial

theorem clean_settle {id : OwnerId} {opportunityId : Option String} {result : ExecutionResult}
    {uncertainty : Uncertainty} :
    (g.settle cfg w id opportunityId result uncertainty).next.Clean cfg
      (g.settle cfg w id opportunityId result uncertainty).gateway leases := by
  cases uncertainty <;> trivial

theorem clean_resumeRelease {more : Releasing → Frame} {done rejected : Stretch}
    {progress : Releasing.Progress} (hmore : ∀ r, (more r).Clean cfg g leases none)
    (hdone : done.next.Clean cfg done.gateway leases)
    (hrejected : rejected.next.Clean cfg rejected.gateway leases) :
    (g.resumeRelease more done rejected progress).next.Clean cfg
      (g.resumeRelease more done rejected progress).gateway leases := by
  cases progress with
  | more r => exact hmore r
  | done => exact hdone
  | rejected => exact hrejected

theorem clean_tickClaims {claims : List (String × PositionUnderlyingClaim)} :
    (g.tickClaims cfg claims).2.Clean cfg (g.tickClaims cfg claims).1 leases := by
  unfold tickClaims
  split <;> trivial

theorem clean_tickHolds {now : Int} {holds : List (OwnerId × UncertainHold)} :
    (g.tickHolds cfg now holds).2.Clean cfg (g.tickHolds cfg now holds).1 leases := by
  induction holds generalizing g with
  | nil => exact clean_tickClaims
  | cons hold holds ih =>
      rw [tickHolds]
      split
      · exact ih
      · trivial

/-- The release of a refused entry's lease, continued: what is covered stays covered. -/
theorem clean_discarding {refusal : Refusal} {r : Releasing} {progress : Releasing.Progress}
    (hs : g.Stands e.executionId none) (hp : g.NoPipeline e.executionId)
    (hb : BareLast (r.call :: r.rest)) (hl : Covers r.rest leases e.executionId)
    (hprogress : r.resume answer = some progress) :
    (g.resumeRelease (.discarding e refusal)
      { gateway := g, next := .finish (.refused e.executionId refusal) } (g.escape e)
      progress).next.Clean cfg g leases := by
  have hnext : Releasing.next r.rest = progress →
      (g.resumeRelease (.discarding e refusal)
        { gateway := g, next := .finish (.refused e.executionId refusal) } (g.escape e)
        progress).next.Clean cfg g leases := by
    intro heq
    subst heq
    cases hrest : r.rest with
    | nil =>
        rw [hrest] at hl
        exact nothingLeft_of hs hp (covers_nil.mp hl)
    | cons call rest =>
        rw [hrest] at hl hb
        exact ⟨hp, hb.2, hl⟩
  unfold Releasing.resume at hprogress
  split at hprogress
  · exact hnext (Option.some.inj hprogress)
  · exact hnext (Option.some.inj hprogress)
  · split at hprogress
    · exact hnext (Option.some.inj hprogress)
    · -- an exception past the chain comes from the last call only
      rename_i hbare
      cases hprogress
      rw [hb.1 (by simpa using hbare)] at hl
      exact nothingLeft_of hs hp (covers_nil.mp hl)
  · cases hprogress

theorem Frame.resume_clean {frame : Frame} (h : frame.Agrees g)
    (hclean : frame.Clean cfg g leases (some answer)) (hgive : frame.GivesBack cfg w g answer)
    (hs : frame.resume cfg w g answer = some s) : s.next.Clean cfg s.gateway leases := by
  obtain ⟨-, hagrees⟩ := h
  obtain ⟨hreach, hforget⟩ := hgive
  cases frame with
  | consuming e =>
      obtain ⟨hp, hl⟩ := hclean
      have hstands : g.Stands e.executionId none := hagrees _ rfl
      simp only [resume, resumeConsuming] at hs
      split at hs <;> cases hs
      · exact clean_afterAttempt hstands hp hl
      · exact nothingLeft_of hstands hp hl
      · exact nothingLeft_of hstands hp hl
  | holding e hold =>
      obtain ⟨hp, hl⟩ := hclean
      obtain ⟨⟨g', held⟩, hfin, rfl⟩ := Option.map_eq_some_iff.mp hs
      refine ⟨fun hheld => ?_, hl⟩
      cases answer <;> cases hfin
      · cases hheld
      · exact hp
      · exact hp
      · exact hp
  | held e held =>
      obtain ⟨hp, hl⟩ := hclean
      have hstands : g.Stands e.executionId none := hagrees _ rfl
      cases held <;> cases answer <;> cases hs
      · exact nothingLeft_of hstands.abandonAndReleaseHold
          (NoPipeline.abandonAndReleaseHold (hp rfl)) hl
      · refine clean_afterHold hstands hl fun hfull => ?_
        have := hforget e (by simp [forgets, hfull])
        exact noPipeline_iff.mpr this.2
  | acquiring e a =>
      have hc : g.Claimed e := hagrees _ rfl
      refine clean_resumeAcquire hc ⟨hclean.1, fun hg => hclean.2 (by simpa using hg)⟩
        ?_ ?_ ?_ ?_ hs
      · rintro n rfl hexpired
        exact hreach e (by simp [abandons, hexpired])
      · rintro tier detail rfl (hlive | hlocal)
        · exact hreach e (by simp [abandons, hlive])
        · exact hreach e (by simp [abandons, hlocal])
      · intro hgrants hstale
        cases answer <;> cases hgrants
        exact hreach e (by simp [abandons, hstale])
      · rintro message rfl
        exact nothingLeft_of hc.abandonAndReleaseHold
          (noPipeline_abandonAndReleaseHold hc.registration fun claimKey hk =>
            hreach e (by simp [abandons]) claimKey (mem_pipelineKeys.mpr hk))
          (hclean.2 (by simp [Answer.grants]))
  | acquiringLocal e a =>
      have hc : g.Claimed e := hagrees _ rfl
      have hfree : answer.grants = false → LeaseFree leases e.executionId :=
        fun hg => hclean.2 (by simpa using hg)
      simp only [resume, resumeLocal] at hs
      split at hs
      · cases hs
        refine clean_afterGranted hc rfl hclean.1 fun hstale => ?_
        exact hreach e (by simp [abandons, hstale])
      · cases hs
        split
        · rename_i hwaited
          exact clean_abandonAndRefuse hc (hfree rfl) (hreach e (by simp [abandons, hwaited]))
        · rename_i hwaited
          refine clean_waitForKeys hc (hfree rfl) fun hexpired => ?_
          exact hreach e (by simp [abandons, hwaited, hexpired])
      · cases hs
        split
        · exact clean_abandonAndRefuse hc (hfree rfl) (hreach e (by simp [abandons]))
        · exact clean_abandonAndRefuse hc (hfree rfl) (hreach e (by simp [abandons]))
      · have := hforget e (by simp [forgets])
        have hreg := registration_eq_none_iff.mpr this.1
        cases hc.registration.symm.trans hreg
      · cases hs
  | waiting e a =>
      cases answer <;> cases hs
      exact ⟨LeaseFree.leasedIn hclean, fun _ => hclean⟩
  | retrying e a =>
      have hc : g.Claimed e := hagrees _ rfl
      refine clean_resumeAcquire hc ⟨hclean.1, fun hg => hclean.2 (by simpa using hg)⟩
        ?_ ?_ ?_ ?_ hs
      · rintro n rfl hexpired
        exact hreach e (by simp [abandons, hexpired])
      · rintro tier detail rfl (hlive | hlocal)
        · exact hreach e (by simp [abandons, hlive])
        · exact hreach e (by simp [abandons, hlocal])
      · intro hgrants hstale
        cases answer <;> cases hgrants
        exact hreach e (by simp [abandons, hstale])
      · rintro message rfl
        have := hforget e (by simp [forgets])
        cases hc.registration.symm.trans (registration_eq_none_iff.mpr this.1)
  | verifying e a lease =>
      have hc : g.Claimed e := hagrees _ rfl
      simp only [resume, resumeVerifying] at hs
      split at hs
      · cases hs
        exact hclean
      · cases hs
        exact hclean
      · have := hforget e (by simp [forgets])
        cases hc.registration.symm.trans (registration_eq_none_iff.mpr this.1)
      · cases hs
  | permitted e a lease refusal =>
      have hc : g.Claimed e := hagrees _ rfl
      cases answer <;> cases hs
      cases refusal with
      | none => trivial
      | some refusal =>
          exact clean_discard hc (hclean.1 ▸ hclean.2) (hreach e (by simp [abandons]))
  | discarding e refusal r =>
      obtain ⟨hp, hb, hl⟩ := hclean
      obtain ⟨progress, hprogress, rfl⟩ := Option.map_eq_some_iff.mp hs
      have hgate : (g.resumeRelease (.discarding e refusal)
          { gateway := g, next := .finish (.refused e.executionId refusal) } (g.escape e)
          progress).gateway = g := by
        cases progress <;> rfl
      rw [hgate]
      exact clean_discarding (hagrees _ rfl) hp hb hl hprogress
  | executing e =>
      cases answer <;> cases hs
      · exact clean_settleUnderlyingHold
      · trivial
  | reholding e result hold =>
      obtain ⟨⟨g', held⟩, -, rfl⟩ := Option.map_eq_some_iff.mp hs
      trivial
  | reheld e result =>
      cases answer <;> cases hs
      exact clean_dropPipeline
  | droppingPipeline e result r =>
      obtain ⟨progress, -, rfl⟩ := Option.map_eq_some_iff.mp hs
      exact clean_resumeRelease (fun _ => trivial) clean_settle trivial
  | holdSettled e result =>
      cases answer <;> cases hs
      exact clean_settle
  | exitAcquiring x =>
      cases answer <;> cases hs
      · trivial
      · trivial
      · split <;> trivial
      · trivial
  | exitAcquiringLocal x => cases answer <;> cases hs <;> trivial
  | exitExecuting x =>
      cases answer <;> cases hs
      · exact clean_settle
      · trivial
  | settling id opportunityId result r =>
      obtain ⟨progress, -, rfl⟩ := Option.map_eq_some_iff.mp hs
      exact clean_resumeRelease (fun _ => trivial) trivial trivial
  | claiming hold =>
      obtain ⟨⟨g', held⟩, -, rfl⟩ := Option.map_eq_some_iff.mp hs
      trivial
  | dropping r =>
      obtain ⟨progress, -, rfl⟩ := Option.map_eq_some_iff.mp hs
      exact clean_resumeRelease (fun _ => trivial) trivial trivial
  | renewing r =>
      obtain ⟨progress, -, rfl⟩ := Option.map_eq_some_iff.mp hs
      unfold finishRenewal
      split <;> trivial
  | tickActive now children =>
      cases answer <;> cases hs
      exact clean_tickHolds
  | tickHolds now id r rest =>
      obtain ⟨progress, -, rfl⟩ := Option.map_eq_some_iff.mp hs
      unfold finishHoldRenewal
      split
      · trivial
      · exact clean_tickHolds
      · split
        · exact clean_tickHolds
        · exact clean_tickHolds
      · trivial
  | tickClaims claimKey r rest =>
      obtain ⟨progress, -, rfl⟩ := Option.map_eq_some_iff.mp hs
      unfold finishClaimRenewal
      split
      · trivial
      · exact clean_tickClaims
      · trivial

end Exits

/-- A refused call, or one that threw, has left nothing behind. -/
def NothingLeaked (p : Process) : Prop :=
  ∀ (t : TaskId) (id : OwnerId), (∃ refusal, p.tasks[t]? = some (.done (.refused id refusal))) ∨
    p.tasks[t]? = some (.done (.coordinationThrew id)) → NothingLeft p.gateway p.leases id

/-- Every exit of a refused call gives back what the call holds: its hold is recorded
under the claim its release addresses, an exit that forgets holds nothing, and the
release of its contract lease reaches every tier that has some of it. -/
def GivesBack (cfg : BoxConfig) (p : Process) : Label → Prop
  | .answer t answer =>
      match p.tasks[t]? with
      | some (.suspended (.discarding e _ r) none) =>
          answer = .released ∨ e.executionId ∉ (p.leases r.call.tier).values
      | _ => True
  | .resume w t =>
      match p.tasks[t]? with
      | some (.suspended frame (some answer)) => frame.GivesBack cfg w p.gateway answer
      | _ => True
  | _ => True

instance (cfg : BoxConfig) (w : World) (g : Gateway) (frame : Frame) (answer : Answer) :
    Decidable (frame.GivesBack cfg w g answer) := by
  unfold Frame.GivesBack
  infer_instance

instance (cfg : BoxConfig) (p : Process) : ∀ a, Decidable (GivesBack cfg p a)
  | .answer _ _ => by
      unfold GivesBack
      dsimp only
      split <;> infer_instance
  | .resume w t =>
      Task.decidableAnswered (fun frame answer => frame.GivesBack cfg w p.gateway answer) p.tasks[t]?
  | .start _ _ | .lapse _ _ => .isTrue trivial

def Task.Clean (cfg : BoxConfig) (g : Gateway) (leases : TierName → LeaseTable) : Task → Prop
  | .suspended frame answer => frame.Clean cfg g leases answer
  | .done outcome => outcome.Clean g leases

section Runs

variable {cfg : BoxConfig} {p p' : Process} {a : Label} {labels : List Label}
variable {g g' : Gateway} {leases leases' : TierName → LeaseTable} {task : Task}

@[simp] theorem Next.clean_task {next : Next} :
    next.task.Clean cfg g leases ↔ next.Clean cfg g leases := by
  cases next <;> rfl

theorem LeaseFree.mono {id : OwnerId} (h : LeaseFree leases id)
    (hl : ∀ tier key, (leases' tier).get? key = some id → (leases tier).get? key = some id) :
    LeaseFree leases' id :=
  fun tier key hk => h tier key (hl tier key hk)

/-- A frame that works for no execution owns nothing. -/
theorem Frame.clean_unowned {frame : Frame} {answer : Option Answer}
    (h : frame.execution = none) : frame.Clean cfg g leases answer := by
  cases frame <;> first | exact trivial | cases h

/-- What a task may own shrinks with what its execution has. -/
theorem Task.Clean.mono {own : Option OwnerId} (h : task.Clean cfg g leases)
    (hs : Spares own g g') (hown : ∀ id, task.execution = some id → own ≠ some id)
    (hl : ∀ id, task.execution = some id → ∀ tier key, (leases' tier).get? key = some id →
      (leases tier).get? key = some id) : task.Clean cfg g' leases' := by
  have hleft : ∀ id, task.execution = some id → NothingLeft g leases id →
      NothingLeft g' leases' id := by
    intro id hid hn
    have hstands : g.Stands id none :=
      ⟨registration_eq_none_iff.mpr hn.inactive, fun o ho => absurd ho (hn.unmapped o)⟩
    refine nothingLeft_of (hstands.spared hs (hown id hid)) ?_ (hn.leaseFree.mono (hl id hid))
    have hp : g.NoPipeline id := by
      rintro claimKey ⟨holders, hk, hmem⟩
      obtain ⟨claim, hclaim, rfl⟩ := Option.map_eq_some_iff.mp hk
      exact hn.noPipeline claimKey claim hclaim hmem
    exact hp.spared hs (hown id hid)
  cases task with
  | done outcome =>
      cases outcome with
      | refused id refusal => exact hleft id rfl h
      | coordinationThrew id => exact hleft id rfl h
      | _ => trivial
  | suspended frame answer =>
      cases frame with
      | consuming e | holding e hold =>
          exact ⟨h.1.spared hs (hown _ rfl), h.2.mono (hl _ rfl)⟩
      | held e held =>
          exact ⟨fun hheld => (h.1 hheld).spared hs (hown _ rfl), h.2.mono (hl _ rfl)⟩
      | acquiring e a | acquiringLocal e a | retrying e a =>
          exact ⟨fun tier key hk => h.1 tier key (hl _ rfl tier key hk),
            fun hn => (h.2 hn).mono (hl _ rfl)⟩
      | waiting e a => exact LeaseFree.mono h (hl _ rfl)
      | verifying e a lease | permitted e a lease refusal =>
          exact ⟨h.1, fun tier key hk => h.2 tier key (hl _ rfl tier key hk)⟩
      | discarding e refusal r =>
          exact ⟨h.1.spared hs (hown _ rfl), h.2.1,
            fun tier key hk => h.2.2 tier key (hl _ rfl tier key hk)⟩
      | _ => trivial

/-- A method acquires under its own execution, or under an underlying's identity. -/
theorem Frame.call_acquirer {frame : Frame} {owner : OwnerId} (h : frame.Sound)
    (hc : frame.call.acquirer = some owner) :
    frame.execution = some owner ∨ owner.kind = "underlying" := by
  cases frame with
  | holding e hold | reholding e result hold | claiming hold =>
      cases hc
      exact .inr h.1
  | acquiring e a | retrying e a | acquiringLocal e a =>
      cases hc
      exact .inl rfl
  | exitAcquiring x | exitAcquiringLocal x =>
      cases hc
      exact .inl rfl
  | _ => cases hc

/-- An owner with nothing that acquires keys has these keys afterwards, or nothing. -/
theorem acquire_leasedIn {viaLocal : Bool} {owner : OwnerId} {keys : List InstrumentKey}
    {answer : Answer} (hs : p.serve cfg (.acquire viaLocal owner keys) answer = some leases')
    (hfree : LeaseFree p.leases owner) : LeasedIn cfg leases' owner keys ∧
      ((∀ given ∈ some answer, given.grants = false) → LeaseFree leases' owner) := by
  cases answer <;> simp only [Process.serve, reduceCtorEq] at hs
  case acquired =>
      split at hs <;> cases hs
      refine ⟨fun tier key hk => ?_, fun hn => by simpa [Answer.grants] using hn _ rfl⟩
      unfold grantLeases at hk
      split at hk
      · rename_i hmem
        rw [LeaseTable.get?_grant] at hk
        split at hk
        · rename_i hkey
          refine ⟨hkey, fun htier => ?_⟩
          subst htier
          unfold Process.acquiredTiers at hmem
          split at hmem
          · simp at hmem
          · rename_i hchained
            by_contra hbare
            exact hchained (.inr hbare)
        · exact absurd hk (hfree tier key)
      · exact absurd hk (hfree tier key)
  all_goals
    cases hs
    exact ⟨hfree.leasedIn, fun _ => hfree⟩

/-- A release takes what its call covers, and what is left the other calls cover. -/
theorem release_covers {call : ReleaseCall} {rest : List ReleaseCall} {id : OwnerId}
    {answer : Answer} (h : Covers (call :: rest) p.leases id)
    (hs : p.serve cfg (.release call) answer = some leases')
    (hreach : answer = .released ∨ id ∉ (p.leases call.tier).values) :
    Covers rest leases' id := by
  have hspares : ∀ tier key, (leases' tier).get? key = some id →
      (p.leases tier).get? key = some id :=
    fun _ _ hk => serve_spares hs (by simp [Call.acquirer]) hk
  intro tier key hk
  obtain ⟨covering, hmem, htier, howner, hkeys⟩ := h tier key (hspares tier key hk)
  obtain rfl | hmem := List.mem_cons.mp hmem
  · exfalso
    obtain rfl | hnone := hreach
    · cases hs
      subst htier
      rw [releaseLeases, if_pos rfl, LeaseTable.get?_release] at hk
      exact hk.2 ⟨howner.symm, hkeys⟩
    · subst htier
      exact hnone (OrderedMap.mem_values_iff.mpr ⟨key, hspares _ key hk⟩)
  · exact ⟨covering, hmem, htier, howner, hkeys⟩

/-- The entry's own part of an answer. -/
theorem Frame.answer_clean {frame : Frame} {answer : Answer} (hsound : frame.Sound)
    (hkind : ∀ id, frame.execution = some id → id.kind ≠ "underlying")
    (h : frame.Clean cfg p.gateway p.leases none)
    (hs : p.serve cfg frame.call answer = some leases')
    (hreach : ∀ e refusal r, frame = .discarding e refusal r →
      answer = .released ∨ e.executionId ∉ (p.leases r.call.tier).values) :
    frame.Clean cfg p.gateway leases' (some answer) := by
  have quiet : ∀ id, frame.call.acquirer ≠ some id → ∀ tier key,
      (leases' tier).get? key = some id → (p.leases tier).get? key = some id :=
    fun _ hne _ _ hk => serve_spares hs hne hk
  cases frame with
  | consuming e => exact ⟨h.1, h.2.mono (quiet _ nofun)⟩
  | holding e hold =>
      refine ⟨h.1, h.2.mono (quiet _ fun heq => hkind e.executionId rfl ?_)⟩
      rw [← Option.some.inj heq]
      exact hsound.1
  | held e held => exact ⟨h.1, h.2.mono (quiet _ nofun)⟩
  | acquiring e a | acquiringLocal e a | retrying e a =>
      exact acquire_leasedIn hs (h.2 nofun)
  | waiting e a => exact LeaseFree.mono h (quiet _ nofun)
  | verifying e a lease | permitted e a lease refusal =>
      exact ⟨h.1, fun tier key hk => h.2 tier key (quiet _ nofun tier key hk)⟩
  | discarding e refusal r =>
      exact ⟨h.1, h.2.1, release_covers h.2.2 hs (hreach e refusal r rfl)⟩
  | _ => trivial

/-- The invariant: every task owns at most what its `await` allows, and identities still
to be minted own nothing. -/
structure Tidy (cfg : BoxConfig) (p : Process) : Prop extends Registered p where
  clean : ∀ (t : TaskId) (task : Task), p.tasks[t]? = some task →
    task.Clean cfg p.gateway p.leases
  unowned : ∀ id : OwnerId, p.gateway.seq < id.seq → id.kind ≠ "underlying" →
    p.gateway.NoPipeline id ∧ LeaseFree p.leases id

namespace Tidy

theorem initial : Tidy cfg {} where
  toRegistered := .initial
  clean t task h := by simp at h
  unowned id _ _ := ⟨fun claimKey ⟨holders, hk, _⟩ => (by cases hk), fun _ _ => nofun⟩

theorem nothingLeaked (h : Tidy cfg p) : NothingLeaked p := by
  rintro t id (⟨refusal, ht⟩ | ht)
  · exact h.clean t _ ht
  · exact h.clean t _ ht

/-- An operation begins with an execution that owns nothing. -/
theorem begin_clean {w : World} {operation : Operation} (h : Tidy cfg p) :
    (p.begin cfg w operation).next.Clean cfg (p.begin cfg w operation).gateway p.leases := by
  cases operation with
  | entry legging candidate =>
      have hnew : p.gateway.seq < (p.gateway.mintId "entry").1.seq := Nat.lt_succ_self _
      obtain ⟨hp, hl⟩ := h.unowned _ hnew (by simp [Gateway.mintId])
      have hstands : (p.gateway.mintId "entry").2.Stands (p.gateway.mintId "entry").1 none :=
        (h.unminted _ hnew).of_same rfl rfl
      have hp' : (p.gateway.mintId "entry").2.NoPipeline (p.gateway.mintId "entry").1 := hp
      simp only [Process.begin, coordinateEntry, prologue]
      split
      · exact nothingLeft_of hstands hp' hl
      · split
        · exact nothingLeft_of hstands hp' hl
        · split
          · exact nothingLeft_of hstands hp' hl
          · split
            · exact ⟨hp', hl⟩
            · exact clean_afterAttempt hstands hp' hl
  | exit legging position => trivial
  | claimUnderlyingForPosition underlying tradeId =>
      simp only [Process.begin, claimUnderlying]
      split <;> trivial
  | claimUnderlyingForResidual underlying attemptId =>
      simp only [Process.begin, claimUnderlying]
      split <;> trivial
  | releaseUnderlyingForPosition underlying tradeId =>
      simp only [Process.begin, releaseUnderlying]
      split <;> trivial
  | releaseUnderlyingForResidual underlying attemptId =>
      simp only [Process.begin, releaseUnderlying]
      split <;> trivial
  | renewTick =>
      simp only [Process.begin, renewTick]
      split <;> trivial

/-- The rule for a stretch. -/
theorem stretch {own : Option OwnerId} {s : Stretch} {t : TaskId} (h : Tidy cfg p)
    (hadv : Advances p p' own t s) (hnext : s.next.Clean cfg s.gateway p.leases) :
    Tidy cfg p' := by
  refine ⟨h.toRegistered.stretch hadv, fun u task hu => ?_, fun id hid hkind => ?_⟩
  · rw [hadv.gateway, hadv.leases]
    obtain ⟨rfl, rfl⟩ | ⟨hne, hu⟩ | ⟨frame, hf, rfl⟩ := hadv.tasks u task hu
    · exact Next.clean_task.mpr hnext
    · exact (h.clean u task hu).mono hadv.follows.spares
        (fun id hid heq => (hadv.own id heq).2 u task hne hu hid) fun _ _ _ _ hk => hk
    · exact Frame.clean_unowned (hadv.follows.spawned frame hf).1
  · rw [hadv.gateway] at hid ⊢
    rw [hadv.leases]
    have hne : own ≠ some id := fun heq => absurd (hadv.own id heq).1.2 (Nat.not_le.mpr hid)
    obtain ⟨hp, hl⟩ := h.unowned id (Nat.lt_of_le_of_lt hadv.follows.spares.seq hid) hkind
    exact ⟨hp.spared hadv.follows.spares hne, hl⟩

theorem step (h : Tidy cfg p) (hgive : GivesBack cfg p a) (hstep : p.step cfg a = some p') :
    Tidy cfg p' := by
  have hreg : Registered p' := h.toRegistered.step hstep
  obtain ⟨w, operation, rfl, hadv⟩ | ⟨t, frame, answer, leases, rfl, ht, hserve, rfl⟩ |
    ⟨w, t, frame, answer, s, rfl, ht, hs, hadv⟩ | ⟨tier, owner, rfl, rfl⟩ :=
      h.toRegistered.step_cases hstep
  · exact h.stretch hadv h.begin_clean
  · have hsound : frame.Sound := (h.agrees t _ ht).1
    have hkind : ∀ id, frame.execution = some id → id.kind ≠ "underlying" :=
      fun id hid => (h.minted t _ id ht hid).1
    refine ⟨hreg, fun u task hu => ?_, fun id hid hk => ?_⟩
    · obtain ⟨rfl, rfl⟩ | ⟨hne, hu⟩ := Process.tasks_setTask hu
      · have hanswered : frame.Clean cfg p.gateway leases (some answer) := by
          refine Frame.answer_clean hsound hkind (h.clean u _ ht) hserve ?_
          rintro e refusal r rfl
          simpa [GivesBack, ht] using hgive
        exact hanswered
      · -- the other tasks' executions do not acquire here
        have hsame : Spares none p.gateway p.gateway := .refl none _
        refine (h.clean u task hu).mono hsame (by simp) ?_
        intro id hid tier key hk
        refine serve_spares hserve (fun heq => ?_) hk
        obtain hexec | hunder := Frame.call_acquirer hsound heq
        · exact hne (h.owned u t task _ id hu ht hid hexec)
        · exact (h.minted u task id hu hid).1 hunder
    · obtain ⟨hp, hl⟩ := h.unowned id hid hk
      refine ⟨hp, hl.mono fun tier key hkey => serve_spares hserve (fun heq => ?_) hkey⟩
      obtain hexec | hunder := Frame.call_acquirer hsound heq
      · exact absurd (h.minted t _ id ht hexec).2 (Nat.not_le.mpr hid)
      · exact hk hunder
  · refine h.stretch hadv (Frame.resume_clean (h.agrees t _ ht) (h.clean t _ ht) ?_ hs)
    simpa [GivesBack, ht] using hgive
  · have hless : ∀ id tier' key,
        (releaseLeases p.leases tier owner none tier').get? key = some id →
          (p.leases tier').get? key = some id := by
      intro id tier' key hk
      unfold releaseLeases at hk
      split at hk
      · exact (LeaseTable.get?_release.mp hk).1
      · exact hk
    refine ⟨hreg, fun u task hu => ?_, fun id hid hk => ?_⟩
    · have hsame : Spares none p.gateway p.gateway := .refl none _
      exact (h.clean u task hu).mono hsame (by simp) fun id _ => hless id
    · obtain ⟨hp, hl⟩ := h.unowned id hid hk
      exact ⟨hp, hl.mono (hless id)⟩

end Tidy

/-- Throughout every run whose refused calls give back what they hold, a call that was
refused or threw has left nothing behind: in no map, no claim and no tier. -/
theorem refused_leaves_nothing (cfg : BoxConfig) (labels : List Label)
    (h : Machine.Heeds (Process.step cfg) (GivesBack cfg) {} labels) :
    Machine.Throughout (Process.step cfg) NothingLeaked {} labels :=
  (Machine.Throughout.of_heeds (fun _ _ _ hi hc hstep => Tidy.step hi hc hstep) Tidy.initial
    h).mono fun _ => Tidy.nothingLeaked

end Runs

section BudgetExit

/-- One box per underlying, and one execution per underlying at a time. -/
def restricted : BoxConfig where
  oneActiveBoxPerUnderlying := true
  maxConcurrentPerUnderlying := 1

def sampleBox (key underlying : String) : BoxCandidate where
  key := key
  underlying := underlying
  legs := [⟨1, "C2500", "NFO"⟩, ⟨2, "P2500", "NFO"⟩, ⟨3, "C2600", "NFO"⟩, ⟨4, "P2600", "NFO"⟩]

/-- An exit runs on the underlying, so the budget refuses the entry that already has its
underlying hold. -/
def budgetRun : List Label :=
  [.start {} (.exit true ⟨"RELIANCE", [⟨7, "C2400", "NFO"⟩]⟩), .answer 0 (.acquired 100 1 .durable),
    .resume {} 0, .start {} (.entry true (sampleBox "BOX-1" "RELIANCE")),
    .answer 1 (.acquired 100 2 .durable), .resume {} 1, .answer 1 .turn, .resume {} 1]

/-- The refused entry's pipeline still holds the underlying. -/
theorem budgetRun_leaks :
    ¬Machine.Throughout (Process.step restricted) NothingLeaked {} budgetRun := by
  intro h
  obtain ⟨p, hrun⟩ : ∃ p, Machine.run (Process.step restricted) {} budgetRun = some p :=
    Option.isSome_iff_exists.mp (by decide)
  have hend : (Machine.run (Process.step restricted) {} budgetRun).all fun p =>
      p.tasks[1]? = some (.done (.refused ⟨"entry", 2⟩
        ⟨.duplicate, "per-underlying execution budget reached (1/1)"⟩)) ∧
      "ZERODHA:RELIANCE" ∈ p.gateway.pipelineKeys ⟨"entry", 2⟩ := by decide
  simp only [hrun, Option.all_some, decide_eq_true_eq] at hend
  obtain ⟨hrefused, hheld⟩ := hend
  obtain ⟨holders, hk, hmem⟩ := mem_pipelineKeys.mp hheld
  obtain ⟨claim, hclaim, rfl⟩ := Option.map_eq_some_iff.mp hk
  exact (h.last hrun 1 _ (.inl ⟨_, hrefused⟩)).noPipeline _ claim hclaim hmem

/-- A conflict, a wait, and a stale book: the refused entry gives back its hold, its
place and its lease. -/
def staleRun : List Label :=
  [.start {} (.entry true (sampleBox "BOX-1" "RELIANCE")), .answer 0 (.acquired 100 1 .durable),
    .resume {} 0, .answer 0 .turn, .resume {} 0, .answer 0 (.conflict 1), .resume {} 0,
    .answer 0 .woken, .resume {} 0, .answer 0 (.acquired 100 2 .durable),
    .resume { revalidation := some "edge_gone" } 0, .answer 0 .released, .resume {} 0,
    .answer 0 .released, .resume {} 0, .answer 0 .released, .resume {} 0]

theorem refused_leaves_nothing_staleRun :
    Machine.Throughout (Process.step restricted) NothingLeaked {} staleRun :=
  refused_leaves_nothing restricted staleRun (by decide)

end BudgetExit

end Strikedge.Coordinator
