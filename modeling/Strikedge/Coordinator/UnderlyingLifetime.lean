import Strikedge.Machine.Holders
import Strikedge.Coordinator.Refusals

/-!
# The lifetime of an underlying claim

A claim is reference-counted by its holders, and `dependents` is the history of who
depends on what: the claims count exactly the dependents for as long as every drop names
the claim its holder is recorded under, a granted hold finds no other claim under its
key, and no entry ends with its pipeline hold still there. An ambiguous settlement and an
entry that throws do end so, and nothing drops their holders afterwards.
-/

namespace Strikedge.Coordinator

open Machine (Counts)
open Reservations (InstrumentKey ReservationDurability)

def Depends (dependents : List Dependent) (claimKey : String) (holder : Holder) : Prop :=
  ∃ underlying, ⟨claimKey, underlying, holder⟩ ∈ dependents

/-- No dependence of the execution's pipeline. -/
def Unheld (dependents : List Dependent) (id : OwnerId) : Prop :=
  ∀ d ∈ dependents, d.holder ≠ .pipeline id

instance (dependents : List Dependent) (id : OwnerId) : Decidable (Unheld dependents id) :=
  inferInstanceAs (Decidable (∀ d ∈ dependents, _))

/-- The dependences of an entry's pipeline while the entry is under way. -/
structure HeldFor (cfg : BoxConfig) (dependents : List Dependent) (e : Entry) : Prop where
  underlying : ∀ d ∈ dependents, d.holder = .pipeline e.executionId →
    d.underlying = normalise e.candidate.underlying
  held : cfg.oneActiveBoxPerUnderlying = true →
    ∃ d ∈ dependents, d.holder = .pipeline e.executionId
  unheld : cfg.oneActiveBoxPerUnderlying = false → Unheld dependents e.executionId

/-- A drop under this world ends exactly the dependences that are recorded under the
claim it takes the holder from. -/
def Addresses (w : World) (dependents : List Dependent) (underlying : String)
    (holder : Holder) : Prop :=
  ∀ d ∈ dependents, d.holder = holder →
    (d.claimKey = w.positionClaimKey underlying ↔ d.underlying = normalise underlying)

instance (w : World) (dependents : List Dependent) (underlying : String) (holder : Holder) :
    Decidable (Addresses w dependents underlying holder) :=
  inferInstanceAs (Decidable (∀ d ∈ dependents, _))

/-- Abandoning the entry takes its pipeline off every claim it depends on. -/
def DropsPipeline (w : World) (dependents : List Dependent) (e : Entry) : Prop :=
  Addresses w dependents e.candidate.underlying (.pipeline e.executionId) ∧
    (e.candidate.underlying = "" → Unheld dependents e.executionId)

instance (w : World) (dependents : List Dependent) (e : Entry) :
    Decidable (DropsPipeline w dependents e) :=
  inferInstanceAs (Decidable (_ ∧ _))

def DependenceEvent.holder : DependenceEvent → Holder
  | .depends _ _ holder | .released _ holder => holder

section History

variable {cfg : BoxConfig} {w : World} {ds ds' : List Dependent} {d : Dependent}
variable {claimKey underlying key : String} {holder v : Holder} {e : Entry} {id : OwnerId}

theorem mem_record_depends : d ∈ Dependent.record ds (.depends claimKey underlying holder) ↔
    d ∈ ds ∨ d = ⟨claimKey, underlying, holder⟩ := by
  unfold Dependent.record
  dsimp only
  split
  · rename_i hmem
    exact ⟨.inl, fun h => h.elim id fun heq => heq ▸ hmem⟩
  · rw [List.mem_cons, or_comm]

theorem mem_record_released : d ∈ Dependent.record ds (.released underlying holder) ↔
    d ∈ ds ∧ ¬(d.underlying = underlying ∧ d.holder = holder) := by
  simp only [Dependent.record, List.mem_filter, decide_eq_true_eq]

/-- Events say nothing of a holder they do not name. -/
theorem mem_foldl_record {events : List DependenceEvent}
    (h : ∀ event ∈ events, event.holder ≠ d.holder) :
    d ∈ events.foldl Dependent.record ds ↔ d ∈ ds := by
  induction events generalizing ds with
  | nil => exact Iff.rfl
  | cons event events ih =>
      rw [List.foldl_cons, ih fun event' hmem => h event' (List.mem_cons_of_mem event hmem)]
      have hne := h event List.mem_cons_self
      cases event with
      | depends claimKey underlying holder =>
          rw [mem_record_depends, or_iff_left]
          rintro rfl
          exact hne rfl
      | released underlying holder =>
          rw [mem_record_released, and_iff_left]
          rintro ⟨-, heq⟩
          exact hne heq.symm

theorem depends_record_depends :
    Depends (Dependent.record ds (.depends claimKey underlying holder)) key v ↔
      Depends ds key v ∨ (key = claimKey ∧ v = holder) := by
  unfold Depends
  simp only [mem_record_depends, Dependent.mk.injEq]
  constructor
  · rintro ⟨u, hu | ⟨rfl, rfl, rfl⟩⟩
    · exact .inl ⟨u, hu⟩
    · exact .inr ⟨rfl, rfl⟩
  · rintro (⟨u, hu⟩ | ⟨rfl, rfl⟩)
    · exact ⟨u, .inl hu⟩
    · exact ⟨underlying, .inr ⟨rfl, rfl, rfl⟩⟩

theorem depends_record_released (h : Addresses w ds underlying holder) :
    Depends (Dependent.record ds (.released (normalise underlying) holder)) key v ↔
      Depends ds key v ∧ ¬(key = w.positionClaimKey underlying ∧ v = holder) := by
  unfold Depends
  simp only [mem_record_released]
  constructor
  · rintro ⟨u, hu, hkept⟩
    refine ⟨⟨u, hu⟩, fun ⟨hkey, hv⟩ => hkept ⟨?_, hv⟩⟩
    exact (h _ hu hv).mp hkey
  · rintro ⟨⟨u, hu⟩, hkept⟩
    refine ⟨u, hu, fun ⟨hunder, hv⟩ => hkept ⟨?_, hv⟩⟩
    exact (h _ hu hv).mpr hunder

/-- The pipeline of an entry that holds nothing has nothing to release. -/
theorem record_pipelineReleased (h : Unheld ds e.executionId) :
    Dependent.record ds (Gateway.pipelineReleased e) = ds := by
  refine List.filter_eq_self.mpr fun d hd => ?_
  exact decide_eq_true fun hreleased => h d hd hreleased.2

theorem HeldFor.released (h : HeldFor cfg ds e) :
    Unheld (Dependent.record ds (Gateway.pipelineReleased e)) e.executionId := by
  intro d hd hholder
  obtain ⟨hd, hkept⟩ := mem_record_released.mp hd
  exact hkept ⟨h.underlying d hd hholder, hholder⟩

theorem Unheld.congr (h : Unheld ds id)
    (heq : ∀ d : Dependent, d.holder = .pipeline id → (d ∈ ds' ↔ d ∈ ds)) : Unheld ds' id :=
  fun d hd hholder => h d ((heq d hholder).mp hd) hholder

theorem HeldFor.congr (h : HeldFor cfg ds e)
    (heq : ∀ d : Dependent, d.holder = .pipeline e.executionId → (d ∈ ds' ↔ d ∈ ds)) :
    HeldFor cfg ds' e where
  underlying d hd hholder := h.underlying d ((heq d hholder).mp hd) hholder
  held hone := by
    obtain ⟨d, hd, hholder⟩ := h.held hone
    exact ⟨d, (heq d hholder).mpr hd, hholder⟩
  unheld hone := (h.unheld hone).congr heq

end History

/-- An entry whose terminal state is unknown and whose trade is not: its settlement
leaves the pipeline hold. -/
def Entry.Retains (cfg : BoxConfig) (e : Entry) (result : ExecutionResult) : Prop :=
  cfg.oneActiveBoxPerUnderlying = true ∧ Gateway.establishedTrade e result = none ∧
    Gateway.entryUncertainty e result = .uncertain

instance (cfg : BoxConfig) (e : Entry) (result : ExecutionResult) :
    Decidable (e.Retains cfg result) :=
  inferInstanceAs (Decidable (_ ∧ _))

/-- The hold a continuation records as a claim. -/
def Frame.records : Frame → Answer → Option Hold
  | .holding _ h, .acquired _ _ _ | .reholding _ _ h, .acquired _ _ _
  | .claiming h, .acquired _ _ _ => some h
  | _, _ => none

/-- The entry whose settlement drops its pipeline hold. -/
def Frame.settles (cfg : BoxConfig) : Frame → Answer → Option Entry
  | .executing e, .executed result =>
      if cfg.oneActiveBoxPerUnderlying = true ∧ ¬e.Retains cfg result then some e else none
  | _, _ => none

/-- The entry that ends without dropping its pipeline hold: an ambiguous settlement, an
exception of the execution, or a refusal that forgets it. -/
def Frame.forsakes (cfg : BoxConfig) (g : Gateway) : Frame → Answer → Option Entry
  | .executing e, .threw _ => some e
  | .holdSettled e result, .turn => if e.Retains cfg result then some e else none
  | frame, answer => frame.forgets cfg g answer

/-- The condition on a continuation. -/
structure Frame.KeepsCount (cfg : BoxConfig) (w : World) (g : Gateway)
    (dependents : List Dependent) (frame : Frame) (answer : Answer) : Prop where
  /-- a granted hold is recorded over no other claim -/
  records : ∀ h ∈ frame.records answer, g.positionClaims.has h.claimKey = false
  settles : ∀ e ∈ frame.settles cfg answer,
    Addresses w dependents e.candidate.underlying (.pipeline e.executionId)
  abandons : ∀ e ∈ frame.abandons cfg w answer, DropsPipeline w dependents e
  forsakes : ∀ e ∈ frame.forsakes cfg g answer, Unheld dependents e.executionId

instance (cfg : BoxConfig) (w : World) (g : Gateway) (dependents : List Dependent)
    (frame : Frame) (answer : Answer) :
    Decidable (frame.KeepsCount cfg w g dependents answer) :=
  decidable_of_iff
    ((∀ h ∈ frame.records answer, g.positionClaims.has h.claimKey = false) ∧
      (∀ e ∈ frame.settles cfg answer,
        Addresses w dependents e.candidate.underlying (.pipeline e.executionId)) ∧
      (∀ e ∈ frame.abandons cfg w answer, DropsPipeline w dependents e) ∧
      ∀ e ∈ frame.forsakes cfg g answer, Unheld dependents e.executionId)
    ⟨fun ⟨hr, hs, ha, hf⟩ => ⟨hr, hs, ha, hf⟩, fun ⟨hr, hs, ha, hf⟩ => ⟨hr, hs, ha, hf⟩⟩

/-- The condition on a step. -/
def KeepsCount (cfg : BoxConfig) (p : Process) : Label → Prop
  | .start w (.releaseUnderlyingForPosition underlying tradeId) =>
      Addresses w p.dependents underlying (.trade tradeId)
  | .start w (.releaseUnderlyingForResidual underlying attemptId) =>
      Addresses w p.dependents underlying (.residual attemptId)
  | .resume w t =>
      match p.tasks[t]? with
      | some (.suspended frame (some answer)) =>
          frame.KeepsCount cfg w p.gateway p.dependents answer
      | _ => True
  | _ => True

instance (cfg : BoxConfig) (p : Process) : ∀ a, Decidable (KeepsCount cfg p a)
  | .start _ operation => by
      unfold KeepsCount
      cases operation <;> dsimp only <;> infer_instance
  | .resume w t =>
      Task.decidableAnswered
        (fun frame answer => frame.KeepsCount cfg w p.gateway p.dependents answer) p.tasks[t]?
  | .answer _ _ | .lapse _ _ => .isTrue trivial

/-- The pipeline's dependences while its method is suspended here. An established entry
never finds its claim gone, so it never acquires it again. -/
def Frame.Traced (cfg : BoxConfig) (dependents : List Dependent) : Frame → Prop
  | .consuming e | .held e false | .discarding e _ _ | .droppingPipeline e _ _ =>
      Unheld dependents e.executionId
  | .holding e h =>
      cfg.oneActiveBoxPerUnderlying = true ∧ h.underlying = e.candidate.underlying ∧
        Unheld dependents e.executionId
  | .held e true | .acquiring e _ | .acquiringLocal e _ | .waiting e _ | .retrying e _
  | .verifying e _ _ | .permitted e _ _ _ | .executing e => HeldFor cfg dependents e
  | .reholding _ _ _ | .reheld _ _ => False
  | .holdSettled e result => e.Retains cfg result ∨ Unheld dependents e.executionId
  | _ => True

def Next.Traced (cfg : BoxConfig) (dependents : List Dependent) : Next → Prop
  | .await frame => frame.Traced cfg dependents
  | .finish _ => True

def Task.Traced (cfg : BoxConfig) (dependents : List Dependent) : Task → Prop
  | .suspended frame _ => frame.Traced cfg dependents
  | .done _ => True

@[simp] theorem Next.traced_task {cfg : BoxConfig} {ds : List Dependent} {next : Next} :
    next.task.Traced cfg ds ↔ next.Traced cfg ds := by
  cases next <;> rfl

/-- A frame looks at the dependences of its own execution only. -/
theorem Frame.Traced.congr {cfg : BoxConfig} {ds ds' : List Dependent} {frame : Frame}
    (h : frame.Traced cfg ds)
    (heq : ∀ id, frame.execution = some id → ∀ d : Dependent, d.holder = .pipeline id →
      (d ∈ ds' ↔ d ∈ ds)) : frame.Traced cfg ds' := by
  cases frame with
  | consuming e | discarding e refusal r | droppingPipeline e result r =>
      exact Unheld.congr h (heq _ rfl)
  | holding e hold => exact ⟨h.1, h.2.1, h.2.2.congr (heq _ rfl)⟩
  | held e held =>
      cases held with
      | false => exact Unheld.congr h (heq _ rfl)
      | true => exact HeldFor.congr h (heq _ rfl)
  | acquiring e a | acquiringLocal e a | waiting e a | retrying e a | verifying e a lease
  | permitted e a lease refusal | executing e =>
      exact HeldFor.congr h (heq _ rfl)
  | reholding e result hold | reheld e result => exact h
  | holdSettled e result => exact h.imp_right fun hu => hu.congr (heq _ rfl)
  | _ => trivial

/-- A frame that works for no execution traces nothing. -/
theorem Frame.traced_unowned {cfg : BoxConfig} {ds : List Dependent} {frame : Frame}
    (h : frame.execution = none) : frame.Traced cfg ds := by
  cases frame <;> trivial

/-- A stretch of the method of `own`: the claims it leaves count the dependents it
leaves, its events name no other pipeline, and its next frame traces its own. -/
structure Stretch.Tracks (cfg : BoxConfig) (own : Option OwnerId) (dependents : List Dependent)
    (s : Stretch) : Prop where
  counts : Counts s.gateway.holdersOf (Depends (s.events.foldl Dependent.record dependents))
  events : ∀ event ∈ s.events, ∀ id, event.holder = .pipeline id → own = some id
  next : s.next.Traced cfg (s.events.foldl Dependent.record dependents)

section Stretches

variable {cfg : BoxConfig} {w : World} {g g' : Gateway} {ds : List Dependent}
variable {e : Entry} {a : Attempt} {lease : ReservationLease} {answer : Answer} {s : Stretch}
variable {reason : BoxExecutionFailureReason} {detail underlying claimKey : String}
variable {holder : Holder} {result : ExecutionResult} {own : Option OwnerId} {next : Next}

namespace Gateway

theorem holdersOf_isSome : (g.holdersOf claimKey).isSome = g.positionClaims.has claimKey := by
  simp [holdersOf, OrderedMap.has]

theorem counts_addHolder (h : Counts g.holdersOf (Depends ds))
    (hhas : g.positionClaims.has claimKey = true) :
    Counts (g.addHolder claimKey holder).holdersOf
      (Depends (Dependent.record ds (.depends claimKey underlying holder))) :=
  h.join (holdersOf_isSome.trans hhas) (fun _ => holdersOf_addHolder)
    fun _ _ => depends_record_depends

theorem counts_recordClaim {claim : PositionUnderlyingClaim}
    (h : Counts g.holdersOf (Depends ds)) (hhas : g.positionClaims.has claimKey = false)
    (hholders : claim.holders = {holder}) :
    Counts (g.recordClaim claimKey claim).holdersOf
      (Depends (Dependent.record ds (.depends claimKey underlying holder))) := by
  have hnone : g.holdersOf claimKey = none := by
    rw [← Option.isNone_iff_eq_none, ← Option.not_isSome, holdersOf_isSome, hhas]
    rfl
  exact h.take hnone (fun _ => hholders ▸ holdersOf_recordClaim) fun _ _ => depends_record_depends

theorem counts_dropUnderlyingHolder (h : Counts g.holdersOf (Depends ds))
    (haddr : Addresses w ds underlying holder) :
    Counts (g.dropUnderlyingHolder cfg w underlying holder).1.holdersOf
      (Depends (Dependent.record ds (.released (normalise underlying) holder))) :=
  h.leave (fun _ => holdersOf_dropUnderlyingHolder) fun _ _ => depends_record_released haddr

theorem holdersOf_abandon {id : OwnerId} : (g.abandon id).holdersOf = g.holdersOf := by
  obtain ⟨active, opportunities, h⟩ := abandon_eq g id
  rw [h]
  rfl

/-- Abandoning an entry under way takes its pipeline off the claim it depends on. -/
theorem counts_abandonAndReleaseHold (h : Counts g.holdersOf (Depends ds)) (hc : g.Claimed e)
    (hheld : HeldFor cfg ds e) (hdrop : DropsPipeline w ds e) :
    Counts (g.abandonAndReleaseHold cfg w e.executionId).1.holdersOf
      (Depends (Dependent.record ds (pipelineReleased e))) := by
  have hunder : (g.active.get? e.executionId).map (·.underlying) =
      some e.candidate.underlying := by
    obtain ⟨exec, hexec, heq⟩ := Option.map_eq_some_iff.mp hc.registration
    rw [hexec]
    exact congrArg some (congrArg Prod.fst heq)
  simp only [abandonAndReleaseHold, holdersOf_abandon, hunder, releasePipelineHold]
  split
  · exact counts_dropUnderlyingHolder h hdrop.1
  · rename_i hclosed
    have hunheld : Unheld ds e.executionId := by
      by_cases hone : cfg.oneActiveBoxPerUnderlying = true
      · exact hdrop.2 (by_contra fun hne => hclosed ⟨hone, hne⟩)
      · exact hheld.unheld (by simpa using hone)
    rw [record_pipelineReleased hunheld]
    exact h

end Gateway

open Gateway

/-- Nothing changes for any claim. -/
theorem tracks_quiet (h : Counts g.holdersOf (Depends ds)) (hg : s.gateway.holdersOf = g.holdersOf)
    (hevents : s.events = []) (hnext : s.next.Traced cfg ds) : s.Tracks cfg own ds := by
  refine ⟨?_, ?_, ?_⟩
  · rw [hg, hevents]
    exact h
  · simp [hevents]
  · rw [hevents]
    exact hnext

/-- The entry ends, and its pipeline depends on nothing. -/
theorem tracks_unheld (h : Counts g.holdersOf (Depends ds)) (hu : Unheld ds e.executionId)
    (hg : s.gateway.holdersOf = g.holdersOf) (hevents : s.events = [pipelineReleased e])
    (hnext : s.next.Traced cfg ds) : s.Tracks cfg (some e.executionId) ds := by
  have hds : s.events.foldl Dependent.record ds = ds := by
    rw [hevents]
    exact record_pipelineReleased hu
  refine ⟨?_, ?_, ?_⟩
  · rw [hds, hg]
    exact h
  · simp [hevents, DependenceEvent.holder, pipelineReleased]
  · rw [hds]
    exact hnext

/-- The entry is abandoned, and its pipeline hold dropped. -/
theorem tracks_abandoned (h : Counts g.holdersOf (Depends ds)) (hc : g.Claimed e)
    (hheld : HeldFor cfg ds e) (hdrop : DropsPipeline w ds e)
    (hg : s.gateway = (g.abandonAndReleaseHold cfg w e.executionId).1)
    (hevents : s.events = [pipelineReleased e])
    (hnext : ∀ ds', Unheld ds' e.executionId → s.next.Traced cfg ds') :
    s.Tracks cfg (some e.executionId) ds := by
  refine ⟨?_, ?_, ?_⟩
  · rw [hg, hevents]
    exact counts_abandonAndReleaseHold h hc hheld hdrop
  · simp [hevents, DependenceEvent.holder, pipelineReleased]
  · rw [hevents]
    exact hnext _ hheld.released

theorem tracks_abandonAndRefuse (h : Counts g.holdersOf (Depends ds)) (hc : g.Claimed e)
    (hheld : HeldFor cfg ds e) (hdrop : DropsPipeline w ds e) :
    (g.abandonAndRefuse cfg w e reason detail).Tracks cfg (some e.executionId) ds :=
  tracks_abandoned h hc hheld hdrop rfl rfl fun _ _ => trivial

theorem tracks_discard (h : Counts g.holdersOf (Depends ds)) (hc : g.Claimed e)
    (hheld : HeldFor cfg ds e) (hdrop : DropsPipeline w ds e) :
    (g.discard cfg w e lease reason detail).Tracks cfg (some e.executionId) ds :=
  tracks_abandoned h hc hheld hdrop rfl rfl fun _ hu => hu

/-- An entry whose hold was not granted is not in `active`: nothing is dropped. -/
theorem tracks_abandonAndRefuse_unheld (h : Counts g.holdersOf (Depends ds))
    (hs : g.Stands e.executionId none) (hu : Unheld ds e.executionId) :
    (g.abandonAndRefuse cfg w e reason detail).Tracks cfg (some e.executionId) ds := by
  have hnone : g.active.get? e.executionId = none := by
    have hreg := hs.registration
    simpa [registration] using hreg
  refine tracks_unheld h hu ?_ rfl trivial
  simp only [abandonAndRefuse, abandonAndReleaseHold, holdersOf_abandon, hnone, Option.map_none,
    releasePipelineHold]

theorem tracks_afterHold (h : Counts g.holdersOf (Depends ds)) (hheld : HeldFor cfg ds e)
    (hover : ¬g.WithinBudget cfg e → Unheld ds e.executionId) :
    (g.afterHold cfg w e).Tracks cfg (some e.executionId) ds := by
  by_cases hroom : g.WithinBudget cfg e
  · rw [afterHold_within hroom]
    exact tracks_quiet h rfl rfl hheld
  · rw [afterHold_over hroom]
    exact tracks_unheld h (hover hroom) rfl rfl trivial

theorem Unheld.heldFor (h : Unheld ds e.executionId)
    (hone : cfg.oneActiveBoxPerUnderlying = false) : HeldFor cfg ds e where
  underlying d hd hholder := absurd hholder (h d hd)
  held hon := absurd hon (by simp [hone])
  unheld _ := h

theorem tracks_afterAttempt (h : Counts g.holdersOf (Depends ds)) (hu : Unheld ds e.executionId) :
    (g.afterAttempt cfg w e).Tracks cfg (some e.executionId) ds := by
  unfold afterAttempt
  split
  · rename_i hone
    dsimp only
    split
    · exact tracks_unheld h hu rfl rfl trivial
    · split
      · rename_i g' held heq
        obtain ⟨rfl, hheld⟩ | ⟨hex, -⟩ | ⟨-, -, -, hacq⟩ := holdUnderlying_cases heq
        · cases hheld
          exact tracks_quiet h rfl rfl hu
        · cases hex
        · cases hacq
      · rename_i g' hold heq
        obtain ⟨-, hdec⟩ | ⟨-, -, -, -, hdec⟩ | ⟨-, -, rfl, hacq⟩ := holdUnderlying_cases heq
        · cases hdec
        · cases hdec
        · obtain rfl := HoldStep.acquiring.inj hacq
          exact tracks_quiet h rfl rfl ⟨hone, rfl, hu⟩
  · rename_i hone
    exact tracks_afterHold h (hu.heldFor (by simpa using hone)) fun _ => hu

theorem tracks_prologue (h : Counts g.holdersOf (Depends ds)) (hu : Unheld ds e.executionId) :
    (g.prologue cfg w e).Tracks cfg (some e.executionId) ds := by
  unfold prologue
  split
  · exact tracks_unheld h hu rfl rfl trivial
  · split
    · exact tracks_unheld h hu rfl rfl trivial
    · split
      · exact tracks_unheld h hu rfl rfl trivial
      · split
        · exact tracks_quiet h rfl rfl hu
        · exact tracks_afterAttempt h hu

theorem tracks_afterGranted (h : Counts g.holdersOf (Depends ds)) (hc : g.Claimed e)
    (hheld : HeldFor cfg ds e)
    (hdrop : a.waited = true ∧ w.revalidation.isSome = true → DropsPipeline w ds e) :
    (g.afterGranted cfg w e a lease).Tracks cfg (some e.executionId) ds := by
  unfold afterGranted
  split
  · rename_i why hwaited hrevalidated
    exact tracks_discard h hc hheld (hdrop ⟨hwaited, by rw [hrevalidated]; rfl⟩)
  · refine tracks_quiet h rfl rfl ?_
    unfold confirmBeforeSubmit
    dsimp only
    split
    · exact hheld
    · split
      · exact hheld
      · exact hheld

theorem tracks_waitForKeys (h : Counts g.holdersOf (Depends ds)) (hc : g.Claimed e)
    (hheld : HeldFor cfg ds e)
    (hdrop : ¬w.now < a.waitStarted + cfg.conflictWaitMaxMs → DropsPipeline w ds e) :
    (g.waitForKeys cfg w e a).Tracks cfg (some e.executionId) ds := by
  unfold waitForKeys
  split
  · exact tracks_quiet h rfl rfl hheld
  · rename_i hexpired
    exact tracks_abandonAndRefuse h hc hheld (hdrop hexpired)

theorem tracks_handleUnavailable {tier : String} (h : Counts g.holdersOf (Depends ds))
    (hc : g.Claimed e) (hheld : HeldFor cfg ds e)
    (hdrop : cfg.live = true ∨ cfg.withLocal = false → DropsPipeline w ds e) :
    (g.handleUnavailable cfg w e a tier detail).Tracks cfg (some e.executionId) ds := by
  unfold handleUnavailable
  split
  · rename_i hlive
    exact tracks_abandonAndRefuse h hc hheld (hdrop (.inl hlive))
  · split
    · exact tracks_quiet h rfl rfl hheld
    · rename_i hlocal
      exact tracks_abandonAndRefuse h hc hheld (hdrop (.inr (by simpa using hlocal)))

theorem tracks_resumeAcquire {threw : Stretch} (h : Counts g.holdersOf (Depends ds))
    (hc : g.Claimed e) (hheld : HeldFor cfg ds e)
    (hwait : ∀ n, answer = .conflict n → ¬w.now < a.waitStarted + cfg.conflictWaitMaxMs →
      DropsPipeline w ds e)
    (hdown : ∀ tier detail, answer = .unavailable tier detail →
      cfg.live = true ∨ cfg.withLocal = false → DropsPipeline w ds e)
    (hstale : answer.grants = true → a.waited = true ∧ w.revalidation.isSome = true →
      DropsPipeline w ds e)
    (hthrew : ∀ message, answer = .threw message → threw.Tracks cfg (some e.executionId) ds)
    (hs : g.resumeAcquire cfg w e a threw answer = some s) :
    s.Tracks cfg (some e.executionId) ds := by
  unfold resumeAcquire at hs
  split at hs
  · cases hs
    exact tracks_afterGranted h hc hheld (hstale rfl)
  · cases hs
    exact tracks_waitForKeys h hc hheld (hwait _ rfl)
  · cases hs
    exact tracks_handleUnavailable h hc hheld (hdown _ _ rfl)
  · cases hs
    exact hthrew _ rfl
  · cases hs

namespace Gateway

theorem holdersOf_conclude {id : OwnerId} {opportunityId : Option String} :
    (g.conclude id opportunityId).holdersOf = g.holdersOf := by
  obtain ⟨active, opportunities, h⟩ := conclude_eq g id opportunityId
  rw [h]
  rfl

theorem holdersOf_retain {id : OwnerId} {exec : Option ActiveExecution} {why : String} {now : Int} :
    (g.retain id exec why now).holdersOf = g.holdersOf := by
  obtain ⟨holds, h⟩ := retain_eq g id exec why now
  rw [h]
  rfl

theorem holdersOf_settle {id : OwnerId} {opportunityId : Option String}
    {uncertainty : Uncertainty} :
    (g.settle cfg w id opportunityId result uncertainty).gateway.holdersOf = g.holdersOf := by
  cases uncertainty with
  | clean => exact holdersOf_conclude
  | uncertain => exact holdersOf_retain.trans holdersOf_conclude

theorem holdersOf_holdOnUncertainty {id : OwnerId} {opportunityId : Option String} {why : String}
    {now : Int} : (g.holdOnUncertainty id opportunityId why now).holdersOf = g.holdersOf :=
  holdersOf_retain.trans holdersOf_conclude

end Gateway

/-- The drop that ends a settlement, whoever joined the claim before it. -/
theorem tracks_dropPipeline (h : Counts g.holdersOf (Depends ds)) (hheld : HeldFor cfg ds e)
    (haddr : Addresses w ds e.candidate.underlying (.pipeline e.executionId)) :
    (g.dropPipeline cfg w e result).Tracks cfg (some e.executionId) ds := by
  have hcounts : Counts (g.dropUnderlyingHolder cfg w e.candidate.underlying
      (.pipeline e.executionId)).1.holdersOf (Depends (Dependent.record ds (pipelineReleased e))) :=
    counts_dropUnderlyingHolder h haddr
  have hunheld := hheld.released
  unfold dropPipeline
  dsimp only
  split
  · exact ⟨hcounts, by simp [DependenceEvent.holder, pipelineReleased], .inr hunheld⟩
  · exact ⟨hcounts, by simp [DependenceEvent.holder, pipelineReleased], hunheld⟩

/-- An established entry finds the claim its pipeline holds. -/
theorem HeldFor.has (h : Counts g.holdersOf (Depends ds)) (hheld : HeldFor cfg ds e)
    (hone : cfg.oneActiveBoxPerUnderlying = true)
    (haddr : Addresses w ds e.candidate.underlying (.pipeline e.executionId)) :
    g.positionClaims.has (w.positionClaimKey e.candidate.underlying) = true := by
  obtain ⟨d, hd, hholder⟩ := hheld.held hone
  have hkey := (haddr d hd hholder).mpr (hheld.underlying d hd hholder)
  rw [← holdersOf_isSome, ← hkey]
  exact h.held_iff.mpr ⟨d.holder, d.underlying, hd⟩

theorem tracks_settleUnderlyingHold (h : Counts g.holdersOf (Depends ds))
    (hheld : HeldFor cfg ds e)
    (haddr : cfg.oneActiveBoxPerUnderlying = true ∧ ¬e.Retains cfg result →
      Addresses w ds e.candidate.underlying (.pipeline e.executionId)) :
    (g.settleUnderlyingHold cfg w e result).Tracks cfg (some e.executionId) ds := by
  unfold settleUnderlyingHold
  split
  · rename_i hone
    split
    · rename_i tradeId htrade
      have haddr := haddr ⟨hone, fun hr => by rw [hr.2.1] at htrade; cases htrade⟩
      have hhas := hheld.has h hone haddr
      dsimp only
      rw [if_pos hhas]
      -- the trade joins before the pipeline leaves
      let event := DependenceEvent.depends (w.positionClaimKey e.candidate.underlying)
        (normalise e.candidate.underlying) (.trade tradeId)
      have hother : ∀ d : Dependent, d.holder = .pipeline e.executionId →
          (d ∈ Dependent.record ds event ↔ d ∈ ds) := by
        intro d hd
        rw [mem_record_depends, or_iff_left]
        rintro rfl
        cases hd
      have hdrop : ((g.addHolder (w.positionClaimKey e.candidate.underlying)
          (.trade tradeId)).dropPipeline cfg w e result).Tracks cfg (some e.executionId)
          (Dependent.record ds event) :=
        tracks_dropPipeline (counts_addHolder h hhas) (hheld.congr hother)
          fun d hd hholder => haddr d ((hother d hholder).mp hd) hholder
      refine ⟨hdrop.counts, fun event' hmem id hid => ?_, hdrop.next⟩
      obtain rfl | hmem := List.mem_cons.mp hmem
      · cases hid
      · exact hdrop.events event' hmem id hid
    · rename_i htrade
      split
      · rename_i hunknown
        exact tracks_quiet h rfl rfl (.inl ⟨hone, htrade, hunknown⟩)
      · rename_i hclean
        exact tracks_dropPipeline h hheld
          (haddr ⟨hone, fun hr => by rw [hr.2.2] at hclean; cases hclean⟩)
  · rename_i hone
    exact tracks_quiet h rfl rfl (.inr (hheld.unheld (by simpa using hone)))

theorem tracks_entryThrew (h : Counts g.holdersOf (Depends ds)) (hu : Unheld ds e.executionId) :
    (g.entryThrew w e).Tracks cfg (some e.executionId) ds :=
  tracks_unheld h hu holdersOf_holdOnUncertainty rfl trivial

theorem tracks_resumeRelease {more : Releasing → Frame} {done rejected : Stretch}
    {progress : Releasing.Progress} (h : Counts g.holdersOf (Depends ds))
    (hmore : ∀ r, (more r).Traced cfg ds) (hdone : done.Tracks cfg own ds)
    (hrejected : rejected.Tracks cfg own ds) :
    (g.resumeRelease more done rejected progress).Tracks cfg own ds := by
  cases progress with
  | more r => exact tracks_quiet h rfl rfl (hmore r)
  | done => exact hdone
  | rejected => exact hrejected

/-- The answer to a hold's acquisition. -/
theorem tracks_resumeHold {hold : Hold} (next : Bool → Next) (h : Counts g.holdersOf (Depends ds))
    (hrecords : answer.grants = true → g.positionClaims.has hold.claimKey = false)
    (hown : ∀ id, hold.holder = .pipeline id → own = some id)
    (hnext : ∀ held, (next held).Traced cfg ((holdEvents hold held).foldl Dependent.record ds))
    (hs : ((g.finishHold w hold answer).map fun (g, held) =>
      ({ gateway := g, next := next held, events := holdEvents hold held } : Stretch)) = some s) :
    s.Tracks cfg own ds := by
  obtain ⟨⟨g', held⟩, hfin, rfl⟩ := Option.map_eq_some_iff.mp hs
  have hrefused : g' = g ∧ held = false → Stretch.Tracks cfg own ds
      { gateway := g', next := next held, events := holdEvents hold held } := by
    rintro ⟨rfl, rfl⟩
    exact tracks_quiet h rfl rfl (hnext false)
  unfold finishHold at hfin
  split at hfin
  · cases hfin
    refine ⟨counts_recordClaim h (hrecords rfl) rfl, fun event hmem id hid => ?_, hnext true⟩
    obtain rfl := List.mem_singleton.mp hmem
    exact hown id hid
  · cases hfin
    exact hrefused ⟨rfl, rfl⟩
  · cases hfin
    exact hrefused ⟨rfl, rfl⟩
  · cases hfin
    exact hrefused ⟨rfl, rfl⟩
  · cases hfin

theorem tracks_claimUnderlying (h : Counts g.holdersOf (Depends ds))
    (hnot : ∀ id, holder ≠ .pipeline id) :
    (g.claimUnderlying cfg w underlying holder).Tracks cfg none ds := by
  unfold claimUnderlying
  split
  · rename_i g' held heq
    obtain ⟨rfl, hd⟩ | ⟨-, -, hhas, rfl, hd⟩ | ⟨-, -, -, hd⟩ := holdUnderlying_cases heq
    · cases hd
      exact tracks_quiet h rfl rfl trivial
    · cases hd
      refine ⟨counts_addHolder h hhas, fun event hmem id hid => ?_, trivial⟩
      obtain rfl := List.mem_singleton.mp hmem
      exact absurd hid (hnot id)
    · cases hd
  · rename_i g' hold heq
    obtain ⟨-, hd⟩ | ⟨-, -, -, -, hd⟩ | ⟨-, -, rfl, -⟩ := holdUnderlying_cases heq
    · cases hd
    · cases hd
    · exact tracks_quiet h rfl rfl trivial

theorem tracks_releaseUnderlying (h : Counts g.holdersOf (Depends ds))
    (hnot : ∀ id, holder ≠ .pipeline id) (haddr : Addresses w ds underlying holder) :
    (g.releaseUnderlying cfg w underlying holder).Tracks cfg none ds := by
  refine ⟨counts_dropUnderlyingHolder h haddr, fun event hmem id hid => ?_, ?_⟩
  · obtain rfl := List.mem_singleton.mp hmem
    exact absurd hid (hnot id)
  · unfold releaseUnderlying
    dsimp only
    split <;> trivial

theorem tracks_ofTick {r : Gateway × Next} (h : Counts g.holdersOf (Depends ds))
    (hr : r.1.holdersOf = g.holdersOf ∧ r.2.Traced cfg ds) :
    (ofTick r).Tracks cfg own ds :=
  tracks_quiet h hr.1 rfl hr.2

theorem Gateway.tickClaims_traced {claims : List (String × PositionUnderlyingClaim)} :
    (g.tickClaims cfg claims).1.holdersOf = g.holdersOf ∧
      (g.tickClaims cfg claims).2.Traced cfg ds := by
  unfold tickClaims
  split
  · exact ⟨rfl, trivial⟩
  · exact ⟨rfl, trivial⟩

theorem Gateway.tickHolds_traced {now : Int} {holds : List (OwnerId × UncertainHold)} :
    (g.tickHolds cfg now holds).1.holdersOf = g.holdersOf ∧
      (g.tickHolds cfg now holds).2.Traced cfg ds := by
  induction holds generalizing g with
  | nil => exact tickClaims_traced
  | cons hold holds ih =>
      rw [tickHolds]
      split
      · obtain ⟨hg, hnext⟩ := ih (g := g.dropHold hold.1)
        exact ⟨hg, hnext⟩
      · exact ⟨rfl, trivial⟩

theorem tracks_finishRenewal {id : OwnerId} {progress : Renewal.Progress}
    (h : Counts g.holdersOf (Depends ds)) :
    (g.finishRenewal id progress).Tracks cfg own ds := by
  unfold finishRenewal
  split
  · exact tracks_quiet h rfl rfl trivial
  · rename_i expiresAt fence
    obtain ⟨active, hg⟩ := renewActive_eq g id expiresAt fence
    refine tracks_quiet h ?_ rfl trivial
    rw [hg]
    rfl
  · rename_i reason _
    obtain ⟨active, violations, hg⟩ := loseOwnership_eq g id reason
    refine tracks_quiet h ?_ rfl trivial
    rw [hg]
    rfl
  · exact tracks_quiet h rfl rfl trivial

theorem tracks_finishHoldRenewal {now : Int} {id : OwnerId}
    {rest : List (OwnerId × UncertainHold)} {progress : Renewal.Progress}
    (h : Counts g.holdersOf (Depends ds)) :
    (g.finishHoldRenewal cfg now id rest progress).Tracks cfg own ds := by
  unfold finishHoldRenewal
  split
  · exact tracks_quiet h rfl rfl trivial
  · rename_i expiresAt fence
    obtain ⟨holds, hg⟩ := renewHold_eq g id expiresAt fence
    obtain ⟨hsame, hnext⟩ := tickHolds_traced (g := g.renewHold id expiresAt fence)
    refine tracks_ofTick h ⟨hsame.trans ?_, hnext⟩
    rw [hg]
    rfl
  · split
    · exact tracks_ofTick h tickHolds_traced
    · obtain ⟨hsame, hnext⟩ := tickHolds_traced (g := g.dropHold id)
      exact tracks_ofTick h ⟨hsame, hnext⟩
  · exact tracks_quiet h rfl rfl trivial

theorem tracks_finishClaimRenewal {owner : OwnerId}
    {rest : List (String × PositionUnderlyingClaim)} {progress : Renewal.Progress}
    (h : Counts g.holdersOf (Depends ds)) :
    (g.finishClaimRenewal cfg claimKey owner rest progress).Tracks cfg own ds := by
  unfold finishClaimRenewal
  split
  · exact tracks_quiet h rfl rfl trivial
  · obtain ⟨hsame, hnext⟩ := tickClaims_traced
    exact tracks_ofTick h ⟨hsame.trans (funext fun _ => holdersOf_renewClaim), hnext⟩
  · exact tracks_quiet h rfl rfl trivial

theorem Frame.resume_tracks {frame : Frame} (h : Counts g.holdersOf (Depends ds))
    (hagrees : frame.Agrees g) (htraced : frame.Traced cfg ds)
    (hkeeps : frame.KeepsCount cfg w g ds answer)
    (hs : frame.resume cfg w g answer = some s) : s.Tracks cfg frame.execution ds := by
  obtain ⟨hsound, hagrees⟩ := hagrees
  have habandons := hkeeps.abandons
  have hforsakes := hkeeps.forsakes
  cases frame with
  | consuming e =>
      simp only [resume, resumeConsuming] at hs
      split at hs <;> cases hs
      · exact tracks_afterAttempt h htraced
      · exact tracks_unheld h htraced rfl rfl trivial
      · exact tracks_unheld h htraced rfl rfl trivial
  | holding e hold =>
      obtain ⟨hone, hunder, hu⟩ := htraced
      have hholder : hold.holder = .pipeline e.executionId := hsound.2
      refine tracks_resumeHold (fun held => .await (.held e held)) h (fun hgrants => ?_)
        (fun id hid => ?_) (fun held => ?_) hs
      · cases answer <;> cases hgrants
        exact hkeeps.records hold rfl
      · rw [hholder] at hid
        rw [← Holder.pipeline.inj hid]
        rfl
      · cases held with
        | false => exact hu
        | true =>
            refine ⟨fun d hd hpipe => ?_, fun _ => ?_, fun hoff => by rw [hone] at hoff; cases hoff⟩
            · obtain hd | rfl := mem_record_depends.mp hd
              · exact absurd hpipe (hu d hd)
              · exact congrArg normalise hunder
            · exact ⟨_, mem_record_depends.mpr (.inr rfl), hholder⟩
  | held e held =>
      cases held <;> cases answer <;> cases hs
      · exact tracks_abandonAndRefuse_unheld h (hagrees _ rfl) htraced
      · exact tracks_afterHold h htraced fun hfull => hforsakes e (by simp [forsakes, forgets, hfull])
  | acquiring e a =>
      have hc : g.Claimed e := hagrees _ rfl
      refine tracks_resumeAcquire h hc htraced ?_ ?_ ?_ ?_ hs
      · rintro n rfl hexpired
        exact habandons e (by simp [abandons, hexpired])
      · rintro tier detail rfl (hlive | hlocal)
        · exact habandons e (by simp [abandons, hlive])
        · exact habandons e (by simp [abandons, hlocal])
      · intro hgrants hstale
        cases answer <;> cases hgrants
        exact habandons e (by simp [abandons, hstale])
      · rintro message rfl
        exact tracks_abandoned h hc htraced (habandons e (by simp [abandons])) rfl rfl
          fun _ _ => trivial
  | acquiringLocal e a =>
      have hc : g.Claimed e := hagrees _ rfl
      simp only [resume, resumeLocal] at hs
      split at hs <;> cases hs
      · exact tracks_afterGranted h hc htraced fun hstale => habandons e (by simp [abandons, hstale])
      · split
        · rename_i hwaited
          exact tracks_abandonAndRefuse h hc htraced (habandons e (by simp [abandons, hwaited]))
        · rename_i hwaited
          exact tracks_waitForKeys h hc htraced fun hexpired =>
            habandons e (by simp [abandons, hwaited, hexpired])
      · split
        · exact tracks_abandonAndRefuse h hc htraced (habandons e (by simp [abandons]))
        · exact tracks_abandonAndRefuse h hc htraced (habandons e (by simp [abandons]))
      · exact tracks_unheld h (hforsakes e (by simp [forsakes, forgets])) rfl rfl trivial
  | waiting e a =>
      cases answer <;> cases hs
      exact tracks_quiet h rfl rfl htraced
  | retrying e a =>
      have hc : g.Claimed e := hagrees _ rfl
      refine tracks_resumeAcquire h hc htraced ?_ ?_ ?_ ?_ hs
      · rintro n rfl hexpired
        exact habandons e (by simp [abandons, hexpired])
      · rintro tier detail rfl (hlive | hlocal)
        · exact habandons e (by simp [abandons, hlive])
        · exact habandons e (by simp [abandons, hlocal])
      · intro hgrants hstale
        cases answer <;> cases hgrants
        exact habandons e (by simp [abandons, hstale])
      · rintro message rfl
        exact tracks_unheld h (hforsakes e (by simp [forsakes, forgets])) rfl rfl trivial
  | verifying e a lease =>
      simp only [resume, resumeVerifying] at hs
      split at hs <;> cases hs
      · exact tracks_quiet h rfl rfl htraced
      · exact tracks_quiet h rfl rfl htraced
      · exact tracks_unheld h (hforsakes e (by simp [forsakes, forgets])) rfl rfl trivial
  | permitted e a lease refusal =>
      cases answer <;> cases hs
      cases refusal with
      | none =>
          obtain ⟨active, hg⟩ := grant_eq g e.executionId a.keys lease (w.context cfg)
          refine tracks_quiet h ?_ rfl htraced
          simp only [resumePermitted, hg]
          rfl
      | some refusal =>
          exact tracks_discard h (hagrees _ rfl) htraced (habandons e (by simp [abandons]))
  | discarding e refusal r =>
      obtain ⟨progress, -, rfl⟩ := Option.map_eq_some_iff.mp hs
      exact tracks_resumeRelease h (fun _ => htraced) (tracks_quiet h rfl rfl trivial)
        (tracks_unheld h htraced rfl rfl trivial)
  | executing e =>
      cases answer <;> cases hs
      · exact tracks_settleUnderlyingHold h htraced fun hdrops =>
          hkeeps.settles e (by simp [settles, hdrops])
      · exact tracks_entryThrew h (hforsakes e (by simp [forsakes]))
  | reholding e result hold => exact htraced.elim
  | reheld e result => exact htraced.elim
  | droppingPipeline e result r =>
      obtain ⟨progress, -, rfl⟩ := Option.map_eq_some_iff.mp hs
      refine tracks_resumeRelease h (fun _ => htraced) ?_ (tracks_entryThrew h htraced)
      refine tracks_quiet h holdersOf_settle ?_ ?_
      · cases entryUncertainty e result <;> rfl
      · cases entryUncertainty e result <;> trivial
  | holdSettled e result =>
      have hu : Unheld ds e.executionId :=
        htraced.elim (fun hr => hforsakes e (by cases answer <;> cases hs; simp [forsakes, hr])) id
      cases answer <;> cases hs
      refine tracks_unheld h hu holdersOf_settle rfl ?_
      cases entryUncertainty e result <;> trivial
  | exitAcquiring x =>
      cases answer <;> cases hs
      · exact tracks_quiet h rfl rfl trivial
      · exact tracks_quiet h rfl rfl trivial
      · refine tracks_quiet h rfl rfl ?_
        dsimp only
        split <;> trivial
      · exact tracks_quiet h rfl rfl trivial
  | exitAcquiringLocal x =>
      cases answer <;> cases hs <;> exact tracks_quiet h rfl rfl trivial
  | exitExecuting x =>
      cases answer <;> cases hs
      · rename_i result
        refine tracks_quiet h holdersOf_settle ?_ ?_
        · cases (if x.legging = true then uncertaintyOf result else .clean) <;> rfl
        · cases (if x.legging = true then uncertaintyOf result else .clean) <;> trivial
      · exact tracks_quiet h holdersOf_holdOnUncertainty rfl trivial
  | settling id opportunityId result r =>
      obtain ⟨progress, -, rfl⟩ := Option.map_eq_some_iff.mp hs
      exact tracks_resumeRelease h (fun _ => trivial) (tracks_quiet h rfl rfl trivial)
        (tracks_quiet h holdersOf_holdOnUncertainty rfl trivial)
  | claiming hold =>
      refine tracks_resumeHold (fun held => .finish (.claimed held)) h (fun hgrants => ?_)
        (fun id hid => absurd hid (hsound.2 id)) (fun _ => trivial) hs
      cases answer <;> cases hgrants
      exact hkeeps.records hold rfl
  | dropping r =>
      obtain ⟨progress, -, rfl⟩ := Option.map_eq_some_iff.mp hs
      exact tracks_resumeRelease h (fun _ => trivial) (tracks_quiet h rfl rfl trivial)
        (tracks_quiet h rfl rfl trivial)
  | renewing r =>
      obtain ⟨progress, -, rfl⟩ := Option.map_eq_some_iff.mp hs
      exact tracks_finishRenewal h
  | tickActive now children =>
      cases answer <;> cases hs
      exact tracks_ofTick h tickHolds_traced
  | tickHolds now id r rest =>
      obtain ⟨progress, -, rfl⟩ := Option.map_eq_some_iff.mp hs
      exact tracks_finishHoldRenewal h
  | tickClaims claimKey r rest =>
      obtain ⟨progress, -, rfl⟩ := Option.map_eq_some_iff.mp hs
      exact tracks_finishClaimRenewal h

end Stretches

open Gateway

/-- An underlying is held exactly while some holder depends on it, and by each of them. -/
structure HeldExactlyWhileNeeded (p : Process) : Prop where
  held_iff : ∀ claimKey, p.gateway.positionClaims.has claimKey = true ↔
    ∃ d ∈ p.dependents, d.claimKey = claimKey
  holders : ∀ d ∈ p.dependents, ∃ claim,
    p.gateway.positionClaims.get? d.claimKey = some claim ∧ d.holder ∈ claim.holders

/-- The invariant: the claims count the dependents, every method's pipeline depends on
what its `await` says, and executions still to be minted depend on nothing. -/
structure Tracked (cfg : BoxConfig) (p : Process) : Prop extends Registered p where
  counts : Counts p.gateway.holdersOf (Depends p.dependents)
  traced : ∀ (t : TaskId) (task : Task), p.tasks[t]? = some task → task.Traced cfg p.dependents
  unheld : ∀ id : OwnerId, p.gateway.seq < id.seq → Unheld p.dependents id

namespace Tracked

variable {cfg : BoxConfig} {p p' : Process} {a : Label}

theorem initial : Tracked cfg {} where
  toRegistered := .initial
  counts := Counts.empty.congr (fun _ => rfl) fun _ _ => ⟨fun ⟨_, h⟩ => (by cases h), False.elim⟩
  traced t task h := by simp at h
  unheld id _ d hd := by cases hd

theorem heldExactly (h : Tracked cfg p) : HeldExactlyWhileNeeded p where
  held_iff claimKey := by
    rw [← holdersOf_isSome, h.counts.held_iff]
    constructor
    · rintro ⟨holder, underlying, hd⟩
      exact ⟨_, hd, rfl⟩
    · rintro ⟨d, hd, rfl⟩
      exact ⟨d.holder, d.underlying, hd⟩
  holders d hd := by
    obtain ⟨holders, hk, hmem⟩ := h.counts.holder (k := d.claimKey) (u := d.holder)
      ⟨d.underlying, hd⟩
    obtain ⟨claim, hclaim, rfl⟩ := Option.map_eq_some_iff.mp hk
    exact ⟨claim, hclaim, hmem⟩

theorem begin_tracks {w : World} {operation : Operation} (h : Tracked cfg p)
    (hkeeps : KeepsCount cfg p (.start w operation)) :
    (p.begin cfg w operation).Tracks cfg (operation.mints p.gateway) p.dependents := by
  cases operation with
  | entry legging candidate =>
      let e := newEntry cfg w (p.gateway.mintId "entry").1 legging candidate
      have hunheld : Unheld p.dependents e.executionId := h.unheld _ (Nat.lt_succ_self _)
      exact tracks_prologue (g := (p.gateway.mintId "entry").2) (e := e) h.counts hunheld
  | exit legging position => exact tracks_quiet h.counts rfl rfl trivial
  | claimUnderlyingForPosition underlying tradeId =>
      exact tracks_claimUnderlying h.counts nofun
  | releaseUnderlyingForPosition underlying tradeId =>
      exact tracks_releaseUnderlying h.counts nofun hkeeps
  | claimUnderlyingForResidual underlying attemptId =>
      exact tracks_claimUnderlying h.counts nofun
  | releaseUnderlyingForResidual underlying attemptId =>
      exact tracks_releaseUnderlying h.counts nofun hkeeps
  | renewTick =>
      simp only [Process.begin, renewTick]
      split
      · exact tracks_quiet h.counts rfl rfl trivial
      · exact tracks_quiet h.counts rfl rfl trivial

/-- The rule for a stretch. -/
theorem stretch {own : Option OwnerId} {s : Stretch} {t : TaskId} (h : Tracked cfg p)
    (hadv : Advances p p' own t s) (hs : s.Tracks cfg own p.dependents) : Tracked cfg p' := by
  have hothers : ∀ id, own ≠ some id → ∀ d : Dependent, d.holder = .pipeline id →
      (d ∈ p'.dependents ↔ d ∈ p.dependents) := by
    intro id hne d hd
    rw [hadv.dependents]
    refine mem_foldl_record fun event hmem heq => hne ?_
    exact hs.events event hmem id (heq.trans hd)
  refine ⟨h.toRegistered.stretch hadv, ?_, fun u task hu => ?_, fun id hid => ?_⟩
  · rw [hadv.gateway, hadv.dependents]
    exact hs.counts
  · obtain ⟨rfl, rfl⟩ | ⟨hne, hu⟩ | ⟨frame, hf, rfl⟩ := hadv.tasks u task hu
    · rw [hadv.dependents]
      exact Next.traced_task.mpr hs.next
    · have hkept := h.traced u task hu
      cases task with
      | done outcome => trivial
      | suspended frame answer =>
          exact Frame.Traced.congr hkept fun id hid =>
            hothers id fun heq => (hadv.own id heq).2 u _ hne hu hid
    · exact Frame.traced_unowned (hadv.follows.spawned frame hf).1
  · rw [hadv.gateway] at hid
    have hne : own ≠ some id := fun heq => absurd (hadv.own id heq).1.2 (Nat.not_le.mpr hid)
    exact (h.unheld id (Nat.lt_of_le_of_lt hadv.follows.spares.seq hid)).congr (hothers id hne)

theorem step (h : Tracked cfg p) (hkeeps : KeepsCount cfg p a) (hstep : p.step cfg a = some p') :
    Tracked cfg p' := by
  have hreg : Registered p' := h.toRegistered.step hstep
  obtain ⟨w, operation, rfl, hadv⟩ | ⟨t, frame, answer, leases, rfl, ht, -, rfl⟩ |
    ⟨w, t, frame, answer, s, rfl, ht, hs, hadv⟩ | ⟨tier, owner, rfl, rfl⟩ :=
      h.toRegistered.step_cases hstep
  · exact h.stretch hadv (h.begin_tracks hkeeps)
  · refine ⟨hreg, h.counts, fun u task hu => ?_, h.unheld⟩
    obtain ⟨rfl, rfl⟩ | ⟨-, hu⟩ := Process.tasks_setTask hu
    · have hkept := h.traced u _ ht
      exact hkept
    · exact h.traced u task hu
  · refine h.stretch hadv (Frame.resume_tracks h.counts (h.agrees t _ ht) (h.traced t _ ht) ?_ hs)
    simpa [KeepsCount, ht] using hkeeps
  · exact ⟨hreg, h.counts, h.traced, h.unheld⟩

end Tracked

/-- Throughout every run whose drops address the claims their holders are recorded
under, whose granted holds find no other claim, and whose entries all drop their
pipeline holds, an underlying is held exactly while something depends on it. -/
theorem held_exactly_while_needed (cfg : BoxConfig) (labels : List Label)
    (h : Machine.Heeds (Process.step cfg) (KeepsCount cfg) {} labels) :
    Machine.Throughout (Process.step cfg) HeldExactlyWhileNeeded {} labels :=
  (Machine.Throughout.of_heeds (fun _ _ _ hi hc hstep => Tracked.step hi hc hstep)
    Tracked.initial h).mono fun _ => Tracked.heldExactly

section Ambiguous

/-- An entry up to the execution of its legs, as task 0. -/
def enterRun : List Label :=
  [.start {} (.entry true (sampleBox "BOX-1" "RELIANCE")), .answer 0 (.acquired 100 1 .durable),
    .resume {} 0, .answer 0 .turn, .resume {} 0, .answer 0 (.acquired 100 2 .durable),
    .resume {} 0, .answer 0 .turn, .resume {} 0]

/-- The entry settles ambiguously, and its residual exposure is registered and resolved. -/
def ambiguousRun : List Label :=
  enterRun ++ [.answer 0 (.executed { ok := false, reason := some .leggingIncomplete }),
    .resume {} 0, .answer 0 .turn, .resume {} 0,
    .start {} (.claimUnderlyingForResidual "RELIANCE" "A1"),
    .start {} (.releaseUnderlyingForResidual "RELIANCE" "A1")]

/-- Nothing depends on the underlying any more, and it is still held. -/
theorem ambiguousRun_retains :
    ¬Machine.Throughout (Process.step restricted) HeldExactlyWhileNeeded {} ambiguousRun := by
  intro h
  obtain ⟨p, hrun⟩ : ∃ p, Machine.run (Process.step restricted) {} ambiguousRun = some p :=
    Option.isSome_iff_exists.mp (by decide)
  have hend : (Machine.run (Process.step restricted) {} ambiguousRun).all fun p =>
      p.dependents = [] ∧ p.gateway.positionClaims.has "ZERODHA:RELIANCE" = true := by decide
  simp only [hrun, Option.all_some, decide_eq_true_eq] at hend
  obtain ⟨hnone, hheld⟩ := hend
  obtain ⟨d, hd, -⟩ := ((h.last hrun).held_iff _).mp hheld
  rw [hnone] at hd
  cases hd

/-- The entry establishes a trade, a residual joins, the heartbeat renews the claim, and
the last release gives the underlying back. -/
def establishedRun : List Label :=
  enterRun ++ [.answer 0 (.executed { ok := true, tradeId := some "T1" }), .resume {} 0,
    .answer 0 .turn, .resume {} 0, .start {} (.claimUnderlyingForResidual "RELIANCE" "A1"),
    .start {} .renewTick, .answer 2 .settled, .resume {} 2, .answer 2 (.renewed 200 3),
    .resume {} 2, .start {} (.releaseUnderlyingForPosition "RELIANCE" "T1"),
    .answer 2 (.renewed 200 3), .resume {} 2,
    .start {} (.releaseUnderlyingForResidual "RELIANCE" "A1"), .answer 4 .released, .resume {} 4]

theorem held_exactly_while_needed_establishedRun :
    Machine.Throughout (Process.step restricted) HeldExactlyWhileNeeded {} establishedRun :=
  held_exactly_while_needed restricted establishedRun (by decide)

end Ambiguous

end Strikedge.Coordinator
