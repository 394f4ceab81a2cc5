import Strikedge.OrderStream.Sessions

/-!
# Sweeps

A sweep is registered before it runs, so there is one of each generation at most. Its
verdict counts only for the generation it was started in, and its registration is cleared
only while it is its own.
-/

namespace Strikedge.OrderStream

open Machine Orders StreamHealth

section Sweeps

variable {v : View} {sweeps : List RunningSweep} {log : List Happening}
variable {sweep : RunningSweep}

/-- Registering a sweep where none of this generation is registered. -/
theorem Sound.start (h : Sound v sweeps log) (nextBarrier : Nat)
    (hfree : ¬ (v.inFlight.isSome = true ∧ v.inFlightGeneration = some v.machine.gen))
    (hpending : v.machine.reconcileOwed = true ∨ v.projOwed = true) :
    Sound { v with inFlight := some nextBarrier, inFlightGeneration := some v.machine.gen }
      (sweeps ++ [⟨nextBarrier, v.machine.gen, false⟩])
      (log ++ [.started nextBarrier v.machine.gen]) := by
  have hnone : ∀ w ∈ sweeps, w.settled = false → w.generation ≠ v.machine.gen := by
    intro w hw hsettled hgen
    obtain ⟨hflight, hgeneration⟩ := h.registered w hw hsettled hgen
    exact hfree ⟨by rw [hflight]; rfl, hgeneration⟩
  have hnew : ∀ w ∈ sweeps ++ [(⟨nextBarrier, v.machine.gen, false⟩ : RunningSweep)],
      w.settled = false → w.generation = v.machine.gen →
        w = ⟨nextBarrier, v.machine.gen, false⟩ := by
    intro w hw hsettled hgen
    obtain hw | hw := List.mem_append.mp hw
    · exact absurd hgen (hnone w hw hsettled)
    · exact List.mem_singleton.mp hw
  have howed : v.machine.isEstablished = true → v.machine.reconcileOwed = true := by
    intro hest
    cases hdebt : v.machine.reconcileOwed with
    | true => rfl
    | false =>
        have hproj := h.clear hest hdebt
        rw [hdebt, hproj] at hpending
        simp at hpending
  refine ⟨h.synced, h.reconciling, h.ready, h.clear, ?_, ?_, ?_, ?_, ?_⟩
  · intro w hw
    obtain hw | hw := List.mem_append.mp hw
    · exact h.bounded w hw
    · rw [List.mem_singleton.mp hw]
  · intro w hw hsettled hgen
    rw [hnew w hw hsettled hgen]
    exact ⟨rfl, rfl⟩
  · exact fun hest _ _ _ _ => howed hest
  · intro _ w hw hsettled hgen
    rw [hnew w hw hsettled hgen]
    exact ⟨log, [], rfl, List.not_mem_nil⟩
  · exact fun hready => (h.earned hready).append (by simp) (by simp)

/-- Settling a sweep marks that one and leaves the others. -/
theorem mem_settled {w : RunningSweep}
    (hw : w ∈ markSettled sweeps sweep.barrier)
    (hsettled : w.settled = false) : w ∈ sweeps ∧ w.barrier ≠ sweep.barrier := by
  obtain ⟨w', hw', rfl⟩ := List.mem_map.mp hw
  split at hsettled
  · cases hsettled
  case isFalse hne => exact ⟨by rwa [if_neg hne], by rwa [if_neg hne]⟩

theorem settled_bounded {gen : Nat} (h : ∀ w ∈ sweeps, w.generation ≤ gen) :
    ∀ w ∈ markSettled sweeps sweep.barrier, w.generation ≤ gen := by
  intro w hw
  obtain ⟨w', hw', rfl⟩ := List.mem_map.mp hw
  split <;> exact h w' hw'

/-- A verdict that is not applied. -/
theorem Sound.discard (h : Sound v sweeps log) (consistent : Bool) :
    Sound v (markSettled sweeps sweep.barrier)
      (log ++ [.concluded sweep.barrier consistent]) where
  synced := h.synced
  reconciling := h.reconciling
  ready := h.ready
  clear := h.clear
  bounded := settled_bounded h.bounded
  registered w hw hsettled := h.registered w (mem_settled hw hsettled).1 hsettled
  owed hest w hw hsettled := h.owed hest w (mem_settled hw hsettled).1 hsettled
  begun hest w hw hsettled hgen :=
    (h.begun hest w (mem_settled hw hsettled).1 hsettled hgen).append (by simp)
  earned hready := (h.earned hready).append (by simp) (by simp)

/-- The one sweep of the current generation concludes consistently. -/
theorem Sound.synchronize (h : Sound v sweeps log) (hsweep : sweep ∈ sweeps)
    (hrunning : sweep.settled = false) (hgen : sweep.generation = v.machine.gen)
    (hlive : v.machine.current ≠ .disabled) {streamState : OrderStreamState}
    (hstream : streamState ≠ .disabled) :
    Sound { v with
        machine := (v.machine.markSynchronized (some sweep.generation)).2
        streamState := streamState
        projOwed := false }
      (markSettled sweeps sweep.barrier) (log ++ [.concluded sweep.barrier true]) := by
  rw [OrderStreamStateMachine.markSynchronized_applied hlive hgen]
  have hnone : ∀ w ∈ markSettled sweeps sweep.barrier, w.settled = false →
      w.generation ≠ v.machine.gen := by
    intro w hw hsettled hwgen
    obtain ⟨hmem, hne⟩ := mem_settled hw hsettled
    have hw' := (h.registered w hmem hsettled hwgen).1
    rw [(h.registered sweep hsweep hrunning hgen).1] at hw'
    exact hne (Option.some.inj hw').symm
  have hready : (if v.machine.current = .reconciling ∨ v.machine.current = .degraded then
      OrderStreamLifecycleState.ready else v.machine.current) = .ready →
      v.machine.isEstablished = true := by
    intro hcurrent
    split at hcurrent
    case isTrue hcase =>
      obtain hcase | hcase := hcase <;> rw [OrderStreamStateMachine.isEstablished, hcase]
    case isFalse => rw [OrderStreamStateMachine.isEstablished, hcurrent]
  refine ⟨?_, ?_, fun _ => rfl, fun _ _ => rfl, settled_bounded h.bounded,
    ?_, ?_, ?_, ?_⟩
  · refine iff_of_false ?_ hstream
    show (if _ then _ else _ : OrderStreamLifecycleState) ≠ .disabled
    split
    · simp
    · exact hlive
  · intro hcurrent
    have hcurrent : (if v.machine.current = .reconciling ∨ v.machine.current = .degraded then
        OrderStreamLifecycleState.ready else v.machine.current) = .reconciling := hcurrent
    split at hcurrent
    · cases hcurrent
    case isFalse hcase => exact absurd (.inl hcurrent) hcase
  · exact fun w hw hsettled hwgen => absurd hwgen (hnone w hw hsettled)
  · exact fun _ w hw hsettled hwgen => absurd hwgen (hnone w hw hsettled)
  · exact fun _ w hw hsettled hwgen => absurd hwgen (hnone w hw hsettled)
  · intro hcurrent
    have hbegun := h.begun (hready hcurrent) sweep hsweep hrunning hgen
    rw [← hgen]
    exact hbegun.concluded

/-- Releasing a settled sweep clears no other sweep's registration. -/
theorem Sound.release (h : Sound v sweeps log) {barrier : Nat} {v' : View}
    (hmachine : v'.machine = v.machine) (hstream : v'.streamState = v.streamState)
    (hproj : v'.projOwed = v.projOwed)
    (hflight : v.inFlight ≠ some barrier →
      v'.inFlight = v.inFlight ∧ v'.inFlightGeneration = v.inFlightGeneration) :
    Sound v' (sweeps.filter (·.barrier ≠ barrier)) log := by
  have hmem {w : RunningSweep} (hw : w ∈ sweeps.filter (·.barrier ≠ barrier)) :
      w ∈ sweeps ∧ w.barrier ≠ barrier := by simpa using List.mem_filter.mp hw
  refine ⟨?_, ?_, ?_, ?_, ?_, ?_, ?_, ?_, ?_⟩
  · rw [Synced, hmachine, hstream]
    exact h.synced
  · rw [hmachine]
    exact h.reconciling
  · rw [hmachine]
    exact h.ready
  · rw [hmachine, hproj]
    exact h.clear
  · intro w hw
    rw [hmachine]
    exact h.bounded w (hmem hw).1
  · intro w hw hsettled hgen
    rw [hmachine] at hgen ⊢
    have hregistered := h.registered w (hmem hw).1 hsettled hgen
    have hother : v.inFlight ≠ some barrier := by
      rw [hregistered.1]
      exact fun hsame => (hmem hw).2 (Option.some.inj hsame)
    rw [(hflight hother).1, (hflight hother).2]
    exact hregistered
  · intro hest w hw hsettled hgen
    rw [hmachine] at hest hgen ⊢
    exact h.owed hest w (hmem hw).1 hsettled hgen
  · intro hest w hw hsettled hgen
    rw [hmachine] at hest hgen
    exact h.begun hest w (hmem hw).1 hsettled hgen
  · rw [hmachine]
    exact h.earned

end Sweeps

namespace OrderStreamConsumer

variable {c : OrderStreamConsumer} {generation barrier : Nat} {result : SweepEnd} {now : ℚ}

theorem view_noteSweepFailure (reason : String) :
    (c.noteSweepFailure generation reason now).view = c.view := by
  rw [noteSweepFailure]
  dsimp only
  split <;> rfl

/-- A verdict that is inconsistent, late or given to a stream that is off changes nothing. -/
theorem view_finishSweep_of_refused
    (h : result.consistent = true → generation = c.machine.gen → c.machine.current = .disabled) :
    (c.finishSweep generation result now).view = c.view := by
  cases result with
  | threw message => exact view_noteSweepFailure _
  | resolved outcome =>
      rw [finishSweep]
      split
      · rfl
      case isFalse hgen =>
        split
        · exact view_noteSweepFailure _
        case isFalse hconsistent =>
          have hoff := h (by simpa [SweepEnd.consistent] using hconsistent) (not_ne_iff.mp hgen)
          rw [OrderStreamStateMachine.markSynchronized, if_pos hoff]
          rfl

/-- A consistent verdict of the current generation settles both debts. -/
theorem view_finishSweep (hconsistent : result.consistent = true)
    (hgen : generation = c.machine.gen) (hlive : c.machine.current ≠ .disabled)
    (hstream : c.proj.streamState ≠ .disabled) :
    ∃ streamState, streamState ≠ OrderStreamState.disabled ∧
      (c.finishSweep generation result now).view =
        { c.view with
          machine := (c.machine.markSynchronized (some generation)).2
          streamState := streamState
          projOwed := false } := by
  cases result with
  | threw message => cases hconsistent
  | resolved outcome =>
      have hmark : (c.machine.markSynchronized (some generation)).1 = true := by
        rw [OrderStreamStateMachine.markSynchronized_applied hlive hgen]
      have hproj : c.proj.markReconciled.streamState ≠ .disabled ∧
          c.proj.markReconciled.reconcileOwed = false := by
        rw [OrderUpdateProjection.markReconciled, if_neg hstream]
        split
        · exact ⟨nofun, rfl⟩
        · exact ⟨hstream, rfl⟩
      have hclean : ¬ outcome.any (!·.synchronized) = true := by
        simpa [SweepEnd.consistent] using hconsistent
      refine ⟨c.proj.markReconciled.streamState, hproj.1, ?_⟩
      rw [finishSweep, if_neg (not_ne_iff.mpr hgen), if_neg hclean]
      dsimp only
      rw [if_pos hmark, view, view, hproj.2]

theorem view_releaseSweep (c : OrderStreamConsumer) (barrier : Nat) :
    (c.releaseSweep barrier).view.machine = c.view.machine ∧
      (c.releaseSweep barrier).view.streamState = c.view.streamState ∧
      (c.releaseSweep barrier).view.projOwed = c.view.projOwed := by
  rw [releaseSweep]
  split <;> exact ⟨rfl, rfl, rfl⟩

theorem releaseSweep_of_ne (h : c.sweepInFlight ≠ some barrier) : c.releaseSweep barrier = c :=
  if_neg h

/-- A sweep is started where one is owed and none of this generation is registered. -/
theorem runReconnectReconciliation_cases (c : OrderStreamConsumer) (barrier : Nat) :
    (∃ consumer, c.runReconnectReconciliation barrier = (none, consumer) ∧
        consumer.view = c.view) ∨
      (c.sweepInFlight.isSome = true → c.sweepInFlightGeneration ≠ some c.machine.gen) ∧
        (c.machine.reconcileOwed = true ∨ c.proj.reconcileOwed = true) ∧
        c.runReconnectReconciliation barrier = (some c.machine.gen,
          { c with
            sweepInFlight := some barrier
            sweepInFlightGeneration := some c.machine.gen }) := by
  rw [runReconnectReconciliation]
  split
  · exact .inl ⟨c, rfl, rfl⟩
  case isFalse hjoins =>
    split
    · exact .inl ⟨c, rfl, rfl⟩
    case isFalse hpending =>
      split
      · exact .inl ⟨_, rfl, rfl⟩
      · refine .inr ⟨?_, ?_, rfl⟩
        · simpa [joinsSweep] using hjoins
        · rw [reconcilePending, Bool.not_eq_true', Bool.not_eq_false, Bool.or_eq_true] at hpending
          exact hpending

/-- Nothing arrived for longer than the bound while a working order was outstanding. -/
def IsSilent (c : OrderStreamConsumer) (now : ℚ) : Prop :=
  c.workingOrders ≠ [] ∧
    ∃ since, c.lastStreamEventAtWall = some since ∧ now - since > c.expectedIdleMs

theorem evaluateIdle_of_silent (h : c.IsSilent now)
    (hcurrent : c.machine.current = .ready ∨ c.machine.current = .reconciling) :
    c.evaluateIdle now = c.onIdle := by
  obtain ⟨hworking, since, hsince, hlong⟩ := h
  have hcurrent' : ¬ (c.machine.current ≠ .ready ∧ c.machine.current ≠ .reconciling) := by
    rwa [not_and_or, not_ne_iff, not_ne_iff]
  rw [evaluateIdle, if_neg hworking, if_neg hcurrent', hsince]
  exact if_pos hlong

/-- Silence demotes what was there to demote, or nothing happens. -/
theorem evaluateIdle_cases (c : OrderStreamConsumer) (now : ℚ) :
    c.evaluateIdle now = c ∨ c.IsSilent now ∧ c.evaluateIdle now = c.onIdle := by
  by_cases hsilent : c.IsSilent now
  · by_cases hcurrent : c.machine.current = .ready ∨ c.machine.current = .reconciling
    · exact .inr ⟨hsilent, evaluateIdle_of_silent hsilent hcurrent⟩
    · rw [not_or] at hcurrent
      apply Or.inl
      rw [evaluateIdle, if_pos hcurrent, ite_self]
  · apply Or.inl
    rw [evaluateIdle]
    split
    · rfl
    case isFalse hworking =>
      split
      · rfl
      · split
        · rfl
        case h_2 since hsince =>
          apply if_neg
          exact fun hlong => hsilent ⟨hworking, since, hsince, hlong⟩

end OrderStreamConsumer

namespace Stream

/-- The invariant, of a state of a run. -/
def IsSound (s : Stream) : Prop := Sound s.consumer.view s.sweeps s.log

variable {s t : Stream} {consumer : OrderStreamConsumer} {hs : List Happening}

theorem isSound_new (opts : OrderStreamConsumerOptions) : (new opts).IsSound where
  synced := by
    show (OrderStreamStateMachine.new opts.streamEnabled).current = .disabled ↔
      (OrderUpdateProjection.setStreamEnabled {} opts.streamEnabled).streamState = .disabled
    cases opts.streamEnabled <;> exact by decide
  reconciling := by
    show (OrderStreamStateMachine.new opts.streamEnabled).current = .reconciling → _
    cases opts.streamEnabled <;> exact nofun
  ready := by
    show (OrderStreamStateMachine.new opts.streamEnabled).current = .ready → _
    cases opts.streamEnabled <;> exact nofun
  clear := by
    show (OrderStreamStateMachine.new opts.streamEnabled).isEstablished = true → _
    cases opts.streamEnabled <;> exact nofun
  bounded := nofun
  registered := nofun
  owed _ := nofun
  begun _ := nofun
  earned := by
    show (OrderStreamStateMachine.new opts.streamEnabled).current = .ready → _
    cases opts.streamEnabled <;> exact nofun

/-- The label reports silence. -/
def demotes (s : Stream) : Callback → Prop
  | .idle => True
  | .evaluateIdle now => s.consumer.IsSilent now
  | _ => False

/-- What the consumer is left with when a sweep's registration is cleared. -/
def released (s : Stream) (barrier : Nat) : Stream :=
  { s with
    consumer := s.consumer.releaseSweep barrier
    sweeps := s.sweeps.filter (·.barrier ≠ barrier) }

/-- A callback that is no continuation of a sweep, and starts none. -/
structure Lets (s : Stream) (a : Callback) (t : Stream) (hs : List Happening) : Prop where
  follows : Follows s.consumer.view t.consumer.view hs
  sweeps : t.sweeps = s.sweeps
  log : t.log = s.log ++ hs
  idled : .idled ∈ hs → s.demotes a

variable {a : Callback}

/-- A callback that leaves the sessions alone. -/
theorem lets_same (hview : consumer.view = s.consumer.view) (hdropped : .dropped ∉ hs)
    (hidled : .idled ∉ hs) : Lets s a (s.become consumer hs) hs where
  follows := by
    show Follows s.consumer.view consumer.view hs
    rw [hview]
    exact follows_same hdropped hidled
  sweeps := rfl
  log := rfl
  idled h := absurd h hidled

theorem lets_quiet (hview : consumer.view = s.consumer.view) : Lets s a (s.become consumer) [] :=
  lets_same hview List.not_mem_nil List.not_mem_nil

/-- A callback of the lifecycle, other than one that reports silence. -/
theorem lets_follow (hv : Follows s.consumer.view consumer.view hs) (hidled : .idled ∉ hs) :
    Lets s a (s.become consumer hs) hs :=
  ⟨hv, rfl, rfl, fun h => absurd h hidled⟩

theorem lets_onIdle (h : s.IsSound) (ha : s.demotes a) :
    Lets s a (s.become s.consumer.onIdle (s.idling s.consumer.onIdle))
      (s.idling s.consumer.onIdle) := by
  refine ⟨?_, rfl, rfl, fun _ => ha⟩
  by_cases hcurrent : s.consumer.machine.current = .ready ∨
      s.consumer.machine.current = .reconciling
  · have hmoved : s.idling s.consumer.onIdle = [.idled] := by
      apply if_pos
      show s.consumer.machine.onIdle.current ≠ _
      rw [OrderStreamStateMachine.onIdle, if_pos hcurrent]
      obtain hcurrent | hcurrent := hcurrent <;> (rw [hcurrent]; simp)
    rw [hmoved]
    exact follows_onIdle h.synced hcurrent
  · have hmachine : s.consumer.machine.onIdle = s.consumer.machine := if_neg hcurrent
    have hkept : s.idling s.consumer.onIdle = [] := by
      apply if_neg
      show ¬ s.consumer.machine.onIdle.current ≠ _
      rw [hmachine]
      exact not_ne_iff.mpr rfl
    have hproj : (s.consumer.proj.onStreamIdle.streamState = .disabled ↔
        s.consumer.proj.streamState = .disabled) ∧
        s.consumer.proj.onStreamIdle.reconcileOwed = s.consumer.proj.reconcileOwed := by
      rw [OrderUpdateProjection.onStreamIdle]
      split
      case isTrue hlive =>
        refine ⟨iff_of_false (by simp) ?_, rfl⟩
        obtain hlive | hlive := hlive <;> (rw [hlive]; simp)
      case isFalse => exact ⟨Iff.rfl, rfl⟩
    have hview : s.consumer.onIdle.view.machine = s.consumer.view.machine := hmachine
    rw [hkept]
    show Follows s.consumer.view s.consumer.onIdle.view []
    exact follows_kept (by rw [hview]) (by rw [hview]) (by rw [hview]) hproj.1 hproj.2
      ⟨rfl, rfl⟩ List.not_mem_nil List.not_mem_nil

theorem lets_evaluateIdle (h : s.IsSound) (now : ℚ) :
    Lets s (.evaluateIdle now)
      (s.become (s.consumer.evaluateIdle now) (s.idling (s.consumer.evaluateIdle now)))
      (s.idling (s.consumer.evaluateIdle now)) := by
  obtain hsame | ⟨hsilent, hidle⟩ := s.consumer.evaluateIdle_cases now
  · rw [hsame]
    have hkept : s.idling s.consumer = [] := if_neg (not_ne_iff.mpr rfl)
    rw [hkept]
    exact lets_quiet rfl
  · rw [hidle]
    exact lets_onIdle h hsilent

/-- What one step can do, one case for each callback. -/
theorem step_cases (h : s.IsSound) (hstep : s.step a = some t) :
    (∃ hs, Lets s a t hs) ∨ t = s ∨ t = s.startSweep ∨
      (∃ sweep ∈ s.sweeps, ∃ result now, sweep.settled = false ∧
        a = .sweepEnds sweep.barrier result now ∧ t = s.endSweep sweep result now) ∨
      ∃ barrier, t = s.released barrier := by
  cases a with
  | connecting =>
      cases hstep
      exact .inl ⟨_, lets_follow (follows_onConnecting h.synced) List.not_mem_nil⟩
  | «open» =>
      cases hstep
      exact .inl ⟨_, lets_follow (follows_onSocketOpen h.synced) List.not_mem_nil⟩
  | ready evidence now =>
      cases hstep
      exact .inl ⟨_, lets_follow (follows_onAuthenticated h.synced evidence) List.not_mem_nil⟩
  | frame obs now sink =>
      cases hstep
      refine .inl ⟨_, lets_same view_ingestStream ?_ ?_⟩
      · split <;> simp
      · split <;> simp
  | rest obs source now sink =>
      cases hstep
      exact .inl ⟨_, lets_quiet (view_ingestRest source)⟩
  | idle =>
      cases hstep
      exact .inl ⟨_, lets_onIdle h trivial⟩
  | evaluateIdle now =>
      cases hstep
      exact .inl ⟨_, lets_evaluateIdle h now⟩
  | close =>
      cases hstep
      exact .inl ⟨_, lets_follow (follows_onDisconnected h.synced) (by simp)⟩
  | authFailure =>
      cases hstep
      exact .inl ⟨_, lets_follow (follows_onSessionLost h.synced) (by simp)⟩
  | setStreamEnabled enabled =>
      cases hstep
      refine .inl ⟨_, lets_follow (follows_setStreamEnabled h.synced enabled) ?_⟩
      split <;> simp
  | restVerified =>
      cases hstep
      exact .inl ⟨_, lets_follow follows_noteRestVerifiedSession List.not_mem_nil⟩
  | register args account =>
      cases hstep
      exact .inl ⟨_, lets_quiet (view_registerIntent args account)⟩
  | settle clientOrderId =>
      cases hstep
      exact .inl ⟨_, lets_quiet rfl⟩
  | learn clientOrderId brokerOrderId =>
      cases hstep
      exact .inl ⟨_, lets_quiet (view_learn brokerOrderId)⟩
  | reconcile =>
      cases hstep
      exact .inr (.inr (.inl rfl))
  | ensureReconciled now =>
      have ht := Option.some.inj hstep
      split at ht
      · exact .inr (.inr (.inl ht.symm))
      · exact .inr (.inl ht.symm)
  | sweepEnds barrier result now =>
      obtain ⟨sweep, hfind, rfl⟩ := Option.map_eq_some_iff.mp hstep
      have hfound := List.find?_some hfind
      obtain ⟨rfl, hrunning⟩ := of_decide_eq_true hfound
      exact .inr (.inr (.inr (.inl
        ⟨sweep, List.mem_of_find?_eq_some hfind, result, now, hrunning, rfl, rfl⟩)))
  | sweepReleases barrier =>
      obtain ⟨sweep, -, rfl⟩ := Option.map_eq_some_iff.mp hstep
      exact .inr (.inr (.inr (.inr ⟨barrier, rfl⟩)))

theorem startSweep_machine : s.startSweep.consumer.machine = s.consumer.machine := by
  rw [Stream.startSweep]
  obtain ⟨consumer, hstart, hview⟩ | ⟨-, -, hstart⟩ :=
    s.consumer.runReconnectReconciliation_cases s.nextBarrier
  · rw [hstart]
    exact congrArg View.machine hview
  · rw [hstart]

theorem IsSound.startSweep (h : s.IsSound) : s.startSweep.IsSound := by
  rw [Stream.startSweep]
  obtain ⟨consumer, hstart, hview⟩ | ⟨hjoins, hpending, hstart⟩ :=
    s.consumer.runReconnectReconciliation_cases s.nextBarrier
  · rw [hstart]
    show Sound consumer.view _ _
    rw [hview]
    exact h
  · rw [hstart]
    apply Sound.start h s.nextBarrier
    · exact fun hregistered => hjoins hregistered.1 hregistered.2
    · exact hpending

/-- A verdict is applied or it changes nothing. -/
theorem endSweep_cases (h : s.IsSound) (sweep : RunningSweep)
    (result : OrderStreamConsumer.SweepEnd) (now : ℚ) :
    (s.endSweep sweep result now).consumer.view = s.consumer.view ∨
      result.consistent = true ∧ sweep.generation = s.consumer.machine.gen ∧
        s.consumer.machine.current ≠ .disabled ∧
        ∃ streamState, streamState ≠ OrderStreamState.disabled ∧
          (s.endSweep sweep result now).consumer.view =
            { s.consumer.view with
              machine := (s.consumer.machine.markSynchronized (some sweep.generation)).2
              streamState := streamState
              projOwed := false } := by
  by_cases happlies : result.consistent = true ∧ sweep.generation = s.consumer.machine.gen ∧
      s.consumer.machine.current ≠ .disabled
  · obtain ⟨hconsistent, hgen, hlive⟩ := happlies
    exact .inr ⟨hconsistent, hgen, hlive, OrderStreamConsumer.view_finishSweep hconsistent hgen
      hlive (mt h.synced.mpr hlive)⟩
  · apply Or.inl
    apply OrderStreamConsumer.view_finishSweep_of_refused
    intro hconsistent hgen
    by_contra hlive
    exact happlies ⟨hconsistent, hgen, hlive⟩

theorem IsSound.endSweep (h : s.IsSound) {sweep : RunningSweep} (hsweep : sweep ∈ s.sweeps)
    (hrunning : sweep.settled = false) (result : OrderStreamConsumer.SweepEnd) (now : ℚ) :
    (s.endSweep sweep result now).IsSound := by
  show Sound (s.endSweep sweep result now).consumer.view (markSettled s.sweeps sweep.barrier)
    (s.log ++ [.concluded sweep.barrier result.consistent])
  obtain hview | ⟨hconsistent, hgen, hlive, streamState, hstream, hview⟩ :=
    endSweep_cases h sweep result now
  · rw [hview]
    exact Sound.discard h result.consistent
  · rw [hview, hconsistent]
    exact Sound.synchronize h hsweep hrunning hgen hlive hstream

theorem IsSound.released (h : s.IsSound) (barrier : Nat) : (s.released barrier).IsSound := by
  obtain ⟨hmachine, hstream, hproj⟩ :=
    s.consumer.view_releaseSweep barrier
  refine Sound.release h hmachine hstream hproj fun hother => ?_
  show (s.consumer.releaseSweep barrier).sweepInFlight = _ ∧
    (s.consumer.releaseSweep barrier).sweepInFlightGeneration = _
  rw [OrderStreamConsumer.releaseSweep_of_ne hother]
  exact ⟨rfl, rfl⟩

/-- The step lemma. -/
theorem step_isSound (s : Stream) (a : Callback) (t : Stream) (h : s.IsSound)
    (hstep : s.step a = some t) : t.IsSound := by
  obtain ⟨hs, hlets⟩ | rfl | rfl | ⟨sweep, hsweep, result, now, hrunning, -, rfl⟩ |
    ⟨barrier, rfl⟩ := step_cases h hstep
  · rw [IsSound, hlets.sweeps, hlets.log]
    exact Sound.follow h hlets.follows
  · exact h
  · exact h.startSweep
  · exact h.endSweep hsweep hrunning result now
  · exact h.released barrier

/-- The run lemma. -/
theorem isSound_of_run {opts : OrderStreamConsumerOptions} {callbacks : List Callback}
    (hrun : run step (new opts) callbacks = some t) : t.IsSound :=
  run_invariant step_isSound (isSound_new opts) hrun

end Stream

end Strikedge.OrderStream
