import Strikedge.OrderStream.Sweeps

/-!
# What brings a stream back, and what readiness is worth

A connected stream that is not ready refuses new entry until a sweep of its own session
restores it, so something must be owed or under way for as long as it stays there. And a
ready stream has earned it in its own session. Silence held against a ready stream is the one
callback that leaves a stream demoted with nothing to bring it back.
-/

namespace Strikedge.OrderStream

open Machine Orders StreamHealth

namespace Stream

variable {s t : Stream} {a : Callback}

/-- A connected stream that is not ready owes a reconciliation or waits for a sweep of its
session, and a ready one owes none. -/
def Recoverable (s : Stream) : Prop :=
  (s.consumer.machine.current = .reconciling ∨ s.consumer.machine.current = .degraded →
    s.consumer.reconcilePending = true ∨
      ∃ w ∈ s.sweeps, w.settled = false ∧ w.generation = s.consumer.machine.gen) ∧
  (s.consumer.machine.current = .ready → s.consumer.machine.reconcileOwed = false)

instance : Decidable s.Recoverable := by
  rw [Recoverable]
  infer_instance

/-- The label reports silence about a ready stream. -/
def DemotesReady (s : Stream) (a : Callback) : Prop :=
  s.consumer.machine.current = .ready ∧ s.demotes a

def DegradedOwes (s : Stream) : Prop :=
  s.consumer.machine.current = .degraded → s.consumer.machine.reconcileOwed = true

theorem recoverable_of_owes (h : s.IsSound) (howes : s.DegradedOwes) : s.Recoverable := by
  refine ⟨fun hcurrent => .inl ?_, h.ready⟩
  have howed : s.consumer.machine.reconcileOwed = true := by
    obtain hcurrent | hcurrent := hcurrent
    · exact h.reconciling hcurrent
    · exact howes hcurrent
  rw [OrderStreamConsumer.reconcilePending, howed, Bool.true_or]

/-- A demotion keeps the debt there was, and every other callback that leaves the stream
degraded found it so. -/
theorem Lets.degradedOwes {hs : List Happening} (hlets : Lets s a t hs) (h : s.IsSound)
    (howes : s.DegradedOwes) (hkeep : ¬ s.DemotesReady a) : t.DegradedOwes := by
  intro hcurrent
  have hest : t.consumer.machine.isEstablished = true := by
    rw [OrderStreamStateMachine.isEstablished, hcurrent]
  obtain ⟨-, howed⟩ | ⟨-, hold, howed, -, -⟩ := hlets.follows.established hest
  · exact howed
  · show t.consumer.view.machine.reconcileOwed = true
    rw [howed]
    obtain hdegraded | hidled := hlets.follows.degraded hcurrent
    · exact howes hdegraded
    · have hnot : s.consumer.machine.current ≠ .ready :=
        fun hready => hkeep ⟨hready, hlets.idled hidled⟩
      have hold : s.consumer.machine.isEstablished = true := hold
      rw [OrderStreamStateMachine.isEstablished] at hold
      split at hold
      case h_1 hrec => exact h.reconciling hrec
      case h_2 hready => exact absurd hready hnot
      case h_3 hdegraded => exact howes hdegraded
      case h_4 => cases hold

theorem degradedOwes_endSweep (h : s.IsSound) (howes : s.DegradedOwes) (sweep : RunningSweep)
    (result : OrderStreamConsumer.SweepEnd) (now : ℚ) :
    (s.endSweep sweep result now).DegradedOwes := by
  obtain hview | ⟨-, hgen, hlive, streamState, -, hview⟩ := endSweep_cases h sweep result now
  · have hmachine : (s.endSweep sweep result now).consumer.machine = s.consumer.machine :=
      congrArg View.machine hview
    rw [DegradedOwes, hmachine]
    exact howes
  · have hmachine : (s.endSweep sweep result now).consumer.machine =
        (s.consumer.machine.markSynchronized (some sweep.generation)).2 :=
      congrArg View.machine hview
    intro hcurrent
    rw [hmachine, OrderStreamStateMachine.markSynchronized_applied hlive hgen] at hcurrent
    have hcurrent : (if s.consumer.machine.current = .reconciling ∨
        s.consumer.machine.current = .degraded then OrderStreamLifecycleState.ready
        else s.consumer.machine.current) = .degraded := hcurrent
    split at hcurrent
    · cases hcurrent
    case isFalse hnot => exact absurd (.inr hcurrent) hnot

theorem degradedOwes_step (h : s.IsSound) (howes : s.DegradedOwes)
    (hkeep : ¬ s.DemotesReady a) (hstep : s.step a = some t) : t.DegradedOwes := by
  obtain ⟨hs, hlets⟩ | rfl | rfl | ⟨sweep, -, result, now, -, -, rfl⟩ | ⟨barrier, rfl⟩ :=
    step_cases h hstep
  · exact hlets.degradedOwes h howes hkeep
  · exact howes
  · rw [DegradedOwes, startSweep_machine]
    exact howes
  · exact degradedOwes_endSweep h howes sweep result now
  · have hmachine : (s.released barrier).consumer.machine = s.consumer.machine :=
      (s.consumer.view_releaseSweep barrier).1
    rw [DegradedOwes, hmachine]
    exact howes

/-- A ready stream owes nothing and has no sweep under way, so demoting it strands it. -/
theorem not_recoverable_onIdle (h : s.IsSound) (hready : s.consumer.machine.current = .ready)
    (happenings : List Happening) : ¬ (s.become s.consumer.onIdle happenings).Recoverable := by
  have hest : s.consumer.machine.isEstablished = true := by
    rw [OrderStreamStateMachine.isEstablished, hready]
  have howed : s.consumer.machine.reconcileOwed = false := h.ready hready
  have hmachine : s.consumer.machine.onIdle = { s.consumer.machine with current := .degraded } :=
    if_pos (.inl hready)
  intro hrecoverable
  have hcurrent : (s.become s.consumer.onIdle happenings).consumer.machine.current = .degraded := by
    show s.consumer.machine.onIdle.current = _
    rw [hmachine]
  obtain hpending | ⟨w, hw, hsettled, hgen⟩ := hrecoverable.1 (.inr hcurrent)
  · have hproj : s.consumer.proj.onStreamIdle.reconcileOwed = false := by
      rw [OrderUpdateProjection.onStreamIdle]
      split <;> exact h.clear hest howed
    have hpending : (s.consumer.machine.onIdle.reconcileOwed ||
      s.consumer.proj.onStreamIdle.reconcileOwed) = true := hpending
    rw [hmachine, hproj, Bool.or_false] at hpending
    have hpending : s.consumer.machine.reconcileOwed = true := hpending
    rw [howed] at hpending
    cases hpending
  · have hgen : w.generation = s.consumer.machine.onIdle.gen := hgen
    rw [hmachine] at hgen
    have hdebt : s.consumer.machine.reconcileOwed = true := h.owed hest w hw hsettled hgen
    rw [howed] at hdebt
    cases hdebt

theorem not_recoverable_of_demotesReady (h : s.IsSound) (hdemotes : s.DemotesReady a)
    (hstep : s.step a = some t) : ¬ t.Recoverable := by
  obtain ⟨hready, hsilent⟩ := hdemotes
  cases a with
  | idle =>
      cases hstep
      exact not_recoverable_onIdle h hready _
  | evaluateIdle now =>
      cases hstep
      rw [OrderStreamConsumer.evaluateIdle_of_silent hsilent (.inl hready)]
      exact not_recoverable_onIdle h hready _
  | _ => exact absurd hsilent id

theorem degradedOwes_new (opts : OrderStreamConsumerOptions) : (new opts).DegradedOwes := by
  show (OrderStreamStateMachine.new opts.streamEnabled).current = .degraded → _
  cases opts.streamEnabled <;> exact nofun

/-- In every run, every state can be restored exactly while no report of silence meets a
ready stream. -/
theorem recoverable_iff_ready_never_demoted (opts : OrderStreamConsumerOptions)
    (callbacks : List Callback) :
    Throughout step Recoverable (new opts) callbacks ↔
      Heeds step (fun s a => ¬ s.DemotesReady a) (new opts) callbacks := by
  apply throughout_iff_heeds (I := fun s => s.IsSound ∧ s.DegradedOwes) (L := fun _ => True)
  · intro s a t _ hI _ hkeep hstep
    exact ⟨step_isSound s a t hI.1 hstep, degradedOwes_step hI.1 hI.2 hkeep hstep⟩
  · intro s a t _ hI _ hstep
    constructor
    · exact fun hrecoverable hdemotes =>
        not_recoverable_of_demotesReady hI.1 hdemotes hstep hrecoverable
    · exact fun hkeep => recoverable_of_owes (step_isSound s a t hI.1 hstep)
        (degradedOwes_step hI.1 hI.2 hkeep hstep)
  · exact ⟨isSound_new opts, degradedOwes_new opts⟩
  · exact recoverable_of_owes (isSound_new opts) (degradedOwes_new opts)
  · exact fun _ _ => trivial

/-- An order is working, the session is reconciled, and then nothing arrives for twenty
seconds. -/
def quietOrder : List Callback :=
  [.register { clientOrderId := "BOX-1", ownerTag := "BXT1", requestedQty := .finite 50 } none,
    .connecting, .open, .ready .loginSubmitted 0, .reconcile,
    .sweepEnds 0 (.resolved (some { synchronized := true })) 100, .sweepReleases 0,
    .evaluateIdle 20100]

/-- The stream is degraded, owes nothing and waits for nothing. -/
theorem quiet_order_strands_the_stream :
    ∃ s, run step (new { streamEnabled := true }) quietOrder = some s ∧
      s.consumer.machine.current = .degraded ∧ ¬ s.Recoverable := by
  have hrun : ((run step (new { streamEnabled := true }) quietOrder).any fun s =>
      decide (s.consumer.machine.current = .degraded ∧ ¬ s.Recoverable)) = true := by
    decide +kernel
  obtain ⟨s, hs, h⟩ := (Option.any_eq_true _ _).mp hrun
  exact ⟨s, hs, of_decide_eq_true h⟩

/-- Only a verdict of the current session makes a stream ready. -/
theorem ready_of_step (h : s.IsSound) (hstep : s.step a = some t)
    (hbefore : s.consumer.machine.current ≠ .ready) (hready : t.consumer.machine.current = .ready) :
    ∃ sweep ∈ s.sweeps, ∃ result now, a = .sweepEnds sweep.barrier result now ∧
      result.consistent = true ∧ sweep.generation = s.consumer.machine.gen := by
  obtain ⟨hs, hlets⟩ | rfl | rfl | ⟨sweep, hsweep, result, now, -, rfl, rfl⟩ | ⟨barrier, rfl⟩ :=
    step_cases h hstep
  · exact absurd (hlets.follows.ready hready).1 hbefore
  · exact absurd hready hbefore
  · rw [startSweep_machine] at hready
    exact absurd hready hbefore
  · obtain hview | ⟨hconsistent, hgen, -, -⟩ := endSweep_cases h sweep result now
    · have hmachine : (s.endSweep sweep result now).consumer.machine = s.consumer.machine :=
        congrArg View.machine hview
      rw [hmachine] at hready
      exact absurd hready hbefore
    · exact ⟨sweep, hsweep, result, now, rfl, hconsistent, hgen⟩
  · have hmachine : (s.released barrier).consumer.machine = s.consumer.machine :=
      (s.consumer.view_releaseSweep barrier).1
    rw [hmachine] at hready
    exact absurd hready hbefore

/-- In every run, a ready stream was synchronized by a sweep started since its session began,
with neither a loss nor a demotion afterwards, and no sweep of an older session ever makes a
stream ready. -/
theorem ready_is_earned_in_its_session (opts : OrderStreamConsumerOptions)
    (callbacks : List Callback) (s : Stream) (hrun : run step (new opts) callbacks = some s) :
    (s.consumer.machine.current = .ready → Earned s.consumer.machine.gen s.log) ∧
      ∀ a t, s.step a = some t → s.consumer.machine.current ≠ .ready →
        t.consumer.machine.current = .ready →
        ∃ sweep ∈ s.sweeps, ∃ result now, a = .sweepEnds sweep.barrier result now ∧
          result.consistent = true ∧ sweep.generation = s.consumer.machine.gen := by
  have h := isSound_of_run hrun
  refine ⟨h.earned, ?_⟩
  intro a t hstep hbefore hready
  exact ready_of_step h hstep hbefore hready

/-- A session that is lost and replaced while its sweep runs: the second session's own sweep
makes it ready. -/
def replacedSession : List Callback :=
  [.connecting, .open, .ready .loginSubmitted 0, .reconcile, .close, .connecting, .open,
    .ready .loginSubmitted 10, .reconcile,
    .sweepEnds 0 (.resolved (some { synchronized := true })) 20,
    .sweepEnds 1 (.resolved (some { synchronized := true })) 30]

theorem replaced_session_earns_its_own :
    ∃ s, run step (new { streamEnabled := true }) replacedSession = some s ∧
      s.consumer.machine.current = .ready ∧ Earned 3 s.log := by
  have hrun : ((run step (new { streamEnabled := true }) replacedSession).any fun s =>
      decide (s.consumer.machine.current = .ready ∧ s.consumer.machine.gen = 3)) = true := by
    decide +kernel
  obtain ⟨s, hs, h⟩ := (Option.any_eq_true _ _).mp hrun
  obtain ⟨hready, hgen⟩ := of_decide_eq_true h
  exact ⟨s, hs, hready, hgen ▸ (ready_is_earned_in_its_session _ _ s hs).1 hready⟩

/-- Readiness earned, and no stream frame skipped a sequence number since. -/
def EarnedUnbroken (generation : Nat) (log : List Happening) : Prop :=
  ∃ before barrier between after,
    log = before ++ .started barrier generation :: between ++ .concluded barrier true :: after ∧
      .dropped ∉ between ∧ .dropped ∉ after ∧ .idled ∉ after ∧ .sequenceGap ∉ after

theorem not_earnedUnbroken_of_gap {generation : Nat} {log : List Happening} :
    ¬ EarnedUnbroken generation (log ++ [.sequenceGap]) := by
  rintro ⟨before, barrier, between, after, hlog, -, -, -, hgap⟩
  obtain rfl | ⟨init, last, rfl⟩ := List.eq_nil_or_concat after
  · have hlast := (List.append_inj' hlog rfl).2
    cases hlast
  · rw [List.concat_eq_append, ← List.cons_append, ← List.append_assoc] at hlog
    have hlast := (List.append_inj' hlog rfl).2
    apply hgap
    rw [List.concat_eq_append, ← hlast]
    exact List.mem_append_right init List.mem_cons_self

/-- A frame of one order, in sequence. -/
def sequenced (sequence : ℚ) : NormalizedOrderObservation where
  ownerTag := "BXT1"
  brokerOrderId := some "O-1"
  account := none
  cumulativeQty := .finite (10 * sequence)
  quantityPresent := none
  averagePrice := none
  rawStatus := none
  eventId := none
  sequence := some (.finite sequence)
  source := .orderUpdate

/-- The second frame of a ready stream is lost. -/
def skippedFrame : List Callback :=
  [.register { clientOrderId := "BOX-1", ownerTag := "BXT1", requestedQty := .finite 50 } none,
    .connecting, .open, .ready .loginSubmitted 0, .reconcile,
    .sweepEnds 0 (.resolved (some { synchronized := true })) 10, .sweepReleases 0,
    .frame (sequenced 1) 20 .absent, .frame (sequenced 3) 30 .absent]

/-- A gap in the sequence numbers leaves a ready stream ready. -/
theorem skipped_frame_leaves_ready :
    ∃ s, run step (new { streamEnabled := true }) skippedFrame = some s ∧
      s.consumer.machine.current = .ready ∧
        ¬ EarnedUnbroken s.consumer.machine.gen s.log := by
  have hrun : ((run step (new { streamEnabled := true }) skippedFrame).any fun s =>
      decide (s.consumer.machine.current = .ready ∧
        s.log = [.started 0 1, .concluded 0 true] ++ [.sequenceGap])) = true := by
    decide +kernel
  obtain ⟨s, hs, h⟩ := (Option.any_eq_true _ _).mp hrun
  obtain ⟨hready, hlog⟩ := of_decide_eq_true h
  refine ⟨s, hs, hready, ?_⟩
  rw [hlog]
  exact not_earnedUnbroken_of_gap

end Stream

end Strikedge.OrderStream
