import Strikedge.OrderStream.Process

/-!
# Sessions, debts and sweeps

What the lifecycle of the stream, its debts and the sweeps in flight say about one another
in every run: a reconciling stream owes, a ready one owes nothing, a sweep of the current
session is registered and owed, and readiness was earned by such a sweep with nothing lost
since. Ingestion and registration touch none of it, and a lifecycle callback ends a session,
opens one that owes or lets it go on.
-/

namespace Strikedge.OrderStream

open Machine Orders StreamHealth

/-- What the sessions of a consumer are made of. -/
structure View where
  machine : OrderStreamStateMachine
  streamState : OrderStreamState
  projOwed : Bool
  inFlight : Option Nat
  inFlightGeneration : Option Nat
  reconcileSweep : Bool

def OrderStreamConsumer.view (c : OrderStreamConsumer) : View where
  machine := c.machine
  streamState := c.proj.streamState
  projOwed := c.proj.reconcileOwed
  inFlight := c.sweepInFlight
  inFlightGeneration := c.sweepInFlightGeneration
  reconcileSweep := c.opts.reconcileSweep

section Frame

variable {c : OrderStreamConsumer} {p : OrderUpdateProjection} {id : String}
variable {obs : NormalizedOrderObservation} {now : ℚ} {sink : Sink} {result : IngestResult}

/-- The health of a projection, beside its accounts. -/
def SameHealth (p p' : OrderUpdateProjection) : Prop :=
  p'.streamState = p.streamState ∧ p'.reconcileOwed = p.reconcileOwed

theorem sameHealth_learn (p : OrderUpdateProjection) (id : String)
    (brokerOrderId : Option String) : SameHealth p (p.learnBrokerOrderId id brokerOrderId) := by
  rw [OrderUpdateProjection.learnBrokerOrderId]
  split <;> exact ⟨rfl, rfl⟩

theorem sameHealth_register (order : RegisteredOrder) : SameHealth p (p.register order) :=
  sameHealth_learn _ _ order.brokerOrderId

theorem sameHealth_ingestOwned (p : OrderUpdateProjection) (id : String)
    (obs : NormalizedOrderObservation) : SameHealth p (p.ingestOwned id obs).2 := by
  have hlearn := sameHealth_learn p id obs.brokerOrderId
  rw [OrderUpdateProjection.ingestOwned]
  dsimp only
  split
  · exact hlearn
  · split <;> exact hlearn

theorem sameHealth_ingest (p : OrderUpdateProjection) (obs : NormalizedOrderObservation) :
    SameHealth p (p.ingest obs).2 := by
  have hlive : SameHealth p (p.noteLiveness obs) := by
    rw [OrderUpdateProjection.noteLiveness]
    split <;> exact ⟨rfl, rfl⟩
  have howned (id : String) : SameHealth p ((p.noteLiveness obs).ingestOwned id obs).2 := by
    have h := sameHealth_ingestOwned (p.noteLiveness obs) id obs
    exact ⟨h.1.trans hlive.1, h.2.trans hlive.2⟩
  rw [OrderUpdateProjection.ingest]
  split
  · exact hlive
  · split
    · exact hlive
    · split
      · exact hlive
      · exact howned _

theorem view_scheduleReconciliation : (c.scheduleReconciliation id).view = c.view := by
  rw [OrderStreamConsumer.scheduleReconciliation]
  split <;> rfl

theorem view_settleIfTerminal (merged : Option BoxOrderIntentState) :
    (c.settleIfTerminal id merged result).view = c.view := by
  rw [OrderStreamConsumer.settleIfTerminal]
  split
  · rfl
  · split <;> rfl

theorem view_ingestAbsent : (c.ingestAbsent id obs result now sink).consumer.view = c.view := by
  show (OrderStreamConsumer.scheduleReconciliation _ _).view = _
  rw [view_scheduleReconciliation, view_settleIfTerminal]
  rfl

theorem view_ingestConfirmed :
    (c.ingestConfirmed id obs result now sink).consumer.view = c.view := by
  have hschedule (b : Prop) [Decidable b] (c : OrderStreamConsumer) :
      (if b then c.scheduleReconciliation id else c).view = c.view := by
    split
    · exact view_scheduleReconciliation
    · rfl
  rw [OrderStreamConsumer.ingestConfirmed]
  dsimp only
  split
  · exact view_scheduleReconciliation
  · split
    · show (OrderStreamConsumer.settleIfTerminal _ _ _ _).view = _
      rw [view_settleIfTerminal]
      show (OrderStreamConsumer.view _) = _
      exact (hschedule _ _).trans (hschedule _ _)
    · show (OrderStreamConsumer.settleIfTerminal _ _ _ _).view = _
      rw [view_settleIfTerminal]
      exact (hschedule _ _).trans (hschedule _ _)

theorem view_ingest : (c.ingest obs now sink).consumer.view = c.view := by
  have hhealth := sameHealth_ingest c.proj
    { obs with observedAtWall := obs.observedAtWall <|> some now }
  have hproj : ∀ seen : Option ℚ, ({ c with
      proj := (c.proj.ingest { obs with observedAtWall := obs.observedAtWall <|> some now }).2
      lastStreamEventAtWall := seen } : OrderStreamConsumer).view = c.view := by
    intro seen
    simp only [OrderStreamConsumer.view, hhealth.1, hhealth.2]
  rw [OrderStreamConsumer.ingest]
  dsimp only
  split
  · split
    · rw [view_ingestAbsent]
      exact hproj _
    · rw [view_ingestConfirmed]
      exact hproj _
  · exact hproj _

theorem view_ingestStream : (c.ingestStreamObservation obs now sink).consumer.view = c.view :=
  view_ingest

theorem view_ingestRest (source : FillEventSource) :
    (c.ingestRestObservation obs source now sink).consumer.view = c.view := by
  rw [OrderStreamConsumer.ingestRestObservation]
  dsimp only
  split
  · exact view_ingest
  · split
    · exact view_ingest
    · exact view_ingest

theorem view_registerIntent (args : RegisterIntentArgs) (account : Option String) :
    (c.registerIntent args account).view = c.view := by
  have h := sameHealth_register (p := c.proj) {
    clientOrderId := args.clientOrderId
    ownerTag := args.ownerTag
    account := args.account <|> account
    requestedQty := args.requestedQty
    brokerOrderId := args.brokerOrderId }
  simp only [OrderStreamConsumer.registerIntent, OrderStreamConsumer.view, h.1, h.2]

theorem view_learn (brokerOrderId : Option String) :
    (c.learnBrokerOrderId id brokerOrderId).view = c.view := by
  have h := sameHealth_learn c.proj id brokerOrderId
  simp only [OrderStreamConsumer.learnBrokerOrderId, OrderStreamConsumer.view, h.1, h.2]

end Frame

/-- The log has the start of the sweep, and no loss since. -/
def Begun (sweep : RunningSweep) (log : List Happening) : Prop :=
  ∃ before between, log = before ++ .started sweep.barrier sweep.generation :: between ∧
    .dropped ∉ between

/-- A sweep of this generation was started, was not overtaken by a loss, and concluded
consistently, and since then nothing was lost and the stream was not found idle. -/
def Earned (generation : Nat) (log : List Happening) : Prop :=
  ∃ before barrier between after,
    log = before ++ .started barrier generation :: between ++ .concluded barrier true :: after ∧
      .dropped ∉ between ∧ .dropped ∉ after ∧ .idled ∉ after

theorem Begun.append {sweep : RunningSweep} {log hs : List Happening} (h : Begun sweep log)
    (hs' : .dropped ∉ hs) : Begun sweep (log ++ hs) := by
  obtain ⟨before, between, rfl, hdropped⟩ := h
  refine ⟨before, between ++ hs, by simp, ?_⟩
  rw [List.mem_append]
  exact not_or.mpr ⟨hdropped, hs'⟩

theorem Earned.append {generation : Nat} {log hs : List Happening} (h : Earned generation log)
    (hdropped : .dropped ∉ hs) (hidled : .idled ∉ hs) : Earned generation (log ++ hs) := by
  obtain ⟨before, barrier, between, after, rfl, hbetween, hafter, hidle⟩ := h
  refine ⟨before, barrier, between, after ++ hs, by simp, hbetween, ?_, ?_⟩
  · rw [List.mem_append]
    exact not_or.mpr ⟨hafter, hdropped⟩
  · rw [List.mem_append]
    exact not_or.mpr ⟨hidle, hidled⟩

theorem Begun.concluded {sweep : RunningSweep} {log : List Happening} (h : Begun sweep log) :
    Earned sweep.generation (log ++ [.concluded sweep.barrier true]) := by
  obtain ⟨before, between, rfl, hdropped⟩ := h
  exact ⟨before, sweep.barrier, between, [], rfl, hdropped, List.not_mem_nil, List.not_mem_nil⟩

/-- The machine and the projection are switched off together. -/
def Synced (v : View) : Prop := v.machine.current = .disabled ↔ v.streamState = .disabled

/-- The invariant of every run. -/
structure Sound (v : View) (sweeps : List RunningSweep) (log : List Happening) : Prop where
  synced : Synced v
  reconciling : v.machine.current = .reconciling → v.machine.reconcileOwed = true
  ready : v.machine.current = .ready → v.machine.reconcileOwed = false
  clear : v.machine.isEstablished = true → v.machine.reconcileOwed = false → v.projOwed = false
  bounded : ∀ w ∈ sweeps, w.generation ≤ v.machine.gen
  registered : ∀ w ∈ sweeps, w.settled = false → w.generation = v.machine.gen →
    v.inFlight = some w.barrier ∧ v.inFlightGeneration = some v.machine.gen
  owed : v.machine.isEstablished = true → ∀ w ∈ sweeps, w.settled = false →
    w.generation = v.machine.gen → v.machine.reconcileOwed = true
  begun : v.machine.isEstablished = true → ∀ w ∈ sweeps, w.settled = false →
    w.generation = v.machine.gen → Begun w log
  earned : v.machine.current = .ready → Earned v.machine.gen log

/-- What a callback other than a sweep's does to a session: it ends it, opens another of a
newer generation that owes, or lets it go on owing what it owed. -/
structure Follows (v v' : View) (hs : List Happening) : Prop where
  synced : Synced v → Synced v'
  reconciling : (v.machine.current = .reconciling → v.machine.reconcileOwed = true) →
    v'.machine.current = .reconciling → v'.machine.reconcileOwed = true
  generation : v.machine.gen ≤ v'.machine.gen
  registration : v'.inFlight = v.inFlight ∧ v'.inFlightGeneration = v.inFlightGeneration
  established : v'.machine.isEstablished = true →
    v.machine.gen < v'.machine.gen ∧ v'.machine.reconcileOwed = true ∨
      v'.machine.gen = v.machine.gen ∧ v.machine.isEstablished = true ∧
        v'.machine.reconcileOwed = v.machine.reconcileOwed ∧ v'.projOwed = v.projOwed ∧
          .dropped ∉ hs
  ready : v'.machine.current = .ready → v.machine.current = .ready ∧
    v'.machine.gen = v.machine.gen ∧ v'.machine.reconcileOwed = v.machine.reconcileOwed ∧
      .dropped ∉ hs ∧ .idled ∉ hs
  degraded : v'.machine.current = .degraded → v.machine.current = .degraded ∨ .idled ∈ hs

section Follows

variable {v v' : View} {sweeps : List RunningSweep} {log hs : List Happening}

/-- A sweep of the generation a callback leaves current was of the current one before. -/
theorem Sound.same_generation (h : Sound v sweeps log) (hv : Follows v v' hs)
    {w : RunningSweep} (hw : w ∈ sweeps) (hgen : w.generation = v'.machine.gen) :
    v'.machine.gen = v.machine.gen :=
  le_antisymm (hgen ▸ h.bounded w hw) hv.generation

theorem Sound.follow (h : Sound v sweeps log) (hv : Follows v v' hs) :
    Sound v' sweeps (log ++ hs) where
  synced := hv.synced h.synced
  reconciling := hv.reconciling h.reconciling
  ready hready := by
    obtain ⟨hold, -, howed, -, -⟩ := hv.ready hready
    rw [howed]
    exact h.ready hold
  clear hest howed := by
    obtain ⟨-, hnew⟩ | ⟨-, hold, hsame, hproj, -⟩ := hv.established hest
    · rw [hnew] at howed
      cases howed
    · rw [hproj]
      exact h.clear hold (hsame ▸ howed)
  bounded w hw := (h.bounded w hw).trans hv.generation
  registered w hw hsettled hgen := by
    have hsame := h.same_generation hv hw hgen
    rw [hv.registration.1, hv.registration.2, hsame]
    exact h.registered w hw hsettled (hgen.trans hsame)
  owed hest w hw hsettled hgen := by
    have hsame := h.same_generation hv hw hgen
    obtain ⟨-, hnew⟩ | ⟨-, hold, howed, -, -⟩ := hv.established hest
    · exact hnew
    · rw [howed]
      exact h.owed hold w hw hsettled (hgen.trans hsame)
  begun hest w hw hsettled hgen := by
    have hsame := h.same_generation hv hw hgen
    obtain ⟨hnew, -⟩ | ⟨-, hold, -, -, hdropped⟩ := hv.established hest
    · exact absurd hsame hnew.ne'
    · exact (h.begun hold w hw hsettled (hgen.trans hsame)).append hdropped
  earned hready := by
    obtain ⟨hold, hgen, -, hdropped, hidled⟩ := hv.ready hready
    rw [hgen]
    exact (h.earned hold).append hdropped hidled

/-- A callback that moves neither the machine's state nor a debt nor a registration. -/
theorem follows_kept (hcurrent : v'.machine.current = v.machine.current)
    (howed : v'.machine.reconcileOwed = v.machine.reconcileOwed)
    (hgen : v'.machine.gen = v.machine.gen)
    (hstream : v'.streamState = .disabled ↔ v.streamState = .disabled)
    (hproj : v'.projOwed = v.projOwed)
    (hregistration : v'.inFlight = v.inFlight ∧ v'.inFlightGeneration = v.inFlightGeneration)
    (hdropped : .dropped ∉ hs) (hidled : .idled ∉ hs) : Follows v v' hs where
  synced h := by rw [Synced, hcurrent, hstream]; exact h
  reconciling h hrec := by rw [howed]; exact h (hcurrent ▸ hrec)
  generation := hgen.ge
  registration := hregistration
  established hest := by
    rw [OrderStreamStateMachine.isEstablished, hcurrent] at hest
    exact .inr ⟨hgen, hest, howed, hproj, hdropped⟩
  ready hready := ⟨hcurrent ▸ hready, hgen, howed, hdropped, hidled⟩
  degraded hdegraded := .inl (hcurrent ▸ hdegraded)

theorem follows_same (hdropped : .dropped ∉ hs) (hidled : .idled ∉ hs) : Follows v v hs :=
  follows_kept rfl rfl rfl Iff.rfl rfl ⟨rfl, rfl⟩ hdropped hidled

/-- A callback that leaves the machine without a session, or in a new one that owes. -/
theorem follows_left (hsynced : Synced v') (hgen : v.machine.gen ≤ v'.machine.gen)
    (hregistration : v'.inFlight = v.inFlight ∧ v'.inFlightGeneration = v.inFlightGeneration)
    (hest : v'.machine.isEstablished = true →
      v.machine.gen < v'.machine.gen ∧ v'.machine.current = .reconciling ∧
        v'.machine.reconcileOwed = true) : Follows v v' hs where
  synced _ := hsynced
  reconciling _ hcurrent := (hest (by rw [OrderStreamStateMachine.isEstablished, hcurrent])).2.2
  generation := hgen
  registration := hregistration
  established hest' := .inl ⟨(hest hest').1, (hest hest').2.2⟩
  ready hready := by
    have hcurrent := (hest (by rw [OrderStreamStateMachine.isEstablished, hready])).2.1
    rw [hready] at hcurrent
    cases hcurrent
  degraded hdegraded := by
    have hcurrent := (hest (by rw [OrderStreamStateMachine.isEstablished, hdegraded])).2.1
    rw [hdegraded] at hcurrent
    cases hcurrent

end Follows

section Callbacks

variable {c : OrderStreamConsumer} {now : ℚ}

theorem follows_onConnecting
    (h : c.machine.current = .disabled ↔ c.proj.streamState = .disabled) :
    Follows c.view c.onConnecting.view [] := by
  have hstream : c.onConnecting.view.streamState = .disabled ↔ c.view.streamState = .disabled := by
    show c.proj.onStreamConnecting.streamState = .disabled ↔ c.proj.streamState = .disabled
    rw [OrderUpdateProjection.onStreamConnecting]
    split
    · exact Iff.rfl
    case isFalse hlive => exact iff_of_false nofun hlive
  have hproj : c.onConnecting.view.projOwed = c.view.projOwed := by
    show c.proj.onStreamConnecting.reconcileOwed = c.proj.reconcileOwed
    rw [OrderUpdateProjection.onStreamConnecting]
    split <;> rfl
  by_cases hkept : c.machine.current = .disabled ∨ c.machine.isEstablished = true
  · have hmachine : c.onConnecting.view.machine = c.view.machine := by
      show c.machine.onConnecting = c.machine
      rw [OrderStreamStateMachine.onConnecting]
      split
      · rfl
      case isFalse hlive => rw [if_pos (hkept.resolve_left hlive)]
    exact follows_kept (by rw [hmachine]) (by rw [hmachine]) (by rw [hmachine]) hstream hproj
      ⟨rfl, rfl⟩ List.not_mem_nil List.not_mem_nil
  · obtain ⟨hlive, hest⟩ := not_or.mp hkept
    have hmachine : c.onConnecting.view.machine = { c.machine with current := .connecting } := by
      show c.machine.onConnecting = _
      rw [OrderStreamStateMachine.onConnecting, if_neg hlive, if_neg hest]
    apply follows_left
    · rw [Synced, hmachine, hstream]
      exact iff_of_false nofun (mt h.mpr hlive)
    · rw [hmachine]
      exact le_rfl
    · exact ⟨rfl, rfl⟩
    · rw [hmachine]
      exact nofun

theorem follows_onSocketOpen
    (h : c.machine.current = .disabled ↔ c.proj.streamState = .disabled) :
    Follows c.view c.onSocketOpen.view [] := by
  by_cases hkept : c.machine.current = .disabled ∨ c.machine.isEstablished = true
  · have hmachine : c.onSocketOpen.view = c.view := by
      show ({ c with machine := c.machine.onSocketOpen } : OrderStreamConsumer).view = c.view
      rw [OrderStreamStateMachine.onSocketOpen]
      split
      · rfl
      case isFalse hlive => rw [if_pos (hkept.resolve_left hlive)]
    rw [hmachine]
    exact follows_same List.not_mem_nil List.not_mem_nil
  · obtain ⟨hlive, hest⟩ := not_or.mp hkept
    have hmachine : c.onSocketOpen.view.machine =
        { c.machine with current := .authenticating } := by
      show c.machine.onSocketOpen = _
      rw [OrderStreamStateMachine.onSocketOpen, if_neg hlive, if_neg hest]
    apply follows_left
    · rw [Synced, hmachine]
      exact iff_of_false nofun (mt h.mpr hlive)
    · rw [hmachine]
      exact le_rfl
    · exact ⟨rfl, rfl⟩
    · rw [hmachine]
      exact nofun

/-- An authorisation either opens a new session that owes, or repeats the one in place. -/
theorem follows_onAuthenticated
    (h : c.machine.current = .disabled ↔ c.proj.streamState = .disabled)
    (evidence : OrderStreamAuthEvidence) :
    Follows c.view (c.onAuthenticated evidence now).view [] := by
  by_cases hkept : c.machine.current = .disabled ∨ c.machine.isEstablished = true
  · have hsame : (c.machine.onAuthenticated evidence).current = c.machine.current ∧
        (c.machine.onAuthenticated evidence).reconcileOwed = c.machine.reconcileOwed ∧
        (c.machine.onAuthenticated evidence).gen = c.machine.gen := by
      rw [OrderStreamStateMachine.onAuthenticated]
      split
      · exact ⟨rfl, rfl, rfl⟩
      case isFalse hlive =>
        rw [if_pos (hkept.resolve_left hlive)]
        exact ⟨rfl, rfl, rfl⟩
    rw [OrderStreamConsumer.onAuthenticated]
    rw [if_pos hsame.2.2]
    exact follows_kept hsame.1 hsame.2.1 hsame.2.2 Iff.rfl rfl ⟨rfl, rfl⟩ List.not_mem_nil
      List.not_mem_nil
  · obtain ⟨hlive, hest⟩ := not_or.mp hkept
    have hmachine : c.machine.onAuthenticated evidence =
        { c.machine with
          everConnected := true, reconcileOwed := true, authEvidence := evidence,
          gen := c.machine.gen + 1, current := .reconciling } := by
      rw [OrderStreamStateMachine.onAuthenticated, if_neg hlive, if_neg hest]
    have hnew : ¬ (c.machine.onAuthenticated evidence).gen = c.machine.gen := by
      rw [hmachine]
      exact Nat.succ_ne_self _
    rw [OrderStreamConsumer.onAuthenticated]
    rw [if_neg hnew]
    apply follows_left
    · apply iff_of_false
      · show (c.machine.onAuthenticated evidence).current ≠ .disabled
        rw [hmachine]
        exact nofun
      · show (c.proj.onStreamConnected true c.machine.everConnected).streamState ≠ .disabled
        have hproj : c.proj.streamState ≠ .disabled := mt h.mpr hlive
        rw [OrderUpdateProjection.onStreamConnected, if_neg hproj]
        split <;> exact nofun
    · show c.machine.gen ≤ (c.machine.onAuthenticated evidence).gen
      rw [hmachine]
      exact Nat.le_succ _
    · exact ⟨rfl, rfl⟩
    · intro _
      show c.machine.gen < (c.machine.onAuthenticated evidence).gen ∧
        (c.machine.onAuthenticated evidence).current = .reconciling ∧
          (c.machine.onAuthenticated evidence).reconcileOwed = true
      rw [hmachine]
      exact ⟨Nat.lt_succ_self _, rfl, rfl⟩

/-- A loss leaves no session behind. -/
theorem follows_onDisconnected
    (h : c.machine.current = .disabled ↔ c.proj.streamState = .disabled) :
    Follows c.view c.onDisconnected.view [.dropped] := by
  apply follows_left
  · show c.machine.onDisconnected.current = .disabled ↔
      c.proj.onStreamDisconnected.streamState = .disabled
    rw [OrderStreamStateMachine.onDisconnected, OrderUpdateProjection.onStreamDisconnected]
    by_cases hdisabled : c.machine.current = .disabled
    · rw [if_pos (Or.inl hdisabled), if_pos (h.mp hdisabled)]
      exact h
    · rw [if_neg (mt h.mpr hdisabled)]
      split
      · exact iff_of_false hdisabled nofun
      · exact iff_of_false nofun nofun
  · show c.machine.gen ≤ c.machine.onDisconnected.gen
    rw [OrderStreamStateMachine.onDisconnected]
    split
    · exact le_rfl
    · exact Nat.le_succ _
  · exact ⟨rfl, rfl⟩
  · intro hest
    have hest : c.machine.onDisconnected.isEstablished = true := hest
    rw [OrderStreamStateMachine.onDisconnected] at hest
    split at hest
    case isTrue hkept =>
      obtain hkept | hkept := hkept <;>
        (rw [OrderStreamStateMachine.isEstablished, hkept] at hest; cases hest)
    case isFalse => cases hest

theorem follows_onSessionLost
    (h : c.machine.current = .disabled ↔ c.proj.streamState = .disabled) :
    Follows c.view c.onSessionLost.view [.dropped] := by
  apply follows_left
  · show c.machine.onSessionLost.current = .disabled ↔
      c.proj.onStreamSessionLost.streamState = .disabled
    rw [OrderStreamStateMachine.onSessionLost, OrderUpdateProjection.onStreamSessionLost]
    by_cases hdisabled : c.machine.current = .disabled
    · rw [if_pos hdisabled, if_pos (h.mp hdisabled)]
      exact h
    · rw [if_neg hdisabled, if_neg (mt h.mpr hdisabled)]
      exact iff_of_false nofun nofun
  · show c.machine.gen ≤ c.machine.onSessionLost.gen
    rw [OrderStreamStateMachine.onSessionLost]
    split
    · exact le_rfl
    · exact Nat.le_succ _
  · exact ⟨rfl, rfl⟩
  · intro hest
    have hest : c.machine.onSessionLost.isEstablished = true := hest
    rw [OrderStreamStateMachine.onSessionLost] at hest
    split at hest
    case isTrue hkept => rw [OrderStreamStateMachine.isEstablished, hkept] at hest; cases hest
    case isFalse => cases hest

theorem follows_setStreamEnabled
    (h : c.machine.current = .disabled ↔ c.proj.streamState = .disabled) (enabled : Bool) :
    Follows c.view (c.setStreamEnabled enabled).view (if enabled then [] else [.dropped]) := by
  cases enabled with
  | false =>
      apply follows_left
      · exact iff_of_true rfl rfl
      · exact Nat.le_succ _
      · exact ⟨rfl, rfl⟩
      · exact nofun
  | true =>
      by_cases hdisabled : c.machine.current = .disabled
      · have hmachine : (c.setStreamEnabled true).view.machine =
            { c.machine with current := .disconnected } := if_pos hdisabled
        have hstream : (c.setStreamEnabled true).view.streamState = .down := by
          show (if c.proj.streamState = .disabled then _ else _ :
            OrderUpdateProjection).streamState = .down
          rw [if_pos (h.mp hdisabled)]
        apply follows_left
        · rw [Synced, hmachine, hstream]
          exact iff_of_false nofun nofun
        · rw [hmachine]
          exact le_rfl
        · exact ⟨rfl, rfl⟩
        · rw [hmachine]
          exact nofun
      · have hmachine : c.machine.setEnabled true = c.machine := if_neg hdisabled
        have hproj : c.proj.setStreamEnabled true = c.proj := if_neg (mt h.mpr hdisabled)
        have hview : (c.setStreamEnabled true).view = c.view := by
          show ({ c with
            machine := c.machine.setEnabled true
            proj := c.proj.setStreamEnabled true } : OrderStreamConsumer).view = c.view
          rw [hmachine, hproj]
        rw [hview]
        exact follows_same List.not_mem_nil List.not_mem_nil

theorem follows_noteRestVerifiedSession :
    Follows c.view c.noteRestVerifiedSession.view [] := by
  have hsame : c.machine.noteRestVerifiedSession.current = c.machine.current ∧
      c.machine.noteRestVerifiedSession.reconcileOwed = c.machine.reconcileOwed ∧
      c.machine.noteRestVerifiedSession.gen = c.machine.gen := by
    rw [OrderStreamStateMachine.noteRestVerifiedSession]
    split <;> exact ⟨rfl, rfl, rfl⟩
  exact follows_kept hsame.1 hsame.2.1 hsame.2.2 Iff.rfl rfl ⟨rfl, rfl⟩ List.not_mem_nil
    List.not_mem_nil

/-- A demotion keeps the session, its generation and whatever it owed. -/
theorem follows_onIdle (h : c.machine.current = .disabled ↔ c.proj.streamState = .disabled)
    (hcurrent : c.machine.current = .ready ∨ c.machine.current = .reconciling) :
    Follows c.view c.onIdle.view [.idled] := by
  have hmachine : c.onIdle.view.machine = { c.machine with current := .degraded } := by
    show c.machine.onIdle = _
    rw [OrderStreamStateMachine.onIdle, if_pos hcurrent]
  have hlive : c.machine.current ≠ .disabled := by
    obtain hcurrent | hcurrent := hcurrent <;> (rw [hcurrent]; exact nofun)
  have hest : c.machine.isEstablished = true := by
    obtain hcurrent | hcurrent := hcurrent <;>
      rw [OrderStreamStateMachine.isEstablished, hcurrent]
  have hstream : c.onIdle.view.streamState ≠ .disabled := by
    show c.proj.onStreamIdle.streamState ≠ .disabled
    rw [OrderUpdateProjection.onStreamIdle]
    split
    · exact nofun
    · exact mt h.mpr hlive
  refine ⟨fun _ => ?_, fun _ hrec => ?_, ?_, ⟨rfl, rfl⟩, fun _ => .inr ?_, fun hready => ?_,
    fun _ => .inr List.mem_cons_self⟩
  · rw [Synced, hmachine]
    exact iff_of_false nofun hstream
  · rw [hmachine] at hrec
    cases hrec
  · rw [hmachine]
    exact le_rfl
  · rw [hmachine]
    refine ⟨rfl, hest, rfl, ?_, by simp⟩
    show c.proj.onStreamIdle.reconcileOwed = c.proj.reconcileOwed
    rw [OrderUpdateProjection.onStreamIdle]
    split <;> rfl
  · rw [hmachine] at hready
    cases hready

end Callbacks

end Strikedge.OrderStream
