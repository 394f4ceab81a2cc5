import Strikedge.Orders.Actions
import Strikedge.Orders.IntentHistory
import Strikedge.OrderStream.Registration
import Strikedge.OrderStream.Sweeps

/-!
# The orders the consumer counts as working

An order is counted from its registration until an observation shows it to be over or it is
settled. The manager registers it with the row its own transition to SUBMITTING wrote, so a
counted order has a durable intent, and every snapshot that ends the intent was handed to
the consumer first. What the consumer is not told is that an intent was refused locally.
-/

namespace Strikedge.OrderStream

open Machine Orders OrderManager

section Working

variable {c : OrderStreamConsumer} {id x : String} {orders : List String}
variable {obs : NormalizedOrderObservation} {now : ℚ} {sink : Sink} {result : IngestResult}

@[simp] theorem mem_removeOrder : x ∈ removeOrder orders id ↔ x ∈ orders ∧ x ≠ id := by
  simp [removeOrder]

@[simp] theorem working_schedule :
    (c.scheduleReconciliation id).workingOrders = c.workingOrders := by
  rw [OrderStreamConsumer.scheduleReconciliation]
  split <;> rfl

@[simp] theorem working_noteForwarded :
    (c.noteForwarded id obs).workingOrders = c.workingOrders := rfl

/-- Settling takes an order out for either of its two grounds. -/
theorem working_settle (merged : Option BoxOrderIntentState) :
    (c.settleIfTerminal id merged result).workingOrders =
      if merged.any isBrokerOrderTerminal || result.apply.any (·.remaining ≤ 0) then
        removeOrder c.workingOrders id
      else c.workingOrders := by
  rw [OrderStreamConsumer.settleIfTerminal]
  by_cases hmerged : merged.any isBrokerOrderTerminal = true
  · simp [hmerged]
  · by_cases happly : (result.apply.any (·.remaining ≤ 0)) = true
    · simp [hmerged, happly]
    · simp [hmerged, happly]

/-- An absent quantity is not counted by the ledger. -/
theorem apply_of_absent (p : OrderUpdateProjection)
    (habsent : (p.ingest obs).1.quantityEvidence = .absent) : (p.ingest obs).1.apply = none := by
  simp only [OrderUpdateProjection.ingest, OrderUpdateProjection.ingestOwned] at habsent ⊢
  split
  · rfl
  · rename_i hwell
    simp only [hwell] at habsent
    split
    · rfl
    · rename_i clientOrderId howner
      simp only [howner] at habsent
      split
      · rfl
      · rename_i hours
        simp only [hours] at habsent
        split
        · rfl
        · rename_i ledger hledger
          simp only [hledger] at habsent
          split
          · rfl
          · rename_i hcounted
            simp only [hcounted] at habsent
            exact absurd habsent hcounted

/-- The set after an observation. -/
def ruled (orders : List String) (done : Ingested) (sink : Sink) : List String :=
  (done.over sink).elim orders (removeOrder orders)

theorem ruled_of {done : Ingested} (hattributed : done.result.attributed = true)
    (hid : done.result.clientOrderId = some id) :
    ruled orders done sink =
      if done.handed.isSome && sink.state.any isBrokerOrderTerminal ||
          done.result.apply.any isFilled then
        removeOrder orders id
      else orders := by
  rw [ruled, Ingested.over, hattributed, hid, Bool.true_and]
  split <;> rfl

/-- An observation that is nobody's leaves the set alone. -/
theorem ruled_of_unattributed {done : Ingested}
    (h : ∀ id, done.result.attributed = true → done.result.clientOrderId ≠ some id) :
    ruled orders done sink = orders := by
  rw [ruled, Ingested.over]
  split
  · rename_i hover
    rw [Bool.and_eq_true] at hover
    cases hid : done.result.clientOrderId with
    | none => rfl
    | some id => exact absurd hid (h id hover.1)
  · rfl

theorem working_ingestAbsent (hattributed : result.attributed = true)
    (hid : result.clientOrderId = some id) (happly : result.apply = none) :
    (c.ingestAbsent id obs result now sink).consumer.workingOrders =
      ruled c.workingOrders (c.ingestAbsent id obs result now sink) sink := by
  refine Eq.trans ?_ (ruled_of hattributed hid).symm
  cases sink <;>
    simp [OrderStreamConsumer.ingestAbsent, applyToAdapter, working_settle, happly, Sink.state]

theorem result_ingestConfirmed : (c.ingestConfirmed id obs result now sink).result = result := by
  rw [OrderStreamConsumer.ingestConfirmed]
  dsimp only
  split
  · rfl
  · split <;> rfl

theorem working_ingestConfirmed (hattributed : result.attributed = true)
    (hid : result.clientOrderId = some id) :
    (c.ingestConfirmed id obs result now sink).consumer.workingOrders =
      ruled c.workingOrders (c.ingestConfirmed id obs result now sink) sink := by
  have hschedule (b : Prop) [Decidable b] (c : OrderStreamConsumer) :
      (if b then c.scheduleReconciliation id else c).workingOrders = c.workingOrders := by
    split
    · exact working_schedule
    · rfl
  have hresult : (c.ingestConfirmed id obs result now sink).result.clientOrderId = some id := by
    rw [result_ingestConfirmed, hid]
  rw [ruled_of (by rw [result_ingestConfirmed, hattributed]) hresult,
    OrderStreamConsumer.ingestConfirmed]
  dsimp only
  by_cases hinvalid : result.apply.map (·.outcome) = some .invalid
  · obtain ⟨apply, happly, houtcome⟩ := Option.map_eq_some_iff.mp hinvalid
    simp [isFilled, happly, houtcome]
  · have hcounted : result.apply.any isFilled = result.apply.any (·.remaining ≤ 0) := by
      cases happly : result.apply with
      | none => rfl
      | some apply =>
          have hvalid : apply.outcome ≠ .invalid := by
            rintro houtcome
            rw [happly, Option.map_some, houtcome] at hinvalid
            exact hinvalid rfl
          simp [isFilled, hvalid]
    rw [if_neg hinvalid]
    split
    · cases sink <;>
        simp [applyToAdapter, working_settle, hschedule, hcounted, Sink.state]
    · simp [working_settle, hschedule, hcounted]

/-- An observation takes out of the set the order it shows to be over. -/
theorem working_ingest : (c.ingest obs now sink).consumer.workingOrders =
    ruled c.workingOrders (c.ingest obs now sink) sink := by
  rw [OrderStreamConsumer.ingest]
  dsimp only
  generalize hingest : c.proj.ingest { obs with
    observedAtWall := obs.observedAtWall <|> some now } = answer
  split
  · rename_i clientOrderId hattributed hid
    split
    · rename_i habsent
      refine working_ingestAbsent hattributed hid ?_
      rw [← hingest] at habsent ⊢
      exact apply_of_absent c.proj habsent
    · exact working_ingestConfirmed hattributed hid
  · rename_i hother
    refine (ruled_of_unattributed ?_).symm
    intro id hattributed hid
    exact hother id hattributed hid

theorem working_ingestRest (source : FillEventSource) :
    (c.ingestRestObservation obs source now sink).consumer.workingOrders =
      ruled c.workingOrders (c.ingestRestObservation obs source now sink) sink := by
  have hingest := @working_ingest c { obs with source := source } now sink
  rw [OrderStreamConsumer.ingestRestObservation]
  dsimp only
  split
  · exact hingest
  · split
    · exact hingest
    · exact hingest

end Working

section News

variable {news : List News} {n : News} {id : String} {orders : List String}

theorem outstanding_cons : Outstanding (n :: news) id ↔
    n.opens id = true ∨ n.ends id = false ∧ Outstanding news id := by
  constructor
  · rintro ⟨later, n', earlier, hsplit, hopens, hlater⟩
    cases later with
    | nil =>
        obtain ⟨rfl, -⟩ := List.cons.inj hsplit
        exact .inl hopens
    | cons head later =>
        obtain ⟨rfl, hrest⟩ := List.cons.inj hsplit
        refine .inr ⟨hlater _ List.mem_cons_self, later, n', earlier, hrest, hopens, ?_⟩
        intro m hm
        exact hlater m (List.mem_cons_of_mem _ hm)
  · rintro (hopens | ⟨hends, later, n', earlier, rfl, hopens, hlater⟩)
    · exact ⟨[], n, news, rfl, hopens, by simp⟩
    · refine ⟨n :: later, n', earlier, rfl, hopens, ?_⟩
      intro m hm
      rcases List.mem_cons.mp hm with rfl | hm
      · exact hends
      · exact hlater m hm

/-- A registered order is outstanding until it is ended. -/
theorem outstanding_or_ended (hn : n ∈ news) (hopens : n.opens id = true) :
    Outstanding news id ∨ Ended news id := by
  obtain ⟨later, earlier, rfl⟩ := List.append_of_mem hn
  by_cases hended : ∃ m ∈ later, m.ends id = true
  · exact .inr ⟨later, n, earlier, rfl, hopens, hended⟩
  · refine .inl ⟨later, n, earlier, rfl, hopens, ?_⟩
    intro m hm
    rw [Bool.eq_false_iff]
    exact fun htrue => hended ⟨m, hm, htrue⟩

/-- The set is made up of the orders that are outstanding by the news. -/
def Counts (orders : List String) (news : List News) : Prop :=
  ∀ id, id ∈ orders ↔ Outstanding news id

/-- News of another kind do not matter to the set. -/
theorem Counts.cons (h : Counts orders news) (hopens : ∀ id, n.opens id = false)
    (hends : ∀ id, n.ends id = false) : Counts orders (n :: news) := by
  intro id
  rw [outstanding_cons, hopens, hends, h id]
  simp

theorem Counts.append {more : List News} (h : Counts orders news)
    (hquiet : ∀ n ∈ more, ∀ id, n.opens id = false ∧ n.ends id = false) :
    Counts orders (more ++ news) := by
  induction more with
  | nil => exact h
  | cons n rest ih =>
      have hhead := hquiet n List.mem_cons_self
      exact (ih fun m hm => hquiet m (List.mem_cons_of_mem n hm)).cons
        (fun id => (hhead id).1) (fun id => (hhead id).2)

theorem Counts.registered (h : Counts orders news) (row : BoxOrderIntent) :
    Counts (if 0 < row.quantity then addMember orders row.clientOrderId else orders)
      (.registered row :: news) := by
  intro id
  have hopens : (News.registered row).opens id =
      decide (row.clientOrderId = id ∧ 0 < row.quantity) := rfl
  have hends : (News.registered row).ends id = false := rfl
  rw [outstanding_cons, hopens, hends]
  by_cases hquantity : 0 < row.quantity
  · simp [hquantity, h id, eq_comm]
  · simp [hquantity, h id]

/-- Ended orders leave the set. -/
theorem Counts.removed (h : Counts orders news) {x : String} (hopens : ∀ id, n.opens id = false)
    (hends : ∀ id, n.ends id = decide (x = id)) : Counts (removeOrder orders x) (n :: news) := by
  intro id
  rw [outstanding_cons, hopens, hends, mem_removeOrder, h id]
  simp [and_comm, eq_comm]

theorem Counts.over (h : Counts orders news) (done : Ingested) (sink : Sink) :
    Counts (ruled orders done sink) (StreamedManager.overNews done sink ++ news) := by
  rw [ruled, StreamedManager.overNews]
  cases done.over sink with
  | none => exact h
  | some x => exact h.removed (fun _ => rfl) (fun _ => rfl)

end News

section Callbacks

variable {c : OrderStreamConsumer} {s s' : Stream} {a : Callback} {news : List News}

theorem working_onAuthenticated (evidence : StreamHealth.OrderStreamAuthEvidence) (now : ℚ) :
    (c.onAuthenticated evidence now).workingOrders = c.workingOrders := by
  rw [OrderStreamConsumer.onAuthenticated]
  split <;> rfl

theorem working_evaluateIdle (now : ℚ) : (c.evaluateIdle now).workingOrders = c.workingOrders := by
  rcases c.evaluateIdle_cases now with hsame | hidle
  · rw [hsame]
  · rw [hidle.2]
    rfl

theorem working_finishSweep (generation : Nat) (result : OrderStreamConsumer.SweepEnd)
    (now : ℚ) : (c.finishSweep generation result now).workingOrders = c.workingOrders := by
  have hfailed : ∀ reason, (c.noteSweepFailure generation reason now).workingOrders =
      c.workingOrders := by
    intro reason
    rw [OrderStreamConsumer.noteSweepFailure]
    dsimp only
    split <;> rfl
  rw [OrderStreamConsumer.finishSweep.eq_def]
  split
  · exact hfailed _
  · split
    · rfl
    · split
      · exact hfailed _
      · dsimp only
        split <;> rfl

theorem working_startSweep : s.startSweep.consumer.workingOrders = s.consumer.workingOrders := by
  have hset : (s.consumer.runReconnectReconciliation s.nextBarrier).2.workingOrders =
      s.consumer.workingOrders := by
    rw [OrderStreamConsumer.runReconnectReconciliation]
    split
    · rfl
    · split
      · rfl
      · split <;> rfl
  rw [Stream.startSweep]
  dsimp only
  split <;> exact hset

/-- Callbacks other than a registration keep the set and the news together. -/
theorem Counts.callback (h : Counts s.consumer.workingOrders news)
    (hstep : s.step a = some s')
    (hregister : ∀ args account, a ≠ .register args account) :
    Counts s'.consumer.workingOrders
      (StreamedManager.callbackNews s.consumer a ++ news) := by
  have hsame : ∀ {u : Stream}, u.consumer.workingOrders = s.consumer.workingOrders →
      some u = some s' → Counts s'.consumer.workingOrders news := by
    intro u hu heq
    obtain rfl := Option.some.inj heq
    rwa [hu]
  cases a with
  | connecting => exact Option.some.inj hstep ▸ h
  | «open» => exact Option.some.inj hstep ▸ h
  | ready evidence now => exact hsame (working_onAuthenticated evidence now) hstep
  | frame obs now sink =>
      obtain rfl := Option.some.inj hstep
      have hworking := @working_ingest s.consumer { obs with source := .orderUpdate } now sink
      exact hworking ▸ h.over _ sink
  | rest obs source now sink =>
      obtain rfl := Option.some.inj hstep
      exact working_ingestRest (c := s.consumer) source ▸ h.over _ sink
  | idle => exact Option.some.inj hstep ▸ h
  | evaluateIdle now => exact hsame (working_evaluateIdle now) hstep
  | close => exact Option.some.inj hstep ▸ h
  | authFailure => exact Option.some.inj hstep ▸ h
  | setStreamEnabled enabled => exact Option.some.inj hstep ▸ h
  | restVerified => exact Option.some.inj hstep ▸ h
  | register args account => exact absurd rfl (hregister args account)
  | settle clientOrderId =>
      obtain rfl := Option.some.inj hstep
      exact h.removed (fun _ => rfl) (fun _ => rfl)
  | learn clientOrderId brokerOrderId => exact Option.some.inj hstep ▸ h
  | reconcile => exact hsame working_startSweep hstep
  | ensureReconciled now =>
      refine hsame ?_ hstep
      split
      · exact working_startSweep
      · rfl
  | sweepEnds barrier result now =>
      obtain ⟨sweep, -, rfl⟩ := Option.map_eq_some_iff.mp hstep
      exact (working_finishSweep (c := s.consumer) sweep.generation result now).symm ▸ h
  | sweepReleases barrier =>
      obtain ⟨sweep, -, rfl⟩ := Option.map_eq_some_iff.mp hstep
      have hrelease : (s.consumer.releaseSweep barrier).workingOrders =
          s.consumer.workingOrders := by
        rw [OrderStreamConsumer.releaseSweep]
        split <;> rfl
      exact hrelease.symm ▸ h

end Callbacks

/-- The order has an owner tag to register it under. -/
def Tagged (wiring : StreamWiring) (intent : BoxOrderIntent) : Prop :=
  wiring.ownerTagFor intent (requestFromIntent intent) ≠ ""

/-- What can make the durable intent of a counted order terminal: a local refusal, or a
snapshot that the consumer was handed. -/
def Explained (news : List News) (id : ClientOrderId) : Prop :=
  .refused id ∈ news ∨
    ∃ order, .handed id order ∈ news ∧ isBrokerOrderTerminal order.state = true

namespace StreamedManager

/-- This process moved the intent to SUBMITTING. -/
def Opened (s : StreamedManager) (id : ClientOrderId) : Prop :=
  (∃ i t row previous current, s.manager.tasks.get? i = some t ∧ t.phase = .submitting ∧
      t.reply = some (.updated (.applied row previous current)) ∧ row.clientOrderId = id) ∨
    ∃ intent, .registered intent ∈ s.news ∧ intent.clientOrderId = id

/-- The intent is in the journal, and if it is terminal the news say why. -/
def Durable (s : StreamedManager) (id : ClientOrderId) : Prop :=
  ∃ row, s.manager.journal.find id = some row ∧
    (isBrokerOrderTerminal row.state = true → Explained s.news id)

structure Tracked (wiring : StreamWiring) (s : StreamedManager) : Prop where
  counted : Counts s.stream.consumer.workingOrders s.news
  durable : ∀ id, s.Opened id → s.Durable id
  toBroker : ∀ i t, s.manager.tasks.get? i = some t → t.phase.toBroker = true →
    Tagged wiring t.intent → .registered t.intent ∈ s.news
  writing : ∀ i t site order, s.manager.tasks.get? i = some t →
    t.phase = .persisting site order →
    .handed (site.intentOf t.intent).clientOrderId order ∈ s.news
  pass : ∀ run intent order, s.manager.reconcileRun = some run →
    run.phase = .persisting intent order → .handed intent.clientOrderId order ∈ s.news
  posted : ∀ intent, .posted intent ∈ s.news → Tagged wiring intent →
    .registered intent ∈ s.news

section Steps

variable {wiring : StreamWiring} {cfg : Config} {s s' : StreamedManager} {label : Label}
variable {m' : OrderManager} {around : Surroundings} {id : ClientOrderId} {news : List News}

theorem counted_register (h : Counts s.stream.consumer.workingOrders s.news)
    (submitted : Option (BoxOrderIntent × BoxOrderIntent)) :
    Counts (s.register wiring around submitted).stream.consumer.workingOrders
      (s.register wiring around submitted).news := by
  rw [register.eq_def]
  split
  · exact h
  · rename_i created row
    rw [StreamWiring.registration]
    split
    · exact h
    · rename_i heq
      split at heq
      · cases heq
      · obtain rfl := Option.some.inj heq
        have hregistered := h.registered row
        simpa [Stream.become, OrderStreamConsumer.registerIntent, Number.isPositive] using
          hregistered

theorem counted_note (h : Counts s.stream.consumer.workingOrders s.news)
    (snapshot : Option (BoxOrderIntent × BrokerOrder)) :
    Counts (s.note wiring around snapshot).stream.consumer.workingOrders
      (s.note wiring around snapshot).news := by
  rw [note.eq_def]
  split
  · exact h
  · rename_i intent order
    have hlearnt : ∀ b : Bool, (if b then s.stream.consumer.learnBrokerOrderId
        intent.clientOrderId order.brokerOrderId else s.stream.consumer).workingOrders =
          s.stream.consumer.workingOrders := by
      intro b
      cases b <;> rfl
    have hhanded := h.cons (n := .handed intent.clientOrderId order) (fun _ => rfl)
      (fun _ => rfl)
    show Counts (OrderStreamConsumer.noteStreamBrokerSnapshot _ _ _ _ _).consumer.workingOrders _
    rw [OrderStreamConsumer.noteStreamBrokerSnapshot, working_ingestRest, hlearnt]
    exact hhanded.over _ _

theorem mem_register {n : News} {submitted : Option (BoxOrderIntent × BoxOrderIntent)} :
    n ∈ (s.register wiring around submitted).news ↔ n ∈ s.news ∨
      ∃ created row, submitted = some (created, row) ∧
        wiring.ownerTagFor row (requestFromIntent created) ≠ "" ∧ n = .registered row := by
  rw [register.eq_def]
  split
  · simp
  · rename_i created row
    rw [StreamWiring.registration]
    by_cases htag : wiring.ownerTagFor row (requestFromIntent created) = ""
    · simp [htag]
    · simp [htag, or_comm]

theorem mem_note {n : News} {snapshot : Option (BoxOrderIntent × BrokerOrder)}
    (hn : ∀ x, n ≠ .over x) :
    n ∈ (s.note wiring around snapshot).news ↔ n ∈ s.news ∨
      ∃ intent order, snapshot = some (intent, order) ∧
        n = .handed intent.clientOrderId order := by
  rw [note.eq_def]
  split
  · simp
  · rename_i intent order
    have hover : ∀ done sink, n ∉ overNews done sink := by
      intro done sink hmem
      obtain ⟨x, -, rfl⟩ := List.mem_map.mp hmem
      exact hn x rfl
    simp [hover, or_comm]

@[simp] theorem register_manager (submitted : Option (BoxOrderIntent × BoxOrderIntent)) :
    (s.register wiring around submitted).manager = s.manager := by
  rw [register.eq_def]
  split
  · rfl
  · split <;> rfl

@[simp] theorem note_manager (snapshot : Option (BoxOrderIntent × BrokerOrder)) :
    (s.note wiring around snapshot).manager = s.manager := by
  rw [note.eq_def]
  split <;> rfl

/-- What a step of the manager adds to the news. -/
structure Managed (wiring : StreamWiring) (cfg : Config) (s : StreamedManager) (label : Label)
    (s' : StreamedManager) : Prop where
  stepped : s.manager.step cfg label = some s'.manager
  counted : Counts s.stream.consumer.workingOrders s.news →
    Counts s'.stream.consumer.workingOrders s'.news
  kept : ∀ n, n ∈ s.news → (∀ x, n ≠ .over x) → n ∈ s'.news
  registered : ∀ row, .registered row ∈ s'.news ↔ .registered row ∈ s.news ∨
    ∃ created, submitting s.manager label = some (created, row) ∧
      wiring.ownerTagFor row (requestFromIntent created) ≠ ""
  handed : ∀ intent order, handing s'.manager label = some (intent, order) →
    .handed intent.clientOrderId order ∈ s'.news
  refused : ∀ intent, refusing s.manager label = some intent →
    .refused intent.clientOrderId ∈ s'.news
  posted : ∀ intent, .posted intent ∈ s'.news →
    .posted intent ∈ s.news ∨ posting s'.manager label = some intent

theorem managed (h : s.manage wiring cfg label around = some s') :
    Managed wiring cfg s label s' := by
  obtain ⟨m, hstep, rfl⟩ := Option.map_eq_some_iff.mp h
  set moved : StreamedManager := { s with manager := m } with hmoved
  have hnews : moved.news = s.news := rfl
  have hmanager : moved.manager = m := rfl
  refine ⟨?_, ?_, ?_, ?_, ?_, ?_, ?_⟩
  · simpa [report] using hstep
  · intro hcounted
    have hregistered := @counted_register wiring moved around hcounted (submitting s.manager label)
    have hnoted := @counted_note wiring _ around hregistered (handing m label)
    refine hnoted.append fun n hn => ?_
    rcases List.mem_append.mp hn with hn | hn
    · obtain ⟨intent, -, rfl⟩ := List.mem_map.mp hn
      exact fun _ => ⟨rfl, rfl⟩
    · obtain ⟨intent, -, rfl⟩ := List.mem_map.mp hn
      exact fun _ => ⟨rfl, rfl⟩
  · intro n hn hover
    exact List.mem_append_right _ ((mem_note hover).mpr (.inl (mem_register.mpr (.inl hn))))
  · intro row
    simp [report, mem_note, mem_register, hnews]
  · intro intent order hhanding
    refine List.mem_append_right _ ((mem_note (by simp)).mpr (.inr ⟨intent, order, ?_, rfl⟩))
    simpa [report, hmanager] using hhanding
  · intro intent hrefusing
    simp [report, hrefusing]
  · intro intent hposted
    simpa [report, mem_note, mem_register, hnews, hmanager, or_comm] using hposted

/-- The patch an update asks for makes the row terminal only for a reason in the news. -/
theorem explained_of_call (h : Tracked wiring s) {caller : Caller} {call : JournalCall}
    {reply : Option JournalReply} (hpending : s.manager.pending caller = some (call, reply))
    (hrefused : ∀ intent, refusing s.manager (.serve caller) = some intent →
      .refused intent.clientOrderId ∈ news)
    (hnews : ∀ x order, .handed x order ∈ s.news → .handed x order ∈ news)
    {patch : BoxOrderIntentPatch} {audit : BoxOrderIntentAudit}
    {expected : Option (List BoxOrderIntentState)} (hcall : call = .update id patch audit expected)
    {state : BoxOrderIntentState} (hstate : patch.state = some state)
    (hterminal : isBrokerOrderTerminal state = true) : Explained news id := by
  subst hcall
  cases caller with
  | action i =>
      obtain ⟨t, ht, hsome⟩ := Option.bind_eq_some_iff.mp hpending
      obtain ⟨call, hcall, heq⟩ := Option.map_eq_some_iff.mp hsome
      obtain ⟨rfl, -⟩ := Prod.mk.inj heq
      rw [Task.call] at hcall
      split at hcall
      · cases hcall
      · simp only [transitionCall, Option.some.injEq, JournalCall.update.injEq] at hcall
        obtain ⟨-, rfl, -, -⟩ := hcall
        obtain rfl := Option.some.inj hstate
        cases hterminal
      · rename_i stage reason hphase
        simp only [transitionCall, Option.some.injEq, JournalCall.update.injEq] at hcall
        obtain ⟨rfl, -, -, -⟩ := hcall
        refine .inl (hrefused t.intent ?_)
        simp [refusing, ht, hphase]
      · rename_i site order hphase
        simp only [persistCall, Option.some.injEq, JournalCall.update.injEq] at hcall
        obtain ⟨rfl, rfl, -, -⟩ := hcall
        obtain rfl := Option.some.inj hstate
        exact .inr ⟨order, hnews _ _ (h.writing i t site order ht hphase), hterminal⟩
      · simp only [transitionCall, Option.some.injEq, JournalCall.update.injEq] at hcall
        obtain ⟨-, rfl, -, -⟩ := hcall
        obtain rfl := Option.some.inj hstate
        cases hterminal
      · cases hcall
  | reconcile =>
      obtain ⟨run, hrun, hsome⟩ := Option.bind_eq_some_iff.mp hpending
      obtain ⟨call, hcall, heq⟩ := Option.map_eq_some_iff.mp hsome
      obtain ⟨rfl, -⟩ := Prod.mk.inj heq
      rw [ReconcileRun.call] at hcall
      split at hcall
      · cases hcall
      · cases hcall
      · rename_i intent order hphase
        simp only [persistCall, Option.some.injEq, JournalCall.update.injEq] at hcall
        obtain ⟨rfl, rfl, -, -⟩ := hcall
        obtain rfl := Option.some.inj hstate
        exact .inr ⟨order, hnews _ _ (h.pass run intent order hrun hphase), hterminal⟩
      · simp only [transitionCall, Option.some.injEq, JournalCall.update.injEq] at hcall
        obtain ⟨-, rfl, -, -⟩ := hcall
        obtain rfl := Option.some.inj hstate
        cases hterminal
      · cases hcall

theorem explained_managed (h : Explained s.news id) (hm : Managed wiring cfg s label s') :
    Explained s'.news id := by
  rcases h with hrefused | ⟨order, hhanded, hterminal⟩
  · exact .inl (hm.kept _ hrefused (by simp))
  · exact .inr ⟨order, hm.kept _ hhanded (by simp), hterminal⟩

/-- A durable intent stays, and what makes it terminal is in the news. -/
theorem Durable.managed (h : s.Durable id) (htracked : Tracked wiring s)
    (hm : Managed wiring cfg s label s') (hown : ∀ row, label ≠ .foreign row) :
    s'.Durable id := by
  obtain ⟨row, hfind, hwhy⟩ := h
  have hsame : s'.manager.journal = s.manager.journal → s'.Durable id := by
    intro hjournal
    exact ⟨row, hjournal ▸ hfind, fun hterminal => explained_managed (hwhy hterminal) hm⟩
  have hjournal := (step_stepped hm.stepped).journal
  rw [journalAfter.eq_def] at hjournal
  split at hjournal
  · rename_i caller
    split at hjournal
    · rename_i call reply hpending
      have hperforms := s.manager.journal.performs cfg.persistence call
      rw [← hjournal] at hperforms
      generalize (s.manager.journal.perform cfg.persistence call).2 = answer at hperforms
      generalize hnext : s'.manager.journal = next at hperforms
      cases hperforms with
      | nothing unapplied => exact hsame hnext
      | @inserted intent fresh =>
          have hne : id ≠ intent.clientOrderId := by
            rintro rfl
            rw [fresh] at hfind
            cases hfind
          refine ⟨row, ?_, fun hterminal => explained_managed (hwhy hterminal) hm⟩
          rw [hnext, Journal.find_put, if_neg hne, hfind]
      | @written x patch audit expected before found admitted sound =>
          have hkey : before.clientOrderId = x := s.manager.journal.keyed x before found
          have hfind' : s'.manager.journal.find id = if id = x then
              some ((patch.apply before).recordAudit audit) else s.manager.journal.find id := by
            rw [hnext, Journal.find_written, recordAudit_clientOrderId, apply_clientOrderId, hkey]
          by_cases hid : id = x
          · subst hid
            refine ⟨_, hfind'.trans (if_pos rfl), fun hterminal => ?_⟩
            rw [recordAudit_state, apply_state] at hterminal
            cases hstate : patch.state with
            | none =>
                obtain rfl := Option.some.inj (hfind.symm.trans found)
                rw [hstate] at hterminal
                exact explained_managed (hwhy hterminal) hm
            | some state =>
                rw [hstate] at hterminal
                exact explained_of_call htracked hpending hm.refused
                  (fun y order hhanded => hm.kept _ hhanded (by simp)) rfl hstate hterminal
          · exact ⟨row, hfind'.trans ((if_neg hid).trans hfind),
              fun hterminal => explained_managed (hwhy hterminal) hm⟩
    · exact hsame hjournal
  · rename_i row'
    exact absurd rfl (hown row')
  · exact hsame hjournal

/-- The tag an order is registered under is the one its row has. -/
theorem tag_of_created {created row : BoxOrderIntent} (h : Tagged wiring row) :
    wiring.ownerTagFor row (requestFromIntent created) ≠ "" := by
  rw [Tagged, StreamWiring.ownerTagFor] at h
  rw [StreamWiring.ownerTagFor]
  cases hbroker : wiring.broker with
  | dhan =>
      rw [hbroker] at h
      exact h
  | zerodha =>
      rw [hbroker] at h
      cases htag : row.brokerTag with
      | none => simp [requestFromIntent, htag] at h
      | some tag => simpa [requestFromIntent, htag] using h

theorem submitting_eq_some {created row : BoxOrderIntent} :
    submitting s.manager label = some (created, row) ↔ ∃ w i t reply,
      label = .resume w (.action i) ∧ s.manager.tasks.get? i = some t ∧
        t.reply = some reply ∧ t.Submits reply row ∧ t.intent = created := by
  constructor
  · intro h
    rw [submitting.eq_def] at h
    split at h
    · rename_i w i
      obtain ⟨t, ht, h1⟩ := Option.bind_eq_some_iff.mp h
      split at h1
      · rename_i row' previous current hphase hreply
        split at h1
        · rename_i hstate
          obtain ⟨rfl, rfl⟩ := Prod.mk.inj (Option.some.inj h1)
          exact ⟨w, i, t, _, rfl, ht, hreply, ⟨hphase, hstate, previous, current, rfl⟩, rfl⟩
        · cases h1
      · cases h1
    · cases h
  · rintro ⟨w, i, t, reply, rfl, ht, hreply, ⟨hphase, hstate, previous, current, rfl⟩, rfl⟩
    simp [submitting, ht, hphase, hreply, hstate]

/-- An order this process opened in a step is durable after it. -/
theorem durable_of_served {i : TaskId} {t : Task} {call : JournalCall} {row : BoxOrderIntent}
    {previous current : Nat} (hm : Managed wiring cfg s (.serve (.action i)) s')
    (ht : s.manager.tasks.get? i = some t) (hphase : t.phase = .submitting)
    (hcall : t.call = some call)
    (hreply : (s.manager.journal.perform cfg.persistence call).2 =
      .updated (.applied row previous current)) : s'.Durable row.clientOrderId := by
  have hjournal := (step_stepped hm.stepped).journal
  have hpending : s.manager.pending (.action i) = some (call, t.reply) := by
    simp [pending, ht, hcall]
  simp only [journalAfter, hpending] at hjournal
  have hperforms := s.manager.journal.performs cfg.persistence call
  rw [hreply, ← hjournal] at hperforms
  obtain rfl : transitionCall t.intent .submitting none "transport submission starting"
      (some [.created]) none = call := by
    simpa only [Task.call, hphase, Option.some.injEq] using hcall
  generalize hnext : s'.manager.journal = next at hperforms
  cases hperforms with
  | nothing unapplied => exact absurd rfl (unapplied _ _ _)
  | @written _ _ _ _ before found admitted sound =>
      have hfound := (congrArg (Journal.find · _) hnext).trans
        (Journal.find_written.trans (if_pos rfl))
      refine ⟨_, hfound, fun hterminal => ?_⟩
      rw [recordAudit_state, apply_state] at hterminal
      cases hterminal

/-- An action found after a step, seen from before it. -/
theorem opened_managed (hm : Managed wiring cfg s label s') (h : s'.Opened id) :
    s.Opened id ∨ s'.Durable id := by
  rcases h with ⟨i, t', row, previous, current, ht', hphase, hreply, rfl⟩ |
    ⟨intent, hregistered, rfl⟩
  · rcases (step_stepped hm.stepped).tasks i t' ht' with hold | ⟨action, slot, rfl⟩ |
      ⟨t, ht, hmove⟩
    · exact .inl (.inl ⟨i, t', row, previous, current, hold, hphase, hreply, rfl⟩)
    · cases hreply
    · rcases hmove.learns hphase hreply with rfl | ⟨rfl, hsubmitting, call, hcall, hperformed⟩
      · exact .inl (.inl ⟨i, t', row, previous, current, ht, hphase, hreply, rfl⟩)
      · exact .inr (durable_of_served hm ht hsubmitting hcall hperformed)
  · rcases (hm.registered intent).mp hregistered with hold | ⟨created, hsubmitting, -⟩
    · exact .inl (.inr ⟨intent, hold, rfl⟩)
    · obtain ⟨w, i, t, reply, -, ht, hreply, ⟨hphase, -, previous, current, rfl⟩, -⟩ :=
        submitting_eq_some.mp hsubmitting
      exact .inl (.inl ⟨i, t, intent, previous, current, ht, hphase, hreply, rfl⟩)

theorem handing_of_answers {i : TaskId} {t' : Task} {site : PersistSite} {order : BrokerOrder}
    (hanswers : label.answers = some i) (ht' : m'.tasks.get? i = some t')
    (hphase : t'.phase = .persisting site order) :
    handing m' label = some (site.intentOf t'.intent, order) := by
  have hwritten : (m'.tasks.get? i).bind writtenBy = some (site.intentOf t'.intent, order) := by
    simp [ht', writtenBy, hphase]
  cases label with
  | fetched w j answer => exact Option.some.inj hanswers ▸ hwritten
  | submitted w j answer => exact Option.some.inj hanswers ▸ hwritten
  | cancelled w j answer => exact Option.some.inj hanswers ▸ hwritten
  | _ => cases hanswers

theorem toBroker_managed (h : Tracked wiring s) (hm : Managed wiring cfg s label s')
    {i : TaskId} {t' : Task} (ht' : s'.manager.tasks.get? i = some t')
    (hphase : t'.phase.toBroker = true) (htagged : Tagged wiring t'.intent) :
    .registered t'.intent ∈ s'.news := by
  rcases (step_stepped hm.stepped).tasks i t' ht' with hold | ⟨action, slot, rfl⟩ | ⟨t, ht, hmove⟩
  · exact hm.kept _ (h.toBroker i t' hold hphase htagged) (by simp)
  · cases action <;> cases hphase
  · rcases hmove.toBroker hphase with ⟨hbefore, hintent⟩ | ⟨w, reply, rfl, hreply, hsubmits⟩
    · rw [← hintent] at htagged ⊢
      exact hm.kept _ (h.toBroker i t ht hbefore htagged) (by simp)
    · refine (hm.registered t'.intent).mpr (.inr ⟨t.intent, ?_, tag_of_created htagged⟩)
      exact submitting_eq_some.mpr ⟨w, i, t, reply, rfl, ht, hreply, hsubmits, rfl⟩

/-- A POST begins in the phase of sending. -/
theorem toBroker_of_posting {intent : BoxOrderIntent} (hstep : s.manager.step cfg label = some m')
    (h : posting m' label = some intent) :
    ∃ i t', m'.tasks.get? i = some t' ∧ t'.phase.toBroker = true ∧ t'.intent = intent := by
  rw [posting.eq_def] at h
  split at h
  · rename_i w i
    obtain ⟨t', hfiltered, rfl⟩ := Option.map_eq_some_iff.mp h
    obtain ⟨ht', hbegan⟩ := Option.filter_eq_some_iff.mp hfiltered
    refine ⟨i, t', ht', ?_, rfl⟩
    rcases (step_stepped hstep).tasks i t' ht' with hold | ⟨action, slot, rfl⟩ | ⟨t, ht, hmove⟩
    · obtain ⟨t, hin, -⟩ := Option.map_eq_some_iff.mp hstep
      obtain ⟨hget, hsending⟩ := LegInvariant.taskIn hin
      obtain rfl := Option.some.inj (hold.symm.trans hget)
      rw [hsending]
      rfl
    · cases hbegan
    · cases hmove with
      | asked hsending hphase hintent hreply =>
          rw [hphase]
          rfl
  · cases h

/-- One step of the manager with its calls on the consumer. -/
theorem Tracked.managed (h : Tracked wiring s) (hm : Managed wiring cfg s label s')
    (hown : ∀ row, label ≠ .foreign row) : Tracked wiring s' where
  counted := hm.counted h.counted
  durable id hopened := by
    rcases opened_managed hm hopened with hold | hdurable
    · exact (h.durable id hold).managed h hm hown
    · exact hdurable
  toBroker i t' ht' hphase htagged := toBroker_managed h hm ht' hphase htagged
  writing i t' site order ht' hphase := by
    rcases (step_stepped hm.stepped).tasks i t' ht' with hold | ⟨action, slot, rfl⟩ |
      ⟨t, ht, hmove⟩
    · exact hm.kept _ (h.writing i t' site order hold hphase) (by simp)
    · cases action <;> cases hphase
    · rcases hmove.writes hphase with ⟨hbefore, hintent⟩ | hanswers
      · rw [← hintent]
        exact hm.kept _ (h.writing i t site order ht hbefore) (by simp)
      · exact hm.handed _ _ (handing_of_answers hanswers ht' hphase)
  pass run' intent order hrun' hphase := by
    by_cases hanswered : ∃ w answer, label = .reconcileAnswered w answer
    · obtain ⟨w, answer, rfl⟩ := hanswered
      refine hm.handed intent order ?_
      simp [handing, hrun', writtenByPass, hphase]
    · have hkeeps := step_keepsPass hm.stepped fun w answer heq => hanswered ⟨w, answer, heq⟩
      obtain ⟨run, hrun, hbefore⟩ := hkeeps run' intent order hrun' hphase
      exact hm.kept _ (h.pass run intent order hrun hbefore) (by simp)
  posted intent hposted htagged := by
    rcases hm.posted intent hposted with hold | hposting
    · exact hm.kept _ (h.posted intent hold htagged) (by simp)
    · obtain ⟨i, t', ht', hphase, rfl⟩ := toBroker_of_posting hm.stepped hposting
      exact toBroker_managed h hm ht' hphase htagged

/-- One step of the transports or a sweep. -/
theorem Tracked.listen (h : Tracked wiring s) {a : Callback} (hstep : s.listen a = some s')
    (hregister : ∀ args account, a ≠ .register args account) : Tracked wiring s' := by
  obtain ⟨stream, hstream, rfl⟩ := Option.map_eq_some_iff.mp hstep
  have hadded : ∀ n ∈ callbackNews s.stream.consumer a, (∃ x, n = .over x) ∨
      ∃ x, n = .settled x := by
    intro n hn
    have hover : ∀ done sink, n ∈ overNews done sink → ∃ x, n = .over x := by
      intro done sink hmem
      obtain ⟨x, -, rfl⟩ := List.mem_map.mp hmem
      exact ⟨x, rfl⟩
    rw [callbackNews.eq_def] at hn
    split at hn
    · exact .inl (hover _ _ hn)
    · exact .inl (hover _ _ hn)
    · exact .inr ⟨_, List.mem_singleton.mp hn⟩
    · cases hn
  have hold : ∀ n, (∀ x, n ≠ .over x) → (∀ x, n ≠ .settled x) →
      n ∈ callbackNews s.stream.consumer a ++ s.news → n ∈ s.news := by
    intro n hover hsettled hn
    rcases List.mem_append.mp hn with hn | hn
    · rcases hadded n hn with ⟨x, rfl⟩ | ⟨x, rfl⟩
      · exact absurd rfl (hover x)
      · exact absurd rfl (hsettled x)
    · exact hn
  refine
    { counted := h.counted.callback hstream hregister
      durable := fun x hopened => ?_
      toBroker := fun i t ht hphase htagged =>
        List.mem_append_right _ (h.toBroker i t ht hphase htagged)
      writing := fun i t site order ht hphase =>
        List.mem_append_right _ (h.writing i t site order ht hphase)
      pass := fun run intent order hrun hphase =>
        List.mem_append_right _ (h.pass run intent order hrun hphase)
      posted := fun intent hposted htagged => List.mem_append_right _
        (h.posted intent (hold _ (by simp) (by simp) hposted) htagged) }
  have hbefore : s.Opened x := by
    rcases hopened with htask | ⟨intent, hregistered, hid⟩
    · exact .inl htask
    · exact .inr ⟨intent, hold _ (by simp) (by simp) hregistered, hid⟩
  obtain ⟨row, hfind, hwhy⟩ := h.durable x hbefore
  refine ⟨row, hfind, fun hterminal => ?_⟩
  rcases hwhy hterminal with hrefused | ⟨order, hhanded, hstate⟩
  · exact .inl (List.mem_append_right _ hrefused)
  · exact .inr ⟨order, List.mem_append_right _ hhanded, hstate⟩

theorem Tracked.step {a : Move} (h : Tracked wiring s) (hstep : step wiring cfg s a = some s') :
    Tracked wiring s' := by
  rw [StreamedManager.step.eq_def] at hstep
  split at hstep
  · cases hstep
  · rename_i label around hown
    exact h.managed (StreamedManager.managed hstep) hown
  · cases hstep
  · rename_i a hregister
    exact h.listen hstep hregister

theorem tracked_start (controls : OrderManagerControls) (day : String) (journal : Journal)
    (opts : OrderStreamConsumerOptions) :
    Tracked wiring (start (.create controls day journal) opts) where
  counted id := by
    constructor
    · intro hmem
      cases hmem
    · rintro ⟨later, n, earlier, hsplit, -⟩
      cases later <;> cases hsplit
  durable id hopened := by
    rcases hopened with ⟨i, t, row, previous, current, ht, -⟩ | ⟨intent, hmem, -⟩
    · cases ht
    · cases hmem
  toBroker i t ht := by cases ht
  writing i t site order ht := by cases ht
  pass run intent order hrun := by cases hrun
  posted intent hmem := by cases hmem

end Steps

end StreamedManager

def News.postedIntent : News → Option BoxOrderIntent
  | .posted intent => some intent
  | _ => none

/-- Every counted order has an intent that is not terminal. -/
def CountedAreOpen (s : StreamedManager) : Prop :=
  ∀ id ∈ s.stream.consumer.workingOrders,
    (s.manager.journal.find id).any (fun row => !isBrokerOrderTerminal row.state) = true

/-- Every order whose POST has begun and whose intent is not terminal is counted. -/
def PostedAreCounted (s : StreamedManager) : Prop :=
  ∀ intent ∈ s.news.filterMap News.postedIntent,
    (s.manager.journal.find intent.clientOrderId).any
        (fun row => !isBrokerOrderTerminal row.state) = true →
      intent.clientOrderId ∈ s.stream.consumer.workingOrders

instance (s : StreamedManager) : Decidable (CountedAreOpen s) :=
  inferInstanceAs (Decidable (∀ id ∈ s.stream.consumer.workingOrders, _))

instance (s : StreamedManager) : Decidable (PostedAreCounted s) :=
  inferInstanceAs (Decidable (∀ intent ∈ s.news.filterMap News.postedIntent, _))

namespace Sample

open Orders.Sample

def wiring : StreamWiring where
  broker := .zerodha
  correlationId intent := intent.clientOrderId

/-- The adapter tags an order with its client order id. -/
def tagging : Config :=
  { Orders.Sample.config with prepareOrder := fun r => { r with tag := some r.clientOrderId } }

def managed : StreamedManager :=
  .start (Orders.Sample.manager .empty) { streamEnabled := true }

def leg : BrokerOrderRequest := request .k1Ce .buy .entry

def manages (around : Surroundings) (labels : List Label) : List StreamedManager.Move :=
  labels.map (.manage · around)

/-- One leg of an attempt is admitted and its intent created. -/
def admitted : List StreamedManager.Move :=
  manages {} (warmUp ++ [.submit (world 100) leg none (some ⟨0, true, 1⟩)] ++ answered 0)

/-- The leg is registered, and its POST begins. -/
def sent : List StreamedManager.Move :=
  admitted ++ manages {} (answered 0 ++ [.pass 0, .prePost (world 100) 0])

/-- The entry is no longer wanted once the intent is SUBMITTING. -/
def unwanted : List StreamedManager.Move :=
  admitted ++ manages {}
    [.serve (.action 0), .resume { world 100 with stillWanted := false } (.action 0),
      .serve (.action 0)]

/-- The broker returns a filled order, which the journal has not yet recorded. -/
def filled : List StreamedManager.Move :=
  sent ++ manages { sink := .works (some .complete) }
    [.submitted (world 100) 0 (.ok (order leg .complete leg.quantity))]

/-- The broker rejects the order, and the adapter does not know it. -/
def unheard : List StreamedManager.Move :=
  sent ++ manages { sink := .works none }
    [.submitted (world 100) 0 (.error (.orderRejected (order leg .rejected 0))),
      .serve (.action 0)]

/-- Whether the counted orders are open, the posted ones counted, and none refused. -/
def verdict (cfg : Config) (moves : List StreamedManager.Move) : Option (Bool × Bool × Bool) :=
  (run (StreamedManager.step wiring cfg) managed moves).map fun s =>
    (decide (CountedAreOpen s), decide (PostedAreCounted s),
      decide (.refused leg.clientOrderId ∉ s.news))

end Sample

/-- An order is counted exactly while it is registered and nothing has ended it since. A
counted order has a durable intent, which is not terminal unless it was refused locally or a
terminal snapshot was handed to the consumer first; and an order whose POST has begun is
counted until it is ended, if it has a tag and a quantity. -/
theorem working_orders_follow_the_news (wiring : StreamWiring) (cfg : Config)
    (controls : OrderManagerControls) (day : String) (journal : Journal)
    (opts : OrderStreamConsumerOptions) (moves : List StreamedManager.Move)
    (s : StreamedManager)
    (hrun : run (StreamedManager.step wiring cfg)
      (.start (.create controls day journal) opts) moves = some s) :
    (∀ id, id ∈ s.stream.consumer.workingOrders ↔ Outstanding s.news id) ∧
      (∀ id ∈ s.stream.consumer.workingOrders, ∃ row, s.manager.journal.find id = some row ∧
        (isBrokerOrderTerminal row.state = true → Explained s.news id)) ∧
      ∀ intent, .posted intent ∈ s.news → Tagged wiring intent → 0 < intent.quantity →
        intent.clientOrderId ∈ s.stream.consumer.workingOrders ∨
          Ended s.news intent.clientOrderId := by
  have htracked : s.Tracked wiring :=
    run_invariant (I := StreamedManager.Tracked wiring)
      (fun _ _ _ h hstep => h.step hstep) (StreamedManager.tracked_start controls day journal opts)
      hrun
  refine ⟨htracked.counted, fun id hmem => ?_, fun intent hposted htagged hquantity => ?_⟩
  · obtain ⟨later, n, earlier, hsplit, hopens, -⟩ := (htracked.counted id).mp hmem
    apply htracked.durable
    cases n with
    | registered intent =>
        have hid : intent.clientOrderId = id := (of_decide_eq_true hopens).1
        exact .inr ⟨intent, hsplit ▸ List.mem_append_right _ List.mem_cons_self, hid⟩
    | _ => cases hopens
  · rw [htracked.counted]
    have hopens : (News.registered intent).opens intent.clientOrderId = true := by
      simp [News.opens, hquantity]
    exact outstanding_or_ended (htracked.posted intent hposted htagged) hopens

/-- A leg that is filled at once is counted until its snapshot arrives. -/
theorem working_orders_follow_the_news_sample : ∃ s,
    run (StreamedManager.step Sample.wiring Sample.tagging) Sample.managed Sample.sent = some s ∧
      ∀ id, id ∈ s.stream.consumer.workingOrders ↔ Outstanding s.news id := by
  have hend : (run (StreamedManager.step Sample.wiring Sample.tagging) Sample.managed
      Sample.sent).isSome = true := by decide +kernel
  obtain ⟨s, hrun⟩ := Option.isSome_iff_exists.mp hend
  exact ⟨s, hrun, (working_orders_follow_the_news Sample.wiring Sample.tagging ⟨true, true⟩ "D"
    .empty { streamEnabled := true } Sample.sent s hrun).1⟩

/-- The set is not the journal's: a leg that is refused locally after its registration stays
counted, and so does one whose rejection the adapter does not take; a filled leg is dropped
before its row is written, and one without a tag is never counted. -/
theorem working_orders_leave_the_journal :
    (∃ s, run (StreamedManager.step Sample.wiring Sample.tagging) Sample.managed
      Sample.unwanted = some s ∧ ¬ CountedAreOpen s) ∧
    (∃ s, run (StreamedManager.step Sample.wiring Sample.tagging) Sample.managed
      Sample.unheard = some s ∧ ¬ CountedAreOpen s ∧
        .refused Sample.leg.clientOrderId ∉ s.news) ∧
    (∃ s, run (StreamedManager.step Sample.wiring Sample.tagging) Sample.managed
      Sample.filled = some s ∧ ¬ PostedAreCounted s) ∧
    ∃ s, run (StreamedManager.step Sample.wiring Orders.Sample.config) Sample.managed
      Sample.sent = some s ∧ ¬ PostedAreCounted s := by
  have hend : ∀ {cfg moves verdict}, Sample.verdict cfg moves = some verdict →
      ∃ s, run (StreamedManager.step Sample.wiring cfg) Sample.managed moves = some s ∧
        decide (CountedAreOpen s) = verdict.1 ∧ decide (PostedAreCounted s) = verdict.2.1 ∧
        decide (.refused Sample.leg.clientOrderId ∉ s.news) = verdict.2.2 := by
    intro cfg moves verdict h
    obtain ⟨s, hrun, rfl⟩ := Option.map_eq_some_iff.mp h
    exact ⟨s, hrun, rfl, rfl, rfl⟩
  refine ⟨?_, ?_, ?_, ?_⟩
  · obtain ⟨s, hrun, hopen, -, -⟩ :=
      hend (show Sample.verdict Sample.tagging Sample.unwanted = some (false, true, false) by
        decide +kernel)
    exact ⟨s, hrun, of_decide_eq_false hopen⟩
  · obtain ⟨s, hrun, hopen, -, hrefused⟩ :=
      hend (show Sample.verdict Sample.tagging Sample.unheard = some (false, true, true) by
        decide +kernel)
    exact ⟨s, hrun, of_decide_eq_false hopen, of_decide_eq_true hrefused⟩
  · obtain ⟨s, hrun, -, hposted, -⟩ :=
      hend (show Sample.verdict Sample.tagging Sample.filled = some (true, false, true) by
        decide +kernel)
    exact ⟨s, hrun, of_decide_eq_false hposted⟩
  · obtain ⟨s, hrun, -, hposted, -⟩ :=
      hend (show Sample.verdict Orders.Sample.config Sample.sent = some (true, false, true) by
        decide +kernel)
    exact ⟨s, hrun, of_decide_eq_false hposted⟩

end Strikedge.OrderStream
