import Strikedge.ExecutionGateway.PartialEntry
import Strikedge.Orders.HedgeFirst

/-!
# Uncertain entry legs

A leg is uncertain when its POST began and the journal holds no terminal snapshot of it as
`execute` ends. The manager knows this from the error class and the row. The gateway knows
only the promise: this module says for which ends of `execute` that is enough.
-/

namespace Strikedge.ExecutionGateway

open Machine Orders

/-- One leg of an entry: its request, the step of the run that settles its promise, and
how it settles. -/
structure EntryLeg where
  request : BrokerOrderRequest
  step : Nat
  result : Except OrderError BrokerOrder

/-- The settlement of the leg's promise. -/
def EntryLeg.settlement (leg : EntryLeg) : Settlement where
  clientOrderId := leg.request.clientOrderId
  result := leg.result.map some

def EntryLeg.settled (leg : EntryLeg) : Settled := (leg.request.role, leg.result)

/-- The settlements a step adds. -/
def freshSettlements (m m' : OrderManager) : List Settlement :=
  m'.settlements.take (m'.settlements.length - m.settlements.length)

/-- The manager before a step of a run, and the label of the step. -/
def atStep (cfg : Config) (m : OrderManager) (labels : List Label) (k : Nat) :
    Option (OrderManager × Label) :=
  (managerRun cfg m (labels.take k)).bind fun before => (labels[k]?).map (before, ·)

/-- The leg's promise settles in the run at the leg's step. -/
def EntryLeg.SettlesIn (cfg : Config) (m : OrderManager) (labels : List Label)
    (leg : EntryLeg) : Prop :=
  ∃ before ∈ atStep cfg m labels leg.step, ∃ after ∈ before.1.step cfg before.2,
    leg.settlement ∈ freshSettlements before.1 after

/-- The adapter has answered for a POST that began. -/
def posted (t : Task) : Bool :=
  t.postBegan &&
    match t.phase with
    | .persisting .snapshot _ | .persisting .rejected _ | .persisting (.ambiguous _) _
    | .quarantining _ => true
    | _ => false

/-- The task a label resumes, when its POST began. -/
def resumedPost (m : OrderManager) : Label → Option Task
  | .resume _ (.action i) => (m.tasks.get? i).filter posted
  | _ => none

/-- The task of the leg as its execution ends, when the POST began. -/
def EntryLeg.post (cfg : Config) (m : OrderManager) (labels : List Label) (leg : EntryLeg) :
    Option Task :=
  (atStep cfg m labels leg.step).bind fun (before, label) => resumedPost before label

/-- The row of a client order id holds a terminal state. -/
def TerminalRecorded (j : Journal) (id : ClientOrderId) : Prop :=
  ∃ row ∈ j.find id, isBrokerOrderTerminal row.state = true

/-- The leg's POST began and no terminal snapshot of it is in the journal as its promise
settles. -/
def EntryLeg.Uncertain (cfg : Config) (m : OrderManager) (labels : List Label)
    (leg : EntryLeg) : Prop :=
  ∃ before ∈ atStep cfg m labels leg.step, (resumedPost before.1 before.2).isSome = true ∧
    ¬TerminalRecorded before.1.journal leg.request.clientOrderId

section Decidable

variable (cfg : Config) (m : OrderManager) (labels : List Label) (leg : EntryLeg)

instance : Decidable (leg.SettlesIn cfg m labels) :=
  inferInstanceAs (Decidable (∃ before ∈ atStep cfg m labels leg.step, _))

instance (j : Journal) (id : ClientOrderId) : Decidable (TerminalRecorded j id) :=
  inferInstanceAs (Decidable (∃ row ∈ j.find id, _))

instance : Decidable (leg.Uncertain cfg m labels) :=
  inferInstanceAs (Decidable (∃ before ∈ atStep cfg m labels leg.step, _))

end Decidable

/-- A snapshot that could not be recorded tells by its fill, else by the text of what the
store threw. -/
def unrecordedTells (order : BrokerOrder) (message : String) : Bool :=
  0 < order.filledQuantity || uncertainText message

/-- The text of a row that is missing. -/
def disappearedText (id : ClientOrderId) : String := s!"Order intent {id} disappeared."

/-- The end of an execution whose POST began, as far as the gateway can tell it: the state
of the snapshot, its fill when the write failed, and the text of the error. -/
def tells (t : Task) : Bool :=
  match t.phase, t.reply with
  | .persisting _ order, some (.threw message) => unrecordedTells order message
  | .persisting _ order, some (.updated .missing) =>
      unrecordedTells order (disappearedText t.intent.clientOrderId)
  | .persisting .snapshot order, some (.updated _) => isReconcileState order.state
  | .persisting .rejected order, some (.updated _) =>
      uncertainText (order.rejectReason.getD "Broker rejected order.")
  | .persisting (.ambiguous message) order, some (.updated _) =>
      uncertainText message || isReconcileState order.state
  | .quarantining _, some (.threw message) => uncertainText message
  | .quarantining _, some (.updated .missing) =>
      uncertainText (disappearedText t.intent.clientOrderId)
  | .quarantining error, some (.updated _) => shows (.error error)
  | _, _ => false

/-- What the leg tells: the end of its execution when its POST began, else its promise. -/
def EntryLeg.Tells (cfg : Config) (m : OrderManager) (labels : List Label) (leg : EntryLeg) :
    Prop :=
  (leg.post cfg m labels).elim (shows leg.result) tells = true

instance (cfg : Config) (m : OrderManager) (labels : List Label) (leg : EntryLeg) :
    Decidable (leg.Tells cfg m labels) :=
  inferInstanceAs (Decidable (_ = true))

section Resume

variable {cfg : Config} {w : World} {b : Book} {t : Task} {s : Stretch} {reply : JournalReply}
variable {order : BrokerOrder} {error : OrderError} {message : String} {site : PersistSite}
variable {result : Except OrderError BrokerOrder}

theorem shows_other : shows (.error (.other message)) = uncertainText message := by
  show (uncertainText message || false) = _
  rw [Bool.or_false]

theorem outcome_threw : (t.threw cfg b error).outcome = some (.error error) := by
  rw [Task.threw]
  split <;> rfl

/-- A failed write settles the promise with an error that shows by the fill of the
snapshot, else by its text. -/
theorem outcome_persistFailed :
    ∃ error, (t.persistedDone cfg site order (b.persistFailed order message)).outcome =
        some (.error error) ∧
      shows (.error error) = unrecordedTells order message := by
  rw [Book.persistFailed, unrecordedTells]
  by_cases hfill : 0 < order.filledQuantity
  · refine ⟨.persistenceAfterFill order, ?_, ?_⟩
    · simp only [if_pos hfill, Task.persistedDone]
      exact outcome_threw
    · simp [shows, uncertainRejection, hfill]
  · refine ⟨.other message, ?_, ?_⟩
    · simp only [if_neg hfill, Task.persistedDone]
      exact outcome_threw
    · simp [shows_other, hfill]

/-- What a call site of `persistOrder` settles its promise with when the write returns. -/
def recordedResult (order : BrokerOrder) : PersistSite → Except OrderError BrokerOrder
  | .rejected => .error (.orderRejected order)
  | .ambiguous message => .error (.ambiguousSubmit message (some order))
  | _ => .ok order

theorem outcome_persistedAt :
    (t.persistedAt cfg b order site).outcome = some ((recordedResult order site).map some) := by
  cases site with
  | snapshot =>
      show (t.snapshotDone cfg b order).outcome = _
      rw [Task.snapshotDone]
      split
      · rfl
      · dsimp only
        split <;> rfl
  | existing => rfl
  | rejected => rfl
  | ambiguous message => rfl
  | owner current => rfl
  | cancel => rfl

theorem result_eq {found : Except OrderError BrokerOrder}
    (h : some (found.map some) = some (result.map some)) : result = found := by
  cases found with
  | ok order =>
      cases result with
      | ok order' => simpa [Except.map] using h.symm
      | error error => simp [Except.map] at h
  | error error =>
      cases result with
      | ok order' => simp [Except.map] at h
      | error error' => simpa [Except.map] using h.symm

/-- A task that awaits `persistOrder` is resumed by what the store did. -/
theorem outcome_persisting (hphase : t.phase = .persisting site order)
    (hresume : t.resume cfg w b reply = some s) :
    (∃ error, s.outcome = some (.error error) ∧ ∃ message,
      (reply = .threw message ∨
        reply = .updated .missing ∧
          message = disappearedText (site.intentOf t.intent).clientOrderId) ∧
      shows (.error error) = unrecordedTells order message) ∨
    (∃ update, reply = .updated update ∧ update ≠ .missing ∧
      s.outcome = some ((recordedResult order site).map some)) := by
  simp only [Task.resume, hphase] at hresume
  cases reply with
  | created row => cases hresume
  | loaded rows => cases hresume
  | threw message =>
      obtain rfl := Option.some.inj hresume
      simp only [Task.journalThrew, hphase]
      obtain ⟨error, herror, hshows⟩ := outcome_persistFailed
      exact .inl ⟨error, herror, message, .inl rfl, hshows⟩
  | updated update =>
      obtain rfl := Option.some.inj hresume
      cases update with
      | missing =>
          obtain ⟨error, herror, hshows⟩ := outcome_persistFailed
          exact .inl ⟨error, herror, _, .inr ⟨rfl, rfl⟩, hshows⟩
      | refused row => exact .inr ⟨_, rfl, by simp, outcome_persistedAt⟩
      | applied row previous current => exact .inr ⟨_, rfl, by simp, outcome_persistedAt⟩

/-- A task that awaits its quarantine rejects with the error of the adapter, or with what
the store threw. -/
theorem outcome_quarantining (hphase : t.phase = .quarantining error)
    (hresume : t.resume cfg w b reply = some s) :
    (∃ message, s.outcome = some (.error (.other message)) ∧
      (reply = .threw message ∨
        reply = .updated .missing ∧ message = disappearedText t.intent.clientOrderId)) ∨
    (∃ update, reply = .updated update ∧ update ≠ .missing ∧
      s.outcome = some (.error error)) := by
  simp only [Task.resume, hphase] at hresume
  cases reply with
  | created row => cases hresume
  | loaded rows => cases hresume
  | threw message =>
      obtain rfl := Option.some.inj hresume
      simp only [Task.journalThrew, hphase]
      exact .inl ⟨message, outcome_threw, .inl rfl⟩
  | updated update =>
      obtain rfl := Option.some.inj hresume
      cases update with
      | missing => exact .inl ⟨_, rfl, .inr ⟨rfl, rfl⟩⟩
      | refused row => exact .inr ⟨_, rfl, by simp, rfl⟩
      | applied row previous current => exact .inr ⟨_, rfl, by simp, rfl⟩

/-- After a write that returned, the end of the execution tells what the promise shows. -/
theorem tells_recorded {update : UpdateResult} (hposted : posted t = true)
    (hphase : t.phase = .persisting site order) (hreply : t.reply = some (.updated update))
    (hupdate : update ≠ .missing) : tells t = shows (recordedResult order site) := by
  cases site with
  | snapshot =>
      rw [tells, hphase, hreply]
      cases update <;> first | rfl | exact absurd rfl hupdate
  | rejected =>
      rw [tells, hphase, hreply]
      show _ = (uncertainText (order.rejectReason.getD "Broker rejected order.") || false)
      rw [Bool.or_false]
      cases update <;> first | rfl | exact absurd rfl hupdate
  | ambiguous message =>
      rw [tells, hphase, hreply]
      cases update <;> first | rfl | exact absurd rfl hupdate
  | existing => simp [posted, hphase] at hposted
  | owner current => simp [posted, hphase] at hposted
  | cancel => simp [posted, hphase] at hposted

/-- A promise settles as the end of the execution tells. -/
theorem shows_of_resume (hposted : posted t = true) (hreply : t.reply = some reply)
    (hresume : t.resume cfg w b reply = some s) (hresult : s.outcome = some (result.map some)) :
    shows result = tells t := by
  cases hphase : t.phase with
  | persisting site order =>
      obtain ⟨error, herror, message, hstore, hshows⟩ | ⟨update, rfl, hupdate, houtcome⟩ :=
        outcome_persisting hphase hresume
      · have hfound : some (Except.map some (.error error)) = some (result.map some) :=
          herror.symm.trans hresult
        rw [result_eq hfound, hshows, tells, hphase, hreply]
        cases site <;> obtain rfl | ⟨rfl, rfl⟩ := hstore <;>
          first | rfl | simp [posted, hphase] at hposted
      · rw [result_eq (houtcome.symm.trans hresult)]
        exact (tells_recorded hposted hphase hreply hupdate).symm
  | quarantining error =>
      obtain ⟨message, herror, hstore⟩ | ⟨update, rfl, hupdate, herror⟩ :=
        outcome_quarantining hphase hresume
      · have hfound : some (Except.map some (.error (.other message))) = some (result.map some) :=
          herror.symm.trans hresult
        rw [result_eq hfound, shows_other, tells, hphase, hreply]
        obtain rfl | ⟨rfl, rfl⟩ := hstore <;> rfl
      · have hfound : some (Except.map some (.error error)) = some (result.map some) :=
          herror.symm.trans hresult
        rw [result_eq hfound, tells, hphase, hreply]
        cases update with
        | missing => exact absurd rfl hupdate
        | refused row => rfl
        | applied row previous current => rfl
  | _ => simp [posted, hphase] at hposted

end Resume

section Entry

variable {cfg : Config} {w : World} {i : TaskId} {m m' : OrderManager} {label : Label}
variable {labels : List Label} {leg : EntryLeg} {t : Task} {s : Stretch}

theorem reconcile_settlements : (m.reconcile cfg w).settlements = m.settlements := by
  rw [OrderManager.reconcile]
  dsimp only
  split <;> rfl

theorem settleRank_settlements : (m.settleRank cfg t).settlements = m.settlements := by
  rw [OrderManager.settleRank]
  split <;> rfl

theorem awaitTurn_settlements {action : Action} :
    (m.awaitTurn i action).settlements = m.settlements := by
  rw [OrderManager.awaitTurn]
  split <;> rfl

/-- The promises a synchronous block settles. -/
def settledBy (s : Stretch) : List Settlement :=
  (s.outcome.map (Settlement.mk s.task.action.clientOrderId)).toList

theorem absorb_settlements : (m.absorb cfg w s).settlements = settledBy s ++ m.settlements := by
  have hmiddle : (if s.violated then ({ m with book := s.book }).reconcile cfg w
      else { m with book := s.book }).settlements = m.settlements := by
    split
    · exact reconcile_settlements
    · rfl
  rw [OrderManager.absorb, settledBy]
  cases s.outcome with
  | none => exact hmiddle
  | some result => exact congrArg (_ :: ·) hmiddle

/-- A synchronous block settles at most the promise of its own action. -/
theorem commit_settlements :
    (m.commit cfg w i s).settlements = settledBy s ++ m.settlements := by
  rw [OrderManager.commit]
  split
  · exact absorb_settlements
  · exact awaitTurn_settlements.trans absorb_settlements
  · exact settleRank_settlements.trans absorb_settlements

/-- The only promise that a resumed task settles is its own. -/
theorem outcome_of_fresh (ht : m.tasks.get? i = some t)
    (hstep : m.step cfg (.resume w (.action i)) = some m')
    (hfresh : leg.settlement ∈ freshSettlements m m') :
    ∃ reply s, t.reply = some reply ∧ t.resume cfg w m.book reply = some s ∧
      s.outcome = some (leg.result.map some) := by
  simp only [OrderManager.step, OrderManager.resumeTask, ht, Option.bind_eq_bind,
    Option.bind_some, Option.bind_eq_some_iff] at hstep
  obtain ⟨call, -, reply, hreply, s, hresume, hm'⟩ := hstep
  obtain rfl := Option.some.inj hm'
  refine ⟨reply, s, hreply, hresume, ?_⟩
  rw [freshSettlements, commit_settlements, List.length_append, Nat.add_sub_cancel,
    List.take_left, settledBy, Option.mem_toList] at hfresh
  obtain ⟨result, houtcome, heq⟩ := Option.map_eq_some_iff.mp hfresh
  rw [houtcome, (Settlement.mk.inj heq).2]

/-- A leg tells exactly what its promise shows. -/
theorem tells_iff_shows (h : leg.SettlesIn cfg m labels) :
    leg.Tells cfg m labels ↔ shows leg.result = true := by
  obtain ⟨⟨before, label⟩, hat, after, hstep, hfresh⟩ := h
  rw [EntryLeg.Tells, EntryLeg.post, Option.mem_def.mp hat, Option.bind_some]
  show (resumedPost before label).elim (shows leg.result) tells = true ↔ _
  cases hpost : resumedPost before label with
  | none => exact Iff.rfl
  | some t =>
      rw [resumedPost.eq_def] at hpost
      split at hpost
      next w i =>
        obtain ⟨ht, hposted⟩ := Option.filter_eq_some_iff.mp hpost
        obtain ⟨reply, s, hreply, hresume, houtcome⟩ := outcome_of_fresh ht hstep hfresh
        rw [shows_of_resume hposted hreply hresume houtcome]
        exact Iff.rfl
      · cases hpost

/-- Along every run of the manager, with any answers of the adapter and the journal: an
entry with an uncertain leg is quarantined exactly when, with an uncertain leg among them,
some leg tells. -/
theorem uncertain_entry_quarantined_iff (cfg : Config) (m : OrderManager) (labels : List Label)
    (legs : List EntryLeg) (attemptId : AttemptId) (unwinds : List (BoxLegRole × BrokerOrder))
    (qualifies : Bool) (hsettle : ∀ leg ∈ legs, leg.SettlesIn cfg m labels) :
    ((∃ leg ∈ legs, leg.Uncertain cfg m labels) →
        (concludeEntry attemptId (legs.map (·.request)) (legs.map (·.settled)) unwinds
          qualifies).Quarantined) ↔
      ((∃ leg ∈ legs, leg.Uncertain cfg m labels) → ∃ leg ∈ legs, leg.Tells cfg m labels) := by
  have hquarantined : (∃ leg ∈ legs.map (·.settled), shows leg.2 = true) ↔
      ∃ leg ∈ legs, leg.Tells cfg m labels := by
    constructor
    · rintro ⟨settled, hsettled, hshows⟩
      obtain ⟨leg, hleg, rfl⟩ := List.mem_map.mp hsettled
      exact ⟨leg, hleg, (tells_iff_shows (hsettle leg hleg)).mpr hshows⟩
    · rintro ⟨leg, hleg, htells⟩
      exact ⟨leg.settled, List.mem_map_of_mem hleg,
        (tells_iff_shows (hsettle leg hleg)).mp htells⟩
  rw [quarantined_iff, hquarantined]

end Entry

namespace Sample

open Orders.Sample

/-- Both hedges fill and both SELL legs are posted. The first comes to an end, then the
second one fills. -/
def entryEnding (ending : List Label) : List Label :=
  sellPosted ++ prepared 3 ++ [.pass 3, .prePost (world 100) 3] ++ ending ++
    returned 3 (order (request .k1Pe .sell .entry) .complete 75)

/-- The adapter throws and the manager quarantines the leg. -/
def thrown (message : String) : List Label :=
  .submitted (world 100) 2 (.error (.other message)) :: answered 2

def filledLeg (role : BoxLegRole) (side : OrderSide) (step : Nat) : EntryLeg where
  request := request role side .entry
  step := step
  result := .ok (order (request role side .entry) .complete 75)

/-- The four legs of the sample entry, the first SELL leg with its result. -/
def entryLegs (result : Except OrderError BrokerOrder) : List EntryLeg :=
  [filledLeg .k1Ce .buy 23, filledLeg .k2Pe .buy 32,
    { request := request .k2Ce .sell .entry, step := 47, result := result },
    filledLeg .k1Pe .sell 50]

/-- The conclusion of the sample entry when none of its reversals comes back. -/
def conclusion (result : Except OrderError BrokerOrder) : EntryConclusion :=
  concludeEntry "A" ((entryLegs result).map (·.request)) ((entryLegs result).map (·.settled)) []
    true

end Sample

/-- The adapter throws "socket hang up" after the POST of the first SELL leg. Its row is in
RECONCILIATION_REQUIRED, the gateway takes it for never submitted and reverses the other
three legs. -/
theorem socket_hang_up_unwound :
    let labels := Sample.entryEnding (Sample.thrown "socket hang up")
    let manager := Orders.Sample.manager .empty
    let legs := Sample.entryLegs (.error (.other "socket hang up"))
    (∀ leg ∈ legs, leg.SettlesIn Orders.Sample.config manager labels) ∧
      (∃ leg ∈ legs, leg.Uncertain Orders.Sample.config manager labels) ∧
      ¬(Sample.conclusion (.error (.other "socket hang up"))).Quarantined ∧
      (Sample.conclusion (.error (.other "socket hang up"))).unwound.map (·.1) =
        [.k1Ce, .k2Pe, .k1Pe] ∧
      ((Sample.conclusion (.error (.other "socket hang up"))).outcomes.filter
        (!·.submitted)).map (·.role) = [.k2Ce] := by
  decide +kernel

/-- With the message "order state unknown" the same entry is quarantined. -/
theorem uncertain_entry_quarantined_sample :
    (∃ leg ∈ Sample.entryLegs (.error (.other "order state unknown")),
      leg.Uncertain Orders.Sample.config (Orders.Sample.manager .empty)
        (Sample.entryEnding (Sample.thrown "order state unknown"))) ∧
    (Sample.conclusion (.error (.other "order state unknown"))).Quarantined := by
  have huncertain : ∃ leg ∈ Sample.entryLegs (.error (.other "order state unknown")),
      leg.Uncertain Orders.Sample.config (Orders.Sample.manager .empty)
        (Sample.entryEnding (Sample.thrown "order state unknown")) := by
    decide +kernel
  refine ⟨huncertain, ?_⟩
  refine (uncertain_entry_quarantined_iff Orders.Sample.config (Orders.Sample.manager .empty)
    (Sample.entryEnding (Sample.thrown "order state unknown"))
    (Sample.entryLegs (.error (.other "order state unknown"))) "A" [] true ?_).mpr ?_ huncertain
  · decide +kernel
  · intro _
    decide +kernel

end Strikedge.ExecutionGateway
