import Strikedge.Machine.Run
import Strikedge.Coordinator.Pipeline

/-!
# The coordinator in its process

A `Process` is the gateway's bookkeeping, the methods in flight, and the leases each
reservation tier holds for this process. A label starts a method, lets the environment
answer a pending call, resumes one method with its answer, or lets a lease lapse.
Answering and resuming are different labels, so anything may happen between a tier's
answer and the continuation that reads it.

`dependents` is history, written from the events and read by no step.
-/

namespace Strikedge.Coordinator

open Reservations (InstrumentKey ReservationDurability)

namespace Gateway

/-- A settlement that was interrupted by an exception. -/
def settlementThrew (w : World) (g : Gateway) (executionId : OwnerId)
    (opportunityId : Option String) : Stretch where
  gateway := g.holdOnUncertainty executionId opportunityId
    (if opportunityId.isSome then "entry threw" else "exit threw") w.now
  next := .finish (.threw executionId)

/-- Continue with the next tier of a release, or go on after it. -/
def resumeRelease (g : Gateway) (more : Releasing → Frame) (done rejected : Stretch) :
    Releasing.Progress → Stretch
  | .more r => { gateway := g, next := .await (more r) }
  | .done => done
  | .rejected => rejected

/-- `coordinateEntry` resumed by the answer to an acquisition. `threw` is what an
exception does at this `await`. -/
def resumeAcquire (cfg : BoxConfig) (w : World) (g : Gateway) (e : Entry) (a : Attempt)
    (threw : Stretch) : Answer → Option Stretch
  | .acquired expiresAt fence durability =>
      some (g.afterGranted cfg w e a (leaseOf e a expiresAt fence durability))
  | .conflict _ => some (g.waitForKeys cfg w e a)
  | .unavailable tier detail => some (g.handleUnavailable cfg w e a tier detail)
  | .threw _ => some threw
  | _ => none

/-- The claim abandoned by the one `catch` of `coordinateEntry`. -/
def abandonAndThrow (cfg : BoxConfig) (w : World) (g : Gateway) (e : Entry) : Stretch :=
  let (g, release) := g.abandonAndReleaseHold cfg w e.executionId
  { gateway := g
    next := .finish (.coordinationThrew e.executionId)
    spawned := droppingFrame release
    events := [pipelineReleased e] }

/-- Resumed by the local tier's answer in the paper fallback. -/
def resumeLocal (cfg : BoxConfig) (w : World) (g : Gateway) (e : Entry) (a : Attempt) :
    Answer → Option Stretch
  | .acquired expiresAt fence durability =>
      some (g.afterGranted cfg w e a (leaseOf e a expiresAt fence durability))
  | .conflict _ =>
      some <|
        if a.waited then
          g.abandonAndRefuse cfg w e .priceMoved
            s!"waited {w.now - a.waitStarted}ms for a shared contract and gave up"
        else g.waitForKeys cfg w e a
  | .unavailable _ detail =>
      some <|
        if a.waited then
          g.abandonAndRefuse cfg w e .priceMoved
            s!"waited {w.now - a.waitStarted}ms for a shared contract and gave up"
        else
          g.abandonAndRefuse cfg w e .feedUnhealthy s!"durable_reservation_unavailable: {detail}"
  | .threw _ => some (g.escape e)
  | _ => none

def resumeConsuming (cfg : BoxConfig) (w : World) (g : Gateway) (e : Entry) :
    Answer → Option Stretch
  | .consumed true _ => some (g.afterAttempt cfg w e)
  | .consumed false detail =>
      some <| g.refuse e .sessionLimitReached <| detail.getD
        ("the entry attempt could not be durably counted against the session attempt budget, " ++
          "so it was not started")
  | .threw _ => some (g.escape e)
  | _ => none

def resumeVerifying (g : Gateway) (e : Entry) (a : Attempt) (lease : ReservationLease) :
    Answer → Option Stretch
  | .owned => some { gateway := g, next := .await (.permitted e a lease none) }
  | .denied reason detail =>
      let token :=
        if reason = .superseded then "stale_broker_generation" else "reservation_ownership_lost"
      some { gateway := g, next := .await (.permitted e a lease (some (token, detail))) }
  | .threw _ => some (g.escape e)
  | _ => none

/-- The end of `coordinateEntry`: the claim becomes a leased execution. -/
def resumePermitted (cfg : BoxConfig) (w : World) (g : Gateway) (e : Entry) (a : Attempt)
    (lease : ReservationLease) : Option (String × String) → Stretch
  | none =>
      { gateway := g.grant e.executionId a.keys lease (w.context cfg)
        next := .await (.executing e) }
  | some (token, detail) => g.discard cfg w e lease .feedUnhealthy s!"{token}: {detail}"

/-- Renewal of an active execution finished, and with it its part of the tick. -/
def finishRenewal (g : Gateway) (executionId : OwnerId) : Renewal.Progress → Stretch
  | .more r => { gateway := g, next := .await (.renewing r) }
  | .done (.ok expiresAt fence) =>
      { gateway := g.renewActive executionId expiresAt fence, next := .finish .renewed }
  | .done (.failed reason _) =>
      { gateway := g.loseOwnership executionId reason, next := .finish .renewed }
  | .rejected => { gateway := g, next := .finish .rejected }

/-- The tick ends early when a renewal throws, and its `finally` runs. -/
def tickRejected (g : Gateway) : Stretch where
  gateway := { g with heartbeatRunning := false }
  next := .finish .rejected

def ofTick (r : Gateway × Next) : Stretch where
  gateway := r.1
  next := r.2

def finishHoldRenewal (cfg : BoxConfig) (g : Gateway) (now : Int) (executionId : OwnerId)
    (rest : List (OwnerId × UncertainHold)) : Renewal.Progress → Stretch
  | .more r => { gateway := g, next := .await (.tickHolds now executionId r rest) }
  | .done (.ok expiresAt fence) =>
      ofTick ((g.renewHold executionId expiresAt fence).tickHolds cfg now rest)
  | .done (.failed reason _) =>
      -- a transient failure must not collapse the hold
      ofTick <|
        if reason = .unavailable then g.tickHolds cfg now rest
        else (g.dropHold executionId).tickHolds cfg now rest
  | .rejected => g.tickRejected

def finishClaimRenewal (cfg : BoxConfig) (g : Gateway) (claimKey : String) (owner : OwnerId)
    (rest : List (String × PositionUnderlyingClaim)) : Renewal.Progress → Stretch
  | .more r => { gateway := g, next := .await (.tickClaims claimKey r rest) }
  | .done outcome => ofTick ((g.renewClaim claimKey owner outcome).tickClaims cfg rest)
  | .rejected => g.tickRejected

end Gateway

open Gateway

/-- What a suspended method does with the answer to its call. `none`: no such answer. -/
def Frame.resume (cfg : BoxConfig) (w : World) (g : Gateway) : Frame → Answer → Option Stretch
  | .consuming e, answer => g.resumeConsuming cfg w e answer
  | .holding e h, answer =>
      (g.finishHold w h answer).map fun (g, granted) =>
        { gateway := g, next := .await (.held e granted), events := holdEvents h granted }
  | .held e true, .turn => some (g.afterHold cfg w e)
  | .held e false, .turn =>
      some <| g.abandonAndRefuse cfg w e .underlyingAlreadyActive
        (underlyingHeldDetail e.candidate.underlying)
  | .acquiring e a, answer => g.resumeAcquire cfg w e a (g.abandonAndThrow cfg w e) answer
  | .acquiringLocal e a, answer => g.resumeLocal cfg w e a answer
  | .waiting e a, .woken => some { gateway := g, next := .await (.retrying e a) }
  | .retrying e a, answer => g.resumeAcquire cfg w e a (g.escape e) answer
  | .verifying e a lease, answer => g.resumeVerifying e a lease answer
  | .permitted e a lease refusal, .turn => some (g.resumePermitted cfg w e a lease refusal)
  | .discarding e refusal r, answer =>
      (r.resume answer).map <| g.resumeRelease (.discarding e refusal)
        { gateway := g, next := .finish (.refused e.executionId refusal) } (g.escape e)
  | .executing e, .executed result => some (g.settleUnderlyingHold cfg w e result)
  | .executing e, .threw _ => some (g.entryThrew w e)
  | .reholding e result h, answer =>
      (g.finishHold w h answer).map fun (g, granted) =>
        { gateway := g, next := .await (.reheld e result), events := holdEvents h granted }
  | .reheld e result, .turn => some (g.dropPipeline cfg w e result)
  | .droppingPipeline e result r, answer =>
      (r.resume answer).map <| g.resumeRelease (.droppingPipeline e result)
        (g.settle cfg w e.executionId (some e.opportunityId) result (entryUncertainty e result))
        (g.entryThrew w e)
  | .holdSettled e result, .turn =>
      let s := g.settle cfg w e.executionId (some e.opportunityId) result (entryUncertainty e result)
      some { s with events := [pipelineReleased e] }
  | .exitAcquiring x, .acquired expiresAt fence durability
  | .exitAcquiringLocal x, .acquired expiresAt fence durability =>
      some (g.exitGranted cfg w x expiresAt fence durability)
  | .exitAcquiring x, .unavailable _ _ =>
      some { gateway := g
             next := if cfg.withLocal then .await (.exitAcquiringLocal x)
               else .finish (.deferred x.executionId) }
  | .exitAcquiringLocal x, .unavailable _ _ | .exitAcquiring x, .conflict _
  | .exitAcquiringLocal x, .conflict _ =>
      some { gateway := g, next := .finish (.deferred x.executionId) }
  | .exitAcquiring x, .threw _ | .exitAcquiringLocal x, .threw _ =>
      some { gateway := g, next := .finish (.threw x.executionId) }
  | .exitExecuting x, .executed result =>
      some <| g.settle cfg w x.executionId none result
        (if x.legging then uncertaintyOf result else .clean)
  | .exitExecuting x, .threw _ => some (g.settlementThrew w x.executionId none)
  | .settling executionId opportunityId result r, answer =>
      (r.resume answer).map <| g.resumeRelease (.settling executionId opportunityId result)
        { gateway := g, next := .finish (.returned executionId result) }
        (g.settlementThrew w executionId opportunityId)
  | .claiming h, answer =>
      (g.finishHold w h answer).map fun (g, granted) =>
        { gateway := g, next := .finish (.claimed granted), events := holdEvents h granted }
  | .dropping r, answer =>
      (r.resume answer).map <| g.resumeRelease .dropping
        { gateway := g, next := .finish .dropped } { gateway := g, next := .finish .rejected }
  | .renewing r, answer => (r.resume answer).map (g.finishRenewal r.owner)
  | .tickActive now _, .settled => some (ofTick (g.tickHolds cfg now g.holds.entries))
  | .tickHolds now executionId r rest, answer =>
      (r.resume answer).map (g.finishHoldRenewal cfg now executionId rest)
  | .tickClaims claimKey r rest, answer =>
      (r.resume answer).map (g.finishClaimRenewal cfg claimKey r.owner rest)
  | _, _ => none

inductive Task where
  /-- suspended at a frame, with its answer once there is one -/
  | suspended (frame : Frame) (answer : Option Answer)
  | done (outcome : Outcome)
  deriving DecidableEq

/-- What must hold of a frame and its answer is decided of a task, which may have neither. -/
def Task.decidableAnswered (P : Frame → Answer → Prop) [∀ frame answer, Decidable (P frame answer)] :
    ∀ task : Option Task, Decidable (match task with
      | some (.suspended frame (some answer)) => P frame answer
      | _ => True)
  | some (.suspended frame (some answer)) => inferInstanceAs (Decidable (P frame answer))
  | some (.suspended _ none) | some (.done _) | none => .isTrue trivial

/-- The leases one tier holds for this process. -/
abbrev LeaseTable := OrderedMap InstrumentKey OwnerId

/-- A holder that depends on an underlying, with the claim key it depended under. -/
structure Dependent where
  claimKey : String
  underlying : String
  holder : Holder
  deriving DecidableEq

structure Process where
  gateway : Gateway := {}
  tasks : List Task := []
  leases : TierName → LeaseTable := fun _ => ∅
  dependents : List Dependent := []

inductive Operation where
  | entry (legging : Bool) (candidate : BoxCandidate)
  | exit (legging : Bool) (position : BoxPosition)
  | claimUnderlyingForPosition (underlying tradeId : String)
  | releaseUnderlyingForPosition (underlying tradeId : String)
  | claimUnderlyingForResidual (underlying attemptId : String)
  | releaseUnderlyingForResidual (underlying attemptId : String)
  | renewTick
  deriving DecidableEq, Repr

inductive Label where
  | start (w : World) (operation : Operation)
  /-- the environment answers the pending call of a task -/
  | answer (task : TaskId) (answer : Answer)
  /-- the task continues with the answer it was given -/
  | resume (w : World) (task : TaskId)
  /-- a tier forgets an owner's leases: their time ran out -/
  | lapse (tier : TierName) (owner : OwnerId)
  deriving DecidableEq, Repr

def Next.task : Next → Task
  | .await frame => .suspended frame none
  | .finish outcome => .done outcome

/-- History: a dependence begins, or every one of a holder on an underlying ends. -/
def Dependent.record (dependents : List Dependent) : DependenceEvent → List Dependent
  | .depends claimKey underlying holder =>
      if ⟨claimKey, underlying, holder⟩ ∈ dependents then dependents
      else ⟨claimKey, underlying, holder⟩ :: dependents
  | .released underlying holder =>
      dependents.filter fun d => ¬(d.underlying = underlying ∧ d.holder = holder)

namespace LeaseTable

def free (t : LeaseTable) (owner : OwnerId) (keys : List InstrumentKey) : Bool :=
  keys.all fun key => (t.get? key).all (· = owner)

def grant (t : LeaseTable) (owner : OwnerId) (keys : List InstrumentKey) : LeaseTable :=
  keys.foldl (fun t key => t.set key owner) t

def release (t : LeaseTable) (owner : OwnerId) (keys : Option (List InstrumentKey)) : LeaseTable :=
  t.filter fun key holder => ¬(holder = owner ∧ keys.all fun ks => decide (key ∈ ks))

def holds (t : LeaseTable) (owner : OwnerId) (keys : List InstrumentKey) : Bool :=
  keys.all fun key => t.get? key = some owner

end LeaseTable

def grantLeases (leases : TierName → LeaseTable) (tiers : List TierName) (owner : OwnerId)
    (keys : List InstrumentKey) (tier : TierName) : LeaseTable :=
  if tier ∈ tiers then (leases tier).grant owner keys else leases tier

def releaseLeases (leases : TierName → LeaseTable) (released : TierName) (owner : OwnerId)
    (keys : Option (List InstrumentKey)) (tier : TierName) : LeaseTable :=
  if tier = released then (leases tier).release owner keys else leases tier

namespace Process

variable (cfg : BoxConfig)

/-- The tiers an acquisition writes. -/
def acquiredTiers (viaLocal : Bool) : List TierName :=
  if viaLocal ∨ ¬cfg.chained then [.inProcess] else [.inProcess, .durable]

/-- How durable a lease from those tiers is. -/
def acquiredDurability (viaLocal : Bool) : ReservationDurability :=
  if viaLocal ∨ ¬cfg.chained then .localOnly else .durable

def isDone (p : Process) (task : TaskId) : Bool :=
  match p.tasks[task]? with
  | some (.done _) => true
  | _ => false

/-- Whether the environment may answer a call so, and the tiers' leases afterwards. -/
def serve (p : Process) : Call → Answer → Option (TierName → LeaseTable)
  | .turn, .turn => some p.leases
  | .consumeAttempt, .consumed _ _ | .consumeAttempt, .threw _ => some p.leases
  | .acquire viaLocal owner keys, .acquired _ _ durability =>
      if durability = acquiredDurability cfg viaLocal ∧
          (acquiredTiers cfg viaLocal).all (fun tier => (p.leases tier).free owner keys) then
        some (grantLeases p.leases (acquiredTiers cfg viaLocal) owner keys)
      else none
  -- a refused acquisition holds nothing
  | .acquire _ _ _, .conflict _ | .acquire _ _ _, .unavailable _ _ | .acquire _ _ _, .threw _ =>
      some p.leases
  | .verify _ _, .owned | .verify _ _, .denied _ _ | .verify _ _, .threw _ => some p.leases
  | .release call, .released => some (releaseLeases p.leases call.tier call.owner call.keys)
  | .release _, .unreached | .release _, .threw _ => some p.leases
  | .renew tier owner keys, .renewed _ _ =>
      if (p.leases tier).holds owner keys then some p.leases else none
  | .renew tier owner keys, .notRenewed reason _ =>
      if reason = .lost ∧ (p.leases tier).holds owner keys then none else some p.leases
  | .renew _ _ _, .threw _ => some p.leases
  | .wake, .woken => some p.leases
  | .inner _, .executed _ | .inner _, .threw _ => some p.leases
  | .settled children, .settled => if children.all p.isDone then some p.leases else none
  | _, _ => none

def setTask (p : Process) (t : TaskId) (task : Task) : Process :=
  { p with tasks := p.tasks.set t task }

/-- Store what a stretch left behind: its bookkeeping, its history, what it spawned. -/
def settle (p : Process) (s : Stretch) : Process :=
  { p with
    gateway := s.gateway
    tasks := p.tasks ++ s.spawned.map (Task.suspended · none)
    dependents := s.events.foldl Dependent.record p.dependents }

/-- The synchronous beginning of an operation. -/
def begin (w : World) (p : Process) : Operation → Stretch
  | .entry legging candidate => p.gateway.coordinateEntry cfg w legging candidate
  | .exit legging position => p.gateway.coordinateExit w legging position
  | .claimUnderlyingForPosition underlying tradeId =>
      p.gateway.claimUnderlying cfg w underlying (.trade tradeId)
  | .releaseUnderlyingForPosition underlying tradeId =>
      p.gateway.releaseUnderlying cfg w underlying (.trade tradeId)
  | .claimUnderlyingForResidual underlying attemptId =>
      p.gateway.claimUnderlying cfg w underlying (.residual attemptId)
  | .releaseUnderlyingForResidual underlying attemptId =>
      p.gateway.releaseUnderlying cfg w underlying (.residual attemptId)
  | .renewTick => p.gateway.renewTick cfg w (p.tasks.length + 1)

/-- The stretch a resumed task runs. -/
def resumed (w : World) (p : Process) (t : TaskId) : Option Stretch :=
  match p.tasks[t]? with
  | some (.suspended frame (some answer)) => frame.resume cfg w p.gateway answer
  | _ => none

def step (p : Process) : Label → Option Process
  | .start w operation =>
      let s := p.begin cfg w operation
      some (({ p with tasks := p.tasks ++ [s.next.task] } : Process).settle s)
  | .answer t answer =>
      match p.tasks[t]? with
      | some (.suspended frame none) =>
          (p.serve cfg frame.call answer).map fun leases =>
            { p.setTask t (.suspended frame (some answer)) with leases }
      | _ => none
  | .resume w t => (p.resumed cfg w t).map fun s => (p.setTask t s.next.task).settle s
  | .lapse tier owner => some { p with leases := releaseLeases p.leases tier owner none }

variable {cfg} {p p' : Process} {a : Label}

/-- The four kinds of step. -/
theorem step_cases (h : p.step cfg a = some p') :
    (∃ w operation, a = .start w operation ∧
      p' = ({ p with tasks := p.tasks ++ [(p.begin cfg w operation).next.task] } :
        Process).settle (p.begin cfg w operation)) ∨
    (∃ t frame answer leases, a = .answer t answer ∧
      p.tasks[t]? = some (.suspended frame none) ∧
      p.serve cfg frame.call answer = some leases ∧
      p' = { p.setTask t (.suspended frame (some answer)) with leases }) ∨
    (∃ w t frame answer s, a = .resume w t ∧
      p.tasks[t]? = some (.suspended frame (some answer)) ∧
      frame.resume cfg w p.gateway answer = some s ∧ p' = (p.setTask t s.next.task).settle s) ∨
    (∃ tier owner, a = .lapse tier owner ∧
      p' = { p with leases := releaseLeases p.leases tier owner none }) := by
  cases a with
  | start w operation =>
      cases h
      exact .inl ⟨w, operation, rfl, rfl⟩
  | answer t answer =>
      simp only [step] at h
      split at h
      · rename_i frame ht
        obtain ⟨q, hq, rfl⟩ := Option.map_eq_some_iff.mp h
        exact .inr (.inl ⟨t, frame, answer, q, rfl, ht, hq, rfl⟩)
      · cases h
  | resume w t =>
      obtain ⟨s, hs, rfl⟩ := Option.map_eq_some_iff.mp h
      unfold resumed at hs
      split at hs
      · rename_i frame answer ht
        exact .inr (.inr (.inl ⟨w, t, frame, answer, s, rfl, ht, hs, rfl⟩))
      · cases hs
  | lapse tier owner =>
      cases h
      exact .inr (.inr (.inr ⟨tier, owner, rfl, rfl⟩))

/-- A task after a stretch was there before it, or was spawned by it. -/
theorem tasks_settle {s : Stretch} {u : TaskId} {task : Task}
    (h : (p.settle s).tasks[u]? = some task) :
    p.tasks[u]? = some task ∨
      (p.tasks.length ≤ u ∧ ∃ frame ∈ s.spawned, task = .suspended frame none) := by
  simp only [settle, List.getElem?_append] at h
  split at h
  · exact .inl h
  · rename_i hlt
    obtain ⟨frame, hf, rfl⟩ := List.mem_map.mp (List.mem_of_getElem? h)
    exact .inr ⟨by omega, frame, hf, rfl⟩

theorem tasks_setTask {t u : TaskId} {task task' : Task}
    (h : (p.setTask t task).tasks[u]? = some task') :
    (u = t ∧ task' = task) ∨ (u ≠ t ∧ p.tasks[u]? = some task') := by
  simp only [setTask, List.getElem?_set] at h
  split at h
  · rename_i heq
    split at h
    · exact .inl ⟨heq.symm, (Option.some.inj h).symm⟩
    · cases h
  · rename_i hne
    exact .inr ⟨fun he => hne he.symm, h⟩

theorem tasks_append {u : Nat} {task task' : Task}
    (h : (p.tasks ++ [task])[u]? = some task') :
    p.tasks[u]? = some task' ∨ (u = p.tasks.length ∧ task' = task) := by
  rw [List.getElem?_append] at h
  split at h
  · exact .inl h
  · rename_i hlt
    obtain ⟨hlen, -⟩ := List.getElem?_eq_some_iff.mp h
    have hu : u = p.tasks.length := by
      simp only [List.length_singleton] at hlen
      omega
    subst hu
    rw [Nat.sub_self] at h
    exact .inr ⟨rfl, (Option.some.inj h).symm⟩

end Process

end Strikedge.Coordinator
