import Strikedge.Machine.Run
import Strikedge.Reservations.Durable
import Mathlib.Logic.Function.Basic

/-!
# Many workers over one authority

A `Fleet` is the authority, its clock, and any number of workers with any number of
operations in flight. A label lets time pass, changes what the environment decides,
starts an operation, lets the authority serve one pending call, or resumes one
operation with the reply it was given. Serving and resuming are different labels, so
a reply may be overtaken by any other step.

`journal` is history kept for the theorems and read by no step: the tokens in the
order the counter handed them out, and the grants in the order they became effective.
-/

namespace Strikedge.Reservations

abbrev WorkerId := Nat
abbrev TaskId := Nat

inductive Task where
  /-- suspended at a frame, with the authority's reply once the call was served -/
  | awaiting (worker : WorkerId) (frame : Frame) (reply : Option PortReply)
  | done (worker : WorkerId) (answer : Answer)
  deriving DecidableEq, Repr

/-- An acquisition that became effective. -/
structure Grant where
  deployment : Deployment
  owner : Owner
  keys : List InstrumentKey
  fence : Nat
  deriving DecidableEq, Repr

/-- History, newest first. -/
structure Journal where
  allocated : List (Deployment × Nat) := []
  granted : List Grant := []
  deriving DecidableEq, Repr

structure Fleet where
  db : InMemoryReservationDatabase := {}
  /-- The authority's clock. -/
  clock : Int := 0
  workers : WorkerId → DurableInstrumentReservations
  tasks : TaskId → Option Task := fun _ => none
  journal : Journal := {}

inductive Operation where
  | request (request : Request)
  | release (args : ReleaseArgs)
  | clear
  deriving DecidableEq, Repr

inductive Label where
  | tick (ms : Nat)
  | outage (failure : Option String)
  | connected (worker : WorkerId)
  | connectionFailed (worker : WorkerId) (message : String)
  | syncClock (worker : WorkerId) (before serverMs after : Int)
  | switchContext (worker : WorkerId) (ctx : ReservationContext)
  | start (task : TaskId) (worker : WorkerId) (operation : Operation)
  /-- the authority serves the pending call of a task -/
  | serve (task : TaskId)
  /-- the task continues with the reply it was served -/
  | resume (task : TaskId)
  /-- the task continues from an `await` that is not a port call -/
  | proceed (task : TaskId) (reply : Reply)
  deriving DecidableEq, Repr

/-- The document a frame is about to insert. -/
def Frame.candidate : Frame → Option DurableReservationDoc
  | .inserting doc | .reinserting doc | .retrying doc => some doc
  | _ => none

def DurableReservationDoc.toGrant (doc : DurableReservationDoc) (owner : Owner) : Grant where
  deployment := doc.deployment
  owner := owner
  keys := doc.keys
  fence := doc.fence

namespace Journal

/-- Record what serving a frame's call handed out or made effective. -/
def record (j : Journal) : Frame → PortReply → Journal
  | .fencing doc, .fence value => { j with allocated := (doc.deployment, value) :: j.allocated }
  | .inserting doc, .insertion .inserted | .reinserting doc, .insertion .inserted
  | .retrying doc, .insertion .inserted =>
      { j with granted := doc.toGrant doc.owner :: j.granted }
  | _, _ => j

/-- Record an acquisition that takes its own live row for its success. -/
def recordResumed (j : Journal) : Frame → PortReply → Journal
  | .listing doc, .live live =>
      match DurableInstrumentReservations.selfConflict doc.owner live with
      | some mine => { j with granted := mine.toGrant doc.owner :: j.granted }
      | none => j
  | _, _ => j

end Journal

namespace Fleet

def setTask (s : Fleet) (t : TaskId) (task : Task) : Fleet :=
  { s with tasks := Function.update s.tasks t (some task) }

def setWorker (s : Fleet) (w : WorkerId) (worker : DurableInstrumentReservations) : Fleet :=
  { s with workers := Function.update s.workers w worker }

/-- Store what a synchronous stretch of a task left behind. -/
def settle (s : Fleet) (t : TaskId) (w : WorkerId)
    (result : DurableInstrumentReservations × Next) : Fleet :=
  (s.setWorker w result.1).setTask t <|
    match result.2 with
    | .await frame => .awaiting w frame none
    | .finish answer => .done w answer

/-- The synchronous beginning of an operation. -/
def begin (s : Fleet) (w : WorkerId) : Operation → DurableInstrumentReservations × Next
  | .request request => (s.workers w, (s.workers w).begin request)
  | .release args => (s.workers w).release s.db args
  | .clear => (s.workers w).clear s.db

def step (s : Fleet) : Label → Option Fleet
  | .tick ms => some { s with clock := s.clock + ms }
  | .outage failure => some { s with db := { s.db with failure := failure } }
  | .connected w =>
      if s.db.failure = none then
        some (s.setWorker w { s.workers w with initialised := true, lastError := none })
      else none
  | .connectionFailed w message =>
      some (s.setWorker w { s.workers w with lastError := some message })
  | .syncClock w before serverMs after =>
      some (s.setWorker w ((s.workers w).syncClock before serverMs after))
  | .switchContext w ctx => some (s.setWorker w { s.workers w with context := ctx })
  | .start t w operation =>
      if s.tasks t = none then some (s.settle t w (s.begin w operation)) else none
  | .serve t =>
      match s.tasks t with
      | some (.awaiting w frame none) =>
          frame.call.map fun call =>
            let (db, reply) := s.db.serve call
            { s.setTask t (.awaiting w frame (some reply)) with
              db := db
              journal := s.journal.record frame reply }
      | _ => none
  | .resume t =>
      match s.tasks t with
      | some (.awaiting w frame (some reply)) =>
          ((s.workers w).resume frame (.port reply)).map fun result =>
            { s.settle t w result with journal := s.journal.recordResumed frame reply }
      | _ => none
  | .proceed t reply =>
      match s.tasks t with
      | some (.awaiting w frame none) =>
          if frame.call = none then
            ((s.workers w).resume frame reply).map (s.settle t w)
          else none
      | _ => none

/-- The call the authority serves in a step. -/
def served (s : Fleet) : Label → Option PortCall
  | .serve t =>
      match s.tasks t with
      | some (.awaiting _ frame none) => frame.call
      | _ => none
  | _ => none

variable {s s' : Fleet} {a : Label}

/-- Only served calls touch the tables, and only the passage of time moves the clock. -/
theorem step_authority (hstep : s.step a = some s') :
    s.clock ≤ s'.clock ∧
      ((∃ call, s.served a = some call ∧ s'.db = (s.db.serve call).1) ∨
        (s'.db.docs = s.db.docs ∧ s'.db.uniqueIndex = s.db.uniqueIndex)) := by
  cases a with
  | tick ms =>
      cases hstep
      refine ⟨?_, .inr ⟨rfl, rfl⟩⟩
      dsimp only
      omega
  | serve t =>
      simp only [step] at hstep
      split at hstep
      · rename_i w frame ht
        obtain ⟨call, hcall, rfl⟩ := Option.map_eq_some_iff.mp hstep
        exact ⟨Int.le_refl _, .inl ⟨call, by simp [served, ht, hcall], rfl⟩⟩
      · cases hstep
  | outage failure => cases hstep; exact ⟨Int.le_refl _, .inr ⟨rfl, rfl⟩⟩
  | connected w =>
      simp only [step] at hstep
      split at hstep <;> cases hstep
      exact ⟨Int.le_refl _, .inr ⟨rfl, rfl⟩⟩
  | connectionFailed w message => cases hstep; exact ⟨Int.le_refl _, .inr ⟨rfl, rfl⟩⟩
  | syncClock w before serverMs after => cases hstep; exact ⟨Int.le_refl _, .inr ⟨rfl, rfl⟩⟩
  | switchContext w ctx => cases hstep; exact ⟨Int.le_refl _, .inr ⟨rfl, rfl⟩⟩
  | start t w operation =>
      simp only [step] at hstep
      split at hstep <;> cases hstep
      exact ⟨Int.le_refl _, .inr ⟨rfl, rfl⟩⟩
  | resume t =>
      simp only [step] at hstep
      split at hstep
      · obtain ⟨result, -, rfl⟩ := Option.map_eq_some_iff.mp hstep
        exact ⟨Int.le_refl _, .inr ⟨rfl, rfl⟩⟩
      · cases hstep
  | proceed t reply =>
      simp only [step] at hstep
      split at hstep
      · split at hstep
        · obtain ⟨result, -, rfl⟩ := Option.map_eq_some_iff.mp hstep
          exact ⟨Int.le_refl _, .inr ⟨rfl, rfl⟩⟩
        · cases hstep
      · cases hstep

/-- Every step keeps the index exact. -/
theorem indexed_step (h : Indexed s.db) (hstep : s.step a = some s') : Indexed s'.db := by
  obtain ⟨call, -, hdb⟩ | ⟨hdocs, hindex⟩ := (step_authority hstep).2
  · rw [hdb]
    exact InMemoryReservationDatabase.indexed_serve h call
  · exact ⟨fun hd => h.owner_eq (hdocs ▸ hd), by
      intro entry owner
      rw [hdocs, hindex]
      exact h.index_iff⟩

theorem clock_run {labels : List Label} (hrun : Machine.run step s labels = some s') :
    s.clock ≤ s'.clock :=
  Machine.run_invariant (I := fun x => s.clock ≤ x.clock)
    (fun _ _ _ h hstep => Int.le_trans h (step_authority hstep).1) (Int.le_refl _) hrun

/-- A step of another task leaves a task as it is, and a finished task stays finished. -/
theorem step_task {t : TaskId} {task : Task} (ht : s.tasks t = some task)
    (hstep : s.step a = some s') : s'.tasks t = some task ∨ a = .serve t ∨ a = .resume t ∨
      ∃ reply, a = .proceed t reply := by
  cases a with
  | tick ms => cases hstep; exact .inl ht
  | outage failure => cases hstep; exact .inl ht
  | connected w =>
      simp only [step] at hstep
      split at hstep <;> cases hstep
      exact .inl ht
  | connectionFailed w message => cases hstep; exact .inl ht
  | syncClock w before serverMs after => cases hstep; exact .inl ht
  | switchContext w ctx => cases hstep; exact .inl ht
  | start u w operation =>
      simp only [step] at hstep
      split at hstep <;> cases hstep
      rename_i hfree
      have hne : t ≠ u := fun he => by rw [he, hfree] at ht; cases ht
      exact .inl (by simpa [settle, setTask, setWorker, hne] using ht)
  | serve u =>
      by_cases hu : t = u
      · exact .inr (.inl (hu ▸ rfl))
      · simp only [step] at hstep
        split at hstep
        · obtain ⟨call, -, rfl⟩ := Option.map_eq_some_iff.mp hstep
          exact .inl (by simpa [setTask, hu] using ht)
        · cases hstep
  | resume u =>
      by_cases hu : t = u
      · exact .inr (.inr (.inl (hu ▸ rfl)))
      · simp only [step] at hstep
        split at hstep
        · obtain ⟨result, -, rfl⟩ := Option.map_eq_some_iff.mp hstep
          exact .inl (by simpa [settle, setTask, setWorker, hu] using ht)
        · cases hstep
  | proceed u reply =>
      by_cases hu : t = u
      · exact .inr (.inr (.inr ⟨reply, hu ▸ rfl⟩))
      · simp only [step] at hstep
        split at hstep
        · split at hstep
          · obtain ⟨result, -, rfl⟩ := Option.map_eq_some_iff.mp hstep
            exact .inl (by simpa [settle, setTask, setWorker, hu] using ht)
          · cases hstep
        · cases hstep

end Fleet

end Strikedge.Reservations
