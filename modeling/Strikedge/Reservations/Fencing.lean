import Strikedge.Machine.Custody
import Strikedge.Reservations.Workers

/-!
# Fencing tokens across workers

A token is allocated by the counter, rides in one task or waits in one worker's spare
pool, and is used up by the insert that commits with it. Custody of tokens is
exclusive at every moment, so no token is granted twice. Whether grants follow the
order of the tokens depends on the schedule alone: a grant is out of order exactly
when a token allocated later has been granted before it.
-/

namespace Strikedge.Reservations

open Strikedge.Machine
open InMemoryReservationDatabase

/-- Tokens a suspended task carries. A committed insert has used its token up. -/
def Frame.tokens : Frame → Option PortReply → List Nat
  | .fencing _, some (.fence value) => [value]
  | .inserting doc, reply | .reinserting doc, reply | .retrying doc, reply =>
      if reply = some (.insertion .inserted) then [] else [doc.fence]
  | .deletingOwn doc, _ | .reclaiming doc _, _ | .listing doc, _ => [doc.fence]
  | _, _ => []

def Task.tokens : Task → List Nat
  | .awaiting _ frame reply => frame.tokens reply
  | .done _ _ => []

def Next.tokens : Next → List Nat
  | .await frame => frame.tokens none
  | .finish _ => []

def Reply.port? : Reply → Option PortReply
  | .port reply => some reply
  | _ => none

inductive Holder where
  | task (t : TaskId)
  | pool (w : WorkerId)
  | ledger
  deriving DecidableEq

/-- Fences of the grants so far, newest first. -/
def Journal.fences (j : Journal) : List Nat := j.granted.map (·.fence)

def Fleet.held (s : Fleet) : Holder → List Nat
  | .task t => ((s.tasks t).map Task.tokens).getD []
  | .pool w => (s.workers w).spareFences
  | .ledger => s.journal.fences

/-- Every grant carries a greater fence than all grants before it. -/
def Journal.Ascending (j : Journal) : Prop :=
  j.fences.Pairwise fun newer older => older < newer

/-- Has a token allocated after this one already been granted? -/
def Journal.overtaken (j : Journal) (deployment : Deployment) (fence : Nat) : Prop :=
  ∃ g ∈ j.granted,
    (deployment, g.fence) ∈ j.allocated.takeWhile (· ≠ (deployment, fence))

/-- The condition on one step: an insert commits only while no token allocated after
its own has been granted, and no acquisition takes its own live row for its success. -/
def Orderly (s : Fleet) : Label → Prop
  | .serve t => ∀ w frame doc, s.tasks t = some (.awaiting w frame none) →
      frame.candidate = some doc → s.db.admits doc →
      ¬ s.journal.overtaken doc.deployment doc.fence
  | .resume t => ∀ w doc live,
      s.tasks t = some (.awaiting w (.listing doc) (some (.live live))) →
      DurableInstrumentReservations.selfConflict doc.owner live = none
  | _ => True

def Request.InDeployment (deployment : Deployment) (request : Request) : Prop :=
  ∀ ctx ∈ request.context, ctx.deployment = deployment

def Frame.InDeployment (deployment : Deployment) : Frame → Prop
  | .ensuring request => request.InDeployment deployment
  | .refreshing _ ctx => ctx.deployment = deployment
  | .fencing doc | .inserting doc | .deletingOwn doc | .reinserting doc
  | .reclaiming doc _ | .retrying doc | .listing doc => doc.deployment = deployment
  | _ => True

def Next.InDeployment (deployment : Deployment) : Next → Prop
  | .await frame => frame.InDeployment deployment
  | .finish _ => True

/-- Labels that name no other deployment. -/
def Label.InDeployment (deployment : Deployment) : Label → Prop
  | .switchContext _ ctx => ctx.deployment = deployment
  | .start _ _ (.request request) => request.InDeployment deployment
  | _ => True

section Stretch

variable {w w' : DurableInstrumentReservations} {frame : Frame} {next : Next}

theorem recycleFence_subperm (w : DurableInstrumentReservations) (fence : Nat) :
    ((w.recycleFence fence).spareFences).Subperm (fence :: w.spareFences) := by
  unfold DurableInstrumentReservations.recycleFence
  split
  · exact List.Subperm.cons_right _ (List.Subperm.refl _)
  · exact List.Subperm.refl _

/-- Between two suspension points tokens move between a task and its worker's pool, or
are dropped. None is made. -/
theorem resumePort_tokens {reply : PortReply} (h : w.resumePort frame reply = some (w', next)) :
    (next.tokens ++ w'.spareFences).Subperm (frame.tokens (some reply) ++ w.spareFences) := by
  unfold DurableInstrumentReservations.resumePort at h
  split at h
  case h_7 doc live =>
      -- The listing task gives its token back, or drops it on its own live row.
      simp only [Option.some.injEq, DurableInstrumentReservations.afterListing] at h
      split at h
      · cases h
        exact List.Subperm.cons_right _ (List.Subperm.refl _)
      · cases h
        exact recycleFence_subperm w doc.fence
  all_goals try split at h
  all_goals cases h
  all_goals simp [Next.tokens, Frame.tokens, List.Subperm.refl, List.Subperm.cons_right]

theorem resume_tokens {reply : Reply} (h : w.resume frame reply = some (w', next)) :
    (next.tokens ++ w'.spareFences).Subperm (frame.tokens reply.port? ++ w.spareFences) := by
  unfold DurableInstrumentReservations.resume at h
  split at h
  case h_1 request ok =>
      split at h
      · cases h
        exact List.Subperm.refl _
      · cases h
        exact List.Subperm.refl _
  case h_2 request ctx localNow =>
      rw [Option.some.injEq] at h
      cases request with
      | tryAcquireAll args =>
          simp only [DurableInstrumentReservations.afterRefresh] at h
          split at h
          · rename_i fence rest hspare
            cases h
            rw [hspare]
            exact List.Subperm.refl _
          · cases h
            exact List.Subperm.refl _
      | renew args => cases h; exact List.Subperm.refl _
      | verify args => cases h; exact List.Subperm.refl _
      | reapExpired => cases h; exact List.Subperm.refl _
  case h_3 request ctx message =>
      cases h
      exact List.Subperm.refl _
  case h_4 reply _ => exact resumePort_tokens h
  case h_5 => cases h

theorem resumePort_inDeployment {reply : PortReply} {d : Deployment}
    (hf : frame.InDeployment d) (h : w.resumePort frame reply = some (w', next)) :
    next.InDeployment d ∧ w'.context = w.context := by
  unfold DurableInstrumentReservations.resumePort at h
  split at h
  case h_7 doc live =>
      simp only [Option.some.injEq, DurableInstrumentReservations.afterListing] at h
      split at h
      · cases h
        exact ⟨trivial, rfl⟩
      · cases h
        refine ⟨trivial, ?_⟩
        unfold DurableInstrumentReservations.recycleFence
        split <;> rfl
  all_goals try split at h
  all_goals cases h
  all_goals first | exact ⟨trivial, rfl⟩ | exact ⟨hf, rfl⟩

theorem resume_inDeployment {reply : Reply} {d : Deployment} (hw : w.context.deployment = d)
    (hf : frame.InDeployment d) (h : w.resume frame reply = some (w', next)) :
    next.InDeployment d ∧ w'.context = w.context := by
  unfold DurableInstrumentReservations.resume at h
  split at h
  case h_1 request ok =>
      split at h
      · cases h
        refine ⟨?_, rfl⟩
        change (request.context.getD w.context).deployment = d
        cases hctx : request.context with
        | none => exact hw
        | some ctx => exact hf ctx (by rw [hctx]; rfl)
      · cases h
        exact ⟨trivial, rfl⟩
  case h_2 request ctx localNow =>
      rw [Option.some.injEq] at h
      cases request with
      | tryAcquireAll args =>
          simp only [DurableInstrumentReservations.afterRefresh] at h
          split at h
          · cases h
            exact ⟨hf, rfl⟩
          · cases h
            exact ⟨hf, rfl⟩
      | renew args => cases h; exact ⟨trivial, rfl⟩
      | verify args => cases h; exact ⟨trivial, rfl⟩
      | reapExpired => cases h; exact ⟨trivial, rfl⟩
  case h_3 request ctx message =>
      cases h
      exact ⟨trivial, rfl⟩
  case h_4 reply _ => exact resumePort_inDeployment hf h
  case h_5 => cases h

/-- Starting an operation takes no token and stays in the deployment. -/
theorem begin_fresh (s : Fleet) (i : WorkerId) (operation : Operation) {d : Deployment}
    (hd : ∀ request, operation = .request request → request.InDeployment d) :
    (s.begin i operation).2.tokens = [] ∧ (s.begin i operation).2.InDeployment d ∧
      (s.begin i operation).1.spareFences = (s.workers i).spareFences ∧
      (s.begin i operation).1.context = (s.workers i).context := by
  cases operation with
  | request request =>
      have hr := hd request rfl
      cases request with
      | tryAcquireAll args =>
          refine ⟨?_, ?_, rfl, rfl⟩
          · simp only [Fleet.begin, DurableInstrumentReservations.begin]
            split <;> rfl
          · simp only [Fleet.begin, DurableInstrumentReservations.begin]
            split
            · trivial
            · exact hr
      | renew args => exact ⟨rfl, hr, rfl, rfl⟩
      | verify args => exact ⟨rfl, hr, rfl, rfl⟩
      | reapExpired => exact ⟨rfl, hr, rfl, rfl⟩
  | release args =>
      simp only [Fleet.begin, DurableInstrumentReservations.release]
      split
      · exact ⟨rfl, trivial, rfl, rfl⟩
      · exact ⟨rfl, trivial, rfl, rfl⟩
  | clear =>
      simp only [Fleet.begin, DurableInstrumentReservations.clear]
      split
      · exact ⟨rfl, trivial, rfl, rfl⟩
      · exact ⟨rfl, trivial, rfl, rfl⟩

end Stretch

structure TokenOrder (d : Deployment) (s : Fleet) : Prop where
  custody : Custody s.held
  known : ∀ h f, f ∈ s.held h → (d, f) ∈ s.journal.allocated
  counted : ∀ p ∈ s.journal.allocated, p.1 = d ∧ p.2 ≤ (s.db.fences.get? d).getD 0
  sorted : s.journal.allocated.Pairwise fun newer older => older.2 < newer.2
  indexed : Indexed s.db
  /-- every stored row was granted -/
  rows : ∀ {o doc}, s.db.docs.get? o = some doc → doc.fence ∈ s.journal.fences
  /-- and so was every row a listing found -/
  listed : ∀ {t w doc live}, s.tasks t = some (.awaiting w (.listing doc) (some (.live live))) →
    ∀ m ∈ live, m.fence ∈ s.journal.fences
  context : ∀ w, (s.workers w).context.deployment = d
  frames : ∀ {t w frame reply}, s.tasks t = some (.awaiting w frame reply) →
    frame.InDeployment d

namespace TokenOrder

variable {d : Deployment} {s : Fleet} {t : TaskId} {i : WorkerId}

theorem initial {workers : WorkerId → DurableInstrumentReservations}
    (hspare : ∀ w, (workers w).spareFences = [])
    (hctx : ∀ w, (workers w).context.deployment = d) : TokenOrder d { workers := workers } where
  custody := by
    have : ({ workers := workers } : Fleet).held = fun _ => [] := by
      funext h
      cases h with
      | task t => rfl
      | pool w => exact hspare w
      | ledger => rfl
    rw [this]
    exact Custody.empty
  known := by
    intro h f hf
    cases h with
    | task t => cases hf
    | pool w =>
        change f ∈ (workers w).spareFences at hf
        rw [hspare] at hf
        cases hf
    | ledger => cases hf
  counted := by simp
  sorted := List.Pairwise.nil
  indexed := indexed_empty
  rows := by simp
  listed := by simp
  context := hctx
  frames := by simp

/-- A change of one worker that leaves its pool alone. -/
theorem setWorker (h : TokenOrder d s) {worker : DurableInstrumentReservations}
    (hspare : worker.spareFences = (s.workers i).spareFences)
    (hctx : worker.context.deployment = d) : TokenOrder d (s.setWorker i worker) := by
  have held : (s.setWorker i worker).held = s.held := by
    funext x
    cases x with
    | task t => rfl
    | pool w =>
        by_cases hw : w = i
        · subst hw
          simpa [Fleet.held, Fleet.setWorker] using hspare
        · simp [Fleet.held, Fleet.setWorker, hw]
    | ledger => rfl
  refine ⟨held ▸ h.custody, held ▸ h.known, h.counted, h.sorted, h.indexed, h.rows, h.listed,
    ?_, h.frames⟩
  intro w
  by_cases hw : w = i
  · subst hw
    simpa [Fleet.setWorker] using hctx
  · simpa [Fleet.setWorker, hw] using h.context w

/-- A synchronous stretch of one task that makes no token. -/
theorem settle (h : TokenOrder d s) {result : DurableInstrumentReservations × Next}
    (moved : (result.2.tokens ++ result.1.spareFences).Subperm
      (s.held (.task t) ++ s.held (.pool i)))
    (hdep : result.2.InDeployment d) (hctx : result.1.context.deployment = d) :
    TokenOrder d (s.settle t i result) := by
  have htask : (s.settle t i result).held (.task t) = result.2.tokens := by
    cases hr : result.2 <;> simp [Fleet.settle, Fleet.setTask, Fleet.held, hr, Next.tokens,
      Task.tokens]
  have hpool : (s.settle t i result).held (.pool i) = result.1.spareFences := by
    simp [Fleet.settle, Fleet.setTask, Fleet.setWorker, Fleet.held]
  have rest : ∀ x, x ≠ .task t → x ≠ .pool i → (s.settle t i result).held x = s.held x := by
    intro x ht hi
    cases x with
    | task u =>
        have hu : u ≠ t := fun he => ht (he ▸ rfl)
        simp [Fleet.settle, Fleet.setTask, Fleet.setWorker, Fleet.held, hu]
    | pool w =>
        have hw : w ≠ i := fun he => hi (he ▸ rfl)
        simp [Fleet.settle, Fleet.setTask, Fleet.setWorker, Fleet.held, hw]
    | ledger => rfl
  have subset : ∀ x f, f ∈ (s.settle t i result).held x → ∃ y, f ∈ s.held y := by
    intro x f hf
    by_cases hx : x = .task t ∨ x = .pool i
    · have : f ∈ s.held (.task t) ++ s.held (.pool i) := by
        refine moved.subset ?_
        rcases hx with rfl | rfl
        · exact List.mem_append_left _ (htask ▸ hf)
        · exact List.mem_append_right _ (hpool ▸ hf)
      rcases List.mem_append.mp this with hf | hf
      · exact ⟨_, hf⟩
      · exact ⟨_, hf⟩
    · push Not at hx
      exact ⟨x, rest x hx.1 hx.2 ▸ hf⟩
  constructor
  case custody =>
      refine h.custody.exchange (i := .task t) (j := .pool i) (by simp) rest ?_
      rw [htask, hpool]
      exact moved
  case known =>
      intro x f hf
      obtain ⟨y, hy⟩ := subset x f hf
      exact h.known y f hy
  case counted => exact h.counted
  case sorted => exact h.sorted
  case indexed => exact h.indexed
  case rows => exact h.rows
  case listed =>
      intro u w doc live hu
      by_cases hut : u = t
      · subst hut
        cases hr : result.2 <;> simp [Fleet.settle, Fleet.setTask, hr] at hu
      · exact h.listed (by simpa [Fleet.settle, Fleet.setTask, Fleet.setWorker, hut] using hu)
  case context =>
      intro w
      by_cases hw : w = i
      · subst hw
        simpa [Fleet.settle, Fleet.setTask, Fleet.setWorker] using hctx
      · simpa [Fleet.settle, Fleet.setTask, Fleet.setWorker, hw] using h.context w
  case frames =>
      intro u w frame reply hu
      by_cases hut : u = t
      · subst hut
        cases hr : result.2 with
        | await next =>
            simp only [Fleet.settle, Fleet.setTask, hr, Function.update_self, Option.some.injEq,
              Task.awaiting.injEq] at hu
            obtain ⟨-, rfl, -⟩ := hu
            simpa [hr, Next.InDeployment] using hdep
        | finish answer => simp [Fleet.settle, Fleet.setTask, hr] at hu
      · exact h.frames (by simpa [Fleet.settle, Fleet.setTask, Fleet.setWorker, hut] using hu)

/-- Other than an allocation, serving a call moves a token at most from the task to the
ledger, and hands none out. -/
theorem record_moves (j : Journal) (frame : Frame) (reply : PortReply) :
    (∃ doc value, frame = .fencing doc ∧ reply = .fence value) ∨
    ((j.record frame reply).allocated = j.allocated ∧
      (frame.tokens (some reply) ++ (j.record frame reply).fences).Subperm
        (frame.tokens none ++ j.fences) ∧
      j.fences ⊆ (j.record frame reply).fences) := by
  unfold Journal.record
  split
  · exact .inl ⟨_, _, rfl, rfl⟩
  · exact .inr ⟨rfl, List.Subperm.refl _, List.subset_cons_self _ _⟩
  · exact .inr ⟨rfl, List.Subperm.refl _, List.subset_cons_self _ _⟩
  · exact .inr ⟨rfl, List.Subperm.refl _, List.subset_cons_self _ _⟩
  · rename_i hfence hins hreins hretry
    by_cases ha : ∃ doc value, frame = .fencing doc ∧ reply = .fence value
    · exact .inl ha
    · refine .inr ⟨rfl, ?_, List.Subset.refl _⟩
      refine (List.Sublist.append ?_ (List.Sublist.refl _)).subperm
      cases frame <;> cases reply <;> simp_all [Frame.tokens]

theorem call_eq_insert {frame : Frame} {doc : DurableReservationDoc} :
    frame.call = some (.insert doc) ↔ frame.candidate = some doc := by
  cases frame <;> simp [Frame.call, Frame.candidate]

theorem record_candidate {j : Journal} {frame : Frame} {doc : DurableReservationDoc}
    (h : frame.candidate = some doc) :
    j.record frame (.insertion .inserted) =
      { j with granted := doc.toGrant doc.owner :: j.granted } := by
  cases frame <;> simp_all [Frame.candidate, Journal.record]

/-- A row present after a call was present before, with the same token, or is granted now. -/
theorem rows_touched {j : Journal} {frame : Frame} {call : PortCall} {reply : PortReply}
    {owner : Owner} {before : Option DurableReservationDoc} {doc : DurableReservationDoc}
    (hcall : frame.call = some call) (hmore : j.fences ⊆ (j.record frame reply).fences)
    (hrows : ∀ {d}, before = some d → d.fence ∈ j.fences)
    (touch : Touches owner call reply before (some doc)) :
    doc.fence ∈ (j.record frame reply).fences := by
  cases touch with
  | kept => exact hmore (hrows rfl)
  | inserted _ =>
      rw [record_candidate (call_eq_insert.mp hcall)]
      exact List.mem_cons_self
  | @renewed args d _ =>
      have hd : d.fence ∈ j.fences := hrows rfl
      exact hmore hd

/-- The state after the authority served a task's call. -/
theorem serve (h : TokenOrder d s) {frame : Frame} {call : PortCall}
    (ht : s.tasks t = some (.awaiting i frame none)) (hcall : frame.call = some call) :
    TokenOrder d { s.setTask t (.awaiting i frame (some (s.db.serve call).2)) with
      db := (s.db.serve call).1
      journal := s.journal.record frame (s.db.serve call).2 } := by
  set s' : Fleet := { s.setTask t (.awaiting i frame (some (s.db.serve call).2)) with
    db := (s.db.serve call).1
    journal := s.journal.record frame (s.db.serve call).2 } with hs'
  have htask : s'.held (.task t) = frame.tokens (some (s.db.serve call).2) := by
    simp [hs', Fleet.held, Fleet.setTask, Task.tokens]
  have hbefore : s.held (.task t) = frame.tokens none := by
    simp [Fleet.held, ht, Task.tokens]
  have hothers : ∀ u, u ≠ t → s'.held (.task u) = s.held (.task u) := by
    intro u hu
    simp [hs', Fleet.held, Fleet.setTask, hu]
  have frames' : ∀ {u w f r}, s'.tasks u = some (.awaiting w f r) → f.InDeployment d := by
    intro u w f r hu
    by_cases hut : u = t
    · subst hut
      simp only [hs', Fleet.setTask, Function.update_self, Option.some.injEq,
        Task.awaiting.injEq] at hu
      exact hu.2.1 ▸ h.frames ht
    · exact h.frames (by simpa [hs', Fleet.setTask, hut] using hu)
  rcases record_moves s.journal frame (s.db.serve call).2 with
    ⟨doc, value, rfl, hreply⟩ | ⟨halloc, hmoved, hmore⟩
  · -- An allocation: the task receives a token nobody has.
    obtain rfl : call = .nextFence doc.deployment := by
      simpa [Frame.call] using hcall.symm
    obtain ⟨hvalue, hdb⟩ := serve_nextFence hreply
    obtain rfl : doc.deployment = d := h.frames ht
    have hnew : ∀ x, value ∉ s.held x := by
      intro x hx
      have := (h.counted _ (h.known x value hx)).2
      simp only at this
      omega
    have hjournal : s'.journal =
        { s.journal with allocated := (doc.deployment, value) :: s.journal.allocated } := by
      change s.journal.record (.fencing doc) _ = _
      rw [hreply]
      rfl
    have halloc : s'.journal.allocated = (doc.deployment, value) :: s.journal.allocated := by
      rw [hjournal]
    have hgranted : s'.journal.fences = s.journal.fences := by
      rw [hjournal]
      rfl
    have hgot : s'.held (.task t) = value :: s.held (.task t) := by
      rw [htask, hbefore, hreply]
      rfl
    have rest : ∀ x, x ≠ .task t → s'.held x = s.held x := by
      intro x hx
      cases x with
      | task u => exact hothers u fun he => hx (he ▸ rfl)
      | pool w => rfl
      | ledger => exact hgranted
    constructor
    case custody => exact h.custody.receive rest hgot hnew
    case known =>
        intro x f hf
        rw [halloc]
        by_cases hx : x = .task t
        · subst hx
          rw [hgot] at hf
          rcases List.mem_cons.mp hf with rfl | hf
          · exact List.mem_cons_self
          · exact List.mem_cons_of_mem _ (h.known _ f hf)
        · exact List.mem_cons_of_mem _ (h.known x f (rest x hx ▸ hf))
    case counted =>
        have hcount : (s'.db.fences.get? doc.deployment).getD 0 = value := by
          change ((s.db.serve _).1.fences.get? doc.deployment).getD 0 = value
          rw [hdb, OrderedMap.get?_set, if_pos rfl, Option.getD_some]
        intro p hp
        rw [hcount]
        rw [halloc] at hp
        rcases List.mem_cons.mp hp with rfl | hp
        · exact ⟨rfl, Nat.le_refl _⟩
        · have := h.counted p hp
          exact ⟨this.1, by omega⟩
    case sorted =>
        rw [halloc]
        refine List.pairwise_cons.mpr ⟨fun p hp => ?_, h.sorted⟩
        have := (h.counted p hp).2
        simp only
        omega
    case indexed =>
        exact indexed_serve h.indexed _
    case rows =>
        intro o doc' hd
        rw [hgranted]
        change (s.db.serve _).1.docs.get? o = some doc' at hd
        rw [hdb] at hd
        exact h.rows hd
    case listed =>
        intro u w doc' live hu m hm
        rw [hgranted]
        by_cases hut : u = t
        · subst hut
          simp [hs', Fleet.setTask] at hu
        · exact h.listed (by simpa [hs', Fleet.setTask, hut] using hu) m hm
    case context => exact h.context
    case frames => exact frames'
  · -- Anything else: the task's token is used up by a grant, or stays.
    have hledger : s'.held .ledger = (s.journal.record frame (s.db.serve call).2).fences := rfl
    have rest : ∀ x, x ≠ .task t → x ≠ .ledger → s'.held x = s.held x := by
      intro x hx hl
      cases x with
      | task u => exact hothers u fun he => hx (he ▸ rfl)
      | pool w => rfl
      | ledger => exact absurd rfl hl
    have moved : (s'.held (.task t) ++ s'.held .ledger).Subperm
        (s.held (.task t) ++ s.held .ledger) := by
      rw [htask, hledger, hbefore]
      exact hmoved
    constructor
    case custody => exact h.custody.exchange (by simp) rest moved
    case known =>
        intro x f hf
        change (d, f) ∈ (s.journal.record frame (s.db.serve call).2).allocated
        rw [halloc]
        by_cases hx : x = .task t ∨ x = .ledger
        · have : f ∈ s.held (.task t) ++ s.held .ledger := by
            refine moved.subset ?_
            rcases hx with rfl | rfl
            · exact List.mem_append_left _ hf
            · exact List.mem_append_right _ hf
          rcases List.mem_append.mp this with hf | hf
          · exact h.known _ f hf
          · exact h.known _ f hf
        · push Not at hx
          exact h.known x f (rest x hx.1 hx.2 ▸ hf)
    case counted =>
        intro p hp
        change p ∈ (s.journal.record frame (s.db.serve call).2).allocated at hp
        rw [halloc] at hp
        obtain ⟨hp₁, hp₂⟩ := h.counted p hp
        exact ⟨hp₁, Nat.le_trans hp₂ (counter_serve_mono call d)⟩
    case sorted =>
        change (s.journal.record frame (s.db.serve call).2).allocated.Pairwise _
        rw [halloc]
        exact h.sorted
    case indexed => exact indexed_serve h.indexed call
    case rows =>
        intro o doc hd
        change doc.fence ∈ (s.journal.record frame (s.db.serve call).2).fences
        have touch := serve_touches h.indexed call o
        rw [show (s.db.serve call).1.docs.get? o = some doc from hd] at touch
        exact rows_touched hcall hmore (fun hb => h.rows hb) touch
    case listed =>
        intro u w doc live hu m hm
        change m.fence ∈ (s.journal.record frame (s.db.serve call).2).fences
        by_cases hut : u = t
        · subst hut
          simp only [hs', Fleet.setTask, Function.update_self, Option.some.injEq,
            Task.awaiting.injEq] at hu
          obtain ⟨-, rfl, hlive⟩ := hu
          obtain rfl : call = .findLiveByKeys doc.deployment doc.keys doc.createdAt := by
            simpa [Frame.call] using hcall.symm
          exact hmore (h.rows (get?_of_mem_values h.indexed (serve_live_mem hlive hm)))
        · exact hmore (h.listed (by simpa [hs', Fleet.setTask, hut] using hu) m hm)
    case context => exact h.context
    case frames => exact frames'

/-- A resumption that takes no live row of its own for a success. -/
theorem recordResumed_eq {j : Journal} {frame : Frame} {reply : PortReply}
    (hc : ∀ doc live, frame = .listing doc → reply = .live live →
      DurableInstrumentReservations.selfConflict doc.owner live = none) :
    j.recordResumed frame reply = j := by
  unfold Journal.recordResumed
  split
  · rename_i doc live
    rw [hc doc live rfl rfl]
  · rfl

/-- One step. A step that meets the condition keeps the invariant. -/
theorem step {a : Label} {s' : Fleet} (ha : a.InDeployment d) (h : TokenOrder d s)
    (hc : Orderly s a) (hstep : s.step a = some s') : TokenOrder d s' := by
  cases a with
  | tick ms =>
      cases hstep
      exact ⟨h.custody, h.known, h.counted, h.sorted, h.indexed, h.rows, h.listed, h.context,
        h.frames⟩
  | outage failure =>
      cases hstep
      exact ⟨h.custody, h.known, h.counted, h.sorted, ⟨h.indexed.owner_eq, h.indexed.index_iff⟩,
        h.rows, h.listed, h.context, h.frames⟩
  | connected w =>
      simp only [Fleet.step] at hstep
      split at hstep
      · cases hstep
        exact h.setWorker rfl (h.context w)
      · cases hstep
  | connectionFailed w message =>
      cases hstep
      exact h.setWorker rfl (h.context w)
  | syncClock w before serverMs after =>
      cases hstep
      exact h.setWorker rfl (h.context w)
  | switchContext w ctx =>
      cases hstep
      exact h.setWorker rfl ha
  | start t w operation =>
      simp only [Fleet.step] at hstep
      split at hstep
      · rename_i hfree
        cases hstep
        obtain ⟨htok, hdep, hspare, hctx⟩ := begin_fresh s w operation (d := d) (by
          rintro request rfl
          exact ha)
        refine h.settle ?_ hdep (hctx ▸ h.context w)
        have hnone : s.held (.task t) = [] := by simp [Fleet.held, hfree]
        rw [htok, hspare, hnone]
        exact List.Subperm.refl _
      · cases hstep
  | serve t =>
      simp only [Fleet.step] at hstep
      split at hstep
      · rename_i w frame ht
        obtain ⟨call, hcall, rfl⟩ := Option.map_eq_some_iff.mp hstep
        exact h.serve ht hcall
      · cases hstep
  | resume t =>
      simp only [Fleet.step] at hstep
      split at hstep
      · rename_i w frame reply ht
        obtain ⟨result, hresume, rfl⟩ := Option.map_eq_some_iff.mp hstep
        have hsame : s.journal.recordResumed frame reply = s.journal :=
          recordResumed_eq fun doc live hf hr => hc w doc live (hf ▸ hr ▸ ht)
        rw [hsame]
        obtain ⟨hdep, hctx⟩ := resume_inDeployment (h.context w) (h.frames ht) hresume
        refine h.settle ?_ hdep (hctx ▸ h.context w)
        have hheld : s.held (.task t) = frame.tokens (some reply) := by
          simp [Fleet.held, ht, Task.tokens]
        rw [hheld]
        exact resume_tokens hresume
      · cases hstep
  | proceed t reply =>
      simp only [Fleet.step] at hstep
      split at hstep
      · rename_i w frame ht
        split at hstep
        · rename_i hcall
          obtain ⟨result, hresume, rfl⟩ := Option.map_eq_some_iff.mp hstep
          obtain ⟨hdep, hctx⟩ := resume_inDeployment (h.context w) (h.frames ht) hresume
          refine h.settle ?_ hdep (hctx ▸ h.context w)
          have hheld : s.held (.task t) = frame.tokens reply.port? := by
            cases frame <;> simp [Frame.call] at hcall <;>
              simp [Fleet.held, ht, Task.tokens, Frame.tokens]
          rw [hheld]
          exact resume_tokens hresume
        · cases hstep
      · cases hstep

/-- Allocated after a token means greater than it. -/
theorem mem_takeWhile_iff {l : List (Deployment × Nat)} {f g : Nat}
    (hl : l.Pairwise fun newer older => older.2 < newer.2) (hf : (d, f) ∈ l) (hg : (d, g) ∈ l) :
    (d, g) ∈ l.takeWhile (· ≠ (d, f)) ↔ f < g := by
  induction l with
  | nil => cases hf
  | cons p l ih =>
      obtain ⟨hp, hl⟩ := List.pairwise_cons.mp hl
      by_cases hpf : p = (d, f)
      · subst hpf
        rw [List.takeWhile_cons_of_neg (by simp)]
        rcases List.mem_cons.mp hg with he | hg
        · cases he
          simp
        · have := hp _ hg
          simp only [List.not_mem_nil, false_iff]
          simp only at this
          omega
      · rw [List.takeWhile_cons_of_pos (by simpa using hpf)]
        have hf' : (d, f) ∈ l := (List.mem_cons.mp hf).resolve_left (Ne.symm hpf)
        have hlt := hp _ hf'
        rcases List.mem_cons.mp hg with he | hg
        · subst he
          simpa using hlt
        · rw [List.mem_cons, ih hl hf' hg]
          constructor
          · rintro (he | h)
            · subst he
              exact hlt
            · exact h
          · exact .inr

/-- For a token not granted yet, no later token has been granted exactly when every
granted one is smaller. -/
theorem not_overtaken_iff (h : TokenOrder d s) {f : Nat} (hf : f ∈ s.held (.task t)) :
    ¬ s.journal.overtaken d f ↔ ∀ g ∈ s.journal.fences, g < f := by
  have hfresh : f ∉ s.journal.fences := by
    intro hg
    have hl : f ∈ s.held .ledger := hg
    have := h.custody.holder_unique hf hl
    cases this
  have later : ∀ g ∈ s.journal.granted,
      ((d, g.fence) ∈ s.journal.allocated.takeWhile (· ≠ (d, f)) ↔ f < g.fence) := fun g hg =>
    mem_takeWhile_iff h.sorted (h.known _ f hf)
      (h.known .ledger g.fence (List.mem_map.mpr ⟨g, hg, rfl⟩))
  constructor
  · intro hno x hx
    obtain ⟨g, hg, rfl⟩ := List.mem_map.mp hx
    have hle : ¬ f < g.fence := fun hlt => hno ⟨g, hg, (later g hg).mpr hlt⟩
    have hne : g.fence ≠ f := fun he => hfresh (he ▸ hx)
    omega
  · rintro hall ⟨g, hg, hlater⟩
    have h₁ := (later g hg).mp hlater
    have h₂ := hall g.fence (List.mem_map.mpr ⟨g, hg, rfl⟩)
    omega

theorem ascending_cons {j : Journal} {g : Grant} (h : j.Ascending) :
    ({ j with granted := g :: j.granted } : Journal).Ascending ↔ ∀ x ∈ j.fences, x < g.fence := by
  change ((g.fence :: j.fences).Pairwise _) ↔ _
  rw [List.pairwise_cons]
  exact and_iff_left h

/-- Serving a call records a grant exactly when an insert is admitted. -/
theorem record_serve {frame : Frame} {call : PortCall} (hcall : frame.call = some call) :
    (∃ doc, frame.candidate = some doc ∧ s.db.admits doc ∧
      (s.journal.record frame (s.db.serve call).2).granted =
        doc.toGrant doc.owner :: s.journal.granted) ∨
    ((∀ doc, frame.candidate = some doc → ¬ s.db.admits doc) ∧
      (s.journal.record frame (s.db.serve call).2).granted = s.journal.granted) := by
  cases hcand : frame.candidate with
  | some doc =>
      obtain rfl : call = .insert doc :=
        Option.some.inj (hcall.symm.trans (call_eq_insert.mpr hcand))
      by_cases hadm : s.db.admits doc
      · rw [(serve_insert_inserted_iff s.db doc).mpr hadm, record_candidate hcand]
        exact .inl ⟨doc, rfl, hadm, rfl⟩
      · refine .inr ⟨fun doc' he => Option.some.inj he ▸ hadm, ?_⟩
        have hne := mt (serve_insert_inserted_iff s.db doc).mp hadm
        cases frame <;> simp [Frame.candidate] at hcand <;> simp only [Journal.record] <;>
          split <;> simp_all
  | none =>
      refine .inr ⟨by simp, ?_⟩
      cases frame <;> simp [Frame.candidate] at hcand <;> simp only [Journal.record]
      split <;> simp_all

theorem ascending_serve_iff (h : TokenOrder d s) (hasc : s.journal.Ascending) {frame : Frame}
    {call : PortCall} (ht : s.tasks t = some (.awaiting i frame none))
    (hcall : frame.call = some call) :
    (s.journal.record frame (s.db.serve call).2).Ascending ↔ Orderly s (.serve t) := by
  have horderly : Orderly s (.serve t) ↔ ∀ doc, frame.candidate = some doc → s.db.admits doc →
      ¬ s.journal.overtaken doc.deployment doc.fence := by
    constructor
    · intro ho doc
      exact ho i frame doc ht
    · intro hall w frame' doc ht'
      rw [ht] at ht'
      cases ht'
      exact hall doc
  rw [horderly, Journal.Ascending, Journal.fences]
  rcases record_serve (s := s) hcall with ⟨doc, hcand, hadm, hgranted⟩ | ⟨hnone, hgranted⟩
  · have hdep : doc.deployment = d := by
      have := h.frames ht
      cases frame <;> simp_all [Frame.candidate, Frame.InDeployment]
    have hheld : doc.fence ∈ s.held (.task t) := by
      cases frame <;> simp_all [Frame.candidate, Fleet.held, Task.tokens, Frame.tokens]
    rw [hgranted]
    refine (ascending_cons hasc).trans ?_
    change (∀ x ∈ s.journal.fences, x < doc.fence) ↔ _
    rw [← h.not_overtaken_iff hheld, hcand]
    constructor
    · rintro hno doc' he -
      cases he
      rwa [hdep]
    · intro hall
      exact hdep ▸ hall doc rfl hadm
  · rw [hgranted]
    exact ⟨fun _ doc hc ha => absurd ha (hnone doc hc), fun _ => hasc⟩

/-- Taking an own live row for a success repeats a token that was granted before. -/
theorem ascending_resume_iff (h : TokenOrder d s) (hasc : s.journal.Ascending) {frame : Frame}
    {reply : PortReply} (ht : s.tasks t = some (.awaiting i frame (some reply))) :
    (s.journal.recordResumed frame reply).Ascending ↔ Orderly s (.resume t) := by
  by_cases hl : ∃ doc live, frame = .listing doc ∧ reply = .live live ∧
      DurableInstrumentReservations.selfConflict doc.owner live ≠ none
  · obtain ⟨doc, live, rfl, rfl, hself⟩ := hl
    obtain ⟨mine, hmine⟩ := Option.ne_none_iff_exists'.mp hself
    have hmem : mine ∈ live := by
      unfold DurableInstrumentReservations.selfConflict at hmine
      split at hmine
      · exact List.mem_of_mem_head? hmine
      · cases hmine
    constructor
    · intro hasc'
      simp only [Journal.recordResumed, hmine] at hasc'
      have := (ascending_cons hasc).mp hasc' _ (h.listed ht mine hmem)
      exact absurd this (Nat.lt_irrefl _)
    · intro ho
      exact absurd (ho i doc live ht) hself
  · have hc : ∀ doc live, frame = .listing doc → reply = .live live →
        DurableInstrumentReservations.selfConflict doc.owner live = none := by
      intro doc live hf hr
      by_contra hne
      exact hl ⟨doc, live, hf, hr, hne⟩
    rw [recordResumed_eq hc]
    refine ⟨fun _ w doc live ht' => ?_, fun _ => hasc⟩
    rw [ht] at ht'
    cases ht'
    exact hc doc live rfl rfl

/-- One step, exactly: the order survives the steps that meet the condition and no others. -/
theorem ascending_step_iff {a : Label} {s' : Fleet} (h : TokenOrder d s)
    (hasc : s.journal.Ascending) (hstep : s.step a = some s') :
    s'.journal.Ascending ↔ Orderly s a := by
  cases a with
  | serve t =>
      simp only [Fleet.step] at hstep
      split at hstep
      · rename_i w frame ht
        obtain ⟨call, hcall, rfl⟩ := Option.map_eq_some_iff.mp hstep
        exact h.ascending_serve_iff hasc ht hcall
      · cases hstep
  | resume t =>
      simp only [Fleet.step] at hstep
      split at hstep
      · rename_i w frame reply ht
        obtain ⟨result, -, rfl⟩ := Option.map_eq_some_iff.mp hstep
        exact h.ascending_resume_iff hasc ht
      · cases hstep
  | tick ms => cases hstep; exact iff_of_true hasc trivial
  | outage failure => cases hstep; exact iff_of_true hasc trivial
  | connected w =>
      simp only [Fleet.step] at hstep
      split at hstep
      · cases hstep
        exact iff_of_true hasc trivial
      · cases hstep
  | connectionFailed w message => cases hstep; exact iff_of_true hasc trivial
  | syncClock w before serverMs after => cases hstep; exact iff_of_true hasc trivial
  | switchContext w ctx => cases hstep; exact iff_of_true hasc trivial
  | start t w operation =>
      simp only [Fleet.step] at hstep
      split at hstep
      · cases hstep
        exact iff_of_true hasc trivial
      · cases hstep
  | proceed t reply =>
      simp only [Fleet.step] at hstep
      split at hstep
      · split at hstep
        · obtain ⟨result, -, rfl⟩ := Option.map_eq_some_iff.mp hstep
          exact iff_of_true hasc trivial
        · cases hstep
      · cases hstep

end TokenOrder

/-- In any run of any number of workers over one deployment, grants carry strictly
increasing fences throughout exactly when no insert commits after a later token was
granted, and no acquisition reports its own live row. -/
theorem fences_ascending_iff (d : Deployment) (workers : WorkerId → DurableInstrumentReservations)
    (labels : List Label) (hspare : ∀ w, (workers w).spareFences = [])
    (hctx : ∀ w, (workers w).context.deployment = d) (hdep : ∀ a ∈ labels, a.InDeployment d) :
    Throughout Fleet.step (fun s => s.journal.Ascending) { workers := workers } labels ↔
      Heeds Fleet.step Orderly { workers := workers } labels :=
  throughout_iff_heeds (fun _ _ _ ha h _ hc hstep => h.step ha hc hstep)
    (fun _ _ _ _ h hasc hstep => h.ascending_step_iff hasc hstep)
    (TokenOrder.initial hspare hctx) List.Pairwise.nil hdep

/-- Fresh, connected workers of one deployment, with no clock grace. -/
def freshWorker (w : WorkerId) : DurableInstrumentReservations where
  name := "durable"
  ownerPrefix := if w = 0 then "prod:a:" else "prod:b:"
  skewGraceMs := 0
  context := ⟨"prod", "zerodha", 1, "live"⟩
  initialised := true

/-- An acquisition up to the point where its token was allocated. -/
def allocateLabels (t : TaskId) (w : WorkerId) (owner : Owner) (key : InstrumentKey) :
    List Label :=
  [.start t w (.request (.tryAcquireAll { owner := owner, keys := [key], ttlMs := 100, now := 0 })),
    .proceed t (.usable true), .proceed t (.refreshed 0), .serve t, .resume t]

/-- Worker 0 allocates token 1 and stalls, worker 1 allocates token 2 and commits, then
worker 0 commits with token 1. -/
def overtakingRun : List Label :=
  allocateLabels 0 0 "prod:a:1" "NIFTY" ++ allocateLabels 1 1 "prod:b:1" "BANKNIFTY" ++
    [.serve 1, .resume 1, .serve 0, .resume 0]

/-- Both acquisitions succeed, and the later one carries the smaller fence. -/
theorem overtakingRun_not_ascending :
    (run Fleet.step { workers := freshWorker } overtakingRun).map (·.journal.fences) =
        some [1, 2] ∧
      ¬ Throughout Fleet.step (fun s => s.journal.Ascending) { workers := freshWorker }
        overtakingRun := by
  have hend : (run Fleet.step { workers := freshWorker } overtakingRun).map (·.journal.fences) =
      some [1, 2] := by decide
  refine ⟨hend, fun hall => ?_⟩
  obtain ⟨s, hs, hf⟩ := Option.map_eq_some_iff.mp hend
  have hasc : s.journal.fences.Pairwise fun newer older => older < newer := hall.last hs
  rw [hf] at hasc
  revert hasc
  decide

theorem fences_ascending_iff_overtakingRun :
    Throughout Fleet.step (fun s => s.journal.Ascending) { workers := freshWorker }
        overtakingRun ↔
      Heeds Fleet.step Orderly { workers := freshWorker } overtakingRun :=
  fences_ascending_iff "prod" freshWorker overtakingRun (fun _ => rfl) (fun _ => rfl) (by
    simp [overtakingRun, allocateLabels, Label.InDeployment, Request.InDeployment,
      Request.context])

end Strikedge.Reservations
