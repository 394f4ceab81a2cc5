import Strikedge.Reservations.Workers

/-!
# Exclusion across workers

A challenger reclaims a lease only when its expiry lies at least a grace band before
the challenger's reading of the authority's clock. As long as no reading runs ahead of
the clock by more than its worker's grace, a lease therefore stays in the table until
its stored expiry, unless its own owner gives it up or renews it to an earlier expiry.
-/

namespace Strikedge.Reservations

open Strikedge.Machine
open InMemoryReservationDatabase

/-- The local time an operation converts once the clock is fresh. -/
def Request.reading (localNow : Int) : Request → Int
  | .tryAcquireAll args => args.now
  | .renew args => args.now
  | .verify args => args.now
  | .reapExpired => localNow

/-- Converted time minus the authority's clock, at the steps that convert a time. The
second component is the worker that converts. -/
def Fleet.clockError (s : Fleet) : Label → Int × WorkerId
  | .proceed t (.refreshed localNow) =>
      match s.tasks t with
      | some (.awaiting w (.refreshing request _) none) =>
          ((s.workers w).toAuthority (request.reading localNow) - s.clock, w)
      | _ => (0, 0)
  | .resume t =>
      match s.tasks t with
      | some (.awaiting w (.verifying args _) (some _)) =>
          ((s.workers w).toAuthority args.now - s.clock, w)
      | _ => (0, 0)
  | _ => (0, 0)

/-- No converted time runs ahead of the authority by more than the worker's grace. A
time read before the operation started may lie behind by any amount. -/
def NotAhead (s : Fleet) (a : Label) : Prop :=
  (s.clockError a).1 ≤ (s.workers (s.clockError a).2).skewGraceMs

/-- Every converted time is within the worker's grace of the authority. -/
def WithinGrace (s : Fleet) (a : Label) : Prop :=
  -((s.workers (s.clockError a).2).skewGraceMs : Int) ≤ (s.clockError a).1 ∧ NotAhead s a

instance (s : Fleet) (a : Label) : Decidable (NotAhead s a) := Int.decLe _ _

instance (s : Fleet) (a : Label) : Decidable (WithinGrace s a) :=
  inferInstanceAs (Decidable (_ ∧ _))

/-- Calls by which an owner releases, replaces or clears its own row. -/
def PortCall.givesUp (owner : Owner) : PortCall → Bool
  | .deleteOwned o _ => o = owner
  | .deleteByOwnerPrefix ownerPrefix => ownerPrefix.toList.isPrefixOf owner.toList
  | _ => false

/-- Calls by which an owner moves the expiry of its own row before a given instant. -/
def PortCall.shortens (owner : Owner) (expiry : Int) : PortCall → Bool
  | .renewOwned args => args.owner = owner && args.expiresAt < expiry
  | _ => false

/-- In this step the owner does not give its lease up. -/
def Keeps (owner : Owner) (s : Fleet) (a : Label) : Prop :=
  (s.served a).all (!·.givesUp owner)

/-- Nor does it renew the lease to an expiry before the given one. -/
def KeepsUntil (owner : Owner) (expiry : Int) (s : Fleet) (a : Label) : Prop :=
  Keeps owner s a ∧ (s.served a).all (!·.shortens owner expiry)

instance (owner : Owner) (s : Fleet) (a : Label) : Decidable (Keeps owner s a) :=
  inferInstanceAs (Decidable (_ = true))

instance (owner : Owner) (expiry : Int) (s : Fleet) (a : Label) :
    Decidable (KeepsUntil owner expiry s a) := inferInstanceAs (Decidable (_ ∧ _))

/-- The acquisition that becomes certain when the authority serves a task: its insert
is admitted, or its listing finds its own live row under every wanted key. -/
def Fleet.acquires (s : Fleet) (t : TaskId) : Option Grant :=
  match s.tasks t with
  | some (.awaiting _ (.listing doc) none) =>
      if s.db.failure = none then
        (DurableInstrumentReservations.selfConflict doc.owner
          (s.db.findLiveByKeys doc.deployment doc.keys doc.createdAt)).map (·.toGrant doc.owner)
      else none
  | some (.awaiting _ frame none) =>
      (frame.candidate.filter (s.db.admits ·)).map fun doc => doc.toGrant doc.owner
  | _ => none

/-- The owner's row covers the keys, in the deployment, at least until the expiry. -/
def Covered (db : InMemoryReservationDatabase) (owner : Owner) (deployment : Deployment)
    (keys : List InstrumentKey) (expiry : Int) : Prop :=
  ∃ doc, db.docs.get? owner = some doc ∧ doc.deployment = deployment ∧
    (∀ key ∈ keys, key ∈ doc.keys) ∧ expiry ≤ doc.expiresAt

/-- The instants a frame will pass to a reclaim are not after the authority's clock. -/
def Frame.Behind (grace : Nat) (clock : Int) : Frame → Prop
  | .fencing doc | .inserting doc | .deletingOwn doc | .reinserting doc =>
      doc.createdAt - grace ≤ clock
  | .reclaiming _ notAfter | .reaping _ notAfter => notAfter ≤ clock
  | _ => True

def Next.Behind (grace : Nat) (clock : Int) : Next → Prop
  | .await frame => frame.Behind grace clock
  | .finish _ => True

theorem Frame.Behind.mono {grace : Nat} {clock later : Int} {frame : Frame}
    (h : frame.Behind grace clock) (hle : clock ≤ later) : frame.Behind grace later := by
  cases frame <;> first | trivial | exact Int.le_trans h hle

section Stretch

variable {w w' : DurableInstrumentReservations} {frame : Frame} {next : Next} {clock : Int}

theorem resumePort_behind {reply : PortReply} (hf : frame.Behind w.skewGraceMs clock)
    (h : w.resumePort frame reply = some (w', next)) :
    next.Behind w.skewGraceMs clock ∧ w'.skewGraceMs = w.skewGraceMs := by
  unfold DurableInstrumentReservations.resumePort at h
  split at h
  case h_7 doc live =>
      simp only [Option.some.injEq, DurableInstrumentReservations.afterListing] at h
      split at h
      · cases h
        exact ⟨trivial, rfl⟩
      · cases h
        refine ⟨trivial, ?_⟩
        unfold DurableInstrumentReservations.recycleFence
        split <;> rfl
  all_goals try split at h
  all_goals cases h
  all_goals first | exact ⟨trivial, rfl⟩ | exact ⟨hf, rfl⟩

/-- A stretch that converts a time not ahead by more than the grace stays behind. -/
theorem resume_behind {reply : Reply} (hf : frame.Behind w.skewGraceMs clock)
    (hclock : ∀ request ctx localNow, frame = .refreshing request ctx →
      reply = .refreshed localNow →
      w.toAuthority (request.reading localNow) - clock ≤ w.skewGraceMs)
    (h : w.resume frame reply = some (w', next)) :
    next.Behind w.skewGraceMs clock ∧ w'.skewGraceMs = w.skewGraceMs := by
  unfold DurableInstrumentReservations.resume at h
  split at h
  case h_1 request ok =>
      split at h <;> cases h <;> exact ⟨trivial, rfl⟩
  case h_2 request ctx localNow =>
      have hbound := hclock request ctx localNow rfl rfl
      rw [Option.some.injEq] at h
      cases request with
      | tryAcquireAll args =>
          change w.toAuthority args.now - clock ≤ w.skewGraceMs at hbound
          simp only [DurableInstrumentReservations.afterRefresh] at h
          split at h
          · cases h
            refine ⟨?_, rfl⟩
            change w.toAuthority args.now - w.skewGraceMs ≤ clock
            omega
          · cases h
            refine ⟨?_, rfl⟩
            change w.toAuthority args.now - w.skewGraceMs ≤ clock
            omega
      | renew args => cases h; exact ⟨trivial, rfl⟩
      | verify args => cases h; exact ⟨trivial, rfl⟩
      | reapExpired =>
          cases h
          refine ⟨?_, rfl⟩
          change w.toAuthority localNow - clock ≤ w.skewGraceMs at hbound
          change w.toAuthority localNow - w.skewGraceMs ≤ clock
          omega
  case h_3 request ctx message =>
      cases h
      exact ⟨trivial, rfl⟩
  case h_4 reply _ => exact resumePort_behind hf h
  case h_5 => cases h

theorem begin_behind (s : Fleet) (i : WorkerId) (operation : Operation) :
    (s.begin i operation).2.Behind (s.workers i).skewGraceMs clock ∧
      (s.begin i operation).1.skewGraceMs = (s.workers i).skewGraceMs := by
  cases operation with
  | request request =>
      refine ⟨?_, rfl⟩
      cases request with
      | tryAcquireAll args =>
          simp only [Fleet.begin, DurableInstrumentReservations.begin]
          split <;> trivial
      | renew args => trivial
      | verify args => trivial
      | reapExpired => trivial
  | release args =>
      simp only [Fleet.begin, DurableInstrumentReservations.release]
      split <;> exact ⟨trivial, rfl⟩
  | clear =>
      simp only [Fleet.begin, DurableInstrumentReservations.clear]
      split <;> exact ⟨trivial, rfl⟩

end Stretch

/-- The invariant of every run in which no converted time is ahead. -/
structure ReclaimBound (s : Fleet) : Prop where
  indexed : Indexed s.db
  behind : ∀ {t w frame reply}, s.tasks t = some (.awaiting w frame reply) →
    frame.Behind (s.workers w).skewGraceMs s.clock

namespace ReclaimBound

variable {s s' : Fleet} {t : TaskId} {i : WorkerId} {a : Label}

theorem initial (workers : WorkerId → DurableInstrumentReservations) :
    ReclaimBound { workers := workers } where
  indexed := indexed_empty
  behind := by simp

theorem setWorker (h : ReclaimBound s) {worker : DurableInstrumentReservations}
    (hgrace : worker.skewGraceMs = (s.workers i).skewGraceMs) :
    ReclaimBound (s.setWorker i worker) where
  indexed := h.indexed
  behind := by
    intro u w frame reply hu
    have := h.behind (t := u) hu
    by_cases hw : w = i
    · subst hw
      simpa [Fleet.setWorker, hgrace] using this
    · simpa [Fleet.setWorker, hw] using this

theorem settle (h : ReclaimBound s) {result : DurableInstrumentReservations × Next}
    (hnext : result.2.Behind (s.workers i).skewGraceMs s.clock)
    (hgrace : result.1.skewGraceMs = (s.workers i).skewGraceMs) :
    ReclaimBound (s.settle t i result) where
  indexed := h.indexed
  behind := by
    have hset := h.setWorker (i := i) hgrace
    intro u w frame reply hu
    by_cases hut : u = t
    · subst hut
      cases hr : result.2 with
      | await next =>
          simp only [Fleet.settle, Fleet.setTask, hr, Function.update_self, Option.some.injEq,
            Task.awaiting.injEq] at hu
          obtain ⟨rfl, rfl, -⟩ := hu
          simpa [Fleet.settle, Fleet.setTask, Fleet.setWorker, hgrace, hr, Next.Behind]
            using hnext
      | finish answer => simp [Fleet.settle, Fleet.setTask, hr] at hu
    · exact hset.behind (t := u) (by simpa [Fleet.settle, Fleet.setTask, hut] using hu)

theorem step (h : ReclaimBound s) (hclock : NotAhead s a) (hstep : s.step a = some s') :
    ReclaimBound s' := by
  cases a with
  | tick ms =>
      cases hstep
      exact ⟨h.indexed, fun hu => (h.behind hu).mono (by dsimp only; omega)⟩
  | outage failure =>
      cases hstep
      exact ⟨⟨h.indexed.owner_eq, h.indexed.index_iff⟩, h.behind⟩
  | connected w =>
      simp only [Fleet.step] at hstep
      split at hstep
      · cases hstep
        exact h.setWorker rfl
      · cases hstep
  | connectionFailed w message => cases hstep; exact h.setWorker rfl
  | syncClock w before serverMs after => cases hstep; exact h.setWorker rfl
  | switchContext w ctx => cases hstep; exact h.setWorker rfl
  | start t w operation =>
      simp only [Fleet.step] at hstep
      split at hstep
      · cases hstep
        obtain ⟨hnext, hgrace⟩ := @begin_behind s.clock s w operation
        exact h.settle hnext hgrace
      · cases hstep
  | serve t =>
      simp only [Fleet.step] at hstep
      split at hstep
      · rename_i w frame ht
        obtain ⟨call, hcall, rfl⟩ := Option.map_eq_some_iff.mp hstep
        refine ⟨indexed_serve h.indexed call, ?_⟩
        intro u w' frame' reply hu
        by_cases hut : u = t
        · subst hut
          simp only [Fleet.setTask, Function.update_self, Option.some.injEq,
            Task.awaiting.injEq] at hu
          obtain ⟨rfl, rfl, -⟩ := hu
          exact h.behind ht
        · exact h.behind (t := u) (by simpa [Fleet.setTask, hut] using hu)
      · cases hstep
  | resume t =>
      simp only [Fleet.step] at hstep
      split at hstep
      · rename_i w frame reply ht
        obtain ⟨result, hresume, rfl⟩ := Option.map_eq_some_iff.mp hstep
        obtain ⟨hnext, hgrace⟩ := resume_behind (h.behind ht) (by
          rintro request ctx localNow - hr
          cases hr) hresume
        have := h.settle (t := t) hnext hgrace
        exact ⟨this.indexed, this.behind⟩
      · cases hstep
  | proceed t reply =>
      simp only [Fleet.step] at hstep
      split at hstep
      · rename_i w frame ht
        split at hstep
        · obtain ⟨result, hresume, rfl⟩ := Option.map_eq_some_iff.mp hstep
          obtain ⟨hnext, hgrace⟩ := resume_behind (h.behind ht) (by
            rintro request ctx localNow rfl rfl
            simpa [NotAhead, Fleet.clockError, ht] using hclock) hresume
          exact h.settle hnext hgrace
        · cases hstep
      · cases hstep

/-- Whatever reclaim the authority serves now looks no later than its clock. -/
theorem notAfter_le (h : ReclaimBound s) {d : Deployment} {ks : Option (List InstrumentKey)}
    {notAfter : Int} (hserved : s.served a = some (.deleteExpired d ks notAfter)) :
    notAfter ≤ s.clock := by
  unfold Fleet.served at hserved
  split at hserved
  · split at hserved
    · rename_i w frame ht
      have hbehind := h.behind ht
      cases frame <;> simp only [Frame.call, Option.some.injEq, reduceCtorEq,
        PortCall.deleteExpired.injEq] at hserved
      · exact hserved.2.2 ▸ hbehind
      · exact hserved.2.2 ▸ hbehind
    · cases hserved
  · cases hserved

end ReclaimBound

/-- What serving one call does to a covered lease whose expiry is still to come. -/
theorem covered_serve {db : InMemoryReservationDatabase} {owner : Owner}
    {deployment : Deployment} {keys : List InstrumentKey} {expiry : Int} {call : PortCall}
    (hdb : Indexed db) (h : Covered db owner deployment keys expiry)
    (hkeeps : call.givesUp owner = false) (hrenew : call.shortens owner expiry = false)
    (hreclaim : ∀ d ks notAfter, call = .deleteExpired d ks notAfter → notAfter < expiry) :
    Covered (db.serve call).1 owner deployment keys expiry := by
  obtain ⟨doc, hdoc, hdep, hkeys, hexp⟩ := h
  have touch := serve_touches hdb call owner
  rw [hdoc] at touch
  generalize hbefore : some doc = before at touch
  generalize hafter : (db.serve call).1.docs.get? owner = after at touch
  generalize (db.serve call).2 = reply at touch
  cases touch with
  | kept => exact ⟨doc, hafter.trans hbefore.symm, hdep, hkeys, hexp⟩
  | inserted _ => cases hbefore
  | @renewed args d ho =>
      cases hbefore
      refine ⟨_, hafter, hdep, hkeys, ?_⟩
      change expiry ≤ args.expiresAt
      simpa [PortCall.shortens, ho] using hrenew
  | released => simp [PortCall.givesUp] at hkeeps
  | @expired d ks notAfter doc' deleted _ hle =>
      cases hbefore
      have := hreclaim d ks notAfter rfl
      omega
  | cleared hp => simp [PortCall.givesUp, hp] at hkeeps

section Lease

variable {s s' : Fleet} {a : Label} {owner : Owner} {deployment : Deployment}
variable {keys : List InstrumentKey} {expiry : Int}

/-- A step before the expiry in which the owner keeps its lease leaves it covered. -/
theorem covered_step (hinv : ReclaimBound s) (h : Covered s.db owner deployment keys expiry)
    (hkeeps : KeepsUntil owner expiry s a) (hclock : s.clock < expiry)
    (hstep : s.step a = some s') : Covered s'.db owner deployment keys expiry := by
  obtain ⟨call, hserved, hdb⟩ | ⟨hdocs, -⟩ := (Fleet.step_authority hstep).2
  · obtain ⟨hg, hs⟩ := hkeeps
    simp only [Keeps, hserved, Option.all_some, Bool.not_eq_true'] at hg hs
    rw [hdb]
    refine covered_serve hinv.indexed h hg hs fun d ks notAfter hcall => ?_
    exact Int.lt_of_le_of_lt (hinv.notAfter_le (hcall ▸ hserved)) hclock
  · obtain ⟨doc, hdoc, hrest⟩ := h
    exact ⟨doc, hdocs ▸ hdoc, hrest⟩

/-- The run lemma: a covered lease is still covered wherever a run stops before the
expiry, when no label of the run gives it up or shortens it. -/
theorem covered_run {labels : List Label} (hinv : ReclaimBound s)
    (h : Covered s.db owner deployment keys expiry)
    (hahead : Heeds Fleet.step NotAhead s labels)
    (hkeeps : Heeds Fleet.step (KeepsUntil owner expiry) s labels)
    (hrun : run Fleet.step s labels = some s') (hclock : s'.clock < expiry) :
    ReclaimBound s' ∧ Covered s'.db owner deployment keys expiry := by
  induction labels generalizing s with
  | nil =>
      obtain rfl := Option.some.inj hrun
      exact ⟨hinv, h⟩
  | cons a labels ih =>
      obtain ⟨u, hu, hrest⟩ := run_cons_eq_some.mp hrun
      obtain ⟨ha, hahead⟩ := hahead u hu
      obtain ⟨hk, hkeeps⟩ := hkeeps u hu
      have hbefore : s.clock < expiry := by
        have h₁ := (Fleet.step_authority hu).1
        have h₂ := Fleet.clock_run hrest
        omega
      exact ih (hinv.step ha hu) (covered_step hinv h hk hbefore hu) hahead hkeeps hrest

/-- Nobody else acquires a key that a covered lease covers. -/
theorem not_acquires_covered (hdb : Indexed s.db)
    (h : Covered s.db owner deployment keys expiry) {t : TaskId} {g : Grant}
    (hg : s.acquires t = some g) (hdep : g.deployment = deployment)
    {key : InstrumentKey} (hkey : key ∈ keys) (hgkey : key ∈ g.keys) : g.owner = owner := by
  obtain ⟨doc, hdoc, hd, hcov, -⟩ := h
  have hentry : s.db.uniqueIndex.get? (indexKey deployment key) = some owner :=
    hdb.index_iff.mpr ⟨doc, hdoc, List.mem_map.mpr ⟨key, hcov key hkey, by rw [hd]⟩⟩
  unfold Fleet.acquires at hg
  split at hg
  · rename_i w cand ht
    split at hg
    · obtain ⟨mine, hmine, rfl⟩ := Option.map_eq_some_iff.mp hg
      have hmem : mine ∈ s.db.findLiveByKeys cand.deployment cand.keys cand.createdAt ∧
          mine.owner = cand.owner := by
        unfold DurableInstrumentReservations.selfConflict at hmine
        split at hmine
        · rename_i hall
          have hm := List.mem_of_mem_head? hmine
          exact ⟨hm, by simpa using List.all_eq_true.mp hall mine hm⟩
        · cases hmine
      have hstored := get?_of_mem_values hdb (List.mem_of_mem_filter hmem.1)
      change cand.owner = owner
      rw [← hmem.2]
      exact hdb.owner_unique hstored hdoc (hdep.trans hd.symm) hgkey (hcov key hkey)
    · cases hg
  · obtain ⟨cand, hcand, rfl⟩ := Option.map_eq_some_iff.mp hg
    obtain ⟨-, hadm⟩ := Option.filter_eq_some_iff.mp hcand
    -- An admitted document finds its entries free, and this one is taken.
    exfalso
    simp only [admits, Bool.and_eq_true, Bool.not_eq_true', List.any_eq_false] at hadm
    have hfree := hadm.2 (indexKey deployment key) (List.mem_map.mpr ⟨key, hgkey, by
      rw [show cand.deployment = deployment from hdep]⟩)
    simp [OrderedMap.has, hentry] at hfree
  · cases hg

end Lease

section Verify

variable {s u : Fleet} {v : TaskId} {w : WorkerId} {args : VerifyArgs} {ctx : ReservationContext}

/-- Once its read was served, a verification either waits or has answered from that read. -/
theorem verify_answer {labels : List Label} {reply : PortReply}
    (hv : s.tasks v = some (.awaiting w (.verifying args ctx) (some reply)))
    (hrun : run Fleet.step s labels = some u) :
    u.tasks v = some (.awaiting w (.verifying args ctx) (some reply)) ∨
      ∃ worker result answer, u.tasks v = some (.done w answer) ∧
        DurableInstrumentReservations.resume worker (.verifying args ctx) (.port reply) =
          some (result, .finish answer) := by
  refine run_invariant (I := fun x : Fleet =>
    x.tasks v = some (.awaiting w (.verifying args ctx) (some reply)) ∨
      ∃ worker result answer, x.tasks v = some (.done w answer) ∧
        DurableInstrumentReservations.resume worker (.verifying args ctx) (.port reply) =
          some (result, .finish answer)) ?_ (.inl hv) hrun
  intro x a y hx hstep
  rcases hx with hx | ⟨worker, result, answer, hx, hres⟩
  · rcases Fleet.step_task hx hstep with h | rfl | rfl | ⟨r, rfl⟩
    · exact .inl h
    · simp [Fleet.step, hx] at hstep
    · simp only [Fleet.step, hx] at hstep
      obtain ⟨⟨result, next⟩, hres, rfl⟩ := Option.map_eq_some_iff.mp hstep
      cases next with
      | await frame =>
          -- A verification has no second await.
          exfalso
          cases reply <;> simp [DurableInstrumentReservations.resume,
            DurableInstrumentReservations.resumePort] at hres
      | finish answer =>
          exact .inr ⟨_, result, answer, by simp [Fleet.settle, Fleet.setTask], hres⟩
    · simp [Fleet.step, hx] at hstep
  · rcases Fleet.step_task hx hstep with h | rfl | rfl | ⟨r, rfl⟩
    · exact .inr ⟨worker, result, answer, h, hres⟩
    · simp [Fleet.step, hx] at hstep
    · simp [Fleet.step, hx] at hstep
    · simp [Fleet.step, hx] at hstep

/-- Ownership is affirmed of a stored row that covers every key. -/
theorem verdictOn_owned {worker : DurableInstrumentReservations}
    {found : Option DurableReservationDoc} {expiresAt : Int} {fence : Nat}
    (h : worker.verdictOn args ctx found = .owned expiresAt fence) :
    ∃ doc, found = some doc ∧ doc.fence = fence ∧ worker.toLocal doc.expiresAt = expiresAt ∧
      doc.deployment = ctx.deployment ∧ ∀ key ∈ args.keys, key ∈ doc.keys := by
  unfold DurableInstrumentReservations.verdictOn at h
  split at h
  · cases h
  · rename_i doc
    split at h
    · cases h
    split at h
    · cases h
    split at h
    · cases h
    rename_i hdep
    split at h
    · cases h
    split at h
    · cases h
    · rename_i hnone
      cases h
      refine ⟨doc, rfl, rfl, rfl, by simpa using hdep, fun key hkey => ?_⟩
      simpa using List.find?_eq_none.mp hnone key (mem_dedupeKeys.mpr hkey)

/-- An affirmed verification read a covered lease. -/
theorem verify_covered {after : List Label} {doc : DurableReservationDoc} {expiresAt : Int}
    {fence : Nat} (hv : s.tasks v = some (.awaiting w (.verifying args ctx) none))
    (hdoc : s.db.docs.get? args.owner = some doc)
    (hrun : run Fleet.step s (.serve v :: after) = some u)
    (howned : u.tasks v = some (.done w (.verdict (.owned expiresAt fence)))) :
    Covered s.db args.owner doc.deployment args.keys doc.expiresAt := by
  obtain ⟨s₁, h₁, hrest⟩ := run_cons_eq_some.mp hrun
  simp only [Fleet.step, hv, Frame.call, Option.map_some, Option.some.injEq] at h₁
  have hv₁ : s₁.tasks v = some (.awaiting w (.verifying args ctx)
      (some (s.db.serve (.findByOwner args.owner)).2)) := by
    rw [← h₁]
    simp [Fleet.setTask]
  rcases verify_answer hv₁ hrest with hu | ⟨worker, result, answer, hu, hres⟩
  · rw [hu] at howned
    cases howned
  · rw [hu] at howned
    cases howned
    obtain ⟨message, hserve⟩ | hserve := s.db.serve_cases (.findByOwner args.owner)
    · rw [hserve] at hres
      simp [DurableInstrumentReservations.resume,
        DurableInstrumentReservations.resumePort] at hres
    · rw [hserve] at hres
      simp only [perform, findByOwner, hdoc, DurableInstrumentReservations.resume,
        DurableInstrumentReservations.resumePort, Option.some.injEq, Prod.mk.injEq,
        Next.finish.injEq, Answer.verdict.injEq] at hres
      obtain ⟨doc', hd, -, -, -, hkeys⟩ := verdictOn_owned hres.2
      cases hd
      exact ⟨doc, hdoc, rfl, hkeys, Int.le_refl _⟩

end Verify

/-- In every run the index is exact and a key of a deployment belongs to one row at most.
When no converted time is ahead of the authority by more than its worker's grace, and a
verification affirms ownership from a row it reads, then nobody else acquires one of the
verified keys before the expiry in that row, unless some step in between releases,
replaces or clears the row for its owner or renews it to an earlier expiry. -/
theorem verified_lease_excludes (workers : WorkerId → DurableInstrumentReservations)
    (labels : List Label) (u : Fleet)
    (hrun : run Fleet.step { workers := workers } labels = some u) :
    (Indexed u.db ∧ ∀ o₁ o₂ doc₁ doc₂ key, u.db.docs.get? o₁ = some doc₁ →
        u.db.docs.get? o₂ = some doc₂ → doc₁.deployment = doc₂.deployment →
        key ∈ doc₁.keys → key ∈ doc₂.keys → o₁ = o₂) ∧
      (Heeds Fleet.step NotAhead { workers := workers } labels →
        ∀ before v after s w args ctx doc expiresAt fence t g key,
          labels = before ++ .serve v :: after →
          run Fleet.step { workers := workers } before = some s →
          s.tasks v = some (.awaiting w (.verifying args ctx) none) →
          s.db.docs.get? args.owner = some doc →
          u.tasks v = some (.done w (.verdict (.owned expiresAt fence))) →
          u.acquires t = some g → g.owner ≠ args.owner → g.deployment = doc.deployment →
          key ∈ args.keys → key ∈ g.keys → u.clock < doc.expiresAt →
          ¬ Heeds Fleet.step (KeepsUntil args.owner doc.expiresAt) s (.serve v :: after)) := by
  have hdb : Indexed u.db := run_invariant (I := fun x => Indexed x.db)
    (fun _ _ _ h hstep => Fleet.indexed_step h hstep) indexed_empty hrun
  refine ⟨⟨hdb, fun o₁ o₂ doc₁ doc₂ key h₁ h₂ hd hk₁ hk₂ =>
    hdb.owner_unique h₁ h₂ hd hk₁ hk₂⟩, ?_⟩
  rintro hahead before v after s w args ctx doc expiresAt fence t g key rfl hbefore hv hdoc howned
    hg hother hdep hkey hgkey hclock hkeeps
  obtain ⟨s', hs', hafter⟩ := run_append_eq_some.mp hrun
  obtain rfl : s = s' := Option.some.inj (hbefore.symm.trans hs')
  obtain ⟨hahead₁, hahead₂⟩ := hahead.split hbefore
  have hinv : ReclaimBound s := (Throughout.of_heeds
    (fun _ _ _ h hc hstep => ReclaimBound.step h hc hstep) (ReclaimBound.initial workers)
    hahead₁).last hbefore
  have hcov := verify_covered hv hdoc hafter howned
  obtain ⟨-, hcov'⟩ := covered_run hinv hcov hahead₂ hkeeps hafter hclock
  exact hother (not_acquires_covered hdb hcov' hg hdep hkey hgkey)

/-- Connected workers of one deployment with a grace of 10 ms. -/
def gracedWorker (w : WorkerId) : DurableInstrumentReservations where
  name := "durable"
  ownerPrefix := if w = 0 then "prod:a:" else "prod:b:"
  skewGraceMs := 10
  context := ⟨"prod", "zerodha", 1, "live"⟩
  initialised := true

/-- An operation up to its first port call. -/
def beginLabels (t : TaskId) (w : WorkerId) (request : Request) : List Label :=
  [.start t w (.request request), .proceed t (.usable true), .proceed t (.refreshed 0)]

/-- Worker 0 takes the lease with its clock 10 ms fast, so it expires at 110, and asks
for a verification. -/
def beforeVerify : List Label :=
  beginLabels 0 0 (.tryAcquireAll { owner := "prod:a:1", keys := ["NIFTY"], ttlMs := 100, now := 10 })
    ++ [.serve 0, .resume 0, .serve 0, .resume 0]
    ++ beginLabels 1 0 (.verify { owner := "prod:a:1", keys := ["NIFTY"], now := 0 })

/-- It renews with its clock 10 ms slow, to 90. At 90 worker 1 reclaims the lease. -/
def afterVerify : List Label :=
  [.resume 1]
    ++ beginLabels 2 0 (.renew { owner := "prod:a:1", keys := ["NIFTY"], ttlMs := 100, now := -10 })
    ++ [.serve 2, .resume 2, .tick 90]
    ++ beginLabels 3 1
      (.tryAcquireAll { owner := "prod:b:1", keys := ["NIFTY"], ttlMs := 100, now := 100 })
    ++ [.serve 3, .resume 3, .serve 3, .resume 3, .serve 3, .resume 3]

/-- The row worker 0 verifies. -/
def verifiedRow : DurableReservationDoc where
  owner := "prod:a:1"
  deployment := "prod"
  broker := "zerodha"
  generation := 1
  mode := "live"
  keys := ["NIFTY"]
  sides := [("NIFTY", "")]
  fence := 1
  ownerInstance := "prod:a:"
  createdAt := 10
  expiresAt := 110
  renewedAt := 10

theorem beforeVerify_reaches : ∃ s, run Fleet.step { workers := gracedWorker } beforeVerify = some s ∧
    s.tasks 1 = some (.awaiting 0 (.verifying
      { owner := "prod:a:1", keys := ["NIFTY"], now := 0 } (gracedWorker 0).context) none) ∧
    s.db.docs.get? "prod:a:1" = some verifiedRow ∧
    Heeds Fleet.step (Keeps "prod:a:1") s (.serve 1 :: afterVerify) := by
  have h : (run Fleet.step { workers := gracedWorker } beforeVerify).map
      (fun s => (s.tasks 1, s.db.docs.get? "prod:a:1",
        decide (Heeds Fleet.step (Keeps "prod:a:1") s (.serve 1 :: afterVerify)))) =
      some (some (.awaiting 0 (.verifying { owner := "prod:a:1", keys := ["NIFTY"], now := 0 }
        (gracedWorker 0).context) none), some verifiedRow, true) := by decide
  obtain ⟨s, hs, he⟩ := Option.map_eq_some_iff.mp h
  simp only [Prod.mk.injEq] at he
  exact ⟨s, hs, he.1, he.2.1, of_decide_eq_true he.2.2⟩

theorem afterVerify_reaches : ∃ u, run Fleet.step { workers := gracedWorker }
      (beforeVerify ++ .serve 1 :: afterVerify) = some u ∧
    u.tasks 1 = some (.done 0 (.verdict (.owned 110 1))) ∧
    u.acquires 3 = some ⟨"prod", "prod:b:1", ["NIFTY"], 2⟩ ∧ u.clock = 90 := by
  have h : (run Fleet.step { workers := gracedWorker }
      (beforeVerify ++ .serve 1 :: afterVerify)).map
      (fun u => (u.tasks 1, u.acquires 3, u.clock)) =
      some (some (.done 0 (.verdict (.owned 110 1))),
        some ⟨"prod", "prod:b:1", ["NIFTY"], 2⟩, 90) := by decide
  obtain ⟨u, hu, he⟩ := Option.map_eq_some_iff.mp h
  simp only [Prod.mk.injEq] at he
  exact ⟨u, hu, he⟩

/-- The owner's own renewal has to be excepted: with every clock within the grace and no
row released, replaced or cleared, another owner acquires before the verified expiry. -/
theorem renewal_breaks_exclusion :
    ¬ ∀ (workers : WorkerId → DurableInstrumentReservations) (labels : List Label) (u : Fleet),
      run Fleet.step { workers := workers } labels = some u →
      Heeds Fleet.step WithinGrace { workers := workers } labels →
      ∀ before v after s w args ctx doc expiresAt fence t g key,
        labels = before ++ .serve v :: after →
        run Fleet.step { workers := workers } before = some s →
        s.tasks v = some (.awaiting w (.verifying args ctx) none) →
        s.db.docs.get? args.owner = some doc →
        u.tasks v = some (.done w (.verdict (.owned expiresAt fence))) →
        u.acquires t = some g → g.owner ≠ args.owner → g.deployment = doc.deployment →
        key ∈ args.keys → key ∈ g.keys → u.clock < doc.expiresAt →
        ¬ Heeds Fleet.step (Keeps args.owner) s (.serve v :: after) := by
  intro h
  obtain ⟨s, hs, hv, hdoc, hkeeps⟩ := beforeVerify_reaches
  obtain ⟨u, hu, howned, hacq, hclock⟩ := afterVerify_reaches
  refine h gracedWorker _ u hu (by decide) beforeVerify 1 afterVerify s _ _ _ _ _ _ 3 _ "NIFTY"
    rfl hs hv hdoc howned hacq (by decide) rfl (by decide) (by decide) ?_ hkeeps
  rw [hclock]
  decide

theorem verified_lease_excludes_shortened :
    ∃ s, run Fleet.step { workers := gracedWorker } beforeVerify = some s ∧
      ¬ Heeds Fleet.step (KeepsUntil "prod:a:1" 110) s (.serve 1 :: afterVerify) := by
  obtain ⟨s, hs, hv, hdoc, -⟩ := beforeVerify_reaches
  obtain ⟨u, hu, howned, hacq, hclock⟩ := afterVerify_reaches
  refine ⟨s, hs, (verified_lease_excludes gracedWorker _ u hu).2 (by decide) beforeVerify 1
    afterVerify s _ _ _ _ _ _ 3 _ "NIFTY" rfl hs hv hdoc howned hacq (by decide) rfl (by decide)
    (by decide) ?_⟩
  rw [hclock]
  decide

end Strikedge.Reservations
