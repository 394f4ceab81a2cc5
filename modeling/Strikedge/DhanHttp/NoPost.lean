import Strikedge.DhanHttp.Transport

/-!
# Proven no-POST

A request that was settled with the claim that nothing was transmitted has not been fetched and
never will be. The alarm may release a caller whose closure is still queued or pacing. It then
marks the request as abandoned, and the closure looks at the mark before it asks `beforeSend`.
-/

namespace Strikedge.DhanHttp

open Machine

/-- A later state of a request. -/
structure Request.Later (r r' : Request) : Prop where
  deadline : r'.deadline = r.deadline
  settled : r.settled.isSome = true → r'.settled = r.settled

namespace Request

variable {r r' r'' : Request} {result : Settlement} {now : ℚ}

theorem Later.refl (r : Request) : Later r r := ⟨rfl, fun _ => rfl⟩

theorem Later.trans (h : Later r r') (h' : Later r' r'') : Later r r'' := by
  refine ⟨h'.deadline.trans h.deadline, fun hsome => ?_⟩
  have hfirst := h.settled hsome
  rw [h'.settled (hfirst ▸ hsome), hfirst]

theorem settle_of_none (h : r.settled = none) :
    r.settle result now = { r with settled := some ⟨result, now⟩, nap := none } := by
  rw [settle, h]

theorem settle_of_some (h : r.settled.isSome = true) : r.settle result now = r := by
  obtain ⟨s, hs⟩ := Option.isSome_iff_exists.mp h
  rw [settle, hs]

theorem later_settle : Later r (r.settle result now) := by
  cases h : r.settled with
  | none =>
      rw [settle_of_none h]
      exact ⟨rfl, fun hsome => by rw [h] at hsome; cases hsome⟩
  | some s =>
      rw [settle_of_some (by rw [h]; rfl)]
      exact Later.refl r

@[simp] theorem sentAt_settle : (r.settle result now).sentAt = r.sentAt := by
  rw [settle]
  split <;> rfl

@[simp] theorem guardedAt_settle : (r.settle result now).guardedAt = r.guardedAt := by
  rw [settle]
  split <;> rfl

@[simp] theorem hooked_settle : (r.settle result now).hooked = r.hooked := by
  rw [settle]
  split <;> rfl

@[simp] theorem abandoned_settle : (r.settle result now).abandoned = r.abandoned := by
  rw [settle]
  split <;> rfl

@[simp] theorem deadline_settle : (r.settle result now).deadline = r.deadline :=
  later_settle.deadline

@[simp] theorem armedAt_settle : (r.settle result now).armedAt = r.armedAt := by
  rw [settle]
  split <;> rfl

@[simp] theorem calledAt_settle : (r.settle result now).calledAt = r.calledAt := by
  rw [settle]
  split <;> rfl

end Request

namespace Transport

variable {cfg : HttpConfig} {t t' t'' u : Transport} {id other : Nat} {r : Request}
variable {f : Request → Request} {result : Settlement} {hook : HookRun}
variable {failure : NetworkFailure} {label : TransportLabel}

/-- No call is forgotten, and what has settled stays as it is. -/
def Extends (t t' : Transport) : Prop :=
  ∀ (id : Nat) (r : Request), t.requests[id]? = some r →
    ∃ r', t'.requests[id]? = some r' ∧ r.Later r'

theorem Extends.refl (t : Transport) : Extends t t := fun _ r hr => ⟨r, hr, .refl r⟩

theorem Extends.trans (h : Extends t t') (h' : Extends t' t'') : Extends t t'' := by
  intro id r hr
  obtain ⟨r', hr', hlater⟩ := h id r hr
  obtain ⟨r'', hr'', hlater'⟩ := h' id r' hr'
  exact ⟨r'', hr'', hlater.trans hlater'⟩

theorem extends_of_requests_eq (h : t'.requests = t.requests) : Extends t t' :=
  fun _ r hr => ⟨r, h ▸ hr, .refl r⟩

theorem extends_modify (hf : ∀ r : Request, r.Later (f r)) : Extends t (t.modify id f) :=
  fun _ _ hr => getElem?_modify_rel Request.Later.refl hf hr

theorem extends_concat (h : t'.requests = t.requests ++ [r]) : Extends t t' := by
  intro id old hold
  obtain ⟨hlt, -⟩ := List.getElem?_eq_some_iff.mp hold
  exact ⟨old, by rw [h, List.getElem?_append_left hlt]; exact hold, .refl old⟩

theorem extends_conclude : Extends t (t.conclude id result) :=
  @extends_modify t id _ fun _ => Request.later_settle

theorem extends_refuse : Extends t (t.refuse id failure) :=
  (@extends_modify t id Request.abandon fun _ => ⟨rfl, fun _ => rfl⟩).trans extends_conclude

theorem extends_transmit : Extends t (t.transmit id) :=
  @extends_modify t id (fun r => { r with sentAt := some t.now }) fun _ => ⟨rfl, fun _ => rfl⟩

theorem extends_pass {elapsed : ℚ≥0} : Extends t (t.pass elapsed) := extends_of_requests_eq rfl

theorem extends_enter : Extends t (t.enter id) := extends_modify fun _ => ⟨rfl, fun _ => rfl⟩

theorem extends_send : Extends t (t.send id r hook) := by
  rw [send]
  split
  · split
    · exact (extends_enter.trans extends_pass).trans extends_conclude
    · exact (extends_enter.trans extends_pass).trans extends_transmit
  · exact extends_enter.trans extends_transmit

theorem extends_begin : Extends t (t.begin cfg id r hook) := by
  rw [begin]
  split
  · exact extends_refuse
  · split
    · exact extends_of_requests_eq rfl
    · exact extends_send

theorem extends_resume : Extends t (t.resume id r hook) := by
  rw [resume]
  split
  · exact extends_refuse
  · exact extends_send

theorem extends_call {headers : Except HttpError Unit} {deadline : Option Deadline}
    {hooked : Bool} : Extends t (t.call cfg headers deadline hooked) := by
  rw [call.eq_def]
  dsimp only
  split
  · exact extends_concat rfl
  · split <;> exact extends_concat rfl

theorem extends_ring : Extends t (t.ring id r) := by
  rw [ring]
  split
  · exact extends_modify fun _ => ⟨rfl, fun _ => rfl⟩
  · split
    · refine extends_modify fun r => ?_
      have habandon : r.Later r.abandon := ⟨rfl, fun _ => rfl⟩
      exact habandon.trans Request.later_settle
    · exact extends_modify fun _ => ⟨rfl, fun _ => rfl⟩

/-- What a step can do, by the block of the source that runs. -/
theorem step_cases (h : t.step cfg label = some u) :
    (∃ elapsed, label = .pass elapsed ∧ u = t.pass elapsed) ∨
    (∃ headers deadline hooked, label = .request headers deadline hooked ∧
      u = t.call cfg headers deadline hooked) ∨
    (∃ hook id rest r, label = .turn hook ∧ t.running = none ∧ t.waiting = id :: rest ∧
      t.requests[id]? = some r ∧ u = (t.shift rest).begin cfg id r hook) ∨
    (∃ hook id due r, label = .paced hook ∧ t.running = some (id, .pacing due) ∧
      t.requests[id]? = some r ∧ u = t.resume id r hook) ∨
    (∃ exchange id, label = .answered exchange ∧ t.running = some (id, .onWire) ∧
      u = t.conclude id exchange.settlement) ∨
    ∃ id r due, label = .alarm id ∧ t.requests[id]? = some r ∧ r.nap = some due ∧
      u = t.ring id r := by
  cases label with
  | pass elapsed => exact .inl ⟨elapsed, rfl, (Option.some.inj h).symm⟩
  | request headers deadline hooked =>
      exact .inr (.inl ⟨headers, deadline, hooked, rfl, (Option.some.inj h).symm⟩)
  | turn hook =>
      rw [step.eq_def] at h
      dsimp only at h
      split at h
      · rename_i id rest hidle hwaiting
        obtain ⟨r, hr, hu⟩ := Option.map_eq_some_iff.mp h
        exact .inr (.inr (.inl ⟨hook, id, rest, r, rfl, hidle, hwaiting, hr, hu.symm⟩))
      · cases h
  | paced hook =>
      rw [step.eq_def] at h
      dsimp only at h
      split at h
      · rename_i id due hrunning
        obtain ⟨r, hr, hu⟩ := Option.map_eq_some_iff.mp h
        exact .inr (.inr (.inr (.inl ⟨hook, id, due, r, rfl, hrunning, hr, hu.symm⟩)))
      · cases h
  | answered exchange =>
      rw [step.eq_def] at h
      dsimp only at h
      split at h
      · rename_i id hrunning
        exact .inr (.inr (.inr (.inr (.inl
          ⟨exchange, id, rfl, hrunning, (Option.some.inj h).symm⟩))))
      · cases h
  | alarm id =>
      obtain ⟨r, hr, hu⟩ := Option.map_eq_some_iff.mp h
      obtain ⟨hget, hnap⟩ := Option.filter_eq_some_iff.mp hr
      obtain ⟨due, hdue⟩ := Option.isSome_iff_exists.mp hnap
      exact .inr (.inr (.inr (.inr (.inr ⟨id, r, due, rfl, hget, hdue, hu.symm⟩))))

theorem extends_step (h : t.step cfg label = some u) : Extends t u := by
  rcases step_cases h with ⟨elapsed, rfl, rfl⟩ | ⟨headers, deadline, hooked, rfl, rfl⟩ |
    ⟨hook, id, rest, r, rfl, -, -, -, rfl⟩ | ⟨hook, id, due, r, rfl, -, -, rfl⟩ |
    ⟨exchange, id, rfl, -, rfl⟩ | ⟨id, r, due, rfl, -, -, rfl⟩
  · exact extends_pass
  · exact extends_call
  · have hshift : Extends t (t.shift rest) := extends_of_requests_eq rfl
    exact hshift.trans extends_begin
  · exact extends_resume
  · exact extends_conclude
  · exact extends_ring

theorem extends_run {labels : List TransportLabel} (h : run (step cfg) t labels = some u) :
    Extends t u :=
  run_invariant (I := Extends t) (fun _ _ _ hs hstep => hs.trans (extends_step hstep))
    (Extends.refl t) h

end Transport

/-- What holds of a request, and more of it while its closure may still send it. -/
structure Request.Sound (pending : Prop) (r : Request) : Prop where
  unsent : pending → r.sentAt = none
  /-- a closure whose caller is gone will refuse -/
  abandoned : pending → r.settled ≠ none → r.abandoned = true
  noPost : ∀ s ∈ r.settled, s.result.untransmitted = true → r.sentAt = none
  /-- the deadline was looked at in the block that sent it -/
  guarded : ∀ sent ∈ r.sentAt, ∃ guarded ∈ r.guardedAt,
    guarded < r.deadline.expiresAt ∧ (r.hooked = false → sent = guarded)

namespace Request.Sound

variable {pending pending' : Prop} {r : Request} {result : Settlement} {now : ℚ}

theorem mono (h : r.Sound pending) (imp : pending' → pending) : r.Sound pending' :=
  ⟨fun hp => h.unsent (imp hp), fun hp => h.abandoned (imp hp), h.noPost, h.guarded⟩

theorem settle (h : r.Sound pending) (hpending : pending' → pending ∧ r.abandoned = true)
    (hresult : result.untransmitted = true → r.sentAt = none) :
    (r.settle result now).Sound pending' := by
  refine ⟨fun hp => ?_, fun hp _ => ?_, ?_, ?_⟩
  · rw [sentAt_settle]
    exact h.unsent (hpending hp).1
  · rw [abandoned_settle]
    exact (hpending hp).2
  · intro s hs huntransmitted
    rw [sentAt_settle]
    cases hsettled : r.settled with
    | none =>
        rw [settle_of_none hsettled] at hs
        obtain rfl := Option.some.inj hs
        exact hresult huntransmitted
    | some first =>
        rw [settle_of_some (by rw [hsettled]; rfl)] at hs
        exact h.noPost s hs huntransmitted
  · simp only [sentAt_settle, guardedAt_settle, deadline_settle, hooked_settle]
    exact h.guarded

/-- A change of the alarm or of the guard's mark alone. -/
theorem of_fields {r' : Request} (h : r.Sound pending) (hsent : r'.sentAt = r.sentAt)
    (hsettled : r'.settled = r.settled) (habandoned : r.abandoned = true → r'.abandoned = true)
    (hdeadline : r'.deadline = r.deadline) (hhooked : r'.hooked = r.hooked)
    (hguarded : r.sentAt = none ∨ r'.guardedAt = r.guardedAt) : r'.Sound pending := by
  refine ⟨fun hp => hsent.trans (h.unsent hp), fun hp hne => ?_, ?_, ?_⟩
  · exact habandoned (h.abandoned hp (hsettled ▸ hne))
  · rw [hsettled, hsent]
    exact h.noPost
  · rw [hsent, hdeadline, hhooked]
    intro sent hmem
    rcases hguarded with hnone | hsame
    · rw [hnone] at hmem
      cases hmem
    · rw [hsame]
      exact h.guarded sent hmem

theorem settled_eq_none (h : r.Sound pending) (hp : pending) (habandoned : r.abandoned = false) :
    r.settled = none := by
  by_contra hne
  rw [h.abandoned hp hne] at habandoned
  cases habandoned

end Request.Sound

namespace Transport

/-- The closure of the request may still send it. -/
def Pending (t : Transport) (id : Nat) : Prop :=
  id ∈ t.waiting ∨ ∃ due, t.running = some (id, .pacing due)

structure Sound (t : Transport) : Prop where
  requests : Everywhere (fun id => Request.Sound (t.Pending id)) t.requests
  waiting_lt : ∀ id ∈ t.waiting, id < t.requests.length
  running_lt : ∀ id stage, t.running = some (id, stage) → id < t.requests.length
  distinct : t.waiting.Nodup
  /-- the closure that runs is not on the tail any more -/
  running_new : ∀ id stage, t.running = some (id, stage) → id ∉ t.waiting

section Sound

variable {cfg : HttpConfig} {t u : Transport} {id : Nat} {r : Request}
variable {f : Request → Request} {result : Settlement} {hook : HookRun}
variable {failure : NetworkFailure} {label : TransportLabel}

theorem sound_start (now : ℚ) : Sound { now } where
  requests := everywhere_nil
  waiting_lt := fun _ h => absurd h List.not_mem_nil
  running_lt := fun _ _ h => by cases h
  distinct := List.nodup_nil
  running_new := fun _ _ h => by cases h

theorem Sound.modify (h : Sound t)
    (hf : ∀ r, t.requests[id]? = some r → r.Sound (t.Pending id) → (f r).Sound (t.Pending id)) :
    Sound (t.modify id f) := by
  refine ⟨h.requests.modify hf, ?_, ?_, h.distinct, h.running_new⟩
  · intro other hother
    exact (h.waiting_lt other hother).trans_eq (List.length_modify ..).symm
  · intro other stage hother
    exact (h.running_lt other stage hother).trans_eq (List.length_modify ..).symm

theorem Sound.conclude (h : Sound t) (hid : id ∉ t.waiting)
    (hresult : result.untransmitted = true →
      ∀ r, t.requests[id]? = some r → r.sentAt = none) :
    Sound (t.conclude id result) := by
  have hpending : ∀ other, (t.conclude id result).Pending other → t.Pending other ∧ other ≠ id := by
    rintro other (hmem | ⟨due, hrunning⟩)
    · exact ⟨.inl hmem, fun heq => hid (heq ▸ hmem)⟩
    · cases hrunning
  refine ⟨?_, ?_, nofun, h.distinct, nofun⟩
  · refine (h.requests.mono fun other r hr hsound => ?_).modify (fun r hr hsound => ?_)
    · exact hsound.mono fun hp => (hpending other hp).1
    · exact hsound.settle (fun hp => absurd rfl (hpending id hp).2)
        fun huntransmitted => hresult huntransmitted r hr
  · intro other hother
    exact (h.waiting_lt other hother).trans_eq (List.length_modify ..).symm

theorem Sound.refuse (h : Sound t) (hid : id ∉ t.waiting)
    (hsent : ∀ r, t.requests[id]? = some r → r.sentAt = none) :
    Sound (t.refuse id failure) := by
  have habandon : Sound (t.modify id Request.abandon) :=
    h.modify fun r _ hsound => hsound.of_fields rfl rfl (fun _ => rfl) rfl rfl (.inr rfl)
  refine habandon.conclude hid fun _ r hr => ?_
  obtain ⟨old, hold, rfl⟩ := getElem?_modify_eq_some.mp hr
  rw [if_pos rfl]
  exact hsent old hold

theorem Sound.pass (h : Sound t) (elapsed : ℚ≥0) : Sound (t.pass elapsed) :=
  ⟨h.requests, h.waiting_lt, h.running_lt, h.distinct, h.running_new⟩

/-- The fetch of a request that its deadline and its caller still allow. -/
theorem Sound.transmit (h : Sound t) (hid : id ∉ t.waiting)
    (hr : ∀ r, t.requests[id]? = some r → r.settled = none ∧ ∃ guarded ∈ r.guardedAt,
      guarded < r.deadline.expiresAt ∧ (r.hooked = false → t.now = guarded))
    (hlt : id < t.requests.length) :
    Sound (t.transmit id) := by
  have hpending : ∀ other, (t.transmit id).Pending other → t.Pending other ∧ other ≠ id := by
    rintro other (hmem | ⟨due, hrunning⟩)
    · exact ⟨.inl hmem, fun heq => hid (heq ▸ hmem)⟩
    · cases hrunning
  refine ⟨?_, ?_, ?_, h.distinct, ?_⟩
  · refine (h.requests.mono fun other r hr hsound => ?_).modify (fun r hget hsound => ?_)
    · exact hsound.mono fun hp => (hpending other hp).1
    · obtain ⟨hnone, guarded, hguarded, hbefore, hsame⟩ := hr r hget
      refine ⟨fun hp => absurd rfl (hpending id hp).2, fun hp => absurd rfl (hpending id hp).2,
        ?_, ?_⟩
      · intro s hs
        rw [hnone] at hs
        cases hs
      · intro sent hsent
        obtain rfl := Option.some.inj hsent
        exact ⟨guarded, hguarded, hbefore, hsame⟩
  · intro other hother
    exact (h.waiting_lt other hother).trans_eq (List.length_modify ..).symm
  · rintro other stage hrunning
    obtain ⟨rfl, -⟩ := Prod.mk.inj (Option.some.inj hrunning)
    exact hlt.trans_eq (List.length_modify ..).symm
  · rintro other stage hrunning
    obtain ⟨rfl, -⟩ := Prod.mk.inj (Option.some.inj hrunning)
    exact hid

theorem Sound.send (h : Sound t) (hid : id ∉ t.waiting) (hr : t.requests[id]? = some r)
    (hsent : r.sentAt = none) (hsettled : r.settled = none)
    (hbefore : t.now < r.deadline.expiresAt) : Sound (t.send id r hook) := by
  have henter : Sound (t.enter id) := by
    refine h.modify fun r' hr' hsound => hsound.of_fields rfl rfl (fun h => h) rfl rfl
      (.inl ?_)
    obtain rfl := Option.some.inj (hr.symm.trans hr')
    exact hsent
  have hlt : id < (t.enter id).requests.length := by
    obtain ⟨hlt, -⟩ := List.getElem?_eq_some_iff.mp hr
    exact hlt.trans_eq (List.length_modify ..).symm
  have hentered : ∀ r', (t.enter id).requests[id]? = some r' →
      r' = { r with guardedAt := some t.now } := by
    intro r' hr'
    obtain ⟨old, hold, rfl⟩ := getElem?_modify_eq_some.mp hr'
    obtain rfl := Option.some.inj (hr.symm.trans hold)
    rw [if_pos rfl]
  rw [Transport.send]
  split
  · rename_i hhooked
    split
    · refine (henter.pass hook.elapsed).conclude hid fun _ r' hr' => ?_
      rw [hentered r' hr']
      exact hsent
    · refine (henter.pass hook.elapsed).transmit hid (fun r' hr' => ?_) hlt
      rw [hentered r' hr']
      exact ⟨hsettled, t.now, rfl, hbefore, fun hnot => by rw [hhooked] at hnot; cases hnot⟩
  · refine henter.transmit hid (fun r' hr' => ?_) hlt
    rw [hentered r' hr']
    exact ⟨hsettled, t.now, rfl, hbefore, fun _ => rfl⟩

/-- A closure that does not refuse has a caller that waits, and time left. -/
theorem refuses_eq_false (h : t.refuses r = false) :
    r.abandoned = false ∧ t.now < r.deadline.expiresAt := by
  rw [refuses, Bool.or_eq_false_iff, Deadline.expired_eq_false_iff] at h
  exact h

theorem Sound.begin (h : Sound t) (hid : id ∉ t.waiting)
    (hr : t.requests[id]? = some r) (hsound : r.Sound True) :
    Sound (t.begin cfg id r hook) := by
  have hsent : r.sentAt = none := hsound.unsent trivial
  rw [Transport.begin]
  split
  · refine h.refuse hid fun r' hr' => ?_
    obtain rfl := Option.some.inj (hr.symm.trans hr')
    exact hsent
  · rename_i hrefuses
    obtain ⟨habandoned, hbefore⟩ := refuses_eq_false (Bool.eq_false_iff.mpr hrefuses)
    split
    · refine ⟨h.requests.mono fun other r' hr' hother => ?_, h.waiting_lt, ?_, h.distinct, ?_⟩
      · by_cases heq : other = id
        · subst heq
          obtain rfl := Option.some.inj (hr.symm.trans hr')
          exact hsound.mono fun _ => trivial
        · refine hother.mono ?_
          rintro (hmem | ⟨due, hrunning⟩)
          · exact .inl hmem
          · obtain ⟨rfl, -⟩ := Prod.mk.inj (Option.some.inj hrunning)
            exact absurd rfl heq
      · rintro other stage hrunning
        obtain ⟨rfl, -⟩ := Prod.mk.inj (Option.some.inj hrunning)
        exact (List.getElem?_eq_some_iff.mp hr).1
      · rintro other stage hrunning
        obtain ⟨rfl, -⟩ := Prod.mk.inj (Option.some.inj hrunning)
        exact hid
    · exact h.send hid hr hsent (hsound.settled_eq_none trivial habandoned) hbefore

theorem Sound.resume (h : Sound t) {due : ℚ} (hrunning : t.running = some (id, .pacing due))
    (hr : t.requests[id]? = some r) : Sound (t.resume id r hook) := by
  have hid := h.running_new id _ hrunning
  have hpending : t.Pending id := .inr ⟨due, hrunning⟩
  have hsound := h.requests id r hr
  rw [Transport.resume]
  split
  · refine h.refuse hid fun r' hr' => ?_
    obtain rfl := Option.some.inj (hr.symm.trans hr')
    exact hsound.unsent hpending
  · rename_i hrefuses
    obtain ⟨habandoned, hbefore⟩ := refuses_eq_false (Bool.eq_false_iff.mpr hrefuses)
    exact h.send hid hr (hsound.unsent hpending)
      (hsound.settled_eq_none hpending habandoned) hbefore

/-- A new call is pending if it is put on the tail. -/
theorem Sound.concat (h : Sound t) (hnew : r.Sound False) :
    Sound { t with requests := t.requests ++ [r] } := by
  have hlength : t.requests.length ≤ (t.requests ++ [r]).length := by
    rw [List.length_append]
    omega
  refine ⟨?_, fun id hid => (h.waiting_lt id hid).trans_le hlength,
    fun id stage hrunning => (h.running_lt id stage hrunning).trans_le hlength, h.distinct,
    h.running_new⟩
  refine h.requests.concat (hnew.mono ?_)
  rintro (hmem | ⟨due, hrunning⟩)
  · exact Nat.lt_irrefl _ (h.waiting_lt _ hmem)
  · exact Nat.lt_irrefl _ (h.running_lt _ _ hrunning)

theorem Sound.enqueue (h : Sound t) (hnew : r.Sound True) :
    Sound { t with
      requests := t.requests ++ [r]
      waiting := t.waiting ++ [t.requests.length] } := by
  have hnotWaiting : t.requests.length ∉ t.waiting :=
    fun hmem => Nat.lt_irrefl _ (h.waiting_lt _ hmem)
  have hlength : t.requests.length < (t.requests ++ [r]).length := by
    rw [List.length_append, List.length_singleton]
    omega
  refine ⟨?_, ?_, fun id stage hrunning => (h.running_lt id stage hrunning).trans hlength, ?_, ?_⟩
  · refine Everywhere.concat (h.requests.mono fun id r' hr' hsound => hsound.mono ?_)
      (hnew.mono fun _ => trivial)
    rintro (hmem | hrunning)
    · rcases List.mem_append.mp hmem with hmem | hmem
      · exact .inl hmem
      · obtain ⟨hlt, -⟩ := List.getElem?_eq_some_iff.mp hr'
        rw [List.mem_singleton.mp hmem] at hlt
        exact absurd hlt (Nat.lt_irrefl _)
    · exact .inr hrunning
  · intro id hid
    rcases List.mem_append.mp hid with hid | hid
    · exact (h.waiting_lt id hid).trans hlength
    · exact List.mem_singleton.mp hid ▸ hlength
  · rw [List.nodup_append]
    refine ⟨h.distinct, by simp, ?_⟩
    rintro id hid other hother rfl
    exact hnotWaiting (List.mem_singleton.mp hother ▸ hid)
  · intro id stage hrunning hmem
    rcases List.mem_append.mp hmem with hmem | hmem
    · exact h.running_new id stage hrunning hmem
    · have hlt := h.running_lt id stage hrunning
      rw [List.mem_singleton.mp hmem] at hlt
      exact Nat.lt_irrefl _ hlt

theorem Sound.call (h : Sound t) {headers : Except HttpError Unit} {deadline : Option Deadline}
    {hooked : Bool} : Sound (t.call cfg headers deadline hooked) := by
  have hfresh : ∀ (pending : Prop) (deadline : Deadline),
      Request.Sound pending { calledAt := t.now, deadline, hooked } :=
    fun _ _ => ⟨fun _ => rfl, fun _ hne => absurd rfl hne, nofun, nofun⟩
  rw [Transport.call.eq_def]
  dsimp only
  split
  · exact h.concat ((hfresh False _).settle (fun hp => hp.elim) fun _ => rfl)
  · split
    · exact h.concat ((hfresh False _).settle (fun hp => hp.elim) fun _ => rfl)
    · exact h.enqueue ((hfresh True _).of_fields rfl rfl (fun h => h) rfl rfl (.inr rfl))

/-- The alarm speaks only where nothing was sent, and silences the closure for good. -/
theorem Sound.ring (h : Sound t) (hr : t.requests[id]? = some r) : Sound (t.ring id r) := by
  rw [Transport.ring]
  split
  · exact h.modify fun r' _ hsound =>
      hsound.of_fields rfl rfl (fun h => h) rfl rfl (.inr rfl)
  · rename_i hunsent
    split
    · refine h.modify fun r' hr' hsound => ?_
      obtain rfl := Option.some.inj (hr.symm.trans hr')
      have habandon : r.abandon.Sound (t.Pending id) :=
        hsound.of_fields rfl rfl (fun _ => rfl) rfl rfl (.inr rfl)
      have hnone : r.sentAt = none := by simpa using hunsent
      exact habandon.settle (fun hp => ⟨hp, rfl⟩) fun _ => hnone
    · exact h.modify fun r' _ hsound =>
        hsound.of_fields rfl rfl (fun h => h) rfl rfl (.inr rfl)

theorem Sound.step (h : Sound t) (hstep : t.step cfg label = some u) : Sound u := by
  rcases step_cases hstep with ⟨elapsed, rfl, rfl⟩ | ⟨headers, deadline, hooked, rfl, rfl⟩ |
    ⟨hook, id, rest, r, rfl, -, hwaiting, hr, rfl⟩ | ⟨hook, id, due, r, rfl, hrunning, hr, rfl⟩ |
    ⟨exchange, id, rfl, hrunning, rfl⟩ | ⟨id, r, due, rfl, hr, -, rfl⟩
  · exact h.pass elapsed
  · exact h.call
  · obtain ⟨hid, hdistinct⟩ := List.nodup_cons.mp (hwaiting ▸ h.distinct)
    have hsub : ∀ other ∈ rest, other ∈ t.waiting :=
      fun other hother => hwaiting ▸ List.mem_cons_of_mem id hother
    have hshift : Sound (t.shift rest) :=
      ⟨h.requests.mono fun other r hr hsound => hsound.mono (Or.imp_left (hsub other)),
        fun other hother => h.waiting_lt other (hsub other hother), h.running_lt, hdistinct,
        fun other stage hrun hmem => h.running_new other stage hrun (hsub other hmem)⟩
    refine hshift.begin hid hr ((h.requests id r hr).mono fun _ => .inl ?_)
    exact hwaiting ▸ List.mem_cons_self
  · exact h.resume hrunning hr
  · refine h.conclude (h.running_new id _ hrunning) fun huntransmitted => ?_
    rw [exchange.untransmitted_settlement] at huntransmitted
    cases huntransmitted
  · exact h.ring hr

theorem sound_run {labels : List TransportLabel} {now : ℚ}
    (hrun : run (Transport.step cfg) { now } labels = some t) : Sound t :=
  run_invariant (fun _ _ _ h hstep => h.step hstep) (sound_start now) hrun

end Sound

end Transport

end Strikedge.DhanHttp
