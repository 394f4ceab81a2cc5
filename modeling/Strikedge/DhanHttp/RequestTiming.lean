import Mathlib.Data.List.Chain
import Mathlib.Tactic.Linarith
import Strikedge.DhanHttp.NoPost

/-!
# When requests settle and fetch

The alarm naps for the rest of the budget, but not for less than the shortest timer. A caller
for which nothing was sent is released by its deadline, or by the end of a nap that was armed
with less than that left. The tail starts the fetches one after the other, each at least the
interval after the last one, whatever `beforeSend` takes in between.
-/

namespace Strikedge.DhanHttp

open Machine

namespace Request

/-- The latest release of a caller for which nothing was sent. -/
def latest (r : Request) : ℚ :=
  match r.armedAt with
  | none => r.calledAt
  | some armed => max (armed + 1) r.deadline.expiresAt

/-- What holds of a request while no timer is held up. -/
structure OnTime (now : ℚ) (r : Request) : Prop where
  armed : ∀ armed ∈ r.armedAt, armed < r.deadline.expiresAt
  /-- the end of the race cancels the nap -/
  idle : r.settled ≠ none → r.nap = none
  waiting : r.settled = none → r.sentAt = none → r.nap = some r.latest ∧ now ≤ r.latest
  released : ∀ s ∈ r.settled, r.sentAt = none → s.time ≤ r.latest

section OnTime

variable {r r' : Request} {now now' : ℚ} {result : Settlement}

@[simp] theorem latest_settle : (r.settle result now).latest = r.latest := by
  simp only [latest, armedAt_settle, calledAt_settle, deadline_settle]

theorem latest_arm : (r.arm now).latest = now + r.deadline.timerMs now :=
  (r.deadline.add_timerMs now).symm

/-- The clock moves, but not past the timer of the alarm. -/
theorem OnTime.pass (h : r.OnTime now) (hdue : ∀ due ∈ r.nap, now' ≤ due) : r.OnTime now' := by
  refine ⟨h.armed, h.idle, fun hsettled hsent => ?_, h.released⟩
  obtain ⟨hnap, -⟩ := h.waiting hsettled hsent
  exact ⟨hnap, hdue r.latest hnap⟩

theorem OnTime.settle (h : r.OnTime now) : (r.settle result now).OnTime now := by
  cases hsettled : r.settled with
  | some s =>
      rw [settle_of_some (by rw [hsettled]; rfl)]
      exact h
  | none =>
      have hlatest := @latest_settle r now result
      rw [settle_of_none hsettled] at hlatest ⊢
      refine ⟨h.armed, fun _ => rfl, nofun, fun s hs hsent => ?_⟩
      obtain rfl := Option.some.inj hs
      rw [hlatest]
      exact (h.waiting hsettled hsent).2

/-- A change of the marks of the closure alone. -/
theorem OnTime.of_fields (h : r.OnTime now) (harmed : r'.armedAt = r.armedAt)
    (hcalled : r'.calledAt = r.calledAt) (hdeadline : r'.deadline = r.deadline)
    (hnap : r'.nap = r.nap) (hsettled : r'.settled = r.settled) (hsent : r'.sentAt = r.sentAt) :
    r'.OnTime now := by
  have hlatest : r'.latest = r.latest := by
    simp only [latest, harmed, hcalled, hdeadline]
  refine ⟨?_, ?_, ?_, ?_⟩
  · rw [harmed, hdeadline]
    exact h.armed
  · rw [hsettled, hnap]
    exact h.idle
  · rw [hsettled, hsent, hnap, hlatest]
    exact h.waiting
  · rw [hsettled, hsent, hlatest]
    exact h.released

end OnTime

end Request

namespace Transport

/-- No caller waits longer than the timers let it. -/
def OnTime (t : Transport) : Prop := Everywhere (fun _ => Request.OnTime t.now) t.requests

section OnTime

variable {cfg : HttpConfig} {t u : Transport} {id : Nat} {r : Request}
variable {result : Settlement} {hook : HookRun} {failure : NetworkFailure}
variable {label : TransportLabel}

theorem OnTime.conclude (h : OnTime t) : OnTime (t.conclude id result) :=
  Everywhere.modify h fun _ _ hr => hr.settle

theorem OnTime.refuse (h : OnTime t) : OnTime (t.refuse id failure) := by
  have habandon : OnTime (t.modify id Request.abandon) :=
    Everywhere.modify h fun _ _ hr => hr.of_fields rfl rfl rfl rfl rfl rfl
  exact habandon.conclude

theorem OnTime.transmit (h : OnTime t) : OnTime (t.transmit id) :=
  Everywhere.modify h fun _ _ hr => ⟨hr.armed, hr.idle, nofun, nofun⟩

theorem OnTime.pass (h : OnTime t) {elapsed : ℚ≥0}
    (hdue : ∀ r ∈ t.requests, ∀ due ∈ r.nap, t.now + elapsed ≤ due) : OnTime (t.pass elapsed) :=
  Everywhere.mono h fun _ r hr hon => hon.pass (hdue r (List.mem_of_getElem? hr))

theorem OnTime.enter (h : OnTime t) : OnTime (t.enter id) :=
  Everywhere.modify h fun _ _ hr => hr.of_fields rfl rfl rfl rfl rfl rfl

theorem nap_enter {due : ℚ} (hr : r ∈ (t.enter id).requests) (hdue : due ∈ r.nap) :
    ∃ r' ∈ t.requests, due ∈ r'.nap := by
  obtain ⟨i, hi⟩ := List.mem_iff_getElem?.mp hr
  obtain ⟨r', hr', rfl⟩ := getElem?_modify_eq_some.mp hi
  refine ⟨r', List.mem_of_getElem? hr', ?_⟩
  split at hdue <;> exact hdue

theorem OnTime.send (h : OnTime t)
    (hdue : ∀ r' ∈ t.requests, ∀ due ∈ r'.nap, (t.send id r hook).now ≤ due) :
    OnTime (t.send id r hook) := by
  rw [Transport.send] at hdue ⊢
  split
  · rename_i hhooked
    have hpassed : OnTime ((t.enter id).pass hook.elapsed) := by
      refine h.enter.pass fun r' hr' due hdue' => ?_
      obtain ⟨old, hold, hnap⟩ := nap_enter hr' hdue'
      have hle := hdue old hold due hnap
      rw [if_pos hhooked] at hle
      split at hle <;> exact hle
    split
    · exact hpassed.conclude
    · exact hpassed.transmit
  · exact h.enter.transmit

theorem OnTime.begin (h : OnTime t)
    (hdue : ∀ r' ∈ t.requests, ∀ due ∈ r'.nap, (t.begin cfg id r hook).now ≤ due) :
    OnTime (t.begin cfg id r hook) := by
  rw [Transport.begin] at hdue ⊢
  split
  · exact h.refuse
  · rename_i hrefuses
    rw [if_neg hrefuses] at hdue
    split
    · exact h
    · rename_i hgap
      rw [if_neg hgap] at hdue
      exact h.send hdue

theorem OnTime.resume (h : OnTime t)
    (hdue : ∀ r' ∈ t.requests, ∀ due ∈ r'.nap, (t.resume id r hook).now ≤ due) :
    OnTime (t.resume id r hook) := by
  rw [Transport.resume] at hdue ⊢
  split
  · exact h.refuse
  · rename_i hrefuses
    rw [if_neg hrefuses] at hdue
    exact h.send hdue

theorem OnTime.call (h : OnTime t) {headers : Except HttpError Unit}
    {deadline : Option Deadline} {hooked : Bool} :
    OnTime (t.call cfg headers deadline hooked) := by
  have hrefused : ∀ (deadline : Deadline) (result : Settlement),
      (Request.settle { calledAt := t.now, deadline, hooked } result t.now).OnTime t.now := by
    intro deadline result
    refine ⟨by simp, fun _ => rfl, by rintro ⟨⟩, fun s hs _ => ?_⟩
    obtain rfl := Option.some.inj hs
    exact le_refl t.now
  rw [Transport.call.eq_def]
  dsimp only
  split
  · exact Everywhere.concat h (hrefused _ _)
  · split
    · exact Everywhere.concat h (hrefused _ _)
    · rename_i hexpired
      refine Everywhere.concat h ⟨fun armed harmed => ?_, fun hne => absurd rfl hne,
        fun _ _ => ?_, by rintro _ ⟨⟩⟩
      · obtain rfl := Option.some.inj harmed
        exact Deadline.expired_eq_false_iff.mp (Bool.eq_false_iff.mpr hexpired)
      · rw [Request.latest_arm]
        refine ⟨rfl, ?_⟩
        rw [Deadline.add_timerMs]
        exact (le_add_of_nonneg_right zero_le_one).trans (le_max_left _ _)

theorem OnTime.ring (h : OnTime t) (hr : t.requests[id]? = some r) (hnap : r.nap ≠ none) :
    OnTime (t.ring id r) := by
  have hunsettled : r.settled = none := by
    by_contra hne
    exact hnap ((h id r hr).idle hne)
  rw [Transport.ring]
  split
  · rename_i hsent
    refine Everywhere.modify h fun r' hr' hon => ?_
    obtain rfl := Option.some.inj (hr.symm.trans hr')
    refine ⟨hon.armed, fun _ => rfl, fun _ hnone => ?_, hon.released⟩
    rw [hnone] at hsent
    cases hsent
  · split
    · refine Everywhere.modify h fun r' _ hon => ?_
      have habandon : r'.abandon.OnTime t.now := hon.of_fields rfl rfl rfl rfl rfl rfl
      exact habandon.settle
    · rename_i hexpired
      refine Everywhere.modify h fun r' hr' hon => ?_
      obtain rfl := Option.some.inj (hr.symm.trans hr')
      refine ⟨fun armed harmed => ?_, fun hne => absurd hunsettled hne, fun _ _ => ?_, ?_⟩
      · obtain rfl := Option.some.inj harmed
        exact Deadline.expired_eq_false_iff.mp (Bool.eq_false_iff.mpr hexpired)
      · rw [Request.latest_arm]
        refine ⟨rfl, ?_⟩
        rw [Deadline.add_timerMs]
        exact (le_add_of_nonneg_right zero_le_one).trans (le_max_left _ _)
      · intro s hs
        rw [show (r.arm t.now).settled = r.settled from rfl, hunsettled] at hs
        cases hs

theorem OnTime.step (h : OnTime t) (hpunctual : Punctual cfg t label)
    (hstep : t.step cfg label = some u) : OnTime u := by
  have hdue := hpunctual u hstep
  rcases step_cases hstep with ⟨elapsed, rfl, rfl⟩ | ⟨headers, deadline, hooked, rfl, rfl⟩ |
    ⟨hook, id, rest, r, rfl, -, -, -, rfl⟩ | ⟨hook, id, due, r, rfl, -, -, rfl⟩ |
    ⟨exchange, id, rfl, -, rfl⟩ | ⟨id, r, due, rfl, hr, hnap, rfl⟩
  · exact h.pass hdue
  · exact h.call
  · have hshift : OnTime (t.shift rest) := h
    exact hshift.begin hdue
  · exact h.resume hdue
  · exact h.conclude
  · refine h.ring hr ?_
    rw [hnap]
    nofun

end OnTime

structure Spaced (cfg : HttpConfig) (t : Transport) : Prop where
  last : t.lastAt = t.fetches.head?
  chain : t.fetches.IsChain fun later earlier => earlier + cfg.minIntervalMs ≤ later
  /-- a sleep reaches over the gap, or over the deadline -/
  sleep : ∀ id due, t.running = some (id, .pacing due) → ∃ r, t.requests[id]? = some r ∧
    ((∀ last ∈ t.lastAt, last + cfg.minIntervalMs ≤ due) ∨ r.deadline.expiresAt ≤ due)

section Spaced

variable {cfg : HttpConfig} {t u : Transport} {id : Nat} {r : Request}
variable {result : Settlement} {hook : HookRun} {failure : NetworkFailure}
variable {label : TransportLabel}

/-- What does not fetch and does not begin to sleep. -/
theorem Spaced.of_frame (h : Spaced cfg t) (hextends : Extends t u) (hlast : u.lastAt = t.lastAt)
    (hfetches : u.fetches = t.fetches)
    (hrunning : ∀ id due, u.running = some (id, .pacing due) →
      t.running = some (id, .pacing due)) : Spaced cfg u := by
  refine ⟨by rw [hlast, hfetches]; exact h.last, by rw [hfetches]; exact h.chain, ?_⟩
  intro id due hrun
  obtain ⟨r, hr, hdue⟩ := h.sleep id due (hrunning id due hrun)
  obtain ⟨r', hr', hlater⟩ := hextends id r hr
  refine ⟨r', hr', ?_⟩
  rw [hlast, hlater.deadline]
  exact hdue

theorem Spaced.transmit (h : Spaced cfg t)
    (hgap : ∀ last ∈ t.lastAt, last + cfg.minIntervalMs ≤ t.now) : Spaced cfg (t.transmit id) := by
  refine ⟨rfl, ?_, nofun⟩
  rw [h.last] at hgap
  exact List.isChain_cons.mpr ⟨hgap, h.chain⟩

theorem Spaced.send (h : Spaced cfg t)
    (hgap : ∀ last ∈ t.lastAt, last + cfg.minIntervalMs ≤ t.now) :
    Spaced cfg (t.send id r hook) := by
  have henter : Spaced cfg (t.enter id) :=
    h.of_frame extends_enter rfl rfl fun _ _ hrunning => hrunning
  have hpassed : Spaced cfg ((t.enter id).pass hook.elapsed) :=
    henter.of_frame extends_pass rfl rfl fun _ _ hrunning => hrunning
  rw [Transport.send]
  split
  · split
    · exact hpassed.of_frame extends_conclude rfl rfl (by rintro _ _ ⟨⟩)
    · refine hpassed.transmit fun last hlast => (hgap last hlast).trans ?_
      exact le_add_of_nonneg_right hook.elapsed.2
  · exact henter.transmit hgap

/-- Without a gap to wait out the last fetch is far enough back. -/
theorem gap_le (h : ¬0 < t.gap cfg) : ∀ last ∈ t.lastAt, last + cfg.minIntervalMs ≤ t.now := by
  intro last hlast
  rw [gap, show t.lastAt = some last from hlast] at h
  dsimp only at h
  linarith

theorem Spaced.refuse (h : Spaced cfg t) : Spaced cfg (t.refuse id failure) :=
  h.of_frame extends_refuse rfl rfl nofun

theorem Spaced.begin (h : Spaced cfg t) (hr : t.requests[id]? = some r) :
    Spaced cfg (t.begin cfg id r hook) := by
  rw [Transport.begin]
  split
  · exact h.refuse
  · split
    · refine ⟨h.last, h.chain, ?_⟩
      intro other due hrunning
      obtain ⟨rfl, hstage⟩ := Prod.mk.inj (Option.some.inj hrunning)
      obtain rfl := Stage.pacing.inj hstage
      refine ⟨r, hr, ?_⟩
      rcases le_total (t.gap cfg) (r.deadline.timerMs t.now) with hle | hle
      · refine .inl fun last hlast => ?_
        rw [min_eq_left hle, gap, show t.lastAt = some last from hlast]
        dsimp only
        linarith
      · rw [min_eq_right hle, Deadline.add_timerMs]
        exact .inr (le_max_right _ _)
    · rename_i hgap
      exact h.send (gap_le hgap)

theorem Spaced.resume (h : Spaced cfg t) {due : ℚ} (hrunning : t.running = some (id, .pacing due))
    (hr : t.requests[id]? = some r) (hearly : due ≤ t.now) : Spaced cfg (t.resume id r hook) := by
  rw [Transport.resume]
  split
  · exact h.refuse
  · rename_i hrefuses
    obtain ⟨-, hbefore⟩ := refuses_eq_false (Bool.eq_false_iff.mpr hrefuses)
    obtain ⟨r', hr', hdue⟩ := h.sleep id due hrunning
    obtain rfl := Option.some.inj (hr.symm.trans hr')
    refine h.send fun last hlast => ?_
    rcases hdue with hdue | hdue
    · exact (hdue last hlast).trans hearly
    · linarith

/-- A call and an alarm leave the tail's head and the fetches alone. -/
theorem call_frame (cfg : HttpConfig) (t : Transport) (headers : Except HttpError Unit)
    (deadline : Option Deadline) (hooked : Bool) :
    (t.call cfg headers deadline hooked).lastAt = t.lastAt ∧
      (t.call cfg headers deadline hooked).fetches = t.fetches ∧
      (t.call cfg headers deadline hooked).running = t.running := by
  rw [Transport.call.eq_def]
  dsimp only
  split
  · exact ⟨rfl, rfl, rfl⟩
  · split <;> exact ⟨rfl, rfl, rfl⟩

theorem ring_frame (t : Transport) (id : Nat) (r : Request) :
    (t.ring id r).lastAt = t.lastAt ∧ (t.ring id r).fetches = t.fetches ∧
      (t.ring id r).running = t.running := by
  rw [Transport.ring]
  split
  · exact ⟨rfl, rfl, rfl⟩
  · split <;> exact ⟨rfl, rfl, rfl⟩

theorem Spaced.step (h : Spaced cfg t) (hearly : NotEarly t label)
    (hstep : t.step cfg label = some u) : Spaced cfg u := by
  have hextends := extends_step hstep
  rcases step_cases hstep with ⟨elapsed, rfl, rfl⟩ | ⟨headers, deadline, hooked, rfl, rfl⟩ |
    ⟨hook, id, rest, r, rfl, -, -, hr, rfl⟩ | ⟨hook, id, due, r, rfl, hrunning, hr, rfl⟩ |
    ⟨exchange, id, rfl, -, rfl⟩ | ⟨id, r, due, rfl, hr, hnap, rfl⟩
  · exact h.of_frame hextends rfl rfl fun _ _ hrunning => hrunning
  · obtain ⟨hlast, hfetches, hrunning⟩ := call_frame cfg t headers deadline hooked
    exact h.of_frame hextends hlast hfetches fun _ _ hrun => hrunning ▸ hrun
  · have hshift : Spaced cfg (t.shift rest) := ⟨h.last, h.chain, h.sleep⟩
    exact hshift.begin hr
  · have hdue : due ≤ t.now := by
      refine hearly due ?_
      rw [sleepDue, hrunning]
      rfl
    exact h.resume hrunning hr hdue
  · exact h.of_frame hextends rfl rfl nofun
  · obtain ⟨hlast, hfetches, hrunning⟩ := ring_frame t id r
    exact h.of_frame hextends hlast hfetches fun _ _ hrun => hrunning ▸ hrun

end Spaced

section Evidence

variable {cfg : HttpConfig} {t u : Transport} {labels : List TransportLabel} {start : ℚ}

theorem onTime_run (hpunctual : Heeds (step cfg) (Punctual cfg) { now := start } labels)
    (hrun : run (step cfg) { now := start } labels = some t) : OnTime t := by
  have hstart : OnTime { now := start } := everywhere_nil
  exact (Throughout.of_heeds (fun _ _ _ h hc hstep => h.step hc hstep) hstart hpunctual).last hrun

theorem spaced_run (hearly : Heeds (step cfg) NotEarly { now := start } labels)
    (hrun : run (step cfg) { now := start } labels = some t) : Spaced cfg t := by
  have hstart : Spaced cfg { now := start } := ⟨rfl, .nil, nofun⟩
  exact (Throughout.of_heeds (fun _ _ _ h hc hstep => h.step hc hstep) hstart hearly).last hrun

end Evidence

/-- The claim that nothing was transmitted is true when it is made and stays true. -/
def NoPostProven (t u : Transport) : Prop :=
  ∀ (id : Nat) (r : Request), t.requests[id]? = some r →
    ∀ s ∈ r.settled, s.result.untransmitted = true → r.sentAt = none ∧
      ∃ r', u.requests[id]? = some r' ∧ r'.settled = some s ∧ r'.sentAt = none

/-- The network is entered before the deadline. -/
def EnteredInTime (t : Transport) : Prop :=
  ∀ r ∈ t.requests, ∀ sent ∈ r.sentAt, ∃ guarded ∈ r.guardedAt,
    guarded < r.deadline.expiresAt ∧ (r.hooked = false → sent = guarded)

/-- A caller for which nothing was sent is released in time. -/
def ReleasedInTime (t : Transport) : Prop :=
  ∀ r ∈ t.requests, r.sentAt = none → (∀ armed ∈ r.armedAt, armed < r.deadline.expiresAt) ∧
    (∀ s ∈ r.settled, s.time ≤ r.latest) ∧ (r.settled = none → t.now ≤ r.latest)

/-- What the settlement of a request says of the network, in every interleaving. -/
theorem settlement_evidence (cfg : HttpConfig) (start : ℚ) (labels later : List TransportLabel)
    (t u : Transport) (hrun : run (step cfg) { now := start } labels = some t)
    (hlater : run (step cfg) t later = some u) :
    NoPostProven t u ∧ EnteredInTime t ∧
      (Heeds (step cfg) (Punctual cfg) { now := start } labels → ReleasedInTime t) ∧
      (Heeds (step cfg) NotEarly { now := start } labels →
        t.fetches.IsChain fun next last => last + cfg.minIntervalMs ≤ next) := by
  have hsound := sound_run hrun
  have hsoundLater : Sound u := run_invariant (fun _ _ _ h hstep => h.step hstep) hsound hlater
  refine ⟨?_, ?_, ?_, ?_⟩
  · intro id r hr s hs huntransmitted
    obtain ⟨r', hr', hlater'⟩ := extends_run hlater id r hr
    have hs' : r'.settled = some s :=
      (hlater'.settled (Option.isSome_iff_exists.mpr ⟨s, hs⟩)).trans hs
    exact ⟨(hsound.requests id r hr).noPost s hs huntransmitted, r', hr', hs',
      (hsoundLater.requests id r' hr').noPost s hs' huntransmitted⟩
  · intro r hr
    obtain ⟨id, hid⟩ := List.mem_iff_getElem?.mp hr
    exact (hsound.requests id r hid).guarded
  · intro hpunctual r hr hsent
    obtain ⟨id, hid⟩ := List.mem_iff_getElem?.mp hr
    have hon := onTime_run hpunctual hrun id r hid
    exact ⟨hon.armed, fun s hs => hon.released s hs hsent,
      fun hsettled => (hon.waiting hsettled hsent).2⟩
  · intro hearly
    exact (spaced_run hearly hrun).chain

namespace ShortBudget

def cfg : HttpConfig := ⟨8000, 120⟩

def idle : Transport := { now := 0 }

/-- A call with half a millisecond left queues behind a request on the wire. Its alarm rings
after the shortest timer. -/
def labels : List TransportLabel :=
  [.request (.ok ()) none false, .turn ⟨0, none⟩, .request (.ok ()) (some ⟨1 / 2, 1 / 2⟩) false,
    .pass 1, .alarm 1]

/-- The request ahead is answered, and the abandoned closure gets its turn. -/
def later : List TransportLabel := [.answered (.response 200 false), .turn ⟨0, none⟩]

/-- A hook that takes longer than the budget. -/
def slowHook : List TransportLabel :=
  [.request (.ok ()) (some ⟨10, 10⟩) true, .turn ⟨15, none⟩]

def released : Transport := (run (step cfg) idle labels).getD idle

def refused : Transport := (run (step cfg) released later).getD idle

def sentLate : Transport := (run (step cfg) idle slowHook).getD idle

end ShortBudget

open ShortBudget

theorem settlement_evidence_sample : NoPostProven released refused ∧ ReleasedInTime released := by
  have h := settlement_evidence cfg 0 labels later released refused (by decide +kernel)
    (by decide +kernel)
  exact ⟨h.1, h.2.2.1 (by decide +kernel)⟩

/-- Half a millisecond is slept over, and a fetch may start after the deadline behind its
hook. -/
theorem release_and_fetch_may_be_late :
    (¬∀ labels t, Heeds (step cfg) (Punctual cfg) idle labels →
      run (step cfg) idle labels = some t → ∀ r ∈ t.requests,
        r.calledAt < r.deadline.expiresAt → r.sentAt = none →
          ∀ s ∈ r.settled, s.time ≤ r.deadline.expiresAt) ∧
    ¬∀ labels t, run (step cfg) idle labels = some t →
      ∀ r ∈ t.requests, ∀ sent ∈ r.sentAt, sent ≤ r.deadline.expiresAt := by
  refine ⟨fun h => ?_, fun h => ?_⟩
  · have hreleased := h labels released (by decide +kernel) (by decide +kernel)
    revert hreleased
    decide +kernel
  · have hsent := h slowHook sentLate (by decide +kernel)
    revert hsent
    decide +kernel

end Transport

end Strikedge.DhanHttp
