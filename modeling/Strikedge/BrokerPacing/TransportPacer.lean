import Mathlib.Algebra.Order.Ring.Rat
import Mathlib.Tactic.Linarith
import Strikedge.Machine.Run

/-!
# Spacing transport calls

The pacer of an adapter runs one operation at a time, in the order of the calls. In front of each
it waits until the interval of its class has passed since the last operation of the class, and
the interval of order mutations since the last operation of any. The pacing can be replaced at
any time; a wait that has begun keeps its length.

Clock readings are rationals, and a watermark that was never set is absent. The calls are
numbered, and the operations that have started are listed with the pacing their wait was computed
from.
-/

namespace Strikedge.BrokerPacing

open Machine

inductive BrokerPacingClass where
  | orderMutation
  | general
  deriving DecidableEq, Repr

structure EffectiveBrokerPacing where
  orderMutationMinIntervalMs : ℚ
  generalMinIntervalMs : ℚ
  deriving DecidableEq, Repr

def EffectiveBrokerPacing.required (pacing : EffectiveBrokerPacing) : BrokerPacingClass → ℚ
  | .orderMutation => pacing.orderMutationMinIntervalMs
  | .general => pacing.generalMinIntervalMs

def pacingWaitMs (pacing : EffectiveBrokerPacing) (klass : BrokerPacingClass)
    (lastCallAt : Option ℚ) (now : ℚ) : ℚ :=
  match lastCallAt with
  | none => 0
  | some last =>
    let elapsed := now - last
    if elapsed < 0 then pacing.required klass else max 0 (pacing.required klass - elapsed)

structure Call where
  id : ℕ
  klass : BrokerPacingClass
  deriving DecidableEq, Repr

/-- An operation that has started. -/
structure Start where
  call : Call
  startedAt : ℚ
  pacing : EffectiveBrokerPacing
  deriving DecidableEq, Repr

/-- Where the head of the promise chain is. -/
inductive Phase where
  | idle
  | waiting (call : Call) (due : ℚ) (pacing : EffectiveBrokerPacing)
  | running (call : Call)
  deriving DecidableEq, Repr

structure TransportPacer where
  pacing : EffectiveBrokerPacing
  now : ℚ
  lastOrderMutationAt : Option ℚ := none
  lastGeneralAt : Option ℚ := none
  lastAnyCallAt : Option ℚ := none
  /-- The calls behind the head, in their order. -/
  tail : List Call := []
  phase : Phase := .idle
  calls : ℕ := 0
  starts : List Start := []
  deriving DecidableEq, Repr

/-- What happens to a pacer. An operation settles with a result or with a rejection. -/
inductive Event where
  | tick (now : ℚ)
  | run (klass : BrokerPacingClass)
  /-- The head of the chain begins; without a wait it starts at a second reading of the clock. -/
  | begin (at' : ℚ)
  | waited
  | settled (rejected : Bool)
  | repoint (pacing : EffectiveBrokerPacing)
  deriving DecidableEq, Repr

namespace TransportPacer

def lastCallAt (s : TransportPacer) : BrokerPacingClass → Option ℚ
  | .orderMutation => s.lastOrderMutationAt
  | .general => s.lastGeneralAt

/-- The wait of a call that begins now. -/
def waitFor (s : TransportPacer) (klass : BrokerPacingClass) : ℚ :=
  let classWait := pacingWaitMs s.pacing klass (s.lastCallAt klass) s.now
  let absoluteWait := pacingWaitMs s.pacing .orderMutation s.lastAnyCallAt s.now
  max classWait absoluteWait

def start (s : TransportPacer) (call : Call) (pacing : EffectiveBrokerPacing) (at' : ℚ) :
    TransportPacer :=
  { s with
    now := at'
    lastAnyCallAt := some at'
    lastOrderMutationAt :=
      if call.klass = .orderMutation then some at' else s.lastOrderMutationAt
    lastGeneralAt := if call.klass = .orderMutation then s.lastGeneralAt else some at'
    phase := .running call
    starts := s.starts ++ [⟨call, at', pacing⟩] }

def step (s : TransportPacer) : Event → Option TransportPacer
  | .tick now => if s.now ≤ now then some { s with now := now } else none
  | .run klass => some { s with tail := s.tail ++ [⟨s.calls, klass⟩], calls := s.calls + 1 }
  | .begin at' =>
    match s.phase, s.tail with
    | .idle, call :: rest =>
      let wait := s.waitFor call.klass
      if 0 < wait then
        some { s with phase := .waiting call (s.now + wait) s.pacing, tail := rest }
      else if s.now ≤ at' then some ({ s with tail := rest }.start call s.pacing at')
      else none
    | _, _ => none
  | .waited =>
    match s.phase with
    | .waiting call due pacing => if due ≤ s.now then some (s.start call pacing s.now) else none
    | _ => none
  | .settled _ =>
    match s.phase with
    | .running _ => some { s with phase := .idle }
    | _ => none
  | .repoint pacing => some { s with pacing := pacing }

/-- A pacer that has run nothing. -/
def new (pacing : EffectiveBrokerPacing) (now : ℚ) : TransportPacer where
  pacing := pacing
  now := now

end TransportPacer

/-- Behind the wait the interval has passed. -/
theorem le_add_pacingWaitMs (pacing : EffectiveBrokerPacing) (klass : BrokerPacingClass)
    {last now : ℚ} (hlast : last ≤ now) :
    last + pacing.required klass ≤ now + pacingWaitMs pacing klass (some last) now := by
  have helapsed : ¬ now - last < 0 := not_lt.mpr (sub_nonneg.mpr hlast)
  have hmax : pacing.required klass - (now - last) ≤
      max 0 (pacing.required klass - (now - last)) := le_max_right _ _
  simp only [pacingWaitMs, if_neg helapsed]
  linarith

/-- The second operation starts late enough for its pacing. -/
def Apart (a b : Start) : Prop :=
  a.startedAt + b.pacing.orderMutationMinIntervalMs ≤ b.startedAt ∧
    (a.call.klass = b.call.klass →
      a.startedAt + b.pacing.required b.call.klass ≤ b.startedAt)

theorem Apart.later {a : Start} {call : Call} {due at' : ℚ} {pacing : EffectiveBrokerPacing}
    (h : Apart a ⟨call, due, pacing⟩) (hat : due ≤ at') : Apart a ⟨call, at', pacing⟩ :=
  ⟨h.1.trans hat, fun hklass => (h.2 hklass).trans hat⟩

namespace TransportPacer

/-- The calls that have not started. -/
def pending (s : TransportPacer) : List Call :=
  match s.phase with
  | .waiting call _ _ => call :: s.tail
  | _ => s.tail

/-- The started operations lie behind the watermarks, and the watermarks behind the clock. -/
structure Marked (s : TransportPacer) : Prop where
  any : ∀ a ∈ s.starts, ∃ t, s.lastAnyCallAt = some t ∧ a.startedAt ≤ t
  klass : ∀ a ∈ s.starts, ∃ t, s.lastCallAt a.call.klass = some t ∧ a.startedAt ≤ t
  any_le : ∀ t, s.lastAnyCallAt = some t → t ≤ s.now
  klass_le : ∀ k t, s.lastCallAt k = some t → t ≤ s.now

theorem Marked.of_eq {s t : TransportPacer} (h : s.Marked) (hstarts : t.starts = s.starts)
    (hany : t.lastAnyCallAt = s.lastAnyCallAt) (hklass : t.lastCallAt = s.lastCallAt)
    (hnow : s.now ≤ t.now) : t.Marked where
  any := by rw [hstarts, hany]; exact h.any
  klass := by rw [hstarts, hklass]; exact h.klass
  any_le := by rw [hany]; exact fun last hlast => (h.any_le last hlast).trans hnow
  klass_le := by rw [hklass]; exact fun klass last hlast => (h.klass_le klass last hlast).trans hnow

structure Orderly (s : TransportPacer) : Prop where
  marked : s.Marked
  spaced : s.starts.Pairwise Apart
  /-- A wait that has begun is long enough. -/
  waiting : ∀ call due pacing, s.phase = .waiting call due pacing →
    ∀ a ∈ s.starts, Apart a ⟨call, due, pacing⟩
  ids : (s.starts.map fun a => a.call.id) ++ s.pending.map Call.id = List.range s.calls

variable {s t : TransportPacer}

theorem Marked.apart (h : s.Marked) {a : Start} (ha : a ∈ s.starts) (call : Call) :
    Apart a ⟨call, s.now + s.waitFor call.klass, s.pacing⟩ := by
  obtain ⟨any, hany, haany⟩ := h.any a ha
  have hwaitAny : pacingWaitMs s.pacing .orderMutation s.lastAnyCallAt s.now ≤
      s.waitFor call.klass := le_max_right _ _
  constructor
  · have hle := le_add_pacingWaitMs s.pacing .orderMutation (h.any_le any hany)
    rw [hany] at hwaitAny
    simp only [EffectiveBrokerPacing.required] at hle
    linarith
  · intro hklass
    obtain ⟨last, hlast, halast⟩ := h.klass a ha
    rw [hklass] at hlast
    have hwait : pacingWaitMs s.pacing call.klass (s.lastCallAt call.klass) s.now ≤
        s.waitFor call.klass := le_max_left _ _
    have hle := le_add_pacingWaitMs s.pacing call.klass (h.klass_le _ last hlast)
    rw [hlast] at hwait
    simp only
    linarith

theorem lastCallAt_start (call : Call) (pacing : EffectiveBrokerPacing) (at' : ℚ)
    (klass : BrokerPacingClass) :
    (s.start call pacing at').lastCallAt klass =
      if klass = call.klass then some at' else s.lastCallAt klass := by
  obtain ⟨id, callKlass⟩ := call
  cases klass <;> cases callKlass <;> rfl

theorem Marked.start (h : s.Marked) {call : Call} {pacing : EffectiveBrokerPacing} {at' : ℚ}
    (hat : s.now ≤ at') : (s.start call pacing at').Marked := by
  have hbehind : ∀ a ∈ (s.start call pacing at').starts, a.startedAt ≤ at' := by
    intro a ha
    obtain ha | ha := List.mem_append.mp ha
    · obtain ⟨last, hlast, hle⟩ := h.any a ha
      exact hle.trans ((h.any_le last hlast).trans hat)
    · obtain rfl := List.mem_singleton.mp ha
      exact le_rfl
  constructor
  · exact fun a ha => ⟨at', rfl, hbehind a ha⟩
  · intro a ha
    rw [lastCallAt_start]
    split
    case isTrue => exact ⟨at', rfl, hbehind a ha⟩
    case isFalse hklass =>
      obtain ha | ha := List.mem_append.mp ha
      · exact h.klass a ha
      · obtain rfl := List.mem_singleton.mp ha
        exact absurd rfl hklass
  · intro last hlast
    exact (Option.some.inj hlast).symm.le
  · intro klass last hlast
    rw [lastCallAt_start] at hlast
    split at hlast
    · exact (Option.some.inj hlast).symm.le
    · exact (h.klass_le klass last hlast).trans hat

theorem orderly_start (hmarked : s.Marked) (hspaced : s.starts.Pairwise Apart) {call : Call}
    {pacing : EffectiveBrokerPacing} {at' : ℚ} (hat : s.now ≤ at')
    (hapart : ∀ a ∈ s.starts, Apart a ⟨call, at', pacing⟩)
    (hids : (s.starts.map fun a => a.call.id) ++ call.id :: s.tail.map Call.id =
      List.range s.calls) : (s.start call pacing at').Orderly := by
  refine ⟨hmarked.start hat, ?_, ?_, ?_⟩
  · refine List.pairwise_append.mpr ⟨hspaced, List.pairwise_singleton _ _, fun a ha b hb => ?_⟩
    obtain rfl := List.mem_singleton.mp hb
    exact hapart a ha
  · intro waiting due waitPacing hphase
    exact nomatch hphase
  · refine Eq.trans ?_ hids
    simp [TransportPacer.start, pending]

theorem Orderly.tick (h : s.Orderly) {now : ℚ} (hnow : s.now ≤ now) :
    { s with now := now }.Orderly where
  marked := h.marked.of_eq rfl rfl rfl hnow
  spaced := h.spaced
  waiting := h.waiting
  ids := h.ids

/-- A call waits behind the ones in front of it. -/
theorem Orderly.run (h : s.Orderly) (klass : BrokerPacingClass) :
    { s with tail := s.tail ++ [Call.mk s.calls klass], calls := s.calls + 1 }.Orderly where
  marked := h.marked.of_eq rfl rfl rfl le_rfl
  spaced := h.spaced
  waiting := h.waiting
  ids := by
    have hids := h.ids
    rw [List.range_succ, ← hids]
    cases hphase : s.phase <;> simp [pending, hphase]

/-- The head of the chain begins: it waits for the intervals, or they have passed. -/
theorem Orderly.begin (h : s.Orderly) {at' : ℚ} (hstep : s.step (.begin at') = some t) :
    t.Orderly := by
  cases hphase : s.phase with
  | idle =>
      cases htail : s.tail with
      | nil => simp [TransportPacer.step, hphase, htail] at hstep
      | cons call rest =>
          have hids : (s.starts.map fun a => a.call.id) ++ call.id :: rest.map Call.id =
              List.range s.calls := by
            simpa [pending, hphase, htail] using h.ids
          simp only [TransportPacer.step, hphase, htail] at hstep
          split at hstep
          case isTrue =>
            obtain rfl := Option.some.inj hstep
            refine ⟨h.marked.of_eq rfl rfl rfl le_rfl, h.spaced, ?_, hids⟩
            intro waiting due pacing hwaiting a ha
            obtain ⟨rfl, rfl, rfl⟩ : call = waiting ∧ s.now + s.waitFor call.klass = due ∧
              s.pacing = pacing := by simpa using hwaiting
            exact h.marked.apart ha call
          case isFalse hwait =>
            split at hstep
            case isTrue hat =>
              obtain rfl := Option.some.inj hstep
              have hmarked : { s with tail := rest }.Marked :=
                h.marked.of_eq rfl rfl rfl le_rfl
              refine orderly_start hmarked h.spaced hat ?_ hids
              intro a ha
              exact (h.marked.apart ha call).later (by linarith)
            case isFalse => exact nomatch hstep
  | waiting call due pacing => simp [TransportPacer.step, hphase] at hstep
  | running call => simp [TransportPacer.step, hphase] at hstep

/-- The wait is over: the clock has passed its end. -/
theorem Orderly.waited (h : s.Orderly) (hstep : s.step .waited = some t) : t.Orderly := by
  cases hphase : s.phase with
  | idle => simp [TransportPacer.step, hphase] at hstep
  | waiting call due pacing =>
      simp only [TransportPacer.step, hphase] at hstep
      split at hstep
      case isTrue hdue =>
        obtain rfl := Option.some.inj hstep
        have hids : (s.starts.map fun a => a.call.id) ++ call.id :: s.tail.map Call.id =
            List.range s.calls := by
          simpa [pending, hphase] using h.ids
        refine orderly_start h.marked h.spaced le_rfl ?_ hids
        intro a ha
        exact (h.waiting call due pacing hphase a ha).later hdue
      case isFalse => exact nomatch hstep
  | running call => simp [TransportPacer.step, hphase] at hstep

/-- Nothing depends on how the operation ended. -/
theorem Orderly.settled (h : s.Orderly) {rejected : Bool}
    (hstep : s.step (.settled rejected) = some t) : t.Orderly := by
  cases hphase : s.phase with
  | running call =>
      simp only [TransportPacer.step, hphase] at hstep
      obtain rfl := Option.some.inj hstep
      refine ⟨h.marked.of_eq rfl rfl rfl le_rfl, h.spaced, ?_, ?_⟩
      · intro waiting due pacing hwaiting
        exact nomatch hwaiting
      · simpa [pending, hphase] using h.ids
  | idle => simp [TransportPacer.step, hphase] at hstep
  | waiting call due pacing => simp [TransportPacer.step, hphase] at hstep

theorem Orderly.step (h : s.Orderly) {event : Event} (hstep : s.step event = some t) :
    t.Orderly := by
  cases event with
  | tick now =>
      simp only [TransportPacer.step] at hstep
      split at hstep
      case isTrue hnow =>
        obtain rfl := Option.some.inj hstep
        exact h.tick hnow
      case isFalse => exact nomatch hstep
  | run klass =>
      obtain rfl := Option.some.inj hstep
      exact h.run klass
  | begin at' => exact h.begin hstep
  | waited => exact h.waited hstep
  | settled rejected => exact h.settled hstep
  | repoint pacing =>
      obtain rfl := Option.some.inj hstep
      exact ⟨h.marked.of_eq rfl rfl rfl le_rfl, h.spaced, h.waiting, h.ids⟩

theorem orderly_new (pacing : EffectiveBrokerPacing) (now : ℚ) : (new pacing now).Orderly where
  marked :=
    { any := fun a ha => nomatch ha
      klass := fun a ha => nomatch ha
      any_le := fun last hlast => nomatch hlast
      klass_le := fun klass last hlast => by cases klass <;> exact nomatch hlast }
  spaced := .nil
  waiting := fun _ _ _ hphase => nomatch hphase
  ids := rfl

/-- The step serves the chain. How an operation settles is given by its call. -/
def Follows (outcome : ℕ → Bool) (s : TransportPacer) : Event → Prop
  | .run _ | .repoint _ => False
  | .settled rejected => ∀ call, s.phase = .running call → rejected = outcome call.id
  | .tick _ | .begin _ | .waited => True

/-- Serving the chain leads from one state to the other. -/
def Serves (outcome : ℕ → Bool) (s t : TransportPacer) : Prop :=
  ∃ events, Heeds TransportPacer.step (Follows outcome) s events ∧
    Machine.run TransportPacer.step s events = some t

/-- The pacer after the head has run: the calls behind it are still there. -/
def Advances (outcome : ℕ → Bool) (s : TransportPacer) (tail : List Call) : Prop :=
  ∃ t, Serves outcome s t ∧ t.phase = .idle ∧ t.tail = tail ∧ t.calls = s.calls

variable {outcome : ℕ → Bool} {u : TransportPacer}

theorem Serves.head {event : Event} (hstep : s.step event = some u)
    (hfollows : Follows outcome s event) (h : Serves outcome u t) : Serves outcome s t := by
  obtain ⟨events, hheeds, hrun⟩ := h
  refine ⟨event :: events, fun v hv => ?_, run_cons_eq_some.mpr ⟨u, hstep, hrun⟩⟩
  obtain rfl := Option.some.inj (hstep.symm.trans hv)
  exact ⟨hfollows, hheeds⟩

theorem Serves.trans (h : Serves outcome s u) (hrest : Serves outcome u t) :
    Serves outcome s t := by
  obtain ⟨before, hbefore, hrun⟩ := h
  obtain ⟨after, hafter, hrun'⟩ := hrest
  exact ⟨before ++ after, hbefore.append hafter hrun,
    run_append_eq_some.mpr ⟨u, hrun, hrun'⟩⟩

theorem Advances.head {event : Event} {tail : List Call} (hstep : s.step event = some u)
    (hfollows : Follows outcome s event) (hcalls : u.calls = s.calls)
    (h : Advances outcome u tail) : Advances outcome s tail := by
  obtain ⟨t, hserves, hphase, htail, htcalls⟩ := h
  exact ⟨t, hserves.head hstep hfollows, hphase, htail, htcalls.trans hcalls⟩

theorem advances_idle (hphase : s.phase = .idle) : Advances outcome s s.tail :=
  ⟨s, ⟨[], trivial, rfl⟩, hphase, rfl, rfl⟩

theorem advances_running {call : Call} (hphase : s.phase = .running call) :
    Advances outcome s s.tail := by
  have hstep : s.step (.settled (outcome call.id)) = some { s with phase := .idle } := by
    simp only [TransportPacer.step, hphase]
  refine Advances.head hstep ?_ rfl (advances_idle rfl)
  intro running hrunning
  obtain rfl := Phase.running.inj (hphase.symm.trans hrunning)
  rfl

theorem advances_waiting {call : Call} {due : ℚ} {pacing : EffectiveBrokerPacing}
    (hphase : s.phase = .waiting call due pacing) : Advances outcome s s.tail := by
  -- the clock reaches the end of the wait, if it has not passed it
  let late : TransportPacer := { s with now := max s.now due }
  have htick : s.step (.tick (max s.now due)) = some late :=
    if_pos (le_max_left s.now due)
  have hwaited : late.step .waited = some (late.start call pacing late.now) := by
    have hlate : late.phase = .waiting call due pacing := hphase
    have hdue : due ≤ late.now := le_max_right s.now due
    simp only [TransportPacer.step, hlate, if_pos hdue]
  exact Advances.head htick trivial rfl (Advances.head hwaited trivial rfl (advances_running rfl))

theorem advances_begin {call : Call} {rest : List Call} (hphase : s.phase = .idle)
    (htail : s.tail = call :: rest) : Advances outcome s rest := by
  by_cases hwait : 0 < s.waitFor call.klass
  case pos =>
    have hstep : s.step (.begin s.now) = some { s with
        phase := .waiting call (s.now + s.waitFor call.klass) s.pacing, tail := rest } := by
      simp only [TransportPacer.step, hphase, htail, if_pos hwait]
    exact Advances.head hstep trivial rfl (advances_waiting rfl)
  case neg =>
    have hstep : s.step (.begin s.now) =
        some ({ s with tail := rest }.start call s.pacing s.now) := by
      simp only [TransportPacer.step, hphase, htail, if_neg hwait, le_refl, if_true]
    exact Advances.head hstep trivial rfl (advances_running rfl)

/-- The chain runs empty, however its operations end. -/
theorem advances_all (hphase : s.phase = .idle) : Advances outcome s [] := by
  induction hcalls : s.tail generalizing s with
  | nil => exact hcalls ▸ advances_idle hphase
  | cons call rest ih =>
      obtain ⟨u, hserves, huphase, hutail, hucalls⟩ : Advances outcome s rest :=
        advances_begin hphase hcalls
      obtain ⟨t, hrest, htphase, httail, htcalls⟩ := ih huphase hutail
      exact ⟨t, hserves.trans hrest, htphase, httail, htcalls.trans hucalls⟩

theorem advances_from : Advances outcome s [] := by
  obtain ⟨u, hserves, huphase, -, hucalls⟩ : Advances outcome s s.tail := by
    cases hphase : s.phase with
    | idle => exact advances_idle hphase
    | waiting call due pacing => exact advances_waiting hphase
    | running call => exact advances_running hphase
  obtain ⟨t, hrest, htphase, httail, htcalls⟩ : Advances outcome u [] := advances_all huphase
  exact ⟨t, hserves.trans hrest, htphase, httail, htcalls.trans hucalls⟩

/-- What holds of the operations that have started, and of the calls behind them. -/
structure Paced (s : TransportPacer) : Prop where
  spaced : s.starts.Pairwise Apart
  /-- The operations start in call order, each once. -/
  ordered : (s.starts.map fun a => a.call.id) = List.range s.starts.length
  /-- Every call made so far can still start, whatever the operations end with. -/
  unstranded : ∀ outcome : ℕ → Bool, ∃ t, Serves outcome s t ∧
    (t.starts.map fun a => a.call.id) = List.range s.calls

theorem Orderly.paced (h : s.Orderly) : s.Paced where
  spaced := h.spaced
  ordered := by
    have htake := congrArg (List.take s.starts.length) h.ids
    have hle : s.starts.length ≤ s.calls := by
      have hlength := congrArg List.length h.ids
      simp only [List.length_append, List.length_map, List.length_range] at hlength
      omega
    rw [List.take_left' (List.length_map _), List.take_range, Nat.min_eq_left hle] at htake
    exact htake
  unstranded outcome := by
    obtain ⟨t, ⟨events, hheeds, hrun⟩, hphase, htail, hcalls⟩ : Advances outcome s [] :=
      advances_from
    have ht : t.Orderly := run_invariant (fun _ _ _ hI hstep => hI.step hstep) h hrun
    refine ⟨t, ⟨events, hheeds, hrun⟩, ?_⟩
    have hids := ht.ids
    rw [hcalls] at hids
    simpa [pending, hphase, htail] using hids

/-- Transport calls keep their distance, their order and their number. -/
theorem paced_throughout (pacing : EffectiveBrokerPacing) (now : ℚ) (events : List Event) :
    Throughout TransportPacer.step Paced (new pacing now) events :=
  (Throughout.of_invariant (fun _ _ _ h hstep => h.step hstep) (orderly_new pacing now)).mono
    fun _ h => h.paced

end TransportPacer

end Strikedge.BrokerPacing
