import Strikedge.ActiveBroker.Manager

/-!
# A switch and the exposure it leaves behind

The blockers of a switch are sampled once, before its query. Nothing looks at them again
when the active broker moves, two suspensions later, and a query that fails counts as no
intents. A switch therefore leaves no exposure behind as long as none appears while it is
under way, and every query it depends on is answered.
-/

namespace Strikedge.ActiveBroker

open Machine

/-- A switch goes on only with the intents read, and moves the broker with no blocker left. -/
def SwitchEvent.Safe : SwitchEvent → Prop
  | wentOn answer => answer ≠ .rejected
  | moved _ blockers => blockers = []

/-- The probe would not block a switch that has got this far without a blocker. A switch that
has still to be decided stops the scanner when it goes on. -/
def SwitchCall.Clear (call : SwitchCall) (probe : ExposureProbe) : Bool :=
  match call.phase with
  | .querying [] _ _ => probe.standing = []
  | .querying _ _ _ => true
  | .clearing | .saving _ => probe.blockers = []

/-- The switch relies on the broker's intents having been read as none. -/
def SwitchCall.reliesOn (call : SwitchCall) (broker : BrokerId) : Bool :=
  broker ≠ call.target &&
    match call.phase with
    | .querying [] _ (some (.count 0)) => true
    | .querying _ _ _ => false
    | .clearing | .saving _ => true

/-- Nothing blocks the switch so far, and its query is still out. -/
def SwitchCall.undecided (call : SwitchCall) : Bool :=
  match call.phase with
  | .querying [] _ none => true
  | _ => false

namespace Manager

def LeavesNothing (m : Manager) : Prop := ∀ event ∈ m.log, event.Safe

/-- No exposure appears while a switch without blockers is under way, no intent while one has
read that there are none, and the query of such a switch does not fail. -/
def Steady (m : Manager) : Label → Prop
  | .answerQuery id readable => (m.calls.get? id).any (·.undecided) = true → readable = true
  | .setProbe probe => ∀ call ∈ m.calls.values, call.Clear probe = true
  | .setIntents broker outstanding =>
    ∀ call ∈ m.calls.values, call.reliesOn broker = true → outstanding = 0
  | _ => True

instance (m : Manager) : ∀ label, Decidable (m.Steady label)
  | .answerQuery id readable =>
    inferInstanceAs (Decidable ((m.calls.get? id).any _ = true → readable = true))
  | .setProbe _ => inferInstanceAs (Decidable (∀ call ∈ m.calls.values, _ = true))
  | .setIntents _ outstanding =>
    inferInstanceAs (Decidable (∀ call ∈ m.calls.values, _ = true → outstanding = 0))
  | .switchBroker _ | .resumeQuery .. | .resumeClear _ | .drawSequence .. | .answerSave ..
  | .resumeSave _ | .restart _ | .drawAbandoned .. | .storeAbandoned _ => .isTrue trivial

/-- What a query's answer says of the intents it asked for. -/
def Answered (m : Manager) (leaving : BrokerId) : Option QueryAnswer → Prop
  | none => True
  | some (.count outstanding) => outstanding = 0 → m.intents leaving = 0
  | some .rejected => False

/-- Nothing stands against a switch to the broker. -/
structure Free (m : Manager) (target : BrokerId) : Prop where
  probe : m.probe.blockers = []
  configured : target = .dhan → m.dhanProblem = none
  intents : ∀ broker, broker ≠ target → m.intents broker = 0

/-- Nothing stands against a switch that has got this far without a blocker, but the scanner
before it is stopped. -/
def Covered (m : Manager) (call : SwitchCall) : Prop :=
  match call.phase with
  | .querying [] leaving answer =>
    leaving ≠ call.target ∧ m.probe.standing = [] ∧
      (call.target = .dhan → m.dhanProblem = none) ∧ m.Answered leaving answer
  | .querying _ _ _ => True
  | .clearing | .saving _ => m.Free call.target

structure Watched (m : Manager) : Prop where
  covered : ∀ id call, m.calls.get? id = some call → m.Covered call
  safe : m.LeavesNothing

section Steps

variable {m m' : Manager} {label : Label} {id : Nat} {call : SwitchCall} {target : BrokerId}

theorem blockWhen_eq_nil {condition : Bool} {reason : SwitchBlockReason} {detail : String} :
    blockWhen condition reason detail = [] ↔ condition = false := by
  cases condition <;> simp [blockWhen]

theorem blockers_eq_nil {probe : ExposureProbe} :
    probe.blockers = [] ↔ probe.scannerRunning = false ∧ probe.standing = [] := by
  rw [ExposureProbe.blockers, List.append_eq_nil_iff, blockWhen_eq_nil]

theorem sampled_eq_nil : m.sampled target = [] ↔
    (target = .dhan → m.dhanProblem = none) ∧ m.probe.blockers = [] := by
  rw [sampled, List.append_eq_nil_iff]
  refine and_congr_left fun _ => ?_
  by_cases htarget : target = .dhan
  · cases m.dhanProblem <;> simp [htarget]
  · simp [htarget]

/-- There are two brokers, so a switch leaves the one it does not go to. -/
theorem eq_of_ne {a b c : BrokerId} (ha : a ≠ c) (hb : b ≠ c) : a = b := by
  cases a <;> cases b <;> cases c <;> first | rfl | exact absurd rfl ha | exact absurd rfl hb

/-- The cover of a switch depends on the probe, the intents and the configuration only. -/
theorem Covered.congr (h : m.Covered call) (hprobe : m'.probe = m.probe)
    (hintents : m'.intents = m.intents) (hdhan : m'.dhanProblem = m.dhanProblem) :
    m'.Covered call := by
  rw [Covered.eq_def] at h ⊢
  split at h
  · obtain ⟨hleaving, hstanding, hconfigured, hanswered⟩ := h
    refine ⟨hleaving, hprobe ▸ hstanding, hdhan ▸ hconfigured, ?_⟩
    rw [Answered.eq_def] at hanswered ⊢
    rwa [hintents]
  · trivial
  · exact ⟨hprobe ▸ h.probe, hdhan ▸ h.configured, hintents ▸ h.intents⟩
  · exact ⟨hprobe ▸ h.probe, hdhan ▸ h.configured, hintents ▸ h.intents⟩

/-- What a step leaves of probe, intents and configuration keeps every cover; a new or changed
switch needs its own. -/
theorem Watched.of_same (h : m.Watched) (hprobe : m'.probe = m.probe)
    (hintents : m'.intents = m.intents) (hdhan : m'.dhanProblem = m.dhanProblem)
    (hcalls : ∀ x c, m'.calls.get? x = some c → m.calls.get? x = some c ∨ m.Covered c)
    (hlog : m'.log = m.log) : m'.Watched where
  covered x c hget := by
    rcases hcalls x c hget with hold | hnew
    · exact (h.covered x c hold).congr hprobe hintents hdhan
    · exact hnew.congr hprobe hintents hdhan
  safe := by
    rw [LeavesNothing, hlog]
    exact h.safe

theorem get?_setPhase {phase : SwitchPhase} {x : Nat} {c : SwitchCall}
    (hget : (m.setPhase id call phase).calls.get? x = some c)
    (hcovered : m.Covered { call with phase := phase }) :
    m.calls.get? x = some c ∨ m.Covered c := by
  rcases OrderedMap.get?_set_eq_some.mp hget with ⟨-, rfl⟩ | ⟨-, hold⟩
  · exact .inr hcovered
  · exact .inl hold

theorem get?_drop {x : Nat} {c : SwitchCall} (hget : (m.drop id).calls.get? x = some c) :
    m.calls.get? x = some c := by
  rw [drop, OrderedMap.get?_delete] at hget
  split at hget
  · cases hget
  · exact hget

theorem covered_querying (hne : target ≠ m.active) :
    m.Covered ⟨target, .querying (m.sampled target) m.active none⟩ := by
  cases hsampled : m.sampled target with
  | nil =>
      obtain ⟨hconfigured, hblockers⟩ := sampled_eq_nil.mp hsampled
      exact ⟨Ne.symm hne, (blockers_eq_nil.mp hblockers).2, hconfigured, trivial⟩
  | cons blocker rest => trivial

/-- A switch that goes on has read that there are no intents, and finds nothing in its way once
the scanner is stopped. -/
theorem free_proceed {sampled : List SwitchBlocker} {leaving : BrokerId} {answer : QueryAnswer}
    (h : m.Covered ⟨target, .querying sampled leaving (some answer)⟩)
    (hnone : sampled ++ intentBlockers leaving target answer.outstanding = []) :
    answer ≠ .rejected ∧
      Free { m with probe := { m.probe with scannerRunning := false } } target := by
  obtain ⟨rfl, hintents⟩ := List.append_eq_nil_iff.mp hnone
  obtain ⟨hleaving, hstanding, hconfigured, hanswered⟩ := h
  rw [intentBlockers, blockWhen_eq_nil, decide_eq_false_iff_not, Nat.not_lt, Nat.le_zero]
    at hintents
  cases answer with
  | rejected => exact hanswered.elim
  | count outstanding =>
      refine ⟨nofun, blockers_eq_nil.mpr ⟨rfl, hstanding⟩, hconfigured, fun broker hbroker => ?_⟩
      rw [eq_of_ne hbroker hleaving]
      exact hanswered hintents

/-- Stopping the scanner takes nothing away from a cover. -/
theorem Covered.stopScanner (h : m.Covered call) :
    Covered { m with probe := { m.probe with scannerRunning := false } } call := by
  rw [Covered.eq_def] at h ⊢
  split at h
  · exact h
  · trivial
  · exact ⟨blockers_eq_nil.mpr ⟨rfl, (blockers_eq_nil.mp h.probe).2⟩, h.configured, h.intents⟩
  · exact ⟨blockers_eq_nil.mpr ⟨rfl, (blockers_eq_nil.mp h.probe).2⟩, h.configured, h.intents⟩

/-- A probe that blocks no switch on its way takes nothing away either. -/
theorem Covered.setProbe {probe : ExposureProbe} (h : m.Covered call)
    (hclear : call.Clear probe = true) : Covered { m with probe := probe } call := by
  rw [Covered.eq_def] at h ⊢
  rw [SwitchCall.Clear.eq_def] at hclear
  split at h
  · rename_i leaving answer hphase
    simp only [hphase, decide_eq_true_eq] at hclear
    exact ⟨h.1, hclear, h.2.2⟩
  · trivial
  · rename_i hphase
    simp only [hphase, decide_eq_true_eq] at hclear
    exact ⟨hclear, h.configured, h.intents⟩
  · rename_i hphase
    simp only [hphase, decide_eq_true_eq] at hclear
    exact ⟨hclear, h.configured, h.intents⟩

/-- Nor do intents on which no switch on its way relies. -/
theorem Covered.setIntents {broker : BrokerId} {outstanding : Nat} (h : m.Covered call)
    (hrelies : call.reliesOn broker = true → outstanding = 0) :
    Covered { m with
      intents := fun b => if b = broker then outstanding else m.intents b } call := by
  rw [Covered.eq_def] at h ⊢
  rw [SwitchCall.reliesOn.eq_def] at hrelies
  have hfree (hfree : m.Free call.target) (hzero : broker ≠ call.target → outstanding = 0) :
      Free { m with
        intents := fun b => if b = broker then outstanding else m.intents b } call.target := by
    refine ⟨hfree.probe, hfree.configured, fun b hb => ?_⟩
    dsimp only
    split
    · rename_i heq
      exact hzero (heq ▸ hb)
    · exact hfree.intents b hb
  split at h
  · rename_i leaving answer hphase
    refine ⟨h.1, h.2.1, h.2.2.1, ?_⟩
    have hanswered := h.2.2.2
    rw [Answered.eq_def] at hanswered ⊢
    split
    · trivial
    · rename_i outstanding'
      intro hzero
      subst hzero
      dsimp only
      split
      · rename_i heq
        refine hrelies ?_
        simp [hphase, ← heq, h.1]
      · exact hanswered rfl
    · exact hanswered
  · trivial
  · rename_i hphase
    exact hfree h fun hne => hrelies (by simp [hphase, hne])
  · rename_i hphase
    exact hfree h fun hne => hrelies (by simp [hphase, hne])

theorem Free.blockersNow (h : m.Free target) (hne : target ≠ m.active) :
    m.blockersNow target = [] := by
  rw [Manager.blockersNow, List.append_eq_nil_iff]
  refine ⟨sampled_eq_nil.mpr ⟨h.configured, h.probe⟩, ?_⟩
  rw [intentBlockers, blockWhen_eq_nil, h.intents m.active (Ne.symm hne)]
  rfl

theorem watched_step (h : m.Watched) (hsteady : m.Steady label)
    (hstep : m.step label = some m') : m'.Watched := by
  cases label with
  | switchBroker target =>
      obtain rfl := Option.some.inj hstep
      rw [switchBroker]
      split
      · exact h
      · rename_i hne
        refine h.of_same rfl rfl rfl (fun x c hget => ?_) rfl
        rcases OrderedMap.get?_set_eq_some.mp hget with ⟨-, rfl⟩ | ⟨-, hold⟩
        · exact .inr (covered_querying hne)
        · exact .inl hold
  | answerQuery id readable =>
      simp only [step] at hstep
      split at hstep
      · rename_i target sampled leaving hget
        obtain rfl := Option.some.inj hstep
        have hcovered := h.covered id _ hget
        refine h.of_same rfl rfl rfl (fun x c hx => get?_setPhase hx ?_) rfl
        cases sampled with
        | nil =>
            have hreadable : readable = true := hsteady (by rw [hget]; rfl)
            obtain ⟨hleaving, hstanding, hconfigured, -⟩ := hcovered
            rw [hreadable]
            exact ⟨hleaving, hstanding, hconfigured, fun hzero => hzero⟩
        | cons blocker rest => trivial
      · cases hstep
  | resumeQuery id throws =>
      simp only [step] at hstep
      split at hstep
      · rename_i target sampled leaving answer hget
        obtain rfl := Option.some.inj hstep
        have hcovered := h.covered id _ hget
        rw [proceed]
        split
        · exact h.of_same rfl rfl rfl (fun x c hx => .inl (get?_drop hx)) rfl
        · rename_i hnone
          obtain ⟨hread, hfree⟩ := free_proceed hcovered (not_not.mp hnone)
          have hstopped : Watched { m with
              probe := { m.probe with scannerRunning := false }
              log := .wentOn answer :: m.log } :=
            ⟨fun x c hx => (h.covered x c hx).stopScanner.congr rfl rfl rfl,
              List.forall_mem_cons.mpr ⟨hread, h.safe⟩⟩
          dsimp only
          split
          · exact hstopped.of_same rfl rfl rfl (fun x c hx => .inl (get?_drop hx)) rfl
          · have hclearing : Free { m with
                probe := { m.probe with scannerRunning := false }
                log := .wentOn answer :: m.log } target := ⟨hfree.probe, hfree.configured, hfree.intents⟩
            exact hstopped.of_same rfl rfl rfl (fun x c hx => get?_setPhase hx hclearing) rfl
      · cases hstep
  | resumeClear id =>
      simp only [step] at hstep
      split at hstep
      · rename_i target hget
        obtain rfl := Option.some.inj hstep
        have hfree : m.Free target := h.covered id _ hget
        exact h.of_same rfl rfl rfl (fun x c hx => get?_setPhase hx hfree) rfl
      · cases hstep
  | drawSequence id generation =>
      simp only [step] at hstep
      split at hstep
      · rename_i target hget
        split at hstep
        · obtain rfl := Option.some.inj hstep
          have hfree : m.Free target := h.covered id _ hget
          exact h.of_same rfl rfl rfl (fun x c hx => get?_setPhase hx hfree) rfl
        · cases hstep
      · cases hstep
  | answerSave id stored heard =>
      simp only [step] at hstep
      split at hstep
      · rename_i target hget
        split at hstep
        · cases hstep
        · obtain rfl := Option.some.inj hstep
          have hfree : m.Free target := h.covered id _ hget
          exact h.of_same rfl rfl rfl (fun x c hx => get?_setPhase hx hfree) rfl
      · rename_i target generation hget
        obtain rfl := Option.some.inj hstep
        have hfree : m.Free target := h.covered id _ hget
        rw [answerSave]
        cases stored <;>
          exact h.of_same rfl rfl rfl (fun x c hx => get?_setPhase hx hfree) rfl
      · cases hstep
  | resumeSave id =>
      simp only [step] at hstep
      split at hstep
      · rename_i target persisted hget
        obtain rfl := Option.some.inj hstep
        have hfree : m.Free target := h.covered id _ hget
        refine ⟨fun x c hx => (h.covered x c (get?_drop hx)).congr rfl rfl rfl, ?_⟩
        rw [LeavesNothing, adopt]
        dsimp only
        split
        · exact h.safe
        · rename_i hne
          exact List.forall_mem_cons.mpr ⟨hfree.blockersNow hne, h.safe⟩
      · cases hstep
  | setProbe probe =>
      obtain rfl := Option.some.inj hstep
      refine ⟨fun x c hx => (h.covered x c hx).setProbe ?_, h.safe⟩
      exact hsteady c (OrderedMap.mem_values_iff.mpr ⟨x, hx⟩)
  | setIntents broker outstanding =>
      obtain rfl := Option.some.inj hstep
      refine ⟨fun x c hx => (h.covered x c hx).setIntents ?_, h.safe⟩
      exact hsteady c (OrderedMap.mem_values_iff.mpr ⟨x, hx⟩)
  | restart default =>
      obtain rfl := Option.some.inj hstep
      refine ⟨fun x c hx => ?_, h.safe⟩
      cases hx
  | drawAbandoned index generation =>
      simp only [step] at hstep
      split at hstep
      · split at hstep
        · exact Option.some.inj hstep ▸ h.of_same rfl rfl rfl (fun x c hx => .inl hx) rfl
        · cases hstep
      · cases hstep
  | storeAbandoned index =>
      simp only [step] at hstep
      split at hstep
      · exact Option.some.inj hstep ▸ h.of_same rfl rfl rfl (fun x c hx => .inl hx) rfl
      · cases hstep

end Steps

/-- Over switches that overlap and requests that run while they are suspended, no switch moves
the broker away from exposure or unread intents, in every run that stays steady. -/
theorem switch_leaves_nothing (row : Option ActiveBrokerRow) (lastSequence : Nat)
    (intents : BrokerId → Nat) (default : BrokerId) (dhanProblem : Option String)
    (labels : List Label)
    (h : Heeds step Steady (boot row lastSequence intents default dhanProblem) labels) :
    Throughout step LeavesNothing (boot row lastSequence intents default dhanProblem) labels := by
  refine (Throughout.of_heeds (I := Watched) (C := Steady)
    (fun m label m' hm hsteady hstep => watched_step hm hsteady hstep) ⟨fun x c hx => ?_, ?_⟩
    h).mono fun m hm => hm.safe
  · cases hx
  · exact fun event hevent => by cases hevent

/-- A process on Zerodha with nothing outstanding. -/
def flat : Manager := boot none 0 (fun _ => 0) .zerodha none

/-- The probe once a position has been opened on Zerodha. -/
def opened : ExposureProbe :=
  { openPositionCount := 1, brokersWithOpenPositions := [.zerodha] }

/-- A switch to Dhan from the answer of its query on. -/
def rest : List Label :=
  [.resumeQuery 0 false, .resumeClear 0, .drawSequence 0 7, .answerSave 0 true true, .resumeSave 0]

/-- An order works and is done before the switch is asked for; the scanner starts and is
stopped by the switch; a second switch is refused, as a position has been opened by then. -/
def steadySwitch : List Label :=
  [.setProbe { workingOrderCount := 1 }, .setProbe {}, .switchBroker .dhan,
    .setProbe { scannerRunning := true }, .answerQuery 0 true] ++ rest ++
    [.setProbe opened, .switchBroker .zerodha, .answerQuery 1 true, .resumeQuery 1 false]

theorem switch_leaves_nothing_sample :
    Throughout step LeavesNothing flat steadySwitch :=
  switch_leaves_nothing none 0 (fun _ => 0) .zerodha none steadySwitch (by decide +kernel)

/-- A switch whose query fails goes on, and one that is suspended while a position is opened
moves the broker all the same. -/
theorem switch_leaves_exposure :
    (¬∀ labels m, run step flat labels = some m →
      ∀ answer, .wentOn answer ∈ m.log → answer ≠ .rejected) ∧
    ¬∀ labels m, run step flat labels = some m →
      ∀ outgoing blockers, .moved outgoing blockers ∈ m.log → blockers = [] := by
  constructor
  · intro h
    exact h ([.switchBroker .dhan, .answerQuery 0 false] ++ rest) _ rfl .rejected (by decide) rfl
  · intro h
    have hnone := h ([.switchBroker .dhan, .answerQuery 0 true, .resumeQuery 0 false,
      .setProbe opened, .resumeClear 0, .drawSequence 0 7, .answerSave 0 true true,
      .resumeSave 0]) _ rfl .zerodha opened.blockers (by decide)
    revert hnone
    decide

end Manager

end Strikedge.ActiveBroker
