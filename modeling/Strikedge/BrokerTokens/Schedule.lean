import Mathlib.Tactic.ByContra
import Strikedge.BrokerTokens.Service

/-!
# No broker without a schedule

Every failure arms a timer and every success stops the polling. What a success leaves behind is
the token of one day, so the schedule ends where that day ends.
-/

namespace Strikedge.BrokerTokens

open Machine

/-- The broker is given up until somebody steps in. -/
def Exempt (rt : BrokerRuntime) : Prop :=
  rt.state = .configurationError ∨ rt.state = .invalid ∧ rt.bySecurityError = true

/-- The broker has the token of the day, or a timer, or a call in progress. -/
def Provided (today : IstDay) (rt : BrokerRuntime) : Prop :=
  Exempt rt ∨ rt.readyForDay = some today ∨ rt.timer ≠ none ∨ rt.activities ≠ []

/-- Between start and stop, no broker is left without a token and without a schedule. -/
def NeverStranded (s : State) : Prop :=
  s.started = true → s.stopped = false → ∀ b, Provided (istDayKey s.now) (s.runtimes b)

/-- The broker has nothing but its token. -/
def RestsOnToken (rt : BrokerRuntime) : Prop :=
  ¬ Exempt rt ∧ rt.timer = none ∧ rt.activities = []

/-- The install ends with this call. -/
def Last (stage : InstallStage) (active : Bool) : Prop :=
  stage = .activeBrokerReady ∨ stage = .install ∧ active = false

/-- A token counts for the day on which its call began. Where that day is over, something else
goes on. -/
def SameDay (today : IstDay) (rt : BrokerRuntime) : Event → Prop
  | .storedToken call (.ok true) =>
    ∀ begun, rt.activities[call]? = some (.scheduling begun) →
      istDayKey begun = today ∨ rt.timer ≠ none ∨ rt.activities.eraseIdx call ≠ []
  | .installed call (.ok ()) active =>
    ∀ day stage, rt.activities[call]? = some (.installing day stage) → Last stage active →
      day = today ∨ rt.activities.eraseIdx call ≠ []
  | _ => True

/-- The day does not end for a broker that has nothing but its token. -/
def WithinDay (s : State) (a : Action) : Prop :=
  s.started = true → s.stopped = false →
    match a with
    | .tick now => ∀ b, RestsOnToken (s.runtimes b) → istDayKey now = istDayKey s.now
    | .broker b event => SameDay (istDayKey s.now) (s.runtimes b) event
    | _ => True

/-- A request that is in flight is a suspended call. -/
def Flying (rt : BrokerRuntime) : Prop := rt.inFlight = true → .fetching ∈ rt.activities

namespace BrokerRuntime

variable {opts : BrokerTokenServiceOptions} {at' : Instant} {rt next : BrokerRuntime}
variable {today : IstDay}

theorem provided_suspend {activity : Activity} : Provided today (rt.suspend activity) := by
  refine .inr (.inr (.inr ?_))
  simp [suspend]

theorem provided_arm {delay : Int} {callback : TimerCallback} (h : at'.stopped = false) :
    Provided today (rt.arm at' delay callback) := by
  refine .inr (.inr (.inl ?_))
  simp [arm, h]

theorem flying_arm {delay : Int} {callback : TimerCallback} :
    Flying (rt.arm at' delay callback) ↔ Flying rt := by
  rw [arm]
  split <;> exact Iff.rfl

theorem flying_suspend {activity : Activity} (h : Flying rt) : Flying (rt.suspend activity) := by
  intro hfly
  exact List.mem_append_left _ (h hfly)

/-- An attempt leaves a request behind, one that was in flight before included, or the broker
is ready for the day. -/
theorem provided_attempt (hrt : Flying rt) (h : at'.stopped = false) :
    Provided (istDayKey at'.now) (rt.attempt at') := by
  rw [attempt]
  split
  · rename_i hearly
    rw [h, Bool.false_or] at hearly
    exact .inr (.inr (.inr (List.ne_nil_of_mem (hrt hearly))))
  · dsimp only
    split
    · split
      · rename_i hready
        exact .inr (.inl hready)
      · exact provided_suspend
    · split
      · rename_i hready
        exact .inr (.inl hready)
      · exact provided_suspend

theorem flying_attempt (hrt : Flying rt) : Flying (rt.attempt at') := by
  have hflying : ∀ day : Option IstDay, Flying { rt with readyForDay := day } := fun _ => hrt
  have hsend : ∀ day : Option IstDay, Flying
      ({ rt with
        readyForDay := day
        inFlight := true
        lastAttemptAt := some at'.now }.suspend .fetching) := by
    intro day _
    exact List.mem_append_right _ (List.mem_singleton.mpr rfl)
  rw [attempt]
  split
  · exact hrt
  · dsimp only
    split
    · split
      · exact hrt
      · exact hsend none
    · split
      · exact hrt
      · exact hsend rt.readyForDay

/-- A call that ends takes no request with it but its own. -/
theorem flying_resume {call : Nat} {activity : Activity} (hrt : Flying rt)
    (h : rt.resume call = some (activity, next)) :
    rt.activities[call]? = some activity ∧
      next = { rt with activities := rt.activities.eraseIdx call } ∧
      (activity ≠ .fetching → Flying next) := by
  rw [resume] at h
  obtain ⟨found, hfound, heq⟩ := Option.map_eq_some_iff.mp h
  obtain ⟨rfl, rfl⟩ := Prod.mk.inj heq
  refine ⟨hfound, rfl, fun hother hfly => ?_⟩
  obtain ⟨i, hi⟩ := List.mem_iff_getElem?.mp (hrt hfly)
  rw [List.mem_eraseIdx_iff_getElem?]
  refine ⟨i, ?_, hi⟩
  rintro rfl
  rw [hfound] at hi
  exact hother (Option.some.inj hi)

theorem flying_setState {state : TokenState} : Flying (rt.setState state) ↔ Flying rt := Iff.rfl

theorem flying_scheduleBroker (hrt : Flying rt) : Flying (rt.scheduleBroker at') := by
  have hday : ∀ day : IstDay, Flying { rt with istDay := day } := fun _ => hrt
  rw [scheduleBroker]
  split
  · exact hrt
  · exact flying_suspend (hday _)

/-- A broker that is ready for a day is provided for on that day, or by something else. -/
theorem provided_ready {day : IstDay} (hstate : rt.state = .ready)
    (hready : rt.readyForDay = some day) :
    Provided today rt ↔ day = today ∨ rt.timer ≠ none ∨ rt.activities ≠ [] := by
  have hexempt : ¬ Exempt rt := by
    rintro (hconfiguration | ⟨hinvalid, -⟩)
    · rw [hstate] at hconfiguration
      cases hconfiguration
    · rw [hstate] at hinvalid
      cases hinvalid
  rw [Provided, hready, Option.some.injEq]
  exact ⟨fun h => h.resolve_left hexempt, .inr⟩

theorem scheduled_spec (opts : BrokerTokenServiceOptions) (at' : Instant) (begun : Nat)
    (answer : Except (Option String) Bool) (hrt : Flying rt) :
    Flying (rt.scheduled opts at' begun answer) ∧ (at'.stopped = false →
      (Provided (istDayKey at'.now) (rt.scheduled opts at' begun answer) ↔
        (answer = .ok true → istDayKey begun = istDayKey at'.now ∨ rt.timer ≠ none ∨
          rt.activities ≠ []))) := by
  cases answer with
  | error error =>
    refine ⟨flying_arm.mpr hrt, fun hrunning => ⟨fun _ heq => ?_, fun _ => provided_arm hrunning⟩⟩
    cases heq
  | ok valid =>
    cases valid with
    | true =>
      refine ⟨hrt, fun _ => ?_⟩
      have hready : Provided (istDayKey at'.now) (rt.scheduled opts at' begun (.ok true)) ↔
          istDayKey begun = istDayKey at'.now ∨ rt.timer ≠ none ∨ rt.activities ≠ [] :=
        provided_ready rfl rfl
      exact hready.trans ⟨fun h _ => h, fun h => h rfl⟩
    | false =>
      rw [scheduled]
      split
      · refine ⟨flying_attempt (flying_setState.mpr hrt), fun hrunning =>
          ⟨fun _ heq => ?_, fun _ => provided_attempt (flying_setState.mpr hrt) hrunning⟩⟩
        cases heq
      · refine ⟨flying_arm.mpr (flying_setState.mpr hrt), fun hrunning =>
          ⟨fun _ heq => ?_, fun _ => provided_arm hrunning⟩⟩
        cases heq

/-- Every result of a request provides for the broker. -/
theorem handleResult_spec {result : TokenFetchResult} (hrt : rt.inFlight = false) :
    Flying (rt.handleResult opts at' result) ∧ (at'.stopped = false →
      Provided (istDayKey at'.now) (rt.handleResult opts at' result)) := by
  have hflying : ∀ other : BrokerRuntime, other.inFlight = rt.inFlight → Flying other := by
    intro other heq hfly
    rw [heq, hrt] at hfly
    cases hfly
  cases result with
  | ready => exact ⟨hflying _ rfl, fun _ => provided_suspend⟩
  | retry reason =>
    exact ⟨flying_arm.mpr (hflying _ rfl), fun hrunning => provided_arm hrunning⟩
  | configurationError reason => exact ⟨hflying _ rfl, fun _ => .inl (.inl rfl)⟩
  | blocker reason =>
    exact ⟨flying_arm.mpr (hflying _ rfl), fun hrunning => provided_arm hrunning⟩
  | securityError reason => exact ⟨hflying _ rfl, fun _ => .inl (.inr ⟨rfl, rfl⟩)⟩

theorem provided_succeed {day : IstDay} :
    Provided today (rt.succeed at' day) ↔ day = today ∨ rt.activities ≠ [] := by
  have hready : Provided today (rt.succeed at' day) ↔
      day = today ∨ (none : Option Timer) ≠ none ∨ rt.activities ≠ [] := provided_ready rfl rfl
  exact hready.trans (or_congr Iff.rfl ⟨fun h => h.resolve_left fun hnone => hnone rfl, .inr⟩)

theorem installNext_spec (at' : Instant) (today day : IstDay) (stage : InstallStage)
    (active : Bool) (hrt : Flying rt) : Flying (rt.installNext at' day active stage) ∧
      (Provided today (rt.installNext at' day active stage) ↔
        (Last stage active → day = today ∨ rt.activities ≠ [])) := by
  have hlast : Last stage active → (Provided today (rt.succeed at' day) ↔
      (Last stage active → day = today ∨ rt.activities ≠ [])) := by
    intro hl
    rw [provided_succeed]
    exact ⟨fun h _ => h, fun h => h hl⟩
  cases stage with
  | save =>
    refine ⟨flying_suspend hrt, fun _ hl => ?_, fun _ => provided_suspend⟩
    obtain h | ⟨h, -⟩ := hl
    · cases h
    · cases h
  | install =>
    rw [installNext]
    cases active with
    | true =>
      refine ⟨flying_suspend hrt, fun _ hl => ?_, fun _ => provided_suspend⟩
      obtain h | ⟨-, h⟩ := hl
      · cases h
      · cases h
    | false => exact ⟨hrt, hlast (.inr ⟨rfl, rfl⟩)⟩
  | activeBrokerReady => exact ⟨hrt, hlast (.inl rfl)⟩

theorem react_spec {event : Event} (hrt : Flying rt) (h : rt.react opts at' event = some next) :
    Flying next ∧ (at'.stopped = false → Provided (istDayKey at'.now) rt →
      (Provided (istDayKey at'.now) next ↔ SameDay (istDayKey at'.now) rt event)) := by
  cases event with
  | fire =>
    obtain ⟨timer, -, h⟩ := Option.bind_eq_some_iff.mp h
    split at h
    · dsimp only at h
      split at h
      · rename_i hstopped
        cases h
        refine ⟨hrt, fun hrunning => ?_⟩
        rw [hstopped] at hrunning
        cases hrunning
      · split at h
        · cases h
          exact ⟨flying_attempt hrt, fun hrunning _ =>
            ⟨fun _ => trivial, fun _ => provided_attempt hrt hrunning⟩⟩
        · cases h
          exact ⟨flying_attempt hrt, fun hrunning _ =>
            ⟨fun _ => trivial, fun _ => provided_attempt hrt hrunning⟩⟩
    · cases h
  | storedToken call answer =>
    obtain ⟨⟨activity, without⟩, hresume, h⟩ := Option.bind_eq_some_iff.mp h
    obtain ⟨hcall, rfl, hflying⟩ := flying_resume hrt hresume
    cases activity with
    | scheduling begun =>
      cases h
      obtain ⟨hnext, hprovided⟩ := scheduled_spec opts at' begun answer (hflying nofun)
      refine ⟨hnext, fun hrunning _ => (hprovided hrunning).trans ?_⟩
      cases answer with
      | error error => exact ⟨fun _ => trivial, fun _ heq => by cases heq⟩
      | ok valid =>
        cases valid with
        | true =>
          refine ⟨fun hday begun' hbegun => ?_, fun hday _ => hday begun hcall⟩
          rw [hcall] at hbegun
          cases hbegun
          exact hday rfl
        | false => exact ⟨fun _ => trivial, fun _ heq => by cases heq⟩
    | _ => cases h
  | fetched call answer =>
    obtain ⟨⟨activity, without⟩, hresume, h⟩ := Option.bind_eq_some_iff.mp h
    cases activity with
    | fetching =>
      have hspec : ∀ result,
          Flying ({ without with inFlight := false }.handleResult opts at' result) ∧
            (at'.stopped = false → Provided (istDayKey at'.now)
              ({ without with inFlight := false }.handleResult opts at' result)) :=
        fun result => handleResult_spec rfl
      cases answer with
      | ok result =>
        cases h
        exact ⟨(hspec result).1, fun hrunning _ =>
          ⟨fun _ => trivial, fun _ => (hspec result).2 hrunning⟩⟩
      | error error =>
        cases h
        exact ⟨(hspec _).1, fun hrunning _ =>
          ⟨fun _ => trivial, fun _ => (hspec _).2 hrunning⟩⟩
    | _ => cases h
  | installed call answer active =>
    obtain ⟨⟨activity, without⟩, hresume, h⟩ := Option.bind_eq_some_iff.mp h
    obtain ⟨hcall, rfl, hflying⟩ := flying_resume hrt hresume
    cases activity with
    | installing day stage =>
      cases answer with
      | ok done =>
        cases h
        obtain ⟨hnext, hprovided⟩ :=
          installNext_spec at' (istDayKey at'.now) day stage active (hflying nofun)
        refine ⟨hnext, fun _ _ => hprovided.trans ?_⟩
        refine ⟨fun hday day' stage' hinstalling => ?_, fun hday => hday day stage hcall⟩
        rw [hcall] at hinstalling
        cases hinstalling
        exact hday
      | error error =>
        cases h
        exact ⟨flying_arm.mpr (hflying nofun), fun hrunning _ =>
          ⟨fun _ => trivial, fun _ => provided_arm hrunning⟩⟩
    | _ => cases h
  | onExternalAuthFailure reason =>
    cases h
    exact ⟨flying_suspend hrt, fun _ _ => ⟨fun _ => trivial, fun _ => provided_suspend⟩⟩
  | invalidated call =>
    obtain ⟨⟨activity, without⟩, hresume, h⟩ := Option.bind_eq_some_iff.mp h
    obtain ⟨-, rfl, hflying⟩ := flying_resume hrt hresume
    cases activity with
    | invalidating reason =>
      cases h
      exact ⟨flying_suspend (hflying nofun), fun _ _ =>
        ⟨fun _ => trivial, fun _ => provided_suspend⟩⟩
    | _ => cases h
  | handedOver call =>
    obtain ⟨⟨activity, without⟩, hresume, h⟩ := Option.bind_eq_some_iff.mp h
    obtain ⟨-, rfl, hflying⟩ := flying_resume hrt hresume
    cases activity with
    | protecting =>
      cases h
      split
      · rename_i hstopped
        refine ⟨hflying nofun, fun hrunning => ?_⟩
        rw [hstopped] at hrunning
        cases hrunning
      · exact ⟨flying_arm.mpr (hflying nofun), fun hrunning _ =>
          ⟨fun _ => trivial, fun _ => provided_arm hrunning⟩⟩
    | _ => cases h

end BrokerRuntime

namespace State

variable {opts : BrokerTokenServiceOptions} {s t : State} {a : Action}

/-- Every request in flight is a suspended call. -/
def Sound (s : State) : Prop := ∀ b, Flying (s.runtimes b)

theorem sound_new (now : Nat) : Sound (new now) := by
  intro b hfly
  cases hfly

theorem sound_step (hs : Sound s) (h : step opts s a = some t) : Sound t := by
  cases a with
  | tick now =>
    simp only [step] at h
    split at h
    · cases h
      exact hs
    · cases h
  | start =>
    cases h
    intro b
    rw [start]
    split
    · exact hs b
    · exact BrokerRuntime.flying_scheduleBroker (hs b)
  | stop =>
    cases h
    exact hs
  | broker broker event =>
    obtain ⟨rt, hreact, rfl⟩ := Option.map_eq_some_iff.mp h
    intro b
    dsimp only
    split
    · exact (BrokerRuntime.react_spec (hs broker) hreact).1
    · exact hs b

/-- Only the end of a day strands a broker that rests on its token. -/
theorem tick_iff {now : Nat} (hs : NeverStranded s) :
    NeverStranded { s with now := now } ↔ WithinDay s (.tick now) := by
  refine forall_congr' fun hstarted => forall_congr' fun hrunning => ?_
  have hprovided := hs hstarted hrunning
  constructor
  · intro h b ⟨hexempt, htimer, hactivities⟩
    have hready : ∀ today, Provided today (s.runtimes b) →
        (s.runtimes b).readyForDay = some today := by
      rintro today (hgivenUp | hday | harmed | hbusy)
      · exact absurd hgivenUp hexempt
      · exact hday
      · exact absurd htimer harmed
      · exact absurd hactivities hbusy
    exact Option.some.inj ((hready _ (h b)).symm.trans (hready _ (hprovided b)))
  · intro h b
    by_cases hrests : RestsOnToken (s.runtimes b)
    · have hday : istDayKey now = istDayKey s.now := h b hrests
      change Provided (istDayKey now) (s.runtimes b)
      rw [hday]
      exact hprovided b
    · by_contra hstranded
      refine hrests ⟨fun hexempt => hstranded (.inl hexempt), ?_, ?_⟩
      · by_contra harmed
        exact hstranded (.inr (.inr (.inl harmed)))
      · by_contra hbusy
        exact hstranded (.inr (.inr (.inr hbusy)))

/-- A step keeps the brokers provided for exactly when it stays within the day. -/
theorem step_iff (hs : Sound s) (hprovided : NeverStranded s)
    (h : step opts s a = some t) : NeverStranded t ↔ WithinDay s a := by
  cases a with
  | tick now =>
    simp only [step] at h
    split at h
    · cases h
      exact tick_iff hprovided
    · cases h
  | start =>
    cases h
    refine ⟨fun _ _ _ => trivial, fun _ => ?_⟩
    rw [start]
    split
    · exact hprovided
    · intro _ _ b
      exact BrokerRuntime.provided_suspend
  | stop =>
    cases h
    refine ⟨fun _ _ _ => trivial, fun _ _ hrunning => ?_⟩
    cases hrunning
  | broker broker event =>
    obtain ⟨rt, hreact, rfl⟩ := Option.map_eq_some_iff.mp h
    refine forall_congr' fun hstarted => forall_congr' fun hrunning => ?_
    obtain ⟨-, hspec⟩ := BrokerRuntime.react_spec (hs broker) hreact
    have hiff := hspec hrunning (hprovided hstarted hrunning broker)
    constructor
    · intro h
      have hb := h broker
      dsimp only at hb
      rw [if_pos rfl] at hb
      exact hiff.mp hb
    · intro h b
      dsimp only
      split
      · exact hiff.mpr h
      · exact hprovided hstarted hrunning b

end State

/-- In every run, whatever the calls answer and in whatever order: no broker is ever stranded
if and only if every step stays within the day. -/
theorem never_stranded_iff_within_day (opts : BrokerTokenServiceOptions) (now : Nat)
    (as : List Action) :
    Throughout (State.step opts) NeverStranded (.new now) as ↔
      Heeds (State.step opts) WithinDay (.new now) as := by
  have hinitial : NeverStranded (.new now) := by
    intro hstarted
    cases hstarted
  exact throughout_iff_heeds
    (fun s a t (_ : True) hs hp hc h => State.sound_step hs h)
    (fun s a t _ hs hp h => State.step_iff hs hp h) (State.sound_new now) hinitial
    fun _ _ => trivial

namespace MorningAfter

/-- A minute of the day after the epoch, and the same one a day later. -/
def tenOClock : Nat := 16200000

def dayLater : Nat := tenOClock + 86400000

def options : BrokerTokenServiceOptions where
  pollStart := 540
  pollIntervalMs := 60000

/-- Both brokers get their token of the day, one from the store and one from the provider. -/
def acquired : List Action :=
  [.start, .broker .zerodha (.storedToken 0 (.ok true)), .broker .dhan (.storedToken 0 (.ok false)),
    .broker .dhan (.fetched 0 (.ok .ready)), .broker .dhan (.installed 0 (.ok ()) false),
    .broker .dhan (.installed 0 (.ok ()) false)]

/-- A broker rests on the token of another day. -/
def expired (s : State) (b : BrokerKind) : Bool :=
  s.started && !s.stopped && decide ((s.runtimes b).state = .ready ∧
    (s.runtimes b).readyForDay ≠ some (istDayKey s.now) ∧ (s.runtimes b).timer = none ∧
    (s.runtimes b).activities = [])

theorem expired_acquired :
    (run (State.step options) (.new tenOClock) (acquired ++ [.tick dayLater])).map
      (fun s => (expired s .zerodha, expired s .dhan)) = some (true, true) := by
  decide +kernel

end MorningAfter

/-- Once both tokens are there no timer is left, and the next morning nothing is asked for. -/
theorem next_day_strands :
    ¬ ∀ (opts : BrokerTokenServiceOptions) (now : Nat) (as : List Action),
      Throughout (State.step opts) NeverStranded (.new now) as := by
  intro h
  have hthroughout := h MorningAfter.options MorningAfter.tenOClock
    (MorningAfter.acquired ++ [.tick MorningAfter.dayLater])
  obtain ⟨t, hrun, hexpired⟩ := Option.map_eq_some_iff.mp MorningAfter.expired_acquired
  obtain ⟨hzerodha, -⟩ := Prod.mk.inj hexpired
  rw [MorningAfter.expired, Bool.and_eq_true, Bool.and_eq_true, Bool.not_eq_true'] at hzerodha
  obtain ⟨⟨hstarted, hrunning⟩, hrests⟩ := hzerodha
  obtain ⟨hstate, hday, htimer, hactivities⟩ := of_decide_eq_true hrests
  obtain (hgivenUp | ⟨hinvalid, -⟩) | hready | harmed | hbusy :=
    hthroughout.last hrun hstarted hrunning .zerodha
  · rw [hstate] at hgivenUp
    cases hgivenUp
  · rw [hstate] at hinvalid
    cases hinvalid
  · exact hday hready
  · exact harmed htimer
  · exact hbusy hactivities

end Strikedge.BrokerTokens
