import Strikedge.StreamHealth.MarketData

/-!
# What market-data readiness rests on

The evidence fields of the machine are read back into the events that set them. While the
machine is connected, the session was authorised by an event that nothing has ended since,
every depth stamp of the current generation was made after it, and the backlog flag is the
last report since it. Readiness is only ever entered by re-deriving it from those.
-/

namespace Strikedge.StreamHealth

open Machine

/-- One event, with the reading of the clock when it is handled. -/
structure Occurrence where
  now : ℚ
  event : MarketDataEvent
  deriving DecidableEq, Repr

/-- Events that end a session, or the attempt at one. -/
def MarketDataEvent.ends : MarketDataEvent → Bool
  | .onConnecting | .onSocketOpen | .onDisconnected | .onSessionLost => true
  | .setEnabled enabled => !enabled
  | _ => false

/-- Events after which the state is re-derived from the evidence. -/
def MarketDataEvent.reevaluates : MarketDataEvent → Bool
  | .onHeartbeat _ | .onFrame _ | .onUsableDepth _ _ | .onSubscriptionsConfirmed _
  | .setDesiredInstruments _ | .onProcessingBacklog _ | .evaluate => true
  | _ => false

/-- What an event reports about the ingestion backlog. -/
def MarketDataEvent.backlogReport : MarketDataEvent → Option Bool
  | .onProcessingBacklog active => some active
  | _ => none

namespace Occurrence

variable (o : Occurrence)

/-- When the frame of this event was received. -/
def frameTime : Option ℚ :=
  match o.event with
  | .onHeartbeat time | .onFrame time | .onUsableDepth _ time => some (time.getD o.now)
  | _ => none

/-- When this event observed usable depth for an instrument. -/
def depthTime (token : Token) : Option ℚ :=
  match o.event with
  | .onUsableDepth token' time => if token' = token then some (time.getD o.now) else none
  | _ => none

end Occurrence

/-- The last backlog report among the events, if there was one. -/
def lastBacklog (events : List Occurrence) : Option Bool :=
  (events.filterMap (·.event.backlogReport)).getLast?

/-- The states with a session: the ones that re-deriving moves between. -/
def MarketDataState.Connected : MarketDataState → Prop
  | .synchronizing | .ready | .degraded => True
  | _ => False

namespace MarketDataStateMachine

def handleAll (m : MarketDataStateMachine) (events : List Occurrence) : MarketDataStateMachine :=
  events.foldl (fun m o => m.handle o.now o.event) m

section Reevaluate

variable {m : MarketDataStateMachine} {now : ℚ}

/-- Re-deriving moves the state and nothing else. -/
theorem reevaluate_eq (m : MarketDataStateMachine) (now : ℚ) :
    m.reevaluate now = { m with current := (m.reevaluate now).current } := by
  rw [reevaluate]
  split
  any_goals rfl
  split
  · rfl
  · split
    · rfl
    · split <;> rfl

theorem reevaluate_gen : (m.reevaluate now).gen = m.gen := by rw [reevaluate_eq]

theorem reevaluate_depthAt : (m.reevaluate now).depthAt = m.depthAt := by rw [reevaluate_eq]

theorem reevaluate_lastFrameAt : (m.reevaluate now).lastFrameAt = m.lastFrameAt := by
  rw [reevaluate_eq]

theorem reevaluate_backlog : (m.reevaluate now).backlog = m.backlog := by rw [reevaluate_eq]

/-- Re-deriving neither opens nor ends a session. -/
theorem connected_of_reevaluate (h : (m.reevaluate now).current.Connected) :
    m.current.Connected := by
  rw [reevaluate] at h
  cases hcurrent : m.current with
  | synchronizing => trivial
  | ready => trivial
  | degraded => trivial
  | _ =>
      rw [hcurrent] at h
      simp only [hcurrent] at h
      exact h

/-- The machine is ready after re-deriving only on evidence that stands at that instant. -/
theorem evidence_of_ready (h : (m.reevaluate now).current = .ready) :
    m.isTransportLive now = true ∧ m.backlog = false ∧ m.anyDesiredFresh now = true := by
  have hsession : m.current.Connected := connected_of_reevaluate (by rw [h]; trivial)
  rw [reevaluate] at h
  split at h
  case h_6 =>
    split at h
    case isTrue hevidence =>
      simp only [Bool.and_eq_true, Bool.not_eq_true'] at hevidence
      exact ⟨hevidence.1.1, hevidence.1.2, hevidence.2⟩
    case isFalse =>
      split at h
      · cases h
      · split at h
        case isTrue hdegraded => rw [hdegraded] at h; cases h
        case isFalse => cases h
  all_goals
    rename_i hcurrent
    rw [hcurrent] at hsession
    exact hsession.elim

end Reevaluate

/-- The session the machine is in: the event that authorised it, and the events since, none
of which ended it. -/
structure Session (m : MarketDataStateMachine) (past before since : List Occurrence) (time : ℚ) :
    Prop where
  split : past = before ++ ⟨time, .onAuthenticated⟩ :: since
  lasts : ∀ o ∈ since, o.event.ends = false ∧ o.event ≠ .onAuthenticated
  depth : ∀ token d, m.depthAt.get? token = some d → d.gen = m.gen →
    ∃ o ∈ since, o.depthTime token = some d.time
  backlog : m.backlog = (lastBacklog since).getD false

/-- What the events of `past` left in the machine. -/
structure Supported (m : MarketDataStateMachine) (past : List Occurrence) : Prop where
  frame : ∀ t, m.lastFrameAt = some t → ∃ o ∈ past, o.frameTime = some t
  generation : ∀ token d, m.depthAt.get? token = some d → d.gen ≤ m.gen
  session : m.current.Connected → ∃ before since time, m.Session past before since time
  ready : m.current = .ready → m.backlog = false

section Supported

variable {m m' : MarketDataStateMachine} {past before since : List Occurrence} {o : Occurrence}
variable {time : ℚ}

theorem supported_new (opts : MarketDataStateMachineOptions) : (new opts).Supported [] where
  frame := nofun
  generation := nofun
  session h := by
    rw [new] at h
    cases hopts : opts.enabled <;> simp [hopts, MarketDataState.Connected] at h
  ready _ := rfl

theorem lastBacklog_concat (since : List Occurrence) (o : Occurrence) :
    lastBacklog (since ++ [o]) = (o.event.backlogReport <|> lastBacklog since) := by
  rw [lastBacklog, List.filterMap_append]
  cases hreport : o.event.backlogReport with
  | none => simp [hreport, lastBacklog]
  | some active => simp [hreport]

/-- A session goes on through an event that neither ends it nor authorises another. -/
theorem Session.extend (h : m.Session past before since time) (hends : o.event.ends = false)
    (hauth : o.event ≠ .onAuthenticated) (hgen : m'.gen = m.gen)
    (hdepth : ∀ token d, m'.depthAt.get? token = some d →
      m.depthAt.get? token = some d ∨ o.depthTime token = some d.time)
    (hbacklog : m'.backlog = o.event.backlogReport.getD m.backlog) :
    m'.Session (past ++ [o]) before (since ++ [o]) time where
  split := by rw [h.split, List.append_assoc, List.cons_append]
  lasts x hx := by
    obtain hx | hx := List.mem_append.mp hx
    · exact h.lasts x hx
    · rw [List.mem_singleton.mp hx]
      exact ⟨hends, hauth⟩
  depth token d hd hdgen := by
    obtain hold | hnew := hdepth token d hd
    · obtain ⟨x, hx, hfact⟩ := h.depth token d hold (hdgen.trans hgen)
      exact ⟨x, List.mem_append_left _ hx, hfact⟩
    · exact ⟨o, by simp, hnew⟩
  backlog := by
    rw [hbacklog, h.backlog, lastBacklog_concat]
    cases o.event.backlogReport <;> rfl

/-- An event that only moves the transport leaves the evidence where it was. -/
theorem Supported.moved (h : m.Supported past) (hframe : m'.lastFrameAt = m.lastFrameAt)
    (hgeneration : ∀ token d, m'.depthAt.get? token = some d → d.gen ≤ m'.gen)
    (hsession : m'.current.Connected → ∃ before since time,
      m'.Session (past ++ [o]) before since time)
    (hready : m'.current = .ready → m'.backlog = false) : m'.Supported (past ++ [o]) where
  frame t ht := by
    obtain ⟨x, hx, hfact⟩ := h.frame t (hframe ▸ ht)
    exact ⟨x, List.mem_append_left _ hx, hfact⟩
  generation := hgeneration
  session := hsession
  ready := hready

/-- An event that the machine ignores, or that ends the session without touching evidence. -/
theorem Supported.ended (h : m.Supported past) {state : MarketDataState}
    (hstate : ¬ state.Connected) : ({ m with current := state }).Supported (past ++ [o]) := by
  refine h.moved rfl h.generation ?_ ?_
  · exact fun hconnected => absurd hconnected hstate
  · intro hready
    exact absurd (show state.Connected by rw [show state = .ready from hready]; trivial) hstate

theorem Supported.ignored (h : m.Supported past) (hstate : ¬ m.current.Connected) :
    m.Supported (past ++ [o]) := h.ended hstate

/-- An event that leaves a connected machine exactly as it was. -/
theorem Supported.kept (h : m.Supported past) (hends : o.event.ends = false)
    (hauth : o.event ≠ .onAuthenticated) (hreport : o.event.backlogReport = none) :
    m.Supported (past ++ [o]) := by
  refine h.moved rfl h.generation ?_ ?_
  · intro hconnected
    obtain ⟨before, since, time, hsession⟩ := h.session hconnected
    exact ⟨before, since ++ [o], time, hsession.extend hends hauth rfl
      (fun token d hd => .inl hd) (by rw [hreport]; rfl)⟩
  · exact h.ready

/-- An event that adds evidence and re-derives the state. -/
theorem Supported.reevaluated (h : m.Supported past) (now : ℚ) (hends : o.event.ends = false)
    (hauth : o.event ≠ .onAuthenticated) (hcurrent : m'.current = m.current)
    (hgen : m'.gen = m.gen)
    (hframe : ∀ t, m'.lastFrameAt = some t → m.lastFrameAt = some t ∨ o.frameTime = some t)
    (hdepth : ∀ token d, m'.depthAt.get? token = some d →
      m.depthAt.get? token = some d ∨ d.gen = m.gen ∧ o.depthTime token = some d.time)
    (hbacklog : m'.backlog = o.event.backlogReport.getD m.backlog) :
    (m'.reevaluate now).Supported (past ++ [o]) where
  frame t ht := by
    rw [reevaluate_lastFrameAt] at ht
    obtain hold | hnew := hframe t ht
    · obtain ⟨x, hx, hfact⟩ := h.frame t hold
      exact ⟨x, List.mem_append_left _ hx, hfact⟩
    · exact ⟨o, by simp, hnew⟩
  generation token d hd := by
    rw [reevaluate_depthAt] at hd
    rw [reevaluate_gen, hgen]
    obtain hold | hnew := hdepth token d hd
    · exact h.generation token d hold
    · exact hnew.1.le
  session hconnected := by
    obtain ⟨before, since, time, hsession⟩ :=
      h.session (hcurrent ▸ connected_of_reevaluate hconnected)
    refine ⟨before, since ++ [o], time, hsession.extend hends hauth ?_ ?_ ?_⟩
    · rw [reevaluate_gen, hgen]
    · intro token d hd
      rw [reevaluate_depthAt] at hd
      exact (hdepth token d hd).imp_right And.right
    · rw [reevaluate_backlog, hbacklog]
  ready hready := by
    rw [reevaluate_backlog]
    exact (evidence_of_ready hready).2.1

/-- One event keeps the account of what the machine rests on. -/
theorem Supported.handle (h : m.Supported past) (o : Occurrence) :
    (m.handle o.now o.event).Supported (past ++ [o]) := by
  obtain ⟨now, event⟩ := o
  have hdisabled : ∀ {state : MarketDataState}, state = .disabled ∨ state = .authExpired →
      ¬ state.Connected := by
    rintro state (rfl | rfl) hconnected
    · exact hconnected
    · exact hconnected
  cases event with
  | onConnecting =>
      show (onConnecting m).Supported _
      rw [onConnecting]
      split
      case isTrue hstate => exact h.ignored (hdisabled (.inl hstate))
      case isFalse => exact h.ended fun hconnected => hconnected
  | onSocketOpen =>
      show (onSocketOpen m).Supported _
      rw [onSocketOpen]
      split
      case isTrue hstate => exact h.ignored (hdisabled hstate)
      case isFalse => exact h.ended fun hconnected => hconnected
  | onAuthenticated =>
      show (onAuthenticated m).Supported _
      rw [onAuthenticated]
      split
      case isTrue hstate => exact h.ignored (hdisabled hstate)
      case isFalse =>
        refine h.moved rfl ?_ ?_ ?_
        · intro token d hd
          exact (h.generation token d hd).trans (Nat.le_succ _)
        · intro _
          refine ⟨past, [], now, rfl, nofun, ?_, rfl⟩
          -- a stamp of the superseded generation is never of the new one
          intro token d hd hgen
          have hle : d.gen ≤ m.gen := h.generation token d hd
          have hnew : d.gen = m.gen + 1 := hgen
          omega
        · exact fun _ => rfl
  | onHeartbeat time =>
      refine h.reevaluated now rfl nofun rfl rfl ?_ ?_ ?_
      · exact fun t ht => .inr ht
      · exact fun token d hd => .inl hd
      · rfl
  | onFrame time =>
      refine h.reevaluated now rfl nofun rfl rfl ?_ ?_ ?_
      · exact fun t ht => .inr ht
      · exact fun token d hd => .inl hd
      · rfl
  | onUsableDepth token time =>
      show (onUsableDepth m now token time).Supported _
      rw [onUsableDepth]
      split
      case isTrue hstate => exact h.ignored (hdisabled hstate)
      case isFalse =>
        refine h.reevaluated now rfl nofun rfl rfl ?_ ?_ ?_
        · exact fun t ht => .inr ht
        · intro token' d hd
          rw [OrderedMap.get?_set] at hd
          split at hd
          case isTrue htoken =>
            obtain rfl := Option.some.inj hd
            refine .inr ⟨rfl, ?_⟩
            rw [Occurrence.depthTime]
            exact if_pos htoken.symm
          case isFalse => exact .inl hd
        · rfl
  | onSubscriptionsConfirmed tokens =>
      show (onSubscriptionsConfirmed m now tokens).Supported _
      rw [onSubscriptionsConfirmed]
      split
      case isTrue hstate => exact h.ignored (hdisabled hstate)
      case isFalse =>
        refine h.reevaluated now rfl nofun rfl rfl ?_ ?_ ?_
        · exact fun t ht => .inl ht
        · exact fun token d hd => .inl hd
        · rfl
  | setDesiredInstruments tokens =>
      refine h.reevaluated now rfl nofun rfl rfl ?_ ?_ ?_
      · exact fun t ht => .inl ht
      · exact fun token d hd => .inl hd
      · rfl
  | onProcessingBacklog active =>
      refine h.reevaluated now rfl nofun rfl rfl ?_ ?_ ?_
      · exact fun t ht => .inl ht
      · exact fun token d hd => .inl hd
      · rfl
  | onDisconnected =>
      show (onDisconnected m).Supported _
      rw [onDisconnected]
      split
      case isTrue hstate => exact h.ignored (hdisabled hstate)
      case isFalse => exact h.ended fun hconnected => hconnected
  | onSessionLost =>
      show (onSessionLost m).Supported _
      rw [onSessionLost]
      split
      case isTrue hstate => exact h.ignored (hdisabled (.inl hstate))
      case isFalse => exact h.ended fun hconnected => hconnected
  | setEnabled enabled =>
      show (setEnabled m enabled).Supported _
      cases enabled with
      | false => exact h.ended fun hconnected => hconnected
      | true =>
          show (if m.current = .disabled then { m with current := .disconnected } else m :
            MarketDataStateMachine).Supported _
          split
          case isTrue => exact h.ended fun hconnected => hconnected
          case isFalse => exact h.kept rfl nofun rfl
  | evaluate =>
      refine h.reevaluated now rfl nofun rfl rfl ?_ ?_ ?_
      · exact fun t ht => .inl ht
      · exact fun token d hd => .inl hd
      · rfl

theorem Supported.handleAll (h : m.Supported past) (events : List Occurrence) :
    (m.handleAll events).Supported (past ++ events) := by
  induction events generalizing m past with
  | nil => rwa [List.append_nil]
  | cons o events ih =>
      rw [List.append_cons]
      exact ih (h.handle o)

/-- After an event that re-derives the state, readiness is what the evidence said then. -/
theorem evidence_of_handle {event : MarketDataEvent} {now : ℚ}
    (hevent : event.reevaluates = true) (h : (m.handle now event).current = .ready) :
    (m.handle now event).isTransportLive now = true ∧
      (m.handle now event).anyDesiredFresh now = true := by
  -- either the event was ignored in a state that is not ready, or it ends by re-deriving
  have hspec : ∃ m' : MarketDataStateMachine, m.handle now event = m'.reevaluate now ∨
      m.handle now event = m ∧ ¬ m.current.Connected := by
    cases event with
    | onHeartbeat time => exact ⟨_, .inl rfl⟩
    | onFrame time => exact ⟨_, .inl rfl⟩
    | setDesiredInstruments tokens => exact ⟨_, .inl rfl⟩
    | onProcessingBacklog active => exact ⟨_, .inl rfl⟩
    | evaluate => exact ⟨_, .inl rfl⟩
    | onUsableDepth token time =>
        by_cases hstate : m.current = .disabled ∨ m.current = .authExpired
        · refine ⟨m, .inr ⟨if_pos hstate, ?_⟩⟩
          obtain hstate | hstate := hstate <;> (rw [hstate]; exact id)
        · exact ⟨_, .inl (if_neg hstate)⟩
    | onSubscriptionsConfirmed tokens =>
        by_cases hstate : m.current = .disabled ∨ m.current = .authExpired
        · refine ⟨m, .inr ⟨if_pos hstate, ?_⟩⟩
          obtain hstate | hstate := hstate <;> (rw [hstate]; exact id)
        · exact ⟨_, .inl (if_neg hstate)⟩
    | _ => cases hevent
  obtain ⟨m', hsame | ⟨hsame, hstate⟩⟩ := hspec
  · rw [hsame] at h ⊢
    obtain ⟨hlive, -, hfresh⟩ := evidence_of_ready h
    rw [reevaluate_eq]
    exact ⟨hlive, hfresh⟩
  · rw [hsame] at h
    rw [h] at hstate
    exact absurd trivial hstate

/-- An expired session is left only by a new connection attempt or by the switch. -/
theorem authExpired_handle {event : MarketDataEvent} {now : ℚ} (h : m.current = .authExpired)
    (hconnecting : event ≠ .onConnecting) (hswitch : ∀ enabled, event ≠ .setEnabled enabled) :
    (m.handle now event).current = .authExpired := by
  have hreevaluate : ∀ m' : MarketDataStateMachine, m'.current = .authExpired →
      (m'.reevaluate now).current = .authExpired := by
    intro m' hm'
    rw [reevaluate]
    simp only [hm']
  cases event with
  | onConnecting => exact absurd rfl hconnecting
  | setEnabled enabled => exact absurd rfl (hswitch enabled)
  | onSocketOpen => simp [handle, onSocketOpen, h]
  | onAuthenticated => simp [handle, onAuthenticated, h]
  | onUsableDepth token time => simp [handle, onUsableDepth, h]
  | onSubscriptionsConfirmed tokens => simp [handle, onSubscriptionsConfirmed, h]
  | onDisconnected => simp [handle, onDisconnected, h]
  | onSessionLost => simp [handle, onSessionLost, h]
  | onHeartbeat time => exact hreevaluate _ h
  | onFrame time => exact hreevaluate _ h
  | setDesiredInstruments tokens => exact hreevaluate _ h
  | onProcessingBacklog active => exact hreevaluate _ h
  | evaluate => exact hreevaluate _ h

end Supported

/-- The clock does not go back and no event reports a time in the future. -/
def Timely (events : List Occurrence) : Prop :=
  events.Pairwise (fun o o' => o.now ≤ o'.now) ∧ ∀ o ∈ events, ∀ t ∈ o.frameTime, t ≤ o.now

/-- A machine that is ready has a session that nothing ended since it was authorised, and no
backlog reported since then and not lifted. After an event that re-derives the state it also
has fresh usable depth of a desired instrument, observed in that session, and a recent
frame. No event but a new attempt to connect or the switch leaves an expired session. -/
theorem ready_is_live_and_delivering (opts : MarketDataStateMachineOptions)
    (events : List Occurrence) (o : Occurrence) :
    let m := (new opts).handleAll (events ++ [o])
    (m.current = .ready → ∃ before since time,
      events ++ [o] = before ++ ⟨time, .onAuthenticated⟩ :: since ∧
      (∀ x ∈ since, x.event.ends = false ∧ x.event ≠ .onAuthenticated) ∧
      (o.event.reevaluates = true →
        (∃ token ∈ m.desired, ∃ x ∈ since, ∃ t,
          x.depthTime token = some t ∧ o.now - t ≤ m.bookMaxAgeMs) ∧
        ∃ x ∈ events ++ [o], ∃ t,
          x.frameTime = some t ∧ o.now - t ≤ m.heartbeatMaxAgeMs) ∧
      lastBacklog since ≠ some true) ∧
    (m.current = .authExpired → ∀ now event, event ≠ .onConnecting →
      (∀ enabled, event ≠ .setEnabled enabled) →
        (m.handle now event).current = .authExpired) := by
  intro m
  refine ⟨fun hready => ?_, fun hexpired now event => authExpired_handle hexpired⟩
  have hsupported : m.Supported (events ++ [o]) := (supported_new opts).handleAll (events ++ [o])
  obtain ⟨before, since, time, hsession⟩ := hsupported.session (by rw [hready]; trivial)
  refine ⟨before, since, time, hsession.split, hsession.lasts, fun hevent => ?_, fun hlast => ?_⟩
  · have hm : m = ((new opts).handleAll events).handle o.now o.event := by
      show (events ++ [o]).foldl _ _ = _
      rw [List.foldl_append]
      rfl
    obtain ⟨hlive, hfresh⟩ := evidence_of_handle hevent (hm ▸ hready)
    rw [← hm] at hlive hfresh
    constructor
    · obtain ⟨token, htoken, hfresh⟩ := List.any_eq_true.mp hfresh
      rw [isInstrumentFresh] at hfresh
      split at hfresh
      · cases hfresh
      case h_2 d hd =>
        split at hfresh
        case isTrue hgen =>
          obtain ⟨x, hx, hdepth⟩ := hsession.depth token d hd hgen
          exact ⟨token, htoken, x, hx, d.time, hdepth, of_decide_eq_true hfresh⟩
        case isFalse => cases hfresh
    · rw [isTransportLive] at hlive
      split at hlive
      · cases hlive
      case h_2 frame hframe =>
        obtain ⟨x, hx, hfact⟩ := hsupported.frame frame hframe
        exact ⟨x, hx, frame, hfact, of_decide_eq_true hlive⟩
  · have hbacklog := hsession.backlog
    rw [hlast, hsupported.ready hready] at hbacklog
    cases hbacklog

/-- Ingestion is reported backed up, the socket reconnects, and depth arrives. -/
def reconnectRun : List Occurrence :=
  [⟨0, .setDesiredInstruments [.finite 1]⟩, ⟨0, .onConnecting⟩, ⟨1, .onSocketOpen⟩,
   ⟨2, .onAuthenticated⟩, ⟨3, .onProcessingBacklog true⟩, ⟨4, .onDisconnected⟩,
   ⟨5, .onConnecting⟩, ⟨6, .onSocketOpen⟩, ⟨7, .onAuthenticated⟩,
   ⟨8, .onUsableDepth (.finite 1) none⟩]

/-- The machine is then ready although the last report was never lifted. -/
theorem backlog_forgotten_on_reconnect :
    ¬ ∀ (opts : MarketDataStateMachineOptions) (events : List Occurrence), Timely events →
      ((new opts).handleAll events).current = .ready → lastBacklog events ≠ some true := by
  intro h
  have htimely : Timely reconnectRun := by
    rw [Timely, reconnectRun]
    refine ⟨by decide +kernel, by decide +kernel⟩
  exact h { enabled := true } reconnectRun htimely (by decide +kernel) (by decide +kernel)

end MarketDataStateMachine

end Strikedge.StreamHealth
