import Mathlib.Data.List.Perm.Basic
import Strikedge.BrokerTokens.Schedule

/-!
# What a ready broker has

The books of a broker record the login date of the token that each suspended call installs, the
last token persisted and the day for which the store has answered that it has one; an auth
failure strikes the last two out. A broker that is ready for a day should have one of them for
that day, and it should acquire one token at a time.
-/

namespace Strikedge.BrokerTokens

open Machine

/-- The books of one broker, with an entry for every suspended call. -/
structure Book where
  tokens : List (Option IstDay) := []
  persisted : Option IstDay := none
  answered : Option IstDay := none
  deriving DecidableEq, Repr

namespace Book

variable (book : Book)

def drop (call : Nat) : Book := { book with tokens := book.tokens.eraseIdx call }

/-- A new call is entered with the token it installs. -/
def pad (rt : BrokerRuntime) (token : Option IstDay) : Book :=
  { book with
    tokens := book.tokens ++
      List.replicate (rt.activities.length - book.tokens.length) token }

/-- The login date of the token a call installs. -/
def tokenOf (call : Nat) : Option IstDay := (book.tokens[call]?).join

/-- What an event says of the tokens. -/
def note (rt : BrokerRuntime) : Event → Book
  | .storedToken call (.ok true) =>
    match rt.activities[call]? with
    | some (.scheduling begun) => { book with answered := some (istDayKey begun) }
    | _ => book
  | .installed call (.ok ()) _ =>
    match rt.activities[call]? with
    | some (.installing _ .save) => { book with persisted := book.tokenOf call }
    | _ => book
  | .onExternalAuthFailure _ => { book with persisted := none, answered := none }
  | _ => book

/-- The books after an event. A token that a fetch brings has a login date, and the calls of its
install keep it. -/
def record (rt next : BrokerRuntime) (loginDate : IstDay) (event : Event) : Book :=
  let noted := book.note rt event
  match event with
  | .fire | .onExternalAuthFailure _ => noted.pad next none
  | .storedToken call _ | .invalidated call | .handedOver call => (noted.drop call).pad next none
  | .fetched call _ => (noted.drop call).pad next (some loginDate)
  | .installed call _ _ => (noted.drop call).pad next (book.tokenOf call)

end Book

/-- Between the request of a token and the end of its install. -/
def Activity.acquiring : Activity → Bool
  | .fetching => true
  | .installing _ _ => true
  | _ => false

/-- One acquisition at a time. -/
def Alone (rt : BrokerRuntime) : Prop := rt.activities.countP Activity.acquiring ≤ 1

/-- A broker that is ready for a day has persisted a token of that day, or the store has
answered so, and no auth failure has come after it. -/
def Truthful (rt : BrokerRuntime) (book : Book) : Prop :=
  rt.state = .ready → ∀ day, rt.readyForDay = some day →
    book.persisted = some day ∨ book.answered = some day

/-- An attempt at this instant would request a token. -/
def Begins (at' : Instant) (rt : BrokerRuntime) : Prop :=
  at'.stopped = false ∧ rt.inFlight = false ∧ rt.readyForDay ≠ some (istDayKey at'.now)

/-- No token is being installed. -/
def Uninstalling (rt : BrokerRuntime) : Prop :=
  ∀ day stage, Activity.installing day stage ∉ rt.activities

/-- No token is requested while one is being installed, and an install ends on the day its token
was made for, with no auth failure since the token was persisted. -/
def Orderly (opts : BrokerTokenServiceOptions) (at' : Instant) (rt : BrokerRuntime)
    (book : Book) : Event → Prop
  | .fire => Begins at' rt → Uninstalling rt
  | .storedToken call (.ok false) =>
    ∀ begun, rt.activities[call]? = some (.scheduling begun) →
      isAtOrAfterIstTime begun opts.pollStart = true → Begins at' rt → Uninstalling rt
  | .installed call (.ok ()) active =>
    ∀ day stage, rt.activities[call]? = some (.installing day stage) → Last stage active →
      book.tokenOf call = some day ∧ book.persisted ≠ none ∨ book.answered = some day
  | _ => True

/-- What the books say of a broker in orderly runs. A call that acquires has taken the day off
the broker, so that only the store can have given it back. -/
structure Kept (rt : BrokerRuntime) (book : Book) : Prop where
  aligned : book.tokens.length = rt.activities.length
  flight : .fetching ∈ rt.activities → rt.inFlight = true
  backed : ∀ day, rt.readyForDay = some day →
    book.persisted = some day ∨ book.answered = some day
  busy : ∀ activity ∈ rt.activities, activity.acquiring = true →
    ∀ day, rt.readyForDay = some day → book.answered = some day
  saved : ∀ call day stage, rt.activities[call]? = some (.installing day stage) →
    stage ≠ .save → book.persisted = none ∨ book.persisted = book.tokenOf call

section Broker

variable {opts : BrokerTokenServiceOptions} {at' : Instant} {rt next : BrokerRuntime}
variable {book : Book} {call : Nat} {activity : Activity} {token : Option IstDay}

/-- The same for the books: the suspended calls, the request in flight and the day. -/
structure Alike (rt next : BrokerRuntime) : Prop where
  activities : next.activities = rt.activities
  inFlight : next.inFlight = rt.inFlight
  readyForDay : next.readyForDay = rt.readyForDay

theorem Alike.arm {delay : Int} {callback : TimerCallback} (h : Alike rt next) :
    Alike rt (next.arm at' delay callback) := by
  rw [BrokerRuntime.arm]
  split
  · exact h
  · exact ⟨h.activities, h.inFlight, h.readyForDay⟩

/-- The broker without one of its suspended calls. -/
def BrokerRuntime.without (rt : BrokerRuntime) (call : Nat) : BrokerRuntime :=
  { rt with activities := rt.activities.eraseIdx call }

theorem resume_spec (h : rt.resume call = some (activity, next)) :
    rt.activities[call]? = some activity ∧ next = rt.without call := by
  obtain ⟨found, hfound, heq⟩ := Option.map_eq_some_iff.mp h
  obtain ⟨rfl, rfl⟩ := Prod.mk.inj heq
  exact ⟨hfound, rfl⟩

theorem Kept.truthful (h : Kept rt book) : Truthful rt book := fun _ => h.backed

theorem Kept.congr (h : Kept rt book) (hlike : Alike rt next) : Kept next book where
  aligned := hlike.activities ▸ h.aligned
  flight hmem := hlike.inFlight ▸ h.flight (hlike.activities ▸ hmem)
  backed day hready := h.backed day (hlike.readyForDay ▸ hready)
  busy activity hmem hacquires day hready :=
    h.busy activity (hlike.activities ▸ hmem) hacquires day (hlike.readyForDay ▸ hready)
  saved call day stage hcall := h.saved call day stage (hlike.activities ▸ hcall)

/-- The entries of calls and tokens keep their places together. -/
theorem getElem?_eraseIdx_aligned (call i : Nat) :
    ∃ j, (rt.activities.eraseIdx call)[i]? = rt.activities[j]? ∧
      (book.drop call).tokenOf i = book.tokenOf j := by
  simp only [Book.tokenOf, Book.drop, List.getElem?_eraseIdx]
  by_cases hbefore : i < call
  · exact ⟨i, by rw [if_pos hbefore], by rw [if_pos hbefore]⟩
  · exact ⟨i + 1, by rw [if_neg hbefore], by rw [if_neg hbefore]⟩

/-- A call that ends. -/
theorem Kept.drop (h : Kept rt book) (hcall : rt.activities[call]? = some activity) :
    Kept (rt.without call) (book.drop call) where
  aligned := by
    obtain ⟨hlt, -⟩ := List.getElem?_eq_some_iff.mp hcall
    show (book.tokens.eraseIdx call).length = (rt.activities.eraseIdx call).length
    rw [List.length_eraseIdx, List.length_eraseIdx, h.aligned]
  flight hmem := h.flight (List.mem_of_mem_eraseIdx hmem)
  backed := h.backed
  busy activity hmem := h.busy activity (List.mem_of_mem_eraseIdx hmem)
  saved i day stage hi hstage := by
    obtain ⟨j, hj, htoken⟩ := @getElem?_eraseIdx_aligned rt book call i
    rw [htoken]
    exact h.saved j day stage (hj ▸ hi) hstage

/-- No call begins. -/
theorem Kept.rest (h : Kept rt book) (hlike : Alike rt next) :
    Kept next (book.pad next token) := by
  have hkept := h.congr hlike
  have hpad : book.pad next token = book := by
    rw [Book.pad, hkept.aligned, Nat.sub_self, List.replicate_zero, List.append_nil]
  rw [hpad]
  exact hkept

/-- A call begins. -/
theorem Kept.push (h : Kept rt book) (hactivities : next.activities = rt.activities ++ [activity])
    (hflight : rt.inFlight = true ∨ activity = .fetching → next.inFlight = true)
    (hday : ∀ day, next.readyForDay = some day → rt.readyForDay = some day)
    (hbusy : activity.acquiring = true → ∀ day, next.readyForDay = some day →
      book.answered = some day)
    (hsaved : ∀ day stage, activity = .installing day stage → stage ≠ .save →
      book.persisted = none ∨ book.persisted = token) :
    Kept next (book.pad next token) := by
  have hpad : book.pad next token = { book with tokens := book.tokens ++ [token] } := by
    rw [Book.pad, hactivities, List.length_append, List.length_singleton, h.aligned,
      Nat.add_sub_cancel_left, List.replicate_one]
  rw [hpad]
  refine ⟨?_, fun hmem => hflight ?_, fun day hready => h.backed day (hday day hready), ?_, ?_⟩
  · rw [hactivities, List.length_append, List.length_append, h.aligned]
    rfl
  · rw [hactivities, List.mem_append, List.mem_singleton] at hmem
    exact hmem.imp h.flight Eq.symm
  · intro other hmem hacquires day hready
    rw [hactivities, List.mem_append, List.mem_singleton] at hmem
    obtain hmem | rfl := hmem
    · exact h.busy other hmem hacquires day (hday day hready)
    · exact hbusy hacquires day hready
  · intro call day stage hcall hstage
    rw [hactivities] at hcall
    by_cases hold : call < rt.activities.length
    · rw [List.getElem?_append_left hold] at hcall
      have htoken := h.saved call day stage hcall hstage
      have hsame : (book.tokens ++ [token])[call]? = book.tokens[call]? :=
        List.getElem?_append_left (h.aligned ▸ hold)
      rw [Book.tokenOf, hsame]
      exact htoken
    · obtain ⟨hlt, hlast⟩ := List.getElem?_eq_some_iff.mp hcall
      rw [List.length_append, List.length_singleton] at hlt
      obtain rfl : call = rt.activities.length := by omega
      rw [List.getElem_concat_length rfl] at hlast
      have htoken := hsaved day stage hlast hstage
      rw [← h.aligned, Book.tokenOf, List.getElem?_concat_length]
      exact htoken

/-- An auth failure takes everything from the broker. -/
theorem Kept.strike (h : Kept rt book) :
    Kept { rt with readyForDay := none } { book with persisted := none, answered := none } where
  aligned := h.aligned
  flight := h.flight
  backed _ hready := nomatch hready
  busy _ _ _ _ hready := nomatch hready
  saved _ _ _ _ _ := .inl rfl

/-- The store answers that it has a token of the day. -/
theorem Kept.answer (h : Kept rt book) (day : IstDay) :
    Kept { rt with readyForDay := some day } { book with answered := some day } where
  aligned := h.aligned
  flight := h.flight
  backed _ hready := .inr hready
  busy _ _ _ _ hready := hready
  saved := h.saved

/-- Where nothing is being acquired, the books only have to account for the day. -/
theorem Kept.of_none (haligned : book.tokens.length = next.activities.length)
    (hnone : ∀ activity ∈ next.activities, ¬ activity.acquiring = true)
    (hbacked : ∀ day, next.readyForDay = some day →
      book.persisted = some day ∨ book.answered = some day) : Kept next book where
  aligned := haligned
  flight hmem := absurd rfl (hnone _ hmem)
  backed := hbacked
  busy activity hmem hacquires := absurd hacquires (hnone activity hmem)
  saved _ _ _ hcall := absurd rfl (hnone _ (List.mem_of_getElem? hcall))

theorem Alone.congr (h : Alone rt) (hlike : Alike rt next) : Alone next := by
  rw [Alone, hlike.activities]
  exact h

theorem countP_eraseIdx (hcall : rt.activities[call]? = some activity) :
    rt.activities.countP Activity.acquiring =
      (rt.activities.eraseIdx call).countP Activity.acquiring +
        if activity.acquiring then 1 else 0 := by
  obtain ⟨hlt, rfl⟩ := List.getElem?_eq_some_iff.mp hcall
  rw [← List.Perm.countP_eq _ (List.getElem_cons_eraseIdx_perm hlt), List.countP_cons]

/-- Where the only acquisition ends, none is left. -/
theorem Alone.none_left (h : Alone rt) (hcall : rt.activities[call]? = some activity)
    (hacquires : activity.acquiring = true) :
    ∀ other ∈ (rt.without call).activities, ¬ other.acquiring = true := by
  have hcount := countP_eraseIdx hcall
  rw [if_pos hacquires] at hcount
  rw [Alone] at h
  have hzero : (rt.activities.eraseIdx call).countP Activity.acquiring = 0 := by omega
  exact List.countP_eq_zero.mp hzero

theorem Alone.drop (h : Alone rt) (hcall : rt.activities[call]? = some activity) :
    Alone (rt.without call) := by
  have hcount := countP_eraseIdx hcall
  rw [Alone] at h ⊢
  show (rt.activities.eraseIdx call).countP Activity.acquiring ≤ 1
  omega

theorem alone_push (hactivities : next.activities = rt.activities ++ [activity]) :
    Alone next ↔ rt.activities.countP Activity.acquiring +
      (if activity.acquiring then 1 else 0) ≤ 1 := by
  rw [Alone, hactivities, List.countP_append, List.countP_singleton]

/-- A call that does not acquire leaves the acquisitions as they are. -/
theorem Alone.push (h : Alone rt) (hactivities : next.activities = rt.activities ++ [activity])
    (hother : activity.acquiring = false) : Alone next := by
  rw [alone_push hactivities, if_neg (hother ▸ Bool.false_ne_true)]
  exact h

/-- The next call of an acquisition takes the place of the last one. -/
theorem Alone.replace (h : Alone rt) {ended : Activity}
    (hcall : rt.activities[call]? = some ended) (hacquires : ended.acquiring = true)
    (hactivities : next.activities = (rt.without call).activities ++ [activity]) :
    Alone next := by
  have hzero : (rt.without call).activities.countP Activity.acquiring = 0 :=
    List.countP_eq_zero.mpr (h.none_left hcall hacquires)
  rw [alone_push hactivities, hzero]
  split <;> omega

theorem attempt_spec (at' : Instant) (rt : BrokerRuntime) :
    ¬ Begins at' rt ∧ Alike rt (rt.attempt at') ∨
      Begins at' rt ∧ (rt.attempt at').activities = rt.activities ++ [.fetching] ∧
        (rt.attempt at').inFlight = true ∧ (rt.attempt at').readyForDay = none := by
  rw [BrokerRuntime.attempt]
  split
  · rename_i hearly
    refine .inl ⟨fun hbegins => ?_, rfl, rfl, rfl⟩
    rw [hbegins.1, hbegins.2.1] at hearly
    cases hearly
  · rename_i hearly
    obtain ⟨hrunning, hidle⟩ := Bool.or_eq_false_iff.mp (Bool.not_eq_true _ ▸ hearly)
    dsimp only
    split
    · rename_i hother
      have hday : rt.readyForDay ≠ some (istDayKey at'.now) :=
        of_decide_eq_true ((Bool.and_eq_true _ _).mp hother).2
      rw [if_neg (by simp)]
      exact .inr ⟨⟨hrunning, hidle, hday⟩, rfl, rfl, rfl⟩
    · rename_i hsame
      split
      · rename_i hready
        exact .inl ⟨fun h => h.2.2 hready, rfl, rfl, rfl⟩
      · rename_i hday
        refine .inr ⟨⟨hrunning, hidle, hday⟩, rfl, rfl, ?_⟩
        show rt.readyForDay = none
        cases hready : rt.readyForDay with
        | none => rfl
        | some day =>
          rw [hready, Option.isSome_some, Bool.true_and, decide_eq_true_eq, not_not] at hsame
          exact absurd (hready.trans hsame) hday

/-- An attempt keeps the books, and it keeps to one acquisition when no token is being
installed. -/
theorem Kept.attempt (at' : Instant) (hk : Kept rt book) (halone : Alone rt) :
    Kept (rt.attempt at') (book.pad (rt.attempt at') none) ∧
      (Alone (rt.attempt at') ↔ Begins at' rt → Uninstalling rt) := by
  obtain ⟨hrests, hlike⟩ | ⟨hbegins, hactivities, hflight, hday⟩ := attempt_spec at' rt
  · exact ⟨hk.rest hlike, fun _ h => absurd h hrests, fun _ => halone.congr hlike⟩
  · have hnone : ∀ day, (rt.attempt at').readyForDay ≠ some day := by
      intro day hready
      rw [hday] at hready
      cases hready
    refine ⟨hk.push hactivities (fun _ => hflight) (fun day hready => absurd hready (hnone day))
      (fun _ day hready => absurd hready (hnone day)) nofun, ?_⟩
    have hidle : .fetching ∉ rt.activities := by
      intro hmem
      have hflying := hk.flight hmem
      rw [hbegins.2.1] at hflying
      cases hflying
    rw [alone_push hactivities]
    show _ + 1 ≤ 1 ↔ _
    constructor
    · intro hcount _ day stage hmem
      have hzero : rt.activities.countP Activity.acquiring = 0 := by omega
      exact List.countP_eq_zero.mp hzero _ hmem rfl
    · intro h
      have hzero : rt.activities.countP Activity.acquiring = 0 := by
        refine List.countP_eq_zero.mpr fun activity hmem hacquires => ?_
        cases activity with
        | fetching => exact hidle hmem
        | installing day stage => exact h hbegins day stage hmem
        | scheduling now => cases hacquires
        | invalidating reason => cases hacquires
        | protecting => cases hacquires
      omega

/-- A step is as it should be, and keeps the books where it is. -/
def Exactly (next : BrokerRuntime) (after : Book) (C : Prop) : Prop :=
  (Alone next ∧ Truthful next after ↔ C) ∧ (C → Kept next after)

theorem Kept.exactly {C : Prop} (h : Kept next book) (halone : Alone next ↔ C) :
    Exactly next book C :=
  ⟨⟨fun hnext => halone.mp hnext.1, fun hC => ⟨halone.mpr hC, h.truthful⟩⟩, fun _ => h⟩

theorem Kept.always (h : Kept next book) (halone : Alone next) : Exactly next book True :=
  h.exactly (iff_of_true halone trivial)

theorem uninstalling_without {begun : Nat}
    (hcall : rt.activities[call]? = some (.scheduling begun)) :
    Uninstalling (rt.without call) ↔ Uninstalling rt := by
  refine forall_congr' fun day => forall_congr' fun stage => not_congr ?_
  constructor
  · exact List.mem_of_mem_eraseIdx
  · intro hmem
    obtain ⟨i, hi⟩ := List.mem_iff_getElem?.mp hmem
    refine List.mem_eraseIdx_iff_getElem?.mpr ⟨i, ?_, hi⟩
    rintro rfl
    rw [hcall] at hi
    cases hi

theorem Kept.scheduleBroker (hk : Kept rt book) (halone : Alone rt) :
    Alone (rt.scheduleBroker at') ∧
      Kept (rt.scheduleBroker at') (book.pad (rt.scheduleBroker at') none) := by
  -- The day is a name here, since its digits are costly to compare.
  have hcases : rt.scheduleBroker at' = rt ∨ ∃ today, rt.scheduleBroker at' =
      { rt with istDay := today }.suspend (.scheduling at'.now) := by
    rw [BrokerRuntime.scheduleBroker]
    split
    · exact .inl rfl
    · exact .inr ⟨_, rfl⟩
  obtain hsame | ⟨today, hscheduled⟩ := hcases
  · rw [hsame]
    exact ⟨halone, hk.rest ⟨rfl, rfl, rfl⟩⟩
  · rw [hscheduled]
    exact ⟨halone.push rfl rfl, hk.push rfl (fun h => h.resolve_right (by simp)) (fun _ h => h)
      (by rintro ⟨⟩) (by simp)⟩

/-- The store has answered. -/
theorem scheduled_exactly {begun : Nat} {answer : Except (Option String) Bool}
    (hk : Kept rt book) (halone : Alone rt)
    (hcall : rt.activities[call]? = some (.scheduling begun))
    (hnext : next = (rt.without call).scheduled opts at' begun answer) (loginDate : IstDay) :
    Exactly next (book.record rt next loginDate (.storedToken call answer))
      (Orderly opts at' rt book (.storedToken call answer)) := by
  have hdrop := hk.drop hcall
  have hleft := halone.drop hcall
  subst hnext
  cases answer with
  | error error =>
    have hlike : Alike (rt.without call) ((rt.without call).scheduled opts at' begun
        (.error error)) := .arm ⟨rfl, rfl, rfl⟩
    exact Kept.always (hdrop.rest hlike) (hleft.congr hlike)
  | ok stored =>
    cases stored with
    | true =>
      have hnote : book.note rt (.storedToken call (.ok true)) =
          { book with answered := some (istDayKey begun) } := by
        rw [Book.note, hcall]
      rw [Book.record, hnote]
      exact Kept.always ((hdrop.answer (istDayKey begun)).rest ⟨rfl, rfl, rfl⟩) hleft
    | false =>
      have honly : ∀ other, rt.activities[call]? = some (.scheduling other) → begun = other := by
        intro other hother
        rw [hcall] at hother
        exact Activity.scheduling.inj (Option.some.inj hother)
      rw [BrokerRuntime.scheduled]
      split
      · rename_i hdue
        have hpolling : Kept ((rt.without call).setState .polling) (book.drop call) :=
          hdrop.congr ⟨rfl, rfl, rfl⟩
        obtain ⟨hkept, hiff⟩ := hpolling.attempt at' hleft
        have hidle : Uninstalling ((rt.without call).setState .polling) ↔ Uninstalling rt :=
          uninstalling_without hcall
        refine hkept.exactly (hiff.trans ⟨fun h _ _ _ hbegins => ?_, fun h hbegins => ?_⟩)
        · exact hidle.mp (h hbegins)
        · exact hidle.mpr (h begun hcall hdue hbegins)
      · rename_i hearly
        have hlike : Alike (rt.without call) (((rt.without call).setState .waiting).arm at'
            (msUntilNextDailyTime begun opts.pollStart) .poll) := .arm ⟨rfl, rfl, rfl⟩
        refine Kept.exactly (hdrop.rest hlike) (iff_of_true (hleft.congr hlike) ?_)
        intro other hother hdue
        exact absurd (honly other hother ▸ hdue) hearly

/-- The provider has answered. -/
theorem fetched_exactly {answer : Except (Option String) TokenFetchResult}
    {result : TokenFetchResult} (hk : Kept rt book) (halone : Alone rt)
    (hcall : rt.activities[call]? = some .fetching)
    (hnext : next = { rt.without call with inFlight := false }.handleResult opts at' result)
    (loginDate : IstDay) :
    Exactly next (book.record rt next loginDate (.fetched call answer)) True := by
  have hnone := halone.none_left hcall rfl
  have hleft : Alone { rt.without call with inFlight := false } := halone.drop hcall
  have hidle : Kept { rt.without call with inFlight := false } (book.drop call) :=
    .of_none (hk.drop hcall).aligned hnone hk.backed
  have hrest : Alike { rt.without call with inFlight := false } next →
      Exactly next ((book.drop call).pad next (some loginDate)) True :=
    fun hlike => Kept.always (hidle.rest hlike) (hleft.congr hlike)
  show Exactly next ((book.drop call).pad next (some loginDate)) True
  cases result with
  | ready =>
    have hactivities : next.activities =
        (rt.without call).activities ++ [.installing (istDayKey at'.now) .save] := hnext ▸ rfl
    have hday : next.readyForDay = rt.readyForDay := by
      rw [hnext]
      rfl
    refine Kept.always (hidle.push hactivities (fun h => ?_) (fun day hready => ?_)
      (fun _ day hready => ?_) fun day stage heq hstage => ?_)
      (halone.replace hcall rfl hactivities)
    · obtain hflying | hfetching := h
      · cases hflying
      · cases hfetching
    · exact hday.symm.trans hready
    · exact hk.busy .fetching (List.mem_of_getElem? hcall) rfl day (hday.symm.trans hready)
    · exact absurd (Activity.installing.inj heq).2.symm hstage
  | retry reason => exact hrest (hnext ▸ .arm ⟨rfl, rfl, rfl⟩)
  | configurationError reason => exact hrest (hnext ▸ ⟨rfl, rfl, rfl⟩)
  | blocker reason => exact hrest (hnext ▸ .arm ⟨rfl, rfl, rfl⟩)
  | securityError reason => exact hrest (hnext ▸ ⟨rfl, rfl, rfl⟩)

theorem Exactly.of_true {C : Prop} (h : Exactly next book True) (hC : C) : Exactly next book C :=
  ⟨⟨fun _ => hC, fun _ => h.1.mpr trivial⟩, fun _ => h.2 trivial⟩

/-- The next call of an install. Only the store can have given the broker a day meanwhile. -/
theorem Kept.installing {day : IstDay} {stage other : InstallStage} {after : Book}
    (hk : Kept rt book) (halone : Alone rt)
    (hcall : rt.activities[call]? = some (.installing day stage))
    (haligned : after.tokens = (book.drop call).tokens) (hanswered : after.answered = book.answered)
    (hpersisted : after.persisted = none ∨ after.persisted = book.tokenOf call)
    (hlike : Alike ((rt.without call).suspend (.installing day other)) next) :
    Exactly next (after.pad next (book.tokenOf call)) True := by
  have hstored : ∀ today, rt.readyForDay = some today → after.answered = some today := by
    intro today hready
    rw [hanswered]
    exact hk.busy _ (List.mem_of_getElem? hcall) rfl today hready
  have hafter : Kept (rt.without call) after :=
    .of_none (haligned ▸ (hk.drop hcall).aligned) (halone.none_left hcall rfl)
      fun today hready => .inr (hstored today hready)
  refine Kept.always (hafter.push hlike.activities (fun h => ?_) (fun today hready => ?_)
    (fun _ today hready => ?_) fun _ _ _ _ => hpersisted)
    (halone.replace hcall rfl hlike.activities)
  · obtain hflying | hfetching := h
    · exact hlike.inFlight.trans hflying
    · cases hfetching
  · exact hlike.readyForDay.symm.trans hready
  · exact hstored today (hlike.readyForDay.symm.trans hready)

/-- An install that ends is truthful when its token is of the day and has not been struck out. -/
theorem Kept.succeed {day : IstDay} {stage : InstallStage} (hk : Kept rt book)
    (halone : Alone rt) (hcall : rt.activities[call]? = some (.installing day stage))
    (hstage : stage ≠ .save) (hnext : next = (rt.without call).succeed at' day) :
    Exactly next ((book.drop call).pad next (book.tokenOf call))
      (book.tokenOf call = some day ∧ book.persisted ≠ none ∨ book.answered = some day) := by
  have hdrop := hk.drop hcall
  have hpad : (book.drop call).pad next (book.tokenOf call) = book.drop call := by
    have haligned : (book.drop call).tokens.length = next.activities.length :=
      hnext ▸ hdrop.aligned
    rw [Book.pad, haligned, Nat.sub_self, List.replicate_zero, List.append_nil]
  have hbacked : book.tokenOf call = some day ∧ book.persisted ≠ none ∨
      book.answered = some day ↔ book.persisted = some day ∨ book.answered = some day := by
    refine or_congr_left ⟨fun ⟨htoken, hpersisted⟩ => ?_, fun hpersisted => ?_⟩
    · obtain hnone | hsame := hk.saved call day stage hcall hstage
      · exact absurd hnone hpersisted
      · exact hsame.trans htoken
    · obtain hnone | hsame := hk.saved call day stage hcall hstage
      · rw [hnone] at hpersisted
        cases hpersisted
      · exact ⟨hsame.symm.trans hpersisted, fun hnone => nomatch hnone.symm.trans hpersisted⟩
  rw [hpad, hbacked]
  subst hnext
  refine ⟨⟨fun h => h.2 rfl day rfl, fun h => ⟨halone.drop hcall, fun _ today htoday => ?_⟩⟩,
    fun h => .of_none hdrop.aligned (halone.none_left hcall rfl) fun today htoday => ?_⟩
  · exact Option.some.inj htoday ▸ h
  · exact Option.some.inj htoday ▸ h

/-- An install has got to its next call, or to its end. -/
theorem installed_exactly {day : IstDay} {stage : InstallStage} {active : Bool}
    (hk : Kept rt book) (halone : Alone rt)
    (hcall : rt.activities[call]? = some (.installing day stage))
    (hnext : next = (rt.without call).installNext at' day active stage) (loginDate : IstDay) :
    Exactly next (book.record rt next loginDate (.installed call (.ok ()) active))
      (Orderly opts at' rt book (.installed call (.ok ()) active)) := by
  have honly : Orderly opts at' rt book (.installed call (.ok ()) active) ↔
      (Last stage active →
        book.tokenOf call = some day ∧ book.persisted ≠ none ∨ book.answered = some day) := by
    constructor
    · exact fun h => h day stage hcall
    · intro h other stage' hother
      obtain ⟨rfl, rfl⟩ := Activity.installing.inj
        (Option.some.inj (hcall.symm.trans hother))
      exact h
  rw [honly]
  cases stage with
  | save =>
    have hnote : book.note rt (.installed call (.ok ()) active) =
        { book with persisted := book.tokenOf call } := by
      rw [Book.note, hcall]
    rw [Book.record, hnote]
    have hlike : Alike ((rt.without call).suspend (.installing day .install)) next :=
      hnext ▸ ⟨rfl, rfl, rfl⟩
    refine Exactly.of_true (hk.installing halone hcall rfl rfl (.inr rfl) hlike) ?_
    rintro (hlast | ⟨hlast, -⟩)
    · cases hlast
    · cases hlast
  | install =>
    have hnote : book.note rt (.installed call (.ok ()) active) = book := by
      rw [Book.note, hcall]
    rw [Book.record, hnote]
    cases active with
    | true =>
      have hsaved := hk.saved call day .install hcall nofun
      have hlike : Alike ((rt.without call).suspend (.installing day .activeBrokerReady)) next :=
        hnext ▸ ⟨rfl, rfl, rfl⟩
      refine Exactly.of_true (hk.installing halone hcall rfl rfl hsaved hlike) ?_
      rintro (hlast | ⟨-, hlast⟩)
      · cases hlast
      · cases hlast
    | false =>
      rw [forall_prop_of_true (.inr ⟨rfl, rfl⟩)]
      exact hk.succeed halone hcall nofun hnext
  | activeBrokerReady =>
    have hnote : book.note rt (.installed call (.ok ()) active) = book := by
      rw [Book.note, hcall]
    rw [Book.record, hnote, forall_prop_of_true (.inl rfl)]
    exact hk.succeed halone hcall nofun hnext

/-- One event of a broker. -/
theorem react_exactly {event : Event} (hk : Kept rt book) (halone : Alone rt)
    (h : rt.react opts at' event = some next) (loginDate : IstDay) :
    Exactly next (book.record rt next loginDate event) (Orderly opts at' rt book event) := by
  cases event with
  | fire =>
    obtain ⟨timer, -, h⟩ := Option.bind_eq_some_iff.mp h
    dsimp only at h
    split at h
    · have hquiet : Kept { rt with timer := none } book := hk.congr ⟨rfl, rfl, rfl⟩
      split at h
      · rename_i hstopped
        cases h
        refine Kept.exactly (hquiet.rest ⟨rfl, rfl, rfl⟩) (iff_of_true halone fun hbegins => ?_)
        rw [hbegins.1] at hstopped
        cases hstopped
      · split at h
        · cases h
          have hpolling : Kept ({ rt with timer := none }.setState .polling) book :=
            hk.congr ⟨rfl, rfl, rfl⟩
          obtain ⟨hkept, hiff⟩ := hpolling.attempt at' halone
          exact hkept.exactly hiff
        · cases h
          obtain ⟨hkept, hiff⟩ := hquiet.attempt at' halone
          exact hkept.exactly hiff
    · cases h
  | storedToken call answer =>
    obtain ⟨⟨activity, rest⟩, hresume, h⟩ := Option.bind_eq_some_iff.mp h
    obtain ⟨hcall, rfl⟩ := resume_spec hresume
    cases activity with
    | scheduling begun =>
      exact scheduled_exactly hk halone hcall (Option.some.inj h).symm loginDate
    | _ => cases h
  | fetched call answer =>
    obtain ⟨⟨activity, rest⟩, hresume, h⟩ := Option.bind_eq_some_iff.mp h
    obtain ⟨hcall, rfl⟩ := resume_spec hresume
    cases activity with
    | fetching =>
      cases answer with
      | ok result => exact fetched_exactly hk halone hcall (Option.some.inj h).symm loginDate
      | error error => exact fetched_exactly hk halone hcall (Option.some.inj h).symm loginDate
    | _ => cases h
  | installed call answer active =>
    obtain ⟨⟨activity, rest⟩, hresume, h⟩ := Option.bind_eq_some_iff.mp h
    obtain ⟨hcall, rfl⟩ := resume_spec hresume
    cases activity with
    | installing day stage =>
      cases answer with
      | ok done => exact installed_exactly hk halone hcall (Option.some.inj h).symm loginDate
      | error error =>
        cases h
        have hlike : Alike (rt.without call) ((rt.without call).installFailed opts at' error) :=
          .arm ⟨rfl, rfl, rfl⟩
        exact Kept.always ((hk.drop hcall).rest hlike) ((halone.drop hcall).congr hlike)
    | _ => cases h
  | onExternalAuthFailure reason =>
    cases h
    exact Kept.always (hk.strike.push rfl (fun h => h.resolve_right nofun) (fun _ h => h)
      nofun nofun) (halone.push rfl rfl)
  | invalidated call =>
    obtain ⟨⟨activity, rest⟩, hresume, h⟩ := Option.bind_eq_some_iff.mp h
    obtain ⟨hcall, rfl⟩ := resume_spec hresume
    cases activity with
    | invalidating reason =>
      cases h
      exact Kept.always ((hk.drop hcall).push rfl (fun h => h.resolve_right nofun)
        (fun _ h => h) nofun nofun) ((halone.drop hcall).push rfl rfl)
    | _ => cases h
  | handedOver call =>
    obtain ⟨⟨activity, rest⟩, hresume, h⟩ := Option.bind_eq_some_iff.mp h
    obtain ⟨hcall, rfl⟩ := resume_spec hresume
    cases activity with
    | protecting =>
      have hlike : Alike (rt.without call) next := by
        rw [← Option.some.inj h]
        split
        · exact ⟨rfl, rfl, rfl⟩
        · exact .arm ⟨rfl, rfl, rfl⟩
      exact Kept.always ((hk.drop hcall).rest hlike) ((halone.drop hcall).congr hlike)
    | _ => cases h

end Broker

/-- The service with its books. -/
structure Ledger where
  service : State
  books : BrokerKind → Book := fun _ => {}

namespace Ledger

def new (now : Nat) : Ledger where
  service := .new now

/-- A step, with the login date of the token that it may bring. -/
def step (opts : BrokerTokenServiceOptions) (l : Ledger) (a : Action × IstDay) :
    Option Ledger :=
  (l.service.step opts a.1).map fun after =>
    { service := after
      books := fun b => match a.1 with
        | .broker broker event =>
          if b = broker then
            (l.books b).record (l.service.runtimes b) (after.runtimes b) a.2 event
          else l.books b
        | _ => (l.books b).pad (after.runtimes b) none }

/-- Every broker acquires one token at a time and is ready for a day whose token it has. -/
def Reliable (l : Ledger) : Prop :=
  ∀ b, Alone (l.service.runtimes b) ∧ Truthful (l.service.runtimes b) (l.books b)

def Orderly (opts : BrokerTokenServiceOptions) (l : Ledger) (a : Action × IstDay) : Prop :=
  match a.1 with
  | .broker b event =>
    BrokerTokens.Orderly opts l.service.instant (l.service.runtimes b) (l.books b) event
  | _ => True

/-- The books of all brokers are kept. -/
def Audited (l : Ledger) : Prop := ∀ b, Kept (l.service.runtimes b) (l.books b)

variable {opts : BrokerTokenServiceOptions} {l after : Ledger} {a : Action × IstDay}

theorem audited_new (now : Nat) : Audited (new now) := fun _ =>
  .of_none rfl (fun _ h => nomatch h) fun _ h => nomatch h

theorem reliable_new (now : Nat) : Reliable (new now) := fun b =>
  ⟨Nat.zero_le 1, (audited_new now b).truthful⟩

/-- One step of the service. -/
theorem step_exactly (hl : Audited l) (hreliable : Reliable l) (h : l.step opts a = some after) :
    (Reliable after ↔ Orderly opts l a) ∧ (Orderly opts l a → Audited after) := by
  obtain ⟨action, loginDate⟩ := a
  obtain ⟨service, hservice, rfl⟩ := Option.map_eq_some_iff.mp h
  have hquiet : (∀ b, Alike (l.service.runtimes b) (service.runtimes b)) →
      (∀ b, Alone (service.runtimes b) ∧
        Kept (service.runtimes b) ((l.books b).pad (service.runtimes b) none)) := fun hlike b =>
    ⟨(hreliable b).1.congr (hlike b), (hl b).rest (hlike b)⟩
  have hall : (∀ b, Alone (service.runtimes b) ∧
        Kept (service.runtimes b) ((l.books b).pad (service.runtimes b) none)) →
      ((∀ b, Alone (service.runtimes b) ∧
          Truthful (service.runtimes b) ((l.books b).pad (service.runtimes b) none)) ↔ True) ∧
        (True → ∀ b, Kept (service.runtimes b) ((l.books b).pad (service.runtimes b) none)) :=
    fun hkept => ⟨iff_of_true (fun b => ⟨(hkept b).1, (hkept b).2.truthful⟩) trivial,
      fun _ b => (hkept b).2⟩
  cases action with
  | tick now =>
    simp only [State.step] at hservice
    split at hservice
    · cases hservice
      exact hall (hquiet fun _ => ⟨rfl, rfl, rfl⟩)
    · cases hservice
  | start =>
    cases hservice
    refine hall fun b => ?_
    by_cases hstarted : l.service.started = true
    · have hsame : l.service.start = l.service := by rw [State.start, if_pos hstarted]
      rw [hsame]
      exact ⟨(hreliable b).1, (hl b).rest ⟨rfl, rfl, rfl⟩⟩
    · have hscheduled : l.service.start.runtimes b =
          (l.service.runtimes b).scheduleBroker ⟨l.service.now, false⟩ := by
        rw [State.start, if_neg hstarted]
        rfl
      rw [hscheduled]
      exact (hl b).scheduleBroker (hreliable b).1
  | stop =>
    cases hservice
    exact hall (hquiet fun _ => ⟨rfl, rfl, rfl⟩)
  | broker broker event =>
    obtain ⟨rt, hreact, rfl⟩ := Option.map_eq_some_iff.mp hservice
    obtain ⟨hiff, hkept⟩ := react_exactly (hl broker) (hreliable broker).1 hreact loginDate
    refine ⟨⟨fun h => ?_, fun horderly b => ?_⟩, fun horderly b => ?_⟩
    · have hbroker := h broker
      dsimp only at hbroker
      rw [if_pos rfl, if_pos rfl] at hbroker
      exact hiff.mp hbroker
    · dsimp only
      split
      · rename_i heq
        subst heq
        exact hiff.mpr horderly
      · exact hreliable b
    · dsimp only
      split
      · rename_i heq
        subst heq
        exact hkept horderly
      · exact hl b

end Ledger

/-- In every run, whatever the calls answer and in whatever order: every broker acquires one
token at a time and is ready only for a day whose token it has, exactly when no token is
requested while another is being installed and every install ends on the day its token was made
for, without an auth failure since the token was persisted. -/
theorem readiness_truthful_iff_orderly (opts : BrokerTokenServiceOptions) (now : Nat)
    (as : List (Action × IstDay)) :
    Throughout (Ledger.step opts) Ledger.Reliable (.new now) as ↔
      Heeds (Ledger.step opts) (Ledger.Orderly opts) (.new now) as :=
  throughout_iff_heeds
    (fun _ _ _ (_ : True) hl hreliable horderly h =>
      (Ledger.step_exactly hl hreliable h).2 horderly)
    (fun _ _ _ _ hl hreliable h => (Ledger.step_exactly hl hreliable h).1)
    (Ledger.audited_new now) (Ledger.reliable_new now) fun _ _ => trivial

namespace Untruthful

/-- One minute to midnight, and midnight. -/
def lateEvening : Nat := 66540000

def midnight : Nat := 66600000

def options : BrokerTokenServiceOptions where
  pollStart := 540
  pollIntervalMs := 60000

/-- A token is requested late, and what happens then. -/
def requested (events : List (Action × IstDay)) : List (Action × IstDay) :=
  [(.start, 0), (.broker .zerodha (.storedToken 0 (.ok false)), 0)] ++ events

def zerodha (event : Event) : Action × IstDay := (.broker .zerodha event, 0)

/-- The day ends before the answer comes. -/
def dayRolls : List (Action × IstDay) :=
  requested [(.tick midnight, 0), zerodha (.fetched 0 (.ok .ready)),
    zerodha (.installed 0 (.ok ()) false), zerodha (.installed 0 (.ok ()) false)]

/-- An auth failure lands while the persisted token is being installed. -/
def failsMeanwhile : List (Action × IstDay) :=
  requested [zerodha (.fetched 0 (.ok .ready)), zerodha (.installed 0 (.ok ()) false),
    zerodha (.onExternalAuthFailure "token revoked"), zerodha (.installed 0 (.ok ()) false)]

/-- An auth failure while the request is in flight arms a timer, which fires during the
install. -/
def firesMeanwhile : List (Action × IstDay) :=
  requested [zerodha (.onExternalAuthFailure "token revoked"), zerodha (.invalidated 1),
    zerodha (.handedOver 1), zerodha (.fetched 0 (.ok .ready)), (.tick midnight, 0),
    zerodha .fire]

/-- A broker is ready for a day without its token. -/
def untrue (l : Ledger) (b : BrokerKind) : Bool :=
  decide ((l.service.runtimes b).state = .ready) &&
    (l.service.runtimes b).readyForDay.any fun day =>
      decide ((l.books b).persisted ≠ some day ∧ (l.books b).answered ≠ some day)

def crowded (l : Ledger) (b : BrokerKind) : Bool :=
  decide (1 < (l.service.runtimes b).activities.countP Activity.acquiring)

theorem not_reliable {l : Ledger} {b : BrokerKind}
    (h : untrue l b = true ∨ crowded l b = true) : ¬ l.Reliable := by
  intro hreliable
  obtain ⟨halone, htruthful⟩ := hreliable b
  obtain h | h := h
  · obtain ⟨hstate, hday⟩ := (Bool.and_eq_true _ _).mp h
    obtain ⟨day, hready, hnone⟩ := (Option.any_eq_true _ _).mp hday
    obtain ⟨hpersisted, hanswered⟩ := of_decide_eq_true hnone
    obtain htoken | htoken := htruthful (of_decide_eq_true hstate) day hready
    · exact hpersisted htoken
    · exact hanswered htoken
  · exact absurd halone (Nat.not_le.mpr (of_decide_eq_true h))

theorem not_throughout {as : List (Action × IstDay)} {b : BrokerKind}
    (h : (run (Ledger.step options) (.new lateEvening) as).any
      (fun l => untrue l b || crowded l b) = true) :
    ¬ Throughout (Ledger.step options) Ledger.Reliable (.new lateEvening) as := by
  intro hthroughout
  obtain ⟨l, hrun, hl⟩ := (Option.any_eq_true _ _).mp h
  exact not_reliable ((Bool.or_eq_true _ _).mp hl) (hthroughout.last hrun)

end Untruthful

/-- A token of one day makes the broker ready for the next, an install overwrites an auth
failure, and a timer starts a second acquisition beside an install. -/
theorem readiness_untruthful :
    ¬ Throughout (Ledger.step Untruthful.options) Ledger.Reliable (.new Untruthful.lateEvening)
        Untruthful.dayRolls ∧
      ¬ Throughout (Ledger.step Untruthful.options) Ledger.Reliable (.new Untruthful.lateEvening)
        Untruthful.failsMeanwhile ∧
      ¬ Throughout (Ledger.step Untruthful.options) Ledger.Reliable (.new Untruthful.lateEvening)
        Untruthful.firesMeanwhile :=
  ⟨Untruthful.not_throughout (b := .zerodha) (by decide +kernel),
    Untruthful.not_throughout (b := .zerodha) (by decide +kernel),
    Untruthful.not_throughout (b := .zerodha) (by decide +kernel)⟩

end Strikedge.BrokerTokens
