import Strikedge.Machine.Run
import Strikedge.Orders.DayLedger

/-!
# Installing a daily-risk seed

The day's counters, the loads that reconstruct them and the durable mutations of each day,
in any interleaving. A loader reads its snapshot at a step of its own, after its token was
captured and before it completes. The seed replaces the counters: of what was recorded
after the snapshot, only the charges in the journal of the token are added back.
-/

namespace Strikedge.Orders

open Machine

/-- The counters of a manager, the mutations it has recorded on each day, and what the
loader of each token has read. -/
structure RiskProcess where
  risk : DailyRisk
  recorded : OrderedMap String (List DayEvent) := ∅
  reads : OrderedMap Nat (List DayEvent) := ∅

inductive RiskLabel where
  | beginDailyRiskSeed (day : String)
  | abandonDailyRiskSeed (generation : Nat)
  | refreshDailyRiskSeed
  | rollTradingDay (next : String)
  /-- the loader of a token reads the durable mutations of its day -/
  | read (generation : Nat)
  | loadCompleted (generation consecutiveFailures : Nat) (incomplete : Bool)
  | loadFailed (generation : Nat)
  | loadTimedOut (generation : Nat) (today : String)
  /-- the caller of `beginDailyRiskSeed` installs what its loader has read -/
  | seedLimits (generation consecutiveFailures : Nat) (incomplete : Bool)
  | recordFlattenCharge (attemptId : AttemptId) (day : String) (previous current : Int)
  | recordRealisedPnl (delta : Int)
  | brokerRejected
  deriving DecidableEq, Repr

/-- The mutations of a day that were durable before this process. -/
abbrev PastDays := String → List DayEvent

/-- What a loader returns for the mutations it has read. -/
def snapshotSeed (events : List DayEvent) (consecutiveFailures : Nat) (incomplete : Bool) :
    DailyRiskSeed where
  realisedPnl := dayNet events
  rejects := rejections events
  consecutiveFailures := consecutiveFailures
  flattenChargeBaselinesForDay :=
    (events.filterMap DayEvent.attempt).map fun a => (a, bucket events a)
  incomplete := incomplete

namespace RiskProcess

def recordedOn (s : RiskProcess) (day : String) : List DayEvent := (s.recorded.get? day).getD []

/-- All durable mutations of a day so far. -/
def history (past : PastDays) (s : RiskProcess) (day : String) : List DayEvent :=
  past day ++ s.recordedOn day

def record (s : RiskProcess) (day : String) (e : DayEvent) : RiskProcess :=
  { s with recorded := s.recorded.set day (s.recordedOn day ++ [e]) }

def setRisk (s : RiskProcess) (risk : DailyRisk) : RiskProcess := { s with risk := risk }

/-- Record an event if it may follow what the day has. -/
def recordNext (past : PastDays) (s : RiskProcess) (day : String) (e : DayEvent)
    (risk : DailyRisk) : Option RiskProcess :=
  if e.Follows (past day) (s.recordedOn day) then some ((s.record day e).setRisk risk) else none

/-- One step, with `hasLoader` for an installed `loadDailyRiskSeed`. -/
def step (hasLoader : Bool) (past : PastDays) (s : RiskProcess) : RiskLabel → Option RiskProcess
  | .beginDailyRiskSeed day => some (s.setRisk (s.risk.beginDailyRiskSeed day).1)
  | .abandonDailyRiskSeed generation => do
      let token ← s.risk.activeDailyRiskSeedTokens.get? generation
      return s.setRisk (s.risk.abandonDailyRiskSeed token)
  | .refreshDailyRiskSeed => some (s.setRisk (s.risk.refreshDailyRiskSeed hasLoader false))
  | .rollTradingDay next => some (s.setRisk (s.risk.rollTradingDay hasLoader false next))
  | .read generation => do
      let token ← s.risk.activeDailyRiskSeedTokens.get? generation
      return { s with reads := s.reads.set generation (s.history past token.tradingDay) }
  | .loadCompleted generation consecutiveFailures incomplete => do
      let events ← s.reads.get? generation
      let seed := snapshotSeed events consecutiveFailures incomplete
      return s.setRisk (s.risk.loadCompleted generation seed)
  | .loadFailed generation => some (s.setRisk (s.risk.loadFailed generation))
  | .loadTimedOut generation today =>
      some (s.setRisk (s.risk.loadTimedOut hasLoader false today generation))
  | .seedLimits generation consecutiveFailures incomplete => do
      let token ← s.risk.activeDailyRiskSeedTokens.get? generation
      let events ← s.reads.get? generation
      let seed := snapshotSeed events consecutiveFailures incomplete
      return s.setRisk (s.risk.seedLimits token.tradingDay seed (some token))
  | .recordFlattenCharge attemptId day previous current =>
      s.recordNext past day (.charged attemptId previous current (day ≠ "" ∧ day = s.risk.tradingDay))
        (s.risk.recordFlattenCharge attemptId day previous current)
  | .recordRealisedPnl delta =>
      s.recordNext past s.risk.tradingDay (.realised delta) (s.risk.recordRealisedPnl delta)
  | .brokerRejected => s.recordNext past s.risk.tradingDay .rejected s.risk.noteReject

/-- A new manager. -/
def create (day : String) : RiskProcess where
  risk := { tradingDay := day }

/-- The token whose seed a label installs. -/
def installing (s : RiskProcess) : RiskLabel → Option DailyRiskSeedToken
  | .loadCompleted generation _ _ =>
      (s.risk.runningLoad generation).bind fun load =>
        if load.day ≠ s.risk.tradingDay ∨
            !s.risk.activeDailyRiskSeedTokens.has load.token.loadGeneration then none
        else some load.token
  | .seedLimits generation _ _ => s.risk.activeDailyRiskSeedTokens.get? generation
  | _ => none

end RiskProcess

open RiskProcess

/-- A label that installs a seed leaves the counters of the day as its mutations make
them. -/
def SeedExact (hasLoader : Bool) (past : PastDays) (s : RiskProcess) (label : RiskLabel) : Prop :=
  ∀ token ∈ s.installing label, ∀ s' ∈ s.step hasLoader past label,
    s'.risk.realisedPnlToday = dayNet (s'.history past token.tradingDay) ∧
      s'.risk.rejects = rejections (s'.history past token.tradingDay)

/-- What was recorded on the day of a token after its loader had read. -/
def RiskProcess.unread (past : PastDays) (s : RiskProcess) (token : DailyRiskSeedToken) :
    List DayEvent :=
  (s.history past token.tradingDay).drop ((s.reads.get? token.loadGeneration).getD []).length

/-- Every advance of a charge that the loader of an installed seed has not read was
recorded while its day was the trading day. -/
def ChargesNoted (past : PastDays) (s : RiskProcess) (label : RiskLabel) : Prop :=
  ∀ token ∈ s.installing label, ∀ e ∈ s.unread past token, e.Noted

/-- The P&L deltas the loader of an installed seed has not read cancel out, and there are
no rejections among what it has not read. -/
def NothingOverwritten (past : PastDays) (s : RiskProcess) (label : RiskLabel) : Prop :=
  ∀ token ∈ s.installing label,
    realisedSum (s.unread past token) = 0 ∧ rejections (s.unread past token) = 0

instance (hasLoader : Bool) (past : PastDays) (s : RiskProcess) (label : RiskLabel) :
    Decidable (SeedExact hasLoader past s label) :=
  inferInstanceAs (Decidable (∀ token ∈ s.installing label, ∀ s' ∈ s.step hasLoader past label, _))

instance (past : PastDays) (s : RiskProcess) (label : RiskLabel) :
    Decidable (ChargesNoted past s label) :=
  inferInstanceAs (Decidable (∀ token ∈ s.installing label, _))

instance (past : PastDays) (s : RiskProcess) (label : RiskLabel) :
    Decidable (NothingOverwritten past s label) :=
  inferInstanceAs (Decidable (∀ token ∈ s.installing label, _))

/-- Tokens were settled and journals compacted to what the remaining tokens need. -/
structure DailyRisk.Narrows (r r' : DailyRisk) : Prop where
  active : ∀ g t, r'.activeDailyRiskSeedTokens.get? g = some t →
    r.activeDailyRiskSeedTokens.get? g = some t
  journal : ∀ g t, r'.activeDailyRiskSeedTokens.get? g = some t →
    (r'.mutationsOf t.tradingDay).filter (t.mutationGeneration < ·.generation) =
      (r.mutationsOf t.tradingDay).filter (t.mutationGeneration < ·.generation)
  mutations : ∀ day, r'.mutationsOf day ⊆ r.mutationsOf day
  generation : r'.flattenChargeMutationGeneration = r.flattenChargeMutationGeneration
  loadGeneration : r'.dailyRiskLoadGeneration = r.dailyRiskLoadGeneration
  load : ∀ load, r'.activeDailyRiskLoad = some load → r.activeDailyRiskLoad = some load

namespace DailyRisk

section Narrows

variable {r r' r'' : DailyRisk} {token : DailyRiskSeedToken} {day : String}

/-- A change of the counters and, at most, the end of the running load. -/
theorem Narrows.of_same (hactive : r'.activeDailyRiskSeedTokens = r.activeDailyRiskSeedTokens)
    (hmutations : r'.flattenChargeMutationsByDay = r.flattenChargeMutationsByDay)
    (hgeneration : r'.flattenChargeMutationGeneration = r.flattenChargeMutationGeneration)
    (hloadGeneration : r'.dailyRiskLoadGeneration = r.dailyRiskLoadGeneration)
    (hload : r'.activeDailyRiskLoad = r.activeDailyRiskLoad ∨ r'.activeDailyRiskLoad = none) :
    r.Narrows r' where
  active g t ht := by rwa [hactive] at ht
  journal g t _ := by rw [mutationsOf, mutationsOf, hmutations]
  mutations day := by
    rw [mutationsOf, mutationsOf, hmutations]
    exact List.Subset.refl _
  generation := hgeneration
  loadGeneration := hloadGeneration
  load load h := by
    rcases hload with hload | hload
    · rwa [hload] at h
    · rw [hload] at h
      cases h

theorem Narrows.refl (r : DailyRisk) : r.Narrows r := .of_same rfl rfl rfl rfl (.inl rfl)

theorem Narrows.trans (h : r.Narrows r') (h' : r'.Narrows r'') : r.Narrows r'' where
  active g t ht := h.active g t (h'.active g t ht)
  journal g t ht := (h'.journal g t ht).trans (h.journal g t (h'.active g t ht))
  mutations day := List.Subset.trans (h'.mutations day) (h.mutations day)
  generation := h'.generation.trans h.generation
  loadGeneration := h'.loadGeneration.trans h.loadGeneration
  load load hload := h.load load (h'.load load hload)

theorem foldl_min_le (g : Nat) (gs : List Nat) : ∀ x ∈ g :: gs, gs.foldl min g ≤ x := by
  induction gs generalizing g with
  | nil =>
      intro x hx
      rw [List.mem_singleton.mp hx]
      exact Nat.le_refl g
  | cons g' gs ih =>
      intro x hx
      rw [List.foldl_cons]
      rcases List.mem_cons.mp hx with rfl | hx
      · exact Nat.le_trans (ih _ _ List.mem_cons_self) (Nat.min_le_left _ _)
      · rcases List.mem_cons.mp hx with rfl | hx
        · exact Nat.le_trans (ih _ _ List.mem_cons_self) (Nat.min_le_right _ _)
        · exact ih _ x (List.mem_cons_of_mem _ hx)

theorem mem_tokensOf {g : Nat} (h : r.activeDailyRiskSeedTokens.get? g = some token) :
    token ∈ r.tokensOf token.tradingDay := by
  rw [tokensOf, List.mem_filter]
  exact ⟨OrderedMap.mem_values_iff.mpr ⟨g, h⟩, by simp⟩

/-- Compaction only touches the journal of its day, and there keeps the suffix of every
active token. -/
theorem narrows_compact (r : DailyRisk) (day : String) :
    r.Narrows (r.compactFlattenChargeMutations day) := by
  rw [compactFlattenChargeMutations]
  split
  next hnone =>
    have hdays : ∀ g t, r.activeDailyRiskSeedTokens.get? g = some t → t.tradingDay ≠ day := by
      rintro g t ht rfl
      have hmem := List.mem_map_of_mem (f := DailyRiskSeedToken.mutationGeneration)
        (mem_tokensOf ht)
      rw [hnone] at hmem
      cases hmem
    constructor
    · exact fun g t ht => ht
    · intro g t ht
      simp [mutationsOf, hdays g t ht]
    · intro d
      by_cases hd : d = day
      · simp [mutationsOf, hd]
      · simp [mutationsOf, hd]
    · rfl
    · rfl
    · exact fun load h => h
  next g gs htokens =>
    have hmutations : ∀ d, DailyRisk.mutationsOf
        { r with
          flattenChargeMutationsByDay :=
            if ((r.mutationsOf day).filter fun m => gs.foldl min g < m.generation).isEmpty then
              r.flattenChargeMutationsByDay.delete day
            else r.flattenChargeMutationsByDay.set day
              ((r.mutationsOf day).filter fun m => gs.foldl min g < m.generation) } d =
        if d = day then (r.mutationsOf day).filter fun m => gs.foldl min g < m.generation
        else r.mutationsOf d := by
      intro d
      by_cases hempty :
          ((r.mutationsOf day).filter fun m => gs.foldl min g < m.generation).isEmpty = true
      · rw [mutationsOf]
        simp only [if_pos hempty, OrderedMap.get?_delete]
        split
        · exact (List.isEmpty_iff.mp hempty).symm
        · rfl
      · rw [mutationsOf]
        simp only [if_neg hempty, OrderedMap.get?_set]
        split <;> rfl
    constructor
    · exact fun g t ht => ht
    · intro g' t ht
      rw [hmutations]
      split
      next hday =>
        have hle : gs.foldl min g ≤ t.mutationGeneration := by
          apply foldl_min_le
          rw [← htokens, ← hday]
          exact List.mem_map_of_mem (mem_tokensOf ht)
        rw [List.filter_filter, ← hday]
        apply List.filter_congr
        intro m _
        by_cases hm : t.mutationGeneration < m.generation
        · simp [hm, Nat.lt_of_le_of_lt hle hm]
        · simp [hm]
      · rfl
    · intro d
      rw [hmutations]
      split
      next hday =>
        rw [hday]
        exact List.filter_sublist.subset
      · exact List.Subset.refl _
    · rfl
    · rfl
    · exact fun load h => h

@[simp] theorem compact_active : (r.compactFlattenChargeMutations day).activeDailyRiskSeedTokens =
    r.activeDailyRiskSeedTokens := by
  rw [compactFlattenChargeMutations]
  split <;> rfl

theorem narrows_settle (r : DailyRisk) (token : DailyRiskSeedToken) :
    r.Narrows (r.settleDailyRiskSeedToken token) := by
  have hdelete : r.Narrows { r with
      activeDailyRiskSeedTokens := r.activeDailyRiskSeedTokens.delete token.loadGeneration } := by
    constructor
    · intro g t ht
      rw [OrderedMap.get?_delete] at ht
      split at ht
      · cases ht
      · exact ht
    · exact fun _ _ _ => rfl
    · exact fun day => List.Subset.refl _
    · rfl
    · rfl
    · exact fun load h => h
  exact hdelete.trans (narrows_compact _ _)

theorem narrows_abandon (r : DailyRisk) (token : DailyRiskSeedToken) :
    r.Narrows (r.abandonDailyRiskSeed token) := by
  rw [abandonDailyRiskSeed]
  split
  · exact narrows_settle r token
  · exact .refl r

theorem narrows_settleAll (tokens : List DailyRiskSeedToken) (r : DailyRisk) :
    r.Narrows (tokens.foldl settleDailyRiskSeedToken r) ∧
      ∀ token ∈ tokens, (tokens.foldl settleDailyRiskSeedToken r).activeDailyRiskSeedTokens.get?
        token.loadGeneration = none := by
  induction tokens generalizing r with
  | nil => exact ⟨.refl r, fun token h => absurd h List.not_mem_nil⟩
  | cons token tokens ih =>
      obtain ⟨hnarrows, hgone⟩ := ih (r.settleDailyRiskSeedToken token)
      refine ⟨(narrows_settle r token).trans hnarrows, fun t ht => ?_⟩
      rcases List.mem_cons.mp ht with rfl | ht
      · cases hget : (tokens.foldl settleDailyRiskSeedToken
            (r.settleDailyRiskSeedToken t)).activeDailyRiskSeedTokens.get? t.loadGeneration with
        | none => exact hget
        | some t' =>
            have hactive := hnarrows.active _ _ hget
            rw [settleDailyRiskSeedToken, compact_active, OrderedMap.get?_delete,
              if_pos rfl] at hactive
            cases hactive
      · exact hgone t ht

theorem narrows_settleOtherDays (r : DailyRisk) (next : String)
    (keyed : ∀ g t, r.activeDailyRiskSeedTokens.get? g = some t → t.loadGeneration = g) :
    r.Narrows (r.settleOtherDays next) ∧
      ∀ g t, (r.settleOtherDays next).activeDailyRiskSeedTokens.get? g = some t →
        t.tradingDay = next := by
  obtain ⟨hsettled, hgone⟩ := narrows_settleAll
    (r.activeDailyRiskSeedTokens.values.filter (·.tradingDay ≠ next)) r
  refine ⟨hsettled, fun g t ht => ?_⟩
  by_contra hne
  have hactive := hsettled.active g t ht
  have hmem : t ∈ r.activeDailyRiskSeedTokens.values.filter (·.tradingDay ≠ next) := by
    rw [List.mem_filter]
    exact ⟨OrderedMap.mem_values_iff.mpr ⟨g, hactive⟩, by simpa using hne⟩
  have hnone := hgone t hmem
  rw [keyed g t hactive] at hnone
  exact absurd (ht.symm.trans hnone) (by simp)

/-- When every token is of one day, the journals of the others may go. -/
theorem narrows_filterDays {next : String}
    (hothers : ∀ g t, r.activeDailyRiskSeedTokens.get? g = some t → t.tradingDay = next) :
    r.Narrows { r with
      flattenChargeMutationsByDay := r.flattenChargeMutationsByDay.filter fun day _ => day = next
      realisedPnlToday := 0
      rejects := 0
      consecutiveFailures := 0
      seedHealth := .seeding } := by
  have hmutations : ∀ day, ((r.flattenChargeMutationsByDay.filter fun day _ => day = next).get?
      day).getD [] = if day = next then r.mutationsOf day else [] := by
    intro day
    rw [OrderedMap.get?_filter, mutationsOf]
    by_cases hday : day = next
    · cases r.flattenChargeMutationsByDay.get? day <;> simp [hday, Option.filter]
    · simp [hday]
  constructor
  · exact fun g t ht => ht
  · intro g t ht
    rw [mutationsOf, hmutations, if_pos (hothers g t ht)]
  · intro day
    rw [mutationsOf, hmutations]
    split
    · exact List.Subset.refl _
    · exact List.nil_subset _
  · rfl
  · rfl
  · exact fun load hload => hload

theorem narrows_endLoad (r : DailyRisk) (token : DailyRiskSeedToken) :
    r.Narrows (settleDailyRiskSeedToken { r with activeDailyRiskLoad := none } token) := by
  apply Narrows.trans _ (narrows_settle _ _)
  exact .of_same rfl rfl rfl rfl (.inr rfl)

theorem narrows_endOtherLoad (r : DailyRisk) (next : String) :
    r.Narrows (match r.activeDailyRiskLoad.filter (·.day ≠ next) with
      | none => r
      | some load => { r.settleDailyRiskSeedToken load.token with activeDailyRiskLoad := none }) := by
  split
  · exact .refl r
  · exact (narrows_settle r _).trans (.of_same rfl rfl rfl rfl (.inr rfl))

theorem Narrows.failed {p : Prop} [Decidable p] (h : r.Narrows r') :
    r.Narrows (if p then { r' with seedHealth := .failed } else r') := by
  split
  · exact h.trans (.of_same rfl rfl rfl rfl (.inl rfl))
  · exact h

end Narrows

end DailyRisk

/-- A charge that advanced its bucket while its day was the trading day. -/
def DayEvent.journalled : DayEvent → Bool
  | .charged _ previous current onDay => onDay && previous < current
  | _ => false

/-- The charge a journal entry was made for. -/
def FlattenChargeMutation.charge (m : FlattenChargeMutation) : DayEvent :=
  .charged m.attemptId m.previousChargesForDay m.chargesForDay true

/-- From its boundary on, the journal of a token has every such charge, and what its loader
has read reaches at least to the boundary. -/
def Journalled (past : PastDays) (s : RiskProcess) (token : DailyRiskSeedToken) : Prop :=
  ∃ boundary ≤ (s.recordedOn token.tradingDay).length,
    ((s.risk.mutationsOf token.tradingDay).filter
        (token.mutationGeneration < ·.generation)).map FlattenChargeMutation.charge =
      ((s.recordedOn token.tradingDay).drop boundary).filter DayEvent.journalled ∧
    ∀ events, s.reads.get? token.loadGeneration = some events →
      ∃ n, boundary ≤ n ∧ n ≤ (s.recordedOn token.tradingDay).length ∧
        events = past token.tradingDay ++ (s.recordedOn token.tradingDay).take n

/-- What every reachable state satisfies. -/
structure RiskSound (past : PastDays) (s : RiskProcess) : Prop where
  keyed : ∀ g t, s.risk.activeDailyRiskSeedTokens.get? g = some t → t.loadGeneration = g
  captured : ∀ g t, s.risk.activeDailyRiskSeedTokens.get? g = some t →
    g ≤ s.risk.dailyRiskLoadGeneration ∧
      t.mutationGeneration ≤ s.risk.flattenChargeMutationGeneration
  generations : ∀ day, ∀ m ∈ s.risk.mutationsOf day,
    m.generation ≤ s.risk.flattenChargeMutationGeneration
  reads : ∀ g events, s.reads.get? g = some events → g ≤ s.risk.dailyRiskLoadGeneration
  days : ∀ day, DayRecord (past day) (s.recordedOn day)
  journalled : ∀ g t, s.risk.activeDailyRiskSeedTokens.get? g = some t → Journalled past s t
  load : ∀ load, s.risk.activeDailyRiskLoad = some load →
    load.token.loadGeneration = load.generation ∧ load.token.tradingDay = load.day ∧
      load.generation ≤ s.risk.dailyRiskLoadGeneration ∧
      ∀ t, s.risk.activeDailyRiskSeedTokens.get? load.generation = some t → t = load.token

section Sound

variable {past : PastDays} {s : RiskProcess} {r : DailyRisk} {day : String}

theorem riskSound_create (past : PastDays) (day : String) : RiskSound past (create day) where
  keyed g t h := by cases h
  captured g t h := by cases h
  generations day m h := by cases h
  reads g events h := by cases h
  days day := .nil
  journalled g t h := by cases h
  load load h := by cases h

/-- Settling tokens and compacting journals keeps what the remaining tokens need. -/
theorem RiskSound.narrow (h : RiskSound past s) (hnarrows : s.risk.Narrows r) :
    RiskSound past (s.setRisk r) where
  keyed g t ht := h.keyed g t (hnarrows.active g t ht)
  captured g t ht := by
    have hcaptured := h.captured g t (hnarrows.active g t ht)
    show g ≤ r.dailyRiskLoadGeneration ∧ t.mutationGeneration ≤ r.flattenChargeMutationGeneration
    rwa [hnarrows.loadGeneration, hnarrows.generation]
  generations day m hm := by
    show m.generation ≤ r.flattenChargeMutationGeneration
    rw [hnarrows.generation]
    exact h.generations day m (hnarrows.mutations day hm)
  reads g events hevents := by
    show g ≤ r.dailyRiskLoadGeneration
    rw [hnarrows.loadGeneration]
    exact h.reads g events hevents
  days := h.days
  journalled g t ht := by
    obtain ⟨boundary, hle, hjournal, hreads⟩ := h.journalled g t (hnarrows.active g t ht)
    exact ⟨boundary, hle, (congrArg _ (hnarrows.journal g t ht)).trans hjournal, hreads⟩
  load load hload := by
    obtain ⟨hkey, hday, hle, htoken⟩ := h.load load (hnarrows.load load hload)
    refine ⟨hkey, hday, ?_, fun t ht => htoken t (hnarrows.active _ t ht)⟩
    show load.generation ≤ r.dailyRiskLoadGeneration
    rwa [hnarrows.loadGeneration]

/-- A new token starts with an empty journal at the end of its day. -/
theorem RiskSound.capture (h : RiskSound past s) (day : String) :
    RiskSound past (s.setRisk (s.risk.beginDailyRiskSeed day).1) where
  keyed g t ht := by
    simp only [setRisk, DailyRisk.beginDailyRiskSeed, OrderedMap.get?_set] at ht
    split at ht
    next hg => rw [hg, ← Option.some.inj ht]
    · exact h.keyed g t ht
  captured g t ht := by
    simp only [setRisk, DailyRisk.beginDailyRiskSeed, OrderedMap.get?_set] at ht
    show g ≤ s.risk.dailyRiskLoadGeneration + 1 ∧
      t.mutationGeneration ≤ s.risk.flattenChargeMutationGeneration
    split at ht
    next hg => exact ⟨Nat.le_of_eq hg, by rw [← Option.some.inj ht]⟩
    · exact ⟨Nat.le_succ_of_le (h.captured g t ht).1, (h.captured g t ht).2⟩
  generations := h.generations
  reads g events hevents := Nat.le_succ_of_le (h.reads g events hevents)
  days := h.days
  journalled g t ht := by
    simp only [setRisk, DailyRisk.beginDailyRiskSeed, OrderedMap.get?_set] at ht
    split at ht
    next hg =>
      obtain rfl := Option.some.inj ht
      refine ⟨(s.recordedOn day).length, Nat.le_refl _, ?_, ?_⟩
      · show ((s.risk.mutationsOf day).filter fun m =>
            s.risk.flattenChargeMutationGeneration < m.generation).map _ =
          ((s.recordedOn day).drop (s.recordedOn day).length).filter _
        rw [List.drop_length, List.filter_nil, List.map_eq_nil_iff, List.filter_eq_nil_iff]
        intro m hm
        simpa using h.generations day m hm
      · intro events hevents
        have hle := h.reads _ events hevents
        exact absurd hle (Nat.not_succ_le_self _)
    · exact h.journalled g t ht
  load load hload := by
    obtain ⟨hkey, hday, hle, htoken⟩ := h.load load hload
    refine ⟨hkey, hday, Nat.le_succ_of_le hle, fun t ht => ?_⟩
    simp only [setRisk, DailyRisk.beginDailyRiskSeed, OrderedMap.get?_set] at ht
    split at ht
    next hg => exact absurd hle (by omega)
    · exact htoken t ht

/-- The token of the newest generation may get the slot of the running load. -/
theorem RiskSound.refresh (h : RiskSound past s) (hasLoader disposed : Bool) :
    RiskSound past (s.setRisk (s.risk.refreshDailyRiskSeed hasLoader disposed)) := by
  rw [DailyRisk.refreshDailyRiskSeed]
  split
  · exact h
  · split
    · exact h.narrow (.of_same rfl rfl rfl rfl (.inl rfl))
    · have hcapture := h.capture s.risk.tradingDay
      exact
        { keyed := hcapture.keyed
          captured := hcapture.captured
          generations := hcapture.generations
          reads := hcapture.reads
          days := hcapture.days
          journalled := hcapture.journalled
          load := by
            intro load hload
            obtain rfl := Option.some.inj hload
            refine ⟨rfl, rfl, Nat.le_refl _, fun t ht => ?_⟩
            simp only [setRisk, DailyRisk.beginDailyRiskSeed, OrderedMap.get?_set,
              if_true] at ht
            exact (Option.some.inj ht).symm }

/-- The tokens of other days are settled before their journals go. -/
theorem RiskSound.roll (h : RiskSound past s) (hasLoader disposed : Bool) (next : String) :
    RiskSound past (s.setRisk (s.risk.rollTradingDay hasLoader disposed next)) := by
  rw [DailyRisk.rollTradingDay]
  split
  · exact h
  · have hday : s.risk.Narrows { s.risk with tradingDay := next } :=
      .of_same rfl rfl rfl rfl (.inl rfl)
    have hload := hday.trans (DailyRisk.narrows_endOtherLoad _ next)
    obtain ⟨hsettled, hothers⟩ := DailyRisk.narrows_settleOtherDays _ next
      fun g t ht => h.keyed g t (hload.active g t ht)
    have hfiltered := DailyRisk.narrows_filterDays hothers
    exact (h.narrow ((hload.trans hsettled).trans hfiltered)).refresh hasLoader disposed

/-- Installing a seed sets the counters and settles its token. -/
theorem narrows_seedLimits (r : DailyRisk) (day : String) (seed : DailyRiskSeed)
    (token : Option DailyRiskSeedToken) : r.Narrows (r.seedLimits day seed token) := by
  rw [DailyRisk.seedLimits]
  split
  · exact .refl r
  · cases token with
    | none => exact .of_same rfl rfl rfl rfl (.inl rfl)
    | some t =>
        apply DailyRisk.Narrows.trans _ (DailyRisk.narrows_settle _ t)
        exact .of_same rfl rfl rfl rfl (.inl rfl)

theorem narrows_loadCompleted (r : DailyRisk) (generation : Nat) (seed : DailyRiskSeed) :
    r.Narrows (r.loadCompleted generation seed) := by
  rw [DailyRisk.loadCompleted]
  split
  · exact .refl r
  · split
    · exact .refl r
    · apply DailyRisk.Narrows.trans _ (narrows_seedLimits _ _ _ _)
      exact .of_same rfl rfl rfl rfl (.inr rfl)

theorem narrows_loadFailed (r : DailyRisk) (generation : Nat) :
    r.Narrows (r.loadFailed generation) := by
  rw [DailyRisk.loadFailed]
  split
  · exact .refl r
  · exact (DailyRisk.narrows_endLoad r _).failed

theorem RiskSound.timedOut (h : RiskSound past s) (hasLoader disposed : Bool) (today : String)
    (generation : Nat) :
    RiskSound past (s.setRisk (s.risk.loadTimedOut hasLoader disposed today generation)) := by
  rw [DailyRisk.loadTimedOut]
  split
  · exact h
  next load _ =>
    let settled := DailyRisk.settleDailyRiskSeedToken
      { s.risk with activeDailyRiskLoad := none } load.token
    have hended : s.risk.Narrows
        (if load.day = settled.tradingDay then { settled with seedHealth := .failed }
          else settled) := (DailyRisk.narrows_endLoad s.risk load.token).failed
    show RiskSound past (s.setRisk (if disposed then _ else _))
    split
    · exact h.narrow hended
    · exact ((h.narrow hended).roll hasLoader disposed today).refresh hasLoader disposed

theorem recordedOn_record (s : RiskProcess) (day : String) (e : DayEvent) (x : String) :
    (s.record day e).recordedOn x = if x = day then s.recordedOn day ++ [e] else s.recordedOn x := by
  rw [recordedOn, record]
  simp only [OrderedMap.get?_set]
  split <;> rfl

theorem recordNext_eq_some {e : DayEvent} {s' : RiskProcess} :
    s.recordNext past day e r = some s' ↔
      e.Follows (past day) (s.recordedOn day) ∧ (s.record day e).setRisk r = s' := by
  rw [recordNext, Option.ite_none_right_eq_some, Option.some.injEq]

/-- An event is recorded, and the journals get the charge it is, if it is one. -/
theorem RiskSound.recorded {e : DayEvent} (h : RiskSound past s)
    (follows : e.Follows (past day) (s.recordedOn day))
    (hactive : r.activeDailyRiskSeedTokens = s.risk.activeDailyRiskSeedTokens)
    (hload : r.activeDailyRiskLoad = s.risk.activeDailyRiskLoad)
    (hloadGeneration : r.dailyRiskLoadGeneration = s.risk.dailyRiskLoadGeneration)
    (hgeneration : s.risk.flattenChargeMutationGeneration ≤ r.flattenChargeMutationGeneration)
    (hgenerations : ∀ x, ∀ m ∈ r.mutationsOf x, m.generation ≤ r.flattenChargeMutationGeneration)
    (hjournal : ∀ g t, s.risk.activeDailyRiskSeedTokens.get? g = some t →
      ((r.mutationsOf t.tradingDay).filter (t.mutationGeneration < ·.generation)).map
          FlattenChargeMutation.charge =
        ((s.risk.mutationsOf t.tradingDay).filter (t.mutationGeneration < ·.generation)).map
          FlattenChargeMutation.charge ++
        if t.tradingDay = day then [e].filter DayEvent.journalled else []) :
    RiskSound past ((s.record day e).setRisk r) where
  keyed g t ht := h.keyed g t (hactive ▸ ht)
  captured g t ht := by
    have hcaptured := h.captured g t (hactive ▸ ht)
    show g ≤ r.dailyRiskLoadGeneration ∧ t.mutationGeneration ≤ r.flattenChargeMutationGeneration
    rw [hloadGeneration]
    exact ⟨hcaptured.1, Nat.le_trans hcaptured.2 hgeneration⟩
  generations := hgenerations
  reads g events hevents := by
    show g ≤ r.dailyRiskLoadGeneration
    rw [hloadGeneration]
    exact h.reads g events hevents
  days x := by
    show DayRecord (past x) ((s.record day e).recordedOn x)
    rw [recordedOn_record]
    split
    next hx =>
      subst hx
      exact .concat (h.days x) follows
    · exact h.days x
  journalled g t ht := by
    have ht' : s.risk.activeDailyRiskSeedTokens.get? g = some t := hactive ▸ ht
    obtain ⟨boundary, hle, hsame, hreads⟩ := h.journalled g t ht'
    have hrecorded : ((s.record day e).setRisk r).recordedOn t.tradingDay =
        s.recordedOn t.tradingDay ++ if t.tradingDay = day then [e] else [] := by
      show (s.record day e).recordedOn t.tradingDay = _
      rw [recordedOn_record]
      split
      next hday => rw [hday]
      · exact (List.append_nil _).symm
    refine ⟨boundary, ?_, ?_, fun events hevents => ?_⟩
    · rw [hrecorded, List.length_append]
      exact Nat.le_add_right_of_le hle
    · rw [hrecorded, List.drop_append_of_le_length hle, List.filter_append, ← hsame]
      refine (hjournal g t ht').trans ?_
      split <;> rfl
    · obtain ⟨n, hboundary, hn, hevents⟩ := hreads events hevents
      refine ⟨n, hboundary, ?_, ?_⟩
      · rw [hrecorded, List.length_append]
        exact Nat.le_add_right_of_le hn
      · rw [hrecorded, List.take_append_of_le_length hn]
        exact hevents
  load load hl := by
    obtain ⟨hkey, hday, hle, htoken⟩ := h.load load (hload ▸ hl)
    refine ⟨hkey, hday, ?_, fun t ht => htoken t (hactive ▸ ht)⟩
    show load.generation ≤ r.dailyRiskLoadGeneration
    rwa [hloadGeneration]

/-- An event that is no charge leaves the journals as they are. -/
theorem RiskSound.recordedOther {e : DayEvent} (h : RiskSound past s)
    (follows : e.Follows (past day) (s.recordedOn day)) (hother : e.journalled = false)
    (hactive : r.activeDailyRiskSeedTokens = s.risk.activeDailyRiskSeedTokens)
    (hload : r.activeDailyRiskLoad = s.risk.activeDailyRiskLoad)
    (hloadGeneration : r.dailyRiskLoadGeneration = s.risk.dailyRiskLoadGeneration)
    (hgeneration : r.flattenChargeMutationGeneration = s.risk.flattenChargeMutationGeneration)
    (hmutations : r.flattenChargeMutationsByDay = s.risk.flattenChargeMutationsByDay) :
    RiskSound past ((s.record day e).setRisk r) := by
  have hsame : ∀ x, r.mutationsOf x = s.risk.mutationsOf x := by
    intro x
    rw [DailyRisk.mutationsOf, DailyRisk.mutationsOf, hmutations]
  apply h.recorded follows hactive hload hloadGeneration (Nat.le_of_eq hgeneration.symm)
  · intro x m hm
    rw [hgeneration]
    exact h.generations x m (hsame x ▸ hm)
  · intro g t _
    simp [hsame, hother]

/-- A charge is journalled exactly when it advances its bucket on the trading day. -/
theorem RiskSound.recordedCharge (h : RiskSound past s) {a : AttemptId} {previous current : Int}
    (follows : (DayEvent.charged a previous current
      (day ≠ "" ∧ day = s.risk.tradingDay)).Follows (past day) (s.recordedOn day)) :
    RiskSound past ((s.record day (.charged a previous current
      (day ≠ "" ∧ day = s.risk.tradingDay))).setRisk
        (s.risk.recordFlattenCharge a day previous current)) := by
  obtain ⟨hprevious, -, habove, -⟩ := id follows
  have hcurrent : 0 ≤ current := Int.le_trans (bucket_nonneg _ _) habove
  rw [DailyRisk.recordFlattenCharge, max_eq_right hprevious, max_eq_right hcurrent]
  by_cases hskip : day = "" ∨ current ≤ previous ∨ day ≠ s.risk.tradingDay
  · rw [if_pos hskip]
    apply h.recordedOther follows _ rfl rfl rfl rfl rfl
    simp only [DayEvent.journalled, Bool.and_eq_false_iff, decide_eq_false_iff_not, not_lt,
      ne_eq, not_and]
    rcases hskip with hempty | hnoAdvance | hother
    · exact .inl fun hne => absurd hempty hne
    · exact .inr hnoAdvance
    · exact .inl fun _ => hother
  · rw [if_neg hskip]
    simp only [not_or, not_le, not_not, ne_eq] at hskip
    obtain ⟨hnonempty, hadvance, hday⟩ := hskip
    let mutation : FlattenChargeMutation :=
      { generation := s.risk.flattenChargeMutationGeneration + 1
        attemptId := a
        previousChargesForDay := previous
        chargesForDay := current }
    have hcharge : DayEvent.charged a previous current
        (day ≠ "" ∧ day = s.risk.tradingDay) = mutation.charge := by
      simp [FlattenChargeMutation.charge, mutation, hnonempty, ← hday]
    rw [hcharge] at follows ⊢
    dsimp only
    generalize hneeded : s.risk.activeDailyRiskSeedTokens.values.any (fun token =>
      token.tradingDay = day && token.mutationGeneration <
        s.risk.flattenChargeMutationGeneration + 1) = needed
    have hmutations : ∀ x, (((if needed = true then
          s.risk.flattenChargeMutationsByDay.set day (s.risk.mutationsOf day ++ [mutation])
        else s.risk.flattenChargeMutationsByDay).get? x).getD []) =
        s.risk.mutationsOf x ++ if needed = true ∧ x = day then [mutation] else [] := by
      intro x
      cases needed with
      | false => simp [DailyRisk.mutationsOf]
      | true =>
          by_cases hx : x = day
          · simp [hx]
          · simp [hx, DailyRisk.mutationsOf]
    apply h.recorded follows
    · rfl
    · rfl
    · rfl
    · exact Nat.le_succ _
    · intro x m hm
      rw [DailyRisk.mutationsOf, hmutations, List.mem_append] at hm
      rcases hm with hold | hnew
      · exact Nat.le_succ_of_le (h.generations x m hold)
      · split at hnew
        · rw [List.mem_singleton.mp hnew]
        · cases hnew
    · intro g t ht
      have hlt := Nat.lt_succ_of_le (h.captured g t ht).2
      rw [DailyRisk.mutationsOf, hmutations, List.filter_append, List.map_append]
      congr 1
      by_cases hx : t.tradingDay = day
      · have htrue : needed = true := by
          rw [← hneeded, List.any_eq_true]
          refine ⟨t, OrderedMap.mem_values_iff.mpr ⟨g, ht⟩, ?_⟩
          simpa [hx] using hlt
        simp [htrue, hx, mutation, hlt, FlattenChargeMutation.charge, DayEvent.journalled,
          hadvance]
      · simp [hx]

/-- A loader reads at or after the boundary of its token. -/
theorem RiskSound.read (h : RiskSound past s) {g : Nat} {token : DailyRiskSeedToken}
    (htoken : s.risk.activeDailyRiskSeedTokens.get? g = some token) :
    RiskSound past { s with reads := s.reads.set g (s.history past token.tradingDay) } where
  keyed := h.keyed
  captured := h.captured
  generations := h.generations
  reads g' events hevents := by
    simp only [OrderedMap.get?_set] at hevents
    split at hevents
    next hg => rw [hg]; exact (h.captured g token htoken).1
    · exact h.reads g' events hevents
  days := h.days
  journalled g' t ht := by
    obtain ⟨boundary, hle, hsame, hreads⟩ := h.journalled g' t ht
    refine ⟨boundary, hle, hsame, fun events hevents => ?_⟩
    simp only [OrderedMap.get?_set] at hevents
    split at hevents
    next hg =>
      rw [h.keyed g' t ht] at hg
      subst hg
      obtain rfl := Option.some.inj (ht.symm.trans htoken)
      refine ⟨(s.recordedOn t.tradingDay).length, hle, Nat.le_refl _, ?_⟩
      show events = past t.tradingDay ++ (s.recordedOn t.tradingDay).take _
      rw [List.take_length]
      exact (Option.some.inj hevents).symm
    · exact hreads events hevents
  load := h.load

/-- Every step keeps the invariant. -/
theorem RiskSound.step {hasLoader : Bool} {label : RiskLabel} {s' : RiskProcess}
    (h : RiskSound past s) (hstep : s.step hasLoader past label = some s') :
    RiskSound past s' := by
  cases label with
  | beginDailyRiskSeed day =>
      obtain rfl := Option.some.inj hstep
      exact h.capture day
  | abandonDailyRiskSeed generation =>
      obtain ⟨token, -, hs'⟩ := Option.bind_eq_some_iff.mp hstep
      obtain rfl := Option.some.inj hs'
      exact h.narrow (DailyRisk.narrows_abandon _ token)
  | refreshDailyRiskSeed =>
      obtain rfl := Option.some.inj hstep
      exact h.refresh hasLoader false
  | rollTradingDay next =>
      obtain rfl := Option.some.inj hstep
      exact h.roll hasLoader false next
  | read generation =>
      obtain ⟨token, htoken, hs'⟩ := Option.bind_eq_some_iff.mp hstep
      obtain rfl := Option.some.inj hs'
      exact h.read htoken
  | loadCompleted generation consecutiveFailures incomplete =>
      obtain ⟨events, -, hs'⟩ := Option.bind_eq_some_iff.mp hstep
      obtain rfl := Option.some.inj hs'
      exact h.narrow (narrows_loadCompleted _ _ _)
  | loadFailed generation =>
      obtain rfl := Option.some.inj hstep
      exact h.narrow (narrows_loadFailed _ generation)
  | loadTimedOut generation today =>
      obtain rfl := Option.some.inj hstep
      exact h.timedOut hasLoader false today generation
  | seedLimits generation consecutiveFailures incomplete =>
      obtain ⟨token, -, hread⟩ := Option.bind_eq_some_iff.mp hstep
      obtain ⟨events, -, hs'⟩ := Option.bind_eq_some_iff.mp hread
      obtain rfl := Option.some.inj hs'
      exact h.narrow (narrows_seedLimits _ _ _ _)
  | recordFlattenCharge attemptId day previous current =>
      obtain ⟨follows, rfl⟩ := recordNext_eq_some.mp hstep
      exact h.recordedCharge follows
  | recordRealisedPnl delta =>
      obtain ⟨follows, rfl⟩ := recordNext_eq_some.mp hstep
      exact h.recordedOther follows rfl rfl rfl rfl rfl rfl
  | brokerRejected =>
      obtain ⟨follows, rfl⟩ := recordNext_eq_some.mp hstep
      exact h.recordedOther follows rfl rfl rfl rfl rfl rfl

@[simp] theorem settle_realised (token : DailyRiskSeedToken) :
    (r.settleDailyRiskSeedToken token).realisedPnlToday = r.realisedPnlToday := by
  rw [DailyRisk.settleDailyRiskSeedToken, DailyRisk.compactFlattenChargeMutations]
  split <;> rfl

@[simp] theorem settle_rejects (token : DailyRiskSeedToken) :
    (r.settleDailyRiskSeedToken token).rejects = r.rejects := by
  rw [DailyRisk.settleDailyRiskSeedToken, DailyRisk.compactFlattenChargeMutations]
  split <;> rfl

/-- The counters after a seed is installed for an active token. -/
theorem seedLimits_active {token : DailyRiskSeedToken} (day : String) (seed : DailyRiskSeed)
    (hactive : r.activeDailyRiskSeedTokens.has token.loadGeneration = true) :
    (r.seedLimits day seed (some token)).realisedPnlToday =
        r.mergePostLoadFlattenCharges day seed.realisedPnl (some token)
          seed.flattenChargeBaselinesForDay ∧
      (r.seedLimits day seed (some token)).rejects = seed.rejects := by
  rw [DailyRisk.seedLimits, if_neg (by simp [hactive])]
  simp

/-- A label that installs a seed sets the counters from what the loader of the token has
read and from the journal of the token. -/
theorem RiskSound.installed {hasLoader : Bool} {label : RiskLabel} {s' : RiskProcess}
    {token : DailyRiskSeedToken} (h : RiskSound past s)
    (hinstalling : s.installing label = some token)
    (hstep : s.step hasLoader past label = some s') :
    ∃ events, s.reads.get? token.loadGeneration = some events ∧
      s.risk.activeDailyRiskSeedTokens.get? token.loadGeneration = some token ∧
      s'.recorded = s.recorded ∧
      s'.risk.realisedPnlToday = s.risk.mergePostLoadFlattenCharges token.tradingDay
        (dayNet events) (some token)
        ((events.filterMap DayEvent.attempt).map fun a => (a, bucket events a)) ∧
      s'.risk.rejects = rejections events := by
  cases label with
  | loadCompleted generation consecutiveFailures incomplete =>
      obtain ⟨events, hevents, hs'⟩ := Option.bind_eq_some_iff.mp hstep
      obtain rfl := Option.some.inj hs'
      obtain ⟨load, hload, htoken⟩ := Option.bind_eq_some_iff.mp hinstalling
      split at htoken
      · cases htoken
      next hcurrent =>
        obtain rfl := Option.some.inj htoken
        have hrunning := hload
        rw [DailyRisk.runningLoad, Option.filter_eq_some_iff, decide_eq_true_eq] at hrunning
        obtain ⟨hactiveLoad, rfl⟩ := hrunning
        obtain ⟨hkey, hday, -, hsame⟩ := h.load load hactiveLoad
        have hhas : s.risk.activeDailyRiskSeedTokens.has load.token.loadGeneration = true := by
          simpa using (not_or.mp hcurrent).2
        obtain ⟨t, ht⟩ := OrderedMap.has_iff.mp hhas
        rw [hkey] at ht
        obtain rfl := hsame t ht
        have hseed := seedLimits_active (r := { s.risk with activeDailyRiskLoad := none })
          load.day (snapshotSeed events consecutiveFailures incomplete) hhas
        refine ⟨events, hkey ▸ hevents, hkey ▸ ht, rfl, ?_, ?_⟩
        · show (s.risk.loadCompleted load.generation _).realisedPnlToday = _
          rw [DailyRisk.loadCompleted, hload]
          simp only [if_neg hcurrent, hseed.1, hday]
          rfl
        · show (s.risk.loadCompleted load.generation _).rejects = _
          rw [DailyRisk.loadCompleted, hload]
          simp only [if_neg hcurrent, hseed.2]
          rfl
  | seedLimits generation consecutiveFailures incomplete =>
      obtain ⟨t, ht, hread⟩ := Option.bind_eq_some_iff.mp hstep
      obtain ⟨events, hevents, hs'⟩ := Option.bind_eq_some_iff.mp hread
      obtain rfl := Option.some.inj hs'
      obtain rfl := Option.some.inj (ht.symm.trans hinstalling)
      have hkey := h.keyed generation t ht
      rw [← hkey] at ht hevents
      have hseed := seedLimits_active t.tradingDay
        (snapshotSeed events consecutiveFailures incomplete) (OrderedMap.has_iff.mpr ⟨t, ht⟩)
      exact ⟨events, hevents, ht, rfl, hseed.1, hseed.2⟩
  | beginDailyRiskSeed day => cases hinstalling
  | abandonDailyRiskSeed generation => cases hinstalling
  | refreshDailyRiskSeed => cases hinstalling
  | rollTradingDay next => cases hinstalling
  | read generation => cases hinstalling
  | loadFailed generation => cases hinstalling
  | loadTimedOut generation today => cases hinstalling
  | recordFlattenCharge attemptId day previous current => cases hinstalling
  | recordRealisedPnl delta => cases hinstalling
  | brokerRejected => cases hinstalling

theorem lookup_map_getD (f : AttemptId → Int) (xs : List AttemptId) (a : AttemptId)
    (h : a ∉ xs → f a = 0) : ((xs.map fun x => (x, f x)).lookup a).getD 0 = f a := by
  induction xs with
  | nil => exact (h List.not_mem_nil).symm
  | cons x xs ih =>
      rw [List.map_cons, List.lookup_cons]
      by_cases hx : a = x
      · simp [hx]
      · have hbeq : (a == x) = false := by simpa using hx
        rw [hbeq]
        exact ih fun hnot => h (by simp [hx, hnot])

theorem unseededCharge_eq (events : List DayEvent) (m : FlattenChargeMutation) :
    DailyRisk.unseededCharge ((events.filterMap DayEvent.attempt).map fun a =>
      (a, bucket events a)) m = m.charge.above (bucket events) := by
  have hbaseline := lookup_map_getD (bucket events) (events.filterMap DayEvent.attempt)
    m.attemptId fun hnot => bucket_eq_zero (by simpa [chargedAttempts] using hnot)
  rw [DailyRisk.unseededCharge, hbaseline, max_eq_right (bucket_nonneg events _)]
  rfl

/-- A charge within what has been read adds nothing. -/
theorem above_read {events : List DayEvent} {e : DayEvent} (h : e ∈ events) :
    e.above (bucket events) = 0 := by
  cases e with
  | realised delta => rfl
  | rejected => rfl
  | charged a previous current onDay =>
      have hreached : current ≤ bucket events a := reached_le_bucket h rfl
      exact max_eq_left (by omega)

/-- A charge on its day that is not journalled adds nothing. -/
theorem sum_above_filter {es : List DayEvent} (baseline : AttemptId → Int)
    (hnoted : ∀ e ∈ es, e.Noted) :
    ((es.filter DayEvent.journalled).map (DayEvent.above baseline)).sum =
      (es.map (DayEvent.above baseline)).sum := by
  induction es with
  | nil => rfl
  | cons e es ih =>
      have hrest := ih fun e' he' => hnoted e' (List.mem_cons_of_mem e he')
      rw [List.filter_cons, List.map_cons, List.sum_cons]
      split
      · rw [List.map_cons, List.sum_cons, hrest]
      next hnot =>
        have hzero : e.above baseline = 0 := by
          cases e with
          | realised delta => rfl
          | rejected => rfl
          | charged a previous current onDay =>
              have honDay : previous < current → onDay = true := hnoted _ List.mem_cons_self
              have hle : current ≤ previous := by
                by_contra hlt
                exact hnot (by simp [DayEvent.journalled, honDay (not_le.mp hlt), not_le.mp hlt])
              exact max_eq_left (by omega)
        rw [hrest, hzero, zero_add]

/-- The charges in the journal of a token, above what its loader has read, are those of
what it has not read. -/
theorem RiskSound.sum_unseeded {token : DailyRiskSeedToken} {events : List DayEvent}
    (h : RiskSound past s)
    (htoken : s.risk.activeDailyRiskSeedTokens.get? token.loadGeneration = some token)
    (hevents : s.reads.get? token.loadGeneration = some events)
    (hnoted : ∀ e ∈ s.unread past token, e.Noted) :
    s.history past token.tradingDay = events ++ s.unread past token ∧
      chargeTotal (s.history past token.tradingDay) = chargeTotal events +
        (((s.risk.mutationsOf token.tradingDay).filter
          (token.mutationGeneration < ·.generation)).map
            (DailyRisk.unseededCharge ((events.filterMap DayEvent.attempt).map fun a =>
              (a, bucket events a)))).sum := by
  obtain ⟨boundary, hle, hjournal, hreads⟩ := h.journalled token.loadGeneration token htoken
  obtain ⟨n, hboundary, hn, hread⟩ := hreads events hevents
  generalize hrecorded : s.recordedOn token.tradingDay = recorded at *
  have hhistory : s.history past token.tradingDay = past token.tradingDay ++ recorded := by
    rw [history, hrecorded]
  have hunread : s.unread past token = recorded.drop n := by
    rw [unread, hhistory, hevents, Option.getD_some, hread, List.length_append,
      List.length_take_of_le hn, List.drop_append]
    simp
  have hsplit : recorded.take n ++ recorded.drop n = recorded := List.take_append_drop n recorded
  refine ⟨?_, ?_⟩
  · rw [hhistory, hunread, hread, List.append_assoc, hsplit]
  · have hday := h.days token.tradingDay
    rw [hrecorded, ← hsplit] at hday
    have hgrowth := chargeTotal_growth hday
    rw [hsplit, ← hread, ← hhistory] at hgrowth
    rw [hgrowth]
    congr 1
    -- the journal starts at the boundary, which the loader has read past
    have hdrop : recorded.drop boundary =
        (recorded.take n).drop boundary ++ recorded.drop n := by
      rw [← List.drop_append_of_le_length (by rw [List.length_take_of_le hn]; exact hboundary),
        hsplit]
    have hcharges : (((s.risk.mutationsOf token.tradingDay).filter
        (token.mutationGeneration < ·.generation)).map
          (DailyRisk.unseededCharge ((events.filterMap DayEvent.attempt).map fun a =>
            (a, bucket events a)))) =
        ((((recorded.take n).drop boundary).filter DayEvent.journalled).map
          (DayEvent.above (bucket events))) ++
        (((recorded.drop n).filter DayEvent.journalled).map
          (DayEvent.above (bucket events))) := by
      rw [← List.map_append, ← List.filter_append, ← hdrop, ← hjournal, List.map_map]
      exact List.map_congr_left fun m _ => unseededCharge_eq events m
    have hzero : ((((recorded.take n).drop boundary).filter DayEvent.journalled).map
        (DayEvent.above (bucket events))).sum = 0 := by
      apply List.sum_eq_zero
      intro x hx
      obtain ⟨e, he, rfl⟩ := List.mem_map.mp hx
      apply above_read
      rw [hread]
      exact List.mem_append_right _ (List.mem_of_mem_drop (List.mem_of_mem_filter he))
    rw [hcharges, List.sum_append, hzero, zero_add, ← hunread, sum_above_filter _ hnoted]

/-- An installed seed is exact exactly when nothing is overwritten. -/
theorem RiskSound.seedExact_iff {hasLoader : Bool} {label : RiskLabel} {s' : RiskProcess}
    (h : RiskSound past s) (hnoted : ChargesNoted past s label)
    (hstep : s.step hasLoader past label = some s') :
    SeedExact hasLoader past s label ↔ NothingOverwritten past s label := by
  cases hinstalling : s.installing label with
  | none =>
      constructor
      · intro _ token htoken
        rw [hinstalling] at htoken
        cases htoken
      · intro _ token htoken
        rw [hinstalling] at htoken
        cases htoken
  | some token =>
      obtain ⟨events, hevents, hactive, hrecorded, hrealised, hrejects⟩ :=
        h.installed hinstalling hstep
      obtain ⟨hhistory, hcharges⟩ :=
        h.sum_unseeded hactive hevents (hnoted token hinstalling)
      have hsame : s'.history past token.tradingDay = s.history past token.tradingDay := by
        rw [history, recordedOn, hrecorded]
        rfl
      have hnet : s'.risk.realisedPnlToday =
          dayNet (s.history past token.tradingDay) - realisedSum (s.unread past token) := by
        have hrealisedSum : realisedSum (s.history past token.tradingDay) =
            realisedSum events + realisedSum (s.unread past token) := by
          rw [hhistory, realisedSum_append]
        rw [hrealised, DailyRisk.mergePostLoadFlattenCharges, Option.filter_some,
          if_pos (by simp), dayNet, dayNet, hcharges, hrealisedSum]
        show realisedSum events - chargeTotal events - _ = _
        omega
      have hcount : rejections (s.history past token.tradingDay) =
          s'.risk.rejects + rejections (s.unread past token) := by
        rw [hhistory, rejections_append, hrejects]
      constructor
      · intro hexact t ht
        obtain rfl := Option.some.inj (hinstalling.symm.trans ht)
        obtain ⟨hpnl, hrej⟩ := hexact token hinstalling s' hstep
        rw [hsame] at hpnl hrej
        constructor <;> omega
      · intro hnothing t ht t' ht'
        obtain rfl := Option.some.inj (hinstalling.symm.trans ht)
        obtain rfl := Option.some.inj (hstep.symm.trans ht')
        obtain ⟨hpnl, hrej⟩ := hnothing token hinstalling
        rw [hsame]
        constructor <;> omega

end Sound

/-- Along every run of a new manager in which no charge that a loader has not read was
recorded off its day, every installed seed is exact exactly when no P&L delta and no
rejection is overwritten. -/
theorem seed_installs_exact_iff (hasLoader : Bool) (past : PastDays) (day : String)
    (labels : List RiskLabel)
    (hnoted : Heeds (RiskProcess.step hasLoader past) (ChargesNoted past) (create day) labels) :
    Heeds (RiskProcess.step hasLoader past) (SeedExact hasLoader past) (create day) labels ↔
      Heeds (RiskProcess.step hasLoader past) (NothingOverwritten past) (create day) labels := by
  apply Heeds.congr (fun s a t => RiskSound.step) _ (riskSound_create past day) hnoted
  intro s a t h hn hstep
  exact h.seedExact_iff hn hstep

namespace Sample

/-- Nothing was durable before the process. -/
def noPast : PastDays := fun _ => []

/-- A loss is recorded between the snapshot of a load and its completion. -/
def lossOverwritten : List RiskLabel :=
  [.refreshDailyRiskSeed, .read 1, .recordRealisedPnl (-500), .loadCompleted 1 0 false]

/-- A charge is recorded on each side of the snapshot, a loss and a rejection before it. -/
def chargesMerged : List RiskLabel :=
  [.refreshDailyRiskSeed, .recordFlattenCharge "A" "D" 0 10, .recordRealisedPnl (-500),
    .brokerRejected, .read 1, .recordFlattenCharge "A" "D" 10 15, .loadCompleted 1 0 false]

end Sample

/-- A loss of 500 that is recorded while a load is running is lost when it completes. -/
theorem loss_overwritten :
    ¬Heeds (RiskProcess.step true Sample.noPast) (SeedExact true Sample.noPast) (create "D")
        Sample.lossOverwritten ∧
      (run (RiskProcess.step true Sample.noPast) (create "D") Sample.lossOverwritten).map
          (fun s => (s.risk.realisedPnlToday, dayNet (s.history Sample.noPast "D"))) =
        some (0, -500) := by
  constructor
  · decide +kernel
  · decide +kernel

theorem seed_installs_exact_sample :
    Heeds (RiskProcess.step true Sample.noPast) (SeedExact true Sample.noPast) (create "D")
      Sample.chargesMerged :=
  (seed_installs_exact_iff true Sample.noPast "D" Sample.chargesMerged
    (by decide +kernel)).mpr (by decide +kernel)

end Strikedge.Orders
