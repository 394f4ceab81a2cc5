import Strikedge.Machine.OrderedMap
import Strikedge.PaperLegs.BookWalk

/-!
# The paper liquidity ledger

Concurrent paper attempts share the books they observe. `tryFill` reads what the others have
reserved of each price, walks the book and reserves what it takes, in one synchronous block. The
ledger keeps, of each price series, the reservations of its latest book version only.
-/

namespace Strikedge.LiquidityLedger

open Machine Orders OrderPricing BookWalk
open PaperLegs (BoxQueueModel)

/-- `priceSeriesKey`: a price, to the paisa, of one side of an instrument in a generation. -/
structure Series where
  generation : ℕ
  token : ℕ
  side : OrderSide
  paise : ℤ
  deriving DecidableEq, Repr

/-- `levelKey` -/
structure LevelKey where
  series : Series
  version : ℕ
  deriving DecidableEq, Repr

def seriesOf (generation token : ℕ) (side : OrderSide) (price : ℚ) : Series :=
  ⟨generation, token, side, mathRound (price * 100)⟩

structure PaperLiquidityLedger where
  reserved : OrderedMap LevelKey ℕ
  latestVersion : OrderedMap Series ℕ
  maxSeries : ℕ

namespace PaperLiquidityLedger

def new (maxSeries : ℕ) : PaperLiquidityLedger := ⟨∅, ∅, max 1 maxSeries⟩

def reservedAt (ledger : PaperLiquidityLedger) (key : LevelKey) : ℕ :=
  match ledger.latestVersion.get? key.series with
  | some latest =>
    if key.version < latest then 0 else (ledger.reserved.get? key).getD 0
  | none => (ledger.reserved.get? key).getD 0

def availableAt (ledger : PaperLiquidityLedger) (key : LevelKey) (effectiveForLevel : ℕ) : ℕ :=
  effectiveForLevel - ledger.reservedAt key

/-- The series inserted first is forgotten. -/
def dropOldest (ledger : PaperLiquidityLedger) : PaperLiquidityLedger :=
  match ledger.latestVersion.entries with
  | [] => ledger
  | (series, version) :: _ =>
    { ledger with
      latestVersion := ledger.latestVersion.delete series
      reserved := ledger.reserved.delete ⟨series, version⟩ }

/-- The loop of `evictIfNeeded`, which takes one series a turn. -/
def evict (ledger : PaperLiquidityLedger) : ℕ → PaperLiquidityLedger
  | 0 => ledger
  | turns + 1 =>
    if ledger.maxSeries < ledger.latestVersion.size then ledger.dropOldest.evict turns else ledger

def evictIfNeeded (ledger : PaperLiquidityLedger) : PaperLiquidityLedger :=
  ledger.evict ledger.latestVersion.size

/-- What `reserve` does on a book newer than the latest of its series. -/
def startVersion (ledger : PaperLiquidityLedger) (key : LevelKey) : PaperLiquidityLedger :=
  let reserved :=
    match ledger.latestVersion.get? key.series with
    | some latest => ledger.reserved.delete ⟨key.series, latest⟩
    | none => ledger.reserved
  { ledger with
    reserved := reserved
    latestVersion := ledger.latestVersion.set key.series key.version }

def add (ledger : PaperLiquidityLedger) (key : LevelKey) (qty : ℕ) : PaperLiquidityLedger :=
  { ledger with reserved := ledger.reserved.set key ((ledger.reserved.get? key).getD 0 + qty) }

def reserve (ledger : PaperLiquidityLedger) (key : LevelKey) (qty : ℕ) : PaperLiquidityLedger :=
  if qty = 0 then ledger
  else
    match ledger.latestVersion.get? key.series with
    | none => ((ledger.startVersion key).evictIfNeeded).add key qty
    | some latest =>
      if latest < key.version then ((ledger.startVersion key).evictIfNeeded).add key qty
      else if key.version < latest then ledger
      else ledger.add key qty

end PaperLiquidityLedger

/-- The levels of each side of each book version. -/
abbrev Books := ℕ → ℕ → ℕ → OrderSide → List BoxDepthLevel

/-- What the pricing policy says of a queue. -/
structure QueuePolicy where
  queueModel : BoxQueueModel
  queueHaircutPct : Number

/-- One `tryFill` of a paper attempt. -/
structure Attempt where
  generation : ℕ
  token : ℕ
  side : OrderSide
  version : ℕ
  remainingQty : ℕ
  limitPrice : ℚ
  takenAt : ℚ
  deriving DecidableEq, Repr

namespace Attempt

def key (attempt : Attempt) (price : ℚ) : LevelKey :=
  ⟨seriesOf attempt.generation attempt.token attempt.side price, attempt.version⟩

def walkArgs (attempt : Attempt) (policy : QueuePolicy) (ledger : PaperLiquidityLedger) :
    WalkArgs where
  side := attempt.side
  remainingQty := attempt.remainingQty
  limitPrice := attempt.limitPrice
  queueModel := policy.queueModel
  haircutPct := policy.queueHaircutPct
  takenAt := attempt.takenAt
  quoteVersion := some attempt.version
  reserved := some fun price version =>
    .finite (ledger.reservedAt
      ⟨seriesOf attempt.generation attempt.token attempt.side price,
        version.getD attempt.version⟩)

/-- The slices it takes from the book of its version. -/
def slices (attempt : Attempt) (books : Books) (policy : QueuePolicy)
    (ledger : PaperLiquidityLedger) : List PaperFillSlice :=
  (walkDepth (attempt.walkArgs policy ledger)
    (books attempt.generation attempt.token attempt.version attempt.side)).slices

/-- The reservations of these slices. -/
def takes (attempt : Attempt) (books : Books) (policy : QueuePolicy)
    (ledger : PaperLiquidityLedger) : List (LevelKey × ℕ) :=
  (attempt.slices books policy ledger).map fun slice =>
    (⟨seriesOf attempt.generation attempt.token attempt.side slice.price,
      slice.quoteVersion.getD attempt.version⟩, slice.qty)

end Attempt

/-- The ledger, and beside it all that was taken. -/
structure Market where
  ledger : PaperLiquidityLedger
  taken : List (LevelKey × ℕ) := []

def Market.tryFill (books : Books) (policy : QueuePolicy) (market : Market) (attempt : Attempt) :
    Market :=
  let takes := attempt.takes books policy market.ledger
  { ledger := takes.foldl (fun ledger take => ledger.reserve take.1 take.2) market.ledger
    taken := market.taken ++ takes }

/-- Any attempts, in the order their blocks run. -/
def Market.run (books : Books) (policy : QueuePolicy) (market : Market)
    (attempts : List Attempt) : Market :=
  attempts.foldl (Market.tryFill books policy) market

/-- What was taken at a key. -/
def total (taken : List (LevelKey × ℕ)) (key : LevelKey) : ℕ :=
  ((taken.filter fun take => take.1 = key).map Prod.snd).sum

/-- The queue-adjusted quantity a book version displays at a price. -/
def displayed (books : Books) (policy : QueuePolicy) (key : LevelKey) : ℕ :=
  let levels := books key.series.generation key.series.token key.version key.series.side
  let here := (levels.filterMap usable?).filter fun lv =>
    mathRound (lv.price * 100) = key.series.paise
  (here.map fun lv => effectiveQty lv.qty policy.queueModel policy.queueHaircutPct).sum

namespace PaperLiquidityLedger

section Reserve

variable {ledger : PaperLiquidityLedger} {key other : LevelKey} {series : Series} {qty n : ℕ}

/-- Only the latest version of a series has reservations. -/
def Consistent (ledger : PaperLiquidityLedger) : Prop :=
  ∀ key n, ledger.reserved.get? key = some n →
    ledger.latestVersion.get? key.series = some key.version

theorem reservedAt_le : ledger.reservedAt key ≤ (ledger.reserved.get? key).getD 0 := by
  rw [reservedAt]
  split
  · split
    · exact Nat.zero_le _
    · exact le_rfl
  · exact le_rfl

theorem Consistent.reservedAt_eq (h : ledger.Consistent) :
    ledger.reservedAt key = (ledger.reserved.get? key).getD 0 := by
  rw [reservedAt]
  cases hkey : ledger.reserved.get? key with
  | none => split <;> simp
  | some n =>
    rw [h key n hkey]
    simp

/-- What `after` knows of versions and of the reservations at other keys, `before` knew. -/
structure Shrinks (after before : PaperLiquidityLedger) : Prop where
  reserved : ∀ key n, after.reserved.get? key = some n → before.reserved.get? key = some n
  latest : ∀ series version, after.latestVersion.get? series = some version →
    before.latestVersion.get? series = some version
  maxSeries : after.maxSeries = before.maxSeries

theorem Shrinks.refl (ledger : PaperLiquidityLedger) : Shrinks ledger ledger :=
  ⟨fun _ _ h => h, fun _ _ h => h, rfl⟩

theorem Shrinks.trans {third : PaperLiquidityLedger} (h : Shrinks ledger third)
    {after : PaperLiquidityLedger} (h' : Shrinks after ledger) : Shrinks after third :=
  ⟨fun key n hn => h.reserved key n (h'.reserved key n hn),
    fun series version hv => h.latest series version (h'.latest series version hv),
    h'.maxSeries.trans h.maxSeries⟩

theorem dropOldest_shrinks (ledger : PaperLiquidityLedger) : Shrinks ledger.dropOldest ledger := by
  rw [dropOldest]
  split
  · exact Shrinks.refl ledger
  · refine ⟨?_, ?_, rfl⟩
    · intro key n h
      rw [OrderedMap.get?_delete] at h
      split at h
      · cases h
      · exact h
    · intro series version h
      rw [OrderedMap.get?_delete] at h
      split at h
      · cases h
      · exact h

theorem evict_shrinks (turns : ℕ) (ledger : PaperLiquidityLedger) :
    Shrinks (ledger.evict turns) ledger := by
  induction turns generalizing ledger with
  | zero => exact Shrinks.refl ledger
  | succ turns ih =>
    rw [evict]
    split
    · exact (dropOldest_shrinks ledger).trans (ih ledger.dropOldest)
    · exact Shrinks.refl ledger

theorem evict_of_le (turns : ℕ) (h : ledger.latestVersion.size ≤ ledger.maxSeries) :
    ledger.evict turns = ledger := by
  cases turns with
  | zero => rfl
  | succ turns => rw [evict, if_neg (not_lt.mpr h)]

theorem startVersion_reserved (h : (ledger.startVersion key).reserved.get? other = some n) :
    ledger.reserved.get? other = some n := by
  rw [startVersion] at h
  cases hlatest : ledger.latestVersion.get? key.series with
  | none =>
    rw [hlatest] at h
    exact h
  | some latest =>
    rw [hlatest] at h
    simp only [OrderedMap.get?_delete] at h
    split at h
    · cases h
    · exact h

/-- The two things `reserve` may do. -/
theorem reserve_cases (ledger : PaperLiquidityLedger) (key : LevelKey) (qty : ℕ) :
    ledger.reserve key qty = ledger ∨
      (ledger.latestVersion.get? key.series = some key.version ∧
        ledger.reserve key qty = ledger.add key qty) ∨
      (∀ latest, ledger.latestVersion.get? key.series = some latest → latest < key.version) ∧
        ledger.reserve key qty = ((ledger.startVersion key).evictIfNeeded).add key qty := by
  by_cases hqty : qty = 0
  · exact .inl (by rw [reserve, if_pos hqty])
  · rw [reserve, if_neg hqty]
    cases hlatest : ledger.latestVersion.get? key.series with
    | none => exact .inr (.inr ⟨fun latest h => (Option.some_ne_none _ h.symm).elim, rfl⟩)
    | some latest =>
      by_cases hnewer : latest < key.version
      · refine .inr (.inr ⟨?_, by simp only [if_pos hnewer]⟩)
        intro found hfound
        obtain rfl := Option.some.inj hfound
        exact hnewer
      · by_cases holder : key.version < latest
        · exact .inl (by simp only [if_neg hnewer, if_pos holder])
        · refine .inr (.inl ⟨?_, by simp only [if_neg hnewer, if_neg holder]⟩)
          rw [le_antisymm (not_lt.mp hnewer) (not_lt.mp holder)]

theorem reserved_of_reserve (hother : other ≠ key)
    (h : (ledger.reserve key qty).reserved.get? other = some n) :
    ledger.reserved.get? other = some n := by
  obtain heq | ⟨-, heq⟩ | ⟨-, heq⟩ := reserve_cases ledger key qty
  · rwa [heq] at h
  · rw [heq, add, OrderedMap.get?_set, if_neg hother] at h
    exact h
  · rw [heq, add, OrderedMap.get?_set, if_neg hother] at h
    exact startVersion_reserved ((evict_shrinks _ _).reserved other n h)

theorem latest_of_reserve {version : ℕ}
    (h : (ledger.reserve key qty).latestVersion.get? series = some version) :
    ledger.latestVersion.get? series = some version ∨
      series = key.series ∧ version = key.version := by
  obtain heq | ⟨-, heq⟩ | ⟨-, heq⟩ := reserve_cases ledger key qty
  · rw [heq] at h
    exact .inl h
  · rw [heq] at h
    exact .inl h
  · rw [heq] at h
    have hstarted := (evict_shrinks _ _).latest series version h
    rw [startVersion, OrderedMap.get?_set] at hstarted
    split at hstarted
    · rename_i hseries
      exact .inr ⟨hseries, (Option.some.inj hstarted).symm⟩
    · exact .inl hstarted

theorem maxSeries_reserve : (ledger.reserve key qty).maxSeries = ledger.maxSeries := by
  obtain heq | ⟨-, heq⟩ | ⟨-, heq⟩ := reserve_cases ledger key qty
  · rw [heq]
  · rw [heq]
    rfl
  · rw [heq]
    exact (evict_shrinks _ _).maxSeries

/-- A reservation takes nothing away at any other key. -/
theorem Consistent.availableAt_le (h : ledger.Consistent) (hother : other ≠ key)
    (effectiveForLevel : ℕ) : ledger.availableAt other effectiveForLevel ≤
      (ledger.reserve key qty).availableAt other effectiveForLevel := by
  have hreserved : (ledger.reserve key qty).reservedAt other ≤ ledger.reservedAt other := by
    apply le_trans reservedAt_le
    rw [h.reservedAt_eq]
    cases hafter : (ledger.reserve key qty).reserved.get? other with
    | none => exact Nat.zero_le _
    | some n => rw [reserved_of_reserve hother hafter]
  exact Nat.sub_le_sub_left hreserved _

end Reserve

end PaperLiquidityLedger

section Taken

variable {taken rest : List (LevelKey × ℕ)} {key other : LevelKey} {qty : ℕ}

theorem total_append : total (taken ++ rest) key = total taken key + total rest key := by
  rw [total, total, total, List.filter_append, List.map_append, List.sum_append]

theorem total_singleton : total [(key, qty)] other = if key = other then qty else 0 := by
  by_cases h : key = other
  · simp [total, h]
  · simp [total, h]

/-- The price series that appear in what was taken. -/
def tracked (taken : List (LevelKey × ℕ)) : Finset Series :=
  (taken.map fun take => take.1.series).toFinset

theorem tracked_mono : tracked taken ⊆ tracked (taken ++ rest) := by
  intro series
  simp only [tracked, List.mem_toFinset, List.map_append, List.mem_append]
  exact Or.inl

end Taken

/-- The reservations of the latest version of a series are all that was taken there, nothing was
taken at a later one, and an older one has no reservations. -/
structure Records (ledger : PaperLiquidityLedger) (taken : List (LevelKey × ℕ)) : Prop where
  current : ∀ series latest, ledger.latestVersion.get? series = some latest →
    (ledger.reserved.get? ⟨series, latest⟩).getD 0 = total taken ⟨series, latest⟩
  bounded : ∀ key, 0 < total taken key → ∃ latest,
    ledger.latestVersion.get? key.series = some latest ∧ key.version ≤ latest
  consistent : ledger.Consistent

/-- A ledger knows no series but those that were taken from. -/
def Tracks (ledger : PaperLiquidityLedger) (taken : List (LevelKey × ℕ)) : Prop :=
  ∀ series latest, ledger.latestVersion.get? series = some latest → series ∈ tracked taken

namespace Records

variable {ledger : PaperLiquidityLedger} {taken : List (LevelKey × ℕ)} {key : LevelKey} {qty : ℕ}

theorem new (maxSeries : ℕ) : Records (.new maxSeries) [] := by
  constructor
  · intro series latest h
    exact absurd h (Option.some_ne_none latest).symm
  · intro key h
    exact absurd h (lt_irrefl 0)
  · intro key n h
    exact absurd h (Option.some_ne_none n).symm

/-- On the latest book of its series a price has reserved what was taken there. -/
theorem reservedAt_eq (h : Records ledger taken)
    (hlatest : ∀ latest, ledger.latestVersion.get? key.series = some latest →
      latest ≤ key.version) :
    ledger.reservedAt key = total taken key := by
  rw [h.consistent.reservedAt_eq]
  cases hfound : ledger.latestVersion.get? key.series with
  | none =>
    have hnone : ledger.reserved.get? key = none := by
      by_contra hne
      obtain ⟨n, hn⟩ := Option.ne_none_iff_exists'.mp hne
      have hcontra := h.consistent key n hn
      rw [hfound] at hcontra
      cases hcontra
    have hzero : total taken key = 0 := by
      by_contra hne
      obtain ⟨latest, hcontra, -⟩ := h.bounded key (Nat.pos_of_ne_zero hne)
      rw [hfound] at hcontra
      cases hcontra
    rw [hnone, hzero, Option.getD_none]
  | some latest =>
    by_cases hsame : latest = key.version
    · have hcurrent := h.current key.series latest hfound
      rwa [hsame] at hcurrent
    · have hnone : ledger.reserved.get? key = none := by
        by_contra hne
        obtain ⟨n, hn⟩ := Option.ne_none_iff_exists'.mp hne
        have hcontra := h.consistent key n hn
        rw [hfound] at hcontra
        exact hsame (Option.some.inj hcontra)
      have hzero : total taken key = 0 := by
        by_contra hne
        obtain ⟨later, hcontra, hle⟩ := h.bounded key (Nat.pos_of_ne_zero hne)
        rw [hfound] at hcontra
        obtain rfl := Option.some.inj hcontra
        exact hsame (le_antisymm (hlatest latest hfound) hle)
      rw [hnone, hzero, Option.getD_none]

/-- A reservation on the latest book of its series. -/
theorem add (h : Records ledger taken)
    (hlatest : ledger.latestVersion.get? key.series = some key.version) :
    Records (ledger.add key qty) (taken ++ [(key, qty)]) := by
  constructor
  · intro series latest hfound
    rw [total_append, total_singleton, PaperLiquidityLedger.add, OrderedMap.get?_set]
    by_cases hsame : (⟨series, latest⟩ : LevelKey) = key
    · obtain rfl := hsame
      rw [if_pos rfl, if_pos rfl, Option.getD_some, h.current series latest hlatest]
    · rw [if_neg hsame, if_neg (Ne.symm hsame), Nat.add_zero]
      exact h.current series latest hfound
  · intro other hpos
    rw [total_append, total_singleton] at hpos
    by_cases hsame : key = other
    · obtain rfl := hsame
      exact ⟨key.version, hlatest, le_rfl⟩
    · rw [if_neg hsame, Nat.add_zero] at hpos
      exact h.bounded other hpos
  · intro other n hfound
    rw [PaperLiquidityLedger.add, OrderedMap.get?_set] at hfound
    split at hfound
    · rename_i hsame
      rw [hsame]
      exact hlatest
    · exact h.consistent other n hfound

/-- A book newer than any of its series has nothing reserved. -/
theorem startVersion (h : Records ledger taken)
    (hnewer : ∀ latest, ledger.latestVersion.get? key.series = some latest →
      latest < key.version) :
    Records (ledger.startVersion key) taken := by
  have hzero : total taken key = 0 := by
    by_contra hne
    obtain ⟨latest, hfound, hle⟩ := h.bounded key (Nat.pos_of_ne_zero hne)
    exact absurd (hnewer latest hfound) (not_lt.mpr hle)
  have hnone : ledger.reserved.get? key = none := by
    by_contra hne
    obtain ⟨n, hn⟩ := Option.ne_none_iff_exists'.mp hne
    exact absurd (hnewer _ (h.consistent key n hn)) (lt_irrefl _)
  constructor
  · intro series latest hfound
    have hstarted : (ledger.latestVersion.set key.series key.version).get? series =
        some latest := hfound
    rw [OrderedMap.get?_set] at hstarted
    split at hstarted
    · rename_i hseries
      obtain rfl := Option.some.inj hstarted
      obtain rfl := hseries
      have hafter : (ledger.startVersion key).reserved.get? key = none := by
        by_contra hne
        obtain ⟨n, hn⟩ := Option.ne_none_iff_exists'.mp hne
        have hbefore := PaperLiquidityLedger.startVersion_reserved hn
        rw [hnone] at hbefore
        cases hbefore
      rw [hafter, hzero, Option.getD_none]
    · rename_i hseries
      rw [← h.current series latest hstarted]
      congr 1
      rw [PaperLiquidityLedger.startVersion]
      cases hold : ledger.latestVersion.get? key.series with
      | none => rfl
      | some old =>
        have hother : (⟨series, latest⟩ : LevelKey) ≠ ⟨key.series, old⟩ := by
          intro heq
          exact hseries (congrArg LevelKey.series heq)
        simp only [OrderedMap.get?_delete, if_neg hother]
  · intro other hpos
    obtain ⟨latest, hfound, hle⟩ := h.bounded other hpos
    by_cases hseries : other.series = key.series
    · refine ⟨key.version, ?_, ?_⟩
      · rw [PaperLiquidityLedger.startVersion, OrderedMap.get?_set, if_pos hseries]
      · rw [hseries] at hfound
        exact le_trans hle (hnewer latest hfound).le
    · refine ⟨latest, ?_, hle⟩
      rw [PaperLiquidityLedger.startVersion, OrderedMap.get?_set, if_neg hseries]
      exact hfound
  · intro other n hfound
    have hbefore := PaperLiquidityLedger.startVersion_reserved hfound
    have hlatest := h.consistent other n hbefore
    rw [PaperLiquidityLedger.startVersion, OrderedMap.get?_set]
    split
    · rename_i hseries
      rw [hseries] at hlatest
      rw [PaperLiquidityLedger.startVersion, hlatest] at hfound
      have hself : (⟨key.series, other.version⟩ : LevelKey) = other := by
        rw [← hseries]
      simp [hself] at hfound
    · exact hlatest

end Records

section Reserve

variable {ledger : PaperLiquidityLedger} {taken : List (LevelKey × ℕ)} {key : LevelKey} {qty : ℕ}

/-- A ledger knows no more series than were taken from. -/
theorem Tracks.size_le (h : Tracks ledger taken) :
    ledger.latestVersion.size ≤ (tracked taken).card := by
  have hkeys : ledger.latestVersion.keys.toFinset ⊆ tracked taken := by
    intro series hseries
    obtain ⟨latest, hlatest⟩ := OrderedMap.mem_keys_iff.mp (List.mem_toFinset.mp hseries)
    exact h series latest hlatest
  have hcard := Finset.card_le_card hkeys
  have hnodup : ledger.latestVersion.keys.Nodup := ledger.latestVersion.nodup
  rw [List.toFinset_card_of_nodup hnodup, OrderedMap.keys, List.length_map] at hcard
  exact hcard

theorem Tracks.of_latest {after : PaperLiquidityLedger} (h : Tracks ledger taken)
    (hlatest : ∀ series version, after.latestVersion.get? series = some version →
      ledger.latestVersion.get? series = some version ∨
        series = key.series ∧ version = key.version) :
    Tracks after (taken ++ [(key, qty)]) := by
  intro series version hfound
  obtain hbefore | ⟨rfl, -⟩ := hlatest series version hfound
  · exact tracked_mono (h series version hbefore)
  · simp [tracked]

theorem Tracks.reserve (h : Tracks ledger taken) :
    Tracks (ledger.reserve key qty) (taken ++ [(key, qty)]) :=
  h.of_latest fun _ _ => PaperLiquidityLedger.latest_of_reserve

/-- A reservation on a book no older than its series, while there is room for the series. -/
theorem Records.reserve (h : Records ledger taken) (htracks : Tracks ledger taken) (hqty : 0 < qty)
    (hlatest : ∀ latest, ledger.latestVersion.get? key.series = some latest →
      latest ≤ key.version)
    (hroom : (tracked (taken ++ [(key, qty)])).card ≤ ledger.maxSeries) :
    Records (ledger.reserve key qty) (taken ++ [(key, qty)]) := by
  rw [PaperLiquidityLedger.reserve, if_neg hqty.ne']
  have hstart (hnewer : ∀ latest, ledger.latestVersion.get? key.series = some latest →
      latest < key.version) :
      Records (((ledger.startVersion key).evictIfNeeded).add key qty)
        (taken ++ [(key, qty)]) := by
    have hsize : (ledger.startVersion key).latestVersion.size ≤
        (ledger.startVersion key).maxSeries := by
      have hknown : Tracks (ledger.startVersion key) (taken ++ [(key, qty)]) := by
        apply htracks.of_latest
        intro series version hfound
        rw [PaperLiquidityLedger.startVersion, OrderedMap.get?_set] at hfound
        split at hfound
        · rename_i hseries
          exact .inr ⟨hseries, (Option.some.inj hfound).symm⟩
        · exact .inl hfound
      exact le_trans hknown.size_le hroom
    rw [PaperLiquidityLedger.evictIfNeeded, PaperLiquidityLedger.evict_of_le _ hsize]
    apply (h.startVersion hnewer).add
    rw [PaperLiquidityLedger.startVersion, OrderedMap.get?_set, if_pos rfl]
  cases hfound : ledger.latestVersion.get? key.series with
  | none =>
    apply hstart
    intro latest hcontra
    rw [hfound] at hcontra
    cases hcontra
  | some latest =>
    have hle := hlatest latest hfound
    by_cases hnewer : latest < key.version
    · simp only [if_pos hnewer]
      apply hstart
      intro found hsome
      rw [hfound] at hsome
      obtain rfl := Option.some.inj hsome
      exact hnewer
    · simp only [if_neg hnewer, if_neg (not_lt.mpr hle)]
      apply h.add
      rw [hfound, le_antisymm hle (not_lt.mp hnewer)]

end Reserve

section Attempts

variable {ledger : PaperLiquidityLedger} {taken takes : List (LevelKey × ℕ)}
variable {generation token version : ℕ} {books : Books} {policy : QueuePolicy}
variable {attempt : Attempt} {key : LevelKey}

/-- No series of the instrument has seen a later book. -/
def NoLater (ledger : PaperLiquidityLedger) (generation token version : ℕ) : Prop :=
  ∀ series latest, ledger.latestVersion.get? series = some latest →
    series.generation = generation → series.token = token → latest ≤ version

/-- Reservations on one book of one instrument. -/
structure OnBook (takes : List (LevelKey × ℕ)) (generation token version : ℕ) : Prop where
  generation : ∀ take ∈ takes, take.1.series.generation = generation
  token : ∀ take ∈ takes, take.1.series.token = token
  version : ∀ take ∈ takes, take.1.version = version
  pos : ∀ take ∈ takes, 0 < take.2

def reserveAll (ledger : PaperLiquidityLedger) (takes : List (LevelKey × ℕ)) :
    PaperLiquidityLedger :=
  takes.foldl (fun ledger take => ledger.reserve take.1 take.2) ledger

theorem latest_of_reserveAll (hbook : OnBook takes generation token version) {series : Series}
    {latest : ℕ} (h : (reserveAll ledger takes).latestVersion.get? series = some latest) :
    ledger.latestVersion.get? series = some latest ∨
      series.generation = generation ∧ series.token = token ∧ latest = version := by
  induction takes generalizing ledger with
  | nil => exact .inl h
  | cons take rest ih =>
    have hrest : OnBook rest generation token version :=
      ⟨(List.forall_mem_cons.mp hbook.generation).2, (List.forall_mem_cons.mp hbook.token).2,
        (List.forall_mem_cons.mp hbook.version).2, (List.forall_mem_cons.mp hbook.pos).2⟩
    obtain hfirst | hsame := ih hrest h
    · obtain hbefore | ⟨rfl, rfl⟩ := PaperLiquidityLedger.latest_of_reserve hfirst
      · exact .inl hbefore
      · have hmem := List.mem_cons_self (a := take) (l := rest)
        exact .inr ⟨hbook.generation take hmem, hbook.token take hmem, hbook.version take hmem⟩
    · exact .inr hsame

theorem maxSeries_reserveAll : (reserveAll ledger takes).maxSeries = ledger.maxSeries := by
  induction takes generalizing ledger with
  | nil => rfl
  | cons take rest ih => exact ih.trans PaperLiquidityLedger.maxSeries_reserve

/-- The reservations of an attempt, one after the other. -/
theorem Records.reserveAll (h : Records ledger taken) (htracks : Tracks ledger taken)
    (hbook : OnBook takes generation token version)
    (hlater : NoLater ledger generation token version)
    (hroom : (tracked (taken ++ takes)).card ≤ ledger.maxSeries) :
    Records (reserveAll ledger takes) (taken ++ takes) ∧
      Tracks (LiquidityLedger.reserveAll ledger takes) (taken ++ takes) := by
  induction takes generalizing ledger taken with
  | nil =>
    rw [List.append_nil]
    exact ⟨h, htracks⟩
  | cons take rest ih =>
    obtain ⟨key, qty⟩ := take
    have hmem := List.mem_cons_self (a := (key, qty)) (l := rest)
    have hrest : OnBook rest generation token version :=
      ⟨(List.forall_mem_cons.mp hbook.generation).2, (List.forall_mem_cons.mp hbook.token).2,
        (List.forall_mem_cons.mp hbook.version).2, (List.forall_mem_cons.mp hbook.pos).2⟩
    have hsplit : taken ++ (key, qty) :: rest = taken ++ [(key, qty)] ++ rest := by
      simp
    have hversion : key.version = version := hbook.version _ hmem
    rw [hsplit] at hroom ⊢
    have hone : (tracked (taken ++ [(key, qty)])).card ≤ ledger.maxSeries :=
      le_trans (Finset.card_le_card tracked_mono) hroom
    have hnext : Records (ledger.reserve key qty) (taken ++ [(key, qty)]) := by
      apply h.reserve htracks (hbook.pos _ hmem) _ hone
      intro latest hlatest
      rw [hversion]
      exact hlater key.series latest hlatest (hbook.generation _ hmem) (hbook.token _ hmem)
    apply ih hnext htracks.reserve hrest
    · intro series latest hlatest hgeneration htoken
      obtain hbefore | ⟨-, rfl⟩ := PaperLiquidityLedger.latest_of_reserve hlatest
      · exact hlater series latest hbefore hgeneration htoken
      · exact hversion.le
    · rw [PaperLiquidityLedger.maxSeries_reserve]
      exact hroom

theorem mathRound_round2 (price : ℚ) :
    mathRound (round2 price * 100) = mathRound (price * 100) := by
  rw [round2, div_mul_cancel₀ _ (by norm_num), mathRound_intCast]

/-- The takes are the shares of the walk at the keys of their levels. -/
theorem takes_eq (attempt : Attempt) (books : Books) (policy : QueuePolicy)
    (ledger : PaperLiquidityLedger) : attempt.takes books policy ledger = [] ∨
    attempt.takes books policy ledger =
      (((attempt.walkArgs policy ledger).shares (books attempt.generation attempt.token
        attempt.version attempt.side)).filter fun share => share.2 ≠ 0).map
          fun share => (attempt.key share.1.price, share.2) := by
  rw [Attempt.takes, Attempt.slices, walkDepth]
  split
  · exact .inl rfl
  · refine .inr ?_
    simp only [walked_eq, slicesOf, List.map_map]
    apply List.map_congr_left
    intro share _
    simp [WalkArgs.slice, Attempt.walkArgs, Attempt.key, seriesOf, mathRound_round2]

theorem takes_onBook (attempt : Attempt) (books : Books) (policy : QueuePolicy)
    (ledger : PaperLiquidityLedger) :
    OnBook (attempt.takes books policy ledger) attempt.generation attempt.token
      attempt.version := by
  have hshape : ∀ take ∈ attempt.takes books policy ledger,
      ∃ price qty, qty ≠ 0 ∧ (attempt.key price, qty) = take := by
    intro take htake
    obtain heq | heq := takes_eq attempt books policy ledger
    · rw [heq] at htake
      cases htake
    · rw [heq] at htake
      obtain ⟨share, hshare, rfl⟩ := List.mem_map.mp htake
      exact ⟨share.1.price, share.2, of_decide_eq_true (List.mem_filter.mp hshare).2, rfl⟩
  constructor
  · intro take htake
    obtain ⟨price, qty, -, rfl⟩ := hshape take htake
    rfl
  · intro take htake
    obtain ⟨price, qty, -, rfl⟩ := hshape take htake
    rfl
  · intro take htake
    obtain ⟨price, qty, -, rfl⟩ := hshape take htake
    rfl
  · intro take htake
    obtain ⟨price, qty, hqty, rfl⟩ := hshape take htake
    exact Nat.pos_of_ne_zero hqty

/-- What is left of levels that have given some already, with it, is no more than they had. -/
theorem add_sum_sub_le (gone : ℕ) (quantities : List ℕ) :
    gone + (quantities.map fun quantity => quantity - gone).sum ≤ max gone quantities.sum := by
  induction quantities with
  | nil => simp
  | cons quantity rest ih =>
    simp only [List.map_cons, List.sum_cons]
    omega

/-- The usable levels at the price of a key. -/
def levelsAt (books : Books) (key : LevelKey) : List Level :=
  ((books key.series.generation key.series.token key.version key.series.side).filterMap
    usable?).filter fun lv => mathRound (lv.price * 100) = key.series.paise

theorem displayed_eq (books : Books) (policy : QueuePolicy) (key : LevelKey) :
    displayed books policy key = ((levelsAt books key).map fun lv =>
      effectiveQty lv.qty policy.queueModel policy.queueHaircutPct).sum := rfl

theorem total_map_filter (shares : List (Level × ℕ)) (keyOf : Level → LevelKey)
    (key : LevelKey) :
    total ((shares.filter fun share => share.2 ≠ 0).map fun share => (keyOf share.1, share.2))
        key = ((shares.filter fun share => keyOf share.1 = key).map Prod.snd).sum := by
  induction shares with
  | nil => rfl
  | cons share rest ih =>
    simp only [total] at ih
    by_cases hzero : share.2 = 0
    · by_cases hkey : keyOf share.1 = key
      · simpa [total, hzero, hkey] using ih
      · simpa [total, hzero, hkey] using ih
    · by_cases hkey : keyOf share.1 = key
      · simpa [total, hzero, hkey] using ih
      · simpa [total, hzero, hkey] using ih

/-- A level gives what the reservations of its price leave. -/
theorem effective_of_key {price : ℚ} {lv : Level} (hkey : attempt.key lv.price = attempt.key price)
    (hsafe : ledger.reservedAt (attempt.key price) ≤ maxSafeInteger) :
    (attempt.walkArgs policy ledger).effective lv =
      effectiveQty lv.qty policy.queueModel policy.queueHaircutPct -
        ledger.reservedAt (attempt.key price) := by
  have halready : (attempt.walkArgs policy ledger).already lv =
      (positiveSafe? (.finite (ledger.reservedAt (attempt.key lv.price)))).getD 0 := rfl
  rw [WalkArgs.effective, halready, hkey, positiveSafe?_natCast hsafe]
  rfl

/-- Of each price at most what its reservation leaves is taken. -/
theorem total_takes_le {price : ℚ}
    (hsafe : ledger.reservedAt (attempt.key price) ≤ maxSafeInteger) :
    total (attempt.takes books policy ledger) (attempt.key price) ≤
      ((levelsAt books (attempt.key price)).map fun lv =>
        effectiveQty lv.qty policy.queueModel policy.queueHaircutPct -
          ledger.reservedAt (attempt.key price)).sum := by
  obtain heq | heq := takes_eq attempt books policy ledger
  · rw [heq]
    exact Nat.zero_le _
  · let args := attempt.walkArgs policy ledger
    let levels := books attempt.generation attempt.token attempt.version attempt.side
    let here : Level → Bool := fun lv => decide (attempt.key lv.price = attempt.key price)
    have hallots : GreedyFill.Allots args.effective (args.usable levels)
        (min args.remainingQty (GreedyFill.room args.effective (args.usable levels)))
        (args.shares levels) := shares_allots
    have hshares : total (attempt.takes books policy ledger) (attempt.key price) ≤
        (((args.shares levels).filter fun share => here share.1).map fun share =>
          args.effective share.1).sum := by
      rw [heq]
      apply le_trans (total_map_filter _ (fun lv => attempt.key lv.price) _).le
      apply List.sum_le_sum
      intro share hshare
      exact hallots.within share (List.mem_of_mem_filter hshare)
    have hlevels : (((args.shares levels).filter fun share => here share.1).map fun share =>
        args.effective share.1).sum = (((args.usable levels).filter here).map
          args.effective).sum := by
      have hmap : ((args.shares levels).filter fun share => here share.1).map Prod.fst =
          ((args.shares levels).map Prod.fst).filter here := by
        rw [List.filter_map]
        rfl
      have hperm := (hallots.perm.filter here).map args.effective
      rw [← hmap, List.map_map] at hperm
      exact hperm.sum_eq
    have hsub : ((args.usable levels).filter here).Sublist
        ((levels.filterMap usable?).filter here) := List.filter_sublist.filter here
    have hleft : (((args.usable levels).filter here).map args.effective).sum ≤
        (((levels.filterMap usable?).filter here).map args.effective).sum :=
      (hsub.map args.effective).sum_le_sum fun _ _ => Nat.zero_le _
    have hat : (levels.filterMap usable?).filter here = levelsAt books (attempt.key price) := by
      apply List.filter_congr
      intro lv _
      apply decide_eq_decide.mpr
      simp [Attempt.key, seriesOf]
    have hquantities : (levelsAt books (attempt.key price)).map args.effective =
        (levelsAt books (attempt.key price)).map fun lv =>
          effectiveQty lv.qty policy.queueModel policy.queueHaircutPct -
            ledger.reservedAt (attempt.key price) := by
      apply List.map_congr_left
      intro lv hlv
      rw [← hat] at hlv
      exact effective_of_key (of_decide_eq_true (List.mem_filter.mp hlv).2) hsafe
    calc total (attempt.takes books policy ledger) (attempt.key price)
        ≤ (((args.usable levels).filter here).map args.effective).sum := hlevels ▸ hshares
      _ ≤ (((levels.filterMap usable?).filter here).map args.effective).sum := hleft
      _ = _ := by rw [hat, hquantities]

/-- What an attempt takes keeps the total of each price within what is displayed there. -/
theorem total_tryFill_le (h : Records ledger taken)
    (hlater : NoLater ledger attempt.generation attempt.token attempt.version)
    (hsafe : ∀ key, displayed books policy key ≤ maxSafeInteger)
    (hcap : ∀ key, total taken key ≤ displayed books policy key) (key : LevelKey) :
    total (taken ++ attempt.takes books policy ledger) key ≤ displayed books policy key := by
  rw [total_append]
  by_cases hprice : ∃ price, attempt.key price = key
  · obtain ⟨price, rfl⟩ := hprice
    have hreserved : ledger.reservedAt (attempt.key price) = total taken (attempt.key price) := by
      apply h.reservedAt_eq
      intro latest hlatest
      exact hlater _ latest hlatest rfl rfl
    have htakes : total (attempt.takes books policy ledger) (attempt.key price) ≤ _ :=
      total_takes_le (by
        rw [hreserved]
        exact le_trans (hcap _) (hsafe _))
    rw [hreserved] at htakes
    have hleft := add_sum_sub_le (total taken (attempt.key price))
      ((levelsAt books (attempt.key price)).map fun lv =>
        effectiveQty lv.qty policy.queueModel policy.queueHaircutPct)
    rw [List.map_map, ← displayed_eq, max_eq_right (hcap _)] at hleft
    exact le_trans (Nat.add_le_add_left htakes _) hleft
  · have hnone : total (attempt.takes books policy ledger) key = 0 := by
      have hempty : ((attempt.takes books policy ledger).filter fun take => take.1 = key) = [] := by
        rw [List.filter_eq_nil_iff]
        intro take htake hkey
        obtain heq | heq := takes_eq attempt books policy ledger
        · rw [heq] at htake
          cases htake
        · rw [heq] at htake
          obtain ⟨share, -, rfl⟩ := List.mem_map.mp htake
          exact hprice ⟨share.1.price, of_decide_eq_true hkey⟩
      rw [total, hempty]
      rfl
    rw [hnone]
    exact hcap key

end Attempts

section Run

variable {books : Books} {policy : QueuePolicy} {market : Market} {attempts : List Attempt}

/-- The ledger records what was taken, and no more was taken than is displayed. -/
structure Sound (books : Books) (policy : QueuePolicy) (market : Market) : Prop where
  records : Records market.ledger market.taken
  tracks : Tracks market.ledger market.taken
  within : ∀ key, total market.taken key ≤ displayed books policy key

theorem sound_new (maxSeries : ℕ) : Sound books policy ⟨.new maxSeries, []⟩ := by
  refine ⟨Records.new maxSeries, ?_, fun _ => Nat.zero_le _⟩
  intro series latest h
  exact absurd h (Option.some_ne_none latest).symm

theorem tryFill_eq (market : Market) (attempt : Attempt) :
    market.tryFill books policy attempt =
      { ledger := reserveAll market.ledger (attempt.takes books policy market.ledger)
        taken := market.taken ++ attempt.takes books policy market.ledger } := rfl

theorem taken_prefix_run (books : Books) (policy : QueuePolicy) (market : Market)
    (attempts : List Attempt) :
    market.taken <+: (market.run books policy attempts).taken := by
  induction attempts generalizing market with
  | nil => exact List.prefix_rfl
  | cons attempt rest ih =>
    have hfirst : market.taken <+: (market.tryFill books policy attempt).taken :=
      List.prefix_append _ _
    exact hfirst.trans (ih _)

theorem maxSeries_tryFill (attempt : Attempt) :
    (market.tryFill books policy attempt).ledger.maxSeries = market.ledger.maxSeries :=
  maxSeries_reserveAll

/-- One attempt on a book no older than those of its instrument. -/
theorem Sound.tryFill (h : Sound books policy market) {attempt : Attempt}
    (hlater : NoLater market.ledger attempt.generation attempt.token attempt.version)
    (hsafe : ∀ key, displayed books policy key ≤ maxSafeInteger)
    (hroom : (tracked (market.tryFill books policy attempt).taken).card ≤
      market.ledger.maxSeries) :
    Sound books policy (market.tryFill books policy attempt) := by
  have hbook := takes_onBook attempt books policy market.ledger
  obtain ⟨hrecords, htracks⟩ := h.records.reserveAll h.tracks hbook hlater hroom
  exact ⟨hrecords, htracks, total_tryFill_le h.records hlater hsafe h.within⟩

/-- Attempts whose books do not go back, on a ledger that has room for their series. -/
theorem Sound.run (h : Sound books policy market)
    (hlater : ∀ attempt ∈ attempts,
      NoLater market.ledger attempt.generation attempt.token attempt.version)
    (hversions : attempts.Pairwise fun a b =>
      a.generation = b.generation → a.token = b.token → a.version ≤ b.version)
    (hsafe : ∀ key, displayed books policy key ≤ maxSafeInteger)
    (hroom : (tracked (market.run books policy attempts).taken).card ≤
      market.ledger.maxSeries) :
    Sound books policy (market.run books policy attempts) := by
  induction attempts generalizing market with
  | nil => exact h
  | cons attempt rest ih =>
    obtain ⟨hfirst, hrest⟩ := List.pairwise_cons.mp hversions
    obtain ⟨hlaterFirst, hlaterRest⟩ := List.forall_mem_cons.mp hlater
    obtain ⟨later, hprefix⟩ :=
      taken_prefix_run books policy (market.tryFill books policy attempt) rest
    have hone : (tracked (market.tryFill books policy attempt).taken).card ≤
        market.ledger.maxSeries := by
      apply le_trans (Finset.card_le_card _) hroom
      have hrun : (market.run books policy (attempt :: rest)).taken =
          ((market.tryFill books policy attempt).run books policy rest).taken := rfl
      rw [hrun, ← hprefix]
      exact tracked_mono
    apply ih (h.tryFill hlaterFirst hsafe hone) _ hrest
    · rw [maxSeries_tryFill]
      exact hroom
    · intro next hnext series latest hlatest hgeneration htoken
      obtain hbefore | ⟨hsame, hsameToken, rfl⟩ := latest_of_reserveAll
        (takes_onBook attempt books policy market.ledger) hlatest
      · exact hlaterRest next hnext series latest hbefore hgeneration htoken
      · exact hfirst next hnext (hsame.symm.trans hgeneration) (hsameToken.symm.trans htoken)

end Run

/-- Keys of different generations, instruments, sides or book versions. -/
def Apart (key other : LevelKey) : Prop :=
  key.series.generation ≠ other.series.generation ∨ key.series.token ≠ other.series.token ∨
    key.series.side ≠ other.series.side ∨ key.version ≠ other.version

/-- While books do not go back and the ledger has room, no attempts together take more of a
price than the book version displays there, and no reservation narrows any other book. -/
theorem liquidity_never_sold_twice (books : Books) (policy : QueuePolicy) (maxSeries : ℕ)
    (attempts : List Attempt)
    (hversions : attempts.Pairwise fun a b =>
      a.generation = b.generation → a.token = b.token → a.version ≤ b.version)
    (hseries : (tracked ((⟨.new maxSeries, []⟩ : Market).run books policy attempts).taken).card ≤
      max 1 maxSeries)
    (hsafe : ∀ key, displayed books policy key ≤ maxSafeInteger) :
    let market := (⟨.new maxSeries, []⟩ : Market).run books policy attempts
    (∀ key, total market.taken key ≤ displayed books policy key) ∧
      ∀ key qty other effectiveForLevel, Apart key other →
        market.ledger.availableAt other effectiveForLevel ≤
          (market.ledger.reserve key qty).availableAt other effectiveForLevel := by
  intro market
  have hsound : Sound books policy market := by
    apply (sound_new maxSeries).run _ hversions hsafe hseries
    intro attempt _ series latest hlatest
    exact absurd hlatest (Option.some_ne_none latest).symm
  refine ⟨hsound.within, ?_⟩
  intro key qty other effectiveForLevel hapart
  apply hsound.records.consistent.availableAt_le
  rintro rfl
  obtain h | h | h | h := hapart
  · exact h rfl
  · exact h rfl
  · exact h rfl
  · exact h rfl

namespace Sample

def policy : QueuePolicy := ⟨.none, .finite 0⟩

def attempt (remainingQty : ℕ) : Attempt where
  generation := 0
  token := 101
  side := .buy
  version := 1
  remainingQty := remainingQty
  limitPrice := 100
  takenAt := 0

/-- Two levels of the largest safe integer at one price. -/
def hugeBook : Books := fun _ _ _ _ =>
  [⟨.finite 100, .finite maxSafeInteger⟩, ⟨.finite 100, .finite maxSafeInteger⟩]

/-- Seventy-five lots at one price of one book. -/
def book : Books := fun _ token version _ =>
  if token = 101 ∧ version = 1 then [⟨.finite 100, .finite 75⟩] else []

theorem displayed_book_le (key : LevelKey) : displayed book policy key ≤ 75 := by
  rw [displayed, book]
  split
  · have hlevels : ([⟨.finite 100, .finite 75⟩] : List BoxDepthLevel).filterMap usable? =
        [⟨100, 75, by norm_num⟩] := by
      decide +kernel
    simp only [hlevels, List.filter_cons, List.filter_nil]
    split <;> simp [effectiveQty, policy]
  · simp

end Sample

/-- What is reserved of the price is no safe integer behind the second attempt, and is then read
as nothing. -/
theorem unsafe_reservation_sold_again :
    let attempts := [Sample.attempt 5, Sample.attempt maxSafeInteger,
      Sample.attempt maxSafeInteger]
    let market := (⟨.new 4096, []⟩ : Market).run Sample.hugeBook Sample.policy attempts
    let key := (Sample.attempt 5).key 100
    (attempts.Pairwise fun a b =>
        a.generation = b.generation → a.token = b.token → a.version ≤ b.version) ∧
      (tracked market.taken).card ≤ 4096 ∧
      displayed Sample.hugeBook Sample.policy key < total market.taken key := by
  decide +kernel

/-- Two attempts for fifty each at one level of seventy-five. -/
theorem liquidity_of_two_attempts :
    total ((⟨.new 4096, []⟩ : Market).run Sample.book Sample.policy
      [Sample.attempt 50, Sample.attempt 50]).taken ((Sample.attempt 50).key 100) ≤ 75 := by
  obtain ⟨hwithin, -⟩ := liquidity_never_sold_twice Sample.book Sample.policy 4096
    [Sample.attempt 50, Sample.attempt 50] (by decide) (by decide +kernel)
    (fun key => le_trans (Sample.displayed_book_le key) (by decide))
  exact le_trans (hwithin _) (Sample.displayed_book_le _)

end Strikedge.LiquidityLedger
