import Strikedge.Machine.LastWrite
import Strikedge.Machine.OrderedMap
import Strikedge.PaperLegs.BookWalk

/-!
# The quote store

`BoxQuoteStore` keeps the newest executable book of each instrument. A tick counts only with depth
of its own; without a usable level it takes the book away. Every observation consumes a version, so
that a version stands for one book, whatever is dropped in between.
-/

namespace Strikedge.Quotes

open Machine Orders
open BookWalk (positiveSafe?)

/-- A level as a tick brings it. -/
structure TickLevel where
  price : Number
  qty : Number
  orders : Number
  deriving DecidableEq, Repr

/-- A level that the store admits. -/
structure BookLevel where
  price : ℚ
  qty : ℕ
  orders : ℕ
  price_pos : 0 < price

def ordersOf (orders : Number) : ℕ :=
  match orders.finite? with
  | some value => if 0 ≤ value then ⌊value⌋.toNat else 0
  | none => 0

def valid? (level : TickLevel) : Option BookLevel :=
  match level.price.finite?, positiveSafe? level.qty with
  | some price, some qty =>
    if h : 0 < price then some ⟨price, qty, ordersOf level.orders, h⟩ else none
  | _, _ => none

/-- Whether a price stands before another on a ladder, or level with it. -/
def Ahead (side : OrderSide) (price other : ℚ) : Prop :=
  match side with
  | .buy => other ≤ price
  | .sell => price ≤ other

instance (side : OrderSide) (price other : ℚ) : Decidable (Ahead side price other) :=
  match side with
  | .buy => inferInstanceAs (Decidable (_ ≤ _))
  | .sell => inferInstanceAs (Decidable (_ ≤ _))

/-- The levels the store keeps of one side: five at most, the best first. -/
structure Ladder (side : OrderSide) where
  levels : List BookLevel
  ordered : levels.Pairwise fun a b => Ahead side a.price b.price
  bounded : levels.length ≤ 5

theorem sorted_ahead (side : OrderSide) (levels : List BookLevel) :
    (levels.insertionSort fun a b => Ahead side a.price b.price).Pairwise
      fun a b => Ahead side a.price b.price := by
  have : Std.Total fun a b : BookLevel => Ahead side a.price b.price := by
    cases side
    exacts [⟨fun a b => le_total b.price a.price⟩, ⟨fun a b => le_total a.price b.price⟩]
  have : IsTrans BookLevel fun a b => Ahead side a.price b.price := by
    cases side
    exacts [⟨fun _ _ _ hab hbc => le_trans hbc hab⟩, ⟨fun _ _ _ hab hbc => le_trans hab hbc⟩]
  exact List.pairwise_insertionSort _ levels

def sanitizeLevels (side : OrderSide) (levels : List TickLevel) : Ladder side where
  levels := ((levels.filterMap valid?).insertionSort fun a b => Ahead side a.price b.price).take 5
  ordered := (sorted_ahead side _).sublist (List.take_sublist 5 _)
  bounded := List.length_take_le 5 _

/-- The price of the first level, zero without one. -/
def Ladder.best {side : OrderSide} (ladder : Ladder side) : ℚ :=
  ladder.levels.head?.elim 0 BookLevel.price

def Ladder.bestQty {side : OrderSide} (ladder : Ladder side) : ℕ :=
  ((ladder.levels.filter fun level => level.price = ladder.best).map BookLevel.qty).sum

/-- A ladder of a tick is missing, a property without a value, or a list of levels. -/
structure BoxTickInput where
  token : ℕ
  lastPrice : Number
  bids : Option (Option (List TickLevel)) := none
  asks : Option (Option (List TickLevel)) := none
  depthUpdated : Option Bool := none
  exchangeTs : Option Number := none
  deriving DecidableEq, Repr

namespace BoxTickInput

def authoritative (tick : BoxTickInput) : Bool :=
  match tick.depthUpdated with
  | some updated => updated
  | none => tick.bids.isSome || tick.asks.isSome

def bidLevels (tick : BoxTickInput) : List TickLevel := tick.bids.join.getD []

def askLevels (tick : BoxTickInput) : List TickLevel := tick.asks.join.getD []

/-- The entries that `sanitizeLevels` drops. -/
def malformed (tick : BoxTickInput) : ℕ :=
  (tick.bidLevels ++ tick.askLevels).countP fun level => (valid? level).isNone

end BoxTickInput

/-- An executable book has a level. -/
structure BoxQuote where
  token : ℕ
  last : ℚ
  bids : Ladder .buy
  asks : Ladder .sell
  version : ℕ
  receivedAt : ℚ
  exchangeAt : Option ℚ
  executable : bids.levels ≠ [] ∨ asks.levels ≠ []

namespace BoxQuote

def bid (quote : BoxQuote) : ℚ := quote.bids.best

def bidQty (quote : BoxQuote) : ℕ := quote.bids.bestQty

def ask (quote : BoxQuote) : ℚ := quote.asks.best

def askQty (quote : BoxQuote) : ℕ := quote.asks.bestQty

end BoxQuote

/-- The book of an observation, if a level is usable. -/
def BoxTickInput.book? (tick : BoxTickInput) (version : ℕ) (receivedAt : ℚ) : Option BoxQuote :=
  let bids := sanitizeLevels .buy tick.bidLevels
  let asks := sanitizeLevels .sell tick.askLevels
  if h : bids.levels ≠ [] ∨ asks.levels ≠ [] then
    some
      { token := tick.token
        last := tick.lastPrice.finite?.getD 0
        bids := bids
        asks := asks
        version := version
        receivedAt := receivedAt
        exchangeAt := (tick.exchangeTs.bind Number.finite?).filter fun value => 0 < value
        executable := h }
  else none

/-- `published` lists every book there has been, as bookkeeping. -/
structure BoxQuoteStore where
  quotes : OrderedMap ℕ BoxQuote := ∅
  updates : ℕ := 0
  lastUpdate : Option ℚ := none
  nextVersion : ℕ := 1
  authoritativeObservations : ℕ := 0
  usableBookUpdates : ℕ := 0
  depthlessIgnored : ℕ := 0
  emptyInvalidations : ℕ := 0
  malformedLevelsDropped : ℕ := 0
  generationInvalidations : ℕ := 0
  published : List BoxQuote := []

namespace BoxQuoteStore

def get (store : BoxQuoteStore) (token : ℕ) : Option BoxQuote := store.quotes.get? token

/-- What every observation counts, usable or not. -/
def counted (store : BoxQuoteStore) (receivedAt : ℚ) (tick : BoxTickInput) : BoxQuoteStore :=
  { store with
    updates := store.updates + 1
    lastUpdate := some receivedAt
    nextVersion := store.nextVersion + 1
    authoritativeObservations := store.authoritativeObservations + 1
    malformedLevelsDropped := store.malformedLevelsDropped + tick.malformed }

/-- One turn of the loop of `applyTicks`. -/
def observe (receivedAt : ℚ) (store : BoxQuoteStore) (tick : BoxTickInput) : BoxQuoteStore :=
  if tick.authoritative then
    let next := store.counted receivedAt tick
    match tick.book? store.nextVersion receivedAt with
    | none =>
      { next with
        quotes := next.quotes.delete tick.token
        emptyInvalidations := next.emptyInvalidations + 1 }
    | some quote =>
      { next with
        quotes := next.quotes.set tick.token quote
        usableBookUpdates := next.usableBookUpdates + 1
        published := next.published ++ [quote] }
  else { store with depthlessIgnored := store.depthlessIgnored + 1 }

def applyTicks (store : BoxQuoteStore) (ticks : List BoxTickInput) (receivedAt : ℚ) :
    BoxQuoteStore :=
  ticks.foldl (observe receivedAt) store

def drop (store : BoxQuoteStore) (token : ℕ) : BoxQuoteStore :=
  { store with quotes := store.quotes.delete token }

def forget (store : BoxQuoteStore) (tokens : List ℕ) : BoxQuoteStore := tokens.foldl drop store

def clear (store : BoxQuoteStore) : BoxQuoteStore := { store with quotes := ∅, lastUpdate := none }

def invalidateGeneration (store : BoxQuoteStore) : BoxQuoteStore :=
  { store with generationInvalidations := store.generationInvalidations + 1 }.clear

end BoxQuoteStore

inductive StoreOp where
  | applyTicks (ticks : List BoxTickInput) (receivedAt : ℚ)
  | forget (tokens : List ℕ)
  | clear
  | invalidateGeneration
  deriving DecidableEq, Repr

namespace StoreOp

/-- The turns of its loop, if it has one. -/
def parts : StoreOp → List StoreOp
  | applyTicks ticks receivedAt => ticks.map fun tick => applyTicks [tick] receivedAt
  | forget tokens => tokens.map fun token => forget [token]
  | clear => [clear]
  | invalidateGeneration => [invalidateGeneration]

/-- Whether the book of a token may change. -/
def Concerns (token : ℕ) : StoreOp → Prop
  | applyTicks ticks _ => ∃ tick ∈ ticks, tick.authoritative = true ∧ tick.token = token
  | forget tokens => token ∈ tokens
  | clear | invalidateGeneration => True

/-- How many observations it makes. -/
def observations : StoreOp → ℕ
  | applyTicks ticks _ => ticks.countP BoxTickInput.authoritative
  | forget _ | clear | invalidateGeneration => 0

end StoreOp

namespace BoxQuoteStore

def apply (store : BoxQuoteStore) : StoreOp → BoxQuoteStore
  | .applyTicks ticks receivedAt => store.applyTicks ticks receivedAt
  | .forget tokens => store.forget tokens
  | .clear => store.clear
  | .invalidateGeneration => store.invalidateGeneration

def run (store : BoxQuoteStore) (ops : List StoreOp) : BoxQuoteStore := ops.foldl apply store

end BoxQuoteStore

section Operations

variable {store : BoxQuoteStore} {token : ℕ} {tick : BoxTickInput} {receivedAt : ℚ}
variable {quote : BoxQuote} {version : ℕ}

theorem book?_version (h : tick.book? version receivedAt = some quote) :
    quote.version = version ∧ quote.token = tick.token := by
  rw [BoxTickInput.book?] at h
  split at h
  · obtain rfl := Option.some.inj h
    exact ⟨rfl, rfl⟩
  · cases h

theorem observe_depthless (h : ¬tick.authoritative = true) :
    store.observe receivedAt tick =
      { store with depthlessIgnored := store.depthlessIgnored + 1 } := by
  rw [BoxQuoteStore.observe, if_neg h]

/-- What an observation does, with `book` for the book it brings. -/
structure Observes (store next : BoxQuoteStore) (token : ℕ) (book : Option BoxQuote) : Prop where
  version : next.nextVersion = store.nextVersion + 1
  published : next.published = store.published ++ book.toList
  get : ∀ other, next.get other = if other = token then book else store.get other

theorem observe_authoritative (h : tick.authoritative = true) :
    Observes store (store.observe receivedAt tick) tick.token
      (tick.book? store.nextVersion receivedAt) := by
  cases hbook : tick.book? store.nextVersion receivedAt with
  | none =>
    simp only [BoxQuoteStore.observe, if_pos h, hbook]
    exact ⟨rfl, (List.append_nil _).symm, fun _ => OrderedMap.get?_delete⟩
  | some quote =>
    simp only [BoxQuoteStore.observe, if_pos h, hbook]
    exact ⟨rfl, rfl, fun _ => OrderedMap.get?_set⟩

theorem get_drop (other : ℕ) :
    (store.drop other).get token = if token = other then none else store.get token :=
  OrderedMap.get?_delete

/-- An operation that does not concern a token leaves its book alone. -/
theorem get_apply_frame (store : BoxQuoteStore) (op : StoreOp) (h : ¬op.Concerns token) :
    (store.apply op).get token = store.get token := by
  cases op with
  | applyTicks ticks receivedAt =>
    induction ticks generalizing store with
    | nil => rfl
    | cons tick rest ih =>
      have hrest : ¬(StoreOp.applyTicks rest receivedAt).Concerns token := by
        rintro ⟨other, hmem, hother⟩
        exact h ⟨other, List.mem_cons_of_mem tick hmem, hother⟩
      refine (ih (store.observe receivedAt tick) hrest).trans ?_
      by_cases hauthoritative : tick.authoritative = true
      · rw [(observe_authoritative hauthoritative).get, if_neg]
        rintro rfl
        exact h ⟨tick, List.mem_cons_self, hauthoritative, rfl⟩
      · rw [observe_depthless hauthoritative]
        rfl
  | forget tokens =>
    induction tokens generalizing store with
    | nil => rfl
    | cons other rest ih =>
      obtain ⟨hne, hrest⟩ := not_or.mp (mt List.mem_cons.mpr h)
      refine (ih (store.drop other) hrest).trans ?_
      rw [get_drop, if_neg hne]
  | clear => exact absurd trivial h
  | invalidateGeneration => exact absurd trivial h

theorem apply_parts (store : BoxQuoteStore) (op : StoreOp) :
    store.run op.parts = store.apply op := by
  cases op with
  | applyTicks ticks receivedAt => exact List.foldl_map
  | forget tokens => exact List.foldl_map
  | clear => rfl
  | invalidateGeneration => rfl

theorem run_append (store : BoxQuoteStore) (ops more : List StoreOp) :
    store.run (ops ++ more) = (store.run ops).run more := List.foldl_append

theorem run_parts (store : BoxQuoteStore) (ops : List StoreOp) :
    store.run (ops.flatMap StoreOp.parts) = store.run ops := by
  induction ops generalizing store with
  | nil => rfl
  | cons op rest ih =>
    rw [List.flatMap_cons, run_append, apply_parts]
    exact ih _

end Operations

/-- What every operation keeps: books are published in the order of their versions. -/
structure Identified (store : BoxQuoteStore) : Prop where
  ascending : store.published.Pairwise fun a b => a.version < b.version
  below : ∀ quote ∈ store.published, quote.version < store.nextVersion
  stored : ∀ token quote, store.get token = some quote →
    quote ∈ store.published ∧ quote.token = token

section Versions

variable {store : BoxQuoteStore} {ops more : List StoreOp} {token : ℕ} {quote : BoxQuote}

theorem Identified.new : Identified {} := ⟨List.Pairwise.nil, by simp, by simp [BoxQuoteStore.get]⟩

theorem Identified.observe (h : Identified store) (receivedAt : ℚ) (tick : BoxTickInput) :
    Identified (store.observe receivedAt tick) := by
  by_cases hauthoritative : tick.authoritative = true
  · have hobserves : Observes store (store.observe receivedAt tick) tick.token
        (tick.book? store.nextVersion receivedAt) := observe_authoritative hauthoritative
    have hbook : ∀ quote, tick.book? store.nextVersion receivedAt = some quote →
        quote.version = store.nextVersion ∧ quote.token = tick.token :=
      fun quote => book?_version
    generalize tick.book? store.nextVersion receivedAt = book at hobserves hbook
    have hnew : ∀ quote ∈ book.toList, quote.version = store.nextVersion := by
      intro quote hquote
      exact (hbook quote (Option.mem_toList.mp hquote)).1
    constructor
    · rw [hobserves.published]
      apply List.pairwise_append.mpr
      refine ⟨h.ascending, ?_, fun a ha b hb => hnew b hb ▸ h.below a ha⟩
      cases book with
      | none => exact List.Pairwise.nil
      | some quote => exact List.pairwise_singleton _ _
    · intro quote hquote
      rw [hobserves.published] at hquote
      rw [hobserves.version]
      obtain hold | hquote := List.mem_append.mp hquote
      · exact Nat.lt_succ_of_lt (h.below quote hold)
      · exact Nat.lt_succ_of_le (hnew quote hquote).le
    · intro token quote hquote
      rw [hobserves.published]
      rw [hobserves.get] at hquote
      split at hquote
      · rename_i heq
        subst hquote
        exact ⟨by simp, (hbook quote rfl).2.trans heq.symm⟩
      · obtain ⟨hmem, hsame⟩ := h.stored token quote hquote
        exact ⟨List.mem_append_left _ hmem, hsame⟩
  · rw [observe_depthless hauthoritative]
    exact ⟨h.ascending, h.below, h.stored⟩

theorem Identified.drop (h : Identified store) (token : ℕ) : Identified (store.drop token) := by
  refine ⟨h.ascending, h.below, fun other quote hquote => ?_⟩
  rw [get_drop] at hquote
  split at hquote
  · cases hquote
  · exact h.stored other quote hquote

theorem Identified.apply (h : Identified store) (op : StoreOp) : Identified (store.apply op) := by
  have hnone : ∀ token quote, (∅ : OrderedMap ℕ BoxQuote).get? token = some quote →
      quote ∈ store.published ∧ quote.token = token := by
    simp
  cases op with
  | applyTicks ticks receivedAt =>
    induction ticks generalizing store with
    | nil => exact h
    | cons tick rest ih => exact ih (h.observe receivedAt tick) (by simp)
  | forget tokens =>
    induction tokens generalizing store with
    | nil => exact h
    | cons token rest ih => exact ih (h.drop token) hnone
  | clear => exact ⟨h.ascending, h.below, hnone⟩
  | invalidateGeneration => exact ⟨h.ascending, h.below, hnone⟩

/-- How far an operation gets: each observation consumes a version. -/
structure Advances (store next : BoxQuoteStore) (observations : ℕ) : Prop where
  version : next.nextVersion = store.nextVersion + observations
  published : store.published <+: next.published

theorem Advances.trans {next last : BoxQuoteStore} {m n : ℕ} (h : Advances store next m)
    (h' : Advances next last n) : Advances store last (m + n) :=
  ⟨by rw [h'.version, h.version, Nat.add_assoc], h.published.trans h'.published⟩

theorem advances_apply (store : BoxQuoteStore) (op : StoreOp) :
    Advances store (store.apply op) op.observations := by
  cases op with
  | applyTicks ticks receivedAt =>
    induction ticks generalizing store with
    | nil => exact ⟨rfl, List.prefix_rfl⟩
    | cons tick rest ih =>
      have hfirst : Advances store (store.observe receivedAt tick)
          (if tick.authoritative then 1 else 0) := by
        by_cases hauthoritative : tick.authoritative = true
        · have hobserves : Observes store (store.observe receivedAt tick) tick.token _ :=
            observe_authoritative hauthoritative
          rw [if_pos hauthoritative]
          exact ⟨hobserves.version, hobserves.published ▸ List.prefix_append _ _⟩
        · rw [if_neg hauthoritative, observe_depthless hauthoritative]
          exact ⟨rfl, List.prefix_rfl⟩
      rw [StoreOp.observations, List.countP_cons, Nat.add_comm]
      exact hfirst.trans (ih _)
  | forget tokens =>
    induction tokens generalizing store with
    | nil => exact ⟨rfl, List.prefix_rfl⟩
    | cons token rest ih =>
      have hrest := ih (store.drop token)
      exact ⟨hrest.version, hrest.published⟩
  | clear => exact ⟨rfl, List.prefix_rfl⟩
  | invalidateGeneration => exact ⟨rfl, List.prefix_rfl⟩

theorem advances_run (store : BoxQuoteStore) (ops : List StoreOp) :
    Advances store (store.run ops) (ops.map StoreOp.observations).sum := by
  induction ops generalizing store with
  | nil => exact ⟨rfl, List.prefix_rfl⟩
  | cons op rest ih => exact (advances_apply store op).trans (ih _)

theorem Identified.run (h : Identified store) (ops : List StoreOp) :
    Identified (store.run ops) := by
  induction ops generalizing store with
  | nil => exact h
  | cons op rest ih => exact ih (h.apply op)

/-- Where an operation that concerns a token leaves a book, it is one just observed. -/
theorem get_part {op : StoreOp} (hpart : op ∈ ops.flatMap StoreOp.parts)
    (hconcerns : op.Concerns token) (store : BoxQuoteStore) :
    (store.apply op).get token = some quote ↔ ∃ tick receivedAt,
      op = .applyTicks [tick] receivedAt ∧ tick.authoritative = true ∧ tick.token = token ∧
        tick.book? store.nextVersion receivedAt = some quote := by
  obtain ⟨whole, -, hop⟩ := List.mem_flatMap.mp hpart
  cases whole with
  | applyTicks ticks receivedAt =>
    obtain ⟨tick, -, rfl⟩ := List.mem_map.mp hop
    obtain ⟨other, hmem, hauthoritative, htoken⟩ := hconcerns
    obtain rfl := (List.mem_singleton.mp hmem).symm
    have hget : (store.apply (.applyTicks [tick] receivedAt)).get token = _ :=
      (observe_authoritative hauthoritative).get token
    rw [hget, if_pos htoken.symm]
    constructor
    · exact fun h => ⟨tick, receivedAt, rfl, hauthoritative, htoken, h⟩
    · rintro ⟨other, at', heq, -, -, h⟩
      cases heq
      exact h
  | forget tokens =>
    obtain ⟨other, -, rfl⟩ := List.mem_map.mp hop
    obtain rfl := List.mem_singleton.mp hconcerns
    have hget : (store.apply (.forget [token])).get token = none := by
      have hdrop : (store.drop token).get token = _ := get_drop token
      exact hdrop.trans (if_pos rfl)
    simp [hget]
  | clear =>
    obtain rfl := List.mem_singleton.mp hop
    simp [BoxQuoteStore.apply, BoxQuoteStore.clear, BoxQuoteStore.get]
  | invalidateGeneration =>
    obtain rfl := List.mem_singleton.mp hop
    simp [BoxQuoteStore.apply, BoxQuoteStore.invalidateGeneration, BoxQuoteStore.clear,
      BoxQuoteStore.get]

/-- A book that is read was there before and has not been touched since, or has been observed
since. -/
theorem get_run (store : BoxQuoteStore) (ops : List StoreOp) (token : ℕ) (quote : BoxQuote) :
    (store.run ops).get token = some quote ↔
      (store.get token = some quote ∧
        ∀ op ∈ ops.flatMap StoreOp.parts, ¬op.Concerns token) ∨
      ∃ earlier tick receivedAt later,
        ops.flatMap StoreOp.parts = earlier ++ .applyTicks [tick] receivedAt :: later ∧
          tick.authoritative = true ∧ tick.token = token ∧
          tick.book? (store.nextVersion + (earlier.map StoreOp.observations).sum) receivedAt =
            some quote ∧
          ∀ op ∈ later, ¬op.Concerns token := by
  rw [← run_parts]
  refine (read_foldl_iff (fun store : BoxQuoteStore => store.get token)
    (fun store op => get_apply_frame store op) store _ quote).trans (or_congr_right ?_)
  constructor
  · rintro ⟨earlier, op, later, heq, hconcerns, hread, hlater⟩
    have hpart : op ∈ ops.flatMap StoreOp.parts := by simp [heq]
    obtain ⟨tick, receivedAt, rfl, hauthoritative, htoken, hbook⟩ :=
      (get_part hpart hconcerns (store.run earlier)).mp hread
    rw [(advances_run store earlier).version] at hbook
    exact ⟨earlier, tick, receivedAt, later, heq, hauthoritative, htoken, hbook, hlater⟩
  · rintro ⟨earlier, tick, receivedAt, later, heq, hauthoritative, htoken, hbook, hlater⟩
    have hconcerns : (StoreOp.applyTicks [tick] receivedAt).Concerns token :=
      ⟨tick, List.mem_singleton_self tick, hauthoritative, htoken⟩
    have hpart : .applyTicks [tick] receivedAt ∈ ops.flatMap StoreOp.parts := by simp [heq]
    refine ⟨earlier, _, later, heq, hconcerns, ?_, hlater⟩
    apply (get_part hpart hconcerns (store.run earlier)).mpr
    rw [(advances_run store earlier).version]
    exact ⟨tick, receivedAt, rfl, hauthoritative, htoken, hbook⟩

end Versions

/-- A book can be read exactly when the last operation that concerned its instrument observed it,
under a version that counts the observations until then. -/
theorem get_eq_some_iff (ops : List StoreOp) (token : ℕ) (quote : BoxQuote) :
    (({} : BoxQuoteStore).run ops).get token = some quote ↔
      ∃ earlier tick receivedAt later,
        ops.flatMap StoreOp.parts = earlier ++ .applyTicks [tick] receivedAt :: later ∧
          tick.authoritative = true ∧ tick.token = token ∧
          tick.book? (1 + (earlier.map StoreOp.observations).sum) receivedAt = some quote ∧
          ∀ op ∈ later, ¬op.Concerns token := by
  refine (get_run {} ops token quote).trans (or_iff_right ?_)
  simp [BoxQuoteStore.get]

/-- Two reads of a run that see one version see one book. What is read of an instrument does not
go back, and is newer after whatever concerned it. -/
theorem version_identifies_book (ops more : List StoreOp) (token other : ℕ) (quote next : BoxQuote)
    (hread : (({} : BoxQuoteStore).run ops).get token = some quote)
    (hnext : (({} : BoxQuoteStore).run (ops ++ more)).get other = some next) :
    (quote.version = next.version → quote = next) ∧
      (token = other → quote.version ≤ next.version ∧
        ((∃ op ∈ more.flatMap StoreOp.parts, op.Concerns token) →
          quote.version < next.version)) := by
  have hidentified := Identified.new.run ops
  have hlater := Identified.new.run (ops ++ more)
  rw [run_append] at hnext hlater
  have hquote := (hidentified.stored token quote hread).1
  have hmem := (advances_run (({} : BoxQuoteStore).run ops) more).published.subset hquote
  constructor
  · have hnodup := List.pairwise_map.mpr (hlater.ascending.imp Nat.ne_of_lt)
    exact List.inj_on_of_nodup_map hnodup hmem (hlater.stored other next hnext).1
  · rintro rfl
    have hbelow := hidentified.below quote hquote
    obtain ⟨hsame, hnone⟩ | ⟨earlier, tick, receivedAt, later, -, -, -, hbook, -⟩ :=
      (get_run _ more token next).mp hnext
    · obtain rfl := Option.some.inj (hread.symm.trans hsame)
      exact ⟨le_rfl, fun ⟨op, hop, hconcerns⟩ => absurd hconcerns (hnone op hop)⟩
    · have hversion := (book?_version hbook).1
      exact ⟨by omega, fun _ => by omega⟩

namespace Sample

def tick (qty : ℚ) : BoxTickInput where
  token := 101
  lastPrice := .finite 100
  asks := some (some [⟨.finite 100, .finite qty, .finite 3⟩])
  depthUpdated := some true

def reconnected : List StoreOp := [.invalidateGeneration, .applyTicks [tick 30] 9]

end Sample

/-- The feed reconnects, and the book that is read then is a new one. -/
theorem version_of_reconnected_feed : ∃ quote next,
    (({} : BoxQuoteStore).run [.applyTicks [Sample.tick 75] 0]).get 101 = some quote ∧
      (({} : BoxQuoteStore).run ([.applyTicks [Sample.tick 75] 0] ++ Sample.reconnected)).get 101 =
        some next ∧ quote.version < next.version := by
  have hread : ((({} : BoxQuoteStore).run [.applyTicks [Sample.tick 75] 0]).get 101).isSome := by
    decide +kernel
  have hnext : ((({} : BoxQuoteStore).run
      ([.applyTicks [Sample.tick 75] 0] ++ Sample.reconnected)).get 101).isSome := by
    decide +kernel
  obtain ⟨quote, hquote⟩ := Option.isSome_iff_exists.mp hread
  obtain ⟨next, hbook⟩ := Option.isSome_iff_exists.mp hnext
  obtain ⟨-, hnewer⟩ := version_identifies_book _ _ 101 101 quote next hquote hbook
  exact ⟨quote, next, hquote, hbook, (hnewer rfl).2 ⟨.invalidateGeneration, by decide, trivial⟩⟩

end Strikedge.Quotes
