import Strikedge.PaperLegs.LiquidityLedger
import Strikedge.Quotes.QuoteStore

/-!
# Paper orders on the quote store

The paper orders of a process look at the books of its quote store, and share the liquidity ledger.
The ledger is told a book by its version alone, as the engine gives the simulator no feed
generation. That a version stands for one book, and that no instrument goes back to an old one
even where the feed reconnects, is what the store provides.
-/

namespace Strikedge.Quotes

open Orders
open BookWalk (BoxDepthLevel maxSafeInteger)
open LiquidityLedger

def BookLevel.depth (level : BookLevel) : BoxDepthLevel := ⟨.finite level.price, .finite level.qty⟩

/-- The levels an order of a side takes from. -/
def BoxQuote.depth (quote : BoxQuote) : OrderSide → List BoxDepthLevel
  | .buy => quote.asks.levels.map BookLevel.depth
  | .sell => quote.bids.levels.map BookLevel.depth

/-- What a live leg asks of the book it looks at. -/
structure PaperOrder where
  token : ℕ
  side : OrderSide
  remainingQty : ℕ
  limitPrice : ℚ
  takenAt : ℚ
  deriving DecidableEq, Repr

/-- `generation` is left out of the simulator's surroundings, so it is 0. -/
def PaperOrder.attempt (order : PaperOrder) (quote : BoxQuote) : Attempt where
  generation := 0
  token := order.token
  side := order.side
  version := quote.version
  remainingQty := order.remainingQty
  limitPrice := order.limitPrice
  takenAt := order.takenAt

structure Desk where
  store : BoxQuoteStore := {}
  market : Market

inductive DeskLabel where
  | quotes (op : StoreOp)
  | tryFill (order : PaperOrder)
  deriving DecidableEq, Repr

namespace Desk

def tryFill (policy : QueuePolicy) (desk : Desk) (order : PaperOrder) : Desk :=
  match desk.store.get order.token with
  | none => desk
  | some quote =>
    { desk with
      market := desk.market.tryFill (fun _ _ _ => quote.depth) policy (order.attempt quote) }

def step (policy : QueuePolicy) (desk : Desk) : DeskLabel → Desk
  | .quotes op => { desk with store := desk.store.apply op }
  | .tryFill order => desk.tryFill policy order

/-- Any order of ticks, invalidations and attempts. -/
def run (policy : QueuePolicy) (desk : Desk) (labels : List DeskLabel) : Desk :=
  labels.foldl (step policy) desk

end Desk

/-- The books that the versions stand for. -/
def booksOf (published : List BoxQuote) : Books := fun _ token version side =>
  match published.find? fun quote => quote.token = token ∧ quote.version = version with
  | some quote => quote.depth side
  | none => []

/-- The queue-adjusted quantity a book displays to a side at a price. -/
def BoxQuote.displays (quote : BoxQuote) (policy : QueuePolicy) (side : OrderSide)
    (paise : ℤ) : ℕ :=
  displayed (fun _ _ _ => quote.depth) policy ⟨⟨0, quote.token, side, paise⟩, quote.version⟩

def SafelyDisplayed (policy : QueuePolicy) (published : List BoxQuote) : Prop :=
  ∀ quote ∈ published, ∀ side paise, quote.displays policy side paise ≤ maxSafeInteger

section Books

variable {store : BoxQuoteStore} {published more : List BoxQuote} {quote : BoxQuote}
variable {policy : QueuePolicy}

theorem booksOf_eq (h : Identified store) (hquote : quote ∈ store.published) (generation : ℕ) :
    booksOf store.published generation quote.token quote.version = quote.depth := by
  have hfound : (store.published.find? fun q =>
      q.token = quote.token ∧ q.version = quote.version).isSome := by
    rw [List.find?_isSome]
    exact ⟨quote, hquote, by simp⟩
  obtain ⟨found, hfound⟩ := Option.isSome_iff_exists.mp hfound
  have hversion : found.version = quote.version := by
    have hmatches := List.find?_some hfound
    exact (of_decide_eq_true hmatches).2
  have hnodup := List.pairwise_map.mpr (h.ascending.imp Nat.ne_of_lt)
  obtain rfl := List.inj_on_of_nodup_map hnodup (List.mem_of_find?_eq_some hfound) hquote hversion
  funext side
  rw [booksOf, hfound]

/-- What a version displays is what its book displays; without a book it is nothing. -/
theorem displayed_cases (published : List BoxQuote) (policy : QueuePolicy) (key : LevelKey) :
    displayed (booksOf published) policy key = 0 ∨ ∃ quote ∈ published,
      quote.token = key.series.token ∧ quote.version = key.version ∧
        displayed (booksOf published) policy key =
          quote.displays policy key.series.side key.series.paise := by
  rw [displayed_eq, levelsAt, booksOf]
  split
  · rename_i quote hfound
    have hmatches := List.find?_some hfound
    obtain ⟨htoken, hversion⟩ := of_decide_eq_true hmatches
    exact .inr ⟨quote, List.mem_of_find?_eq_some hfound, htoken, hversion, rfl⟩
  · exact .inl rfl

/-- A version keeps the book it stands for. -/
theorem displayed_mono (h : published <+: more) (key : LevelKey) :
    displayed (booksOf published) policy key ≤ displayed (booksOf more) policy key := by
  obtain ⟨rest, rfl⟩ := h
  rw [displayed_eq, displayed_eq, levelsAt, levelsAt, booksOf, booksOf, List.find?_append]
  cases published.find? fun quote =>
      quote.token = key.series.token ∧ quote.version = key.version with
  | some quote => exact le_rfl
  | none => exact Nat.zero_le _

theorem tryFill_congr (policy : QueuePolicy) (market : Market) (attempt : Attempt)
    (books others : Books) (h : books attempt.generation attempt.token attempt.version =
      others attempt.generation attempt.token attempt.version) :
    market.tryFill books policy attempt = market.tryFill others policy attempt := by
  rw [tryFill_eq, tryFill_eq, Attempt.takes, Attempt.takes, Attempt.slices, Attempt.slices, h]

end Books

/-- No more was taken than is displayed, and the ledger knows no book that is yet to come. -/
structure Fair (policy : QueuePolicy) (desk : Desk) : Prop where
  identified : Identified desk.store
  sound : Sound (booksOf desk.store.published) policy desk.market
  recent : ∀ series latest, desk.market.ledger.latestVersion.get? series = some latest →
    latest < desk.store.nextVersion ∧
      ∀ quote, desk.store.get series.token = some quote → latest ≤ quote.version

section Runs

variable {policy : QueuePolicy} {desk : Desk} {labels : List DeskLabel}

theorem step_prefix (policy : QueuePolicy) (desk : Desk) (label : DeskLabel) :
    desk.store.published <+: (desk.step policy label).store.published ∧
      desk.market.taken <+: (desk.step policy label).market.taken ∧
      (desk.step policy label).market.ledger.maxSeries = desk.market.ledger.maxSeries := by
  cases label with
  | quotes op => exact ⟨(advances_apply desk.store op).published, List.prefix_rfl, rfl⟩
  | tryFill order =>
    rw [Desk.step, Desk.tryFill]
    split
    · exact ⟨List.prefix_rfl, List.prefix_rfl, rfl⟩
    · exact ⟨List.prefix_rfl, List.prefix_append _ _, maxSeries_tryFill _⟩

theorem run_prefix (policy : QueuePolicy) (desk : Desk) (labels : List DeskLabel) :
    desk.store.published <+: (desk.run policy labels).store.published ∧
      desk.market.taken <+: (desk.run policy labels).market.taken := by
  induction labels generalizing desk with
  | nil => exact ⟨List.prefix_rfl, List.prefix_rfl⟩
  | cons label rest ih =>
    obtain ⟨hpublished, htaken, -⟩ := step_prefix policy desk label
    obtain ⟨hpublished', htaken'⟩ := ih (desk.step policy label)
    exact ⟨hpublished.trans hpublished', htaken.trans htaken'⟩

/-- All that is taken is under the one generation. -/
theorem taken_generation (h : ∀ take ∈ desk.market.taken, take.1.series.generation = 0)
    (labels : List DeskLabel) :
    ∀ take ∈ (desk.run policy labels).market.taken, take.1.series.generation = 0 := by
  induction labels generalizing desk with
  | nil => exact h
  | cons label rest ih =>
    apply @ih (desk.step policy label)
    cases label with
    | quotes op => exact h
    | tryFill order =>
      rw [Desk.step, Desk.tryFill]
      split
      · exact h
      · intro take htake
        obtain hbefore | hnow := List.mem_append.mp htake
        · exact h take hbefore
        · obtain ⟨slice, -, rfl⟩ := List.mem_map.mp hnow
          rfl

/-- A book observed now is newer than all that the ledger knows. -/
theorem Fair.quotes (h : Fair policy desk) (op : StoreOp) :
    Fair policy (desk.step policy (.quotes op)) where
  identified := h.identified.apply op
  sound :=
    { h.sound with
      within := fun key => (h.sound.within key).trans
        (displayed_mono (advances_apply desk.store op).published key) }
  recent := by
    intro series latest hlatest
    obtain ⟨hnext, hstored⟩ := h.recent series latest hlatest
    have hadvance := (advances_apply desk.store op).version
    refine ⟨?_, fun quote hquote => ?_⟩
    · show latest < (desk.store.apply op).nextVersion
      omega
    · have hread : (desk.store.run [op]).get series.token = some quote := hquote
      obtain ⟨hsame, -⟩ | ⟨earlier, tick, receivedAt, later, -, -, -, hbook, -⟩ :=
        (get_run desk.store [op] series.token quote).mp hread
      · exact hstored quote hsame
      · have hversion := (book?_version hbook).1
        omega

/-- An attempt on the book the store has now, which is no older than those the ledger knows. -/
theorem Fair.tryFill (h : Fair policy desk) (order : PaperOrder)
    (hsafe : SafelyDisplayed policy desk.store.published)
    (hroom : (tracked (desk.step policy (.tryFill order)).market.taken).card ≤
      desk.market.ledger.maxSeries) :
    Fair policy (desk.step policy (.tryFill order)) := by
  rw [Desk.step, Desk.tryFill] at hroom ⊢
  split at hroom
  · exact h
  · rename_i quote hread
    obtain ⟨hmem, htoken⟩ := h.identified.stored order.token quote hread
    have hbooks : (fun _ _ _ => quote.depth : Books) 0 order.token quote.version =
        booksOf desk.store.published 0 order.token quote.version := by
      rw [← htoken, booksOf_eq h.identified hmem]
    rw [tryFill_congr policy desk.market (order.attempt quote) _ _ hbooks] at hroom ⊢
    have hlater : NoLater desk.market.ledger (order.attempt quote).generation
        (order.attempt quote).token (order.attempt quote).version := by
      intro series latest hlatest _ hsame
      exact (h.recent series latest hlatest).2 quote (hsame ▸ hread)
    have hdisplayed : ∀ key, displayed (booksOf desk.store.published) policy key ≤
        maxSafeInteger := by
      intro key
      obtain hzero | ⟨shown, hshown, -, -, heq⟩ :=
        displayed_cases desk.store.published policy key
      · exact hzero ▸ Nat.zero_le _
      · exact heq ▸ hsafe shown hshown _ _
    refine ⟨h.identified, h.sound.tryFill hlater hdisplayed hroom, ?_⟩
    intro series latest hlatest
    obtain hbefore | ⟨-, hsame, rfl⟩ :=
      latest_of_reserveAll (takes_onBook _ _ policy desk.market.ledger) hlatest
    · exact h.recent series latest hbefore
    · refine ⟨h.identified.below quote hmem, fun other hother => ?_⟩
      have hseries : series.token = order.token := hsame
      rw [hseries, hread] at hother
      exact (congrArg BoxQuote.version (Option.some.inj hother)).le

theorem Fair.run (h : Fair policy desk) (labels : List DeskLabel)
    (hsafe : SafelyDisplayed policy (desk.run policy labels).store.published)
    (hroom : (tracked (desk.run policy labels).market.taken).card ≤
      desk.market.ledger.maxSeries) : Fair policy (desk.run policy labels) := by
  induction labels generalizing desk with
  | nil => exact h
  | cons label rest ih =>
    obtain ⟨hstep, -, hmax⟩ := step_prefix policy desk label
    obtain ⟨hpublished, later, htaken⟩ := run_prefix policy (desk.step policy label) rest
    have hroomNow : (tracked (desk.step policy label).market.taken).card ≤
        desk.market.ledger.maxSeries := by
      apply le_trans (Finset.card_le_card _) hroom
      have hrun : (desk.run policy (label :: rest)).market.taken =
          ((desk.step policy label).run policy rest).market.taken := rfl
      rw [hrun, ← htaken]
      exact tracked_mono
    apply ih _ hsafe (hmax ▸ hroom)
    cases label with
    | quotes op => exact h.quotes op
    | tryFill order =>
      refine h.tryFill order (fun quote hquote => hsafe quote ?_) hroomNow
      exact (hstep.trans hpublished).subset hquote

end Runs

/-- Whatever ticks, invalidations and paper orders come in any order, all that the orders take is
reserved under one generation. Together they take of no price of a book more than it displays
there, and nothing without a book, while what a book displays is a safe integer and the ledger
has room for the price series. -/
theorem desk_never_oversells (policy : QueuePolicy) (maxSeries : ℕ) (labels : List DeskLabel)
    (hsafe : SafelyDisplayed policy
      (({ market := ⟨.new maxSeries, []⟩ } : Desk).run policy labels).store.published)
    (hroom : (tracked
      (({ market := ⟨.new maxSeries, []⟩ } : Desk).run policy labels).market.taken).card ≤
        max 1 maxSeries) :
    let desk := ({ market := ⟨.new maxSeries, []⟩ } : Desk).run policy labels
    (∀ take ∈ desk.market.taken, take.1.series.generation = 0) ∧
    ∀ key, total desk.market.taken key = 0 ∨ ∃ quote ∈ desk.store.published,
      quote.token = key.series.token ∧ quote.version = key.version ∧
        total desk.market.taken key ≤ quote.displays policy key.series.side key.series.paise := by
  intro desk
  refine ⟨taken_generation (fun _ h => absurd h List.not_mem_nil) labels, fun key => ?_⟩
  have hnew : Fair policy { market := ⟨.new maxSeries, []⟩ } :=
    ⟨Identified.new, sound_new maxSeries, fun _ latest h =>
      absurd h (Option.some_ne_none latest).symm⟩
  have hwithin := (hnew.run labels hsafe hroom).sound.within key
  obtain hzero | ⟨quote, hquote, htoken, hversion, heq⟩ :=
    displayed_cases desk.store.published policy key
  · exact .inl (Nat.le_zero.mp (hzero ▸ hwithin))
  · exact .inr ⟨quote, hquote, htoken, hversion, heq ▸ hwithin⟩

namespace Sample

def order (remainingQty : ℕ) : PaperOrder := ⟨101, .buy, remainingQty, 101, 0⟩

def policy : QueuePolicy := ⟨.none, .finite 0⟩

/-- Two orders share a book; after the feed has reconnected a third finds another. -/
def labels : List DeskLabel :=
  [.quotes (.applyTicks [tick 75] 0), .tryFill (order 50), .tryFill (order 50),
    .quotes .invalidateGeneration, .tryFill (order 50), .quotes (.applyTicks [tick 30] 9),
    .tryFill (order 50)]

def desk : Desk := ({ market := ⟨.new 4096, []⟩ } : Desk).run policy labels

end Sample

/-- At one price no more is displayed than at all of them. -/
theorem displays_le (quote : BoxQuote) (policy : QueuePolicy) (side : OrderSide) (paise : ℤ) :
    quote.displays policy side paise ≤ (((quote.depth side).filterMap BookWalk.usable?).map
      fun level => BookWalk.effectiveQty level.qty policy.queueModel
        policy.queueHaircutPct).sum := by
  rw [BoxQuote.displays, displayed_eq, levelsAt]
  apply List.Sublist.sum_le_sum (List.filter_sublist.map _)
  exact fun _ _ => Nat.zero_le _

theorem desk_of_reconnected_feed :
    ∃ quote ∈ Sample.desk.store.published, quote.version = 2 ∧
      total Sample.desk.market.taken ⟨seriesOf 0 101 .buy 100, 2⟩ ≤
        quote.displays Sample.policy .buy (Machine.mathRound (100 * 100)) := by
  have hshown : ∀ quote ∈ Sample.desk.store.published, ∀ side ∈ [OrderSide.buy, .sell],
      (((quote.depth side).filterMap BookWalk.usable?).map fun level =>
        BookWalk.effectiveQty level.qty .none (.finite 0)).sum ≤ maxSafeInteger := by
    decide +kernel
  have hsides : ∀ side : OrderSide, side ∈ [OrderSide.buy, .sell] := by
    intro side
    cases side <;> simp
  obtain ⟨-, hlevels⟩ :=
    desk_never_oversells Sample.policy 4096 Sample.labels
      (fun quote hquote side paise =>
        (displays_le quote Sample.policy side paise).trans (hshown quote hquote side (hsides side)))
      (by decide +kernel)
  obtain hzero | ⟨quote, hquote, -, hversion, hwithin⟩ := hlevels ⟨seriesOf 0 101 .buy 100, 2⟩
  · have htaken : total Sample.desk.market.taken ⟨seriesOf 0 101 .buy 100, 2⟩ = 30 := by
      decide +kernel
    exact absurd (htaken.symm.trans hzero) (by decide)
  · exact ⟨quote, hquote, hversion, hwithin⟩

end Strikedge.Quotes
