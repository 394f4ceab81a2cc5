import Mathlib.Data.List.Sort
import Strikedge.PnlArchive.Snapshot

/-!
# The tables of a P&L day

The rows and the summary of one day, its completion state, the trades that exist and the deletion
fences. A statement changes them at once and answers from what they held before. What other days
hold of a trade is an answer of the environment.

A proof of a day is the number of its rows and a digest of the rows and the summary they add up to.
-/

namespace Strikedge.PnlDay

open PnlArchive

/-- The documents of a day. -/
structure DayDocs where
  rows : List BoxDailyPnlRow
  summary : Option BoxDailyPnlSummary
  deriving DecidableEq, Repr

structure BoxPnlDayProof (δ : Type) where
  rowCount : ℕ
  contentSha256 : δ
  deriving DecidableEq, Repr

/-- What the functions of a day are given. -/
structure DayContext (δ : Type) where
  day : Int
  digest : List BoxDailyPnlRow → BoxDailyPnlSummary → δ
  isValidBoxId : String → Bool

def DayDocs.tradeIds (docs : DayDocs) : List String := docs.rows.map (·.tradeId)

def canonicalBoxPnlSummary (summary : BoxDailyPnlSummary) : BoxDailyPnlSummary :=
  { summary with updatedAt := 0 }

def canonicalBoxPnlRow (row : BoxDailyPnlRow) : BoxDailyPnlRow := { row with day := 0 }

def boxPnlSummariesEqual (a b : BoxDailyPnlSummary) : Bool :=
  decide (canonicalBoxPnlSummary a = canonicalBoxPnlSummary b)

/-- Stored summary content must agree with the rows. -/
def boxPnlSummaryMatchesRows (docs : DayDocs) : Bool :=
  match docs.summary with
  | none => false
  | some stored => boxPnlSummariesEqual stored (summarizeDayRows stored.day docs.rows 0)

section Proofs

variable {δ : Type} (ctx : DayContext δ)

/-- `BoxPnlDayProofBuilder` over rows in their order. -/
def finishProof (day : Int) (rows : List BoxDailyPnlRow) (nowIso : Int) :
    BoxPnlDayProof δ × BoxDailyPnlSummary :=
  let summary := summarizeDayRows day rows nowIso
  (⟨rows.length, ctx.digest (rows.map canonicalBoxPnlRow) (canonicalBoxPnlSummary summary)⟩,
    summary)

/-- The day of the first document. -/
def DayDocs.dayOf (docs : DayDocs) : Int :=
  if docs.rows = [] ∧ docs.summary = none then 0 else ctx.day

def buildBoxPnlDayProof (docs : DayDocs) : BoxPnlDayProof δ :=
  (finishProof ctx (docs.dayOf ctx) (docs.rows.insertionSort fun a b => a.tradeId ≤ b.tradeId)
    0).1

end Proofs

/-- A row of `box_pnl_day_states`. The proof is there if the snapshot version is 2. -/
structure DayState (δ : Type) where
  complete : Bool
  needsReproof : Bool
  proof : Option (BoxPnlDayProof δ)
  expectedTradeIds : Option (List String)
  deriving DecidableEq, Repr

inductive FenceStatus where
  | pending
  | complete
  deriving DecidableEq, Repr

/-- The other days that hold a row of a trade: none, some, or a page full of them. -/
inductive OtherDays where
  | none
  | some
  | fullPage
  deriving DecidableEq, Repr

/-- What the protocols of a day read and others write. -/
structure Surroundings where
  /-- The trades that exist. -/
  sources : List String
  elsewhere : String → OtherDays
  /-- A trade cannot be cleaned up on another day. -/
  elsewhereFails : Bool
  /-- The deletions that name this day as a candidate. -/
  candidates : List String

/-- The tables, as far as one day reads and writes them. -/
structure DayDb (δ : Type) where
  docs : DayDocs
  state : Option (DayState δ)
  fences : String → Option FenceStatus
  around : Surroundings

/-- The size of a page, and of a batch of ids. -/
def pageSize : ℕ := 200

inductive Statement (δ : Type) where
  | markIncomplete (needsReproof : Bool)
  | markRetryIfProof (proof : BoxPnlDayProof δ)
  | loadDayState
  /-- The next rows by trade id. -/
  | page (afterTradeId : String)
  | loadSnapshot
  | existingSources (ids : List String)
  | completedFences (ids : List String)
  | readSummary
  | writeSummary (summary : BoxDailyPnlSummary)
  | upsertRow (row : BoxDailyPnlRow)
  | deleteRows (ids : List String)
  | publish (proof : BoxPnlDayProof δ)
  | reprove (prior next : BoxPnlDayProof δ)
  | publishV2 (proof : BoxPnlDayProof δ)
  | finalizeV2 (proof : BoxPnlDayProof δ)
  | markRetryLegacy
  | prepareDeletion (tradeId : String)
  | candidateDay (tradeId : String)
  /-- Whether this day, and whether another one, is among those that hold the trade. -/
  | heldDays (tradeId : String)
  /-- The trade is cleaned up on other days, or that fails. -/
  | cleanElsewhere (tradeId : String)
  | completeDeletion (tradeId : String)
  | failDeletion (tradeId : String)

namespace Statement

variable {δ : Type}

@[reducible] def Answer : Statement δ → Type
  | loadDayState => Option (DayState δ)
  | page _ => List BoxDailyPnlRow
  | loadSnapshot => DayDocs
  | existingSources _ | completedFences _ => List String
  | readSummary => Option BoxDailyPnlSummary
  | deleteRows _ => ℕ
  | reprove _ _ | finalizeV2 _ | candidateDay _ | cleanElsewhere _ => Bool
  | heldDays _ => Bool × Bool
  | markIncomplete _ | markRetryIfProof _ | writeSummary _ | upsertRow _ | publish _
  | publishV2 _ | markRetryLegacy | prepareDeletion _ | completeDeletion _ | failDeletion _ => Unit

variable [DecidableEq δ]

def answer (db : DayDb δ) : (q : Statement δ) → q.Answer
  | loadDayState => db.state
  | page afterTradeId =>
    ((db.docs.rows.insertionSort fun a b => a.tradeId ≤ b.tradeId).filter fun row =>
      decide (afterTradeId = "" ∨ afterTradeId < row.tradeId)).take pageSize
  | loadSnapshot => db.docs
  | existingSources ids => db.around.sources.filter (· ∈ ids)
  | completedFences ids => ids.filter fun id => decide (db.fences id = some .complete)
  | readSummary => db.docs.summary
  | deleteRows ids => db.docs.rows.countP (·.tradeId ∈ ids)
  | reprove prior _ => decide (db.state.bind DayState.proof = some prior)
  | finalizeV2 proof =>
    match db.state with
    | none => false
    | some state => decide (state.proof = some proof ∧ state.expectedTradeIds ≠ none)
  | candidateDay tradeId => decide (tradeId ∈ db.around.candidates)
  | heldDays tradeId =>
    (decide (tradeId ∈ db.docs.tradeIds ∧ db.around.elsewhere tradeId ≠ .fullPage),
      decide (db.around.elsewhere tradeId ≠ .none))
  | cleanElsewhere _ => !db.around.elsewhereFails
  | markIncomplete _ | markRetryIfProof _ | writeSummary _ | upsertRow _ | publish _
  | publishV2 _ | markRetryLegacy | prepareDeletion _ | completeDeletion _ | failDeletion _ => ()

end Statement

section Effects

variable {δ : Type} [DecidableEq δ]

def upsertDocs (docs : DayDocs) (row : BoxDailyPnlRow) : DayDocs :=
  if row.tradeId ∈ docs.tradeIds then
    { docs with rows := docs.rows.map fun old => if old.tradeId = row.tradeId then row else old }
  else { docs with rows := docs.rows ++ [row] }

def DayState.invalidated (needsReproof : Bool) : Option (DayState δ) → DayState δ
  | none => ⟨false, needsReproof, none, none⟩
  | some state => { state with complete := false, needsReproof := needsReproof }

/-- The fence of a trade, if there is one. -/
def DayDb.setFence (db : DayDb δ) (tradeId : String) (status : FenceStatus) : DayDb δ :=
  { db with fences := fun id =>
      if id = tradeId then (db.fences id).map fun _ => status else db.fences id }

def Statement.effect (db : DayDb δ) : Statement δ → DayDb δ
  | .markIncomplete needsReproof =>
    { db with state := some (DayState.invalidated needsReproof db.state) }
  | .markRetryIfProof proof =>
    { db with state := db.state.map fun state =>
        if state.proof = some proof then { state with complete := false, needsReproof := true }
        else state }
  | .writeSummary summary => { db with docs := { db.docs with summary := some summary } }
  | .upsertRow row => { db with docs := upsertDocs db.docs row }
  | .deleteRows ids =>
    { db with docs := { db.docs with rows := db.docs.rows.filter (·.tradeId ∉ ids) } }
  | .publish proof => { db with state := some ⟨true, false, some proof, none⟩ }
  | .reprove prior next =>
    { db with state := db.state.map fun state =>
        if state.proof = some prior then ⟨true, false, some next, none⟩ else state }
  | .publishV2 proof =>
    { db with state := db.state.map fun state =>
        if state.expectedTradeIds = none then state
        else { state with complete := true, needsReproof := false, proof := some proof } }
  | .finalizeV2 proof =>
    { db with state := db.state.map fun state =>
        if state.proof = some proof then { state with expectedTradeIds := none } else state }
  | .markRetryLegacy =>
    { db with state := db.state.map fun state =>
        if state.expectedTradeIds = none then state else { state with needsReproof := true } }
  | .prepareDeletion tradeId =>
    { db with fences := fun id =>
        if id = tradeId then some ((db.fences id).getD .pending) else db.fences id }
  | .completeDeletion tradeId => db.setFence tradeId .complete
  | .failDeletion tradeId => db.setFence tradeId .pending
  | .loadDayState | .page _ | .loadSnapshot | .existingSources _ | .completedFences _
  | .readSummary | .candidateDay _ | .heldDays _ | .cleanElsewhere _ => db

end Effects

end Strikedge.PnlDay
