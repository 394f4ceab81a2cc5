import Strikedge.Machine.Program
import Strikedge.PnlDay.Tables

/-!
# The protocols of a P&L day

The functions of `repository.ts` that read and write one day, as programs of its statements. A
mutation stands between two invalidations. A proof is published between two loads of the day that
have to agree with it. A deletion prepares its fence, cleans the day and completes the fence.

A loop without a bound takes fuel, and fails where that is used up. The other days that a deletion
cleans show only in what they hold and in whether that fails.
-/

namespace Strikedge.PnlDay

open Machine PnlArchive

/-- Why a function throws. -/
inductive PnlError where
  | outOfFuel
  | invalidSourceRow
  | summaryUnsettled
  | changedBeforePublication
  | changedWhilePublishing
  | membershipDiffers
  | summaryDiffers
  | changedBeforeReproof
  | noExactProof
  | invalidManifest
  | manifestDiffers
  | changedDuringValidation
  | unstablePublication
  | changedBeforeFinalization
  | notMigrated
  | cleanupFailed
  | retainedInvalidRows
  deriving DecidableEq, Repr

variable {δ : Type} [DecidableEq δ]

abbrev PnlM (δ : Type) := ExceptT PnlError (Program (Statement δ) Statement.Answer)

def query (q : Statement δ) : PnlM δ q.Answer := liftM (Program.statement q)

/-- The field of the summary document. -/
def summaryField : String := "__summary__"

def isArchivedPnlRowInvalid (sourceExists : Bool) (fenceStatus : Option FenceStatus) : Bool :=
  !sourceExists || decide (fenceStatus = some .complete)

def shouldReproveBoxPnlDay (state : Option (DayState δ)) : Bool :=
  match state with
  | none => false
  | some state => state.complete || state.needsReproof

/-- Batches of ids. -/
def chunks : ℕ → List String → List (List String)
  | 0, _ => []
  | _ + 1, [] => []
  | n + 1, ids => ids.take pageSize :: chunks n (ids.drop pageSize)

section Context

variable (ctx : DayContext δ)

def existingSources (validIds : List String) : PnlM δ (List String) :=
  if validIds = [] then pure [] else query (.existingSources validIds)

def invalidInBatches : List (List String) → PnlM δ (List String)
  | [] => pure []
  | batch :: rest => do
    let sources ← existingSources (batch.filter ctx.isValidBoxId)
    let completed ← query (.completedFences batch)
    let others ← invalidInBatches rest
    let invalid := batch.filter fun id =>
      isArchivedPnlRowInvalid (decide (id ∈ sources))
        (if id ∈ completed then some .complete else none)
    return invalid ++ others

/-- Which of these trades are no longer legal. -/
def invalidArchivedTradeIds (ids : List String) : PnlM δ (List String) :=
  let unique := (ids.filter (· ≠ summaryField)).dedup
  invalidInBatches ctx (chunks unique.length unique)

/-- The rows that are legal, in their order, and the trades that are not. -/
def scanPages : ℕ → String → List BoxDailyPnlRow → List String →
    PnlM δ (List BoxDailyPnlRow × List String)
  | 0, _, _, _ => throw .outOfFuel
  | fuel + 1, afterTradeId, scanned, invalid => do
    let rows ← query (.page afterTradeId)
    if rows = [] then return (scanned, invalid)
    else
      let bad ← invalidArchivedTradeIds ctx (rows.map (·.tradeId))
      let scanned := scanned ++ rows.filter (·.tradeId ∉ bad)
      if rows.length < pageSize then return (scanned, invalid ++ bad)
      else
        scanPages fuel ((rows.getLast?.map (·.tradeId)).getD afterTradeId) scanned (invalid ++ bad)

structure DayScan (δ : Type) where
  proof : BoxPnlDayProof δ
  summary : BoxDailyPnlSummary
  invalidTradeIds : List String

def scanDurablePnlDay (fuel : ℕ) (nowIso : Int) : PnlM δ (DayScan δ) := do
  let (rows, invalid) ← scanPages ctx fuel "" [] []
  let (proof, summary) := finishProof ctx ctx.day rows nowIso
  return ⟨proof, summary, invalid.dedup⟩

/-- The rows, if they are all legal. -/
def validate (docs : DayDocs) (error : PnlError) : PnlM δ Unit := do
  let invalid ← invalidArchivedTradeIds ctx docs.tradeIds
  if invalid ≠ [] then throw error

/-- `runBoxPnlDayMutation` of a day: the closing invalidation also follows a failure. -/
def mutateDurablePnlDay {α : Type} (mutate : PnlM δ α) : PnlM δ α := do
  query (.markIncomplete true)
  let result : Except PnlError α ← tryCatch
    (do
      let a ← mutate
      return .ok a)
    fun e => pure (.error e)
  query (.markIncomplete true)
  match result with
  | .ok a => return a
  | .error e => throw e

/-- The attempts of `rewriteBoxDailyPnlSummary`. -/
def rewriteAttempts (fuel : ℕ) (nowIso : Int) : ℕ → PnlM δ (BoxPnlDayProof δ)
  | 0 => throw .summaryUnsettled
  | attempts + 1 => do
    let before ← scanDurablePnlDay ctx fuel nowIso
    if before.invalidTradeIds ≠ [] then throw .invalidSourceRow
    mutateDurablePnlDay (query (.writeSummary before.summary))
    let later ← scanDurablePnlDay ctx fuel nowIso
    if later.invalidTradeIds = [] ∧ before.proof = later.proof then return later.proof
    else rewriteAttempts fuel nowIso attempts

def rewriteBoxDailyPnlSummary (fuel : ℕ) (nowIso : Int) : PnlM δ (BoxPnlDayProof δ) :=
  rewriteAttempts ctx fuel nowIso 5

def deleteBatches : List (List String) → PnlM δ ℕ
  | [] => pure 0
  | batch :: rest => do
    let deleted ← mutateDurablePnlDay (query (.deleteRows batch))
    let others ← deleteBatches rest
    return deleted + others

def deleteBoxDailyPnlRows (tradeIds : List String) : PnlM δ ℕ :=
  deleteBatches (chunks tradeIds.dedup.length tradeIds.dedup)

/-- `runSourceSafePnlRowUpsert` of a row. -/
def upsertBoxDailyPnl (fuel : ℕ) (nowIso : Int) (row : BoxDailyPnlRow) : PnlM δ Unit := do
  if row.tradeId = summaryField then
    let _ ← rewriteBoxDailyPnlSummary ctx fuel nowIso
  else
    let before ← invalidArchivedTradeIds ctx [row.tradeId]
    if before = [] then
      mutateDurablePnlDay (query (.upsertRow row))
      let later ← invalidArchivedTradeIds ctx [row.tradeId]
      if later ≠ [] then
        let _ ← mutateDurablePnlDay (query (.deleteRows [row.tradeId]))
        let _ ← rewriteBoxDailyPnlSummary ctx fuel nowIso

/-- `loadBoxDailyPnlSnapshot`, of rows that are all legal. -/
def loadValidated (error : PnlError) : PnlM δ DayDocs := do
  let docs ← query .loadSnapshot
  validate ctx docs error
  return docs

/-- `markBoxDailyPnlComplete`, by `runBoxPnlDayProofCommit`. -/
def markBoxDailyPnlComplete (fuel : ℕ) (nowIso : Int) (expected : DayDocs) :
    PnlM δ (BoxPnlDayProof δ) := do
  let invalid ← invalidArchivedTradeIds ctx expected.tradeIds
  if invalid ≠ [] then
    query (.markIncomplete true)
    throw .invalidSourceRow
  let expectedProof := buildBoxPnlDayProof ctx expected
  let matches' (docs : DayDocs) : Bool :=
    boxPnlSummaryMatchesRows docs && decide (expectedProof = buildBoxPnlDayProof ctx docs)
  tryCatch
    (do
      let _ ← rewriteBoxDailyPnlSummary ctx fuel nowIso
      let before ← loadValidated ctx .changedDuringValidation
      if matches' before = false then throw .changedBeforePublication
      query (.publish expectedProof)
      let later ← loadValidated ctx .changedDuringValidation
      if matches' later = false then throw .changedWhilePublishing
      return expectedProof)
    fun e => do
      query (.markIncomplete true)
      throw e

/-- `loadValid` of `runBoxPnlDayProofRepair` -/
def loadValid (expectedRowCount : ℕ) (requireSummary : Bool) : PnlM δ (BoxPnlDayProof δ) := do
  let docs ← loadValidated ctx .invalidSourceRow
  let proof := buildBoxPnlDayProof ctx docs
  if proof.rowCount ≠ expectedRowCount then throw .membershipDiffers
  else if requireSummary && !boxPnlSummaryMatchesRows docs then throw .summaryDiffers
  else return proof

/-- A failure marks the day for a retry, if it still has this proof. -/
def orMarkRetry {α : Type} (retryProof : BoxPnlDayProof δ) (body : PnlM δ α) : PnlM δ α :=
  tryCatch body fun e => do
    query (.markRetryIfProof retryProof)
    throw e

/-- `runBoxPnlDayProofRepair` up to its publication -/
def publishReproof (fuel : ℕ) (nowIso : Int) (rowCount : ℕ) (lastExactProof : BoxPnlDayProof δ) :
    PnlM δ (BoxPnlDayProof δ) := do
  let _ ← loadValid ctx rowCount false
  let _ ← rewriteBoxDailyPnlSummary ctx fuel nowIso
  let before ← loadValid ctx rowCount true
  let published ← query (.reprove lastExactProof before)
  if published then return before else throw .changedBeforeReproof

/-- `reproveBoxDailyPnlFromDurable`, by `runBoxPnlDayProofRepair`. The proof that a failure
retries is the last exact one up to the publication, and the published one behind it. -/
def reproveBoxDailyPnlFromDurable (fuel : ℕ) (nowIso : Int) (expectedRowCount : Option ℕ) :
    PnlM δ Unit := do
  let state ← query .loadDayState
  match state.bind DayState.proof with
  | none => do
    query (.markIncomplete true)
    throw .noExactProof
  | some lastExactProof => do
    let rowCount := expectedRowCount.getD lastExactProof.rowCount
    let before ← orMarkRetry lastExactProof
      (publishReproof ctx fuel nowIso rowCount lastExactProof)
    orMarkRetry before do
      let later ← loadValid ctx rowCount true
      if before ≠ later then throw .changedWhilePublishing

/-- A manifest without empty or repeated ids. -/
def manifestOk (expectedTradeIds : List String) : Bool :=
  expectedTradeIds.all (fun id => decide (id ≠ "" ∧ id ≠ summaryField)) &&
    decide expectedTradeIds.Nodup

def sortedIds (ids : List String) : List String := ids.insertionSort (· ≤ ·)

/-- The body of `runLegacyBoxPnlDayMigration` -/
def migrateBody (fuel : ℕ) (nowIso : Int) (expectedTradeIds : List String) : PnlM δ Unit := do
  if manifestOk expectedTradeIds = false then throw .invalidManifest
  let invalid ← invalidArchivedTradeIds ctx expectedTradeIds
  let sourceValidExpected := sortedIds (expectedTradeIds.filter (· ∉ invalid)).dedup
  let _ ← rewriteBoxDailyPnlSummary ctx fuel nowIso
  let settled ← query .loadSnapshot
  if (decide settled.tradeIds.Nodup && decide (sortedIds settled.tradeIds = sourceValidExpected) &&
      boxPnlSummaryMatchesRows settled) = false then throw .manifestDiffers
  validate ctx settled .changedDuringValidation
  query (.publishV2 (buildBoxPnlDayProof ctx settled))
  let published ← query .loadSnapshot
  let state ← query .loadDayState
  match state.bind DayState.proof with
  | none => throw .unstablePublication
  | some proof => do
    if (boxPnlSummaryMatchesRows published &&
        decide (proof = buildBoxPnlDayProof ctx published)) = false then throw .unstablePublication
    let finalized ← query (.finalizeV2 proof)
    if finalized = false then throw .changedBeforeFinalization

def migrateLegacyBoxDailyPnlState (fuel : ℕ) (nowIso : Int) (expectedTradeIds : List String) :
    PnlM δ Bool :=
  tryCatch
    (do
      migrateBody ctx fuel nowIso expectedTradeIds
      return true)
    fun _ => do
      query .markRetryLegacy
      return false

def isBoxDailyPnlSnapshotComplete (fuel : ℕ) (nowIso : Int) (docs : DayDocs) : PnlM δ Bool := do
  let loaded ← query .loadDayState
  match loaded with
  | none => return false
  | some state =>
    if state.complete = false then return false
    else
      match state.proof, state.expectedTradeIds with
      | none, some expected => migrateLegacyBoxDailyPnlState ctx fuel nowIso expected
      | none, none => do
        query (.markIncomplete true)
        return false
      | some proof, _ => do
        if boxPnlSummaryMatchesRows docs && decide (proof = buildBoxPnlDayProof ctx docs) then
          return true
        else
          query (.markRetryIfProof proof)
          return false

/-- `cleanDay` of `deleteBoxDailyPnlForTrade` -/
def cleanDay (fuel : ℕ) (nowIso : Int) (tradeId : String) : PnlM δ ℕ := do
  let state ← query .loadDayState
  let survivors ← scanDurablePnlDay ctx fuel nowIso
  let deleted ← mutateDurablePnlDay (query (.deleteRows [tradeId]))
  match state.bind DayState.expectedTradeIds with
  | some expected => do
    let migrated ← migrateLegacyBoxDailyPnlState ctx fuel nowIso expected
    if migrated = false then throw .notMigrated
    return deleted
  | none => do
    if shouldReproveBoxPnlDay state then
      reproveBoxDailyPnlFromDurable ctx fuel nowIso (some survivors.proof.rowCount)
    else
      let _ ← rewriteBoxDailyPnlSummary ctx fuel nowIso
    return deleted

/-- The other days of a list of days. -/
def cleanOthers (tradeId : String) (others : Bool) : PnlM δ Unit :=
  if others then do
    let cleaned ← query (.cleanElsewhere tradeId)
    if cleaned = false then throw .cleanupFailed
  else pure ()

/-- A list of days in turn: others, this one if it is among them, and others again. -/
def cleanDays (fuel : ℕ) (nowIso : Int) (tradeId : String) (here others : Bool) : PnlM δ ℕ := do
  cleanOthers tradeId others
  let deleted ← bif here then cleanDay ctx fuel nowIso tradeId else pure 0
  cleanOthers tradeId others
  return deleted

/-- The loop over the days that still hold the trade. -/
def cleanHeldDays (fuel : ℕ) (nowIso : Int) (tradeId : String) : ℕ → ℕ → PnlM δ ℕ
  | 0, _ => throw .outOfFuel
  | rounds + 1, deleted => do
    let held ← query (.heldDays tradeId)
    if held = (false, false) then return deleted
    else
      let count ← cleanDays ctx fuel nowIso tradeId held.1 held.2
      cleanHeldDays fuel nowIso tradeId rounds (deleted + count)

/-- The day is a candidate if the cache or the fence names it. -/
def deleteBoxDailyPnlForTrade (fuel : ℕ) (nowIso : Int) (tradeId : String) (cached : Bool) :
    PnlM δ ℕ := do
  query (.prepareDeletion tradeId)
  tryCatch
    (do
      let candidate ← query (.candidateDay tradeId)
      let count ← cleanDays ctx fuel nowIso tradeId (cached || candidate) true
      let deleted ← cleanHeldDays ctx fuel nowIso tradeId fuel count
      query (.completeDeletion tradeId)
      return deleted)
    fun e => do
      query (.failDeletion tradeId)
      throw e

/-- The deletions of a repair. -/
def deleteAll (fuel : ℕ) (nowIso : Int) : List String → PnlM δ ℕ
  | [] => pure 0
  | tradeId :: rest => do
    let deleted ← deleteBoxDailyPnlForTrade ctx fuel nowIso tradeId false
    let others ← deleteAll fuel nowIso rest
    return deleted + others

/-- The day behind the deletions, if there were any. -/
def rescan (fuel : ℕ) (nowIso : Int) (first : DayScan δ) : PnlM δ (DayScan δ) :=
  if first.invalidTradeIds = [] then pure first else scanDurablePnlDay ctx fuel nowIso

def standsProved (state : Option (DayState δ)) : Bool :=
  match state with
  | none => false
  | some state => state.complete && !state.needsReproof

def storedSummaryMatches (stored : Option BoxDailyPnlSummary) (summary : BoxDailyPnlSummary) :
    Bool :=
  match stored with
  | none => false
  | some stored => boxPnlSummariesEqual stored summary

def repairBoxDailyPnlV2Day (fuel : ℕ) (nowIso : Int) : PnlM δ ℕ := do
  let first ← scanDurablePnlDay ctx fuel nowIso
  let repaired ← deleteAll ctx fuel nowIso first.invalidTradeIds
  let scanned ← rescan ctx fuel nowIso first
  if scanned.invalidTradeIds ≠ [] then throw .retainedInvalidRows
  let loaded ← query .loadDayState
  match loaded.bind DayState.proof with
  | none => do
    query (.markIncomplete true)
    throw .noExactProof
  | some lastExactProof => do
    let stored ← query .readSummary
    if standsProved loaded && decide (lastExactProof = scanned.proof) &&
        storedSummaryMatches stored scanned.summary then return repaired
    else
      reproveBoxDailyPnlFromDurable ctx fuel nowIso (some lastExactProof.rowCount)
      return repaired + 1

end Context

end Strikedge.PnlDay
