import Strikedge.Machine.Number

/-!
# The record of a trading session

A session is armed with two limits: how many boxes it may open, and how many entries it may
attempt. A cycle is spent when a box is established, an attempt when it starts. The record
only changes through the functions below; they do no I/O.
-/

namespace Strikedge.TradingSession

open Machine

abbrev TradeId := String

structure BoxSessionRecord where
  sessionId : String
  armedAt : Option ℚ
  armedBy : Option String
  /-- The limits are those of the moment of arming; zero is no limit. -/
  maxCompletedTrades : Nat
  establishedTradeIds : List TradeId
  completedTradeIds : List TradeId
  abortedAttempts : Nat
  entryAttempts : Nat
  maxEntryAttempts : Nat
  armCount : Nat
  updatedAt : ℚ
  deriving DecidableEq, Repr

def idleSessionRecord (now : ℚ) : BoxSessionRecord where
  sessionId := ""
  armedAt := none
  armedBy := none
  maxCompletedTrades := 0
  establishedTradeIds := []
  completedTradeIds := []
  abortedAttempts := 0
  entryAttempts := 0
  maxEntryAttempts := 0
  armCount := 0
  updatedAt := now

section Budget

variable (record : BoxSessionRecord)

def isArmed : Bool := record.sessionId != "" && record.armedAt.isSome

def consumedCycles : Nat := record.establishedTradeIds.length

def completedCycles : Nat := record.completedTradeIds.length

/-- The cycles that are left, where there is a limit. -/
def remainingCycles : Option Nat :=
  if record.maxCompletedTrades = 0 then none
  else some (record.maxCompletedTrades - consumedCycles record)

def isBudgetExhausted : Bool :=
  record.maxCompletedTrades != 0 && decide (record.maxCompletedTrades ≤ consumedCycles record)

def isAttemptBudgetExhausted : Bool :=
  record.maxEntryAttempts != 0 && decide (record.maxEntryAttempts ≤ record.entryAttempts)

end Budget

/-- `sessionStateUnreadable` is the refusal of the store, the others are those of the record. -/
inductive SessionEntryRefusal where
  | sessionNotArmed
  | sessionBudgetExhausted
  | sessionAttemptBudgetExhausted
  | sessionRecovery
  | sessionStateUnreadable
  deriving DecidableEq, Repr

structure SessionVerdict where
  allowed : Bool
  reason : Option SessionEntryRefusal
  deriving DecidableEq, Repr

def SessionVerdict.allow : SessionVerdict := ⟨true, none⟩

def SessionVerdict.refuse (reason : SessionEntryRefusal) : SessionVerdict := ⟨false, some reason⟩

def evaluateSessionEntry (record : BoxSessionRecord) (recoveryActive : Bool) : SessionVerdict :=
  if recoveryActive then .refuse .sessionRecovery
  else if isArmed record = false then .refuse .sessionNotArmed
  else if isBudgetExhausted record then .refuse .sessionBudgetExhausted
  else if isAttemptBudgetExhausted record then .refuse .sessionAttemptBudgetExhausted
  else .allow

/-- Arming would clear the counters, so nothing they account for may be left. -/
def canArm (record : BoxSessionRecord) (openBoxes residualLegs : Nat) (recoveryActive : Bool) :
    Bool :=
  !recoveryActive && decide (openBoxes = 0) && decide (residualLegs = 0) &&
    decide (consumedCycles record ≤ completedCycles record)

/-- A limit is a whole number; one that is not finite is none. -/
def limitSnapshot (limit : Number) : Nat := (limit.finite?.map (⌊·⌋₊)).getD 0

def armSession (sessionId : String) (maxCompletedTrades maxEntryAttempts : Number)
    (armedBy : Option String) (previous : BoxSessionRecord) (now : ℚ) : BoxSessionRecord where
  sessionId := sessionId
  armedAt := some now
  armedBy := armedBy
  maxCompletedTrades := limitSnapshot maxCompletedTrades
  establishedTradeIds := []
  completedTradeIds := []
  abortedAttempts := 0
  entryAttempts := 0
  maxEntryAttempts := limitSnapshot maxEntryAttempts
  armCount := previous.armCount + 1
  updatedAt := now

section Changes

variable (record : BoxSessionRecord) (tradeId : TradeId) (now : ℚ)

def disarmSession : BoxSessionRecord := { record with armedAt := none, updatedAt := now }

def recordEstablishedBox : BoxSessionRecord :=
  if tradeId = "" ∨ tradeId ∈ record.establishedTradeIds then record
  else { record with
    establishedTradeIds := record.establishedTradeIds ++ [tradeId], updatedAt := now }

def recordCompletedBox : BoxSessionRecord :=
  if tradeId = "" ∨ tradeId ∉ record.establishedTradeIds ∨ tradeId ∈ record.completedTradeIds then
    record
  else { record with
    completedTradeIds := record.completedTradeIds ++ [tradeId], updatedAt := now }

def recordAbortedAttempt : BoxSessionRecord :=
  { record with abortedAttempts := record.abortedAttempts + 1, updatedAt := now }

def recordEntryAttemptStarted : BoxSessionRecord :=
  { record with entryAttempts := record.entryAttempts + 1, updatedAt := now }

def reconcileCompletions (flatTradeIds : List TradeId) : BoxSessionRecord :=
  flatTradeIds.foldl (recordCompletedBox · · now) record

end Changes

/-- The attempts that were started and the boxes that were established. -/
def spending (record : BoxSessionRecord) : Nat × List TradeId :=
  (record.entryAttempts, record.establishedTradeIds)

section Spending

variable {record : BoxSessionRecord} {tradeId : TradeId} {now : ℚ} {limits limits' : Number}
variable {sessionId : String} {armedBy : Option String} {flatTradeIds : List TradeId}

@[simp] theorem spending_idle : spending (idleSessionRecord now) = (0, []) := rfl

@[simp] theorem spending_arm :
    spending (armSession sessionId limits limits' armedBy record now) = (0, []) := rfl

@[simp] theorem spending_disarm : spending (disarmSession record now) = spending record := rfl

@[simp] theorem spending_aborted : spending (recordAbortedAttempt record now) = spending record :=
  rfl

@[simp] theorem spending_attempt : spending (recordEntryAttemptStarted record now) =
    (record.entryAttempts + 1, record.establishedTradeIds) := rfl

@[simp] theorem spending_completed :
    spending (recordCompletedBox record tradeId now) = spending record := by
  rw [recordCompletedBox]
  split <;> rfl

@[simp] theorem spending_reconciled :
    spending (reconcileCompletions record now flatTradeIds) = spending record := by
  rw [reconcileCompletions]
  induction flatTradeIds generalizing record with
  | nil => rfl
  | cons tradeId rest ih => rw [List.foldl_cons, ih, spending_completed]

/-- An establishment changes no other counter, forgets no box, and lists its own. -/
theorem established_spending (hid : tradeId ≠ "") :
    (recordEstablishedBox record tradeId now).entryAttempts = record.entryAttempts ∧
      record.establishedTradeIds ⊆ (recordEstablishedBox record tradeId now).establishedTradeIds ∧
      tradeId ∈ (recordEstablishedBox record tradeId now).establishedTradeIds := by
  rw [recordEstablishedBox]
  split
  · rename_i hknown
    exact ⟨rfl, fun _ h => h, hknown.resolve_left hid⟩
  · exact ⟨rfl, List.subset_append_left _ _, by simp⟩

end Spending

end Strikedge.TradingSession
