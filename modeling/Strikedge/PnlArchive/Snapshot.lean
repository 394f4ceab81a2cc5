import Mathlib.Data.List.Induction
import Mathlib.Data.List.Pairwise
import Strikedge.Machine.Number

/-!
# The day's P&L snapshot

One row for a trade: the running net of an open position, the realised net of a trade closed
today. The summary adds the rows up, and can be rebuilt from the rows that survive. Days are
numbered, instants are milliseconds.
-/

namespace Strikedge.PnlArchive

open Machine

/-- What a trade is, whatever its P&L. -/
structure BoxTerms where
  underlying : String
  direction : String
  lowerStrike : ℚ
  upperStrike : ℚ
  expiry : String
  openedAt : Int
  deriving DecidableEq, Repr

/-- One open position's live P&L, as the engine publishes it. -/
structure OpenPnlInput where
  id : String
  terms : BoxTerms
  grossPnl : Option Number
  netPnl : Option Number
  realisableNetPnl : Option Number
  deriving DecidableEq, Repr

/-- One trade closed today, as the trade table has it. -/
structure ClosedPnlInput where
  id : String
  terms : BoxTerms
  closedAt : Option Int
  grossPnl : Option Number
  netPnl : Option Number
  realisedNetPnl : Option Number
  deriving DecidableEq, Repr

inductive RowStatus where
  | running
  | closed
  deriving DecidableEq, Repr

structure BoxDailyPnlRow where
  day : Int
  tradeId : String
  terms : BoxTerms
  status : RowStatus
  grossPnl : Option Number
  netPnl : Option Number
  realisableNetPnl : Option Number
  realisedNetPnl : Option Number
  closedAt : Option Int
  updatedAt : Int
  deriving DecidableEq, Repr

structure BoxDailyPnlSummary where
  day : Int
  openCount : Nat
  closedCount : Nat
  openRunningNetPnl : ℚ
  openRunningGrossPnl : ℚ
  closedRealisedNetPnl : ℚ
  closedRealisedGrossPnl : ℚ
  totalNetPnl : ℚ
  totalGrossPnl : ℚ
  updatedAt : Int
  deriving DecidableEq, Repr

structure DaySnapshot where
  rows : List BoxDailyPnlRow
  summary : BoxDailyPnlSummary
  deriving DecidableEq, Repr

/-- A P&L that is missing or not finite counts as nothing. -/
def n (v : Option Number) : ℚ := (v.bind Number.finite?).getD 0

structure DayTotals where
  openCount : Nat := 0
  closedCount : Nat := 0
  openNet : ℚ := 0
  openGross : ℚ := 0
  closedNet : ℚ := 0
  closedGross : ℚ := 0
  deriving DecidableEq, Repr

def DayTotals.add (t : DayTotals) (row : BoxDailyPnlRow) : DayTotals :=
  match row.status with
  | .running =>
    { t with
      openCount := t.openCount + 1
      openNet := t.openNet + n row.netPnl
      openGross := t.openGross + n row.grossPnl }
  | .closed =>
    { t with
      closedCount := t.closedCount + 1
      closedNet := t.closedNet + n (row.realisedNetPnl.or row.netPnl)
      closedGross := t.closedGross + n row.grossPnl }

def DayTotals.finish (t : DayTotals) (day nowIso : Int) : BoxDailyPnlSummary where
  day := day
  openCount := t.openCount
  closedCount := t.closedCount
  openRunningNetPnl := round2 t.openNet
  openRunningGrossPnl := round2 t.openGross
  closedRealisedNetPnl := round2 t.closedNet
  closedRealisedGrossPnl := round2 t.closedGross
  totalNetPnl := round2 (t.openNet + t.closedNet)
  totalGrossPnl := round2 (t.openGross + t.closedGross)
  updatedAt := nowIso

def summarizeDayRows (day : Int) (rows : List BoxDailyPnlRow) (nowIso : Int) :
    BoxDailyPnlSummary :=
  (rows.foldl DayTotals.add {}).finish day nowIso

def openRow (day nowIso : Int) (p : OpenPnlInput) : BoxDailyPnlRow where
  day := day
  tradeId := p.id
  terms := p.terms
  status := .running
  grossPnl := p.grossPnl
  netPnl := p.netPnl
  realisableNetPnl := p.realisableNetPnl
  realisedNetPnl := none
  closedAt := none
  updatedAt := nowIso

/-- The net of a closed trade is the realised one, where the record has it. -/
def closedRow (day nowIso : Int) (t : ClosedPnlInput) : BoxDailyPnlRow where
  day := day
  tradeId := t.id
  terms := t.terms
  status := .closed
  grossPnl := t.grossPnl
  netPnl := t.realisedNetPnl.or t.netPnl
  realisableNetPnl := none
  realisedNetPnl := t.realisedNetPnl.or t.netPnl
  closedAt := t.closedAt
  updatedAt := nowIso

def buildDaySnapshot (day : Int) (running : List OpenPnlInput) (closed : List ClosedPnlInput)
    (nowIso : Int) : DaySnapshot :=
  let rows := running.map (openRow day nowIso) ++ closed.map (closedRow day nowIso)
  ⟨rows, summarizeDayRows day rows nowIso⟩

section Sums

variable {rows : List BoxDailyPnlRow} {row : BoxDailyPnlRow}

/-- The sum of an amount over the rows of a status. -/
def sumOf (status : RowStatus) (amount : BoxDailyPnlRow → ℚ) (rows : List BoxDailyPnlRow) : ℚ :=
  ((rows.filter (·.status = status)).map amount).sum

def countOf (status : RowStatus) (rows : List BoxDailyPnlRow) : Nat :=
  rows.countP (·.status = status)

/-- What a closed trade has realised. -/
def BoxDailyPnlRow.realised (row : BoxDailyPnlRow) : ℚ := n (row.realisedNetPnl.or row.netPnl)

/-- The counts and totals of a summary are those of the rows. -/
structure SumsOver (rows : List BoxDailyPnlRow) (s : BoxDailyPnlSummary) : Prop where
  openCount : s.openCount = countOf .running rows
  closedCount : s.closedCount = countOf .closed rows
  openNet : s.openRunningNetPnl = round2 (sumOf .running (n ·.netPnl) rows)
  openGross : s.openRunningGrossPnl = round2 (sumOf .running (n ·.grossPnl) rows)
  closedNet : s.closedRealisedNetPnl = round2 (sumOf .closed (·.realised) rows)
  closedGross : s.closedRealisedGrossPnl = round2 (sumOf .closed (n ·.grossPnl) rows)
  totalNet : s.totalNetPnl =
    round2 (sumOf .running (n ·.netPnl) rows + sumOf .closed (·.realised) rows)
  totalGross : s.totalGrossPnl =
    round2 (sumOf .running (n ·.grossPnl) rows + sumOf .closed (n ·.grossPnl) rows)

/-- Totals that agree with the rows added so far. -/
structure DayTotals.Of (t : DayTotals) (rows : List BoxDailyPnlRow) : Prop where
  openCount : t.openCount = countOf .running rows
  closedCount : t.closedCount = countOf .closed rows
  openNet : t.openNet = sumOf .running (n ·.netPnl) rows
  openGross : t.openGross = sumOf .running (n ·.grossPnl) rows
  closedNet : t.closedNet = sumOf .closed (·.realised) rows
  closedGross : t.closedGross = sumOf .closed (n ·.grossPnl) rows

theorem sumOf_concat (status : RowStatus) (amount : BoxDailyPnlRow → ℚ) :
    sumOf status amount (rows ++ [row]) =
      sumOf status amount rows + if row.status = status then amount row else 0 := by
  by_cases h : row.status = status
  · simp [sumOf, h]
  · simp [sumOf, h]

theorem countOf_concat (status : RowStatus) :
    countOf status (rows ++ [row]) =
      countOf status rows + if row.status = status then 1 else 0 := by
  by_cases h : row.status = status
  · simp [countOf, h]
  · simp [countOf, h]

theorem DayTotals.Of.add {t : DayTotals} (h : t.Of rows) : (t.add row).Of (rows ++ [row]) := by
  cases hstatus : row.status with
  | running =>
    constructor <;>
      simp [DayTotals.add, hstatus, sumOf_concat, countOf_concat, h.openCount, h.closedCount,
        h.openNet, h.openGross, h.closedNet, h.closedGross]
  | closed =>
    constructor <;>
      simp [DayTotals.add, hstatus, sumOf_concat, countOf_concat, h.openCount, h.closedCount,
        h.openNet, h.openGross, h.closedNet, h.closedGross, BoxDailyPnlRow.realised]

theorem foldl_add_of (rows : List BoxDailyPnlRow) : (rows.foldl DayTotals.add {}).Of rows := by
  induction rows using List.reverseRecOn with
  | nil => constructor <;> rfl
  | append_singleton rows row ih =>
    rw [List.foldl_append]
    exact ih.add

theorem summarizeDayRows_sums (day nowIso : Int) (rows : List BoxDailyPnlRow) :
    SumsOver rows (summarizeDayRows day rows nowIso) := by
  have h := foldl_add_of rows
  constructor <;>
    simp only [summarizeDayRows, DayTotals.finish, h.openCount, h.closedCount, h.openNet,
      h.openGross, h.closedNet, h.closedGross]

end Sums

/-- The rows with one row, the last, for a trade. -/
def onePerTrade (rows : List BoxDailyPnlRow) : List BoxDailyPnlRow :=
  rows.pwFilter fun a b => a.tradeId ≠ b.tradeId

/-- No trade has two rows, and the summary adds up one row for a trade. -/
structure CountsOnce (snapshot : DaySnapshot) : Prop where
  distinct : (snapshot.rows.map (·.tradeId)).Nodup
  sums : SumsOver (onePerTrade snapshot.rows) snapshot.summary

theorem onePerTrade_eq_self {rows : List BoxDailyPnlRow}
    (h : (rows.map (·.tradeId)).Nodup) : onePerTrade rows = rows :=
  List.pwFilter_eq_self.mpr (List.pairwise_map.mp h)

theorem countsOnce_iff {rows : List BoxDailyPnlRow} {day nowIso : Int} :
    CountsOnce ⟨rows, summarizeDayRows day rows nowIso⟩ ↔ (rows.map (·.tradeId)).Nodup := by
  refine ⟨fun h => h.distinct, fun h => ⟨h, ?_⟩⟩
  rw [onePerTrade_eq_self h]
  exact summarizeDayRows_sums day nowIso rows

/-- Rows that pass a test keep their trades distinct. -/
theorem nodup_filter_rows {rows : List BoxDailyPnlRow} (p : BoxDailyPnlRow → Bool)
    (h : (rows.map (·.tradeId)).Nodup) : ((rows.filter p).map (·.tradeId)).Nodup :=
  h.sublist (List.filter_sublist.map _)

end Strikedge.PnlArchive
