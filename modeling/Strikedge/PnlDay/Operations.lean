import Strikedge.PnlDay.Discharge

/-!
# Operations on a P&L day

The operations on a day run side by side, each of them one statement after the other, and any of
them can crash between two statements. What an operation owes is kept beside what is left of it.
-/

namespace Strikedge.PnlDay

open Machine PnlArchive

inductive DayOperation where
  | upsertBoxDailyPnl (row : BoxDailyPnlRow)
  | deleteBoxDailyPnlForTrade (tradeId : String) (cached : Bool)
  | deleteBoxDailyPnlRows (tradeIds : List String)
  | rewriteBoxDailyPnlSummary
  | markBoxDailyPnlComplete (expected : DayDocs)
  | markBoxDailyPnlIncomplete (needsReproof : Bool)
  | isBoxDailyPnlSnapshotComplete (docs : DayDocs)
  | reproveBoxDailyPnlFromDurable (expectedRowCount : Option ℕ)
  | migrateLegacyBoxDailyPnlState (expectedTradeIds : List String)
  | repairBoxDailyPnlV2Day

variable {δ : Type} [DecidableEq δ]

abbrev Remaining (δ : Type) := Program (Statement δ) Statement.Answer (Except PnlError Unit)

section Operations

variable (ctx : DayContext δ)

def DayOperation.body (fuel : ℕ) (nowIso : Int) : DayOperation → PnlM δ Unit
  | upsertBoxDailyPnl row => PnlDay.upsertBoxDailyPnl ctx fuel nowIso row
  | deleteBoxDailyPnlForTrade tradeId cached => do
    let _ ← PnlDay.deleteBoxDailyPnlForTrade ctx fuel nowIso tradeId cached
  | deleteBoxDailyPnlRows tradeIds => do
    let _ ← PnlDay.deleteBoxDailyPnlRows tradeIds
  | rewriteBoxDailyPnlSummary => do
    let _ ← PnlDay.rewriteBoxDailyPnlSummary ctx fuel nowIso
  | markBoxDailyPnlComplete expected => do
    let _ ← PnlDay.markBoxDailyPnlComplete ctx fuel nowIso expected
  | markBoxDailyPnlIncomplete needsReproof => query (.markIncomplete needsReproof)
  | isBoxDailyPnlSnapshotComplete docs => do
    let _ ← PnlDay.isBoxDailyPnlSnapshotComplete ctx fuel nowIso docs
  | reproveBoxDailyPnlFromDurable expectedRowCount =>
    PnlDay.reproveBoxDailyPnlFromDurable ctx fuel nowIso expectedRowCount
  | migrateLegacyBoxDailyPnlState expectedTradeIds => do
    let _ ← PnlDay.migrateLegacyBoxDailyPnlState ctx fuel nowIso expectedTradeIds
  | repairBoxDailyPnlV2Day => do
    let _ ← PnlDay.repairBoxDailyPnlV2Day ctx fuel nowIso

/-- What is left of an operation, and what it owes by now. -/
structure Activity (δ : Type) where
  rest : Remaining δ
  duty : Option (Duty δ)

/-- Nothing is left of it. -/
def Activity.crashed : Activity δ := ⟨.done (.ok ()), none⟩

structure World (δ : Type) where
  db : DayDb δ
  activities : List (Activity δ)

inductive Label where
  | start (operation : DayOperation) (fuel : ℕ) (nowIso : Int)
  | statement (i : ℕ)
  | crash (i : ℕ)
  | surroundings (around : Surroundings)

def step (w : World δ) : Label → Option (World δ)
  | .start operation fuel nowIso =>
    some { w with activities := w.activities ++ [⟨(operation.body ctx fuel nowIso).run, none⟩] }
  | .statement i =>
    match w.activities[i]? with
    | some ⟨.ask q next, duty⟩ =>
      let answer := q.answer w.db
      some
        { db := q.effect w.db
          activities := w.activities.set i ⟨next answer, dutyAfter ctx duty q answer⟩ }
    | _ => none
  | .crash i => some { w with activities := w.activities.set i .crashed }
  | .surroundings around => some { w with db := { w.db with around := around } }

/-- Its next statement is not about the day. -/
def Activity.OffDay (activity : Activity δ) : Prop :=
  match activity.rest with
  | .done _ => True
  | .ask q _ => ¬ q.OnDay

/-- No operation on the day is in progress. -/
def Quiet (w : World δ) : Prop := ∀ activity ∈ w.activities, activity.OffDay

variable {ctx}

theorem dutiful_body (operation : DayOperation) (fuel : ℕ) (nowIso : Int) :
    Dutiful ctx (operation.body ctx fuel nowIso) := by
  cases operation with
  | upsertBoxDailyPnl row => exact dutiful_upsertBoxDailyPnl fuel nowIso row
  | deleteBoxDailyPnlForTrade tradeId cached =>
      exact Protocol.Keeps.bind (dutiful_deleteBoxDailyPnlForTrade _ _ _ _) fun _ =>
        Protocol.Keeps.pure _
  | deleteBoxDailyPnlRows tradeIds =>
      exact Protocol.Keeps.bind (dutiful_deleteBatches _) fun _ => Protocol.Keeps.pure _
  | rewriteBoxDailyPnlSummary =>
      exact Protocol.Keeps.bind (dutiful_rewriteBoxDailyPnlSummary _ _) fun _ =>
        Protocol.Keeps.pure _
  | markBoxDailyPnlComplete expected =>
      exact Protocol.Keeps.bind (dutiful_markBoxDailyPnlComplete _ _ _) fun _ =>
        Protocol.Keeps.pure _
  | markBoxDailyPnlIncomplete needsReproof => exact dutiful_query id
  | isBoxDailyPnlSnapshotComplete docs =>
      exact Protocol.Keeps.bind (dutiful_isBoxDailyPnlSnapshotComplete _ _ _) fun _ =>
        Protocol.Keeps.pure _
  | reproveBoxDailyPnlFromDurable expectedRowCount =>
      exact dutiful_reproveBoxDailyPnlFromDurable fuel nowIso expectedRowCount
  | migrateLegacyBoxDailyPnlState expectedTradeIds =>
      exact Protocol.Keeps.bind (dutiful_migrateLegacyBoxDailyPnlState _ _ _) fun _ =>
        Protocol.Keeps.pure _
  | repairBoxDailyPnlV2Day =>
      exact Protocol.Keeps.bind (dutiful_repairBoxDailyPnlV2Day _ _) fun _ =>
        Protocol.Keeps.pure _

/-- Whoever owes something asks about the day next. -/
theorem duty_eq_none_of_offDay {activity : Activity δ}
    (hmeets : (duties ctx).Meets activity.duty activity.rest fun _ g => g = none)
    (hoff : activity.OffDay) : activity.duty = none := by
  obtain ⟨rest, duty⟩ := activity
  cases rest with
  | done result => exact hmeets
  | ask q next =>
      cases duty with
      | none => rfl
      | some duty =>
          have hadmits : Admitted (some duty) q := hmeets.1
          cases duty <;> cases q <;> first | exact absurd trivial hoff | exact hadmits.elim

end Operations

end Strikedge.PnlDay
