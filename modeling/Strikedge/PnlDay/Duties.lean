import Mathlib.Data.List.Dedup
import Strikedge.PnlDay.Protocols

/-!
# What the protocols of a day owe

A mutation that has written still has to invalidate the day. A publication still has to load the
day and to ask for the deletions of its trades, and where it finds a difference it still has to
invalidate the proof it published. Such a duty follows from the statements of a protocol and their
answers alone, and every protocol ends without one, whichever way it ends.

A legacy migration takes on no duty by its publication: its failure invalidates nothing.
-/

namespace Strikedge.PnlDay

open Machine PnlArchive

variable {δ : Type} [DecidableEq δ]

inductive Duty (δ : Type) where
  /-- It has written, and invalidates the day next. -/
  | close
  /-- It knows the proof it published to be wrong. -/
  | clear (proof : BoxPnlDayProof δ)
  /-- It published a proof and has not loaded the day since. -/
  | check (proof : BoxPnlDayProof δ)
  /-- It loaded what it published, and has these trades left to ask for. -/
  | watch (proof : BoxPnlDayProof δ) (tradeIds : List String)
  deriving DecidableEq

def watching (proof : BoxPnlDayProof δ) (tradeIds : List String) : Option (Duty δ) :=
  if tradeIds = [] then none else some (.watch proof tradeIds)

/-- The documents have this proof, and their summary is that of their rows. -/
def matchesProof (ctx : DayContext δ) (proof : BoxPnlDayProof δ) (docs : DayDocs) : Bool :=
  boxPnlSummaryMatchesRows docs && decide (proof = buildBoxPnlDayProof ctx docs)

/-- The trades whose rows a proof covers. -/
def DayDocs.covered (docs : DayDocs) : List String := docs.tradeIds.filter (· ≠ summaryField)

/-- Statements that change the documents. -/
def Statement.Writes : Statement δ → Prop
  | .writeSummary _ | .upsertRow _ | .deleteRows _ => True
  | _ => False

/-- The row of a trade is not the one of the summary. -/
def Statement.WellKeyed : Statement δ → Prop
  | .upsertRow row => row.tradeId ≠ summaryField
  | _ => True

/-- Statements behind a publication. -/
def Statement.Settles : Statement δ → Prop
  | .markIncomplete _ | .markRetryIfProof _ | .loadSnapshot | .existingSources _
  | .completedFences _ => True
  | _ => False

def Statement.Invalidates : Statement δ → Prop
  | .markIncomplete _ => True
  | _ => False

/-- Statements about the day, and not about a deletion as a whole or about other days. -/
def Statement.OnDay : Statement δ → Prop
  | .prepareDeletion _ | .candidateDay _ | .heldDays _ | .cleanElsewhere _ | .completeDeletion _
  | .failDeletion _ => False
  | _ => True

/-- Statements that leave a duty to whoever has none. -/
def Statement.Burdens : Statement δ → Prop
  | .writeSummary _ | .upsertRow _ | .deleteRows _ | .publish _ | .reprove _ _ => True
  | _ => False

section Protocol

variable (ctx : DayContext δ)

def afterLoad (docs : DayDocs) : Option (Duty δ) → Option (Duty δ)
  | some (.check proof) =>
    if matchesProof ctx proof docs then watching proof docs.covered else some (.clear proof)
  | duty => duty

def afterFences (ids completed : List String) : Option (Duty δ) → Option (Duty δ)
  | some (.watch proof tradeIds) =>
    if ∃ id ∈ tradeIds, id ∈ ids ∧ id ∈ completed then some (.clear proof)
    else watching proof (tradeIds.filter (· ∉ ids))
  | duty => duty

def dutyAfter (duty : Option (Duty δ)) : (q : Statement δ) → q.Answer → Option (Duty δ)
  | .writeSummary _, _ | .upsertRow _, _ | .deleteRows _, _ => some .close
  | .publish proof, _ => some (.check proof)
  | .reprove _ next, published => if published then some (.check next) else duty
  | .markIncomplete _, _ => none
  | .markRetryIfProof proof, _ => if duty = some (.clear proof) then none else duty
  | .loadSnapshot, docs => afterLoad ctx docs duty
  | .completedFences ids, completed => afterFences ids completed duty
  | _, _ => duty

def Admitted : Option (Duty δ) → Statement δ → Prop
  | none, q => q.WellKeyed
  | some .close, q => q.Invalidates
  | some _, q => q.Settles

def duties : Protocol (Statement δ) Statement.Answer (Option (Duty δ)) where
  Admits := Admitted
  after := dutyAfter ctx

/-- The program owes nothing at its end, whichever way it ends. -/
abbrev Dutiful {α : Type} (x : PnlM δ α) : Prop := (duties ctx).Keeps none x

variable {ctx}

theorem dutiful_query {q : Statement δ} (hq : ¬ q.Burdens) : Dutiful ctx (query q) := by
  refine Protocol.Keeps.statement ?_ fun answer => ?_
  · cases q <;> first | trivial | exact absurd trivial hq
  · cases q <;> first | rfl | exact absurd trivial hq

/-- The closing invalidation discharges what the mutation leaves. -/
theorem dutiful_mutate {q : Statement δ} (hq : q.Writes) (hkey : q.WellKeyed) :
    Dutiful ctx (mutateDurablePnlDay (query q)) := by
  have hafter : ∀ answer, dutyAfter ctx none q answer = some .close := by
    intro answer
    cases q <;> first | rfl | exact absurd hq id
  refine Protocol.Keeps.bind (dutiful_query id) fun _ => ?_
  refine Protocol.meetsOr_bind.mpr (Protocol.meetsOr_tryCatch.mpr (Protocol.meetsOr_bind.mpr ?_))
  refine Protocol.meetsOr_statement.mpr ⟨hkey, fun answer => ?_⟩
  refine Protocol.meetsOr_pure.mpr (Protocol.meetsOr_bind.mpr ?_)
  refine Protocol.meetsOr_statement.mpr ⟨?_, fun _ => Protocol.Keeps.pure answer⟩
  change Admitted (dutyAfter ctx none q answer) _
  rw [hafter]
  trivial

theorem steady_existingSources {g : Option (Duty δ)}
    (hadmits : ∀ ids, Admitted g (.existingSources ids)) (validIds : List String) :
    (duties ctx).Steady g (existingSources validIds) := by
  rw [existingSources]
  split
  · exact Protocol.Steady.pure []
  · exact Protocol.Steady.statement (hadmits _) fun _ => rfl

/-- Asking for trades is nothing to a duty that does not watch them. -/
theorem steady_invalidInBatches {g : Option (Duty δ)}
    (hadmits : ∀ ids, Admitted g (.existingSources ids) ∧ Admitted g (.completedFences ids))
    (hfences : ∀ ids completed, afterFences ids completed g = g) (batches : List (List String)) :
    (duties ctx).Steady g (invalidInBatches ctx batches) := by
  induction batches with
  | nil => exact Protocol.Steady.pure []
  | cons batch rest ih =>
      rw [invalidInBatches]
      refine Protocol.Steady.bind ?_ fun sources => ?_
      · exact steady_existingSources (fun _ => (hadmits _).1) _
      · refine Protocol.Steady.bind ?_ fun completed => ?_
        · exact Protocol.Steady.statement (hadmits _).2 fun _ => hfences _ _
        · exact Protocol.Steady.bind ih fun others => Protocol.Steady.pure _

theorem dutiful_invalidArchivedTradeIds (ids : List String) :
    Dutiful ctx (invalidArchivedTradeIds ctx ids) :=
  Protocol.Steady.keeps
    (steady_invalidInBatches (g := none) (fun _ => ⟨trivial, trivial⟩) (fun _ _ => rfl) _)

theorem dutiful_scanPages (fuel : ℕ) (afterTradeId : String) (scanned : List BoxDailyPnlRow)
    (invalid : List String) : Dutiful ctx (scanPages ctx fuel afterTradeId scanned invalid) := by
  induction fuel generalizing afterTradeId scanned invalid with
  | zero => exact Protocol.Keeps.throw _
  | succ fuel ih =>
      refine Protocol.Keeps.bind (dutiful_query id) fun rows => ?_
      split
      · exact Protocol.Keeps.pure _
      · refine Protocol.Keeps.bind (dutiful_invalidArchivedTradeIds _) fun bad => ?_
        split
        · exact Protocol.Keeps.pure _
        · exact ih _ _ _

theorem dutiful_scanDurablePnlDay (fuel : ℕ) (nowIso : Int) :
    Dutiful ctx (scanDurablePnlDay ctx fuel nowIso) :=
  Protocol.Keeps.bind (dutiful_scanPages fuel _ _ _) fun _ => Protocol.Keeps.pure _

theorem dutiful_validate (docs : DayDocs) (error : PnlError) :
    Dutiful ctx (validate ctx docs error) := by
  refine Protocol.Keeps.bind (dutiful_invalidArchivedTradeIds _) fun invalid => ?_
  split
  · exact Protocol.Keeps.throw _
  · exact Protocol.Keeps.pure _

theorem dutiful_rewriteAttempts (fuel : ℕ) (nowIso : Int) (attempts : ℕ) :
    Dutiful ctx (rewriteAttempts ctx fuel nowIso attempts) := by
  induction attempts with
  | zero => exact Protocol.Keeps.throw _
  | succ attempts ih =>
      refine Protocol.Keeps.bind (dutiful_scanDurablePnlDay _ _) fun before => ?_
      split
      · exact Protocol.Keeps.throw _
      · refine Protocol.Keeps.bind (dutiful_mutate trivial trivial) fun _ => ?_
        refine Protocol.Keeps.bind (dutiful_scanDurablePnlDay _ _) fun later => ?_
        split
        · exact Protocol.Keeps.pure _
        · exact ih

theorem dutiful_rewriteBoxDailyPnlSummary (fuel : ℕ) (nowIso : Int) :
    Dutiful ctx (rewriteBoxDailyPnlSummary ctx fuel nowIso) :=
  dutiful_rewriteAttempts fuel nowIso 5

theorem dutiful_deleteBatches (batches : List (List String)) :
    Dutiful ctx (deleteBatches batches) := by
  induction batches with
  | nil => exact Protocol.Keeps.pure 0
  | cons batch rest ih =>
      refine Protocol.Keeps.bind (dutiful_mutate trivial trivial) fun deleted => ?_
      exact Protocol.Keeps.bind ih fun others => Protocol.Keeps.pure _

theorem dutiful_upsertBoxDailyPnl (fuel : ℕ) (nowIso : Int) (row : BoxDailyPnlRow) :
    Dutiful ctx (upsertBoxDailyPnl ctx fuel nowIso row) := by
  rw [upsertBoxDailyPnl]
  split
  · exact Protocol.Keeps.bind (dutiful_rewriteBoxDailyPnlSummary _ _) fun _ =>
      Protocol.Keeps.pure _
  case isFalse hkey =>
    refine Protocol.Keeps.bind (dutiful_invalidArchivedTradeIds _) fun before => ?_
    split
    · refine Protocol.Keeps.bind (dutiful_mutate trivial hkey) fun _ => ?_
      refine Protocol.Keeps.bind (dutiful_invalidArchivedTradeIds _) fun later => ?_
      split
      · refine Protocol.Keeps.bind (dutiful_mutate trivial trivial) fun _ => ?_
        exact Protocol.Keeps.bind (dutiful_rewriteBoxDailyPnlSummary _ _) fun _ =>
          Protocol.Keeps.pure _
      · exact Protocol.Keeps.pure _
    · exact Protocol.Keeps.pure _

end Protocol

end Strikedge.PnlDay
