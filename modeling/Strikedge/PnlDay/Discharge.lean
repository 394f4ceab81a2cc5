import Mathlib.Data.List.Dedup
import Strikedge.PnlDay.Duties

/-!
# How the protocols of a day discharge their duties

A publication that loads what it published is done with it, or knows it to be wrong; then its
failure invalidates that proof. The other protocols are made of mutations, of publications and of
statements that leave no duty.
-/

namespace Strikedge.PnlDay

open Machine PnlArchive

variable {δ : Type} [DecidableEq δ] {ctx : DayContext δ}

omit [DecidableEq δ] in
theorem admitted_watching {proof : BoxPnlDayProof δ} {tradeIds : List String} {q : Statement δ}
    (hkey : q.WellKeyed) (hsettles : q.Settles) : Admitted (watching proof tradeIds) q := by
  rw [watching]
  split
  · exact hkey
  · exact hsettles

omit [DecidableEq δ] in
theorem afterFences_found {proof : BoxPnlDayProof δ} {tradeIds ids completed : List String}
    (hfound : ∃ id ∈ tradeIds, id ∈ ids ∧ id ∈ completed) :
    afterFences ids completed (watching proof tradeIds) = some (.clear proof) := by
  obtain ⟨id, hid, -⟩ := id hfound
  rw [watching, if_neg (List.ne_nil_of_mem hid), afterFences, if_pos hfound]

omit [DecidableEq δ] in
theorem afterFences_missed {proof : BoxPnlDayProof δ} {tradeIds ids completed : List String}
    (hmissed : ¬ ∃ id ∈ tradeIds, id ∈ ids ∧ id ∈ completed) :
    afterFences ids completed (watching proof tradeIds) =
      watching proof (tradeIds.filter (· ∉ ids)) := by
  by_cases hnil : tradeIds = []
  · subst hnil
    rfl
  · rw [watching, if_neg hnil, afterFences, if_neg hmissed]

theorem steady_clear (proof : BoxPnlDayProof δ) (batches : List (List String)) :
    (duties ctx).Steady (some (.clear proof)) (invalidInBatches ctx batches) :=
  steady_invalidInBatches (g := some (.clear proof)) (fun _ => ⟨trivial, trivial⟩)
    (fun _ _ => rfl) batches

/-- Whoever watches trades finds one whose deletion is complete, or has fewer left. -/
theorem watches_invalidInBatches (proof : BoxPnlDayProof δ) (tradeIds : List String)
    (batches : List (List String)) :
    (duties ctx).MeetsOr (watching proof tradeIds) (invalidInBatches ctx batches)
      (fun invalid g =>
        g = watching proof (tradeIds.filter fun id => ∀ batch ∈ batches, id ∉ batch) ∨
          g = some (.clear proof) ∧ invalid ≠ [])
      fun _ _ => False := by
  induction batches generalizing tradeIds with
  | nil => exact Protocol.meetsOr_pure.mpr (.inl (by simp))
  | cons batch rest ih =>
      rw [invalidInBatches]
      refine Protocol.Steady.meetsOr_bind ?_ fun sources => ?_
      · exact steady_existingSources (fun _ => admitted_watching trivial trivial) _
      refine Protocol.meetsOr_bind.mpr (Protocol.meetsOr_statement.mpr ?_)
      refine ⟨admitted_watching trivial trivial, fun completed => ?_⟩
      change (duties ctx).MeetsOr (afterFences batch completed (watching proof tradeIds)) _ _ _
      by_cases hfound : ∃ id ∈ tradeIds, id ∈ batch ∧ id ∈ completed
      · rw [afterFences_found hfound]
        refine Protocol.Steady.meetsOr_bind ?_ fun others => ?_
        · exact steady_clear proof rest
        · obtain ⟨id, -, hbatch, hcompleted⟩ := hfound
          refine Protocol.meetsOr_pure.mpr (.inr ⟨rfl, List.ne_nil_of_mem (a := id) ?_⟩)
          refine List.mem_append_left _ (List.mem_filter.mpr ⟨hbatch, ?_⟩)
          simp [isArchivedPnlRowInvalid, hcompleted]
      · rw [afterFences_missed hfound]
        refine Protocol.MeetsOr.bind (ih _) (fun others g hg => ?_) fun _ _ hfalse => hfalse
        refine Protocol.meetsOr_pure.mpr ?_
        obtain hleft | ⟨hclear, hothers⟩ := hg
        · refine .inl (hleft.trans (congrArg (watching proof) ?_))
          rw [List.filter_filter]
          refine List.filter_congr fun id _ => ?_
          simp [Bool.and_comm]
        · exact .inr ⟨hclear, by simp [hothers]⟩

omit [DecidableEq δ] in
theorem mem_chunks {n : ℕ} {ids : List String} (hn : ids.length ≤ n) {id : String}
    (hid : id ∈ ids) : ∃ batch ∈ chunks n ids, id ∈ batch := by
  induction n generalizing ids with
  | zero => simp_all
  | succ n ih =>
      cases ids with
      | nil => cases hid
      | cons first rest =>
          simp only [chunks]
          rw [← List.take_append_drop pageSize (first :: rest), List.mem_append] at hid
          obtain htake | hdrop := hid
          · exact ⟨_, List.mem_cons_self, htake⟩
          · have hlength : ((first :: rest).drop pageSize).length ≤ n := by
              simp only [List.length_drop, List.length_cons, pageSize] at hn ⊢
              omega
            obtain ⟨batch, hbatch, hmem⟩ := ih hlength hdrop
            exact ⟨batch, List.mem_cons_of_mem _ hbatch, hmem⟩

/-- Nothing is left to watch once the trades of the documents are asked for. -/
theorem watches_invalidArchivedTradeIds (proof : BoxPnlDayProof δ) (docs : DayDocs) :
    (duties ctx).MeetsOr (watching proof docs.covered) (invalidArchivedTradeIds ctx docs.tradeIds)
      (fun invalid g => g = none ∨ g = some (.clear proof) ∧ invalid ≠ [])
      fun _ _ => False := by
  refine Protocol.MeetsOr.mono (watches_invalidInBatches proof docs.covered _) ?_ fun _ _ h => h
  refine fun invalid g hg => hg.imp_left fun hleft => hleft.trans ?_
  rw [watching, if_pos]
  refine List.filter_eq_nil_iff.mpr fun id hid hnone => ?_
  obtain ⟨batch, hbatch, hmem⟩ := mem_chunks le_rfl (List.mem_dedup.mpr hid)
  exact of_decide_eq_true hnone batch hbatch hmem

/-- A duty about a proof is gone, or it is left to invalidate the proof. -/
def Settled (proof : BoxPnlDayProof δ) (g : Option (Duty δ)) : Prop :=
  g = none ∨ g = some (.clear proof)

theorem settles_validate_watching (proof : BoxPnlDayProof δ) (docs : DayDocs) (error : PnlError) :
    (duties ctx).MeetsOr (watching proof docs.covered) (validate ctx docs error)
      (fun _ g => g = none) fun _ g => Settled proof g := by
  refine Protocol.MeetsOr.bind (watches_invalidArchivedTradeIds proof docs)
    (fun invalid g hg => ?_) fun _ _ hfalse => hfalse.elim
  split
  case isTrue hinvalid =>
    exact Protocol.meetsOr_throw.mpr (hg.imp_right And.left)
  case isFalse hvalid =>
    exact Protocol.meetsOr_pure.mpr (hg.resolve_right fun hclear => hvalid hclear.2)

theorem keeps_validate_clear (proof : BoxPnlDayProof δ) (docs : DayDocs) (error : PnlError) :
    (duties ctx).Keeps (some (.clear proof)) (validate ctx docs error) := by
  refine Protocol.Keeps.bind (Protocol.Steady.keeps ?_) fun invalid => ?_
  · exact steady_clear proof _
  · split
    · exact Protocol.Keeps.throw _
    · exact Protocol.Keeps.pure _

/-- Whoever loads what it has published is done with it, unless that differs. -/
theorem settles_loadValidated (proof : BoxPnlDayProof δ) (error : PnlError) :
    (duties ctx).MeetsOr (some (.check proof)) (loadValidated ctx error)
      (fun docs g => g = none ∨ g = some (.clear proof) ∧ matchesProof ctx proof docs = false)
      fun _ g => Settled proof g := by
  refine Protocol.meetsOr_bind.mpr (Protocol.meetsOr_statement.mpr ⟨trivial, fun docs => ?_⟩)
  change (duties ctx).MeetsOr (afterLoad ctx docs (some (.check proof))) _ _ _
  rw [afterLoad]
  split
  case isTrue hmatches =>
    refine Protocol.MeetsOr.bind (settles_validate_watching proof docs error) ?_ fun _ _ h => h
    exact fun _ g hg => Protocol.meetsOr_pure.mpr (.inl hg)
  case isFalse hdiffers =>
    refine Protocol.MeetsOr.bind (keeps_validate_clear proof docs error) ?_ fun _ _ => .inr
    exact fun _ g hg => Protocol.meetsOr_pure.mpr (.inr ⟨hg, by simpa using hdiffers⟩)

theorem dutiful_loadValidated (error : PnlError) : Dutiful ctx (loadValidated ctx error) := by
  refine Protocol.Keeps.bind (dutiful_query id) fun docs => ?_
  exact Protocol.Keeps.bind (dutiful_validate docs error) fun _ => Protocol.Keeps.pure _

/-- An invalidation discharges whatever is owed. -/
theorem discharges_markIncomplete {α : Type} (g : Option (Duty δ)) (e : PnlError) :
    (duties ctx).MeetsOr g
      (do
        query (.markIncomplete true)
        throw e : PnlM δ α)
      (fun _ g' => g' = none) fun _ g' => g' = none := by
  refine Protocol.meetsOr_bind.mpr (Protocol.meetsOr_statement.mpr ⟨?_, fun _ => ?_⟩)
  · cases g with
    | none => trivial
    | some duty => cases duty <;> trivial
  · exact Protocol.Keeps.throw e

theorem dutiful_markBoxDailyPnlComplete (fuel : ℕ) (nowIso : Int) (expected : DayDocs) :
    Dutiful ctx (markBoxDailyPnlComplete ctx fuel nowIso expected) := by
  refine Protocol.Keeps.bind (dutiful_invalidArchivedTradeIds _) fun invalid => ?_
  split
  · exact discharges_markIncomplete none _
  · refine Protocol.meetsOr_tryCatch.mpr ?_
    refine Protocol.MeetsOr.bind (dutiful_rewriteBoxDailyPnlSummary _ _) ?_
      fun e g _ => discharges_markIncomplete g e
    rintro _ _ rfl
    refine Protocol.MeetsOr.bind (dutiful_loadValidated _) ?_
      fun e g _ => discharges_markIncomplete g e
    rintro before _ rfl
    split
    · exact Protocol.meetsOr_throw.mpr (discharges_markIncomplete _ _)
    refine Protocol.meetsOr_bind.mpr (Protocol.meetsOr_statement.mpr ⟨trivial, fun _ => ?_⟩)
    refine Protocol.MeetsOr.bind (settles_loadValidated (buildBoxPnlDayProof ctx expected) _) ?_
      fun e g _ => discharges_markIncomplete g e
    intro later g hg
    split
    · exact Protocol.meetsOr_throw.mpr (discharges_markIncomplete _ _)
    case isFalse hmatches =>
      exact Protocol.meetsOr_pure.mpr (hg.resolve_right fun hclear => hmatches hclear.2)

/-- A failure of what follows a publication invalidates the proof it published. -/
theorem dutiful_orMarkRetry {α : Type} {proof : BoxPnlDayProof δ} {g : Option (Duty δ)}
    {body : PnlM δ α} {ok : α → Option (Duty δ) → Prop}
    (hbody : (duties ctx).MeetsOr g body ok fun _ g' => Settled proof g') :
    (duties ctx).MeetsOr g (orMarkRetry proof body) ok fun _ g' => g' = none := by
  refine Protocol.MeetsOr.tryCatch hbody fun e g' hg' => ?_
  obtain rfl | rfl := hg'
  · refine Protocol.meetsOr_bind.mpr (Protocol.meetsOr_statement.mpr ⟨trivial, fun _ => ?_⟩)
    refine Protocol.meetsOr_throw.mpr ?_
    change (if none = some (Duty.clear proof) then none else none) = none
    exact ite_self none
  · refine Protocol.meetsOr_bind.mpr (Protocol.meetsOr_statement.mpr ⟨trivial, fun _ => ?_⟩)
    exact Protocol.meetsOr_throw.mpr (if_pos rfl)

theorem dutiful_loadValid (expectedRowCount : ℕ) (requireSummary : Bool) :
    Dutiful ctx (loadValid ctx expectedRowCount requireSummary) := by
  refine Protocol.Keeps.bind (dutiful_loadValidated _) fun docs => ?_
  dsimp only
  split
  · exact Protocol.Keeps.throw _
  · split
    · exact Protocol.Keeps.throw _
    · exact Protocol.Keeps.pure _

theorem settles_loadValid (proof : BoxPnlDayProof δ) (expectedRowCount : ℕ) :
    (duties ctx).MeetsOr (some (.check proof)) (loadValid ctx expectedRowCount true)
      (fun later g => g = none ∨ g = some (.clear proof) ∧ proof ≠ later)
      fun _ g => Settled proof g := by
  refine Protocol.MeetsOr.bind (settles_loadValidated proof _) (fun docs g hg => ?_)
    fun _ _ h => h
  dsimp only
  split
  · exact Protocol.meetsOr_throw.mpr (hg.imp_right And.left)
  · split
    · exact Protocol.meetsOr_throw.mpr (hg.imp_right And.left)
    case isFalse hsummary =>
      refine Protocol.meetsOr_pure.mpr (hg.imp_right fun hclear => ⟨hclear.1, ?_⟩)
      intro hproof
      simp_all [matchesProof]

/-- What a re-proof publishes, it has yet to check. -/
theorem checks_publishReproof (fuel : ℕ) (nowIso : Int) (rowCount : ℕ)
    (lastExactProof : BoxPnlDayProof δ) :
    (duties ctx).MeetsOr none (publishReproof ctx fuel nowIso rowCount lastExactProof)
      (fun before g => g = some (.check before)) fun _ g => Settled lastExactProof g := by
  refine Protocol.MeetsOr.bind (dutiful_loadValid _ _) ?_ fun _ _ => .inl
  rintro _ _ rfl
  refine Protocol.MeetsOr.bind (dutiful_rewriteBoxDailyPnlSummary _ _) ?_ fun _ _ => .inl
  rintro _ _ rfl
  refine Protocol.MeetsOr.bind (dutiful_loadValid _ _) ?_ fun _ _ => .inl
  rintro before _ rfl
  refine Protocol.meetsOr_bind.mpr (Protocol.meetsOr_statement.mpr ⟨trivial, fun done => ?_⟩)
  cases done with
  | false => exact Protocol.meetsOr_throw.mpr (.inl rfl)
  | true => exact Protocol.meetsOr_pure.mpr rfl

theorem dutiful_reproveBoxDailyPnlFromDurable (fuel : ℕ) (nowIso : Int)
    (expectedRowCount : Option ℕ) :
    Dutiful ctx (reproveBoxDailyPnlFromDurable ctx fuel nowIso expectedRowCount) := by
  refine Protocol.Keeps.bind (dutiful_query id) fun state => ?_
  split
  · exact discharges_markIncomplete none _
  · refine Protocol.MeetsOr.bind (dutiful_orMarkRetry (checks_publishReproof _ _ _ _)) ?_
      fun _ _ h => h
    rintro before _ rfl
    refine dutiful_orMarkRetry ?_
    refine Protocol.MeetsOr.bind (settles_loadValid before _) (fun later g hg => ?_) fun _ _ h => h
    split
    · exact Protocol.meetsOr_throw.mpr (hg.imp_right And.left)
    case isFalse hsame =>
      exact Protocol.meetsOr_pure.mpr (hg.resolve_right fun hclear => hsame hclear.2)

theorem dutiful_migrateBody (fuel : ℕ) (nowIso : Int) (expectedTradeIds : List String) :
    Dutiful ctx (migrateBody ctx fuel nowIso expectedTradeIds) := by
  rw [migrateBody]
  split
  · exact Protocol.Keeps.throw _
  refine Protocol.Keeps.bind (dutiful_invalidArchivedTradeIds _) fun invalid => ?_
  refine Protocol.Keeps.bind (dutiful_rewriteBoxDailyPnlSummary _ _) fun _ => ?_
  refine Protocol.Keeps.bind (dutiful_query id) fun settled => ?_
  dsimp only
  split
  · exact Protocol.Keeps.throw _
  refine Protocol.Keeps.bind (dutiful_validate _ _) fun _ => ?_
  refine Protocol.Keeps.bind (dutiful_query id) fun _ => ?_
  refine Protocol.Keeps.bind (dutiful_query id) fun published => ?_
  refine Protocol.Keeps.bind (dutiful_query id) fun state => ?_
  split
  · exact Protocol.Keeps.throw _
  split
  · exact Protocol.Keeps.throw _
  refine Protocol.Keeps.bind (dutiful_query id) fun finalized => ?_
  split
  · exact Protocol.Keeps.throw _
  · exact Protocol.Keeps.pure _

theorem dutiful_migrateLegacyBoxDailyPnlState (fuel : ℕ) (nowIso : Int)
    (expectedTradeIds : List String) :
    Dutiful ctx (migrateLegacyBoxDailyPnlState ctx fuel nowIso expectedTradeIds) := by
  refine Protocol.Keeps.tryCatch ?_ fun e => ?_
  · exact Protocol.Keeps.bind (dutiful_migrateBody _ _ _) fun _ => Protocol.Keeps.pure true
  · exact Protocol.Keeps.bind (dutiful_query id) fun _ => Protocol.Keeps.pure false

theorem dutiful_isBoxDailyPnlSnapshotComplete (fuel : ℕ) (nowIso : Int) (docs : DayDocs) :
    Dutiful ctx (isBoxDailyPnlSnapshotComplete ctx fuel nowIso docs) := by
  refine Protocol.Keeps.bind (dutiful_query id) fun loaded => ?_
  split
  · exact Protocol.Keeps.pure false
  split
  · exact Protocol.Keeps.pure false
  split
  · exact dutiful_migrateLegacyBoxDailyPnlState _ _ _
  · exact Protocol.Keeps.bind (dutiful_query id) fun _ => Protocol.Keeps.pure false
  · split
    · exact Protocol.Keeps.pure true
    · exact Protocol.Keeps.bind (dutiful_query id) fun _ => Protocol.Keeps.pure false

theorem dutiful_cleanDay (fuel : ℕ) (nowIso : Int) (tradeId : String) :
    Dutiful ctx (cleanDay ctx fuel nowIso tradeId) := by
  refine Protocol.Keeps.bind (dutiful_query id) fun state => ?_
  refine Protocol.Keeps.bind (dutiful_scanDurablePnlDay _ _) fun survivors => ?_
  refine Protocol.Keeps.bind (dutiful_mutate trivial trivial) fun deleted => ?_
  split
  · refine Protocol.Keeps.bind (dutiful_migrateLegacyBoxDailyPnlState _ _ _) fun migrated => ?_
    split
    · exact Protocol.Keeps.throw _
    · exact Protocol.Keeps.pure deleted
  · split
    · refine Protocol.Keeps.bind (dutiful_reproveBoxDailyPnlFromDurable _ _ _) fun _ => ?_
      exact Protocol.Keeps.pure deleted
    · refine Protocol.Keeps.bind (dutiful_rewriteBoxDailyPnlSummary _ _) fun _ => ?_
      exact Protocol.Keeps.pure deleted

theorem dutiful_cleanOthers (tradeId : String) (others : Bool) :
    Dutiful ctx (cleanOthers tradeId others) := by
  rw [cleanOthers]
  split
  · refine Protocol.Keeps.bind (dutiful_query id) fun cleaned => ?_
    split
    · exact Protocol.Keeps.throw _
    · exact Protocol.Keeps.pure _
  · exact Protocol.Keeps.pure _

theorem dutiful_cleanDays (fuel : ℕ) (nowIso : Int) (tradeId : String) (here others : Bool) :
    Dutiful ctx (cleanDays ctx fuel nowIso tradeId here others) := by
  refine Protocol.Keeps.bind (dutiful_cleanOthers _ _) fun _ => ?_
  refine Protocol.Keeps.bind ?_ fun deleted => ?_
  · cases here with
    | true => exact dutiful_cleanDay fuel nowIso tradeId
    | false => exact Protocol.Keeps.pure 0
  · exact Protocol.Keeps.bind (dutiful_cleanOthers _ _) fun _ => Protocol.Keeps.pure deleted

theorem dutiful_cleanHeldDays (fuel : ℕ) (nowIso : Int) (tradeId : String) (rounds deleted : ℕ) :
    Dutiful ctx (cleanHeldDays ctx fuel nowIso tradeId rounds deleted) := by
  induction rounds generalizing deleted with
  | zero => exact Protocol.Keeps.throw _
  | succ rounds ih =>
      refine Protocol.Keeps.bind (dutiful_query id) fun held => ?_
      split
      · exact Protocol.Keeps.pure deleted
      · exact Protocol.Keeps.bind (dutiful_cleanDays _ _ _ _ _) fun count => ih _

theorem dutiful_deleteBoxDailyPnlForTrade (fuel : ℕ) (nowIso : Int) (tradeId : String)
    (cached : Bool) : Dutiful ctx (deleteBoxDailyPnlForTrade ctx fuel nowIso tradeId cached) := by
  refine Protocol.Keeps.bind (dutiful_query id) fun _ => ?_
  refine Protocol.Keeps.tryCatch ?_ fun e => ?_
  · refine Protocol.Keeps.bind (dutiful_query id) fun candidate => ?_
    refine Protocol.Keeps.bind (dutiful_cleanDays _ _ _ _ _) fun count => ?_
    refine Protocol.Keeps.bind (dutiful_cleanHeldDays _ _ _ _ _) fun deleted => ?_
    exact Protocol.Keeps.bind (dutiful_query id) fun _ => Protocol.Keeps.pure deleted
  · exact Protocol.Keeps.bind (dutiful_query id) fun _ => Protocol.Keeps.throw e

theorem dutiful_deleteAll (fuel : ℕ) (nowIso : Int) (tradeIds : List String) :
    Dutiful ctx (deleteAll ctx fuel nowIso tradeIds) := by
  induction tradeIds with
  | nil => exact Protocol.Keeps.pure 0
  | cons tradeId rest ih =>
      refine Protocol.Keeps.bind (dutiful_deleteBoxDailyPnlForTrade _ _ _ _) fun deleted => ?_
      exact Protocol.Keeps.bind ih fun others => Protocol.Keeps.pure _

theorem dutiful_rescan (fuel : ℕ) (nowIso : Int) (first : DayScan δ) :
    Dutiful ctx (rescan ctx fuel nowIso first) := by
  rw [rescan]
  split
  · exact Protocol.Keeps.pure first
  · exact dutiful_scanDurablePnlDay fuel nowIso

theorem dutiful_repairBoxDailyPnlV2Day (fuel : ℕ) (nowIso : Int) :
    Dutiful ctx (repairBoxDailyPnlV2Day ctx fuel nowIso) := by
  refine Protocol.Keeps.bind (dutiful_scanDurablePnlDay _ _) fun first => ?_
  refine Protocol.Keeps.bind (dutiful_deleteAll _ _ _) fun repaired => ?_
  refine Protocol.Keeps.bind (dutiful_rescan _ _ _) fun scanned => ?_
  split
  · exact Protocol.Keeps.throw _
  refine Protocol.Keeps.bind (dutiful_query id) fun loaded => ?_
  split
  · exact discharges_markIncomplete none _
  refine Protocol.Keeps.bind (dutiful_query id) fun stored => ?_
  split
  · exact Protocol.Keeps.pure repaired
  · refine Protocol.Keeps.bind (dutiful_reproveBoxDailyPnlFromDurable _ _ _) fun _ => ?_
    exact Protocol.Keeps.pure _

end Strikedge.PnlDay
