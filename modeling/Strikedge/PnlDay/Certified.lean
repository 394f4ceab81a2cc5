import Strikedge.Machine.Run
import Strikedge.PnlDay.Operations

/-!
# A complete day is certified

A day is complete in its state; it is certified if its stored proof and summary are those of its
rows, and no row belongs to a trade whose deletion is complete. What a complete day lacks of its
certificate is a flaw. An operation answers for a flaw if its duty is to find it or to invalidate
the day. While every flaw is answered for, a day on which no operation is in progress is certified.
-/

namespace Strikedge.PnlDay

open Machine PnlArchive

variable {δ : Type} [DecidableEq δ]

section Certificates

variable (ctx : DayContext δ)

def DayDb.complete (db : DayDb δ) : Bool :=
  match db.state with
  | none => false
  | some state => state.complete

def DayDb.proof (db : DayDb δ) : Option (BoxPnlDayProof δ) := db.state.bind DayState.proof

/-- The summary is that of the rows, whenever it was written. -/
def DayDocs.Summarized (docs : DayDocs) : Prop :=
  ∃ stored, docs.summary = some stored ∧
    canonicalBoxPnlSummary stored =
      canonicalBoxPnlSummary (summarizeDayRows stored.day docs.rows 0)

structure Certified (db : DayDb δ) : Prop where
  proof : db.proof = some (buildBoxPnlDayProof ctx db.docs)
  summary : db.docs.Summarized
  deletions : ∀ row ∈ db.docs.rows, db.fences row.tradeId ≠ some .complete

/-- A complete day is certified whenever no operation on it is in progress. -/
def CertifiedWhenQuiet (w : World δ) : Prop :=
  Quiet w → w.db.complete = true → Certified ctx w.db

/-- What the certificate of a day can lack. -/
inductive Flaw where
  | content
  | deletion (tradeId : String)

/-- What such a proof of such documents lacks, under these fences. -/
def HasFlaw (docs : DayDocs) (fences : String → Option FenceStatus)
    (proof : Option (BoxPnlDayProof δ)) : Flaw → Prop
  | .content => ∀ π, proof = some π → matchesProof ctx π docs = false
  | .deletion tradeId => tradeId ∈ docs.tradeIds ∧ fences tradeId = some .complete

/-- Whoever has this duty is led to the flaw, where the day has this proof. -/
def Answers (proof : Option (BoxPnlDayProof δ)) (flaw : Flaw) : Option (Duty δ) → Prop
  | none => False
  | some .close => True
  | some (.clear π) | some (.check π) => proof = some π
  | some (.watch π tradeIds) => proof = some π ∧ ∃ tradeId ∈ tradeIds, flaw = .deletion tradeId

/-- One of the activities answers for the flaw. -/
def AnsweredFor (proof : Option (BoxPnlDayProof δ)) (activities : List (Activity δ))
    (flaw : Flaw) : Prop :=
  ∃ (i : ℕ) (activity : Activity δ), activities[i]? = some activity ∧
    Answers proof flaw activity.duty

/-- The publication of a legacy migration and the end of a deletion leave no flaw that nobody
answers for. -/
def AnsweredBefore (w : World δ) : Statement δ → Prop
  | .publishV2 π =>
    (∃ state, w.db.state = some state ∧ state.expectedTradeIds ≠ none) →
      ∀ flaw, HasFlaw ctx w.db.docs w.db.fences (some π) flaw →
        AnsweredFor (some π) w.activities flaw
  | .completeDeletion tradeId =>
    w.db.complete = true → tradeId ∈ w.db.docs.tradeIds →
      AnsweredFor w.db.proof w.activities (.deletion tradeId)
  | _ => True

/-- No flaw is left to nobody, neither by a statement nor by a crash. -/
def Heedful (w : World δ) : Label → Prop
  | .statement i => ∀ q next duty, w.activities[i]? = some ⟨.ask q next, duty⟩ →
      AnsweredBefore ctx w q
  | .crash i =>
    w.db.complete = true → ∀ flaw, HasFlaw ctx w.db.docs w.db.fences w.db.proof flaw →
      AnsweredFor w.db.proof (w.activities.set i .crashed) flaw
  | _ => True

variable {ctx}

theorem matchesProof_iff {π : BoxPnlDayProof δ} {docs : DayDocs} :
    matchesProof ctx π docs = true ↔ docs.Summarized ∧ π = buildBoxPnlDayProof ctx docs := by
  rw [matchesProof, Bool.and_eq_true, decide_eq_true_iff]
  refine and_congr_left fun _ => ?_
  rw [boxPnlSummaryMatchesRows, DayDocs.Summarized]
  cases docs.summary with
  | none => simp
  | some stored => simp [boxPnlSummariesEqual]

/-- A complete day without a flaw is certified. -/
theorem certified_of_flawless {db : DayDb δ}
    (h : ∀ flaw, ¬ HasFlaw ctx db.docs db.fences db.proof flaw) : Certified ctx db := by
  have hcontent : ∃ π, db.proof = some π ∧ matchesProof ctx π db.docs = true := by
    simpa [HasFlaw] using h .content
  obtain ⟨π, hproof, hmatches⟩ := hcontent
  obtain ⟨hsummary, rfl⟩ := matchesProof_iff.mp hmatches
  refine ⟨hproof, hsummary, fun row hrow hfence => ?_⟩
  exact h (.deletion row.tradeId) ⟨List.mem_map_of_mem hrow, hfence⟩

theorem Certified.flawless {db : DayDb δ} (h : Certified ctx db) (flaw : Flaw) :
    ¬ HasFlaw ctx db.docs db.fences db.proof flaw := by
  cases flaw with
  | content =>
      intro hflaw
      have hmatches : matchesProof ctx (buildBoxPnlDayProof ctx db.docs) db.docs = true :=
        matchesProof_iff.mpr ⟨h.summary, rfl⟩
      exact absurd hmatches (by simp [hflaw _ h.proof])
  | deletion tradeId =>
      rintro ⟨hmem, hfence⟩
      obtain ⟨row, hrow, rfl⟩ := List.mem_map.mp hmem
      exact h.deletions row hrow hfence

variable (ctx) in
/-- Every operation will do its duty, and every flaw of a complete day is answered for. -/
structure Accountable (w : World δ) : Prop where
  keyed : ∀ row ∈ w.db.docs.rows, row.tradeId ≠ summaryField
  dutiful : ∀ activity ∈ w.activities,
    (duties ctx).Meets activity.duty activity.rest fun _ g => g = none
  answered : w.db.complete = true → ∀ flaw,
    HasFlaw ctx w.db.docs w.db.fences w.db.proof flaw → AnsweredFor w.db.proof w.activities flaw

theorem Accountable.certifiedWhenQuiet {w : World δ} (h : Accountable ctx w) :
    CertifiedWhenQuiet ctx w := by
  intro hquiet hcomplete
  refine certified_of_flawless fun flaw hflaw => ?_
  obtain ⟨i, activity, hi, hanswers⟩ := h.answered hcomplete flaw hflaw
  have hmem : activity ∈ w.activities := List.mem_of_getElem? hi
  rw [duty_eq_none_of_offDay (h.dutiful activity hmem) (hquiet activity hmem)] at hanswers
  exact hanswers

/-- Only an upsert adds rows. -/
theorem keyed_effect {db : DayDb δ} {q : Statement δ} (hq : q.WellKeyed)
    (hkeyed : ∀ row ∈ db.docs.rows, row.tradeId ≠ summaryField) :
    ∀ row ∈ (q.effect db).docs.rows, row.tradeId ≠ summaryField := by
  cases q with
  | upsertRow row =>
      intro other hother
      simp only [Statement.effect, upsertDocs] at hother
      split at hother
      · obtain ⟨old, hold, rfl⟩ := List.mem_map.mp hother
        split
        · exact hq
        · exact hkeyed old hold
      · obtain hold | hnew := List.mem_append.mp hother
        · exact hkeyed other hold
        · exact List.mem_singleton.mp hnew ▸ hq
  | deleteRows ids => exact fun row hrow => hkeyed row (List.mem_of_mem_filter hrow)
  | _ => exact hkeyed

omit [DecidableEq δ] in
theorem answers_watching {π : BoxPnlDayProof δ} {proof : Option (BoxPnlDayProof δ)}
    {tradeIds : List String} {tradeId : String} (hproof : proof = some π)
    (hmem : tradeId ∈ tradeIds) : Answers proof (.deletion tradeId) (watching π tradeIds) := by
  rw [watching, if_neg (List.ne_nil_of_mem hmem)]
  exact ⟨hproof, tradeId, hmem, rfl⟩

/-- Loading the day leads on to every flaw it has. -/
theorem answers_afterLoad {db : DayDb δ} {flaw : Flaw} {duty : Option (Duty δ)}
    (hkeyed : ∀ row ∈ db.docs.rows, row.tradeId ≠ summaryField)
    (hflaw : HasFlaw ctx db.docs db.fences db.proof flaw) (h : Answers db.proof flaw duty) :
    Answers db.proof flaw (afterLoad ctx db.docs duty) := by
  cases duty with
  | none => exact h
  | some duty =>
      cases duty with
      | check π =>
          have hproof : db.proof = some π := h
          rw [afterLoad]
          split
          case isTrue hmatches =>
            cases flaw with
            | content => exact absurd hmatches (by simp [hflaw π hproof])
            | deletion tradeId =>
                obtain ⟨row, hrow, rfl⟩ := List.mem_map.mp hflaw.1
                refine answers_watching hproof (List.mem_filter.mpr ⟨hflaw.1, ?_⟩)
                exact decide_eq_true (hkeyed row hrow)
          case isFalse => exact hproof
      | _ => exact h

/-- Asking for deletions leads on to every deletion that is complete. -/
theorem answers_afterFences {db : DayDb δ} {flaw : Flaw} {duty : Option (Duty δ)}
    (ids : List String) (hflaw : HasFlaw ctx db.docs db.fences db.proof flaw)
    (h : Answers db.proof flaw duty) :
    Answers db.proof flaw
      (afterFences ids ((Statement.completedFences ids).answer db) duty) := by
  cases duty with
  | none => exact h
  | some duty =>
      cases duty with
      | watch π tradeIds =>
          obtain ⟨hproof, tradeId, hmem, rfl⟩ := h
          rw [afterFences]
          split
          case isTrue => exact hproof
          case isFalse hmissed =>
            refine answers_watching hproof (List.mem_filter.mpr ⟨hmem, ?_⟩)
            refine decide_eq_true fun hids => hmissed ⟨tradeId, hmem, hids, ?_⟩
            exact List.mem_filter.mpr ⟨hids, decide_eq_true hflaw.2⟩
      | _ => exact h

variable (ctx) in
/-- The day had the flaw before the statement, and the proof it has now. Whoever answered for the
flaw then still does, the one that made the statement included. -/
structure Inherited (db : DayDb δ) (q : Statement δ) (duty : Option (Duty δ)) (flaw : Flaw) :
    Prop where
  complete : db.complete = true
  hasFlaw : HasFlaw ctx db.docs db.fences db.proof flaw
  proof : (q.effect db).proof = db.proof
  answers : Answers db.proof flaw duty →
    Answers db.proof flaw (dutyAfter ctx duty q (q.answer db))

/-- The publication of a legacy migration and the end of a deletion. -/
def Statement.LegacyOrLast : Statement δ → Prop
  | .publishV2 _ | .completeDeletion _ => True
  | _ => False

theorem inherited_prepareDeletion {db : DayDb δ} {duty : Option (Duty δ)} {flaw : Flaw}
    {tradeId : String} (hcomplete : db.complete = true)
    (hflaw : HasFlaw ctx db.docs ((Statement.prepareDeletion tradeId).effect db).fences db.proof
      flaw) : Inherited ctx db (.prepareDeletion tradeId) duty flaw := by
  refine ⟨hcomplete, ?_, rfl, fun h => h⟩
  cases flaw with
  | content => exact hflaw
  | deletion id =>
      refine ⟨hflaw.1, ?_⟩
      have hfence := hflaw.2
      simp only [Statement.effect] at hfence
      split at hfence
      case isTrue heq =>
        subst heq
        cases hold : db.fences id with
        | none => simp [hold] at hfence
        | some status => simpa [hold] using hfence
      case isFalse => exact hfence

theorem inherited_failDeletion {db : DayDb δ} {duty : Option (Duty δ)} {flaw : Flaw}
    {tradeId : String} (hcomplete : db.complete = true)
    (hflaw : HasFlaw ctx db.docs ((Statement.failDeletion tradeId).effect db).fences db.proof
      flaw) : Inherited ctx db (.failDeletion tradeId) duty flaw := by
  refine ⟨hcomplete, ?_, rfl, fun h => h⟩
  cases flaw with
  | content => exact hflaw
  | deletion id =>
      refine ⟨hflaw.1, ?_⟩
      have hfence := hflaw.2
      simp only [Statement.effect, DayDb.setFence] at hfence
      split at hfence
      case isTrue heq =>
        cases hold : db.fences id with
        | none => simp [hold] at hfence
        | some status => simp [hold] at hfence
      case isFalse => exact hfence

theorem complete_markIncomplete (db : DayDb δ) (needsReproof : Bool) :
    ((Statement.markIncomplete needsReproof).effect db).complete = false := by
  simp only [Statement.effect, DayDb.complete]
  cases db.state with
  | none => rfl
  | some state => rfl

theorem complete_markRetryIfProof {db : DayDb δ} {π : BoxPnlDayProof δ}
    (hproof : db.proof = some π) :
    ((Statement.markRetryIfProof π).effect db).complete = false := by
  obtain ⟨state, hstate, hπ⟩ := Option.bind_eq_some_iff.mp hproof
  simp [Statement.effect, DayDb.complete, hstate, hπ]

/-- An update that is keyed by a proof leaves a day with another one alone. -/
theorem map_state_eq_self {db : DayDb δ} {π : BoxPnlDayProof δ} {f : DayState δ → DayState δ}
    (hproof : db.proof ≠ some π) :
    (db.state.map fun state => if state.proof = some π then f state else state) = db.state := by
  cases hstate : db.state with
  | none => rfl
  | some state =>
      have hstateProof : state.proof ≠ some π := by simpa [DayDb.proof, hstate] using hproof
      rw [Option.map_some, if_neg hstateProof]

theorem inherited_markRetryIfProof {db : DayDb δ} {duty : Option (Duty δ)} {flaw : Flaw}
    {π : BoxPnlDayProof δ}
    (hcomplete : ((Statement.markRetryIfProof π).effect db).complete = true)
    (hflaw : HasFlaw ctx db.docs db.fences ((Statement.markRetryIfProof π).effect db).proof flaw) :
    Inherited ctx db (.markRetryIfProof π) duty flaw := by
  have hproof : db.proof ≠ some π := by
    intro hproof
    exact absurd hcomplete (by simp [complete_markRetryIfProof hproof])
  have heffect : (Statement.markRetryIfProof π).effect db = db := by
    rw [Statement.effect, map_state_eq_self hproof]
  rw [heffect] at hcomplete hflaw
  refine ⟨hcomplete, hflaw, congrArg DayDb.proof heffect, fun h => ?_⟩
  rw [dutyAfter]
  split
  case isTrue hclear =>
    subst hclear
    exact absurd h hproof
  case isFalse => exact h

/-- A re-proof either publishes, and has yet to check that, or changes nothing. -/
theorem answers_reprove {db : DayDb δ} {duty : Option (Duty δ)} {flaw : Flaw}
    {prior next : BoxPnlDayProof δ}
    (hcomplete : ((Statement.reprove prior next).effect db).complete = true)
    (hflaw : HasFlaw ctx db.docs db.fences ((Statement.reprove prior next).effect db).proof flaw) :
    Answers ((Statement.reprove prior next).effect db).proof flaw
        (dutyAfter ctx duty (.reprove prior next) ((Statement.reprove prior next).answer db)) ∨
      Inherited ctx db (.reprove prior next) duty flaw := by
  by_cases hproof : db.proof = some prior
  · have hdone : (Statement.reprove prior next).answer db = true := decide_eq_true hproof
    obtain ⟨state, hstate, hprior⟩ := Option.bind_eq_some_iff.mp hproof
    rw [dutyAfter, hdone, if_pos rfl]
    refine .inl ?_
    simp [Answers, Statement.effect, DayDb.proof, hstate, hprior]
  · have hfailed : (Statement.reprove prior next).answer db = false := decide_eq_false hproof
    have heffect : (Statement.reprove prior next).effect db = db := by
      rw [Statement.effect, map_state_eq_self hproof]
    rw [heffect] at hcomplete hflaw
    refine .inr ⟨hcomplete, hflaw, congrArg DayDb.proof heffect, fun h => ?_⟩
    rw [dutyAfter, hfailed]
    exact h

omit [DecidableEq δ] in
/-- Only the flag and the manifest of the state change. -/
theorem complete_proof_map (db : DayDb δ) {f : DayState δ → DayState δ}
    (hf : ∀ state, (f state).complete = state.complete ∧ (f state).proof = state.proof) :
    ({ db with state := db.state.map f } : DayDb δ).complete = db.complete ∧
      ({ db with state := db.state.map f } : DayDb δ).proof = db.proof := by
  simp only [DayDb.complete, DayDb.proof]
  cases db.state with
  | none => exact ⟨rfl, rfl⟩
  | some state => exact hf state

theorem inherited_map {db : DayDb δ} {q : Statement δ} {duty : Option (Duty δ)} {flaw : Flaw}
    {f : DayState δ → DayState δ}
    (hf : ∀ state, (f state).complete = state.complete ∧ (f state).proof = state.proof)
    (heffect : q.effect db = { db with state := db.state.map f })
    (hduty : dutyAfter ctx duty q (q.answer db) = duty)
    (hcomplete : (q.effect db).complete = true)
    (hflaw : HasFlaw ctx (q.effect db).docs (q.effect db).fences (q.effect db).proof flaw) :
    Inherited ctx db q duty flaw := by
  obtain ⟨hsameComplete, hsameProof⟩ := complete_proof_map db hf
  rw [heffect] at hcomplete hflaw
  rw [hsameComplete] at hcomplete
  rw [hsameProof] at hflaw
  exact ⟨hcomplete, hflaw, heffect ▸ hsameProof, fun h => hduty.symm ▸ h⟩

/-- A flaw behind a statement is either on the account of the activity that made it, or it was
there before. -/
theorem answers_or_inherited {db : DayDb δ} {q : Statement δ} {duty : Option (Duty δ)}
    {flaw : Flaw} (hkeyed : ∀ row ∈ db.docs.rows, row.tradeId ≠ summaryField)
    (hplain : ¬ q.LegacyOrLast) (hcomplete : (q.effect db).complete = true)
    (hflaw : HasFlaw ctx (q.effect db).docs (q.effect db).fences (q.effect db).proof flaw) :
    Answers (q.effect db).proof flaw (dutyAfter ctx duty q (q.answer db)) ∨
      Inherited ctx db q duty flaw := by
  cases q with
  | writeSummary summary => exact .inl trivial
  | upsertRow row => exact .inl trivial
  | deleteRows ids => exact .inl trivial
  | publish π => exact .inl rfl
  | markIncomplete needsReproof =>
      exact absurd hcomplete (by simp [complete_markIncomplete])
  | markRetryIfProof π => exact .inr (inherited_markRetryIfProof hcomplete hflaw)
  | reprove prior next => exact answers_reprove hcomplete hflaw
  | finalizeV2 π =>
      refine .inr (inherited_map (fun state => ?_) rfl rfl hcomplete hflaw)
      split <;> exact ⟨rfl, rfl⟩
  | markRetryLegacy =>
      refine .inr (inherited_map (fun state => ?_) rfl rfl hcomplete hflaw)
      split <;> exact ⟨rfl, rfl⟩
  | loadSnapshot => exact .inr ⟨hcomplete, hflaw, rfl, answers_afterLoad hkeyed hflaw⟩
  | completedFences ids => exact .inr ⟨hcomplete, hflaw, rfl, answers_afterFences ids hflaw⟩
  | prepareDeletion tradeId => exact .inr (inherited_prepareDeletion hcomplete hflaw)
  | failDeletion tradeId => exact .inr (inherited_failDeletion hcomplete hflaw)
  | publishV2 π => exact absurd trivial hplain
  | completeDeletion tradeId => exact absurd trivial hplain
  | _ => exact .inr ⟨hcomplete, hflaw, rfl, fun h => h⟩

/-- Without a manifest a legacy publication changes nothing. -/
theorem answeredFor_publishV2 {w : World δ} {π : BoxPnlDayProof δ} {flaw : Flaw}
    (hinv : Accountable ctx w) (hheed : AnsweredBefore ctx w (.publishV2 π))
    (hcomplete : ((Statement.publishV2 π).effect w.db).complete = true)
    (hflaw : HasFlaw ctx w.db.docs w.db.fences ((Statement.publishV2 π).effect w.db).proof flaw) :
    AnsweredFor ((Statement.publishV2 π).effect w.db).proof w.activities flaw := by
  cases hstate : w.db.state with
  | none => simp [Statement.effect, DayDb.complete, hstate] at hcomplete
  | some state =>
      by_cases hmanifest : state.expectedTradeIds = none
      · have heffect : (Statement.publishV2 π).effect w.db = w.db := by
          rw [Statement.effect, hstate, Option.map_some, if_pos hmanifest, ← hstate]
        rw [heffect] at hcomplete hflaw ⊢
        exact hinv.answered hcomplete flaw hflaw
      · have hproof : ((Statement.publishV2 π).effect w.db).proof = some π := by
          simp [Statement.effect, DayDb.proof, hstate, hmanifest]
        rw [hproof] at hflaw ⊢
        exact hheed ⟨state, hstate, hmanifest⟩ flaw hflaw

theorem answeredFor_completeDeletion {w : World δ} {tradeId : String} {flaw : Flaw}
    (hinv : Accountable ctx w) (hheed : AnsweredBefore ctx w (.completeDeletion tradeId))
    (hcomplete : w.db.complete = true)
    (hflaw : HasFlaw ctx w.db.docs ((Statement.completeDeletion tradeId).effect w.db).fences
      w.db.proof flaw) : AnsweredFor w.db.proof w.activities flaw := by
  cases flaw with
  | content => exact hinv.answered hcomplete .content hflaw
  | deletion id =>
      by_cases hid : id = tradeId
      · subst hid
        exact hheed hcomplete hflaw.1
      · refine hinv.answered hcomplete (.deletion id) ⟨hflaw.1, ?_⟩
        simpa [Statement.effect, DayDb.setFence, hid] using hflaw.2

omit [DecidableEq δ] in
theorem answeredFor_set {proof : Option (BoxPnlDayProof δ)} {activities : List (Activity δ)}
    {flaw : Flaw} {i : ℕ} {old new : Activity δ} (hi : activities[i]? = some old)
    (h : AnsweredFor proof activities flaw)
    (hown : Answers proof flaw old.duty → Answers proof flaw new.duty) :
    AnsweredFor proof (activities.set i new) flaw := by
  obtain ⟨j, activity, hj, hanswers⟩ := h
  by_cases hij : i = j
  · subst hij
    obtain rfl : old = activity := Option.some.inj (hi.symm.trans hj)
    have hlt : i < activities.length := (List.getElem?_eq_some_iff.mp hi).1
    exact ⟨i, new, List.getElem?_set_self hlt, hown hanswers⟩
  · exact ⟨j, activity, (List.getElem?_set_ne hij).trans hj, hanswers⟩

omit [DecidableEq δ] in
theorem wellKeyed_of_admitted {duty : Option (Duty δ)} {q : Statement δ}
    (hadmitted : Admitted duty q) : q.WellKeyed := by
  cases q with
  | upsertRow row =>
      cases duty with
      | none => exact hadmitted
      | some duty => cases duty <;> exact hadmitted.elim
  | _ => trivial

/-- A statement keeps the account. -/
theorem Accountable.statement {w : World δ} {i : ℕ} {q : Statement δ}
    {next : q.Answer → Remaining δ} {duty : Option (Duty δ)} (hinv : Accountable ctx w)
    (hi : w.activities[i]? = some ⟨.ask q next, duty⟩) (hheed : AnsweredBefore ctx w q) :
    Accountable ctx
      { db := q.effect w.db
        activities := w.activities.set i
          ⟨next (q.answer w.db), dutyAfter ctx duty q (q.answer w.db)⟩ } := by
  have hmeets := hinv.dutiful _ (List.mem_of_getElem? hi)
  have hkey : q.WellKeyed := wellKeyed_of_admitted hmeets.1
  refine ⟨keyed_effect hkey hinv.keyed, fun activity hactivity => ?_,
    fun hcomplete flaw hflaw => ?_⟩
  · obtain hold | rfl := List.mem_or_eq_of_mem_set hactivity
    · exact hinv.dutiful activity hold
    · exact hmeets.2 _
  · by_cases hlegacy : q.LegacyOrLast
    · cases q with
      | publishV2 π =>
          exact answeredFor_set hi (answeredFor_publishV2 hinv hheed hcomplete hflaw) fun h => h
      | completeDeletion tradeId =>
          exact answeredFor_set hi (answeredFor_completeDeletion hinv hheed hcomplete hflaw)
            fun h => h
      | _ => exact hlegacy.elim
    · obtain hown | hold := answers_or_inherited hinv.keyed hlegacy hcomplete hflaw
      · have hlt : i < w.activities.length := (List.getElem?_eq_some_iff.mp hi).1
        exact ⟨i, _, List.getElem?_set_self hlt, hown⟩
      · have hanswered := hinv.answered hold.complete flaw hold.hasFlaw
        exact hold.proof ▸ answeredFor_set hi hanswered hold.answers

/-- The account stands along a run in which no flaw is left to nobody. -/
theorem accountable_step {w w' : World δ} {label : Label} (hinv : Accountable ctx w)
    (hheed : Heedful ctx w label) (hstep : step ctx w label = some w') : Accountable ctx w' := by
  cases label with
  | start operation fuel nowIso =>
      obtain rfl := Option.some.inj hstep
      refine ⟨hinv.keyed, fun activity hactivity => ?_, fun hcomplete flaw hflaw => ?_⟩
      · obtain hold | hnew := List.mem_append.mp hactivity
        · exact hinv.dutiful activity hold
        · obtain rfl := List.mem_singleton.mp hnew
          exact (dutiful_body operation fuel nowIso).run
      · obtain ⟨i, activity, hi, hanswers⟩ := hinv.answered hcomplete flaw hflaw
        have hlt : i < w.activities.length := (List.getElem?_eq_some_iff.mp hi).1
        exact ⟨i, activity, (List.getElem?_append_left hlt).trans hi, hanswers⟩
  | statement i =>
      rw [step] at hstep
      split at hstep
      case h_1 q next duty hi =>
        obtain rfl := Option.some.inj hstep
        exact hinv.statement hi (hheed q next duty hi)
      case h_2 => exact nomatch hstep
  | crash i =>
      obtain rfl := Option.some.inj hstep
      refine ⟨hinv.keyed, fun activity hactivity => ?_, hheed⟩
      obtain hold | rfl := List.mem_or_eq_of_mem_set hactivity
      · exact hinv.dutiful activity hold
      · exact rfl
  | surroundings around =>
      obtain rfl := Option.some.inj hstep
      exact ⟨hinv.keyed, hinv.dutiful, hinv.answered⟩

/-- No operation is in progress, and the day is certified if it is complete. -/
structure Initial (ctx : DayContext δ) (w : World δ) : Prop where
  activities : w.activities = []
  keyed : ∀ row ∈ w.db.docs.rows, row.tradeId ≠ summaryField
  certified : w.db.complete = true → Certified ctx w.db

theorem Initial.accountable {w : World δ} (h : Initial ctx w) : Accountable ctx w := by
  refine ⟨h.keyed, ?_, fun hcomplete flaw hflaw => ?_⟩
  · rw [h.activities]
    exact fun activity hactivity => nomatch hactivity
  · exact absurd hflaw ((h.certified hcomplete).flawless flaw)

/-- A complete day is certified in every state of a run in which no flaw of it is left to nobody. -/
theorem certified_throughout {w : World δ} {labels : List Label} (hinit : Initial ctx w)
    (hheeds : Heeds (step ctx) (Heedful ctx) w labels) :
    Throughout (step ctx) (CertifiedWhenQuiet ctx) w labels :=
  (Throughout.of_heeds (fun _ _ _ hinv => accountable_step hinv) hinit.accountable hheeds).mono
    fun _ hinv => hinv.certifiedWhenQuiet

end Certificates

namespace SampleDay

def terms : BoxTerms := ⟨"NIFTY", "LONG_BOX", 24000, 24100, "2025-01-30", 0⟩

def row (net : ℚ) : BoxDailyPnlRow :=
  ⟨1, "T1", terms, .running, none, some (.finite net), none, none, none, 0⟩

/-- The digest is what it digests. -/
def ctx : DayContext (List BoxDailyPnlRow) := ⟨1, fun rows _ => rows, fun _ => true⟩

/-- A day of one row that is not complete, with such a manifest of an earlier version. -/
def day (expectedTradeIds : Option (List String)) : World (List BoxDailyPnlRow) where
  db :=
    { docs := ⟨[row 100], none⟩
      state := some ⟨false, true, none, expectedTradeIds⟩
      fences := fun _ => none
      around := ⟨["T1"], fun _ => .none, false, []⟩ }
  activities := []

theorem day_initial (expectedTradeIds : Option (List String)) :
    Initial ctx (day expectedTradeIds) := by
  refine ⟨rfl, fun r hr => ?_, fun hcomplete => nomatch hcomplete⟩
  obtain rfl := List.mem_singleton.mp hr
  decide

/-- Whether everything is done, whether the day is complete, and whether its proof is right. -/
def probe (w : World (List BoxDailyPnlRow)) : Bool × Bool × Bool :=
  (w.activities.all fun activity =>
      match activity.rest with
      | .done _ => true
      | .ask _ _ => false,
    w.db.complete, decide (w.db.proof = some (buildBoxPnlDayProof ctx w.db.docs)))

/-- No crash, no legacy publication and no end of a deletion. -/
def harmless (w : World (List BoxDailyPnlRow)) : Label → Bool
  | .start _ _ _ | .surroundings _ => true
  | .crash _ => false
  | .statement i =>
    match w.activities[i]? with
    | some ⟨.ask (.publishV2 _) _, _⟩ | some ⟨.ask (.completeDeletion _) _, _⟩ => false
    | _ => true

theorem heedful_of_harmless (w : World (List BoxDailyPnlRow)) (label : Label)
    (h : harmless w label = true) : Heedful ctx w label := by
  cases label with
  | start operation fuel nowIso => trivial
  | surroundings around => trivial
  | crash i => exact nomatch h
  | statement i =>
      intro q next duty hi
      rw [harmless, hi] at h
      cases q with
      | publishV2 π => exact nomatch h
      | completeDeletion tradeId => exact nomatch h
      | _ => trivial

/-- The day is completed, and then a row of it is written once more. -/
def completion : List Label :=
  .start (.markBoxDailyPnlComplete ⟨[row 100], none⟩) 1 0 :: List.replicate 18 (.statement 0) ++
    .start (.upsertBoxDailyPnl (row 200)) 1 0 :: List.replicate 7 (.statement 1)

/-- An upsert of the row begins and ends between the last read of a migration before its
publication and that publication. -/
def migration : List Label :=
  .start (.migrateLegacyBoxDailyPnlState ["T1"]) 1 0 :: List.replicate 14 (.statement 0) ++
    .start (.upsertBoxDailyPnl (row 200)) 1 0 :: List.replicate 7 (.statement 1) ++
    List.replicate 4 (.statement 0)

end SampleDay

theorem certified_throughout_completion :
    Throughout (step SampleDay.ctx) (CertifiedWhenQuiet SampleDay.ctx) (SampleDay.day none)
      SampleDay.completion :=
  certified_throughout (SampleDay.day_initial none)
    (Heeds.mono (C := fun w label => SampleDay.harmless w label = true)
      SampleDay.heedful_of_harmless (by decide +kernel))

/-- The migration finds the proof it published to be wrong, and leaves the day complete with it. -/
theorem migration_keeps_stale_proof :
    Initial SampleDay.ctx (SampleDay.day (some ["T1"])) ∧
      ¬ Throughout (step SampleDay.ctx) (CertifiedWhenQuiet SampleDay.ctx)
        (SampleDay.day (some ["T1"])) SampleDay.migration := by
  refine ⟨SampleDay.day_initial _, fun hthroughout => ?_⟩
  have hrun : (run (step SampleDay.ctx) (SampleDay.day (some ["T1"])) SampleDay.migration).map
      SampleDay.probe = some (true, true, false) := by decide +kernel
  obtain ⟨w, hw, hprobe⟩ := Option.map_eq_some_iff.mp hrun
  have hquiet : Quiet w := by
    intro activity hactivity
    have hdone := List.all_eq_true.mp (congrArg Prod.fst hprobe) activity hactivity
    obtain ⟨rest, duty⟩ := activity
    cases rest with
    | done result => trivial
    | ask q next => exact nomatch hdone
  have hcomplete : w.db.complete = true := congrArg (·.2.1) hprobe
  have hcertified := hthroughout.last hw hquiet hcomplete
  exact of_decide_eq_false (congrArg (·.2.2) hprobe) hcertified.proof

end Strikedge.PnlDay
