import Strikedge.DhanInstruments.ScripMaster

/-!
# Which masters have reversible tokens

A row gives its instrument the token of its own segment and security id, and the second pass
changes names only. So the tokens of a master are reversible exactly when each row it keeps has
an id below the radix whose token is not rounded.
-/

namespace Strikedge.DhanInstruments

open Machine
open DhanFeed (DhanExchangeSegment)

/-- Every token gives its instrument's identity back, so no two identities share one. -/
structure Reversible (instruments : List DhanInstrument) : Prop where
  identity : ∀ inst ∈ instruments, dhanIdentityFromToken inst.instrumentToken =
    some (inst.dhanSegment, inst.dhanSecurityId)
  distinct : ∀ a ∈ instruments, ∀ b ∈ instruments, a.instrumentToken = b.instrumentToken →
    a.dhanSegment = b.dhanSegment ∧ a.dhanSecurityId = b.dhanSecurityId

/-- The id is below the radix, and its sum with the part of the segment is a multiple of the step
between the doubles of its size. -/
def Fits (segment : DhanExchangeSegment) (securityId : ℚ) : Prop :=
  securityId < radix ∧
    ∃ m : ℤ, exactToken segment securityId = m * ulp (exactToken segment securityId)

/-- Every row that passes the checks has an id that fits. -/
def RowsFit (runtime : Runtime) (csv : String) : Prop :=
  ∀ header rows, csvLines csv = header :: rows →
    ∀ columns, columns? runtime (splitCsvLine header) = some columns →
      ∀ line ∈ rows, keepsRow runtime columns (splitCsvLine line) = true →
        ∀ segment securityId, rowSegment runtime columns (splitCsvLine line) = some segment →
          rowSecurityId columns (splitCsvLine line) = some securityId → Fits segment securityId

section Reversal

variable {runtime : Runtime} {columns : Columns} {cells : List String} {csv : String}
variable {instruments : List DhanInstrument} {inst : DhanInstrument}
variable {segment : DhanExchangeSegment} {securityId : ℚ}

theorem positive?_pos {n : Number} (h : positive? n = some securityId) : 0 < securityId := by
  rw [positive?, Option.filter_eq_some_iff] at h
  exact of_decide_eq_true h.2

theorem fits_iff (hpos : 0 < securityId) :
    Fits segment securityId ↔
      dhanIdentityFromToken (dhanInternalToken segment securityId) =
        some (segment, securityId) := by
  rw [Fits, ← nearest_eq_self_iff, identity_iff hpos]

/-- A kept row has an id and a segment, and its instrument has their token. -/
theorem parseRow_eq_some (h : parseRow runtime columns cells = some inst) :
    keepsRow runtime columns cells = true ∧
      rowSegment runtime columns cells = some inst.dhanSegment ∧
      rowSecurityId columns cells = some inst.dhanSecurityId ∧
      inst.instrumentToken = dhanInternalToken inst.dhanSegment inst.dhanSecurityId := by
  rw [parseRow] at h
  split at h
  · rename_i securityId segment hid hsegment
    split at h
    · rename_i hkeeps
      obtain rfl := Option.some.inj h
      exact ⟨hkeeps, hsegment, hid, rfl⟩
    · cases h
  · cases h

theorem exists_parseRow (hkeeps : keepsRow runtime columns cells = true)
    (hsegment : rowSegment runtime columns cells = some segment)
    (hid : rowSecurityId columns cells = some securityId) :
    ∃ inst, parseRow runtime columns cells = some inst ∧ inst.dhanSegment = segment ∧
      inst.dhanSecurityId = securityId := by
  rw [parseRow, hid, hsegment]
  simp only [hkeeps, if_true]
  exact ⟨_, rfl, rfl, rfl⟩

/-- The second pass keeps the token and the identity. -/
theorem resolveUnderlying_identity (runtime : Runtime) (rows : List DhanInstrument)
    (inst : DhanInstrument) :
    (resolveUnderlying runtime rows inst).instrumentToken = inst.instrumentToken ∧
      (resolveUnderlying runtime rows inst).dhanSegment = inst.dhanSegment ∧
      (resolveUnderlying runtime rows inst).dhanSecurityId = inst.dhanSecurityId := by
  rw [resolveUnderlying]
  split <;> exact ⟨rfl, rfl, rfl⟩

/-- What the instruments of a master are, row by row. -/
theorem mem_parseDhanScripMaster (h : parseDhanScripMaster runtime csv = .ok instruments)
    (hinst : inst ∈ instruments) :
    ∃ header rows columns line, csvLines csv = header :: rows ∧
      columns? runtime (splitCsvLine header) = some columns ∧ line ∈ rows ∧
      keepsRow runtime columns (splitCsvLine line) = true ∧
      rowSegment runtime columns (splitCsvLine line) = some inst.dhanSegment ∧
      rowSecurityId columns (splitCsvLine line) = some inst.dhanSecurityId ∧
      inst.instrumentToken = dhanInternalToken inst.dhanSegment inst.dhanSecurityId := by
  rw [parseDhanScripMaster] at h
  split at h
  · rename_i header first rest hlines
    split at h
    · rename_i columns hcolumns
      obtain rfl := Except.ok.inj h
      obtain ⟨parsed, hparsed, rfl⟩ := List.mem_map.mp hinst
      obtain ⟨line, hline, hrow⟩ := List.mem_filterMap.mp hparsed
      obtain ⟨hkeeps, hsegment, hid, htoken⟩ := parseRow_eq_some hrow
      obtain ⟨htoken', hsegment', hid'⟩ := resolveUnderlying_identity runtime
        ((first :: rest).filterMap fun line => parseRow runtime columns (splitCsvLine line)) parsed
      rw [htoken', hsegment', hid']
      exact ⟨header, first :: rest, columns, line, hlines, hcolumns, hline, hkeeps, hsegment, hid,
        htoken⟩
    · cases h
  · obtain rfl := Except.ok.inj h
    cases hinst

/-- Every row that passes the checks has its instrument. -/
theorem exists_mem_parseDhanScripMaster {header line : String} {rows : List String}
    (hlines : csvLines csv = header :: rows)
    (hcolumns : columns? runtime (splitCsvLine header) = some columns) (hline : line ∈ rows)
    (hkeeps : keepsRow runtime columns (splitCsvLine line) = true)
    (hsegment : rowSegment runtime columns (splitCsvLine line) = some segment)
    (hid : rowSecurityId columns (splitCsvLine line) = some securityId) :
    ∃ instruments, parseDhanScripMaster runtime csv = .ok instruments ∧
      ∃ inst ∈ instruments, inst.dhanSegment = segment ∧ inst.dhanSecurityId = securityId := by
  cases rows with
  | nil => cases hline
  | cons first rest =>
    obtain ⟨parsed, hparsed, rfl, rfl⟩ := exists_parseRow hkeeps hsegment hid
    let parsedRows := (first :: rest).filterMap fun line =>
      parseRow runtime columns (splitCsvLine line)
    have hparse : parseDhanScripMaster runtime csv =
        .ok (parsedRows.map (resolveUnderlying runtime parsedRows)) := by
      rw [parseDhanScripMaster, hlines]
      simp only [hcolumns, parsedRows]
    have hmem : parsed ∈ parsedRows := List.mem_filterMap.mpr ⟨line, hline, hparsed⟩
    exact ⟨_, hparse, _, List.mem_map_of_mem hmem, (resolveUnderlying_identity _ _ parsed).2⟩

/-- The tokens of a master are reversible exactly when the ids of its rows fit. -/
theorem tokens_reversible_iff (runtime : Runtime) (csv : String) :
    (∀ instruments, parseDhanScripMaster runtime csv = .ok instruments →
      Reversible instruments) ↔ RowsFit runtime csv := by
  constructor
  · intro h header rows hlines columns hcolumns line hline hkeeps segment securityId hsegment hid
    obtain ⟨instruments, hparse, inst, hinst, rfl, rfl⟩ :=
      exists_mem_parseDhanScripMaster hlines hcolumns hline hkeeps hsegment hid
    have hidentity := (h instruments hparse).identity inst hinst
    obtain ⟨-, -, -, -, -, -, -, -, -, -, htoken⟩ := mem_parseDhanScripMaster hparse hinst
    rw [htoken] at hidentity
    exact (fits_iff (positive?_pos hid)).mpr hidentity
  · intro h instruments hparse
    have hidentity : ∀ inst ∈ instruments, dhanIdentityFromToken inst.instrumentToken =
        some (inst.dhanSegment, inst.dhanSecurityId) := by
      intro inst hinst
      obtain ⟨header, rows, columns, line, hlines, hcolumns, hline, hkeeps, hsegment, hid,
        htoken⟩ := mem_parseDhanScripMaster hparse hinst
      rw [htoken]
      exact (fits_iff (positive?_pos hid)).mp
        (h header rows hlines columns hcolumns line hline hkeeps _ _ hsegment hid)
    refine ⟨hidentity, fun a ha b hb heq => ?_⟩
    have hsame := (hidentity a ha).symm.trans ((congrArg _ heq).trans (hidentity b hb))
    exact Prod.mk.inj (Option.some.inj hsame)

end Reversal

namespace Sample

def runtime : Runtime where
  beyond c := [c]
  dateParse _ := none
  isoDay _ := ""
  now := 0

/-- An equity whose id is above the radix, and the derivative whose token it takes. -/
def master : String :=
  "EXCH_ID,SEGMENT,SECURITY_ID,SYMBOL_NAME\nNSE,E,1000000005,ABC\nNSE,D,5,XYZ"

def identity (inst : DhanInstrument) : Number × DhanExchangeSegment × ℚ :=
  (inst.instrumentToken, inst.dhanSegment, inst.dhanSecurityId)

end Sample

/-- The two rows share a token and are in different segments. -/
theorem tokens_collide : ¬ ∀ instruments,
    parseDhanScripMaster Sample.runtime Sample.master = .ok instruments →
      Reversible instruments := by
  intro h
  have hrows : ((parseDhanScripMaster Sample.runtime Sample.master).toOption.map
      (List.map Sample.identity)) = some
         [(.finite 2000000005, .nseEq, 1000000005), (.finite 2000000005, .nseFno, 5)] := by
    decide +kernel
  cases hparse : parseDhanScripMaster Sample.runtime Sample.master with
  | error message =>
    rw [hparse] at hrows
    cases hrows
  | ok instruments =>
    rw [hparse] at hrows
    have heq := Option.some.inj hrows
    have hequity : (Number.finite 2000000005, DhanExchangeSegment.nseEq, (1000000005 : ℚ)) ∈
        instruments.map Sample.identity := by
      rw [heq]
      exact List.mem_cons_self
    have hderivative : (Number.finite 2000000005, DhanExchangeSegment.nseFno, (5 : ℚ)) ∈
        instruments.map Sample.identity := by
      rw [heq]
      exact List.mem_cons_of_mem _ List.mem_cons_self
    obtain ⟨a, ha, hequity⟩ := List.mem_map.mp hequity
    obtain ⟨b, hb, hderivative⟩ := List.mem_map.mp hderivative
    simp only [Sample.identity, Prod.mk.injEq] at hequity hderivative
    have hsame := ((h instruments hparse).distinct a ha b hb
      (hequity.1.trans hderivative.1.symm)).1
    rw [hequity.2.1, hderivative.2.1] at hsame
    exact absurd hsame (by decide)

end Strikedge.DhanInstruments
