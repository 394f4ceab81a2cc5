import Mathlib.Data.List.Basic

/-!
# Lines of the instrument master

`splitCsvLine`, and the quoting it undoes. A field is written between quotes with its own quotes
doubled, or as it is when it has neither a quote nor a comma.
-/

namespace Strikedge.DhanInstruments

/-- The loop of `splitCsvLine`: the fields so far, the one at hand, and whether it is quoted. -/
def scanCsv (out : List String) (current : String) (inQuotes : Bool) : List Char → List String
  | [] => out ++ [current]
  | '"' :: '"' :: rest =>
    -- a doubled quote inside a quoted field is a literal quote
    if inQuotes then scanCsv out (current.push '"') inQuotes rest
    else scanCsv out current (!inQuotes) ('"' :: rest)
  | '"' :: rest => scanCsv out current (!inQuotes) rest
  | ch :: rest =>
    if ch = ',' ∧ inQuotes = false then scanCsv (out ++ [current]) "" inQuotes rest
    else scanCsv out (current.push ch) inQuotes rest

def splitCsvLine (line : String) : List String := scanCsv [] "" false line.toList

/-- A field and the way it is written. -/
structure CsvField where
  text : List Char
  quoted : Bool
  bare : quoted = false → ',' ∉ text ∧ '"' ∉ text

namespace CsvField

/-- Every quote twice. -/
def double (text : List Char) : List Char :=
  text.flatMap fun ch => if ch = '"' then ['"', '"'] else [ch]

def written (field : CsvField) : List Char :=
  if field.quoted then '"' :: double field.text ++ ['"'] else field.text

end CsvField

/-- The fields joined by commas. -/
def csvLine (fields : List CsvField) : String :=
  String.ofList ([','].intercalate (fields.map CsvField.written))

/-- The fields of a line behind its first one, each behind a comma. -/
def writtenRest (fields : List CsvField) : List Char :=
  fields.flatMap fun field => ',' :: field.written

theorem csvLine_cons (first : CsvField) (rest : List CsvField) :
    csvLine (first :: rest) = String.ofList (first.written ++ writtenRest rest) := by
  rw [csvLine]
  congr 1
  induction rest generalizing first with
  | nil => simp [writtenRest]
  | cons second rest ih =>
    rw [List.map_cons, List.map_cons, List.intercalate_cons_cons, ← List.map_cons, ih second]
    simp [writtenRest]

section Scan

variable {out : List String} {current : String} {ch : Char} {rest : List Char}

theorem scanCsv_comma : scanCsv out current false (',' :: rest) =
    scanCsv (out ++ [current]) "" false rest := by
  simp [scanCsv]

/-- Outside quotes a quote opens a field, whatever follows it. -/
theorem scanCsv_open :
    scanCsv out current false ('"' :: rest) = scanCsv out current true rest := by
  by_cases hdoubled : ∃ tail, rest = '"' :: tail
  · obtain ⟨tail, rfl⟩ := hdoubled
    rfl
  · rw [scanCsv]
    · rfl
    · intro tail htail
      exact hdoubled ⟨tail, htail⟩

theorem scanCsv_close (h : rest.head? ≠ some '"') :
    scanCsv out current true ('"' :: rest) = scanCsv out current false rest := by
  rw [scanCsv]
  · rfl
  · intro tail htail
    rw [htail] at h
    exact h rfl

theorem scanCsv_literal : scanCsv out current true ('"' :: '"' :: rest) =
    scanCsv out (current.push '"') true rest := rfl

theorem scanCsv_quoted (h : ch ≠ '"') : scanCsv out current true (ch :: rest) =
    scanCsv out (current.push ch) true rest := by
  rw [scanCsv]
  · simp
  · intro tail hch _
    exact h hch
  · exact h

theorem scanCsv_bare (hquote : ch ≠ '"') (hcomma : ch ≠ ',') :
    scanCsv out current false (ch :: rest) = scanCsv out (current.push ch) false rest := by
  rw [scanCsv]
  · simp [hcomma]
  · intro tail hch _
    exact hquote hch
  · exact hquote

/-- Inside quotes a doubled text is read as the text. -/
theorem scanCsv_double (text : List Char) :
    scanCsv out current true (CsvField.double text ++ rest) =
      scanCsv out (current ++ String.ofList text) true rest := by
  induction text generalizing current with
  | nil => simp [CsvField.double]
  | cons ch text ih =>
    have hpush : current.push ch ++ String.ofList text =
        current ++ String.ofList (ch :: text) := by
      rw [← String.toList_inj]
      simp
    rw [CsvField.double, List.flatMap_cons, ← CsvField.double, ← hpush, ← ih]
    by_cases hch : ch = '"'
    · rw [if_pos hch, hch]
      exact scanCsv_literal
    · rw [if_neg hch]
      exact scanCsv_quoted hch

/-- A text without quotes and commas is read as it stands. -/
theorem scanCsv_text (text : List Char) (hcomma : ',' ∉ text) (hquote : '"' ∉ text) :
    scanCsv out current false (text ++ rest) =
      scanCsv out (current ++ String.ofList text) false rest := by
  induction text generalizing current with
  | nil => simp
  | cons ch text ih =>
    have hpush : current.push ch ++ String.ofList text =
        current ++ String.ofList (ch :: text) := by
      rw [← String.toList_inj]
      simp
    rw [List.mem_cons, not_or] at hcomma hquote
    rw [List.cons_append, scanCsv_bare (Ne.symm hquote.1) (Ne.symm hcomma.1), ← hpush]
    exact ih hcomma.2 hquote.2

/-- A field is read whole when a comma or nothing follows. -/
theorem scanCsv_field (field : CsvField) (h : rest.head? ≠ some '"') :
    scanCsv out "" false (field.written ++ rest) =
      scanCsv out (String.ofList field.text) false rest := by
  rw [CsvField.written]
  split
  · rw [List.cons_append, List.cons_append, scanCsv_open, List.append_assoc, scanCsv_double]
    rw [List.singleton_append, scanCsv_close h, String.empty_append]
  · next hbare =>
    obtain ⟨hcomma, hquote⟩ := field.bare (Bool.eq_false_iff.mpr hbare)
    rw [scanCsv_text field.text hcomma hquote, String.empty_append]

/-- What follows a field of a line is a comma or nothing. -/
theorem head_writtenRest (fields : List CsvField) :
    (writtenRest fields).head? ≠ some '"' := by
  cases fields with
  | nil => nofun
  | cons field fields => simp [writtenRest]

theorem scanCsv_writtenRest (fields : List CsvField) :
    scanCsv out current false (writtenRest fields) =
      out ++ current :: fields.map fun field => String.ofList field.text := by
  induction fields generalizing out current with
  | nil => rfl
  | cons field fields ih =>
    rw [writtenRest, List.flatMap_cons, ← writtenRest, List.cons_append, scanCsv_comma,
      scanCsv_field field (head_writtenRest fields), ih]
    simp

end Scan

/-- Splitting a line gives back its fields. -/
theorem splitCsvLine_csvLine (first : CsvField) (rest : List CsvField) :
    splitCsvLine (csvLine (first :: rest)) =
      (first :: rest).map fun field => String.ofList field.text := by
  rw [splitCsvLine, csvLine_cons, String.toList_ofList,
    scanCsv_field first (head_writtenRest rest), scanCsv_writtenRest, List.nil_append,
    List.map_cons]

end Strikedge.DhanInstruments
