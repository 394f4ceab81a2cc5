import Strikedge.Machine.Arithmetic
import Strikedge.Machine.Double

/-!
# Numbers read from text

The conversion `Number(text)`: a decimal numeral with an optional sign, point and exponent, a
whole numeral of another base, `Infinity`, or nothing at all, between spaces. The value of a
numeral is rounded once, to the nearest double.
-/

namespace Strikedge.Machine

/-- The digits of the text, of which there is at least one. -/
def digits? (text : List Char) : Option ℕ :=
  if text ≠ [] ∧ text.all Char.isDigit then some (Nat.ofDigitChars 10 text 0) else none

/-- The exponent part, which may be absent. -/
def exponentPart? : List Char → Option ℤ
  | [] => some 0
  | c :: rest =>
    if c = 'e' ∨ c = 'E' then
      match rest with
      | '+' :: digits => (digits? digits).map fun n => (n : ℤ)
      | '-' :: digits => (digits? digits).map fun n => -(n : ℤ)
      | digits => (digits? digits).map fun n => (n : ℤ)
    else none

/-- The value of a numeral without a sign. -/
def decimal? (text : List Char) : Option ℚ :=
  let int := text.takeWhile Char.isDigit
  let behind := text.dropWhile Char.isDigit
  let (frac, rest) :=
    match behind with
    | '.' :: more => (more.takeWhile Char.isDigit, more.dropWhile Char.isDigit)
    | _ => ([], behind)
  if int = [] ∧ frac = [] then none
  else
    (exponentPart? rest).map fun (e : ℤ) =>
      (Nat.ofDigitChars 10 (int ++ frac) 0 : ℚ) * 10 ^ (e - (frac.length : ℤ))

def unsignedNumber (text : List Char) : Number :=
  if text = ['I', 'n', 'f', 'i', 'n', 'i', 't', 'y'] then .infinity
  else
    match decimal? text with
    | some value => toDouble value
    | none => .nan

/-- The value of a digit of up to sixteen. -/
def digitValue (c : Char) : ℕ :=
  if c.isDigit then c.toNat - '0'.toNat
  else if 'a' ≤ c ∧ c ≤ 'f' then c.toNat - 'a'.toNat + 10
  else if 'A' ≤ c ∧ c ≤ 'F' then c.toNat - 'A'.toNat + 10
  else 16

/-- A whole numeral behind `0x`, `0o` or `0b`. -/
def wholeNumber (base : ℕ) (text : List Char) : Number :=
  if text ≠ [] ∧ text.all (fun c => digitValue c < base) then
    toDouble (text.foldl (fun value c => base * value + digitValue c) 0 : ℕ)
  else .nan

/-- `Number(text)` -/
def numberOfText (text : String) : Number :=
  match (trim text).toList with
  | [] => .finite 0
  | '0' :: 'x' :: rest | '0' :: 'X' :: rest => wholeNumber 16 rest
  | '0' :: 'o' :: rest | '0' :: 'O' :: rest => wholeNumber 8 rest
  | '0' :: 'b' :: rest | '0' :: 'B' :: rest => wholeNumber 2 rest
  | '+' :: rest => unsignedNumber rest
  | '-' :: rest => (unsignedNumber rest).negate
  | rest => unsignedNumber rest

end Strikedge.Machine
