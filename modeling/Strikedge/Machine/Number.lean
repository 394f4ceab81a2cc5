import Mathlib.Algebra.Order.Floor.Ring
import Mathlib.Data.List.Infix
import Mathlib.Data.Rat.Floor

/-!
# Numbers and text of the source language

A number of the source language is a rational or one of the three values that are not
finite. Arithmetic on whole quantities is exact, so a number that has been floored is an
integer, and rounding is to the nearest, upwards from a half. Text is trimmed of the white
space and line terminators of the language.
-/

namespace Strikedge.Machine

inductive Number where
  | finite (value : ℚ)
  | nan
  | infinity
  | negativeInfinity
  deriving DecidableEq, Repr

namespace Number

/-- The value of a finite number: the test `Number.isFinite` and what it establishes. -/
def finite? : Number → Option ℚ
  | finite value => some value
  | _ => none

/-- The comparison `0 < n`, which no number but a positive one passes. -/
def isPositive : Number → Bool
  | finite value => 0 < value
  | infinity => true
  | nan | negativeInfinity => false

@[simp] theorem finite?_finite (value : ℚ) : (finite value).finite? = some value := rfl

end Number

/-- `Math.round` -/
def mathRound (x : ℚ) : ℤ := ⌊x + 1 / 2⌋

/-- Two decimals. -/
def round2 (v : ℚ) : ℚ := mathRound (v * 100) / 100

/-- A character that `trim` removes. -/
def isSpace (c : Char) : Bool :=
  c.isWhitespace || decide (c.toNat = 0x0b ∨ c.toNat = 0x0c ∨ c.toNat = 0xa0 ∨
    c.toNat = 0x1680 ∨ 0x2000 ≤ c.toNat ∧ c.toNat ≤ 0x200a ∨ c.toNat = 0x2028 ∨
    c.toNat = 0x2029 ∨ c.toNat = 0x202f ∨ c.toNat = 0x205f ∨ c.toNat = 0x3000 ∨
    c.toNat = 0xfeff)

def trim (s : String) : String :=
  String.ofList ((s.toList.dropWhile isSpace).reverse.dropWhile isSpace).reverse

/-- `toUpperCase`; what it makes of a character beyond ASCII is the argument. -/
def toUpperCase (beyond : Char → List Char) (text : List Char) : List Char :=
  text.flatMap fun c => if c.toNat < 128 then [c.toUpper] else beyond c

theorem toUpperCase_of_ascii {beyond : Char → List Char} {text : List Char}
    (h : ∀ c ∈ text, c.toNat < 128) : toUpperCase beyond text = text.map Char.toUpper := by
  induction text with
  | nil => rfl
  | cons c text ih =>
      rw [List.forall_mem_cons] at h
      rw [toUpperCase, List.flatMap_cons, ← toUpperCase, ih h.2, if_pos h.1, List.map_cons,
        List.singleton_append]

def includes (text part : String) : Bool := decide (part.toList <:+: text.toList)

end Strikedge.Machine
