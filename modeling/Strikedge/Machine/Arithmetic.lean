import Strikedge.Machine.Number

/-!
# Arithmetic on numbers

Sums, differences and comparisons of numbers that need not be finite. Finite results are
exact.
-/

namespace Strikedge.Machine.Number

def plus : Number → Number → Number
  | .nan, _ | _, .nan => .nan
  | .infinity, .negativeInfinity | .negativeInfinity, .infinity => .nan
  | .infinity, _ | _, .infinity => .infinity
  | .negativeInfinity, _ | _, .negativeInfinity => .negativeInfinity
  | .finite a, .finite b => .finite (a + b)

def negate : Number → Number
  | .finite a => .finite (-a)
  | .nan => .nan
  | .infinity => .negativeInfinity
  | .negativeInfinity => .infinity

def minus (a b : Number) : Number := a.plus b.negate

/-- The comparison `a < b`, which no pair with a `NaN` passes. -/
def less : Number → Number → Bool
  | .finite a, .finite b => a < b
  | .finite _, .infinity | .negativeInfinity, .finite _ | .negativeInfinity, .infinity => true
  | _, _ => false

/-- `Math.max(0, n)` -/
def atLeastZero : Number → Number
  | .finite a => .finite (max 0 a)
  | .nan => .nan
  | .infinity => .infinity
  | .negativeInfinity => .finite 0

@[simp] theorem finite_plus (a b : ℚ) : (finite a).plus (finite b) = finite (a + b) := rfl

@[simp] theorem finite_less (a b : ℚ) : (finite a).less (finite b) = decide (a < b) := rfl

end Strikedge.Machine.Number
