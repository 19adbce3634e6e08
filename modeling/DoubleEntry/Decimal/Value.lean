import DoubleEntry.Decimal.Exact
import Mathlib

/-! The rational numbers that decimals stand for, and which of them fit the bounded precision. -/
namespace DoubleEntry.Decimal

def toRat (d : Decimal) : ℚ := (d.signed : ℚ) * 10 ^ d.exponent

/-- Written with at most fifty digits, the last of them at or above the lowest place, and, unless
the number is zero, the first at or below the highest. -/
def Representable (q : ℚ) : Prop :=
  ∃ c e : ℤ, q = c * 10 ^ e ∧ c.natAbs < 10 ^ precision ∧ tiniestExponent ≤ e ∧
    (c ≠ 0 → e + digitCount c.natAbs - 1 ≤ largestExponent)

end DoubleEntry.Decimal
