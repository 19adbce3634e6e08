import DoubleEntry.Digits

/-! Finite decimal numbers: a sign, a coefficient and a power of ten. Numbers of one value may
differ in exponent, and zero has a sign. -/
namespace DoubleEntry

structure Decimal where
  negative : Bool
  coefficient : Nat
  exponent : Int
  deriving DecidableEq, Repr, Inhabited

namespace Decimal

def ofInt (n : Int) : Decimal := ⟨n < 0, n.natAbs, 0⟩

def zero : Decimal := ⟨false, 0, 0⟩

def one : Decimal := ⟨false, 1, 0⟩

/-- The exponent of the leading digit. -/
def adjusted (d : Decimal) : Int := d.exponent + digitCount d.coefficient - 1

def isZero (d : Decimal) : Bool := d.coefficient = 0

def isPositive (d : Decimal) : Bool := !d.negative && d.coefficient ≠ 0

def isNegative (d : Decimal) : Bool := d.negative && d.coefficient ≠ 0

/-- Moves trailing zeros of a nonzero coefficient into the exponent. -/
def dropZeros (coefficient : Nat) (exponent : Int) : Nat × Int :=
  if coefficient ≠ 0 ∧ coefficient % 10 = 0 then dropZeros (coefficient / 10) (exponent + 1)
  else (coefficient, exponent)
termination_by coefficient
decreasing_by omega

/-- The one representative of all numbers of this value. -/
def canonical (d : Decimal) : Decimal :=
  if d.coefficient = 0 then zero
  else
    let (coefficient, exponent) := dropZeros d.coefficient d.exponent
    ⟨d.negative, coefficient, exponent⟩

def sameValue (a b : Decimal) : Bool := a.canonical = b.canonical

end Decimal
end DoubleEntry
