import DoubleEntry.Decimal.Basic

/-! Arithmetic of bounded precision that refuses instead of rounding: fifty digits, and leading
digits between the powers -999999 and 999999 of ten (numbers below that keep fewer digits). -/
namespace DoubleEntry.Decimal

def precision : Nat := 50

def largestExponent : Int := 999999

def smallestExponent : Int := -999999

/-- The last digit of any number stands here or above. -/
def tiniestExponent : Int := smallestExponent - (precision - 1)

/-- The same value at another exponent; none where a nonzero digit would be lost. -/
def rescale? (d : Decimal) (exponent : Int) : Option Decimal :=
  if exponent ≤ d.exponent then
    some { d with coefficient := d.coefficient * powerOfTen (d.exponent - exponent).toNat, exponent }
  else
    let dropped := (exponent - d.exponent).toNat
    if dropped < digitCount d.coefficient ∧ d.coefficient % powerOfTen dropped = 0 then
      some { d with coefficient := d.coefficient / powerOfTen dropped, exponent }
    else none

/-- The value within the precision, at the exponent closest to the ideal one from above; none where
it does not fit. -/
def settle (d : Decimal) (ideal : Int) : Option Decimal :=
  if d.coefficient = 0 then
    some { d with exponent := max tiniestExponent (min ideal largestExponent) }
  else if largestExponent < d.adjusted then none
  else d.rescale? (max ideal (max (d.adjusted - (precision - 1)) tiniestExponent))

def signed (d : Decimal) : Int := if d.negative then -d.coefficient else d.coefficient

/-- The sum of two nonzero numbers, of which `low` has the lower exponent. -/
def sumOf (low high : Decimal) : Decimal :=
  let sum := low.signed + high.signed * powerOfTen (high.exponent - low.exponent).toNat
  ⟨sum < 0, sum.natAbs, low.exponent⟩

/-- Adds exactly. Digits of the operands that lie further apart than the precision are never
aligned: their sum cannot fit. -/
def add? (a b : Decimal) : Option Decimal :=
  let ideal := min a.exponent b.exponent
  if a.coefficient = 0 then
    if b.coefficient = 0 then settle ⟨a.negative && b.negative, 0, ideal⟩ ideal
    else b.settle ideal
  else if b.coefficient = 0 then a.settle ideal
  else
    let (low, high) := if a.exponent ≤ b.exponent then (a, b) else (b, a)
    if precision < high.exponent - low.adjusted then none
    else (sumOf low high).settle ideal

def mul? (a b : Decimal) : Option Decimal :=
  settle ⟨a.negative ^^ b.negative, a.coefficient * b.coefficient, a.exponent + b.exponent⟩
    (a.exponent + b.exponent)

/-- Negates; a zero of either sign gives the positive zero. -/
def neg? (a : Decimal) : Option Decimal :=
  settle { a with negative := !a.negative && a.coefficient ≠ 0 } a.exponent

end DoubleEntry.Decimal
