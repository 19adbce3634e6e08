import DoubleEntry.Decimal.Numeral

/-! The shortest decimal that identifies a binary floating-point number of 64 bits. -/
namespace DoubleEntry

/-- A positive number `significand * 2 ^ exponent`; its lower neighbour is only half a step away at
a power of two. -/
structure BinaryValue where
  significand : Nat
  exponent : Int
  atPowerOfTwo : Bool

namespace BinaryValue

/-- Numerator and denominator of `n * 2 ^ (exponent - 2)` on the decimal grid of step `10 ^ k`. -/
def onGrid (v : BinaryValue) (k : Int) (n : Nat) : Nat × Nat :=
  ((n <<< (v.exponent - 2).toNat) * powerOfTen (-k).toNat,
    (1 <<< (2 - v.exponent).toNat) * powerOfTen k.toNat)

/-- Whether the grid point `d * 10 ^ k` rounds to the value: it lies between the midpoints to the
neighbours, themselves included when the significand is even. -/
def identifiedBy (v : BinaryValue) (k : Int) (d : Nat) : Bool :=
  let (low, unit) := v.onGrid k (4 * v.significand - if v.atPowerOfTwo then 1 else 2)
  let (high, _) := v.onGrid k (4 * v.significand + 2)
  if v.significand % 2 = 0 then low ≤ d * unit && d * unit ≤ high
  else low < d * unit && d * unit < high

/-- The power of ten of the leading digit. -/
def magnitude (v : BinaryValue) : Int :=
  digitCount ((v.significand * powerOfTen 400) <<< v.exponent.toNat >>> (-v.exponent).toNat) - 401

/-- Of the two neighbours on the grid of `count` digits those that identify the value, the nearer
one first chosen and the even one at a tie. -/
def candidate? (v : BinaryValue) (count : Nat) : Option (Nat × Int) :=
  let k := v.magnitude - count + 1
  let (numerator, unit) := v.onGrid k (4 * v.significand)
  let below := numerator / unit
  let above := below + 1
  let offBelow := numerator - below * unit
  let offAbove := above * unit - numerator
  match v.identifiedBy k below, v.identifiedBy k above with
  | true, true =>
    if offBelow < offAbove ∨ (offBelow = offAbove ∧ below % 2 = 0) then some (below, k)
    else some (above, k)
  | true, false => some (below, k)
  | false, true => some (above, k)
  | false, false => none

/-- The fewest digits that identify the value; seventeen always do. -/
def shortest (v : BinaryValue) : Nat × Int :=
  match (List.range 17).findSome? fun count => v.candidate? (count + 1) with
  | some (d, k) => Decimal.dropZeros d k
  | none => (0, 0)

end BinaryValue

namespace Numeral

/-- The numeral of a 64-bit floating-point number. Whole numbers below `10 ^ 16` carry one decimal
place, as their usual written form does. -/
def ofBinary64 (bits : UInt64) : Numeral :=
  let word := bits.toNat
  let negative := word >>> 63 = 1
  let biased : Nat := (word >>> 52) % 2048
  let fraction : Nat := word % (1 <<< 52)
  if biased = 2047 then
    if fraction = 0 then .infinite negative else .nan false false 0
  else if biased = 0 ∧ fraction = 0 then .finite ⟨negative, 0, -1⟩
  else
    let value : BinaryValue :=
      if biased = 0 then ⟨fraction, -1074, false⟩
      else ⟨(1 <<< 52) + fraction, (biased : Int) - 1075, fraction = 0 ∧ 1 < biased⟩
    let (coefficient, exponent) := value.shortest
    if 0 ≤ exponent ∧ digitCount coefficient + exponent ≤ 16 then
      .finite ⟨negative, coefficient * powerOfTen (exponent.toNat + 1), -1⟩
    else .finite ⟨negative, coefficient, exponent⟩

end Numeral

/-- A floating-point number as a finite decimal; an error shows `inf` or `nan`. -/
def Decimal.ofBinary64 (bits : UInt64) : Except NumberError Decimal :=
  match Numeral.ofBinary64 bits with
  | .finite value => .ok value
  | .infinite negative => .error (.notFinite (Numeral.specialText negative "inf"))
  | .nan .. => .error (.notFinite "nan")

end DoubleEntry
