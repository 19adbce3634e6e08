import DoubleEntry.Decimal.Basic

/-! Two written forms of a decimal: scientific where the exponent asks for it, and plain. -/
namespace DoubleEntry.Decimal

def signChars (d : Decimal) : List Char := if d.negative then ['-'] else []

/-- The coefficient with a point before its last `places` digits. -/
def pointed (coefficient places : Nat) : List Char :=
  let ds := padded (places + 1) coefficient
  if places = 0 then ds
  else ds.take (ds.length - places) ++ '.' :: ds.drop (ds.length - places)

/-- A point after the first digit, unless that is the only one, and the exponent with its sign. -/
def exponential (d : Decimal) : List Char :=
  let mantissa := match digits d.coefficient with
    | first :: second :: others => first :: '.' :: second :: others
    | short => short
  mantissa ++ 'E' :: (if d.adjusted < 0 then '-' else '+') :: digits d.adjusted.natAbs

/-- Scientific notation where the exponent is positive or more than five zeros would follow the
point; all digits and the exponent can be read back. -/
def scientificChars (d : Decimal) : List Char :=
  d.signChars ++
    if d.exponent ≤ 0 ∧ -6 ≤ d.adjusted then pointed d.coefficient d.exponent.natAbs
    else d.exponential

/-- Never an exponent; a zero has no trailing zeros before the point. -/
def plainChars (d : Decimal) : List Char :=
  d.signChars ++
    if d.exponent ≤ 0 then pointed d.coefficient d.exponent.natAbs
    else if d.coefficient = 0 then ['0']
    else digits d.coefficient ++ List.replicate d.exponent.toNat '0'

def scientific (d : Decimal) : String := .ofList d.scientificChars

def plain (d : Decimal) : String := .ofList d.plainChars

end DoubleEntry.Decimal
