import DoubleEntry.Amount.Arithmetic
import DoubleEntry.Decimal.Value

/-! What amounts are worth in a currency, as rational numbers. -/
namespace DoubleEntry.Amount

variable {κ : Type} [DecidableEq κ]

/-- The factor from one currency to another: one for the same, or else the first price. -/
def rate? (a : Amount κ) (target : κ) : Option ℚ :=
  if a.currency = target then some 1
  else (a.prices.find? (·.currency = target)).map (·.nominal.toRat)

def worth? (a : Amount κ) (target : κ) : Option ℚ := (a.rate? target).map (a.nominal.toRat * ·)

/-- Nothing has to be multiplied, or the product fits the precision. -/
def ConvertsExactly (a : Amount κ) (target : κ) : Prop :=
  a.currency = target ∨ ∃ q, a.worth? target = some q ∧ Decimal.Representable q

/-- Every total on the way from a first one fits the precision. -/
def TotalsFit (start : ℚ) : List ℚ → Prop
  | [] => True
  | q :: qs => Decimal.Representable (start + q) ∧ TotalsFit (start + q) qs

end DoubleEntry.Amount
