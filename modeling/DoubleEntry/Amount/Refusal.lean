import DoubleEntry.Amount.Worth

/-! What arithmetic with amounts is refused for: a price that is missing, or an exact result that
does not fit the precision. -/
namespace DoubleEntry

/-- The result is an error where there is a reason for one, and that error; any other result is as
wanted. -/
structure Outcome {ε α : Type} (result : Except ε α) (refused : ε → Prop) (wanted : α → Prop) :
    Prop where
  error_iff : ∀ error, result = .error error ↔ refused error
  wanted : ∀ a, result = .ok a → wanted a

namespace Amount

open Decimal (Representable)

variable {κ : Type}

/-- The amount has exactly this value, in a currency and with prices. -/
structure Denotes (a : Amount κ) (value : ℚ) (currency : κ) (prices : List (Price κ)) : Prop where
  value : a.nominal.toRat = value
  currency : a.currency = currency
  prices : a.prices = prices

inductive NegationRefused (a : Amount κ) : ArithmeticError κ → Prop where
  | inexact (h : ¬ Representable (-a.nominal.toRat)) : NegationRefused a (.inexact .negation)

variable [DecidableEq κ]

/-- Only an amount of another currency has to be converted. -/
inductive ConversionRefused (target : κ) (a : Amount κ) : ArithmeticError κ → Prop where
  | noPrice (hne : a.currency ≠ target) (h : ∀ price ∈ a.prices, price.currency ≠ target) :
      ConversionRefused target a (.noPrice a.currency target)
  | inexact {q : ℚ} (hne : a.currency ≠ target) (hworth : a.worth? target = some q)
      (h : ¬ Representable q) : ConversionRefused target a (.inexact .conversion)

/-- Can be added to a total in the currency, where it is worth so much. -/
structure Adds (currency : κ) (total : ℚ) (a : Amount κ) (q : ℚ) : Prop where
  converts : a.ConvertsExactly currency
  worth : a.worth? currency = some q
  fits : Representable (total + q)

/-- Adding to a total in the currency. -/
inductive AdditionRefused (currency : κ) (total : ℚ) (a : Amount κ) : ArithmeticError κ → Prop where
  | conversion {error : ArithmeticError κ} (h : ConversionRefused currency a error) :
      AdditionRefused currency total a error
  | inexact {q : ℚ} (hconverts : a.ConvertsExactly currency) (hworth : a.worth? currency = some q)
      (h : ¬ Representable (total + q)) : AdditionRefused currency total a (.inexact .addition)

/-- Subtracting from a total in the currency: the amount is negated, and then added. -/
inductive SubtractionRefused (currency : κ) (total : ℚ) (a : Amount κ) :
    ArithmeticError κ → Prop where
  | negation {error : ArithmeticError κ} (h : NegationRefused a error) :
      SubtractionRefused currency total a error
  | conversion {error : ArithmeticError κ} (hnegated : Representable (-a.nominal.toRat))
      (h : ConversionRefused currency a error) : SubtractionRefused currency total a error
  | inexact {q : ℚ} (hnegated : Representable (-a.nominal.toRat))
      (hconverts : a.ConvertsExactly currency) (hworth : a.worth? currency = some q)
      (h : ¬ Representable (total - q)) : SubtractionRefused currency total a (.inexact .addition)

/-- Adding to a total one amount after another, up to the first that is refused. -/
inductive RunRefused (currency : κ) : ℚ → List (Amount κ) → ArithmeticError κ → Prop where
  | here {total : ℚ} {a : Amount κ} {rest : List (Amount κ)} {error : ArithmeticError κ}
      (h : AdditionRefused currency total a error) : RunRefused currency total (a :: rest) error
  | later {total q : ℚ} {a : Amount κ} {rest : List (Amount κ)} {error : ArithmeticError κ}
      (hadds : a.Adds currency total q) (h : RunRefused currency (total + q) rest error) :
      RunRefused currency total (a :: rest) error

end Amount
end DoubleEntry
