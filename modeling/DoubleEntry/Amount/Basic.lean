import DoubleEntry.Decimal.Text
import DoubleEntry.Token.Lexeme

/-! Amounts of a currency, with the prices that say what one unit of it is worth in others. The
currencies are named by `κ`: by their codes as written, or by their indices in a table. -/
namespace DoubleEntry

structure Price (κ : Type) where
  nominal : Decimal
  currency : κ
  deriving DecidableEq, Repr

structure Amount (κ : Type) where
  nominal : Decimal
  currency : κ
  prices : List (Price κ)
  deriving DecidableEq, Repr

def Price.map {κ μ : Type} (f : κ → μ) (p : Price κ) : Price μ := ⟨p.nominal, f p.currency⟩

def Price.chars (p : Price String) : List Char := p.nominal.plainChars ++ ' ' :: p.currency.toList

namespace Amount

variable {κ : Type}

def zero (currency : κ) : Amount κ := ⟨.zero, currency, []⟩

def isZero (a : Amount κ) : Bool := a.nominal.isZero

/-- The same amount under other names of the currencies. -/
def map {μ : Type} (f : κ → μ) (a : Amount κ) : Amount μ :=
  ⟨a.nominal, f a.currency, a.prices.map (·.map f)⟩

/-- The written form: nominal and code, then each price after a mark. -/
def chars (a : Amount String) : List Char :=
  a.nominal.plainChars ++ ' ' :: a.currency.toList ++
    a.prices.flatMap fun p => ' ' :: priceMark :: ' ' :: p.chars

def text (a : Amount String) : String := .ofList a.chars

/-- The one representative of all amounts that differ only in how their numbers are written. -/
def canonical (a : Amount κ) : Amount κ :=
  ⟨a.nominal.canonical, a.currency, a.prices.map fun p => ⟨p.nominal.canonical, p.currency⟩⟩

/-- Equal currencies, and nominals equal by value. -/
def sameValue [DecidableEq κ] (a b : Amount κ) : Bool := a.canonical = b.canonical

end Amount
end DoubleEntry
