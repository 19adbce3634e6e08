import DoubleEntry.Amount.Basic
import DoubleEntry.Decimal.Exact

/-! Adding amounts, which converts the second through its own prices. Every step is exact or fails. -/
namespace DoubleEntry

inductive Operation where
  | addition
  | conversion
  | negation
  deriving DecidableEq, Repr

def Operation.text : Operation → String
  | .addition => "addition"
  | .conversion => "conversion"
  | .negation => "negation"

inductive ArithmeticError (κ : Type) where
  | noPrice (source target : κ)
  | inexact (operation : Operation)
  deriving DecidableEq, Repr

namespace ArithmeticError

variable {κ : Type}

def map {μ : Type} (f : κ → μ) : ArithmeticError κ → ArithmeticError μ
  | .noPrice source target => .noPrice (f source) (f target)
  | .inexact operation => .inexact operation

/-- The wording, given how a currency is called in it. -/
def message (call : κ → String) : ArithmeticError κ → String
  | .noPrice source target =>
    "cannot convert " ++ call source ++ " into " ++ call target ++
      ": no `" ++ priceMark.toString ++ "' price annotation for it"
  | .inexact operation =>
    operation.text ++ " needs more than " ++ toString Decimal.precision ++ " significant digits"

def kind : ArithmeticError κ → String
  | .noPrice .. => "ConversionError"
  | .inexact _ => "PrecisionError"

end ArithmeticError

namespace Amount

variable {κ : Type}

def exactly (operation : Operation) (result : Option Decimal) : Except (ArithmeticError κ) Decimal :=
  match result with
  | some d => .ok d
  | none => .error (.inexact operation)

/-- Expresses an amount in a currency by the first price for it; an amount that is in the currency
already stays as it is. -/
def convertTo [DecidableEq κ] (a : Amount κ) (target : κ) : Except (ArithmeticError κ) (Amount κ) :=
  if target = a.currency then .ok a
  else
    match a.prices.find? (·.currency = target) with
    | none => .error (.noPrice a.currency target)
    | some price => do
      let nominal ← exactly .conversion (a.nominal.mul? price.nominal)
      return ⟨nominal, target, []⟩

/-- The sum has the currency and the prices of the first amount. -/
def add [DecidableEq κ] (a b : Amount κ) : Except (ArithmeticError κ) (Amount κ) := do
  let converted ← b.convertTo a.currency
  let nominal ← exactly .addition (a.nominal.add? converted.nominal)
  return { a with nominal }

def neg (a : Amount κ) : Except (ArithmeticError κ) (Amount κ) := do
  let nominal ← exactly .negation a.nominal.neg?
  return { a with nominal }

def sub [DecidableEq κ] (a b : Amount κ) : Except (ArithmeticError κ) (Amount κ) := do
  a.add (← b.neg)

/-- Adds amounts one after another. -/
def addAll [DecidableEq κ] (start : Amount κ) (amounts : List (Amount κ)) :
    Except (ArithmeticError κ) (Amount κ) :=
  amounts.foldlM add start

end Amount
end DoubleEntry
