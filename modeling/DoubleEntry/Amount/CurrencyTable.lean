import DoubleEntry.Amount.Basic
import DoubleEntry.Collection.NameTable

/-! The declared currencies, numbered in the order of declaration. -/
namespace DoubleEntry

structure CurrencyTable where
  codes : NameTable
  deriving DecidableEq, Repr

inductive CurrencyError where
  | emptyCode
  | undeclared (code : String)
  deriving DecidableEq, Repr

def CurrencyError.message : CurrencyError → String
  | .emptyCode => "currency code must not be empty"
  | .undeclared code => "currency `" ++ code ++ "' is not declared, add `unit " ++ code ++ "' first"

namespace CurrencyTable

def empty : CurrencyTable := ⟨.empty⟩

def size (t : CurrencyTable) : Nat := t.codes.size

def contains (t : CurrencyTable) (code : String) : Bool := (t.codes.index? code).isSome

/-- The index of a code, which may have been declared before. -/
def declare (t : CurrencyTable) (code : String) : Except CurrencyError (CurrencyTable × Int) :=
  if code = "" then .error .emptyCode
  else
    let (codes, index) := t.codes.intern code
    .ok (⟨codes⟩, index)

def lookup (t : CurrencyTable) (code : String) : Except CurrencyError Int :=
  match t.codes.index? code with
  | some index => .ok index
  | none => .error (.undeclared code)

def code? (t : CurrencyTable) (index : Int) : Option String := t.codes.name? index

/-- The code of an index, or the index itself after a hash. -/
def label (t : CurrencyTable) (index : Int) : String :=
  (t.code? index).getD ("#" ++ toString index)

/-- Looks the codes of an amount up, those of its prices first. -/
def resolve (t : CurrencyTable) (a : Amount String) : Except CurrencyError (Amount Int) := do
  let prices ← a.prices.mapM fun price => do
    return (⟨price.nominal, ← t.lookup price.currency⟩ : Price Int)
  return ⟨a.nominal, ← t.lookup a.currency, prices⟩

/-- An amount as it would be written with the codes of this table. -/
def format (t : CurrencyTable) (a : Amount Int) : String := (a.map t.label).text

def summary (t : CurrencyTable) : String :=
  "CurrencyStore(" ++ ", ".intercalate t.codes.names ++ ")"

end CurrencyTable
end DoubleEntry
