import DoubleEntry.Amount.CurrencyTable
import DoubleEntry.PriceHistory
import DoubleEntry.Transaction.Basic

/-! Ledgers: what was filed day by day, with the registries that give meaning to its indices. -/
namespace DoubleEntry

/-- The intent to fill one account from another; recorded only. -/
structure Pad where
  target : AccountRef
  source : AccountRef
  deriving DecidableEq, Repr

structure BalanceAssertion where
  account : AccountRef
  amount : Amount Int
  deriving DecidableEq, Repr

/-- One unit of the currency was worth the price on the day it is filed under. -/
structure PriceDeclaration where
  currency : Int
  price : Price Int
  deriving DecidableEq, Repr

/-- All entries of one day, each kind in the order of filing. -/
structure DayBook where
  custom : List (List String)
  pads : List Pad
  balanceAssertions : List BalanceAssertion
  transactions : List (Transaction Int)
  prices : List PriceDeclaration
  deriving DecidableEq, Repr

namespace DayBook

def empty : DayBook := ⟨[], [], [], [], []⟩

def isEmpty (b : DayBook) : Bool :=
  b.custom.isEmpty && b.pads.isEmpty && b.balanceAssertions.isEmpty && b.transactions.isEmpty &&
    b.prices.isEmpty

end DayBook

structure Ledger where
  accounts : AccountRegistry
  currencies : CurrencyTable
  prices : PriceHistory
  books : SortedMap Date DayBook
  options : KeyedList String String
  verbose : Bool

namespace Ledger

def empty (verbose : Bool) : Ledger := ⟨.empty, .empty, .empty, .empty, .empty, verbose⟩

def setOption (l : Ledger) (key value : String) : Ledger :=
  { l with options := l.options.insert key value }

def option? (l : Ledger) (key : String) : Option String := l.options.get? key

def book? (l : Ledger) (day : Date) : Option DayBook := l.books.get? day

/-- The days with a book, in ascending order. -/
def days (l : Ledger) : List Date := l.books.keys

/-- Every transaction by day, and those of a day in the order of filing. -/
def transactions (l : Ledger) : List (Date × Transaction Int) :=
  l.books.entries.flatMap fun (day, book) => book.transactions.map (day, ·)

/-- The transactions with issues, and those. -/
def audit (l : Ledger) (check : BalanceCheck) :
    List (Date × Transaction Int × List (Issue Int)) :=
  l.transactions.filterMap fun (day, t) =>
    let issues := t.issues check
    if issues.isEmpty then none else some (day, t, issues)

def format (l : Ledger) (a : Amount Int) : String := l.currencies.format a

/-- The latest quote up to a day for one unit of a currency in another. -/
def priceAt (l : Ledger) (code target : String) (day : Date) :
    Except CurrencyError (Option Numeral) := do
  let base ← l.currencies.lookup code
  let target ← l.currencies.lookup target
  return l.prices.priceAt? ⟨base, target⟩ day

def summary (l : Ledger) : String :=
  "Ledger(" ++ toString l.accounts.size ++ " accounts, " ++ toString l.currencies.size ++
    " currencies, " ++ toString l.books.size ++ " days, " ++ toString l.transactions.length ++
    " transactions)"

end Ledger
end DoubleEntry
