import DoubleEntry.Ledger.Basic

/-! Copies of a ledger, table by table and book by book. What is entered into one of them changes
none of the others. -/
namespace DoubleEntry

def AccountRegistry.clone (r : AccountRegistry) : AccountRegistry where
  segments := r.segments
  windows := r.windows

def CurrencyTable.clone (t : CurrencyTable) : CurrencyTable where
  codes := t.codes

def PriceHistory.clone (h : PriceHistory) : PriceHistory where
  quotes := h.quotes

def DayBook.copy (b : DayBook) : DayBook where
  custom := b.custom
  pads := b.pads
  balanceAssertions := b.balanceAssertions
  transactions := b.transactions
  prices := b.prices

namespace Ledger

def clone (l : Ledger) : Ledger where
  accounts := l.accounts.clone
  currencies := l.currencies.clone
  prices := l.prices.clone
  books := l.books.map DayBook.copy
  options := l.options
  verbose := l.verbose

/-- Nothing is left out of a copy. -/
@[simp] theorem clone_eq (l : Ledger) : l.clone = l := by
  have hbooks : l.books.map DayBook.copy = l.books := SortedMap.map_eq_self (fun _ => rfl) l.books
  rw [clone, hbooks]
  rfl

end Ledger
end DoubleEntry
