import DoubleEntry.Ledger.Process

/-! What the statements of a ledger file under their days, and what the entries refer to. -/
namespace DoubleEntry

inductive Entry where
  | custom (args : List String)
  | pad (pad : Pad)
  | balance (assertion : BalanceAssertion)
  | transaction (transaction : Transaction Int)
  | price (declaration : PriceDeclaration)
  deriving DecidableEq, Repr

/-- The book that holds the entries, those of each kind in their order. -/
def DayBook.ofEntries (entries : List Entry) : DayBook where
  custom := entries.filterMap fun | .custom args => some args | _ => none
  pads := entries.filterMap fun | .pad pad => some pad | _ => none
  balanceAssertions := entries.filterMap fun | .balance assertion => some assertion | _ => none
  transactions := entries.filterMap fun | .transaction transaction => some transaction | _ => none
  prices := entries.filterMap fun | .price declaration => some declaration | _ => none

namespace DayBook

def entries (b : DayBook) : List Entry :=
  b.custom.map .custom ++ b.pads.map .pad ++ b.balanceAssertions.map .balance ++
    b.transactions.map .transaction ++ b.prices.map .price

end DayBook

namespace Entry

/-- The accounts that an entry uses. -/
def accounts : Entry → List AccountRef
  | .custom _ | .price _ => []
  | .pad p => [p.target, p.source]
  | .balance b => [b.account]
  | .transaction t => t.exchanges.map (·.account)

/-- The amounts that an entry holds. -/
def amounts : Entry → List (Amount Int)
  | .custom _ | .pad _ | .price _ => []
  | .balance b => [b.amount]
  | .transaction t => t.exchanges.map (·.amount)

/-- The currencies that an entry names. -/
def currencies (e : Entry) : List Int :=
  e.amounts.flatMap (fun a => a.currency :: a.prices.map (·.currency)) ++
    match e with
    | .price d => [d.currency, d.price.currency]
    | _ => []

end Entry

namespace Ledger

/-- What a statement that succeeds files under its day; none where it changes a registry only. -/
def entryOf? (l : Ledger) : Statement → Option (Date × Entry)
  | .unit _ | .openAccount .. | .closeAccount .. => none
  | .custom day args => some (day, .custom args)
  | .pad day target source => do
    let target ← (l.accounts.resolve target day).toOption
    let source ← (l.accounts.resolve source day).toOption
    return (day, .pad ⟨target, source⟩)
  | .balance day account amount => do
    let account ← (l.accounts.resolve account day).toOption
    let amount ← (l.currencies.resolve amount).toOption
    return (day, .balance ⟨account, amount⟩)
  | .price day currency amount => do
    let currency ← l.currencies.codes.index? currency
    let quote ← (l.currencies.resolve amount).toOption
    return (day, .price ⟨currency, ⟨quote.nominal, quote.currency⟩⟩)
  | .transaction day header postings => do
    let transaction ← (l.transactionOf day header postings).toOption
    return (day, .transaction transaction)

/-- A statement that fails leaves the ledger as it was. -/
def attempt (l : Ledger) (statement : Statement) : Ledger := (l.process statement).toOption.getD l

def attemptAll (l : Ledger) (statements : List Statement) : Ledger := statements.foldl attempt l

/-- The entries of the statements that succeed, in the order of the statements. -/
def entriesOf (l : Ledger) : List Statement → List (Date × Entry)
  | [] => []
  | statement :: rest =>
    match l.process statement with
    | .error _ => l.entriesOf rest
    | .ok after => (l.entryOf? statement).toList ++ after.entriesOf rest

/-- The entries in the books, day by day. -/
def entries (l : Ledger) : List (Date × Entry) :=
  l.books.entries.flatMap fun (day, book) => book.entries.map (day, ·)

/-- The quotes of a pair among the price declarations in the books, day by day. -/
def declaredQuotes (l : Ledger) (pair : CurrencyPair) : List Quote :=
  l.books.entries.flatMap fun (day, book) =>
    (book.prices.filter fun d => d.currency = pair.base ∧ d.price.currency = pair.target).map
      fun d => ⟨day, .finite d.price.nominal⟩

end Ledger
end DoubleEntry
