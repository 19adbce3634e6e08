import DoubleEntry.Ledger.Basic
import DoubleEntry.Statement.Basic

/-! Applying statements to a ledger. A statement that fails leaves the ledger as it was. -/
namespace DoubleEntry

/-- How an error names a currency: by its code once that is known. -/
inductive CurrencyName where
  | code (text : String)
  | index (number : Int)
  deriving DecidableEq, Repr

def CurrencyName.call : CurrencyName → String
  | .code text => "`" ++ text ++ "'"
  | .index number => "currency #" ++ toString number

namespace BalanceError

variable {κ : Type}

def map {μ : Type} (f : κ → μ) : BalanceError κ → BalanceError μ
  | .tooManyElided count => .tooManyElided count
  | .nothingWritten => .nothingWritten
  | .arithmetic error => .arithmetic (error.map f)

def message (call : κ → String) : BalanceError κ → String
  | .tooManyElided count =>
    "only one account may have its amount elided, found " ++ toString count
  | .nothingWritten =>
    "cannot infer the elided amount of a transaction with no written amount"
  | .arithmetic error => error.message call

def kind : BalanceError κ → String
  | .tooManyElided _ => "TooManyElidedAmounts"
  | .nothingWritten => "ElisionError"
  | .arithmetic error => error.kind

end BalanceError

inductive StatementError where
  | account (error : AccountError)
  | currency (error : CurrencyError)
  | balance (error : BalanceError CurrencyName)
  deriving DecidableEq, Repr

def StatementError.message : StatementError → String
  | .account error => error.message
  | .currency error => error.message
  | .balance error => error.message CurrencyName.call

/-- The name under which an error is reported; an empty code is no error of a ledger. -/
def StatementError.kind? : StatementError → Option String
  | .account error => some error.kind
  | .currency .emptyCode => none
  | .currency (.undeclared _) => some "UndeclaredCurrency"
  | .balance error => some error.kind

def CurrencyTable.nameOf (t : CurrencyTable) (index : Int) : CurrencyName :=
  match t.code? index with
  | some code => .code code
  | none => .index index

namespace Ledger

/-- Changes the book of a day, which starts empty. -/
def file (l : Ledger) (day : Date) (f : DayBook → DayBook) : Ledger :=
  { l with books := l.books.alter day fun book => f (book.getD .empty) }

theorem book?_file (l : Ledger) (day day' : Date) (f : DayBook → DayBook) :
    (l.file day f).book? day' =
      if day = day' then some (f ((l.book? day).getD .empty)) else l.book? day' :=
  SortedMap.get?_alter l.books day day' _

def resolveAccount (l : Ledger) (account : AccountName) (day : Date) :
    Except StatementError AccountRef :=
  (l.accounts.resolve account day).mapError .account

def resolveAmount (l : Ledger) (amount : Amount String) : Except StatementError (Amount Int) :=
  (l.currencies.resolve amount).mapError .currency

def legOf (l : Ledger) (day : Date) (posting : Posting) : Except StatementError (Leg Int) := do
  let account ← l.resolveAccount posting.account day
  let amount ← posting.amount.mapM l.resolveAmount
  return ⟨account, amount⟩

def transactionOf (l : Ledger) (day : Date) (header : Header) (postings : List Posting) :
    Except StatementError (Transaction Int) := do
  let legs ← postings.mapM (l.legOf day)
  (Transaction.ofLegs header legs).mapError fun error => .balance (error.map l.currencies.nameOf)

def process (l : Ledger) : Statement → Except StatementError Ledger
  | .unit code => do
    let (currencies, _) ← (l.currencies.declare code).mapError .currency
    return { l with currencies }
  | .custom day args => return l.file day fun b => { b with custom := b.custom ++ [args] }
  | .openAccount day account => return { l with accounts := (l.accounts.openAt account day).1 }
  | .closeAccount day account => do
    let (accounts, _) ← (l.accounts.closeAt account day).mapError .account
    return { l with accounts }
  | .pad day target source => do
    let target ← l.resolveAccount target day
    let source ← l.resolveAccount source day
    return l.file day fun b => { b with pads := b.pads ++ [⟨target, source⟩] }
  | .balance day account amount => do
    let account ← l.resolveAccount account day
    let amount ← l.resolveAmount amount
    return l.file day fun b =>
      { b with balanceAssertions := b.balanceAssertions ++ [⟨account, amount⟩] }
  | .price day currency amount => do
    let currency ← (l.currencies.lookup currency).mapError .currency
    let quote ← l.resolveAmount amount
    let declaration : PriceDeclaration := ⟨currency, ⟨quote.nominal, quote.currency⟩⟩
    let prices := l.prices.add ⟨currency, quote.currency⟩ ⟨day, .finite quote.nominal⟩
    return { l with prices }.file day fun b => { b with prices := b.prices ++ [declaration] }
  | .transaction day header postings => do
    let transaction ← l.transactionOf day header postings
    return l.file day fun b => { b with transactions := b.transactions ++ [transaction] }

end Ledger
end DoubleEntry
