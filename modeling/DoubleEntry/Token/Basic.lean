import DoubleEntry.Source.Basic
import DoubleEntry.Text.Quoted

/-! The token tree: what a grammar rule matched, where, and the tokens inside it. -/
namespace DoubleEntry

inductive Rule where
  | ledger
  | option
  | includeFile
  | unit
  | statement
  | custom
  | openAccount
  | closeAccount
  | pad
  | balance
  | price
  | transaction
  | txnHeader
  | txnState
  | txnList
  | posting
  | date
  | string
  | account
  | amount
  | amountWithPrice
  | nominal
  | currency
  deriving DecidableEq, Repr

namespace Rule

def all : List Rule :=
  [.ledger, .option, .includeFile, .unit, .statement, .custom, .openAccount, .closeAccount, .pad,
    .balance, .price, .transaction, .txnHeader, .txnState, .txnList, .posting, .date, .string,
    .account, .amount, .amountWithPrice, .nominal, .currency]

def name : Rule → String
  | .ledger => "ledger"
  | .option => "option"
  | .includeFile => "include"
  | .unit => "unit"
  | .statement => "statement"
  | .custom => "custom_statement"
  | .openAccount => "open_statement"
  | .closeAccount => "close_statement"
  | .pad => "pad_statement"
  | .balance => "balance_statement"
  | .price => "price_statement"
  | .transaction => "transaction"
  | .txnHeader => "txn_header"
  | .txnState => "txn_state"
  | .txnList => "txn_list"
  | .posting => "posting"
  | .date => "date"
  | .string => "string"
  | .account => "account"
  | .amount => "amount"
  | .amountWithPrice => "amount_with_price"
  | .nominal => "nominal"
  | .currency => "currency"

/-- The name in capitals, without the word `statement` after another one. -/
def label : Rule → String
  | .custom => "CUSTOM"
  | .openAccount => "OPEN"
  | .closeAccount => "CLOSE"
  | .pad => "PAD"
  | .balance => "BALANCE"
  | .price => "PRICE"
  | rule => rule.name.toUpper

def ofName? (name : String) : Option Rule := all.find? (·.name = name)

end Rule

structure Token where
  rule : Rule
  text : String
  position : Position
  children : List Token
  deriving Repr

namespace Token

def leaf (rule : Rule) (text : String) (position : Position) : Token := ⟨rule, text, position, []⟩

/-- What a quoted string stands for; other tokens stand for their text. -/
def value (t : Token) : String :=
  if t.rule = .string then .ofList (Text.unquote t.text.toList) else t.text

/-- The token reached by going down to the given children. -/
def descend? (t : Token) : List Nat → Option Token
  | [] => some t
  | i :: path => t.children[i]?.bind (descend? · path)

end Token
end DoubleEntry
