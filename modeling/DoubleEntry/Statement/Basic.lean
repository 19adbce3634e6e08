import DoubleEntry.Transaction.Balance

/-! The statements of a ledger as written: accounts by name and currencies by code. -/
namespace DoubleEntry

/-- A line of a transaction. -/
structure Posting where
  account : AccountName
  amount : Option (Amount String)
  deriving DecidableEq, Repr

inductive Statement where
  | unit (code : String)
  | custom (day : Date) (args : List String)
  | openAccount (day : Date) (account : AccountName)
  | closeAccount (day : Date) (account : AccountName)
  | pad (day : Date) (target source : AccountName)
  | balance (day : Date) (account : AccountName) (amount : Amount String)
  | price (day : Date) (currency : String) (amount : Amount String)
  | transaction (day : Date) (header : Header) (postings : List Posting)
  deriving DecidableEq, Repr

/-- What stands for itself at the top level of a text: a statement, a setting, or the contents of
another file. -/
inductive Directive where
  | option (key value : String)
  | includeFile (path : String)
  | statement (statement : Statement)
  deriving DecidableEq, Repr

end DoubleEntry
