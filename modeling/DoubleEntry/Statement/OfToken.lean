import DoubleEntry.Decimal.Numeral
import DoubleEntry.Source.ParseError
import DoubleEntry.Statement.Basic

/-! What tokens mean. Tokens that come from reading a text always mean something, except for dates
that no calendar has. -/
namespace DoubleEntry

inductive MeaningError where
  | invalidDate (text : String) (position : Position)
  | account (error : AccountError)
  | number (error : NumberError)
  | unknownFlag (flag : String)
  | noParts
  | notAmount (rule : Rule)
  | notPostings (rule : Rule)
  | notStatement (rule : Rule)
  deriving DecidableEq, Repr

namespace MeaningError

/-- An impossible date points to its token and shows no line. -/
def dateError (text : String) (position : Position) : ParseError :=
  ⟨"invalid date `" ++ text ++ "'", some position, "", none⟩

def unknownFlagMessage (flag : String) : String := "invalid transaction state `" ++ flag ++ "'"

def message : MeaningError → String
  | .invalidDate text position => (dateError text position).message
  | .account error => error.message
  | .number error => error.message
  | .unknownFlag flag => unknownFlagMessage flag
  | .noParts => "not enough values to unpack (expected at least 1, got 0)"
  | .notAmount rule => "cannot build an amount from a " ++ rule.name ++ " token"
  | .notPostings rule => "cannot build a posting list from a " ++ rule.name ++ " token"
  | .notStatement rule => "a " ++ rule.name ++ " token is not a statement"

end MeaningError

def Date.ofToken (t : Token) : Except MeaningError Date :=
  match Date.ofText? t.text with
  | some day => .ok day
  | none => .error (.invalidDate t.text t.position)

def AccountName.ofToken (t : Token) : Except MeaningError AccountName :=
  (AccountName.ofText t.text).mapError .account

/-- Nominal and code, the two parts of an amount. -/
def Price.ofToken (t : Token) : Except MeaningError (Price String) :=
  match t.rule, t.children with
  | .amount, [nominal, currency] => do
    let nominal ← (Decimal.ofText nominal.text).mapError .number
    return ⟨nominal, currency.text⟩
  | rule, _ => .error (.notAmount rule)

def Amount.ofToken (t : Token) : Except MeaningError (Amount String) :=
  match t.rule, t.children with
  | .amountWithPrice, first :: others => do
    let ⟨nominal, currency⟩ ← Price.ofToken first
    return ⟨nominal, currency, ← others.mapM Price.ofToken⟩
  | _, _ => do
    let ⟨nominal, currency⟩ ← Price.ofToken t
    return ⟨nominal, currency, []⟩

/-- Of one string, the title; of two, the payee and the title. -/
def Header.ofToken (t : Token) : Except MeaningError Header :=
  match t.children with
  | [] => .error .noParts
  | flag :: strings =>
    match TransactionState.ofFlag? flag.text, strings with
    | some state, [title] => .ok ⟨state, none, title.value⟩
    | some state, [payee, title] => .ok ⟨state, some payee.value, title.value⟩
    | _, _ => .error (.unknownFlag flag.text)

def Posting.ofToken (t : Token) : Except MeaningError Posting :=
  match t.children with
  | [] => .error .noParts
  | [account] => do return ⟨← AccountName.ofToken account, none⟩
  | account :: amount :: _ => do
    return ⟨← AccountName.ofToken account, some (← Amount.ofToken amount)⟩

/-- The postings of a transaction. -/
def Posting.listOfToken (t : Token) : Except MeaningError (List Posting) :=
  if t.rule = .txnList then t.children.mapM ofToken else .error (.notPostings t.rule)

namespace Statement

def ofDated (t : Token) : Except MeaningError Statement :=
  match t.rule, t.children with
  | .custom, day :: args => do
    return .custom (← Date.ofToken day) (args.map Token.value)
  | .openAccount, [day, account] => do
    return .openAccount (← Date.ofToken day) (← AccountName.ofToken account)
  | .closeAccount, [day, account] => do
    return .closeAccount (← Date.ofToken day) (← AccountName.ofToken account)
  | .pad, [day, target, source] => do
    return .pad (← Date.ofToken day) (← AccountName.ofToken target) (← AccountName.ofToken source)
  | .balance, [day, account, amount] => do
    return .balance (← Date.ofToken day) (← AccountName.ofToken account) (← Amount.ofToken amount)
  | .price, [day, currency, amount] => do
    return .price (← Date.ofToken day) currency.text (← Amount.ofToken amount)
  | .transaction, [day, header, postings] => do
    return .transaction (← Date.ofToken day) (← Header.ofToken header)
      (← Posting.listOfToken postings)
  | rule, _ => .error (.notStatement rule)

/-- The statement a token stands for, either bare or inside a `statement` token. -/
def ofToken (t : Token) : Except MeaningError Statement :=
  match t.rule, t.children with
  | .unit, [code] => .ok (.unit code.text)
  | .statement, [inner] => ofDated inner
  | _, _ => ofDated t

end Statement

def Directive.ofToken (t : Token) : Except MeaningError Directive :=
  match t.rule, t.children with
  | .option, [key, value] => .ok (.option key.value value.value)
  | .includeFile, [path] => .ok (.includeFile path.value)
  | _, _ => .statement <$> Statement.ofToken t

end DoubleEntry
