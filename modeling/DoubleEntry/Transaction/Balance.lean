import DoubleEntry.Transaction.Basic

/-! Making transactions from written amounts, of which one may be left out and inferred. -/
namespace DoubleEntry

/-- Flag, payee and title of a transaction. -/
structure Header where
  state : TransactionState
  payee : Option String
  title : String
  deriving DecidableEq, Repr

/-- An account with the amount written for it, if any. -/
structure Leg (κ : Type) where
  account : AccountRef
  amount : Option (Amount κ)
  deriving DecidableEq, Repr

inductive BalanceError (κ : Type) where
  | tooManyElided (count : Nat)
  | nothingWritten
  | arithmetic (error : ArithmeticError κ)
  deriving DecidableEq, Repr

namespace Transaction

variable {κ : Type}

def ofExchanges (header : Header) (exchanges : List (Exchange κ)) : Transaction κ :=
  ⟨header.state, header.payee, header.title, exchanges⟩

def writtenExchange? (leg : Leg κ) : Option (Exchange κ) :=
  leg.amount.map (⟨leg.account, ·, false⟩)

/-- A leg as an exchange, with the inferred amount where none was written. -/
def exchangeOf (inferred : Amount κ) (leg : Leg κ) : Exchange κ :=
  (writtenExchange? leg).getD ⟨leg.account, inferred, true⟩

/-- The negated sum of the written amounts, in the currency of the first. -/
def inferredAmount [DecidableEq κ] (first : Amount κ) (written : List (Amount κ)) :
    Except (ArithmeticError κ) (Amount κ) := do
  let zero := Amount.zero first.currency
  zero.sub (← zero.addAll written)

/-- Takes written amounts as they are, and infers one amount that was left out. -/
def ofLegs [DecidableEq κ] (header : Header) (legs : List (Leg κ)) :
    Except (BalanceError κ) (Transaction κ) :=
  match legs.countP (·.amount.isNone) with
  | 0 => .ok (ofExchanges header (legs.filterMap writtenExchange?))
  | 1 =>
    match legs.filterMap (·.amount) with
    | [] => .error .nothingWritten
    | first :: others =>
      match inferredAmount first (first :: others) with
      | .error error => .error (.arithmetic error)
      | .ok inferred => .ok (ofExchanges header (legs.map (exchangeOf inferred)))
  | count => .error (.tooManyElided count)

end Transaction
end DoubleEntry
