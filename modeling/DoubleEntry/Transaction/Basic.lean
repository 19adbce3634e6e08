import DoubleEntry.Account.Registry
import DoubleEntry.Amount.Arithmetic
import DoubleEntry.Transaction.State

/-! Transactions: amounts exchanged between accounts, their totals, and the audit of their balance. -/
namespace DoubleEntry

/-- One side of a transaction; an elided amount was inferred and not written. -/
structure Exchange (κ : Type) where
  account : AccountRef
  amount : Amount κ
  elided : Bool
  deriving DecidableEq, Repr

structure Transaction (κ : Type) where
  state : TransactionState
  payee : Option String
  title : String
  exchanges : List (Exchange κ)
  deriving DecidableEq, Repr

inductive BalanceCheck where
  | withSum
  | withoutSum
  deriving DecidableEq, Repr

namespace BalanceCheck

def all : List BalanceCheck := [.withSum, .withoutSum]

def name : BalanceCheck → String
  | .withSum => "with_sum"
  | .withoutSum => "without_sum"

end BalanceCheck

inductive IssueKind where
  | unbalanced
  | notZeroSum
  | other
  deriving DecidableEq, Repr

namespace IssueKind

def all : List IssueKind := [.unbalanced, .notZeroSum, .other]

def name : IssueKind → String
  | .unbalanced => "unbalanced"
  | .notZeroSum => "not_zero_sum"
  | .other => "other"

end IssueKind

/-- What an audit finds in a transaction. -/
inductive Issue (κ : Type) where
  | tooFewExchanges (count : Nat)
  | noSum (error : ArithmeticError κ)
  | nonzeroSum (total : Decimal)
  deriving DecidableEq, Repr

namespace Issue

variable {κ : Type}

def kind : Issue κ → IssueKind
  | .tooFewExchanges _ => .unbalanced
  | .noSum _ => .other
  | .nonzeroSum _ => .notZeroSum

def message (call : κ → String) : Issue κ → String
  | .tooFewExchanges count =>
    "transaction needs at least two exchanges, found " ++ toString count
  | .noSum error => error.message call
  | .nonzeroSum total => "exchanges sum to " ++ total.scientific ++ " instead of zero"

end Issue

namespace Transaction

variable {κ : Type}

/-- The currency of the first written amount, in which totals are expressed. -/
def anchor? (t : Transaction κ) : Option κ :=
  (t.exchanges.find? (!·.elided)).map (·.amount.currency)

def elided? (t : Transaction κ) : Option (Exchange κ) := t.exchanges.find? (·.elided)

variable [DecidableEq κ]

/-- The total of all amounts; none where no amount was written. -/
def sum (t : Transaction κ) : Except (ArithmeticError κ) (Option (Amount κ)) :=
  match t.anchor? with
  | none => .ok none
  | some anchor => some <$> (Amount.zero anchor).addAll (t.exchanges.map (·.amount))

/-- Adds an amount to a total of debits, if it is a debit in the currency of the total. -/
def addDebit (total a : Amount κ) : Except (ArithmeticError κ) (Amount κ) := do
  let converted ← a.convertTo total.currency
  if converted.nominal.isPositive then total.add converted else return total

/-- Subtracts an amount from a total of credits, if it is a credit in the currency of the total. -/
def subCredit (total a : Amount κ) : Except (ArithmeticError κ) (Amount κ) := do
  let converted ← a.convertTo total.currency
  if converted.nominal.isNegative then total.sub converted else return total

/-- Runs a total over the amounts; zero where no amount was written. -/
def totalBy (t : Transaction κ) (step : Amount κ → Amount κ → Except (ArithmeticError κ) (Amount κ)) :
    Except (ArithmeticError κ) Decimal :=
  match t.anchor? with
  | none => .ok .zero
  | some anchor => (·.nominal) <$> (t.exchanges.map (·.amount)).foldlM step (.zero anchor)

def totalDebited (t : Transaction κ) : Except (ArithmeticError κ) Decimal := t.totalBy addDebit

def totalCredited (t : Transaction κ) : Except (ArithmeticError κ) Decimal := t.totalBy subCredit

def structureIssues (t : Transaction κ) : List (Issue κ) :=
  if t.exchanges.length ≤ 1 then [.tooFewExchanges t.exchanges.length] else []

def sumIssues (t : Transaction κ) : List (Issue κ) :=
  match t.sum with
  | .error error => [.noSum error]
  | .ok none => []
  | .ok (some total) => if total.isZero then [] else [.nonzeroSum total.nominal]

/-- What keeps the transaction from being balanced. -/
def issues (t : Transaction κ) : BalanceCheck → List (Issue κ)
  | .withSum => t.structureIssues ++ t.sumIssues
  | .withoutSum => t.structureIssues

def isBalanced (t : Transaction κ) (check : BalanceCheck) : Bool := (t.issues check).isEmpty

end Transaction
end DoubleEntry
