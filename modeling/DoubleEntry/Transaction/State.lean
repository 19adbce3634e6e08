/-! Settlement states of transactions, and the flags that stand for them. -/
namespace DoubleEntry

/-- Virtual transactions have no flag: no text stands for them. -/
inductive TransactionState where
  | settled
  | unsettled
  | recurring
  | virtual
  deriving DecidableEq, Repr

namespace TransactionState

def all : List TransactionState := [.settled, .unsettled, .recurring, .virtual]

def flag : TransactionState → String
  | .settled => "*"
  | .unsettled => "!"
  | .recurring => "#"
  | .virtual => ""

def label : TransactionState → String
  | .settled => "SETTLED"
  | .unsettled => "UNSETTLED"
  | .recurring => "RECURRING"
  | .virtual => "VIRTUAL"

/-- The state of a flag in the text of a ledger. -/
def ofFlag? (flag : String) : Option TransactionState :=
  [settled, unsettled, recurring].find? (·.flag = flag)

theorem ofFlag?_flag {state : TransactionState} (h : state ≠ .virtual) :
    ofFlag? state.flag = some state := by
  cases state <;> first | exact absurd rfl h | decide

end TransactionState
end DoubleEntry
