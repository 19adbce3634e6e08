/-! The five kinds of accounts of double-entry bookkeeping. -/
namespace DoubleEntry

inductive AccountKind where
  | assets
  | expenses
  | liabilities
  | income
  | equity
  deriving DecidableEq, Repr

namespace AccountKind

def all : List AccountKind := [.assets, .expenses, .liabilities, .income, .equity]

theorem mem_all (kind : AccountKind) : kind ∈ all := by cases kind <;> decide

/-- The word that starts the names of this kind. -/
def text : AccountKind → String
  | .assets => "Assets"
  | .expenses => "Expenses"
  | .liabilities => "Liabilities"
  | .income => "Income"
  | .equity => "Equity"

def ofText? (text : String) : Option AccountKind := all.find? (·.text = text)

@[simp] theorem ofText?_text (kind : AccountKind) : ofText? kind.text = some kind := by
  cases kind <;> decide

theorem text_of_ofText? {text : String} {kind : AccountKind} (h : ofText? text = some kind) :
    kind.text = text := by
  simpa using List.find?_some h

end AccountKind
end DoubleEntry
