import DoubleEntry.Ledger.Process

/-! Transactions under other names of the currencies. -/
namespace DoubleEntry

variable {κ μ : Type}

def Exchange.map (f : κ → μ) (e : Exchange κ) : Exchange μ := ⟨e.account, e.amount.map f, e.elided⟩

def Leg.map (f : κ → μ) (leg : Leg κ) : Leg μ := ⟨leg.account, leg.amount.map (·.map f)⟩

def Issue.map (f : κ → μ) : Issue κ → Issue μ
  | .tooFewExchanges count => .tooFewExchanges count
  | .noSum error => .noSum (error.map f)
  | .nonzeroSum total => .nonzeroSum total

def Transaction.map (f : κ → μ) (t : Transaction κ) : Transaction μ :=
  ⟨t.state, t.payee, t.title, t.exchanges.map (·.map f)⟩

end DoubleEntry
