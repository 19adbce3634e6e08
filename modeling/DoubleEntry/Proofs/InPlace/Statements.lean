import DoubleEntry.Ledger.Process
import DoubleEntry.Proofs.Collection.SortedMap
import DoubleEntry.Proofs.InPlace.Accounts

/-! Statements applied to a ledger in memory, one change after the other. A statement that fails has
changed nothing by then. -/
namespace DoubleEntry

structure LedgerTables where
  accounts : AccountTables
  codes : NameIndex
  prices : PriceHistory
  books : SortedMap Date DayBook
  options : KeyedList String String
  verbose : Bool

/-- The ledger as it is kept in memory. -/
def Ledger.tables (l : Ledger) : LedgerTables :=
  ⟨l.accounts.tables, l.currencies.codes.toIndex, l.prices, l.books, l.options, l.verbose⟩

namespace LedgerTables

def empty (verbose : Bool) : LedgerTables := ⟨.empty, .empty, .empty, .empty, .empty, verbose⟩

abbrev Program (α : Type) : Type := EStateM StatementError LedgerTables α

/-! ## Lookups -/

def currency (t : LedgerTables) (code : String) : Except CurrencyError Int :=
  orMissing t.codes.place? .undeclared code

def amount (t : LedgerTables) (a : Amount String) : Except CurrencyError (Amount Int) := do
  let prices ← a.prices.mapM fun price => do
    return (⟨price.nominal, ← t.currency price.currency⟩ : Price Int)
  return ⟨a.nominal, ← t.currency a.currency, prices⟩

def nameOf (t : LedgerTables) (index : Int) : CurrencyName :=
  match t.codes.name? index with
  | some code => .code code
  | none => .index index

def resolveAccount (account : AccountName) (day : Date) : Program AccountRef :=
  lookUp fun t => (t.accounts.resolve account day).mapError .account

def resolveCurrency (code : String) : Program Int :=
  lookUp fun t => (t.currency code).mapError .currency

def resolveAmount (a : Amount String) : Program (Amount Int) :=
  lookUp fun t => (t.amount a).mapError .currency

def resolvePosting (day : Date) (posting : Posting) : Program (Leg Int) := do
  let account ← resolveAccount posting.account day
  let amount ← posting.amount.mapM resolveAmount
  return ⟨account, amount⟩

/-! ## Changes -/

def onAccounts {α : Type} (program : EStateM AccountError AccountTables α) : Program α :=
  onPart (·.accounts) (fun t accounts => { t with accounts }) .account program

def declare (code : String) : Program Int :=
  if code = "" then throw (.currency .emptyCode)
  else onPart (·.codes) (fun t codes => { t with codes }) id (NameIndex.intern code)

/-- A pair has no quotes until its list of quotes is changed. -/
def addQuote (pair : CurrencyPair) (quote : Quote) : Program Unit := do
  modify fun t => { t with prices := ⟨t.prices.quotes.alter pair (·.getD [])⟩ }
  modify fun t =>
    { t with prices := ⟨t.prices.quotes.alter pair fun quotes => quote.insert (quotes.getD [])⟩ }

/-- A day has an empty book until an entry is put into it. -/
def file (day : Date) (f : DayBook → DayBook) : Program Unit := do
  modify fun t => { t with books := t.books.alter day (·.getD .empty) }
  modify fun t => { t with books := t.books.alter day fun book => f (book.getD .empty) }

def apply : Statement → Program Unit
  | .unit code => do
    let _ ← declare code
  | .openAccount day account => do
    let _ ← onAccounts (AccountTables.openAt account day)
  | .closeAccount day account => do
    let _ ← onAccounts (AccountTables.closeAt account day)
  | .custom day args => file day fun b => { b with custom := b.custom ++ [args] }
  | .pad day target source => do
    let target ← resolveAccount target day
    let source ← resolveAccount source day
    file day fun b => { b with pads := b.pads ++ [⟨target, source⟩] }
  | .balance day account amount => do
    let account ← resolveAccount account day
    let amount ← resolveAmount amount
    file day fun b => { b with balanceAssertions := b.balanceAssertions ++ [⟨account, amount⟩] }
  | .price day currency amount => do
    let currency ← resolveCurrency currency
    let amount ← resolveAmount amount
    addQuote ⟨currency, amount.currency⟩ ⟨day, .finite amount.nominal⟩
    let declaration : PriceDeclaration := ⟨currency, ⟨amount.nominal, amount.currency⟩⟩
    file day fun b => { b with prices := b.prices ++ [declaration] }
  | .transaction day header postings => do
    let legs ← postings.mapM (resolvePosting day)
    match Transaction.ofLegs header legs with
    | .error error => throw (.balance (error.map (← get).nameOf))
    | .ok transaction =>
      file day fun b => { b with transactions := b.transactions ++ [transaction] }

end LedgerTables

/-! ## Tables of a ledger -/

namespace Ledger

variable (l : Ledger)

@[simp] theorem accounts_tables : l.tables.accounts = l.accounts.tables := rfl

@[simp] theorem codes_tables : l.tables.codes = l.currencies.codes.toIndex := rfl

@[simp] theorem currency_tables (code : String) :
    l.tables.currency code = l.currencies.lookup code := by
  cases h : l.currencies.codes.index? code <;>
    simp [LedgerTables.currency, CurrencyTable.lookup, orMissing, h]

@[simp] theorem amount_tables (a : Amount String) : l.tables.amount a = l.currencies.resolve a := by
  have hcurrency : l.tables.currency = l.currencies.lookup := funext l.currency_tables
  rw [LedgerTables.amount, CurrencyTable.resolve, hcurrency]

@[simp] theorem nameOf_tables (index : Int) :
    l.tables.nameOf index = l.currencies.nameOf index := by
  cases h : l.currencies.codes.name? index <;>
    simp [LedgerTables.nameOf, CurrencyTable.nameOf, CurrencyTable.code?, h]

theorem run_resolveAccount (account : AccountName) (day : Date) :
    (LedgerTables.resolveAccount account day).run l.tables =
      found l.tables (l.resolveAccount account day) := by
  rw [LedgerTables.resolveAccount, run_lookUp, accounts_tables, AccountRegistry.resolve_tables]
  rfl

theorem run_resolveCurrency (code : String) :
    (LedgerTables.resolveCurrency code).run l.tables =
      found l.tables ((l.currencies.lookup code).mapError .currency) := by
  rw [LedgerTables.resolveCurrency, run_lookUp, currency_tables]

theorem run_resolveAmount (a : Amount String) :
    (LedgerTables.resolveAmount a).run l.tables = found l.tables (l.resolveAmount a) := by
  rw [LedgerTables.resolveAmount, run_lookUp, amount_tables]
  rfl

theorem run_resolvePosting (day : Date) (posting : Posting) :
    (LedgerTables.resolvePosting day posting).run l.tables =
      found l.tables (l.legOf day posting) :=
  run_bind_found (l.run_resolveAccount posting.account day) fun _ =>
    run_bind_found (run_optionMapM_found l.run_resolveAmount posting.amount) fun _ => rfl

theorem run_file (day : Date) (f : DayBook → DayBook) :
    (LedgerTables.file day f).run l.tables = .ok () (l.file day f).tables := by
  have hbooks : (l.books.alter day (·.getD .empty)).alter day (fun book => f (book.getD .empty)) =
      (l.file day f).books := SortedMap.alter_alter ..
  simp only [LedgerTables.file, EStateM.run_bind, EStateM.run_modify, tables, hbooks]
  rfl

theorem run_addQuote (pair : CurrencyPair) (quote : Quote) :
    (LedgerTables.addQuote pair quote).run l.tables =
      .ok () { l with prices := l.prices.add pair quote }.tables := by
  have hquotes : (l.prices.quotes.alter pair (·.getD [])).alter pair
      (fun quotes => quote.insert (quotes.getD [])) = (l.prices.add pair quote).quotes :=
    SortedMap.alter_alter ..
  simp only [LedgerTables.addQuote, EStateM.run_bind, EStateM.run_modify, tables, hquotes]

/-! ## Statements -/

/-- The end of a statement: the ledger it leads to, or the one before it. -/
def ended : Except StatementError Ledger → EStateM.Result StatementError LedgerTables Unit
  | .ok after => .ok () after.tables
  | .error error => .error error l.tables

theorem ended_eq_ok_iff {l : Ledger} {m : Except StatementError Ledger} {after : LedgerTables} :
    l.ended m = .ok () after ↔ ∃ l', m = .ok l' ∧ after = l'.tables := by
  cases m <;> simp [ended, eq_comm]

theorem ended_eq_error_iff {l : Ledger} {m : Except StatementError Ledger} {error : StatementError}
    {after : LedgerTables} :
    l.ended m = .error error after ↔ m = .error error ∧ after = l.tables := by
  cases m <;> simp [ended, eq_comm]

section

variable {l} {α : Type} {program : LedgerTables.Program α} {m : Except StatementError α}
  {next : α → LedgerTables.Program Unit} {f : α → Except StatementError Ledger}

theorem run_bind_ended (h : program.run l.tables = found l.tables m)
    (hnext : ∀ a, (next a).run l.tables = l.ended (f a)) :
    (program >>= next).run l.tables = l.ended (m >>= f) := by
  rw [EStateM.run_bind, h]
  cases m with
  | ok a => exact hnext a
  | error error => rfl

end

theorem run_unit (code : String) :
    (LedgerTables.apply (.unit code)).run l.tables = l.ended (l.process (.unit code)) := by
  by_cases hcode : code = ""
  · simp [LedgerTables.apply, LedgerTables.declare, process, CurrencyTable.declare, hcode]
    rfl
  · simp [LedgerTables.apply, LedgerTables.declare, process, CurrencyTable.declare, hcode,
      NameTable.run_intern]
    rfl

theorem run_openAccount (day : Date) (account : AccountName) :
    (LedgerTables.apply (.openAccount day account)).run l.tables =
      l.ended (l.process (.openAccount day account)) := by
  simp only [LedgerTables.apply, LedgerTables.onAccounts, EStateM.run_bind, run_onPart,
    accounts_tables, AccountRegistry.run_openAt]
  rfl

theorem run_closeAccount (day : Date) (account : AccountName) :
    (LedgerTables.apply (.closeAccount day account)).run l.tables =
      l.ended (l.process (.closeAccount day account)) := by
  simp only [LedgerTables.apply, LedgerTables.onAccounts, EStateM.run_bind, run_onPart,
    accounts_tables, AccountRegistry.run_closeAt, process]
  cases l.accounts.closeAt account day <;> rfl

theorem run_transaction (day : Date) (header : Header) (postings : List Posting) :
    (LedgerTables.apply (.transaction day header postings)).run l.tables =
      l.ended (l.process (.transaction day header postings)) := by
  have hnames : l.tables.nameOf = l.currencies.nameOf := funext l.nameOf_tables
  have hlegs := run_mapM_found (l.run_resolvePosting day) postings
  simp only [LedgerTables.apply, process, transactionOf, bind_assoc]
  refine run_bind_ended hlegs fun legs => ?_
  cases Transaction.ofLegs header legs with
  | error error =>
    simp only [EStateM.run_bind, EStateM.run_get, run_throw, hnames]
    rfl
  | ok transaction => exact l.run_file day _

/-- Applied in place, a statement does what it says, or fails before its first change. -/
theorem run_apply (statement : Statement) :
    (LedgerTables.apply statement).run l.tables = l.ended (l.process statement) := by
  cases statement with
  | unit code => exact l.run_unit code
  | openAccount day account => exact l.run_openAccount day account
  | closeAccount day account => exact l.run_closeAccount day account
  | custom day args => exact l.run_file day fun b => { b with custom := b.custom ++ [args] }
  | pad day target source =>
    exact run_bind_ended (l.run_resolveAccount target day) fun target =>
      run_bind_ended (l.run_resolveAccount source day) fun source => l.run_file day _
  | balance day account amount =>
    exact run_bind_ended (l.run_resolveAccount account day) fun account =>
      run_bind_ended (l.run_resolveAmount amount) fun amount => l.run_file day _
  | price day currency amount =>
    refine run_bind_ended (l.run_resolveCurrency currency) fun currency =>
      run_bind_ended (l.run_resolveAmount amount) fun amount => ?_
    rw [EStateM.run_bind, run_addQuote]
    exact run_file _ day _
  | transaction day header postings => exact l.run_transaction day header postings

end Ledger
end DoubleEntry
