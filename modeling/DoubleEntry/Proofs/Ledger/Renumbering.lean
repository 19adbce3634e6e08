import DoubleEntry.Proofs.Ledger.Display
import DoubleEntry.Proofs.Transaction.Renaming

/-! The same transaction under tables that number the same codes differently. Indices are compared
and never ordered, so that the numbering shows neither in amounts nor in errors. -/
namespace DoubleEntry

namespace CurrencyTable

variable {t t' : CurrencyTable}

/-- The index that another table has for the same code. -/
def renumber (t t' : CurrencyTable) (index : Int) : Int := (t.code? index).elim index t'.indexOf

theorem renumber_of_code? {index : Int} {code : String} (h : t.code? index = some code) :
    t.renumber t' index = t'.indexOf code := by
  rw [renumber, h, Option.elim_some]

theorem renumber_of_none {index : Int} (h : t.code? index = none) :
    t.renumber t' index = index := by
  rw [renumber, h, Option.elim_none]

variable (h : t.codes.names.Perm t'.codes.names)

include h

theorem index?_eq_indexOf {code : String} (hcode : code ∈ t.codes.names) :
    t'.codes.index? code = some (t'.indexOf code) := by
  obtain ⟨index, hindex⟩ := NameTable.exists_index?_iff.2 (h.mem_iff.1 hcode)
  rw [indexOf, hindex, Option.getD_some]

theorem code?_renumber (index : Int) : t'.code? (t.renumber t' index) = t.code? index := by
  cases hcode : t.code? index with
  | some code =>
    rw [renumber_of_code? hcode]
    exact NameTable.name?_of_index? (index?_eq_indexOf h (NameTable.mem_of_name? hcode))
  | none =>
    have hsize : t.codes.size = t'.codes.size := h.length_eq
    rw [renumber_of_none hcode]
    unfold code? at hcode ⊢
    rwa [NameTable.name?_eq_none_iff, ← hsize, ← NameTable.name?_eq_none_iff]

theorem renumber_injective : Function.Injective (t.renumber t') := by
  intro index index' heq
  have hcodes : t.code? index = t.code? index' := by
    rw [← code?_renumber h, ← code?_renumber h, heq]
  cases hcode : t.code? index' with
  | some code =>
    rw [hcode] at hcodes
    have hindex := NameTable.index?_of_name? hcodes
    rw [NameTable.index?_of_name? hcode] at hindex
    exact (Option.some.inj hindex).symm
  | none =>
    rwa [renumber_of_none (hcodes.trans hcode), renumber_of_none hcode] at heq

theorem nameOf_renumber (index : Int) : t'.nameOf (t.renumber t' index) = t.nameOf index := by
  unfold nameOf
  rw [code?_renumber h]
  split
  · rfl
  · rename_i hcode
    rw [renumber_of_none hcode]

theorem label_renumber (index : Int) : t'.label (t.renumber t' index) = t.label index := by
  unfold label
  rw [code?_renumber h]
  cases hcode : t.code? index with
  | some code => rfl
  | none => rw [renumber_of_none hcode]

theorem lookup_renumber (code : String) :
    t'.lookup code = t.renumber t' <$> t.lookup code := by
  unfold lookup
  cases hindex : t.codes.index? code with
  | none =>
    have habsent : code ∉ t'.codes.names :=
      fun hmem => NameTable.index?_eq_none_iff.1 hindex (h.mem_iff.2 hmem)
    rw [NameTable.index?_eq_none_iff.2 habsent]
    rfl
  | some index =>
    have hcode := NameTable.name?_of_index? hindex
    rw [index?_eq_indexOf h (NameTable.mem_of_name? hcode), ← renumber_of_code? hcode]
    rfl

theorem resolve_renumber (a : Amount String) :
    t'.resolve a = Amount.map (t.renumber t') <$> t.resolve a := by
  have hprices : a.prices.mapM (fun price => do
        return (⟨price.nominal, ← t'.lookup price.currency⟩ : Price Int)) =
      List.map (Price.map (t.renumber t')) <$> a.prices.mapM (fun price => do
        return (⟨price.nominal, ← t.lookup price.currency⟩ : Price Int)) := by
    refine mapM_renamed (fun price => ?_) a.prices
    rw [lookup_renumber h]
    simp only [bind_map_left, map_bind, map_pure, Price.map]
  unfold resolve
  rw [hprices, lookup_renumber h]
  simp only [bind_map_left, map_bind, map_pure, Amount.map]

theorem format_renumber (a : Amount Int) : t'.format (a.map (t.renumber t')) = t.format a := by
  have hlabel : (fun c => t'.label (t.renumber t' c)) = t.label := funext (label_renumber h)
  rw [format, format, Amount.map_map, hlabel]

end CurrencyTable

namespace Transaction

variable {κ μ ν : Type}

theorem map_map (f : κ → μ) (g : μ → ν) (t : Transaction κ) :
    (t.map f).map g = t.map fun c => g (f c) := by
  simp [map, Exchange.map, Amount.map_map, Function.comp_def]

end Transaction

theorem BalanceError.map_map {κ μ ν : Type} (f : κ → μ) (g : μ → ν) (error : BalanceError κ) :
    (error.map f).map g = error.map fun c => g (f c) := by
  cases error with
  | arithmetic error => cases error <;> rfl
  | _ => rfl

/-! ## Ledgers -/

namespace Ledger

variable {l l' : Ledger}

/-- The same accounts, and the same codes in perhaps another order. -/
structure Renumbers (l l' : Ledger) : Prop where
  accounts : l.accounts = l'.accounts
  codes : l.currencies.codes.names.Perm l'.currencies.codes.names

namespace Renumbers

variable (h : l.Renumbers l')

include h

theorem resolveAmount (a : Amount String) :
    l'.resolveAmount a =
      Amount.map (l.currencies.renumber l'.currencies) <$> l.resolveAmount a := by
  unfold Ledger.resolveAmount
  rw [CurrencyTable.resolve_renumber h.codes]
  cases l.currencies.resolve a <;> rfl

theorem legOf (day : Date) (posting : Posting) :
    l'.legOf day posting =
      Leg.map (l.currencies.renumber l'.currencies) <$> l.legOf day posting := by
  have hamount : posting.amount.mapM l'.resolveAmount =
      Option.map (Amount.map (l.currencies.renumber l'.currencies)) <$>
        posting.amount.mapM l.resolveAmount := by
    cases posting.amount with
    | none => rfl
    | some a =>
      rw [Option.mapM_some, Option.mapM_some, h.resolveAmount]
      simp only [Functor.map_map, Option.map_some]
  unfold Ledger.legOf Ledger.resolveAccount
  rw [hamount, h.accounts]
  simp only [bind_map_left, map_bind, map_pure, Leg.map]

theorem transactionOf (day : Date) (header : Header) (postings : List Posting) :
    l'.transactionOf day header postings =
      Transaction.map (l.currencies.renumber l'.currencies) <$>
        l.transactionOf day header postings := by
  have hname : (fun c => l'.currencies.nameOf (l.currencies.renumber l'.currencies c)) =
      l.currencies.nameOf := funext (CurrencyTable.nameOf_renumber h.codes)
  unfold Ledger.transactionOf
  rw [mapM_renamed (h.legOf day)]
  simp only [bind_map_left, map_bind]
  refine bind_congr fun legs => ?_
  rw [Transaction.ofLegs_map (CurrencyTable.renumber_injective h.codes)]
  cases Transaction.ofLegs header legs with
  | ok t => rfl
  | error error =>
    change Except.error
      (StatementError.balance ((error.map (l.currencies.renumber l'.currencies)).map _)) = _
    rw [BalanceError.map_map, hname]
    rfl

theorem error_iff (day : Date) (header : Header) (postings : List Posting)
    (error : StatementError) : l'.transactionOf day header postings = .error error ↔
      l.transactionOf day header postings = .error error := by
  rw [h.transactionOf]
  cases l.transactionOf day header postings <;> simp [Functor.map, Except.map]

theorem exists_transactionOf {day : Date} {header : Header} {postings : List Posting}
    {t : Transaction Int} (ht : l.transactionOf day header postings = .ok t) :
    ∃ t', l'.transactionOf day header postings = .ok t' ∧
      t'.map l'.currencies.label = t.map l.currencies.label ∧
      t'.exchanges.map (fun e => l'.format e.amount) =
        t.exchanges.map fun e => l.format e.amount := by
  have hlabel : (fun c => l'.currencies.label (l.currencies.renumber l'.currencies c)) =
      l.currencies.label := funext (CurrencyTable.label_renumber h.codes)
  refine ⟨t.map (l.currencies.renumber l'.currencies), ?_, ?_, ?_⟩
  · rw [h.transactionOf, ht]
    rfl
  · rw [Transaction.map_map, hlabel]
  · rw [Transaction.map, List.map_map]
    exact List.map_congr_left fun e _ => CurrencyTable.format_renumber h.codes e.amount

end Renumbers

/-- Balancing goes by the names of the currencies and by nothing else. Under other names that stay
distinct it gives the same transaction or the same error under those names, and a transaction has
the same totals, anchor and issues. Ledgers that number the same codes in different orders make the
same transaction of a statement, amount by amount as displayed, or fail with the same error. -/
theorem balance_ignores_numbering :
    (∀ (κ μ : Type) [DecidableEq κ] [DecidableEq μ] (f : κ → μ), Function.Injective f →
      (∀ (header : Header) (legs : List (Leg κ)),
        Transaction.ofLegs header (legs.map (Leg.map f)) =
          Transaction.map f <$> (Transaction.ofLegs header legs).mapError (BalanceError.map f)) ∧
      ∀ t : Transaction κ,
        (t.map f).sum = Option.map (Amount.map f) <$> t.sum.mapError (ArithmeticError.map f) ∧
        (t.map f).totalDebited = t.totalDebited.mapError (ArithmeticError.map f) ∧
        (t.map f).totalCredited = t.totalCredited.mapError (ArithmeticError.map f) ∧
        (t.map f).anchor? = t.anchor?.map f ∧
        ∀ check, (t.map f).issues check = (t.issues check).map (Issue.map f) ∧
          ((t.map f).issues check).map Issue.kind = (t.issues check).map Issue.kind) ∧
    ∀ l l' : Ledger, l.accounts = l'.accounts →
      l.currencies.codes.names.Perm l'.currencies.codes.names →
      ∀ (day : Date) (header : Header) (postings : List Posting),
        (∀ error, l'.transactionOf day header postings = .error error ↔
          l.transactionOf day header postings = .error error) ∧
        ∀ t, l.transactionOf day header postings = .ok t →
          ∃ t', l'.transactionOf day header postings = .ok t' ∧
            t'.map l'.currencies.label = t.map l.currencies.label ∧
            t'.exchanges.map (fun e => l'.format e.amount) =
              t.exchanges.map fun e => l.format e.amount := by
  constructor
  · intro κ μ _ _ f hf
    refine ⟨Transaction.ofLegs_map hf, fun t => ⟨Transaction.sum_map hf t,
      Transaction.totalBy_map (Transaction.addDebit_map hf) t,
      Transaction.totalBy_map (Transaction.subCredit_map hf) t, Transaction.anchor?_map t,
      fun check => ⟨Transaction.issues_map hf t check, ?_⟩⟩⟩
    rw [Transaction.issues_map hf, List.map_map]
    exact List.map_congr_left fun issue _ => Transaction.kind_map issue
  · intro l l' haccounts hcodes day header postings
    have h : l.Renumbers l' := ⟨haccounts, hcodes⟩
    exact ⟨h.error_iff day header postings, fun t ht => h.exists_transactionOf ht⟩

def till : AccountName := ⟨.assets, ["Till"], by decide, by decide⟩

def tillDay : Date := ⟨2018, 8, 14, by decide, by decide, by decide⟩

/-- A ledger with one account and these codes. -/
def tillWith (codes : List String) : Ledger :=
  { empty false with
    accounts := (AccountRegistry.empty.openAt till tillDay).1
    currencies := CurrencyTable.empty.declareAll codes }

/-- Euros at a price in dollars, and an amount that is left out. -/
def tillPostings : List Posting :=
  [⟨till, some ⟨⟨false, 250, -2⟩, "EUR", [⟨⟨false, 11, -1⟩, "USD"⟩]⟩⟩, ⟨till, none⟩]

def tillTransaction : Transaction Int :=
  ⟨.settled, none, "Exchange",
    [⟨⟨.assets, [0]⟩, ⟨⟨false, 250, -2⟩, 0, [⟨⟨false, 11, -1⟩, 1⟩]⟩, false⟩,
      ⟨⟨.assets, [0]⟩, ⟨⟨true, 250, -2⟩, 0, []⟩, true⟩]⟩

/-- Exchanging the two indices renames the currencies of the transaction. -/
def swapIndices (c : Int) : Int := 1 - c

theorem balance_ignores_numbering_till :
    let l := tillWith ["EUR", "USD"]
    let l' := tillWith ["USD", "EUR"]
    (Function.Injective swapIndices ∧
      (tillTransaction.map swapIndices).anchor? = some 1 ∧
      (tillTransaction.map swapIndices).totalDebited =
        tillTransaction.totalDebited.mapError (ArithmeticError.map swapIndices)) ∧
    l.accounts = l'.accounts ∧ l.currencies.codes.names.Perm l'.currencies.codes.names ∧
    l.transactionOf tillDay ⟨.settled, none, "Exchange"⟩ tillPostings = .ok tillTransaction ∧
    ∃ t', l'.transactionOf tillDay ⟨.settled, none, "Exchange"⟩ tillPostings = .ok t' ∧
      t'.exchanges.map (fun e => l'.format e.amount) = ["2.50 EUR @ 1.1 USD", "-2.50 EUR"] := by
  intro l l'
  obtain ⟨hrenamed, hnumbered⟩ := balance_ignores_numbering
  have hinjective : Function.Injective swapIndices := by
    intro c c' h
    unfold swapIndices at h
    omega
  obtain ⟨_, htotals⟩ := hrenamed Int Int swapIndices hinjective
  obtain ⟨_, hdebited, _, hanchor, _⟩ := htotals tillTransaction
  have hcodes : l.currencies.codes.names.Perm l'.currencies.codes.names := by decide +kernel
  have hok := toOption_eq_some_iff.1 (by decide +kernel :
    (l.transactionOf tillDay ⟨.settled, none, "Exchange"⟩ tillPostings).toOption =
      some tillTransaction)
  obtain ⟨_, hsame⟩ := hnumbered l l' rfl hcodes tillDay ⟨.settled, none, "Exchange"⟩ tillPostings
  obtain ⟨t', ht', _, hformat⟩ := hsame tillTransaction hok
  refine ⟨⟨hinjective, hanchor, hdebited⟩, rfl, hcodes, hok, t', ht', hformat.trans ?_⟩
  decide +kernel

end Ledger
end DoubleEntry
