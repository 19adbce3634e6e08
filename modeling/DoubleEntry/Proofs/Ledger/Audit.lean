import DoubleEntry.Proofs.Ledger.Books
import DoubleEntry.Proofs.Ledger.Filing
import DoubleEntry.Proofs.Transaction.Audit

/-! The audit of a ledger: it lists the transactions that do not balance, and judges every
transaction by exact arithmetic, because whatever was filed with a leg has a written amount. -/
namespace DoubleEntry.Ledger

variable {l last : Ledger} {statement : Statement} {day : Date} {t : Transaction Int}

theorem mem_transactions_iff {entry : Date × Transaction Int} :
    entry ∈ l.transactions ↔ (entry.1, .transaction entry.2) ∈ l.entries := by
  unfold transactions entries
  rw [List.mem_flatMap, List.mem_flatMap]
  apply exists_congr
  rintro ⟨day, book⟩
  apply and_congr_right
  intro _
  simp [DayBook.entries, Prod.ext_iff, and_comm]

theorem exists_anchor_of_entryOf? (h : l.entryOf? statement = some (day, .transaction t))
    (hne : t.exchanges ≠ []) : ∃ anchor, t.anchor? = some anchor := by
  cases entryOf?_eq_some_iff.1 h with
  | transaction ht =>
    obtain ⟨legs, _, hlegs⟩ := exists_legs_of_transactionOf ht
    exact Transaction.exists_anchor_of_ofLegs hlegs hne

/-- A filed transaction with a leg has a written amount. -/
theorem Applied.exists_anchor {verbose : Bool} {statements : List Statement}
    (h : (empty verbose).Applied statements l) {entry : Date × Transaction Int}
    (hmem : entry ∈ l.transactions) (hne : entry.2.exchanges ≠ []) :
    ∃ anchor, entry.2.anchor? = some anchor := by
  have hnot : (entry.1, .transaction entry.2) ∉ (empty verbose).entries := List.not_mem_nil
  obtain ⟨f⟩ := h.exists_filing hnot (mem_transactions_iff.1 hmem)
  exact exists_anchor_of_entryOf? f.entry hne

theorem audit_eq (l : Ledger) (check : BalanceCheck) :
    l.audit check = (l.transactions.filter fun entry => !entry.2.isBalanced check).map
      fun entry => (entry.1, entry.2, entry.2.issues check) := by
  unfold audit
  rw [← List.filterMap_eq_filter, List.map_filterMap]
  apply List.filterMap_congr
  intro entry _
  unfold Transaction.isBalanced
  cases hissues : (entry.2.issues check).isEmpty <;> simp [Option.guard, hissues]

/-- Wherever a run has led, in memory as in the ledger, the audit lists in their order the
transactions that do not balance, with what it finds in each. A transaction balances where it has
two exchanges at least and the exact sum of what these are worth in the currency of the first
written amount is zero, provided that each of them can be expressed there and that no total on the
way leaves the precision. -/
theorem audit_of_run (verbose : Bool) (requests : List LedgerRequest) :
    let l := (empty verbose).serveAll requests
    (LedgerTables.empty verbose).serveAll requests = l.tables ∧
      (∀ entry ∈ l.transactions, ∃ anchor,
        (entry.2.exchanges ≠ [] → entry.2.anchor? = some anchor) ∧ entry.2.AuditedIn anchor) ∧
      l.audit .withSum = (l.transactions.filter fun entry => !entry.2.isBalanced .withSum).map
        fun entry => (entry.1, entry.2, entry.2.issues .withSum) := by
  intro l
  have happlied := (empty verbose).applied_serveAll requests
  refine ⟨(empty verbose).serveAll_tables requests, ?_, l.audit_eq .withSum⟩
  intro entry hmem
  have hanchor : ∃ anchor, entry.2.exchanges ≠ [] → entry.2.anchor? = some anchor := by
    by_cases hne : entry.2.exchanges = []
    · exact ⟨0, fun h => absurd hne h⟩
    · obtain ⟨anchor, hanchor⟩ := happlied.exists_anchor hmem hne
      exact ⟨anchor, fun _ => hanchor⟩
  obtain ⟨anchor, hanchor⟩ := hanchor
  exact ⟨anchor, hanchor, Transaction.auditedIn_of_anchor? hanchor⟩

def hotel : AccountName := ⟨.expenses, ["Hotel"], by decide, by decide⟩

/-- A hotel paid in one currency and written in another, at a price. -/
def hotelRequests : List LedgerRequest :=
  LedgerTables.rentBooks ++
    [.process (.unit "EUR"), .process (.openAccount LedgerTables.rentDay hotel),
      .process (.transaction LedgerTables.rentDay ⟨.settled, none, "Hotel"⟩
        [⟨LedgerTables.bank, some ⟨⟨true, 110, 0⟩, "USD", []⟩⟩,
          ⟨hotel, some ⟨⟨false, 100, 0⟩, "EUR", [⟨⟨false, 11, -1⟩, "USD"⟩]⟩⟩])]

def hotelPaid : Transaction Int :=
  ⟨.settled, none, "Hotel",
    [⟨⟨.assets, [0]⟩, ⟨⟨true, 110, 0⟩, 0, []⟩, false⟩,
      ⟨⟨.expenses, [1]⟩, ⟨⟨false, 100, 0⟩, 1, [⟨⟨false, 11, -1⟩, 0⟩]⟩, false⟩]⟩

/-- It balances in the currency of the payment. -/
theorem audit_of_run_hotel :
    let l := (empty false).serveAll hotelRequests
    (LedgerTables.rentDay, hotelPaid) ∈ l.transactions ∧ hotelPaid.exchanges ≠ [] ∧
      ∃ worths, Amount.AddUp 0 hotelPaid.amounts worths ∧ worths.sum = 0 := by
  have hmem : (LedgerTables.rentDay, hotelPaid) ∈
      ((empty false).serveAll hotelRequests).transactions := by decide +kernel
  have hne : hotelPaid.exchanges ≠ [] := List.cons_ne_nil _ _
  obtain ⟨_, haudit, _⟩ := audit_of_run false hotelRequests
  obtain ⟨anchor, hanchor, haudited⟩ := haudit _ hmem
  cases hanchor hne
  have hbalanced : hotelPaid.isBalanced .withSum = true := by decide +kernel
  exact ⟨hmem, hne, (haudited.balanced.1 hbalanced).2⟩

end DoubleEntry.Ledger
