import DoubleEntry.Proofs.Ledger.Books

/-! The price history of a ledger is that of the price declarations in its books. -/
namespace DoubleEntry

/-- The quote that a declaration makes if it is of the pair. -/
def PriceDeclaration.quoteOf (pair : CurrencyPair) (entry : Date × PriceDeclaration) :
    Option Quote :=
  if (quotation entry).1 = pair then some (quotation entry).2 else none

theorem PriceDeclaration.day_of_quoteOf {pair : CurrencyPair} (entry : Date × PriceDeclaration)
    (quote : Quote) (h : quoteOf pair entry = some quote) : quote.day = entry.1 := by
  unfold quoteOf at h
  split at h
  · cases h
    rfl
  · contradiction

theorem PriceHistory.quotesAmong_map (pair : CurrencyPair)
    (declared : List (Date × PriceDeclaration)) :
    quotesAmong pair (declared.map PriceDeclaration.quotation) =
      declared.filterMap (PriceDeclaration.quoteOf pair) := by
  unfold quotesAmong
  rw [← List.filterMap_eq_filter, List.map_filterMap, List.filterMap_map]
  apply List.filterMap_congr
  intro entry _
  by_cases h : (PriceDeclaration.quotation entry).1 = pair <;>
    simp [PriceDeclaration.quoteOf, Option.guard, h]

namespace Ledger

variable {l : Ledger} {filed : List (Date × Entry)}

/-- The price declarations in the books, day by day. -/
def declarations (l : Ledger) : List (Date × PriceDeclaration) :=
  l.books.entries.flatMap fun (day, book) => book.prices.map (day, ·)

theorem declaredQuotes_eq (l : Ledger) (pair : CurrencyPair) :
    l.declaredQuotes pair = l.declarations.filterMap (PriceDeclaration.quoteOf pair) := by
  obtain ⟨base, target⟩ := pair
  unfold declaredQuotes declarations
  rw [List.filterMap_flatMap]
  apply List.flatMap_congr
  rintro ⟨day, book⟩ _
  simp only
  rw [← List.filterMap_eq_filter, List.map_filterMap, List.filterMap_map]
  apply List.filterMap_congr
  intro d _
  by_cases h : d.currency = base ∧ d.price.currency = target <;>
    simp [PriceDeclaration.quoteOf, PriceDeclaration.quotation, Option.guard, h]

theorem Keeps.declarations_eq (h : l.Keeps filed) :
    l.declarations = chronicle (·.1) (filed.filterMap (selectOn Entry.declaration?)) :=
  h.flatMap_books fun _ => rfl

/-- Sorting the declarations by day sorts the quotes of each pair. -/
theorem Keeps.declaredQuotes_eq (h : l.Keeps filed) (pair : CurrencyPair) :
    l.declaredQuotes pair =
      chronicle Quote.day (PriceHistory.quotesAmong pair
        ((filed.filterMap (selectOn Entry.declaration?)).map PriceDeclaration.quotation)) := by
  rw [Ledger.declaredQuotes_eq, h.declarations_eq, PriceHistory.quotesAmong_map]
  exact filterMap_chronicle PriceDeclaration.day_of_quoteOf _

theorem Keeps.get?_quotes (h : l.Keeps filed) (pair : CurrencyPair) :
    l.prices.quotes.get? pair =
      if l.declaredQuotes pair = [] then none else some (l.declaredQuotes pair) := by
  rw [h.prices, PriceHistory.get?_ofQuotes, h.declaredQuotes_eq]
  simp only [chronicle_eq_nil_iff]

theorem Keeps.size_prices (h : l.Keeps filed) : l.prices.size = l.declarations.length := by
  rw [h.prices, PriceHistory.size_ofQuotes, List.length_map, h.declarations_eq, length_chronicle]

/-- Wherever a run has led, in memory as in the ledger, the history has for each pair the quotes
that the books declare, day by day, and has no other pairs and no other quotes. -/
theorem quotes_of_run (verbose : Bool) (requests : List LedgerRequest) :
    let l := (empty verbose).serveAll requests
    (LedgerTables.empty verbose).serveAll requests = l.tables ∧
      (∀ pair, l.prices.quotes.get? pair =
        if l.declaredQuotes pair = [] then none else some (l.declaredQuotes pair)) ∧
      (∀ pair, pair ∈ l.prices.pairs ↔ l.declaredQuotes pair ≠ []) ∧
      l.prices.size = l.declarations.length := by
  intro l
  obtain ⟨filed, hkeeps⟩ :=
    ((empty verbose).applied_serveAll requests).exists_keeps (keeps_empty verbose)
  have hpairs (pair : CurrencyPair) :
      pair ∈ l.prices.pairs ↔ l.declaredQuotes pair ≠ [] := by
    unfold PriceHistory.pairs
    rw [SortedMap.mem_keys_iff, hkeeps.get?_quotes]
    by_cases hnone : l.declaredQuotes pair = []
    · rw [if_pos hnone]
      exact iff_of_false Bool.false_ne_true (not_not_intro hnone)
    · rw [if_neg hnone]
      exact iff_of_true rfl hnone
  exact ⟨(empty verbose).serveAll_tables requests, hkeeps.get?_quotes, hpairs, hkeeps.size_prices⟩

end Ledger
end DoubleEntry
