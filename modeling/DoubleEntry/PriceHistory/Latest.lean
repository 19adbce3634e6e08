import DoubleEntry.PriceHistory

/-! The latest of quotes that came in any order. -/
namespace DoubleEntry

/-- A later quote wins over an earlier one, and of the quotes of one day the one added last. -/
def Quote.latestUpTo (day : Date) (quotes : List Quote) : Option Quote :=
  quotes.foldl (fun best quote =>
    if quote.day ≤ day ∧ best.all (·.day ≤ quote.day) then some quote else best) none

/-- The quote that holds on a day, of quotes in the order in which they were added: no quote up to
the day is later, and of the others of its own day none was added behind it. -/
def Quote.IsLatest (day : Date) (quotes : List Quote) (quote : Quote) : Prop :=
  ∃ before behind, quotes = before ++ quote :: behind ∧ quote.day ≤ day ∧
    (∀ other ∈ before, other.day ≤ day → other.day ≤ quote.day) ∧
    ∀ other ∈ behind, other.day ≤ day → other.day < quote.day

/-- The history of quotes added one after another. -/
def PriceHistory.ofQuotes (quotes : List (CurrencyPair × Quote)) : PriceHistory :=
  quotes.foldl (fun h (pair, quote) => h.add pair quote) empty

end DoubleEntry
