import DoubleEntry.PriceHistory

/-! Quotes found by halving: where a quote goes, and which one holds on a day, without a look at
every quote. -/
namespace DoubleEntry

namespace Quote

/-- Where the quotes up to a day end, if the ones before `low` are up to the day and the ones from
`high` on are not. -/
def searchBetween (quotes : List Quote) (day : Date) (low high : Nat) (h : high ≤ quotes.length) :
    Nat :=
  if hlow : low < high then
    if day < (quotes[(low + high) / 2]).day then
      searchBetween quotes day low ((low + high) / 2) (by omega)
    else searchBetween quotes day ((low + high) / 2 + 1) high h
  else low
termination_by high - low

def search (quotes : List Quote) (day : Date) : Nat :=
  searchBetween quotes day 0 quotes.length Nat.le.refl

def insertBySearch (quote : Quote) (quotes : List Quote) : List Quote :=
  let place := search quotes quote.day
  quotes.take place ++ quote :: quotes.drop place

def latestBySearch? (quotes : List Quote) (day : Date) : Option Numeral :=
  match search quotes day with
  | 0 => none
  | place + 1 => (quotes[place]?).map (·.price)

end Quote

namespace PriceHistory

def addBySearch (h : PriceHistory) (pair : CurrencyPair) (quote : Quote) : PriceHistory :=
  ⟨h.quotes.alter pair fun quotes => quote.insertBySearch (quotes.getD [])⟩

/-- The history of quotes added one after another, each in a place found by halving. -/
def ofQuotesBySearch (quotes : List (CurrencyPair × Quote)) : PriceHistory :=
  quotes.foldl (fun h (pair, quote) => h.addBySearch pair quote) empty

def priceBySearch? (h : PriceHistory) (pair : CurrencyPair) (day : Date) : Option Numeral :=
  if pair.base = pair.target then some (.finite .one)
  else Quote.latestBySearch? (h.quotesOf pair) day

end PriceHistory
end DoubleEntry
