import DoubleEntry.Collection.NameTable
import DoubleEntry.Collection.SortedMap
import DoubleEntry.Date
import DoubleEntry.Decimal.Numeral

/-! What currencies were worth in others, day by day. A quote holds until the next one. -/
namespace DoubleEntry

instance : KeyOrder Date where
  irrefl _ := Nat.lt_irrefl _
  trans := Nat.lt_trans
  eq_of_not_lt h h' := Date.number_inj (Nat.le_antisymm (Nat.not_lt.1 h') (Nat.not_lt.1 h))

/-- One unit of the first currency is quoted in the second. -/
structure CurrencyPair where
  base : Int
  target : Int
  deriving DecidableEq, Repr

namespace CurrencyPair

instance : LT CurrencyPair :=
  ⟨fun a b => a.base < b.base ∨ (a.base = b.base ∧ a.target < b.target)⟩

instance (a b : CurrencyPair) : Decidable (a < b) :=
  inferInstanceAs (Decidable (a.base < b.base ∨ (a.base = b.base ∧ a.target < b.target)))

theorem lt_iff (a b : CurrencyPair) :
    a < b ↔ a.base < b.base ∨ (a.base = b.base ∧ a.target < b.target) := Iff.rfl

instance : KeyOrder CurrencyPair where
  irrefl a := by simp [lt_iff]
  trans {a b c} := by simp only [lt_iff]; omega
  eq_of_not_lt {a b} := by
    obtain ⟨base, target⟩ := a
    obtain ⟨base', target'⟩ := b
    simp only [lt_iff, mk.injEq]
    omega

end CurrencyPair

/-- A price is kept as it was quoted, whether it is a finite number or not. -/
structure Quote where
  day : Date
  price : Numeral
  deriving DecidableEq, Repr

namespace Quote

/-- Puts a quote behind all quotes up to its day. -/
def insert (quote : Quote) : List Quote → List Quote
  | [] => [quote]
  | next :: rest =>
    if quote.day < next.day then quote :: next :: rest else next :: insert quote rest

/-- The last of the quotes up to a day. -/
def latest? (quotes : List Quote) (day : Date) : Option Numeral :=
  ((quotes.takeWhile (·.day ≤ day)).getLast?).map (·.price)

end Quote

/-- Puts a day in its place among ascending days, unless it is there already. -/
def insertDay (day : Date) : List Date → List Date
  | [] => [day]
  | next :: rest =>
    if day < next then day :: next :: rest
    else if day = next then next :: rest
    else next :: insertDay day rest

structure PriceHistory where
  quotes : SortedMap CurrencyPair (List Quote)

namespace PriceHistory

def empty : PriceHistory := ⟨.empty⟩

def add (h : PriceHistory) (pair : CurrencyPair) (quote : Quote) : PriceHistory :=
  ⟨h.quotes.alter pair fun quotes => quote.insert (quotes.getD [])⟩

def quotesOf (h : PriceHistory) (pair : CurrencyPair) : List Quote := (h.quotes.get? pair).getD []

/-- The worth of one unit on a day; a currency is always worth one of itself. -/
def priceAt? (h : PriceHistory) (pair : CurrencyPair) (day : Date) : Option Numeral :=
  if pair.base = pair.target then some (.finite .one) else Quote.latest? (h.quotesOf pair) day

def pairs (h : PriceHistory) : List CurrencyPair := h.quotes.keys

/-- The number of quotes. -/
def size (h : PriceHistory) : Nat := (h.quotes.entries.flatMap (·.2)).length

/-- The days with a quote, of some pairs only where currencies are given, in ascending order. -/
def days (h : PriceHistory) (base target : Option Int) : List Date :=
  let wanted := h.quotes.entries.filter fun entry =>
    base.all (· = entry.1.base) && target.all (· = entry.1.target)
  (wanted.flatMap fun entry => entry.2.map (·.day)).foldl (fun days day => insertDay day days) []

def summary (h : PriceHistory) : String :=
  "PriceHistory(" ++ toString h.pairs.length ++ " pairs, " ++ toString h.size ++ " quotes)"

end PriceHistory
end DoubleEntry
