import DoubleEntry.Proofs.PriceHistory.Search

/-! What a history answers is the latest quote, in whatever order the quotes came in. -/
namespace DoubleEntry

namespace Quote

variable {quote q : Quote} {quotes : List Quote} {day : Date}

/-! ## The latest of quotes in any order -/

theorem latestUpTo_append (day : Date) (quotes : List Quote) (quote : Quote) :
    latestUpTo day (quotes ++ [quote]) =
      if quote.day ≤ day ∧ (latestUpTo day quotes).all (·.day ≤ quote.day) then some quote
      else latestUpTo day quotes := by
  unfold latestUpTo
  rw [List.foldl_append]
  rfl

theorem IsLatest.day_le (h : IsLatest day quotes quote) (hq : q ∈ quotes) (hday : q.day ≤ day) :
    q.day ≤ quote.day := by
  obtain ⟨before, behind, rfl, -, hbefore, hbehind⟩ := h
  rcases List.mem_append.1 hq with hq | hq
  · exact hbefore q hq hday
  · rcases List.mem_cons.1 hq with rfl | hq
    · exact Nat.le.refl
    · exact Nat.le_of_lt (hbehind q hq hday)

theorem isLatest_append_self (hday : quote.day ≤ day)
    (h : ∀ q ∈ quotes, q.day ≤ day → q.day ≤ quote.day) : IsLatest day (quotes ++ [quote]) quote :=
  ⟨quotes, [], rfl, hday, h, by simp⟩

theorem IsLatest.append (h : IsLatest day quotes quote)
    (hlast : q.day ≤ day → q.day < quote.day) : IsLatest day (quotes ++ [q]) quote := by
  obtain ⟨before, behind, rfl, hday, hbefore, hbehind⟩ := h
  refine ⟨before, behind ++ [q], by simp, hday, hbefore, ?_⟩
  intro other hother
  rcases List.mem_append.1 hother with hother | hother
  · exact hbehind other hother
  · rw [List.mem_singleton.1 hother]
    exact hlast

/-- Of two quotes in different places, both cannot be the latest. -/
theorem IsLatest.unique (h : IsLatest day quotes quote) (h' : IsLatest day quotes q) :
    quote = q := by
  obtain ⟨before, behind, rfl, hday, hbefore, hbehind⟩ := h
  obtain ⟨before', behind', heq, hday', hbefore', hbehind'⟩ := h'
  -- in different places, the one in front would have to be later than the one behind it
  rcases List.append_eq_append_iff.1 heq with ⟨between, rfl, htail⟩ | ⟨between, rfl, htail⟩
  · cases between with
    | nil => exact (List.cons.inj htail).1
    | cons next between =>
      obtain ⟨rfl, rfl⟩ := List.cons.inj htail
      have hlt := hbehind q (by simp) hday'
      exact absurd (hbefore' quote (by simp) hday) (Date.not_le.2 hlt)
  · cases between with
    | nil => exact (List.cons.inj htail).1.symm
    | cons next between =>
      obtain ⟨rfl, rfl⟩ := List.cons.inj htail
      have hlt := hbehind' quote (by simp) hday
      exact absurd (hbefore q (by simp) hday') (Date.not_le.2 hlt)

/-- One scan over the quotes finds the latest, and nothing only where there is none. -/
theorem latestUpTo_spec (day : Date) (quotes : List Quote) :
    (∀ quote, latestUpTo day quotes = some quote → IsLatest day quotes quote) ∧
      (latestUpTo day quotes = none → ∀ quote ∈ quotes, ¬ quote.day ≤ day) := by
  induction quotes using List.reverseRecOn with
  | nil => exact ⟨fun quote h => by contradiction, fun _ => by simp⟩
  | append_singleton quotes last ih =>
    obtain ⟨hlatest, hnone⟩ := ih
    rw [latestUpTo_append]
    split
    · rename_i hwins
      refine ⟨?_, fun h => by contradiction⟩
      rintro quote ⟨⟩
      -- whatever counted before is no later than the best of it
      apply isLatest_append_self hwins.1
      intro q hq hday
      cases hbest : latestUpTo day quotes with
      | none => exact absurd hday (hnone hbest q hq)
      | some best =>
        have hle : best.day ≤ last.day := by simpa [hbest] using hwins.2
        exact Nat.le_trans ((hlatest best hbest).day_le hq hday) hle
    · rename_i hloses
      constructor
      · intro quote hbest
        apply (hlatest quote hbest).append
        intro hday
        apply Date.not_le.1
        intro hle
        apply hloses
        rw [hbest]
        exact ⟨hday, decide_eq_true hle⟩
      · intro hbest q hq
        rcases List.mem_append.1 hq with hq | hq
        · exact hnone hbest q hq
        · rw [List.mem_singleton.1 hq]
          exact fun hday => hloses ⟨hday, by simp [hbest]⟩

theorem latestUpTo_eq_some_iff :
    latestUpTo day quotes = some quote ↔ IsLatest day quotes quote := by
  obtain ⟨hlatest, hnone⟩ := latestUpTo_spec day quotes
  apply Iff.intro (hlatest quote)
  intro h
  cases hbest : latestUpTo day quotes with
  | none =>
    obtain ⟨before, behind, rfl, hday, -, -⟩ := h
    exact absurd hday (hnone hbest quote (by simp))
  | some best => rw [(hlatest best hbest).unique h]

theorem latestUpTo_eq_none_iff :
    latestUpTo day quotes = none ↔ ∀ quote ∈ quotes, ¬ quote.day ≤ day := by
  apply Iff.intro (latestUpTo_spec day quotes).2
  intro h
  cases hbest : latestUpTo day quotes with
  | none => rfl
  | some best =>
    obtain ⟨before, behind, rfl, hday, -, -⟩ := latestUpTo_eq_some_iff.1 hbest
    exact absurd hday (h best (by simp))

/-! ## The latest of quotes in the order of their days -/

/-- The last of the quotes up to a day. -/
def lastUpTo (quotes : List Quote) (day : Date) : Option Quote :=
  (quotes.takeWhile (·.day ≤ day)).getLast?

theorem lastUpTo_cons (next : Quote) (quotes : List Quote) (day : Date) :
    lastUpTo (next :: quotes) day =
      if next.day ≤ day then some ((lastUpTo quotes day).getD next) else none := by
  unfold lastUpTo
  by_cases hnext : next.day ≤ day
  · have hcons : (next :: quotes).takeWhile (·.day ≤ day) =
        next :: quotes.takeWhile (·.day ≤ day) :=
      List.takeWhile_cons_of_pos (decide_eq_true hnext)
    rw [hcons, List.getLast?_cons, if_pos hnext]
  · have hnil : (next :: quotes).takeWhile (·.day ≤ day) = [] :=
      List.takeWhile_cons_of_neg (by simpa using hnext)
    rw [hnil, if_neg hnext]
    rfl

theorem mem_of_lastUpTo (h : lastUpTo quotes day = some quote) : quote ∈ quotes :=
  (List.takeWhile_sublist _).subset (List.mem_of_getLast? h)

theorem day_le_of_lastUpTo (h : lastUpTo quotes day = some quote) : quote.day ≤ day := by
  have hall := List.all_eq_true.1 List.all_takeWhile quote (List.mem_of_getLast? h)
  exact of_decide_eq_true hall

/-- Wherever a quote is inserted, it is the last up to a day where no other up to that day is later.
-/
theorem lastUpTo_insert (hsorted : Chronological Quote.day quotes) (quote : Quote) (day : Date) :
    lastUpTo (quote.insert quotes) day =
      if quote.day ≤ day ∧ (lastUpTo quotes day).all (·.day ≤ quote.day) then some quote
      else lastUpTo quotes day := by
  induction quotes with
  | nil =>
    have hnone : lastUpTo [] day = none := rfl
    simp only [insert, lastUpTo_cons, hnone, Option.getD_none, Option.all_none, and_true]
  | cons next quotes ih =>
    simp only [insert]
    split
    · -- in front of all others, the quote counts only where none of them is up to the day
      rename_i hlt
      rw [lastUpTo_cons quote]
      cases hbest : lastUpTo (next :: quotes) day with
      | none => simp
      | some best =>
        have hafter : quote.day < best.day :=
          Nat.lt_of_lt_of_le hlt (hsorted.day_le (mem_of_lastUpTo hbest))
        have hday : quote.day ≤ day :=
          Nat.le_of_lt (Nat.lt_of_lt_of_le hafter (day_le_of_lastUpTo hbest))
        have hlater : ¬ best.day ≤ quote.day := Date.not_le.2 hafter
        simp [hday, hlater]
    · rename_i hlt
      have hle : next.day ≤ quote.day := Date.not_lt.1 hlt
      rw [lastUpTo_cons, lastUpTo_cons, ih (List.pairwise_cons.1 hsorted).2]
      by_cases hnext : next.day ≤ day
      · rw [if_pos hnext, if_pos hnext]
        cases hbest : lastUpTo quotes day with
        | none => by_cases hday : quote.day ≤ day <;> simp [hday, hle]
        | some best =>
          by_cases hwins : quote.day ≤ day ∧ best.day ≤ quote.day <;> simp [hwins]
      · have hday : ¬ quote.day ≤ day := fun h => hnext (Nat.le_trans hle h)
        simp [hnext, hday]

/-- Sorted by their days, the quotes have the latest of them in its place. -/
theorem latest?_chronicle (quotes : List Quote) (day : Date) :
    latest? (chronicle Quote.day quotes) day = (latestUpTo day quotes).map (·.price) := by
  have hlast : lastUpTo (chronicle Quote.day quotes) day = latestUpTo day quotes := by
    induction quotes using List.reverseRecOn with
    | nil => rw [chronicle_eq_nil_iff.2 rfl]; rfl
    | append_singleton quotes last ih =>
      rw [← insert_chronicle, lastUpTo_insert (chronological_chronicle Quote.day quotes), ih,
        latestUpTo_append]
  rw [← hlast]
  rfl

end Quote

namespace PriceHistory

open Quote (IsLatest)

variable (added : List (CurrencyPair × Quote)) (pair : CurrencyPair)

theorem quotesOf_ofQuotes :
    (ofQuotes added).quotesOf pair = chronicle Quote.day (quotesAmong pair added) := by
  unfold quotesOf
  rw [get?_ofQuotes]
  by_cases hnil : quotesAmong pair added = []
  · rw [if_pos hnil, hnil]
    exact (chronicle_eq_nil_iff.2 rfl).symm
  · rw [if_neg hnil]
    rfl

theorem priceAt?_ofQuotes {pair : CurrencyPair} (hne : pair.base ≠ pair.target) (day : Date) :
    (ofQuotes added).priceAt? pair day =
      (Quote.latestUpTo day (quotesAmong pair added)).map (·.price) := by
  unfold priceAt?
  rw [if_neg hne, quotesOf_ofQuotes, Quote.latest?_chronicle]

/-- In a history that came about by adding, every place is found by halving. -/
theorem addBySearch_eq (quote : Quote) :
    (ofQuotes added).addBySearch pair quote = (ofQuotes added).add pair quote := by
  have hsorted : Chronological Quote.day (((ofQuotes added).quotes.get? pair).getD []) := by
    have hquotes := quotesOf_ofQuotes added pair
    unfold quotesOf at hquotes
    rw [hquotes]
    exact chronological_chronicle Quote.day _
  unfold addBySearch add
  congr 1
  apply SortedMap.ext_get?
  intro pair'
  rw [SortedMap.get?_alter, SortedMap.get?_alter, Quote.insertBySearch_eq hsorted]

theorem ofQuotesBySearch_eq : ofQuotesBySearch added = ofQuotes added := by
  induction added using List.reverseRecOn with
  | nil => rfl
  | append_singleton added last ih =>
    obtain ⟨pair, quote⟩ := last
    have hstep : ofQuotesBySearch (added ++ [(pair, quote)]) =
        (ofQuotesBySearch added).addBySearch pair quote := by
      unfold ofQuotesBySearch
      rw [List.foldl_append]
      rfl
    rw [hstep, ih, addBySearch_eq, ofQuotes_append]

theorem priceBySearch?_eq (day : Date) :
    (ofQuotes added).priceBySearch? pair day = (ofQuotes added).priceAt? pair day := by
  have hsorted : Chronological Quote.day ((ofQuotes added).quotesOf pair) := by
    rw [quotesOf_ofQuotes]
    exact chronological_chronicle Quote.day _
  unfold priceBySearch? priceAt?
  rw [Quote.latestBySearch?_eq hsorted]

/-- Whatever quotes were added in whatever order, those of a pair stand by day, and those of one day
in the order in which they were added. The price of a currency in another on a day is that of the
latest quote of just this pair: of the latest day that is not after the day asked for, and among its
quotes of the one added last; there is none where no such quote was added. Quotes of other pairs
play no part, and searching by halving, for places and for prices, comes to the same. -/
theorem prices_are_latest (added : List (CurrencyPair × Quote)) (pair : CurrencyPair) :
    (Chronological Quote.day ((ofQuotes added).quotesOf pair) ∧
        ((ofQuotes added).quotesOf pair).Perm (quotesAmong pair added) ∧
        ∀ day, itemsOn Quote.day day ((ofQuotes added).quotesOf pair) =
          itemsOn Quote.day day (quotesAmong pair added)) ∧
      (pair.base ≠ pair.target → ∀ day,
        (∀ price, (ofQuotes added).priceAt? pair day = some price ↔
          ∃ quote, IsLatest day (quotesAmong pair added) quote ∧ quote.price = price) ∧
        ((ofQuotes added).priceAt? pair day = none ↔
          ∀ quote ∈ quotesAmong pair added, ¬ quote.day ≤ day) ∧
        ∀ added', quotesAmong pair added' = quotesAmong pair added →
          (ofQuotes added').priceAt? pair day = (ofQuotes added).priceAt? pair day) ∧
      ofQuotesBySearch added = ofQuotes added ∧
      ∀ day, (ofQuotes added).priceBySearch? pair day = (ofQuotes added).priceAt? pair day := by
  refine ⟨?_, ?_, ofQuotesBySearch_eq added, priceBySearch?_eq added pair⟩
  · rw [quotesOf_ofQuotes]
    exact ⟨chronological_chronicle Quote.day _, List.mergeSort_perm _ _,
      fun day => itemsOn_chronicle day _⟩
  · intro hne day
    have hprice := priceAt?_ofQuotes added hne day
    refine ⟨?_, ?_, ?_⟩
    · intro price
      rw [hprice, Option.map_eq_some_iff]
      simp only [Quote.latestUpTo_eq_some_iff]
    · rw [hprice, Option.map_eq_none_iff, Quote.latestUpTo_eq_none_iff]
    · intro added' hsame
      rw [hprice, priceAt?_ofQuotes added' hne, hsame]

def firstDay : Date := ⟨2019, 11, 6, by decide, by decide, by decide⟩
def secondDay : Date := ⟨2019, 11, 18, by decide, by decide, by decide⟩

/-- The later day is quoted first, and once more after the earlier one; the last quote is that of
the pair turned around. -/
def quotedTwice : List (CurrencyPair × Quote) :=
  [(⟨0, 1⟩, ⟨secondDay, .finite ⟨false, 118, -2⟩⟩), (⟨0, 1⟩, ⟨firstDay, .finite ⟨false, 12, -1⟩⟩),
    (⟨0, 1⟩, ⟨secondDay, .finite ⟨false, 119, -2⟩⟩), (⟨1, 0⟩, ⟨secondDay, .finite ⟨false, 84, -2⟩⟩)]

/-- On the later day, its second quote holds. -/
theorem prices_are_latest_quotedTwice :
    (ofQuotes quotedTwice).priceAt? ⟨0, 1⟩ secondDay = some (.finite ⟨false, 119, -2⟩) := by
  obtain ⟨-, hprices, -⟩ := prices_are_latest quotedTwice ⟨0, 1⟩
  obtain ⟨hprice, -⟩ := hprices (by decide) secondDay
  apply (hprice _).2
  exact ⟨_, ⟨[⟨secondDay, .finite ⟨false, 118, -2⟩⟩, ⟨firstDay, .finite ⟨false, 12, -1⟩⟩], [], rfl,
    by decide, by decide, by decide⟩, rfl⟩

end PriceHistory
end DoubleEntry
