import Mathlib.Data.List.Induction
import DoubleEntry.PriceHistory.Latest
import DoubleEntry.Proofs.Collection.Chronology

/-! The quotes of a history: those of a pair stand in the order of their days, and those of one day
in the order in which they were added. -/
namespace DoubleEntry

namespace Quote

variable {quote other : Quote} {quotes : List Quote}

theorem mem_insert : other ∈ quote.insert quotes ↔ other = quote ∨ other ∈ quotes := by
  induction quotes with
  | nil => simp [insert]
  | cons next rest ih =>
    simp only [insert]
    split
    · exact List.mem_cons
    · simp only [List.mem_cons, ih]
      exact or_left_comm

theorem chronological_insert (h : Chronological day quotes) :
    Chronological day (quote.insert quotes) := by
  induction quotes with
  | nil => exact List.pairwise_singleton _ quote
  | cons next rest ih =>
    obtain ⟨habove, hrest⟩ := List.pairwise_cons.1 h
    simp only [insert]
    split
    · rename_i hlt
      apply List.pairwise_cons.2
      constructor
      · intro other hother
        exact Nat.le_trans (Nat.le_of_lt hlt) (h.day_le hother)
      · exact h
    · rename_i hle
      apply List.pairwise_cons.2
      constructor
      · intro other hother
        rcases mem_insert.1 hother with rfl | hother
        · exact Nat.le_of_not_lt hle
        · exact habove other hother
      · exact ih hrest

/-- A quote goes behind the others of its day. -/
theorem itemsOn_insert (h : Chronological day quotes) (d : Date) :
    itemsOn day d (quote.insert quotes) = itemsOn day d quotes ++ itemsOn day d [quote] := by
  induction quotes with
  | nil => rfl
  | cons next rest ih =>
    obtain ⟨habove, hrest⟩ := List.pairwise_cons.1 h
    simp only [insert]
    split
    · rename_i hlt
      by_cases hd : quote.day = d
      · have hnone : itemsOn day d (next :: rest) = [] := by
          apply itemsOn_eq_nil
          intro other hother hday
          have hle := h.day_le hother
          rw [hday, ← hd] at hle
          exact Nat.not_lt.2 hle hlt
        rw [hnone, List.nil_append, ← hd, itemsOn_cons_self, hd, hnone]
        simp [itemsOn, hd]
      · simp [itemsOn, hd]
    · by_cases hd : next.day = d
      · rw [← hd, itemsOn_cons_self, itemsOn_cons_self, hd, ih hrest, List.cons_append]
      · rw [itemsOn_cons_of_ne hd, itemsOn_cons_of_ne hd, ih hrest]

theorem insert_chronicle (quote : Quote) (quotes : List Quote) :
    quote.insert (chronicle day quotes) = chronicle day (quotes ++ [quote]) := by
  have hsorted := chronological_chronicle day quotes
  apply (chronological_insert hsorted).eq_chronicle
  intro d
  rw [itemsOn_insert hsorted, itemsOn_chronicle, itemsOn_append]

theorem insert_comm_of_lt {quote other : Quote} (h : quote.day < other.day) (quotes : List Quote) :
    quote.insert (other.insert quotes) = other.insert (quote.insert quotes) := by
  have hback : ¬other.day < quote.day := fun hlt => KeyOrder.irrefl _ (KeyOrder.trans h hlt)
  induction quotes with
  | nil => simp [insert, h, hback]
  | cons next rest ih =>
    by_cases hother : other.day < next.day
    · have hquote : quote.day < next.day := KeyOrder.trans h hother
      simp [insert, h, hback, hother, hquote]
    · by_cases hquote : quote.day < next.day
      · simp [insert, hback, hother, hquote]
      · simp [insert, hother, hquote, ih]

/-- Quotes of different days find the same places in either order. -/
theorem insert_comm {quote other : Quote} (hne : quote.day ≠ other.day) (quotes : List Quote) :
    quote.insert (other.insert quotes) = other.insert (quote.insert quotes) := by
  by_cases h : quote.day < other.day
  · exact insert_comm_of_lt h quotes
  · have hlt : other.day < quote.day := by
      by_contra hback
      exact hne (KeyOrder.eq_of_not_lt h hback)
    exact (insert_comm_of_lt hlt quotes).symm

theorem length_insert (quote : Quote) (quotes : List Quote) :
    (quote.insert quotes).length = quotes.length + 1 := by
  induction quotes with
  | nil => rfl
  | cons next rest ih =>
    simp only [insert]
    split
    · rfl
    · rw [List.length_cons, ih, List.length_cons]

end Quote

namespace PriceHistory

/-- The quotes of a pair among others, in their order. -/
def quotesAmong (pair : CurrencyPair) (quotes : List (CurrencyPair × Quote)) : List Quote :=
  (quotes.filter (·.1 = pair)).map (·.2)

theorem ofQuotes_append (quotes : List (CurrencyPair × Quote)) (pair : CurrencyPair)
    (quote : Quote) : ofQuotes (quotes ++ [(pair, quote)]) = (ofQuotes quotes).add pair quote := by
  unfold ofQuotes
  rw [List.foldl_append]
  rfl

theorem quotesAmong_append (pair : CurrencyPair) (quotes : List (CurrencyPair × Quote))
    (added : CurrencyPair × Quote) :
    quotesAmong pair (quotes ++ [added]) =
      if added.1 = pair then quotesAmong pair quotes ++ [added.2] else quotesAmong pair quotes := by
  unfold quotesAmong
  by_cases h : added.1 = pair <;> simp [h]

/-- A history has a pair exactly where quotes of it were added, and has these by day. -/
theorem get?_ofQuotes (quotes : List (CurrencyPair × Quote)) (pair : CurrencyPair) :
    (ofQuotes quotes).quotes.get? pair =
      if quotesAmong pair quotes = [] then none
      else some (chronicle Quote.day (quotesAmong pair quotes)) := by
  induction quotes using List.reverseRecOn with
  | nil => rfl
  | append_singleton quotes added ih =>
    obtain ⟨pair', quote⟩ := added
    rw [ofQuotes_append, add, SortedMap.get?_alter, quotesAmong_append]
    by_cases hpair : pair' = pair
    · subst hpair
      rw [if_pos rfl, if_pos rfl, if_neg (by simp), ih, ← Quote.insert_chronicle]
      by_cases hnil : quotesAmong pair' quotes = []
      · rw [if_pos hnil, hnil, chronicle_eq_nil_iff.2 rfl]
        rfl
      · rw [if_neg hnil]
        rfl
    · rw [if_neg hpair, if_neg hpair, ih]

theorem length_alterEntries (pair : CurrencyPair) (quote : Quote)
    (entries : List (CurrencyPair × List Quote)) :
    ((SortedMap.alterEntries pair (fun quotes => quote.insert (quotes.getD [])) entries).flatMap
      (·.2)).length = (entries.flatMap (·.2)).length + 1 := by
  induction entries with
  | nil => rfl
  | cons entry rest ih =>
    simp only [SortedMap.alterEntries]
    split
    · simp only [List.flatMap_cons, List.length_append, Option.getD_some, Quote.length_insert]
      omega
    · split
      · simp only [List.flatMap_cons, List.length_append, Option.getD_none, Quote.length_insert,
          List.length_nil]
        omega
      · simp only [List.flatMap_cons, List.length_append, ih]
        omega

theorem add_comm (h : PriceHistory) (pair pair' : CurrencyPair) {quote quote' : Quote}
    (hne : quote.day ≠ quote'.day) :
    (h.add pair quote).add pair' quote' = (h.add pair' quote').add pair quote := by
  unfold add
  by_cases hpair : pair = pair'
  · subst hpair
    simp only [SortedMap.alter_alter, Option.getD_some, Quote.insert_comm hne]
  · rw [SortedMap.alter_comm _ hpair]

theorem size_ofQuotes (quotes : List (CurrencyPair × Quote)) :
    (ofQuotes quotes).size = quotes.length := by
  induction quotes using List.reverseRecOn with
  | nil => rfl
  | append_singleton quotes added ih =>
    obtain ⟨pair, quote⟩ := added
    rw [ofQuotes_append, List.length_append, ← ih]
    exact length_alterEntries pair quote (ofQuotes quotes).quotes.entries

end PriceHistory
end DoubleEntry
