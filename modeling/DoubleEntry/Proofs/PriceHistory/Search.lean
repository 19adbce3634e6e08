import DoubleEntry.PriceHistory.Search
import DoubleEntry.Proofs.Collection.Halving
import DoubleEntry.Proofs.PriceHistory.Quotes

/-! Searching the quotes of a pair by halving finds the same places as going through them in order.
-/
namespace DoubleEntry

namespace Quote

variable {quote : Quote} {quotes : List Quote} {day : Date} {low high : Nat}

theorem turnsOnce_of_chronological (hsorted : Chronological Quote.day quotes) (day : Date) :
    TurnsOnce (·.day ≤ day) quotes :=
  hsorted.imp fun hle hday => decide_eq_true (Nat.le_trans hle (of_decide_eq_true hday))

theorem encloses_searchBetween (hsorted : Chronological Quote.day quotes) (hle : low ≤ high)
    (hhigh : high ≤ quotes.length) (h : Encloses (·.day ≤ day) quotes low high) :
    let place := searchBetween quotes day low high hhigh
    Encloses (·.day ≤ day) quotes place place := by
  have hturns := turnsOnce_of_chronological hsorted day
  fun_induction searchBetween quotes day low high hhigh with
  | case1 low high hhigh hlow hafter ih =>
    exact ih (by omega) (h.lower hturns _ (decide_eq_false (Date.not_le.2 hafter)))
  | case2 low high hhigh hlow hupTo ih =>
    exact ih (by omega) (h.raise hturns _ (decide_eq_true (Date.not_lt.1 hupTo)))
  | case3 low high hhigh hlow =>
    obtain rfl : low = high := by omega
    exact h

theorem encloses_search (hsorted : Chronological Quote.day quotes) (day : Date) :
    Encloses (·.day ≤ day) quotes (search quotes day) (search quotes day) :=
  encloses_searchBetween hsorted (Nat.zero_le _) _ (encloses_all _ quotes)

theorem insert_append {front back : List Quote} (hfront : ∀ q ∈ front, q.day ≤ quote.day)
    (hback : ∀ q ∈ back, quote.day < q.day) :
    quote.insert (front ++ back) = front ++ quote :: back := by
  induction front with
  | nil =>
    cases back with
    | nil => rfl
    | cons next back => simp [insert, hback next (by simp)]
  | cons next front ih =>
    have hnext : ¬ quote.day < next.day := Date.not_lt.2 (hfront next (by simp))
    simp only [List.cons_append, insert, if_neg hnext, ih fun q hq => hfront q (by simp [hq])]

theorem insertBySearch_eq (hsorted : Chronological Quote.day quotes) (quote : Quote) :
    quote.insertBySearch quotes = quote.insert quotes := by
  have h := encloses_search hsorted quote.day
  have hfront := fun q hq => of_decide_eq_true (h.front q hq)
  have hback := fun q hq => Date.not_le.1 (of_decide_eq_false (h.back q hq))
  unfold insertBySearch
  rw [← insert_append hfront hback, List.take_append_drop]

theorem latestBySearch?_eq (hsorted : Chronological Quote.day quotes) (day : Date) :
    latestBySearch? quotes day = latest? quotes day := by
  have h := encloses_search hsorted day
  unfold latestBySearch? latest?
  rw [h.takeWhile_eq, List.getLast?_take]
  have hbound := h.bound
  cases hplace : search quotes day with
  | zero => rfl
  | succ place =>
    have hlt : place < quotes.length := by omega
    simp [List.getElem?_eq_getElem hlt]

end Quote
end DoubleEntry
