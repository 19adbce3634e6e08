import Mathlib.Data.List.TakeWhile

/-! Searching by halving: in a list that turns once, the items of a property stand in front of the
others. -/
namespace DoubleEntry

variable {α : Type} {p : α → Bool} {items : List α} {low high middle : Nat}

/-- In front of an item with the property all have it. -/
def TurnsOnce (p : α → Bool) (items : List α) : Prop :=
  items.Pairwise fun a b => p b = true → p a = true

/-- The items in front of the one place have the property, and those from the other place on do
not. -/
structure Encloses (p : α → Bool) (items : List α) (low high : Nat) : Prop where
  bound : high ≤ items.length
  front : ∀ a ∈ items.take low, p a = true
  back : ∀ a ∈ items.drop high, p a = false

theorem encloses_all (p : α → Bool) (items : List α) : Encloses p items 0 items.length :=
  ⟨Nat.le_refl _, by simp, by simp⟩

namespace Encloses

theorem lower (h : Encloses p items low high) (hturns : TurnsOnce p items)
    (hmiddle : middle < items.length) (hback : p items[middle] = false) :
    Encloses p items low middle where
  bound := Nat.le_of_lt hmiddle
  front := h.front
  back := by
    -- where the property is over, it does not come back
    have hrest : TurnsOnce p (items.drop middle) := List.Pairwise.drop hturns
    rw [TurnsOnce, List.drop_eq_getElem_cons hmiddle, List.pairwise_cons] at hrest
    rw [List.drop_eq_getElem_cons hmiddle, List.forall_mem_cons]
    refine ⟨hback, fun a ha => Bool.eq_false_iff.2 fun hfront => ?_⟩
    rw [hrest.1 a ha hfront] at hback
    contradiction

theorem raise (h : Encloses p items low high) (hturns : TurnsOnce p items)
    (hmiddle : middle < items.length) (hfront : p items[middle] = true) :
    Encloses p items (middle + 1) high where
  bound := h.bound
  front := by
    have hpassed : TurnsOnce p (items.take (middle + 1)) := List.Pairwise.take hturns
    rw [TurnsOnce, List.take_succ_eq_append_getElem hmiddle, List.pairwise_append] at hpassed
    rw [List.take_succ_eq_append_getElem hmiddle, List.forall_mem_append]
    exact ⟨fun a ha => hpassed.2.2 a ha _ (List.mem_singleton_self _) hfront, by simpa⟩
  back := h.back

/-- Where the places meet is where the property ends. -/
theorem takeWhile_eq (h : Encloses p items low low) : items.takeWhile p = items.take low := by
  have hback : (items.drop low).takeWhile p = [] := by
    rw [List.takeWhile_eq_nil_iff]
    intro hlength
    exact Bool.eq_false_iff.1 (h.back _ (List.getElem_mem hlength))
  calc
    items.takeWhile p
    _ = (items.take low ++ items.drop low).takeWhile p := by rw [List.take_append_drop]
    _ = items.take low := by rw [List.takeWhile_append_of_pos h.front, hback, List.append_nil]

end Encloses

end DoubleEntry
