import DoubleEntry.PriceHistory
import DoubleEntry.Proofs.Collection.SortedMap

/-! Lists in the order of days. What stands under each day determines such a list, and sorting by
day changes nothing under any one day. -/
namespace DoubleEntry

section

variable {α : Type} {day : α → Date} {items items' : List α}

/-- Days never go back. -/
def Chronological (day : α → Date) (items : List α) : Prop :=
  items.Pairwise fun a b => day a ≤ day b

/-- The items of one day, in their order. -/
def itemsOn (day : α → Date) (d : Date) (items : List α) : List α := items.filter (day · = d)

/-- The items by day, and those of one day in their order. -/
def chronicle (day : α → Date) (items : List α) : List α :=
  items.mergeSort fun a b => day a ≤ day b

theorem mem_itemsOn {d : Date} {a : α} : a ∈ itemsOn day d items ↔ a ∈ items ∧ day a = d := by
  simp [itemsOn]

theorem itemsOn_cons_self (a : α) (items : List α) :
    itemsOn day (day a) (a :: items) = a :: itemsOn day (day a) items := by
  simp [itemsOn]

theorem itemsOn_cons_of_ne {d : Date} {a : α} (h : day a ≠ d) (items : List α) :
    itemsOn day d (a :: items) = itemsOn day d items := by
  simp [itemsOn, h]

theorem itemsOn_eq_self {d : Date} (h : ∀ a ∈ items, day a = d) : itemsOn day d items = items := by
  apply List.filter_eq_self.2
  intro a ha
  exact decide_eq_true (h a ha)

theorem itemsOn_eq_nil {d : Date} (h : ∀ a ∈ items, day a ≠ d) : itemsOn day d items = [] := by
  apply List.filter_eq_nil_iff.2
  intro a ha heq
  exact h a ha (of_decide_eq_true heq)

theorem itemsOn_append (d : Date) (items items' : List α) :
    itemsOn day d (items ++ items') = itemsOn day d items ++ itemsOn day d items' :=
  List.filter_append items items'

theorem Chronological.day_le {a b : α} (h : Chronological day (b :: items)) (ha : a ∈ b :: items) :
    day b ≤ day a := by
  rcases List.mem_cons.1 ha with rfl | ha
  · exact Nat.le_refl _
  · exact List.rel_of_pairwise_cons h ha

/-- The first of one list has its day in the other list, and nothing before it. -/
theorem Chronological.day_le_of_itemsOn {a b : α} (h : Chronological day (b :: items'))
    (heq : itemsOn day (day a) (a :: items) = itemsOn day (day a) (b :: items')) :
    day b ≤ day a := by
  have hmem : a ∈ itemsOn day (day a) (b :: items') := by
    rw [← heq, itemsOn_cons_self]
    exact List.mem_cons_self
  exact h.day_le (mem_itemsOn.1 hmem).1

theorem Chronological.eq_of_itemsOn (h : Chronological day items) (h' : Chronological day items')
    (heq : ∀ d, itemsOn day d items = itemsOn day d items') : items = items' := by
  induction items generalizing items' with
  | nil =>
    cases items' with
    | nil => rfl
    | cons b items' => simpa [itemsOn] using heq (day b)
  | cons a items ih =>
    cases items' with
    | nil => simpa [itemsOn] using heq (day a)
    | cons b items' =>
      -- each of the two first items stands under its day in the other list
      have hday : day a = day b := by
        apply Date.number_inj
        apply Nat.le_antisymm
        · exact h.day_le_of_itemsOn (heq (day b)).symm
        · exact h'.day_le_of_itemsOn (heq (day a))
      have hfirst := heq (day a)
      rw [itemsOn_cons_self, hday, itemsOn_cons_self, List.cons.injEq] at hfirst
      rw [hfirst.1]
      congr 1
      apply ih h.of_cons h'.of_cons
      intro d
      by_cases hd : day b = d
      · rw [← hd]
        exact hfirst.2
      · have hrest := heq d
        rwa [itemsOn_cons_of_ne (hday ▸ hd), itemsOn_cons_of_ne hd] at hrest

/-! ## Sorting by day -/

theorem comparison_trans (a b c : α) :
    decide (day a ≤ day b) = true → decide (day b ≤ day c) = true →
      decide (day a ≤ day c) = true := by
  simp only [decide_eq_true_eq]
  exact Nat.le_trans

theorem comparison_total (a b : α) : (decide (day a ≤ day b) || decide (day b ≤ day a)) = true := by
  simp only [Bool.or_eq_true, decide_eq_true_eq]
  exact Nat.le_total _ _

theorem chronological_chronicle (day : α → Date) (items : List α) :
    Chronological day (chronicle day items) := by
  have hsorted : (chronicle day items).Pairwise fun a b => decide (day a ≤ day b) = true :=
    List.pairwise_mergeSort comparison_trans comparison_total items
  exact hsorted.imp of_decide_eq_true

theorem length_chronicle (day : α → Date) (items : List α) :
    (chronicle day items).length = items.length := List.length_mergeSort items

theorem chronicle_eq_nil_iff : chronicle day items = [] ↔ items = [] := by
  rw [← List.length_eq_zero_iff, length_chronicle, List.length_eq_zero_iff]

theorem itemsOn_chronicle (d : Date) (items : List α) :
    itemsOn day d (chronicle day items) = itemsOn day d items := by
  have hsame : (itemsOn day d items).Pairwise fun a b => decide (day a ≤ day b) = true := by
    apply List.pairwise_of_forall_mem_list
    intro a ha b hb
    rw [(mem_itemsOn.1 ha).2, (mem_itemsOn.1 hb).2]
    exact decide_eq_true (Nat.le_refl _)
  -- sorting is stable: a part of the list that is in order already stays as it is
  have hsub : (itemsOn day d items).Sublist (chronicle day items) :=
    List.sublist_mergeSort comparison_trans comparison_total hsame List.filter_sublist
  have hfiltered : (itemsOn day d items).Sublist (itemsOn day d (chronicle day items)) := by
    have hboth := hsub.filter (day · = d)
    rw [itemsOn, List.filter_filter] at hboth
    simp only [Bool.and_self] at hboth
    exact hboth
  apply Eq.symm
  apply hfiltered.eq_of_length
  exact ((List.mergeSort_perm items _).filter _).length_eq.symm

/-- A chronological list is the other one sorted if it holds the same items under each day. -/
theorem Chronological.eq_chronicle (h : Chronological day items)
    (heq : ∀ d, itemsOn day d items = itemsOn day d items') : items = chronicle day items' := by
  apply h.eq_of_itemsOn (chronological_chronicle day items')
  intro d
  rw [heq, itemsOn_chronicle]

/-! ## Items made from others of the same day -/

variable {β : Type} {day' : β → Date} {f : α → Option β}

theorem itemsOn_filterMap (h : ∀ a b, f a = some b → day' b = day a) (d : Date) (items : List α) :
    itemsOn day' d (items.filterMap f) = (itemsOn day d items).filterMap f := by
  induction items with
  | nil => rfl
  | cons a items ih =>
    by_cases hd : day a = d
    · rw [← hd, itemsOn_cons_self, hd]
      cases hf : f a with
      | none => rw [List.filterMap_cons_none hf, List.filterMap_cons_none hf, ih]
      | some b =>
        have hb : day' b = d := (h a b hf).trans hd
        rw [List.filterMap_cons_some hf, List.filterMap_cons_some hf, ← ih, ← hb, itemsOn_cons_self]
    · rw [itemsOn_cons_of_ne hd, ← ih]
      cases hf : f a with
      | none => rw [List.filterMap_cons_none hf]
      | some b =>
        have hb : day' b ≠ d := (h a b hf).symm ▸ hd
        rw [List.filterMap_cons_some hf, itemsOn_cons_of_ne hb]

theorem filterMap_chronicle (h : ∀ a b, f a = some b → day' b = day a) (items : List α) :
    (chronicle day items).filterMap f = chronicle day' (items.filterMap f) := by
  apply Chronological.eq_chronicle
  · apply (chronological_chronicle day items).filterMap
    intro a a' hle b hb b' hb'
    rwa [h a b hb, h a' b' hb']
  · intro d
    rw [itemsOn_filterMap h, itemsOn_chronicle, itemsOn_filterMap h]

end

/-! ## Days of a sorted map -/

namespace SortedMap

variable {α ν : Type} {day : α → Date} {f : Date × ν → List α}

theorem chronological_flatMap (m : SortedMap Date ν) (h : ∀ entry, ∀ a ∈ f entry, day a = entry.1) :
    Chronological day (m.entries.flatMap f) := by
  apply List.pairwise_flatMap.2
  constructor
  · intro entry _
    apply List.pairwise_of_forall_mem_list
    intro a ha b hb
    rw [h entry a ha, h entry b hb]
    exact Nat.le_refl _
  · apply m.sorted.imp
    intro entry entry' hlt a ha b hb
    rw [h entry a ha, h entry' b hb]
    exact Nat.le_of_lt hlt

/-- What the map has under a day, and nothing where it has no such key. -/
theorem itemsOn_flatMap (m : SortedMap Date ν) (h : ∀ entry, ∀ a ∈ f entry, day a = entry.1)
    (d : Date) :
    itemsOn day d (m.entries.flatMap f) = ((m.get? d).map fun v => f (d, v)).getD [] := by
  obtain ⟨entries, sorted⟩ := m
  simp only [get?]
  induction entries with
  | nil => rfl
  | cons entry rest ih =>
    obtain ⟨habove, hrest⟩ := List.pairwise_cons.1 sorted
    rw [List.flatMap_cons, itemsOn_append]
    by_cases hd : entry.1 = d
    · have hself : itemsOn day d (f entry) = f entry := by
        apply itemsOn_eq_self
        intro a ha
        exact (h entry a ha).trans hd
      -- the keys go up, so that no later entry is of this day
      have hnone : itemsOn day d (rest.flatMap f) = [] := by
        apply itemsOn_eq_nil
        intro a ha hday
        obtain ⟨entry', hentry', ha⟩ := List.mem_flatMap.1 ha
        apply KeyOrder.irrefl d
        have hlt := habove entry' hentry'
        rwa [← h entry' a ha, hday, hd] at hlt
      rw [hself, hnone, List.find?_cons_of_pos (by simpa using hd), List.append_nil, ← hd]
      rfl
    · have hnone : itemsOn day d (f entry) = [] := by
        apply itemsOn_eq_nil
        intro a ha hday
        exact hd ((h entry a ha).symm.trans hday)
      rw [hnone, List.find?_cons_of_neg (by simpa using hd), List.nil_append]
      exact ih hrest

end SortedMap
end DoubleEntry
