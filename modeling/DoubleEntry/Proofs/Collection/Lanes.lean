import Mathlib.Data.List.Basic

/-! Lists whose items run in lanes. Items of different lanes may change places; an item without a
lane stands across all of them. -/
namespace DoubleEntry

variable {α κ : Type} {lane? : α → Option κ}

/-- An item is in its own lane; one without a lane is in every lane. -/
def InLane (lane? : α → Option κ) (lane : κ) (a : α) : Prop :=
  lane? a = none ∨ lane? a = some lane

theorem inLane_getD [Inhabited κ] (lane? : α → Option κ) (a : α) :
    InLane lane? ((lane? a).getD default) a := by
  unfold InLane
  cases lane? a <;> simp

theorem exists_lane_of_not_inLane {lane : κ} {a : α} (h : ¬InLane lane? lane a) :
    ∃ lane', lane? a = some lane' ∧ lane' ≠ lane := by
  obtain ⟨hnone, hlane⟩ := not_or.1 h
  obtain ⟨lane', hlane'⟩ := Option.ne_none_iff_exists'.1 hnone
  refine ⟨lane', hlane', ?_⟩
  rintro rfl
  exact hlane hlane'

/-! ## Steps -/

section

variable {σ : Type} {step : σ → α → σ}

/-- Steps for items of different lanes may be taken in either order. -/
def StepsCommute (lane? : α → Option κ) (step : σ → α → σ) : Prop :=
  ∀ {a b : α} {lane lane' : κ}, lane? a = some lane → lane? b = some lane' → lane ≠ lane' →
    ∀ s, step (step s a) b = step (step s b) a

theorem StepsCommute.foldl_front [Inhabited κ] (hstep : StepsCommute lane? step) {a : α}
    {front : List α} (hfront : ∀ lane, InLane lane? lane a → ∀ b ∈ front, ¬InLane lane? lane b)
    (s : σ) : front.foldl step (step s a) = step (front.foldl step s) a := by
  induction front generalizing s with
  | nil => rfl
  | cons b front ih =>
    obtain ⟨hb, hfront⟩ := forall₂_and.1 fun lane ha => List.forall_mem_cons.1 (hfront lane ha)
    obtain ⟨own, hown, hne⟩ := exists_lane_of_not_inLane (hb _ (inLane_getD lane? a))
    have hswap : step (step s a) b = step (step s b) a := by
      cases ha : lane? a with
      | none => exact absurd (.inr hown) (hb own (.inl ha))
      | some lane =>
        rw [ha] at hne
        exact hstep ha hown hne.symm s
    rw [List.foldl_cons, List.foldl_cons, hswap, ih hfront]

end

/-! ## Lists in lanes -/

variable [DecidableEq κ] {items items' : List α}

instance (lane? : α → Option κ) (lane : κ) (a : α) : Decidable (InLane lane? lane a) :=
  inferInstanceAs (Decidable (_ ∨ _))

/-- The items in one lane, in their order. -/
def itemsIn (lane? : α → Option κ) (lane : κ) (items : List α) : List α :=
  items.filter (InLane lane? lane ·)

/-- The same items, in the same order in every lane. -/
def Reordered (lane? : α → Option κ) (items items' : List α) : Prop :=
  ∀ lane, itemsIn lane? lane items = itemsIn lane? lane items'

section

variable {lane : κ} {a : α}

theorem itemsIn_cons_of_inLane (h : InLane lane? lane a) (items : List α) :
    itemsIn lane? lane (a :: items) = a :: itemsIn lane? lane items :=
  List.filter_cons_of_pos (decide_eq_true h)

theorem itemsIn_cons_of_not_inLane (h : ¬InLane lane? lane a) (items : List α) :
    itemsIn lane? lane (a :: items) = itemsIn lane? lane items :=
  List.filter_cons_of_neg (by simpa using h)

theorem itemsIn_eq_nil (h : ∀ a ∈ items, ¬InLane lane? lane a) : itemsIn lane? lane items = [] :=
  List.filter_eq_nil_iff.2 fun a ha => by simpa using h a ha

theorem itemsIn_append (lane : κ) (items items' : List α) :
    itemsIn lane? lane (items ++ items') = itemsIn lane? lane items ++ itemsIn lane? lane items' :=
  List.filter_append items items'

end

/-! ## Comparing finitely many lanes -/

/-- In a lane that no item has are the items without a lane. -/
theorem itemsIn_of_unused {lane : κ} (h : lane ∉ items.filterMap lane?) (lane' : κ) :
    itemsIn lane? lane items = (itemsIn lane? lane' items).filter (lane? · = none) := by
  unfold itemsIn
  rw [List.filter_filter]
  apply List.filter_congr
  intro a ha
  have hunused : lane? a ≠ some lane := fun hlane => h (List.mem_filterMap.2 ⟨a, ha, hlane⟩)
  have hiff : InLane lane? lane a ↔ lane? a = none ∧ InLane lane? lane' a := by
    unfold InLane
    tauto
  simp [hiff]

/-- Only the lanes of the items have to be compared, and one more. -/
theorem reordered_iff [Inhabited κ] :
    Reordered lane? items items' ↔ ∀ lane ∈ default :: (items ++ items').filterMap lane?,
      itemsIn lane? lane items = itemsIn lane? lane items' := by
  constructor
  · intro h lane _
    exact h lane
  · intro h lane
    by_cases hlane : lane ∈ (items ++ items').filterMap lane?
    · exact h lane (List.mem_cons_of_mem _ hlane)
    · rw [List.filterMap_append, List.mem_append, not_or] at hlane
      rw [itemsIn_of_unused hlane.1 default, itemsIn_of_unused hlane.2 default,
        h default List.mem_cons_self]

instance [Inhabited κ] [DecidableEq α] : Decidable (Reordered lane? items items') :=
  decidable_of_iff _ reordered_iff.symm

/-! ## Steps along reordered lists -/

namespace Reordered

theorem refl (items : List α) : Reordered lane? items items := fun _ => rfl

theorem cons (a : α) (h : Reordered lane? items items') :
    Reordered lane? (a :: items) (a :: items') := by
  intro lane
  unfold itemsIn
  rw [List.filter_cons, List.filter_cons]
  split
  · exact congrArg _ (h lane)
  · exact h lane

theorem eq_nil [Inhabited κ] (h : Reordered lane? [] items') : items' = [] := by
  cases items' with
  | nil => rfl
  | cons b items' =>
    have hb := h ((lane? b).getD default)
    rw [itemsIn_cons_of_inLane (inLane_getD lane? b)] at hb
    contradiction

/-- The first item of one list stands in the other behind items of other lanes only, and is the
first there too if it has no lane. -/
theorem exists_front [Inhabited κ] {a : α} (h : Reordered lane? (a :: items) items') :
    ∃ front back, items' = front ++ a :: back ∧
      ∀ lane, InLane lane? lane a → ∀ b ∈ front, ¬InLane lane? lane b := by
  have ha := h ((lane? a).getD default)
  rw [itemsIn_cons_of_inLane (inLane_getD lane? a)] at ha
  obtain ⟨front, back, rfl, hfront, -, -⟩ := List.filter_eq_cons_iff.1 ha.symm
  simp only [decide_eq_true_eq] at hfront
  refine ⟨front, back, rfl, ?_⟩
  cases hown : lane? a with
  | some own =>
    rintro lane (hnone | hlane)
    · rw [hown] at hnone
      contradiction
    · rw [hown] at hfront hlane
      cases hlane
      exact hfront
  | none =>
    cases front with
    | nil => simp
    | cons b front =>
      -- in the lane of what stands in front of it, the item would have to come first
      obtain ⟨own, hb, _⟩ := exists_lane_of_not_inLane (hfront b List.mem_cons_self)
      have hfirst := h own
      rw [itemsIn_cons_of_inLane (.inl hown), List.cons_append,
        itemsIn_cons_of_inLane (.inr hb)] at hfirst
      rw [(List.cons.inj hfirst).1, hb] at hown
      contradiction

theorem tail {a : α} {front back : List α} (h : Reordered lane? (a :: items) (front ++ a :: back))
    (hfront : ∀ lane, InLane lane? lane a → ∀ b ∈ front, ¬InLane lane? lane b) :
    Reordered lane? items (front ++ back) := by
  intro lane
  have hlane := h lane
  rw [itemsIn_append] at hlane ⊢
  by_cases ha : InLane lane? lane a
  · rw [itemsIn_cons_of_inLane ha, itemsIn_cons_of_inLane ha, itemsIn_eq_nil (hfront lane ha),
      List.nil_append] at hlane
    rw [itemsIn_eq_nil (hfront lane ha), List.nil_append]
    exact (List.cons.inj hlane).2
  · rwa [itemsIn_cons_of_not_inLane ha, itemsIn_cons_of_not_inLane ha] at hlane

/-- Lists that are the same in every lane lead to the same state. The induction brings the first
item of one list to the front of the other, past items of other lanes. -/
theorem foldl_eq [Inhabited κ] {σ : Type} {step : σ → α → σ} (h : Reordered lane? items items')
    (hstep : StepsCommute lane? step) (s : σ) : items.foldl step s = items'.foldl step s := by
  induction items generalizing items' s with
  | nil => rw [h.eq_nil]
  | cons a items ih =>
    obtain ⟨front, back, rfl, hfront⟩ := h.exists_front
    rw [List.foldl_cons, ih (h.tail hfront), List.foldl_append, List.foldl_append,
      List.foldl_cons, hstep.foldl_front hfront]

/-- Where items bring items of their own lane, those without a lane may bring items of any. -/
theorem flatMap {β : Type} {lane?' : β → Option κ} {f f' : α → List β}
    (h : Reordered lane? items items') (hf' : ∀ a, Reordered lane?' (f a) (f' a))
    (hf : ∀ {a lane}, lane? a = some lane → ∀ b ∈ f a, lane?' b = some lane) :
    Reordered lane?' (items.flatMap f) (items'.flatMap f') := by
  intro lane
  have hown (items : List α) : itemsIn lane?' lane (items.flatMap f) =
      itemsIn lane?' lane ((itemsIn lane? lane items).flatMap f) := by
    induction items with
    | nil => rfl
    | cons a items ih =>
      rw [List.flatMap_cons, itemsIn_append, ih]
      by_cases ha : InLane lane? lane a
      · rw [itemsIn_cons_of_inLane ha, List.flatMap_cons, itemsIn_append]
      · obtain ⟨own, hown, hne⟩ := exists_lane_of_not_inLane ha
        have hnone : itemsIn lane?' lane (f a) = [] := by
          apply itemsIn_eq_nil
          intro b hb
          simp [InLane, hf hown b hb, hne]
        rw [itemsIn_cons_of_not_inLane ha, hnone, List.nil_append]
  have hother (items : List α) :
      itemsIn lane?' lane (items.flatMap f) = itemsIn lane?' lane (items.flatMap f') := by
    induction items with
    | nil => rfl
    | cons a items ih =>
      rw [List.flatMap_cons, List.flatMap_cons, itemsIn_append, itemsIn_append, hf' a lane, ih]
  rw [hown items, h lane, ← hown items', hother]

end Reordered
end DoubleEntry
