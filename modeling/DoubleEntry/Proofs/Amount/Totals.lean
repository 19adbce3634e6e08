import DoubleEntry.Proofs.Amount.Exact
import DoubleEntry.Proofs.Collection.Traversal

/-! Totals of amounts. A total is the sum of what the amounts are worth in its currency, and there
is none where one of the sums on the way does not fit. -/
namespace DoubleEntry.Amount

open Decimal (Representable)

/-! ## Sums that fit -/

theorem totalsFit_append {start : ℚ} {xs ys : List ℚ} :
    TotalsFit start (xs ++ ys) ↔ TotalsFit start xs ∧ TotalsFit (start + xs.sum) ys := by
  induction xs generalizing start with
  | nil => simp [TotalsFit]
  | cons x xs ih =>
    rw [List.cons_append, TotalsFit, TotalsFit, ih, and_assoc, List.sum_cons, add_assoc]

/-- Going back to zero passes through every sum of last numbers, with the other sign. -/
theorem totalsFit_neg_sum_iff {ws : List ℚ} :
    Representable (-ws.sum) ∧ TotalsFit (-ws.sum) ws ↔
      ∀ tail, tail <:+ ws → Representable tail.sum := by
  induction ws with
  | nil => simp [TotalsFit, Decimal.representable_zero]
  | cons w ws ih =>
    have hrest : -(w :: ws).sum + w = -ws.sum := by
      rw [List.sum_cons]
      ring
    rw [TotalsFit, hrest, ih, Decimal.representable_neg_iff]
    simp only [List.suffix_cons_iff, forall_eq_or_imp]

/-- The last total is one of those that fit. -/
theorem representable_of_totalsFit {start : ℚ} {worths : List ℚ} (hstart : Representable start)
    (h : TotalsFit start worths) : Representable (start + worths.sum) := by
  induction worths generalizing start with
  | nil => simpa using hstart
  | cons q worths ih =>
    rw [List.sum_cons, ← add_assoc]
    exact ih h.1 h.2

/-! ## Zero -/

variable {κ : Type}

theorem toRat_zero (currency : κ) : (zero currency).nominal.toRat = 0 :=
  Decimal.toRat_eq_zero_iff.2 rfl

theorem isZero_iff {a : Amount κ} : a.isZero = true ↔ a.nominal.toRat = 0 := by
  rw [Decimal.toRat_eq_zero_iff]
  exact decide_eq_true_iff

variable [DecidableEq κ] {anchor : κ} {a : Amount κ} {amounts : List (Amount κ)} {worths : List ℚ}

/-- What fits can be taken from zero. -/
theorem exists_zero_sub {q : ℚ} (hfits : Representable q) (h : a.Denotes q anchor []) :
    ∃ r, (zero anchor).sub a = .ok r ∧ r.Denotes (-q) anchor [] := by
  have hworth : a.worth? anchor = some q := by rw [worth?_of_eq h.currency, h.value]
  have hdifference := (zero anchor).sub_outcome a
  rw [toRat_zero] at hdifference
  have hnone (error : ArithmeticError κ) : ¬ a.SubtractionRefused anchor 0 error := by
    intro hrefused
    cases hrefused with
    | negation hnegation =>
      obtain ⟨hnot⟩ := hnegation
      rw [h.value] at hnot
      exact hnot hfits.neg
    | conversion _ hconversion => exact hconversion.not_convertsExactly (.inl h.currency)
    | inexact _ _ hworth' hnot =>
      cases hworth.symm.trans hworth'
      rw [zero_sub] at hnot
      exact hnot hfits.neg
  obtain ⟨r, hr, q', hworth', hvalue⟩ := hdifference.exists_ok hnone
  rw [zero_sub] at hvalue
  have hsame : q' = q := Option.some.inj (hworth'.symm.trans hworth)
  exact ⟨r, hr, hsame ▸ hvalue⟩

/-! ## Runs -/

/-- All amounts can be expressed in a currency, where they are worth so much, and every total on the
way from zero fits the precision. -/
structure AddUp (anchor : κ) (amounts : List (Amount κ)) (worths : List ℚ) : Prop where
  worth : amounts.map (·.worth? anchor) = worths.map some
  convert : ∀ a ∈ amounts, a.ConvertsExactly anchor
  fit : TotalsFit 0 worths

theorem AddUp.eq_of_worth {worths' : List ℚ} (h : AddUp anchor amounts worths)
    (hworths : amounts.map (·.worth? anchor) = worths'.map some) : worths = worths' := by
  apply List.map_injective_iff.2 (Option.some_injective ℚ)
  exact h.worth.symm.trans hworths

theorem AddUp.unique {worths' : List ℚ} (h : AddUp anchor amounts worths)
    (h' : AddUp anchor amounts worths') : worths = worths' :=
  h.eq_of_worth h'.worth

/-- After an amount that can be added, a run is refused where the rest of it is. -/
theorem runRefused_cons_iff {total q : ℚ} {error : ArithmeticError κ}
    (hadds : a.Adds anchor total q) :
    RunRefused anchor total (a :: amounts) error ↔ RunRefused anchor (total + q) amounts error := by
  constructor
  · intro h
    cases h with
    | here h => exact absurd hadds h.not_adds
    | later hadds' h => rwa [hadds.unique hadds']
  · exact .later hadds

theorem addAll_outcome (total : Amount κ) (amounts : List (Amount κ)) :
    Outcome (total.addAll amounts) (RunRefused total.currency total.nominal.toRat amounts) fun r =>
      ∃ worths, amounts.map (·.worth? total.currency) = worths.map some ∧
        (∀ a ∈ amounts, a.ConvertsExactly total.currency) ∧
        TotalsFit total.nominal.toRat worths ∧
        r.Denotes (total.nominal.toRat + worths.sum) total.currency total.prices := by
  induction amounts generalizing total with
  | nil =>
    apply Outcome.of_ok (a := total) rfl
    · rintro error ⟨⟩
    · exact ⟨[], rfl, by simp, trivial, by simp, rfl, rfl⟩
  | cons a rest ih =>
    unfold addAll
    rw [List.foldlM_cons]
    apply (total.add_outcome a).bind
    · intro first hfirst error h
      cases h with
      | here h => exact h
      | later hadds => exact absurd hadds hfirst.not_adds
    · exact fun error => .here
    · -- the next total is in the same currency, so the rest of the run is one in this currency
      rintro - next ⟨q, hadds, hnext⟩
      have hrest := ih next
      rw [hnext.value, hnext.currency, hnext.prices] at hrest
      apply hrest.imp fun error => (runRefused_cons_iff hadds).symm
      rintro r ⟨worths, hworths, hconverts, hfits, hr⟩
      refine ⟨q :: worths, ?_, ?_, ⟨hadds.fits, hfits⟩, ?_⟩
      · rw [List.map_cons, hadds.worth, hworths, List.map_cons]
      · exact List.forall_mem_cons.2 ⟨hadds.converts, hconverts⟩
      · rwa [List.sum_cons, ← add_assoc]

theorem addAll_zero_outcome (anchor : κ) (amounts : List (Amount κ)) :
    Outcome ((zero anchor).addAll amounts) (RunRefused anchor 0 amounts) fun total =>
      ∃ worths, AddUp anchor amounts worths ∧ total.Denotes worths.sum anchor [] := by
  have htotal := (zero anchor).addAll_outcome amounts
  rw [toRat_zero] at htotal
  apply htotal.imp fun _ => Iff.rfl
  rintro total ⟨worths, hworths, hconverts, hfits, hvalue⟩
  rw [zero_add] at hvalue
  exact ⟨worths, ⟨hworths, hconverts, hfits⟩, hvalue⟩

section

variable {total : ℚ} {error : ArithmeticError κ}

/-- A run is refused at an amount that does not convert or at a total that does not fit. -/
theorem RunRefused.not_totalsFit (h : RunRefused anchor total amounts error)
    (hworths : amounts.map (·.worth? anchor) = worths.map some)
    (hconvert : ∀ a ∈ amounts, a.ConvertsExactly anchor) : ¬ TotalsFit total worths := by
  induction h generalizing worths with
  | here h =>
    obtain ⟨q, worths, rfl, hworth, -⟩ := List.map_eq_cons_iff.1 hworths.symm
    rintro ⟨hfits, -⟩
    exact h.not_adds ⟨hconvert _ List.mem_cons_self, hworth.symm, hfits⟩
  | later hadds h ih =>
    obtain ⟨q, worths, rfl, hworth, hrest⟩ := List.map_eq_cons_iff.1 hworths.symm
    cases hworth.trans hadds.worth
    rintro ⟨-, hfits⟩
    exact ih hrest.symm (List.forall_mem_cons.1 hconvert).2 hfits

theorem RunRefused.not_addUp (h : RunRefused anchor 0 amounts error) :
    ¬ ∃ worths, AddUp anchor amounts worths := by
  rintro ⟨worths, haddUp⟩
  exact h.not_totalsFit haddUp.worth haddUp.convert haddUp.fit

/-- Where everything converts, only a total can be refused. -/
theorem RunRefused.eq_inexact (h : RunRefused anchor total amounts error)
    (hconvert : ∀ a ∈ amounts, a.ConvertsExactly anchor) : error = .inexact .addition := by
  induction h with
  | here h =>
    cases h with
    | conversion h => exact absurd (hconvert _ List.mem_cons_self) h.not_convertsExactly
    | inexact => rfl
  | later hadds h ih => exact ih (List.forall_mem_cons.1 hconvert).2

end

/-! ## Amounts that convert -/

/-- Can be expressed in a currency, and is worth so much in it. -/
def Converts (target : κ) (a : Amount κ) (q : ℚ) : Prop :=
  ∃ r, a.convertTo target = .ok r ∧ r.nominal.toRat = q

theorem converts_iff {q : ℚ} :
    Converts anchor a q ↔ a.worth? anchor = some q ∧ a.ConvertsExactly anchor := by
  constructor
  · rintro ⟨r, hr, rfl⟩
    exact (exists_worth_of_convertTo hr).symm
  · rintro ⟨hworth, hconverts⟩
    have hnone := not_conversionRefused_iff.2 hconverts
    obtain ⟨r, hr, -⟩ := (convertTo_outcome anchor a).exists_ok hnone
    obtain ⟨-, hworth'⟩ := exists_worth_of_convertTo hr
    rw [hworth] at hworth'
    exact ⟨r, hr, (Option.some.inj hworth').symm⟩

theorem converts_of_currency_eq (h : a.currency = anchor) : Converts anchor a a.nominal.toRat :=
  converts_iff.2 ⟨worth?_of_eq h, .inl h⟩

theorem forall₂_converts_iff :
    List.Forall₂ (Converts anchor) amounts worths ↔
      amounts.map (·.worth? anchor) = worths.map some ∧
        ∀ a ∈ amounts, a.ConvertsExactly anchor := by
  induction amounts generalizing worths with
  | nil => cases worths <;> simp
  | cons a amounts ih =>
    cases worths with
    | nil => simp
    | cons q worths =>
      rw [List.forall₂_cons, converts_iff, ih, List.map_cons, List.map_cons, List.cons.injEq,
        List.forall_mem_cons]
      exact and_and_and_comm

theorem map_worth?_of_converts (h : List.Forall₂ (Converts anchor) amounts worths) :
    amounts.map (·.worth? anchor) = worths.map some :=
  (forall₂_converts_iff.1 h).1

/-- A total of amounts that can all be expressed in its currency fails in an addition or not at
all. -/
theorem addAll_of_converts (h : List.Forall₂ (Converts anchor) amounts worths) :
    (TotalsFit 0 worths ∧
        ∃ total, (zero anchor).addAll amounts = .ok total ∧ total.Denotes worths.sum anchor []) ∨
      ¬ TotalsFit 0 worths ∧ (zero anchor).addAll amounts = .error (.inexact .addition) := by
  obtain ⟨hworths, hconvert⟩ := forall₂_converts_iff.1 h
  have hrun := addAll_zero_outcome anchor amounts
  cases hadd : (zero anchor).addAll amounts with
  | ok total =>
    obtain ⟨worths', haddUp, hvalue⟩ := hrun.wanted total hadd
    cases haddUp.eq_of_worth hworths
    exact .inl ⟨haddUp.fit, total, rfl, hvalue⟩
  | error error =>
    have hrefused := (hrun.error_iff error).1 hadd
    rw [hrefused.eq_inexact hconvert]
    exact .inr ⟨hrefused.not_totalsFit hworths hconvert, rfl⟩

end DoubleEntry.Amount
