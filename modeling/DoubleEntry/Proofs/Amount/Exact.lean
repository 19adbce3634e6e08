import DoubleEntry.Amount.Refusal
import DoubleEntry.Proofs.Decimal.Exact

/-! Arithmetic with amounts is exact or refused: it never rounds, and it is refused only where a
price is missing or an exact result does not fit the precision. -/
namespace DoubleEntry

/-! ## Outcomes -/

namespace Outcome

variable {ε α β : Type} {result : Except ε α} {refused refused' : ε → Prop} {wanted : α → Prop}
  {wanted' : β → Prop}

theorem of_ok {a : α} (h : result = .ok a) (hnone : ∀ error, ¬ refused error) (ha : wanted a) :
    Outcome result refused wanted where
  error_iff error := by
    rw [h]
    exact iff_of_false (by simp) (hnone error)
  wanted b hb := by
    rw [h] at hb
    cases hb
    exact ha

theorem of_error {error : ε} (h : result = .error error) (honly : ∀ e, refused e ↔ e = error) :
    Outcome result refused wanted where
  error_iff e := by
    rw [h, honly, Except.error.injEq, eq_comm]
  wanted a ha := by
    rw [h] at ha
    contradiction

theorem not_refused_of_ok {a : α} (h : Outcome result refused wanted) (hresult : result = .ok a)
    (error : ε) : ¬ refused error := by
  rw [← h.error_iff, hresult]
  simp

theorem refused_iff_of_error {first : ε} (h : Outcome result refused wanted)
    (hresult : result = .error first) (error : ε) : refused error ↔ error = first := by
  rw [← h.error_iff, hresult, Except.error.injEq, eq_comm]

/-- There is a result unless there is a reason for an error. -/
theorem exists_ok (h : Outcome result refused wanted) (hnone : ∀ error, ¬ refused error) :
    ∃ a, result = .ok a ∧ wanted a := by
  cases hresult : result with
  | ok a => exact ⟨a, rfl, h.wanted a hresult⟩
  | error error => exact absurd ((h.error_iff error).1 hresult) (hnone error)

theorem imp {wanted' : α → Prop} (h : Outcome result refused wanted)
    (hrefused : ∀ error, refused error ↔ refused' error) (hwanted : ∀ a, wanted a → wanted' a) :
    Outcome result refused' wanted' where
  error_iff error := (h.error_iff error).trans (hrefused error)
  wanted a ha := hwanted a (h.wanted a ha)

/-- A second step is taken only where the first one is not refused. -/
theorem bind {f : α → Except ε β} (h : Outcome result refused wanted)
    (hfirst : ∀ first, refused first → ∀ error, refused' error → refused error)
    (hrefused : ∀ error, refused error → refused' error)
    (hrest : (∀ error, ¬ refused error) → ∀ a, wanted a → Outcome (f a) refused' wanted') :
    Outcome (result >>= f) refused' wanted' := by
  cases hresult : result with
  | error first =>
    have honly := h.refused_iff_of_error hresult
    have herror : (Except.error first >>= f) = .error first := rfl
    apply of_error herror
    intro error
    rw [← honly]
    exact ⟨hfirst first ((honly first).2 rfl) error, hrefused error⟩
  | ok a => exact hrest (h.not_refused_of_ok hresult) a (h.wanted a hresult)

theorem map {f : α → β} (h : Outcome result refused wanted)
    (hwanted : ∀ a, wanted a → wanted' (f a)) :
    Outcome (result >>= fun a => pure (f a)) refused wanted' := by
  apply h.bind (fun _ _ error herror => herror) (fun error herror => herror)
  intro hnone a ha
  exact of_ok rfl hnone (hwanted a ha)

theorem mapError {ε' : Type} (h : Outcome result refused wanted) (f : ε → ε') :
    Outcome (result.mapError f) (fun error => ∃ cause, refused cause ∧ error = f cause) wanted := by
  cases hresult : result with
  | error first =>
    have herror : (Except.error first : Except ε α).mapError f = .error (f first) := rfl
    apply of_error herror
    intro error
    simp only [h.refused_iff_of_error hresult, exists_eq_left]
  | ok a =>
    apply of_ok (a := a) rfl _ (h.wanted a hresult)
    rintro error ⟨cause, hcause, -⟩
    exact h.not_refused_of_ok hresult cause hcause

end Outcome

namespace Amount

open Decimal (Representable Settles)

variable {κ : Type}

theorem exactly_outcome (operation : Operation) {result : Option Decimal} {q : ℚ}
    (h : Settles result q) :
    Outcome (exactly operation result : Except (ArithmeticError κ) Decimal)
      (fun error => ¬ Representable q ∧ error = .inexact operation)
      (fun d => Representable q ∧ d.toRat = q) := by
  obtain ⟨hvalue, hfits⟩ := h
  cases result with
  | none =>
    have hnot : ¬ Representable q := by simpa using hfits
    exact .of_error rfl fun error => and_iff_right hnot
  | some d =>
    have hq : Representable q := hfits.1 rfl
    exact .of_ok rfl (fun error herror => herror.1 hq) ⟨hq, hvalue d rfl⟩

theorem negationRefused_iff {a : Amount κ} {error : ArithmeticError κ} :
    NegationRefused a error ↔ ¬ Representable (-a.nominal.toRat) ∧ error = .inexact .negation := by
  constructor
  · rintro ⟨h⟩
    exact ⟨h, rfl⟩
  · rintro ⟨h, rfl⟩
    exact .inexact h

theorem neg_outcome (a : Amount κ) :
    Outcome a.neg a.NegationRefused (·.Denotes (-a.nominal.toRat) a.currency a.prices) := by
  have hnominal := exactly_outcome (κ := κ) .negation (Decimal.settles_neg? a.nominal)
  apply (hnominal.imp (fun _ => negationRefused_iff.symm) fun _ => id).map
  rintro nominal ⟨-, hq⟩
  exact ⟨hq, rfl, rfl⟩

theorem Denotes.neg_symm {a negated : Amount κ}
    (h : negated.Denotes (-a.nominal.toRat) a.currency a.prices) :
    a.Denotes (-negated.nominal.toRat) negated.currency negated.prices :=
  ⟨by rw [h.value, neg_neg], h.currency.symm, h.prices.symm⟩

/-! ## Converting -/

variable [DecidableEq κ] {target : κ} {a b : Amount κ} {q : ℚ} {error : ArithmeticError κ}

theorem worth?_of_eq (h : a.currency = target) : a.worth? target = some a.nominal.toRat := by
  simp [worth?, rate?, h]

theorem worth?_of_price (hne : a.currency ≠ target) {price : Price κ}
    (h : a.prices.find? (·.currency = target) = some price) :
    a.worth? target = some (a.nominal.toRat * price.nominal.toRat) := by
  simp [worth?, rate?, hne, h]

theorem worth?_of_no_price (hne : a.currency ≠ target)
    (h : ∀ price ∈ a.prices, price.currency ≠ target) : a.worth? target = none := by
  have hnone : a.prices.find? (·.currency = target) = none :=
    List.find?_eq_none.2 fun price hprice => by simpa using h price hprice
  simp [worth?, rate?, hne, hnone]

theorem ConversionRefused.not_convertsExactly (h : a.ConversionRefused target error) :
    ¬ a.ConvertsExactly target := by
  cases h with
  | noPrice hne hnone =>
    rintro (hcurrency | ⟨q, hworth, -⟩)
    · exact hne hcurrency
    · rw [worth?_of_no_price hne hnone] at hworth
      contradiction
  | inexact hne hworth hnot =>
    rintro (hcurrency | ⟨q', hworth', hfits⟩)
    · exact hne hcurrency
    · cases hworth.symm.trans hworth'
      exact hnot hfits

/-- A conversion by a price is refused where the product does not fit. -/
theorem conversionRefused_iff (hne : a.currency ≠ target) (hworth : a.worth? target = some q) :
    ConversionRefused target a error ↔ ¬ Representable q ∧ error = .inexact .conversion := by
  constructor
  · intro h
    cases h with
    | noPrice _ hnone =>
      rw [worth?_of_no_price hne hnone] at hworth
      contradiction
    | inexact _ hworth' hfits =>
      cases hworth.symm.trans hworth'
      exact ⟨hfits, rfl⟩
  · rintro ⟨hfits, rfl⟩
    exact .inexact hne hworth hfits

theorem convertTo_outcome (target : κ) (a : Amount κ) :
    Outcome (a.convertTo target) (a.ConversionRefused target) fun r =>
      a.ConvertsExactly target ∧ (a.currency = target → r = a) ∧
        (a.currency ≠ target → ∃ q, a.worth? target = some q ∧ r.Denotes q target []) := by
  by_cases hcurrency : a.currency = target
  · have hexact : a.ConvertsExactly target := .inl hcurrency
    apply Outcome.of_ok (a := a) (if_pos hcurrency.symm)
    · exact fun error herror => herror.not_convertsExactly hexact
    · exact ⟨hexact, fun _ => rfl, fun hne => absurd hcurrency hne⟩
  · rw [convertTo, if_neg (Ne.symm hcurrency)]
    cases hprice : a.prices.find? (·.currency = target) with
    | none =>
      have hnone : ∀ price ∈ a.prices, price.currency ≠ target := by
        simpa using List.find?_eq_none.1 hprice
      apply Outcome.of_error rfl
      intro error
      constructor
      · intro h
        cases h with
        | noPrice => rfl
        | inexact _ hworth =>
          rw [worth?_of_no_price hcurrency hnone] at hworth
          contradiction
      · rintro rfl
        exact .noPrice hcurrency hnone
    | some price =>
      have hworth := worth?_of_price hcurrency hprice
      have hproduct := exactly_outcome (κ := κ) .conversion
        (Decimal.settles_mul? a.nominal price.nominal)
      apply (hproduct.imp (fun _ => (conversionRefused_iff hcurrency hworth).symm) fun _ => id).map
      rintro nominal ⟨hfits, hq⟩
      refine ⟨.inr ⟨_, hworth, hfits⟩, fun h => absurd h hcurrency, fun _ => ?_⟩
      exact ⟨_, hworth, hq, rfl, rfl⟩

/-- What an amount is worth is what its conversion gives. -/
theorem exists_worth_of_convertTo {r : Amount κ} (h : a.convertTo target = .ok r) :
    a.ConvertsExactly target ∧ a.worth? target = some r.nominal.toRat := by
  obtain ⟨hexact, hsame, hother⟩ := (convertTo_outcome target a).wanted r h
  by_cases hcurrency : a.currency = target
  · rw [hsame hcurrency]
    exact ⟨hexact, worth?_of_eq hcurrency⟩
  · obtain ⟨q, hworth, hr⟩ := hother hcurrency
    rw [hr.value]
    exact ⟨hexact, hworth⟩

theorem currency_of_convertTo {r : Amount κ} (h : a.convertTo target = .ok r) :
    r.currency = target := by
  obtain ⟨-, hsame, hother⟩ := (convertTo_outcome target a).wanted r h
  by_cases hcurrency : a.currency = target
  · rw [hsame hcurrency, hcurrency]
  · obtain ⟨q, -, hr⟩ := hother hcurrency
    exact hr.currency

theorem not_conversionRefused_iff :
    (∀ error, ¬ a.ConversionRefused target error) ↔ a.ConvertsExactly target := by
  constructor
  · intro hnone
    obtain ⟨r, -, hexact, -⟩ := (convertTo_outcome target a).exists_ok hnone
    exact hexact
  · exact fun hexact error herror => herror.not_convertsExactly hexact

/-! ## Adding and subtracting -/

variable {total : ℚ}

theorem Adds.unique {q' : ℚ} (h : a.Adds target total q) (h' : a.Adds target total q') : q = q' :=
  Option.some.inj (h.worth.symm.trans h'.worth)

theorem AdditionRefused.not_adds (h : AdditionRefused target total a error) :
    ¬ a.Adds target total q := by
  intro hadds
  cases h with
  | conversion h => exact h.not_convertsExactly hadds.converts
  | inexact _ hworth hnot =>
    cases hadds.worth.symm.trans hworth
    exact hnot hadds.fits

theorem additionRefused_iff (hconverts : a.ConvertsExactly target)
    (hworth : a.worth? target = some q) :
    AdditionRefused target total a error ↔
      ¬ Representable (total + q) ∧ error = .inexact .addition := by
  constructor
  · intro h
    cases h with
    | conversion h => exact absurd hconverts h.not_convertsExactly
    | inexact _ hworth' hfits =>
      cases hworth.symm.trans hworth'
      exact ⟨hfits, rfl⟩
  · rintro ⟨hfits, rfl⟩
    exact .inexact hconverts hworth hfits

theorem add_outcome (a b : Amount κ) :
    Outcome (a.add b) (b.AdditionRefused a.currency a.nominal.toRat) fun r =>
      ∃ q, b.Adds a.currency a.nominal.toRat q ∧
        r.Denotes (a.nominal.toRat + q) a.currency a.prices := by
  have hconverted : Outcome (b.convertTo a.currency) (b.ConversionRefused a.currency) fun r =>
      b.ConvertsExactly a.currency ∧ b.worth? a.currency = some r.nominal.toRat :=
    ⟨(convertTo_outcome a.currency b).error_iff, fun r => exists_worth_of_convertTo⟩
  apply hconverted.bind
  · intro first hfirst error h
    cases h with
    | conversion h => exact h
    | inexact hconverts => exact absurd hconverts hfirst.not_convertsExactly
  · exact fun error => .conversion
  · rintro - converted ⟨hconverts, hworth⟩
    have hsum := exactly_outcome (κ := κ) .addition
      (Decimal.settles_add? a.nominal converted.nominal)
    apply (hsum.imp (fun _ => (additionRefused_iff hconverts hworth).symm) fun _ => id).map
    rintro nominal ⟨hfits, hq⟩
    exact ⟨_, ⟨hconverts, hworth, hfits⟩, hq, rfl, rfl⟩

section

variable {negated : Amount κ} (h : negated.Denotes (-a.nominal.toRat) a.currency a.prices)

include h

theorem worth?_of_negated (hworth : a.worth? target = some q) :
    negated.worth? target = some (-q) := by
  have hrate : negated.rate? target = a.rate? target := by
    unfold rate?
    rw [h.currency, h.prices]
  obtain ⟨rate, hsome, rfl⟩ := Option.map_eq_some_iff.1 hworth
  rw [worth?, hrate, hsome, h.value]
  simp

theorem conversionRefused_of_negated (hrefused : a.ConversionRefused target error) :
    negated.ConversionRefused target error := by
  cases hrefused with
  | noPrice hne hnone =>
    rw [← h.currency] at hne ⊢
    rw [← h.prices] at hnone
    exact .noPrice hne hnone
  | inexact hne hworth hfits =>
    rw [← h.currency] at hne
    exact .inexact hne (worth?_of_negated h hworth) (Decimal.representable_neg_iff.not.2 hfits)

/-- A number and its negation convert alike, as one fits where the other does. -/
theorem conversionRefused_negated_iff :
    negated.ConversionRefused target error ↔ a.ConversionRefused target error :=
  ⟨conversionRefused_of_negated h.neg_symm, conversionRefused_of_negated h⟩

theorem convertsExactly_negated_iff :
    negated.ConvertsExactly target ↔ a.ConvertsExactly target := by
  rw [← not_conversionRefused_iff, ← not_conversionRefused_iff]
  exact forall_congr' fun error => (conversionRefused_negated_iff h).not

/-- Adding what is negated is subtracting. -/
theorem additionRefused_negated_iff (hnegated : Representable (-a.nominal.toRat)) :
    negated.AdditionRefused target total error ↔ a.SubtractionRefused target total error := by
  constructor
  · intro hrefused
    cases hrefused with
    | conversion hconversion =>
      exact .conversion hnegated ((conversionRefused_negated_iff h).1 hconversion)
    | inexact hconverts hworth hfits =>
      rw [← sub_neg_eq_add] at hfits
      exact .inexact hnegated ((convertsExactly_negated_iff h).1 hconverts)
        (worth?_of_negated h.neg_symm hworth) hfits
  · intro hrefused
    cases hrefused with
    | negation hnegation =>
      obtain ⟨hnot⟩ := hnegation
      exact absurd hnegated hnot
    | conversion _ hconversion =>
      exact .conversion ((conversionRefused_negated_iff h).2 hconversion)
    | inexact _ hconverts hworth hfits =>
      rw [sub_eq_add_neg] at hfits
      exact .inexact ((convertsExactly_negated_iff h).2 hconverts) (worth?_of_negated h hworth)
        hfits

end

theorem sub_outcome (a b : Amount κ) :
    Outcome (a.sub b) (b.SubtractionRefused a.currency a.nominal.toRat) fun r =>
      ∃ q, b.worth? a.currency = some q ∧
        r.Denotes (a.nominal.toRat - q) a.currency a.prices := by
  apply b.neg_outcome.bind
  · rintro first ⟨hfirst⟩ error herror
    cases herror with
    | negation h => exact h
    | conversion hnegated => exact absurd hnegated hfirst
    | inexact hnegated => exact absurd hnegated hfirst
  · exact fun error => .negation
  · intro hnone negated hnegated
    have hfits : Representable (-b.nominal.toRat) := by
      by_contra hnot
      exact hnone _ (.inexact hnot)
    apply (add_outcome a negated).imp
    · exact fun error => additionRefused_negated_iff hnegated hfits
    · rintro r ⟨q, hadds, hr⟩
      rw [← sub_neg_eq_add] at hr
      exact ⟨-q, worth?_of_negated hnegated.neg_symm hadds.worth, hr⟩

/-- Arithmetic with amounts is exact or refused. A negation is refused where the negated number does
not fit the precision; a conversion, which an amount of the currency itself does not need, where
there is no price for the currency or the product with the first such price does not fit; a sum
where the conversion of the second amount is refused or the exact sum does not fit; a difference
where the negation of the second amount is refused, or its conversion, or the exact difference does
not fit. Everything else gives the exact number in its currency and with its prices. -/
theorem exact_or_refused (a b : Amount κ) (target : κ) :
    Outcome a.neg a.NegationRefused (·.Denotes (-a.nominal.toRat) a.currency a.prices) ∧
      (Outcome (a.convertTo target) (a.ConversionRefused target) fun r =>
        (a.currency = target → r = a) ∧
          (a.currency ≠ target → ∃ q, a.worth? target = some q ∧ r.Denotes q target [])) ∧
      (Outcome (a.add b) (b.AdditionRefused a.currency a.nominal.toRat) fun r =>
        ∃ q, b.worth? a.currency = some q ∧
          r.Denotes (a.nominal.toRat + q) a.currency a.prices) ∧
      Outcome (a.sub b) (b.SubtractionRefused a.currency a.nominal.toRat) fun r =>
        ∃ q, b.worth? a.currency = some q ∧
          r.Denotes (a.nominal.toRat - q) a.currency a.prices := by
  refine ⟨a.neg_outcome, ?_, ?_, a.sub_outcome b⟩
  · exact (convertTo_outcome target a).imp (fun _ => Iff.rfl) fun _ h => h.2
  · apply (a.add_outcome b).imp fun _ => Iff.rfl
    rintro r ⟨q, hadds, hr⟩
    exact ⟨q, hadds.worth, hr⟩

/-- Fifty-one digits fit where the last one is a zero. -/
example : (⟨⟨false, 10 ^ 50 - 1, 0⟩, 0, []⟩ : Amount Int).add ⟨⟨false, 1, 0⟩, 0, []⟩ =
    .ok ⟨⟨false, 10 ^ 49, 1⟩, 0, []⟩ := by decide +kernel

end Amount
end DoubleEntry
