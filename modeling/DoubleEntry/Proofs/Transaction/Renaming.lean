import DoubleEntry.Proofs.Collection.Traversal
import DoubleEntry.Transaction.Balance
import DoubleEntry.Transaction.Renaming

/-! Arithmetic and balance under other names of the currencies. A name is only ever compared with
another, so that names that stay distinct lead to the same results and errors under new names. -/
namespace DoubleEntry

section

variable {ε ε' α α' β β' : Type} {f : α → α'} {g : β → β'} {r : ε → ε'}

theorem bind_renamed {m : Except ε α} {next : α → Except ε β} {next' : α' → Except ε' β'}
    (h : ∀ a, next' (f a) = g <$> (next a).mapError r) :
    (f <$> m.mapError r) >>= next' = g <$> (m >>= next).mapError r := by
  cases m with
  | error error => rfl
  | ok a => exact h a

/-- The first step has no names in its result. -/
theorem bind_mapError {m : Except ε α} {next : α → Except ε β} {next' : α → Except ε' β'}
    (h : ∀ a, next' a = g <$> (next a).mapError r) :
    m.mapError r >>= next' = g <$> (m >>= next).mapError r := by
  cases m with
  | error error => rfl
  | ok a => exact h a

theorem foldlM_renamed {step : β → α → Except ε β} {step' : β' → α' → Except ε' β'}
    (h : ∀ b a, step' (g b) (f a) = g <$> (step b a).mapError r) (b : β) (as : List α) :
    (as.map f).foldlM step' (g b) = g <$> (as.foldlM step b).mapError r := by
  induction as generalizing b with
  | nil => rfl
  | cons a as ih =>
    rw [List.map_cons, List.foldlM_cons, List.foldlM_cons, h]
    exact bind_renamed ih

theorem mapM_renamed {step : α → Except ε β} {step' : α → Except ε β'}
    (h : ∀ a, step' a = g <$> step a) (as : List α) :
    as.mapM step' = List.map g <$> as.mapM step := by
  induction as with
  | nil => rfl
  | cons a as ih =>
    simp only [List.mapM_cons, h, ih, bind_map_left, map_bind, map_pure, List.map_cons]

end

variable {κ μ : Type} {f : κ → μ}

namespace Amount

section

variable (f) (a : Amount κ)

@[simp] theorem nominal_map : (a.map f).nominal = a.nominal := rfl
@[simp] theorem currency_map : (a.map f).currency = f a.currency := rfl
@[simp] theorem prices_map : (a.map f).prices = a.prices.map (·.map f) := rfl
@[simp] theorem map_zero (currency : κ) : (zero currency).map f = zero (f currency) := rfl

end

theorem exactly_renamed (operation : Operation) (result : Option Decimal) :
    (exactly operation result : Except (ArithmeticError μ) Decimal) =
      (exactly operation result).mapError (ArithmeticError.map f) := by
  cases result <;> rfl

theorem neg_map (a : Amount κ) :
    (a.map f).neg = map f <$> a.neg.mapError (ArithmeticError.map f) := by
  unfold neg
  rw [nominal_map, exactly_renamed]
  exact bind_mapError fun _ => rfl

variable [DecidableEq κ] [DecidableEq μ]

/-- The first price for a currency stays the first. -/
theorem find?_prices_map (hf : Function.Injective f) (prices : List (Price κ)) (target : κ) :
    (prices.map (·.map f)).find? (·.currency = f target) =
      (prices.find? (·.currency = target)).map (·.map f) := by
  have hsame : (fun price : Price κ => decide ((price.map f).currency = f target)) =
      fun price => decide (price.currency = target) := by
    funext price
    exact decide_eq_decide.2 hf.eq_iff
  rw [List.find?_map, ← hsame]
  rfl

theorem convertTo_map (hf : Function.Injective f) (a : Amount κ) (target : κ) :
    (a.map f).convertTo (f target) =
      map f <$> (a.convertTo target).mapError (ArithmeticError.map f) := by
  unfold convertTo
  rw [currency_map]
  by_cases htarget : target = a.currency
  · rw [if_pos htarget, if_pos (congrArg f htarget)]
    rfl
  rw [if_neg htarget, if_neg fun h => htarget (hf h), prices_map, find?_prices_map hf]
  cases a.prices.find? (·.currency = target) with
  | none => rfl
  | some price =>
    simp only [Option.map_some, nominal_map, Price.map]
    rw [exactly_renamed]
    exact bind_mapError fun _ => rfl

theorem add_map (hf : Function.Injective f) (a b : Amount κ) :
    (a.map f).add (b.map f) = map f <$> (a.add b).mapError (ArithmeticError.map f) := by
  unfold add
  rw [currency_map, convertTo_map hf]
  refine bind_renamed fun converted => ?_
  rw [nominal_map, nominal_map, exactly_renamed]
  exact bind_mapError fun _ => rfl

theorem sub_map (hf : Function.Injective f) (a b : Amount κ) :
    (a.map f).sub (b.map f) = map f <$> (a.sub b).mapError (ArithmeticError.map f) := by
  unfold sub
  rw [neg_map]
  exact bind_renamed (add_map hf a)

theorem addAll_map (hf : Function.Injective f) (start : Amount κ) (amounts : List (Amount κ)) :
    (start.map f).addAll (amounts.map (map f)) =
      map f <$> (start.addAll amounts).mapError (ArithmeticError.map f) :=
  foldlM_renamed (add_map hf) start amounts

end Amount

namespace Transaction

/-! ## Inferring an amount -/

theorem filterMap_amount_map (legs : List (Leg κ)) :
    (legs.map (Leg.map f)).filterMap (·.amount) =
      (legs.filterMap (·.amount)).map (Amount.map f) := by
  rw [List.filterMap_map, List.map_filterMap]
  rfl

theorem writtenExchange?_map (leg : Leg κ) :
    writtenExchange? (leg.map f) = (writtenExchange? leg).map (Exchange.map f) := by
  obtain ⟨account, amount⟩ := leg
  cases amount <;> rfl

theorem exchangeOf_map (inferred : Amount κ) (leg : Leg κ) :
    exchangeOf (inferred.map f) (leg.map f) = (exchangeOf inferred leg).map f := by
  obtain ⟨account, amount⟩ := leg
  cases amount <;> rfl

theorem countP_isNone_map (legs : List (Leg κ)) :
    (legs.map (Leg.map f)).countP (·.amount.isNone) = legs.countP (·.amount.isNone) := by
  rw [List.countP_map]
  refine List.countP_congr fun leg _ => ?_
  simp [Leg.map]

section

variable [DecidableEq κ] [DecidableEq μ]

theorem inferredAmount_map (hf : Function.Injective f) (first : Amount κ)
    (written : List (Amount κ)) :
    inferredAmount (first.map f) (written.map (Amount.map f)) =
      Amount.map f <$> (inferredAmount first written).mapError (ArithmeticError.map f) := by
  unfold inferredAmount
  simp only [Amount.currency_map]
  rw [← Amount.map_zero, Amount.addAll_map hf]
  exact bind_renamed (Amount.sub_map hf _)

theorem ofLegs_map (hf : Function.Injective f) (header : Header) (legs : List (Leg κ)) :
    ofLegs header (legs.map (Leg.map f)) =
      Transaction.map f <$> (ofLegs header legs).mapError (BalanceError.map f) := by
  unfold ofLegs
  rw [countP_isNone_map, filterMap_amount_map]
  cases legs.countP (·.amount.isNone) with
  | zero =>
    have hexchanges : (legs.map (Leg.map f)).filterMap writtenExchange? =
        (legs.filterMap writtenExchange?).map (Exchange.map f) := by
      rw [List.filterMap_map, List.map_filterMap]
      exact List.filterMap_congr fun leg _ => writtenExchange?_map leg
    simp only [hexchanges]
    rfl
  | succ count =>
    cases count with
    | succ count => rfl
    | zero =>
      cases legs.filterMap (·.amount) with
      | nil => rfl
      | cons first others =>
        simp only [List.map_cons, Nat.zero_add]
        rw [← List.map_cons, inferredAmount_map hf]
        cases inferredAmount first (first :: others) with
        | error error => rfl
        | ok inferred =>
          have hexchanges : (legs.map (Leg.map f)).map (exchangeOf (inferred.map f)) =
              (legs.map (exchangeOf inferred)).map (Exchange.map f) := by
            rw [List.map_map, List.map_map]
            exact List.map_congr_left fun leg _ => exchangeOf_map inferred leg
          change Except.ok (ofExchanges header _) = _
          rw [hexchanges]
          rfl

end

/-! ## Totals and issues -/

theorem amounts_map (t : Transaction κ) :
    (t.map f).exchanges.map (·.amount) = (t.exchanges.map (·.amount)).map (Amount.map f) := by
  change (t.exchanges.map (Exchange.map f)).map (·.amount) = _
  rw [List.map_map, List.map_map]
  rfl

theorem anchor?_map (t : Transaction κ) : (t.map f).anchor? = t.anchor?.map f := by
  unfold anchor?
  change ((t.exchanges.map (Exchange.map f)).find? (!·.elided)).map _ = _
  rw [List.find?_map, Option.map_map, Option.map_map]
  rfl

theorem kind_map (issue : Issue κ) : (issue.map f).kind = issue.kind := by
  cases issue <;> rfl

theorem totalBy_map {step : Amount κ → Amount κ → Except (ArithmeticError κ) (Amount κ)}
    {step' : Amount μ → Amount μ → Except (ArithmeticError μ) (Amount μ)}
    (h : ∀ total a, step' (total.map f) (a.map f) =
      Amount.map f <$> (step total a).mapError (ArithmeticError.map f)) (t : Transaction κ) :
    (t.map f).totalBy step' = (t.totalBy step).mapError (ArithmeticError.map f) := by
  unfold totalBy
  rw [anchor?_map, amounts_map]
  cases t.anchor? with
  | none => rfl
  | some anchor =>
    simp only [Option.map_some]
    rw [← Amount.map_zero, foldlM_renamed h]
    cases (t.exchanges.map (·.amount)).foldlM step (.zero anchor) <;> rfl

variable [DecidableEq κ] [DecidableEq μ]

theorem sum_map (hf : Function.Injective f) (t : Transaction κ) :
    (t.map f).sum = Option.map (Amount.map f) <$> t.sum.mapError (ArithmeticError.map f) := by
  unfold sum
  rw [anchor?_map, amounts_map]
  cases t.anchor? with
  | none => rfl
  | some anchor =>
    simp only [Option.map_some]
    rw [← Amount.map_zero, Amount.addAll_map hf]
    cases (Amount.zero anchor).addAll (t.exchanges.map (·.amount)) <;> rfl

theorem addDebit_map (hf : Function.Injective f) (total a : Amount κ) :
    addDebit (total.map f) (a.map f) =
      Amount.map f <$> (addDebit total a).mapError (ArithmeticError.map f) := by
  unfold addDebit
  rw [Amount.currency_map, Amount.convertTo_map hf]
  refine bind_renamed fun converted => ?_
  rw [Amount.nominal_map]
  split
  · exact Amount.add_map hf total converted
  · rfl

theorem subCredit_map (hf : Function.Injective f) (total a : Amount κ) :
    subCredit (total.map f) (a.map f) =
      Amount.map f <$> (subCredit total a).mapError (ArithmeticError.map f) := by
  unfold subCredit
  rw [Amount.currency_map, Amount.convertTo_map hf]
  refine bind_renamed fun converted => ?_
  rw [Amount.nominal_map]
  split
  · exact Amount.sub_map hf total converted
  · rfl

theorem issues_map (hf : Function.Injective f) (t : Transaction κ) (check : BalanceCheck) :
    (t.map f).issues check = (t.issues check).map (Issue.map f) := by
  have hstructure : (t.map f).structureIssues = t.structureIssues.map (Issue.map f) := by
    unfold structureIssues
    have hlength : (t.map f).exchanges.length = t.exchanges.length := List.length_map _
    rw [hlength]
    split <;> rfl
  have hsum : (t.map f).sumIssues = t.sumIssues.map (Issue.map f) := by
    unfold sumIssues
    rw [sum_map hf]
    cases t.sum with
    | error error => rfl
    | ok total =>
      cases total with
      | none => rfl
      | some total =>
        have hzero : (total.map f).isZero = total.isZero := rfl
        change (if (total.map f).isZero then [] else [Issue.nonzeroSum total.nominal]) =
          (if total.isZero then [] else [Issue.nonzeroSum total.nominal]).map (Issue.map f)
        rw [hzero]
        split <;> rfl
  cases check with
  | withSum =>
    change _ ++ _ = (_ ++ _ : List (Issue κ)).map _
    rw [hstructure, hsum, List.map_append]
  | withoutSum => exact hstructure

end Transaction
end DoubleEntry
