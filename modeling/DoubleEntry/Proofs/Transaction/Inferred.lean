import DoubleEntry.Proofs.Amount.Totals
import DoubleEntry.Transaction.Balance

/-! Transactions with an inferred amount. The amount is inferred from the written ones alone, but the
audit adds it where it stands: it goes through other sums on the way to zero, and these need not fit
the precision. -/
namespace DoubleEntry.Transaction

open Amount (AddUp Converts RunRefused TotalsFit)
open Decimal (Representable)

variable {κ : Type}

/-- The amounts written behind the first leg without one. -/
def amountsBehind (legs : List (Leg κ)) : List (Amount κ) :=
  (legs.dropWhile (·.amount.isSome)).filterMap (·.amount)

/-! ## The legs -/

/-- Around the one leg without an amount all legs have one. -/
theorem exists_split {legs : List (Leg κ)} (hone : legs.countP (·.amount.isNone) = 1) :
    ∃ before account after, legs = before ++ ⟨account, none⟩ :: after ∧
      (∀ leg ∈ before, leg.amount.isSome = true) ∧ ∀ leg ∈ after, leg.amount.isSome = true := by
  induction legs with
  | nil => contradiction
  | cons leg legs ih =>
    obtain ⟨account, amount⟩ := leg
    cases amount with
    | none =>
      refine ⟨[], account, legs, rfl, by simp, fun leg hleg => ?_⟩
      have hnone : legs.countP (·.amount.isNone) = 0 := by simpa using hone
      rw [List.countP_eq_zero] at hnone
      simpa [Option.isSome_iff_ne_none] using hnone leg hleg
    | some amount =>
      obtain ⟨before, missing, after, rfl, hbefore, hafter⟩ := ih (by simpa using hone)
      refine ⟨⟨account, some amount⟩ :: before, missing, after, rfl, ?_, hafter⟩
      exact List.forall_mem_cons.2 ⟨rfl, hbefore⟩

theorem amountsBehind_split {before after : List (Leg κ)} {account : AccountRef}
    (h : ∀ leg ∈ before, leg.amount.isSome = true) :
    amountsBehind (before ++ ⟨account, none⟩ :: after) = after.filterMap (·.amount) := by
  unfold amountsBehind
  rw [List.dropWhile_append_of_pos h]
  simp

theorem amount_exchangeOf (inferred : Amount κ) (leg : Leg κ) :
    (exchangeOf inferred leg).amount = leg.amount.getD inferred := by
  obtain ⟨account, amount⟩ := leg
  cases amount <;> rfl

theorem map_amount_of_written (inferred : Amount κ) {legs : List (Leg κ)}
    (h : ∀ leg ∈ legs, leg.amount.isSome = true) :
    (legs.map (exchangeOf inferred)).map (·.amount) = legs.filterMap (·.amount) := by
  induction legs with
  | nil => rfl
  | cons leg legs ih =>
    obtain ⟨amount, hamount⟩ := Option.isSome_iff_exists.1 (h leg (by simp))
    rw [List.map_cons, List.map_cons, amount_exchangeOf, ih fun leg hleg => h leg (by simp [hleg]),
      List.filterMap_cons_some hamount, hamount]
    rfl

/-- The inferred amount is not the one that sets the currency. -/
theorem anchor?_of_exchangeOf (header : Header) (inferred : Amount κ) (legs : List (Leg κ)) :
    (ofExchanges header (legs.map (exchangeOf inferred))).anchor? =
      (legs.filterMap (·.amount)).head?.map (·.currency) := by
  change ((legs.map (exchangeOf inferred)).find? (!·.elided)).map (·.amount.currency) = _
  induction legs with
  | nil => rfl
  | cons leg legs ih =>
    obtain ⟨account, amount⟩ := leg
    cases amount with
    | none => exact ih
    | some amount => rfl

/-! ## The inferred amount -/

variable [DecidableEq κ]

/-- A transaction with one amount left out is made of the written amounts, of which there is one at
least, and the negated total of these. -/
theorem exists_inferred_of_ofLegs {header : Header} {legs : List (Leg κ)} {t : Transaction κ}
    (hone : legs.countP (·.amount.isNone) = 1) (h : ofLegs header legs = .ok t) :
    ∃ first others inferred, legs.filterMap (·.amount) = first :: others ∧
      inferredAmount first (first :: others) = .ok inferred ∧
      t = ofExchanges header (legs.map (exchangeOf inferred)) := by
  unfold ofLegs at h
  rw [hone] at h
  simp only at h
  split at h
  · contradiction
  rename_i first others hwritten
  split at h
  · contradiction
  rename_i inferred hinferred
  cases h
  exact ⟨first, others, inferred, hwritten, hinferred, rfl⟩

/-- The written amounts add up, and the inferred one is what is missing to zero. -/
theorem inferredAmount_outcome (first : Amount κ) (written : List (Amount κ)) :
    Outcome (inferredAmount first written) (RunRefused first.currency 0 written) fun inferred =>
      ∃ worths, AddUp first.currency written worths ∧
        inferred.Denotes (-worths.sum) first.currency [] := by
  apply (Amount.addAll_zero_outcome first.currency written).bind
    (fun _ _ error herror => herror) (fun error herror => herror)
  rintro hnone total ⟨worths, haddUp, htotal⟩
  have hfits : Representable worths.sum := by
    simpa using Amount.representable_of_totalsFit Decimal.representable_zero haddUp.fit
  obtain ⟨inferred, hinferred, hvalue⟩ := Amount.exists_zero_sub hfits htotal
  exact .of_ok hinferred hnone ⟨worths, haddUp, hvalue⟩

/-- What the amounts around an inferred one are worth, and the inferred one after them. -/
structure Completes (anchor : κ) (xs : List (Amount κ)) (inferred : Amount κ)
    (ys : List (Amount κ)) (us ws : List ℚ) : Prop where
  before : List.Forall₂ (Converts anchor) xs us
  behind : List.Forall₂ (Converts anchor) ys ws
  fits : TotalsFit 0 (us ++ ws)
  currency : inferred.currency = anchor
  nominal : inferred.nominal.toRat = -(us ++ ws).sum

theorem exists_completes_of_ofLegs {header : Header} {legs : List (Leg κ)} {t : Transaction κ}
    (hone : legs.countP (·.amount.isNone) = 1) (h : ofLegs header legs = .ok t) :
    ∃ anchor xs inferred us ws, Completes anchor xs inferred (amountsBehind legs) us ws ∧
      t.anchor? = some anchor ∧
      t.exchanges.map (·.amount) = xs ++ inferred :: amountsBehind legs ∧
      2 ≤ t.exchanges.length := by
  obtain ⟨first, others, inferred, hwritten, hinferred, rfl⟩ := exists_inferred_of_ofLegs hone h
  have hanchor := anchor?_of_exchangeOf header inferred legs
  rw [hwritten] at hanchor
  obtain ⟨qs, haddUp, hvalue⟩ :=
    (inferredAmount_outcome first (first :: others)).wanted inferred hinferred
  have hqs := Amount.forall₂_converts_iff.2 ⟨haddUp.worth, haddUp.convert⟩
  obtain ⟨before, account, after, rfl, hbefore, hafter⟩ := exists_split hone
  -- the worths are split where the leg without an amount stands
  have hsplit : before.filterMap (·.amount) ++ after.filterMap (·.amount) = first :: others := by
    rw [← hwritten, List.filterMap_append, List.filterMap_cons_none rfl]
  rw [← hsplit] at hqs
  obtain ⟨us, ws, rfl, hus, hws⟩ := exists_of_forall₂_append hqs
  have hamounts : ((before ++ ⟨account, none⟩ :: after).map (exchangeOf inferred)).map (·.amount) =
      before.filterMap (·.amount) ++ inferred :: after.filterMap (·.amount) := by
    rw [← map_amount_of_written inferred hbefore, ← map_amount_of_written inferred hafter]
    simp [amount_exchangeOf]
  rw [amountsBehind_split hbefore]
  refine ⟨first.currency, _, inferred, us, ws,
    ⟨hus, hws, haddUp.fit, hvalue.currency, hvalue.value⟩, hanchor, hamounts, ?_⟩
  have hlength := congrArg List.length hamounts
  have hcount := congrArg List.length hsplit
  simp only [List.length_append, List.length_cons, List.length_map] at hlength hcount
  simp only [ofExchanges, List.length_map, List.length_append, List.length_cons]
  omega

/-! ## The audit -/

/-- With what is missing to zero put between the numbers, the sums up to it are the old ones, and
those behind it are the sums of the last numbers. -/
theorem totalsFit_inferred_iff {us ws : List ℚ} (h : TotalsFit 0 (us ++ ws)) :
    TotalsFit 0 (us ++ -(us ++ ws).sum :: ws) ↔
      ∀ tail, tail <:+ ws → Representable tail.sum := by
  have hrest : 0 + us.sum + -(us ++ ws).sum = -ws.sum := by
    rw [List.sum_append]
    ring
  rw [Amount.totalsFit_append, and_iff_right (Amount.totalsFit_append.1 h).1, TotalsFit, hrest,
    Amount.totalsFit_neg_sum_iff]

theorem Completes.addAll {anchor : κ} {inferred : Amount κ} {xs ys : List (Amount κ)}
    {us ws : List ℚ} (h : Completes anchor xs inferred ys us ws) :
    ((∀ tail, tail <:+ ws → Representable tail.sum) ∧
        ∃ total : Amount κ, (Amount.zero anchor).addAll (xs ++ inferred :: ys) = .ok total ∧
          total.isZero = true ∧ total.currency = anchor) ∨
      (¬ ∀ tail, tail <:+ ws → Representable tail.sum) ∧
        (Amount.zero anchor).addAll (xs ++ inferred :: ys) = .error (.inexact .addition) := by
  have hinferred : Converts anchor inferred (-(us ++ ws).sum) :=
    h.nominal ▸ Amount.converts_of_currency_eq h.currency
  have hall : List.Forall₂ (Converts anchor) (xs ++ inferred :: ys)
      (us ++ -(us ++ ws).sum :: ws) :=
    List.rel_append h.before (.cons hinferred h.behind)
  have hrun := Amount.addAll_of_converts hall
  rw [totalsFit_inferred_iff h.fits] at hrun
  obtain ⟨htails, total, htotal, hvalue⟩ | hfails := hrun
  · refine .inl ⟨htails, total, htotal, Amount.isZero_iff.2 ?_, hvalue.currency⟩
    rw [hvalue.value, List.sum_append, List.sum_cons, List.sum_append]
    ring
  · exact .inr hfails

theorem issues_withSum {t : Transaction κ} (h : 2 ≤ t.exchanges.length) :
    t.issues .withSum = t.sumIssues := by
  change t.structureIssues ++ t.sumIssues = _
  unfold structureIssues
  rw [if_neg (by omega), List.nil_append]

theorem sum_of_anchor? {t : Transaction κ} {anchor : κ} (h : t.anchor? = some anchor) :
    t.sum = some <$> (Amount.zero anchor).addAll (t.exchanges.map (·.amount)) := by
  unfold sum
  rw [h]

/-- A transaction with one inferred amount balances exactly where every sum of the last amounts,
from some leg behind the inferred one on, fits the precision. Where one does not, the audit has no
sum to show; it never finds another one than zero. -/
theorem issues_of_inferred {header : Header} {legs : List (Leg κ)} {t : Transaction κ}
    (hone : legs.countP (·.amount.isNone) = 1) (h : ofLegs header legs = .ok t) :
    ∃ anchor worths, t.anchor? = some anchor ∧
      (amountsBehind legs).map (·.worth? anchor) = worths.map some ∧
      ((∀ tail, tail <:+ worths → Representable tail.sum) →
        t.issues .withSum = [] ∧
          ∃ total, t.sum = .ok (some total) ∧ total.isZero = true ∧ total.currency = anchor) ∧
      ((¬ ∀ tail, tail <:+ worths → Representable tail.sum) →
        t.issues .withSum = [.noSum (.inexact .addition)]) := by
  obtain ⟨anchor, xs, inferred, us, ws, hcompletes, hanchor, hamounts, hlength⟩ :=
    exists_completes_of_ofLegs hone h
  have hsum := sum_of_anchor? hanchor
  rw [hamounts] at hsum
  refine ⟨anchor, ws, hanchor, Amount.map_worth?_of_converts hcompletes.behind, ?_⟩
  rw [issues_withSum hlength]
  unfold sumIssues
  rw [hsum]
  obtain ⟨htails, total, htotal, hzero, hcurrency⟩ | ⟨htails, herror⟩ := hcompletes.addAll
  · rw [htotal]
    refine ⟨fun _ => ⟨?_, total, rfl, hzero, hcurrency⟩, fun hnot => absurd htails hnot⟩
    simp [Functor.map, Except.map, hzero]
  · rw [herror]
    exact ⟨fun hall => absurd hall htails, fun _ => rfl⟩

/-- Cash pays for two things; what it pays is left out. -/
def lunchLegs : List (Leg Int) :=
  [⟨⟨.assets, [0]⟩, none⟩, ⟨⟨.expenses, [1]⟩, some ⟨⟨false, 199, 0⟩, 0, []⟩⟩,
    ⟨⟨.expenses, [2]⟩, some ⟨⟨false, 150, -2⟩, 0, []⟩⟩]

theorem issues_of_inferred_lunch :
    lunchLegs.countP (·.amount.isNone) = 1 ∧
      ∃ t, ofLegs ⟨.settled, none, "Lunch"⟩ lunchLegs = .ok t ∧ t.anchor? = some 0 ∧
        t.issues .withSum = [] := by
  have hsome : (ofLegs ⟨.settled, none, "Lunch"⟩ lunchLegs).map (·.anchor?) = .ok (some 0) := by
    decide +kernel
  cases hlegs : ofLegs ⟨.settled, none, "Lunch"⟩ lunchLegs with
  | error error =>
    rw [hlegs] at hsome
    contradiction
  | ok t =>
    rw [hlegs] at hsome
    obtain ⟨anchor, worths, hanchor, hworths, hbalanced, -⟩ := issues_of_inferred (by decide) hlegs
    obtain rfl : anchor = 0 := by simpa [Except.map, hanchor] using hsome
    obtain rfl : worths = [199, 3 / 2] := by
      have hvalues : (amountsBehind lunchLegs).map (·.worth? 0) = [199, 3 / 2].map some := by
        simp [amountsBehind, lunchLegs, Amount.worth?, Amount.rate?, Decimal.toRat, Decimal.signed]
        norm_num
      exact (List.map_injective_iff.2 (Option.some_injective _)) (hworths.symm.trans hvalues)
    refine ⟨by decide, t, rfl, hanchor, (hbalanced fun tail htail => ?_).1⟩
    simp only [List.suffix_cons_iff, List.suffix_nil] at htail
    obtain rfl | rfl | rfl := htail
    · exact ⟨2005, -1, by norm_num, by decide, by decide, by decide⟩
    · exact ⟨15, -1, by norm_num, by decide, by decide, by decide⟩
    · exact Decimal.representable_zero

/-- Two large amounts that cancel out and a small one behind them; what balances the small one is
left out at the front. -/
def farApart : List (Leg Int) :=
  [⟨⟨.assets, [0]⟩, none⟩, ⟨⟨.assets, [1]⟩, some ⟨⟨false, 1, 49⟩, 0, []⟩⟩,
    ⟨⟨.assets, [1]⟩, some ⟨⟨true, 1, 49⟩, 0, []⟩⟩,
    ⟨⟨.expenses, [2]⟩, some ⟨⟨false, 1, -2⟩, 0, []⟩⟩]

/-- An inferred amount need not balance: here the audit cannot add the large amount to it. -/
theorem not_forall_inferred_balances :
    ¬ ∀ (header : Header) (legs : List (Leg Int)) (t : Transaction Int),
      legs.countP (·.amount.isNone) = 1 → ofLegs header legs = .ok t →
        t.issues .withSum = [] ∧ ∃ total, t.sum = .ok (some total) ∧ total.isZero = true := by
  have hissues : (ofLegs ⟨.settled, none, "Fees"⟩ farApart).map (·.issues .withSum) =
      .ok [.noSum (.inexact .addition)] := by decide +kernel
  intro hall
  cases hlegs : ofLegs ⟨.settled, none, "Fees"⟩ farApart with
  | error error =>
    rw [hlegs] at hissues
    contradiction
  | ok t =>
    rw [hlegs] at hissues
    have hnone := (hall _ _ _ (by decide) hlegs).1
    simp [Except.map, hnone] at hissues

end DoubleEntry.Transaction
