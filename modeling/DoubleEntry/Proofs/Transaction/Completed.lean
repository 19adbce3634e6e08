import DoubleEntry.Proofs.Transaction.Inferred

/-! Transactions are completed: an amount that was left out is what is missing to zero, exactly, and
whatever keeps it from being inferred is reported for the first leg it concerns. -/
namespace DoubleEntry.Transaction

open Amount (AddUp RunRefused)

variable {κ : Type}

/-- A leg with the amount that was written for it, or else the one inferred. -/
inductive Completed (inferred? : Option (Amount κ)) : Leg κ → Exchange κ → Prop where
  | written (account : AccountRef) (amount : Amount κ) :
      Completed inferred? ⟨account, some amount⟩ ⟨account, amount, false⟩
  | inferred (account : AccountRef) {inferred : Amount κ} (h : inferred? = some inferred) :
      Completed inferred? ⟨account, none⟩ ⟨account, inferred, true⟩

theorem completed_none {legs : List (Leg κ)} (h : legs.countP (·.amount.isNone) = 0) :
    List.Forall₂ (Completed none) legs (legs.filterMap writtenExchange?) := by
  induction legs with
  | nil => exact .nil
  | cons leg legs ih =>
    obtain ⟨account, amount⟩ := leg
    cases amount with
    | none => simp at h
    | some amount => exact .cons (.written account amount) (ih (by simpa using h))

theorem completed_some (inferred : Amount κ) (legs : List (Leg κ)) :
    List.Forall₂ (Completed (some inferred)) legs (legs.map (exchangeOf inferred)) := by
  induction legs with
  | nil => exact .nil
  | cons leg legs ih =>
    obtain ⟨account, amount⟩ := leg
    cases amount with
    | none => exact .cons (.inferred account rfl) ih
    | some amount => exact .cons (.written account amount) ih

variable [DecidableEq κ]

/-- Why legs do not make a transaction: several have no amount, or the only one has none, or the
written amounts do not add up in the currency of the first. -/
inductive LegsRefused (legs : List (Leg κ)) : BalanceError κ → Prop where
  | tooManyElided (h : 2 ≤ legs.countP (·.amount.isNone)) :
      LegsRefused legs (.tooManyElided (legs.countP (·.amount.isNone)))
  | nothingWritten (hone : legs.countP (·.amount.isNone) = 1)
      (h : legs.filterMap (·.amount) = []) : LegsRefused legs .nothingWritten
  | arithmetic {first : Amount κ} {others : List (Amount κ)} {error : ArithmeticError κ}
      (hone : legs.countP (·.amount.isNone) = 1)
      (hwritten : legs.filterMap (·.amount) = first :: others)
      (h : RunRefused first.currency 0 (first :: others) error) :
      LegsRefused legs (.arithmetic error)

/-- The amount to infer, if there is one: what the written amounts are worth in the currency of the
first of them, negated. -/
inductive Infers (legs : List (Leg κ)) : Option (Amount κ) → Prop where
  | nothing (h : legs.countP (·.amount.isNone) = 0) : Infers legs none
  | negated {first inferred : Amount κ} {others : List (Amount κ)} {worths : List ℚ}
      (hone : legs.countP (·.amount.isNone) = 1)
      (hwritten : legs.filterMap (·.amount) = first :: others)
      (haddUp : AddUp first.currency (first :: others) worths)
      (h : inferred.Denotes (-worths.sum) first.currency []) : Infers legs (some inferred)

theorem ofLegs_outcome_of_complete (header : Header) {legs : List (Leg κ)}
    (hnone : legs.countP (·.amount.isNone) = 0) :
    Outcome (ofLegs header legs) (LegsRefused legs)
      (· = ofExchanges header (legs.filterMap writtenExchange?)) := by
  have hcomplete : ofLegs header legs =
      .ok (ofExchanges header (legs.filterMap writtenExchange?)) := by
    unfold ofLegs
    rw [hnone]
    rfl
  have hnot (error : BalanceError κ) : ¬ LegsRefused legs error := by
    intro h
    cases h <;> omega
  exact .of_ok hcomplete hnot rfl

theorem ofLegs_outcome_of_nothing (header : Header) {legs : List (Leg κ)}
    (hone : legs.countP (·.amount.isNone) = 1) (hwritten : legs.filterMap (·.amount) = [])
    {wanted : Transaction κ → Prop} : Outcome (ofLegs header legs) (LegsRefused legs) wanted := by
  have hnothing : ofLegs header legs = .error .nothingWritten := by
    unfold ofLegs
    rw [hone, hwritten]
    rfl
  apply Outcome.of_error hnothing
  intro error
  constructor
  · intro h
    cases h with
    | tooManyElided hmany => omega
    | nothingWritten => rfl
    | arithmetic _ hwritten' =>
      rw [hwritten] at hwritten'
      contradiction
  · rintro rfl
    exact .nothingWritten hone hwritten

theorem legsRefused_arithmetic_iff {legs : List (Leg κ)} {first : Amount κ}
    {others : List (Amount κ)} (hone : legs.countP (·.amount.isNone) = 1)
    (hwritten : legs.filterMap (·.amount) = first :: others) {error : BalanceError κ} :
    LegsRefused legs error ↔
      ∃ cause, RunRefused first.currency 0 (first :: others) cause ∧ error = .arithmetic cause := by
  constructor
  · intro h
    cases h with
    | tooManyElided hmany => omega
    | nothingWritten _ hnothing =>
      rw [hwritten] at hnothing
      contradiction
    | arithmetic _ hwritten' hrefused =>
      cases hwritten.symm.trans hwritten'
      exact ⟨_, hrefused, rfl⟩
  · rintro ⟨cause, hrefused, rfl⟩
    exact .arithmetic hone hwritten hrefused

theorem ofLegs_outcome_of_written (header : Header) {legs : List (Leg κ)} {first : Amount κ}
    {others : List (Amount κ)} (hone : legs.countP (·.amount.isNone) = 1)
    (hwritten : legs.filterMap (·.amount) = first :: others) :
    Outcome (ofLegs header legs) (LegsRefused legs) fun t =>
      ∃ inferred, t = ofExchanges header (legs.map (exchangeOf inferred)) ∧
        Infers legs (some inferred) := by
  have hlegs : ofLegs header legs =
      (inferredAmount first (first :: others)).mapError .arithmetic >>= fun inferred =>
        pure (ofExchanges header (legs.map (exchangeOf inferred))) := by
    unfold ofLegs
    rw [hone, hwritten]
    cases h : inferredAmount first (first :: others) <;> simp only [h] <;> rfl
  have hinferred :=
    (inferredAmount_outcome first (first :: others)).mapError BalanceError.arithmetic
  rw [hlegs]
  apply (hinferred.imp (fun _ => (legsRefused_arithmetic_iff hone hwritten).symm) fun _ => id).map
  rintro inferred ⟨worths, haddUp, hvalue⟩
  exact ⟨inferred, rfl, .negated hone hwritten haddUp hvalue⟩

theorem ofLegs_outcome_of_many (header : Header) {legs : List (Leg κ)}
    (h : 2 ≤ legs.countP (·.amount.isNone)) {wanted : Transaction κ → Prop} :
    Outcome (ofLegs header legs) (LegsRefused legs) wanted := by
  obtain ⟨n, hn⟩ := Nat.exists_eq_add_of_le' h
  have hmany : ofLegs header legs = .error (.tooManyElided (legs.countP (·.amount.isNone))) := by
    unfold ofLegs
    rw [hn]
    rfl
  apply Outcome.of_error hmany
  intro error
  constructor
  · intro hrefused
    cases hrefused with
    | tooManyElided => rfl
    | nothingWritten hone => omega
    | arithmetic hone => omega
  · rintro rfl
    exact .tooManyElided h

/-- The legs of a transaction are refused if two or more have no amount, which are counted, or if
the only one has none. With one amount left out among others, these are added in their order in the
currency of the first, and the first refusal on the way is the error: a leg without a price for that
currency, or a product or a total that does not fit the precision. Otherwise every leg becomes an
exchange of its account. The written amounts stay as they are, and the one left out, if any, is
marked as elided; it has no prices, and its nominal is the exact sum of what the written ones are
worth, negated. -/
theorem ofLegs_outcome (header : Header) (legs : List (Leg κ)) :
    Outcome (ofLegs header legs) (LegsRefused legs) fun t =>
      ∃ inferred? exchanges, t = ⟨header.state, header.payee, header.title, exchanges⟩ ∧
        Infers legs inferred? ∧ List.Forall₂ (Completed inferred?) legs exchanges := by
  obtain hnone | hone | hmany : legs.countP (·.amount.isNone) = 0 ∨
      legs.countP (·.amount.isNone) = 1 ∨ 2 ≤ legs.countP (·.amount.isNone) := by omega
  · apply (ofLegs_outcome_of_complete header hnone).imp fun _ => Iff.rfl
    rintro t rfl
    exact ⟨none, _, rfl, .nothing hnone, completed_none hnone⟩
  · cases hwritten : legs.filterMap (·.amount) with
    | nil => exact ofLegs_outcome_of_nothing header hone hwritten
    | cons first others =>
      apply (ofLegs_outcome_of_written header hone hwritten).imp fun _ => Iff.rfl
      rintro t ⟨inferred, rfl, hinfers⟩
      exact ⟨some inferred, _, rfl, hinfers, completed_some inferred legs⟩
  · exact ofLegs_outcome_of_many header hmany

/-- The leg without a price comes before the one whose digits are too many for the total. -/
example : ofLegs ⟨.settled, none, "Travel"⟩
    [⟨⟨.assets, [0]⟩, none⟩, ⟨⟨.expenses, [1]⟩, some ⟨⟨false, 1, 49⟩, 0, []⟩⟩,
      ⟨⟨.expenses, [2]⟩, some ⟨⟨false, 30, 0⟩, 1, []⟩⟩,
      ⟨⟨.expenses, [3]⟩, some ⟨⟨false, 1, -2⟩, 0, []⟩⟩] =
    .error (.arithmetic (.noPrice 1 0) : BalanceError Int) := by decide +kernel

end DoubleEntry.Transaction
