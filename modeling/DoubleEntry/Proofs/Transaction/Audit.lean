import DoubleEntry.Proofs.Transaction.Inferred

/-! The audit of a transaction against exact arithmetic: what it finds is a matter of what the
amounts are worth in the currency of the first written one, and of which numbers fit the precision.
-/
namespace DoubleEntry.Transaction

open Amount (AddUp)

variable {κ : Type}

def amounts (t : Transaction κ) : List (Amount κ) := t.exchanges.map (·.amount)

theorem kinds_structureIssues (t : Transaction κ) :
    t.structureIssues.map Issue.kind = if t.exchanges.length < 2 then [.unbalanced] else [] := by
  unfold structureIssues
  by_cases hfew : t.exchanges.length ≤ 1
  · rw [if_pos hfew, if_pos (by omega)]
    rfl
  · rw [if_neg hfew, if_neg (by omega)]
    rfl

theorem structureIssues_eq_nil_iff {t : Transaction κ} :
    t.structureIssues = [] ↔ 2 ≤ t.exchanges.length := by
  unfold structureIssues
  by_cases hfew : t.exchanges.length ≤ 1
  · rw [if_pos hfew]
    exact iff_of_false (List.cons_ne_nil _ _) (by omega)
  · rw [if_neg hfew]
    exact iff_of_true rfl (by omega)

/-- A transaction made of written amounts, or of these and an inferred one, has a written amount. -/
theorem exists_anchor_of_ofLegs [DecidableEq κ] {header : Header} {legs : List (Leg κ)}
    {t : Transaction κ} (h : ofLegs header legs = .ok t) (hne : t.exchanges ≠ []) :
    ∃ anchor, t.anchor? = some anchor := by
  by_cases hone : legs.countP (·.amount.isNone) = 1
  · obtain ⟨first, others, inferred, hwritten, _, rfl⟩ := exists_inferred_of_ofLegs hone h
    rw [anchor?_of_exchangeOf, hwritten]
    exact ⟨first.currency, rfl⟩
  · unfold ofLegs at h
    split at h
    · cases h
      obtain ⟨exchange, rest, hexchanges⟩ := List.exists_cons_of_ne_nil hne
      change legs.filterMap writtenExchange? = _ at hexchanges
      have hmem : exchange ∈ legs.filterMap writtenExchange? := by
        rw [hexchanges]
        exact List.mem_cons_self
      obtain ⟨leg, _, hexchange⟩ := List.mem_filterMap.1 hmem
      obtain ⟨amount, _, rfl⟩ := Option.map_eq_some_iff.1 hexchange
      unfold anchor? ofExchanges
      rw [hexchanges]
      exact ⟨amount.currency, rfl⟩
    · contradiction
    · contradiction

variable [DecidableEq κ] {anchor : κ} {t : Transaction κ}

/-- What the audit finds beside too few exchanges: an error where the amounts do not add up in the
currency, and a total where they add up to something else than zero. -/
inductive SumAudit (anchor : κ) (t : Transaction κ) : List (Issue κ) → Prop where
  | zero {worths : List ℚ} (h : AddUp anchor t.amounts worths) (hsum : worths.sum = 0) :
      SumAudit anchor t []
  | nonzero {worths : List ℚ} (total : Decimal) (h : AddUp anchor t.amounts worths)
      (hsum : worths.sum ≠ 0) : SumAudit anchor t [.nonzeroSum total]
  | noSum (error : ArithmeticError κ) (h : ¬ ∃ worths, AddUp anchor t.amounts worths) :
      SumAudit anchor t [.noSum error]

theorem sumAudit_of_anchor? (h : t.anchor? = some anchor) : SumAudit anchor t t.sumIssues := by
  have hrun := Amount.addAll_zero_outcome anchor t.amounts
  have hsum : t.sum = some <$> (Amount.zero anchor).addAll t.amounts := sum_of_anchor? h
  unfold sumIssues
  rw [hsum]
  cases hadd : (Amount.zero anchor).addAll t.amounts with
  | ok total =>
    obtain ⟨worths, haddUp, hvalue⟩ := hrun.wanted total hadd
    by_cases hzero : worths.sum = 0
    · have hissues : total.isZero = true := by rwa [Amount.isZero_iff, hvalue.value]
      simp only [Functor.map, Except.map, hissues]
      exact .zero haddUp hzero
    · have hissues : total.isZero = false := by
        rwa [← Bool.not_eq_true, Amount.isZero_iff, hvalue.value]
      simp only [Functor.map, Except.map, hissues]
      exact .nonzero total.nominal haddUp hzero
  | error error => exact .noSum error ((hrun.error_iff error).1 hadd).not_addUp

/-- Without exchanges there is nothing to add. -/
theorem sumAudit_of_no_exchanges (anchor : κ) (h : t.exchanges = []) :
    SumAudit anchor t t.sumIssues := by
  have hamounts : t.amounts = [] := by
    unfold amounts
    rw [h]
    rfl
  have hnone : t.sumIssues = [] := by
    unfold sumIssues sum anchor?
    rw [h]
    rfl
  have haddUp : AddUp anchor t.amounts [] := by
    rw [hamounts]
    exact ⟨rfl, fun _ hmem => absurd hmem List.not_mem_nil, trivial⟩
  rw [hnone]
  exact .zero haddUp rfl

theorem SumAudit.eq_nil_iff {found : List (Issue κ)} (h : SumAudit anchor t found) :
    found = [] ↔ ∃ worths, AddUp anchor t.amounts worths ∧ worths.sum = 0 := by
  cases h with
  | zero haddUp hsum => exact iff_of_true rfl ⟨_, haddUp, hsum⟩
  | nonzero total haddUp hsum =>
    apply iff_of_false (List.cons_ne_nil _ _)
    rintro ⟨worths', haddUp', hzero⟩
    exact hsum (haddUp.unique haddUp' ▸ hzero)
  | noSum error hnot =>
    apply iff_of_false (List.cons_ne_nil _ _)
    rintro ⟨worths, haddUp, _⟩
    exact hnot ⟨worths, haddUp⟩

theorem SumAudit.kinds_eq_other_iff {found : List (Issue κ)} (h : SumAudit anchor t found) :
    found.map Issue.kind = [.other] ↔ ¬ ∃ worths, AddUp anchor t.amounts worths := by
  cases h with
  | zero haddUp hsum => exact iff_of_false (List.cons_ne_nil _ _).symm (not_not_intro ⟨_, haddUp⟩)
  | nonzero total haddUp hsum =>
    exact iff_of_false (by simp [Issue.kind]) (not_not_intro ⟨_, haddUp⟩)
  | noSum error hnot => exact iff_of_true rfl hnot

theorem SumAudit.kinds_eq_notZeroSum_iff {found : List (Issue κ)} (h : SumAudit anchor t found) :
    found.map Issue.kind = [.notZeroSum] ↔
      ∃ worths, AddUp anchor t.amounts worths ∧ worths.sum ≠ 0 := by
  cases h with
  | zero haddUp hsum =>
    apply iff_of_false (List.cons_ne_nil _ _).symm
    rintro ⟨worths', haddUp', hne⟩
    exact hne (haddUp.unique haddUp' ▸ hsum)
  | nonzero total haddUp hsum => exact iff_of_true rfl ⟨_, haddUp, hsum⟩
  | noSum error hnot =>
    apply iff_of_false (by simp [Issue.kind])
    rintro ⟨worths, haddUp, _⟩
    exact hnot ⟨worths, haddUp⟩

/-! ## The whole audit -/

/-- What the audit finds in a transaction, given the currency of its totals. -/
structure AuditedIn (anchor : κ) (t : Transaction κ) : Prop where
  balanced : t.isBalanced .withSum = true ↔
    2 ≤ t.exchanges.length ∧ ∃ worths, AddUp anchor t.amounts worths ∧ worths.sum = 0
  kinds : ∃ found, (t.issues .withSum).map Issue.kind =
      (if t.exchanges.length < 2 then [.unbalanced] else []) ++ found ∧
    found ∈ [[], [.other], [.notZeroSum]] ∧
    (found = [.other] ↔ ¬ ∃ worths, AddUp anchor t.amounts worths) ∧
    (found = [.notZeroSum] ↔ ∃ worths, AddUp anchor t.amounts worths ∧ worths.sum ≠ 0)

theorem SumAudit.auditedIn (h : SumAudit anchor t t.sumIssues) : AuditedIn anchor t where
  balanced := by
    unfold isBalanced issues
    rw [List.isEmpty_iff, List.append_eq_nil_iff, structureIssues_eq_nil_iff, h.eq_nil_iff]
  kinds := by
    refine ⟨t.sumIssues.map Issue.kind, ?_, ?_, h.kinds_eq_other_iff, h.kinds_eq_notZeroSum_iff⟩
    · unfold issues
      rw [List.map_append, kinds_structureIssues]
    · generalize t.sumIssues = found at h
      cases h <;> simp [Issue.kind]

theorem auditedIn_of_anchor? (h : t.exchanges ≠ [] → t.anchor? = some anchor) :
    AuditedIn anchor t := by
  by_cases hnone : t.exchanges = []
  · exact (sumAudit_of_no_exchanges anchor hnone).auditedIn
  · exact (sumAudit_of_anchor? (h hnone)).auditedIn

end DoubleEntry.Transaction
