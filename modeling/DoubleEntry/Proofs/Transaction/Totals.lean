import DoubleEntry.Proofs.Transaction.Audit

/-! The totals of a transaction: its sum, its debits and its credits. All three run over what the
amounts are worth in the currency of the first written one, but each counts another part of it. -/
namespace DoubleEntry

namespace Amount

variable {κ : Type} [DecidableEq κ] {total a b : Amount κ} {part : ℚ → ℚ}
  {step : Amount κ → Amount κ → Except (ArithmeticError κ) (Amount κ)}

/-- Wherever the step succeeds, the total grows by a part of what the amount is worth in its
currency. -/
def Counts (part : ℚ → ℚ) (step : Amount κ → Amount κ → Except (ArithmeticError κ) (Amount κ)) :
    Prop :=
  ∀ total a b, step total a = .ok b → ∃ q, a.worth? total.currency = some q ∧
    b.Denotes (total.nominal.toRat + part q) total.currency total.prices

theorem counts_add : Counts (κ := κ) id add := by
  intro total a b h
  obtain ⟨q, hadds, hb⟩ := (total.add_outcome a).wanted b h
  exact ⟨q, hadds.worth, hb⟩

theorem counts_sub : Counts (κ := κ) (fun q => -q) sub := by
  intro total a b h
  obtain ⟨q, hworth, hb⟩ := (total.sub_outcome a).wanted b h
  rw [sub_eq_add_neg] at hb
  exact ⟨q, hworth, hb⟩

/-- A step that counts only those of the converted amounts that pass a test. -/
theorem Counts.onlyIf (hstep : Counts part step) {test : Decimal → Bool} {part' : ℚ → ℚ}
    (hpass : ∀ d, test d = true → part' d.toRat = part d.toRat)
    (hfail : ∀ d, test d ≠ true → part' d.toRat = 0) :
    Counts part' fun total a => do
      let converted ← a.convertTo total.currency
      if test converted.nominal then step total converted else return total := by
  intro total a b h
  obtain ⟨converted, hconverted, h⟩ := bind_eq_ok_iff.1 h
  obtain ⟨-, hworth⟩ := exists_worth_of_convertTo hconverted
  refine ⟨_, hworth, ?_⟩
  split at h
  · rename_i htest
    obtain ⟨q, hq, hb⟩ := hstep total converted b h
    rw [worth?_of_eq (currency_of_convertTo hconverted)] at hq
    cases hq
    rwa [hpass _ htest]
  · rename_i htest
    cases h
    rw [hfail _ htest, add_zero]
    exact ⟨rfl, rfl, rfl⟩

theorem counts_addDebit : Counts (κ := κ) posPart Transaction.addDebit := by
  apply counts_add.onlyIf
  · exact fun d hpositive => posPart_of_nonneg (Decimal.isPositive_iff.1 hpositive).le
  · intro d hpositive
    rw [Ne, Decimal.isPositive_iff, not_lt] at hpositive
    exact posPart_of_nonpos hpositive

theorem counts_subCredit : Counts (κ := κ) negPart Transaction.subCredit := by
  apply counts_sub.onlyIf
  · exact fun d hnegative => negPart_of_nonpos (Decimal.isNegative_iff.1 hnegative).le
  · intro d hnegative
    rw [Ne, Decimal.isNegative_iff, not_lt] at hnegative
    exact negPart_of_nonneg hnegative

/-- Over a run, the total grows by the parts of all amounts. -/
theorem Counts.foldlM (hstep : Counts part step) {amounts : List (Amount κ)}
    (h : amounts.foldlM step total = .ok b) :
    b.Denotes
      (total.nominal.toRat + ((amounts.filterMap (·.worth? total.currency)).map part).sum)
      total.currency total.prices := by
  induction amounts generalizing total with
  | nil =>
    cases h
    exact ⟨by simp, rfl, rfl⟩
  | cons a amounts ih =>
    rw [List.foldlM_cons] at h
    obtain ⟨next, hnext, h⟩ := bind_eq_ok_iff.1 h
    obtain ⟨q, hworth, hdenotes⟩ := hstep total a next hnext
    have hrest := ih h
    rw [hdenotes.value, hdenotes.currency, hdenotes.prices] at hrest
    have hcons : (a :: amounts).filterMap (·.worth? total.currency) =
        q :: amounts.filterMap (·.worth? total.currency) := List.filterMap_cons_some hworth
    rwa [hcons, List.map_cons, List.sum_cons, ← add_assoc]

end Amount

namespace Transaction

open Amount (Counts)

variable {κ : Type} [DecidableEq κ] {t t' : Transaction κ} {part : ℚ → ℚ}
  {step : Amount κ → Amount κ → Except (ArithmeticError κ) (Amount κ)}

/-- What the amounts are worth in the currency of the first written one. -/
def worths (t : Transaction κ) : List ℚ :=
  match t.anchor? with
  | none => []
  | some anchor => t.amounts.filterMap (·.worth? anchor)

theorem worths_of_anchor? {anchor : κ} (h : t.anchor? = some anchor) :
    t.worths = t.amounts.filterMap (·.worth? anchor) := by
  unfold worths
  rw [h]

theorem toRat_of_totalBy (hstep : Counts part step) {d : Decimal} (h : t.totalBy step = .ok d) :
    d.toRat = (t.worths.map part).sum := by
  unfold totalBy at h
  cases hanchor : t.anchor? with
  | none =>
    rw [hanchor] at h
    cases h
    unfold worths
    rw [hanchor]
    exact Decimal.toRat_eq_zero_iff.2 rfl
  | some anchor =>
    rw [hanchor] at h
    obtain ⟨total, htotal, rfl⟩ := map_eq_ok_iff.1 h
    have hvalue := (hstep.foldlM htotal).value
    rw [Amount.toRat_zero, zero_add] at hvalue
    rw [worths_of_anchor? hanchor]
    exact hvalue

theorem denotes_of_sum {anchor : κ} (hanchor : t.anchor? = some anchor) {total : Option (Amount κ)}
    (h : t.sum = .ok total) : ∃ a, total = some a ∧ a.Denotes t.worths.sum anchor [] := by
  rw [sum_of_anchor? hanchor] at h
  obtain ⟨a, ha, rfl⟩ := map_eq_ok_iff.1 h
  have hvalue := Amount.counts_add.foldlM ha
  rw [Amount.toRat_zero, zero_add, List.map_id] at hvalue
  rw [worths_of_anchor? hanchor]
  exact ⟨a, rfl, hvalue⟩

theorem sum_of_no_anchor (hanchor : t.anchor? = none) : t.sum = .ok none := by
  unfold sum
  rw [hanchor]

/-- Debits and credits are what a number is made of. -/
theorem sum_parts (worths : List ℚ) :
    worths.sum = (worths.map posPart).sum - (worths.map negPart).sum := by
  induction worths with
  | nil => simp
  | cons q worths ih =>
    rw [List.map_cons, List.map_cons, List.sum_cons, List.sum_cons, List.sum_cons, ih,
      add_sub_add_comm, posPart_sub_negPart]

theorem notZeroSum_mem_iff {anchor : κ} (hanchor : t.anchor? = some anchor)
    {total : Option (Amount κ)} (h : t.sum = .ok total) :
    .notZeroSum ∈ (t.issues .withSum).map Issue.kind ↔ t.worths.sum ≠ 0 := by
  obtain ⟨a, rfl, hvalue⟩ := denotes_of_sum hanchor h
  have hstructure : .notZeroSum ∉ t.structureIssues.map Issue.kind := by
    rw [kinds_structureIssues]
    split <;> simp
  change _ ∈ (t.structureIssues ++ t.sumIssues).map Issue.kind ↔ _
  rw [List.map_append, List.mem_append, or_iff_right hstructure]
  unfold sumIssues
  rw [h, ← hvalue.value, Ne, ← Amount.isZero_iff]
  cases hzero : a.isZero <;> simp [hzero, Issue.kind]

theorem worths_perm (hperm : t'.exchanges.Perm t.exchanges) (hanchor : t'.anchor? = t.anchor?) :
    t'.worths.Perm t.worths := by
  unfold worths
  rw [hanchor]
  cases t.anchor? with
  | none => exact .nil
  | some anchor => exact (hperm.map _).filterMap _

theorem sum_worths {d c : Decimal} (hdebited : t.totalDebited = .ok d)
    (hcredited : t.totalCredited = .ok c) : t.worths.sum = d.toRat - c.toRat := by
  rw [toRat_of_totalBy Amount.counts_addDebit hdebited,
    toRat_of_totalBy Amount.counts_subCredit hcredited, sum_parts]

theorem sum_eq_debits_sub_credits {total : Option (Amount κ)} {d c : Decimal}
    (hsum : t.sum = .ok total) (hdebited : t.totalDebited = .ok d)
    (hcredited : t.totalCredited = .ok c) :
    total.elim 0 (·.nominal.toRat) = d.toRat - c.toRat := by
  rw [← sum_worths hdebited hcredited]
  cases hanchor : t.anchor? with
  | none =>
    rw [sum_of_no_anchor hanchor] at hsum
    cases hsum
    unfold worths
    rw [hanchor]
    rfl
  | some anchor =>
    obtain ⟨a, rfl, hvalue⟩ := denotes_of_sum hanchor hsum
    exact hvalue.value

theorem canonical_sum_of_perm (hperm : t'.exchanges.Perm t.exchanges)
    (hanchor : t'.anchor? = t.anchor?) {total total' : Option (Amount κ)}
    (h : t.sum = .ok total) (h' : t'.sum = .ok total') :
    total'.map (·.canonical) = total.map (·.canonical) := by
  cases hnone : t.anchor? with
  | none =>
    rw [sum_of_no_anchor hnone] at h
    rw [sum_of_no_anchor (hanchor.trans hnone)] at h'
    cases h
    cases h'
    rfl
  | some anchor =>
    obtain ⟨a, rfl, ha⟩ := denotes_of_sum hnone h
    obtain ⟨a', rfl, ha'⟩ := denotes_of_sum (hanchor.trans hnone) h'
    have hvalue : a'.nominal.toRat = a.nominal.toRat := by
      rw [ha.value, ha'.value, (worths_perm hperm hanchor).sum_eq]
    unfold Amount.canonical
    rw [Option.map_some, Option.map_some, Decimal.canonical_eq_iff.2 hvalue, ha.currency,
      ha'.currency, ha.prices, ha'.prices]

theorem toRat_totalBy_of_perm (hstep : Counts part step) (hperm : t'.exchanges.Perm t.exchanges)
    (hanchor : t'.anchor? = t.anchor?) {d d' : Decimal} (h : t.totalBy step = .ok d)
    (h' : t'.totalBy step = .ok d') : d'.toRat = d.toRat := by
  rw [toRat_of_totalBy hstep h, toRat_of_totalBy hstep h']
  exact ((worths_perm hperm hanchor).map part).sum_eq

theorem toRat_totalBy_nonneg (hstep : Counts part step) (hpart : ∀ q, 0 ≤ part q) {d : Decimal}
    (h : t.totalBy step = .ok d) : 0 ≤ d.toRat := by
  rw [toRat_of_totalBy hstep h]
  exact List.sum_nonneg (List.forall_mem_map.2 fun q _ => hpart q)

/-- Debits and credits are never negative, and what they differ by is the sum: with a currency for
the totals, the audit finds a sum other than zero exactly where they differ. None of the three
depends on the order of the exchanges, as long as that leaves the currency of the totals. -/
theorem totals_agree (t : Transaction κ) :
    (∀ d, t.totalDebited = .ok d → 0 ≤ d.toRat) ∧ (∀ c, t.totalCredited = .ok c → 0 ≤ c.toRat) ∧
      (∀ total d c, t.sum = .ok total → t.totalDebited = .ok d → t.totalCredited = .ok c →
        total.elim 0 (·.nominal.toRat) = d.toRat - c.toRat ∧
          (t.anchor? ≠ none →
            (.notZeroSum ∈ (t.issues .withSum).map Issue.kind ↔ d.toRat ≠ c.toRat))) ∧
      ∀ t' : Transaction κ, t'.exchanges.Perm t.exchanges → t'.anchor? = t.anchor? →
        (∀ total total', t.sum = .ok total → t'.sum = .ok total' →
          total'.map (·.canonical) = total.map (·.canonical)) ∧
        (∀ d d', t.totalDebited = .ok d → t'.totalDebited = .ok d' → d'.toRat = d.toRat) ∧
        ∀ c c', t.totalCredited = .ok c → t'.totalCredited = .ok c' → c'.toRat = c.toRat := by
  refine ⟨fun d => toRat_totalBy_nonneg Amount.counts_addDebit posPart_nonneg,
    fun c => toRat_totalBy_nonneg Amount.counts_subCredit negPart_nonneg, ?_, ?_⟩
  · intro total d c hsum hdebited hcredited
    apply And.intro (sum_eq_debits_sub_credits hsum hdebited hcredited)
    intro hanchor
    obtain ⟨anchor, hanchor⟩ := Option.ne_none_iff_exists'.1 hanchor
    rw [notZeroSum_mem_iff hanchor hsum, sum_worths hdebited hcredited, sub_ne_zero]
  · intro t' hperm hanchor
    exact ⟨fun total total' => canonical_sum_of_perm hperm hanchor,
      fun d d' => toRat_totalBy_of_perm Amount.counts_addDebit hperm hanchor,
      fun c c' => toRat_totalBy_of_perm Amount.counts_subCredit hperm hanchor⟩

/-- A room and a meal, written at a price and paid in another currency, and more paid than written.
-/
def travel : Transaction Int :=
  ⟨.settled, none, "Travel",
    [⟨⟨.assets, [0]⟩, ⟨⟨true, 110, 0⟩, 0, []⟩, false⟩,
      ⟨⟨.expenses, [1]⟩, ⟨⟨false, 60, 0⟩, 1, [⟨⟨false, 11, -1⟩, 0⟩]⟩, false⟩,
      ⟨⟨.expenses, [2]⟩, ⟨⟨false, 30, 0⟩, 1, [⟨⟨false, 11, -1⟩, 0⟩]⟩, true⟩]⟩

/-- The inferred amount comes first, and still sets no currency. -/
def travelTurned : Transaction Int := { travel with exchanges := travel.exchanges.rotate 2 }

theorem totals_agree_travel :
    ∃ total total' d c, travel.sum = .ok total ∧ travelTurned.sum = .ok total' ∧
      travel.totalDebited = .ok d ∧ travel.totalCredited = .ok c ∧ 0 ≤ d.toRat ∧ 0 ≤ c.toRat ∧
      total.elim 0 (·.nominal.toRat) = d.toRat - c.toRat ∧ d.toRat ≠ c.toRat ∧
      total'.map (·.canonical) = total.map (·.canonical) := by
  have hsum : travel.sum = .ok (some ⟨⟨true, 110, -1⟩, 0, []⟩) := by decide +kernel
  have hturned : travelTurned.sum = .ok (some ⟨⟨true, 110, -1⟩, 0, []⟩) := by decide +kernel
  have hdebited : travel.totalDebited = .ok ⟨false, 990, -1⟩ := by decide +kernel
  have hcredited : travel.totalCredited = .ok ⟨false, 110, 0⟩ := by decide +kernel
  have hissue : .notZeroSum ∈ (travel.issues .withSum).map Issue.kind := by decide +kernel
  obtain ⟨hdebits, hcredits, hagree, horder⟩ := totals_agree travel
  obtain ⟨hdifference, hissues⟩ := hagree _ _ _ hsum hdebited hcredited
  obtain ⟨hsame, -⟩ := horder travelTurned (List.rotate_perm _ 2) (by decide)
  exact ⟨_, _, _, _, hsum, hturned, hdebited, hcredited, hdebits _ hdebited, hcredits _ hcredited,
    hdifference, (hissues (by decide)).1 hissue, hsame _ _ hsum hturned⟩

end Transaction
end DoubleEntry
