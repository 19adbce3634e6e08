import DoubleEntry.Proofs.Decimal.Value

/-! Exact arithmetic: every operation gives the rational result where that fits the precision, and
nothing where it does not. -/
namespace DoubleEntry.Decimal

/-! ## Digits and places -/

theorem powerOfTen_pos (k : Nat) : 0 < powerOfTen k := Nat.pos_of_ne_zero (powerOfTen_ne_zero k)

theorem powerOfTen_add (j k : Nat) : powerOfTen (j + k) = powerOfTen j * powerOfTen k :=
  Nat.pow_add 10 j k

theorem lt_powerOfTen_digitCount (n : Nat) : n < powerOfTen (digitCount n) :=
  (digitCount_le_iff (digitCount_pos n)).1 Nat.le.refl

theorem lt_digitCount_iff {n k : Nat} (h : n ≠ 0) : k < digitCount n ↔ powerOfTen k ≤ n := by
  cases k with
  | zero =>
    have hone : powerOfTen 0 = 1 := rfl
    have := digitCount_pos n
    omega
  | succ k =>
    have := digitCount_le_iff (n := n) (k := k + 1) (by omega)
    omega

theorem digitCount_mul_powerOfTen {n : Nat} (h : n ≠ 0) (k : Nat) :
    digitCount (n * powerOfTen k) = digitCount n + k := by
  have hlow := (lt_digitCount_iff (k := digitCount n - 1) h).1 (by have := digitCount_pos n; omega)
  have hne : n * powerOfTen k ≠ 0 := Nat.mul_ne_zero h (powerOfTen_ne_zero k)
  apply Nat.le_antisymm
  · have hpos := digitCount_pos n
    rw [digitCount_le_iff (by omega), powerOfTen_add]
    exact Nat.mul_lt_mul_of_pos_right (lt_powerOfTen_digitCount n) (powerOfTen_pos k)
  · have hpos := digitCount_pos n
    have hlt : digitCount n - 1 + k < digitCount (n * powerOfTen k) := by
      rw [lt_digitCount_iff hne, powerOfTen_add]
      exact Nat.mul_le_mul_right _ hlow
    omega

theorem lt_digitCount_of_dvd {n k : Nat} (h : n ≠ 0) (hdvd : powerOfTen k ∣ n) :
    k < digitCount n :=
  (lt_digitCount_iff h).2 (Nat.le_of_dvd (Nat.pos_of_ne_zero h) hdvd)

theorem toRat_eq_zero_iff {d : Decimal} : d.toRat = 0 ↔ d.coefficient = 0 := by
  have hten : (10 : ℚ) ^ d.exponent ≠ 0 := zpow_ne_zero _ (by norm_num)
  unfold toRat
  rw [mul_eq_zero, or_iff_left hten, Int.cast_eq_zero, ← Int.natAbs_eq_zero, natAbs_signed]

theorem toRat_ne_zero_iff {d : Decimal} : d.toRat ≠ 0 ↔ d.coefficient ≠ 0 :=
  toRat_eq_zero_iff.not

/-- Where the leading digit stands is a matter of the value. -/
theorem adjusted_eq_of_toRat {d e : Decimal} (hne : d.coefficient ≠ 0) (h : d.toRat = e.toRat) :
    d.adjusted = e.adjusted := by
  have key {d e : Decimal} (hne : e.coefficient ≠ 0) (hle : d.exponent ≤ e.exponent)
      (h : d.toRat = e.toRat) : d.adjusted = e.adjusted := by
    obtain ⟨k, hk⟩ := Int.le.dest hle
    have hsigned := congrArg Int.natAbs (signed_eq_of_toRat hk h)
    rw [Int.natAbs_mul, Int.natAbs_natCast, natAbs_signed, natAbs_signed] at hsigned
    unfold adjusted
    rw [hsigned, digitCount_mul_powerOfTen hne]
    push_cast
    omega
  have hne' : e.coefficient ≠ 0 := by
    rwa [← toRat_ne_zero_iff, ← h, toRat_ne_zero_iff]
  rcases Int.le_total d.exponent e.exponent with hle | hle
  · exact key hne' hle h
  · exact (key hne hle h.symm).symm

/-! ## What fits -/

/-- The number with this sign and digits at an exponent. -/
def ofSigned (n exponent : Int) : Decimal := ⟨n < 0, n.natAbs, exponent⟩

theorem signed_ofSigned (n exponent : Int) : (ofSigned n exponent).signed = n := by
  unfold signed ofSigned
  simp only [decide_eq_true_eq]
  split <;> omega

theorem toRat_ofSigned (n exponent : Int) :
    (ofSigned n exponent).toRat = (n : ℚ) * 10 ^ exponent := by
  unfold toRat
  rw [signed_ofSigned]
  rfl

/-- The lowest place that the last digit may take once the leading one is given. -/
def lowestPlace (d : Decimal) : Int := max (d.adjusted - (precision - 1)) tiniestExponent

theorem representable_zero : Representable 0 :=
  ⟨0, tiniestExponent, by simp, by decide, Int.le_refl _, by simp⟩

theorem Representable.neg {q : ℚ} (h : Representable q) : Representable (-q) := by
  obtain ⟨c, e, rfl, hdigits, hlow, hhigh⟩ := h
  refine ⟨-c, e, by push_cast; ring, by rwa [Int.natAbs_neg], hlow, fun hne => ?_⟩
  rw [Int.natAbs_neg]
  exact hhigh (by omega)

theorem representable_neg_iff {q : ℚ} : Representable (-q) ↔ Representable q :=
  ⟨fun h => by simpa using h.neg, Representable.neg⟩

theorem representable_of_lowestPlace_le {d : Decimal} (hlow : d.lowestPlace ≤ d.exponent)
    (hhigh : d.adjusted ≤ largestExponent) : Representable d.toRat := by
  unfold lowestPlace at hlow
  have hadjusted : d.adjusted = d.exponent + digitCount d.coefficient - 1 := rfl
  have hprecision : precision = 50 := rfl
  refine ⟨d.signed, d.exponent, rfl, ?_, by omega, fun _ => ?_⟩
  · rw [natAbs_signed]
    exact (digitCount_le_iff (by decide)).1 (by omega)
  · rw [natAbs_signed]
    exact hhigh

/-- A nonzero number fits where its leading digit is not too high and nothing stands below the
lowest place. -/
theorem representable_iff {d : Decimal} (hne : d.coefficient ≠ 0) :
    Representable d.toRat ↔ d.adjusted ≤ largestExponent ∧
      powerOfTen (d.lowestPlace - d.exponent).toNat ∣ d.coefficient := by
  constructor
  · rintro ⟨c, e, hq, hdigits, hlow, hhigh⟩
    rw [← toRat_ofSigned] at hq
    have hadjusted := adjusted_eq_of_toRat hne hq
    have hc : (ofSigned c e).coefficient ≠ 0 := by
      rwa [← toRat_ne_zero_iff, ← hq, toRat_ne_zero_iff]
    have hplace : d.lowestPlace ≤ e := by
      have hcount := (digitCount_le_iff (k := precision) (by decide)).2 hdigits
      have hadj : (ofSigned c e).adjusted = e + digitCount c.natAbs - 1 := rfl
      unfold lowestPlace
      omega
    refine ⟨hadjusted ▸ hhigh (Int.natAbs_ne_zero.1 hc), ?_⟩
    -- only where the other exponent is higher does the coefficient have to end in zeros
    rcases Int.le_total d.exponent e with hle | hle
    · obtain ⟨k, hk⟩ := Int.le.dest hle
      have hsigned := congrArg Int.natAbs (signed_eq_of_toRat (e := ofSigned c e) hk hq)
      rw [Int.natAbs_mul, Int.natAbs_natCast, natAbs_signed] at hsigned
      rw [hsigned]
      exact Dvd.dvd.mul_left (Nat.pow_dvd_pow 10 (by omega)) _
    · rw [Int.toNat_of_nonpos (by omega)]
      exact Nat.one_dvd _
  · rintro ⟨hhigh, m, hm⟩
    have hm0 : m ≠ 0 := by
      rintro rfl
      exact hne hm
    rcases Int.le_total d.lowestPlace d.exponent with hle | hle
    · exact representable_of_lowestPlace_le hle hhigh
    · -- the zeros below the lowest place move into the exponent
      let r : Decimal := ⟨d.negative, m, d.lowestPlace⟩
      have hr : d.toRat = r.toRat := by
        have hstep :=
          toRat_mul_powerOfTen d.negative m (d.lowestPlace - d.exponent).toNat d.exponent
        rw [mul_comm m, ← hm, Int.toNat_of_nonneg (by omega), add_sub_cancel] at hstep
        exact hstep
      have hadjusted := adjusted_eq_of_toRat hne hr
      rw [hr]
      apply representable_of_lowestPlace_le (d := r)
      · unfold lowestPlace
        rw [← hadjusted]
        exact Int.le_refl _
      · omega

/-! ## Operations -/

/-- The given value, or nothing where the value does not fit. -/
def Settles (result : Option Decimal) (q : ℚ) : Prop :=
  (∀ r, result = some r → r.toRat = q) ∧ (result.isSome = true ↔ Representable q)

theorem toRat_rescale? {d r : Decimal} {exponent : Int} (h : d.rescale? exponent = some r) :
    r.toRat = d.toRat := by
  unfold rescale? at h
  split at h
  · rename_i hle
    cases h
    have hstep :=
      toRat_mul_powerOfTen d.negative d.coefficient (d.exponent - exponent).toNat exponent
    rwa [Int.toNat_of_nonneg (by omega), add_sub_cancel] at hstep
  · simp only at h
    split at h
    · rename_i hlt hdrop
      cases h
      have hstep := toRat_mul_powerOfTen d.negative
        (d.coefficient / powerOfTen (exponent - d.exponent).toNat) (exponent - d.exponent).toNat
        d.exponent
      rw [Nat.div_mul_cancel (Nat.dvd_of_mod_eq_zero hdrop.2), Int.toNat_of_nonneg (by omega),
        add_sub_cancel] at hstep
      exact hstep.symm
    · contradiction

theorem isSome_rescale?_iff {d : Decimal} (hne : d.coefficient ≠ 0) (exponent : Int) :
    (d.rescale? exponent).isSome = true ↔
      powerOfTen (exponent - d.exponent).toNat ∣ d.coefficient := by
  unfold rescale?
  split
  · rename_i hle
    have hzero : (exponent - d.exponent).toNat = 0 := by omega
    rw [hzero]
    exact ⟨fun _ => Nat.one_dvd _, fun _ => rfl⟩
  · simp only
    split
    · rename_i hdrop
      simpa using Nat.dvd_of_mod_eq_zero hdrop.2
    · rename_i hdrop
      simp only [Option.isSome_none, Bool.false_eq_true, false_iff]
      exact fun hdvd => hdrop ⟨lt_digitCount_of_dvd hne hdvd, Nat.mod_eq_zero_of_dvd hdvd⟩

theorem settles_settle {d : Decimal} {ideal : Int} (h : ideal ≤ d.exponent) :
    Settles (d.settle ideal) d.toRat := by
  unfold settle
  split
  · rename_i hzero
    have hq := toRat_eq_zero_iff.2 hzero
    rw [hq]
    refine ⟨fun r hr => ?_, by simpa using representable_zero⟩
    cases hr
    exact toRat_eq_zero_iff.2 hzero
  rename_i hne
  split
  · rename_i hhigh
    refine ⟨fun r hr => by contradiction, ?_⟩
    simp only [Option.isSome_none, Bool.false_eq_true, false_iff, representable_iff hne]
    omega
  · rename_i hhigh
    refine ⟨fun r hr => toRat_rescale? hr, ?_⟩
    rw [isSome_rescale?_iff hne, representable_iff hne, and_iff_right (by omega)]
    have hplace : (max ideal (max (d.adjusted - (precision - 1)) tiniestExponent) -
        d.exponent).toNat = (d.lowestPlace - d.exponent).toNat := by
      unfold lowestPlace
      omega
    rw [hplace]

theorem settles_neg? (d : Decimal) : Settles d.neg? (-d.toRat) := by
  have hq : -d.toRat = toRat { d with negative := !d.negative && d.coefficient ≠ 0 } := by
    unfold toRat signed
    by_cases hzero : d.coefficient = 0 <;> cases d.negative <;> simp [hzero]
  rw [hq]
  exact settles_settle (Int.le_refl _)

theorem settles_mul? (a b : Decimal) : Settles (a.mul? b) (a.toRat * b.toRat) := by
  have hq : a.toRat * b.toRat =
      toRat ⟨a.negative ^^ b.negative, a.coefficient * b.coefficient, a.exponent + b.exponent⟩ := by
    unfold toRat signed
    rw [zpow_add₀ (by norm_num)]
    cases a.negative <;> cases b.negative <;> simp <;> ring
  rw [hq]
  exact settles_settle (Int.le_refl _)

theorem signed_sumOf (low high : Decimal) :
    (sumOf low high).signed =
      low.signed + high.signed * powerOfTen (high.exponent - low.exponent).toNat :=
  signed_ofSigned _ low.exponent

theorem toRat_sumOf {low high : Decimal} (h : low.exponent ≤ high.exponent) :
    (sumOf low high).toRat = low.toRat + high.toRat := by
  have hexponent : (high.exponent - low.exponent).toNat + low.exponent = high.exponent := by omega
  have hhigh : high.toRat =
      (high.signed : ℚ) * powerOfTen (high.exponent - low.exponent).toNat * 10 ^ low.exponent := by
    unfold toRat
    rw [cast_powerOfTen, mul_assoc, ← zpow_natCast, ← zpow_add₀ (by norm_num), hexponent]
  rw [hhigh]
  unfold toRat
  rw [signed_sumOf]
  push_cast
  have hlow : (sumOf low high).exponent = low.exponent := rfl
  rw [hlow]
  ring

/-- Zeros at the end of a sum that do not reach up to the higher operand are zeros of the lower. -/
theorem dvd_coefficient_of_dvd_sumOf {low high : Decimal} {j : Nat}
    (hj : j ≤ (high.exponent - low.exponent).toNat)
    (h : powerOfTen j ∣ (sumOf low high).coefficient) : powerOfTen j ∣ low.coefficient := by
  have hhigh : (powerOfTen j : Int) ∣
      high.signed * powerOfTen (high.exponent - low.exponent).toNat :=
    Dvd.dvd.mul_left (Int.natCast_dvd_natCast.2 (Nat.pow_dvd_pow 10 hj)) _
  rw [← natAbs_signed, ← Int.natCast_dvd, signed_sumOf] at h
  rw [← natAbs_signed, ← Int.natCast_dvd]
  exact (Int.dvd_add_left hhigh).1 h

/-- A lower operand that ends before the higher one begins takes at most one digit off the sum. -/
theorem powerOfTen_le_coefficient_sumOf {low high : Decimal} {k : Nat}
    (hhigh : high.coefficient ≠ 0) (hk : (high.exponent - low.exponent).toNat = k + 1)
    (hlow : digitCount low.coefficient ≤ k) : powerOfTen k ≤ (sumOf low high).coefficient := by
  have hsmall : low.coefficient < powerOfTen k :=
    (lt_powerOfTen_digitCount _).trans_le (Nat.pow_le_pow_right (by decide) hlow)
  have hlarge : powerOfTen k * 10 ≤ (high.signed * powerOfTen (k + 1)).natAbs := by
    rw [Int.natAbs_mul, natAbs_signed, Int.natAbs_natCast, powerOfTen_succ]
    exact Nat.le_mul_of_pos_left _ (Nat.pos_of_ne_zero hhigh)
  rw [← natAbs_signed] at hsmall
  rw [← natAbs_signed, signed_sumOf, hk]
  omega

/-- Operands further apart than the precision: the lower one would lie below the last digit. -/
theorem not_representable_of_apart {low high : Decimal} (hlow : low.coefficient ≠ 0)
    (hhigh : high.coefficient ≠ 0) (h : (precision : Int) < high.exponent - low.adjusted) :
    ¬ Representable (low.toRat + high.toRat) := by
  have hprecision : precision = 50 := rfl
  have hadjusted : low.adjusted = low.exponent + digitCount low.coefficient - 1 := rfl
  have hpos := digitCount_pos low.coefficient
  obtain ⟨k, hk⟩ := Int.eq_ofNat_of_zero_le (a := high.exponent - low.exponent - 1) (by omega)
  have hwide : powerOfTen k ≤ (sumOf low high).coefficient :=
    powerOfTen_le_coefficient_sumOf hhigh (by omega) (by omega)
  have hne : (sumOf low high).coefficient ≠ 0 := by
    have := powerOfTen_pos k
    omega
  rw [← toRat_sumOf (by omega), representable_iff hne]
  rintro ⟨-, hdvd⟩
  have hplace :
      digitCount low.coefficient ≤ ((sumOf low high).lowestPlace - low.exponent).toNat := by
    have hcount := (lt_digitCount_iff hne).2 hwide
    have hsum : (sumOf low high).adjusted =
        low.exponent + digitCount (sumOf low high).coefficient - 1 := rfl
    unfold lowestPlace
    omega
  have hlowDvd : powerOfTen (digitCount low.coefficient) ∣ low.coefficient :=
    dvd_coefficient_of_dvd_sumOf (by omega) ((Nat.pow_dvd_pow 10 hplace).trans hdvd)
  exact Nat.lt_irrefl _ (lt_digitCount_of_dvd hlow hlowDvd)

theorem settles_sumOf {low high : Decimal} (hlow : low.coefficient ≠ 0)
    (hhigh : high.coefficient ≠ 0) (h : low.exponent ≤ high.exponent) :
    Settles (if (precision : Int) < high.exponent - low.adjusted then none
      else (sumOf low high).settle low.exponent) (low.toRat + high.toRat) := by
  split
  · rename_i hfar
    refine ⟨fun r hr => by contradiction, ?_⟩
    simpa using not_representable_of_apart hlow hhigh hfar
  · rw [← toRat_sumOf h]
    exact settles_settle (Int.le_refl _)

theorem settles_add? (a b : Decimal) : Settles (a.add? b) (a.toRat + b.toRat) := by
  unfold add?
  simp only
  split
  · rename_i ha
    rw [toRat_eq_zero_iff.2 ha, zero_add]
    split
    · rename_i hb
      have hq : b.toRat = toRat ⟨a.negative && b.negative, 0, min a.exponent b.exponent⟩ := by
        rw [toRat_eq_zero_iff.2 hb, toRat_eq_zero_iff.2 rfl]
      rw [hq]
      exact settles_settle (Int.le_refl _)
    · exact settles_settle (Int.min_le_right _ _)
  rename_i ha
  split
  · rename_i hb
    rw [toRat_eq_zero_iff.2 hb, add_zero]
    exact settles_settle (Int.min_le_left _ _)
  rename_i hb
  by_cases hle : a.exponent ≤ b.exponent
  · rw [if_pos hle, Int.min_eq_left hle]
    exact settles_sumOf ha hb hle
  · rw [if_neg hle, Int.min_eq_right (by omega), add_comm]
    exact settles_sumOf hb ha (Int.le_of_lt (Int.not_le.1 hle))

end DoubleEntry.Decimal
