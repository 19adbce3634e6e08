import DoubleEntry.Decimal.Value
import DoubleEntry.Proofs.Decimal.Nominal

/-! Canonical forms stand for values: two numbers share one exactly where they are equal as rational
numbers. -/
namespace DoubleEntry.Decimal

theorem cast_powerOfTen (k : Nat) : (powerOfTen k : ℚ) = 10 ^ k := by
  change ((10 ^ k : Nat) : ℚ) = 10 ^ k
  norm_num

theorem toRat_mul_powerOfTen (negative : Bool) (coefficient k : Nat) (exponent : Int) :
    toRat ⟨negative, coefficient * powerOfTen k, exponent⟩ =
      toRat ⟨negative, coefficient, exponent + k⟩ := by
  unfold toRat signed
  rw [zpow_add₀ (by norm_num), zpow_natCast, ← cast_powerOfTen]
  cases negative <;> simp <;> ring

theorem toRat_dropZeros (negative : Bool) (coefficient : Nat) (exponent : Int) :
    toRat ⟨negative, (dropZeros coefficient exponent).1, (dropZeros coefficient exponent).2⟩ =
      toRat ⟨negative, coefficient, exponent⟩ := by
  fun_induction dropZeros coefficient exponent with
  | case1 coefficient exponent hzero ih =>
    have hten : coefficient = coefficient / 10 * powerOfTen 1 := by
      change coefficient = coefficient / 10 * 10
      omega
    have hstep := toRat_mul_powerOfTen negative (coefficient / 10) 1 exponent
    rw [← hten] at hstep
    rw [ih, hstep]
    rfl
  | case2 coefficient exponent hlast => rfl

theorem toRat_canonical (d : Decimal) : d.canonical.toRat = d.toRat := by
  unfold canonical
  by_cases hzero : d.coefficient = 0
  · simp [hzero, toRat, signed, zero]
  · rw [if_neg hzero]
    exact toRat_dropZeros d.negative d.coefficient d.exponent

theorem natAbs_signed (d : Decimal) : d.signed.natAbs = d.coefficient := by
  unfold signed
  split <;> simp

theorem signed_neg_iff {d : Decimal} (h : d.coefficient ≠ 0) :
    d.signed < 0 ↔ d.negative = true := by
  unfold signed
  cases d.negative with
  | true =>
    simp only [if_true, iff_true]
    omega
  | false => simp

theorem isPositive_iff {d : Decimal} : d.isPositive = true ↔ 0 < d.toRat := by
  have hten : (0 : ℚ) < 10 ^ d.exponent := zpow_pos (by norm_num) _
  unfold isPositive toRat signed
  rw [mul_pos_iff_of_pos_right hten, Int.cast_pos]
  cases d.negative with
  | true => simp
  | false => simp [Nat.pos_iff_ne_zero]

theorem isNegative_iff {d : Decimal} : d.isNegative = true ↔ d.toRat < 0 := by
  have hten : (0 : ℚ) < 10 ^ d.exponent := zpow_pos (by norm_num) _
  unfold isNegative toRat signed
  rw [← neg_pos, ← neg_mul, mul_pos_iff_of_pos_right hten, neg_pos, Int.cast_lt_zero]
  cases d.negative with
  | true => simp [Nat.pos_iff_ne_zero]
  | false => simp

/-- The lower exponent has the longer coefficient: the same digits, and zeros behind them. -/
theorem canonical_eq_of_signed {d e : Decimal} {k : Nat} (hexponent : d.exponent + k = e.exponent)
    (h : d.signed = e.signed * powerOfTen k) : d.canonical = e.canonical := by
  have hcoefficient : d.coefficient = e.coefficient * powerOfTen k := by
    rw [← natAbs_signed d, ← natAbs_signed e, h, Int.natAbs_mul, Int.natAbs_natCast]
  by_cases hzero : e.coefficient = 0
  · rw [hzero, Nat.zero_mul] at hcoefficient
    rw [canonical_eq_zero hcoefficient, canonical_eq_zero hzero]
  · have hne : d.coefficient ≠ 0 := by
      rw [hcoefficient]
      exact Nat.mul_ne_zero hzero (powerOfTen_ne_zero k)
    have hpos := powerOfTen_ne_zero k
    have hsigned : d.signed < 0 ↔ e.signed < 0 := by
      rw [h, Int.mul_neg_iff]
      omega
    have hnegative : d.negative = e.negative := by
      rw [signed_neg_iff hne, signed_neg_iff hzero] at hsigned
      exact Bool.eq_iff_iff.2 hsigned
    have hd : d = ⟨e.negative, e.coefficient * powerOfTen k, d.exponent⟩ := by
      rw [← hcoefficient, ← hnegative]
    rw [hd, canonical_mul_powerOfTen, hexponent]

theorem signed_eq_of_toRat {d e : Decimal} {k : Nat} (hexponent : d.exponent + k = e.exponent)
    (h : d.toRat = e.toRat) : d.signed = e.signed * powerOfTen k := by
  have hne : (10 : ℚ) ^ d.exponent ≠ 0 := zpow_ne_zero _ (by norm_num)
  unfold toRat at h
  rw [← hexponent, zpow_add₀ (by norm_num), zpow_natCast, ← cast_powerOfTen,
    mul_comm (10 ^ d.exponent : ℚ), ← mul_assoc] at h
  exact_mod_cast mul_right_cancel₀ hne h

theorem canonical_eq_of_toRat {d e : Decimal} (hexponent : d.exponent ≤ e.exponent)
    (h : d.toRat = e.toRat) : d.canonical = e.canonical := by
  obtain ⟨k, hk⟩ := Int.le.dest hexponent
  exact canonical_eq_of_signed hk (signed_eq_of_toRat hk h)

theorem canonical_eq_iff {d e : Decimal} : d.canonical = e.canonical ↔ d.toRat = e.toRat := by
  constructor
  · intro h
    rw [← toRat_canonical d, h, toRat_canonical e]
  · intro h
    rcases Int.le_total d.exponent e.exponent with hle | hle
    · exact canonical_eq_of_toRat hle h
    · exact (canonical_eq_of_toRat hle h.symm).symm

end DoubleEntry.Decimal
