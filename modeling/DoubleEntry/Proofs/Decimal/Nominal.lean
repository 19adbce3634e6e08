import DoubleEntry.Amount.Basic
import DoubleEntry.Decimal.Numeral
import DoubleEntry.Proofs.Text.Ink
import Mathlib.Data.List.TakeWhile

/-! Nominals by their parts. A word is a nominal just if it has such parts, every nominal is read as
a finite number, and the plain form of a number is a nominal of the same value. -/
namespace DoubleEntry

/-- Digits with digits after a point, which is left out where none follow it. -/
structure Nominal where
  sign : Option Bool
  whole : List Char
  fraction : List Char
  whole_ne_nil : whole ≠ []
  whole_digits : ∀ c ∈ whole, c.isDigit = true
  fraction_digits : ∀ c ∈ fraction, c.isDigit = true

namespace Nominal

/-- A minus for `true` and a plus for `false`. -/
def signChars : Option Bool → List Char
  | none => []
  | some true => ['-']
  | some false => ['+']

def pointed (fraction : List Char) : List Char := if fraction = [] then [] else '.' :: fraction

def body (n : Nominal) : List Char := n.whole ++ pointed n.fraction

def chars (n : Nominal) : List Char := signChars n.sign ++ n.body

def value (n : Nominal) : Decimal :=
  ⟨n.sign = some true, ofDigits (n.whole ++ n.fraction), -n.fraction.length⟩

def isChar (c : Char) : Bool := c.isDigit || c == '.' || c == '-' || c == '+'

theorem isChar_of_isDigit {c : Char} (h : c.isDigit = true) : isChar c = true := by
  simp [isChar, h]

theorem isChar_of_mem_body {n : Nominal} {c : Char} (h : c ∈ n.body) : isChar c = true := by
  unfold body pointed at h
  rcases List.mem_append.1 h with hwhole | hfraction
  · exact isChar_of_isDigit (n.whole_digits c hwhole)
  split at hfraction
  · contradiction
  · rcases List.mem_cons.1 hfraction with rfl | hdigit
    · rfl
    · exact isChar_of_isDigit (n.fraction_digits c hdigit)

theorem isChar_of_mem {n : Nominal} {c : Char} (h : c ∈ n.chars) : isChar c = true := by
  rcases List.mem_append.1 h with hsign | hbody
  · match hs : n.sign with
    | none => simp [hs, signChars] at hsign
    | some true => simp_all [signChars, isChar]
    | some false => simp_all [signChars, isChar]
  · exact isChar_of_mem_body hbody

theorem toNat_lt_of_isChar {c : Char} (h : isChar c = true) : c.toNat < 58 := by
  simp only [isChar, Char.isDigit, Bool.or_eq_true, Bool.and_eq_true, decide_eq_true_eq,
    beq_iff_eq] at h
  rcases h with ((⟨_, h⟩ | rfl) | rfl) | rfl
  · exact Nat.lt_succ_of_le (UInt32.le_iff_toNat_le.1 h)
  all_goals decide

/-- Nothing is trimmed, dropped or rewritten of such a character when a numeral is read, and it
belongs to no exponent. -/
def IsVerbatim (c : Char) : Prop :=
  Text.isBlank c = false ∧ c ≠ '_' ∧ Numeral.asciiForm? c = some c ∧ c.toLower = c ∧ c ≠ 'e' ∧
    c ≠ 'E'

instance (c : Char) : Decidable (IsVerbatim c) := inferInstanceAs (Decidable (_ ∧ _))

theorem isVerbatim_of_isChar {c : Char} (h : isChar c = true) : IsVerbatim c := by
  have hall : ∀ n < 58, isChar (Char.ofNat n) = true → IsVerbatim (Char.ofNat n) := by decide
  exact Text.forall_char_below (P := fun c => isChar c = true → IsVerbatim c) hall
    (toNat_lt_of_isChar h) h

theorem isInk_of_isChar {c : Char} (h : isChar c = true) : Text.isInk c = true := by
  have hall : ∀ n < 58, isChar (Char.ofNat n) = true → Text.isInk (Char.ofNat n) = true := by decide
  exact Text.forall_char_below (P := fun c => isChar c = true → Text.isInk c = true) hall
    (toNat_lt_of_isChar h) h

/-! ## Reading -/

theorem mapM_asciiForm? {cs : List Char} (h : ∀ c ∈ cs, IsVerbatim c) :
    cs.mapM Numeral.asciiForm? = some cs := by
  induction cs with
  | nil => rfl
  | cons c cs ih =>
    have hc := h c (by simp)
    rw [List.mapM_cons, hc.2.2.1, ih fun d hd => h d (by simp [hd])]
    rfl

/-- A nominal starts with a digit after its sign. -/
theorem exists_body (n : Nominal) : ∃ d rest, n.body = d :: rest ∧ d.isDigit = true := by
  unfold body
  cases hw : n.whole with
  | nil => exact absurd hw n.whole_ne_nil
  | cons d ds => exact ⟨d, ds ++ pointed n.fraction, rfl, n.whole_digits d (by simp [hw])⟩

theorem takeSign_chars (n : Nominal) :
    Numeral.takeSign n.chars = (decide (n.sign = some true), n.body) := by
  unfold chars
  match hs : n.sign with
  | some true => rfl
  | some false => rfl
  | none =>
    obtain ⟨d, rest, hbody, hd⟩ := n.exists_body
    have hminus : d ≠ '-' := by rintro rfl; contradiction
    have hplus : d ≠ '+' := by rintro rfl; contradiction
    simp [signChars, hbody, Numeral.takeSign, hminus, hplus]

theorem splitPoint_body (n : Nominal) :
    n.body.takeWhile (· ≠ '.') = n.whole ∧ (n.body.dropWhile (· ≠ '.')).drop 1 = n.fraction := by
  have hwhole : ∀ c ∈ n.whole, (c ≠ '.' : Bool) = true := by
    intro c hc
    have := n.whole_digits c hc
    rw [decide_eq_true_iff]
    rintro rfl
    contradiction
  unfold body pointed
  rw [List.takeWhile_append_of_pos hwhole, List.dropWhile_append_of_pos hwhole]
  split
  · rename_i hf
    simp [hf]
  · simp

theorem decimal?_body (negative : Bool) (n : Nominal) :
    Numeral.decimal? negative n.body =
      some ⟨negative, ofDigits (n.whole ++ n.fraction), -n.fraction.length⟩ := by
  have hmantissa : ∀ c ∈ n.body, (c ≠ 'e' : Bool) = true := by
    intro c hc
    rw [decide_eq_true_iff]
    exact (isVerbatim_of_isChar (isChar_of_mem_body hc)).2.2.2.2.1
  obtain ⟨hwhole, hfraction⟩ := n.splitPoint_body
  have hdigits : (n.whole ++ n.fraction).all Char.isDigit = true := by
    rw [List.all_append, Bool.and_eq_true, List.all_eq_true, List.all_eq_true]
    exact ⟨n.whole_digits, n.fraction_digits⟩
  have htake : n.body.takeWhile (· ≠ 'e') = n.body := List.takeWhile_eq_self_iff.2 hmantissa
  have hdrop : n.body.dropWhile (· ≠ 'e') = [] := List.dropWhile_eq_nil_iff.2 hmantissa
  unfold Numeral.decimal?
  simp only [htake, hdrop, hwhole, hfraction, Option.bind_eq_bind, Option.bind_some, hdigits,
    and_true]
  rw [if_pos (by simp [n.whole_ne_nil])]
  simp

theorem spelled?_chars (n : Nominal) :
    Numeral.spelled? (.ofList n.chars) = some (.finite n.value) := by
  have hverbatim : ∀ c ∈ n.chars, IsVerbatim c := fun c hc => isVerbatim_of_isChar (isChar_of_mem hc)
  have htrim : Text.trim n.chars = n.chars := Text.trim_of_not_isBlank fun c hc => (hverbatim c hc).1
  have hfilter : n.chars.filter (· ≠ '_') = n.chars := by
    rw [List.filter_eq_self]
    intro c hc
    exact decide_eq_true (hverbatim c hc).2.1
  have hlower : n.chars.map Char.toLower = n.chars := by
    rw [List.map_congr_left fun c hc => (hverbatim c hc).2.2.2.1, List.map_id']
  obtain ⟨d, rest, hbody, hd⟩ := n.exists_body
  have hword : n.body.head? ≠ some 'i' ∧ n.body.head? ≠ some 'n' ∧ n.body.head? ≠ some 's' := by
    rw [hbody]
    refine ⟨?_, ?_, ?_⟩ <;> rintro h <;> cases h <;> contradiction
  unfold Numeral.spelled?
  rw [String.toList_ofList, htrim, hfilter, mapM_asciiForm? hverbatim]
  simp only [Option.bind_eq_bind, Option.bind_some, hlower, takeSign_chars]
  rw [if_neg, if_neg, decimal?_body]
  · rfl
  · simp [hword]
  · rintro (h | h) <;> simp [h] at hword

theorem ofText_chars (n : Nominal) : Decimal.ofText (.ofList n.chars) = .ok n.value := by
  have hexponent : Numeral.hasExponent (.ofList n.chars) = false := by
    unfold Numeral.hasExponent
    rw [String.toList_ofList, List.any_eq_false]
    intro c hc
    have hv := isVerbatim_of_isChar (isChar_of_mem hc)
    simp [hv.2.2.2.2.1, hv.2.2.2.2.2]
  unfold Decimal.ofText Numeral.ofText?
  rw [spelled?_chars, hexponent]
  rfl

/-! ## The class of words -/

/-- What is left of a word without its sign. -/
def unsigned (cs : List Char) : List Char :=
  if cs.head? = some '-' ∨ cs.head? = some '+' then cs.drop 1 else cs

theorem unsigned_chars (n : Nominal) : unsigned n.chars = n.body := by
  unfold unsigned chars
  match hs : n.sign with
  | some true => simp [signChars]
  | some false => simp [signChars]
  | none =>
    obtain ⟨d, rest, hbody, hd⟩ := n.exists_body
    have hminus : d ≠ '-' := by rintro rfl; contradiction
    have hplus : d ≠ '+' := by rintro rfl; contradiction
    simp [signChars, hbody, hminus, hplus]

theorem exists_signChars (cs : List Char) : ∃ sign, cs = signChars sign ++ unsigned cs := by
  unfold unsigned
  split
  · rename_i h
    rcases h with h | h
    · exact ⟨some true, by cases cs <;> simp_all [signChars]⟩
    · exact ⟨some false, by cases cs <;> simp_all [signChars]⟩
  · exact ⟨none, rfl⟩

theorem splitAt_body (n : Nominal) :
    Text.splitAt '.' n.body =
      (n.whole, if n.fraction = [] then [] else [n.fraction]) := by
  have hpoint {c : Char} (hc : c.isDigit = true) : (c == '.') = false := by
    rw [beq_eq_false_iff_ne]
    rintro rfl
    contradiction
  have hwhole : ∀ c ∈ n.whole, (c == '.') = false := fun c hc => hpoint (n.whole_digits c hc)
  have hfraction : ∀ c ∈ n.fraction, (c == '.') = false :=
    fun c hc => hpoint (n.fraction_digits c hc)
  unfold body pointed Text.splitAt
  split
  · rw [List.append_nil, Text.splitWhere_of_not_mem hwhole]
  · rw [Text.splitWhere_append_cons hwhole rfl, Text.splitWhere_of_not_mem hfraction]

theorem isNominal_iff (cs : List Char) :
    Lexeme.isNominal cs = true ↔
      ((Text.splitAt '.' (unsigned cs)).1 ≠ [] ∧
        ∀ c ∈ (Text.splitAt '.' (unsigned cs)).1, c.isDigit = true) ∧
      (Text.splitAt '.' (unsigned cs)).2.length ≤ 1 ∧
      ∀ ds ∈ (Text.splitAt '.' (unsigned cs)).2, ds ≠ [] ∧ ∀ c ∈ ds, c.isDigit = true := by
  change ((_ && _) && _ && _) = true ↔ _
  simp only [Bool.and_eq_true, decide_eq_true_eq, List.all_eq_true, and_assoc]
  rfl

theorem isNominal_chars (n : Nominal) : Lexeme.isNominal n.chars = true := by
  rw [isNominal_iff, unsigned_chars, splitAt_body]
  refine ⟨⟨n.whole_ne_nil, n.whole_digits⟩, ?_, ?_⟩
  · split <;> simp
  · split
    · simp
    · rename_i hne
      intro ds hds
      rw [List.mem_singleton.1 hds]
      exact ⟨hne, n.fraction_digits⟩

theorem exists_of_isNominal {cs : List Char} (h : Lexeme.isNominal cs = true) :
    ∃ n : Nominal, n.chars = cs := by
  obtain ⟨sign, hsign⟩ := exists_signChars cs
  have hjoin := Text.joinWith_splitAt '.' (unsigned cs)
  rw [isNominal_iff] at h
  generalize Text.splitAt '.' (unsigned cs) = pieces at h hjoin
  obtain ⟨whole, fraction⟩ := pieces
  obtain ⟨⟨hne, hwhole⟩, hlength, hfraction⟩ := h
  match fraction with
  | [] =>
    refine ⟨⟨sign, whole, [], hne, hwhole, by simp⟩, ?_⟩
    rw [hsign, ← hjoin]
    simp [chars, body, pointed, Text.joinWith]
  | [ds] =>
    obtain ⟨hds, hdigits⟩ := hfraction ds (by simp)
    refine ⟨⟨sign, whole, ds, hne, hwhole, hdigits⟩, ?_⟩
    rw [hsign, ← hjoin]
    simp [chars, body, pointed, Text.joinWith, hds, List.intercalate_cons_cons]
  | _ :: _ :: _ => simp at hlength

end Nominal

/-! ## The plain form of a number -/

namespace Decimal

theorem powerOfTen_succ (k : Nat) : powerOfTen (k + 1) = powerOfTen k * 10 := rfl

theorem powerOfTen_ne_zero (k : Nat) : powerOfTen k ≠ 0 := by
  have hpos : 0 < powerOfTen k := Nat.pow_pos (by decide)
  omega

theorem ofDigits_append_zeros (cs : List Char) (k : Nat) :
    ofDigits (cs ++ List.replicate k '0') = ofDigits cs * powerOfTen k := by
  unfold ofDigits
  rw [Nat.ofDigitChars_append, Nat.ofDigitChars_replicate_zero, Nat.mul_comm]
  rfl

theorem dropZeros_mul_powerOfTen {coefficient : Nat} (h : coefficient ≠ 0) (k : Nat)
    (exponent : Int) :
    dropZeros (coefficient * powerOfTen k) exponent = dropZeros coefficient (exponent + k) := by
  induction k generalizing exponent with
  | zero =>
    have hone : powerOfTen 0 = 1 := rfl
    simp [hone]
  | succ k ih =>
    have hpos : coefficient * powerOfTen k ≠ 0 := Nat.mul_ne_zero h (powerOfTen_ne_zero k)
    rw [powerOfTen_succ, ← Nat.mul_assoc, dropZeros, if_pos (by omega),
      Nat.mul_div_cancel _ (by decide), ih]
    congr 1
    push_cast
    omega

/-- Zeros at the end of the coefficient do not change the value. -/
theorem canonical_mul_powerOfTen (negative : Bool) (coefficient k : Nat) (exponent : Int) :
    canonical ⟨negative, coefficient * powerOfTen k, exponent⟩ =
      canonical ⟨negative, coefficient, exponent + k⟩ := by
  unfold canonical
  by_cases h : coefficient = 0
  · simp [h]
  · have hpos : coefficient * powerOfTen k ≠ 0 := Nat.mul_ne_zero h (powerOfTen_ne_zero k)
    simp only [h, hpos, if_false, dropZeros_mul_powerOfTen h]

theorem canonical_eq_zero {d : Decimal} (h : d.coefficient = 0) : d.canonical = zero := by
  rw [canonical, if_pos h]

def signOf (negative : Bool) : Option Bool := if negative then some true else none

@[simp] theorem signChars_signOf (d : Decimal) :
    Nominal.signChars (signOf d.negative) = d.signChars := by
  unfold signOf signChars
  cases d.negative <;> rfl

@[simp] theorem signOf_eq_some_true (negative : Bool) :
    (decide (signOf negative = some true)) = negative := by
  cases negative <;> rfl

theorem lt_length_padded (places coefficient : Nat) :
    places < (padded (places + 1) coefficient).length := by
  simp only [padded, List.length_append, List.length_replicate, digitCount]
  omega

/-- The point stands before the last digits, of which there are as many as places. -/
theorem pointed_eq (coefficient places : Nat) :
    ∃ whole fraction, padded (places + 1) coefficient = whole ++ fraction ∧ whole ≠ [] ∧
      fraction.length = places ∧ pointed coefficient places = whole ++ Nominal.pointed fraction := by
  have hlt := lt_length_padded places coefficient
  unfold pointed
  generalize padded (places + 1) coefficient = ds at hlt
  refine ⟨ds.take (ds.length - places), ds.drop (ds.length - places),
    (List.take_append_drop _ ds).symm, ?_, ?_, ?_⟩
  · apply List.ne_nil_of_length_pos
    rw [List.length_take]
    omega
  · rw [List.length_drop]
    omega
  · simp only [Nominal.pointed, List.drop_eq_nil_iff]
    by_cases hzero : places = 0
    · simp [hzero]
    · rw [if_neg hzero, if_neg (by omega)]

theorem exists_plainChars_of_nonpos {d : Decimal} (h : d.exponent ≤ 0) :
    ∃ n : Nominal, n.chars = d.plainChars ∧ n.value = d := by
  obtain ⟨whole, fraction, hds, hne, hlength, hpointed⟩ :=
    pointed_eq d.coefficient d.exponent.natAbs
  have hdigits : ∀ c ∈ whole ++ fraction, c.isDigit = true := by
    rw [← hds]
    exact fun c hc => isDigit_of_mem_padded hc
  refine ⟨⟨signOf d.negative, whole, fraction, hne, fun c hc => hdigits c (by simp [hc]),
    fun c hc => hdigits c (by simp [hc])⟩, ?_, ?_⟩
  · unfold plainChars
    rw [if_pos h, hpointed, ← signChars_signOf]
    rfl
  · unfold Nominal.value
    simp only [← hds, ofDigits_padded, signOf_eq_some_true, hlength]
    congr 1
    omega

theorem exists_plainChars_of_pos {d : Decimal} (h : 0 < d.exponent) (hne : d.coefficient ≠ 0) :
    ∃ n : Nominal, n.chars = d.plainChars ∧ n.value.canonical = d.canonical := by
  refine ⟨⟨signOf d.negative, digits d.coefficient ++ List.replicate d.exponent.toNat '0', [], ?_,
    ?_, by simp⟩, ?_, ?_⟩
  · simp [digits_ne_nil]
  · intro c hc
    rcases List.mem_append.1 hc with hc | hc
    · exact isDigit_of_mem_digits hc
    · rw [List.eq_of_mem_replicate hc]
      rfl
  · unfold plainChars
    rw [if_neg (by omega), if_neg hne]
    simp [Nominal.chars, Nominal.body, Nominal.pointed]
  · unfold Nominal.value
    simp only [List.append_nil, ofDigits_append_zeros, ofDigits_digits, signOf_eq_some_true]
    rw [canonical_mul_powerOfTen]
    congr 2
    simp
    omega

/-- The plain form of a number is a nominal, and what it says has the value of the number. -/
theorem exists_plainChars (d : Decimal) :
    ∃ n : Nominal, n.chars = d.plainChars ∧ n.value.canonical = d.canonical := by
  by_cases hexponent : d.exponent ≤ 0
  · obtain ⟨n, hchars, hvalue⟩ := exists_plainChars_of_nonpos hexponent
    exact ⟨n, hchars, by rw [hvalue]⟩
  by_cases hzero : d.coefficient = 0
  · refine ⟨⟨signOf d.negative, ['0'], [], by simp, by simp, by simp⟩, ?_, ?_⟩
    · unfold plainChars
      rw [if_neg hexponent, if_pos hzero, ← signChars_signOf]
      rfl
    · rw [canonical_eq_zero hzero]
      exact canonical_eq_zero rfl
  · exact exists_plainChars_of_pos (by omega) hzero

end Decimal
end DoubleEntry
