/-! Natural numbers written in decimal digits. -/
namespace DoubleEntry

def digits (n : Nat) : List Char := Nat.toDigits 10 n

def digitCount (n : Nat) : Nat := (digits n).length

/-- The number that digits spell; leading zeros add nothing. -/
def ofDigits (cs : List Char) : Nat := Nat.ofDigitChars 10 cs 0

/-- One with this many zeros. -/
def powerOfTen (n : Nat) : Nat := Nat.pow 10 n

/-- Zeros in front, up to the given width. -/
def padded (width n : Nat) : List Char :=
  List.replicate (width - digitCount n) '0' ++ digits n

theorem ofDigits_digits (n : Nat) : ofDigits (digits n) = n :=
  Nat.ofDigitChars_toDigits (by decide) (by decide)

theorem isDigit_of_mem_digits {n : Nat} {c : Char} (h : c ∈ digits n) : c.isDigit = true :=
  Nat.isDigit_of_mem_toDigits (by decide) (by decide) h

theorem digits_ne_nil (n : Nat) : digits n ≠ [] := Nat.toDigits_ne_nil

theorem digitCount_pos (n : Nat) : 0 < digitCount n :=
  List.length_pos_iff.2 (digits_ne_nil n)

theorem digitCount_le_iff {n k : Nat} (h : 0 < k) : digitCount n ≤ k ↔ n < powerOfTen k :=
  Nat.length_toDigits_le_iff (by decide) h

theorem ofDigits_padded (width n : Nat) : ofDigits (padded width n) = n := by
  have zeros (k : Nat) (cs : List Char) :
      Nat.ofDigitChars 10 (List.replicate k '0' ++ cs) 0 = Nat.ofDigitChars 10 cs 0 := by
    induction k with
    | zero => rfl
    | succ k ih => simpa [List.replicate_succ, Nat.ofDigitChars_cons] using ih
  unfold ofDigits padded
  rw [zeros]
  exact ofDigits_digits n

theorem length_padded {width n : Nat} (h : digitCount n ≤ width) : (padded width n).length = width := by
  simp only [padded, List.length_append, List.length_replicate]
  unfold digitCount at *
  omega

theorem isDigit_of_mem_padded {width n : Nat} {c : Char} (h : c ∈ padded width n) :
    c.isDigit = true := by
  rcases List.mem_append.1 h with h | h
  · rw [List.eq_of_mem_replicate h]; rfl
  · exact isDigit_of_mem_digits h

end DoubleEntry
