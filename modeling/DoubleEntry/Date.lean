import DoubleEntry.Digits

/-! Calendar dates of the years 1 to 9999, written `YYYY-MM-DD`. -/
namespace DoubleEntry

def isLeapYear (year : Nat) : Bool :=
  year % 4 = 0 && (year % 100 ≠ 0 || year % 400 = 0)

def monthLength (year month : Nat) : Nat :=
  if month = 2 then if isLeapYear year then 29 else 28
  else if month = 4 ∨ month = 6 ∨ month = 9 ∨ month = 11 then 30
  else 31

structure Date where
  year : Nat
  month : Nat
  day : Nat
  year_bounds : 1 ≤ year ∧ year ≤ 9999
  month_bounds : 1 ≤ month ∧ month ≤ 12
  day_bounds : 1 ≤ day ∧ day ≤ monthLength year month
  deriving DecidableEq, Repr

theorem monthLength_le (year month : Nat) : monthLength year month ≤ 31 := by
  unfold monthLength; split <;> (try split) <;> simp_all

namespace Date

def ofParts? (year month day : Nat) : Option Date :=
  if h : (1 ≤ year ∧ year ≤ 9999) ∧ (1 ≤ month ∧ month ≤ 12) ∧
      1 ≤ day ∧ day ≤ monthLength year month then
    some ⟨year, month, day, h.1, h.2.1, h.2.2⟩
  else none

/-- The eight digits read as one number. -/
def number (d : Date) : Nat := d.year * 10000 + d.month * 100 + d.day

theorem number_inj {a b : Date} (h : a.number = b.number) : a = b := by
  have ha := a.month_bounds; have hb := b.month_bounds
  have la := monthLength_le a.year a.month; have lb := monthLength_le b.year b.month
  have da := a.day_bounds; have db := b.day_bounds
  unfold number at h
  cases a; cases b
  simp only [mk.injEq]
  simp only at *
  omega

/-- Earlier dates come first. -/
instance : LT Date := ⟨fun a b => a.number < b.number⟩
instance : LE Date := ⟨fun a b => a.number ≤ b.number⟩
instance (a b : Date) : Decidable (a < b) := inferInstanceAs (Decidable (a.number < b.number))
instance (a b : Date) : Decidable (a ≤ b) := inferInstanceAs (Decidable (a.number ≤ b.number))

theorem not_le {a b : Date} : ¬ a ≤ b ↔ b < a := Nat.not_le
theorem not_lt {a b : Date} : ¬ a < b ↔ b ≤ a := Nat.not_lt

/-- Four digits, two digits and two digits with hyphens between. -/
def chars (d : Date) : List Char :=
  padded 4 d.year ++ '-' :: padded 2 d.month ++ '-' :: padded 2 d.day

def text (d : Date) : String := .ofList d.chars

/-- The written form of a date, whether or not the calendar has that day. -/
def hasForm (cs : List Char) : Bool :=
  match cs with
  | [a, b, c, d, '-', e, f, '-', g, h] => [a, b, c, d, e, f, g, h].all Char.isDigit
  | _ => false

def ofChars? (cs : List Char) : Option Date :=
  if hasForm cs then
    ofParts? (ofDigits (cs.take 4)) (ofDigits ((cs.drop 5).take 2)) (ofDigits (cs.drop 8))
  else none

def ofText? (text : String) : Option Date := ofChars? text.toList

theorem ofParts?_parts (d : Date) : ofParts? d.year d.month d.day = some d := by
  simp [ofParts?, d.year_bounds, d.month_bounds, d.day_bounds]

/-- The ten characters of a date. -/
theorem chars_eq (d : Date) : ∃ a b c e f g h i : Char,
    d.chars = [a, b, c, e, '-', f, g, '-', h, i] ∧ padded 4 d.year = [a, b, c, e] ∧
      padded 2 d.month = [f, g] ∧ padded 2 d.day = [h, i] := by
  have := d.year_bounds; have := d.month_bounds; have := d.day_bounds
  have := monthLength_le d.year d.month
  have short {n k : Nat} (hk : 0 < k) (h : n < powerOfTen k) : (padded k n).length = k :=
    length_padded ((digitCount_le_iff hk).2 h)
  have hy : (padded 4 d.year).length = 4 := short (by decide) (show d.year < 10000 by omega)
  have hm : (padded 2 d.month).length = 2 := short (by decide) (show d.month < 100 by omega)
  have hd : (padded 2 d.day).length = 2 := short (by decide) (show d.day < 100 by omega)
  unfold chars
  generalize padded 4 d.year = y at *
  generalize padded 2 d.month = m at *
  generalize padded 2 d.day = n at *
  match y, m, n, hy, hm, hd with
  | [a, b, c, e], [f, g], [h, i], _, _, _ => exact ⟨a, b, c, e, f, g, h, i, rfl, rfl, rfl, rfl⟩

theorem hasForm_chars (d : Date) : hasForm d.chars = true := by
  obtain ⟨a, b, c, e, f, g, h, i, shape, year, month, day⟩ := d.chars_eq
  have isDigit {width n : Nat} {cs : List Char} (eq : padded width n = cs) :
      cs.all Char.isDigit = true :=
    List.all_eq_true.2 fun x mem => isDigit_of_mem_padded (eq ▸ mem)
  have hy := isDigit year; have hm := isDigit month; have hd := isDigit day
  simp only [List.all_cons, List.all_nil, Bool.and_true, Bool.and_eq_true] at hy hm hd
  simp [shape, hasForm, hy, hm, hd]

/-- Every date can be read back from its written form. -/
theorem ofText?_text (d : Date) : ofText? d.text = some d := by
  obtain ⟨a, b, c, e, f, g, h, i, shape, year, month, day⟩ := d.chars_eq
  have form := d.hasForm_chars
  simp only [ofText?, text, String.toList_ofList, ofChars?, form, if_true]
  simp only [shape, List.take_succ_cons, List.take_zero, List.drop_succ_cons, List.drop_zero]
  rw [← year, ← month, ← day, ofDigits_padded, ofDigits_padded, ofDigits_padded, ofParts?_parts]

end Date
end DoubleEntry
