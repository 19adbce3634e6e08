import DoubleEntry.Token.Lexeme

/-! Characters that may stand inside a word, and lines without control characters. -/
namespace DoubleEntry.Text

/-- What holds of the characters below a code point, each by itself, holds of any of them. -/
theorem forall_char_below {bound : Nat} {P : Char → Prop} (h : ∀ n < bound, P (Char.ofNat n))
    {c : Char} (hc : c.toNat < bound) : P c := by
  rw [← Char.ofNat_toNat c]
  exact h c.toNat hc

/-- Neither ends a word nor is a control character. -/
def isInk (c : Char) : Bool := !endsWord c && !isControl c

theorem endsWord_of_isInk {c : Char} (h : isInk c = true) : endsWord c = false := by
  simp only [isInk, Bool.and_eq_true, Bool.not_eq_true'] at h
  exact h.1

theorem isControl_of_isInk {c : Char} (h : isInk c = true) : isControl c = false := by
  simp only [isInk, Bool.and_eq_true, Bool.not_eq_true'] at h
  exact h.2

theorem isGap_of_isInk {c : Char} (h : isInk c = true) : isGap c = false := by
  have hend := endsWord_of_isInk h
  simp only [endsWord, Bool.or_eq_false_iff] at hend
  exact hend.1.1

/-- No word character comes before the digits. -/
theorem le_toNat_of_isWordChar {c : Char} (h : isWordChar c = true) : 0x30 ≤ c.toNat := by
  have hlow : ∀ r ∈ wordCharTable.ranges, 0x30 ≤ r.1 := by decide +kernel
  obtain ⟨r, hr, hle, _⟩ := (wordCharTable.contains_iff _).1 h
  exact Nat.le_trans (hlow r hr) hle

theorem isInk_of_isWordChar {c : Char} (h : isWordChar c = true) : isInk c = true := by
  have hle := le_toNat_of_isWordChar h
  have hmark : c ≠ commentMark := by
    rintro rfl
    revert h
    decide +kernel
  have hbelow {d : Char} (hd : d.toNat < 0x30) : c ≠ d := by
    rintro rfl
    omega
  simp only [isInk, endsWord, isGap, isControl, Bool.and_eq_true, Bool.not_eq_true',
    Bool.or_eq_false_iff, beq_eq_false_iff_ne, decide_eq_false_iff_not]
  exact ⟨⟨⟨⟨hbelow (by decide), hbelow (by decide)⟩, hbelow (by decide)⟩, hmark⟩, by omega⟩

theorem not_isBlank_of_isWordChar {c : Char} (h : isWordChar c = true) : isBlank c = false := by
  have hapart : ∀ blank ∈ blankTable.ranges, ∀ r ∈ wordCharTable.ranges,
      blank.2 < r.1 ∨ r.2 < blank.1 := by decide +kernel
  rw [Bool.eq_false_iff]
  intro hblank
  obtain ⟨r, hr, hword⟩ := (wordCharTable.contains_iff _).1 h
  obtain ⟨blank, hmem, hbounds⟩ := (blankTable.contains_iff _).1 hblank
  have := hapart blank hmem r hr
  omega

/-- The characters of joined pieces are those of the pieces and separators. -/
theorem mem_joinWith {separator c : Char} {pieces : List (List Char)}
    (h : c ∈ joinWith separator pieces) : c = separator ∨ ∃ piece ∈ pieces, c ∈ piece := by
  unfold joinWith at h
  induction pieces with
  | nil => simp [List.intercalate] at h
  | cons piece pieces ih =>
    cases pieces with
    | nil => exact .inr ⟨piece, by simp, by simpa [List.intercalate] using h⟩
    | cons next pieces =>
      rw [List.intercalate_cons_cons, List.mem_append, List.mem_append, List.mem_singleton] at h
      rcases h with (h | h) | h
      · exact .inr ⟨piece, by simp, h⟩
      · exact .inl h
      · rcases ih h with h | ⟨found, hfound, h⟩
        · exact .inl h
        · exact .inr ⟨found, by simp [hfound], h⟩

theorem trim_of_not_isBlank {cs : List Char} (h : ∀ c ∈ cs, isBlank c = false) : trim cs = cs := by
  have hfront {ds : List Char} (hds : ∀ c ∈ ds, isBlank c = false) :
      ds.dropWhile isBlank = ds := by
    cases ds with
    | nil => rfl
    | cons d ds => rw [List.dropWhile_cons_of_neg]; simp [hds d (by simp)]
  unfold trim trimEnd trimStart
  rw [hfront h, hfront, List.reverse_reverse]
  intro c hc
  exact h c (List.mem_reverse.1 hc)

end DoubleEntry.Text
