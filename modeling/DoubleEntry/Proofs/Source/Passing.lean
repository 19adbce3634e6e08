import DoubleEntry.Proofs.Source.Located
import DoubleEntry.Token.Stage

/-! Places between lines. An offset of the text is on one line, and past that line it is at the next
one, or at the end of the text. -/
namespace DoubleEntry

open Text

/-- The cursor is on a line of the source, at its end at the most, and these are the lines below. -/
structure Cursor.Stands (s : Source) (c : Cursor) (below : List Line) : Prop where
  lines : LinesFrom s c.line.start (c.line :: below)
  column_le : c.column ≤ c.line.chars.length

/-- The lines that are left at an offset; none at the end of the text. -/
def Source.Leaves (s : Source) (offset : Nat) (left : List Line) : Prop :=
  ∃ next, LinesFrom s next left ∧ offset = min next s.chars.length

theorem Line.IsIn.start_le {s : Source} {line : Line} (h : line.IsIn s) :
    line.start ≤ s.chars.length := Nat.le_trans (Nat.le_add_right _ _) h.stop_le

/-- Below the last line the text has ended. -/
theorem LinesFrom.stop_eq {s : Source} {stop : Nat} (h : LinesFrom s (stop + 1) []) :
    stop = s.chars.length := by
  generalize hend : stop + 1 = last at h
  cases h
  exact Nat.succ.inj hend

/-! ## The line of an offset -/

theorem length_takeWhile_le {α : Type} (p : α → Bool) (k : Nat) (as : List α) :
    (as.takeWhile p).length ≤ k + ((as.drop k).takeWhile p).length := by
  induction k generalizing as with
  | zero => simp
  | succ k ih =>
    cases as with
    | nil => simp
    | cons a as =>
      have hrest := ih as
      rw [List.takeWhile_cons, List.drop_succ_cons]
      split
      · rw [List.length_cons]
        omega
      · exact Nat.zero_le _

namespace Cursor.Stands

variable {s : Source} {c c' : Cursor} {below : List Line}

theorem isIn (h : c.Stands s below) : c.line.IsIn s := h.lines.isIn

theorem isOn (h : c.Stands s below) : c.IsOn c.line := ⟨rfl, h.column_le⟩

theorem offset_le_stop (h : c.Stands s below) : c.offset ≤ c.line.stop :=
  Nat.add_le_add_left h.column_le _

theorem offset_le (h : c.Stands s below) : c.offset ≤ s.chars.length :=
  Nat.le_trans h.offset_le_stop h.isIn.stop_le

theorem move (h : c.Stands s below) (hon : c'.IsOn c.line) : c'.Stands s below := by
  obtain ⟨hline, hcolumn⟩ := hon
  exact ⟨hline.symm ▸ h.lines, hline.symm ▸ hcolumn⟩

theorem of_line {line : Line} (h : LinesFrom s line.start (line :: below)) :
    line.cursor.Stands s below := ⟨h, Nat.zero_le _⟩

theorem offset_lt (h : c.Stands s below) (hon : c'.IsOn c.line)
    (hlt : c'.rest.length < c.rest.length) : c.offset < c'.offset := by
  obtain ⟨hline, hcolumn⟩ := hon
  have hcolumn' := h.column_le
  rw [rest, rest, List.length_drop, List.length_drop, hline] at hlt
  rw [offset, offset, hline]
  omega

theorem offset_le_skipGap (c : Cursor) : c.offset ≤ c.skipGap.offset :=
  Nat.add_le_add_left (Nat.le_add_right _ _) _

theorem toLineEnd (h : c.Stands s below) : c.toLineEnd.Stands s below :=
  h.move ⟨rfl, Nat.le_refl _⟩

theorem toLineEnd_eq_skipGap (h : c.Stands s below) (hrest : c.rest = []) :
    c.toLineEnd = c.skipGap := by
  have hcolumn : c.column = c.line.chars.length :=
    Nat.le_antisymm h.column_le (List.drop_eq_nil_iff.1 hrest)
  unfold Cursor.toLineEnd skipGap advance
  rw [hrest, ← hcolumn]
  rfl

/-- No other line has the offset. -/
theorem eq (h : c.Stands s below) {below' : List Line} (h' : c'.Stands s below')
    (hoffset : c.offset = c'.offset) : c = c' := by
  have hplace : s.countedPosition c.offset = ⟨c.line.number, c.column + 1⟩ :=
    h.isIn.countedPosition h.column_le
  have hplace' : s.countedPosition c'.offset = ⟨c'.line.number, c'.column + 1⟩ :=
    h'.isIn.countedPosition h'.column_le
  rw [hoffset, hplace'] at hplace
  obtain ⟨hnumber, hcolumn⟩ := Position.mk.inj hplace
  have hchars := h.lines.takeWhile_drop
  have hchars' := h'.lines.takeWhile_drop
  obtain ⟨⟨number, start, chars⟩, column⟩ := c
  obtain ⟨⟨number', start', chars'⟩, column'⟩ := c'
  simp only [offset] at hoffset hnumber hcolumn hchars hchars'
  obtain rfl : column' = column := Nat.succ.inj hcolumn
  obtain rfl : start = start' := Nat.add_right_cancel hoffset
  rw [hnumber, ← hchars, ← hchars']

end Cursor.Stands

namespace Source

variable {s : Source} {c : Cursor} {below left : List Line} {offset later : Nat}

theorem cursorAt_spec (h : offset ≤ s.chars.length) :
    ∃ below, (s.cursorAt offset).Stands s below ∧ (s.cursorAt offset).offset = offset := by
  obtain ⟨above, line, below, hlines, htake, hline, hstart, hstop⟩ :=
    s.linesFrom_lines.exists_takeWhile (Nat.zero_le offset) h
  have hcursor : s.cursorAt offset = ⟨line, offset - line.start⟩ := by
    rw [cursorAt, lineOf, htake, List.getLastD_concat]
  have hfrom : LinesFrom s line.start (line :: below) := by
    have hall := s.linesFrom_lines
    rw [hlines] at hall
    exact hall.fromLine
  rw [hcursor]
  refine ⟨below, ⟨hfrom, ?_⟩, Nat.add_sub_cancel' hstart⟩
  unfold Line.stop at hstop
  simp only
  omega

theorem cursorAt_offset (h : c.Stands s below) : s.cursorAt c.offset = c := by
  obtain ⟨_, hstands, hoffset⟩ := cursorAt_spec h.offset_le
  exact hstands.eq h hoffset

theorem lineOf_offset (h : c.Stands s below) : s.lineOf c.offset = c.line :=
  congrArg Cursor.line (cursorAt_offset h)

/-! ## Past a line -/

theorem pastLine_offset (h : c.Stands s below) :
    s.pastLine c.offset = min (c.line.stop + 1) s.chars.length := by
  have hsplit := List.takeWhile_append_dropWhile (p := (· ≠ '\n')) (l := s.chars.drop c.line.start)
  have hfree : ∀ d ∈ c.rest, decide (d ≠ '\n') = true := by
    intro d hd
    rw [decide_eq_true_eq]
    rintro rfl
    exact h.isIn.free (List.mem_of_mem_drop hd)
  have hend : ((s.chars.drop c.line.start).dropWhile (· ≠ '\n')).takeWhile (· ≠ '\n') = [] := by
    rw [List.takeWhile_eq_nil_iff]
    intro hlength
    exact List.dropWhile_get_zero_not _ _ hlength
  rw [h.lines.takeWhile_drop] at hsplit
  have hdrop : s.chars.drop c.offset =
      c.rest ++ (s.chars.drop c.line.start).dropWhile (· ≠ '\n') := by
    rw [Cursor.offset, ← List.drop_drop, ← hsplit, List.drop_append_of_le_length h.column_le]
    rw [hsplit]
    rfl
  have hcolumn := h.column_le
  rw [pastLine, hdrop, List.takeWhile_append_of_pos hfree, hend, List.append_nil, Cursor.rest,
    List.length_drop, Cursor.offset, Line.stop]
  congr 1
  omega

/-- Anywhere on a line the same is past it. -/
theorem pastLine_eq (h : c.Stands s below) {c' : Cursor} (hon : c'.IsOn c.line) :
    s.pastLine c'.offset = s.pastLine c.offset := by
  rw [pastLine_offset (h.move hon), pastLine_offset h, hon.1]

theorem pastLine_mono (h : offset ≤ later) : s.pastLine offset ≤ s.pastLine later := by
  obtain ⟨k, rfl⟩ := Nat.exists_eq_add_of_le h
  have hlength := length_takeWhile_le (· ≠ '\n') k (s.chars.drop offset)
  rw [List.drop_drop] at hlength
  unfold pastLine
  omega

theorem le_pastLine (h : offset ≤ s.chars.length) : offset ≤ s.pastLine offset := by
  unfold pastLine
  omega

theorem lt_pastLine (h : offset < s.chars.length) : offset < s.pastLine offset := by
  unfold pastLine
  omega

theorem leaves_pastLine (h : c.Stands s below) : s.Leaves (s.pastLine c.offset) below :=
  ⟨_, h.lines.tail, pastLine_offset h⟩

/-- Where a scan has ended its line, the lines below are left. -/
theorem leaves_of_staysOn {α : Type} {scan : Scan α} {stop : Cursor} {a : α} (h : c.Stands s below)
    (hscan : Scan.StaysOn s c.line scan) (hrun : scan c = .ok (a, stop)) :
    s.Leaves (s.pastLine stop.offset) below ∧ s.pastLine stop.offset = s.pastLine c.offset := by
  have hon := hscan.isOn h.isOn hrun
  exact ⟨leaves_pastLine (h.move hon), pastLine_eq h hon⟩

theorem Leaves.passesLine (h : s.Leaves later left) (hpast : s.pastLine offset ≤ later) :
    s.PassesLine offset later := by
  obtain ⟨next, hlines, rfl⟩ := h
  refine ⟨hpast, Nat.min_le_right _ _, ?_⟩
  cases hlines with
  | nil => exact .inl (Nat.min_eq_right (Nat.le_succ _))
  | @cons line below hline hbelow =>
    rw [Nat.min_eq_left hline.start_le] at hpast ⊢
    have hstarts := hline.starts
    cases hlast : (s.chars.take line.start).getLast? with
    | some d => exact .inr (by simpa [hlast] using hstarts)
    | none =>
      -- only an empty text is passed at its start
      have hnil := congrArg List.length (List.getLast?_eq_none_iff.1 hlast)
      rw [List.length_take, List.length_nil] at hnil
      have hle := hline.start_le
      unfold pastLine at hpast
      omega

theorem passesLine_pastLine (h : c.Stands s below) (hlt : c.offset < s.chars.length) :
    c.offset < s.pastLine c.offset ∧ s.PassesLine c.offset (s.pastLine c.offset) :=
  ⟨lt_pastLine hlt, (leaves_pastLine h).passesLine (Nat.le_refl _)⟩

/-! ## Lines that are left -/

theorem Leaves.nil (h : s.Leaves offset []) : offset = s.chars.length := by
  obtain ⟨next, hlines, rfl⟩ := h
  cases hlines
  exact Nat.min_eq_right (Nat.le_succ _)

theorem Leaves.cons {line : Line} (h : s.Leaves offset (line :: below)) :
    line.cursor.Stands s below ∧ line.cursor.offset = offset := by
  obtain ⟨next, hlines, rfl⟩ := h
  obtain rfl := hlines.start_eq
  exact ⟨.of_line hlines, (Nat.min_eq_left hlines.isIn.start_le).symm⟩

/-- At the end of the text nothing is left, on the line or below. -/
theorem rest_eq_nil_of_end (h : c.Stands s below) (hend : c.offset = s.chars.length) :
    below = [] ∧ c.rest = [] := by
  have hle := h.offset_le_stop
  have hstop := h.isIn.stop_le
  constructor
  · cases below with
    | nil => rfl
    | cons next below =>
      have hnext : c.line.stop + 1 = next.start := h.lines.tail.start_eq
      have hle' := h.lines.tail.isIn.start_le
      omega
  · have hcolumn : c.offset = c.line.stop := by omega
    exact List.drop_of_length_le (Nat.le_of_eq (Nat.add_left_cancel hcolumn).symm)

theorem skipGap_offset_lt (h : c.Stands s below) (hink : c.atLineEnd = false) :
    c.skipGap.offset < s.chars.length := by
  have hskipped := h.move h.isOn.skipGap
  refine Nat.lt_of_le_of_ne hskipped.offset_le fun hend => ?_
  rw [Cursor.atLineEnd, (rest_eq_nil_of_end hskipped hend).2] at hink
  contradiction

/-- A vacant line is passed, unless it is the end of the text. -/
theorem pastVacant?_cases (h : c.Stands s below) :
    (c.offset < s.chars.length ∧ c.atLineEnd = true ∧
      s.pastVacant? c.offset = some (s.pastLine c.offset)) ∨
    (c.offset < s.chars.length ∧ c.atLineEnd = false ∧ s.pastVacant? c.offset = none) ∨
    (c.offset = s.chars.length ∧ below = [] ∧ c.rest = [] ∧ s.pastVacant? c.offset = none) := by
  unfold pastVacant?
  rw [cursorAt_offset h]
  rcases Nat.lt_or_eq_of_le h.offset_le with hlt | hend
  · cases hvacant : c.atLineEnd with
    | true =>
      have hne : s.pastLine c.offset ≠ c.offset := Nat.ne_of_gt (lt_pastLine hlt)
      exact .inl ⟨hlt, rfl, if_pos ⟨hlt, rfl, hne⟩⟩
    | false => exact .inr (.inl ⟨hlt, rfl, if_neg (by simp)⟩)
  · obtain ⟨hbelow, hrest⟩ := rest_eq_nil_of_end h hend
    exact .inr (.inr ⟨hend, hbelow, hrest, if_neg (by omega)⟩)

end Source
end DoubleEntry
