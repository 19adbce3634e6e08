import DoubleEntry.Proofs.Source.Cover

/-! The line of an offset. Looking an offset up among the line starts gives the same place as
counting line feeds, and the line that it is on. -/
namespace DoubleEntry

theorem number_of_numbered {number start : Nat} {pieces : List (List Char)}
    {above below : List Line} {line : Line} (h : numbered number start pieces = above ++ line :: below) :
    line.number = number + above.length := by
  induction pieces generalizing number start above with
  | nil => simp [numbered] at h
  | cons piece pieces ih =>
    rw [numbered] at h
    cases above with
    | nil =>
      cases h
      rfl
    | cons first above =>
      obtain ⟨-, hrest⟩ := List.cons.inj h
      rw [ih hrest, List.length_cons]
      omega

namespace LinesFrom

variable {s : Source} {start : Nat}

/-- Up to the next line feed the text goes on as its line does. -/
theorem takeWhile_drop {line : Line} {below : List Line} (h : LinesFrom s start (line :: below)) :
    (s.chars.drop line.start).takeWhile (· ≠ '\n') = line.chars := by
  have hline := h.isIn
  have hsplit : s.chars.drop line.start = line.chars ++ s.chars.drop line.stop := by
    have htake := hline.take_drop (Nat.le_refl _)
    have happend := List.take_append_drop line.chars.length (s.chars.drop line.start)
    rw [htake, List.take_length, List.drop_drop] at happend
    exact happend.symm
  -- behind the line there is a line feed, or the text is over
  have hend : (s.chars.drop line.stop).takeWhile (· ≠ '\n') = [] := by
    cases below with
    | nil =>
      have htail := h.tail
      generalize hlast : line.stop + 1 = last at htail
      cases htail
      rw [List.drop_of_length_le (by omega)]
      rfl
    | cons next below =>
      have hfeed := h.tail.slice_lineFeed
      rw [Source.slice, Nat.add_sub_cancel_left] at hfeed
      cases hdrop : s.chars.drop line.stop with
      | nil =>
        rw [hdrop] at hfeed
        contradiction
      | cons c cs =>
        rw [hdrop] at hfeed
        cases hfeed
        rfl
  rw [hsplit, List.takeWhile_append_of_pos, hend, List.append_nil]
  intro c hc
  rw [decide_eq_true_eq]
  rintro rfl
  exact hline.free hc

/-- An offset is on the last of the lines that start up to it. -/
theorem exists_takeWhile {lines : List Line} (h : LinesFrom s start lines) {offset : Nat}
    (hstart : start ≤ offset) (hoffset : offset ≤ s.chars.length) :
    ∃ above line below, lines = above ++ line :: below ∧
      lines.takeWhile (·.start ≤ offset) = above ++ [line] ∧
      line.IsIn s ∧ line.start ≤ offset ∧ offset ≤ line.stop := by
  induction h with
  | nil => omega
  | @cons line below hline hbelow ih =>
    rw [List.takeWhile_cons_of_pos (by simpa using hstart)]
    by_cases hstop : offset ≤ line.stop
    · refine ⟨[], line, below, rfl, ?_, hline, hstart, hstop⟩
      cases below with
      | nil => rfl
      | cons next below =>
        have hnext : line.stop + 1 = next.start := hbelow.start_eq
        rw [List.takeWhile_cons_of_neg (by simp; omega)]
        rfl
    · obtain ⟨above, other, rest, hlines, htake, hother⟩ := ih (by omega)
      exact ⟨line :: above, other, rest, by rw [hlines]; rfl, by rw [htake]; rfl, hother⟩

end LinesFrom

namespace Source

variable {s : Source}

/-- Looked up among the lines, an offset is in the line whose text is found there. -/
theorem exists_line_of_offset {offset : Nat} (h : offset ≤ s.chars.length) :
    ∃ line ∈ s.lines, line.IsIn s ∧ line.start ≤ offset ∧ offset ≤ line.stop ∧
      s.position offset = ⟨line.number, offset - line.start + 1⟩ ∧ s.lineAt offset = line.chars := by
  obtain ⟨above, line, below, hlines, htake, hline, hstart, hstop⟩ :=
    s.linesFrom_lines.exists_takeWhile (Nat.zero_le offset) h
  refine ⟨line, by simp [hlines], hline, hstart, hstop, ?_, ?_⟩
  · have hreached : s.lineStarts.takeWhile (· ≤ offset) = (above ++ [line]).map Line.start := by
      rw [lineStarts, List.takeWhile_map, ← htake]
      rfl
    have hnumber : line.number = 1 + above.length := number_of_numbered (s.lines_eq ▸ hlines)
    unfold position
    simp only [hreached, List.map_append, List.map_cons, List.map_nil, List.getLastD_concat,
      List.length_append, List.length_map, List.length_singleton]
    rw [hnumber, Nat.add_comm]
  · rw [lineAt, htake, List.getLastD_concat]

/-- A place that is counted is looked up. -/
theorem position_eq_countedPosition {offset : Nat} (h : offset ≤ s.chars.length) :
    s.position offset = s.countedPosition offset := by
  obtain ⟨line, _, hline, hstart, hstop, hposition, _⟩ := exists_line_of_offset h
  obtain ⟨k, rfl⟩ := Nat.exists_eq_add_of_le hstart
  rw [hposition, hline.countedPosition (Nat.le_of_add_le_add_left hstop), Nat.add_sub_cancel_left]

end Source

/-! ## Directives -/

/-- The first line of a directive is the front of the line that it starts. -/
def Token.Starts (t : Token) (line : Line) : Prop :=
  t.position = ⟨line.number, 1⟩ ∧ t.text.toList.takeWhile (· ≠ '\n') <+: line.chars

theorem starts_of_directive {s : Source} {line : Line} {below : List Line}
    (h : LinesFrom s line.start (line :: below)) {found : Token × List Line}
    (hfound : directive line below = .ok found) : found.1.Starts line := by
  obtain ⟨stop, _, hnode, _, _⟩ := heads_directive h hfound
  constructor
  · rw [hnode.position, ← Nat.add_zero line.start, h.isIn.countedPosition (Nat.zero_le _)]
  · rw [hnode.text, Source.slice, ← List.take_takeWhile, h.takeWhile_drop]
    exact List.take_prefix _ _

/-- What holds of a directive and the line it starts on, holds of each directive and some line. -/
theorem exists_line_of_directives {P : Token → Line → Prop} {s : Source} {start : Nat}
    {lines : List Line} (h : LinesFrom s start lines)
    (hdirective : ∀ line below found, LinesFrom s line.start (line :: below) →
      directive line below = .ok found → P found.1 line)
    {tokens : List Token} (htokens : directives lines = .ok tokens) :
    ∀ t ∈ tokens, ∃ line ∈ lines, P t line := by
  fun_induction directives lines generalizing start tokens with
  | case1 =>
    cases htokens
    simp
  | case2 line below hvacant ih =>
    intro t ht
    obtain ⟨other, hother, hP⟩ := ih h.tail htokens t ht
    exact ⟨other, List.mem_cons_of_mem _ hother, hP⟩
  | case3 line below hvacant stray hstray => contradiction
  | case4 line below hvacant token left hfound _ stray hleft ih => contradiction
  | case5 line below hvacant token left hfound _ rest hleft ih =>
    cases htokens
    obtain rfl := h.start_eq
    obtain ⟨_, _, _, _, hlines⟩ := heads_directive h hfound
    refine List.forall_mem_cons.2 ⟨⟨line, by simp, hdirective line below _ h hfound⟩, ?_⟩
    intro t ht
    obtain ⟨other, hother, hP⟩ := ih hlines hleft t ht
    have hsub : left ⊆ below := by
      rcases directive_left hfound with rfl | rfl
      · exact List.Subset.refl _
      · exact (List.dropWhile_sublist _).subset
    exact ⟨other, List.mem_cons_of_mem _ (hsub hother), hP⟩

theorem Source.exists_starts_of_mem {s : Source} {tokens : List Token} (h : s.tokens = .ok tokens)
    {t : Token} (ht : t ∈ tokens) : ∃ line ∈ s.lines, t.Starts line :=
  exists_line_of_directives s.linesFrom_lines (fun _ _ _ h hfound => starts_of_directive h hfound)
    (mapError_eq_ok_iff.1 h) t ht

end DoubleEntry
