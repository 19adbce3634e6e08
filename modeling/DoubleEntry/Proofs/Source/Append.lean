import DoubleEntry.Proofs.Token.Moved

/-! The lines of a text that goes on after a line end: those of the first part, and those of the
second part further down. -/
namespace DoubleEntry

namespace Text

/-- The stretches between line feeds. -/
def pieces (cs : List Char) : List (List Char) := (splitAt '\n' cs).1 :: (splitAt '\n' cs).2

theorem joinWith_cons (separator : Char) (piece : List Char) (pieces : List (List Char)) :
    joinWith separator (piece :: pieces) = piece ++ pieces.flatMap (separator :: ·) := by
  induction pieces generalizing piece with
  | nil => simp [joinWith, List.intercalate]
  | cons next pieces ih =>
    have hnext := ih next
    unfold joinWith at hnext ⊢
    rw [List.intercalate_cons_cons, hnext]
    simp

theorem joinWith_cons_cons (separator : Char) (piece next : List Char) (pieces : List (List Char)) :
    joinWith separator (piece :: next :: pieces) =
      piece ++ separator :: joinWith separator (next :: pieces) := by
  unfold joinWith
  rw [List.intercalate_cons_cons, List.append_assoc, List.singleton_append]

theorem pieces_append (cs rest : List Char) :
    pieces (cs ++ '\n' :: rest) = pieces cs ++ pieces rest := by
  unfold pieces splitAt
  induction cs with
  | nil => simp [splitWhere]
  | cons c cs ih =>
    rw [List.cons_append, splitWhere, splitWhere]
    simp only [List.cons_append, List.cons.injEq] at ih ⊢
    rw [ih.1, ih.2]
    split <;> simp

theorem pieces_of_not_mem {cs : List Char} (h : '\n' ∉ cs) : pieces cs = [cs] := by
  have hfree : ∀ c ∈ cs, (c == '\n') = false := by
    intro c hc
    rw [beq_eq_false_iff_ne]
    rintro rfl
    exact h hc
  unfold pieces splitAt
  rw [splitWhere_of_not_mem hfree]

/-- Without carriage returns or without line feeds there is no pair of them. -/
theorem foldCrLf_eq_self {cs : List Char} (h : '\r' ∉ cs ∨ '\n' ∉ cs) : foldCrLf cs = cs := by
  fun_induction foldCrLf cs with
  | case1 cs ih => simp at h
  | case2 c cs hpair ih =>
    rw [ih (h.imp (mt (List.mem_cons_of_mem c)) (mt (List.mem_cons_of_mem c)))]
  | case3 => rfl

/-- A line feed keeps what comes before it apart from what follows. -/
theorem exists_foldCrLf_append (cs : List Char) :
    ∃ folded, ∀ rest, foldCrLf (cs ++ '\n' :: rest) = folded ++ '\n' :: foldCrLf rest := by
  fun_induction foldCrLf cs with
  | case1 cs ih =>
    obtain ⟨folded, hfolded⟩ := ih
    exact ⟨'\n' :: folded, fun rest => by simp [foldCrLf, hfolded]⟩
  | case2 c cs hpair ih =>
    obtain ⟨folded, hfolded⟩ := ih
    by_cases hreturn : c = '\r' ∧ cs = []
    · obtain ⟨rfl, rfl⟩ := hreturn
      exact ⟨[], fun rest => rfl⟩
    · refine ⟨c :: folded, fun rest => ?_⟩
      rw [List.cons_append, foldCrLf, hfolded, List.cons_append]
      intro ds hc hds
      cases cs with
      | nil => exact hreturn ⟨hc, rfl⟩
      | cons d cs =>
        cases hds
        exact hpair _ hc rfl
  | case3 => exact ⟨[], fun rest => by simp [foldCrLf]⟩

end Text

theorem numbered_append (number start : Nat) (pieces others : List (List Char)) :
    ∃ stop, numbered number start (pieces ++ others) =
      numbered number start pieces ++ numbered (number + pieces.length) stop others := by
  induction pieces generalizing number start with
  | nil => exact ⟨start, rfl⟩
  | cons cs pieces ih =>
    obtain ⟨stop, hstop⟩ := ih (number + 1) (start + cs.length + 1)
    refine ⟨stop, ?_⟩
    rw [List.cons_append, numbered, numbered, hstop, List.cons_append, List.length_cons]
    congr 3
    omega

theorem exists_numbered_concat (number start : Nat) (pieces : List (List Char)) (cs : List Char) :
    ∃ line : Line, line.chars = cs ∧
      numbered number start (pieces ++ [cs]) = numbered number start pieces ++ [line] := by
  obtain ⟨stop, hstop⟩ := numbered_append number start pieces [cs]
  exact ⟨⟨number + pieces.length, stop, cs⟩, rfl, hstop⟩

theorem numbered_length (number start : Nat) (pieces : List (List Char)) :
    (numbered number start pieces).length = pieces.length := by
  rw [← List.length_map (f := Line.chars), numbered_chars]

theorem linesBelow_numbered (lines number start start' : Nat) (pieces : List (List Char)) :
    LinesBelow lines (numbered number start pieces) (numbered (number + lines) start' pieces) := by
  induction pieces generalizing number start start' with
  | nil => exact .nil
  | cons cs pieces ih =>
    rw [numbered, numbered, Nat.add_right_comm number lines 1]
    exact .cons ⟨rfl, rfl⟩ (ih _ _ _)

namespace Source

theorem lines_eq (s : Source) : s.lines = numbered 1 0 (Text.pieces s.chars) := by
  unfold lines laterLines firstLine Line.stop Text.pieces
  rw [numbered]

/-- A text without line feeds is its first line. -/
theorem lines_of_lineFeed_not_mem {text : String} (h : '\n' ∉ text.toList) (name : Option String) :
    (ofText text name).firstLine = ⟨1, 0, text.toList⟩ ∧ (ofText text name).laterLines = [] := by
  have hchars : (ofText text name).chars = text.toList := Text.foldCrLf_eq_self (.inr h)
  have hlines := lines_eq (ofText text name)
  rw [hchars, Text.pieces_of_not_mem h] at hlines
  exact List.cons.inj hlines

/-- Empty, or with a line feed at its end. -/
def IsWhole (text : String) : Prop := text = "" ∨ text.toList.getLast? = some '\n'

/-- Where a text stops between lines, the lines of its continuation take the place of the last line,
which is empty. -/
theorem exists_lines_append {text : String} (h : IsWhole text) (name : Option String) :
    ∃ above last, last.chars = [] ∧ (ofText text name).lines = above ++ [last] ∧
      ∀ rest, ∃ below, (ofText (text ++ rest) name).lines = above ++ below ∧
        LinesBelow above.length (ofText rest name).lines below := by
  rcases h with rfl | h
  · refine ⟨[], ⟨1, 0, []⟩, rfl, rfl, fun rest => ⟨(ofText rest name).lines, ?_, ?_⟩⟩
    · rw [String.empty_append]
      rfl
    · rw [lines_eq]
      exact linesBelow_numbered 0 1 0 0 _
  · obtain ⟨cs, hcs⟩ := List.getLast?_eq_some_iff.1 h
    obtain ⟨folded, hfolded⟩ := Text.exists_foldCrLf_append cs
    have hwhole : (ofText text name).chars = folded ++ '\n' :: [] := by
      rw [ofText, hcs]
      exact hfolded []
    have hboth (rest : String) : (ofText (text ++ rest) name).chars =
        folded ++ '\n' :: (ofText rest name).chars := by
      rw [ofText, String.toList_append, hcs, List.append_assoc]
      exact hfolded rest.toList
    obtain ⟨last, hlast, hconcat⟩ := exists_numbered_concat 1 0 (Text.pieces folded) []
    refine ⟨numbered 1 0 (Text.pieces folded), last, hlast, ?_, fun rest => ?_⟩
    · rw [lines_eq, hwhole, Text.pieces_append]
      exact hconcat
    · obtain ⟨stop', hstop'⟩ := numbered_append 1 0 (Text.pieces folded)
        (Text.pieces (ofText rest name).chars)
      rw [lines_eq, lines_eq, hboth, Text.pieces_append, numbered_length]
      exact ⟨_, hstop', linesBelow_numbered _ 1 0 stop' _⟩

end Source
end DoubleEntry
