import DoubleEntry.Proofs.Load.Accumulation
import DoubleEntry.Proofs.Token.Comment

/-! A comment line put into a source text, between two of its lines or below the last. -/
namespace DoubleEntry

/-- A comment mark comes first, perhaps after a gap. -/
def StartsComment (cs : List Char) : Prop := (cs.dropWhile Text.isGap).head? = some commentMark

/-- A comment on a line of its own. -/
def IsCommentLine (comment : String) : Prop :=
  '\n' ∉ comment.toList ∧ StartsComment comment.toList

instance (comment : String) : Decidable (IsCommentLine comment) :=
  inferInstanceAs (Decidable (_ ∧ _ = _))

/-- The text changes by a line put in front of what follows there. Below the last line the line feed
goes in front of it; it would join a carriage return at the end of the text. -/
inductive InsertsLine (line : String) : (text after changed : String) → Prop
  | above {before after : String} : Source.IsWhole before →
      InsertsLine line (before ++ after) after (before ++ (line ++ "\n" ++ after))
  | below {text : String} : text.toList.getLast? ≠ some '\r' →
      InsertsLine line text "" (text ++ "\n" ++ line)

/-- The comment starts in the first column, and lines of the transaction above follow it. -/
def CutsTransaction (comment after : String) : Prop :=
  comment.toList.head? = some commentMark ∧ startsBelowHeader (Source.ofText after none).lines = true

namespace Text

/-- At the end of a line a carriage return goes. -/
theorem exists_foldCrLf_line {cs : List Char} (h : '\n' ∉ cs) :
    ∃ line, (cs = line ∨ cs = line ++ ['\r']) ∧
      ∀ rest, foldCrLf (cs ++ '\n' :: rest) = line ++ '\n' :: foldCrLf rest := by
  induction cs with
  | nil => exact ⟨[], .inl rfl, fun rest => by simp [foldCrLf]⟩
  | cons c cs ih =>
    rw [List.mem_cons, not_or] at h
    obtain ⟨line, hcs, hfold⟩ := ih h.2
    by_cases hreturn : c = '\r' ∧ cs = []
    · obtain ⟨rfl, rfl⟩ := hreturn
      exact ⟨[], .inr rfl, fun rest => rfl⟩
    refine ⟨c :: line, ?_, fun rest => ?_⟩
    · simpa using hcs
    rw [List.cons_append, foldCrLf, hfold, List.cons_append]
    intro ds hc hds
    cases cs with
    | nil => exact hreturn ⟨hc, rfl⟩
    | cons d cs =>
      cases hds
      simp at h

theorem foldCrLf_append_lineFeed {cs : List Char} (h : cs.getLast? ≠ some '\r') (rest : List Char) :
    foldCrLf (cs ++ '\n' :: rest) = foldCrLf cs ++ '\n' :: foldCrLf rest := by
  fun_induction foldCrLf cs with
  | case1 cs ih =>
    have hlast : cs.getLast? ≠ some '\r' := by
      rintro heq
      simp [List.getLast?_cons, heq] at h
    simp [foldCrLf, ih hlast]
  | case2 c cs hpair ih =>
    have hlast : cs.getLast? ≠ some '\r' := by
      rintro heq
      simp [List.getLast?_cons, heq] at h
    rw [List.cons_append, foldCrLf, ih hlast, List.cons_append]
    intro ds hc hds
    cases cs with
    | nil => exact h (by rw [hc]; rfl)
    | cons d cs =>
      cases hds
      exact hpair _ hc rfl
  | case3 => simp [foldCrLf]

end Text

/-! ## The comment as a line -/

theorem StartsComment.of_append_return {cs : List Char} (h : StartsComment (cs ++ ['\r'])) :
    StartsComment cs := by
  unfold StartsComment at h ⊢
  rw [List.dropWhile_append] at h
  split at h
  · exact absurd h (by decide)
  · rename_i hsome
    cases hcs : cs.dropWhile Text.isGap with
    | nil => simp [hcs] at hsome
    | cons c rest => simpa [hcs] using h

theorem StartsComment.isVacant {line : Line} (h : StartsComment line.chars) :
    line.isVacant = true := by
  have hrest : line.cursor.rest = line.chars := rfl
  unfold Line.isVacant Cursor.atLineEnd
  rw [Cursor.rest_skipGap, hrest, h]
  rfl

theorem StartsComment.isIndented_iff {line : Line} (h : StartsComment line.chars) :
    line.isIndented = true ↔ line.chars.head? ≠ some commentMark := by
  unfold StartsComment at h
  unfold Line.isIndented
  cases hchars : line.chars with
  | nil => simp [hchars] at h
  | cons c cs =>
    rw [hchars] at h
    by_cases hgap : Text.isGap c = true
    · have hmark : commentMark ∈ (c :: cs).dropWhile Text.isGap := List.mem_of_mem_head? h
      have hmem : commentMark ∈ c :: cs := (List.dropWhile_sublist _).subset hmark
      have hall : (c :: cs).all Text.isBlank = false :=
        List.all_eq_false.2 ⟨commentMark, hmem, by decide⟩
      have hne : c ≠ commentMark := by
        rintro rfl
        contradiction
      simp [hall, Text.isBlank_of_isGap hgap, hne]
    · rw [List.dropWhile_cons_of_neg hgap] at h
      obtain rfl : c = commentMark := by simpa using h
      simp [show Text.isBlank commentMark = false by decide]

theorem LinesBelow.between {count lines : Nat} {first first' second second' : List Line}
    (h : LinesBelow count first first') (hlines : LinesBelow lines first second)
    (h' : LinesBelow count second second') : LinesBelow lines first' second' := by
  induction h generalizing second second' with
  | nil =>
    cases hlines
    cases h'
    exact .nil
  | cons hline _ ih =>
    cases hlines with
    | cons hlines hmore =>
      cases h' with
      | cons hline' hmore' =>
        refine .cons ⟨?_, ?_⟩ (ih hmore hmore')
        · rw [hline'.chars, hlines.chars, hline.chars]
        · rw [hline'.number, hlines.number, hline.number, Nat.add_right_comm]

namespace Source

/-- The comment in front of a text. -/
theorem exists_line_comment {comment : String} (h : IsCommentLine comment) (name : Option String) :
    ∃ line : Line, StartsComment line.chars ∧ line.chars.head? = comment.toList.head? ∧
      ∀ after, ∃ below, (ofText (comment ++ "\n" ++ after) name).lines = line :: below ∧
        LinesBelow 1 (ofText after name).lines below := by
  obtain ⟨cs, hcs, hfold⟩ := Text.exists_foldCrLf_line h.1
  have hfree : '\n' ∉ cs := by
    rcases hcs with hcs | hcs
    · exact hcs ▸ h.1
    · intro hmem
      apply h.1
      rw [hcs]
      exact List.mem_append_left _ hmem
  have hstarts : StartsComment cs := by
    rcases hcs with hcs | hcs
    · exact hcs ▸ h.2
    · exact .of_append_return (hcs ▸ h.2)
  have hhead : cs.head? = comment.toList.head? := by
    rcases hcs with hcs | hcs
    · rw [hcs]
    · cases cs with
      | nil => simp [StartsComment] at hstarts
      | cons c cs => rw [hcs, List.cons_append, List.head?_cons, List.head?_cons]
  refine ⟨⟨1, 0, cs⟩, hstarts, hhead, fun after => ?_⟩
  have hchars : (ofText (comment ++ "\n" ++ after) name).chars =
      cs ++ '\n' :: (ofText after name).chars := by
    simpa [ofText, String.toList_append] using hfold after.toList
  rw [lines_eq, lines_eq, hchars, Text.pieces_append, Text.pieces_of_not_mem hfree]
  exact ⟨_, rfl, linesBelow_numbered 1 1 0 _ _⟩

/-- The lines of the changed text are those of the text and the comment. -/
theorem exists_lines_insert {comment text after changed : String} (hcomment : IsCommentLine comment)
    (hinsert : InsertsLine comment text after changed) (name : Option String) :
    ∃ above below below' line, (ofText text name).lines = above ++ below ∧
      (ofText changed name).lines = above ++ line :: below' ∧ LinesBelow 1 below below' ∧
      StartsComment line.chars ∧ line.chars.head? = comment.toList.head? ∧
      startsBelowHeader below = startsBelowHeader (ofText after name).lines := by
  cases hinsert with
  | @above before _ hbefore =>
    obtain ⟨above, last, _, _, hlines⟩ := exists_lines_append hbefore name
    obtain ⟨below, htext, hbelow⟩ := hlines after
    obtain ⟨more, hchanged, hmore⟩ := hlines (comment ++ "\n" ++ after)
    obtain ⟨line, hstarts, hhead, hafter⟩ := exists_line_comment hcomment name
    obtain ⟨below', hfirst, hbelow'⟩ := hafter after
    rw [hfirst] at hmore
    cases hmore with
    | @cons _ line' _ more hline hmore =>
      exact ⟨above, below, more, line', htext, hchanged, hbelow.between hbelow' hmore,
        hline.chars ▸ hstarts, hline.chars ▸ hhead, hbelow.startsBelowHeader⟩
  | below hlast =>
    -- behind the text the comment is a line that comes last
    have hchars : (ofText (text ++ "\n" ++ comment) name).chars =
        (ofText text name).chars ++ '\n' :: comment.toList := by
      have hfold := Text.foldCrLf_append_lineFeed hlast comment.toList
      rw [Text.foldCrLf_eq_self (.inr hcomment.1)] at hfold
      simpa [ofText, String.toList_append] using hfold
    obtain ⟨line, hline, hconcat⟩ :=
      exists_numbered_concat 1 0 (Text.pieces (ofText text name).chars) comment.toList
    refine ⟨_, [], [], line, (List.append_nil _).symm, ?_, .nil, hline ▸ hcomment.2,
      congrArg List.head? hline, rfl⟩
    rw [lines_eq, lines_eq, hchars, Text.pieces_append, Text.pieces_of_not_mem hcomment.1]
    exact hconcat

/-- A comment line that cuts a transaction makes the text unreadable. Every other comment line leaves
the meaning of the text as it is. -/
theorem tokens_insert_comment {comment text after changed : String}
    (hcomment : IsCommentLine comment) (hinsert : InsertsLine comment text after changed)
    {name : Option String} {tokens : List Token} (h : (ofText text name).tokens = .ok tokens) :
    (CutsTransaction comment after → ∃ error, (ofText changed name).tokens = .error error) ∧
      (¬ CutsTransaction comment after → ∃ tokens', (ofText changed name).tokens = .ok tokens' ∧
        List.Forall₂ Token.MeansSame tokens tokens') := by
  obtain ⟨above, below, below', line, htext, hchanged, hbelow, hstarts, hhead, hafter⟩ :=
    exists_lines_insert hcomment hinsert name
  have hindented : line.isIndented = true ↔ comment.toList.head? ≠ some commentMark := by
    rw [hstarts.isIndented_iff, hhead]
  have hcuts : CutsTransaction comment after ↔
      line.isIndented = false ∧ startsBelowHeader below = true := by
    rw [hafter, ← Bool.not_eq_true, hindented, not_not]
    rfl
  rw [hcuts]
  constructor
  · rintro ⟨hcolumn, hposting⟩
    cases htokens : (ofText changed name).tokens with
    | error error => exact ⟨error, rfl⟩
    | ok tokens' =>
      rw [tokens_eq_ok_iff, hchanged] at htokens
      have hnone := startsBelowHeader_of_directives hstarts.isVacant hcolumn htokens
      rw [hbelow.startsBelowHeader, hposting] at hnone
      contradiction
  · intro hkept
    rw [tokens_eq_ok_iff, htext] at h
    simp only [tokens_eq_ok_iff, hchanged]
    refine readAlike_insert hstarts.isVacant hbelow ?_ above tokens h
    rwa [not_and_or, Bool.not_eq_false, Bool.not_eq_true] at hkept

def lunchTop : String := "2021-10-28 * \"Lunch\"\n    Expenses:Dining  199 USD\n"

def lunchBottom : String := "    Assets:Bank"

/-- An indented comment between the postings, a comment in the first column there, and one below. -/
theorem tokens_insert_comment_lunch :
    ∃ tokens, (ofText (lunchTop ++ lunchBottom) none).tokens = .ok tokens ∧
      (∃ tokens', (ofText (lunchTop ++ ("\t; paid" ++ "\n" ++ lunchBottom)) none).tokens =
        .ok tokens' ∧ List.Forall₂ Token.MeansSame tokens tokens') ∧
      (∃ error, (ofText (lunchTop ++ ("; paid" ++ "\n" ++ lunchBottom)) none).tokens =
        .error error) ∧
      (∃ tokens', (ofText (lunchTop ++ lunchBottom ++ "\n" ++ "; paid") none).tokens =
        .ok tokens' ∧ List.Forall₂ Token.MeansSame tokens tokens') := by
  have hread : (ofText (lunchTop ++ lunchBottom) none).tokens.toOption.isSome = true := by
    decide +kernel
  obtain ⟨tokens, htokens⟩ := Option.isSome_iff_exists.1 hread
  rw [toOption_eq_some_iff] at htokens
  have hwhole : IsWhole lunchTop := .inr (by decide)
  have hlast : (lunchTop ++ lunchBottom).toList.getLast? ≠ some '\r' := by decide +kernel
  have htab : IsCommentLine "\t; paid" := by decide
  have hcolumn : IsCommentLine "; paid" := by decide
  have hcuts : CutsTransaction "; paid" lunchBottom := ⟨by decide, by decide +kernel⟩
  have hend : startsBelowHeader (ofText "" none).lines = false := by decide +kernel
  refine ⟨tokens, htokens, ?_, ?_, ?_⟩
  · refine (tokens_insert_comment htab (.above hwhole) htokens).2 fun hcut => ?_
    exact absurd hcut.1 (by decide)
  · exact (tokens_insert_comment hcolumn (.above hwhole) htokens).1 hcuts
  · refine (tokens_insert_comment hcolumn (.below hlast) htokens).2 fun hcut => ?_
    rw [CutsTransaction, hend] at hcut
    exact Bool.noConfusion hcut.2

/-- Comments in the first column are not ignored among postings. -/
theorem not_forall_tokens_insert_comment :
    ¬ ∀ (comment text after changed : String) (tokens : List Token), IsCommentLine comment →
      InsertsLine comment text after changed → (ofText text none).tokens = .ok tokens →
      ∃ tokens', (ofText changed none).tokens = .ok tokens' ∧
        List.Forall₂ Token.MeansSame tokens tokens' := by
  intro h
  have hread : (ofText (lunchTop ++ lunchBottom) none).tokens.toOption.isSome = true := by
    decide +kernel
  have hunread : (ofText (lunchTop ++ ("; paid" ++ "\n" ++ lunchBottom)) none).tokens.toOption =
    none := by decide +kernel
  obtain ⟨tokens, htokens⟩ := Option.isSome_iff_exists.1 hread
  rw [toOption_eq_some_iff] at htokens
  obtain ⟨tokens', htokens', _⟩ :=
    h "; paid" _ _ _ tokens (by decide) (.above (.inr (by decide))) htokens
  rw [← toOption_eq_some_iff, hunread] at htokens'
  contradiction

end Source
end DoubleEntry
