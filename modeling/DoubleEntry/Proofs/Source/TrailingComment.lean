import DoubleEntry.Proofs.Source.Comment
import DoubleEntry.Proofs.Source.Reread
import DoubleEntry.Proofs.Token.TrailingComment

/-! A comment put at the end of a line of a source text. -/
namespace DoubleEntry

open Text

/-- What is left of a text from the end of one of its lines on. -/
def IsFromLineEnd (back : String) : Prop := back.toList.head?.all (· = '\n') = true

instance (back : String) : Decidable (IsFromLineEnd back) := inferInstanceAs (Decidable (_ = _))

namespace Text

theorem foldCrLf_append_of_not_mem {cs : List Char} (h : '\r' ∉ cs) (rest : List Char) :
    foldCrLf (cs ++ rest) = cs ++ foldCrLf rest := by
  induction cs with
  | nil => rfl
  | cons c cs ih =>
    rw [List.mem_cons, not_or] at h
    rw [List.cons_append, foldCrLf, ih h.2, List.cons_append]
    intro ds hc
    exact absurd hc.symm h.1

/-- A longer last line is the last piece. -/
theorem exists_pieces_append (cs : List Char) {ds : List Char} (h : '\n' ∉ ds) :
    ∃ init last, pieces cs = init ++ [last] ∧ pieces (cs ++ ds) = init ++ [last ++ ds] := by
  obtain ⟨init, last, hpieces⟩ : ∃ init last, pieces cs = init ++ [last] :=
    ⟨_, _, (List.dropLast_concat_getLast (List.cons_ne_nil _ _)).symm⟩
  have hfree : ∀ piece ∈ pieces cs, '\n' ∉ piece := fun piece hpiece hmem =>
    absurd (separator_not_mem_splitWhere cs piece hpiece '\n' hmem) (by simp)
  have hjoin : joinWith '\n' (pieces cs) = cs := joinWith_splitAt _ _
  obtain ⟨front, hfront⟩ := exists_joinWith_concat '\n' init
  rw [hpieces] at hfree hjoin
  have hlonger : ∀ piece ∈ init ++ [last ++ ds], '\n' ∉ piece := by
    rw [List.forall_mem_append] at hfree ⊢
    refine ⟨hfree.1, List.forall_mem_singleton.2 ?_⟩
    rw [List.mem_append, not_or]
    exact ⟨hfree.2 last (by simp), h⟩
  refine ⟨init, last, hpieces, ?_⟩
  rw [hfront] at hjoin
  rw [← hjoin, List.append_assoc, ← hfront]
  cases init with
  | nil => exact pieces_joinWith hlonger
  | cons piece init => exact pieces_joinWith hlonger

end Text

theorem StartsComment.endsLine {cs : List Char} (h : StartsComment cs) :
    DoubleEntry.endsLine cs = true := by
  unfold DoubleEntry.endsLine
  rw [show (cs.dropWhile isGap).head? = some commentMark from h]
  rfl

theorem linesCommented_numbered (number start start' : Nat) {pieces pieces' : List (List Char)}
    (h : List.Forall₂ Text.Commented pieces pieces') :
    LinesCommented (numbered number start pieces) (numbered number start' pieces') := by
  induction h generalizing number start start' with
  | nil => exact .nil
  | cons hpiece _ ih => exact .cons ⟨rfl, hpiece⟩ (ih _ _ _)

namespace Source

variable {front comment back : String} {name : Option String}

/-- In the source a carriage return at the end of the comment may be gone. -/
theorem exists_chars_comment (hreturn : '\r' ∉ (front ++ back).toList)
    (hcomment : IsCommentLine comment) (hback : IsFromLineEnd back) :
    ∃ cs, '\n' ∉ cs ∧ StartsComment cs ∧
      (ofText (front ++ comment ++ back) name).chars = front.toList ++ cs ++ back.toList := by
  rw [String.toList_append, List.mem_append, not_or] at hreturn
  obtain ⟨hfront, hrest⟩ := hreturn
  have hchars : (ofText (front ++ comment ++ back) name).chars =
      front.toList ++ foldCrLf (comment.toList ++ back.toList) := by
    rw [ofText, String.toList_append, String.toList_append, List.append_assoc]
    exact foldCrLf_append_of_not_mem hfront _
  unfold IsFromLineEnd at hback
  cases hcs : back.toList with
  | nil =>
    refine ⟨comment.toList, hcomment.1, hcomment.2, ?_⟩
    rw [hchars, hcs, List.append_nil, List.append_nil, foldCrLf_eq_self (.inr hcomment.1)]
  | cons c rest =>
    rw [hcs] at hback hrest
    obtain rfl : c = '\n' := by simpa using hback
    obtain ⟨line, hline, hfold⟩ := exists_foldCrLf_line hcomment.1
    have hrest' : foldCrLf rest = rest :=
      foldCrLf_eq_self (.inl (mt (List.mem_cons_of_mem _) hrest))
    refine ⟨line, ?_, ?_, by rw [hchars, hcs, hfold, hrest', List.append_assoc]⟩
    · rcases hline with hline | hline
      · exact hline ▸ hcomment.1
      · exact fun hmem => hcomment.1 (hline ▸ List.mem_append_left _ hmem)
    · rcases hline with hline | hline
      · exact hline ▸ hcomment.2
      · exact .of_append_return (hline ▸ hcomment.2)

/-- The lines of the changed text are those of the text, one of them with the comment. -/
theorem linesCommented_of_comment (hreturn : '\r' ∉ (front ++ back).toList)
    (hcomment : IsCommentLine comment) (hback : IsFromLineEnd back) (name : Option String) :
    LinesCommented (ofText (front ++ back) name).lines
      (ofText (front ++ comment ++ back) name).lines := by
  obtain ⟨cs, hfree, hstarts, hchanged⟩ : ∃ cs, '\n' ∉ cs ∧ StartsComment cs ∧
      (ofText (front ++ comment ++ back) name).chars = front.toList ++ cs ++ back.toList :=
    exists_chars_comment hreturn hcomment hback
  have htext : (ofText (front ++ back) name).chars = front.toList ++ back.toList := by
    rw [ofText, foldCrLf_eq_self (.inl hreturn), String.toList_append]
  obtain ⟨init, last, hpieces, hlonger⟩ := exists_pieces_append front.toList hfree
  have hsame (pieces : List (List Char)) : List.Forall₂ Text.Commented pieces pieces :=
    List.forall₂_same.2 fun cs _ => commented_self cs
  have hlines :
      List.Forall₂ Text.Commented (pieces front.toList) (pieces (front.toList ++ cs)) := by
    rw [hpieces, hlonger]
    exact List.rel_append (hsame init) (.cons ⟨cs, hstarts.endsLine, rfl⟩ .nil)
  rw [lines_eq, lines_eq, htext, hchanged]
  refine linesCommented_numbered 1 0 0 ?_
  unfold IsFromLineEnd at hback
  cases hcs : back.toList with
  | nil => rwa [List.append_nil, List.append_nil]
  | cons c rest =>
    rw [hcs] at hback
    obtain rfl : c = '\n' := by simpa using hback
    rw [pieces_append, pieces_append]
    exact List.rel_append hlines (hsame (pieces rest))

/-- A comment may stand at the end of any line, also of a blank one and of the last. The text is
read as the same directives. -/
theorem tokens_comment_line_end (hreturn : '\r' ∉ (front ++ back).toList)
    (hcomment : IsCommentLine comment) (hback : IsFromLineEnd back) {tokens : List Token}
    (h : (ofText (front ++ back) name).tokens = .ok tokens) :
    ∃ tokens', (ofText (front ++ comment ++ back) name).tokens = .ok tokens' ∧
      tokens'.map Directive.ofToken = tokens.map Directive.ofToken := by
  have hlines := linesCommented_of_comment hreturn hcomment hback name
  rw [tokens_eq_ok_iff] at h
  obtain ⟨tokens', htokens', hsame⟩ := readCommented _ _ _ hlines h
  refine ⟨tokens', tokens_eq_ok_iff.2 htokens', ?_⟩
  rw [← List.forall₂_eq_eq_eq, List.forall₂_map_left_iff, List.forall₂_map_right_iff]
  exact hsame.flip

def groceryText : String :=
  "2021-10-28 * \"Groceries\"\n\tExpenses:Food  12.50 EUR\n\tAssets:Cash"

/-- A comment on the blank line below the last posting, which comes to belong to the transaction,
and one on the empty last line. -/
theorem tokens_comment_line_end_groceries :
    ∃ tokens, (ofText (groceryText ++ "\n\nunit EUR\n") none).tokens = .ok tokens ∧
      (∃ tokens', (ofText (groceryText ++ "\n" ++ "\t; paid\r" ++ "\nunit EUR\n") none).tokens =
        .ok tokens' ∧ tokens'.map Directive.ofToken = tokens.map Directive.ofToken) ∧
      ∃ tokens', (ofText (groceryText ++ "\n\nunit EUR\n" ++ ";" ++ "") none).tokens =
        .ok tokens' ∧ tokens'.map Directive.ofToken = tokens.map Directive.ofToken := by
  have hread : (ofText (groceryText ++ "\n\nunit EUR\n") none).tokens.toOption.isSome = true := by
    decide +kernel
  obtain ⟨tokens, htokens⟩ := Option.isSome_iff_exists.1 hread
  rw [toOption_eq_some_iff] at htokens
  have hreturn : '\r' ∉ (groceryText ++ "\n" ++ "\nunit EUR\n").toList := by decide +kernel
  have hreturn' : '\r' ∉ (groceryText ++ "\n\nunit EUR\n" ++ "").toList := by decide +kernel
  refine ⟨tokens, htokens, tokens_comment_line_end hreturn (by decide) (by decide) ?_,
    tokens_comment_line_end hreturn' (by decide) (by decide) ?_⟩
  · rwa [String.append_assoc]
  · rwa [String.append_empty]

end Source
end DoubleEntry
