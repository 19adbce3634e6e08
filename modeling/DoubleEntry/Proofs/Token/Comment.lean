import DoubleEntry.Proofs.Token.Append

/-! A comment put between two lines. The lines are read as before it, unless it starts in the first
column and stands in front of a posting: there it ends the transaction above. -/
namespace DoubleEntry

/-- What is read of the first lines is read of the second, with the same meaning. -/
def ReadAlike (below below' : List Line) : Prop :=
  ∀ tokens, directives below = .ok tokens →
    ∃ tokens', directives below' = .ok tokens' ∧ List.Forall₂ Token.MeansSame tokens tokens'

/-- Whether one of the indented lines at the front is not vacant. Such a line stands below a header
only. -/
def startsBelowHeader (below : List Line) : Bool :=
  (below.takeWhile (·.isIndented)).any (!·.isVacant)

section

variable {lines : Nat} {comment : Line} {above below below' body body' more more' : List Line}

/-! ## Postings -/

theorem startsBelowHeader_eq_false_iff : startsBelowHeader below = false ↔
    ∀ line ∈ below.takeWhile (·.isIndented), line.isVacant = true := by
  simp [startsBelowHeader]

theorem LinesBelow.startsBelowHeader (h : LinesBelow lines below below') :
    DoubleEntry.startsBelowHeader below' = DoubleEntry.startsBelowHeader below := by
  have hfront := h.takeWhile
  unfold DoubleEntry.startsBelowHeader
  generalize below.takeWhile (·.isIndented) = front at hfront ⊢
  generalize below'.takeWhile (·.isIndented) = front' at hfront ⊢
  induction hfront with
  | nil => rfl
  | cons hline _ ih => rw [List.any_cons, List.any_cons, hline.isVacant, ih]

theorem LinesBelow.postingsAlike (h : LinesBelow lines body body') : PostingsAlike body body' := by
  intro postings hpostings
  obtain ⟨postings', hpostings', hbelow⟩ := h.postingsOf hpostings
  exact ⟨postings', hpostings', hbelow.postingsSame⟩

theorem PostingsAlike.append (h : PostingsAlike body body') (hmore : PostingsAlike more more') :
    PostingsAlike (body ++ more) (body' ++ more') := by
  intro postings hpostings
  rw [postingsOf_append] at hpostings
  obtain ⟨ts, hts, hpostings⟩ := bind_eq_ok_iff.1 hpostings
  obtain ⟨us, hus, hpostings⟩ := bind_eq_ok_iff.1 hpostings
  cases hpostings
  obtain ⟨ts', hts', hsame⟩ := h ts hts
  obtain ⟨us', hus', hsame'⟩ := hmore us hus
  refine ⟨ts' ++ us', ?_, List.rel_append hsame hsame'⟩
  rw [postingsOf_append, hts', hus']
  rfl

theorem postingsAlike_of_isComment (hbody : ∀ line ∈ body, line.isComment = true)
    (hbody' : ∀ line ∈ body', line.isComment = true) : PostingsAlike body body' := by
  apply PostingsAlike.of_eq
  rw [postingsOf_of_isComment hbody, postingsOf_of_isComment hbody']

/-- The comment is no posting, and it cuts no postings off. -/
theorem postingsAlike_insert (hvacant : comment.isVacant = true) (hbelow : LinesBelow 1 below below')
    (h : comment.isIndented = true ∨ startsBelowHeader below = false) (above : List Line) :
    PostingsAlike ((above ++ below).takeWhile (·.isIndented))
      ((above ++ comment :: below').takeWhile (·.isIndented)) := by
  rw [List.takeWhile_append, List.takeWhile_append]
  split
  · have hnone : ∀ line ∈ ([] : List Line), line.isComment = true := by simp
    apply (PostingsAlike.of_eq rfl).append
    cases hindented : comment.isIndented with
    | true =>
      have hcomment : ∀ line ∈ [comment], line.isComment = true := by
        simpa using Line.isComment_of_isVacant hvacant hindented
      rw [List.takeWhile_cons_of_pos hindented]
      exact (postingsAlike_of_isComment hnone hcomment).append hbelow.takeWhile.postingsAlike
    | false =>
      have hvacants := startsBelowHeader_eq_false_iff.1 (h.resolve_left (by simp [hindented]))
      rw [List.takeWhile_cons_of_neg (by simp [hindented])]
      exact postingsAlike_of_isComment (forall_isComment_of_isVacant hvacants) hnone
  · exact .of_eq rfl

/-! ## Directives -/

theorem LinesBelow.readAlike (h : LinesBelow lines below below') : ReadAlike below below' := by
  intro tokens htokens
  obtain ⟨tokens', htokens', hbelow⟩ := directives_below h htokens
  exact ⟨tokens', htokens', hbelow.meansSame⟩

theorem directives_append_of_isVacant (h : ∀ line ∈ above, line.isVacant = true) :
    directives (above ++ below) = directives below := by
  induction above with
  | nil => rfl
  | cons line above ih =>
    rw [List.forall_mem_cons] at h
    rw [List.cons_append, directives_of_isVacant h.1, ih h.2]

/-- Past the indented lines the comment may be gone with them, or those below it may be gone
without it. -/
theorem readAlike_dropWhile (hvacant : comment.isVacant = true) (hbelow : LinesBelow 1 below below')
    (h : comment.isIndented = true ∨ startsBelowHeader below = false) :
    ReadAlike (below.dropWhile (·.isIndented))
      ((comment :: below').dropWhile (·.isIndented)) := by
  cases hindented : comment.isIndented with
  | true =>
    rw [List.dropWhile_cons_of_pos hindented]
    exact (LinesBelow.dropWhile hbelow).readAlike
  | false =>
    have hvacants := startsBelowHeader_eq_false_iff.1 (h.resolve_left (by simp [hindented]))
    rw [List.dropWhile_cons_of_neg (by simp [hindented])]
    intro tokens htokens
    rw [directives_of_isVacant hvacant]
    apply hbelow.readAlike
    rwa [← List.takeWhile_append_dropWhile (p := (·.isIndented)) (l := below),
      directives_append_of_isVacant hvacants]

theorem readAlike_insert (hvacant : comment.isVacant = true) (hbelow : LinesBelow 1 below below')
    (h : comment.isIndented = true ∨ startsBelowHeader below = false) (above : List Line) :
    ReadAlike (above ++ below) (above ++ comment :: below') := by
  induction above using lines_induction with
  | nil =>
    intro tokens htokens
    rw [List.nil_append, directives_of_isVacant hvacant]
    exact hbelow.readAlike tokens htokens
  | cons line above ih =>
    intro tokens htokens
    rw [List.cons_append] at htokens ⊢
    cases hline : line.isVacant with
    | true =>
      rw [directives_of_isVacant hline] at htokens ⊢
      exact ih above (Nat.le_refl _) tokens htokens
    | false =>
      obtain ⟨token, left, rest, hdirective, hrest, rfl⟩ :=
        exists_directive_of_directives hline htokens
      -- the postings of a transaction may all stand above the comment, or go on below it
      have hleft : ReadAlike ((above ++ below).dropWhile (·.isIndented))
          ((above ++ comment :: below').dropWhile (·.isIndented)) := by
        rw [List.dropWhile_append, List.dropWhile_append]
        split
        · exact readAlike_dropWhile hvacant hbelow h
        · exact ih _ (List.dropWhile_sublist _).length_le
      have hsame : line.IsBelow 0 line := ⟨rfl, rfl⟩
      obtain ⟨token', left', hdirective', htoken, hleft⟩ := directive_meansSame hsame
        (postingsAlike_insert hvacant hbelow h above) (ih above (Nat.le_refl _)) hleft hdirective
      obtain ⟨rest', hrest', hrests⟩ := hleft rest hrest
      refine ⟨token' :: rest', ?_, .cons htoken hrests⟩
      rw [directives_of_directive hline hdirective', hrest']
      rfl

/-! ## A comment that cuts postings off -/

/-- No directive reaches past a line that is not indented. -/
theorem exists_directives_of_append {line : Line} (hindented : line.isIndented = false)
    {tokens : List Token} (h : directives (above ++ line :: below) = .ok tokens) :
    ∃ rest, directives (line :: below) = .ok rest := by
  induction above using lines_induction generalizing tokens with
  | nil => exact ⟨tokens, h⟩
  | cons first above ih =>
    rw [List.cons_append] at h
    cases hfirst : first.isVacant with
    | true =>
      rw [directives_of_isVacant hfirst] at h
      exact ih above (Nat.le_refl _) h
    | false =>
      obtain ⟨token, left, rest, hdirective, hrest, rfl⟩ :=
        exists_directive_of_directives hfirst h
      rcases directive_left hdirective with rfl | rfl
      · exact ih above (Nat.le_refl _) hrest
      · rw [List.dropWhile_append, List.dropWhile_cons_of_neg (by simp [hindented])] at hrest
        split at hrest
        · exact ⟨rest, hrest⟩
        · exact ih _ (List.dropWhile_sublist _).length_le hrest

theorem startsBelowHeader_of_directives (hvacant : comment.isVacant = true)
    (hindented : comment.isIndented = false) {tokens : List Token}
    (h : directives (above ++ comment :: below) = .ok tokens) : startsBelowHeader below = false := by
  obtain ⟨rest, hrest⟩ := exists_directives_of_append hindented h
  rw [directives_of_isVacant hvacant] at hrest
  exact startsBelowHeader_eq_false_iff.2 (directives_indented hrest).1

end

end DoubleEntry
