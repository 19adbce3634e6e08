import DoubleEntry.Proofs.Token.Append
import DoubleEntry.Proofs.Token.Reread

/-! Comments behind what stands on lines. The lines are read as before; a line with nothing on it
may come to belong to the transaction above, with no posting on it. -/
namespace DoubleEntry

open Text

mutual

theorem Token.movedUp_zero : (t : Token) → t.movedUp 0 = t
  | ⟨rule, text, position, children⟩ => by
    rw [Token.movedUp, allMovedUp_zero children, Nat.sub_zero]

theorem allMovedUp_zero : (ts : List Token) → allMovedUp 0 ts = ts
  | [] => rfl
  | t :: ts => by rw [allMovedUp, t.movedUp_zero, allMovedUp_zero ts]

end

/-- The second text is the first, perhaps with a gap and a comment behind it. -/
def Text.Commented (cs cs' : List Char) : Prop := ∃ tail, endsLine tail = true ∧ cs' = cs ++ tail

theorem Text.commented_self (cs : List Char) : Commented cs cs :=
  ⟨[], rfl, (List.append_nil cs).symm⟩

/-- The same line, perhaps with a gap and a comment behind it. -/
structure Line.Commented (line line' : Line) : Prop where
  number : line'.number = line.number
  chars : Text.Commented line.chars line'.chars

/-- Both tokens are the same directive, or neither is one for the same reason. -/
def Token.SameDirective (t t' : Token) : Prop := Directive.ofToken t' = Directive.ofToken t

/-! ## Lines -/

/-- Something else than blanks is on an indented line. -/
theorem Line.exists_ink_of_isIndented {line : Line} (h : line.isIndented = true) :
    ∃ c ∈ line.chars, isBlank c = false := by
  rw [isIndented, Bool.and_eq_true, Bool.not_eq_true', List.all_eq_false] at h
  simpa using h.2

/-- The gap of an indented line ends in front of something. -/
theorem Line.length_gap_lt {line : Line} (h : line.isIndented = true) :
    (line.chars.takeWhile isGap).length < line.chars.length := by
  obtain ⟨c, hc, hink⟩ := Line.exists_ink_of_isIndented h
  refine Nat.lt_of_le_of_ne (List.takeWhile_prefix _).length_le fun hlength => ?_
  rw [← (List.takeWhile_prefix _).eq_of_length hlength] at hc
  have hblank := isBlank_of_isGap (List.mem_takeWhile_imp hc)
  rw [hink] at hblank
  contradiction

namespace Line.Commented

variable {line line' : Line}

theorem isVacant (h : line.Commented line') : line'.isVacant = line.isVacant := by
  obtain ⟨tail, htail, hchars⟩ := h.chars
  have hvacant (line : Line) : line.isVacant = endsLine line.chars :=
    Cursor.atLineEnd_eq line.cursor
  rw [hvacant, hvacant, hchars, endsLine_append htail]

theorem isIndented (h : line.Commented line') (hindented : line.isIndented = true) :
    line'.isIndented = true := by
  obtain ⟨tail, _, hchars⟩ := h.chars
  have hne : line.chars ≠ [] := by
    obtain ⟨c, hc, _⟩ := Line.exists_ink_of_isIndented hindented
    exact List.ne_nil_of_mem hc
  unfold Line.isIndented at hindented ⊢
  rw [Bool.and_eq_true, Bool.not_eq_true'] at hindented ⊢
  rw [hchars, List.head?_append_of_ne_nil _ hne, List.all_append, hindented.2]
  exact ⟨hindented.1, rfl⟩

theorem isComment (h : line.Commented line') (hindented : line.isIndented = true) :
    line'.isComment = line.isComment := by
  obtain ⟨tail, _, hchars⟩ := h.chars
  obtain ⟨c, hc, hink⟩ := Line.exists_ink_of_isIndented hindented
  have hne : line.chars.dropWhile isBlank ≠ [] := by
    rw [Ne, List.dropWhile_eq_nil_iff]
    intro hblank
    have := hblank c hc
    rw [hink] at this
    contradiction
  unfold Line.isComment trimStart
  rw [hchars, List.dropWhile_append, if_neg (by simpa using hne), List.head?_append_of_ne_nil _ hne]

/-- A text ahead of a gap and a comment is ahead of them with another comment behind. -/
theorem sharesFront (h : line.Commented line') {k : Nat} (hk : k ≤ line.chars.length)
    {front : List Char} (hfaces : (line.cursor.advance k).Faces front) :
    (line.cursor.advance k).SharesFront 0 front (line'.cursor.advance k) := by
  have hrest (line : Line) : (line.cursor.advance k).rest = line.chars.drop k :=
    Cursor.rest_advance line.cursor k
  obtain ⟨more, hmore, hchars⟩ := h.chars
  refine ⟨hfaces, ?_, rfl, h.number⟩
  obtain ⟨tail, htail, hfront⟩ := hfaces
  refine ⟨tail ++ more, (endsLine_append hmore tail).trans htail, ?_⟩
  rw [hrest] at hfront ⊢
  rw [hchars, List.drop_append_of_le_length hk, hfront, List.append_assoc]

theorem read {scan : Scan Token} (hscan : Scan.RereadsLine 0 scan) (h : line.Commented line')
    {t : Token} {next : Cursor} (hrun : scan line.cursor = .ok (t, next)) :
    ∃ next', scan line'.cursor = .ok (t, next') := by
  obtain ⟨hfaces, hread⟩ := hscan _ _ _ hrun
  have hshares := h.sharesFront (Nat.zero_le _) hfaces
  obtain ⟨next', hrun'⟩ := hread line'.cursor hshares
  exact ⟨next', by rw [hrun', t.movedUp_zero]⟩

theorem posting (h : line.Commented line') (hindented : line.isIndented = true) {t : Token}
    {next : Cursor} (hrun : Scan.posting line.cursor.skipGap = .ok (t, next)) :
    ∃ next', Scan.posting line'.cursor.skipGap = .ok (t, next') := by
  have hlength := Line.length_gap_lt hindented
  have hgap : line'.chars.takeWhile isGap = line.chars.takeWhile isGap := by
    obtain ⟨tail, _, hchars⟩ := h.chars
    have hsame : (line.chars ++ tail).takeWhile isGap = (line.chars ++ []).takeWhile isGap :=
      takeWhile_append_of_length_lt (by rwa [List.append_nil]) tail
    rw [hchars, hsame, List.append_nil]
  have hskip : line'.cursor.skipGap =
      line'.cursor.advance (line.chars.takeWhile isGap).length := by
    rw [← hgap]
    rfl
  have hposting : Scan.RereadsLine 0 Scan.posting := Scan.rereadsLine_posting
  obtain ⟨hfaces, hread⟩ := hposting _ _ _ hrun
  have hshares := h.sharesFront (Nat.le_of_lt hlength) hfaces
  rw [← hskip] at hshares
  obtain ⟨next', hrun'⟩ := hread _ hshares
  exact ⟨next', by rw [hrun', t.movedUp_zero]⟩

end Line.Commented

/-! ## Postings -/

variable {below below' : List Line}

abbrev LinesCommented : List Line → List Line → Prop := List.Forall₂ Line.Commented

theorem LinesCommented.isIndented (h : LinesCommented below below')
    (hindented : ∀ line ∈ below, line.isIndented = true) :
    ∀ line' ∈ below', line'.isIndented = true := by
  intro line' hmem
  obtain ⟨line, hline, hcommented⟩ := exists_mem_of_forall₂ h hmem
  exact hcommented.isIndented (hindented line hline)

theorem LinesCommented.postingsOf (h : LinesCommented below below')
    (hindented : ∀ line ∈ below, line.isIndented = true) {postings : List Token}
    (hpostings : DoubleEntry.postingsOf below = .ok postings) :
    DoubleEntry.postingsOf below' = .ok postings := by
  have hposts : List.Forall₂ (Line.PostsAs Eq) below below' := by
    refine ((List.forall₂_and_left _ _).2 ⟨hindented, h⟩).imp fun line line' hline =>
      ⟨hline.2.isComment hline.1, fun t next hrun => ?_⟩
    obtain ⟨next', hrun'⟩ := hline.2.posting hline.1 hrun
    exact ⟨t, next', hrun', rfl⟩
  obtain ⟨postings', hpostings', hsame⟩ := exists_postingsOf hposts hpostings
  rw [List.forall₂_eq_eq_eq] at hsame
  exact hsame ▸ hpostings'

/-! ## Directives -/

/-- Lines and their commented counterparts are read as the same directives. -/
def ReadCommented (below : List Line) : Prop :=
  ∀ below' tokens, LinesCommented below below' → directives below = .ok tokens →
    ∃ tokens', directives below' = .ok tokens' ∧ List.Forall₂ Token.SameDirective tokens tokens'

theorem Token.sameDirective_transaction (line line' : Line) (body body' : List Line)
    (date header : Token) (postings : List Token) :
    let inner := transactionToken line.cursor body date header postings
    let inner' := transactionToken line'.cursor body' date header postings
    SameDirective ⟨.statement, inner.text, inner.position, [inner]⟩
      ⟨.statement, inner'.text, inner'.position, [inner']⟩ := rfl

theorem Line.Commented.transactionHead {line line' : Line} (h : line.Commented line')
    {parts : Token × Token} {middle : Cursor}
    (hrun : Scan.transactionHead line.cursor = .ok (parts, middle))
    (hend : middle.atLineEnd = true) :
    ∃ middle', Scan.transactionHead line'.cursor = .ok (parts, middle') ∧
      middle'.atLineEnd = true := by
  have hrepeats : Scan.Repeats 0 1 0 Scan.transactionHead
      (parts.1.movedUp 0, parts.2.movedUp 0) line.cursor middle :=
    Scan.rereads_transactionHead _ _ _ hrun
  obtain ⟨text, hfront, _, rfl, hread⟩ := hrepeats
  have hfaces : line.cursor.Faces (text ++ []) := by
    refine ⟨line.cursor.rest.drop text.length, ?_, ?_⟩
    · rw [← Cursor.rest_advance, ← Cursor.atLineEnd_eq, hend]
    · rw [List.append_nil]
      exact (List.prefix_iff_eq_append.1 hfront).symm
  have hshares : line.cursor.SharesFront 0 (text ++ []) line'.cursor :=
    h.sharesFront (Nat.zero_le _) hfaces
  refine ⟨_, ?_, hshares.advance.faces'.atLineEnd⟩
  rw [hread [] _ (Nat.zero_le _) hshares, Token.movedUp_zero, Token.movedUp_zero]

/-- A directive is read from the same line with a comment. Below a transaction the lines that have
become indented comments are gone. -/
theorem exists_directiveAt_commented {line line' : Line} {left : List Line} {token : Token}
    {rest : List Token} (hline : line.Commented line') (hbelow : LinesCommented below below')
    (h : DirectiveAt line below token left) (hrest : directives left = .ok rest)
    (hleft : ReadCommented left) :
    ∃ token' left' rest', DirectiveAt line' below' token' left' ∧ token.SameDirective token' ∧
      directives left' = .ok rest' ∧ List.Forall₂ Token.SameDirective rest rest' := by
  cases h with
  | keyword hmem hrun =>
    obtain ⟨next', hrun'⟩ := hline.read (Scan.rereadsLine_of_keywordLines hmem) hrun
    obtain ⟨rest', hrest', hsame⟩ := hleft _ _ hbelow hrest
    exact ⟨token, below', rest', .keyword hmem hrun', rfl, hrest', hsame⟩
  | statement hdated =>
    cases hdated with
    | line hrule hrun =>
      obtain ⟨next', hrun'⟩ := hline.read (Scan.rereadsLine_datedLine _) hrun
      obtain ⟨rest', hrest', hsame⟩ := hleft _ _ hbelow hrest
      exact ⟨_, below', rest', .statement (.line hrule hrun'), rfl, hrest', hsame⟩
    | transaction hhead hend hpostings hne =>
      have hsplit := hbelow
      rw [← List.takeWhile_append_dropWhile (p := (·.isIndented)) (l := below)] at hsplit
      have hindented : ∀ line ∈ below.takeWhile (·.isIndented), line.isIndented = true :=
        fun _ => List.mem_takeWhile_imp
      obtain ⟨body', more, rfl, hbody, hmore⟩ := exists_of_forall₂_append hsplit
      have hindented' := LinesCommented.isIndented hbody hindented
      obtain ⟨rest', hrest', hsame⟩ := hleft _ _ hmore hrest
      -- what is indented at the front of the lines left is vacant, and so a comment
      obtain ⟨hvacant, hdrop⟩ := directives_indented hrest'
      have hcomments := forall_isComment_of_isVacant hvacant
      have htake : (body' ++ more).takeWhile (·.isIndented) =
          body' ++ more.takeWhile (·.isIndented) := List.takeWhile_append_of_pos hindented'
      have hpostings' := LinesCommented.postingsOf hbody hindented hpostings
      rw [← postingsOf_append_comments hcomments, ← htake] at hpostings'
      obtain ⟨middle', hhead', hend'⟩ := hline.transactionHead hhead hend
      refine ⟨_, _, rest', .statement (.transaction hhead' hend' hpostings' hne),
        Token.sameDirective_transaction _ _ _ _ _ _ _, ?_, hsame⟩
      rwa [List.dropWhile_append_of_pos hindented']

theorem readCommented (below : List Line) : ReadCommented below := by
  fun_induction directives below with
  | case1 =>
    intro below' tokens h htokens
    cases h
    exact ⟨tokens, htokens, List.forall₂_same.2 fun _ _ => rfl⟩
  | case2 line below hvacant ih =>
    intro lines' tokens h htokens
    cases h with
    | cons hline hbelow =>
      rw [directives_of_isVacant hvacant] at htokens
      rw [directives_of_isVacant (hline.isVacant.trans hvacant)]
      exact ih _ _ hbelow htokens
  | case3 line below hvacant stray hstray =>
    intro lines' tokens h htokens
    obtain ⟨token, left, rest, hdirective, _⟩ :=
      exists_directive_of_directives (Bool.eq_false_iff.2 hvacant) htokens
    rw [hstray] at hdirective
    contradiction
  | case4 line below hvacant token left hdirective _ stray hleft ih =>
    intro lines' tokens h htokens
    rw [directives_of_directive (Bool.eq_false_iff.2 hvacant) hdirective, hleft] at htokens
    contradiction
  | case5 line below hvacant token left hdirective _ rest hleft ih =>
    intro lines' tokens h htokens
    rw [directives_of_directive (Bool.eq_false_iff.2 hvacant) hdirective, hleft] at htokens
    cases htokens
    cases h with
    | @cons _ line' _ below' hline hbelow =>
      obtain ⟨token', left', rest', hat, hsame, hrest', hsames⟩ :=
        exists_directiveAt_commented hline hbelow (directive_eq_ok_iff.1 hdirective) hleft ih
      refine ⟨token' :: rest', ?_, .cons hsame hsames⟩
      rw [directives_of_directive (isVacant_of_directiveAt hat) (directive_eq_ok_iff.2 hat), hrest']
      rfl

end DoubleEntry
