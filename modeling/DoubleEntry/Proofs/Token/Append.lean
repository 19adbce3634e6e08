import DoubleEntry.Proofs.Source.Append
import DoubleEntry.Proofs.Statement.Moved
import Mathlib.Data.List.TakeWhile

/-! Reading lines that go on below. Only a transaction looks past the end of its text: it takes in
the indented comments below, which changes its text and not its meaning. -/
namespace DoubleEntry

/-- The second token means what the first means, if that means anything. -/
def Token.KeepsMeaning (t t' : Token) : Prop :=
  ∀ d, Directive.ofToken t = .ok d → Directive.ofToken t' = .ok d

/-! ## Indented comments -/

/-- A vacant line that is indented has a comment on it. -/
theorem Line.isComment_of_isVacant {line : Line} (hvacant : line.isVacant = true)
    (hindented : line.isIndented = true) : line.isComment = true := by
  have hrest : line.cursor.rest = line.chars := rfl
  have happend := List.takeWhile_append_dropWhile (p := Text.isGap) (l := line.chars)
  have hblank : ∀ c ∈ line.chars.takeWhile Text.isGap, Text.isBlank c = true :=
    fun c hc => Text.isBlank_of_isGap (List.mem_takeWhile_imp hc)
  unfold isVacant Cursor.atLineEnd at hvacant
  rw [Cursor.rest_skipGap, hrest] at hvacant
  unfold isComment Text.trimStart
  cases h : line.chars.dropWhile Text.isGap with
  | nil =>
    rw [h, List.append_nil] at happend
    rw [happend] at hblank
    simp [isIndented, List.all_eq_true.2 hblank] at hindented
  | cons c cs =>
    rw [h] at hvacant happend
    obtain rfl : c = commentMark := by simpa using hvacant
    rw [← happend, List.dropWhile_append_of_pos hblank, List.dropWhile_cons_of_neg (by decide)]
    rfl

theorem Line.not_isIndented_of_chars_eq_nil {line : Line} (h : line.chars = []) :
    line.isIndented = false := by
  unfold isIndented
  rw [h]
  rfl

theorem Line.isVacant_of_chars_eq_nil {line : Line} (h : line.chars = []) :
    line.isVacant = true := by
  have hrest : line.cursor.rest = [] := h
  unfold isVacant Cursor.atLineEnd
  rw [Cursor.rest_skipGap, hrest]
  rfl

/-- Lines that start with a blank are no directives. -/
theorem Line.isVacant_of_isIndented {line : Line} {below : List Line} {tokens : List Token}
    (h : directives (line :: below) = .ok tokens) (hindented : line.isIndented = true) :
    line.isVacant = true := by
  have hblank : line.chars.head?.any Text.isBlank = true := by
    simp only [isIndented, Bool.and_eq_true] at hindented
    exact hindented.1
  cases hvacant : line.isVacant with
  | true => rfl
  | false =>
    obtain ⟨token, left, rest, hdirective, _⟩ := exists_directive_of_directives hvacant h
    unfold directive at hdirective
    rw [if_pos hblank] at hdirective
    contradiction

/-- The indented lines at the start of a text are vacant, and it is read alike without them. -/
theorem directives_indented {below : List Line} {tokens : List Token}
    (h : directives below = .ok tokens) :
    (∀ line ∈ below.takeWhile (·.isIndented), line.isVacant = true) ∧
      directives (below.dropWhile (·.isIndented)) = .ok tokens := by
  induction below with
  | nil => exact ⟨by simp, h⟩
  | cons line below ih =>
    cases hindented : line.isIndented with
    | false => simpa [hindented] using h
    | true =>
      have hvacant := Line.isVacant_of_isIndented h hindented
      have hbelow : directives below = .ok tokens := by
        rwa [directives_of_isVacant hvacant] at h
      obtain ⟨hvacants, hdrop⟩ := ih hbelow
      rw [List.takeWhile_cons_of_pos hindented, List.dropWhile_cons_of_pos hindented]
      exact ⟨List.forall_mem_cons.2 ⟨hvacant, hvacants⟩, hdrop⟩

/-- Vacant lines among the postings are comments. -/
theorem forall_isComment_of_isVacant {below : List Line}
    (h : ∀ line ∈ below.takeWhile (·.isIndented), line.isVacant = true) :
    ∀ line ∈ below.takeWhile (·.isIndented), line.isComment = true :=
  fun line hline => Line.isComment_of_isVacant (h line hline) (List.mem_takeWhile_imp hline)

theorem postingsOf_of_isComment {comments : List Line}
    (h : ∀ line ∈ comments, line.isComment = true) : postingsOf comments = .ok [] := by
  have hfilter : comments.filter (!·.isComment) = [] := by
    rw [List.filter_eq_nil_iff]
    intro line hline
    simp [h line hline]
  unfold postingsOf
  rw [hfilter]
  rfl

theorem postingsOf_append (body more : List Line) : postingsOf (body ++ more) = do
    let postings ← postingsOf body
    let others ← postingsOf more
    return postings ++ others := by
  unfold postingsOf
  rw [List.filter_append, List.mapM_append]

theorem postingsOf_append_comments {body comments : List Line}
    (h : ∀ line ∈ comments, line.isComment = true) :
    postingsOf (body ++ comments) = postingsOf body := by
  rw [postingsOf_append, postingsOf_of_isComment h]
  cases postingsOf body with
  | error stray => rfl
  | ok postings => exact congrArg Except.ok (List.append_nil postings)

/-! ## Longer texts -/

/-- Both tokens mean the same directive, or neither means one. -/
def Token.MeansSame (t t' : Token) : Prop :=
  ∀ d, Directive.ofToken t = .ok d ↔ Directive.ofToken t' = .ok d

/-- The same of the dated statements inside. -/
def Token.DatedSame (t t' : Token) : Prop :=
  ∀ s, Statement.ofDated t = .ok s ↔ Statement.ofDated t' = .ok s

/-- Postings with the same meaning one by one. -/
def PostingsSame : List Token → List Token → Prop :=
  List.Forall₂ fun t t' => Posting.ofToken t' = Posting.ofToken t

/-- What is listed on the first lines is listed on the second. -/
def PostingsAlike (body body' : List Line) : Prop :=
  ∀ postings, postingsOf body = .ok postings →
    ∃ postings', postingsOf body' = .ok postings' ∧ PostingsSame postings postings'

theorem Token.MeansSame.keepsMeaning {t t' : Token} (h : t.MeansSame t') : t.KeepsMeaning t' :=
  fun d => (h d).1

theorem Token.IsBelow.meansSame {lines : Nat} {t t' : Token} (h : t.IsBelow lines t') :
    t.MeansSame t' := by
  cases h
  exact Directive.ofToken_movedUp t'

theorem TokensBelow.meansSame {lines : Nat} {ts ts' : List Token} (h : TokensBelow lines ts ts') :
    List.Forall₂ Token.MeansSame ts ts' := by
  rw [← h, allMovedUp_eq_map, List.forall₂_map_left_iff]
  exact List.forall₂_same.2 fun t _ => Directive.ofToken_movedUp t

theorem Token.IsBelow.datedSame {lines : Nat} {t t' : Token} (h : t.IsBelow lines t') :
    t.DatedSame t' := by
  cases h
  exact Statement.ofDated_movedUp t'

theorem Token.DatedSame.meansSame {t t' : Token} (h : t.DatedSame t') :
    MeansSame ⟨.statement, t.text, t.position, [t]⟩ ⟨.statement, t'.text, t'.position, [t']⟩ := by
  have hwrap (t : Token) (d : Directive) : Directive.ofToken ⟨.statement, t.text, t.position, [t]⟩ =
      .ok d ↔ ∃ s, Statement.ofDated t = .ok s ∧ Directive.statement s = d := map_eq_ok_iff
  intro d
  simp only [hwrap, h _]

theorem TokensBelow.postingsSame {lines : Nat} {ts ts' : List Token} (h : TokensBelow lines ts ts') :
    PostingsSame ts ts' := by
  rw [← h, allMovedUp_eq_map, PostingsSame, List.forall₂_map_left_iff]
  exact List.forall₂_same.2 fun t _ => (Posting.ofToken_movedUp t).symm

theorem PostingsSame.mapM_eq {ts ts' : List Token} (h : PostingsSame ts ts') :
    ts'.mapM Posting.ofToken = ts.mapM Posting.ofToken := by
  induction h with
  | nil => rfl
  | cons ht hts ih => rw [List.mapM_cons, List.mapM_cons, ht, ih]

theorem PostingsAlike.of_eq {body body' : List Line} (h : postingsOf body' = postingsOf body) :
    PostingsAlike body body' :=
  fun postings hpostings => ⟨postings, h.trans hpostings, List.forall₂_same.2 fun _ _ => rfl⟩

/-- A transaction is what its date, header and postings are, wherever they stand. -/
theorem Token.datedSame_transaction {lines : Nat} {text text' : String}
    {position position' place place' : Position} {date date' header header' : Token}
    {postings postings' : List Token} (hdate : date.IsBelow lines date')
    (hheader : header.IsBelow lines header') (hpostings : PostingsSame postings postings') :
    DatedSame ⟨.transaction, text, position, [date, header, ⟨.txnList, "", place, postings⟩]⟩
      ⟨.transaction, text', position', [date', header', ⟨.txnList, "", place', postings'⟩]⟩ := by
  intro s
  cases hdate
  cases hheader
  unfold Statement.ofDated
  simp only [Posting.listOfToken, if_true, Header.ofToken_movedUp, hpostings.mapM_eq, bind_eq_ok_iff,
    Date.ofToken_movedUp]

/-- The meaning of a transaction depends on the postings below it only. -/
theorem tracks_meaning_transactionFrom {lines : Nat} {below below' : List Line}
    {start start' : Cursor} {date date' : Token}
    (h : PostingsAlike (below.takeWhile (·.isIndented)) (below'.takeWhile (·.isIndented)))
    (hdate : date.IsBelow lines date') :
    Scan.Tracks lines Token.DatedSame (transactionFrom start date below)
      (transactionFrom start' date' below') := by
  unfold transactionFrom
  refine Scan.tracks_header.bind fun header header' hheader => ?_
  refine Scan.tracks_lineEnd.andThen fun _ => (Scan.tracks_liftM h).bind ?_
  intro postings postings' hpostings
  have hnil : postings' = [] ↔ postings = [] := by
    constructor
    · rintro rfl
      exact List.forall₂_nil_right_iff.1 hpostings
    · rintro rfl
      exact List.forall₂_nil_left_iff.1 hpostings
  simp only [hnil]
  split
  · exact (Scan.tracks_throw (R := fun _ _ => False) _ _).bind fun _ _ h => h.elim
  exact Scan.tracks_pure (Token.datedSame_transaction hdate hheader hpostings)

/-- A directive means the same on an equal line, if the postings below mean the same. -/
theorem directive_meansSame {lines : Nat} {L : List Line → List Line → Prop} {line line' : Line}
    {below below' left : List Line} {token : Token} (hline : line.IsBelow lines line')
    (hpostings : PostingsAlike (below.takeWhile (·.isIndented))
      (below'.takeWhile (·.isIndented)))
    (hbelow : L below below')
    (hleft : L (below.dropWhile (·.isIndented)) (below'.dropWhile (·.isIndented)))
    (h : directive line below = .ok (token, left)) :
    ∃ token' left', directive line' below' = .ok (token', left') ∧ token.MeansSame token' ∧
      L left left' := by
  have hdated : Scan.Tracks lines (FoundBelow Token.DatedSame L) (dated none below)
      (dated none below') := tracks_dated none (fun _ _ => Token.IsBelow.datedSame)
    (fun _ _ _ _ _ hdate => tracks_meaning_transactionFrom hpostings hdate) hbelow hleft
  have hstatement := tracks_statement hdated fun _ _ => Token.DatedSame.meansSame
  exact directive_tracked hline (fun _ _ => Token.IsBelow.meansSame) hbelow hstatement h

/-- Reading goes on below a line with the lines that a directive leaves, which are no more than
those. -/
theorem lines_induction {motive : List Line → Prop} (nil : motive [])
    (cons : ∀ line above, (∀ left : List Line, left.length ≤ above.length → motive left) →
      motive (line :: above)) (above : List Line) : motive above := by
  generalize hlength : above.length = length
  induction length using Nat.strongRecOn generalizing above with
  | ind length ih =>
    cases above with
    | nil => exact nil
    | cons line above =>
      refine cons line above fun left hleft => ih left.length ?_ left rfl
      rw [← hlength, List.length_cons]
      exact Nat.lt_succ_of_le hleft

section

variable {last : Line} {more : List Line}

/-- In a longer text more lines are left in place of the last. After the postings at the end of the
text its comments are gone, too. -/
def Continues (last : Line) (more left left' : List Line) : Prop :=
  ∃ above, left = above ++ [last] ∧
    (left' = above ++ more ∨ above = [] ∧ left' = more.dropWhile (·.isIndented))

theorem continues_dropWhile (hlast : last.isIndented = false) (above : List Line) :
    Continues last more ((above ++ [last]).dropWhile (·.isIndented))
      ((above ++ more).dropWhile (·.isIndented)) := by
  rw [List.dropWhile_append, List.dropWhile_append]
  cases h : above.dropWhile (·.isIndented) with
  | nil =>
    refine ⟨[], ?_, .inr ⟨rfl, rfl⟩⟩
    simp [hlast]
  | cons line rest => exact ⟨line :: rest, rfl, .inl rfl⟩

theorem postingsOf_continued (hlast : last.isIndented = false)
    (hcomments : ∀ line ∈ more.takeWhile (·.isIndented), line.isComment = true)
    (above : List Line) :
    postingsOf ((above ++ more).takeWhile (·.isIndented)) =
      postingsOf ((above ++ [last]).takeWhile (·.isIndented)) := by
  rw [List.takeWhile_append, List.takeWhile_append]
  split
  · rw [postingsOf_append_comments hcomments, List.takeWhile_cons_of_neg (by simp [hlast]),
      List.append_nil]
  · rfl

theorem directive_continued {line : Line} {above left : List Line} {token : Token}
    (hlast : last.isIndented = false)
    (hcomments : ∀ line ∈ more.takeWhile (·.isIndented), line.isComment = true)
    (h : directive line (above ++ [last]) = .ok (token, left)) :
    ∃ token' left', directive line (above ++ more) = .ok (token', left') ∧
      token.MeansSame token' ∧ Continues last more left left' := by
  have hsame : line.IsBelow 0 line := ⟨rfl, rfl⟩
  exact directive_meansSame hsame (.of_eq (postingsOf_continued hlast hcomments above))
    ⟨above, rfl, .inl rfl⟩ (continues_dropWhile hlast above) h

/-- Two texts one after the other are read as what both mean. -/
theorem directives_append (hlast : last.chars = []) {above : List Line} {tokens others : List Token}
    (h : directives (above ++ [last]) = .ok tokens) (hmore : directives more = .ok others) :
    ∃ tokens', directives (above ++ more) = .ok (tokens' ++ others) ∧
      List.Forall₂ Token.KeepsMeaning tokens tokens' := by
  obtain ⟨hvacants, hdrop⟩ := directives_indented hmore
  have hcomments := forall_isComment_of_isVacant hvacants
  have hindented := Line.not_isIndented_of_chars_eq_nil hlast
  have hvacant := Line.isVacant_of_chars_eq_nil hlast
  have hend : directives [last] = .ok [] := by
    rw [directives_of_isVacant hvacant, directives_nil]
  -- on the lines above the seam: a directive there takes some of them away, or reaches over it
  induction above using lines_induction generalizing tokens with
  | nil =>
    rw [List.nil_append, hend] at h
    cases h
    exact ⟨[], hmore, .nil⟩
  | cons line above ih =>
    rw [List.cons_append] at h ⊢
    cases hline : line.isVacant with
    | true =>
      rw [directives_of_isVacant hline] at h ⊢
      exact ih above (Nat.le_refl _) h
    | false =>
      obtain ⟨token, left, rest, hdirective, hrest, rfl⟩ :=
        exists_directive_of_directives hline h
      obtain ⟨token', left', hdirective', htoken, hleft⟩ :=
        directive_continued hindented hcomments hdirective
      have hle := directive_left_length_le hdirective
      have hrest' : ∃ rest', directives left' = .ok (rest' ++ others) ∧
          List.Forall₂ Token.KeepsMeaning rest rest' := by
        obtain ⟨above', rfl, rfl | ⟨rfl, rfl⟩⟩ := hleft
        · refine ih above' ?_ hrest
          simpa using hle
        · rw [List.nil_append, hend] at hrest
          cases hrest
          exact ⟨[], hdrop, .nil⟩
      obtain ⟨rest', hdirectives, hmeaning⟩ := hrest'
      refine ⟨token' :: rest', ?_, .cons htoken.keepsMeaning hmeaning⟩
      rw [directives_of_directive hline hdirective', hdirectives]
      rfl

end

end DoubleEntry
