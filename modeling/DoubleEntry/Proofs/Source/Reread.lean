import DoubleEntry.Proofs.Source.Line
import DoubleEntry.Proofs.Token.Reread
import Mathlib.Data.List.DropRight

/-! The text of a directive is a source by itself. It is read as the same directive again, which is
then the only one and starts on the first line. -/
namespace DoubleEntry

open Text

/-! ## Blanks at the end of a text -/

namespace Text

theorem trimEnd_append {cs : List Char} (h : trimEnd cs ≠ []) (front : List Char) :
    trimEnd (front ++ cs) = front ++ trimEnd cs := by
  have hne : cs.reverse.dropWhile isBlank ≠ [] := fun hnil => h (by rw [trimEnd, hnil]; rfl)
  unfold trimEnd
  rw [List.reverse_append, List.dropWhile_append, if_neg (by simpa using hne), List.reverse_append,
    List.reverse_reverse]

theorem trimEnd_trimEnd (cs : List Char) : trimEnd (trimEnd cs) = trimEnd cs :=
  List.rdropWhile_idempotent isBlank cs

theorem exists_joinWith_concat (separator : Char) (pieces : List (List Char)) :
    ∃ front, ∀ last, joinWith separator (pieces ++ [last]) = front ++ last := by
  cases pieces with
  | nil => exact ⟨[], fun last => by simp [joinWith]⟩
  | cons piece pieces =>
    refine ⟨piece ++ pieces.flatMap (separator :: ·) ++ [separator], fun last => ?_⟩
    simp [joinWith_cons]

theorem trimEnd_joinWith {separator : Char} {last : List Char} (h : trimEnd last ≠ [])
    (pieces : List (List Char)) :
    trimEnd (joinWith separator (pieces ++ [last])) =
      joinWith separator (pieces ++ [trimEnd last]) := by
  obtain ⟨front, hfront⟩ := exists_joinWith_concat separator pieces
  rw [hfront, hfront, trimEnd_append h]

theorem pieces_joinWith {piece : List Char} {others : List (List Char)}
    (h : ∀ cs ∈ piece :: others, '\n' ∉ cs) :
    pieces (joinWith '\n' (piece :: others)) = piece :: others := by
  unfold pieces
  rw [splitAt_joinWith h]

end Text

/-! ## Lines -/

theorem LinesFrom.number_next {s : Source} {start : Nat} {line next : Line} {below : List Line}
    (h : LinesFrom s start (line :: next :: below)) : next.number = line.number + 1 := by
  have hline := h.isIn
  have hstart : line.stop + 1 = next.start := h.tail.start_eq
  have hstop : s.chars.take line.stop = s.chars.take line.start ++ line.chars := by
    rw [← hline.slice]
    exact (Source.take_append_slice (Nat.le_add_right _ _)).symm
  have htake : s.chars.take next.start = s.chars.take line.start ++ line.chars ++ ['\n'] := by
    rw [← hstart, ← Source.take_append_slice (Nat.le_succ line.stop), h.tail.slice_lineFeed, hstop]
  rw [h.tail.isIn.number, htake, hline.number, List.count_append, List.count_append,
    List.count_eq_zero.2 hline.free]
  rfl

/-- The lines below another are numbered one by one. -/
theorem LinesFrom.eq_numbered {s : Source} {start : Nat} {line : Line} {body left : List Line}
    (h : LinesFrom s start (line :: (body ++ left))) :
    body = numbered (line.number + 1) (line.stop + 1) (body.map Line.chars) := by
  induction body generalizing start line with
  | nil => rfl
  | cons next body ih =>
    have hstart : line.stop + 1 = next.start := h.tail.start_eq
    rw [List.map_cons, numbered, ← h.number_next, hstart]
    exact congrArg (next :: ·) (ih h.tail)

/-- The second text is the first, perhaps without blanks at its end. -/
def Text.Trims (cs cs' : List Char) : Prop :=
  ∃ blanks, (∀ c ∈ blanks, isBlank c = true) ∧ cs = cs' ++ blanks

theorem Text.trims_trimEnd (cs : List Char) : Trims cs (trimEnd cs) := by
  obtain ⟨blanks, hsplit, hblanks⟩ := exists_trimEnd_append cs
  exact ⟨blanks, hblanks, hsplit.symm⟩

theorem Text.trims_self (cs : List Char) : Trims cs cs := ⟨[], by simp, by simp⟩

/-- The second line is the first, so many lines further up, perhaps without blanks at its end. -/
structure Line.Trims (lines : Nat) (line line' : Line) : Prop where
  number : line'.number = line.number - lines
  chars : Text.Trims line.chars line'.chars

theorem trims_numbered {lines number : Nat} (hle : lines ≤ number) (start start' : Nat)
    {pieces pieces' : List (List Char)} (h : List.Forall₂ Text.Trims pieces pieces') :
    List.Forall₂ (Line.Trims lines) (numbered number start pieces)
      (numbered (number - lines) start' pieces') := by
  induction h generalizing number start start' with
  | nil => exact .nil
  | cons hpiece _ ih =>
    refine .cons ⟨rfl, hpiece⟩ ?_
    rw [← Nat.sub_add_comm hle]
    exact ih (Nat.le_succ_of_le hle) _ _

namespace Line.Trims

variable {lines : Nat} {line line' : Line}

theorem isIndented (h : line.Trims lines line') : line'.isIndented = line.isIndented := by
  obtain ⟨blanks, hblanks, hchars⟩ := h.chars
  have hall : line.chars.all isBlank = line'.chars.all isBlank := by
    rw [hchars, List.all_append, List.all_eq_true.2 hblanks, Bool.and_true]
  unfold Line.isIndented
  rw [hall]
  cases hnil : line'.chars with
  | nil => simp
  | cons c cs => simp [hchars, hnil]

theorem isComment (h : line.Trims lines line') : line'.isComment = line.isComment := by
  obtain ⟨blanks, hblanks, hchars⟩ := h.chars
  have hhead : (trimStart line.chars).head? = (trimStart line'.chars).head? := by
    unfold trimStart
    rw [hchars, List.dropWhile_append]
    split
    · rename_i hnil
      rw [List.dropWhile_eq_nil_iff.2 hblanks, List.isEmpty_iff.1 hnil]
    · rename_i hne
      exact List.head?_append_of_ne_nil _ (by simpa using hne)
  unfold Line.isComment
  rw [hhead]

end Line.Trims

/-- What is read on the line is left after trimming. -/
theorem length_posting_le {s : Source} {line : Line} (hline : line.IsIn s) {t : Token}
    {next : Cursor} (hrun : Scan.posting line.cursor.skipGap = .ok (t, next))
    {cs blanks : List Char} (hblanks : ∀ c ∈ blanks, isBlank c = true)
    (hchars : line.chars = cs ++ blanks) :
    (line.chars.takeWhile isGap).length + t.text.toList.length ≤ cs.length := by
  have hfilled := hline.filled.skipGap hline
  obtain ⟨stop, hnode, hink, hrest⟩ := Scan.takesLine_posting hline _ _ _ next t hfilled hrun
  have hslice : s.slice (line.start + cs.length) line.stop = blanks := by
    rw [hline.slice_drop (by simp [hchars]), hchars, List.drop_left]
  have hstop := hink.le_of_blanks hrest.le.1 hrest.le.2 (hslice ▸ hblanks)
  have htext : (s.slice line.cursor.skipGap.offset stop).length =
      stop - line.cursor.skipGap.offset := Source.length_slice hnode.fill.le.2
  have hstart := hnode.fill.le.1
  have hoffset : line.cursor.skipGap.offset =
      line.start + (0 + (line.chars.takeWhile isGap).length) := rfl
  rw [hnode.text, htext]
  omega

theorem posting_trims {s : Source} {lines : Nat} {line line' : Line} (hline : line.IsIn s)
    (h : line.Trims lines line') {t : Token} {next : Cursor}
    (hrun : Scan.posting line.cursor.skipGap = .ok (t, next)) :
    ∃ next', Scan.posting line'.cursor.skipGap = .ok (t.movedUp lines, next') := by
  have hposting : Scan.RereadsLine lines Scan.posting := Scan.rereadsLine_posting
  obtain ⟨hfaces, hread⟩ := hposting _ _ _ hrun
  obtain ⟨blanks, hblanks, hchars⟩ := h.chars
  have hlength := length_posting_le hline hrun hblanks hchars
  have hgap : line'.chars.takeWhile isGap = line.chars.takeWhile isGap := by
    rw [hchars] at hlength ⊢
    exact (takeWhile_append_of_length_le (by omega)).symm
  generalize hcount : (line.chars.takeWhile isGap).length = count at hlength
  have hskip : line.cursor.skipGap = line.cursor.advance count := by
    rw [← hcount]
    rfl
  have hskip' : line'.cursor.skipGap = line'.cursor.advance count := by
    rw [← hcount, ← hgap]
    rfl
  refine hread _ ⟨hfaces, ?_, by rw [hskip, hskip']; rfl, h.number⟩
  obtain ⟨tail, htail, hrest⟩ := hfaces
  rw [hskip, Cursor.rest_advance] at hrest
  rw [hskip', Cursor.Faces, Cursor.rest_advance]
  have hsplit : line'.chars.drop count ++ blanks = t.text.toList ++ tail := by
    rw [← List.drop_append_of_le_length (by omega), ← hchars]
    exact hrest
  obtain ⟨more, hmore⟩ := List.prefix_of_prefix_length_le (List.prefix_append t.text.toList tail)
    (hsplit ▸ List.prefix_append _ blanks) (by rw [List.length_drop]; omega)
  refine ⟨more, ?_, hmore.symm⟩
  rw [← hmore, List.append_assoc, List.append_cancel_left_eq] at hsplit
  exact endsLine_of_append (hsplit ▸ htail)

theorem postingsOf_trims {s : Source} {lines : Nat} {body body' : List Line}
    (h : List.Forall₂ (Line.Trims lines) body body') (hbody : ∀ line ∈ body, line.IsIn s)
    {postings : List Token} (hpostings : postingsOf body = .ok postings) :
    postingsOf body' = .ok (allMovedUp lines postings) := by
  have hposts : List.Forall₂ (Line.PostsAs fun t t' => t.movedUp lines = t') body body' := by
    refine ((List.forall₂_and_left _ _).2 ⟨hbody, h⟩).imp fun line line' hline =>
      ⟨hline.2.isComment, fun t next hrun => ?_⟩
    obtain ⟨next', hrun'⟩ := posting_trims hline.1 hline.2 hrun
    exact ⟨_, next', hrun', rfl⟩
  obtain ⟨postings', hpostings', hmoved⟩ := exists_postingsOf hposts hpostings
  rw [← List.forall₂_map_left_iff, List.forall₂_eq_eq_eq, ← allMovedUp_eq_map] at hmoved
  exact hmoved ▸ hpostings'

/-! ## Directives -/

section

variable {s : Source} {line : Line} {below left : List Line} {t : Token} {next : Cursor}

theorem Line.IsIn.number_sub (h : line.IsIn s) : line.number - (line.number - 1) = 1 := by
  have hnumber := h.number
  omega

/-- A line that is read up to its end is read alike where the end is gone. -/
theorem rereadsLine_alone {scan : Scan Token}
    (hscan : Scan.RereadsLine (line.number - 1) scan) (hline : line.IsIn s)
    (hrun : scan line.cursor = .ok (t, next)) :
    '\n' ∉ t.text.toList ∧
      ∃ next', scan (Line.mk 1 0 t.text.toList).cursor =
        .ok (t.movedUp (line.number - 1), next') := by
  obtain ⟨hfaces, hread⟩ := hscan _ _ _ hrun
  refine ⟨fun hmem => hline.free ?_, hread _ ⟨hfaces, ⟨[], rfl, ?_⟩, rfl, ?_⟩⟩
  · obtain ⟨tail, _, hrest⟩ := hfaces
    have hchars : line.chars = t.text.toList ++ tail := hrest
    rw [hchars]
    exact List.mem_append_left tail hmem
  · rw [List.append_nil]
    rfl
  · exact hline.number_sub.symm

theorem trimEnd_ne_nil_of_isIndented (h : line.isIndented = true) : trimEnd line.chars ≠ [] := by
  intro hnil
  obtain ⟨blanks, hblanks, hchars⟩ := trims_trimEnd line.chars
  rw [hnil, List.nil_append] at hchars
  rw [hchars.symm] at hblanks
  simp [Line.isIndented, List.all_eq_true.2 hblanks] at h

/-- Only the last of the lines below a header is trimmed, since there is something on it. -/
theorem exists_trimmed (first : List Char) {body : List Line} (hne : body ≠ [])
    (hindented : ∀ line ∈ body, line.isIndented = true) :
    ∃ others, trimEnd (joinWith '\n' (first :: body.map Line.chars)) =
        joinWith '\n' (first :: others) ∧
      List.Forall₂ Text.Trims (body.map Line.chars) others := by
  obtain ⟨init, last, rfl⟩ : ∃ init last, body = init ++ [last] :=
    ⟨_, _, (List.dropLast_concat_getLast hne).symm⟩
  have hlast := trimEnd_ne_nil_of_isIndented (hindented last (by simp))
  refine ⟨init.map Line.chars ++ [trimEnd last.chars], ?_, ?_⟩
  · rw [List.map_append, ← List.cons_append]
    exact trimEnd_joinWith hlast _
  · rw [List.map_append]
    exact List.rel_append (List.forall₂_same.2 fun cs _ => trims_self cs)
      (.cons (trims_trimEnd _) .nil)

theorem transactionToken_movedUp {lines : Nat} {line' : Line} {body body' : List Line}
    (hnumber : line'.number = line.number - lines) (hlines : lines ≤ line.number)
    (htext : trimEnd (joinWith '\n' (line'.chars :: body'.map Line.chars)) =
      trimEnd (joinWith '\n' (line.chars :: body.map Line.chars)))
    (date header : Token) (postings : List Token) :
    transactionToken line'.cursor body' (date.movedUp lines) (header.movedUp lines)
        (allMovedUp lines postings) =
      (transactionToken line.cursor body date header postings).movedUp lines := by
  have hrest (line : Line) : line.cursor.rest = line.chars := rfl
  have hposition (line : Line) : line.cursor.position = ⟨line.number, 1⟩ := rfl
  have hline (line : Line) : line.cursor.line = line := rfl
  unfold transactionToken
  rw [hrest, hrest, hposition, hposition, hline, hline, htext, hnumber, ← Nat.sub_add_comm hlines]
  rfl

/-- A transaction is read alike with nothing but its own lines below. -/
theorem transaction_alone (hline : line.IsIn s) {body body' : List Line}
    (hbody : ∀ line ∈ body, line.IsIn s) (hindented : ∀ line ∈ body, line.isIndented = true)
    (htrims : List.Forall₂ (Line.Trims (line.number - 1)) body body')
    {date header : Token} {postings : List Token} {middle : Cursor}
    (hhead : Scan.transactionHead line.cursor = .ok ((date, header), middle))
    (hend : middle.atLineEnd = true) (hpostings : postingsOf body = .ok postings)
    (hne : postings ≠ [])
    (htext : trimEnd (joinWith '\n' (line.chars :: body'.map Line.chars)) =
      trimEnd (joinWith '\n' (line.chars :: body.map Line.chars))) :
    DatedAt (Line.mk 1 0 line.chars).cursor body'
      ((transactionToken line.cursor body date header postings).movedUp (line.number - 1)) [] := by
  -- the head ends its line, so the line by itself is enough to read it again
  have hrepeats : Scan.Repeats (line.number - 1) 1 0 Scan.transactionHead
      (date.movedUp (line.number - 1), header.movedUp (line.number - 1)) line.cursor middle :=
    Scan.rereads_transactionHead _ _ _ hhead
  obtain ⟨text, ⟨rest, hrest⟩, _, rfl, hread⟩ := hrepeats
  have hfront : line.chars = text ++ rest ++ [] := by
    rw [List.append_nil, hrest]
    rfl
  have hnumber : (Line.mk 1 0 line.chars).number = line.number - (line.number - 1) :=
    hline.number_sub.symm
  have hshares : line.cursor.SharesFront (line.number - 1) (text ++ rest)
      (Line.mk 1 0 line.chars).cursor :=
    ⟨⟨[], rfl, hfront⟩, ⟨[], rfl, hfront⟩, rfl, hnumber⟩
  have hindented' : ∀ line' ∈ body', line'.isIndented = true := by
    intro line' hmem
    obtain ⟨line, hmem', hsame⟩ := exists_mem_of_forall₂ htrims hmem
    rw [hsame.isIndented, hindented line hmem']
  have htake : body'.takeWhile (·.isIndented) = body' := List.takeWhile_eq_self_iff.2 hindented'
  have hdrop : body'.dropWhile (·.isIndented) = [] := List.dropWhile_eq_nil_iff.2 hindented'
  have hpostings' : postingsOf (body'.takeWhile (·.isIndented)) =
      .ok (allMovedUp (line.number - 1) postings) := by
    rw [htake]
    exact postingsOf_trims htrims hbody hpostings
  have hne' : allMovedUp (line.number - 1) postings ≠ [] := by
    rw [allMovedUp_eq_map]
    exact mt List.map_eq_nil_iff.1 hne
  have hat := DatedAt.transaction (hread rest _ (Nat.zero_le _) hshares)
    (hshares.advance.atLineEnd.trans hend) hpostings' hne'
  rwa [htake, hdrop, transactionToken_movedUp hnumber (Nat.sub_le _ _) htext] at hat

theorem Token.movedUp_statement (lines : Nat) (t : Token) :
    Token.movedUp lines ⟨.statement, t.text, t.position, [t]⟩ =
      ⟨.statement, (t.movedUp lines).text, (t.movedUp lines).position, [t.movedUp lines]⟩ := by
  cases t
  rfl

/-- The text of the token is made of lines on which it is read again. -/
def Token.IsAlone (reads : Line → List Line → Token → Prop) (lines : Nat) (t : Token) : Prop :=
  ∃ first others, t.text.toList = joinWith '\n' (first :: others) ∧
    (∀ cs ∈ first :: others, '\n' ∉ cs) ∧
    ∀ stop, reads ⟨1, 0, first⟩ (numbered 2 stop others) (t.movedUp lines)

theorem isAlone_of_line {reads : Line → List Line → Token → Prop} {lines : Nat}
    (hfree : '\n' ∉ t.text.toList) (h : reads ⟨1, 0, t.text.toList⟩ [] (t.movedUp lines)) :
    t.IsAlone reads lines :=
  ⟨t.text.toList, [], by simp [joinWith], by simpa using hfree, fun _ => h⟩

theorem isAlone_of_datedAt (h : LinesFrom s line.start (line :: below))
    (hat : DatedAt line.cursor below t left) :
    t.IsAlone (fun line' below' t' => DatedAt line'.cursor below' t' []) (line.number - 1) := by
  cases hat with
  | line hrule hrun =>
    obtain ⟨hfree, _, hread⟩ := rereadsLine_alone (Scan.rereadsLine_datedLine _) h.isIn hrun
    exact isAlone_of_line hfree (.line hrule hread)
  | transaction hhead hend hpostings hne =>
    have hsplit := h
    rw [← List.takeWhile_append_dropWhile (p := (·.isIndented)) (l := below)] at hsplit
    have hindented : ∀ line ∈ below.takeWhile (·.isIndented), line.isIndented = true :=
      fun _ => List.mem_takeWhile_imp
    generalize below.takeWhile (·.isIndented) = body at *
    have hbody : ∀ line ∈ body, line.IsIn s := fun line hmem =>
      hsplit.tail.isIn_of_mem line (List.mem_append_left _ hmem)
    have hbodyNe : body ≠ [] := by
      rintro rfl
      cases hpostings
      exact hne rfl
    obtain ⟨others, htext, htrims⟩ := exists_trimmed line.chars hbodyNe hindented
    refine ⟨line.chars, others, ?_, ?_, fun stop => ?_⟩
    · unfold transactionToken
      rw [String.toList_ofList]
      exact htext
    · refine List.forall_mem_cons.2 ⟨h.isIn.free, fun cs hcs hfeed => ?_⟩
      obtain ⟨piece, hpiece, blanks, _, rfl⟩ := exists_mem_of_forall₂ htrims hcs
      obtain ⟨line, hline, hchars⟩ := List.mem_map.1 hpiece
      refine (hbody line hline).free ?_
      rw [hchars]
      exact List.mem_append_left blanks hfeed
    · have hnumber := h.isIn.number
      have hlines : List.Forall₂ (Line.Trims (line.number - 1)) body
          (numbered (line.number + 1 - (line.number - 1)) stop others) := by
        rw [hsplit.eq_numbered]
        exact trims_numbered (by omega) _ _ htrims
      rw [show line.number + 1 - (line.number - 1) = 2 by omega] at hlines
      refine transaction_alone h.isIn hbody hindented hlines hhead hend hpostings hne ?_
      rw [numbered_chars, htext, ← htext, trimEnd_trimEnd]

theorem isAlone_of_directive (h : LinesFrom s line.start (line :: below))
    (hdirective : directive line below = .ok (t, left)) :
    t.IsAlone (fun line' below' t' => DirectiveAt line' below' t' []) (line.number - 1) := by
  cases directive_eq_ok_iff.1 hdirective with
  | keyword hmem hrun =>
    obtain ⟨hfree, _, hread⟩ :=
      rereadsLine_alone (Scan.rereadsLine_of_keywordLines hmem) h.isIn hrun
    exact isAlone_of_line hfree (.keyword hmem hread)
  | statement hdated =>
    obtain ⟨first, others, htext, hfree, hread⟩ := isAlone_of_datedAt h hdated
    refine ⟨first, others, htext, hfree, fun stop => ?_⟩
    rw [Token.movedUp_statement]
    exact .statement (hread stop)

/-- The token starts on the line, and its text, from the source, is read as the token again. -/
structure Token.StandsAlone (s : Source) (t : Token) (line : Line) : Prop where
  position : t.position = ⟨line.number, 1⟩
  text_subset : t.text.toList ⊆ s.chars
  alone : t.IsAlone (fun line' below' t' => DirectiveAt line' below' t' []) (line.number - 1)

theorem standsAlone_of_directive {found : Token × List Line}
    (h : LinesFrom s line.start (line :: below)) (hfound : directive line below = .ok found) :
    found.1.StandsAlone s line := by
  obtain ⟨stop, _, hnode, _⟩ := heads_directive h hfound
  refine ⟨(starts_of_directive h hfound).1, ?_, isAlone_of_directive h hfound⟩
  rw [hnode.text, Source.slice]
  exact fun c hmem => List.mem_of_mem_drop (List.mem_of_mem_take hmem)

end

namespace Source

/-- The text of a directive is read as that directive alone, on the first line and those below. -/
theorem tokens_of_token_text {text : String} {name : Option String} (hreturn : '\r' ∉ text.toList)
    {tokens : List Token} (h : (ofText text name).tokens = .ok tokens) {t : Token} (ht : t ∈ tokens)
    (name' : Option String) :
    (ofText t.text name').tokens = .ok [t.movedUp (t.position.line - 1)] := by
  have hsource : (ofText text name).chars = text.toList := foldCrLf_eq_self (.inl hreturn)
  obtain ⟨line, _, halone⟩ := exists_line_of_directives (ofText text name).linesFrom_lines
    (fun _ _ _ => standsAlone_of_directive) (mapError_eq_ok_iff.1 h) t ht
  obtain ⟨first, others, htext, hpieces, hread⟩ := halone.alone
  have hchars : (ofText t.text name').chars = joinWith '\n' (first :: others) := by
    rw [← htext]
    exact foldCrLf_eq_self (.inl fun hmem => hreturn (hsource ▸ halone.text_subset hmem))
  have hlines : (ofText t.text name').lines = numbered 1 0 (first :: others) := by
    rw [lines_eq, hchars, pieces_joinWith hpieces]
  have hat := hread (0 + first.length + 1)
  rw [Source.tokens, mapError_eq_ok_iff, hlines, numbered, halone.position,
    directives_of_directive (isVacant_of_directiveAt hat) (directive_eq_ok_iff.2 hat),
    directives_nil]
  rfl

def ticketText : String :=
  "; travel\noption \"title\" \"Trips\" ; by train\n\n2021-11-02 ! \"Ticket\" ; unpaid\n" ++
    "  Expenses:Trains  12.50 EUR\n ; there and back \t\n\tAssets:Bank:Card ; later \n; end"

/-- Comments stay between the lines of a transaction and at its end, but not behind an option. -/
theorem tokens_of_token_text_ticket :
    '\r' ∉ ticketText.toList ∧ ∃ tokens, (ofText ticketText none).tokens = .ok tokens ∧
      tokens.map (fun t => (t.text, t.position.line)) =
        [("option \"title\" \"Trips\"", 2),
          ("2021-11-02 ! \"Ticket\" ; unpaid\n  Expenses:Trains  12.50 EUR\n" ++
            " ; there and back \t\n\tAssets:Bank:Card ; later", 4)] ∧
      ∀ t ∈ tokens, (ofText t.text none).tokens = .ok [t.movedUp (t.position.line - 1)] := by
  have hreturn : '\r' ∉ ticketText.toList := by decide +kernel
  have hread : (ofText ticketText none).tokens.toOption.map
      (·.map fun t => (t.text, t.position.line)) =
        some [("option \"title\" \"Trips\"", 2),
          ("2021-11-02 ! \"Ticket\" ; unpaid\n  Expenses:Trains  12.50 EUR\n" ++
            " ; there and back \t\n\tAssets:Bank:Card ; later", 4)] := by decide +kernel
  obtain ⟨tokens, htokens, htexts⟩ := Option.map_eq_some_iff.1 hread
  rw [toOption_eq_some_iff] at htokens
  exact ⟨hreturn, tokens, htokens, htexts, fun t ht => tokens_of_token_text hreturn htokens ht none⟩

end Source
end DoubleEntry
