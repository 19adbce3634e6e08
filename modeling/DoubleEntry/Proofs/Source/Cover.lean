import DoubleEntry.Proofs.Token.Cover

/-! The tokens of a text fill it: each directive stands at the start of a line, and what it leaves
unread is filler up to the lines it leaves. -/
namespace DoubleEntry

open Text

/-! ## Postings -/

/-- The tokens fill a stretch but for a filler at its end, and end in ink. -/
def FillToInk (s : Source) (ts : List Token) (start stop : Nat) : Prop :=
  ∃ last, TokensFill s ts start last ∧ s.InkBefore last ∧ TokensFill s [] last stop

theorem FillToInk.prepend {s : Source} {ts us : List Token} {start middle stop : Nat}
    (hts : TokensFill s ts start middle) (h : FillToInk s us middle stop) :
    FillToInk s (ts ++ us) start stop := by
  obtain ⟨last, hfill, hink, hrest⟩ := h
  exact ⟨last, hts.append hfill, hink, hrest⟩

theorem FillToInk.extend {s : Source} {ts : List Token} {start middle stop : Nat}
    (h : FillToInk s ts start middle) (hrest : TokensFill s [] middle stop) :
    FillToInk s ts start stop := by
  obtain ⟨last, hfill, hink, hlast⟩ := h
  exact ⟨last, hfill, hink, hlast.append hrest⟩

theorem FillToInk.fill {s : Source} {ts : List Token} {start stop : Nat}
    (h : FillToInk s ts start stop) : TokensFill s ts start stop := by
  obtain ⟨last, hfill, _, hrest⟩ := h
  rw [← List.append_nil ts]
  exact hfill.append hrest

/-- A posting on its line, with what stands before it. -/
theorem fillToInk_posting {s : Source} {line : Line} (h : line.IsIn s) {t : Token} {next : Cursor}
    (hrun : Scan.posting line.cursor.skipGap = .ok (t, next)) :
    FillToInk s [t] line.start line.stop := by
  have hfilled := h.filled.skipGap h
  obtain ⟨stop, hnode, hink, hrest⟩ := Scan.takesLine_posting h _ _ _ next t hfilled hrun
  have hstop : stop ≤ s.chars.length := Nat.le_trans hrest.le.1 hrest.le.2
  exact ⟨stop, hfilled.fill.append (.single hnode.covers hstop), hink, hrest⟩

/-- The postings on the lines below another. -/
theorem fill_postingsOf {s : Source} {start : Nat} {line : Line} {body left : List Line}
    (h : LinesFrom s start (line :: (body ++ left))) {postings : List Token}
    (hpostings : postingsOf body = .ok postings) :
    postings = [] ∧ TokensFill s [] line.stop (body.getLastD line).stop ∨
      FillToInk s postings line.stop (body.getLastD line).stop := by
  induction body generalizing start line postings with
  | nil =>
    cases hpostings
    refine .inl ⟨rfl, .nil (Nat.le_refl _) h.isIn.stop_le ?_⟩
    rw [List.getLastD_nil, Source.slice_self]
    exact .nil
  | cons next body ih =>
    have hnext := h.tail
    have hlineFeed := hnext.fill_toNext
    rw [List.getLastD_cons]
    unfold postingsOf at hpostings
    rw [List.filter_cons] at hpostings
    split at hpostings
    · rw [List.mapM_cons] at hpostings
      obtain ⟨t, ht, hpostings⟩ := bind_eq_ok_iff.1 hpostings
      obtain ⟨ts, hts, hpostings⟩ := bind_eq_ok_iff.1 hpostings
      cases hpostings
      obtain ⟨⟨token, stop⟩, hrun, rfl⟩ := map_eq_ok_iff.1 ht
      have hposting := (fillToInk_posting hnext.isIn hrun).prepend hlineFeed
      right
      -- below the last posting only comments are left, and they go with it
      rcases ih hnext hts with ⟨rfl, hrest⟩ | hrest
      · exact hposting.extend hrest
      · exact hrest.prepend hposting.fill
    · rename_i hcomment
      have hcomment : next.isComment = true := by simpa using hcomment
      have hline := hlineFeed.append
        (hnext.isIn.fill (Line.filler_of_isComment hnext.isIn hcomment))
      rcases ih hnext hpostings with ⟨rfl, hrest⟩ | hrest
      · exact .inl ⟨rfl, hline.append hrest⟩
      · exact .inr (hrest.prepend hline)

/-! ## Directives -/

/-- The token stands at the offset, and nothing but fillers before the lines that are left. -/
def Heads (s : Source) (start : Nat) (found : Token × List Line) : Prop :=
  ∃ stop next, found.1.IsNode s start stop ∧
    TokensFill s [] stop (min next s.chars.length) ∧ LinesFrom s next found.2

theorem heads_of_line {s : Source} {line : Line} {below : List Line}
    (h : LinesFrom s line.start (line :: below)) {t : Token} {stop : Nat}
    (hnode : t.IsNode s line.start stop) (hrest : TokensFill s [] stop line.stop) :
    Heads s line.start (t, below) :=
  ⟨stop, line.stop + 1, hnode, hrest.append h.tail.fill_lineFeed, h.tail⟩

/-- A transaction stands from its date up to its last posting, or a comment below that. -/
theorem heads_transactionFrom {s : Source} {line : Line} {below : List Line}
    (h : LinesFrom s line.start (line :: below)) (date : Token) :
    Scan.Ensures (Filled s line line.start [date]) (transactionFrom line.cursor date below)
      fun t _ => Heads s line.start (t, below.dropWhile (·.isIndented)) := by
  have hline := h.isIn
  have hsplit := h
  rw [← List.takeWhile_append_dropWhile (p := (·.isIndented)) (l := below)] at hsplit
  unfold transactionFrom
  refine (Scan.ensures_header hline).filled.bind fun header => ?_
  refine (Scan.ensures_lineEnd hline).bind fun _ => Scan.ensures_liftM.bind fun postings => ?_
  simp only
  split
  · exact (Scan.ensures_throw (Q := fun _ _ => False) _).bind fun _ _ _ _ h => h.elim
  rename_i hne
  refine .pure fun c ⟨hhead, hpostings⟩ => ?_
  have hbody := (fill_postingsOf hsplit hpostings).resolve_left fun hnil => hne hnil.1
  obtain ⟨last, hfill, hink, hrest⟩ := hbody
  have hjoin := hsplit.joinWith_eq_slice (Nat.zero_le _)
  rw [List.drop_zero, Nat.add_zero] at hjoin
  obtain ⟨trimmed, htrim, hcomments, hblanks⟩ :=
    Source.exists_trimEnd (Nat.le_trans hhead.le.1 hfill.le.1) hink hrest
  have hlist : TokensFill s [⟨.txnList, "", ⟨line.number + 1, 1⟩, postings⟩] line.stop last :=
    .single (.list hfill) hfill.le.2
  refine ⟨trimmed, _, ⟨?_, ?_, by simp, ?_⟩, hblanks.append hsplit.drop.fill_lineFeed, hsplit.drop⟩
  · rw [String.toList_ofList, ← htrim, ← hjoin]
    rfl
  · exact hline.filled.position_eq hline
  · exact (hhead.append hlist).append hcomments

theorem heads_dated {s : Source} {line : Line} {below : List Line}
    (h : LinesFrom s line.start (line :: below)) :
    Scan.Ensures (· = line.cursor) (dated none below) fun found _ => Heads s line.start found := by
  have hline := h.isIn
  have hstart := hline.filled
  unfold dated
  refine .get_bind fun start hcursor => ?_
  subst hcursor
  have hopening : Scan.Ensures (· = line.cursor) (Scan.opening none)
      fun opened => Filled s line line.start [opened.1] :=
    (Scan.ensures_opening hline none).mono (fun c hc => hc ▸ hstart) fun _ _ => id
  refine hopening.bind fun opened => ?_
  obtain ⟨date, rule⟩ := opened
  simp only
  split
  · exact (heads_transactionFrom h date).bind fun t => .pure fun c hc => hc
  · refine (Scan.ensures_arguments hline rule).filled.bind fun children => ?_
    intro c next found hc hrun
    have hnode := Scan.isNode_nodeFrom hline hstart (List.cons_ne_nil date children) hc rule
    have hrest : Scan.Ensures (Filled s line c.offset []) (do
          Scan.lineEnd
          return (⟨rule, line.cursor.textTo c, line.cursor.position, date :: children⟩, below))
        fun found _ => Heads s line.start found :=
      (Scan.ensures_lineEnd hline).bind fun _ => .pure fun _ hend => heads_of_line h hnode hend
    exact hrest c next found hc.nil hrun

theorem Token.IsNode.wrap {s : Source} {t : Token} {start stop : Nat} (h : t.IsNode s start stop) :
    IsNode s ⟨.statement, t.text, t.position, [t]⟩ start stop :=
  ⟨h.text, h.position, by simp, .single h.covers h.fill.le.2⟩

theorem heads_directive {s : Source} {line : Line} {below : List Line}
    (h : LinesFrom s line.start (line :: below)) {found : Token × List Line}
    (hfound : directive line below = .ok found) : Heads s line.start found := by
  have hline := h.isIn
  rcases directive_cases line.chars with hstray | ⟨scan, hmem, hscan⟩ | hread
  · obtain ⟨stray, hstray, -⟩ := hstray line below rfl
    rw [hstray] at hfound
    contradiction
  · rw [hscan line below rfl] at hfound
    obtain ⟨⟨t, next⟩, hrun, rfl⟩ := map_eq_ok_iff.1 hfound
    obtain ⟨stop, hnode, _, hrest⟩ :=
      Scan.takesLine_keywordLine hline scan hmem _ _ _ next t hline.filled hrun
    exact heads_of_line h hnode hrest
  · rw [hread line below rfl] at hfound
    obtain ⟨⟨result, next⟩, hrun, rfl⟩ := map_eq_ok_iff.1 hfound
    have hstatement : Scan.Ensures (· = line.cursor) (statement below)
        fun found _ => Heads s line.start found :=
      (heads_dated h).bind fun _ => .pure fun _ ⟨stop, after, hnode, hrest, hleft⟩ =>
        ⟨stop, after, hnode.wrap, hrest, hleft⟩
    exact hstatement line.cursor next result rfl hrun

/-- The directives fill the text from any line to the end, and each starts a line. -/
theorem fill_directives {s : Source} {start : Nat} {lines : List Line} (h : LinesFrom s start lines)
    {tokens : List Token} (htokens : directives lines = .ok tokens) :
    TokensFill s tokens (min start s.chars.length) s.chars.length ∧
      ∀ t ∈ tokens, t.position.column = 1 := by
  have hmin {line : Line} (hline : line.IsIn s) : min line.start s.chars.length = line.start :=
    Nat.min_eq_left (Nat.le_trans (Nat.le_add_right _ _) hline.stop_le)
  fun_induction directives lines generalizing start tokens with
  | case1 =>
    cases htokens
    cases h
    rw [Nat.min_eq_right (Nat.le_succ _)]
    refine ⟨.nil (Nat.le_refl _) (Nat.le_refl _) ?_, by simp⟩
    rw [Source.slice_self]
    exact .nil
  | case2 line below hvacant ih =>
    have hline := h.isIn
    obtain ⟨hrest, hcolumns⟩ := ih h.tail htokens
    have hfiller := hline.filled.toLineEnd hline hvacant
    rw [h.start_eq, hmin hline]
    exact ⟨(hfiller.append h.tail.fill_lineFeed).append hrest, hcolumns⟩
  | case3 line below hvacant stray hstray => contradiction
  | case4 line below hvacant token left hdirective _ stray hleft ih => contradiction
  | case5 line below hvacant token left hdirective _ rest hleft ih =>
    cases htokens
    have hline := h.isIn
    obtain rfl := h.start_eq
    obtain ⟨stop, next, hnode, hfiller, hlines⟩ := heads_directive h hdirective
    obtain ⟨hrest, hcolumns⟩ := ih hlines hleft
    have hstop : stop ≤ s.chars.length := Nat.le_trans hfiller.le.1 hfiller.le.2
    have hposition : token.position.column = 1 := by
      rw [hnode.position, ← Nat.add_zero line.start, hline.countedPosition (Nat.zero_le _)]
    rw [hmin hline]
    refine ⟨?_, List.forall_mem_cons.2 ⟨hposition, hcolumns⟩⟩
    exact ((TokensFill.single hnode.covers hstop).append hfiller).append hrest

namespace Source

/-- The tokens of a text stand one after another in it, each with its children inside, and nothing
but blanks, comments, keywords and price marks stands between. However deep a token is, its text is a
slice of the source and its place the one counted up to there; the first ones all start a line. -/
theorem tokens_fill {s : Source} {tokens : List Token} (h : s.tokens = .ok tokens) :
    TokensFill s tokens 0 s.chars.length ∧
      ∀ t ∈ tokens, t.position.column = 1 ∧
        ∀ (path : List Nat) (u : Token), t.descend? path = some u → u.rule ≠ .txnList →
          ∃ start stop, start ≤ stop ∧ stop ≤ s.chars.length ∧
            u.text.toList = s.slice start stop ∧ u.position = s.countedPosition start := by
  obtain ⟨hfill, hcolumns⟩ := fill_directives s.linesFrom_lines (mapError_eq_ok_iff.1 h)
  rw [Nat.zero_min] at hfill
  refine ⟨hfill, fun t ht => ⟨hcolumns t ht, fun path u hu hrule => ?_⟩⟩
  obtain ⟨a, b, -, hb, hcovers⟩ := hfill.exists_covers ht
  obtain ⟨start, stop, -, hstop, hcovered⟩ := hcovers.descend hu
  obtain ⟨htext, hposition⟩ := hcovered.text_eq hrule
  exact ⟨start, stop, hcovered.le, Nat.le_trans hstop hb, htext, hposition⟩

def exchangeText : String :=
  "; cash\nunit  EUR\n2021-10-28 * \"Exchange\" ; at the bank\n" ++
    "\tAssets:Cash  20 EUR @ 1.1 USD\n\tAssets:Bank\n ; done \n"

/-- A comment in the first column, a price, and an indented comment with blanks behind it. -/
theorem tokens_fill_exchange :
    ∃ tokens, (ofText exchangeText none).tokens = .ok tokens ∧
      TokensFill (ofText exchangeText none) tokens 0 (ofText exchangeText none).chars.length ∧
      ∀ t ∈ tokens, t.position.column = 1 := by
  have hread : (ofText exchangeText none).tokens.toOption.isSome = true := by decide +kernel
  obtain ⟨tokens, htokens⟩ := Option.isSome_iff_exists.1 hread
  rw [toOption_eq_some_iff] at htokens
  obtain ⟨hfill, hplaces⟩ := tokens_fill htokens
  exact ⟨tokens, htokens, hfill, fun t ht => (hplaces t ht).1⟩

end Source

end DoubleEntry
