import DoubleEntry.Proofs.Source.Place

/-! Where the tokens of a text stand. Reading from left to right keeps one invariant: the tokens so
far fill the source up to the cursor. -/
namespace DoubleEntry

open Text

/-! ## Cursors -/

/-- The tokens fill the source from an offset up to the cursor, which is on the line. -/
structure Filled (s : Source) (line : Line) (start : Nat) (ts : List Token) (c : Cursor) :
    Prop where
  line_eq : c.line = line
  column_le : c.column ≤ line.chars.length
  fill : TokensFill s ts start c.offset

/-- Filled, and the character before the cursor is not blank. -/
structure FilledToInk (s : Source) (line : Line) (start : Nat) (ts : List Token) (c : Cursor) :
    Prop extends Filled s line start ts c where
  ink : s.InkBefore c.offset

/-- The token is made of others; it covers what stands between the two offsets. -/
structure Token.IsNode (s : Source) (t : Token) (start stop : Nat) : Prop where
  text : t.text.toList = s.slice start stop
  position : t.position = s.countedPosition start
  children_ne_nil : t.children ≠ []
  fill : TokensFill s t.children start stop

theorem Token.IsNode.covers {s : Source} {t : Token} {start stop : Nat}
    (h : t.IsNode s start stop) : t.Covers s start stop := by
  obtain ⟨rule, text, position, children⟩ := t
  obtain rfl : position = s.countedPosition start := h.position
  exact .node h.children_ne_nil h.text h.fill

section

variable {s : Source} {line : Line} {start : Nat} {ts us : List Token} {c : Cursor}

namespace Filled

variable {text : List Char}

/-- Nothing has been read yet. -/
theorem nil (h : Filled s line start ts c) : Filled s line c.offset [] c := by
  refine ⟨h.line_eq, h.column_le, .nil (Nat.le_refl _) h.fill.le.2 ?_⟩
  rw [Source.slice_self]
  exact .nil

theorem advance_le (h : Filled s line start ts c) (hfront : text <+: c.rest) :
    c.column + text.length ≤ line.chars.length := by
  have hlength := hfront.length_le
  have hcolumn := h.column_le
  rw [Cursor.rest, List.length_drop, h.line_eq] at hlength
  omega

theorem position_eq (h : Filled s line start ts c) (hline : line.IsIn s) :
    c.position = s.countedPosition c.offset := by
  rw [Cursor.offset, Cursor.position, h.line_eq, hline.countedPosition h.column_le]

theorem slice_advance (h : Filled s line start ts c) (hline : line.IsIn s)
    (hfront : text <+: c.rest) : s.slice c.offset (c.offset + text.length) = text := by
  have hslice := hline.slice_add (h.advance_le hfront)
  have hrest : c.rest = line.chars.drop c.column := by rw [Cursor.rest, h.line_eq]
  rw [← hrest, ← List.prefix_iff_eq_take.1 hfront] at hslice
  rwa [Cursor.offset, h.line_eq]

theorem offset_advance_le (h : Filled s line start ts c) (hline : line.IsIn s)
    (hfront : text <+: c.rest) : c.offset + text.length ≤ s.chars.length := by
  have hadvance := h.advance_le hfront
  have hstop := hline.stop_le
  rw [Cursor.offset, h.line_eq]
  unfold Line.stop at hstop
  omega

/-- Further to the right more tokens fill the source. -/
theorem advance (h : Filled s line start ts c) (hfront : text <+: c.rest)
    (hfill : TokensFill s us c.offset (c.offset + text.length)) :
    Filled s line start (ts ++ us) (c.advance text.length) := by
  have hoffset : (c.advance text.length).offset = c.offset + text.length :=
    (Nat.add_assoc _ _ _).symm
  refine ⟨h.line_eq, h.advance_le hfront, ?_⟩
  rw [hoffset]
  exact h.fill.append hfill

/-- Past a filler the same tokens fill the source. -/
theorem pass (h : Filled s line start ts c) (hline : line.IsIn s) (hfront : text <+: c.rest)
    (hfiller : Filler text) : Filled s line start ts (c.advance text.length) := by
  rw [← List.append_nil ts]
  refine h.advance hfront (.nil (Nat.le_add_right _ _) (h.offset_advance_le hline hfront) ?_)
  rwa [h.slice_advance hline hfront]

theorem skipGap (h : Filled s line start ts c) (hline : line.IsIn s) :
    Filled s line start ts c.skipGap :=
  h.pass hline (List.takeWhile_prefix _)
    (.of_blanks fun _ hmem => isBlank_of_isGap (List.mem_takeWhile_imp hmem))

/-- At the end of a line nothing but a gap and a comment is left. -/
theorem filler_rest (h : Filled s line start ts c) (hline : line.IsIn s)
    (hend : c.atLineEnd = true) : Filler c.rest := by
  unfold Cursor.atLineEnd at hend
  rw [Cursor.rest_skipGap] at hend
  refine .of_dropWhile (fun _ => isBlank_of_isGap) (fun hmem => hline.free ?_) hend
  rw [← h.line_eq]
  exact List.mem_of_mem_drop hmem

theorem toLineEnd (h : Filled s line start ts c) (hline : line.IsIn s)
    (hend : c.atLineEnd = true) : TokensFill s [] c.offset line.stop := by
  have hpass := h.nil.pass hline (List.prefix_refl c.rest) (h.filler_rest hline hend)
  have hoffset : (c.advance c.rest.length).offset = line.stop := by
    have hcolumn := h.column_le
    rw [Cursor.offset, Cursor.advance, Cursor.rest, List.length_drop, h.line_eq]
    simp only [Line.stop, Nat.add_sub_cancel' hcolumn]
  have hfill := hpass.fill
  rwa [hoffset] at hfill

end Filled

theorem Line.IsIn.filled (h : line.IsIn s) :
    Filled s line line.start [] line.cursor := by
  refine ⟨rfl, Nat.zero_le _, .nil (Nat.le_refl _) ?_ ?_⟩
  · exact Nat.le_trans (Nat.le_add_right _ _) h.stop_le
  · rw [show line.cursor.offset = line.start from rfl, Source.slice_self]
    exact .nil

theorem FilledToInk.append (h : Filled s line start ts c) {next : Cursor}
    (hnext : FilledToInk s line c.offset us next) : FilledToInk s line start (ts ++ us) next :=
  ⟨⟨hnext.line_eq, hnext.column_le, h.fill.append hnext.fill⟩, hnext.ink⟩

end

/-! ## Rules -/

namespace Scan

variable {s : Source} {line : Line} {start : Nat} {ts : List Token}

theorem Ensures.filled {α : Type} {P : Cursor → Prop} {m : Scan α} {tokens : α → List Token}
    (h : Ensures P m fun a => FilledToInk s line start (tokens a)) :
    Ensures P m fun a => Filled s line start (tokens a) :=
  h.mono (fun _ => id) fun _ _ => FilledToInk.toFilled

variable (hline : line.IsIn s)

include hline

theorem ensures_gap (what : String) :
    Ensures (Filled s line start ts) (gap what) fun _ => Filled s line start ts := by
  intro c next a hc hrun
  unfold gap at hrun
  split at hrun
  · cases hrun
    exact hc.skipGap hline
  · contradiction

theorem ensures_advance {word : String} (hword : Filler word.toList) :
    Ensures (fun c => Filled s line start ts c ∧ word.toList <+: c.rest)
      (modify (·.advance word.length)) fun _ => Filled s line start ts := by
  intro c next a hc hrun
  cases hrun
  rw [← String.length_toList]
  exact hc.1.pass hline hc.2 hword

theorem ensures_keyword {word : String} (hword : word ∈ bareWords) :
    Ensures (Filled s line start ts) (keyword word) fun _ => Filled s line start ts := by
  intro c next a hc hrun
  unfold keyword at hrun
  split at hrun
  · rename_i hstarts
    cases hrun
    rw [startsWith, Bool.and_eq_true, List.isPrefixOf_iff_prefix] at hstarts
    rw [← String.length_toList]
    exact hc.pass hline hstarts.1 (.of_word hword)
  · contradiction

theorem ensures_lexeme (kind : Lexeme) :
    Ensures (Filled s line start ts) (lexeme kind)
      fun t => FilledToInk s line start (ts ++ [t]) := by
  intro c next t hc hrun
  unfold lexeme at hrun
  split at hrun
  · contradiction
  · rename_i text hread
    cases hrun
    obtain ⟨hfront, front, last, hconcat, hlast⟩ := Lexeme.read?_concat hread
    have hslice := hc.slice_advance hline hfront
    have hlength := hc.offset_advance_le hline hfront
    have hlt : c.offset < c.offset + text.length := by simp [hconcat]
    have hcovers : (Token.leaf kind.rule (.ofList text) c.position).Covers s c.offset
        (c.offset + text.length) := by
      rw [hc.position_eq hline]
      exact .leaf hlt hlength (by rw [hslice, String.toList_ofList])
    refine ⟨hc.advance hfront (.single hcovers hlength), ?_⟩
    rw [hconcat] at hslice
    have hoffset : (c.advance text.length).offset = c.offset + text.length :=
      (Nat.add_assoc _ _ _).symm
    rw [hoffset, hconcat]
    exact Source.inkBefore_of_slice (Nat.le_add_right _ _) hslice hlast

/-- A token from an earlier place of the line up to the cursor. -/
theorem isNode_nodeFrom {first c : Cursor} (hfirst : Filled s line start ts first)
    {children : List Token} (hne : children ≠ []) (h : Filled s line first.offset children c)
    (rule : Rule) :
    Token.IsNode s ⟨rule, first.textTo c, first.position, children⟩ first.offset c.offset := by
  refine ⟨?_, hfirst.position_eq hline, hne, h.fill⟩
  have hle : first.column ≤ c.column := by
    have hoffset := h.fill.le.1
    rw [Cursor.offset, Cursor.offset, hfirst.line_eq, h.line_eq] at hoffset
    exact Nat.le_of_add_le_add_left hoffset
  have hcount : first.column + (c.column - first.column) ≤ line.chars.length := by
    rw [Nat.add_sub_cancel' hle]
    exact h.column_le
  have hslice := hline.slice_add hcount
  rw [Nat.add_assoc, Nat.add_sub_cancel' hle] at hslice
  unfold Cursor.textTo Cursor.rest Cursor.offset
  rw [String.toList_ofList, hfirst.line_eq, h.line_eq, hslice]

theorem node_covers {rule : Rule} {inner : Scan (List Token)}
    (hinner : ∀ first, Ensures (Filled s line first []) inner
      fun children c => FilledToInk s line first children c ∧ children ≠ [])
    {c next : Cursor} {t : Token} (hc : Filled s line start ts c)
    (hrun : node rule inner c = .ok (t, next)) :
    t.IsNode s c.offset next.offset ∧ FilledToInk s line start (ts ++ [t]) next := by
  unfold node at hrun
  simp only [bind_apply, get_apply] at hrun
  split at hrun
  · contradiction
  · rename_i children middle hchildren
    cases hrun
    obtain ⟨hfilled, hne⟩ := hinner c.offset c next children hc.nil hchildren
    have hnode := isNode_nodeFrom hline hc hne hfilled.toFilled rule
    exact ⟨hnode, .append hc ⟨⟨hfilled.line_eq, hfilled.column_le,
      .single hnode.covers hfilled.fill.le.2⟩, hfilled.ink⟩⟩

theorem ensures_node {rule : Rule} {inner : Scan (List Token)}
    (hinner : ∀ first, Ensures (Filled s line first []) inner
      fun children c => FilledToInk s line first children c ∧ children ≠ []) :
    Ensures (Filled s line start ts) (node rule inner)
      fun t => FilledToInk s line start (ts ++ [t]) :=
  fun _ _ _ hc hrun => (node_covers hline hinner hc hrun).2

theorem ensures_lineEnd :
    Ensures (Filled s line start ts) lineEnd fun _ _ => TokensFill s ts start line.stop := by
  intro c next a hc hrun
  unfold lineEnd at hrun
  split at hrun
  · rename_i hend
    rw [← List.append_nil ts]
    exact hc.fill.append (hc.toLineEnd hline hend)
  · contradiction

/-- The scan gives a token from the cursor on, and what is left of the line says nothing. -/
def TakesLine (s : Source) (line : Line) (scan : Scan Token) : Prop :=
  ∀ (start : Nat) (ts : List Token) (c next : Cursor) (t : Token), Filled s line start ts c →
    scan c = .ok (t, next) →
    ∃ stop, t.IsNode s c.offset stop ∧ s.InkBefore stop ∧ TokensFill s [] stop line.stop

theorem takesLine_lineOf {rule : Rule} {inner : Scan (List Token)}
    (hinner : ∀ first, Ensures (Filled s line first []) inner
      fun children c => FilledToInk s line first children c ∧ children ≠ []) :
    TakesLine s line (lineOf rule inner) := by
  intro start ts c next t hc hrun
  unfold lineOf at hrun
  rw [bind_apply] at hrun
  cases hnode : node rule inner c with
  | error stray =>
    rw [hnode] at hrun
    contradiction
  | ok result =>
    obtain ⟨token, middle⟩ := result
    rw [hnode] at hrun
    obtain ⟨hcovers, hfilled⟩ := node_covers hline hinner hc hnode
    have hrest := (ensures_lineEnd hline).bind fun _ => Ensures.pure (a := token)
      (Q := fun found _ => found = token ∧ TokensFill s [] middle.offset line.stop)
      fun _ hend => ⟨rfl, hend⟩
    obtain ⟨rfl, hend⟩ := hrest middle next t hfilled.nil hrun
    exact ⟨middle.offset, hcovers, hfilled.ink, hend⟩

theorem ensures_priceFollows :
    Ensures (FilledToInk s line start ts) priceFollows
      fun follows c => if follows then Filled s line start ts c else FilledToInk s line start ts c := by
  intro c next follows hc hrun
  unfold priceFollows at hrun
  split at hrun
  · rename_i hmark
    cases hrun
    rw [Bool.and_eq_true, decide_eq_true_eq] at hmark
    have hword : [priceMark] <+: c.skipGap.rest := by
      rw [← hmark.2]
      exact List.takeWhile_prefix _
    have hmem : "@" ∈ bareWords := by decide
    exact (hc.skipGap hline).pass hline hword (.of_word hmem)
  · cases hrun
    exact hc

/-! ## Tokens -/

theorem ensures_amount :
    Ensures (Filled s line start ts) amount fun t => FilledToInk s line start (ts ++ [t]) := by
  unfold amount
  refine ensures_node hline fun first => ?_
  refine (ensures_lexeme hline .nominal).filled.bind fun nominal => ?_
  refine (ensures_gap hline _).bind fun _ => (ensures_lexeme hline .currency).bind fun currency => ?_
  exact .pure fun c hc => ⟨hc, by simp⟩

theorem ensures_amountWithPrice :
    Ensures (Filled s line start ts) amountWithPrice
      fun t => FilledToInk s line start (ts ++ [t]) := by
  unfold amountWithPrice
  refine ensures_node hline fun first => ?_
  refine (ensures_amount hline).bind fun nominal => ?_
  refine (ensures_priceFollows hline).bind fun follows => ?_
  cases follows with
  | false => exact .pure fun c hc => ⟨hc, by simp⟩
  | true =>
    refine (ensures_gap hline _).bind fun _ => (ensures_amount hline).bind fun price => ?_
    exact .pure fun c hc => ⟨hc, by simp⟩

theorem takesLine_option : TakesLine s line option := by
  refine takesLine_lineOf hline fun first => ?_
  refine (ensures_keyword hline (by decide)).bind fun _ => (ensures_gap hline _).bind fun _ => ?_
  refine (ensures_lexeme hline .string).filled.bind fun key => ?_
  refine (ensures_gap hline _).bind fun _ => (ensures_lexeme hline .string).bind fun value => ?_
  exact .pure fun c hc => ⟨hc, by simp⟩

theorem takesLine_includeFile : TakesLine s line includeFile := by
  refine takesLine_lineOf hline fun first => ?_
  refine (ensures_keyword hline (by decide)).bind fun _ => (ensures_gap hline _).bind fun _ => ?_
  refine (ensures_lexeme hline .string).bind fun path => ?_
  exact .pure fun c hc => ⟨hc, by simp⟩

theorem takesLine_unit : TakesLine s line unit := by
  refine takesLine_lineOf hline fun first => ?_
  refine (ensures_keyword hline (by decide)).bind fun _ => (ensures_gap hline _).bind fun _ => ?_
  refine (ensures_lexeme hline .currency).bind fun code => ?_
  exact .pure fun c hc => ⟨hc, by simp⟩

theorem takesLine_keywordLine : ∀ scan ∈ [option, includeFile, unit], TakesLine s line scan :=
  forall_keywordLine (takesLine_option hline) (takesLine_includeFile hline) (takesLine_unit hline)

theorem takesLine_posting : TakesLine s line posting := by
  refine takesLine_lineOf hline fun first => ?_
  refine (ensures_lexeme hline .account).bind fun account => ?_
  refine ensures_isAtLineEnd.bind fun atEnd => ?_
  cases atEnd with
  | true => exact .pure fun c hc => ⟨hc, by simp⟩
  | false =>
    refine (((ensures_gap hline _).bind fun _ => (ensures_amountWithPrice hline).bind
      fun amount => ?_)).mono (fun _ => FilledToInk.toFilled) fun _ _ => id
    exact .pure fun c hc => ⟨hc, by simp⟩

theorem ensures_header :
    Ensures (Filled s line start ts) header fun t => FilledToInk s line start (ts ++ [t]) := by
  refine ensures_node hline fun first => ?_
  refine (ensures_lexeme hline .flag).filled.bind fun flag => (ensures_gap hline _).bind fun _ => ?_
  refine (ensures_lexeme hline .string).bind fun title => ensures_isAtLineEnd.bind fun atEnd => ?_
  cases atEnd with
  | true => exact .pure fun c hc => ⟨hc, by simp⟩
  | false =>
    refine (((ensures_gap hline _).bind fun _ => (ensures_lexeme hline .string).bind
      fun second => ?_)).mono (fun _ => FilledToInk.toFilled) fun _ _ => id
    exact .pure fun c hc => ⟨hc, by simp⟩

omit hline in
/-- The keyword ahead stands at the front; a flag has none. -/
theorem filler_of_statementAhead? {cs : List Char} {word : String} {rule : Rule}
    (h : statementAhead? cs = some (word, rule)) : word.toList <+: cs ∧ Filler word.toList := by
  unfold statementAhead? at h
  split at h
  · rename_i hfound
    cases h
    have hwords : ∀ known ∈ statementWords, known.1 ∈ bareWords := by decide
    have hstarts := List.find?_some hfound
    change startsWith word cs = true at hstarts
    rw [startsWith, Bool.and_eq_true, List.isPrefixOf_iff_prefix] at hstarts
    exact ⟨hstarts.1, .of_word (hwords _ (List.mem_of_find?_eq_some hfound))⟩
  · split at h
    · cases h
      exact ⟨List.nil_prefix, .nil⟩
    · contradiction

theorem ensures_opening (wanted : Option Rule) :
    Ensures (Filled s line start ts) (opening wanted)
      fun found => Filled s line start (ts ++ [found.1]) := by
  unfold opening
  refine (ensures_lexeme hline .date).filled.bind fun date => (ensures_gap hline _).bind fun _ => ?_
  refine .get_bind fun found hfound => ?_
  cases hahead : statementAhead? found.rest with
  | none => exact ensures_fail _
  | some ahead =>
    obtain ⟨word, rule⟩ := ahead
    obtain ⟨hfront, hfiller⟩ := filler_of_statementAhead? hahead
    have hword : Ensures (· = found) (modify (·.advance word.length))
        fun _ => Filled s line start (ts ++ [date]) :=
      (ensures_advance hline hfiller).mono (fun c hc => hc ▸ ⟨hfound, hfront⟩) fun _ _ => id
    have hrest : Ensures (· = found) (do modify (·.advance word.length); return (date, rule))
        fun found => Filled s line start (ts ++ [found.1]) :=
      hword.bind fun _ => .pure fun c hc => hc
    cases wanted with
    | none => exact hrest
    | some other =>
      simp only
      split
      · exact (ensures_fail (Q := fun _ _ => False) _).bind fun _ _ _ _ h => h.elim
      · exact hrest

theorem ensures_furtherStrings :
    Ensures (FilledToInk s line start ts) furtherStrings
      fun us => FilledToInk s line start (ts ++ us) := by
  intro c next us hc hrun
  fun_induction furtherStrings c generalizing next us ts with
  | case1 c hend =>
    cases hrun
    rwa [List.append_nil]
  | case2 c hend stray hstray => contradiction
  | case3 c hend token middle hstring _ stray hrest ih => contradiction
  | case4 c hend token middle hstring _ tokens stop hrest ih =>
    cases hrun
    have hfurther : Ensures (Filled s line start ts) furtherString
        fun t => FilledToInk s line start (ts ++ [t]) :=
      (ensures_gap hline _).bind fun _ => ensures_lexeme hline .string
    have htoken := hfurther c middle token hc.toFilled hstring
    have htokens := ih stop tokens htoken hrest
    rwa [List.append_assoc] at htokens

theorem ensures_arguments (rule : Rule) :
    Ensures (Filled s line start ts) (arguments rule)
      fun us => FilledToInk s line start (ts ++ us) := by
  unfold arguments
  split
  · refine (ensures_gap hline _).bind fun _ => (ensures_lexeme hline .string).bind fun first => ?_
    refine (ensures_furtherStrings hline).bind fun others => ?_
    exact .pure fun c hc => by simpa using hc
  · refine (ensures_gap hline _).bind fun _ => ?_
    refine (ensures_lexeme hline .account).filled.bind fun target => ?_
    refine (ensures_gap hline _).bind fun _ => (ensures_lexeme hline .account).bind fun source => ?_
    exact .pure fun c hc => by simpa using hc
  · refine (ensures_gap hline _).bind fun _ => ?_
    refine (ensures_lexeme hline .account).filled.bind fun account => ?_
    refine (ensures_gap hline _).bind fun _ => (ensures_amount hline).bind fun amount => ?_
    exact .pure fun c hc => by simpa using hc
  · refine (ensures_gap hline _).bind fun _ => ?_
    refine (ensures_lexeme hline .currency).filled.bind fun currency => ?_
    refine (ensures_gap hline _).bind fun _ => (ensures_amount hline).bind fun amount => ?_
    exact .pure fun c hc => by simpa using hc
  · refine (ensures_gap hline _).bind fun _ => (ensures_lexeme hline .account).bind fun account => ?_
    exact .pure fun c hc => hc

end Scan

end DoubleEntry
