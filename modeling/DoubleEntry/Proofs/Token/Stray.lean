import DoubleEntry.Proofs.Source.Cover

/-! Where reading goes astray: always inside the text. A scan never leaves its line, and so what it
stumbles over is on the line, or on a line below for the postings of a transaction. -/
namespace DoubleEntry

/-- On the line, at its end at the most. -/
def Cursor.IsOn (c : Cursor) (line : Line) : Prop := c.line = line ∧ c.column ≤ line.chars.length

namespace Cursor.IsOn

variable {s : Source} {c : Cursor} {line : Line} {text : List Char}

theorem advance (h : c.IsOn line) (hfront : text <+: c.rest) :
    (c.advance text.length).IsOn line := by
  have hlength := hfront.length_le
  obtain ⟨rfl, hcolumn⟩ := h
  rw [rest, List.length_drop] at hlength
  refine ⟨rfl, ?_⟩
  change c.column + text.length ≤ _
  omega

theorem skipGap (h : c.IsOn line) : c.skipGap.IsOn line := h.advance (List.takeWhile_prefix _)

theorem offset_le (h : c.IsOn line) (hline : line.IsIn s) : c.offset ≤ s.chars.length := by
  obtain ⟨rfl, hcolumn⟩ := h
  exact Nat.le_trans (Nat.add_le_add_left hcolumn _) hline.stop_le

end Cursor.IsOn

theorem Line.isOn_cursor (line : Line) : line.cursor.IsOn line := ⟨rfl, Nat.zero_le _⟩

namespace Scan

/-! ## Rules -/

/-- Stops at a place on the line, or goes astray inside the text. -/
def Lands {α : Type} (s : Source) (line : Line) : Except Stray (α × Cursor) → Prop
  | .ok (_, next) => next.IsOn line
  | .error stray => stray.offset ≤ s.chars.length

/-- From a place on the line the scan only gets to places on it. -/
def StaysOn {α : Type} (s : Source) (line : Line) (m : Scan α) : Prop :=
  ∀ c : Cursor, c.IsOn line → Lands s line (m c)

section

variable {α β : Type} {s : Source} {line : Line}

theorem StaysOn.offset_le {m : Scan α} (h : StaysOn s line m) {c : Cursor} (hc : c.IsOn line)
    {stray : Stray} (hrun : m c = .error stray) : stray.offset ≤ s.chars.length := by
  have hstays := h c hc
  rwa [hrun] at hstays

theorem StaysOn.isOn {m : Scan α} (h : StaysOn s line m) {c next : Cursor} (hc : c.IsOn line)
    {a : α} (hrun : m c = .ok (a, next)) : next.IsOn line := by
  have hstays := h c hc
  rwa [hrun] at hstays

theorem staysOn_pure (a : α) : StaysOn s line (pure a) := fun _ hc => hc

theorem StaysOn.bind {m : Scan α} {f : α → Scan β} (hm : StaysOn s line m)
    (hf : ∀ a, StaysOn s line (f a)) : StaysOn s line (m >>= f) := by
  intro c hc
  have hfirst := hm c hc
  rw [bind_apply]
  cases hrun : m c with
  | error stray =>
    rw [hrun] at hfirst
    exact hfirst
  | ok result =>
    rw [hrun] at hfirst
    exact hf result.1 result.2 hfirst

/-- What is looked up is a place on the line. -/
theorem StaysOn.get_bind {f : Cursor → Scan β}
    (hf : ∀ start : Cursor, start.IsOn line → Lands s line (f start start)) :
    StaysOn s line (get >>= f) := hf

theorem staysOn_liftM {r : Except Stray α}
    (h : ∀ stray, r = .error stray → stray.offset ≤ s.chars.length) : StaysOn s line (liftM r) := by
  intro c hc
  cases r with
  | error stray => exact h stray rfl
  | ok a => exact hc

theorem staysOn_throw {stray : Stray} (h : stray.offset ≤ s.chars.length) :
    StaysOn s line (throw stray : Scan α) := fun _ _ => h

theorem staysOn_isAtLineEnd : StaysOn s line isAtLineEnd := fun _ hc => hc

theorem staysOn_nodeFrom (start : Cursor) (rule : Rule) (children : List Token) :
    StaysOn s line (nodeFrom start rule children) := fun _ hc => hc

theorem StaysOn.node {inner : Scan (List Token)} (h : StaysOn s line inner) (rule : Rule) :
    StaysOn s line (node rule inner) := by
  unfold Scan.node
  exact .get_bind fun start => h.bind (fun children => staysOn_nodeFrom start rule children) start

end

/-! ## Scans -/

section

variable {s : Source} {line : Line} (hline : line.IsIn s)

include hline

theorem staysOn_gap (what : String) : StaysOn s line (gap what) := by
  intro c hc
  unfold gap
  split
  · exact hc.skipGap
  · exact hc.offset_le hline

theorem staysOn_lexeme (kind : Lexeme) : StaysOn s line (lexeme kind) := by
  intro c hc
  unfold lexeme
  split
  · exact hc.offset_le hline
  · rename_i text hread
    exact hc.advance (Lexeme.read?_concat hread).1

theorem staysOn_keyword (word : String) : StaysOn s line (keyword word) := by
  intro c hc
  unfold keyword
  split
  · rename_i hstarts
    rw [startsWith, Bool.and_eq_true, List.isPrefixOf_iff_prefix] at hstarts
    rw [← String.length_toList]
    exact hc.advance hstarts.1
  · exact hc.offset_le hline

theorem staysOn_lineEnd : StaysOn s line lineEnd := by
  intro c hc
  unfold lineEnd
  split
  · obtain ⟨rfl, _⟩ := hc
    exact ⟨rfl, Nat.le_refl _⟩
  · exact hc.skipGap.offset_le hline

theorem StaysOn.lineOf {inner : Scan (List Token)} (h : StaysOn s line inner) (rule : Rule) :
    StaysOn s line (lineOf rule inner) := by
  unfold Scan.lineOf
  exact (h.node rule).bind fun t => (staysOn_lineEnd hline).bind fun _ => staysOn_pure t

omit hline in
theorem staysOn_priceFollows : StaysOn s line priceFollows := by
  intro c hc
  unfold priceFollows
  split
  · rename_i hmark
    rw [Bool.and_eq_true, decide_eq_true_eq] at hmark
    have hword : [priceMark] <+: c.skipGap.rest := by
      rw [← hmark.2]
      exact List.takeWhile_prefix _
    exact hc.skipGap.advance hword
  · exact hc

theorem staysOn_amount : StaysOn s line amount := by
  unfold amount
  refine StaysOn.node ?_ _
  refine (staysOn_lexeme hline .nominal).bind fun nominal => (staysOn_gap hline _).bind fun _ => ?_
  exact (staysOn_lexeme hline .currency).bind fun currency => staysOn_pure _

theorem staysOn_amountWithPrice : StaysOn s line amountWithPrice := by
  unfold amountWithPrice
  refine StaysOn.node ?_ _
  refine (staysOn_amount hline).bind fun first => staysOn_priceFollows.bind fun follows => ?_
  cases follows with
  | false => exact staysOn_pure _
  | true =>
    exact (staysOn_gap hline _).bind fun _ =>
      (staysOn_amount hline).bind fun price => staysOn_pure _

theorem staysOn_option : StaysOn s line option := by
  refine StaysOn.lineOf hline ?_ _
  refine (staysOn_keyword hline _).bind fun _ => (staysOn_gap hline _).bind fun _ => ?_
  refine (staysOn_lexeme hline .string).bind fun key => (staysOn_gap hline _).bind fun _ => ?_
  exact (staysOn_lexeme hline .string).bind fun value => staysOn_pure _

theorem staysOn_includeFile : StaysOn s line includeFile := by
  refine StaysOn.lineOf hline ?_ _
  refine (staysOn_keyword hline _).bind fun _ => (staysOn_gap hline _).bind fun _ => ?_
  exact (staysOn_lexeme hline .string).bind fun path => staysOn_pure _

theorem staysOn_unit : StaysOn s line unit := by
  refine StaysOn.lineOf hline ?_ _
  refine (staysOn_keyword hline _).bind fun _ => (staysOn_gap hline _).bind fun _ => ?_
  exact (staysOn_lexeme hline .currency).bind fun code => staysOn_pure _

theorem staysOn_keywordLine : ∀ scan ∈ [option, includeFile, unit], StaysOn s line scan :=
  forall_keywordLine (staysOn_option hline) (staysOn_includeFile hline) (staysOn_unit hline)

theorem staysOn_posting : StaysOn s line posting := by
  refine StaysOn.lineOf hline ?_ _
  refine (staysOn_lexeme hline .account).bind fun account =>
    staysOn_isAtLineEnd.bind fun atEnd => ?_
  cases atEnd with
  | true => exact staysOn_pure _
  | false =>
    refine (staysOn_gap hline _).bind fun _ => ?_
    exact (staysOn_amountWithPrice hline).bind fun amount => staysOn_pure _

theorem staysOn_header : StaysOn s line header := by
  unfold header
  refine StaysOn.node ?_ _
  refine (staysOn_lexeme hline .flag).bind fun flag => (staysOn_gap hline _).bind fun _ => ?_
  refine (staysOn_lexeme hline .string).bind fun first => staysOn_isAtLineEnd.bind fun atEnd => ?_
  cases atEnd with
  | true => exact staysOn_pure _
  | false =>
    refine (staysOn_gap hline _).bind fun _ => ?_
    exact (staysOn_lexeme hline .string).bind fun title => staysOn_pure _

theorem staysOn_opening (wanted : Option Rule) : StaysOn s line (opening wanted) := by
  unfold opening
  refine (staysOn_lexeme hline .date).bind fun date => (staysOn_gap hline _).bind fun _ => ?_
  refine .get_bind fun found hfound => ?_
  cases hahead : statementAhead? found.rest with
  | none => exact hfound.offset_le hline
  | some ahead =>
    obtain ⟨word, rule⟩ := ahead
    have hword : (found.advance word.length).IsOn line := by
      rw [← String.length_toList]
      exact hfound.advance (filler_of_statementAhead? hahead).1
    cases wanted with
    | none => exact hword
    | some other =>
      simp only
      split
      · exact hfound.offset_le hline
      · exact hword

theorem staysOn_furtherStrings : StaysOn s line furtherStrings := by
  intro c hc
  have hfurther : StaysOn s line furtherString :=
    (staysOn_gap hline _).bind fun _ => staysOn_lexeme hline .string
  fun_induction furtherStrings c with
  | case1 c hend => exact hc
  | case2 c hend stray hstray => exact hfurther.offset_le hc hstray
  | case3 c hend token next hstring _ stray hrest ih =>
    have hlands := ih (hfurther.isOn hc hstring)
    rwa [hrest] at hlands
  | case4 c hend token next hstring _ tokens stop hrest ih =>
    have hlands := ih (hfurther.isOn hc hstring)
    rwa [hrest] at hlands

theorem staysOn_arguments (rule : Rule) : StaysOn s line (arguments rule) := by
  unfold arguments
  split
  · refine (staysOn_gap hline _).bind fun _ => (staysOn_lexeme hline .string).bind fun first => ?_
    exact (staysOn_furtherStrings hline).bind fun others => staysOn_pure _
  · refine (staysOn_gap hline _).bind fun _ => (staysOn_lexeme hline .account).bind fun target => ?_
    refine (staysOn_gap hline _).bind fun _ => ?_
    exact (staysOn_lexeme hline .account).bind fun source => staysOn_pure _
  · refine (staysOn_gap hline _).bind fun _ => (staysOn_lexeme hline .account).bind fun _ => ?_
    exact (staysOn_gap hline _).bind fun _ => (staysOn_amount hline).bind fun _ => staysOn_pure _
  · refine (staysOn_gap hline _).bind fun _ => (staysOn_lexeme hline .currency).bind fun _ => ?_
    exact (staysOn_gap hline _).bind fun _ => (staysOn_amount hline).bind fun _ => staysOn_pure _
  · refine (staysOn_gap hline _).bind fun _ => ?_
    exact (staysOn_lexeme hline .account).bind fun account => staysOn_pure _

end

end Scan

/-! ## Transactions -/

theorem offset_le_of_postingsOf {s : Source} {body : List Line} (h : ∀ line ∈ body, line.IsIn s) :
    FailsWith (postingsOf body) fun stray => stray.offset ≤ s.chars.length := by
  have hkept : ∀ line ∈ body.filter (!·.isComment), line.IsIn s :=
    fun line hline => h line (List.mem_of_mem_filter hline)
  unfold postingsOf
  generalize body.filter (!·.isComment) = kept at hkept
  induction kept with
  | nil => exact failsWith_pure []
  | cons line kept ih =>
    rw [List.forall_mem_cons] at hkept
    rw [List.mapM_cons]
    refine FailsWith.bind (fun stray hstray => ?_) fun t =>
      (ih hkept.2).bind fun ts => failsWith_pure _
    cases hrun : Scan.posting line.cursor.skipGap with
    | ok result =>
      rw [hrun] at hstray
      contradiction
    | error other =>
      rw [hrun] at hstray
      cases hstray
      exact (Scan.staysOn_posting hkept.1).offset_le line.isOn_cursor.skipGap hrun

theorem offsetBelow_le {s : Source} {start : Nat} {line : Line} {body left : List Line}
    (h : LinesFrom s start (line :: (body ++ left))) :
    offsetBelow line body left ≤ s.chars.length := by
  cases left with
  | cons next left =>
    exact Nat.le_trans (Nat.le_add_right _ _) h.drop.isIn.stop_le
  | nil =>
    have hlast := h.drop
    generalize hend : (body.getLastD line).stop + 1 = last at hlast
    cases hlast
    exact Nat.le_of_eq (Nat.succ.inj hend)

namespace Scan

variable {s : Source} {line : Line} {below : List Line} (h : LinesFrom s line.start (line :: below))

include h

theorem staysOn_transactionFrom {start : Cursor} (hstart : start.IsOn line) (date : Token) :
    StaysOn s line (transactionFrom start date below) := by
  have hsplit := h
  rw [← List.takeWhile_append_dropWhile (p := (·.isIndented)) (l := below)] at hsplit
  have hbody : ∀ other ∈ below.takeWhile (·.isIndented), other.IsIn s :=
    fun other hother => h.tail.isIn_of_mem other ((List.takeWhile_sublist _).subset hother)
  unfold transactionFrom
  refine (staysOn_header h.isIn).bind fun header => (staysOn_lineEnd h.isIn).bind fun _ => ?_
  refine (staysOn_liftM (offset_le_of_postingsOf hbody)).bind fun postings => ?_
  simp only [hstart.1]
  split
  · exact (staysOn_throw (offsetBelow_le hsplit)).bind fun _ => staysOn_pure _
  · exact staysOn_pure _

theorem staysOn_dated (wanted : Option Rule) : StaysOn s line (dated wanted below) := by
  unfold dated
  refine .get_bind fun start hstart =>
    (staysOn_opening h.isIn wanted).bind (fun opened => ?_) start hstart
  simp only
  split
  · exact (staysOn_transactionFrom h hstart opened.1).bind fun t => staysOn_pure _
  · refine (staysOn_arguments h.isIn opened.2).bind fun children => ?_
    refine (staysOn_nodeFrom start opened.2 _).bind fun t => ?_
    exact (staysOn_lineEnd h.isIn).bind fun _ => staysOn_pure _

theorem staysOn_statement : StaysOn s line (statement below) := by
  unfold statement
  exact (staysOn_dated h none).bind fun found => staysOn_pure _

end Scan

/-! ## Directives -/

theorem offset_le_of_directive {s : Source} {line : Line} {below : List Line}
    (h : LinesFrom s line.start (line :: below)) :
    FailsWith (directive line below) fun stray => stray.offset ≤ s.chars.length := by
  have hline := h.isIn
  have hcursor := line.isOn_cursor
  intro stray hstray
  rcases directive_cases line.chars with hnone | ⟨scan, hmem, hscan⟩ | hread
  · obtain ⟨stray', hstray', hoffset⟩ := hnone line below rfl
    cases hstray'.symm.trans hstray
    rcases hoffset with hoffset | hoffset
    · exact hoffset ▸ hcursor.skipGap.offset_le hline
    · exact hoffset ▸ hcursor.offset_le hline
  · rw [hscan line below rfl, map_eq_error_iff] at hstray
    exact (Scan.staysOn_keywordLine hline scan hmem).offset_le hcursor hstray
  · rw [hread line below rfl, map_eq_error_iff] at hstray
    exact (Scan.staysOn_statement h).offset_le hcursor hstray

/-- Where the directives of a text go astray is in the text. -/
theorem offset_le_of_directives {s : Source} {start : Nat} {lines : List Line}
    (h : LinesFrom s start lines) :
    FailsWith (directives lines) fun stray => stray.offset ≤ s.chars.length := by
  fun_induction directives lines generalizing start with
  | case1 => exact failsWith_pure []
  | case2 line below hvacant ih => exact ih h.tail
  | case3 line below hvacant stray hstray =>
    rintro _ ⟨⟩
    obtain rfl := h.start_eq
    exact offset_le_of_directive h stray hstray
  | case4 line below hvacant token left hdirective _ stray hleft ih =>
    rintro _ ⟨⟩
    obtain rfl := h.start_eq
    obtain ⟨_, _, _, _, hlines⟩ := heads_directive h hdirective
    exact ih hlines stray hleft
  | case5 line below hvacant token left hdirective _ rest hleft ih => exact failsWith_pure _

end DoubleEntry
