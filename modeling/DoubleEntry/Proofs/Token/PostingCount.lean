import DoubleEntry.Proofs.Statement.Meaning
import DoubleEntry.Proofs.Token.Alone

/-! How many postings there are in the tokens of a text. Each has a line of its own below the header
of its transaction, and that line is not an empty one. -/
namespace DoubleEntry

mutual

/-- How many tokens of a rule there are in a token, however deep, itself included. -/
def Token.countOf (rule : Rule) : Token → Nat
  | ⟨own, _, _, children⟩ => (if own = rule then 1 else 0) + countAll rule children

def countAll (rule : Rule) : List Token → Nat
  | [] => 0
  | t :: ts => t.countOf rule + countAll rule ts

end

theorem countAll_of_forall {rule : Rule} {count : Nat} {ts : List Token}
    (h : ∀ t ∈ ts, t.countOf rule = count) : countAll rule ts = ts.length * count := by
  induction ts with
  | nil => rw [countAll, List.length_nil, Nat.zero_mul]
  | cons t ts ih =>
    rw [List.forall_mem_cons] at h
    rw [countAll, h.1, ih h.2, List.length_cons, Nat.succ_mul, Nat.add_comm]

/-- No posting is inside. -/
def Token.IsBare (t : Token) : Prop := t.countOf .posting = 0

theorem Token.countOf_of_bare {children : List Token} (h : ∀ t ∈ children, t.IsBare) (rule : Rule)
    (text : String) (position : Position) :
    countOf .posting ⟨rule, text, position, children⟩ = if rule = .posting then 1 else 0 := by
  rw [countOf, countAll_of_forall h, Nat.mul_zero, Nat.add_zero]

theorem Token.isBare_of_children {rule : Rule} (hrule : rule ≠ .posting) {children : List Token}
    (h : ∀ t ∈ children, t.IsBare) (text : String) (position : Position) :
    IsBare ⟨rule, text, position, children⟩ := by
  rw [IsBare, countOf_of_bare h, if_neg hrule]

namespace Scan

theorem gives_bareNode {rule : Rule} {inner : Scan (List Token)} (hrule : rule ≠ .posting)
    (h : Gives inner fun ts => ∀ t ∈ ts, t.IsBare) : Gives (node rule inner) Token.IsBare :=
  Gives.node (h.mono fun _ => Token.isBare_of_children hrule)

theorem gives_bareLine {rule : Rule} {inner : Scan (List Token)} (hrule : rule ≠ .posting)
    (h : Gives inner fun ts => ∀ t ∈ ts, t.IsBare) : Gives (lineOf rule inner) Token.IsBare :=
  Gives.lineOf (h.mono fun _ => Token.isBare_of_children hrule)

theorem gives_bareLexeme (kind : Lexeme) : Gives (lexeme kind) Token.IsBare := by
  intro c next t hrun
  unfold lexeme at hrun
  split at hrun
  · contradiction
  · cases hrun
    cases kind <;> rfl

theorem gives_bareAmount : Gives amount Token.IsBare := by
  refine gives_bareNode (by decide) ?_
  refine (gives_bareLexeme .nominal).bind fun nominal hnominal => Gives.andThen fun _ => ?_
  refine (gives_bareLexeme .currency).bind fun currency hcurrency => Gives.pure ?_
  simp [hnominal, hcurrency]

theorem gives_bareAmountWithPrice : Gives amountWithPrice Token.IsBare := by
  refine gives_bareNode (by decide) ?_
  refine gives_bareAmount.bind fun first hfirst => Gives.andThen fun follows => ?_
  cases follows with
  | false => exact Gives.pure (by simp [hfirst])
  | true =>
    refine Gives.andThen fun _ => gives_bareAmount.bind fun price hprice => Gives.pure ?_
    simp [hfirst, hprice]

theorem gives_bareOption : Gives option Token.IsBare := by
  refine gives_bareLine (by decide) (Gives.andThen fun _ => Gives.andThen fun _ => ?_)
  refine (gives_bareLexeme .string).bind fun key hkey => Gives.andThen fun _ => ?_
  exact (gives_bareLexeme .string).bind fun value hvalue => Gives.pure (by simp [hkey, hvalue])

theorem gives_bareInclude : Gives includeFile Token.IsBare := by
  refine gives_bareLine (by decide) (Gives.andThen fun _ => Gives.andThen fun _ => ?_)
  exact (gives_bareLexeme .string).bind fun path hpath => Gives.pure (by simp [hpath])

theorem gives_bareUnit : Gives unit Token.IsBare := by
  refine gives_bareLine (by decide) (Gives.andThen fun _ => Gives.andThen fun _ => ?_)
  exact (gives_bareLexeme .currency).bind fun code hcode => Gives.pure (by simp [hcode])

theorem gives_bareHeader : Gives header Token.IsBare := by
  refine gives_bareNode (by decide) ?_
  refine (gives_bareLexeme .flag).bind fun flag hflag => Gives.andThen fun _ => ?_
  refine (gives_bareLexeme .string).bind fun first hfirst => Gives.andThen fun atEnd => ?_
  cases atEnd with
  | true => exact Gives.pure (by simp [hflag, hfirst])
  | false =>
    refine Gives.andThen fun _ => (gives_bareLexeme .string).bind fun title htitle => ?_
    exact Gives.pure (by simp [hflag, hfirst, htitle])

theorem gives_bareArguments (rule : Rule) :
    Gives (arguments rule) fun ts => ∀ t ∈ ts, t.IsBare := by
  unfold arguments
  split
  · refine Gives.andThen fun _ => (gives_bareLexeme .string).bind fun first hfirst => ?_
    refine (gives_furtherStrings (gives_bareLexeme .string)).bind fun others hothers => ?_
    exact Gives.pure (List.forall_mem_cons.2 ⟨hfirst, hothers⟩)
  · refine Gives.andThen fun _ => (gives_bareLexeme .account).bind fun target htarget => ?_
    refine Gives.andThen fun _ => (gives_bareLexeme .account).bind fun source hsource => ?_
    exact Gives.pure (by simp [htarget, hsource])
  · refine Gives.andThen fun _ => (gives_bareLexeme .account).bind fun account haccount => ?_
    refine Gives.andThen fun _ => gives_bareAmount.bind fun amount hamount => ?_
    exact Gives.pure (by simp [haccount, hamount])
  · refine Gives.andThen fun _ => (gives_bareLexeme .currency).bind fun currency hcurrency => ?_
    refine Gives.andThen fun _ => gives_bareAmount.bind fun amount hamount => ?_
    exact Gives.pure (by simp [hcurrency, hamount])
  · refine Gives.andThen fun _ => (gives_bareLexeme .account).bind fun account haccount => ?_
    exact Gives.pure (by simp [haccount])

theorem gives_bareDate (wanted : Option Rule) : Gives (opening wanted) fun opened =>
    opened.1.IsBare := by
  intro c next ⟨date, rule⟩ hrun
  obtain ⟨-, stop, hdate, -⟩ := opening_eq_ok_iff.1 hrun
  exact gives_bareLexeme .date _ _ _ hdate

theorem gives_onePosting : Gives posting fun t => t.countOf .posting = 1 := by
  have hpieces {children : List Token} (h : ∀ t ∈ children, t.IsBare) (text : String)
      (position : Position) : Token.countOf .posting ⟨.posting, text, position, children⟩ = 1 :=
    Token.countOf_of_bare h .posting text position
  refine Gives.lineOf ((gives_bareLexeme .account).bind fun account haccount =>
    Gives.andThen fun atEnd => ?_)
  cases atEnd with
  | true => exact Gives.pure (hpieces (by simp [haccount]))
  | false =>
    refine Gives.andThen fun _ => gives_bareAmountWithPrice.bind fun amount hamount => ?_
    exact Gives.pure (hpieces (by simp [haccount, hamount]))

end Scan

/-! ## Lines -/

/-- A line below a header has one posting at the most. -/
theorem countAll_postingsOf_le {body : List Line} {postings : List Token}
    (h : postingsOf body = .ok postings) : countAll .posting postings ≤ body.length := by
  have hone : ∀ t ∈ postings, t.countOf .posting = 1 := by
    intro t ht
    obtain ⟨line, -, hrun⟩ := exists_mem_of_mapM_eq_ok h ht
    obtain ⟨⟨u, stop⟩, hposting, rfl⟩ := map_eq_ok_iff.1 hrun
    exact Scan.gives_onePosting _ _ _ hposting
  have hlength := (mapM_eq_ok_iff.1 h).length_eq
  rw [countAll_of_forall hone, Nat.mul_one, ← hlength]
  exact List.length_filter_le _ _

/-- How many of the lines are not empty. -/
def countWritten (lines : List Line) : Nat := lines.countP (·.chars ≠ [])

theorem Line.chars_ne_nil_of_isIndented {line : Line} (h : line.isIndented = true) :
    line.chars ≠ [] := by
  intro hnil
  rw [isIndented, hnil] at h
  contradiction

theorem countWritten_indented (below : List Line) :
    countWritten below = (below.takeWhile (·.isIndented)).length +
      countWritten (below.dropWhile (·.isIndented)) := by
  have hbody : countWritten (below.takeWhile (·.isIndented)) =
      (below.takeWhile (·.isIndented)).length := by
    rw [countWritten, List.countP_eq_length]
    intro line hline
    exact decide_eq_true (Line.chars_ne_nil_of_isIndented (List.mem_takeWhile_imp hline))
  rw [← hbody]
  unfold countWritten
  rw [← List.countP_append, List.takeWhile_append_dropWhile]

/-- A statement has no more postings than it takes lines from those below. -/
theorem count_datedAt {start : Cursor} {below left : List Line} {t : Token}
    (h : DatedAt start below t left) :
    t.countOf .posting + countWritten left ≤ countWritten below := by
  have hrule := rule_mem_datedRules h
  cases h with
  | @line rule _ _ _ hline =>
    obtain ⟨date, stop, children, middle, hopening, harguments, -, rfl, -⟩ :=
      Scan.datedLine_eq_ok_iff.1 hline
    have hdate : date.countOf .posting = 0 := Scan.gives_bareDate _ _ _ _ hopening
    have hchildren := countAll_of_forall (Scan.gives_bareArguments rule _ _ _ harguments)
    have hown : rule ≠ .posting := by
      rintro rfl
      contradiction
    simp [Token.countOf, countAll, hdate, hchildren, hown]
  | @transaction date header postings middle hhead hend hpostings hne =>
    obtain ⟨stop, hopening, hheader⟩ := Scan.transactionHead_eq_ok_iff.1 hhead
    have hdate : date.countOf .posting = 0 := Scan.gives_bareDate _ _ _ _ hopening
    have hheader : header.countOf .posting = 0 := Scan.gives_bareHeader _ _ _ hheader
    have hle := countAll_postingsOf_le hpostings
    rw [countWritten_indented below]
    simp only [transactionToken, Token.countOf, countAll, hdate, hheader, reduceCtorEq, if_false]
    omega

theorem count_directiveAt {line : Line} {below left : List Line} {t : Token}
    (h : DirectiveAt line below t left) :
    t.countOf .posting + countWritten left ≤ countWritten below := by
  cases h with
  | keyword hmem hrun =>
    have hbare : t.IsBare := Scan.gives_of_keywordLines Scan.gives_bareOption Scan.gives_bareInclude
      Scan.gives_bareUnit hmem _ _ _ hrun
    rw [show t.countOf .posting = 0 from hbare, Nat.zero_add]
  | statement hdated =>
    have hcount := count_datedAt hdated
    simpa [Token.countOf, countAll] using hcount

/-- All the directives of a text and the postings in them are on lines of their own. -/
theorem count_directives {lines : List Line} {tokens : List Token}
    (h : directives lines = .ok tokens) :
    tokens.length + countAll .posting tokens ≤ countWritten lines := by
  fun_induction directives lines generalizing tokens with
  | case1 =>
    cases h
    exact Nat.le_refl _
  | case2 line below hvacant ih =>
    exact Nat.le_trans (ih h) (List.sublist_cons_self line below).countP_le
  | case3 line below hvacant stray hstray => contradiction
  | case4 line below hvacant token left hfound _ stray hleft ih => contradiction
  | case5 line below hvacant token left hfound _ rest hleft ih =>
    cases h
    have htoken := count_directiveAt (directive_eq_ok_iff.1 hfound)
    have hrest := ih hleft
    have hwritten : line.chars ≠ [] := fun hnil => hvacant (Line.isVacant_of_chars_eq_nil hnil)
    have hline : countWritten (line :: below) = countWritten below + 1 :=
      List.countP_cons_of_pos (decide_eq_true hwritten)
    rw [List.length_cons, countAll, hline]
    omega

/-- The lines of a text that are not empty are its pieces that are not. -/
theorem countWritten_lines (s : Source) :
    countWritten s.lines = (Text.pieces s.chars).countP (· ≠ []) := by
  rw [Source.lines_eq, countWritten, ← numbered_chars 1 0 (Text.pieces s.chars), List.countP_map,
    numbered_chars]
  rfl

end DoubleEntry
