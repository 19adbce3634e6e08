import DoubleEntry.Proofs.Token.LineEnd

/-! What directives are read from: one of the keywords with its strings, a date with a statement on
the same line, or a date with a header and postings on the lines below. -/
namespace DoubleEntry

open Text

namespace Scan

variable {α β : Type} {c next : Cursor}

theorem bind_apply_eq_ok_iff {m : Scan α} {f : α → Scan β} {b : β} :
    (m >>= f) c = .ok (b, next) ↔
      ∃ a middle, m c = .ok (a, middle) ∧ f a middle = .ok (b, next) := by
  rw [bind_apply]
  cases m c with
  | error stray => simp
  | ok result =>
    obtain ⟨a, middle⟩ := result
    simp

/-- A scan that only moves, on a condition. -/
theorem ite_eq_ok_iff {p : Prop} [Decidable p] {stop : Cursor} {stray : Stray} {a : Unit} :
    (if p then .ok ((), stop) else .error stray : Except Stray (Unit × Cursor)) = .ok (a, next) ↔
      p ∧ next = stop := by
  split
  · rename_i h
    simp only [h, true_and, Except.ok.injEq, Prod.mk.injEq]
    exact eq_comm
  · rename_i h
    simp [h]

theorem gap_eq_ok_iff {what : String} {a : Unit} :
    gap what c = .ok (a, next) ↔ c.rest.head?.any isGap = true ∧ next = c.skipGap := by
  unfold gap
  exact ite_eq_ok_iff

theorem keyword_eq_ok_iff {word : String} {a : Unit} :
    keyword word c = .ok (a, next) ↔
      startsWith word c.rest = true ∧ next = c.advance word.length := by
  unfold keyword
  exact ite_eq_ok_iff

theorem lineEnd_eq_ok_iff {a : Unit} :
    lineEnd c = .ok (a, next) ↔ c.atLineEnd = true ∧ next = c.toLineEnd := by
  unfold lineEnd
  exact ite_eq_ok_iff

theorem liftM_eq_ok_iff {r : Except Stray α} {a : α} :
    (liftM r : Scan α) c = .ok (a, next) ↔ r = .ok a ∧ next = c := by
  cases r with
  | error stray => exact iff_of_false (fun h => by cases h) fun h => by cases h.1
  | ok b =>
    constructor
    · intro h
      cases h
      exact ⟨rfl, rfl⟩
    · rintro ⟨h, rfl⟩
      cases h
      rfl

theorem lineOf_eq_ok_iff {rule : Rule} {inner : Scan (List Token)} {t : Token} :
    lineOf rule inner c = .ok (t, next) ↔ ∃ children middle, inner c = .ok (children, middle) ∧
      middle.atLineEnd = true ∧ t = ⟨rule, c.textTo middle, c.position, children⟩ ∧
      next = middle.toLineEnd := by
  unfold lineOf node
  simp only [bind_apply_eq_ok_iff, lineEnd_eq_ok_iff, get_apply, pure_apply, nodeFrom]
  constructor
  · rintro ⟨_, _, ⟨_, _, hget, children, middle, hinner, hnode⟩, _, _, ⟨hend, rfl⟩, hrun⟩
    cases hget
    cases hnode
    cases hrun
    exact ⟨_, _, hinner, hend, rfl, rfl⟩
  · rintro ⟨children, middle, hinner, hend, rfl, rfl⟩
    exact ⟨_, _, ⟨_, _, rfl, children, middle, hinner, rfl⟩, (), _, ⟨hend, rfl⟩, rfl⟩

/-! ## Statements -/

theorem opening_eq_ok_iff {wanted : Option Rule} {date : Token} {rule : Rule} :
    opening wanted c = .ok ((date, rule), next) ↔ (∀ other ∈ wanted, rule = other) ∧
      ∃ stop : Cursor, lexeme .date c = .ok (date, stop) ∧ stop.rest.head?.any isGap = true ∧
        ∃ word, statementAhead? stop.skipGap.rest = some (word, rule) ∧
          next = stop.skipGap.advance word.length := by
  unfold opening
  constructor
  · intro h
    obtain ⟨token, stop, hdate, h⟩ := bind_apply_eq_ok_iff.1 h
    obtain ⟨_, _, hgap, h⟩ := bind_apply_eq_ok_iff.1 h
    obtain ⟨hhead, rfl⟩ := gap_eq_ok_iff.1 hgap
    rw [bind_apply, get_apply] at h
    simp only at h
    cases hahead : statementAhead? stop.skipGap.rest with
    | none =>
      rw [hahead] at h
      contradiction
    | some found =>
      obtain ⟨word, found⟩ := found
      rw [hahead] at h
      cases wanted with
      | none =>
        cases h
        exact ⟨by simp, stop, hdate, hhead, word, hahead, rfl⟩
      | some other =>
        simp only at h
        split at h
        · contradiction
        · rename_i hsame
          cases h
          exact ⟨by simpa using hsame, stop, hdate, hhead, word, hahead, rfl⟩
  · rintro ⟨hwanted, stop, hdate, hhead, word, hahead, rfl⟩
    refine bind_apply_eq_ok_iff.2 ⟨date, stop, hdate, bind_apply_eq_ok_iff.2 ⟨(), stop.skipGap,
      gap_eq_ok_iff.2 ⟨hhead, rfl⟩, ?_⟩⟩
    rw [bind_apply, get_apply]
    simp only [hahead]
    cases wanted with
    | none => rfl
    | some other =>
      obtain rfl := hwanted other rfl
      simp only [ne_eq, not_true_eq_false, if_false]
      rfl

/-- The keyword names one of the one-line statements, or it is a flag. -/
theorem rule_of_opening {wanted : Option Rule} {date : Token} {rule : Rule}
    (h : opening wanted c = .ok ((date, rule), next)) :
    rule = .transaction ∨ rule ∈ statementWords.map Prod.snd := by
  obtain ⟨-, _, -, -, word, hahead, -⟩ := opening_eq_ok_iff.1 h
  rcases statementAhead?_eq_some_iff.1 hahead with ⟨hmem, -⟩ | ⟨-, -, hrule⟩
  · exact .inr (List.mem_map_of_mem hmem)
  · exact .inl hrule

/-- Asking for a rule only says which statement it has to be. -/
theorem opening_some_eq_ok_iff {wanted rule : Rule} {date : Token} :
    opening wanted c = .ok ((date, rule), next) ↔
      rule = wanted ∧ opening none c = .ok ((date, rule), next) := by
  rw [opening_eq_ok_iff, opening_eq_ok_iff]
  simp

/-- A statement that ends with its line. -/
def datedLine (rule : Rule) : Scan Token := lineOf rule do
  let opened ← opening rule
  let children ← arguments rule
  return opened.1 :: children

/-- Date and header of a transaction. -/
def transactionHead : Scan (Token × Token) := do
  let opened ← opening (some .transaction)
  let header ← header
  return (opened.1, header)

theorem datedLine_eq_ok_iff {rule : Rule} {t : Token} :
    datedLine rule c = .ok (t, next) ↔ ∃ date stop children middle,
      opening none c = .ok ((date, rule), stop) ∧ arguments rule stop = .ok (children, middle) ∧
        middle.atLineEnd = true ∧ t = ⟨rule, c.textTo middle, c.position, date :: children⟩ ∧
        next = middle.toLineEnd := by
  unfold datedLine
  rw [lineOf_eq_ok_iff]
  simp only [bind_apply_eq_ok_iff]
  constructor
  · rintro ⟨_, _, ⟨opened, stop, hopening, children, _, harguments, hrun⟩, hend, rfl, rfl⟩
    obtain ⟨date, found⟩ := opened
    cases hrun
    obtain ⟨rfl, hopened⟩ := opening_some_eq_ok_iff.1 hopening
    exact ⟨date, stop, children, _, hopened, harguments, hend, rfl, rfl⟩
  · rintro ⟨date, stop, children, middle, hopening, harguments, hend, rfl, rfl⟩
    exact ⟨_, _, ⟨(date, rule), stop, opening_some_eq_ok_iff.2 ⟨rfl, hopening⟩, children, middle,
      harguments, rfl⟩, hend, rfl, rfl⟩

theorem transactionHead_eq_ok_iff {date found : Token} :
    transactionHead c = .ok ((date, found), next) ↔ ∃ stop,
      opening none c = .ok ((date, .transaction), stop) ∧ header stop = .ok (found, next) := by
  unfold transactionHead
  simp only [bind_apply_eq_ok_iff]
  constructor
  · rintro ⟨⟨date, rule⟩, stop, hopening, header, _, hheader, hrun⟩
    cases hrun
    obtain ⟨rfl, hopened⟩ := opening_some_eq_ok_iff.1 hopening
    exact ⟨stop, hopened, hheader⟩
  · rintro ⟨stop, hopening, hheader⟩
    exact ⟨_, stop, opening_some_eq_ok_iff.2 ⟨rfl, hopening⟩, found, next, hheader, rfl⟩

end Scan

/-- A transaction of these parts, with the text of all its lines. -/
def transactionToken (start : Cursor) (body : List Line) (date header : Token)
    (postings : List Token) : Token :=
  ⟨.transaction, .ofList (trimEnd (joinWith '\n' (start.rest :: body.map Line.chars))),
    start.position, [date, header, ⟨.txnList, "", ⟨start.line.number + 1, 1⟩, postings⟩]⟩

/-- The dated statement at a place of a line, and the lines left below. -/
inductive DatedAt (start : Cursor) (below : List Line) : Token → List Line → Prop where
  | line {rule : Rule} {t : Token} {next : Cursor} : rule ≠ .transaction →
      Scan.datedLine rule start = .ok (t, next) → DatedAt start below t below
  | transaction {date header : Token} {postings : List Token} {middle : Cursor} :
      Scan.transactionHead start = .ok ((date, header), middle) → middle.atLineEnd = true →
      postingsOf (below.takeWhile (·.isIndented)) = .ok postings → postings ≠ [] →
      DatedAt start below
        (transactionToken start (below.takeWhile (·.isIndented)) date header postings)
        (below.dropWhile (·.isIndented))

theorem transactionFrom_eq_ok_iff {start c next : Cursor} {date t : Token} {below : List Line} :
    transactionFrom start date below c = .ok (t, next) ↔ ∃ header middle postings,
      Scan.header c = .ok (header, middle) ∧ middle.atLineEnd = true ∧ next = middle.toLineEnd ∧
        postingsOf (below.takeWhile (·.isIndented)) = .ok postings ∧ postings ≠ [] ∧
        t = transactionToken start (below.takeWhile (·.isIndented)) date header postings := by
  unfold transactionFrom
  simp only [Scan.bind_apply_eq_ok_iff, Scan.lineEnd_eq_ok_iff, Scan.liftM_eq_ok_iff]
  constructor
  · rintro ⟨header, middle, hheader, _, _, ⟨hend, rfl⟩, postings, _, ⟨hpostings, rfl⟩, h⟩
    split at h
    · contradiction
    · rename_i hne
      cases h
      exact ⟨header, middle, postings, hheader, hend, rfl, hpostings, hne, rfl⟩
  · rintro ⟨header, middle, postings, hheader, hend, rfl, hpostings, hne, rfl⟩
    refine ⟨header, middle, hheader, (), _, ⟨hend, rfl⟩, postings, _, ⟨hpostings, rfl⟩, ?_⟩
    rw [if_neg hne]
    rfl

theorem dated_none_iff {start : Cursor} {below left : List Line} {t : Token} :
    (∃ next, dated none below start = .ok ((t, left), next)) ↔ DatedAt start below t left := by
  unfold dated
  simp only [Scan.bind_apply_eq_ok_iff, Scan.get_apply]
  constructor
  · rintro ⟨next, _, _, hget, ⟨date, rule⟩, stop, hopening, h⟩
    cases hget
    simp only at h
    split at h
    · rename_i hrule
      subst hrule
      obtain ⟨token, _, htoken, hrun⟩ := Scan.bind_apply_eq_ok_iff.1 h
      cases hrun
      obtain ⟨header, middle, postings, hheader, hend, -, hpostings, hne, rfl⟩ :=
        transactionFrom_eq_ok_iff.1 htoken
      exact .transaction (Scan.transactionHead_eq_ok_iff.2 ⟨stop, hopening, hheader⟩) hend
        hpostings hne
    · rename_i hrule
      simp only [Scan.bind_apply_eq_ok_iff, Scan.lineEnd_eq_ok_iff] at h
      obtain ⟨children, middle, harguments, token, _, hnode, _, _, ⟨hend, rfl⟩, hrun⟩ := h
      cases hnode
      cases hrun
      exact .line hrule (Scan.datedLine_eq_ok_iff.2
        ⟨date, stop, children, middle, hopening, harguments, hend, rfl, rfl⟩)
  · intro h
    cases h with
    | line hrule hline =>
      obtain ⟨date, stop, children, middle, hopening, harguments, hend, rfl, rfl⟩ :=
        Scan.datedLine_eq_ok_iff.1 hline
      refine ⟨middle.toLineEnd, start, start, rfl, (date, _), stop, hopening, ?_⟩
      simp only [if_neg hrule, Scan.bind_apply_eq_ok_iff, Scan.lineEnd_eq_ok_iff]
      exact ⟨children, middle, harguments, _, middle, rfl, (), _, ⟨hend, rfl⟩, rfl⟩
    | @transaction date header postings middle hhead hend hpostings hne =>
      obtain ⟨stop, hopening, hheader⟩ := Scan.transactionHead_eq_ok_iff.1 hhead
      refine ⟨middle.toLineEnd, start, start, rfl, (date, .transaction), stop, hopening, ?_⟩
      simp only [if_true]
      exact Scan.bind_apply_eq_ok_iff.2 ⟨_, middle.toLineEnd, transactionFrom_eq_ok_iff.2
        ⟨header, middle, postings, hheader, hend, rfl, hpostings, hne, rfl⟩, rfl⟩

/-! ## Directives -/

theorem statement_eq_ok_iff {c next : Cursor} {below left : List Line} {t : Token} :
    statement below c = .ok ((t, left), next) ↔
      ∃ d, dated none below c = .ok ((d, left), next) ∧
        t = ⟨.statement, d.text, d.position, [d]⟩ := by
  unfold statement
  rw [Scan.bind_apply_eq_ok_iff]
  constructor
  · rintro ⟨⟨d, left⟩, middle, hdated, hrun⟩
    cases hrun
    exact ⟨d, hdated, rfl⟩
  · rintro ⟨d, hdated, rfl⟩
    exact ⟨(d, left), next, hdated, rfl⟩

/-- Where lines stop being indented, the body of a transaction ends. -/
theorem split_indented {body left : List Line} (hbody : ∀ line ∈ body, line.isIndented = true)
    (hleft : ∀ line ∈ left.head?, line.isIndented = false) :
    (body ++ left).takeWhile (·.isIndented) = body ∧
      (body ++ left).dropWhile (·.isIndented) = left := by
  rw [List.takeWhile_append_of_pos hbody, List.dropWhile_append_of_pos hbody]
  cases left with
  | nil => simp
  | cons next left => simp [hleft next rfl]

/-- The directives that start with a word. -/
def keywordLines : List (String × Scan Token) :=
  [("option", Scan.option), ("include", Scan.includeFile), ("unit", Scan.unit)]

theorem Scan.gives_of_keywordLines {P : Token → Prop} (hoption : Gives option P)
    (hinclude : Gives includeFile P) (hunit : Gives unit P) {word : String} {scan : Scan Token}
    (hmem : (word, scan) ∈ keywordLines) : Gives scan P := by
  simp only [keywordLines, List.mem_cons, List.not_mem_nil, or_false, Prod.mk.injEq] at hmem
  rcases hmem with ⟨-, rfl⟩ | ⟨-, rfl⟩ | ⟨-, rfl⟩
  · exact hoption
  · exact hinclude
  · exact hunit

/-- The directive that starts on a line, and the lines left below. -/
inductive DirectiveAt (line : Line) (below : List Line) : Token → List Line → Prop where
  | keyword {word : String} {scan : Scan Token} {t : Token} {next : Cursor} :
      (word, scan) ∈ keywordLines → scan line.cursor = .ok (t, next) →
      DirectiveAt line below t below
  | statement {t : Token} {left : List Line} : DatedAt line.cursor below t left →
      DirectiveAt line below ⟨.statement, t.text, t.position, [t]⟩ left

theorem startsWith_of_keywordLines {word : String} {scan : Scan Token}
    (hmem : (word, scan) ∈ keywordLines) {c next : Cursor} {t : Token}
    (h : scan c = .ok (t, next)) : Scan.startsWith word c.rest = true := by
  have hlineOf {rule : Rule} {k : Unit → Scan (List Token)}
      (h : Scan.lineOf rule (Scan.keyword word >>= k) c = .ok (t, next)) :
      Scan.startsWith word c.rest = true := by
    obtain ⟨_, _, hinner, _⟩ := Scan.lineOf_eq_ok_iff.1 h
    obtain ⟨_, _, hkeyword, _⟩ := Scan.bind_apply_eq_ok_iff.1 hinner
    exact (Scan.keyword_eq_ok_iff.1 hkeyword).1
  simp only [keywordLines, List.mem_cons, List.not_mem_nil, or_false, Prod.mk.injEq] at hmem
  rcases hmem with ⟨rfl, rfl⟩ | ⟨rfl, rfl⟩ | ⟨rfl, rfl⟩ <;> exact hlineOf h

/-- The first part of a dated statement is its date. -/
theorem exists_date_of_datedAt {c : Cursor} {below left : List Line} {t : Token}
    (h : DatedAt c below t left) : ∃ date children stop, t.children = date :: children ∧
      Scan.lexeme .date c = .ok (date, stop) := by
  cases h with
  | line hrule hline =>
    obtain ⟨date, _, children, _, hopening, -, -, rfl, -⟩ := Scan.datedLine_eq_ok_iff.1 hline
    obtain ⟨-, stop, hdate, -⟩ := Scan.opening_eq_ok_iff.1 hopening
    exact ⟨date, children, stop, rfl, hdate⟩
  | transaction hhead _ _ _ =>
    obtain ⟨_, hopening, -⟩ := Scan.transactionHead_eq_ok_iff.1 hhead
    obtain ⟨-, stop, hdate, -⟩ := Scan.opening_eq_ok_iff.1 hopening
    exact ⟨_, _, stop, rfl, hdate⟩

theorem hasForm_of_datedAt {c : Cursor} {below left : List Line} {t : Token}
    (h : DatedAt c below t left) : Date.hasForm (firstWord c.rest) = true := by
  obtain ⟨date, _, stop, -, hdate⟩ := exists_date_of_datedAt h
  unfold Scan.lexeme Lexeme.read? at hdate
  rw [if_neg (by decide)] at hdate
  by_contra hform
  simp [Lexeme.accepts, hform] at hdate

/-- A word at the front leaves no room for a blank there. -/
theorem head?_of_firstWord {cs : List Char} (hne : firstWord cs ≠ [])
    (h : ∀ c ∈ firstWord cs, isBlank c = false) : ¬ cs.head?.any isBlank = true := by
  cases cs with
  | nil => simp
  | cons c cs =>
    unfold firstWord at hne h
    rw [List.takeWhile_cons] at hne h
    split at hne
    · rename_i hc
      rw [if_pos hc] at h
      simp [h c List.mem_cons_self]
    · contradiction

theorem keyword_spelled {word : String} (h : word ∈ keywordLines.map Prod.fst) :
    word.toList ≠ [] ∧ word.toList.all (!endsWord ·) = true ∧
      ∀ c ∈ word.toList, isBlank c = false := by
  have hwords : ∀ word ∈ keywordLines.map Prod.fst, word.toList ≠ [] ∧
      word.toList.all (!endsWord ·) = true ∧ word.toList.all (!isBlank ·) = true := by decide
  obtain ⟨hne, hends, hink⟩ := hwords word h
  exact ⟨hne, hends, fun c hc => by simpa using List.all_eq_true.1 hink c hc⟩

theorem firstWord_of_keywordLines {word : String} {scan : Scan Token}
    (hmem : (word, scan) ∈ keywordLines) {c next : Cursor} {t : Token}
    (h : scan c = .ok (t, next)) : firstWord c.rest = word.toList :=
  firstWord_of_startsWith (keyword_spelled (List.mem_map_of_mem hmem)).2.1
    (startsWith_of_keywordLines hmem h)

theorem directive_of_keyword {line : Line} {below : List Line} {word : String} {scan : Scan Token}
    (hmem : (word, scan) ∈ keywordLines) {t : Token} {next : Cursor}
    (h : scan line.cursor = .ok (t, next)) : directive line below = .ok (t, below) := by
  have hstarts : Scan.startsWith word line.chars = true := startsWith_of_keywordLines hmem h
  have hfirst : firstWord line.chars = word.toList := firstWord_of_keywordLines hmem h
  obtain ⟨hne, _, hink⟩ := keyword_spelled (List.mem_map_of_mem hmem)
  have hblank : ¬ line.chars.head?.any isBlank = true :=
    head?_of_firstWord (hfirst ▸ hne) (hfirst ▸ hink)
  have hother {other : String} (hmem : other ∈ keywordLines.map Prod.fst) (hne : other ≠ word) :
      ¬ Scan.startsWith other line.chars = true := by
    intro hstarts'
    have hsame := firstWord_of_startsWith (keyword_spelled hmem).2.1 hstarts'
    exact hne (String.toList_inj.1 (hsame.symm.trans hfirst))
  unfold directive
  simp only [keywordLines, List.mem_cons, List.not_mem_nil, or_false, Prod.mk.injEq] at hmem ⊢
  rw [if_neg hblank]
  rcases hmem with ⟨rfl, rfl⟩ | ⟨rfl, rfl⟩ | ⟨rfl, rfl⟩
  · rw [if_pos hstarts, h]
    rfl
  · rw [if_neg (hother (by decide) (by decide)), if_pos hstarts, h]
    rfl
  · rw [if_neg (hother (by decide) (by decide)), if_neg (hother (by decide) (by decide)),
      if_pos hstarts, h]
    rfl

theorem directive_of_datedAt {line : Line} {below left : List Line} {t : Token}
    (h : DatedAt line.cursor below t left) :
    directive line below = .ok (⟨.statement, t.text, t.position, [t]⟩, left) := by
  have hform : Date.hasForm (firstWord line.chars) = true := hasForm_of_datedAt h
  have haccepts : Lexeme.date.accepts (firstWord line.chars) = true := hform
  obtain ⟨hne, hink⟩ := Lexeme.not_isBlank_of_accepts haccepts
  have hother {word : String} (hends : word.toList.all (!endsWord ·) = true)
      (hword : Date.hasForm word.toList = false) : ¬ Scan.startsWith word line.chars = true := by
    intro hstarts
    rw [firstWord_of_startsWith hends hstarts, hword] at hform
    contradiction
  obtain ⟨next, hdated⟩ := dated_none_iff.2 h
  unfold directive
  simp only
  rw [if_neg (head?_of_firstWord hne hink), if_neg (hother (by decide) (by decide)),
    if_neg (hother (by decide) (by decide)), if_neg (hother (by decide) (by decide)), if_pos hform,
    statement_eq_ok_iff.2 ⟨t, hdated, rfl⟩]
  rfl

theorem directive_eq_ok_iff {line : Line} {below left : List Line} {t : Token} :
    directive line below = .ok (t, left) ↔ DirectiveAt line below t left := by
  constructor
  · intro h
    rcases directive_cases line.chars with hstray | ⟨scan, hmem, hscan⟩ | hread
    · obtain ⟨stray, hstray, -⟩ := hstray line below rfl
      rw [hstray] at h
      contradiction
    · rw [hscan line below rfl] at h
      obtain ⟨⟨_, _⟩, hrun, heq⟩ := map_eq_ok_iff.1 h
      cases heq
      have hkeyword : scan ∈ keywordLines.map Prod.snd := hmem
      obtain ⟨⟨word, _⟩, hword, rfl⟩ := List.mem_map.1 hkeyword
      exact .keyword hword hrun
    · rw [hread line below rfl] at h
      obtain ⟨⟨⟨_, _⟩, next⟩, hrun, heq⟩ := map_eq_ok_iff.1 h
      cases heq
      obtain ⟨d, hdated, rfl⟩ := statement_eq_ok_iff.1 hrun
      exact .statement (dated_none_iff.1 ⟨next, hdated⟩)
  · intro h
    cases h with
    | keyword hmem hrun => exact directive_of_keyword hmem hrun
    | statement hdated => exact directive_of_datedAt hdated

/-- No directive starts on a vacant line. -/
theorem isVacant_of_directiveAt {line : Line} {below left : List Line} {t : Token}
    (h : DirectiveAt line below t left) : line.isVacant = false := by
  have hne : firstWord line.chars ≠ [] := by
    cases h with
    | keyword hmem hrun =>
      have hfirst : firstWord line.chars = _ := firstWord_of_keywordLines hmem hrun
      rw [hfirst]
      exact (keyword_spelled (List.mem_map_of_mem hmem)).1
    | statement hdated =>
      intro hnil
      have hform : Date.hasForm (firstWord line.chars) = true := hasForm_of_datedAt hdated
      rw [hnil] at hform
      contradiction
  rw [Bool.eq_false_iff]
  intro hvacant
  have hends : endsLine line.chars = true := (Cursor.atLineEnd_eq line.cursor).symm.trans hvacant
  exact hne (firstWord_of_endsHere (endsHere_of_endsLine hends))

end DoubleEntry
