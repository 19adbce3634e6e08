import DoubleEntry.Proofs.Token.Alone

/-! Reading a text as one directive, and reading all its directives. -/
namespace DoubleEntry

open Text

namespace Source

/-- What comes first on the lines, but for gaps and comments, starts its line. -/
def StartsFlush (s : Source) : Prop :=
  ∀ line ∈ s.lines.find? (!·.isVacant), line.chars.head?.any isGap = false

instance (s : Source) : Decidable s.StartsFlush :=
  decidable_of_iff ((s.lines.find? (!·.isVacant)).all
    fun line => !line.chars.head?.any isGap) (by
      unfold StartsFlush
      cases s.lines.find? (!·.isVacant) <;> simp)

variable {s : Source} {rule : Rule} {t : Token}

theorem token_eq_ok_iff (hrule : rule ≠ .ledger) : s.token rule = .ok t ↔
    ∃ scan left stop, Scan.ofRule? rule (firstPlace s.firstLine s.laterLines).2 = some scan ∧
      scan (firstPlace s.firstLine s.laterLines).1 = .ok ((t, left), stop) ∧
      stop.atLineEnd = true ∧ directives left = .ok [] := by
  unfold token
  rw [if_neg hrule]
  generalize firstPlace s.firstLine s.laterLines = place
  obtain ⟨start, below⟩ := place
  cases hscan : Scan.ofRule? rule below with
  | none => simp [hscan]
  | some scan =>
    simp only [hscan, mapError_eq_ok_iff, bind_eq_ok_iff, ← requireEnd_eq_ok_iff]
    constructor
    · rintro ⟨⟨⟨token, left⟩, stop⟩, hrun, _, hend, hpure⟩
      cases hpure
      exact ⟨scan, left, stop, rfl, hrun, hend⟩
    · rintro ⟨_, left, stop, hsame, hrun, hend⟩
      cases hsame
      exact ⟨_, hrun, (), hend, rfl⟩

/-- A text without line feeds is read from the front of its one line to the end of it. -/
theorem token_of_line_eq_ok_iff {text : String} (hfeed : '\n' ∉ text.toList) {name : Option String}
    (hrule : rule ≠ .ledger) {scan : Scan Token}
    (hscan : Scan.ofRule? rule [] = some ((·, []) <$> scan)) :
    (ofText text name).token rule = .ok t ↔
      ∃ stop, scan (firstPlace ⟨1, 0, text.toList⟩ []).1 = .ok (t, stop) ∧ stop.atLineEnd = true := by
  have hbelow (line : Line) : (firstPlace line []).2 = [] := by
    unfold firstPlace
    split <;> rfl
  obtain ⟨hfirst, hlater⟩ := lines_of_lineFeed_not_mem hfeed name
  rw [token_eq_ok_iff hrule, hfirst, hlater, hbelow, hscan]
  constructor
  · rintro ⟨_, left, stop, hsame, hrun, hend, -⟩
    cases hsame
    exact ⟨stop, (map_apply_eq_ok_iff.1 hrun).2, hend⟩
  · rintro ⟨stop, hrun, hend⟩
    exact ⟨_, [], stop, rfl, map_apply_eq_ok_iff.2 ⟨rfl, hrun⟩, hend, directives_nil⟩

/-- A rule that can be read by itself fails only where the text does not fit it. -/
theorem exists_token_eq_error (hrule : rule ≠ .ledger)
    (hscan : ∀ below, ∃ scan, Scan.ofRule? rule below = some scan) (h : ∀ t, s.token rule ≠ .ok t) :
    ∃ error, s.token rule = .error (.stray error) := by
  cases htoken : s.token rule with
  | ok t => exact absurd htoken (h t)
  | error error =>
    obtain ⟨scan, hof⟩ := hscan (firstPlace s.firstLine s.laterLines).2
    unfold token at htoken
    simp only [if_neg hrule, hof] at htoken
    generalize (scan _ >>= _) = result at htoken
    cases result with
    | ok t => contradiction
    | error stray =>
      cases htoken
      exact ⟨_, rfl⟩

/-- One directive of a rule, and the text read by that rule. -/
theorem token_eq_ok_iff_tokens (hflush : s.StartsFlush) (hrule : rule ∈ directiveRules) :
    s.token rule = .ok t ↔ s.tokens = .ok [t] ∧ t.rule = rule := by
  have hledger : rule ≠ .ledger := by
    rintro rfl
    contradiction
  have htokens : s.tokens = .ok [t] ↔ directives s.lines = .ok [t] := mapError_eq_ok_iff
  obtain ⟨vacants, line, below, hlines, hvacants, hplace⟩ :=
    firstPlace_spec s.firstLine s.laterLines
  have hlines : s.lines = vacants ++ line :: below := hlines
  rw [token_eq_ok_iff hledger, htokens, hlines, directives_append_of_isVacant hvacants]
  rcases hplace with ⟨hink, hplace⟩ | ⟨hvacant, rfl, hplace⟩
  · have hfind : s.lines.find? (!·.isVacant) = some line := by
      rw [hlines, List.find?_append, List.find?_eq_none.2 (by simpa using hvacants), Option.none_or,
        List.find?_cons_of_pos (by simp [hink])]
    have hcursor : line.cursor.skipGap = line.cursor := by
      have hhead := hflush line hfind
      have hgap : line.chars.takeWhile isGap = [] := by
        by_contra hne
        rw [takeWhile_ne_nil_iff.1 hne] at hhead
        contradiction
      change line.cursor.advance (line.chars.takeWhile isGap).length = _
      rw [hgap]
      rfl
    rw [hplace, hcursor, directives_eq_singleton_iff hink]
    constructor
    · rintro ⟨scan, left, stop, hof, hrun, hend, hleft⟩
      obtain ⟨hat, hsame⟩ := (ofRule?_eq_ok_iff hrule).1 ⟨scan, stop, hof, hrun, hend⟩
      exact ⟨⟨left, hat, hleft⟩, hsame⟩
    · rintro ⟨⟨left, hat, hleft⟩, hsame⟩
      obtain ⟨scan, stop, hof, hrun, hend⟩ := (ofRule?_eq_ok_iff hrule).2 ⟨hat, hsame⟩
      exact ⟨scan, left, stop, hof, hrun, hend, hleft⟩
  · rw [hplace, directives_of_isVacant hvacant, directives_nil]
    refine iff_of_false ?_ fun h => by cases h.1
    rintro ⟨scan, left, stop, hof, hrun, _⟩
    exact ofRule?_ne_ok hrule line.cursor.rest_toLineEnd hof _ hrun

theorem ofRule?_of_mem_datedRules (h : rule ∈ datedRules) (below : List Line) :
    Scan.ofRule? rule below = some (dated rule below) := by
  simp only [datedRules, List.mem_cons, List.not_mem_nil, or_false] at h
  rcases h with rfl | rfl | rfl | rfl | rfl | rfl | rfl <;> rfl

/-- The statement inside is read by its own rule, and by no other. -/
theorem exists_dated_of_token (h : s.token .statement = .ok t) :
    ∃ d, t.children = [d] ∧ d.rule ∈ datedRules ∧ ∀ other ∈ datedRules,
      ∀ u, s.token other = .ok u ↔ other = d.rule ∧ u = d := by
  obtain ⟨_, left, stop, hof, hrun, hend, hleft⟩ := (token_eq_ok_iff (by decide)).1 h
  cases hof
  obtain ⟨d, hdated, rfl⟩ := statement_eq_ok_iff.1 hrun
  refine ⟨d, rfl, rule_mem_datedRules (dated_none_iff.1 ⟨stop, hdated⟩), fun other hother u => ?_⟩
  have hledger : other ≠ .ledger := by
    rintro rfl
    contradiction
  rw [token_eq_ok_iff hledger, ofRule?_of_mem_datedRules hother]
  constructor
  · rintro ⟨_, _, _, hsame, hrun', _⟩
    cases hsame
    obtain ⟨rfl, hdated'⟩ := dated_some_eq_ok_iff.1 hrun'
    rw [hdated] at hdated'
    cases hdated'
    exact ⟨rfl, rfl⟩
  · rintro ⟨rfl, rfl⟩
    exact ⟨_, left, stop, rfl, dated_some_eq_ok_iff.2 ⟨rfl, hdated⟩, hend, hleft⟩

/-- A text that does not start with a gap is read by the rule of a directive exactly if it holds one
directive of that rule and no other, and then as that directive. If that is a statement with a date,
it is also read by its own rule, and not by the rule of another kind of statement. -/
theorem token_alone {text : String} {name : Option String}
    (hflush : (ofText text name).StartsFlush) :
    (∀ rule ∈ directiveRules, ∀ t, (ofText text name).token rule = .ok t ↔
      (ofText text name).tokens = .ok [t] ∧ t.rule = rule) ∧
    ∀ t, (ofText text name).token .statement = .ok t →
      ∃ d, t.children = [d] ∧ d.rule ∈ datedRules ∧ (ofText text name).token d.rule = .ok d ∧
        ∀ other ∈ datedRules, other ≠ d.rule →
          ∃ error, (ofText text name).token other = .error (.stray error) := by
  refine ⟨fun rule hrule t => token_eq_ok_iff_tokens hflush hrule, fun t ht => ?_⟩
  obtain ⟨d, hchildren, hmem, hiff⟩ := exists_dated_of_token ht
  refine ⟨d, hchildren, hmem, (hiff d.rule hmem d).2 ⟨rfl, rfl⟩, fun other hother hne => ?_⟩
  have hledger : other ≠ .ledger := by
    rintro rfl
    contradiction
  exact exists_token_eq_error hledger (fun below => ⟨_, ofRule?_of_mem_datedRules hother below⟩)
    fun u hu => hne ((hiff other hother u).1 hu).1

def mealText : String :=
  "; food\n \t; and drink\n2021-10-28 # \"Meals\" ; weekly\n  Expenses:Food  40 EUR ; or so\n" ++
    "\tAssets:Cash\n ; in cash\n\n;\n  "

/-- A transaction with comments and blank lines around it. -/
theorem token_alone_meals :
    (ofText mealText none).StartsFlush ∧
      ∃ t, (ofText mealText none).tokens = .ok [t] ∧
        (ofText mealText none).token .statement = .ok t ∧
        ∃ d, t.children = [d] ∧ d.rule = .transaction ∧
          (ofText mealText none).token .transaction = .ok d ∧
          ∃ error, (ofText mealText none).token .pad = .error (.stray error) := by
  have hflush : (ofText mealText none).StartsFlush := by decide +kernel
  have hread : ((ofText mealText none).token .statement).toOption.map
      (·.children.map (·.rule)) = some [.transaction] := by decide +kernel
  obtain ⟨t, ht, hrules⟩ := Option.map_eq_some_iff.1 hread
  rw [toOption_eq_some_iff] at ht
  obtain ⟨hiff, hinner⟩ := token_alone hflush
  obtain ⟨d, hchildren, _, hown, hothers⟩ := hinner t ht
  have hrule : d.rule = .transaction := by simpa [hchildren] using hrules
  rw [hrule] at hown hothers
  exact ⟨hflush, t, ((hiff .statement (by decide) t).1 ht).1, ht, d, hchildren, hrule, hown,
    hothers .pad (by decide) (by decide)⟩

end Source
end DoubleEntry
