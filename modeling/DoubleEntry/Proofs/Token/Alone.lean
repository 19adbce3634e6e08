import DoubleEntry.Proofs.Token.Comment
import DoubleEntry.Proofs.Token.Directive

/-! Texts that hold one token: where it is read from, and what may stand around it. -/
namespace DoubleEntry

open Text

/-- Reading starts on the first line that is not vacant, or at the end of the last line. -/
theorem firstPlace_spec (line : Line) (below : List Line) :
    ∃ vacants next left, line :: below = vacants ++ next :: left ∧
      (∀ other ∈ vacants, other.isVacant = true) ∧
      (next.isVacant = false ∧ firstPlace line below = (next.cursor.skipGap, left) ∨
        next.isVacant = true ∧ left = [] ∧
          firstPlace line below = (next.cursor.toLineEnd, [])) := by
  induction below generalizing line with
  | nil =>
    refine ⟨[], line, [], rfl, by simp, ?_⟩
    cases hvacant : line.isVacant with
    | true => exact .inr ⟨rfl, rfl, by rw [firstPlace, if_pos hvacant]⟩
    | false => exact .inl ⟨rfl, by rw [firstPlace, if_neg (by simp [hvacant])]⟩
  | cons next below ih =>
    cases hvacant : line.isVacant with
    | true =>
      obtain ⟨vacants, place, left, hlines, hvacants, hplace⟩ := ih next
      refine ⟨line :: vacants, place, left, by rw [hlines]; rfl,
        List.forall_mem_cons.2 ⟨hvacant, hvacants⟩, ?_⟩
      rwa [firstPlace, if_pos hvacant]
    | false =>
      exact ⟨[], line, next :: below, rfl, by simp, .inl ⟨hvacant, by
        rw [firstPlace, if_neg (by simp [hvacant])]⟩⟩

theorem directives_eq_nil_iff {lines : List Line} :
    directives lines = .ok [] ↔ ∀ line ∈ lines, line.isVacant = true := by
  constructor
  · intro h
    induction lines with
    | nil => simp
    | cons line lines ih =>
      cases hvacant : line.isVacant with
      | true =>
        rw [directives_of_isVacant hvacant] at h
        exact List.forall_mem_cons.2 ⟨hvacant, ih h⟩
      | false =>
        obtain ⟨_, _, _, _, _, hnil⟩ := exists_directive_of_directives hvacant h
        contradiction
  · intro h
    have happend : directives (lines ++ []) = directives [] := directives_append_of_isVacant h
    rwa [List.append_nil, directives_nil] at happend

theorem requireEnd_eq_ok_iff {c : Cursor} {below : List Line} :
    requireEnd c below = .ok () ↔ c.atLineEnd = true ∧ directives below = .ok [] := by
  rw [directives_eq_nil_iff]
  unfold requireEnd
  split
  · rename_i hend
    split
    · rename_i hnone
      simpa [hend] using hnone
    · rename_i line hsome
      refine iff_of_false (fun h => by contradiction) fun h => ?_
      have hink := List.find?_some hsome
      rw [h.2 line (List.mem_of_find?_eq_some hsome)] at hink
      contradiction
  · rename_i hend
    simp [hend]

/-- One directive and nothing else. -/
theorem directives_eq_singleton_iff {line : Line} (hvacant : line.isVacant = false)
    {below : List Line} {t : Token} : directives (line :: below) = .ok [t] ↔
      ∃ left, DirectiveAt line below t left ∧ directives left = .ok [] := by
  constructor
  · intro h
    obtain ⟨token, left, rest, hdirective, hrest, heq⟩ := exists_directive_of_directives hvacant h
    cases heq
    exact ⟨left, directive_eq_ok_iff.1 hdirective, hrest⟩
  · rintro ⟨left, hat, hrest⟩
    rw [directives_of_directive hvacant (directive_eq_ok_iff.2 hat), hrest]
    rfl

/-! ## Rules by themselves -/

/-- The rules of whole directives. -/
def directiveRules : List Rule := [.option, .includeFile, .unit, .statement]

/-- The rules of statements with a date. -/
def datedRules : List Rule :=
  [.custom, .openAccount, .closeAccount, .pad, .balance, .price, .transaction]

theorem map_apply_eq_ok_iff {below left : List Line} {scan : Scan Token} {c stop : Cursor}
    {t : Token} : ((·, below) <$> scan) c = .ok ((t, left), stop) ↔
      left = below ∧ scan c = .ok (t, stop) := by
  change (scan >>= fun t => pure (t, below)) c = _ ↔ _
  rw [Scan.bind_apply_eq_ok_iff]
  constructor
  · rintro ⟨_, _, hrun, hpure⟩
    cases hpure
    exact ⟨rfl, hrun⟩
  · rintro ⟨rfl, hrun⟩
    exact ⟨t, stop, hrun, rfl⟩

theorem rule_of_lineOf {rule : Rule} {inner : Scan (List Token)} {c next : Cursor} {t : Token}
    (h : Scan.lineOf rule inner c = .ok (t, next)) : t.rule = rule ∧ next.atLineEnd = true := by
  obtain ⟨_, middle, _, _, rfl, rfl⟩ := Scan.lineOf_eq_ok_iff.1 h
  exact ⟨rfl, Scan.atLineEnd_of_nil middle.rest_toLineEnd⟩

/-- What is read of a dated statement behind its date and keyword. -/
def datedRest (start : Cursor) (below : List Line) (opened : Token × Rule) :
    Scan (Token × List Line) :=
  if opened.2 = .transaction then do
    let token ← transactionFrom start opened.1 below
    return (token, below.dropWhile (·.isIndented))
  else do
    let children ← Scan.arguments opened.2
    let token ← Scan.nodeFrom start opened.2 (opened.1 :: children)
    Scan.lineEnd
    return (token, below)

theorem dated_eq_ok_iff {wanted : Option Rule} {below : List Line} {c next : Cursor}
    {found : Token × List Line} : dated wanted below c = .ok (found, next) ↔ ∃ opened stop,
      Scan.opening wanted c = .ok (opened, stop) ∧
        datedRest c below opened stop = .ok (found, next) := by
  change (Scan.opening wanted >>= datedRest c below) c = _ ↔ _
  rw [Scan.bind_apply_eq_ok_iff]

/-- The rule is the one that was opened, and the line is read up to its end. -/
theorem rule_of_datedRest {start c next : Cursor} {below left : List Line}
    {opened : Token × Rule} {t : Token}
    (h : datedRest start below opened c = .ok ((t, left), next)) :
    t.rule = opened.2 ∧ next.atLineEnd = true := by
  unfold datedRest at h
  split at h
  · rename_i hrule
    obtain ⟨_, _, htransaction, hpure⟩ := Scan.bind_apply_eq_ok_iff.1 h
    cases hpure
    obtain ⟨_, middle, _, _, _, rfl, _, _, rfl⟩ := transactionFrom_eq_ok_iff.1 htransaction
    exact ⟨hrule.symm, Scan.atLineEnd_of_nil middle.rest_toLineEnd⟩
  · simp only [Scan.bind_apply_eq_ok_iff, Scan.lineEnd_eq_ok_iff] at h
    obtain ⟨_, middle, _, _, _, hnode, _, _, ⟨_, rfl⟩, hpure⟩ := h
    cases hnode
    cases hpure
    exact ⟨rfl, Scan.atLineEnd_of_nil middle.rest_toLineEnd⟩

/-- Asking for a rule only says which statement it has to be. -/
theorem dated_some_eq_ok_iff {wanted : Rule} {below left : List Line} {c next : Cursor}
    {t : Token} : dated wanted below c = .ok ((t, left), next) ↔
      t.rule = wanted ∧ dated none below c = .ok ((t, left), next) := by
  rw [dated_eq_ok_iff, dated_eq_ok_iff]
  constructor
  · rintro ⟨⟨date, rule⟩, stop, hopening, hrest⟩
    obtain ⟨rfl, hopened⟩ := Scan.opening_some_eq_ok_iff.1 hopening
    exact ⟨(rule_of_datedRest hrest).1, _, stop, hopened, hrest⟩
  · rintro ⟨hrule, ⟨date, rule⟩, stop, hopened, hrest⟩
    obtain rfl : rule = wanted := (rule_of_datedRest hrest).1.symm.trans hrule
    exact ⟨_, stop, Scan.opening_some_eq_ok_iff.2 ⟨rfl, hopened⟩, hrest⟩

theorem rule_mem_datedRules {c : Cursor} {below left : List Line} {t : Token}
    (h : DatedAt c below t left) : t.rule ∈ datedRules := by
  cases h with
  | line hrule hline =>
    obtain ⟨_, stop, _, _, hopening, _, _, rfl, _⟩ := Scan.datedLine_eq_ok_iff.1 hline
    have hwords : ∀ rule ∈ Scan.statementWords.map Prod.snd, rule ∈ datedRules := by decide
    exact hwords _ ((Scan.rule_of_opening hopening).resolve_left hrule)
  | transaction _ _ _ _ =>
    have htransaction : Rule.transaction ∈ datedRules := by decide
    exact htransaction

/-- How a directive with a keyword is read, by its rule. -/
def keywordScan? : Rule → Option (Scan Token)
  | .option => some Scan.option
  | .includeFile => some Scan.includeFile
  | .unit => some Scan.unit
  | _ => none

theorem keywordScan?_of_mem {word : String} {scan : Scan Token} (hmem : (word, scan) ∈ keywordLines)
    {c next : Cursor} {t : Token} (hrun : scan c = .ok (t, next)) :
    keywordScan? t.rule = some scan ∧ next.atLineEnd = true := by
  have hline {rule : Rule} {inner : Scan (List Token)} (hscan : scan = Scan.lineOf rule inner) :
      keywordScan? t.rule = keywordScan? rule ∧ next.atLineEnd = true := by
    obtain ⟨hrule, hend⟩ := rule_of_lineOf (hscan ▸ hrun)
    exact ⟨congrArg keywordScan? hrule, hend⟩
  simp only [keywordLines, List.mem_cons, List.not_mem_nil, or_false, Prod.mk.injEq] at hmem
  rcases hmem with ⟨-, rfl⟩ | ⟨-, rfl⟩ | ⟨-, rfl⟩ <;> exact hline rfl

theorem mem_of_keywordScan? {rule : Rule} {scan : Scan Token} (h : keywordScan? rule = some scan) :
    (rule.name, scan) ∈ keywordLines ∧
      (∀ below, Scan.ofRule? rule below = some ((·, below) <$> scan)) ∧
      ∀ c next t, scan c = .ok (t, next) → t.rule = rule := by
  unfold keywordScan? at h
  split at h
  · cases h
    exact ⟨by simp [keywordLines, Rule.name], fun _ => rfl,
      fun _ _ _ hrun => (rule_of_lineOf hrun).1⟩
  · cases h
    exact ⟨by simp [keywordLines, Rule.name], fun _ => rfl,
      fun _ _ _ hrun => (rule_of_lineOf hrun).1⟩
  · cases h
    exact ⟨by simp [keywordLines, Rule.name], fun _ => rfl,
      fun _ _ _ hrun => (rule_of_lineOf hrun).1⟩
  · contradiction

theorem kind_of_mem_directiveRules {rule : Rule} (h : rule ∈ directiveRules) :
    rule = .statement ∨ ∃ scan, keywordScan? rule = some scan := by
  simp only [directiveRules, List.mem_cons, List.not_mem_nil, or_false] at h
  rcases h with rfl | rfl | rfl | rfl
  · exact .inr ⟨_, rfl⟩
  · exact .inr ⟨_, rfl⟩
  · exact .inr ⟨_, rfl⟩
  · exact .inl rfl

/-- By the rule of a directive just the directives of that rule are read, each from the start of its
line. -/
theorem ofRule?_eq_ok_iff {rule : Rule} (hrule : rule ∈ directiveRules) {line : Line}
    {below left : List Line} {t : Token} :
    (∃ scan stop, Scan.ofRule? rule below = some scan ∧
      scan line.cursor = .ok ((t, left), stop) ∧ stop.atLineEnd = true) ↔
        DirectiveAt line below t left ∧ t.rule = rule := by
  rcases kind_of_mem_directiveRules hrule with rfl | ⟨scan, hscan⟩
  · constructor
    · rintro ⟨_, stop, hof, hrun, _⟩
      cases hof
      obtain ⟨d, hdated, rfl⟩ := statement_eq_ok_iff.1 hrun
      exact ⟨.statement (dated_none_iff.1 ⟨stop, hdated⟩), rfl⟩
    · rintro ⟨hat, hstatement⟩
      cases hat with
      | keyword hmem hrun =>
        have hscan := (keywordScan?_of_mem hmem hrun).1
        rw [hstatement] at hscan
        contradiction
      | statement hdated =>
        obtain ⟨stop, hdated⟩ := dated_none_iff.2 hdated
        obtain ⟨opened, middle, _, hrest⟩ := dated_eq_ok_iff.1 hdated
        exact ⟨_, stop, rfl, statement_eq_ok_iff.2 ⟨_, hdated, rfl⟩, (rule_of_datedRest hrest).2⟩
  · obtain ⟨hmem, hof, hgives⟩ := mem_of_keywordScan? hscan
    constructor
    · rintro ⟨_, stop, hof', hrun, _⟩
      rw [hof] at hof'
      cases hof'
      obtain ⟨rfl, hread⟩ := map_apply_eq_ok_iff.1 hrun
      exact ⟨.keyword hmem hread, hgives _ _ _ hread⟩
    · rintro ⟨hat, rfl⟩
      cases hat with
      | keyword hmem' hrun =>
        obtain ⟨hsame, hend⟩ := keywordScan?_of_mem hmem' hrun
        cases hscan.symm.trans hsame
        exact ⟨_, _, hof _, map_apply_eq_ok_iff.2 ⟨rfl, hrun⟩, hend⟩
      | statement _ => contradiction

/-- No directive is read from the end of a line. -/
theorem ofRule?_ne_ok {rule : Rule} (hrule : rule ∈ directiveRules) {c : Cursor}
    (hrest : c.rest = []) {below : List Line} {scan : Scan (Token × List Line)}
    (hscan : Scan.ofRule? rule below = some scan) (found : (Token × List Line) × Cursor) :
    scan c ≠ .ok found := by
  obtain ⟨⟨t, left⟩, stop⟩ := found
  intro hrun
  rcases kind_of_mem_directiveRules hrule with rfl | ⟨inner, hinner⟩
  · cases hscan
    obtain ⟨d, hdated, rfl⟩ := statement_eq_ok_iff.1 hrun
    have hform := hasForm_of_datedAt (dated_none_iff.1 ⟨stop, hdated⟩)
    rw [hrest] at hform
    contradiction
  · obtain ⟨hmem, hof, _⟩ := mem_of_keywordScan? hinner
    rw [hof] at hscan
    cases hscan
    obtain ⟨_, hread⟩ := map_apply_eq_ok_iff.1 hrun
    have hstarts := startsWith_of_keywordLines hmem hread
    rw [hrest, Scan.startsWith, List.drop_nil, List.head?_nil, Option.any_none,
      Bool.and_false] at hstarts
    contradiction

end DoubleEntry
