import DoubleEntry.Proofs.Source.Line
import DoubleEntry.Proofs.Statement.Readable

/-! Where a date stands that no calendar has: at the front of the line of its statement. -/
namespace DoubleEntry

theorem Scan.place_of_lexeme {kind : Lexeme} {c next : Cursor} {t : Token}
    (h : lexeme kind c = .ok (t, next)) : t.position = c.position ∧ t.text.toList <+: c.rest := by
  unfold lexeme at h
  split at h
  · contradiction
  · rename_i text hread
    cases h
    exact ⟨rfl, by simpa [Token.leaf] using (Lexeme.read?_concat hread).1⟩

/-- If the directive has an impossible date, the date stands at the front of the line. -/
def Token.DatesFront (t : Token) (line : Line) : Prop :=
  ∀ text position, Directive.ofToken t = .error (.invalidDate text position) →
    position = ⟨line.number, 1⟩ ∧ text.toList <+: line.chars

theorem Token.datesFront_of_rule (line : Line) {rule : Rule}
    (h : rule = .option ∨ rule = .includeFile ∨ rule = .unit) (children : List Token)
    (text : String) (position : Position) : DatesFront ⟨rule, text, position, children⟩ line := by
  rcases h with rfl | rfl | rfl
  · rcases children with _ | ⟨key, _ | ⟨value, _ | _⟩⟩ <;> rintro _ _ ⟨⟩
  · rcases children with _ | ⟨path, _ | _⟩ <;> rintro _ _ ⟨⟩
  · rcases children with _ | ⟨code, _ | _⟩ <;> rintro _ _ ⟨⟩

theorem Scan.gives_datesFront (line : Line) {inner : Scan (List Token)} {rule : Rule}
    (h : rule = .option ∨ rule = .includeFile ∨ rule = .unit) :
    Gives (lineOf rule inner) fun t => t.DatesFront line :=
  Gives.lineOf ((gives_any inner).mono fun children _ => Token.datesFront_of_rule line h children)

theorem datesFront_of_directiveAt {line : Line} {below left : List Line} {t : Token}
    (h : DirectiveAt line below t left) : t.DatesFront line := by
  cases h with
  | keyword hmem hrun =>
    exact Scan.gives_of_keywordLines (Scan.gives_datesFront line (by simp))
      (Scan.gives_datesFront line (by simp)) (Scan.gives_datesFront line (by simp)) hmem _ _ _ hrun
  | @statement d left hdated =>
    obtain ⟨date, children, stop, hparts, hrun⟩ := exists_date_of_datedAt hdated
    obtain ⟨build, -, hmeaning⟩ := (areArguments_of_datedAt hdated hparts).ofToken
    obtain ⟨rule, text, position, parts⟩ := d
    cases hparts
    intro bad place herror
    rw [hmeaning, Date.ofToken] at herror
    cases hdate : Date.ofText? date.text with
    | some day =>
      rw [hdate] at herror
      contradiction
    | none =>
      rw [hdate] at herror
      cases herror
      exact Scan.place_of_lexeme hrun

theorem Source.exists_datesFront_of_mem {s : Source} {tokens : List Token}
    (h : s.tokens = .ok tokens) {t : Token} (ht : t ∈ tokens) :
    ∃ line ∈ s.lines, t.DatesFront line :=
  exists_line_of_directives s.linesFrom_lines (fun _ _ _ _ hdirective =>
    datesFront_of_directiveAt (directive_eq_ok_iff.1 hdirective))
    (mapError_eq_ok_iff.1 h) t ht

end DoubleEntry
