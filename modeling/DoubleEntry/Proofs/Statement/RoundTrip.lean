import DoubleEntry.Proofs.Statement.Dated
import DoubleEntry.Proofs.Token.Directive

/-! The lines of a directive are read as that directive, whatever follows that does not belong to it. -/
namespace DoubleEntry

open Scan Text

/-! ## Lines of postings -/

theorem AccountName.exists_head (a : AccountName) :
    ∃ c rest, a.chars = c :: rest ∧ isBlank c = false ∧ isInk c = true := by
  obtain ⟨c, cs, hkind, hc⟩ : ∃ c cs, a.kind.text.toList = c :: cs ∧
      isBlank c = false ∧ isInk c = true := by
    cases a.kind <;> exact ⟨_, _, rfl, by decide, by decide⟩
  unfold chars joinWith
  rw [hkind]
  cases a.segments with
  | nil => exact ⟨c, cs, by simp, hc⟩
  | cons segment segments =>
    rw [List.map_cons, List.intercalate_cons_cons]
    exact ⟨c, _, rfl, hc⟩

/-- A line that starts with spaces and then has ink on it. -/
theorem Line.indented_of_ink {line : Line} {c : Char} {rest : List Char}
    (h : line.chars = "    ".toList ++ c :: rest) (hblank : isBlank c = false)
    (hink : isInk c = true) :
    line.isIndented = true ∧ line.isComment = false ∧ line.cursor.skipGap.rest = c :: rest := by
  have hchars : line.chars = ' ' :: ' ' :: ' ' :: ' ' :: c :: rest := h
  have hmark : c ≠ commentMark := by
    rintro rfl
    contradiction
  have hspace : isBlank ' ' = true := by decide
  refine ⟨?_, ?_, ?_⟩
  · unfold isIndented
    simp [hchars, hblank, hspace]
  · unfold isComment trimStart
    simp [hchars, hblank, hspace, hmark]
  · rw [Cursor.rest_skipGap]
    change line.chars.dropWhile isGap = _
    rw [hchars]
    simp [isGap_of_isInk hink, show isGap ' ' = true from rfl]

theorem Posting.exists_line (p : Posting) {line : Line} (h : line.chars = p.line) :
    line.isIndented = true ∧ line.isComment = false ∧ line.cursor.skipGap.rest =
      spaced (p.account.chars :: (p.amount.map Amount.chars).toList) := by
  obtain ⟨c, rest, hchars, hblank, hink⟩ := p.account.exists_head
  have hspaced := spaced_cons p.account.chars (p.amount.map Amount.chars).toList
  rw [hchars, List.cons_append] at hspaced
  unfold Posting.line at h
  rw [hchars, hspaced] at h
  rw [hchars, hspaced]
  exact Line.indented_of_ink h hblank hink

theorem postingsOf_lines {ps : List Posting} (hps : ∀ p ∈ ps, p.isWritable = true)
    {body : List Line} (hbody : body.map Line.chars = ps.map Posting.line) :
    (∀ line ∈ body, line.isIndented = true) ∧
      ∃ postings, postingsOf body = .ok postings ∧
        List.Forall₂ Token.IsPostingOf postings ps := by
  induction ps generalizing body with
  | nil =>
    obtain rfl : body = [] := by simpa using hbody
    exact ⟨by simp, [], rfl, .nil⟩
  | cons p ps ih =>
    obtain ⟨line, below, rfl, hline, hbelow⟩ := List.map_eq_cons_iff.1 hbody
    obtain ⟨hindented, hcomment, hrest⟩ := p.exists_line hline
    obtain ⟨hall, postings, hpostings, hmeaning⟩ := ih (fun p hp => hps p (by simp [hp])) hbelow
    obtain ⟨t, next, hrun, _, ht⟩ := Scan.reads_posting (hps p (by simp)) line.cursor.skipGap
      (by rw [hrest, List.append_nil])
    refine ⟨by simpa [hindented] using hall, t :: postings, ?_, .cons ht hmeaning⟩
    unfold postingsOf at hpostings ⊢
    rw [List.filter_cons_of_pos (by simp [hcomment]), List.mapM_cons, hpostings, hrun]
    rfl

/-! ## Directives -/

/-- Means the directive, up to how its numbers are written. -/
def Token.IsDirectiveOf (t : Token) (d : Directive) : Prop :=
  ∃ directive, Directive.ofToken t = .ok directive ∧ directive.canonical = d.canonical

theorem chars_of_map_eq_singleton {line : Line} {body : List Line} {cs : List Char}
    (h : (line :: body).map Line.chars = [cs]) : line.chars = cs ∧ body = [] := by
  rw [List.map_cons] at h
  obtain ⟨hline, hbody⟩ := List.cons.inj h
  exact ⟨hline, List.map_eq_nil_iff.1 hbody⟩

theorem directive_of_alone {word : String} {scan : Scan Token} {line : Line} {body : List Line}
    {cs : List Char} {d : Directive} (hmem : (word, scan) ∈ keywordLines)
    (hlines : (line :: body).map Line.chars = [cs])
    (h : Scan.Reads scan cs [] (·.IsDirectiveOf d)) (left : List Line) :
    ∃ t, directive line (body ++ left) = .ok (t, left) ∧ t.IsDirectiveOf d := by
  obtain ⟨hchars, rfl⟩ := chars_of_map_eq_singleton hlines
  obtain ⟨t, next, hrun, _, ht⟩ := h line.cursor (by rw [List.append_nil]; exact hchars)
  exact ⟨t, directive_of_keyword hmem hrun, ht⟩

namespace Scan

theorem reads_option {key value : String} (hkey : isQuotable key = true)
    (hvalue : isQuotable value = true) :
    Reads option (spaced ["option".toList, quotedChars key, quotedChars value]) []
      (·.IsDirectiveOf (.option key value)) := by
  rw [spaced_cons_cons, spaced_cons_cons, spaced_singleton]
  apply Reads.lineOf
  refine (reads_keyword "option" _).bind fun _ _ => Reads.gap (startsInk_quotedChars key) ?_
  refine (reads_string hkey rfl).bind fun k hk => Reads.gap (startsInk_quotedChars value) ?_
  refine (reads_string hvalue rfl).close fun v hv => Reads.pure fun text position => ?_
  cases hk
  cases hv
  exact ⟨.option k.value v.value, rfl, rfl⟩

theorem reads_includeFile {path : String} (hpath : isQuotable path = true) :
    Reads includeFile (spaced ["include".toList, quotedChars path]) []
      (·.IsDirectiveOf (.includeFile path)) := by
  rw [spaced_cons_cons, spaced_singleton]
  apply Reads.lineOf
  refine (reads_keyword "include" _).bind fun _ _ => Reads.gap (startsInk_quotedChars path) ?_
  refine (reads_string hpath rfl).close fun p hp => Reads.pure fun text position => ?_
  cases hp
  exact ⟨.includeFile p.value, rfl, rfl⟩

theorem reads_unit {code : String} (hcode : Lexeme.isCurrency code.toList = true) :
    Reads unit (spaced ["unit".toList, code.toList]) []
      (·.IsDirectiveOf (.statement (.unit code))) := by
  rw [spaced_cons_cons, spaced_singleton]
  apply Reads.lineOf
  refine (reads_keyword "unit" _).bind fun _ _ => Reads.gap ((startsInk_code hcode).append _) ?_
  refine (reads_currency hcode rfl).close fun c hc => Reads.pure fun text position => ?_
  cases hc
  exact ⟨.statement (.unit c.text), rfl, rfl⟩

end Scan

theorem Line.isVacant_of_startsInk {line : Line} (h : StartsInk line.chars) : line.isVacant = false := by
  unfold isVacant Cursor.atLineEnd
  rw [Cursor.rest_skipGap]
  change (line.chars.dropWhile isGap).head?.all (· == commentMark) = false
  rw [h.dropWhile_isGap]
  generalize line.chars = cs at h
  cases cs with
  | nil => contradiction
  | cons c cs =>
    have hmark : c ≠ commentMark := by
      rintro rfl
      contradiction
    simpa using hmark

section

variable {line : Line} {below left : List Line} {day : Date} {s : Statement}

theorem directive_of_dated (h : Scan.Reads (dated none below) line.chars [] fun found =>
      found.1.IsStatementOf s ∧ found.2 = left) :
    ∃ t, directive line below = .ok (t, left) ∧ t.IsDirectiveOf (.statement s) := by
  obtain ⟨⟨t, rest⟩, next, hrun, _, ⟨meant, hs, hcanonical⟩, rfl⟩ :=
    h line.cursor (List.append_nil _).symm
  exact ⟨_, directive_of_datedAt (dated_none_iff.1 ⟨next, hrun⟩), .statement meant,
    map_eq_ok_iff.2 ⟨meant, hs, rfl⟩, congrArg Directive.statement hcanonical⟩

theorem directive_of_word {word : String} {rule : Rule} {words : List (List Char)}
    {body : List Line} (hword : (word, rule) ∈ Scan.statementWords) (hrule : rule ≠ .transaction)
    (hwords : words ≠ [])
    (hlines : (line :: body).map Line.chars = [spaced (day.chars :: word.toList :: words)])
    (hargs : Scan.Reads (Scan.arguments rule) (' ' :: spaced words) []
      (Token.AreArgumentsOf rule day s)) (left : List Line) :
    ∃ t, directive line (body ++ left) = .ok (t, left) ∧ t.IsDirectiveOf (.statement s) := by
  obtain ⟨hchars, rfl⟩ := chars_of_map_eq_singleton hlines
  obtain ⟨first, others, rfl⟩ := List.exists_cons_of_ne_nil hwords
  rw [spaced_cons_cons, spaced_cons_cons] at hchars
  apply directive_of_dated
  have hassoc : line.chars =
      day.chars ++ ' ' :: word.toList ++ ' ' :: spaced (first :: others) := by
    rw [hchars, List.append_assoc, List.cons_append]
  rw [hassoc]
  exact Scan.reads_dated hword hrule hargs left

theorem directive_of_transaction {header : Header} {postings : List Posting} {body : List Line}
    (hwritable : (Statement.transaction day header postings).isWritable = true)
    (hlines : (line :: body).map Line.chars = (Statement.transaction day header postings).lines)
    (hleft : left.head?.all (!·.isIndented) = true) :
    ∃ t, directive line (body ++ left) = .ok (t, left) ∧
      t.IsDirectiveOf (.statement (.transaction day header postings)) := by
  simp only [Statement.isWritable, Bool.and_eq_true, decide_eq_true_eq, List.all_eq_true]
    at hwritable
  obtain ⟨⟨hheader, hne⟩, hpostings⟩ := hwritable
  obtain ⟨hchars, hbody⟩ := List.cons.inj hlines
  obtain ⟨hindented, tokens, htokens, hmeaning⟩ := postingsOf_lines hpostings hbody
  have hover : ∀ line ∈ left.head?, line.isIndented = false := by
    simpa [Option.all_eq_true] using hleft
  obtain ⟨htake, hdrop⟩ := split_indented hindented hover
  rw [spaced_cons_cons] at hchars
  rw [← htake] at htokens
  have hread := Scan.reads_transaction (d := day) hheader hne htokens hmeaning
  rw [hdrop, List.append_assoc] at hread
  apply directive_of_dated
  rw [hchars]
  exact hread

/-- The lines of a directive are read as the directive, whatever follows that does not belong to
it. -/
theorem directive_of_lines {d : Directive} {body left : List Line} (hd : d.isWritable = true)
    (hlines : (line :: body).map Line.chars = d.lines)
    (hleft : left.head?.all (!·.isIndented) = true) :
    ∃ t, directive line (body ++ left) = .ok (t, left) ∧ t.IsDirectiveOf d := by
  cases d with
  | option key value =>
    simp only [Directive.isWritable, Bool.and_eq_true] at hd
    exact directive_of_alone (.head _) hlines (Scan.reads_option hd.1 hd.2) left
  | includeFile path =>
    exact directive_of_alone (.tail _ (.head _)) hlines (Scan.reads_includeFile hd) left
  | statement s =>
    cases s with
    | unit code =>
      exact directive_of_alone (.tail _ (.tail _ (.head _))) hlines (Scan.reads_unit hd) left
    | custom day args =>
      simp only [Directive.isWritable, Statement.isWritable, Bool.and_eq_true, decide_eq_true_eq,
        List.all_eq_true] at hd
      exact directive_of_word (by decide) (by decide) (by simpa using hd.1) hlines
        (Scan.reads_custom hd.1 hd.2) left
    | openAccount day account =>
      exact directive_of_word (by decide) (by decide) (by simp) hlines (Scan.reads_open hd) left
    | closeAccount day account =>
      exact directive_of_word (by decide) (by decide) (by simp) hlines (Scan.reads_close hd) left
    | pad day target source =>
      simp only [Directive.isWritable, Statement.isWritable, Bool.and_eq_true] at hd
      exact directive_of_word (by decide) (by decide) (by simp) hlines
        (Scan.reads_pad hd.1 hd.2) left
    | balance day account amount =>
      simp only [Directive.isWritable, Statement.isWritable, Bool.and_eq_true] at hd
      exact directive_of_word (by decide) (by decide) (by simp) hlines
        (Scan.reads_balance hd.1 hd.2) left
    | price day currency amount =>
      simp only [Directive.isWritable, Statement.isWritable, Bool.and_eq_true] at hd
      exact directive_of_word (by decide) (by decide) (by simp) hlines
        (Scan.reads_price hd.1 hd.2) left
    | transaction day header postings => exact directive_of_transaction hd hlines hleft

end

end DoubleEntry
