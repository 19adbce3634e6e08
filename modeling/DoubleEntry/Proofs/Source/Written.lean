import DoubleEntry.Proofs.Token.Append
import DoubleEntry.Proofs.Statement.RoundTrip

/-! Whole ledgers as written: what is written of a list of directives is read as that list. -/
namespace DoubleEntry

open Text

/-! ## Lines of text -/

namespace Text

/-- Each line with its line feed: the lines, and an empty one. -/
theorem pieces_lines {lines : List (List Char)} (h : ∀ line ∈ lines, '\n' ∉ line) :
    pieces (lines.flatMap (· ++ ['\n'])) = lines ++ [[]] := by
  induction lines with
  | nil => rfl
  | cons line lines ih =>
    rw [List.flatMap_cons, List.append_assoc, List.singleton_append, pieces_append,
      pieces_of_not_mem (h line (by simp)), ih fun line hmem => h line (by simp [hmem])]
    rfl

theorem mem_of_mem_escape {c : Char} {cs : List Char} (h : c ∈ escape cs) : c = '\\' ∨ c ∈ cs := by
  induction cs with
  | nil => simp [escape] at h
  | cons d cs ih =>
    unfold escape at h
    split at h
    · rcases List.mem_cons.1 h with rfl | h
      · exact .inl rfl
      rcases List.mem_cons.1 h with rfl | h
      · exact .inr (by simp)
      · exact (ih h).imp_right (List.mem_cons_of_mem d)
    · rcases List.mem_cons.1 h with rfl | h
      · exact .inr (by simp)
      · exact (ih h).imp_right (List.mem_cons_of_mem d)

end Text

/-! ## Lines without control characters -/

def IsPlain (cs : List Char) : Prop := ∀ c ∈ cs, isControl c = false

instance (cs : List Char) : Decidable (IsPlain cs) :=
  decidable_of_iff (cs.all (!isControl ·) = true) (by simp [IsPlain])

theorem isPlain_of_isInk {cs : List Char} (h : ∀ c ∈ cs, isInk c = true) : IsPlain cs :=
  fun c hc => isControl_of_isInk (h c hc)

theorem IsPlain.append {cs ds : List Char} (hcs : IsPlain cs) (hds : IsPlain ds) :
    IsPlain (cs ++ ds) := by
  intro c hc
  rcases List.mem_append.1 hc with hc | hc
  · exact hcs c hc
  · exact hds c hc

theorem isPlain_spaced {words : List (List Char)} (h : ∀ word ∈ words, IsPlain word) :
    IsPlain (spaced words) := by
  intro c hc
  rcases mem_joinWith hc with rfl | ⟨word, hword, hc⟩
  · decide
  · exact h word hword c hc

theorem isPlain_quotedChars {s : String} (h : isQuotable s = true) : IsPlain (quotedChars s) := by
  have hs : ∀ c ∈ s.toList, isControl c = false := by simpa [isQuotable] using h
  intro c hc
  unfold quotedChars quote at hc
  rw [List.cons_append, List.mem_cons, List.mem_append, List.mem_singleton] at hc
  rcases hc with rfl | hc | rfl
  · decide
  · rcases mem_of_mem_escape hc with rfl | hc
    · decide
    · exact hs c hc
  · decide

theorem Date.isPlain_chars (d : Date) : IsPlain d.chars := isPlain_of_isInk fun _ => isInk_of_mem_chars

theorem AccountName.isPlain_chars {a : AccountName} (h : a.isWritable = true) : IsPlain a.chars :=
  isPlain_of_isInk fun _ => Lexeme.isInk_of_mem_account h

theorem isPlain_code {code : String} (h : Lexeme.isCurrency code.toList = true) :
    IsPlain code.toList := isPlain_of_isInk fun _ => isInk_of_mem_code h

theorem Price.isPlain_chars {p : Price String} (h : Lexeme.isCurrency p.currency.toList = true) :
    IsPlain p.chars := by
  have hspaced : p.chars = spaced [p.nominal.plainChars, p.currency.toList] := by simp [Price.chars]
  rw [hspaced]
  apply isPlain_spaced
  simpa using ⟨isPlain_of_isInk fun _ => isInk_of_mem_plainChars, isPlain_code h⟩

theorem Amount.isPlain_chars {count : Nat} {a : Amount String} (h : a.isWritable count = true) :
    IsPlain a.chars := by
  obtain ⟨⟨hcurrency, hcodes⟩, _⟩ := (isWritable_iff count a).1 h
  have hfirst : IsPlain (Price.chars ⟨a.nominal, a.currency⟩) := Price.isPlain_chars hcurrency
  apply IsPlain.append hfirst
  intro c hc
  obtain ⟨p, hp, hc⟩ := List.mem_flatMap.1 hc
  simp only [List.mem_cons] at hc
  rcases hc with rfl | rfl | rfl | hc
  · decide
  · decide
  · decide
  · exact Price.isPlain_chars (hcodes p hp) c hc

theorem Posting.isPlain_line {p : Posting} (h : p.isWritable = true) : IsPlain p.line := by
  simp only [isWritable, Bool.and_eq_true, Option.all_eq_true] at h
  obtain ⟨haccount, hamount⟩ := h
  have hspaces : IsPlain "    ".toList := by decide
  refine hspaces.append (isPlain_spaced ?_)
  intro word hword
  rcases List.mem_cons.1 hword with rfl | hword
  · exact AccountName.isPlain_chars haccount
  · obtain ⟨a, ha, rfl⟩ : ∃ a, p.amount = some a ∧ a.chars = word := by simpa using hword
    exact Amount.isPlain_chars (hamount a ha)

theorem TransactionState.isPlain_flag (state : TransactionState) : IsPlain state.flag.toList := by
  cases state <;> decide

/-- A date and the words behind it. -/
theorem isPlain_dated (day : Date) {words : List (List Char)} (h : ∀ word ∈ words, IsPlain word) :
    IsPlain (spaced (day.chars :: words)) :=
  isPlain_spaced (List.forall_mem_cons.2 ⟨day.isPlain_chars, h⟩)

theorem isPlain_of_mem_quoted {strings : List String} (h : ∀ s ∈ strings, isQuotable s = true) :
    ∀ word ∈ strings.map quotedChars, IsPlain word := by
  intro word hword
  obtain ⟨s, hs, rfl⟩ := List.mem_map.1 hword
  exact isPlain_quotedChars (h s hs)

theorem Statement.isPlain_of_mem_lines {s : Statement} (h : s.isWritable = true) :
    ∀ line ∈ s.lines, IsPlain line := by
  cases s with
  | unit code =>
    rw [lines, List.forall_mem_singleton]
    apply isPlain_spaced
    simpa using ⟨by decide, isPlain_code h⟩
  | custom day args =>
    simp only [isWritable, Bool.and_eq_true, List.all_eq_true] at h
    rw [lines, List.forall_mem_singleton]
    apply isPlain_dated
    exact List.forall_mem_cons.2 ⟨by decide, isPlain_of_mem_quoted h.2⟩
  | openAccount day account | closeAccount day account =>
    rw [lines, List.forall_mem_singleton]
    apply isPlain_dated
    simpa using ⟨by decide, AccountName.isPlain_chars h⟩
  | pad day target source =>
    simp only [isWritable, Bool.and_eq_true] at h
    rw [lines, List.forall_mem_singleton]
    apply isPlain_dated
    simpa using ⟨by decide, AccountName.isPlain_chars h.1, AccountName.isPlain_chars h.2⟩
  | balance day account amount =>
    simp only [isWritable, Bool.and_eq_true] at h
    rw [lines, List.forall_mem_singleton]
    apply isPlain_dated
    simpa using ⟨by decide, AccountName.isPlain_chars h.1, Amount.isPlain_chars h.2⟩
  | price day currency amount =>
    simp only [isWritable, Bool.and_eq_true] at h
    rw [lines, List.forall_mem_singleton]
    apply isPlain_dated
    simpa using ⟨by decide, isPlain_code h.1, Amount.isPlain_chars h.2⟩
  | transaction day header postings =>
    simp only [isWritable, Header.isWritable, Bool.and_eq_true, List.all_eq_true] at h
    obtain ⟨⟨⟨_, hstrings⟩, _⟩, hpostings⟩ := h
    rw [lines, List.forall_mem_cons]
    constructor
    · apply isPlain_dated
      exact List.forall_mem_cons.2 ⟨header.state.isPlain_flag, isPlain_of_mem_quoted hstrings⟩
    · intro line hline
      obtain ⟨p, hp, rfl⟩ := List.mem_map.1 hline
      exact Posting.isPlain_line (hpostings p hp)

theorem Directive.isPlain_of_mem_lines {d : Directive} (h : d.isWritable = true) :
    ∀ line ∈ d.lines, IsPlain line := by
  cases d with
  | option key value =>
    simp only [isWritable, Bool.and_eq_true] at h
    rw [lines, List.forall_mem_singleton]
    apply isPlain_spaced
    simpa using ⟨by decide, isPlain_quotedChars h.1, isPlain_quotedChars h.2⟩
  | includeFile path =>
    rw [lines, List.forall_mem_singleton]
    apply isPlain_spaced
    simpa using ⟨by decide, isPlain_quotedChars h⟩
  | statement s => exact Statement.isPlain_of_mem_lines h

/-! ## The lines of a whole ledger -/

/-- A directive starts at the left margin. -/
theorem Directive.exists_lines (d : Directive) :
    ∃ first others, d.lines = first :: others ∧ StartsInk first ∧ first.head?.any isBlank = false := by
  have hdated (day : Date) (words : List (List Char)) :
      StartsInk (spaced (day.chars :: words)) ∧
        (spaced (day.chars :: words)).head?.any isBlank = false := by
    obtain ⟨c, cs, hchars, hc⟩ := day.exists_head
    refine ⟨day.startsInk_chars.spaced words, ?_⟩
    rw [spaced_cons, hchars]
    exact (Nominal.isVerbatim_of_isChar (Nominal.isChar_of_isDigit hc)).1
  have hworded (word : String) (words : List (List Char)) (hstarts : StartsInk word.toList)
      (hblank : word.toList.head?.any isBlank = false) :
      StartsInk (spaced (word.toList :: words)) ∧
        (spaced (word.toList :: words)).head?.any isBlank = false := by
    refine ⟨hstarts.spaced words, ?_⟩
    rw [spaced_cons]
    cases h : word.toList with
    | nil =>
      rw [h] at hstarts
      contradiction
    | cons c cs =>
      rw [h] at hblank
      exact hblank
  cases d with
  | option key value => exact ⟨_, [], rfl, hworded "option" _ rfl (by decide)⟩
  | includeFile path => exact ⟨_, [], rfl, hworded "include" _ rfl (by decide)⟩
  | statement s =>
    cases s with
    | unit code => exact ⟨_, [], rfl, hworded "unit" _ rfl (by decide)⟩
    | _ => exact ⟨_, _, rfl, hdated _ _⟩

theorem Line.isIndented_of_head {line : Line} (h : line.chars.head?.any isBlank = false) :
    line.isIndented = false := by
  unfold isIndented
  rw [h]
  rfl

/-- What follows the lines of a directive does not belong to it. -/
theorem head?_isIndented {ds : List Directive} {lines : List Line}
    (h : lines.map Line.chars = ds.flatMap Directive.lines ++ [[]]) :
    lines.head?.all (!·.isIndented) = true := by
  have hhead {line : Line} {below : List Line} (hlines : lines = line :: below)
      (hline : line.chars.head?.any isBlank = false) :
      lines.head?.all (!·.isIndented) = true := by
    simp [hlines, Line.isIndented_of_head hline]
  cases ds with
  | nil =>
    obtain ⟨line, below, hlines, hchars, _⟩ := List.map_eq_cons_iff.1 h
    exact hhead hlines (by rw [hchars]; rfl)
  | cons d ds =>
    obtain ⟨first, others, hfirst, _, hblank⟩ := d.exists_lines
    rw [List.flatMap_cons, hfirst] at h
    obtain ⟨line, below, hlines, hchars, _⟩ := List.map_eq_cons_iff.1 h
    exact hhead hlines (by rw [hchars, hblank])

theorem exists_directives_of_lines {ds : List Directive} (hds : ∀ d ∈ ds, d.isWritable = true)
    {lines : List Line} (h : lines.map Line.chars = ds.flatMap Directive.lines ++ [[]]) :
    ∃ tokens, directives lines = .ok tokens ∧ List.Forall₂ Token.IsDirectiveOf tokens ds := by
  induction ds generalizing lines with
  | nil =>
    obtain ⟨line, below, rfl, hchars, hbelow⟩ := List.map_eq_cons_iff.1 h
    obtain rfl : below = [] := List.map_eq_nil_iff.1 hbelow
    refine ⟨[], ?_, .nil⟩
    rw [directives_of_isVacant (Line.isVacant_of_chars_eq_nil hchars), directives_nil]
  | cons d ds ih =>
    rw [List.flatMap_cons, List.append_assoc] at h
    obtain ⟨own, left, rfl, hown, hleft⟩ := List.map_eq_append_iff.1 h
    obtain ⟨first, others, hfirst, hstarts, _⟩ := d.exists_lines
    rw [hfirst] at hown
    obtain ⟨line, body, rfl, hchars, hbody⟩ := List.map_eq_cons_iff.1 hown
    have hlines : (line :: body).map Line.chars = d.lines := by
      rw [List.map_cons, hchars, hbody, hfirst]
    obtain ⟨t, hdirective, ht⟩ :=
      directive_of_lines (hds d (by simp)) hlines (head?_isIndented hleft)
    obtain ⟨tokens, htokens, hmeaning⟩ := ih (fun d hd => hds d (by simp [hd])) hleft
    refine ⟨t :: tokens, ?_, .cons ht hmeaning⟩
    rw [← hchars] at hstarts
    rw [List.cons_append, directives_of_directive (Line.isVacant_of_startsInk hstarts) hdirective,
      htokens]
    rfl

theorem IsPlain.not_mem {cs : List Char} (h : IsPlain cs) {c : Char} (hc : isControl c = true) :
    c ∉ cs := by
  intro hmem
  rw [h c hmem] at hc
  contradiction

theorem Source.lines_write {ds : List Directive} (hds : ∀ d ∈ ds, d.isWritable = true)
    (name : Option String) :
    (ofText (Directive.write ds) name).lines.map Line.chars =
      ds.flatMap Directive.lines ++ [[]] := by
  have hplain : ∀ line ∈ ds.flatMap Directive.lines, IsPlain line := by
    intro line hline
    obtain ⟨d, hd, hline⟩ := List.mem_flatMap.1 hline
    exact d.isPlain_of_mem_lines (hds d hd) line hline
  have hreturn : '\r' ∉ (ds.flatMap Directive.lines).flatMap (· ++ ['\n']) := by
    intro hmem
    obtain ⟨line, hline, hmem⟩ := List.mem_flatMap.1 hmem
    rcases List.mem_append.1 hmem with hmem | hmem
    · exact (hplain line hline).not_mem (by decide) hmem
    · exact absurd hmem (by decide)
  rw [lines_eq, numbered_chars, ofText, Directive.write, String.toList_ofList]
  simp only
  rw [foldCrLf_eq_self (.inl hreturn)]
  exact pieces_lines fun line hline => (hplain line hline).not_mem (by decide)

/-- What is written of a list of directives is read as that list, up to how its numbers are
written. -/
theorem Directive.tokens_write {ds : List Directive} (h : ∀ d ∈ ds, d.isWritable = true)
    (name : Option String) :
    ∃ tokens read, (Source.ofText (write ds) name).tokens = .ok tokens ∧
      tokens.mapM ofToken = .ok read ∧ read.map canonical = ds.map canonical := by
  obtain ⟨tokens, htokens, hmeaning⟩ := exists_directives_of_lines h (Source.lines_write h name)
  obtain ⟨read, hread, hcanonical⟩ := exists_mapM_of_forall₂ hmeaning
  exact ⟨tokens, read, mapError_eq_ok_iff.2 htokens, hread, hcanonical⟩

/-- A directive of every shape, among them strings with quotes in them, a zero with a sign, a number
without its last zeros, and transactions with and without a payee. -/
def Directive.everyShape : List Directive :=
  let cash : AccountName := ⟨.assets, ["Bank", "Café-2"], by decide, by decide⟩
  let food : AccountName := ⟨.expenses, ["食事"], by decide, by decide⟩
  let day : Date := ⟨2024, 2, 29, by decide, by decide, by decide⟩
  [.option "title" "a \"quoted\" \\ one", .includeFile "", .statement (.unit "USD"),
    .statement (.custom day ["", "two words"]), .statement (.openAccount day cash),
    .statement (.closeAccount day food), .statement (.pad day cash food),
    .statement (.balance day cash ⟨⟨true, 0, -2⟩, "USD", []⟩),
    .statement (.price day "X-1" ⟨⟨false, 12, 3⟩, "USD", []⟩),
    .statement (.transaction day ⟨.unsettled, some "", "; no comment"⟩
      [⟨cash, some ⟨⟨true, 15, -1⟩, "EUR", [⟨⟨false, 11, -1⟩, "USD"⟩]⟩⟩, ⟨food, none⟩]),
    .statement (.transaction day ⟨.recurring, none, ""⟩ [⟨food, none⟩])]

theorem Directive.tokens_write_everyShape :
    (∀ d ∈ everyShape, d.isWritable = true) ∧
      ∃ tokens read, (Source.ofText (write everyShape) none).tokens = .ok tokens ∧
        tokens.mapM ofToken = .ok read ∧ read.map canonical = everyShape.map canonical := by
  have h : ∀ d ∈ everyShape, d.isWritable = true := by decide +kernel
  exact ⟨h, tokens_write h none⟩

end DoubleEntry
