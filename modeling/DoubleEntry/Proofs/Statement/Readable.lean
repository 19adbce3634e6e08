import DoubleEntry.Proofs.Statement.Meaning
import DoubleEntry.Proofs.Token.Directive

/-! Directives that come from reading mean something that can be written. All that is left to go wrong
is a date that no calendar has. -/
namespace DoubleEntry

open Scan Text

/-! ## Directives -/

/-- Neither declares the empty code nor includes a path that no file can have. -/
def Directive.IsProper : Directive → Prop
  | .option .. => True
  | .statement s => s ≠ .unit ""
  | .includeFile path => '\x00' ∉ path.toList

theorem Directive.isProper_of_isWritable {d : Directive} (h : d.isWritable = true) :
    d.IsProper := by
  cases d with
  | option key value => exact trivial
  | statement s =>
    rintro rfl
    contradiction
  | includeFile path =>
    intro hnul
    exact absurd (List.all_eq_true.1 h _ hnul) (by decide)

namespace Token

/-- Means a proper directive, or has an impossible date. -/
def IsDirective (t : Token) : Prop :=
  t.Says Directive.ofToken Directive.IsProper ∨
    ∃ text position, Directive.ofToken t = .error (.invalidDate text position)

theorem IsDirective.isProper {t : Token} (h : t.IsDirective) {d : Directive}
    (hd : Directive.ofToken t = .ok d) : d.IsProper := by
  rcases h with ⟨found, hfound, hproper⟩ | ⟨text, position, hdate⟩
  · rw [hfound] at hd
    exact Except.ok.inj hd ▸ hproper
  · rw [hdate] at hd
    contradiction

/-- Means a directive that can be written, or has an impossible date. -/
def IsReadable (t : Token) : Prop :=
  t.Says Directive.ofToken (·.isWritable = true) ∨
    ∃ text position, Directive.ofToken t = .error (.invalidDate text position)

theorem IsReadable.isDirective {t : Token} (h : t.IsReadable) : t.IsDirective := by
  rcases h with ⟨d, hd, hwritable⟩ | hdate
  · exact .inl ⟨d, hd, Directive.isProper_of_isWritable hwritable⟩
  · exact .inr hdate

/-- What stands after the date of a dated statement: with it, a date means a statement that can be
written. -/
def AreArguments (rule : Rule) (children : List Token) : Prop :=
  ∃ build : Date → Statement, (∀ day, (build day).isWritable = true) ∧
    ∀ (date : Token) (text : String) (position : Position),
      Statement.ofDated ⟨rule, text, position, date :: children⟩ = build <$> Date.ofToken date

theorem AreArguments.ofToken {rule : Rule} {children : List Token}
    (h : AreArguments rule children) :
    ∃ build : Date → Statement, (∀ day, (build day).isWritable = true) ∧
      ∀ (date : Token) (text outer : String) (position place : Position),
        Directive.ofToken ⟨.statement, outer, place, [⟨rule, text, position, date :: children⟩]⟩ =
          Directive.statement <$> build <$> Date.ofToken date := by
  obtain ⟨build, hwritable, hbuild⟩ := h
  refine ⟨build, hwritable, fun date text outer position place => ?_⟩
  rw [← hbuild date text position]
  rfl

theorem isReadable_of_dated {rule : Rule} {date : Token} {children : List Token}
    (h : AreArguments rule children) (text outer : String) (position place : Position) :
    IsReadable ⟨.statement, outer, place, [⟨rule, text, position, date :: children⟩]⟩ := by
  obtain ⟨build, hwritable, hmeaning⟩ := h.ofToken
  unfold IsReadable Says
  rw [hmeaning]
  unfold Date.ofToken
  cases Date.ofText? date.text with
  | none => exact .inr ⟨date.text, date.position, rfl⟩
  | some day => exact .inl ⟨.statement (build day), rfl, hwritable day⟩

theorem areArguments_transaction {header : Token} {postings : List Token}
    (hheader : header.Says Header.ofToken (·.isWritable = true))
    (hpostings : ∀ t ∈ postings, t.Says Posting.ofToken (·.isWritable = true))
    (hne : postings ≠ []) (position : Position) :
    AreArguments .transaction [header, ⟨.txnList, "", position, postings⟩] := by
  obtain ⟨h, hh, hwritable⟩ := hheader
  obtain ⟨parts, hparts, hall⟩ := exists_mapM_eq_ok hpostings
  have hsome : parts ≠ [] := by
    rintro rfl
    exact hne (List.forall₂_nil_right_iff.1 (mapM_eq_ok_iff.1 hparts))
  refine ⟨(.transaction · h parts), fun day => ?_, fun date text position => ?_⟩
  · simpa [Statement.isWritable, hwritable, hsome] using hall
  · exact Statement.ofDated_transaction hh hparts

end Token

namespace Scan

theorem gives_custom : Gives (arguments .custom) (Token.AreArguments .custom) := by
  unfold arguments
  refine Gives.andThen fun _ => gives_string.bind fun first hfirst => ?_
  refine (gives_furtherStrings gives_string).bind fun others hothers => Gives.pure ?_
  refine ⟨(.custom · ((first :: others).map Token.value)), fun day => ?_, fun _ _ _ =>
    Statement.ofDated_custom _⟩
  simpa [Statement.isWritable, hfirst] using hothers

theorem gives_oneAccount {rule : Rule} (build : Date → AccountName → Statement)
    (hwritable : ∀ day account, (build day account).isWritable = account.isWritable)
    (hbuild : ∀ {t account}, AccountName.ofToken t = .ok account →
      ∀ (date : Token) (text : String) (position : Position),
        Statement.ofDated ⟨rule, text, position, [date, t]⟩ =
          (build · account) <$> Date.ofToken date) :
    Gives (do
      gap "the account"
      return [← lexeme .account]) (Token.AreArguments rule) := by
  refine Gives.andThen fun _ => gives_account.bind fun t ht => Gives.pure ?_
  obtain ⟨account, haccount, hsegments⟩ := ht
  exact ⟨(build · account), fun day => (hwritable day account).trans hsegments, hbuild haccount⟩

theorem gives_pad : Gives (arguments .pad) (Token.AreArguments .pad) := by
  unfold arguments
  refine Gives.andThen fun _ => gives_account.bind fun t ht => ?_
  refine Gives.andThen fun _ => gives_account.bind fun s hs => Gives.pure ?_
  obtain ⟨target, htarget, htargetWritable⟩ := ht
  obtain ⟨source, hsource, hsourceWritable⟩ := hs
  refine ⟨(.pad · target source), fun day => ?_, fun _ _ _ => Statement.ofDated_pad htarget hsource⟩
  simp [Statement.isWritable, htargetWritable, hsourceWritable]

theorem gives_balance : Gives (arguments .balance) (Token.AreArguments .balance) := by
  unfold arguments
  refine Gives.andThen fun _ => gives_account.bind fun t ht => ?_
  refine Gives.andThen fun _ => gives_amount.bind fun n hn => Gives.pure ?_
  obtain ⟨account, haccount, hsegments⟩ := ht
  obtain ⟨amount, hamount, hcode⟩ := hn.saysAmount
  refine ⟨(.balance · account amount), fun day => ?_, fun _ _ _ =>
    Statement.ofDated_balance haccount hamount⟩
  simp [Statement.isWritable, hsegments, hcode]

theorem gives_price : Gives (arguments .price) (Token.AreArguments .price) := by
  unfold arguments
  refine Gives.andThen fun _ => gives_currency.bind fun currency hcurrency => ?_
  refine Gives.andThen fun _ => gives_amount.bind fun n hn => Gives.pure ?_
  obtain ⟨amount, hamount, hcode⟩ := hn.saysAmount
  refine ⟨(.price · currency.text amount), fun day => ?_, fun _ _ _ =>
    Statement.ofDated_price hamount⟩
  simp [Statement.isWritable, hcurrency, hcode]

theorem gives_arguments {rule : Rule} (h : rule ∈ statementWords.map (·.2)) :
    Gives (arguments rule) (Token.AreArguments rule) := by
  simp only [statementWords, List.map_cons, List.map_nil, List.mem_cons, List.not_mem_nil,
    or_false] at h
  rcases h with rfl | rfl | rfl | rfl | rfl | rfl
  · exact gives_custom
  · exact gives_oneAccount .openAccount (fun _ _ => rfl) fun h _ _ _ =>
      Statement.ofDated_openAccount h
  · exact gives_oneAccount .closeAccount (fun _ _ => rfl) fun h _ _ _ =>
      Statement.ofDated_closeAccount h
  · exact gives_pad
  · exact gives_balance
  · exact gives_price

theorem gives_option : Gives option Token.IsReadable := by
  refine Gives.lineOf (Gives.andThen fun _ => Gives.andThen fun _ => ?_)
  refine gives_string.bind fun key hkey => Gives.andThen fun _ => ?_
  refine gives_string.bind fun value hvalue => Gives.pure fun text position => ?_
  exact .inl ⟨.option key.value value.value, rfl, by simp [Directive.isWritable, hkey, hvalue]⟩

theorem gives_includeFile : Gives includeFile Token.IsReadable := by
  refine Gives.lineOf (Gives.andThen fun _ => Gives.andThen fun _ => ?_)
  refine gives_string.bind fun path hpath => Gives.pure fun text position => ?_
  exact .inl ⟨.includeFile path.value, rfl, hpath⟩

theorem gives_unit : Gives unit Token.IsReadable := by
  refine Gives.lineOf (Gives.andThen fun _ => Gives.andThen fun _ => ?_)
  refine gives_currency.bind fun code hcode => Gives.pure fun text position => ?_
  exact .inl ⟨.statement (.unit code.text), rfl, hcode⟩

end Scan

theorem saysPosting_of_mem_postingsOf {body : List Line} {tokens : List Token}
    (h : postingsOf body = .ok tokens) {t : Token} (ht : t ∈ tokens) :
    t.Says Posting.ofToken (·.isWritable = true) := by
  obtain ⟨line, _, hline⟩ := exists_mem_of_mapM_eq_ok h ht
  obtain ⟨⟨token, next⟩, hscan, rfl⟩ := map_eq_ok_iff.1 hline
  exact Scan.gives_posting _ _ _ hscan

/-- Behind the date of a dated statement stands what makes a statement of it. -/
theorem areArguments_of_datedAt {start : Cursor} {below left : List Line} {t : Token}
    (h : DatedAt start below t left) {date : Token} {children : List Token}
    (hparts : t.children = date :: children) : Token.AreArguments t.rule children := by
  cases h with
  | line hrule hline =>
    obtain ⟨_, stop, _, _, hopening, harguments, -, rfl, -⟩ := Scan.datedLine_eq_ok_iff.1 hline
    cases hparts
    have hword := (Scan.rule_of_opening hopening).resolve_left hrule
    exact Scan.gives_arguments hword _ _ _ harguments
  | transaction hhead _ hpostings hne =>
    obtain ⟨stop, -, hheader⟩ := Scan.transactionHead_eq_ok_iff.1 hhead
    cases hparts
    exact Token.areArguments_transaction (Scan.gives_header _ _ _ hheader)
      (fun t => saysPosting_of_mem_postingsOf hpostings) hne _

theorem isReadable_of_directiveAt {line : Line} {below left : List Line} {t : Token}
    (h : DirectiveAt line below t left) : t.IsReadable := by
  cases h with
  | keyword hmem hrun =>
    exact Scan.gives_of_keywordLines Scan.gives_option Scan.gives_includeFile Scan.gives_unit hmem
      _ _ _ hrun
  | @statement d left hdated =>
    obtain ⟨date, children, -, hparts, -⟩ := exists_date_of_datedAt hdated
    have harguments := areArguments_of_datedAt hdated hparts
    obtain ⟨rule, text, position, parts⟩ := d
    cases hparts
    exact Token.isReadable_of_dated harguments _ _ _ _

/-! ## Whole texts -/

section

variable {s : Source} {tokens : List Token} {t : Token}

theorem Source.isReadable_of_mem (h : s.tokens = .ok tokens) (ht : t ∈ tokens) : t.IsReadable :=
  forall_mem_directives (fun _ _ _ _ hdirective =>
    isReadable_of_directiveAt (directive_eq_ok_iff.1 hdirective)) (mapError_eq_ok_iff.1 h) t ht

theorem Source.isDirective_of_mem (h : s.tokens = .ok tokens) (ht : t ∈ tokens) :
    t.IsDirective := (isReadable_of_mem h ht).isDirective

/-- Whatever directive a text has, it can be written. -/
theorem Directive.isWritable_of_mem (h : s.tokens = .ok tokens) (ht : t ∈ tokens) {d : Directive}
    (hd : Directive.ofToken t = .ok d) : d.isWritable = true := by
  rcases Source.isReadable_of_mem h ht with ⟨found, hfound, hwritable⟩ | ⟨text, position, hdate⟩
  · rw [hfound] at hd
    exact Except.ok.inj hd ▸ hwritable
  · rw [hdate] at hd
    contradiction

end

end DoubleEntry
