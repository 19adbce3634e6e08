import DoubleEntry.Proofs.Statement.Postings

/-! The first line of a dated statement is read as the statement, up to how its numbers are written. -/
namespace DoubleEntry

open Scan Text

namespace Token

/-- Means the statement, up to how its numbers are written. -/
def IsStatementOf (t : Token) (s : Statement) : Prop :=
  ∃ statement, Statement.ofDated t = .ok statement ∧ statement.canonical = s.canonical

/-- Behind the date of a day they mean the statement. -/
def AreArgumentsOf (rule : Rule) (day : Date) (s : Statement) (children : List Token) : Prop :=
  ∀ (date : Token) (text : String) (position : Position), Date.ofToken date = .ok day →
    IsStatementOf ⟨rule, text, position, date :: children⟩ s

theorem areArgumentsOf_of_build {rule : Rule} {day : Date} {s : Statement} {children : List Token}
    {build : Date → Statement} (hbuild : ∀ (date : Token) (text : String) (position : Position),
      Statement.ofDated ⟨rule, text, position, date :: children⟩ = build <$> Date.ofToken date)
    (hs : (build day).canonical = s.canonical) : AreArgumentsOf rule day s children := by
  intro date text position hdate
  refine ⟨build day, ?_, hs⟩
  rw [hbuild, hdate]
  rfl

end Token

theorem spaced_cons (word : List Char) (words : List (List Char)) :
    spaced (word :: words) = word ++ words.flatMap (' ' :: ·) := by
  induction words generalizing word with
  | nil => simp
  | cons next words ih => rw [spaced_cons_cons, ih, List.flatMap_cons, List.cons_append]

namespace Scan

variable {day : Date}

theorem reads_furtherStrings {args : List String} (h : ∀ s ∈ args, isQuotable s = true) :
    Reads furtherStrings ((args.map quotedChars).flatMap (' ' :: ·)) [] fun ts =>
      ts.map Token.value = args := by
  induction args with
  | nil =>
    intro c hc
    refine ⟨[], c, ?_, hc, rfl⟩
    rw [furtherStrings, if_pos (atLineEnd_of_nil hc)]
  | cons s args ih =>
    intro c hc
    have hends : Lexeme.endsHere ((args.map quotedChars).flatMap (' ' :: ·) ++ []) = true := by
      cases args <;> rfl
    have hstring : Reads furtherString (' ' :: quotedChars s)
        ((args.map quotedChars).flatMap (' ' :: ·) ++ []) fun t => t.value = s :=
      Reads.gap (startsInk_quotedChars s) (reads_string (h s (by simp)) hends)
    rw [List.map_cons, List.flatMap_cons, List.append_assoc] at hc
    obtain ⟨t, middle, hrun, hmiddle, ht⟩ := hstring c hc
    obtain ⟨ts, next, hrest, hnext, hts⟩ := ih (fun s hs => h s (by simp [hs])) middle hmiddle
    have hvalues : (t :: ts).map Token.value = s :: args := by rw [List.map_cons, ht, hts]
    refine ⟨t :: ts, next, ?_, hnext, hvalues⟩
    rw [furtherStrings, if_neg (by rw [atLineEnd_of_ink hc rfl]; decide)]
    split
    · simp_all
    · simp_all

theorem reads_custom {args : List String} (hne : args ≠ [])
    (h : ∀ s ∈ args, isQuotable s = true) :
    Reads (arguments .custom) (' ' :: spaced (args.map quotedChars)) []
      (Token.AreArgumentsOf .custom day (.custom day args)) := by
  cases args with
  | nil => contradiction
  | cons s args =>
    have hends : Lexeme.endsHere ((args.map quotedChars).flatMap (' ' :: ·) ++ []) = true := by
      cases args <;> rfl
    unfold arguments
    rw [List.map_cons, spaced_cons]
    refine Reads.gap (startsInk_quotedChars s) ?_
    refine (reads_string (h s (by simp)) hends).bind fun first hfirst => ?_
    refine (reads_furtherStrings fun s hs => h s (by simp [hs])).close fun others hothers => ?_
    refine Reads.pure (Token.areArgumentsOf_of_build (fun _ _ _ => Statement.ofDated_custom _) ?_)
    rw [List.map_cons, hfirst, hothers]

theorem reads_oneAccount {rule : Rule} {account : AccountName} (build : Date → AccountName → Statement)
    (h : account.isWritable = true)
    (hbuild : ∀ {t}, AccountName.ofToken t = .ok account →
      ∀ (date : Token) (text : String) (position : Position),
        Statement.ofDated ⟨rule, text, position, [date, t]⟩ =
          (build · account) <$> Date.ofToken date) :
    Reads (do
      gap "the account"
      return [← lexeme .account]) (' ' :: spaced [account.chars]) []
      (Token.AreArgumentsOf rule day (build day account)) := by
  rw [spaced_singleton]
  apply Reads.gap ((AccountName.startsInk_chars h).append [])
  refine (reads_account h rfl).close fun t ht => ?_
  exact Reads.pure (Token.areArgumentsOf_of_build (hbuild ht) rfl)

theorem reads_open {account : AccountName} (h : account.isWritable = true) :
    Reads (arguments .openAccount) (' ' :: spaced [account.chars]) []
      (Token.AreArgumentsOf .openAccount day (.openAccount day account)) :=
  reads_oneAccount .openAccount h fun ht _ _ _ => Statement.ofDated_openAccount ht

theorem reads_close {account : AccountName} (h : account.isWritable = true) :
    Reads (arguments .closeAccount) (' ' :: spaced [account.chars]) []
      (Token.AreArgumentsOf .closeAccount day (.closeAccount day account)) :=
  reads_oneAccount .closeAccount h fun ht _ _ _ => Statement.ofDated_closeAccount ht

theorem reads_pad {target source : AccountName} (htarget : target.isWritable = true)
    (hsource : source.isWritable = true) :
    Reads (arguments .pad) (' ' :: spaced [target.chars, source.chars]) []
      (Token.AreArgumentsOf .pad day (.pad day target source)) := by
  unfold arguments
  rw [spaced_cons_cons, spaced_singleton]
  apply Reads.gap ((AccountName.startsInk_chars htarget).append _ |>.append _)
  refine (reads_account htarget rfl).bind fun t ht => ?_
  apply Reads.gap ((AccountName.startsInk_chars hsource).append _)
  refine (reads_account hsource rfl).close fun s hs => ?_
  exact Reads.pure (Token.areArgumentsOf_of_build (fun _ _ _ => Statement.ofDated_pad ht hs) rfl)

theorem reads_plainAmount {a : Amount String} (h : a.isWritable 0 = true) :
    Reads amount a.chars [] (·.IsAmountOf a) := by
  obtain ⟨⟨hcurrency, _⟩, hlength⟩ := (Amount.isWritable_iff 0 a).1 h
  obtain ⟨nominal, currency, prices⟩ := a
  obtain rfl : prices = [] := by simpa using hlength
  have hchars : Amount.chars ⟨nominal, currency, []⟩ = Price.chars ⟨nominal, currency⟩ := by
    simp [Amount.chars, Price.chars]
  rw [hchars]
  exact (reads_amount hcurrency rfl).mono fun t ht => ht.isAmountOf

theorem reads_balance {account : AccountName} {a : Amount String}
    (haccount : account.isWritable = true) (ha : a.isWritable 0 = true) :
    Reads (arguments .balance) (' ' :: spaced [account.chars, a.chars]) []
      (Token.AreArgumentsOf .balance day (.balance day account a)) := by
  unfold arguments
  rw [spaced_cons_cons, spaced_singleton]
  apply Reads.gap ((AccountName.startsInk_chars haccount).append _ |>.append _)
  refine (reads_account haccount rfl).bind fun t ht => ?_
  apply Reads.gap ((startsInk_plainChars a.nominal).append _ |>.append _ |>.append _)
  refine (reads_plainAmount ha).close fun n hn => ?_
  obtain ⟨amount, hamount, hcanonical⟩ := hn
  exact Reads.pure (Token.areArgumentsOf_of_build
    (fun _ _ _ => Statement.ofDated_balance ht hamount)
    (congrArg (Statement.balance day account) hcanonical))

theorem reads_price {code : String} {a : Amount String}
    (hcode : Lexeme.isCurrency code.toList = true) (ha : a.isWritable 0 = true) :
    Reads (arguments .price) (' ' :: spaced [code.toList, a.chars]) []
      (Token.AreArgumentsOf .price day (.price day code a)) := by
  unfold arguments
  rw [spaced_cons_cons, spaced_singleton]
  apply Reads.gap ((startsInk_code hcode).append _ |>.append _)
  refine (reads_currency hcode rfl).bind fun t ht => ?_
  subst ht
  apply Reads.gap ((startsInk_plainChars a.nominal).append _ |>.append _ |>.append _)
  refine (reads_plainAmount ha).close fun n hn => ?_
  obtain ⟨amount, hamount, hcanonical⟩ := hn
  exact Reads.pure (Token.areArgumentsOf_of_build (fun _ _ _ => Statement.ofDated_price hamount)
    (congrArg (Statement.price day t.text) hcanonical))

/-! ## Keywords -/

theorem statementAhead?_word {word : String} {rule : Rule} (h : (word, rule) ∈ statementWords)
    (rest : List Char) : statementAhead? (word.toList ++ ' ' :: rest) = some (word, rule) := by
  simp only [statementWords, List.mem_cons, Prod.mk.injEq, List.not_mem_nil, or_false] at h
  rcases h with ⟨rfl, rfl⟩ | ⟨rfl, rfl⟩ | ⟨rfl, rfl⟩ | ⟨rfl, rfl⟩ | ⟨rfl, rfl⟩ | ⟨rfl, rfl⟩ <;> rfl

theorem statementAhead?_flag {state : TransactionState} (h : state ≠ .virtual)
    (rest : List Char) : statementAhead? (state.flag.toList ++ ' ' :: rest) =
      some ("", .transaction) := by
  cases state <;> first | contradiction | rfl

theorem startsInk_word {word : String} {rule : Rule} (h : (word, rule) ∈ statementWords) :
    StartsInk word.toList := by
  simp only [statementWords, List.mem_cons, Prod.mk.injEq, List.not_mem_nil, or_false] at h
  rcases h with ⟨rfl, _⟩ | ⟨rfl, _⟩ | ⟨rfl, _⟩ | ⟨rfl, _⟩ | ⟨rfl, _⟩ | ⟨rfl, _⟩ <;> rfl

theorem startsInk_flag {state : TransactionState} (h : state ≠ .virtual) : StartsInk state.flag.toList := by
  cases state <;> first | contradiction | rfl

theorem reads_opening {word : String} {rule : Rule} {rest : List Char}
    (hahead : statementAhead? (word.toList ++ rest) = some (word, rule))
    (hstarts : StartsInk (word.toList ++ rest)) :
    Reads (opening none) (day.chars ++ ' ' :: word.toList) rest fun found =>
      Date.ofToken found.1 = .ok day ∧ found.2 = rule := by
  unfold opening
  refine (reads_date day rfl).bind fun date hdate => ?_
  apply Reads.gap hstarts
  refine reads_get.look fun c hc => ?_
  rw [hc, hahead]
  exact (reads_advance word rest).close fun _ _ => Reads.pure ⟨hdate, rfl⟩

theorem reads_dated {word : String} {rule : Rule} {args : List Char} {s : Statement}
    (hword : (word, rule) ∈ statementWords) (hne : rule ≠ .transaction)
    (hargs : Reads (arguments rule) (' ' :: args) [] (Token.AreArgumentsOf rule day s))
    (below : List Line) :
    Reads (dated none below) (day.chars ++ ' ' :: word.toList ++ ' ' :: args) [] fun found =>
      found.1.IsStatementOf s ∧ found.2 = below := by
  have hahead := statementAhead?_word hword (args ++ [])
  unfold dated
  refine reads_get.look fun start _ => ?_
  refine (reads_opening hahead ((startsInk_word hword).append _)).bind fun found hfound => ?_
  obtain ⟨date, rule'⟩ := found
  obtain ⟨hdate, rfl⟩ := hfound
  simp only [if_neg hne]
  refine hargs.close fun children hchildren => ?_
  refine Reads.look (P := (·.IsStatementOf s))
    (Reads.nodeFrom fun text position => hchildren date text position hdate) fun t ht => ?_
  exact reads_lineEnd.close fun _ _ => Reads.pure ⟨ht, rfl⟩

end Scan

theorem Token.isStatementOf_transaction {date header : Token} {postings : List Token}
    {text : String} {position place : Position} {day : Date} {h : Header} {ps : List Posting}
    (hdate : Date.ofToken date = .ok day) (hheader : Header.ofToken header = .ok h)
    (hpostings : List.Forall₂ IsPostingOf postings ps) :
    IsStatementOf ⟨.transaction, text, position, [date, header, ⟨.txnList, "", place, postings⟩]⟩
      (.transaction day h ps) := by
  obtain ⟨parsed, hparsed, hcanonical⟩ := exists_mapM_of_forall₂ hpostings
  refine ⟨.transaction day h parsed, ?_, congrArg (Statement.transaction day h) hcanonical⟩
  rw [Statement.ofDated_transaction hheader hparsed, hdate]
  rfl

namespace Scan

theorem reads_transactionFrom {start : Cursor} {date : Token} {day : Date} {h : Header}
    {below : List Line} {postings : List Token} {ps : List Posting}
    (hdate : Date.ofToken date = .ok day) (hheader : h.isWritable = true) (hne : ps ≠ [])
    (hbody : postingsOf (below.takeWhile (·.isIndented)) = .ok postings)
    (hpostings : List.Forall₂ Token.IsPostingOf postings ps) :
    Reads (transactionFrom start date below)
      (spaced (h.state.flag.toList :: h.strings.map quotedChars)) []
      (·.IsStatementOf (.transaction day h ps)) := by
  have hnil : postings ≠ [] := by
    rintro rfl
    cases hpostings
    contradiction
  unfold transactionFrom
  refine (reads_header hheader).close fun header hheader => ?_
  refine reads_lineEnd.close fun _ _ => ?_
  refine (reads_liftM hbody).look fun tokens htokens => ?_
  cases htokens
  simp only [if_neg hnil]
  exact Reads.pure (Token.isStatementOf_transaction hdate hheader hpostings)

theorem exists_spaced (word : List Char) {words : List (List Char)}
    (h : ∃ next others, words = next :: others) :
    ∃ rest, spaced (word :: words) = word ++ ' ' :: rest := by
  obtain ⟨next, others, rfl⟩ := h
  exact ⟨spaced (next :: others), spaced_cons_cons word next others⟩

theorem exists_strings (h : Header) :
    ∃ next others, h.strings.map quotedChars = next :: others := by
  cases hp : h.payee with
  | none => exact ⟨quotedChars h.title, [], by simp [Header.strings, hp]⟩
  | some payee => exact ⟨quotedChars payee, [quotedChars h.title], by simp [Header.strings, hp]⟩

theorem reads_transaction {d : Date} {h : Header} {below : List Line} {postings : List Token}
    {ps : List Posting} (hheader : h.isWritable = true) (hne : ps ≠ [])
    (hbody : postingsOf (below.takeWhile (·.isIndented)) = .ok postings)
    (hpostings : List.Forall₂ Token.IsPostingOf postings ps) :
    Reads (dated none below)
      (d.chars ++ [' '] ++ spaced (h.state.flag.toList :: h.strings.map quotedChars)) []
      fun found => found.1.IsStatementOf (.transaction d h ps) ∧
        found.2 = below.dropWhile (·.isIndented) := by
  have hstate : h.state ≠ .virtual := by
    simp only [Header.isWritable, Bool.and_eq_true, decide_eq_true_eq] at hheader
    exact hheader.1
  have hahead : statementAhead? ("".toList ++
      (spaced (h.state.flag.toList :: h.strings.map quotedChars) ++ [])) =
        some ("", .transaction) := by
    obtain ⟨args, hargs⟩ := exists_spaced h.state.flag.toList (exists_strings h)
    rw [hargs, List.append_assoc]
    exact statementAhead?_flag hstate _
  unfold dated
  refine reads_get.look fun start _ => ?_
  refine (reads_opening hahead ((startsInk_flag hstate).spaced _ |>.append [])).bind
    fun found hfound => ?_
  obtain ⟨date, rule'⟩ := found
  obtain ⟨hdate, rfl⟩ := hfound
  simp only [if_true]
  refine (reads_transactionFrom hdate hheader hne hbody hpostings).close fun t ht => ?_
  exact Reads.pure ⟨ht, rfl⟩

end Scan

end DoubleEntry
