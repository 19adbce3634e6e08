import DoubleEntry.Proofs.Account.Names
import DoubleEntry.Proofs.Collection.Traversal
import DoubleEntry.Proofs.Statement.Parts
import DoubleEntry.Proofs.Token.ScanRules

/-! The parts of directives that come from reading mean something, and what they mean has a written
form. -/
namespace DoubleEntry

open Scan Text

/-! ## Words -/

theorem Lexeme.accepts_of_read? {kind : Lexeme} {cs word : List Char} (hkind : kind ≠ .string)
    (h : kind.read? cs = some word) : kind.accepts word = true := by
  unfold read? at h
  simp only [if_neg hkind] at h
  split at h
  · cases h
    assumption
  · contradiction

theorem Text.mem_of_mem_unescape {cs : List Char} {c : Char} (hc : c ∈ unescape cs) : c ∈ cs := by
  fun_induction unescape cs with
  | case1 d cs ih =>
    rcases List.mem_cons.1 hc with rfl | hc
    · simp
    · simp [ih hc]
  | case2 d cs _ ih =>
    rcases List.mem_cons.1 hc with rfl | hc
    · simp
    · simp [ih hc]
  | case3 => contradiction

theorem Lexeme.isQuotable_of_read? {cs text : List Char} (h : Lexeme.string.read? cs = some text) :
    isQuotable (.ofList (unquote text)) = true := by
  unfold read? at h
  rw [if_pos rfl, Option.filter_eq_some_iff] at h
  obtain ⟨body, rfl, hcloses, _⟩ := Text.quoted?_eq_some_iff.1 h.1
  unfold isQuotable
  rw [String.toList_ofList, List.all_eq_true]
  intro c hc
  have hmem : c ∈ body := by
    have := List.dropLast_subset _ (Text.mem_of_mem_unescape hc)
    simpa using this
  simp [hcloses.not_isControl c hmem]

theorem AccountName.isWritable_of_isAccount {text : String} {a : AccountName}
    (h : Lexeme.isAccount text.toList = true) (ha : AccountName.ofText text = .ok a) :
    a.isWritable = true := by
  obtain ⟨_, hsegments⟩ := (Lexeme.isAccount_iff _).1 h
  unfold ofText at ha
  split at ha
  · rename_i account hfound
    cases ha
    obtain ⟨kind, _, hparts⟩ := Option.bind_eq_some_iff.1 hfound
    obtain ⟨_, hnames⟩ := parts_of_ofParts (toOption_eq_some_iff.1 hparts)
    unfold isWritable
    rw [hnames, List.all_eq_true]
    intro segment hmem
    obtain ⟨piece, hpiece, rfl⟩ := List.mem_map.1 hmem
    rw [String.toList_ofList]
    exact hsegments piece hpiece
  · contradiction

theorem TransactionState.ne_virtual_of_ofFlag? {flag : String} {state : TransactionState}
    (h : ofFlag? flag = some state) : state ≠ .virtual := by
  rintro rfl
  have hmem := List.mem_of_find?_eq_some h
  simp at hmem

theorem Amount.isWritable_iff (count : Nat) (a : Amount String) :
    a.isWritable count = true ↔
      (Lexeme.isCurrency a.currency.toList = true ∧
        ∀ p ∈ a.prices, Lexeme.isCurrency p.currency.toList = true) ∧ a.prices.length ≤ count := by
  unfold isWritable
  simp

/-! ## What parts say -/

namespace Token

/-- The token means something, and what it means has the property. -/
def Says {α : Type} (read : Token → Except MeaningError α) (P : α → Prop) (t : Token) : Prop :=
  ∃ a, read t = .ok a ∧ P a

/-- A nominal and a currency. -/
def IsPrice (t : Token) : Prop :=
  t.rule = .amount ∧ t.Says Price.ofToken fun p => Lexeme.isCurrency p.currency.toList = true

theorem IsPrice.saysAmount {t : Token} (h : t.IsPrice) :
    t.Says Amount.ofToken (·.isWritable 0 = true) := by
  obtain ⟨hrule, p, hp, hcode⟩ := h
  exact ⟨_, Amount.ofToken_of_price hrule hp, (Amount.isWritable_iff 0 _).2 ⟨⟨hcode, by simp⟩, by simp⟩⟩

theorem saysAmount_of_prices {first : Token} {others : List Token} {count : Nat}
    (hfirst : first.IsPrice) (hothers : ∀ t ∈ others, t.IsPrice) (hcount : others.length ≤ count)
    (text : String) (position : Position) :
    Says Amount.ofToken (·.isWritable count = true)
      ⟨.amountWithPrice, text, position, first :: others⟩ := by
  obtain ⟨_, p, hp, hcode⟩ := hfirst
  obtain ⟨prices, hprices, hcodes⟩ := exists_mapM_eq_ok fun t ht => (hothers t ht).2
  refine ⟨_, Amount.ofToken_prices hp hprices, (Amount.isWritable_iff count _).2 ⟨⟨hcode, hcodes⟩, ?_⟩⟩
  rwa [← (mapM_eq_ok_iff.1 hprices).length_eq]

end Token

namespace Scan

theorem gives_word {kind : Lexeme} (hkind : kind ≠ .string) :
    Gives (lexeme kind) fun t => kind.accepts t.text.toList = true := by
  refine (gives_lexeme kind).mono fun t ht => ?_
  obtain ⟨_, cs, hread⟩ := ht
  exact Lexeme.accepts_of_read? hkind hread

theorem gives_account :
    Gives (lexeme .account) (Token.Says AccountName.ofToken (·.isWritable = true)) := by
  refine (gives_word (by decide)).mono fun t ht => ?_
  obtain ⟨account, haccount⟩ := Lexeme.exists_account_of_isAccount ht
  rw [String.ofList_toList] at haccount
  refine ⟨account, ?_, AccountName.isWritable_of_isAccount ht haccount⟩
  rw [AccountName.ofToken, haccount]
  rfl

theorem gives_nominal :
    Gives (lexeme .nominal) fun t => ∃ value, Decimal.ofText t.text = .ok value := by
  refine (gives_word (by decide)).mono fun t ht => ?_
  obtain ⟨n, hn⟩ := Nominal.exists_of_isNominal ht
  have htext := n.ofText_chars
  rw [hn, String.ofList_toList] at htext
  exact ⟨n.value, htext⟩

theorem gives_currency :
    Gives (lexeme .currency) fun t => Lexeme.isCurrency t.text.toList = true :=
  gives_word (by decide)

theorem gives_flag : Gives (lexeme .flag) fun t =>
    ∃ state, TransactionState.ofFlag? t.text = some state ∧ state ≠ .virtual := by
  refine (gives_word (by decide)).mono fun t ht => ?_
  obtain ⟨state, hstate⟩ := Lexeme.exists_state_of_isFlag ht
  rw [String.ofList_toList] at hstate
  exact ⟨state, hstate, TransactionState.ne_virtual_of_ofFlag? hstate⟩

theorem gives_string : Gives (lexeme .string) fun t => isQuotable t.value = true := by
  refine (gives_lexeme .string).mono fun t ht => ?_
  obtain ⟨hrule, cs, hread⟩ := ht
  have hstring : t.rule = .string := hrule
  unfold Token.value
  rw [if_pos hstring]
  exact Lexeme.isQuotable_of_read? hread

theorem gives_furtherStrings {P : Token → Prop} (h : Gives (lexeme .string) P) :
    Gives furtherStrings fun tokens => ∀ t ∈ tokens, P t := by
  have hstring : Gives furtherString P := Gives.andThen fun _ => h
  intro c next tokens hrun
  fun_induction furtherStrings c generalizing tokens next with
  | case1 c hend =>
    cases hrun
    simp
  | case2 c hend stray hstray => contradiction
  | case3 c hend token next' hnext _ stray hstray ih => contradiction
  | case4 c hend token next' hnext _ tokens' stop hrest ih =>
    cases hrun
    exact List.forall_mem_cons.2 ⟨hstring c next' token hnext, ih _ _ hrest⟩

theorem gives_amount : Gives amount Token.IsPrice := by
  refine Gives.node (gives_nominal.bind fun nominal hnominal => Gives.andThen fun _ => ?_)
  refine gives_currency.bind fun currency hcurrency => Gives.pure fun text position => ?_
  obtain ⟨value, hvalue⟩ := hnominal
  exact ⟨rfl, _, Price.ofToken_parts hvalue, hcurrency⟩

theorem gives_amountWithPrice :
    Gives amountWithPrice (Token.Says Amount.ofToken (·.isWritable 1 = true)) := by
  refine Gives.node (gives_amount.bind fun first hfirst => Gives.andThen fun follows => ?_)
  cases follows with
  | false => exact Gives.pure (Token.saysAmount_of_prices hfirst (by simp) (by simp))
  | true =>
    refine Gives.andThen fun _ => gives_amount.bind fun price hprice => Gives.pure ?_
    exact Token.saysAmount_of_prices hfirst (by simpa using hprice) (by simp)

theorem gives_posting : Gives posting (Token.Says Posting.ofToken (·.isWritable = true)) := by
  refine Gives.lineOf (gives_account.bind fun account haccount => Gives.andThen fun atEnd => ?_)
  obtain ⟨name, hname, hwritable⟩ := haccount
  cases atEnd with
  | true =>
    refine Gives.pure fun text position => ⟨_, Posting.ofToken_account hname, ?_⟩
    simp [Posting.isWritable, hwritable]
  | false =>
    refine Gives.andThen fun _ => gives_amountWithPrice.bind fun amount hamount => ?_
    obtain ⟨a, ha, hprices⟩ := hamount
    refine Gives.pure fun text position => ⟨_, Posting.ofToken_amount hname ha, ?_⟩
    simp [Posting.isWritable, hwritable, hprices]

theorem gives_header : Gives header (Token.Says Header.ofToken (·.isWritable = true)) := by
  refine Gives.node (gives_flag.bind fun flag hflag => Gives.andThen fun _ => ?_)
  obtain ⟨state, hstate, hreal⟩ := hflag
  refine gives_string.bind fun first hfirst => Gives.andThen fun atEnd => ?_
  cases atEnd with
  | true =>
    refine Gives.pure fun text position =>
      ⟨⟨state, none, first.value⟩, Header.ofToken_strings hstate rfl, ?_⟩
    simp [Header.isWritable, Header.strings, hreal, hfirst]
  | false =>
    refine Gives.andThen fun _ => gives_string.bind fun second hsecond => ?_
    refine Gives.pure fun text position =>
      ⟨⟨state, some first.value, second.value⟩, Header.ofToken_strings hstate rfl, ?_⟩
    simp [Header.isWritable, Header.strings, hreal, hfirst, hsecond]

end Scan

end DoubleEntry
