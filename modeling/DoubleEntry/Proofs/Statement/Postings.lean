import DoubleEntry.Proofs.Statement.Words

/-! Amounts, postings and transaction headers as written are read as what they are written from, up to
how their numbers are written. -/
namespace DoubleEntry

open Scan Text

def Price.canonical (p : Price String) : Price String := ⟨p.nominal.canonical, p.currency⟩

def Posting.canonical (p : Posting) : Posting := { p with amount := p.amount.map Amount.canonical }

namespace Token

def IsPriceOf (t : Token) (p : Price String) : Prop :=
  t.rule = .amount ∧ ∃ price, Price.ofToken t = .ok price ∧ price.canonical = p.canonical

def IsAmountOf (t : Token) (a : Amount String) : Prop :=
  ∃ amount, Amount.ofToken t = .ok amount ∧ amount.canonical = a.canonical

def IsPostingOf (t : Token) (p : Posting) : Prop :=
  ∃ posting, Posting.ofToken t = .ok posting ∧ posting.canonical = p.canonical

theorem IsPriceOf.isAmountOf {t : Token} {p : Price String} (h : t.IsPriceOf p) :
    t.IsAmountOf ⟨p.nominal, p.currency, []⟩ := by
  obtain ⟨hrule, price, hprice, hcanonical⟩ := h
  unfold Price.canonical at hcanonical
  obtain ⟨hnominal, hcurrency⟩ := Price.mk.inj hcanonical
  refine ⟨_, Amount.ofToken_of_price hrule hprice, ?_⟩
  unfold Amount.canonical
  rw [hnominal, hcurrency]

theorem isAmountOf_of_prices {text : String} {position : Position} {first : Token}
    {others : List Token} {a : Amount String} (hfirst : first.IsPriceOf ⟨a.nominal, a.currency⟩)
    (hothers : List.Forall₂ IsPriceOf others a.prices) :
    IsAmountOf ⟨.amountWithPrice, text, position, first :: others⟩ a := by
  obtain ⟨price, hprice, hcanonical⟩ := hfirst.2
  obtain ⟨prices, hprices, hmap⟩ := exists_mapM_of_forall₂ (hothers.imp fun _ _ h => h.2)
  unfold Price.canonical at hcanonical
  obtain ⟨hnominal, hcurrency⟩ := Price.mk.inj hcanonical
  refine ⟨_, Amount.ofToken_prices hprice hprices, ?_⟩
  unfold Amount.canonical
  rw [hnominal, hcurrency]
  exact congrArg _ hmap

end Token

namespace Scan

variable {rest : List Char}

theorem reads_amount {p : Price String} (h : Lexeme.isCurrency p.currency.toList = true)
    (hrest : Lexeme.endsHere rest = true) : Reads amount p.chars rest (·.IsPriceOf p) := by
  refine Reads.node ((reads_nominal p.nominal rfl).bind fun nominal hnominal => ?_)
  apply Reads.gap ((startsInk_code h).append rest)
  refine (reads_currency h hrest).close fun currency hcurrency => Reads.pure fun text position => ?_
  obtain ⟨value, hvalue, hcanonical⟩ := hnominal
  refine ⟨rfl, _, Price.ofToken_parts hvalue, ?_⟩
  unfold Price.canonical
  rw [hcanonical, hcurrency]

/-- Nothing may follow an amount without a price, since that would be read as one. -/
theorem reads_amountWithPrice {a : Amount String} (h : a.isWritable 1 = true) :
    Reads amountWithPrice a.chars [] (·.IsAmountOf a) := by
  obtain ⟨⟨hcurrency, hcodes⟩, hlength⟩ := (Amount.isWritable_iff 1 a).1 h
  have hfirst (rest : List Char) (hrest : Lexeme.endsHere rest = true) :
      Reads amount (Price.chars ⟨a.nominal, a.currency⟩) rest
        (·.IsPriceOf ⟨a.nominal, a.currency⟩) := reads_amount hcurrency hrest
  refine Reads.node ?_
  match hprices : a.prices with
  | [] =>
    have hchars : a.chars = Price.chars ⟨a.nominal, a.currency⟩ := by
      simp [Amount.chars, Price.chars, hprices]
    rw [hchars]
    refine (hfirst [] rfl).close fun first hfirst => ?_
    refine reads_priceFollows_nil.look fun follows hfollows => ?_
    cases hfollows
    refine Reads.pure fun _ _ => Token.isAmountOf_of_prices hfirst ?_
    rw [hprices]
    exact .nil
  | [price] =>
    have hcode : Lexeme.isCurrency price.currency.toList = true := hcodes price (by simp [hprices])
    have hchars : a.chars = Price.chars ⟨a.nominal, a.currency⟩ ++
        ([' ', priceMark] ++ ' ' :: price.chars) := by
      simp [Amount.chars, Price.chars, hprices]
    rw [hchars]
    refine (hfirst _ rfl).bind fun first hfirst => ?_
    refine (reads_priceFollows_mark _).bind fun follows hfollows => ?_
    cases hfollows
    apply Reads.gap ((startsInk_plainChars price.nominal).append _ |>.append [])
    refine (reads_amount hcode rfl).close fun second hsecond => ?_
    refine Reads.pure fun _ _ => Token.isAmountOf_of_prices hfirst ?_
    rw [hprices]
    exact .cons hsecond .nil
  | _ :: _ :: _ => simp [hprices] at hlength

theorem reads_posting {p : Posting} (h : p.isWritable = true) :
    Reads posting (spaced (p.account.chars :: (p.amount.map Amount.chars).toList)) []
      (·.IsPostingOf p) := by
  obtain ⟨name, amount⟩ := p
  unfold Posting.isWritable at h
  simp only [Bool.and_eq_true] at h
  obtain ⟨hname, hamount⟩ := h
  refine Reads.lineOf ?_
  cases amount with
  | none =>
    rw [Option.map_none, Option.toList_none, spaced_singleton]
    refine (reads_account hname rfl).close fun account haccount => ?_
    refine reads_isAtLineEnd_nil.look fun atEnd hatEnd => ?_
    cases hatEnd
    exact Reads.pure fun _ _ => ⟨⟨name, none⟩, Posting.ofToken_account haccount, rfl⟩
  | some a =>
    have hlead : StartsInk a.chars := (startsInk_plainChars a.nominal).append _ |>.append _
    rw [Option.map_some, Option.toList_some, spaced_cons_cons, spaced_singleton]
    refine (reads_account hname rfl).bind fun account haccount => ?_
    refine Reads.look (reads_isAtLineEnd_ink (hlead.append [])) fun atEnd hatEnd => ?_
    cases hatEnd
    apply Reads.gap (hlead.append [])
    refine (reads_amountWithPrice hamount).close fun amount hamount => Reads.pure fun _ _ => ?_
    obtain ⟨parsed, hparsed, hcanonical⟩ := hamount
    refine ⟨⟨name, some parsed⟩, Posting.ofToken_amount haccount hparsed, ?_⟩
    unfold Posting.canonical
    simp only [Option.map_some, hcanonical]

theorem reads_header {h : Header} (hwritable : h.isWritable = true) :
    Reads header (spaced (h.state.flag.toList :: h.strings.map quotedChars)) [] fun t =>
      Header.ofToken t = .ok h := by
  obtain ⟨state, payee, title⟩ := h
  unfold Header.isWritable at hwritable
  simp only [Bool.and_eq_true, decide_eq_true_eq] at hwritable
  obtain ⟨hstate, hstrings⟩ := hwritable
  refine Reads.node ?_
  cases payee with
  | none =>
    have htitle : isQuotable title = true := by simpa [Header.strings] using hstrings
    have hline : spaced (state.flag.toList ::
        (Header.mk state none title).strings.map quotedChars) =
          state.flag.toList ++ ' ' :: quotedChars title := by simp [Header.strings]
    rw [hline]
    refine (reads_flag hstate rfl).bind fun flag hflag => ?_
    refine Reads.gap (startsInk_quotedChars title) ?_
    refine (reads_string htitle rfl).close fun first hfirst => ?_
    refine reads_isAtLineEnd_nil.look fun atEnd hatEnd => ?_
    cases hatEnd
    refine Reads.pure fun _ _ => Header.ofToken_strings hflag ?_
    simp [Header.strings, hfirst]
  | some payee =>
    have hboth : isQuotable payee = true ∧ isQuotable title = true := by
      simpa [Header.strings] using hstrings
    have hline : spaced (state.flag.toList ::
        (Header.mk state (some payee) title).strings.map quotedChars) =
          state.flag.toList ++ ' ' :: (quotedChars payee ++ ' ' :: quotedChars title) := by
      simp [Header.strings]
    rw [hline]
    refine (reads_flag hstate rfl).bind fun flag hflag => ?_
    refine Reads.gap (startsInk_quotedChars payee) ?_
    refine (reads_string hboth.1 rfl).bind fun first hfirst => ?_
    refine Reads.look (reads_isAtLineEnd_ink (startsInk_quotedChars title)) fun atEnd hatEnd => ?_
    cases hatEnd
    refine Reads.gap (startsInk_quotedChars title) ?_
    refine (reads_string hboth.2 rfl).close fun second hsecond => ?_
    refine Reads.pure fun _ _ => Header.ofToken_strings hflag ?_
    simp [Header.strings, hfirst, hsecond]

end Scan

end DoubleEntry
