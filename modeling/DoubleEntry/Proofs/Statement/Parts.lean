import DoubleEntry.Statement.OfToken
import DoubleEntry.Statement.Written

/-! What a token means by what its parts mean. -/
namespace DoubleEntry

variable {rule : Rule} {text : String} {position : Position}

theorem Price.ofToken_parts {nominal currency : Token} {value : Decimal}
    (h : Decimal.ofText nominal.text = .ok value) :
    Price.ofToken ⟨.amount, text, position, [nominal, currency]⟩ = .ok ⟨value, currency.text⟩ := by
  simp only [ofToken, h]
  rfl

/-- A price on its own is an amount without prices. -/
theorem Amount.ofToken_of_price {t : Token} {p : Price String} (hrule : t.rule = .amount)
    (h : Price.ofToken t = .ok p) : Amount.ofToken t = .ok ⟨p.nominal, p.currency, []⟩ := by
  unfold ofToken
  simp only [hrule, h]
  rfl

theorem Amount.ofToken_prices {first : Token} {others : List Token} {p : Price String}
    {prices : List (Price String)} (hfirst : Price.ofToken first = .ok p)
    (hothers : others.mapM Price.ofToken = .ok prices) :
    Amount.ofToken ⟨.amountWithPrice, text, position, first :: others⟩ =
      .ok ⟨p.nominal, p.currency, prices⟩ := by
  simp only [ofToken, hfirst, hothers]
  rfl

theorem Posting.ofToken_account {account : Token} {name : AccountName}
    (h : AccountName.ofToken account = .ok name) :
    Posting.ofToken ⟨rule, text, position, [account]⟩ = .ok ⟨name, none⟩ := by
  simp only [ofToken, h]
  rfl

theorem Posting.ofToken_amount {account amount : Token} {name : AccountName} {a : Amount String}
    (haccount : AccountName.ofToken account = .ok name) (hamount : Amount.ofToken amount = .ok a) :
    Posting.ofToken ⟨rule, text, position, [account, amount]⟩ = .ok ⟨name, some a⟩ := by
  simp only [ofToken, haccount, hamount]
  rfl

theorem Header.ofToken_strings {flag : Token} {strings : List Token} {h : Header}
    (hflag : TransactionState.ofFlag? flag.text = some h.state)
    (hstrings : strings.map Token.value = h.strings) :
    Header.ofToken ⟨rule, text, position, flag :: strings⟩ = .ok h := by
  obtain ⟨state, payee, title⟩ := h
  simp only [ofToken, hflag]
  cases payee with
  | none =>
    obtain ⟨first, rfl, hfirst⟩ := List.map_eq_singleton_iff.1 hstrings
    simp only [hfirst]
  | some payee =>
    obtain ⟨first, others, rfl, hfirst, hothers⟩ := List.map_eq_cons_iff.1 hstrings
    obtain ⟨second, rfl, hsecond⟩ := List.map_eq_singleton_iff.1 hothers
    simp only [hfirst, hsecond]

/-! ## Dated statements

Only their dates are left to go wrong. -/

namespace Statement

variable {date : Token}

theorem ofDated_custom (args : List Token) :
    ofDated ⟨.custom, text, position, date :: args⟩ =
      (custom · (args.map Token.value)) <$> Date.ofToken date := by
  simp only [ofDated]
  cases Date.ofToken date <;> rfl

theorem ofDated_openAccount {t : Token} {account : AccountName}
    (h : AccountName.ofToken t = .ok account) :
    ofDated ⟨.openAccount, text, position, [date, t]⟩ =
      (openAccount · account) <$> Date.ofToken date := by
  simp only [ofDated, h]
  cases Date.ofToken date <;> rfl

theorem ofDated_closeAccount {t : Token} {account : AccountName}
    (h : AccountName.ofToken t = .ok account) :
    ofDated ⟨.closeAccount, text, position, [date, t]⟩ =
      (closeAccount · account) <$> Date.ofToken date := by
  simp only [ofDated, h]
  cases Date.ofToken date <;> rfl

theorem ofDated_pad {t s : Token} {target source : AccountName}
    (htarget : AccountName.ofToken t = .ok target) (hsource : AccountName.ofToken s = .ok source) :
    ofDated ⟨.pad, text, position, [date, t, s]⟩ = (pad · target source) <$> Date.ofToken date := by
  simp only [ofDated, htarget, hsource]
  cases Date.ofToken date <;> rfl

theorem ofDated_balance {t n : Token} {account : AccountName} {amount : Amount String}
    (haccount : AccountName.ofToken t = .ok account) (hamount : Amount.ofToken n = .ok amount) :
    ofDated ⟨.balance, text, position, [date, t, n]⟩ =
      (balance · account amount) <$> Date.ofToken date := by
  simp only [ofDated, haccount, hamount]
  cases Date.ofToken date <;> rfl

theorem ofDated_price {code n : Token} {amount : Amount String}
    (hamount : Amount.ofToken n = .ok amount) :
    ofDated ⟨.price, text, position, [date, code, n]⟩ =
      (price · code.text amount) <$> Date.ofToken date := by
  simp only [ofDated, hamount]
  cases Date.ofToken date <;> rfl

theorem ofDated_transaction {header : Token} {postings : List Token} {outer : String}
    {place : Position} {h : Header} {ps : List Posting} (hheader : Header.ofToken header = .ok h)
    (hpostings : postings.mapM Posting.ofToken = .ok ps) :
    ofDated ⟨.transaction, text, position, [date, header, ⟨.txnList, outer, place, postings⟩]⟩ =
      (transaction · h ps) <$> Date.ofToken date := by
  simp only [ofDated, Posting.listOfToken, hheader, hpostings]
  cases Date.ofToken date <;> rfl

end Statement

end DoubleEntry
