import DoubleEntry.Ledger.Entry
import DoubleEntry.Proofs.Collection.SortedMap
import DoubleEntry.Proofs.Transaction.Inferred

/-! What a statement that succeeds changes, and what the entries it files refer to. -/
namespace DoubleEntry

/-! ## Transactions -/

namespace Transaction

variable {κ : Type} [DecidableEq κ]

/-- The amount of a leg as written, or one without prices in the currency of a written one. -/
def IsAmountOf (legs : List (Leg κ)) (a : Amount κ) : Prop :=
  (∃ leg ∈ legs, leg.amount = some a) ∨
    a.prices = [] ∧ ∃ leg ∈ legs, ∃ written, leg.amount = some written ∧
      a.currency = written.currency

theorem exchange_of_ofLegs {header : Header} {legs : List (Leg κ)} {t : Transaction κ}
    (h : ofLegs header legs = .ok t) {exchange : Exchange κ} (hmem : exchange ∈ t.exchanges) :
    (∃ leg ∈ legs, leg.account = exchange.account) ∧ IsAmountOf legs exchange.amount := by
  by_cases hone : legs.countP (·.amount.isNone) = 1
  · obtain ⟨first, others, inferred, hwritten, hinferred, rfl⟩ := exists_inferred_of_ofLegs hone h
    obtain ⟨leg, hleg, rfl⟩ := List.mem_map.1 hmem
    obtain ⟨account, amount⟩ := leg
    cases amount with
    | some amount => exact ⟨⟨_, hleg, rfl⟩, .inl ⟨_, hleg, rfl⟩⟩
    | none =>
      obtain ⟨_, -, hvalue⟩ :=
        (inferredAmount_outcome first (first :: others)).wanted inferred hinferred
      obtain ⟨other, hother, hfirst⟩ := List.mem_filterMap.1
        (hwritten ▸ List.mem_cons_self : first ∈ legs.filterMap (·.amount))
      exact ⟨⟨_, hleg, rfl⟩, .inr ⟨hvalue.prices, other, hother, first, hfirst, hvalue.currency⟩⟩
  · unfold ofLegs at h
    split at h
    · cases h
      obtain ⟨leg, hleg, hexchange⟩ := List.mem_filterMap.1 hmem
      obtain ⟨amount, hamount, rfl⟩ := Option.map_eq_some_iff.1 hexchange
      exact ⟨⟨leg, hleg, rfl⟩, .inl ⟨leg, hleg, hamount⟩⟩
    · contradiction
    · contradiction

end Transaction

/-! ## Currencies -/

namespace CurrencyTable

variable {t : CurrencyTable}

theorem lookup_eq_ok_iff {code : String} {index : Int} :
    t.lookup code = .ok index ↔ t.codes.index? code = some index := by
  unfold lookup
  cases t.codes.index? code <;> simp

/-- Every currency that an amount refers to is one that was looked up. -/
theorem currency_of_resolve {a : Amount String} {b : Amount Int} (h : t.resolve a = .ok b) {c : Int}
    (hc : c ∈ b.currency :: b.prices.map (·.currency)) : ∃ code, t.codes.index? code = some c := by
  obtain ⟨prices, hprices, h⟩ := bind_eq_ok_iff.1 h
  obtain ⟨currency, hcurrency, h⟩ := bind_eq_ok_iff.1 h
  cases h
  rcases List.mem_cons.1 hc with rfl | hc
  · exact ⟨a.currency, lookup_eq_ok_iff.1 hcurrency⟩
  · obtain ⟨price, hprice, rfl⟩ := List.mem_map.1 hc
    obtain ⟨written, _, hwritten⟩ := exists_mem_of_mapM_eq_ok hprices hprice
    obtain ⟨index, hindex, hwritten⟩ := bind_eq_ok_iff.1 hwritten
    cases hwritten
    exact ⟨written.currency, lookup_eq_ok_iff.1 hindex⟩

end CurrencyTable

/-! ## Books -/

/-- Puts an entry behind those of its kind. -/
def DayBook.add (e : Entry) (b : DayBook) : DayBook :=
  match e with
  | .custom args => { b with custom := b.custom ++ [args] }
  | .pad pad => { b with pads := b.pads ++ [pad] }
  | .balance assertion => { b with balanceAssertions := b.balanceAssertions ++ [assertion] }
  | .transaction transaction => { b with transactions := b.transactions ++ [transaction] }
  | .price declaration => { b with prices := b.prices ++ [declaration] }

theorem DayBook.mem_entries_add {b : DayBook} {e e' : Entry} :
    e' ∈ (b.add e).entries ↔ e' ∈ b.entries ∨ e' = e := by
  cases e <;> simp only [add, entries, List.map_append, List.map_cons, List.map_nil,
    List.mem_append, List.mem_singleton] <;> grind

/-- The quote of a price declaration. -/
def PriceHistory.record (h : PriceHistory) (day : Date) : Entry → PriceHistory
  | .price d => h.add ⟨d.currency, d.price.currency⟩ ⟨day, .finite d.price.nominal⟩
  | _ => h

namespace Ledger

variable {l after : Ledger} {statement : Statement} {day day' : Date} {e e' : Entry}

/-- Puts an entry into the book of its day. -/
def enter (l : Ledger) (day : Date) (e : Entry) : Ledger :=
  { l with prices := l.prices.record day e }.file day (DayBook.add e)

theorem mem_entries_iff :
    (day, e) ∈ l.entries ↔ ∃ book, l.book? day = some book ∧ e ∈ book.entries := by
  unfold entries
  rw [List.mem_flatMap]
  constructor
  · rintro ⟨⟨day', book⟩, hbook, hentry⟩
    obtain ⟨e', he', heq⟩ := List.mem_map.1 hentry
    cases heq
    exact ⟨book, SortedMap.mem_entries_iff.1 hbook, he'⟩
  · rintro ⟨book, hbook, hentry⟩
    exact ⟨(day, book), SortedMap.mem_entries_iff.2 hbook, List.mem_map.2 ⟨e, hentry, rfl⟩⟩

theorem book?_enter (l : Ledger) (day day' : Date) (e : Entry) :
    (l.enter day e).book? day' =
      if day = day' then some (((l.book? day).getD .empty).add e) else l.book? day' :=
  book?_file { l with prices := l.prices.record day e } day day' (DayBook.add e)

theorem mem_entries_enter :
    (day', e') ∈ (l.enter day e).entries ↔ (day', e') ∈ l.entries ∨ day' = day ∧ e' = e := by
  rw [mem_entries_iff, mem_entries_iff, book?_enter]
  by_cases hday : day = day'
  · subst hday
    cases hold : l.book? day with
    | none =>
      have hempty : DayBook.empty.entries = [] := rfl
      simp [DayBook.mem_entries_add, hempty]
    | some book => simp [DayBook.mem_entries_add]
  · simp [hday, Ne.symm hday]

/-! ## Statements -/

/-- What a statement files, and the day it files it under. -/
inductive EntryOf (l : Ledger) : Statement → Date → Entry → Prop where
  | custom (day : Date) (args : List String) : EntryOf l (.custom day args) day (.custom args)
  | pad {day : Date} {target source : AccountName} {target' source' : AccountRef}
      (htarget : l.accounts.resolve target day = .ok target')
      (hsource : l.accounts.resolve source day = .ok source') :
      EntryOf l (.pad day target source) day (.pad ⟨target', source'⟩)
  | balance {day : Date} {account : AccountName} {amount : Amount String} {account' : AccountRef}
      {amount' : Amount Int} (haccount : l.accounts.resolve account day = .ok account')
      (hamount : l.currencies.resolve amount = .ok amount') :
      EntryOf l (.balance day account amount) day (.balance ⟨account', amount'⟩)
  | price {day : Date} {code : String} {amount : Amount String} {currency : Int}
      {quote : Amount Int} (hcode : l.currencies.codes.index? code = some currency)
      (hquote : l.currencies.resolve amount = .ok quote) :
      EntryOf l (.price day code amount) day (.price ⟨currency, ⟨quote.nominal, quote.currency⟩⟩)
  | transaction {day : Date} {header : Header} {postings : List Posting} {t : Transaction Int}
      (h : l.transactionOf day header postings = .ok t) :
      EntryOf l (.transaction day header postings) day (.transaction t)

theorem entryOf?_eq_some_iff :
    l.entryOf? statement = some (day, e) ↔ l.EntryOf statement day e := by
  constructor
  · intro h
    cases statement with
    | unit code => contradiction
    | openAccount day account => contradiction
    | closeAccount day account => contradiction
    | custom day args =>
      cases h
      exact .custom day args
    | pad day target source =>
      obtain ⟨target', htarget, h⟩ := Option.bind_eq_some_iff.1 h
      obtain ⟨source', hsource, h⟩ := Option.bind_eq_some_iff.1 h
      cases h
      exact .pad (toOption_eq_some_iff.1 htarget) (toOption_eq_some_iff.1 hsource)
    | balance day account amount =>
      obtain ⟨account', haccount, h⟩ := Option.bind_eq_some_iff.1 h
      obtain ⟨amount', hamount, h⟩ := Option.bind_eq_some_iff.1 h
      cases h
      exact .balance (toOption_eq_some_iff.1 haccount) (toOption_eq_some_iff.1 hamount)
    | price day code amount =>
      obtain ⟨currency, hcode, h⟩ := Option.bind_eq_some_iff.1 h
      obtain ⟨quote, hquote, h⟩ := Option.bind_eq_some_iff.1 h
      cases h
      exact .price hcode (toOption_eq_some_iff.1 hquote)
    | transaction day header postings =>
      obtain ⟨t, ht, h⟩ := Option.bind_eq_some_iff.1 h
      cases h
      exact .transaction (toOption_eq_some_iff.1 ht)
  · intro h
    cases h with
    | custom day args => rfl
    | pad htarget hsource => simp [entryOf?, htarget, hsource, Except.toOption]
    | balance haccount hamount => simp [entryOf?, haccount, hamount, Except.toOption]
    | price hcode hquote => simp [entryOf?, hcode, hquote, Except.toOption]
    | transaction ht => simp [entryOf?, ht, Except.toOption]

/-- All that a statement can do. -/
inductive Effect (l : Ledger) : Statement → Ledger → Prop where
  | unit (code : String) :
      Effect l (.unit code) { l with currencies := ⟨(l.currencies.codes.intern code).1⟩ }
  | openAccount (day : Date) (account : AccountName) :
      Effect l (.openAccount day account) { l with accounts := (l.accounts.openAt account day).1 }
  | closeAccount {accounts : AccountRegistry} {ref : AccountRef} (day : Date)
      (account : AccountName) (h : l.accounts.closeAt account day = .ok (accounts, ref)) :
      Effect l (.closeAccount day account) { l with accounts }
  | entry {statement : Statement} {day : Date} {e : Entry}
      (h : l.entryOf? statement = some (day, e)) : Effect l statement (l.enter day e)

theorem EntryOf.effect (h : l.EntryOf statement day e) : l.Effect statement (l.enter day e) :=
  .entry (entryOf?_eq_some_iff.2 h)

theorem effect_of_process (h : l.process statement = .ok after) : l.Effect statement after := by
  cases statement with
  | unit code =>
    obtain ⟨⟨currencies, index⟩, hdeclare, h⟩ := bind_eq_ok_iff.1 h
    cases h
    have hdeclare := mapError_eq_ok_iff.1 hdeclare
    unfold CurrencyTable.declare at hdeclare
    split at hdeclare
    · contradiction
    · cases hdeclare
      exact .unit code
  | openAccount day account =>
    cases h
    exact .openAccount day account
  | closeAccount day account =>
    obtain ⟨⟨accounts, ref⟩, hclose, h⟩ := bind_eq_ok_iff.1 h
    cases h
    exact .closeAccount day account (mapError_eq_ok_iff.1 hclose)
  | custom day args =>
    cases h
    exact (EntryOf.custom day args).effect
  | pad day target source =>
    obtain ⟨target', htarget, h⟩ := bind_eq_ok_iff.1 h
    obtain ⟨source', hsource, h⟩ := bind_eq_ok_iff.1 h
    cases h
    exact (EntryOf.pad (mapError_eq_ok_iff.1 htarget) (mapError_eq_ok_iff.1 hsource)).effect
  | balance day account amount =>
    obtain ⟨account', haccount, h⟩ := bind_eq_ok_iff.1 h
    obtain ⟨amount', hamount, h⟩ := bind_eq_ok_iff.1 h
    cases h
    exact (EntryOf.balance (mapError_eq_ok_iff.1 haccount) (mapError_eq_ok_iff.1 hamount)).effect
  | price day code amount =>
    obtain ⟨currency, hcode, h⟩ := bind_eq_ok_iff.1 h
    obtain ⟨quote, hquote, h⟩ := bind_eq_ok_iff.1 h
    cases h
    have hindex := CurrencyTable.lookup_eq_ok_iff.1 (mapError_eq_ok_iff.1 hcode)
    exact (EntryOf.price hindex (mapError_eq_ok_iff.1 hquote)).effect
  | transaction day header postings =>
    obtain ⟨t, ht, h⟩ := bind_eq_ok_iff.1 h
    cases h
    exact (EntryOf.transaction ht).effect

/-! ## What entries refer to -/

/-- The parts of a leg are what is found for those of its posting. -/
theorem resolve_of_legOf {posting : Posting} {leg : Leg Int} (h : l.legOf day posting = .ok leg) :
    l.accounts.resolve posting.account day = .ok leg.account ∧
      ∀ a, leg.amount = some a →
        ∃ written, posting.amount = some written ∧ l.currencies.resolve written = .ok a := by
  obtain ⟨account, haccount, h⟩ := bind_eq_ok_iff.1 h
  obtain ⟨amount, hamount, h⟩ := bind_eq_ok_iff.1 h
  cases h
  refine ⟨mapError_eq_ok_iff.1 haccount, fun a ha => ?_⟩
  cases hposting : posting.amount with
  | none =>
    rw [hposting] at hamount
    cases hamount
    contradiction
  | some written =>
    rw [hposting] at hamount
    obtain ⟨b, hb, hamount⟩ := bind_eq_ok_iff.1 hamount
    cases hamount
    cases ha
    exact ⟨written, rfl, mapError_eq_ok_iff.1 hb⟩

theorem exists_legs_of_transactionOf {header : Header} {postings : List Posting}
    {t : Transaction Int} (h : l.transactionOf day header postings = .ok t) :
    ∃ legs, (∀ leg ∈ legs, ∃ posting ∈ postings, l.legOf day posting = .ok leg) ∧
      Transaction.ofLegs header legs = .ok t := by
  obtain ⟨legs, hlegs, h⟩ := bind_eq_ok_iff.1 h
  exact ⟨legs, fun leg => exists_mem_of_mapM_eq_ok hlegs, mapError_eq_ok_iff.1 h⟩

theorem exchange_of_transactionOf {header : Header} {postings : List Posting} {t : Transaction Int}
    (h : l.transactionOf day header postings = .ok t) {exchange : Exchange Int}
    (hmem : exchange ∈ t.exchanges) :
    (∃ account, l.accounts.resolve account day = .ok exchange.account) ∧
      ∀ c ∈ exchange.amount.currency :: exchange.amount.prices.map (·.currency),
        ∃ code, l.currencies.codes.index? code = some c := by
  obtain ⟨legs, hlegs, ht⟩ := exists_legs_of_transactionOf h
  obtain ⟨⟨leg, hleg, haccount⟩, hamount⟩ := Transaction.exchange_of_ofLegs ht hmem
  constructor
  · obtain ⟨posting, _, hposting⟩ := hlegs leg hleg
    exact ⟨posting.account, haccount ▸ (resolve_of_legOf hposting).1⟩
  · intro c hc
    rcases hamount with ⟨leg, hleg, hwritten⟩ | ⟨hprices, leg, hleg, written, hwritten, hcurrency⟩
    · obtain ⟨posting, _, hposting⟩ := hlegs leg hleg
      obtain ⟨_, _, hresolve⟩ := (resolve_of_legOf hposting).2 _ hwritten
      exact CurrencyTable.currency_of_resolve hresolve hc
    · obtain ⟨posting, _, hposting⟩ := hlegs leg hleg
      obtain ⟨_, _, hresolve⟩ := (resolve_of_legOf hposting).2 _ hwritten
      rw [hprices, hcurrency, List.map_nil, List.mem_singleton] at hc
      exact CurrencyTable.currency_of_resolve hresolve (hc ▸ List.mem_cons_self)

/-- An entry refers to accounts that may be used on its day, and to declared currencies. -/
theorem references_of_entryOf? (h : l.entryOf? statement = some (day, e)) :
    (∀ ref ∈ e.accounts, ∃ account, l.accounts.resolve account day = .ok ref) ∧
      ∀ c ∈ e.currencies, ∃ code, l.currencies.codes.index? code = some c := by
  cases entryOf?_eq_some_iff.1 h with
  | custom day args => simp [Entry.accounts, Entry.currencies, Entry.amounts]
  | pad htarget hsource =>
    refine ⟨?_, by simp [Entry.currencies, Entry.amounts]⟩
    exact List.forall_mem_cons.2 ⟨⟨_, htarget⟩, List.forall_mem_singleton.2 ⟨_, hsource⟩⟩
  | balance haccount hamount =>
    refine ⟨List.forall_mem_singleton.2 ⟨_, haccount⟩, fun c hc => ?_⟩
    simp only [Entry.currencies, Entry.amounts, List.flatMap_cons, List.flatMap_nil,
      List.append_nil] at hc
    exact CurrencyTable.currency_of_resolve hamount hc
  | price hcode hquote =>
    refine ⟨by simp [Entry.accounts], ?_⟩
    exact List.forall_mem_cons.2 ⟨⟨_, hcode⟩, List.forall_mem_singleton.2
      (CurrencyTable.currency_of_resolve hquote List.mem_cons_self)⟩
  | transaction ht =>
    constructor
    · intro ref href
      obtain ⟨exchange, hmem, rfl⟩ := List.mem_map.1 href
      exact (exchange_of_transactionOf ht hmem).1
    · intro c hc
      simp only [Entry.currencies, Entry.amounts, List.append_nil, List.flatMap_map,
        List.mem_flatMap] at hc
      obtain ⟨exchange, hmem, hc⟩ := hc
      exact (exchange_of_transactionOf ht hmem).2 c hc

end Ledger
end DoubleEntry
