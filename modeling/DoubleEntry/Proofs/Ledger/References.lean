import DoubleEntry.Proofs.Account.ByName
import DoubleEntry.Proofs.Ledger.Applied

/-! What the entries of a ledger refer to, the ledger knows, and goes on knowing under the same
names, whatever it is asked to do. -/
namespace DoubleEntry

namespace Ledger

variable {l after : Ledger}

/-- Every entry refers to accounts that were opened and to currencies that were declared. -/
structure Intact (l : Ledger) : Prop where
  named : ∃ n, l.accounts.ByName n
  accounts {day e} : (day, e) ∈ l.entries → ∀ ref ∈ e.accounts, ref ∈ l.accounts.windows.keys
  currencies {day e} : (day, e) ∈ l.entries →
    ∀ c ∈ e.currencies, ∃ code, l.currencies.codes.name? c = some code
  pairs : ∀ pair ∈ l.prices.pairs, ∀ c ∈ [pair.base, pair.target],
    ∃ code, l.currencies.codes.name? c = some code

theorem intact_empty (verbose : Bool) : (empty verbose).Intact where
  named := ⟨.empty, rfl, .nil⟩
  accounts h := by contradiction
  currencies h := by contradiction
  pairs _ h := by contradiction

theorem mem_pairs_record {h : PriceHistory} {day : Date} {e : Entry} {pair : CurrencyPair}
    (hpair : pair ∈ (h.record day e).pairs) :
    pair ∈ h.pairs ∨ ∀ c ∈ [pair.base, pair.target], c ∈ e.currencies := by
  cases e with
  | price d =>
    obtain ⟨entry, hentry, rfl⟩ := List.mem_map.1 hpair
    rcases SortedMap.key_of_mem_alterEntries hentry with hkey | hentry
    · refine .inr ?_
      rw [hkey]
      exact fun c hc => hc
    · exact .inl (List.mem_map.2 ⟨entry, hentry, rfl⟩)
  | _ => exact .inl hpair

theorem Intact.effect {statement : Statement} (h : l.Intact) (heffect : l.Effect statement after) :
    after.Intact := by
  -- names are only added, so what stands for a currency goes on doing so
  have hname {c : Int} (hc : ∃ code, l.currencies.codes.name? c = some code) :
      ∃ code, after.currencies.codes.name? c = some code :=
    hc.imp fun _ => NameTable.name?_of_grown (prefix_of_effect heffect).2
  cases heffect with
  | unit code =>
    exact ⟨h.named, h.accounts, fun hmem c hc => hname (h.currencies hmem c hc),
      fun pair hpair c hc => hname (h.pairs pair hpair c hc)⟩
  | openAccount day account =>
    obtain ⟨n, hn⟩ := h.named
    exact ⟨⟨_, hn.openAt account day⟩,
      fun hmem ref href => KeyedList.mem_keys_alter.2 (.inl (h.accounts hmem ref href)),
      h.currencies, h.pairs⟩
  | closeAccount day account hclose =>
    obtain ⟨n, hn⟩ := h.named
    have hafter := hn.closeAt account day
    rw [hclose] at hafter
    obtain ⟨after', _, hafter, _⟩ := hafter
    refine ⟨⟨after', hafter⟩, fun hmem ref href => ?_, h.currencies, h.pairs⟩
    obtain ⟨windows, rfl⟩ := AccountRegistry.closeAt_eq_ok hclose
    exact KeyedList.mem_keys_alter.2 (.inl (h.accounts hmem ref href))
  | @entry _ day e hentry =>
    obtain ⟨haccounts, hcurrencies⟩ := references_of_entryOf? hentry
    have hcode (c : Int) (hc : c ∈ e.currencies) :
        ∃ code, l.currencies.codes.name? c = some code :=
      (hcurrencies c hc).imp fun _ => NameTable.name?_of_index?
    refine ⟨h.named, fun hmem ref href => ?_, fun hmem c hc => ?_, fun pair hpair c hc => ?_⟩
    · rcases mem_entries_enter.1 hmem with hmem | ⟨rfl, rfl⟩
      · exact h.accounts hmem ref href
      · obtain ⟨account, hresolve⟩ := haccounts ref href
        obtain ⟨_, windows, hwindows⟩ := AccountRegistry.resolve_eq_ok hresolve
        by_contra hkey
        exact Option.some_ne_none _ (hwindows.symm.trans (KeyedList.get?_eq_none_iff.2 hkey))
    · rcases mem_entries_enter.1 hmem with hmem | ⟨rfl, rfl⟩
      · exact h.currencies hmem c hc
      · exact hcode c hc
    · rcases mem_pairs_record hpair with hpair | hnew
      · exact h.pairs pair hpair c hc
      · exact hcode c (hnew c hc)

theorem Applied.intact {statements : List Statement} (h : l.Applied statements after)
    (hl : l.Intact) : after.Intact :=
  @Applied.preserves l after (fun _ middle => middle.Intact) [] statements
    (fun _ _ hmiddle => ⟨hmiddle.named, hmiddle.accounts, hmiddle.currencies, hmiddle.pairs⟩)
    (fun hmiddle heffect => hmiddle.effect heffect) h hl

end Ledger

/-! ## Maps of names -/

/-- No name stands twice, and the map has the place of each name. -/
structure NameIndex.Inverted (t : NameIndex) : Prop where
  nodup : t.names.Nodup
  place?_iff : ∀ name place, t.place? name = some place ↔ t.name? place = some name

theorem NameTable.inverted_toIndex (t : NameTable) : t.toIndex.Inverted where
  nodup := t.nodup
  place?_iff name place := by
    rw [place?_toIndex, name?_toIndex]
    exact ⟨name?_of_index?, index?_of_name?⟩

theorem NameTable.bounds_of_name? {t : NameTable} {name : String} {index : Int}
    (h : t.name? index = some name) : 0 ≤ index ∧ index < t.size := by
  unfold name? at h
  split at h
  · rename_i hpos
    obtain ⟨hlt, _⟩ := List.getElem?_eq_some_iff.1 h
    unfold size
    omega
  · contradiction

/-! ## Entries and their text -/

theorem Amount.map_congr {κ μ : Type} {f g : κ → μ} {a : Amount κ}
    (h : ∀ c ∈ a.currency :: a.prices.map (·.currency), f c = g c) : a.map f = a.map g := by
  have hprices : a.prices.map (·.map f) = a.prices.map (·.map g) := by
    refine List.map_congr_left fun price hprice => ?_
    have hprice : price.currency ∈ a.currency :: a.prices.map (·.currency) :=
      List.mem_cons_of_mem _ (List.mem_map.2 ⟨price, hprice, rfl⟩)
    rw [Price.map, Price.map, h _ hprice]
  rw [Amount.map, Amount.map, hprices, h _ List.mem_cons_self]

def AccountRegistry.name (r : AccountRegistry) (ref : AccountRef) : Except RefError String :=
  AccountName.text <$> r.unresolve ref

namespace Ledger

variable {l after : Ledger}

/-- Names are kept without repetition, and whatever entries and quotes refer to is there. -/
structure RefersToKnown (l : Ledger) : Prop where
  segments : l.tables.accounts.segments.Inverted
  codes : l.tables.codes.Inverted
  accounts : ∀ day e, (day, e) ∈ l.entries → ∀ ref ∈ e.accounts, ∃ account,
    l.accounts.unresolve ref = .ok account ∧ account ∈ l.accounts.accountsOf [ref.kind] ∧
      l.tables.accounts.accountsOf [ref.kind] = .ok (l.accounts.accountsOf [ref.kind])
  currencies : ∀ day e, (day, e) ∈ l.entries → ∀ c ∈ e.currencies, 0 ≤ c ∧ c < l.currencies.size
  pairs : ∀ pair ∈ l.prices.pairs, ∀ c ∈ [pair.base, pair.target], 0 ≤ c ∧ c < l.currencies.size

theorem Intact.refersToKnown (h : l.Intact) : l.RefersToKnown where
  segments := l.accounts.segments.inverted_toIndex
  codes := l.currencies.codes.inverted_toIndex
  accounts day e hmem ref href := by
    obtain ⟨n, hn⟩ := h.named
    obtain ⟨account, haccount, hfound⟩ := hn.exists_account (h.accounts hmem ref href)
    rw [hn.accountsOf_eq]
    exact ⟨account, AccountRegistry.unresolve_of_ref? hfound, haccount, hn.accountsOf_tables _⟩
  currencies day e hmem c hc := by
    obtain ⟨code, hcode⟩ := h.currencies hmem c hc
    exact NameTable.bounds_of_name? hcode
  pairs pair hpair c hc := by
    obtain ⟨code, hcode⟩ := h.pairs pair hpair c hc
    exact NameTable.bounds_of_name? hcode

section

variable {statements : List Statement} {day : Date} {e : Entry}

/-- A reference of an entry goes on naming the same account. -/
theorem Intact.name_eq (h : l.Intact) (hafter : l.Applied statements after)
    (hmem : (day, e) ∈ l.entries) {ref : AccountRef} (href : ref ∈ e.accounts) :
    after.accounts.name ref = l.accounts.name ref := by
  obtain ⟨n, hn⟩ := h.named
  obtain ⟨account, _, hfound⟩ := hn.exists_account (h.accounts hmem ref href)
  have hlater := AccountRegistry.ref?_of_grown hafter.grows.1 hfound
  rw [AccountRegistry.name, AccountRegistry.name, AccountRegistry.unresolve_of_ref? hfound,
    AccountRegistry.unresolve_of_ref? hlater]

/-- An amount in the currencies of an entry goes on being written the same way. -/
theorem Intact.format_eq (h : l.Intact) (hafter : l.Applied statements after)
    (hmem : (day, e) ∈ l.entries) {a : Amount Int}
    (ha : ∀ c ∈ a.currency :: a.prices.map (·.currency), c ∈ e.currencies) :
    after.format a = l.format a := by
  refine congrArg Amount.text (Amount.map_congr fun c hc => ?_)
  obtain ⟨code, hcode⟩ := h.currencies hmem c (ha c hc)
  have hlater := NameTable.name?_of_grown hafter.grows.2 hcode
  rw [CurrencyTable.label, CurrencyTable.label, CurrencyTable.code?, CurrencyTable.code?, hcode,
    hlater]

end

/-- Wherever a run has led, in memory as in the ledger, whatever entries refer to is known, the
names stand in the order in which the statements that took effect brought them in, and no further
run changes how an entry reads. -/
theorem refersToKnown_of_run (verbose : Bool) (requests more : List LedgerRequest) :
    let l := (empty verbose).serveAll requests
    let later := l.serveAll more
    let statements := (empty verbose).appliedAll requests
    (LedgerTables.empty verbose).serveAll requests = l.tables ∧ l.RefersToKnown ∧
      l.accounts.segments.names = (statements.flatMap Statement.segments).eraseDups ∧
      l.currencies.codes.names = (statements.flatMap Statement.codes).eraseDups ∧
      l.accounts.segments.names <+: later.accounts.segments.names ∧
      l.currencies.codes.names <+: later.currencies.codes.names ∧
      ∀ day e, (day, e) ∈ l.entries →
        (day, e) ∈ later.entries ∧
          (∀ ref ∈ e.accounts, later.accounts.name ref = l.accounts.name ref) ∧
          ∀ a : Amount Int, (∀ c ∈ a.currency :: a.prices.map (·.currency), c ∈ e.currencies) →
            later.format a = l.format a := by
  intro l later statements
  have happlied := (empty verbose).applied_serveAll requests
  have hmore := l.applied_serveAll more
  have hintact := happlied.intact (intact_empty verbose)
  have hnames := happlied.namedAfter (⟨rfl, rfl⟩ : (empty verbose).NamedAfter [])
  exact ⟨(empty verbose).serveAll_tables requests, hintact.refersToKnown, hnames.1, hnames.2,
    hmore.grows.1, hmore.grows.2, fun day e hmem =>
      ⟨hmore.mem_entries hmem, fun ref href => hintact.name_eq hmore hmem href,
        fun a ha => hintact.format_eq hmore hmem ha⟩⟩

def rentRequests : List LedgerRequest :=
  LedgerTables.rentBooks ++ [.process (.transaction LedgerTables.rentDay ⟨.settled, none, "Rent"⟩
    [⟨LedgerTables.bank, some ⟨⟨false, 10, 0⟩, "USD", []⟩⟩])]

def rentPaid : Entry :=
  .transaction ⟨.settled, none, "Rent", [⟨⟨.assets, [0]⟩, ⟨⟨false, 10, 0⟩, 0, []⟩, false⟩]⟩

def dinnerRequests : List LedgerRequest :=
  [.process (.unit "EUR"), .process (.openAccount LedgerTables.rentDay
    ⟨.expenses, ["Food", "Bank"], by decide, by decide⟩)]

/-- New names do not change how the rent reads. -/
theorem refersToKnown_of_run_rent :
    let l := (empty false).serveAll rentRequests
    let later := l.serveAll dinnerRequests
    (LedgerTables.rentDay, rentPaid) ∈ l.entries ∧
      later.accounts.name ⟨.assets, [0]⟩ = l.accounts.name ⟨.assets, [0]⟩ ∧
      later.format ⟨⟨false, 10, 0⟩, 0, []⟩ = l.format ⟨⟨false, 10, 0⟩, 0, []⟩ := by
  have hmem : (LedgerTables.rentDay, rentPaid) ∈ ((empty false).serveAll rentRequests).entries := by
    decide +kernel
  obtain ⟨_, _, _, _, _, _, hentries⟩ := refersToKnown_of_run false rentRequests dinnerRequests
  obtain ⟨_, hname, hformat⟩ := hentries LedgerTables.rentDay rentPaid hmem
  exact ⟨hmem, hname _ (by decide), hformat _ (by decide)⟩

end Ledger
end DoubleEntry
