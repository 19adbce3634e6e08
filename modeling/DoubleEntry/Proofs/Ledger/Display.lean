import DoubleEntry.Ledger.Reachable
import DoubleEntry.Proofs.Ledger.References
import DoubleEntry.Proofs.Load.Accumulation
import DoubleEntry.Proofs.Source.Alone
import DoubleEntry.Proofs.Source.Written
import DoubleEntry.Proofs.Statement.Readable

/-! Amounts as they are displayed, read back. Both printers write what the scanner reads, and the codes
of a table stay with their indices. -/
namespace DoubleEntry

open Scan Text

/-! ## A text that is one token -/

/-- The whole text is read where it is read in front of nothing. -/
theorem Source.token_of_reads {cs : List Char} (hplain : IsPlain cs) (hlead : StartsInk cs)
    (name : Option String) {rule : Rule} {scan : Scan Token} {P : Token → Prop}
    (hledger : rule ≠ .ledger) (hrule : Scan.ofRule? rule [] = some ((·, []) <$> scan))
    (h : Reads scan cs [] P) :
    ∃ t, (ofText (.ofList cs) name).token rule = .ok t ∧ P t := by
  have hfeed : '\n' ∉ (String.ofList cs).toList := by
    rw [String.toList_ofList]
    exact hplain.not_mem (by decide)
  have hplace : firstPlace (Line.mk 1 0 cs) [] = ((Line.mk 1 0 cs).cursor.skipGap, []) := by
    rw [firstPlace, Line.isVacant_of_startsInk hlead]
    rfl
  have hrest : (Line.mk 1 0 cs).cursor.skipGap.rest = cs := by
    rw [Cursor.rest_skipGap]
    exact hlead.dropWhile_isGap
  obtain ⟨t, stop, hrun, hstop, ht⟩ := h _ (hrest.trans (List.append_nil cs).symm)
  refine ⟨t, (token_of_line_eq_ok_iff hfeed hledger hrule).2 ⟨stop, ?_, atLineEnd_of_nil hstop⟩, ht⟩
  rw [String.toList_ofList, hplace]
  exact hrun

namespace Amount

theorem startsInk_chars (a : Amount String) : StartsInk a.chars :=
  (startsInk_plainChars a.nominal).append _ |>.append _

theorem token_text {a : Amount String} (h : a.isWritable 1 = true) (name : Option String) :
    ∃ token read, (Source.ofText a.text name).token .amountWithPrice = .ok token ∧
      ofToken token = .ok read ∧ read.canonical = a.canonical := by
  have hne : Rule.amountWithPrice ≠ .ledger := by decide
  obtain ⟨token, htoken, read, hread, hcanonical⟩ := Source.token_of_reads (isPlain_chars h)
    a.startsInk_chars name hne rfl (reads_amountWithPrice h)
  exact ⟨token, read, htoken, hread, hcanonical⟩

/-! ## Other names for the currencies -/

variable {κ μ ν : Type}

theorem map_map (f : κ → μ) (g : μ → ν) (a : Amount κ) :
    (a.map f).map g = a.map fun c => g (f c) := by
  simp [map, Price.map, Function.comp_def]

theorem map_id (a : Amount κ) : a.map (fun c => c) = a := by
  simp [map, Price.map]

theorem canonical_map (f : κ → μ) (a : Amount κ) : (a.map f).canonical = a.canonical.map f := by
  simp [map, canonical, Price.map, Function.comp_def]

/-- The currencies that an amount names. -/
def currencies (a : Amount κ) : List κ := a.currency :: a.prices.map (·.currency)

theorem currencies_map (f : κ → μ) (a : Amount κ) : (a.map f).currencies = a.currencies.map f := by
  simp [currencies, map, Price.map, Function.comp_def]

theorem currencies_canonical (a : Amount κ) : a.canonical.currencies = a.currencies := by
  simp [currencies, canonical, Function.comp_def]

theorem map_eq_self {f : κ → κ} {a : Amount κ} (h : ∀ c ∈ a.currencies, f c = c) : a.map f = a := by
  rw [Amount.map_congr (g := fun c => c) h, map_id]

end Amount

/-! ## Codes and indices -/

theorem NameTable.mem_of_name? {t : NameTable} {name : String} {index : Int}
    (h : t.name? index = some name) : name ∈ t.names := by
  unfold name? at h
  split at h
  · exact List.mem_of_getElem? h
  · contradiction

namespace CurrencyTable

variable {t after : CurrencyTable}

/-- The index of a declared code. -/
def indexOf (t : CurrencyTable) (code : String) : Int := (t.codes.index? code).getD 0

theorem lookup_eq_indexOf {code : String} (h : t.contains code = true) :
    t.lookup code = .ok (t.indexOf code) := by
  obtain ⟨index, hindex⟩ := Option.isSome_iff_exists.1 h
  rw [lookup_eq_ok_iff, indexOf, hindex]
  rfl

/-- Declared codes are replaced by their indices. -/
theorem resolve_eq_map {a : Amount String} (h : ∀ code ∈ a.currencies, t.contains code = true) :
    t.resolve a = .ok (a.map t.indexOf) := by
  have hprices : a.prices.mapM (fun price => do
      return (⟨price.nominal, ← t.lookup price.currency⟩ : Price Int)) =
      .ok (a.prices.map (·.map t.indexOf)) := by
    rw [mapM_eq_ok_iff, List.forall₂_map_right_iff, List.forall₂_same]
    intro price hprice
    have hcode : price.currency ∈ a.currencies :=
      List.mem_cons_of_mem _ (List.mem_map.2 ⟨price, hprice, rfl⟩)
    rw [lookup_eq_indexOf (h _ hcode)]
    rfl
  unfold resolve
  rw [hprices, lookup_eq_indexOf (h _ List.mem_cons_self)]
  rfl

theorem label_indexOf {code : String} (h : t.contains code = true)
    (hgrown : t.codes.names <+: after.codes.names) : after.label (t.indexOf code) = code := by
  obtain ⟨index, hindex⟩ := Option.isSome_iff_exists.1 h
  have hname := NameTable.name?_of_grown hgrown (NameTable.name?_of_index? hindex)
  rw [indexOf, hindex, Option.getD_some, label, code?, hname, Option.getD_some]

theorem contains_label {c : Int} (h : ∃ code, t.code? c = some code) :
    t.contains (t.label c) = true ∧ t.indexOf (t.label c) = c := by
  obtain ⟨code, hcode⟩ := h
  have hindex := NameTable.index?_of_name? hcode
  rw [label, hcode, Option.getD_some, contains, indexOf, hindex]
  exact ⟨rfl, rfl⟩

/-- Declares the codes one after another; one that cannot be declared changes nothing. -/
def declareAll (t : CurrencyTable) (codes : List String) : CurrencyTable :=
  codes.foldl (fun t code => ((t.declare code).toOption.map (·.1)).getD t) t

theorem prefix_declareAll (t : CurrencyTable) (codes : List String) :
    t.codes.names <+: (t.declareAll codes).codes.names := by
  induction codes generalizing t with
  | nil => exact List.prefix_rfl
  | cons code codes ih =>
    have hdeclare : t.codes.names <+:
        (((t.declare code).toOption.map (·.1)).getD t).codes.names := by
      unfold declare
      split
      · exact List.prefix_rfl
      · exact NameTable.prefix_intern t.codes code
    exact hdeclare.trans (ih _)

theorem format_map_indexOf {a : Amount String} (h : ∀ code ∈ a.currencies, t.contains code = true)
    (hgrown : t.codes.names <+: after.codes.names) : after.format (a.map t.indexOf) = a.text := by
  rw [format, Amount.map_map, Amount.map_eq_self fun code hcode => label_indexOf (h code hcode) hgrown]

/-- Written with the codes of the table, the amount can be read and looked up again. -/
def ReadsBack (t : CurrencyTable) (a : Amount Int) : Prop :=
  ∀ name : Option String, ∃ token read b,
    (Source.ofText (t.format a) name).token .amountWithPrice = .ok token ∧
      Amount.ofToken token = .ok read ∧ t.resolve read = .ok b ∧ b.canonical = a.canonical

theorem isWritable_map_label {a : Amount Int}
    (hcodes : ∀ code ∈ t.codes.names, Lexeme.isCurrency code.toList = true)
    (hknown : ∀ c ∈ a.currencies, ∃ code, t.code? c = some code) (hprices : a.prices.length ≤ 1) :
    (a.map t.label).isWritable 1 = true := by
  have hlabel : ∀ code ∈ (a.map t.label).currencies, Lexeme.isCurrency code.toList = true := by
    rw [Amount.currencies_map]
    intro code hcode
    obtain ⟨c, hc, rfl⟩ := List.mem_map.1 hcode
    obtain ⟨code, hname⟩ := hknown c hc
    rw [label, hname]
    exact hcodes code (NameTable.mem_of_name? hname)
  rw [Amount.isWritable_iff]
  refine ⟨⟨hlabel _ List.mem_cons_self, fun p hp => hlabel _ ?_⟩, by simpa [Amount.map] using hprices⟩
  exact List.mem_cons_of_mem _ (List.mem_map.2 ⟨p, hp, rfl⟩)

theorem readsBack {a : Amount Int}
    (hcodes : ∀ code ∈ t.codes.names, Lexeme.isCurrency code.toList = true)
    (hknown : ∀ c ∈ a.currencies, ∃ code, t.code? c = some code) (hprices : a.prices.length ≤ 1) :
    t.ReadsBack a := by
  intro name
  obtain ⟨token, read, htoken, hread, hcanonical⟩ :=
    Amount.token_text (isWritable_map_label hcodes hknown hprices) name
  have hcurrencies : read.currencies = a.currencies.map t.label := by
    rw [← Amount.currencies_canonical, hcanonical, Amount.currencies_canonical, Amount.currencies_map]
  have hdeclared : ∀ code ∈ read.currencies, t.contains code = true := by
    rw [hcurrencies]
    intro code hcode
    obtain ⟨c, hc, rfl⟩ := List.mem_map.1 hcode
    exact (contains_label (hknown c hc)).1
  refine ⟨token, read, _, htoken, hread, resolve_eq_map hdeclared, ?_⟩
  calc (read.map t.indexOf).canonical
    _ = (a.canonical.map t.label).map t.indexOf := by
      rw [Amount.canonical_map, hcanonical, Amount.canonical_map]
    _ = a.canonical := by
      rw [Amount.map_map, Amount.map_eq_self]
      rw [Amount.currencies_canonical]
      exact fun c hc => (contains_label (hknown c hc)).2

end CurrencyTable

/-! ## Loaded ledgers -/

namespace Ledger

variable {l after : Ledger} {statement : Statement}

/-- The codes are words of a ledger, and amounts have prices as they can be written. -/
structure Writable (l : Ledger) : Prop where
  codes : ∀ code ∈ l.currencies.codes.names, Lexeme.isCurrency code.toList = true
  prices {day e} : (day, e) ∈ l.entries → ∀ a ∈ e.amounts, a.prices.length ≤ 1

theorem writable_empty (verbose : Bool) : (empty verbose).Writable where
  codes _ h := by contradiction
  prices h := by contradiction

theorem length_prices_of_resolve {t : CurrencyTable} {a : Amount String} {b : Amount Int}
    (h : t.resolve a = .ok b) : b.prices.length = a.prices.length := by
  obtain ⟨prices, hprices, h⟩ := bind_eq_ok_iff.1 h
  obtain ⟨currency, _, h⟩ := bind_eq_ok_iff.1 h
  cases h
  exact (mapM_eq_ok_iff.1 hprices).length_eq.symm

theorem length_prices_of_legOf {day : Date} {posting : Posting} {leg : Leg Int} {a : Amount Int}
    (hwritable : posting.isWritable = true) (h : l.legOf day posting = .ok leg)
    (ha : leg.amount = some a) : a.prices.length ≤ 1 := by
  obtain ⟨written, hposting, hresolve⟩ := (resolve_of_legOf h).2 a ha
  simp only [Posting.isWritable, Bool.and_eq_true, Option.all_eq_true] at hwritable
  have hlength := ((Amount.isWritable_iff 1 written).1 (hwritable.2 written hposting)).2
  rwa [length_prices_of_resolve hresolve]

theorem length_prices_of_entryOf? {day : Date} {e : Entry} (hwritable : statement.isWritable = true)
    (h : l.entryOf? statement = some (day, e)) : ∀ a ∈ e.amounts, a.prices.length ≤ 1 := by
  cases entryOf?_eq_some_iff.1 h with
  | custom day args => simp [Entry.amounts]
  | pad htarget hsource => simp [Entry.amounts]
  | price hcode hquote => simp [Entry.amounts]
  | @balance _ _ amount _ _ haccount hamount =>
    simp only [Statement.isWritable, Bool.and_eq_true] at hwritable
    have hlength := ((Amount.isWritable_iff 0 amount).1 hwritable.2).2
    rw [← length_prices_of_resolve hamount] at hlength
    exact List.forall_mem_singleton.2 (hlength.trans (Nat.zero_le 1))
  | transaction ht =>
    simp only [Statement.isWritable, Bool.and_eq_true, List.all_eq_true] at hwritable
    obtain ⟨legs, hlegs, ht⟩ := exists_legs_of_transactionOf ht
    intro a ha
    obtain ⟨exchange, hmem, rfl⟩ := List.mem_map.1 ha
    obtain ⟨_, hamount⟩ := Transaction.exchange_of_ofLegs ht hmem
    rcases hamount with ⟨leg, hleg, hwritten⟩ | ⟨hprices, _⟩
    · obtain ⟨posting, hposting, hlegOf⟩ := hlegs leg hleg
      exact length_prices_of_legOf (hwritable.2 posting hposting) hlegOf hwritten
    · simp [hprices]

/-- A writable statement keeps a ledger writable. -/
theorem Writable.effect (h : l.Writable) (hwritable : statement.isWritable = true)
    (heffect : l.Effect statement after) : after.Writable := by
  cases heffect with
  | unit code =>
    refine ⟨fun name hname => ?_, h.prices⟩
    rw [NameTable.names_intern] at hname
    split at hname
    · exact h.codes name hname
    · rcases List.mem_append.1 hname with hname | hname
      · exact h.codes name hname
      · rw [List.mem_singleton.1 hname]
        exact hwritable
  | openAccount day account => exact ⟨h.codes, h.prices⟩
  | closeAccount day account hclose => exact ⟨h.codes, h.prices⟩
  | entry hentry =>
    refine ⟨h.codes, fun hmem a ha => ?_⟩
    rcases mem_entries_enter.1 hmem with hmem | ⟨rfl, rfl⟩
    · exact h.prices hmem a ha
    · exact length_prices_of_entryOf? hwritable hentry a ha

theorem Applied.writable {statements : List Statement} (h : l.Applied statements after)
    (hl : l.Writable) (hstatements : ∀ s ∈ statements, s.isWritable = true) : after.Writable := by
  have hrun := @Applied.preserves l after
    (fun statements middle => (∀ s ∈ statements, s.isWritable = true) → middle.Writable)
    [] statements (fun _ _ hmiddle hall => ⟨(hmiddle hall).codes, (hmiddle hall).prices⟩)
    (fun hmiddle heffect hall =>
      (hmiddle fun s hs => hall s (by simp [hs])).effect (hall _ (by simp)) heffect)
    h fun _ => hl
  exact hrun hstatements

end Ledger

def Action.IsWritable : Action → Prop
  | .apply statement => statement.isWritable = true
  | _ => True

theorem Action.isWritable_ofDirective {s : Source} {tokens : List Token}
    (htokens : s.tokens = .ok tokens) {t : Token} (ht : t ∈ tokens) (files : Files)
    (source : Option String) : (ofDirective files source (Directive.ofToken t)).IsWritable := by
  cases hd : Directive.ofToken t with
  | error error => exact trivial
  | ok d =>
    cases d with
    | statement statement => exact Directive.isWritable_of_mem htokens ht hd
    | _ => exact trivial

namespace Ledger

variable {l after : Ledger}

theorem writable_follow {steps : List Step} (hl : l.Writable) (h : l.follow steps = .ok after)
    (hsteps : ∀ step ∈ steps, step.action.IsWritable) : after.Writable := by
  refine (applied_follow h).writable hl fun statement hmem => ?_
  obtain ⟨step, hstep, hstatement⟩ := List.mem_filterMap.1 hmem
  have hwritable := hsteps step hstep
  cases haction : step.action with
  | apply other =>
    rw [haction] at hstatement hwritable
    cases hstatement
    exact hwritable
  | _ =>
    rw [haction] at hstatement
    contradiction

/-- A parsed ledger has only what its texts could say. -/
theorem Loaded.writable (h : l.Loaded) : l.Writable ∧ l.Intact := by
  induction h with
  | empty verbose => exact ⟨writable_empty verbose, intact_empty verbose⟩
  | load files text source _ hload ih =>
    rw [result_load] at hload
    refine ⟨writable_follow ih.1 hload ?_, (applied_follow hload).intact ih.2⟩
    exact Files.forall_mem_expandText (fun _ _ => trivial)
      (fun _ _ htokens _ ht => Action.isWritable_ofDirective htokens ht files)
      (fun _ _ => trivial) text
  | loadPath files path _ hload ih =>
    rw [result_loadPath] at hload
    refine ⟨writable_follow ih.1 hload ?_, (applied_follow hload).intact ih.2⟩
    exact Files.forall_mem_expandTarget (fun _ _ => trivial)
      (fun _ _ htokens _ ht => Action.isWritable_ofDirective htokens ht files)
      (Path.isRead_ofText path) (fun _ _ => trivial) []

/-- Amounts are read as they were displayed: written with the codes of a currency by one printer, or
by the other with the codes of a table, however many codes the table gets later. So are all the
amounts of a parsed ledger. -/
theorem amounts_readBack :
    (∀ (a : Amount String) (name : Option String), a.isWritable 1 = true →
      ∃ token read, (Source.ofText a.text name).token .amountWithPrice = .ok token ∧
        Amount.ofToken token = .ok read ∧ read.canonical = a.canonical) ∧
    (∀ (t : CurrencyTable) (a : Amount String),
      (∀ code ∈ a.currencies, t.contains code = true) →
        ∃ b, t.resolve a = .ok b ∧ ∀ codes, (t.declareAll codes).format b = a.text) ∧
    (∀ (t : CurrencyTable) (a : Amount Int),
      (∀ code ∈ t.codes.names, Lexeme.isCurrency code.toList = true) →
        (∀ c ∈ a.currencies, ∃ code, t.code? c = some code) → a.prices.length ≤ 1 →
          t.ReadsBack a) ∧
    ∀ l : Ledger, l.Loaded → ∀ day e, (day, e) ∈ l.entries →
      (∀ a ∈ e.amounts, l.currencies.ReadsBack a) ∧
        ∀ d, e = .price d → l.currencies.ReadsBack ⟨d.price.nominal, d.price.currency, []⟩ := by
  refine ⟨fun a name h => Amount.token_text h name, fun t a h => ?_,
    fun t a hcodes hknown hprices => CurrencyTable.readsBack hcodes hknown hprices,
    fun l hl day e hmem => ?_⟩
  · exact ⟨_, CurrencyTable.resolve_eq_map h,
      fun codes => CurrencyTable.format_map_indexOf h (t.prefix_declareAll codes)⟩
  · obtain ⟨hwritable, hintact⟩ := hl.writable
    constructor
    · intro a ha
      refine CurrencyTable.readsBack hwritable.codes (fun c hc => ?_) (hwritable.prices hmem a ha)
      refine hintact.currencies hmem c (List.mem_append_left _ ?_)
      exact List.mem_flatMap.2 ⟨a, ha, hc⟩
    · rintro d rfl
      refine CurrencyTable.readsBack hwritable.codes (fun c hc => ?_) (by simp)
      refine hintact.currencies hmem c (List.mem_append_right _ ?_)
      simp [List.mem_singleton.1 hc]

/-- A zero with a sign and an exponent, at a price. -/
def oddAmount : Amount String := ⟨⟨true, 0, 3⟩, "USD", [⟨⟨false, 11, -1⟩, "EUR"⟩]⟩

def oddTable : CurrencyTable := CurrencyTable.empty.declareAll ["EUR", "", "USD"]

def dinnerText : String :=
  "unit EUR\nunit USD\n2021-10-28 open Assets:Cash\n2021-10-28 open Expenses:Food\n" ++
    "2021-10-28 * \"Dinner\"\n    Expenses:Food  2.50 EUR @ 1.1 USD\n    Assets:Cash\n"

def dinner : List Statement :=
  let cash : AccountName := ⟨.assets, ["Cash"], by decide, by decide⟩
  let food : AccountName := ⟨.expenses, ["Food"], by decide, by decide⟩
  let day : Date := ⟨2021, 10, 28, by decide, by decide, by decide⟩
  [.unit "EUR", .unit "USD", .openAccount day cash, .openAccount day food,
    .transaction day ⟨.settled, none, "Dinner"⟩
      [⟨food, some ⟨⟨false, 250, -2⟩, "EUR", [⟨⟨false, 11, -1⟩, "USD"⟩]⟩⟩, ⟨cash, none⟩]]

def dinnerEntry : Date × Entry :=
  (⟨2021, 10, 28, by decide, by decide, by decide⟩, .transaction ⟨.settled, none, "Dinner",
    [⟨⟨.expenses, [1]⟩, ⟨⟨false, 250, -2⟩, 0, [⟨⟨false, 11, -1⟩, 1⟩]⟩, false⟩,
      ⟨⟨.assets, [0]⟩, ⟨⟨true, 250, -2⟩, 0, []⟩, true⟩]⟩)

theorem amounts_readBack_dinner :
    (∃ token read, (Source.ofText oddAmount.text none).token .amountWithPrice = .ok token ∧
      Amount.ofToken token = .ok read ∧ read.canonical = oddAmount.canonical) ∧
    (∃ b, oddTable.resolve oddAmount = .ok b ∧
      ∀ codes, (oddTable.declareAll codes).format b = oddAmount.text) ∧
    oddTable.ReadsBack ⟨⟨true, 0, 3⟩, 1, [⟨⟨false, 11, -1⟩, 0⟩]⟩ ∧
    ∃ l : Ledger, l.Loaded ∧ dinnerEntry ∈ l.entries ∧
      ∀ a ∈ dinnerEntry.2.amounts, l.currencies.ReadsBack a := by
  obtain ⟨hwritten, hresolved, htable, hloaded⟩ := amounts_readBack
  have hdinner : ((dinner.foldlM process (empty false)).toOption.any
      fun l => dinnerEntry ∈ l.entries) = true := by decide +kernel
  cases hprocess : dinner.foldlM process (empty false) with
  | error error =>
    rw [hprocess] at hdinner
    contradiction
  | ok l =>
    rw [hprocess] at hdinner
    have hmem : dinnerEntry ∈ l.entries := by simpa [Except.toOption] using hdinner
    have hload := load_of_statements .empty dinnerText (by decide +kernel) hprocess
    have hl : l.Loaded := .load .empty dinnerText none (.empty false) hload
    exact ⟨hwritten oddAmount none (by decide), hresolved oddTable oddAmount (by decide),
      htable oddTable _ (by decide) (fun c hc => Option.isSome_iff_exists.1 (by
        revert c
        decide)) (by decide),
      l, hl, hmem, (hloaded l hl _ _ hmem).1⟩

end Ledger
end DoubleEntry
