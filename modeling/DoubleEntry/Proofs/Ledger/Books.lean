import DoubleEntry.Proofs.Ledger.Applied
import DoubleEntry.Proofs.PriceHistory.Quotes

/-! The books of a ledger as a function of what was filed: every book holds the entries of its day
in the order of filing, and no book is empty. -/
namespace DoubleEntry

/-! ## Entries and their kinds -/

inductive EntryKind where
  | custom
  | pad
  | balance
  | transaction
  | price
  deriving DecidableEq, Repr

namespace Entry

def kind : Entry → EntryKind
  | .custom _ => .custom
  | .pad _ => .pad
  | .balance _ => .balance
  | .transaction _ => .transaction
  | .price _ => .price

def transaction? : Entry → Option (Transaction Int)
  | .transaction t => some t
  | _ => none

def declaration? : Entry → Option PriceDeclaration
  | .price d => some d
  | _ => none

end Entry

/-- The day and the kind of the entry that a statement files if it succeeds. -/
def Statement.filing? : Statement → Option (Date × EntryKind)
  | .unit _ | .openAccount .. | .closeAccount .. => none
  | .custom day _ => some (day, .custom)
  | .pad day _ _ => some (day, .pad)
  | .balance day _ _ => some (day, .balance)
  | .price day _ _ => some (day, .price)
  | .transaction day _ _ => some (day, .transaction)

/-- The pair of a price declaration, and its quote of one day. -/
def PriceDeclaration.quotation (entry : Date × PriceDeclaration) : CurrencyPair × Quote :=
  (⟨entry.2.currency, entry.2.price.currency⟩, ⟨entry.1, .finite entry.2.price.nominal⟩)

section

variable {β : Type}

/-- What a selection finds in an entry, under the day of the entry. -/
def selectOn (select : Entry → Option β) (entry : Date × Entry) : Option (Date × β) :=
  (select entry.2).map (entry.1, ·)

theorem day_of_selectOn {select : Entry → Option β} (entry : Date × Entry) (found : Date × β)
    (h : selectOn select entry = some found) : found.1 = entry.1 := by
  obtain ⟨b, _, rfl⟩ := Option.map_eq_some_iff.1 h
  rfl

end

/-- The entries of one day, in the order of filing. -/
def entriesOn (day : Date) (filed : List (Date × Entry)) : List Entry :=
  (itemsOn (·.1) day filed).map (·.2)

theorem entriesOn_append (day : Date) (filed : List (Date × Entry)) (entry : Date × Entry) :
    entriesOn day (filed ++ [entry]) =
      if entry.1 = day then entriesOn day filed ++ [entry.2] else entriesOn day filed := by
  unfold entriesOn itemsOn
  by_cases h : entry.1 = day <;> simp [h]

/-! ## Books -/

namespace DayBook

/-- There is no book where there are no entries. -/
def ofEntries? (entries : List Entry) : Option DayBook :=
  if entries = [] then none else some (ofEntries entries)

theorem ofEntries_append (entries : List Entry) (e : Entry) :
    ofEntries (entries ++ [e]) = (ofEntries entries).add e := by
  cases e <;> simp [ofEntries, add]

theorem isEmpty_ofEntries {entries : List Entry} (h : entries ≠ []) :
    (ofEntries entries).isEmpty = false := by
  obtain ⟨e, rest, rfl⟩ := List.exists_cons_of_ne_nil h
  cases e <;> simp [ofEntries, isEmpty]

theorem getD_ofEntries? (entries : List Entry) :
    (ofEntries? entries).getD .empty = ofEntries entries := by
  unfold ofEntries?
  split
  · rename_i h
    rw [h]
    rfl
  · rfl

theorem ofEntries?_append (entries : List Entry) (e : Entry) :
    ofEntries? (entries ++ [e]) = some (((ofEntries? entries).getD .empty).add e) := by
  rw [getD_ofEntries?, ← ofEntries_append, ofEntries?, if_neg (by simp)]

end DayBook

namespace Ledger

variable {l after : Ledger} {filed : List (Date × Entry)} {statement : Statement}

/-- The books and the quotes of a ledger are those of the entries filed one after another. -/
structure Keeps (l : Ledger) (filed : List (Date × Entry)) : Prop where
  book? : ∀ day, l.book? day = DayBook.ofEntries? (entriesOn day filed)
  prices : l.prices =
    .ofQuotes ((filed.filterMap (selectOn Entry.declaration?)).map PriceDeclaration.quotation)

theorem keeps_empty (verbose : Bool) : (empty verbose).Keeps [] := ⟨fun _ => rfl, rfl⟩

theorem Keeps.enter (h : l.Keeps filed) (day : Date) (e : Entry) :
    (l.enter day e).Keeps (filed ++ [(day, e)]) := by
  constructor
  · intro day'
    rw [book?_enter, entriesOn_append]
    by_cases hday : day = day'
    · subst hday
      rw [if_pos rfl, if_pos rfl, h.book?, DayBook.ofEntries?_append]
    · rw [if_neg hday, if_neg hday, h.book?]
  · have hrecord : (l.enter day e).prices = l.prices.record day e := rfl
    rw [hrecord, List.filterMap_append, List.map_append, h.prices]
    cases e with
    | price d => exact (PriceHistory.ofQuotes_append _ _ _).symm
    | _ => exact (congrArg _ (List.append_nil _)).symm

theorem Keeps.effect (h : l.Keeps filed) (heffect : l.Effect statement after) :
    after.Keeps (filed ++ (l.entryOf? statement).toList) := by
  cases heffect with
  | @entry _ day e hentry =>
    rw [hentry]
    exact h.enter day e
  | _ => exact (List.append_nil filed).symm ▸ ⟨h.book?, h.prices⟩

theorem Keeps.attemptAll (h : l.Keeps filed) (statements : List Statement) :
    (l.attemptAll statements).Keeps (filed ++ l.entriesOf statements) := by
  induction statements generalizing l filed with
  | nil =>
    rw [entriesOf, List.append_nil]
    exact h
  | cons statement rest ih =>
    unfold Ledger.attemptAll at ih ⊢
    rw [List.foldl_cons, entriesOf, attempt]
    cases hprocess : l.process statement with
    | error error => exact ih h
    | ok after =>
      have hafter := ih (h.effect (effect_of_process hprocess))
      rw [List.append_assoc] at hafter
      exact hafter

theorem Applied.exists_keeps {statements : List Statement} (h : l.Applied statements after)
    (hl : l.Keeps filed) : ∃ filed', after.Keeps filed' :=
  @Applied.preserves l after (fun _ middle => ∃ filed', middle.Keeps filed') [] statements
    (fun _ _ hmiddle => hmiddle.imp fun _ h => ⟨h.book?, h.prices⟩)
    (fun hmiddle heffect => by
      obtain ⟨filed', hmiddle⟩ := hmiddle
      exact ⟨_, hmiddle.effect heffect⟩) h ⟨filed, hl⟩

/-! ## What the books hold -/

/-- One kind of entries, day by day, is that kind of the filed entries sorted by day. -/
theorem Keeps.flatMap_books (h : l.Keeps filed) {β : Type} {list : DayBook → List β}
    {select : Entry → Option β}
    (hlist : ∀ entries, list (.ofEntries entries) = entries.filterMap select) :
    (l.books.entries.flatMap fun (day, book) => (list book).map (day, ·)) =
      chronicle (·.1) (filed.filterMap (selectOn select)) := by
  have hday : ∀ entry : Date × DayBook, ∀ found ∈ (list entry.2).map (entry.1, ·),
      found.1 = entry.1 := by
    intro entry found hfound
    obtain ⟨b, _, rfl⟩ := List.mem_map.1 hfound
    rfl
  apply (l.books.chronological_flatMap hday).eq_chronicle
  intro d
  have hbook : l.books.get? d = DayBook.ofEntries? (entriesOn d filed) := h.book? d
  have hnil : list (.ofEntries []) = [] := hlist []
  rw [l.books.itemsOn_flatMap hday, hbook, itemsOn_filterMap day_of_selectOn]
  have hselect : ((list (.ofEntries (entriesOn d filed))).map ((d, ·) : β → Date × β)) =
      (itemsOn (·.1) d filed).filterMap (selectOn select) := by
    rw [hlist, entriesOn, List.filterMap_map, List.map_filterMap]
    apply List.filterMap_congr
    intro entry hentry
    rw [← (mem_itemsOn.1 hentry).2]
    rfl
  rw [← hselect, DayBook.ofEntries?]
  split
  · rename_i hentries
    rw [hentries, hnil]
    rfl
  · rfl

theorem Keeps.transactions_eq (h : l.Keeps filed) :
    l.transactions = chronicle (·.1) (filed.filterMap (selectOn Entry.transaction?)) :=
  h.flatMap_books fun _ => rfl

theorem Keeps.isEmpty_of_mem_books (h : l.Keeps filed) {entry : Date × DayBook}
    (hmem : entry ∈ l.books.entries) : entry.2.isEmpty = false := by
  have hbook : DayBook.ofEntries? (entriesOn entry.1 filed) = some entry.2 :=
    (h.book? entry.1).symm.trans (SortedMap.mem_entries_iff.1 hmem)
  unfold DayBook.ofEntries? at hbook
  split at hbook
  · contradiction
  · rename_i hentries
    rw [← Option.some.inj hbook]
    exact DayBook.isEmpty_ofEntries hentries

theorem Keeps.mem_days_iff (h : l.Keeps filed) {day : Date} :
    day ∈ l.days ↔ ∃ entry ∈ filed, entry.1 = day := by
  have hbook : l.books.get? day = DayBook.ofEntries? (entriesOn day filed) := h.book? day
  unfold days
  rw [SortedMap.mem_keys_iff, hbook, DayBook.ofEntries?]
  split
  · rename_i hentries
    have hnone := List.filter_eq_nil_iff.1 (List.map_eq_nil_iff.1 hentries)
    apply iff_of_false Bool.false_ne_true
    rintro ⟨entry, hentry, hday⟩
    exact hnone entry hentry (decide_eq_true hday)
  · rename_i hentries
    obtain ⟨entry, hentry⟩ := List.exists_mem_of_ne_nil _ (mt List.map_eq_nil_iff.2 hentries)
    exact iff_of_true rfl ⟨entry, mem_itemsOn.1 hentry⟩

theorem days_sorted (l : Ledger) : l.days.Pairwise (· < ·) :=
  List.pairwise_map.2 l.books.sorted

/-! ## Statements and what they file -/

theorem filing?_of_entryOf? {entry : Date × Entry} (h : l.entryOf? statement = some entry) :
    statement.filing? = some (entry.1, entry.2.kind) := by
  obtain ⟨day, e⟩ := entry
  cases entryOf?_eq_some_iff.1 h <;> rfl

/-- A statement that succeeds files an entry of its kind, if it is one that files entries. -/
theorem Effect.filing? (h : l.Effect statement after) :
    statement.filing? = (l.entryOf? statement).map fun entry => (entry.1, entry.2.kind) := by
  cases h with
  | entry hentry =>
    rw [hentry]
    exact filing?_of_entryOf? hentry
  | _ => rfl

theorem map_kind_entriesOf (l : Ledger) (statements : List Statement) :
    ((l.entriesOf statements).map fun entry => (entry.1, entry.2.kind)) =
      (l.appliedAll (statements.map .process)).filterMap Statement.filing? := by
  induction statements generalizing l with
  | nil => rfl
  | cons statement rest ih =>
    rw [entriesOf, List.map_cons, appliedAll, List.filterMap_append, ← ih]
    cases hprocess : l.process statement with
    | error error => simp [LedgerRequest.applied, hprocess, serve, attempt, Except.toOption]
    | ok after =>
      have hfiling := (effect_of_process hprocess).filing?
      have hstep : ((l.entryOf? statement).toList.map fun entry => (entry.1, entry.2.kind)) =
          [statement].filterMap Statement.filing? := by
        cases hentry : l.entryOf? statement with
        | none =>
          rw [hentry] at hfiling
          rw [List.filterMap_cons_none hfiling]
          rfl
        | some entry =>
          rw [hentry] at hfiling
          rw [List.filterMap_cons_some hfiling]
          rfl
      simp only [LedgerRequest.applied, hprocess, serve, attempt, Except.toOption]
      rw [List.map_append, hstep]
      rfl

theorem serveAll_process (l : Ledger) (statements : List Statement) :
    l.serveAll (statements.map .process) = l.attemptAll statements := by
  unfold serveAll attemptAll
  rw [List.foldl_map]
  rfl

/-- Whatever statements come, in memory as in the ledger, and whichever of them fail: each of those
that succeed has filed its entry once, under its day and behind those of its kind that came before
it, every day with an entry has a book and no other day has one, and the transactions are those
filed, sorted by day. -/
theorem books_of_statements (verbose : Bool) (statements : List Statement) :
    let l := (empty verbose).attemptAll statements
    let requests := statements.map LedgerRequest.process
    let applied := (empty verbose).appliedAll requests
    let filed := (empty verbose).entriesOf statements
    (LedgerTables.empty verbose).serveAll requests = l.tables ∧
      (filed.map fun entry => (entry.1, entry.2.kind)) = applied.filterMap Statement.filing? ∧
      (∀ day, l.book? day = DayBook.ofEntries? (entriesOn day filed)) ∧
      (∀ day, day ∈ l.days ↔ ∃ statement ∈ applied, ∃ kind, statement.filing? = some (day, kind)) ∧
      (∀ entry ∈ l.books.entries, entry.2.isEmpty = false) ∧
      l.days.Pairwise (· < ·) ∧
      l.transactions = chronicle (·.1) (filed.filterMap (selectOn Entry.transaction?)) := by
  intro l requests applied filed
  have hkeeps : l.Keeps filed := (keeps_empty verbose).attemptAll statements
  have hkinds := (empty verbose).map_kind_entriesOf statements
  have htables := (empty verbose).serveAll_tables requests
  rw [serveAll_process] at htables
  have hdays (day : Date) :
      day ∈ l.days ↔ ∃ statement ∈ applied, ∃ kind, statement.filing? = some (day, kind) := by
    rw [hkeeps.mem_days_iff]
    constructor
    · rintro ⟨entry, hentry, rfl⟩
      have hmem := List.mem_map_of_mem (f := fun entry => (entry.1, entry.2.kind)) hentry
      rw [hkinds] at hmem
      obtain ⟨statement, hstatement, hfiling⟩ := List.mem_filterMap.1 hmem
      exact ⟨statement, hstatement, _, hfiling⟩
    · rintro ⟨statement, hstatement, kind, hfiling⟩
      have hmem := List.mem_filterMap.2 ⟨statement, hstatement, hfiling⟩
      rw [← hkinds] at hmem
      obtain ⟨entry, hentry, heq⟩ := List.mem_map.1 hmem
      exact ⟨entry, hentry, congrArg Prod.fst heq⟩
  exact ⟨htables, hkinds, hkeeps.book?, hdays, fun entry hmem => hkeeps.isEmpty_of_mem_books hmem,
    l.days_sorted, hkeeps.transactions_eq⟩

def noteDay : Date := ⟨2020, 4, 8, by decide, by decide, by decide⟩

/-- Notes of two days, the later day in between, and a closing that fails. -/
def notes : List Statement :=
  [.custom noteDay ["first"], .closeAccount noteDay LedgerTables.bank,
    .custom LedgerTables.rentDay ["rent"], .custom noteDay ["second"]]

theorem books_of_statements_notes :
    let l := (empty false).attemptAll notes
    l.book? noteDay = some { DayBook.empty with custom := [["first"], ["second"]] } ∧
      ∃ entry ∈ l.books.entries, entry.1 = noteDay ∧ entry.2.isEmpty = false := by
  obtain ⟨_, _, hbook, _, hempty, _⟩ := books_of_statements false notes
  have hnotes := (hbook noteDay).trans (by decide +kernel :
    _ = some { DayBook.empty with custom := [["first"], ["second"]] })
  have hmem := SortedMap.mem_entries_iff.2 hnotes
  exact ⟨hnotes, _, hmem, rfl, hempty _ hmem⟩

end Ledger
end DoubleEntry
