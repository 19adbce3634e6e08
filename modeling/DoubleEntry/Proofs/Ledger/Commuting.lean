import DoubleEntry.Proofs.Collection.Lanes
import DoubleEntry.Proofs.Ledger.Books

/-! Statements that file entries of different days or kinds, in either order. -/
namespace DoubleEntry

theorem DayBook.add_comm {e e' : Entry} (h : e.kind ≠ e'.kind) (b : DayBook) :
    (b.add e).add e' = (b.add e').add e := by
  cases e <;> cases e' <;> trivial

theorem PriceHistory.record_comm (h : PriceHistory) {day day' : Date} {e e' : Entry}
    (hne : (day, e.kind) ≠ (day', e'.kind)) :
    (h.record day e).record day' e' = (h.record day' e').record day e := by
  cases e with
  | price d =>
    cases e' with
    | price d' =>
      have hday : day ≠ day' := by
        rintro rfl
        contradiction
      exact h.add_comm _ _ hday
    | _ => rfl
  | _ => rfl

namespace Ledger

variable {l : Ledger} {statement statement' : Statement}

theorem enter_comm (l : Ledger) {day day' : Date} {e e' : Entry}
    (hne : (day, e.kind) ≠ (day', e'.kind)) :
    (l.enter day e).enter day' e' = (l.enter day' e').enter day e := by
  have hprices : ((l.enter day e).enter day' e').prices = ((l.enter day' e').enter day e).prices :=
    l.prices.record_comm hne
  have hbooks : ((l.enter day e).enter day' e').books = ((l.enter day' e').enter day e).books := by
    by_cases hday : day = day'
    · subst hday
      have hkind : e.kind ≠ e'.kind := fun h => hne (congrArg _ h)
      simp only [enter, file, SortedMap.alter_alter, Option.getD_some, DayBook.add_comm hkind]
    · exact l.books.alter_comm hday _ _
  calc (l.enter day e).enter day' e'
    _ = { l with prices := ((l.enter day e).enter day' e').prices
                 books := ((l.enter day e).enter day' e').books } := rfl
    _ = { l with prices := ((l.enter day' e').enter day e).prices
                 books := ((l.enter day' e').enter day e).books } := by rw [hprices, hbooks]
    _ = (l.enter day' e').enter day e := rfl

/-! ## What the registries decide -/

/-- Whether a statement succeeds, or what it fails with. -/
def verdict (l : Ledger) (statement : Statement) : Except StatementError Unit :=
  (fun _ => ()) <$> l.process statement

/-- The same accounts and the same currencies. -/
structure AgreesWith (l l' : Ledger) : Prop where
  accounts : l.accounts = l'.accounts
  currencies : l.currencies = l'.currencies

namespace AgreesWith

variable {l' : Ledger}

theorem resolveAccount (h : l.AgreesWith l') : l.resolveAccount = l'.resolveAccount := by
  unfold Ledger.resolveAccount
  rw [h.accounts]

theorem resolveAmount (h : l.AgreesWith l') : l.resolveAmount = l'.resolveAmount := by
  unfold Ledger.resolveAmount
  rw [h.currencies]

theorem transactionOf (h : l.AgreesWith l') : l.transactionOf = l'.transactionOf := by
  unfold Ledger.transactionOf legOf
  rw [h.resolveAccount, h.resolveAmount, h.currencies]

theorem entryOf? (h : l.AgreesWith l') (statement : Statement) :
    l.entryOf? statement = l'.entryOf? statement := by
  unfold Ledger.entryOf?
  rw [h.accounts, h.currencies, h.transactionOf]

theorem verdict (h : l.AgreesWith l') (statement : Statement) :
    l.verdict statement = l'.verdict statement := by
  unfold Ledger.verdict
  cases statement <;>
    simp only [process, h.accounts, h.currencies, h.resolveAccount, h.resolveAmount,
      h.transactionOf, map_bind, map_pure]

end AgreesWith

theorem agreesWith_enter (l : Ledger) (day : Date) (e : Entry) : (l.enter day e).AgreesWith l :=
  ⟨rfl, rfl⟩

/-! ## Statements that file entries -/

section

variable {statement statement' : Statement} {filing filing' : Date × EntryKind}

theorem toOption_process (l : Ledger) (statement : Statement) :
    (l.process statement).toOption = (l.verdict statement).toOption.map fun _ =>
      l.attempt statement := by
  unfold verdict attempt
  cases l.process statement <;> rfl

theorem verdict_eq_error_iff {error : StatementError} :
    l.verdict statement = .error error ↔ l.process statement = .error error := by
  unfold verdict
  cases l.process statement <;> simp [Functor.map, Except.map]

theorem exists_enter_of_verdict (h : statement.filing? = some filing)
    (hok : l.verdict statement = .ok ()) :
    ∃ e, l.entryOf? statement = some (filing.1, e) ∧ e.kind = filing.2 ∧
      l.process statement = .ok (l.enter filing.1 e) := by
  obtain ⟨after, hprocess, _⟩ := map_eq_ok_iff.1 hok
  rw [hprocess]
  cases effect_of_process hprocess with
  | entry hentry =>
    rw [filing?_of_entryOf? hentry] at h
    cases h
    exact ⟨_, hentry, rfl, rfl⟩
  | _ => contradiction

/-- Ledgers that agree file the same entry, or none. -/
theorem exists_filed (l : Ledger) (h : statement.filing? = some filing) :
    ∃ filed : Option Entry, (∀ e ∈ filed, e.kind = filing.2) ∧ ∀ l' : Ledger, l'.AgreesWith l →
      l'.attempt statement = filed.elim l' (l'.enter filing.1) := by
  cases hverdict : l.verdict statement with
  | error error =>
    refine ⟨none, by simp, ?_⟩
    intro l' hagrees
    unfold attempt
    rw [verdict_eq_error_iff.1 ((hagrees.verdict statement).trans hverdict)]
    rfl
  | ok _ =>
    obtain ⟨e, hentry, hkind, _⟩ := exists_enter_of_verdict h hverdict
    refine ⟨some e, by simpa using hkind, ?_⟩
    intro l' hagrees
    obtain ⟨e', hentry', _, hprocess⟩ :=
      exists_enter_of_verdict h ((hagrees.verdict statement).trans hverdict)
    rw [hagrees.entryOf? statement, hentry] at hentry'
    cases hentry'
    unfold attempt
    rw [hprocess]
    rfl

theorem attempt_agreesWith (l : Ledger) (h : statement.filing? = some filing) :
    (l.attempt statement).AgreesWith l := by
  obtain ⟨filed, _, hfiled⟩ := l.exists_filed h
  rw [hfiled l ⟨rfl, rfl⟩]
  cases filed with
  | none => exact ⟨rfl, rfl⟩
  | some e => exact l.agreesWith_enter filing.1 e

/-- A setting makes no difference to it. -/
theorem toOption_process_setOption (l : Ledger) (h : statement.filing? = some filing)
    (key value : String) :
    ((l.setOption key value).process statement).toOption =
      (l.process statement).toOption.map (·.setOption key value) := by
  have hagrees : (l.setOption key value).AgreesWith l := ⟨rfl, rfl⟩
  obtain ⟨filed, _, hfiled⟩ := l.exists_filed h
  simp only [toOption_process, hagrees.verdict, hfiled _ hagrees, hfiled l ⟨rfl, rfl⟩,
    Option.map_map]
  cases filed <;> rfl

section

variable (l : Ledger) (h : statement.filing? = some filing) (h' : statement'.filing? = some filing')
  (hne : filing ≠ filing')

include h h' hne

/-- One after the other, where a failing one leaves the ledger as it was. -/
theorem attempt_comm :
    (l.attempt statement).attempt statement' = (l.attempt statement').attempt statement := by
  obtain ⟨filed, hkind, hfiled⟩ := l.exists_filed h
  obtain ⟨filed', hkind', hfiled'⟩ := l.exists_filed h'
  have hsecond (e : Entry) := hfiled' _ (l.agreesWith_enter filing.1 e)
  have hsecond' (e : Entry) := hfiled _ (l.agreesWith_enter filing'.1 e)
  have hfirst := hfiled l ⟨rfl, rfl⟩
  have hfirst' := hfiled' l ⟨rfl, rfl⟩
  rw [hfirst, hfirst']
  cases filed with
  | none =>
    cases filed' with
    | none => exact hfirst'.trans hfirst.symm
    | some e' => exact hfirst'.trans (hsecond' e').symm
  | some e =>
    cases filed' with
    | none => exact (hsecond e).trans hfirst.symm
    | some e' =>
      have hkinds : (filing.1, e.kind) ≠ (filing'.1, e'.kind) := by
        rwa [hkind e rfl, hkind' e' rfl]
      exact (hsecond e).trans ((l.enter_comm hkinds).trans (hsecond' e').symm)

/-- One after the other, where the first to fail ends it. -/
theorem process_comm :
    ((l.process statement).toOption.bind fun middle => (middle.process statement').toOption) =
      (l.process statement').toOption.bind fun middle => (middle.process statement).toOption := by
  have hverdict := (l.attempt_agreesWith h').verdict statement
  have hverdict' := (l.attempt_agreesWith h).verdict statement'
  have hcomm := l.attempt_comm h h' hne
  simp only [toOption_process, Option.bind_map, Function.comp_def, hverdict, hverdict', hcomm]
  cases l.verdict statement <;> cases l.verdict statement' <;> rfl

end

end

end Ledger

/-! ## Statements in lanes -/

/-- What keeps its order: the entries of one day and kind, or all that files none. -/
inductive Lane where
  | entries (day : Date) (kind : EntryKind)
  | rest
  deriving DecidableEq, Repr

namespace Lane

instance : Inhabited Lane := ⟨.rest⟩

/-- A statement that changes a registry stands across the lanes. -/
def ofStatement? (statement : Statement) : Option Lane :=
  statement.filing?.map fun filing => .entries filing.1 filing.2

theorem exists_filing_of_ofStatement? {statement : Statement} {lane : Lane}
    (h : ofStatement? statement = some lane) :
    ∃ filing, statement.filing? = some filing ∧ lane = .entries filing.1 filing.2 := by
  obtain ⟨filing, hfiling, rfl⟩ := Option.map_eq_some_iff.1 h
  exact ⟨filing, hfiling, rfl⟩

theorem filing_ne {filing filing' : Date × EntryKind}
    (h : entries filing.1 filing.2 ≠ entries filing'.1 filing'.2) : filing ≠ filing' := by
  rintro rfl
  contradiction

end Lane

namespace Ledger

theorem stepsCommute_attempt : StepsCommute Lane.ofStatement? attempt := by
  intro statement statement' lane lane' h h' hne l
  obtain ⟨filing, hfiling, rfl⟩ := Lane.exists_filing_of_ofStatement? h
  obtain ⟨filing', hfiling', rfl⟩ := Lane.exists_filing_of_ofStatement? h'
  exact l.attempt_comm hfiling hfiling' (Lane.filing_ne hne)

theorem attemptAll_of_reordered (l : Ledger) {statements statements' : List Statement}
    (h : Reordered Lane.ofStatement? statements statements') :
    l.attemptAll statements = l.attemptAll statements' :=
  h.foldl_eq stepsCommute_attempt l

end Ledger
end DoubleEntry
