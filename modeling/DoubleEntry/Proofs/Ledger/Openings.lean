import DoubleEntry.Ledger.Reachable
import DoubleEntry.Proofs.Account.Windows
import DoubleEntry.Proofs.Ledger.Filing
import DoubleEntry.Proofs.Ledger.References
import DoubleEntry.Proofs.Load.Accumulation

/-! The accounts of entries and the days on which they are open. An entry is filed only while its
accounts are open on its day, but what is opened or closed later may still take the day away. -/
namespace DoubleEntry

namespace Ledger

variable {l after : Ledger} {statements : List Statement} {statement : Statement}
  {account : AccountName} {day : Date} {e : Entry}

/-- Takes a day away from an account, of which the last window is open-ended and the only one to
hold the day: the account is opened again behind the day, or closed no later than on it. -/
def Withdraws (l : Ledger) (account : AccountName) (day : Date) : Statement → Prop
  | .openAccount opened account' =>
    account' = account ∧
      NamedAccounts.restsOnLast (l.accounts.windowsOf account) day = true ∧ day < opened
  | .closeAccount closing account' =>
    account' = account ∧
      NamedAccounts.restsOnLast (l.accounts.windowsOf account) day = true ∧ closing ≤ day
  | _ => False

theorem not_withdraws_of_entryOf? {entry : Date × Entry} (h : l.entryOf? statement = some entry) :
    ¬ l.Withdraws account day statement := by
  obtain ⟨day', e⟩ := entry
  cases entryOf?_eq_some_iff.1 h <;> exact id

/-! ## Steps and runs -/

/-- A statement takes a day away from an account exactly where it withdraws it. -/
theorem Effect.isOpen_eq_false_iff {n : NamedAccounts} (hn : l.accounts.ByName n)
    (h : l.Effect statement after) (hopen : l.accounts.isOpen account day = true) :
    after.accounts.isOpen account day = false ↔ l.Withdraws account day statement := by
  cases h with
  | unit code =>
    rw [hopen]
    exact iff_of_false Bool.false_ne_true.symm id
  | entry hentry =>
    change l.accounts.isOpen account day = false ↔ _
    rw [hopen]
    exact iff_of_false Bool.false_ne_true.symm (not_withdraws_of_entryOf? hentry)
  | openAccount opened account' =>
    simp only [Withdraws]
    rw [hn.isOpen_eq] at hopen
    rw [(hn.openAt account' opened).isOpen_eq, hn.windowsOf_eq]
    exact NamedAccounts.isOpen_openAt_eq_false_iff hopen
  | closeAccount closing account' hclose =>
    have hclosed := hn.closeAt account' closing
    rw [hclose] at hclosed
    obtain ⟨n', hn', hafter, _⟩ := hclosed
    simp only [Withdraws]
    rw [hn.isOpen_eq] at hopen
    rw [hafter.isOpen_eq, hn.windowsOf_eq]
    exact NamedAccounts.isOpen_closeAt_eq_false_iff hn' hopen

/-- A run on whose way a statement withdraws a day from an account that was open on it till then. -/
def Withdrawn (l : Ledger) (statements : List Statement) (account : AccountName) (day : Date) :
    Prop :=
  ∃ before statement behind middle, statements = before ++ statement :: behind ∧
    l.Applied before middle ∧ middle.accounts.isOpen account day = true ∧
    middle.Withdraws account day statement

theorem Withdrawn.extend (h : l.Withdrawn statements account day) (statement : Statement) :
    l.Withdrawn (statements ++ [statement]) account day := by
  obtain ⟨before, withdrawal, behind, middle, rfl, hwithdraws⟩ := h
  exact ⟨before, withdrawal, behind ++ [statement], middle, by simp, hwithdraws⟩

/-- On a run, an account stays open on a day unless a statement withdraws it. -/
theorem Applied.isOpen_or_withdrawn (h : l.Applied statements after) (hl : l.Intact)
    (hopen : l.accounts.isOpen account day = true) :
    after.accounts.isOpen account day = true ∨ l.Withdrawn statements account day := by
  induction h with
  | refl => exact .inl hopen
  | setOption key value _ ih => exact ih
  | @process statements middle after statement happlied hprocess ih =>
    rcases ih with hmiddle | hwithdrawn
    · obtain ⟨n, hn⟩ := (happlied.intact hl).named
      have hstep := (effect_of_process hprocess).isOpen_eq_false_iff hn hmiddle
      cases hafter : after.accounts.isOpen account day with
      | true => exact .inl rfl
      | false =>
        exact .inr ⟨statements, statement, [], middle, rfl, happlied, hmiddle, hstep.1 hafter⟩
    · exact .inr (hwithdrawn.extend statement)

/-! ## Entries -/

/-- An account of an entry is open on its day when the entry is filed, and goes on being so unless
the day is withdrawn. -/
theorem Filing.exists_account {first last : Ledger} (f : Filing first last statements day e)
    (hfirst : first.Intact) {ref : AccountRef} (href : ref ∈ e.accounts) :
    ∃ account, last.accounts.unresolve ref = .ok account ∧
      f.middle.accounts.isOpen account day = true ∧
      (last.accounts.isOpen account day = true ∨ f.next.Withdrawn f.behind account day) := by
  obtain ⟨account, hresolve⟩ := (references_of_entryOf? f.entry).1 ref href
  have hopen := AccountRegistry.isOpen_of_resolve hresolve
  have hmiddle := f.applied_before.intact hfirst
  have heffect := effect_of_process f.process
  have hnext : f.next.accounts.isOpen account day = true := by
    obtain ⟨n, hn⟩ := hmiddle.named
    have hstep := heffect.isOpen_eq_false_iff hn hopen
    rw [iff_false_right (not_withdraws_of_entryOf? f.entry)] at hstep
    exact eq_true_of_ne_false hstep
  have hgrown : f.middle.accounts.segments.names <+: last.accounts.segments.names :=
    (prefix_of_effect heffect).1.trans f.applied_behind.grows.1
  have hfound := AccountRegistry.ref?_of_grown hgrown (AccountRegistry.resolve_eq_ok hresolve).1
  refine ⟨account, AccountRegistry.unresolve_of_ref? hfound, hopen, ?_⟩
  exact f.applied_behind.isOpen_or_withdrawn (hmiddle.effect heffect) hnext

/-- Wherever a run has led, in memory as in the ledger: every entry was filed by a statement of the
run, when each account of the entry was open on its day, and the account is still open on that day
unless a statement behind that one withdrew the day. A statement that withdraws a day does take it
away, and no other statement does. -/
theorem isOpen_or_withdrawn_of_run (verbose : Bool) (requests : List LedgerRequest) :
    let l := (empty verbose).serveAll requests
    let applied := (empty verbose).appliedAll requests
    (LedgerTables.empty verbose).serveAll requests = l.tables ∧
      (∀ day e, (day, e) ∈ l.entries →
        Nonempty (Filing (empty verbose) l applied day e) ∧
          ∀ f : Filing (empty verbose) l applied day e, ∀ ref ∈ e.accounts, ∃ account,
            l.accounts.unresolve ref = .ok account ∧
              f.middle.accounts.isOpen account day = true ∧
              (l.accounts.isOpen account day = true ∨
                f.next.Withdrawn f.behind account day)) ∧
      ∀ statement after account day, l.process statement = .ok after →
        l.accounts.isOpen account day = true →
          (after.accounts.isOpen account day = false ↔ l.Withdraws account day statement) := by
  intro l applied
  have happlied := (empty verbose).applied_serveAll requests
  have hempty := intact_empty verbose
  refine ⟨(empty verbose).serveAll_tables requests, ?_, ?_⟩
  · intro day e hmem
    constructor
    · exact happlied.exists_filing List.not_mem_nil hmem
    · intro f ref href
      exact f.exists_account hempty href
  · intro statement after account day hprocess hopen
    obtain ⟨n, hn⟩ := (happlied.intact hempty).named
    exact (effect_of_process hprocess).isOpen_eq_false_iff hn hopen

/-! ## A day withdrawn -/

open LedgerTables (bank rentDay)
open AccountStore (wallet walletDay)

/-- The bank is opened once more behind the day of the pad. -/
def reopenedText : String :=
  "2022-03-15 open Assets:Bank\n2022-03-15 open Assets:Wallet\n" ++
    "2023-05-20 pad Assets:Bank Assets:Wallet\n2025-07-04 open Assets:Bank\n"

def reopened : List Statement :=
  [.openAccount walletDay bank, .openAccount walletDay wallet, .pad rentDay bank wallet,
    .openAccount ⟨2025, 7, 4, by decide, by decide, by decide⟩ bank]

def bankPadded : Entry := .pad ⟨⟨.assets, [0]⟩, ⟨.assets, [1]⟩⟩

/-- The pad is in the books, and the bank is not open on its day. -/
theorem exists_load_reopened :
    ∃ l : Ledger, ((empty false).load .empty reopenedText none).result = .ok l ∧
      (rentDay, bankPadded) ∈ l.entries ∧
      l.accounts.unresolve ⟨.assets, [0]⟩ = .ok bank ∧
      l.accounts.isOpen bank rentDay = false := by
  have hok : ((reopened.foldlM process (empty false)).toOption.any fun l =>
      (rentDay, bankPadded) ∈ l.entries ∧
        (l.accounts.unresolve ⟨.assets, [0]⟩).toOption = some bank ∧
        l.accounts.isOpen bank rentDay = false) = true := by decide +kernel
  obtain ⟨l, hl, hfacts⟩ := (Option.any_eq_true _ _).1 hok
  obtain ⟨hmem, hname, hclosed⟩ := of_decide_eq_true hfacts
  exact ⟨l, load_of_statements .empty reopenedText (by decide +kernel) (toOption_eq_some_iff.1 hl),
    hmem, toOption_eq_some_iff.1 hname, hclosed⟩

theorem not_forall_isOpen_of_loaded :
    ¬ ∀ l : Ledger, l.Loaded → ∀ day e, (day, e) ∈ l.entries → ∀ ref ∈ e.accounts, ∃ account,
      l.accounts.unresolve ref = .ok account ∧ l.accounts.isOpen account day = true := by
  intro hall
  obtain ⟨l, hload, hmem, hname, hclosed⟩ := exists_load_reopened
  have hloaded : l.Loaded := .load .empty reopenedText none (.empty false) hload
  obtain ⟨account, haccount, hopen⟩ := hall l hloaded rentDay bankPadded hmem _ List.mem_cons_self
  cases hname.symm.trans haccount
  rw [hclosed] at hopen
  contradiction

/-- It was the second opening that withdrew the day. -/
theorem isOpen_or_withdrawn_of_run_reopened :
    let requests := [LedgerRequest.load .empty reopenedText none]
    let l := (empty false).serveAll requests
    (rentDay, bankPadded) ∈ l.entries ∧
      ∃ f : Filing (empty false) l ((empty false).appliedAll requests) rentDay bankPadded,
        f.middle.accounts.isOpen bank rentDay = true ∧
          f.next.Withdrawn f.behind bank rentDay := by
  intro requests l
  obtain ⟨l', hload, hmem, hname, hclosed⟩ := exists_load_reopened
  have hl : l = l' := by
    change ((empty false).load .empty reopenedText none).result.toOption.getD _ = l'
    rw [hload]
    rfl
  subst hl
  obtain ⟨_, hentries, _⟩ := isOpen_or_withdrawn_of_run false requests
  obtain ⟨⟨f⟩, hfilings⟩ := hentries rentDay bankPadded hmem
  obtain ⟨account, haccount, hmiddle, hnow⟩ := hfilings f ⟨.assets, [0]⟩ List.mem_cons_self
  cases hname.symm.trans haccount
  exact ⟨hmem, f, hmiddle, hnow.resolve_left (ne_true_of_eq_false hclosed)⟩

end Ledger
end DoubleEntry
