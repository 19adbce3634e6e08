import DoubleEntry.Load.Session
import DoubleEntry.Proofs.Load.Expansion

/-! The verbose flag is never looked at on the way to a result: loads into ledgers that differ in it
go through the same events and come to results that differ in it. -/
namespace DoubleEntry

namespace Run

variable {α β : Type}

def map (f : α → β) (r : Run α) : Run β := ⟨r.events, r.result.map f⟩

theorem map_after (f : α → β) (events : List Event) (r : Run α) :
    (after events r).map f = after events (r.map f) := rfl

theorem map_addNote (f : α → β) (r : Run α) (note : String) :
    (r.addNote note).map f = (r.map f).addNote note := by
  obtain ⟨events, result⟩ := r
  cases result <;> rfl

theorem map_andThen {f : α → β} {r : Run α} {g : α → Run α} {g' : β → Run β}
    (h : ∀ a, g' (f a) = (g a).map f) : (r.map f).andThen g' = (r.andThen g).map f := by
  obtain ⟨events, result⟩ := r
  cases result with
  | error failure => rfl
  | ok a =>
    simp only [andThen, map, Except.map, h]

end Run

namespace Ledger

variable {files : Files} {stack : List String} {source : Option String}

/-! ## One directive -/

theorem process_withVerbose (l : Ledger) (v : Bool) (statement : Statement) :
    (l.withVerbose v).process statement = (l.process statement).map (withVerbose v) := by
  have haccount (account : AccountName) (day : Date) :
      (l.withVerbose v).resolveAccount account day = l.resolveAccount account day := rfl
  have hamount (amount : Amount String) :
      (l.withVerbose v).resolveAmount amount = l.resolveAmount amount := rfl
  have hcurrencies : (l.withVerbose v).currencies = l.currencies := rfl
  cases statement with
  | unit code =>
    simp only [process, hcurrencies]
    cases l.currencies.declare code <;> rfl
  | custom day args => rfl
  | openAccount day account => rfl
  | closeAccount day account =>
    have haccounts : (l.withVerbose v).accounts = l.accounts := rfl
    simp only [process, haccounts]
    cases l.accounts.closeAt account day <;> rfl
  | pad day target source =>
    simp only [process, haccount]
    cases l.resolveAccount target day with
    | error error => rfl
    | ok target => cases l.resolveAccount source day <;> rfl
  | balance day account amount =>
    simp only [process, haccount, hamount]
    cases l.resolveAccount account day with
    | error error => rfl
    | ok account => cases l.resolveAmount amount <;> rfl
  | price day currency amount =>
    simp only [process, hamount, hcurrencies]
    cases l.currencies.lookup currency with
    | error error => rfl
    | ok currency => cases l.resolveAmount amount <;> rfl
  | transaction day header postings =>
    have htransaction : (l.withVerbose v).transactionOf day header postings =
        l.transactionOf day header postings := rfl
    simp only [process, htransaction]
    cases l.transactionOf day header postings <;> rfl

theorem run_withVerbose (l : Ledger) (v : Bool) (statement : Statement) :
    (l.withVerbose v).run statement = (l.run statement).map (withVerbose v) := by
  unfold run
  rw [process_withVerbose]
  cases l.process statement with
  | error error => rfl
  | ok after => cases statement <;> rfl

theorem loadTarget_withVerbose (v : Bool)
    (h : ∀ (l : Ledger) path, (l.withVerbose v).loadFile files stack path =
      (l.loadFile files stack path).map (withVerbose v)) (l : Ledger) (target : Path) :
    (l.withVerbose v).loadTarget files stack target =
      (l.loadTarget files stack target).map (withVerbose v) := by
  rw [loadTarget_eq, loadTarget_eq]
  cases files.resolve target with
  | error error => rfl
  | ok path => exact h l path

theorem runToken_withVerbose (v : Bool) (t : Token)
    (h : ∀ (l : Ledger) path, (l.withVerbose v).loadFile files stack path =
      (l.loadFile files stack path).map (withVerbose v)) (l : Ledger) :
    (l.withVerbose v).runToken files stack source t =
      (l.runToken files stack source t).map (withVerbose v) := by
  unfold runToken
  cases Directive.ofToken t with
  | error error => rfl
  | ok d =>
    cases d with
    | option key value => rfl
    | statement statement => exact l.run_withVerbose v statement
    | includeFile path => simp only [loadTarget_withVerbose v h, Run.map_after]

/-! ## Whole loads -/

theorem loadTokens_withVerbose (v : Bool)
    (h : ∀ (l : Ledger) path, (l.withVerbose v).loadFile files stack path =
      (l.loadFile files stack path).map (withVerbose v)) (tokens : List Token) (l : Ledger) :
    (l.withVerbose v).loadTokens files stack source tokens =
      (l.loadTokens files stack source tokens).map (withVerbose v) := by
  induction tokens generalizing l with
  | nil =>
    rw [loadTokens_nil, loadTokens_nil]
    rfl
  | cons t ts ih =>
    rw [loadTokens_cons, loadTokens_cons, runToken_withVerbose v t h, ← Run.map_addNote]
    exact Run.map_andThen ih

theorem loadFile_withVerbose (v : Bool) (stack : List String) :
    ∀ (l : Ledger) path, (l.withVerbose v).loadFile files stack path =
      (l.loadFile files stack path).map (withVerbose v) := by
  induction stack using files.stack_induction with
  | h stack ih =>
    intro l path
    rw [loadFile_eq, loadFile_eq]
    by_cases hpath : path ∈ stack
    · rw [if_pos hpath, if_pos hpath]
      rfl
    rw [if_neg hpath, if_neg hpath, Run.map_after]
    congr 1
    cases h : files.tokensOf stack path with
    | error error => rfl
    | ok tokens =>
      obtain ⟨_, text, hread, _⟩ := Files.tokensOf_eq_ok h
      exact loadTokens_withVerbose v (ih path text hpath hread) tokens l

theorem load_withVerbose (l : Ledger) (v : Bool) (text : String) (source : Option String) :
    (l.withVerbose v).load files text source = (l.load files text source).map (withVerbose v) := by
  unfold load
  split
  · rfl
  · split
    · rfl
    · exact loadTokens_withVerbose v (loadFile_withVerbose v _) _ l

/-- The flag stays as it is. -/
theorem verbose_of_map {l after : Ledger} {result : Except Failure Ledger}
    (h : result = result.map (withVerbose l.verbose)) (hafter : result = .ok after) :
    after.verbose = l.verbose := by
  rw [hafter] at h
  have heq : after = after.withVerbose l.verbose := Except.ok.inj h
  rw [heq]
  rfl

theorem verbose_of_runToken {l after : Ledger} {t : Token}
    (h : (l.runToken files stack source t).result = .ok after) : after.verbose = l.verbose :=
  verbose_of_map (congrArg Run.result (runToken_withVerbose l.verbose t
    (loadFile_withVerbose l.verbose stack) l)) h

end Ledger
end DoubleEntry
