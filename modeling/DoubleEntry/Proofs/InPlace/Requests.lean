import DoubleEntry.Ledger.Clone
import DoubleEntry.Ledger.Entry
import DoubleEntry.Proofs.InPlace.Statements
import DoubleEntry.Proofs.Load.Expansion

/-! What a ledger in memory is asked to do, and the ledgers that runs of such requests lead to. A
statement changes a ledger in place; a load changes a copy, which is given up where the load
fails. -/
namespace DoubleEntry

inductive LedgerRequest where
  | setOption (key value : String)
  | process (statement : Statement)
  | copy
  | load (files : Files) (text : String) (source : Option String)
  | loadPath (files : Files) (path : String)

/-- The steps that a load takes. -/
def LedgerRequest.steps : LedgerRequest → List Step
  | .setOption .. | .process _ | .copy => []
  | .load files text source => files.expandText text source
  | .loadPath files path => files.expandPath path

/-! ## Copies -/

def NameIndex.clone (t : NameIndex) : NameIndex where
  names := t.names
  places := t.places

def AccountTables.clone (t : AccountTables) : AccountTables where
  segments := t.segments.clone
  windows := t.windows

namespace LedgerTables

def clone (t : LedgerTables) : LedgerTables where
  accounts := t.accounts.clone
  codes := t.codes.clone
  prices := t.prices.clone
  books := t.books.map DayBook.copy
  options := t.options
  verbose := t.verbose

@[simp] theorem clone_eq (t : LedgerTables) : t.clone = t := by
  have hbooks : t.books.map DayBook.copy = t.books := SortedMap.map_eq_self (fun _ => rfl) t.books
  rw [clone, hbooks]
  rfl

/-! ## Requests -/

def setOption (t : LedgerTables) (key value : String) : LedgerTables :=
  { t with options := t.options.insert key value }

def perform : Action → EStateM LoadError LedgerTables Unit
  | .setOption key value => modify (·.setOption key value)
  | .apply statement => onPart id (fun _ after => after) .statement (apply statement)
  | .enter _ => pure ()
  | .stop error => throw error

def follow : List Step → EStateM LoadError LedgerTables Unit
  | [] => pure ()
  | step :: rest => do
    perform step.action
    follow rest

/-- The ledger after a request; after a statement that failed, with all that it changed. -/
def serve (t : LedgerTables) : LedgerRequest → LedgerTables
  | .setOption key value => t.setOption key value
  | .process statement => (outcome ((apply statement).run t)).1
  | .copy => t.clone
  | request =>
    match (follow request.steps).run t.clone with
    | .ok _ after => after
    | .error _ _ => t

def serveAll (t : LedgerTables) (requests : List LedgerRequest) : LedgerTables :=
  requests.foldl serve t

end LedgerTables

namespace Ledger

def serve (l : Ledger) : LedgerRequest → Ledger
  | .setOption key value => l.setOption key value
  | .process statement => l.attempt statement
  | .copy => l.clone
  | .load files text source => (l.clone.load files text source).result.toOption.getD l
  | .loadPath files path => (l.clone.loadPath files path).result.toOption.getD l

def serveAll (l : Ledger) (requests : List LedgerRequest) : Ledger := requests.foldl serve l

theorem run_perform (l : Ledger) (action : Action) :
    (LedgerTables.perform action).run l.tables =
      match l.perform action with
      | .ok after => .ok () after.tables
      | .error error => .error error l.tables := by
  cases action with
  | setOption key value => rfl
  | enter target => rfl
  | stop error => rfl
  | apply statement =>
    have happly := l.run_apply statement
    simp only [LedgerTables.perform, run_onPart, perform, id_eq, happly]
    cases l.process statement <;> rfl

/-- Steps lead from the tables of a ledger to the tables of the ledger they lead to. -/
theorem run_follow (l : Ledger) (steps : List Step) :
    match l.follow steps with
    | .ok after => (LedgerTables.follow steps).run l.tables = .ok () after.tables
    | .error failure => ∃ t, (LedgerTables.follow steps).run l.tables = .error failure.error t := by
  induction steps generalizing l with
  | nil => rfl
  | cons step rest ih =>
    have hperform := l.run_perform step.action
    simp only [LedgerTables.follow, EStateM.run_bind, hperform, follow]
    cases l.perform step.action with
    | error error => exact ⟨l.tables, rfl⟩
    | ok after => exact ih after

theorem run_follow_getD (l : Ledger) (steps : List Step) :
    (match (LedgerTables.follow steps).run l.tables with
      | .ok _ after => after
      | .error _ _ => l.tables) = ((l.follow steps).toOption.getD l).tables := by
  have hfollow := l.run_follow steps
  cases h : l.follow steps with
  | ok after =>
    rw [h] at hfollow
    rw [hfollow]
    rfl
  | error failure =>
    rw [h] at hfollow
    obtain ⟨t, hfollow⟩ := hfollow
    rw [hfollow]
    rfl

theorem serve_tables (l : Ledger) (request : LedgerRequest) :
    l.tables.serve request = (l.serve request).tables := by
  cases request with
  | setOption key value => rfl
  | copy => rw [LedgerTables.serve, LedgerTables.clone_eq, serve, clone_eq]
  | process statement =>
    simp only [LedgerTables.serve, serve, attempt, run_apply]
    cases l.process statement <;> rfl
  | load files text source =>
    simp only [LedgerTables.serve, LedgerTables.clone_eq, serve, clone_eq, result_load]
    exact l.run_follow_getD _
  | loadPath files path =>
    simp only [LedgerTables.serve, LedgerTables.clone_eq, serve, clone_eq, result_loadPath]
    exact l.run_follow_getD _

theorem serveAll_tables (l : Ledger) (requests : List LedgerRequest) :
    l.tables.serveAll requests = (l.serveAll requests).tables := by
  induction requests generalizing l with
  | nil => rfl
  | cons request rest ih =>
    rw [LedgerTables.serveAll, List.foldl_cons, serve_tables]
    exact ih (l.serve request)

end Ledger

namespace LedgerTables

/-- Wherever a run has led, a statement that fails has changed nothing, and a statement that
succeeds has done what it says. -/
theorem unchanged_of_apply_error (verbose : Bool) (requests : List LedgerRequest)
    (statement : Statement) :
    let t := (empty verbose).serveAll requests
    let l := (Ledger.empty verbose).serveAll requests
    t = l.tables ∧
      (∀ error after, (apply statement).run t = .error error after →
        after = t ∧ l.process statement = .error error) ∧
      ∀ after, (apply statement).run t = .ok () after →
        ∃ l', l.process statement = .ok l' ∧ after = l'.tables := by
  intro t l
  have htables : t = l.tables := (Ledger.empty verbose).serveAll_tables requests
  have happly := l.run_apply statement
  rw [← htables] at happly
  refine ⟨htables, fun error after hrun => ?_, fun after hrun => ?_⟩
  · obtain ⟨hprocess, hafter⟩ := Ledger.ended_eq_error_iff.1 (happly.symm.trans hrun)
    exact ⟨hafter.trans htables.symm, hprocess⟩
  · exact Ledger.ended_eq_ok_iff.1 (happly.symm.trans hrun)

def bank : AccountName := ⟨.assets, ["Bank"], by decide, by decide⟩

def rentDay : Date := ⟨2023, 5, 20, by decide, by decide, by decide⟩

def rentBooks : List LedgerRequest := [.process (.unit "USD"), .process (.openAccount rentDay bank)]

/-- The second posting is in a currency that is not declared. -/
def foreignRent : Statement :=
  .transaction rentDay ⟨.settled, none, "Rent"⟩
    [⟨bank, some ⟨⟨false, 10, 0⟩, "USD", []⟩⟩, ⟨bank, some ⟨⟨false, 9, 0⟩, "EUR", []⟩⟩]

theorem unchanged_of_apply_error_foreignRent :
    let t := (empty false).serveAll rentBooks
    ∃ after, (apply foreignRent).run t = .error (.currency (.undeclared "EUR")) after ∧
      after = t := by
  intro t
  have hrun : ∃ after,
      (apply foreignRent).run t = .error (.currency (.undeclared "EUR")) after := ⟨_, rfl⟩
  obtain ⟨after, hrun⟩ := hrun
  obtain ⟨_, herror, _⟩ :=
    unchanged_of_apply_error false rentBooks foreignRent
  exact ⟨after, hrun, (herror _ _ hrun).1⟩

end LedgerTables
end DoubleEntry
