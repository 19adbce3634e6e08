import DoubleEntry.Ledger.Process
import DoubleEntry.Path
import DoubleEntry.Statement.OfToken

/-! What a load does on the way to its result: the events in their order, also of a load that
fails. -/
namespace DoubleEntry

inductive Event where
  | optionSet (key value : String)
  | unitDeclared (code : String) (index : Int)
  | accountOpened (account : AccountName) (day : Date)
  | accountClosed (account : AccountName) (day : Date)
  | includeStarted (target : String)
  | fileRead (path : String)
  deriving DecidableEq, Repr

/-- The line that announces an event; reading a file is not announced. -/
def Event.notice? : Event → Option String
  | .optionSet key value => some ("⚙️  Option: " ++ key ++ " = " ++ value)
  | .unitDeclared code index => some ("📝 Unit: " ++ code ++ " (#" ++ toString index ++ ")")
  | .accountOpened account day => some ("✓ Opened: " ++ account.text ++ " at " ++ day.text)
  | .accountClosed account day => some ("✓ Closed: " ++ account.text ++ " at " ++ day.text)
  | .includeStarted target => some ("📂 Include: " ++ target)
  | .fileRead _ => none

def Event.readPath? : Event → Option String
  | .fileRead path => some path
  | _ => none

/-- What a statement did to the ledger that it resulted in. -/
def Ledger.eventsOf (after : Ledger) : Statement → List Event
  | .unit code => [.unitDeclared code ((after.currencies.codes.index? code).getD 0)]
  | .openAccount day account => [.accountOpened account day]
  | .closeAccount day account => [.accountClosed account day]
  | _ => []

inductive LoadError where
  | parse (error : ParseError)
  | meaning (error : MeaningError)
  | statement (error : StatementError)
  | unreadable (path reason : String)
  | cycle (path : String) (chain : List String)
  | unresolvable (error : PathError)
  deriving DecidableEq, Repr

namespace LoadError

def cycleText (path : String) (chain : List String) : String :=
  "include cycle " ++ " -> ".intercalate (chain ++ [path])

def cannotInclude (path reason : String) : String := "cannot include `" ++ path ++ "': " ++ reason

def message : LoadError → String
  | .parse error => error.message
  | .meaning error => error.message
  | .statement error => error.message
  | .unreadable path reason => cannotInclude path reason
  | .cycle path chain => cannotInclude path (cycleText path chain)
  | .unresolvable error => error.message

/-- The name under which an error is reported; none where the error is not about a ledger but about
a path that no file can have, or a token or a statement that no text was read for. -/
def kind? : LoadError → Option String
  | .parse _ | .meaning (.invalidDate ..) => some "ParseError"
  | .meaning (.account error) => some error.kind
  | .meaning _ => none
  | .statement error => error.kind?
  | .unreadable .. => some "IncludeError"
  | .cycle .. => some "IncludeCycleError"
  | .unresolvable _ => none

def isLedgerError (e : LoadError) : Bool := e.kind?.isSome

end LoadError

/-- An error, and the directives that led to it, the innermost first. -/
structure Failure where
  error : LoadError
  notes : List String
  deriving DecidableEq, Repr

def Failure.addNote (f : Failure) (note : String) : Failure :=
  if f.error.isLedgerError then { f with notes := f.notes ++ [note] } else f

structure Run (α : Type) where
  events : List Event
  result : Except Failure α

namespace Run

variable {α β : Type}

def done (a : α) : Run α := ⟨[], .ok a⟩

def fail (error : LoadError) : Run α := ⟨[], .error ⟨error, []⟩⟩

/-- Goes on with the result, unless there is none. -/
def andThen (r : Run α) (f : α → Run β) : Run β :=
  match r.result with
  | .error failure => ⟨r.events, .error failure⟩
  | .ok a => ⟨r.events ++ (f a).events, (f a).result⟩

def after (events : List Event) (r : Run α) : Run α := ⟨events ++ r.events, r.result⟩

def addNote (r : Run α) (note : String) : Run α :=
  ⟨r.events, r.result.mapError (·.addNote note)⟩

@[simp] theorem result_after (events : List Event) (r : Run α) : (after events r).result = r.result :=
  rfl

@[simp] theorem events_after (events : List Event) (r : Run α) :
    (after events r).events = events ++ r.events := rfl

@[simp] theorem result_addNote (r : Run α) (note : String) :
    (r.addNote note).result = r.result.mapError (·.addNote note) := rfl

@[simp] theorem events_addNote (r : Run α) (note : String) : (r.addNote note).events = r.events := rfl

theorem result_andThen (r : Run α) (f : α → Run β) :
    (r.andThen f).result = r.result.bind fun a => (f a).result := by
  unfold andThen
  cases r.result <;> rfl

/-- The announcements, one line each. -/
def notices (events : List Event) : String :=
  String.join ((events.filterMap Event.notice?).map (· ++ "\n"))

/-- What a ledger announces: nothing unless it is verbose. -/
def output (verbose : Bool) (r : Run α) : String := if verbose then notices r.events else ""

/-- The files that were asked for, in order. -/
def reads (r : Run α) : List String := r.events.filterMap Event.readPath?

end Run
end DoubleEntry
