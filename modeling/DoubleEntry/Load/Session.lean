import DoubleEntry.Load.Basic

/-! Loading as it is seen from outside: line by line what is printed, and the files that are asked
for. Each line is printed where the change is made, if the ledger at hand is verbose. -/
namespace DoubleEntry

/-- What a load has printed and which files it has asked for, in their order. -/
structure Console where
  printed : List String
  asked : List String
  deriving DecidableEq, Repr

def Console.empty : Console := ⟨[], []⟩

/-- After a stretch of a load; its lines only come from a verbose ledger. -/
def Console.after (console : Console) (verbose : Bool) (events : List Event) : Console where
  printed := console.printed ++ if verbose then events.filterMap Event.notice? else []
  asked := console.asked ++ events.filterMap Event.readPath?

/-- A program that may fail; what was seen of it up to then stays. -/
abbrev Session := ExceptT Failure (StateM Console)

namespace Session

variable {α : Type}

/-- The result, and what has been seen by then. -/
def play (program : Session α) (console : Console) : Except Failure α × Console :=
  program.run.run console

def print (line : String) : Session Unit :=
  modify fun console => { console with printed := console.printed ++ [line] }

def ask (path : String) : Session Unit :=
  modify fun console => { console with asked := console.asked ++ [path] }

def fail (error : LoadError) : Session α := throw ⟨error, []⟩

/-- Puts a note on a failure as it passes by. -/
def noted (program : Session α) (note : String) : Session α :=
  ExceptT.adapt (·.addNote note) program

end Session

namespace Ledger

def withVerbose (verbose : Bool) (l : Ledger) : Ledger := { l with verbose }

/-- The line that announces an event, if the ledger is verbose. -/
def say (l : Ledger) (event : Event) : Session Unit :=
  match event.notice? with
  | some line => if l.verbose then Session.print line else pure ()
  | none => pure ()

def setOptionAloud (l : Ledger) (key value : String) : Session Ledger := do
  let after := l.setOption key value
  after.say (.optionSet key value)
  return after

/-- Applies a statement; what it did to a registry is said after it was done. -/
def processAloud (l : Ledger) : Statement → Session Ledger
  | .unit code =>
    match l.currencies.declare code with
    | .error error => Session.fail (.statement (.currency error))
    | .ok (currencies, index) => do
      let after := { l with currencies }
      after.say (.unitDeclared code index)
      return after
  | .openAccount day account => do
    let after := { l with accounts := (l.accounts.openAt account day).1 }
    after.say (.accountOpened account day)
    return after
  | .closeAccount day account =>
    match l.accounts.closeAt account day with
    | .error error => Session.fail (.statement (.account error))
    | .ok (accounts, _) => do
      let after := { l with accounts }
      after.say (.accountClosed account day)
      return after
  | statement =>
    match l.process statement with
    | .error error => Session.fail (.statement error)
    | .ok after => return after

mutual

def loadTargetAloud (files : Files) (stack : List String) (target : Path) (l : Ledger) :
    Session Ledger :=
  match files.resolve target with
  | .error error => Session.fail (.unresolvable error)
  | .ok path => l.loadFileAloud files stack path
termination_by (files.countOutside stack, 1)

def loadFileAloud (files : Files) (stack : List String) (path : String) (l : Ledger) :
    Session Ledger :=
  if onStack : path ∈ stack then Session.fail (.cycle path stack)
  else do
    Session.ask path
    match content : files.read path with
    | .error reason => Session.fail (.unreadable path reason)
    | .ok text =>
      match (Source.ofText text (some path)).tokens with
      | .error error => Session.fail (.parse error)
      | .ok tokens =>
        have := Files.countOutside_append_lt content onStack
        l.loadTokensAloud files (stack ++ [path]) (some path) tokens
termination_by (files.countOutside stack, 0)

/-- An include is said before its file is loaded. -/
def loadTokensAloud (files : Files) (stack : List String) (source : Option String) (l : Ledger) :
    List Token → Session Ledger
  | [] => return l
  | t :: ts => do
    let applied : Session Ledger :=
      match Directive.ofToken t with
      | .error error => Session.fail (.meaning error)
      | .ok (.option key value) => l.setOptionAloud key value
      | .ok (.statement statement) => l.processAloud statement
      | .ok (.includeFile path) => do
        let target := files.includeTarget source path
        l.say (.includeStarted target.text)
        l.loadTargetAloud files stack target
    let after ← applied.noted (noteOf source t)
    after.loadTokensAloud files stack source ts
termination_by ts => (files.countOutside stack, ts.length + 1)

end

def loadAloud (l : Ledger) (files : Files) (text : String) (source : Option String) :
    Session Ledger :=
  match files.nameOf source with
  | .error error => Session.fail (.unresolvable error)
  | .ok name =>
    match (Source.ofText text name).tokens with
    | .error error => Session.fail (.parse error)
    | .ok tokens => l.loadTokensAloud files name.toList name tokens

def loadPathAloud (l : Ledger) (files : Files) (path : String) : Session Ledger :=
  l.loadTargetAloud files [] (.ofText path)

end Ledger

/-- A quiet and a loud load differ in the flag of the ledger and in what they print: the quiet one
nothing, and the loud one a line for each announcement. -/
structure OnlyPrints (quiet loud : Except Failure Ledger × Console) (announced : List Event) :
    Prop where
  result : quiet.1 = loud.1.map (Ledger.withVerbose false)
  flag : ∀ after, loud.1 = .ok after → after.verbose = true
  asked : quiet.2.asked = loud.2.asked
  silent : quiet.2.printed = []
  lines : loud.2.printed.map some = announced.map Event.notice?

end DoubleEntry
