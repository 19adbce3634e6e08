import DoubleEntry.Load.Basic

/-! What a text asks of a ledger, with every include directive replaced by the contents of its file.
The expansion is found without a ledger; following it is what loading amounts to. -/
namespace DoubleEntry

inductive Action where
  | setOption (key value : String)
  | apply (statement : Statement)
  | enter (target : String)
  | stop (error : LoadError)
  deriving DecidableEq, Repr

/-- What is announced of an action that has led to a ledger: settings, changes of the registries and
includes. -/
def Action.announcement (after : Ledger) : Action → Option Event
  | .setOption key value => some (.optionSet key value)
  | .enter target => some (.includeStarted target)
  | .apply (.unit code) => (after.currencies.codes.index? code).map (.unitDeclared code)
  | .apply (.openAccount day account) => some (.accountOpened account day)
  | .apply (.closeAccount day account) => some (.accountClosed account day)
  | _ => none

/-- An action, the files that are being read around it, the outermost first, and the notes on the
directives that lead to it, the innermost first. -/
structure Step where
  action : Action
  stack : List String
  trail : List String
  deriving DecidableEq, Repr

namespace Step

def ofAction (action : Action) (stack : List String) : Step := ⟨action, stack, []⟩

def within (step : Step) (note : String) : Step := { step with trail := step.trail ++ [note] }

end Step

namespace Files

mutual

/-- The steps of the file that a path leads to. -/
def expandTarget (files : Files) (stack : List String) (target : Path) : List Step :=
  match files.resolve target with
  | .error error => [.ofAction (.stop (.unresolvable error)) stack]
  | .ok path => files.expand stack path
termination_by (files.countOutside stack, 1)

/-- The steps of a file, or a stop where it cannot be read or is being read already. -/
def expand (files : Files) (stack : List String) (path : String) : List Step :=
  if onStack : path ∈ stack then [.ofAction (.stop (.cycle path stack)) stack]
  else
    match content : files.read path with
    | .error reason => [.ofAction (.stop (.unreadable path reason)) stack]
    | .ok text =>
      match (Source.ofText text (some path)).tokens with
      | .error error => [.ofAction (.stop (.parse error)) (stack ++ [path])]
      | .ok tokens =>
        have := Files.countOutside_append_lt content onStack
        files.expandTokens (stack ++ [path]) (some path) tokens
termination_by (files.countOutside stack, 0)

/-- The steps of the directives of one text. -/
def expandTokens (files : Files) (stack : List String) (source : Option String) :
    List Token → List Step
  | [] => []
  | t :: ts =>
    let steps : List Step :=
      match Directive.ofToken t with
      | .error error => [.ofAction (.stop (.meaning error)) stack]
      | .ok (.option key value) => [.ofAction (.setOption key value) stack]
      | .ok (.statement statement) => [.ofAction (.apply statement) stack]
      | .ok (.includeFile path) =>
        let target := files.includeTarget source path
        Step.ofAction (.enter target.text) stack :: files.expandTarget stack target
    steps.map (·.within (noteOf source t)) ++ files.expandTokens stack source ts
termination_by ts => (files.countOutside stack, ts.length + 1)

end

def expandText (files : Files) (text : String) (source : Option String) : List Step :=
  match files.nameOf source with
  | .error error => [.ofAction (.stop (.unresolvable error)) []]
  | .ok name =>
    match (Source.ofText text name).tokens with
    | .error error => [.ofAction (.stop (.parse error)) name.toList]
    | .ok tokens => files.expandTokens name.toList name tokens

def expandPath (files : Files) (path : String) : List Step := files.expandTarget [] (.ofText path)

end Files

namespace Ledger

def perform (l : Ledger) : Action → Except LoadError Ledger
  | .setOption key value => .ok (l.setOption key value)
  | .apply statement => (l.process statement).mapError .statement
  | .enter _ => .ok l
  | .stop error => .error error

/-- Takes the steps one after another up to the first that fails. -/
def follow (l : Ledger) : List Step → Except Failure Ledger
  | [] => .ok l
  | step :: rest =>
    match l.perform step.action with
    | .error error => .error ⟨error, step.trail⟩
    | .ok after => after.follow rest

/-- The announcements on the way, up to the first step that fails. -/
def announced (l : Ledger) : List Step → List Event
  | [] => []
  | step :: rest =>
    match l.perform step.action with
    | .error _ => []
    | .ok after => (step.action.announcement after).toList ++ after.announced rest

end Ledger
end DoubleEntry
