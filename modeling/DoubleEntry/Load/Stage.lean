import DoubleEntry.Load.Basic
import Mathlib.Data.List.ReduceOption
import Mathlib.Logic.Function.Iterate

/-! A load as a sequence of stages. What recursion keeps in its calls, a stage has in a list: the
texts that are being loaded, each with what is left of it. -/
namespace DoubleEntry

/-- A text that is being loaded. The first of the directives that are left is at work while the file
it includes is loaded. -/
structure LoadFrame where
  source : Option String
  left : List Token

namespace LoadFrame

/-- The files among texts inside one another, the outermost first; none of them may be included
again. The innermost text is the first frame. -/
def stack (frames : List LoadFrame) : List String :=
  (frames.map (·.source)).reduceOption.reverse

/-- Ends the directive at work. -/
def resume : List LoadFrame → List LoadFrame
  | [] => []
  | frame :: frames => { frame with left := frame.left.tail } :: frames

/-- A failure as it leaves a text, with a note on the directive at work. -/
def note (frame : LoadFrame) (failure : Failure) : Failure :=
  match frame.left with
  | [] => failure
  | t :: _ => failure.addNote (noteOf frame.source t)

end LoadFrame

inductive LoadStage where
  | opened (l : Ledger) (text : Source) (around : List LoadFrame)
  | working (l : Ledger) (frames : List LoadFrame)
  | failing (failure : Failure) (frames : List LoadFrame)
  | ended (result : Except Failure Ledger)

namespace LoadStage

/-- Opens a file that is not on the stack. -/
def enter (files : Files) (l : Ledger) (path : String) (frames : List LoadFrame) : LoadStage :=
  if path ∈ LoadFrame.stack frames then
    .failing ⟨.cycle path (LoadFrame.stack frames), []⟩ frames
  else
    match files.read path with
    | .error reason => .failing ⟨.unreadable path reason, []⟩ frames
    | .ok text => .opened l (Source.ofText text (some path)) frames

/-- Opens the file that a path leads to. -/
def enterTarget (files : Files) (l : Ledger) (target : Path) (frames : List LoadFrame) :
    LoadStage :=
  match files.resolve target with
  | .error error => .failing ⟨.unresolvable error, []⟩ frames
  | .ok path => enter files l path frames

/-- Begins the first directive of a text; an include is not done before its file is. -/
def work (files : Files) (l : Ledger) (source : Option String) (t : Token) (ts : List Token)
    (frames : List LoadFrame) : LoadStage :=
  match Directive.ofToken t with
  | .error error => .failing ⟨.meaning error, []⟩ (⟨source, t :: ts⟩ :: frames)
  | .ok (.option key value) => .working (l.setOption key value) (⟨source, ts⟩ :: frames)
  | .ok (.statement statement) =>
    match l.process statement with
    | .error error => .failing ⟨.statement error, []⟩ (⟨source, t :: ts⟩ :: frames)
    | .ok after => .working after (⟨source, ts⟩ :: frames)
  | .ok (.includeFile path) =>
    enterTarget files l (files.includeTarget source path) (⟨source, t :: ts⟩ :: frames)

def next (files : Files) : LoadStage → LoadStage
  | .opened l text around =>
    match text.tokens with
    | .error error => .failing ⟨.parse error, []⟩ around
    | .ok tokens => .working l (⟨text.name, tokens⟩ :: around)
  | .working l [] => .ended (.ok l)
  | .working l (⟨_, []⟩ :: frames) => .working l (LoadFrame.resume frames)
  | .working l (⟨source, t :: ts⟩ :: frames) => work files l source t ts frames
  | .failing failure [] => .ended (.error failure)
  | .failing failure (frame :: frames) => .failing (frame.note failure) frames
  | .ended result => .ended result

/-- The texts that are being loaded by name, the innermost first; a text has no name where it came
from no file. -/
def sources : LoadStage → List (Option String)
  | .opened _ text around => text.name :: around.map (·.source)
  | .working _ frames => frames.map (·.source)
  | .failing _ frames => frames.map (·.source)
  | .ended _ => []

def stack (stage : LoadStage) : List String := stage.sources.reduceOption.reverse

/-- How many texts are being loaded inside one another. -/
def depth (stage : LoadStage) : Nat := stage.sources.length

def result? : LoadStage → Option (Except Failure Ledger)
  | .ended result => some result
  | _ => none

/-- What holds of the include stack at every stage of a load from a given file, if from any. -/
structure IsBounded (files : Files) (given : Option String) (stage : LoadStage) : Prop where
  nodup : stage.stack.Nodup
  origin : ∀ path ∈ stage.stack,
    files.nameOf given = .ok (some path) ∨ ∃ text, files.read path = .ok text
  resolved : ∀ path ∈ stage.stack, files.IsResolved path
  depth_le : stage.depth ≤ files.size + 1

/-- Some number of steps leads from the one stage to the other. -/
def Leads (files : Files) (stage later : LoadStage) : Prop :=
  ∃ steps, (next files)^[steps] stage = later

end LoadStage

namespace Ledger

/-- The first stage of `load`. -/
def opening (l : Ledger) (files : Files) (text : String) (source : Option String) : LoadStage :=
  match files.nameOf source with
  | .error error => .failing ⟨.unresolvable error, []⟩ []
  | .ok name => .opened l (.ofText text name) []

/-- The first stage of `loadPath`. -/
def openingPath (l : Ledger) (files : Files) (path : String) : LoadStage :=
  .enterTarget files l (.ofText path) []

end Ledger
end DoubleEntry
