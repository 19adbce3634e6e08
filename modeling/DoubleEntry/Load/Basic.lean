import DoubleEntry.Load.Files
import DoubleEntry.Load.Run
import DoubleEntry.Token.Reading

/-! Loading a ledger from text or from a file, with the files it includes. A file is read as a whole
before anything in it is applied, and may not include itself through any chain of files. -/
namespace DoubleEntry

/-- Where a directive stands, and the first of its lines. -/
def noteOf (source : Option String) (t : Token) : String :=
  let file := source.getD "<string>"
  "in " ++ file ++ ", line " ++ toString t.position.line ++ ": " ++
    .ofList (Text.splitAt '\n' t.text.toList).1

def Ledger.run (l : Ledger) (statement : Statement) : Run Ledger :=
  match l.process statement with
  | .error error => .fail (.statement error)
  | .ok after => .after (after.eventsOf statement) (.done after)

def Ledger.runOption (l : Ledger) (key value : String) : Run Ledger :=
  .after [.optionSet key value] (.done (l.setOption key value))

mutual

/-- Adds the contents of the file that a path leads to. -/
def Ledger.loadTarget (files : Files) (stack : List String) (target : Path) (l : Ledger) :
    Run Ledger :=
  match files.resolve target with
  | .error error => .fail (.unresolvable error)
  | .ok path => l.loadFile files stack path
termination_by (files.countOutside stack, 1)

/-- Adds the contents of a file; `stack` are the files that are being loaded around it. -/
def Ledger.loadFile (files : Files) (stack : List String) (path : String) (l : Ledger) :
    Run Ledger :=
  if onStack : path ∈ stack then .fail (.cycle path stack)
  else
    .after [.fileRead path] <|
      match content : files.read path with
      | .error reason => .fail (.unreadable path reason)
      | .ok text =>
        match (Source.ofText text (some path)).tokens with
        | .error error => .fail (.parse error)
        | .ok tokens =>
          have := Files.countOutside_append_lt content onStack
          l.loadTokens files (stack ++ [path]) (some path) tokens
termination_by (files.countOutside stack, 0)

/-- Applies the directives of one text in order; a failure is noted with the directive. -/
def Ledger.loadTokens (files : Files) (stack : List String) (source : Option String) (l : Ledger) :
    List Token → Run Ledger
  | [] => .done l
  | t :: ts =>
    let applied : Run Ledger :=
      match Directive.ofToken t with
      | .error error => .fail (.meaning error)
      | .ok (.option key value) => l.runOption key value
      | .ok (.statement statement) => l.run statement
      | .ok (.includeFile path) =>
        let target := files.includeTarget source path
        .after [.includeStarted target.text] (l.loadTarget files stack target)
    (applied.addNote (noteOf source t)).andThen fun after => after.loadTokens files stack source ts
termination_by ts => (files.countOutside stack, ts.length + 1)

end

/-- Adds the directives of a text, which may have been read from a file. -/
def Ledger.load (l : Ledger) (files : Files) (text : String) (source : Option String) :
    Run Ledger :=
  match files.nameOf source with
  | .error error => .fail (.unresolvable error)
  | .ok name =>
    match (Source.ofText text name).tokens with
    | .error error => .fail (.parse error)
    | .ok tokens => l.loadTokens files name.toList name tokens

/-- Adds the contents of a file by its path. -/
def Ledger.loadPath (l : Ledger) (files : Files) (path : String) : Run Ledger :=
  l.loadTarget files [] (.ofText path)

end DoubleEntry
