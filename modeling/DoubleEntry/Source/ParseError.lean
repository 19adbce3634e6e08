import DoubleEntry.Source.Basic

/-! Errors that point into source text. -/
namespace DoubleEntry

structure ParseError where
  reason : String
  position : Option Position
  lineText : String
  source : Option String
  deriving DecidableEq, Repr

/-- The reason, then the place, then the line with a caret below the column. -/
def ParseError.message (e : ParseError) : String :=
  match e.position with
  | none => e.reason
  | some p =>
    let file := match e.source with
      | some name => if name = "" then "" else name ++ ", "
      | none => ""
    let place := file ++ "line " ++ toString p.line ++ ", column " ++ toString p.column
    let shown :=
      if e.lineText = "" then ""
      else "\n" ++ e.lineText ++ "\n" ++ .ofList (List.replicate (p.column - 1) ' ') ++ "^"
    e.reason ++ "\n" ++ place ++ shown

end DoubleEntry
