import DoubleEntry.Source.ParseError
import DoubleEntry.Token.Directive

/-! Reading the tokens of a whole source text, or of a text that holds one token. -/
namespace DoubleEntry

/-- The directives on consecutive lines; vacant lines between them do not count. -/
def directives : List Line → Except Stray (List Token)
  | [] => .ok []
  | line :: below =>
    if line.isVacant then directives below
    else
      match h : directive line below with
      | .error stray => .error stray
      | .ok (token, left) =>
        have := directive_left_length_le h
        match directives left with
        | .error stray => .error stray
        | .ok tokens => .ok (token :: tokens)
termination_by lines => lines.length

/-- The first place that is not vacant, past its gap, and the lines below it. -/
def firstPlace (line : Line) : List Line → Cursor × List Line
  | [] => (if line.isVacant then line.cursor.toLineEnd else line.cursor.skipGap, [])
  | next :: below =>
    if line.isVacant then firstPlace next below else (line.cursor.skipGap, next :: below)

/-- Nothing may follow but vacant lines. -/
def requireEnd (c : Cursor) (below : List Line) : Except Stray Unit :=
  if c.atLineEnd then
    match below.find? (!·.isVacant) with
    | none => .ok ()
    | some line => .error ⟨line.cursor.skipGap.offset, .textEnd⟩
  else .error ⟨c.skipGap.offset, .textEnd⟩

namespace Scan

/-- How each rule is read by itself; none for the parts of a transaction and for bare numbers. -/
def ofRule? (rule : Rule) (below : List Line) : Option (Scan (Token × List Line)) :=
  let alone (scan : Scan Token) : Option (Scan (Token × List Line)) := some ((·, below) <$> scan)
  match rule with
  | .option => alone option
  | .includeFile => alone includeFile
  | .unit => alone unit
  | .statement => some (statement below)
  | .custom | .openAccount | .closeAccount | .pad | .balance | .price | .transaction =>
    some (dated rule below)
  | .posting => alone posting
  | .date => alone (lexeme .date)
  | .string => alone (lexeme .string)
  | .account => alone (lexeme .account)
  | .currency => alone (lexeme .currency)
  | .amount => alone amount
  | .amountWithPrice => alone amountWithPrice
  | .ledger | .txnHeader | .txnState | .txnList | .nominal => none

end Scan

inductive ReadingError where
  | stray (error : ParseError)
  | notAlone (rule : Rule)
  deriving DecidableEq, Repr

namespace Source

def located (s : Source) (stray : Stray) : ParseError where
  reason := stray.expected.message
  position := some (s.position stray.offset)
  lineText := .ofList (s.lineAt stray.offset)
  source := s.name

/-- All directives of the text, in order. -/
def tokens (s : Source) : Except ParseError (List Token) :=
  (directives s.lines).mapError s.located

/-- The text as one token of the given rule. -/
def token (s : Source) (rule : Rule) : Except ReadingError Token :=
  if rule = .ledger then do
    let children ← s.tokens.mapError .stray
    return ⟨.ledger, .ofList (Text.trim s.chars), ⟨1, 1⟩, children⟩
  else
    let (start, below) := firstPlace s.firstLine s.laterLines
    match Scan.ofRule? rule below with
    | none => .error (.notAlone rule)
    | some scan =>
      (do let ((token, left), stop) ← scan start
          requireEnd stop left
          return token).mapError fun stray => .stray (s.located stray)

end Source

def ReadingError.message : ReadingError → String
  | .stray error => error.message
  | .notAlone rule => "rule " ++ rule.label ++ " cannot be parsed on its own"

end DoubleEntry
