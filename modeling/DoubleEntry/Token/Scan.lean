import DoubleEntry.Token.Lexeme

/-! Reading one line from left to right. A scan either moves the cursor to the right or stops with
what it expected and where. -/
namespace DoubleEntry

inductive Expected where
  | lexeme (kind : Lexeme)
  | keyword (word : String)
  | gapBefore (what : String)
  | lineEnd
  | statementKeyword
  | statement (rule : Rule)
  | posting
  | unindented
  | directive
  | textEnd
  deriving DecidableEq, Repr

def Expected.message : Expected → String
  | .lexeme .date => "expected a date (YYYY-MM-DD)"
  | .lexeme .string => "expected a quoted string"
  | .lexeme .account => "expected an account (e.g. Assets:Bank:Checking)"
  | .lexeme .nominal => "expected a number"
  | .lexeme .currency => "expected a currency code"
  | .lexeme .flag => "expected a transaction flag (*, !, #)"
  | .keyword word => "expected `" ++ word ++ "'"
  | .gapBefore what => "expected whitespace before " ++ what
  | .lineEnd => "unexpected input, expected end of line"
  | .statementKeyword =>
    "expected one of custom, open, close, pad, balance, price or a transaction flag (*, !, #)"
  | .statement rule => "expected " ++ rule.name
  | .posting => "expected at least one indented posting"
  | .unindented => "unexpected indentation outside of a transaction"
  | .directive => "expected a date, `option', `include' or `unit'"
  | .textEnd => "unexpected trailing input"

/-- Input that does not fit, by its offset, and what was expected there. -/
structure Stray where
  offset : Nat
  expected : Expected
  deriving DecidableEq, Repr

/-- A place in a line, by the number of characters before it. -/
structure Cursor where
  line : Line
  column : Nat
  deriving DecidableEq, Repr

def Line.cursor (line : Line) : Cursor := ⟨line, 0⟩

namespace Cursor

def rest (c : Cursor) : List Char := c.line.chars.drop c.column

def offset (c : Cursor) : Nat := c.line.start + c.column

def position (c : Cursor) : Position := ⟨c.line.number, c.column + 1⟩

def advance (c : Cursor) (count : Nat) : Cursor := { c with column := c.column + count }

def skipGap (c : Cursor) : Cursor := c.advance (c.rest.takeWhile Text.isGap).length

def toLineEnd (c : Cursor) : Cursor := { c with column := c.line.chars.length }

/-- Only a gap or a comment is left on the line. -/
def atLineEnd (c : Cursor) : Bool := c.skipGap.rest.head?.all (· == commentMark)

/-- The text between two places of a line. -/
def textTo (start stop : Cursor) : String := .ofList (start.rest.take (stop.column - start.column))

@[simp] theorem rest_advance (c : Cursor) (count : Nat) :
    (c.advance count).rest = c.rest.drop count := by
  simp [rest, advance, List.drop_drop]

end Cursor

abbrev Scan := StateT Cursor (Except Stray)

namespace Scan

def fail {α : Type} (expected : Expected) : Scan α := fun c => .error ⟨c.offset, expected⟩

/-- At least one space or tab. -/
def gap (what : String) : Scan Unit := fun c =>
  if c.rest.head?.any Text.isGap then .ok ((), c.skipGap) else .error ⟨c.offset, .gapBefore what⟩

def lexeme (kind : Lexeme) : Scan Token := fun c =>
  match kind.read? c.rest with
  | none => .error ⟨c.offset, .lexeme kind⟩
  | some text => .ok (.leaf kind.rule (.ofList text) c.position, c.advance text.length)

/-- Whether a word stands at the front of a text with a gap after it. -/
def startsWith (word : String) (cs : List Char) : Bool :=
  word.toList.isPrefixOf cs && (cs.drop word.length).head?.any Text.isGap

def keyword (word : String) : Scan Unit := fun c =>
  if startsWith word c.rest then .ok ((), c.advance word.length)
  else .error ⟨c.offset, .keyword word⟩

/-- A token from an earlier place of the line up to the cursor. -/
def nodeFrom (start : Cursor) (rule : Rule) (children : List Token) : Scan Token := fun c =>
  .ok (⟨rule, start.textTo c, start.position, children⟩, c)

/-- A token around the tokens that are read next. -/
def node (rule : Rule) (inner : Scan (List Token)) : Scan Token := do
  let start ← get
  let children ← inner
  nodeFrom start rule children

/-- The rest of the line may only be a gap and a comment. -/
def lineEnd : Scan Unit := fun c =>
  if c.atLineEnd then .ok ((), c.toLineEnd) else .error ⟨c.skipGap.offset, .lineEnd⟩

/-- A token that takes up the rest of its line. -/
def lineOf (rule : Rule) (inner : Scan (List Token)) : Scan Token := do
  let token ← node rule inner
  lineEnd
  return token

theorem bind_apply {α β : Type} (m : Scan α) (f : α → Scan β) (c : Cursor) :
    (m >>= f) c = match m c with
      | .error stray => .error stray
      | .ok (a, next) => f a next := by
  show StateT.bind m f c = _
  unfold StateT.bind
  cases m c <;> rfl

theorem pure_apply {α : Type} (a : α) (c : Cursor) : (pure a : Scan α) c = .ok (a, c) := rfl

theorem get_apply (c : Cursor) : (get : Scan Cursor) c = .ok (c, c) := rfl

theorem skipGap_rest_length_lt {c : Cursor} (h : c.rest.head?.any Text.isGap = true) :
    c.skipGap.rest.length < c.rest.length := by
  rw [Cursor.skipGap, Cursor.rest_advance, List.length_drop]
  cases hr : c.rest with
  | nil => simp [hr] at h
  | cons x xs =>
    have hx : Text.isGap x = true := by simpa [hr] using h
    rw [List.takeWhile_cons_of_pos hx, List.length_cons, List.length_cons]
    omega

theorem lexeme_rest_length_le {kind : Lexeme} {c next : Cursor} {token : Token}
    (h : lexeme kind c = .ok (token, next)) : next.rest.length ≤ c.rest.length := by
  unfold lexeme at h
  split at h
  · contradiction
  · cases h
    simp

def furtherString : Scan Token := do
  gap "the next custom argument"
  lexeme .string

theorem furtherString_rest_length_lt {c next : Cursor} {token : Token}
    (h : furtherString c = .ok (token, next)) : next.rest.length < c.rest.length := by
  simp only [furtherString, bind_apply, gap] at h
  by_cases hg : c.rest.head?.any Text.isGap = true
  · simp only [hg, if_true] at h
    exact Nat.lt_of_le_of_lt (lexeme_rest_length_le h) (skipGap_rest_length_lt hg)
  · simp [hg] at h

/-- Quoted strings up to the end of the line. -/
def furtherStrings (c : Cursor) : Except Stray (List Token × Cursor) :=
  if c.atLineEnd then .ok ([], c)
  else
    match h : furtherString c with
    | .error stray => .error stray
    | .ok (token, next) =>
      have := furtherString_rest_length_lt h
      match furtherStrings next with
      | .error stray => .error stray
      | .ok (tokens, stop) => .ok (token :: tokens, stop)
termination_by c.rest.length

end Scan
end DoubleEntry
