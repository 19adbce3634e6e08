import DoubleEntry.Text.Lines

/-! Source text in lines, with the two ways to name a place in it: an offset, and a line and column. -/
namespace DoubleEntry

/-- Line and column, both counted from one, the column in characters. -/
structure Position where
  line : Nat
  column : Nat
  deriving DecidableEq, Repr

/-- A line without its line feed, its number, and the offset of its first character. -/
structure Line where
  number : Nat
  start : Nat
  chars : List Char
  deriving DecidableEq, Repr

/-- The offset just after the last character. -/
def Line.stop (line : Line) : Nat := line.start + line.chars.length

/-- Consecutive lines, the first with the given number and offset. -/
def numbered (number start : Nat) : List (List Char) → List Line
  | [] => []
  | cs :: rest => ⟨number, start, cs⟩ :: numbered (number + 1) (start + cs.length + 1) rest

theorem numbered_chars (number start : Nat) (pieces : List (List Char)) :
    (numbered number start pieces).map Line.chars = pieces := by
  induction pieces generalizing number start with
  | nil => rfl
  | cons cs rest ih => simp [numbered, ih]

/-- Text with line feeds only, and the name of the file it came from. -/
structure Source where
  name : Option String
  chars : List Char
  deriving DecidableEq, Repr

namespace Source

def ofText (text : String) (name : Option String) : Source := ⟨name, Text.foldCrLf text.toList⟩

def firstLine (s : Source) : Line := ⟨1, 0, (Text.splitAt '\n' s.chars).1⟩

def laterLines (s : Source) : List Line :=
  numbered 2 (s.firstLine.stop + 1) (Text.splitAt '\n' s.chars).2

/-- There is always a first line, perhaps an empty one. -/
def lines (s : Source) : List Line := s.firstLine :: s.laterLines

/-- The offsets at which the lines start. -/
def lineStarts (s : Source) : List Nat := s.lines.map Line.start

/-- Looks the offset up among the line starts. -/
def position (s : Source) (offset : Nat) : Position :=
  let reached := s.lineStarts.takeWhile (· ≤ offset)
  ⟨reached.length, offset - reached.getLastD 0 + 1⟩

def lineAt (s : Source) (offset : Nat) : List Char :=
  ((s.lines.takeWhile (·.start ≤ offset)).getLastD s.firstLine).chars

end Source
end DoubleEntry
