import DoubleEntry.Source.Basic

/-! Places in source text found by counting line feeds, without a table of lines. -/
namespace DoubleEntry.Source

/-- The characters from one offset up to another. -/
def slice (s : Source) (start stop : Nat) : List Char := (s.chars.drop start).take (stop - start)

/-- Each line feed before the offset adds a line, and each character since the last of them a
column. -/
def countedPosition (s : Source) (offset : Nat) : Position :=
  let before := s.chars.take offset
  ⟨before.count '\n' + 1, (before.reverse.takeWhile (· ≠ '\n')).length + 1⟩

end DoubleEntry.Source
