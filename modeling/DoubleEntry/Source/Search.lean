import DoubleEntry.Source.Basic

/-! Places in source text found by halving the table of line starts. -/
namespace DoubleEntry.Source

/-- How many of the line starts are up to an offset, if the ones before `low` are and the ones from
`high` on are not. -/
def searchBetween (starts : List Nat) (offset low high : Nat) (h : high ≤ starts.length) : Nat :=
  if hlow : low < high then
    if offset < starts[(low + high) / 2] then
      searchBetween starts offset low ((low + high) / 2) (by omega)
    else searchBetween starts offset ((low + high) / 2 + 1) high h
  else low
termination_by high - low

/-- The last line that starts up to the offset, and the characters from its start on. -/
def positionBySearch (s : Source) (offset : Nat) : Position :=
  let line := searchBetween s.lineStarts offset 0 s.lineStarts.length Nat.le.refl
  ⟨line, offset - s.lineStarts.getD (line - 1) 0 + 1⟩

end DoubleEntry.Source
