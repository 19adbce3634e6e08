import DoubleEntry.Text.CharTable

/-! Blank characters, and trimming them from the ends of a text. -/
namespace DoubleEntry.Text

def blankTable : CharTable where
  ranges :=
    [(0x9, 0xd), (0x1c, 0x20), (0x85, 0x85), (0xa0, 0xa0), (0x1680, 0x1680), (0x2000, 0x200a),
      (0x2028, 0x2029), (0x202f, 0x202f), (0x205f, 0x205f), (0x3000, 0x3000)]
  ascending := by decide +kernel

/-- Spaces, tabs, line ends and the other separators of the character set. -/
def isBlank (c : Char) : Bool := blankTable.contains c.toNat

/-- The two blanks that may stand between the words of a line. -/
def isGap (c : Char) : Bool := c == ' ' || c == '\t'

theorem isBlank_of_isGap {c : Char} (h : isGap c = true) : isBlank c = true := by
  simp only [isGap, Bool.or_eq_true, beq_iff_eq] at h
  rcases h with rfl | rfl <;> decide

def trimStart (cs : List Char) : List Char := cs.dropWhile isBlank

def trimEnd (cs : List Char) : List Char := (cs.reverse.dropWhile isBlank).reverse

def trim (cs : List Char) : List Char := trimEnd (trimStart cs)

end DoubleEntry.Text
