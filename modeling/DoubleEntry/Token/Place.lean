import DoubleEntry.Source.Counting
import DoubleEntry.Token.Lexeme

/-! Where tokens stand in their source, and what stands between them. -/
namespace DoubleEntry

/-- The words and marks that no lexeme holds. -/
def bareWords : List String :=
  ["option", "include", "unit", "custom", "open", "close", "pad", "balance", "price", "@"]

/-- Text that says nothing by itself: blanks, comments, keywords and price marks. -/
inductive Filler : List Char → Prop where
  | nil : Filler []
  | blank {c : Char} {cs : List Char} : Text.isBlank c = true → Filler cs → Filler (c :: cs)
  | comment {body cs : List Char} : '\n' ∉ body → cs.head?.all (· = '\n') = true → Filler cs →
      Filler (commentMark :: body ++ cs)
  | word {word : String} {cs : List Char} : word ∈ bareWords → Filler cs →
      Filler (word.toList ++ cs)

mutual

/-- The token is what stands between two offsets. A list of postings has no text of its own. -/
inductive Token.Covers (s : Source) : Token → Nat → Nat → Prop where
  | leaf {rule : Rule} {text : String} {start stop : Nat} : start < stop → stop ≤ s.chars.length →
      text.toList = s.slice start stop →
      Token.Covers s (.leaf rule text (s.countedPosition start)) start stop
  | node {rule : Rule} {text : String} {children : List Token} {start stop : Nat} :
      children ≠ [] → text.toList = s.slice start stop → TokensFill s children start stop →
      Token.Covers s ⟨rule, text, s.countedPosition start, children⟩ start stop
  | list {text : String} {position : Position} {children : List Token} {start stop : Nat} :
      TokensFill s children start stop →
      Token.Covers s ⟨.txnList, text, position, children⟩ start stop

/-- Tokens stand one after another between two offsets, with nothing but fillers around them. -/
inductive TokensFill (s : Source) : List Token → Nat → Nat → Prop where
  | nil {start stop : Nat} : start ≤ stop → stop ≤ s.chars.length → Filler (s.slice start stop) →
      TokensFill s [] start stop
  | cons {t : Token} {ts : List Token} {start a b stop : Nat} : start ≤ a →
      Filler (s.slice start a) → Token.Covers s t a b → TokensFill s ts b stop →
      TokensFill s (t :: ts) start stop

end

mutual

/-- The same token where so many lines above it are left out. -/
def Token.movedUp (lines : Nat) : Token → Token
  | ⟨rule, text, position, children⟩ =>
    ⟨rule, text, { position with line := position.line - lines }, allMovedUp lines children⟩

def allMovedUp (lines : Nat) : List Token → List Token
  | [] => []
  | t :: ts => t.movedUp lines :: allMovedUp lines ts

end

end DoubleEntry
