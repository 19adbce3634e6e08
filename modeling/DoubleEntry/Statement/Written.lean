import DoubleEntry.Statement.Basic
import DoubleEntry.Text.Quoted

/-! Directives as a ledger has them: the lines that say one, and which directives can be said. -/
namespace DoubleEntry

/-- Words with a space between any two. -/
def spaced (words : List (List Char)) : List Char := Text.joinWith ' ' words

def quotedChars (s : String) : List Char := Text.quote s.toList

/-- A quoted string has no way to hold a control character. -/
def isQuotable (s : String) : Bool := s.toList.all (!Text.isControl ·)

def AccountName.isWritable (a : AccountName) : Bool :=
  a.segments.all fun segment => Lexeme.isSegment segment.toList

/-- The currencies are codes, and there are at most so many prices. -/
def Amount.isWritable (prices : Nat) (a : Amount String) : Bool :=
  (a.currency :: a.prices.map (·.currency)).all (fun code => Lexeme.isCurrency code.toList) &&
    a.prices.length ≤ prices

namespace Posting

/-- Account and amount on an indented line. -/
def line (p : Posting) : List Char :=
  "    ".toList ++ spaced (p.account.chars :: (p.amount.map Amount.chars).toList)

def isWritable (p : Posting) : Bool := p.account.isWritable && p.amount.all (Amount.isWritable 1)

end Posting

namespace Header

/-- The strings after the flag. -/
def strings (h : Header) : List String := h.payee.toList ++ [h.title]

def isWritable (h : Header) : Bool := h.state ≠ .virtual && h.strings.all isQuotable

end Header

namespace Statement

/-- Date, keyword and arguments on a line, and the postings of a transaction below it. -/
def lines : Statement → List (List Char)
  | .unit code => [spaced ["unit".toList, code.toList]]
  | .custom day args => [spaced (day.chars :: "custom".toList :: args.map quotedChars)]
  | .openAccount day account => [spaced [day.chars, "open".toList, account.chars]]
  | .closeAccount day account => [spaced [day.chars, "close".toList, account.chars]]
  | .pad day target source => [spaced [day.chars, "pad".toList, target.chars, source.chars]]
  | .balance day account amount =>
    [spaced [day.chars, "balance".toList, account.chars, amount.chars]]
  | .price day currency amount =>
    [spaced [day.chars, "price".toList, currency.toList, amount.chars]]
  | .transaction day header postings =>
    spaced (day.chars :: header.state.flag.toList :: header.strings.map quotedChars) ::
      postings.map Posting.line

def isWritable : Statement → Bool
  | .unit code => Lexeme.isCurrency code.toList
  | .custom _ args => args ≠ [] && args.all isQuotable
  | .openAccount _ account | .closeAccount _ account => account.isWritable
  | .pad _ target source => target.isWritable && source.isWritable
  | .balance _ account amount => account.isWritable && amount.isWritable 0
  | .price _ currency amount => Lexeme.isCurrency currency.toList && amount.isWritable 0
  | .transaction _ header postings =>
    header.isWritable && postings ≠ [] && postings.all Posting.isWritable

/-- The one representative of all statements that differ only in how their numbers are written. -/
def canonical : Statement → Statement
  | .balance day account amount => .balance day account amount.canonical
  | .price day currency amount => .price day currency amount.canonical
  | .transaction day header postings =>
    .transaction day header (postings.map fun p => { p with amount := p.amount.map Amount.canonical })
  | statement => statement

end Statement

namespace Directive

def lines : Directive → List (List Char)
  | .option key value => [spaced ["option".toList, quotedChars key, quotedChars value]]
  | .includeFile path => [spaced ["include".toList, quotedChars path]]
  | .statement s => s.lines

def isWritable : Directive → Bool
  | .option key value => isQuotable key && isQuotable value
  | .includeFile path => isQuotable path
  | .statement s => s.isWritable

def canonical : Directive → Directive
  | .statement s => .statement s.canonical
  | directive => directive

/-- A whole ledger, each line with its line feed. -/
def write (directives : List Directive) : String :=
  .ofList ((directives.flatMap lines).flatMap (· ++ ['\n']))

end Directive
end DoubleEntry
