import DoubleEntry.Account.Kind
import DoubleEntry.Date
import DoubleEntry.Text.Blank
import DoubleEntry.Text.Lines
import DoubleEntry.Text.Quoted
import DoubleEntry.Text.WordChar
import DoubleEntry.Token.Basic

/-! The lexemes of a line. All but quoted strings are words: the longest stretch up to a blank or a
comment, which has to be of the wanted class as a whole. -/
namespace DoubleEntry

/-- Starts a comment that runs to the end of the line. -/
def commentMark : Char := ';'

/-- Stands between an amount and its price. -/
def priceMark : Char := '@'

def endsWord (c : Char) : Bool := Text.isGap c || c == '\n' || c == commentMark

/-- The characters in front of the first that ends a word. -/
def firstWord (cs : List Char) : List Char := cs.takeWhile (!endsWord ·)

inductive Lexeme where
  | date
  | string
  | account
  | nominal
  | currency
  | flag
  deriving DecidableEq, Repr

namespace Lexeme

def rule : Lexeme → Rule
  | .date => .date
  | .string => .string
  | .account => .account
  | .nominal => .nominal
  | .currency => .currency
  | .flag => .txnState

/-- A letter or digit of any script first, then such characters, underscores and hyphens. -/
def isSegment : List Char → Bool
  | [] => false
  | c :: cs => Text.isWordChar c && c ≠ '_' && cs.all fun d => Text.isWordChar d || d = '-'

/-- A kind and one or more segments, with colons between. -/
def isAccount (cs : List Char) : Bool :=
  let (kind, segments) := Text.splitAt ':' cs
  (AccountKind.ofText? (.ofList kind)).isSome && segments ≠ [] && segments.all isSegment

/-- Digits, possibly with a sign before them and a point and more digits after. -/
def isNominal (cs : List Char) : Bool :=
  let body := if cs.head? = some '-' ∨ cs.head? = some '+' then cs.drop 1 else cs
  let (whole, fraction) := Text.splitAt '.' body
  let isNumber (ds : List Char) : Bool := ds ≠ [] && ds.all Char.isDigit
  isNumber whole && fraction.length ≤ 1 && fraction.all isNumber

def isCurrencyChar (c : Char) : Bool :=
  c.isUpper || c.isDigit || c = '_' || c = '.' || c = '\'' || c = '-'

/-- A capital letter first, then capitals, digits and the four marks. -/
def isCurrency : List Char → Bool
  | [] => false
  | c :: cs => c.isUpper && cs.all isCurrencyChar

def isFlag (cs : List Char) : Bool := cs = ['*'] || cs = ['!'] || cs = ['#']

/-- Whether a whole word belongs to the class; quoted strings are not words. -/
def accepts : Lexeme → List Char → Bool
  | .date => Date.hasForm
  | .string => fun _ => false
  | .account => isAccount
  | .nominal => isNominal
  | .currency => isCurrency
  | .flag => isFlag

def endsHere (cs : List Char) : Bool := cs.head?.all endsWord

/-- The lexeme of this class at the front of a text. -/
def read? (lexeme : Lexeme) (cs : List Char) : Option (List Char) :=
  if lexeme = .string then (Text.quoted? cs).filter fun text => endsHere (cs.drop text.length)
  else
    let word := firstWord cs
    if lexeme.accepts word then some word else none

end Lexeme
end DoubleEntry
