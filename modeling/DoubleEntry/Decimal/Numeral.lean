import DoubleEntry.Decimal.Text
import DoubleEntry.Text.Blank
import DoubleEntry.Text.DecimalDigit

/-! Numerals: decimal numbers, infinities and not-a-numbers, read from any of their written forms and
written in one. -/
namespace DoubleEntry

inductive Numeral where
  | finite (value : Decimal)
  | infinite (negative : Bool)
  | nan (negative signaling : Bool) (payload : Nat)
  deriving DecidableEq, Repr

inductive NumberError where
  | notANumber (shown : String)
  | notFinite (shown : String)
  deriving DecidableEq, Repr

def NumberError.message : NumberError → String
  | .notANumber shown => "`" ++ shown ++ "' is not a number"
  | .notFinite shown => "nominal must be finite, got " ++ shown

namespace Numeral

/-- Leading digits of the largest and smallest numbers that can be read at all. -/
def widestExponent : Int := 999999999999999999

/-- The last digit of any number that can be read stands here or above. -/
def deepestExponent : Int := -1999999999999999997

def inRange : Numeral → Bool
  | .finite d =>
    deepestExponent ≤ d.exponent &&
      if d.coefficient = 0 then d.exponent ≤ widestExponent else d.adjusted ≤ widestExponent
  | _ => true

/-- Digits of any script become ASCII digits; other characters must be ASCII already. -/
def asciiForm? (c : Char) : Option Char :=
  if 0 < c.toNat ∧ c.toNat < 128 then some c
  else (Text.digitValue? c).map fun value => Char.ofNat ('0'.toNat + value)

def takeSign : List Char → Bool × List Char
  | '-' :: cs => (true, cs)
  | '+' :: cs => (false, cs)
  | cs => (false, cs)

def exponent? (cs : List Char) : Option Int :=
  let (negative, ds) := takeSign cs
  if ds ≠ [] ∧ ds.all Char.isDigit then
    some (if negative then -(ofDigits ds) else ofDigits ds)
  else none

/-- Digits with at most one point among them, then possibly `e` and an exponent. -/
def decimal? (negative : Bool) (cs : List Char) : Option Decimal := do
  let mantissa := cs.takeWhile (· ≠ 'e')
  let exponent ← match cs.dropWhile (· ≠ 'e') with
    | [] => some 0
    | _ :: power => exponent? power
  let whole := mantissa.takeWhile (· ≠ '.')
  let fraction := (mantissa.dropWhile (· ≠ '.')).drop 1
  let ds := whole ++ fraction
  if ds ≠ [] ∧ ds.all Char.isDigit then
    some ⟨negative, ofDigits ds, exponent - fraction.length⟩
  else none

def nan? (negative : Bool) : List Char → Option Numeral
  | 's' :: 'n' :: 'a' :: 'n' :: payload => nanWith negative true payload
  | 'n' :: 'a' :: 'n' :: payload => nanWith negative false payload
  | _ => none
where
  nanWith (negative signaling : Bool) (payload : List Char) : Option Numeral :=
    if payload.all Char.isDigit then some (.nan negative signaling (ofDigits payload)) else none

/-- The numeral that a text spells, of whatever size. Letters count in either case; blanks around the
numeral and underscores in it do not count. -/
def spelled? (text : String) : Option Numeral := do
  let cs ← ((Text.trim text.toList).filter (· ≠ '_')).mapM asciiForm?
  let (negative, body) := takeSign (cs.map Char.toLower)
  if body = "inf".toList ∨ body = "infinity".toList then some (.infinite negative)
  else if body.head? = some 'n' ∨ body.head? = some 's' then nan? negative body
  else (decimal? negative body).map .finite

/-- Whether a text writes an exponent, if it spells a finite number at all. -/
def hasExponent (text : String) : Bool := text.toList.any fun c => c = 'e' ∨ c = 'E'

/-- Only numerals in range can be read. It takes an exponent to leave the range: digits alone would
have to be a quintillion. -/
def ofText? (text : String) : Option Numeral :=
  (spelled? text).filter fun numeral => !hasExponent text || numeral.inRange

/-- The written form of an infinity or a not-a-number. -/
def specialText (negative : Bool) (name : String) : String := if negative then "-" ++ name else name

/-- The canonical spelling; a payload of zero is not written. -/
def text : Numeral → String
  | .finite value => value.scientific
  | .infinite negative => specialText negative "Infinity"
  | .nan negative signaling payload =>
    let name := if signaling then "sNaN" else "NaN"
    specialText negative (if payload = 0 then name else name ++ .ofList (digits payload))

end Numeral

namespace Decimal

/-- The finite number a text spells. -/
def ofText (text : String) : Except NumberError Decimal :=
  match Numeral.ofText? text with
  | none => .error (.notANumber text)
  | some (.finite value) => .ok value
  | some _ => .error (.notFinite text)

/-- A numeral as a finite number; an error shows the numeral's canonical spelling. -/
def ofNumeral : Numeral → Except NumberError Decimal
  | .finite value => .ok value
  | special => .error (.notFinite special.text)

end Decimal
end DoubleEntry
