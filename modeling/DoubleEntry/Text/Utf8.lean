/-! Strict UTF-8 decoding, which names the first fault it meets. -/
namespace DoubleEntry.Text

inductive Utf8Fault where
  | start
  | continuation
  | truncated
  deriving DecidableEq, Repr

def Utf8Fault.message : Utf8Fault → String
  | .start => "invalid start byte"
  | .continuation => "invalid continuation byte"
  | .truncated => "unexpected end of data"

/-- A character under way: its bits so far, the bytes it still lacks, and the bounds of the next. -/
structure Utf8Pending where
  bits : Nat
  lacking : Nat
  low : Nat := 0x80
  high : Nat := 0xbf

/-- What a leading byte announces; the bounds exclude overlong forms, surrogates and code points
above the last one. -/
def Utf8Pending.start? (b : Nat) : Option Utf8Pending :=
  if 0xc2 ≤ b ∧ b ≤ 0xdf then some { bits := b - 0xc0, lacking := 1 }
  else if b = 0xe0 then some { bits := 0, lacking := 2, low := 0xa0 }
  else if b = 0xed then some { bits := 0xd, lacking := 2, high := 0x9f }
  else if 0xe1 ≤ b ∧ b ≤ 0xef then some { bits := b - 0xe0, lacking := 2 }
  else if b = 0xf0 then some { bits := 0, lacking := 3, low := 0x90 }
  else if 0xf1 ≤ b ∧ b ≤ 0xf3 then some { bits := b - 0xf0, lacking := 3 }
  else if b = 0xf4 then some { bits := 4, lacking := 3, high := 0x8f }
  else none

def decodeUtf8From : Option Utf8Pending → List UInt8 → Except Utf8Fault (List Char)
  | none, [] => .ok []
  | some _, [] => .error .truncated
  | none, b :: bytes =>
    if b < 0x80 then (Char.ofNat b.toNat :: ·) <$> decodeUtf8From none bytes
    else match Utf8Pending.start? b.toNat with
      | none => .error .start
      | some pending => decodeUtf8From (some pending) bytes
  | some pending, b :: bytes =>
    if pending.low ≤ b.toNat ∧ b.toNat ≤ pending.high then
      let bits := pending.bits * 64 + (b.toNat - 0x80)
      if pending.lacking ≤ 1 then (Char.ofNat bits :: ·) <$> decodeUtf8From none bytes
      else decodeUtf8From (some { bits, lacking := pending.lacking - 1 }) bytes
    else .error .continuation

def decodeUtf8 (bytes : List UInt8) : Except Utf8Fault (List Char) := decodeUtf8From none bytes

end DoubleEntry.Text
