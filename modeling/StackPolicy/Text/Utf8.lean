/-!
# UTF-8

Bytes are decoded strictly: over-long forms, surrogates and code points beyond
the last plane are refused.  A fault names the bytes that cannot be decoded,
from the start of their character up to the byte that does not fit.
-/

namespace StackPolicy.Text

inductive Utf8Reason where
  | start
  | continuation
  | ended
  deriving DecidableEq, Repr

/-- The bytes from `first` up to, and without, `past` do not make a character. -/
structure Utf8Fault where
  byte : Nat
  first : Nat
  past : Nat
  reason : Utf8Reason
  deriving DecidableEq, Repr

/-- A character whose first byte stands at `first`: `left` more bytes are needed, and
the next one lies between `low` and `high`. -/
structure PartialChar where
  byte : Nat
  first : Nat
  left : Nat
  low : Nat
  high : Nat
  code : Nat

namespace Utf8

/-- What the first byte of a character of several bytes asks for. -/
def lead? (byte position : Nat) : Option PartialChar :=
  if 0xc2 ≤ byte ∧ byte ≤ 0xdf then some ⟨byte, position, 1, 0x80, 0xbf, byte - 0xc0⟩
  else if byte = 0xe0 then some ⟨byte, position, 2, 0xa0, 0xbf, byte - 0xe0⟩
  else if byte = 0xed then some ⟨byte, position, 2, 0x80, 0x9f, byte - 0xe0⟩
  else if 0xe1 ≤ byte ∧ byte ≤ 0xef then some ⟨byte, position, 2, 0x80, 0xbf, byte - 0xe0⟩
  else if byte = 0xf0 then some ⟨byte, position, 3, 0x90, 0xbf, byte - 0xf0⟩
  else if byte = 0xf4 then some ⟨byte, position, 3, 0x80, 0x8f, byte - 0xf0⟩
  else if 0xf1 ≤ byte ∧ byte ≤ 0xf3 then some ⟨byte, position, 3, 0x80, 0xbf, byte - 0xf0⟩
  else none

/-- Decodes the bytes from `position` on, where `open?` is the character begun before. -/
def decodeFrom : (position : Nat) → (open? : Option PartialChar) → List UInt8 →
    Except Utf8Fault (List Char)
  | _, none, [] => .ok []
  | position, some begun, [] => .error ⟨begun.byte, begun.first, position, .ended⟩
  | position, none, next :: rest =>
      let byte := next.toNat
      if byte < 0x80 then (decodeFrom (position + 1) none rest).map (Char.ofNat byte :: ·)
      else match lead? byte position with
        | some begun => decodeFrom (position + 1) (some begun) rest
        | none => .error ⟨byte, position, position + 1, .start⟩
  | position, some begun, next :: rest =>
      let byte := next.toNat
      if begun.low ≤ byte ∧ byte ≤ begun.high then
        let code := 64 * begun.code + (byte - 0x80)
        if begun.left ≤ 1 then
          (decodeFrom (position + 1) none rest).map (Char.ofNat code :: ·)
        else
          decodeFrom (position + 1)
            (some { begun with left := begun.left - 1, low := 0x80, high := 0xbf, code }) rest
      else .error ⟨begun.byte, begun.first, position, .continuation⟩

def decode (bytes : List UInt8) : Except Utf8Fault (List Char) := decodeFrom 0 none bytes

end Utf8

def Utf8Reason.message : Utf8Reason → String
  | start => "invalid start byte"
  | continuation => "invalid continuation byte"
  | ended => "unexpected end of data"

def Utf8Fault.message (fault : Utf8Fault) : String :=
  let place :=
    if fault.past = fault.first + 1 then
      "byte 0x" ++ String.ofList (Nat.toDigits 16 fault.byte) ++ " in position " ++
        toString fault.first
    else "bytes in position " ++ toString fault.first ++ "-" ++ toString (fault.past - 1)
  "'utf-8' codec can't decode " ++ place ++ ": " ++ fault.reason.message

end StackPolicy.Text
