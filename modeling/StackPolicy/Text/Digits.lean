/-!
# Digits

The value of digits in a base up to sixteen.
-/

namespace StackPolicy.Text

def hexValue? (character : Char) : Option Nat :=
  if character.isDigit then some (character.toNat - '0'.toNat)
  else if 'a' ≤ character ∧ character ≤ 'f' then some (character.toNat - 'a'.toNat + 10)
  else if 'A' ≤ character ∧ character ≤ 'F' then some (character.toNat - 'A'.toNat + 10)
  else none

def isHexDigit (character : Char) : Bool := (hexValue? character).isSome

/-- The number that a list of digits denotes, the highest digit first. -/
def naturalOf (base : Nat) (digits : List Char) : Nat :=
  digits.foldl (fun total digit => base * total + (hexValue? digit).getD 0) 0

/-- The number with exactly `width` hexadecimal digits, counted on from `total`. -/
def readHex? : (width : Nat) → (total : Nat) → List Char → Option (Nat × List Char)
  | 0, total, rest => some (total, rest)
  | _ + 1, _, [] => none
  | width + 1, total, digit :: rest =>
      (hexValue? digit).bind fun value => readHex? width (16 * total + value) rest

end StackPolicy.Text
