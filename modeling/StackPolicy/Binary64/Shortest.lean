import StackPolicy.Binary64

/-!
# Shortest decimals

The text of a binary number has the fewest digits that read back as the
number, and of those the nearest.  It is positional from `10 ^ -4` up to
`10 ^ 16`, and has a power of ten outside that range.
-/

namespace StackPolicy.Binary64

/-! ## Digits -/

/-- The power of ten of the leading digit.  No number but zero is below `10 ^ -324`. -/
def leadingPlace (number : Binary64) : Int :=
  (Nat.toDigits 10 (number.magnitude.inUnits 10 (-324)).floor).length - 325

/-- The digits whose last one stands at `10 ^ place`, if any of them read back. -/
def digitsDownTo? (number : Binary64) (place : Int) : Option (Nat × Int) :=
  ((number.magnitude.inUnits 10 place).neighbours.find? fun digits =>
    ofDecimal? number.negative digits place = some number).map fun digits => (digits, place)

def exactDigits (number : Binary64) : Nat × Int :=
  ((number.magnitude.inUnits 10 (min 0 number.exponent)).floor, min 0 number.exponent)

/-- The fewest digits, at most seventeen, that read back, and the power of ten of the
last one. -/
def shortestDigits (number : Binary64) : Nat × Int :=
  ((List.range 17).findSome? fun (count : Nat) =>
    number.digitsDownTo? (number.leadingPlace - count)).getD number.exactDigits

/-! ## Notation -/

def trimZeros (digits : List Char) (exponent : Int) : List Char × Int :=
  let kept := (digits.reverse.dropWhile (· = '0')).reverse
  (kept, exponent + (digits.length - kept.length : Nat))

/-- The positive number `digits · 10 ^ exponent`, or zero if there are no digits but zeros. -/
def showDigits (digits : List Char) (exponent : Int) : List Char :=
  let (digits, exponent) := trimZeros digits exponent
  let leading := exponent + digits.length - 1
  if digits.isEmpty then ['0', '.', '0']
  else if -4 ≤ leading ∧ leading < 16 then
    if 0 ≤ exponent then digits ++ List.replicate exponent.toNat '0' ++ ['.', '0']
    else if 0 ≤ leading then
      let (whole, fraction) := digits.splitAt (leading.toNat + 1)
      whole ++ '.' :: fraction
    else '0' :: '.' :: List.replicate (-leading - 1).toNat '0' ++ digits
  else
    let mark := if leading < 0 then '-' else '+'
    let power := Nat.toDigits 10 leading.natAbs
    let power := if power.length < 2 then '0' :: power else power
    let fraction := digits.drop 1
    digits.take 1 ++ (if fraction.isEmpty then [] else '.' :: fraction) ++ 'e' :: mark :: power

def toChars (number : Binary64) : List Char :=
  let (digits, place) := number.shortestDigits
  let shown := showDigits (Nat.toDigits 10 digits) place
  if number.negative then '-' :: shown else shown

end StackPolicy.Binary64
