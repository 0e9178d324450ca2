import StackPolicy.Ratio

/-!
# Binary numbers of 64 bits

A number written with a fraction or an exponent is kept as the nearest number
of the 64-bit binary format: a significand of at most 53 binary digits, times
a power of two between `2 ^ -1074` and `2 ^ 971`.  Halfway between two such
numbers the even significand is taken.
-/

namespace StackPolicy

/-- The number `± significand · 2 ^ exponent`; zero has a sign, too. -/
structure Binary64 where
  negative : Bool
  significand : Nat
  exponent : Int
  significand_lt : significand < Nat.pow 2 53
  deriving Repr, DecidableEq

namespace Binary64

def magnitude (number : Binary64) : Ratio := .scaled number.significand 2 number.exponent

def whole? (number : Binary64) : Option Int :=
  if number.magnitude.isWhole then
    let size : Int := number.magnitude.floor
    some (if number.negative then -size else size)
  else none

/-! ## Rounding -/

/-- The exponent for which a magnitude has 53 binary digits before the point, or fewer
if the exponent is the lowest one. -/
def exponentOf (magnitude : Ratio) : Int :=
  if magnitude.numerator = 0 then -1074
  else
    let digits : Int := magnitude.numerator.log2 - magnitude.denominator.log2
    let exponent := max (-1074) (digits - 53)
    if (magnitude.inUnits 2 exponent).floor < Nat.pow 2 53 then exponent else exponent + 1

/-- The number nearest to a magnitude with a sign, unless it is too large. -/
def ofRatio? (negative : Bool) (magnitude : Ratio) : Option Binary64 :=
  let exponent := exponentOf magnitude
  let significand := (magnitude.inUnits 2 exponent).nearest
  if fits : significand < Nat.pow 2 53 then
    if exponent ≤ 971 then some ⟨negative, significand, exponent, fits⟩ else none
  else if exponent < 971 then some ⟨negative, Nat.pow 2 52, exponent + 1, by decide⟩
  else none

/-- The number nearest to `± digits · 10 ^ exponent`, unless it is too large.  A value
with hundreds of places on one side of the point is not computed. -/
def ofDecimal? (negative : Bool) (digits : Nat) (exponent : Int) : Option Binary64 :=
  let places : Int := (Nat.toDigits 10 digits).length + exponent
  if digits = 0 ∨ places < -400 then ofRatio? negative (.ofNat 0)
  else if 400 < places then none
  else ofRatio? negative (.scaled digits 10 exponent)

end Binary64

end StackPolicy
