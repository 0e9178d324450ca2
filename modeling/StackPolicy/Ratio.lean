/-!
# Ratios

Exact quotients of natural numbers, and how they are rounded to natural
numbers.
-/

namespace StackPolicy

structure Ratio where
  numerator : Nat
  denominator : Nat
  deriving Repr, DecidableEq

namespace Ratio

def ofNat (number : Nat) : Ratio := ⟨number, 1⟩

/-- The ratio counted in units of `base ^ exponent`. -/
def inUnits (ratio : Ratio) (base : Nat) (exponent : Int) : Ratio :=
  ⟨ratio.numerator * base.pow (-exponent).toNat, ratio.denominator * base.pow exponent.toNat⟩

/-- The ratio `number · base ^ exponent`. -/
def scaled (number base : Nat) (exponent : Int) : Ratio := (ofNat number).inUnits base (-exponent)

def isWhole (ratio : Ratio) : Bool := ratio.numerator % ratio.denominator = 0

def floor (ratio : Ratio) : Nat := ratio.numerator / ratio.denominator

/-- The nearest natural number; a half goes to the even neighbour. -/
def nearest (ratio : Ratio) : Nat :=
  let twice := 2 * (ratio.numerator % ratio.denominator)
  if twice < ratio.denominator ∨ (twice = ratio.denominator ∧ ratio.floor % 2 = 0) then ratio.floor
  else ratio.floor + 1

/-- The natural numbers on either side, the nearer one first. -/
def neighbours (ratio : Ratio) : List Nat :=
  if ratio.nearest = ratio.floor then [ratio.floor, ratio.floor + 1]
  else [ratio.floor + 1, ratio.floor]

end Ratio

end StackPolicy
