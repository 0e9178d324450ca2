import StackPolicy.Schema.Checked
import StackPolicy.Text.Integer
import StackPolicy.Value

/-!
# Lenient scalars

Numbers and truth values may be given in several spellings.  An integer may
also be a truth value, a number without a fractional part, or a text.  A truth
value may also be the number 0 or 1, or one of a few words in any case.
-/

namespace StackPolicy

abbrev Reading (Result : Type) := Value → Checked Result

namespace Reading

open Checked

/-! ## Integers -/

def integer : Reading Int
  | .int number => valid number
  | .bool truth => valid (if truth then 1 else 0)
  | .float number =>
      match number.whole? with
      | some number => valid number
      | none => fail .fractional
  | .text content =>
      match Text.integer? content with
      | some number => valid number
      | none => fail .integerText
  | _ => fail .notInteger

def atLeast (bound : Int) : Reading { number : Int // bound ≤ number } := fun value =>
  match integer value with
  | valid number => if fits : bound ≤ number then valid ⟨number, fits⟩ else fail (.below bound)
  | faulty issues => faulty issues

/-- The least number that `atLeast bound` reads. -/
def least (bound : Int) : { number : Int // bound ≤ number } := ⟨bound, Int.le_refl bound⟩

def optional {Result : Type} (reading : Reading Result) : Reading (Option Result)
  | .null => valid none
  | value => some <$> reading value

/-! ## Truth values -/

def falseWords : List String := ["0", "off", "f", "false", "n", "no"]

def trueWords : List String := ["1", "on", "t", "true", "y", "yes"]

/-- Numbers other than 0 and 1 are told apart by whether 64 bits hold them. -/
def truthOfNumber (number : Int) : Checked Bool :=
  if number = 0 then valid false
  else if number = 1 then valid true
  else if -(Nat.pow 2 63 : Nat) ≤ number ∧ number < (Nat.pow 2 63 : Nat) then fail .truthText
  else fail .notTruth

def truth : Reading Bool
  | .bool truth => valid truth
  | .int number => truthOfNumber number
  | .float number =>
      match number.whole? with
      | some number => truthOfNumber number
      | none => fail .notTruth
  | .text content =>
      let word := String.ofList (content.toList.map Char.toLower)
      if word ∈ falseWords then valid false
      else if word ∈ trueWords then valid true
      else fail .truthText
  | _ => fail .notTruth

/-! ## Texts -/

def text : Reading String
  | .text content => valid content
  | _ => fail .notText

end Reading

end StackPolicy
