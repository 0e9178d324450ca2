import StackPolicy.Binary64

/-!
# Plain values

Application graphs, results and project files are exchanged as plain values:
numbers, texts, lists and records.  Records keep the order of their members.
-/

namespace StackPolicy

/-- A value of a data file.  `float` is a number written with a fraction or an exponent;
`other` is a value of a kind that no field reads, such as a date. -/
inductive Value where
  | null
  | bool (truth : Bool)
  | int (number : Int)
  | float (number : Binary64)
  | text (content : String)
  | list (items : List Value)
  | record (members : List (String × Value))
  | other (kind content : String)
  deriving Repr, Inhabited

namespace Value

def member? (members : List (String × Value)) (name : String) : Option Value :=
  (members.find? fun member => member.1 = name).map Prod.snd

def isText (expected : String) : Value → Bool
  | text content => content = expected
  | _ => false

/-- Whether two values are the same text or the same integer. -/
def isSameIdentifier : Value → Value → Bool
  | text first, text second => first = second
  | int first, int second => first = second
  | _, _ => false

/-- The number written as `± digits · 10 ^ exponent`; a number that is too large is infinite. -/
def ofDecimal (negative : Bool) (digits : Nat) (exponent : Int) : Value :=
  match Binary64.ofDecimal? negative digits exponent with
  | some number => float number
  | none => other "float" (if negative then "-inf" else "inf")

/-- The name of a value's kind in messages about project files. -/
def kindName : Value → String
  | null => "NoneType"
  | bool _ => "bool"
  | int _ => "int"
  | float _ => "float"
  | text _ => "str"
  | list _ => "list"
  | record _ => "dict"
  | other kind _ => kind

end Value

end StackPolicy
