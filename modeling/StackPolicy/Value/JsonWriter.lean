import StackPolicy.Binary64.Shortest
import StackPolicy.Value

/-!
# Writing JSON

The compact JSON text of a plain value: no blanks, members in their order.
Inside texts only the quote, the backslash and the control characters below
the space are escaped.
-/

namespace StackPolicy.Value

/-! ## Texts -/

def jsonHexDigit (number : Nat) : Char := Nat.digitChar (number % 16)

def jsonEscape (character : Char) : List Char :=
  if character = '"' then ['\\', '"']
  else if character = '\\' then ['\\', '\\']
  else if character = '\x08' then ['\\', 'b']
  else if character = '\t' then ['\\', 't']
  else if character = '\n' then ['\\', 'n']
  else if character = '\x0c' then ['\\', 'f']
  else if character = '\r' then ['\\', 'r']
  else if character.toNat < 0x20 then
    ['\\', 'u', '0', '0', jsonHexDigit (character.toNat / 16), jsonHexDigit character.toNat]
  else [character]

def writeText (content : String) : List Char :=
  '"' :: content.toList.flatMap jsonEscape ++ ['"']

/-! ## Values -/

def writeInt (number : Int) : List Char :=
  if number < 0 then '-' :: Nat.toDigits 10 number.natAbs
  else Nat.toDigits 10 number.natAbs

mutual

def writeChars : Value → List Char
  | null => ['n', 'u', 'l', 'l']
  | bool true => ['t', 'r', 'u', 'e']
  | bool false => ['f', 'a', 'l', 's', 'e']
  | int number => writeInt number
  | float number => number.toChars
  | text content => writeText content
  | list items => '[' :: writeItems items
  | record members => '\x7b' :: writeMembers members
  | other _ content => writeText content

def writeItems : List Value → List Char
  | [] => [']']
  | [item] => writeChars item ++ [']']
  | item :: items => writeChars item ++ ',' :: writeItems items

def writeMembers : List (String × Value) → List Char
  | [] => ['\x7d']
  | [(name, item)] => writeText name ++ ':' :: writeChars item ++ ['\x7d']
  | (name, item) :: members =>
      writeText name ++ ':' :: writeChars item ++ ',' :: writeMembers members

end

def toJson (value : Value) : String := String.ofList (writeChars value)

end StackPolicy.Value
