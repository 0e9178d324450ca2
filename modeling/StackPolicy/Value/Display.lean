import StackPolicy.Binary64.Shortest
import StackPolicy.Text.Quoted
import StackPolicy.Value

/-!
# Displayed values

The text of a plain value inside a message.  A text on its own is shown as it
is; texts inside lists and records are quoted.
-/

namespace StackPolicy.Value

open StackPolicy.Text

mutual

/-- The text of a value inside a list or record. -/
def showNested : Value → String
  | null => "None"
  | bool true => "True"
  | bool false => "False"
  | int number => toString number
  | float number => String.ofList number.toChars
  | text content => quoted content
  | list items => bracketed (showItems items)
  | record members => "\x7b" ++ String.intercalate ", " (showMembers members) ++ "\x7d"
  | other _ content => content

def showItems : List Value → List String
  | [] => []
  | item :: items => showNested item :: showItems items

def showMembers : List (String × Value) → List String
  | [] => []
  | (name, item) :: members => (quoted name ++ ": " ++ showNested item) :: showMembers members

end

def display : Value → String
  | text content => content
  | value => showNested value

end StackPolicy.Value
