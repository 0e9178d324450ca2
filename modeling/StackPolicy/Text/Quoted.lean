import StackPolicy.Text.Printable

/-!
# Quoted names

Messages that single out a name quote it.  The quotes are single ones, unless
the name itself holds a single quote and no double quote.  Inside them the
backslash, the quote in use and every character that is not printable are
escaped; all else stands as it is.
-/

namespace StackPolicy.Text

/-- The last `width` hexadecimal digits of `number`, in lower case. -/
def hexDigits (number : Nat) : (width : Nat) → List Char
  | 0 => []
  | width + 1 => hexDigits (number / 16) width ++ [Nat.digitChar (number % 16)]

/-- An unprintable character as a numeric escape of two, four or eight digits. -/
def numericEscape (code : Nat) : List Char :=
  if code < 0x100 then '\\' :: 'x' :: hexDigits code 2
  else if code < 0x10000 then '\\' :: 'u' :: hexDigits code 4
  else '\\' :: 'U' :: hexDigits code 8

def quoteFor (name : List Char) : Char :=
  if name.contains '\'' && !name.contains '"' then '"' else '\''

def quoteChar (quote character : Char) : List Char :=
  if character = quote || character = '\\' then ['\\', character]
  else if character = '\n' then ['\\', 'n']
  else if character = '\r' then ['\\', 'r']
  else if character = '\t' then ['\\', 't']
  else if isPrintable character then [character]
  else numericEscape character.toNat

def quoteChars (name : List Char) : List Char :=
  let quote := quoteFor name
  quote :: name.flatMap (quoteChar quote) ++ [quote]

def quoted (name : String) : String := String.ofList (quoteChars name.toList)

def bracketed (items : List String) : String :=
  "[" ++ String.intercalate ", " items ++ "]"

end StackPolicy.Text
