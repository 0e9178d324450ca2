/-!
# Integers as text

Integers are read leniently.  Around the text there may be white space, and in
it a sign, leading zeros, single underscores and a fraction of zeros.  A minus
sign may stand after the leading zeros instead of before them, and underscores
among the leading zeros are dropped with them.
-/

namespace StackPolicy.Text

/-! ## White space -/

def isSpace (character : Char) : Bool :=
  let code := character.toNat
  (0x9 ≤ code && code ≤ 0xd) || code = 0x20 || code = 0x85 || code = 0xa0 || code = 0x1680 ||
    (0x2000 ≤ code && code ≤ 0x200a) || code = 0x2028 || code = 0x2029 || code = 0x202f ||
    code = 0x205f || code = 0x3000

def trim (content : List Char) : List Char :=
  ((content.dropWhile isSpace).reverse.dropWhile isSpace).reverse

/-! ## Parts of an integer -/

def splitSign : List Char → List Char × List Char
  | '-' :: rest => (['-'], rest)
  | '+' :: rest => ([], rest)
  | rest => ([], rest)

/-- What follows leading zeros that end with `last`.  Before a fraction, and where
nothing follows, the last character is kept. -/
def skipZeros? (last : Char) : List Char → Option (List Char)
  | [] => some [last]
  | '.' :: rest => some (last :: '.' :: rest)
  | next :: rest =>
      if next = '0' || next = '_' then skipZeros? next rest
      else if next.isDigit || next = '-' then some (next :: rest)
      else none

/-- A text that begins with a digit, without its leading zeros. -/
def dropLeadingZeros? : List Char → Option (List Char)
  | [] => none
  | first :: rest =>
      if first = '0' then skipZeros? first rest
      else if first.isDigit then some (first :: rest)
      else none

def dropZeroFraction (content : List Char) : List Char :=
  match content.dropWhile (· ≠ '.') with
  | '.' :: '0' :: zeros => if zeros.all (· = '0') then content.takeWhile (· ≠ '.') else content
  | _ => content

/-- A text without its underscores, if each of them stands between two other characters. -/
def dropUnderscores? : List Char → Option (List Char)
  | [] => none
  | '_' :: _ => none
  | [last] => some [last]
  | first :: '_' :: rest => (dropUnderscores? rest).map (first :: ·)
  | first :: rest => (dropUnderscores? rest).map (first :: ·)

/-- Zero, or digits without a leading zero. -/
def plainNatural? : List Char → Option Nat
  | [] => none
  | ['0'] => some 0
  | '0' :: _ => none
  | digits => if digits.all Char.isDigit then some (Nat.ofDigitChars 10 digits 0) else none

def plainInteger? : List Char → Option Int
  | '-' :: digits => (plainNatural? digits).map fun size => -(size : Int)
  | digits => (plainNatural? digits).map Int.ofNat

/-! ## Integers -/

def integer? (content : String) : Option Int := do
  let (sign, body) := splitSign (trim content.toList)
  let number := sign ++ (← dropLeadingZeros? body)
  plainInteger? (← dropUnderscores? (dropZeroFraction number))

end StackPolicy.Text
