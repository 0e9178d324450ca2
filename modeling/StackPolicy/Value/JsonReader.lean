import StackPolicy.Table
import StackPolicy.Text.Digits
import StackPolicy.Value

/-!
# Reading JSON

A reader takes the longest part of the text that it understands and returns
the rest.  A name that occurs twice in a record keeps its first place and its
last value.  Every reader of a nested value takes `fuel`, a bound on the
number of values still to be read, for which the length of the text suffices.
-/

namespace StackPolicy.Value

open StackPolicy.Text

/-! ## Numbers -/

def isBlank (character : Char) : Bool :=
  character = ' ' || character = '\t' || character = '\n' || character = '\r'

def skipBlanks (source : List Char) : List Char := source.dropWhile isBlank

def readSign : List Char → Bool × List Char
  | '-' :: rest => (true, rest)
  | rest => (false, rest)

def readFraction? : List Char → Option (List Char × List Char)
  | '.' :: rest =>
      let digits := rest.takeWhile Char.isDigit
      if digits.isEmpty then none else some (digits, rest.dropWhile Char.isDigit)
  | rest => some ([], rest)

def readExponent? (source : List Char) : Option (Option Int × List Char) :=
  match source with
  | mark :: rest =>
      if mark = 'e' || mark = 'E' then
        let (negative, rest) := match rest with
          | '+' :: rest => (false, rest)
          | rest => readSign rest
        let digits := rest.takeWhile Char.isDigit
        if digits.isEmpty then none
        else
          let size : Int := Nat.ofDigitChars 10 digits 0
          some (some (if negative then -size else size), rest.dropWhile Char.isDigit)
      else some (none, source)
  | [] => some (none, [])

def readNumber? (source : List Char) : Option (Value × List Char) := do
  let (negative, rest) := readSign source
  let whole := rest.takeWhile Char.isDigit
  guard (!whole.isEmpty && (whole.length = 1 || whole.head? != some '0'))
  let (fraction, rest) ← readFraction? (rest.dropWhile Char.isDigit)
  let (exponent, rest) ← readExponent? rest
  let digits := Nat.ofDigitChars 10 (whole ++ fraction) 0
  if fraction.isEmpty && exponent.isNone then
    pure (int (if negative then -digits else digits), rest)
  else pure (ofDecimal negative digits (exponent.getD 0 - fraction.length), rest)

/-! ## Texts -/

/-- A code point after `\u`; two surrogates in a row stand for one character. -/
def readCodePoint? (source : List Char) : Option (Char × List Char) := do
  let (high, rest) ← readHex? 4 0 source
  if 0xd800 ≤ high ∧ high < 0xdc00 then
    match rest with
    | '\\' :: 'u' :: rest =>
        let (low, rest) ← readHex? 4 0 rest
        guard (0xdc00 ≤ low ∧ low < 0xe000)
        pure (Char.ofNat (0x10000 + 0x400 * (high - 0xd800) + (low - 0xdc00)), rest)
    | _ => none
  else if high.isValidChar then pure (Char.ofNat high, rest)
  else none

def simpleEscape? : Char → Option Char
  | '"' => some '"'
  | '\\' => some '\\'
  | '/' => some '/'
  | 'b' => some '\x08'
  | 'f' => some '\x0c'
  | 'n' => some '\n'
  | 'r' => some '\r'
  | 't' => some '\t'
  | _ => none

def readTextBody? : (fuel : Nat) → List Char → Option (List Char × List Char)
  | 0, _ => none
  | _ + 1, [] => none
  | _ + 1, '"' :: rest => some ([], rest)
  | fuel + 1, '\\' :: 'u' :: rest => do
      let (character, rest) ← readCodePoint? rest
      let (body, rest) ← readTextBody? fuel rest
      pure (character :: body, rest)
  | fuel + 1, '\\' :: mark :: rest => do
      let character ← simpleEscape? mark
      let (body, rest) ← readTextBody? fuel rest
      pure (character :: body, rest)
  | fuel + 1, character :: rest => do
      guard (0x20 ≤ character.toNat && character != '\\')
      let (body, rest) ← readTextBody? fuel rest
      pure (character :: body, rest)

def readText? (source : List Char) : Option (String × List Char) :=
  match source with
  | '"' :: rest => (readTextBody? source.length rest).map fun (body, rest) =>
      (String.ofList body, rest)
  | _ => none

/-! ## Values -/

mutual

def readValue? : (fuel : Nat) → List Char → Option (Value × List Char)
  | 0, _ => none
  | fuel + 1, source =>
      match skipBlanks source with
      | '[' :: rest =>
          match skipBlanks rest with
          | ']' :: rest => some (list [], rest)
          | rest => (readItems? fuel rest).map fun (items, rest) => (list items, rest)
      | '\x7b' :: rest =>
          match skipBlanks rest with
          | '\x7d' :: rest => some (record [], rest)
          | rest => (readMembers? fuel [] rest).map fun (members, rest) => (record members, rest)
      | '"' :: rest => (readText? ('"' :: rest)).map fun (content, rest) => (text content, rest)
      | 'n' :: 'u' :: 'l' :: 'l' :: rest => some (null, rest)
      | 't' :: 'r' :: 'u' :: 'e' :: rest => some (bool true, rest)
      | 'f' :: 'a' :: 'l' :: 's' :: 'e' :: rest => some (bool false, rest)
      | rest => readNumber? rest

/-- One item and what follows it, up to the closing bracket. -/
def readItems? : (fuel : Nat) → List Char → Option (List Value × List Char)
  | 0, _ => none
  | fuel + 1, source => do
      let (item, rest) ← readValue? fuel source
      match skipBlanks rest with
      | ']' :: rest => pure ([item], rest)
      | ',' :: rest =>
          let (items, rest) ← readItems? fuel rest
          pure (item :: items, rest)
      | _ => none

/-- One member and what follows it, up to the closing brace, added to `members`. -/
def readMembers? : (fuel : Nat) → (members : List (String × Value)) → List Char →
    Option (List (String × Value) × List Char)
  | 0, _, _ => none
  | fuel + 1, members, source => do
      let (name, rest) ← readText? (skipBlanks source)
      match skipBlanks rest with
      | ':' :: rest =>
          let (item, rest) ← readValue? fuel rest
          let members := Table.writeRow name item members
          match skipBlanks rest with
          | '\x7d' :: rest => pure (members, rest)
          | ',' :: rest => readMembers? fuel members rest
          | _ => none
      | _ => none

end

def ofJson? (source : String) : Option Value := do
  let characters := source.toList
  let (value, rest) ← readValue? (characters.length + 1) characters
  guard (skipBlanks rest).isEmpty
  pure value

end StackPolicy.Value
