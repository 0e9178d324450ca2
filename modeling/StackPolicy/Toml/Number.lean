import StackPolicy.Text.Digits
import StackPolicy.Value

/-!
# Numbers, dates and times of project files

Digits may be separated by single underscores.  A number in decimal form has
no leading zeros; only integers may be written in another base.  Dates and
times are checked and otherwise kept as they are written.
-/

namespace StackPolicy.Toml

open StackPolicy.Text

/-! ## Digits -/

/-- Digits up to the first character that does not continue them. -/
def readMoreDigits (isDigit : Char → Bool) : List Char → List Char × List Char
  | [] => ([], [])
  | '_' :: digit :: rest =>
      if isDigit digit then
        let (digits, rest) := readMoreDigits isDigit rest
        (digit :: digits, rest)
      else ([], '_' :: digit :: rest)
  | digit :: rest =>
      if isDigit digit then
        let (digits, rest) := readMoreDigits isDigit rest
        (digit :: digits, rest)
      else ([], digit :: rest)

/-- At least one digit, without a separator in front. -/
def readDigits? (isDigit : Char → Bool) : List Char → Option (List Char × List Char)
  | [] => none
  | digit :: rest =>
      if isDigit digit then
        let (digits, rest) := readMoreDigits isDigit rest
        some (digit :: digits, rest)
      else none

/-! ## Numbers -/

def readBased? (base : Nat) (isDigit : Char → Bool) (source : List Char) :
    Option (Value × List Char) :=
  (readDigits? isDigit source).map fun (digits, rest) => (.int (naturalOf base digits), rest)

def readOtherBase? : List Char → Option (Value × List Char)
  | '0' :: 'x' :: rest => readBased? 16 isHexDigit rest
  | '0' :: 'b' :: rest => readBased? 2 (fun digit => digit = '0' || digit = '1') rest
  | '0' :: 'o' :: rest => readBased? 8 (fun digit => '0' ≤ digit && digit ≤ '7') rest
  | _ => none

/-- The digits before the point: a single zero, or digits without a leading zero. -/
def readWhole? : List Char → Option (List Char × List Char)
  | '0' :: rest => some (['0'], rest)
  | source => readDigits? Char.isDigit source

def readSign : List Char → Bool × List Char
  | '-' :: rest => (true, rest)
  | '+' :: rest => (false, rest)
  | rest => (false, rest)

def readFraction : List Char → List Char × List Char
  | '.' :: rest => (readDigits? Char.isDigit rest).getD ([], '.' :: rest)
  | rest => ([], rest)

def readExponent (source : List Char) : Option Int × List Char :=
  match source with
  | mark :: rest =>
      if mark = 'e' || mark = 'E' then
        let (negative, rest) := readSign rest
        match readDigits? Char.isDigit rest with
        | some (digits, rest) =>
            let size : Int := naturalOf 10 digits
            (some (if negative then -size else size), rest)
        | none => (none, source)
      else (none, source)
  | [] => (none, [])

def readDecimal? (source : List Char) : Option (Value × List Char) := do
  let (negative, rest) := readSign source
  let (whole, rest) ← readWhole? rest
  let (fraction, rest) := readFraction rest
  let (exponent, rest) := readExponent rest
  let digits := naturalOf 10 (whole ++ fraction)
  if fraction.isEmpty && exponent.isNone then
    pure (.int (if negative then -digits else digits), rest)
  else pure (Value.ofDecimal negative digits (exponent.getD 0 - fraction.length), rest)

/-- Infinity and the value that is no number, with an optional sign. -/
def readSpecial? (source : List Char) : Option (Value × List Char) :=
  match (readSign source).2 with
  | 'i' :: 'n' :: 'f' :: rest => some (.other "float" "inf", rest)
  | 'n' :: 'a' :: 'n' :: rest => some (.other "float" "nan", rest)
  | _ => none

/-! ## Dates and times -/

/-- A number of exactly `width` digits between `low` and `high`. -/
def readField? (width low high : Nat) (source : List Char) : Option (Nat × List Char) :=
  let digits := source.take width
  let number := naturalOf 10 digits
  if digits.length = width ∧ digits.all Char.isDigit ∧ low ≤ number ∧ number ≤ high then
    some (number, source.drop width)
  else none

def expect? (character : Char) : List Char → Option (List Char)
  | [] => none
  | first :: rest => if first = character then some rest else none

def readTime? (source : List Char) : Option (List Char) := do
  let (_, rest) ← readField? 2 0 23 source
  let (_, rest) ← readField? 2 0 59 (← expect? ':' rest)
  let (_, rest) ← readField? 2 0 59 (← expect? ':' rest)
  match rest with
  | '.' :: digit :: others =>
      pure (if digit.isDigit then others.dropWhile Char.isDigit else rest)
  | _ => pure rest

def skipOffset (source : List Char) : List Char :=
  match source with
  | [] => []
  | mark :: rest =>
      if mark = 'Z' || mark = 'z' then rest
      else if mark = '+' || mark = '-' then
        ((do
          let (_, rest) ← readField? 2 0 23 rest
          let (_, rest) ← readField? 2 0 59 (← expect? ':' rest)
          pure rest : Option (List Char)).getD source)
      else source

def isLeapYear (year : Nat) : Bool :=
  year % 4 = 0 && (year % 100 ≠ 0 || year % 400 = 0)

def daysIn (year month : Nat) : Nat :=
  if month = 2 then (if isLeapYear year then 29 else 28)
  else if month ∈ [4, 6, 9, 11] then 30
  else 31

def readTimeAfterDate? : List Char → Option (List Char)
  | mark :: rest =>
      if mark = 'T' || mark = 't' || mark = ' ' then (readTime? rest).map skipOffset else none
  | [] => none

def readDay? (source : List Char) : Option ((Nat × Nat × Nat) × List Char) := do
  let (year, rest) ← readField? 4 0 9999 source
  let (month, rest) ← readField? 2 1 12 (← expect? '-' rest)
  let (day, rest) ← readField? 2 1 31 (← expect? '-' rest)
  pure ((year, month, day), rest)

/-- A date, or a date and a time, whose day exists. -/
def readDate? (source : List Char) : Option (Value × List Char) := do
  let ((year, month, day), rest) ← readDay? source
  guard (1 ≤ year && day ≤ daysIn year month)
  match readTimeAfterDate? rest with
  | some rest => pure (.other "datetime.datetime" "", rest)
  | none => pure (.other "datetime.date" "", rest)

/-- A date, a time, or a number of any form.  A source that begins like a date is no number. -/
def readScalar? (source : List Char) : Option (Value × List Char) :=
  if (readDay? source).isSome then readDate? source
  else
    ((readTime? source).map fun rest => (.other "datetime.time" "", rest))
      <|> readOtherBase? source <|> readDecimal? source <|> readSpecial? source

end StackPolicy.Toml
