import StackPolicy.Text.Digits

/-!
# Texts and keys of project files

Basic texts stand in double quotes and know escapes; literal texts stand in
single quotes and know none.  Both also exist in a form of three quotes that
may span lines.  Control characters other than the tab are refused.
-/

namespace StackPolicy.Toml

def isBlank (character : Char) : Bool := character = ' ' || character = '\t'

def isBlankOrBreak (character : Char) : Bool := isBlank character || character = '\n'

def skipBlanks (source : List Char) : List Char := source.dropWhile isBlank

def isControl (character : Char) : Bool :=
  character.toNat < 0x20 || character.toNat = 0x7f

/-- The characters that may stand in a comment or in a text of one line. -/
def isLineChar (character : Char) : Bool := !isControl character || character = '\t'

def isBodyChar (character : Char) : Bool := isLineChar character || character = '\n'

def skipComment? : List Char → Option (List Char)
  | '#' :: rest =>
      if (rest.takeWhile (· ≠ '\n')).all isLineChar then some (rest.dropWhile (· ≠ '\n'))
      else none
  | rest => some rest

/-! ## Escapes -/

/-- The character whose code point is written with `width` hexadecimal digits. -/
def readCodePoint? (width : Nat) (source : List Char) : Option (Char × List Char) :=
  match StackPolicy.Text.readHex? width 0 source with
  | some (code, rest) => if code.isValidChar then some (Char.ofNat code, rest) else none
  | none => none

/-- What follows a backslash: a character, or nothing where a line is continued. -/
def readEscape? (multiline : Bool) : List Char → Option (Option Char × List Char)
  | 'b' :: rest => some (some '\x08', rest)
  | 't' :: rest => some (some '\t', rest)
  | 'n' :: rest => some (some '\n', rest)
  | 'f' :: rest => some (some '\x0c', rest)
  | 'r' :: rest => some (some '\r', rest)
  | '"' :: rest => some (some '"', rest)
  | '\\' :: rest => some (some '\\', rest)
  | 'u' :: rest => (readCodePoint? 4 rest).map fun (character, rest) => (some character, rest)
  | 'U' :: rest => (readCodePoint? 8 rest).map fun (character, rest) => (some character, rest)
  | rest =>
      if multiline then
        match skipBlanks rest with
        | '\n' :: rest => some (none, rest.dropWhile isBlankOrBreak)
        | _ => none
      else none

/-! ## Texts -/

/-- The rest of a basic text, up to its closing quotes. -/
def readBasic? (multiline : Bool) : (fuel : Nat) → List Char → Option (List Char × List Char)
  | 0, _ => none
  | _ + 1, [] => none
  | fuel + 1, '"' :: rest =>
      if multiline then
        match rest with
        | '"' :: '"' :: rest => some ([], rest)
        | _ => (readBasic? multiline fuel rest).map fun (body, rest) => ('"' :: body, rest)
      else some ([], rest)
  | fuel + 1, '\\' :: rest => do
      let (character, rest) ← readEscape? multiline rest
      let (body, rest) ← readBasic? multiline fuel rest
      pure (character.toList ++ body, rest)
  | fuel + 1, character :: rest =>
      if (if multiline then isBodyChar character else isLineChar character) then
        (readBasic? multiline fuel rest).map fun (body, rest) => (character :: body, rest)
      else none

def readLiteral? (source : List Char) : Option (List Char × List Char) :=
  let body := source.takeWhile (· ≠ '\'')
  match source.dropWhile (· ≠ '\'') with
  | _ :: rest => if body.all isLineChar then some (body, rest) else none
  | [] => none

def readLiteralLines? : List Char → Option (List Char × List Char)
  | [] => none
  | '\'' :: '\'' :: '\'' :: rest => some ([], rest)
  | character :: rest =>
      if isBodyChar character then
        (readLiteralLines? rest).map fun (body, rest) => (character :: body, rest)
      else none

/-- Up to two quotes right after the closing ones still belong to the text. -/
def takeQuotes (quote : Char) (body rest : List Char) : List Char × List Char :=
  match rest with
  | first :: second :: others =>
      if first = quote ∧ second = quote then (body ++ [quote, quote], others)
      else if first = quote then (body ++ [quote], second :: others)
      else (body, rest)
  | [first] => if first = quote then (body ++ [quote], []) else (body, rest)
  | [] => (body, rest)

/-- A line break right after the opening quotes is not part of the text. -/
def skipFirstBreak : List Char → List Char
  | '\n' :: rest => rest
  | rest => rest

def readText? (source : List Char) : Option (List Char × List Char) :=
  match source with
  | '"' :: '"' :: '"' :: rest =>
      (readBasic? true source.length (skipFirstBreak rest)).map fun (body, rest) =>
        takeQuotes '"' body rest
  | '\'' :: '\'' :: '\'' :: rest =>
      (readLiteralLines? (skipFirstBreak rest)).map fun (body, rest) =>
        takeQuotes '\'' body rest
  | '"' :: rest => readBasic? false source.length rest
  | '\'' :: rest => readLiteral? rest
  | _ => none

/-! ## Keys -/

def isKeyChar (character : Char) : Bool :=
  character.isAlphanum || character = '-' || character = '_'

/-- One part of a key: bare, or a text of one line. -/
def readKeyPart? (source : List Char) : Option (String × List Char) :=
  match source with
  | '"' :: rest => (readBasic? false source.length rest).map fun (body, rest) =>
      (String.ofList body, rest)
  | '\'' :: rest => (readLiteral? rest).map fun (body, rest) => (String.ofList body, rest)
  | _ =>
      let name := source.takeWhile isKeyChar
      if name.isEmpty then none else some (String.ofList name, source.dropWhile isKeyChar)

/-- The parts of a dotted key, and the source after the blanks that follow it. -/
def readKey? : (fuel : Nat) → List Char → Option (List String × List Char)
  | 0, _ => none
  | fuel + 1, source => do
      let (name, rest) ← readKeyPart? source
      match skipBlanks rest with
      | '.' :: rest =>
          let (names, rest) ← readKey? fuel (skipBlanks rest)
          pure (name :: names, rest)
      | rest => pure ([name], rest)

end StackPolicy.Toml
