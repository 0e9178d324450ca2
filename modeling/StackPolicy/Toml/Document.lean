import StackPolicy.Table
import StackPolicy.Toml.Number
import StackPolicy.Toml.Text

/-!
# Project files

A document is a list of statements: a key with a value, the header of a table,
or the header of one more table of a list.  Tables may be spread over several
keys, but no key may be written twice, no header may open a table twice, and a
value written in brackets or braces is complete.
-/

namespace StackPolicy.Toml

/-- The members of a table, in the order of their first mention. -/
abbrev Members := List (String × Value)

/-! ## Nested tables -/

/-- Changes the table at the end of a path; absent tables on the way are created.
A list stands for its last table if `throughLists` holds. -/
def updateAt? (throughLists : Bool) (change : Members → Option Members) :
    (path : List String) → Members → Option Members
  | [], members => change members
  | name :: path, members =>
      match Value.member? members name with
      | none =>
          (updateAt? throughLists change path []).map fun nested =>
            Table.writeRow name (.record nested) members
      | some (.record nested) =>
          (updateAt? throughLists change path nested).map fun nested =>
            Table.writeRow name (.record nested) members
      | some (.list items) =>
          match throughLists, items.getLast? with
          | true, some (.record nested) =>
              (updateAt? throughLists change path nested).map fun nested =>
                Table.writeRow name (.list (items.dropLast ++ [.record nested])) members
          | _, _ => none
      | some _ => none

def addMember? (name : String) (value : Value) (members : Members) : Option Members :=
  if (Value.member? members name).isSome then none else some (members ++ [(name, value)])

/-- Appends an empty table to the list called `name`, which may be new. -/
def appendTable? (name : String) (members : Members) : Option Members :=
  match Value.member? members name with
  | none => some (members ++ [(name, .list [.record []])])
  | some (.list items) => some (Table.writeRow name (.list (items ++ [.record []])) members)
  | some _ => none

/-- A value in brackets or braces can not be extended later. -/
def isNested : Value → Bool
  | .list _ => true
  | .record _ => true
  | _ => false

def leadsTo (path other : List String) : Bool := path.isPrefixOf other

/-! ## Values -/

def skipBlanksAndComments? : (fuel : Nat) → List Char → Option (List Char)
  | 0, source => some source
  | fuel + 1, source =>
      match source.dropWhile isBlankOrBreak with
      | '#' :: rest => (skipComment? ('#' :: rest)).bind (skipBlanksAndComments? fuel)
      | rest => some rest

mutual

def readValue? : (fuel : Nat) → List Char → Option (Value × List Char)
  | 0, _ => none
  | fuel + 1, source =>
      match source with
      | '"' :: _ => (readText? source).map fun (body, rest) => (.text (String.ofList body), rest)
      | '\'' :: _ => (readText? source).map fun (body, rest) => (.text (String.ofList body), rest)
      | 't' :: 'r' :: 'u' :: 'e' :: rest => some (.bool true, rest)
      | 'f' :: 'a' :: 'l' :: 's' :: 'e' :: rest => some (.bool false, rest)
      | '[' :: rest => do
          let rest ← skipBlanksAndComments? source.length rest
          let (items, rest) ← readItems? fuel rest
          pure (.list items, rest)
      | '\x7b' :: rest =>
          match skipBlanks rest with
          | '\x7d' :: rest => some (.record [], rest)
          | rest => (readInline? fuel [] [] rest).map fun (members, rest) => (.record members, rest)
      | _ => readScalar? source

/-- The items of a list up to its closing bracket; a comma may follow the last one. -/
def readItems? : (fuel : Nat) → List Char → Option (List Value × List Char)
  | 0, _ => none
  | fuel + 1, source =>
      match source with
      | ']' :: rest => some ([], rest)
      | _ => do
          let (item, rest) ← readValue? fuel source
          match ← skipBlanksAndComments? rest.length rest with
          | ']' :: rest => pure ([item], rest)
          | ',' :: rest =>
              let rest ← skipBlanksAndComments? rest.length rest
              let (items, rest) ← readItems? fuel rest
              pure (item :: items, rest)
          | _ => none

/-- The members of a table in braces up to the closing one, added to `members`; paths
below those in `closed` are complete. -/
def readInline? : (fuel : Nat) → (members : Members) → (closed : List (List String)) →
    List Char → Option (Members × List Char)
  | 0, _, _, _ => none
  | fuel + 1, members, closed, source => do
      let (path, value, rest) ← readPair? fuel source
      guard (!closed.any (leadsTo · path))
      let members ← updateAt? false (addMember? (path.getLastD "") value) path.dropLast members
      match skipBlanks rest with
      | '\x7d' :: rest => pure (members, rest)
      | ',' :: rest =>
          let closed := if isNested value then path :: closed else closed
          readInline? fuel members closed (skipBlanks rest)
      | _ => none

def readPair? : (fuel : Nat) → List Char → Option (List String × Value × List Char)
  | 0, _ => none
  | fuel + 1, source => do
      let (path, rest) ← readKey? source.length source
      let (value, rest) ← readValue? fuel (skipBlanks (← expect? '=' rest))
      pure (path, value, rest)

end

/-! ## Statements -/

/-- A document while its statements are read: the table that keys are written to, the
tables that no header may open again, those that join them at the next header, and the
paths whose values are complete. -/
structure Draft where
  members : Members
  header : List String
  opened : List (List String)
  pending : List (List String)
  closed : List (List String)

def Draft.start : Draft := ⟨[], [], [], [], []⟩

def Draft.isClosed (draft : Draft) (path : List String) : Bool :=
  draft.closed.any (leadsTo · path)

/-- The tables on the way of a dotted key, without the table of the header. -/
def innerPaths (header path : List String) : List (List String) :=
  (List.range (path.length - 1)).map fun length => header ++ path.take (length + 1)

def Draft.addPair? (draft : Draft) (path : List String) (value : Value) : Option Draft := do
  let inner := innerPaths draft.header path
  guard (!inner.any (· ∈ draft.opened))
  let parent := draft.header ++ path.dropLast
  guard (!draft.isClosed parent)
  let members ← updateAt? true (addMember? (path.getLastD "") value) parent draft.members
  let closed := if isNested value then (draft.header ++ path) :: draft.closed else draft.closed
  pure { draft with members, closed, pending := inner ++ draft.pending }

def Draft.settle (draft : Draft) : Draft :=
  { draft with opened := draft.pending ++ draft.opened, pending := [] }

def Draft.openTable? (draft : Draft) (path : List String) : Option Draft := do
  guard (!(path ∈ draft.opened) && !draft.isClosed path)
  let members ← updateAt? true some path draft.members
  pure { draft with members, header := path, opened := path :: draft.opened }

/-- Appends a table to the list of a header in double brackets.  The new table is empty,
so everything below the list may be opened again. -/
def Draft.appendTable? (draft : Draft) (path : List String) : Option Draft := do
  guard (!draft.isClosed path)
  let members ← updateAt? true (Toml.appendTable? (path.getLastD "")) path.dropLast draft.members
  pure { draft with
    members
    header := path
    opened := path :: draft.opened.filter fun other => !leadsTo path other
    closed := draft.closed.filter fun other => !leadsTo path other }

/-- One statement that starts at the first character that is no blank. -/
def readStatement? (draft : Draft) (source : List Char) : Option (Draft × List Char) :=
  match source with
  | '[' :: '[' :: rest => do
      let (path, rest) ← readKey? source.length (skipBlanks rest)
      let draft ← draft.settle.appendTable? path
      pure (draft, ← expect? ']' (← expect? ']' rest))
  | '[' :: rest => do
      let (path, rest) ← readKey? source.length (skipBlanks rest)
      let draft ← draft.settle.openTable? path
      pure (draft, ← expect? ']' rest)
  | '#' :: _ => some (draft, source)
  | _ => do
      let (path, value, rest) ← readPair? (source.length + 1) source
      pure (← draft.addPair? path value, rest)

def readStatements? : (fuel : Nat) → Draft → List Char → Option Draft
  | 0, _, _ => none
  | fuel + 1, draft, source =>
      match skipBlanks source with
      | [] => some draft
      | '\n' :: rest => readStatements? fuel draft rest
      | source => do
          let (draft, rest) ← readStatement? draft source
          match ← skipComment? (skipBlanks rest) with
          | [] => some draft
          | '\n' :: rest => readStatements? fuel draft rest
          | _ => none

/-- A line may end with a carriage return before its line feed. -/
def joinLineEnds : List Char → List Char
  | '\r' :: '\n' :: rest => '\n' :: joinLineEnds rest
  | character :: rest => character :: joinLineEnds rest
  | [] => []

def read? (source : List Char) : Option Members :=
  let source := joinLineEnds source
  (readStatements? (source.length + 1) Draft.start source).map Draft.members

end StackPolicy.Toml
