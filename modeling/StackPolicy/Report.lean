/-!
# Reports

What an analysis tells its user: lines at one of three levels.  A console
shows a line after the name of its level, which is padded to a fixed width.
-/

namespace StackPolicy

inductive Level where
  | info
  | success
  | warning
  deriving DecidableEq, Repr

namespace Level

def label : Level → String
  | info => "INFO"
  | success => "SUCCESS"
  | warning => "WARNING"

/-- The symbol in front of a message, with the blanks that follow it. -/
def symbol : Level → String
  | info => "ℹ️  "
  | success => "✅ "
  | warning => "⚠️  "

end Level

structure Line where
  level : Level
  message : String
  deriving DecidableEq, Repr

namespace Line

def text (line : Line) : String := line.level.symbol ++ line.message

def padded (label : String) : String :=
  label ++ String.ofList (List.replicate (8 - label.length) ' ')

/-- The line as a console shows it, without blanks at its end. -/
def shown (line : Line) : String :=
  let full := padded line.level.label ++ " " ++ line.text
  String.ofList ((full.toList.reverse.dropWhile Char.isWhitespace).reverse)

end Line

end StackPolicy
