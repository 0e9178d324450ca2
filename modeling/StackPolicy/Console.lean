import StackPolicy.Failure
import StackPolicy.Report

/-!
# Consoles

A console reads the texts that it shows as markup, in which brackets enclose
tags.  Names and messages are put into these texts as they are, so that a text
may hold a tag that the console cannot make sense of.  Then the line is not
shown, and showing it fails.
-/

namespace StackPolicy

/-- How a console reads texts: what it says about one that it cannot read.  A text without an
opening bracket holds no tag, so that it can be read. -/
structure Markup where
  fault? : String → Option String
  plain : ∀ text : String, '[' ∉ text.toList → fault? text = none

namespace Markup

def display (markup : Markup) (line : Line) : Except Failure Unit :=
  match markup.fault? line.text with
  | none => .ok ()
  | some fault => .error (.unreadable fault)

/-- Shows some lines up to the first one that cannot be read.  The lines that were shown
come with the outcome. -/
def displayAll (markup : Markup) : List Line → List Line × Except Failure Unit
  | [] => ([], .ok ())
  | line :: lines =>
      match markup.display line with
      | .ok () =>
          let (shown, outcome) := markup.displayAll lines
          (line :: shown, outcome)
      | .error failure => ([], .error failure)

end Markup

/-- The consoles in the order in which they were installed, with what each has shown,
and the positions of those that show the next line. -/
structure Consoles where
  shown : List (List String)
  attached : List Nat
  deriving DecidableEq, Repr

namespace Consoles

def none : Consoles := ⟨[], []⟩

def install (consoles : Consoles) : Consoles :=
  ⟨consoles.shown ++ [[]], [consoles.shown.length]⟩

def print (markup : Markup) (consoles : Consoles) (line : Line) : Except Failure Consoles :=
  (markup.display line).map fun () =>
    { consoles with
      shown := consoles.shown.mapIdx fun position lines =>
        if position ∈ consoles.attached then lines ++ [line.shown] else lines }

end Consoles

end StackPolicy
