import StackPolicy.Value.Display

/-!
# Traces

A trace records what an analysis does: phases, which may nest, and the
changes made during them.  Every event knows the phase it belongs to, as the
position of the event that started the phase.
-/

namespace StackPolicy

/-- What a trace event tells.  `recorded` is an entry of a trace that was written down
before, with its parts as they stand there. -/
inductive Entry where
  | phaseStart (name detail : String)
  | phaseEnd
  | ownershipChange (resource : String) (before : Option String) (after : String)
  | safetyObligation (ty obligation reason : String)
  | queueUpdate (queue field : String) (value : Value)
  | warning (message : String)
  | recorded (label description details : Value)
  deriving Repr

/-- An entry together with the innermost phase that was open, or that it ended. -/
structure Event where
  entry : Entry
  phase : Option Nat
  deriving Repr

/-- The events recorded so far and the open phases, the innermost first.  A trace
that is not enabled follows the phases but records no event. -/
structure Trace where
  enabled : Bool
  events : List Event
  openPhases : List Nat
  deriving Repr

/-! ## Parts of an entry -/

namespace Entry

open Value

def label : Entry → Value
  | phaseStart _ _ => text "phase_start"
  | phaseEnd => text "phase_end"
  | ownershipChange _ _ _ => text "ownership_change"
  | safetyObligation _ _ _ => text "safety_obligation"
  | queueUpdate _ _ _ => text "queue_update"
  | warning _ => text "analysis_warning"
  | recorded label _ _ => label

/-- A resource without an earlier ownership shows a dash in its place. -/
def shownBefore : Option String → String
  | some before => if before = "" then "-" else before
  | none => "-"

def description : Entry → Value
  | phaseStart name _ => text name
  | phaseEnd => text "End Phase"
  | ownershipChange resource before after =>
      text (resource ++ ": " ++ shownBefore before ++ " -> " ++ after)
  | safetyObligation ty obligation _ => text (ty ++ " must be " ++ obligation)
  | queueUpdate queue field value => text (queue ++ "." ++ field ++ " = " ++ value.display)
  | warning message => text message
  | recorded _ description _ => description

def details : Entry → Value
  | phaseStart _ detail => record [("detail", text detail)]
  | phaseEnd => record []
  | ownershipChange resource before after =>
      record [("resource", text resource),
        ("before", (before.map text).getD null),
        ("after", text after)]
  | safetyObligation ty obligation reason =>
      record [("type", text ty), ("obligation", text obligation), ("reason", text reason)]
  | queueUpdate queue field value =>
      record [("queue", text queue), ("field", text field), ("value", value)]
  | warning _ => record [("level", text "warning")]
  | recorded _ _ details => details

end Entry

namespace Trace

def start (enabled : Bool) : Trace := ⟨enabled, [], []⟩

def append (trace : Trace) (event : Event) : Trace :=
  if trace.enabled then { trace with events := trace.events ++ [event] } else trace

/-! ## Phases -/

def startPhase (trace : Trace) (name detail : String) : Trace :=
  let recorded := trace.append ⟨.phaseStart name detail, trace.openPhases.head?⟩
  { recorded with openPhases := trace.events.length :: trace.openPhases }

/-- Ends the innermost phase; without an open phase nothing happens. -/
def endPhase (trace : Trace) : Trace :=
  match trace.openPhases with
  | [] => trace
  | phase :: outer => { trace.append ⟨.phaseEnd, some phase⟩ with openPhases := outer }

/-! ## Changes -/

def log (trace : Trace) (entry : Entry) : Trace :=
  trace.append ⟨entry, trace.openPhases.head?⟩

def logAll (trace : Trace) (entries : List Entry) : Trace := entries.foldl log trace

end Trace

end StackPolicy
