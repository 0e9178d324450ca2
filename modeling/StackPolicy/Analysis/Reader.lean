import StackPolicy.Analysis
import StackPolicy.Schema.Model

/-!
# Reading results

Results of an analysis, and their parts, can be read back from plain values.
Members that are not known are ignored.
-/

namespace StackPolicy

open Checked Reading

/-! ## Tagged models -/

/-- A tag that, if it is given at all, has to be the expected one. -/
def Reading.tag (members : List (String × Value)) (expected : String) : Checked Unit :=
  defaulted members "kind" () fun value =>
    if value.isText expected then valid () else fail (.wrongTag expected)

/-- A model that is chosen by its tag. -/
def Reading.tagged {Result : Type} (choices : List (String × Reading Result)) : Reading Result
  | .record members =>
      match Value.member? members "kind" with
      | none => fail .tagless
      | some kind =>
          match choices.find? fun choice => kind.isText choice.1 with
          | some (name, reading) => (reading (.record members)).under (.member name)
          | none => fail (.unknownTag kind.display (choices.map Prod.fst))
  | _ => fail .notTagged

/-! ## Ownerships and locations -/

namespace Ownership

def ownedReading : Reading Ownership :=
  model "Owned" fun members =>
    (fun _ priority => .owned priority.1) <$> tag members "owned"
      <*> required members "priority" (atLeast 0)

def coOwnedReading : Reading Ownership :=
  model "CoOwned" fun members =>
    (fun _ priority => .coOwned priority.1) <$> tag members "co_owned"
      <*> required members "priority" (atLeast 0)

def contendedReading : Reading Ownership :=
  model "Contended" fun members =>
    (fun _ ceiling => .contended ceiling.1) <$> tag members "contended"
      <*> required members "ceiling" (atLeast 0)

def reading : Reading Ownership :=
  tagged [("owned", ownedReading), ("co_owned", coOwnedReading), ("contended", contendedReading)]

end Ownership

namespace Location

def ownedReading : Reading Location :=
  model "OwnedLocation" fun members =>
    (fun _ core crossInitialized => .owned core.1 crossInitialized) <$> tag members "owned"
      <*> required members "core" (atLeast 0)
      <*> defaulted members "cross_initialized" false truth

def sharedReading : Reading Location :=
  model "SharedLocation" fun members =>
    (fun _ cores => .shared cores) <$> tag members "shared"
      <*> defaulted members "cores" ∅ (set integer)

def reading : Reading Location :=
  tagged [("owned", ownedReading), ("shared", sharedReading)]

end Location

/-! ## Queues -/

def Channel.reading : Reading Channel :=
  model "Channel" fun members =>
    (fun ceiling capacity tasks => ⟨ceiling, capacity.1, tasks⟩)
      <$> defaulted members "ceiling" none (optional integer)
      <*> defaulted members "capacity" (least 0) (atLeast 0)
      <*> defaulted members "tasks" ∅ (set text)

def TimerQueue.reading : Reading TimerQueue :=
  model "TimerQueue" fun members =>
    (fun priority ceiling capacity tasks => ⟨priority.1, ceiling.1, capacity.1, tasks⟩)
      <$> defaulted members "priority" (least 1) (atLeast 1)
      <*> defaulted members "ceiling" (least 1) (atLeast 1)
      <*> defaulted members "capacity" (least 0) (atLeast 0)
      <*> defaulted members "tasks" ∅ (set text)

/-! ## Trace events -/

namespace Event

/-- The members of a map; whatever stands in them is accepted. -/
def members : Reading (List (String × Value))
  | .record members => valid members
  | _ => fail .notMap

def part (members : List (String × Value)) (name : String) : Value :=
  (Value.member? members name).getD .null

/-- The event that the members describe.  Its phase is the first phase start in `all`
that carries the identifier of its parent. -/
def ofMembers (all : List (List (String × Value))) (members : List (String × Value)) : Event where
  entry := .recorded (part members "type") (part members "description") (part members "metadata")
  phase := all.findIdx? fun other =>
    (part other "type").isText "phase_start" &&
      (part other "id").isSameIdentifier (part members "parent_id")

def listReading : Reading (List Event) := fun value =>
  (fun all => all.map (ofMembers all)) <$> tuple members value

end Event

/-! ## Results -/

def Analysis.reading : Reading Analysis :=
  model "Analysis" fun members =>
    Analysis.mk <$> defaulted members "used_cores" [] (tuple integer)
      <*> defaulted members "late_resources" ∅ (numbered (set text))
      <*> defaulted members "ownerships" ∅ (named Ownership.reading)
      <*> defaulted members "locations" ∅ (named Location.reading)
      <*> defaulted members "channels" ∅ (numbered Channel.reading)
      <*> defaulted members "free_queues" ∅ (named (optional integer))
      <*> defaulted members "timer_queue" .unused TimerQueue.reading
      <*> defaulted members "transfer_safe" ∅ (set text)
      <*> defaulted members "concurrent_read_safe" ∅ (set text)
      <*> defaulted members "initialization_barriers" ∅ (numbered (set integer))
      <*> defaulted members "spawn_barriers" ∅ (numbered (numbered truth))
      <*> defaulted members "task_priorities" ∅ (named integer)
      <*> defaulted members "trace_events" [] Event.listReading

end StackPolicy
