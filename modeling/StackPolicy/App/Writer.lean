import StackPolicy.App
import StackPolicy.Value.JsonWriter

/-!
# Writing applications

The plain value of an application graph lists every field in the order of its
declaration, fields of the common routine first, and writes every default out.
-/

namespace StackPolicy

open Value

def AccessMode.label : AccessMode → String
  | .exclusive => "exclusive"
  | .shared => "shared"

def AccessMode.toValue (mode : AccessMode) : Value := text mode.label

def Value.ofTexts (contents : List String) : Value := list (contents.map text)

/-- A map from names as a record, in the order of its rows. -/
def Value.ofTable {Item : Type} (item : Item → Value) (table : Table String Item) : Value :=
  record (table.rows.map fun row => (row.1, item row.2))

def Value.ofOption {Item : Type} (item : Item → Value) : Option Item → Value
  | some content => item content
  | none => null

def Resource.toValue (resource : Resource) : Value :=
  record [("ty", text resource.ty), ("init", Value.ofOption text resource.initial)]

/-! ## Routines and tasks -/

def Routine.members (routine : Routine) : List (String × Value) :=
  [("core", int routine.core),
    ("resources", Value.ofTable AccessMode.toValue routine.resources),
    ("spawn", Value.ofTexts routine.spawn),
    ("schedule", Value.ofTexts routine.schedule)]

def InitRoutine.toValue (init : InitRoutine) : Value :=
  record (init.toRoutine.members ++ [("late", Value.ofTexts init.late)])

def IdleRoutine.toValue (idle : IdleRoutine) : Value :=
  record idle.toRoutine.members

def HardwareTask.toValue (task : HardwareTask) : Value :=
  record (task.toRoutine.members ++
    [("binds", text task.binds), ("priority", int task.priority)])

def SoftwareTask.toValue (task : SoftwareTask) : Value :=
  record (task.toRoutine.members ++
    [("priority", int task.priority), ("capacity", int task.capacity),
      ("inputs", Value.ofTexts task.inputs)])

/-! ## Applications -/

def App.toValue (app : App) : Value :=
  record
    [("cores", int app.cores),
      ("inits", list (app.inits.map InitRoutine.toValue)),
      ("idles", list (app.idles.map IdleRoutine.toValue)),
      ("resources", Value.ofTable Resource.toValue app.resources),
      ("hardware_tasks", Value.ofTable HardwareTask.toValue app.hardwareTasks),
      ("software_tasks", Value.ofTable SoftwareTask.toValue app.softwareTasks)]

def App.toJson (app : App) : String := Value.toJson app.toValue

end StackPolicy
