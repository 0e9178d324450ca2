import StackPolicy.App
import StackPolicy.Schema.Model

/-!
# Reading applications

An application graph is read from a plain value.  Absent members take their
defaults, and a graph that is read satisfies the bounds of its types.
-/

namespace StackPolicy

open Checked Reading

def AccessMode.reading : Reading AccessMode
  | .text "exclusive" => valid .exclusive
  | .text "shared" => valid .shared
  | _ => fail (.notOneOf ["exclusive", "shared"])

def Resource.reading : Reading Resource :=
  closedModel "Resource" ["ty", "init"] fun members =>
    Resource.mk <$> required members "ty" text
      <*> defaulted members "init" none (optional text)

/-! ## Routines and tasks -/

def Routine.fields : List String := ["core", "resources", "spawn", "schedule"]

def Routine.ofMembers (members : List (String × Value)) : Checked Routine :=
  (fun core resources spawn schedule => ⟨core.1, core.2, resources, spawn, schedule⟩)
    <$> defaulted members "core" (least 0) (atLeast 0)
    <*> defaulted members "resources" ∅ (named AccessMode.reading)
    <*> defaulted members "spawn" [] (tuple text)
    <*> defaulted members "schedule" [] (tuple text)

def InitRoutine.reading : Reading InitRoutine :=
  closedModel "Init" (Routine.fields ++ ["late"]) fun members =>
    InitRoutine.mk <$> Routine.ofMembers members
      <*> defaulted members "late" [] (tuple text)

def IdleRoutine.reading : Reading IdleRoutine :=
  closedModel "Idle" Routine.fields fun members =>
    IdleRoutine.mk <$> Routine.ofMembers members

def HardwareTask.reading : Reading HardwareTask :=
  closedModel "HardwareTask" (Routine.fields ++ ["binds", "priority"]) fun members =>
    (fun routine binds priority => ⟨routine, binds, priority.1, priority.2⟩)
      <$> Routine.ofMembers members
      <*> required members "binds" text
      <*> defaulted members "priority" (least 1) (atLeast 1)

def SoftwareTask.reading : Reading SoftwareTask :=
  closedModel "SoftwareTask" (Routine.fields ++ ["priority", "capacity", "inputs"]) fun members =>
    (fun routine priority capacity inputs =>
        ⟨routine, priority.1, priority.2, capacity.1, capacity.2, inputs⟩)
      <$> Routine.ofMembers members
      <*> defaulted members "priority" (least 1) (atLeast 1)
      <*> defaulted members "capacity" (least 1) (atLeast 1)
      <*> defaulted members "inputs" [] (tuple text)

/-! ## Applications -/

def App.fields : List String :=
  ["cores", "inits", "idles", "resources", "hardware_tasks", "software_tasks"]

def App.reading : Reading App :=
  closedModel "App" App.fields fun members =>
    (fun cores inits idles resources hardwareTasks softwareTasks =>
        ⟨cores.1, cores.2, inits, idles, resources, hardwareTasks, softwareTasks⟩)
      <$> defaulted members "cores" (least 1) (atLeast 1)
      <*> defaulted members "inits" [] (tuple InitRoutine.reading)
      <*> defaulted members "idles" [] (tuple IdleRoutine.reading)
      <*> defaulted members "resources" ∅ (named Resource.reading)
      <*> defaulted members "hardware_tasks" ∅ (named HardwareTask.reading)
      <*> defaulted members "software_tasks" ∅ (named SoftwareTask.reading)

def App.ofValue (value : Value) : Except Rejection App :=
  (App.reading value).orReject "App"

end StackPolicy
