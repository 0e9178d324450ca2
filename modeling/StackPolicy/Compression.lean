import StackPolicy.Context
import StackPolicy.Failure
import StackPolicy.Table.Lemmas

/-!
# Priority compression

The priorities of the tasks of a core are renumbered 1, 2, 3, … without gaps
and without a change of their order.  The priorities of one core have no
effect on another, so every core is renumbered on its own.
-/

namespace StackPolicy

/-- A number that may be the priority of a task. -/
structure Positive where
  number : Int
  pos : 1 ≤ number

namespace App

def prioritiesOn (app : App) (core : Int) : SortedSet Int :=
  SortedSet.ofList
    (((app.hardwareTasks.values.filter fun task => task.core = core).map HardwareTask.priority) ++
      ((app.softwareTasks.values.filter fun task => task.core = core).map SoftwareTask.priority))

/-- The place of a priority among those of its core, counted from 1. -/
def rank (app : App) (core priority : Int) : Nat :=
  ((app.prioritiesOn core).toList.takeWhile (· < priority)).length + 1

theorem one_le_rank (app : App) (core priority : Int) : 1 ≤ (app.rank core priority : Int) := by
  unfold rank
  omega

def priorityMap (app : App) (core : Int) : Table Int Int :=
  Table.ofList
    ((app.prioritiesOn core).toList.map fun priority => (priority, (app.rank core priority : Int)))

theorem one_le_priorityMap {app : App} {core priority number : Int}
    (found : (app.priorityMap core).get? priority = some number) : 1 ≤ number := by
  obtain ⟨other, -, same⟩ := List.mem_map.mp (Table.mem_of_get?_ofList found)
  cases same
  exact app.one_le_rank core priority

/-- The new number of a priority.  The device has to have the core, and a task of the core
the priority. -/
def newNumber (app : App) (core priority : Int) : Except Failure Positive :=
  if core < 0 ∨ app.cores ≤ core then .error (.coreOutOfRange core)
  else match found : (app.priorityMap core).get? priority with
    | some number => .ok ⟨number, one_le_priorityMap found⟩
    | none => .error (.unknownPriority priority)

def compressHardwareTask (app : App) (task : HardwareTask) : Except Failure HardwareTask := do
  let new ← app.newNumber task.core task.priority
  pure { task with priority := new.number, priority_pos := new.pos }

def compressSoftwareTask (app : App) (task : SoftwareTask) : Except Failure SoftwareTask := do
  let new ← app.newNumber task.core task.priority
  pure { task with priority := new.number, priority_pos := new.pos }

def compress (app : App) : Except Failure App := do
  let hardwareTasks ← app.hardwareTasks.mapRowsM fun _ => app.compressHardwareTask
  let softwareTasks ← app.softwareTasks.mapRowsM fun _ => app.compressSoftwareTask
  pure { app with hardwareTasks, softwareTasks }

/-- The priority of every task by its name; of two tasks of one name the software task counts. -/
def taskPriorities (app : App) : Table String Int :=
  Table.ofList
    (app.hardwareTasks.rows.map (fun row => (row.1, row.2.priority)) ++
      app.softwareTasks.rows.map (fun row => (row.1, row.2.priority)))

theorem get?_taskPriorities (app : App) (name : String) :
    app.taskPriorities.get? name =
      ((app.softwareTasks.get? name).map SoftwareTask.priority).or
        ((app.hardwareTasks.get? name).map HardwareTask.priority) := by
  have hmerged := Table.get?_ofList_append (app.hardwareTasks.mapValues HardwareTask.priority)
    (app.softwareTasks.mapValues SoftwareTask.priority) name
  unfold Table.mapValues at hmerged
  rw [Table.get?_mapRows, Table.get?_mapRows] at hmerged
  exact hmerged

end App

end StackPolicy
