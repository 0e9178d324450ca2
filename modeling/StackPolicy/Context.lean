import StackPolicy.App
import StackPolicy.SortedSet

/-!
# Execution contexts

Every initialization routine, idle loop and task of an application is one
context.  Initialization runs before preemption is enabled, so its contexts
have no priority; idle loops have priority 0.  The analyses read the contexts
as three streams: resource accesses, spawned and scheduled messages.
-/

namespace StackPolicy

inductive ContextKind where
  | init
  | idle
  | hardwareTask
  | softwareTask
  deriving DecidableEq, Repr

def ContextKind.label : ContextKind → String
  | init => "init"
  | idle => "idle"
  | hardwareTask => "hardware_task"
  | softwareTask => "software_task"

structure Context where
  kind : ContextKind
  name : String
  core : Int
  priority : Option Int
  resources : Table String AccessMode
  spawn : List String
  schedule : List String
  deriving DecidableEq, Repr

structure Access where
  core : Int
  priority : Option Int
  resource : String
  mode : AccessMode
  deriving DecidableEq, Repr

structure Message where
  sender : Context
  receiver : String
  deriving DecidableEq, Repr

namespace Context

def isInit (context : Context) : Bool := context.kind = .init

def ofRoutine (kind : ContextKind) (name : String) (priority : Option Int)
    (routine : Routine) : Context :=
  { kind, name, priority
    core := routine.core
    resources := routine.resources
    spawn := routine.spawn
    schedule := routine.schedule }

def ofInit (init : InitRoutine) : Context :=
  ofRoutine .init "init" none init.toRoutine

def ofIdle (idle : IdleRoutine) : Context :=
  ofRoutine .idle "idle" (some 0) idle.toRoutine

def ofHardwareTask (name : String) (task : HardwareTask) : Context :=
  ofRoutine .hardwareTask name (some task.priority) task.toRoutine

def ofSoftwareTask (name : String) (task : SoftwareTask) : Context :=
  ofRoutine .softwareTask name (some task.priority) task.toRoutine

def accesses (context : Context) : List Access :=
  context.resources.rows.map fun row => ⟨context.core, context.priority, row.1, row.2⟩

def spawned (context : Context) : List Message :=
  context.spawn.map fun receiver => ⟨context, receiver⟩

def scheduled (context : Context) : List Message :=
  context.schedule.map fun receiver => ⟨context, receiver⟩

end Context

namespace App

/-! ## The contexts of an application -/

/-- Initialization routines and idle loops by core, then hardware and software
tasks in the order of their declaration. -/
def contexts (app : App) : List Context :=
  app.initsByCore.map Context.ofInit ++
    app.idlesByCore.map Context.ofIdle ++
    app.hardwareTasks.rows.map (fun row => Context.ofHardwareTask row.1 row.2) ++
    app.softwareTasks.rows.map (fun row => Context.ofSoftwareTask row.1 row.2)

def accesses (app : App) : List Access := app.contexts.flatMap Context.accesses

def spawned (app : App) : List Message := app.contexts.flatMap Context.spawned

def scheduled (app : App) : List Message := app.contexts.flatMap Context.scheduled

def usedCores (app : App) : SortedSet Int :=
  SortedSet.ofList (app.contexts.map Context.core)

end App

end StackPolicy
