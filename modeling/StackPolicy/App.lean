import StackPolicy.Table

/-!
# Application graphs

An application runs on one or more cores.  Every core may have an
initialization routine and an idle loop; hardware tasks are bound to
interrupts, and software tasks are dispatched by messages.  All of them may
access shared resources and send messages to software tasks.
-/

namespace StackPolicy

inductive AccessMode where
  | exclusive
  | shared
  deriving DecidableEq, Repr

/-- A declared resource.  Without an initial value its value is produced at run time. -/
structure Resource where
  ty : String
  initial : Option String
  deriving DecidableEq, Repr

structure Routine where
  core : Int
  core_nonneg : 0 ≤ core
  resources : Table String AccessMode
  spawn : List String
  schedule : List String
  deriving DecidableEq, Repr

/-- The initialization routine of a core.  An empty list of late resources claims
every late resource that no other routine claims. -/
structure InitRoutine extends Routine where
  late : List String
  deriving DecidableEq, Repr

structure IdleRoutine extends Routine where
  deriving DecidableEq, Repr

structure HardwareTask extends Routine where
  binds : String
  priority : Int
  priority_pos : 1 ≤ priority
  deriving DecidableEq, Repr

/-- A task that a message starts; at most `capacity` messages wait for it at once. -/
structure SoftwareTask extends Routine where
  priority : Int
  priority_pos : 1 ≤ priority
  capacity : Int
  capacity_pos : 1 ≤ capacity
  inputs : List String
  deriving DecidableEq, Repr

structure App where
  cores : Int
  cores_pos : 1 ≤ cores
  inits : List InitRoutine
  idles : List IdleRoutine
  resources : Table String Resource
  hardwareTasks : Table String HardwareTask
  softwareTasks : Table String SoftwareTask
  deriving DecidableEq, Repr

namespace Resource

def isLate (resource : Resource) : Bool := resource.initial.isNone

end Resource

namespace App

def lateResources (app : App) : Table String Resource :=
  app.resources.filter fun _ resource => resource.isLate

def initsByCore (app : App) : List InitRoutine :=
  app.inits.mergeSort fun left right => left.core ≤ right.core

def idlesByCore (app : App) : List IdleRoutine :=
  app.idles.mergeSort fun left right => left.core ≤ right.core

end App

end StackPolicy
