import StackPolicy.Location
import StackPolicy.Ownership

/-!
# Types that move between contexts

A late resource leaves the initialization that produced it, a resource that
initialization touches is handed to the tasks, and a message carries its
inputs to the receiver.  Their types must be safe to transfer, unless nothing
crosses the border of a context.
-/

namespace StackPolicy

/-- The ownership of a resource that one idle loop alone accesses. -/
def Ownership.byIdle : Ownership := .owned 0

def Location.isCrossInitialized : Location → Bool
  | .owned _ crossInitialized => crossInitialized
  | .shared _ => false

namespace Ledger

/-! ## Resources -/

/-- A late resource moves if another core provides its value, or if it is used by
more than one idle loop alone. -/
def requireLate (ownerships : Ownerships) (locations : Locations) (ledger : Ledger)
    (name : String) (resource : Resource) : Ledger :=
  if (locations.get? name).any Location.isCrossInitialized then
    ledger.require .transfer resource.ty
      ("late resource '" ++ name ++ "' is initialized on another core")
  else match ownerships.get? name with
    | some ownership =>
        if ownership = .byIdle then ledger
        else ledger.require .transfer resource.ty
          ("late resource '" ++ name ++ "' is used outside idle (" ++ ownership.text ++ ")")
    | none => ledger

def requireLateResources (app : App) (ownerships : Ownerships) (locations : Locations)
    (ledger : Ledger) : Ledger :=
  app.lateResources.rows.foldl
    (fun ledger row => requireLate ownerships locations ledger row.1 row.2) ledger

/-- A declared resource that initialization accesses moves if a context with a
priority uses it too, except for one idle loop alone. -/
def requireShared (app : App) (ownerships : Ownerships) (ledger : Ledger)
    (name : String) : Ledger :=
  match ownerships.get? name, app.resources.get? name with
  | some ownership, some resource =>
      if ownership = .byIdle then ledger
      else ledger.require .transfer resource.ty
        ("resource '" ++ name ++ "' is shared with init (" ++ ownership.text ++ ")")
  | _, _ => ledger

def requireInitResources (app : App) (ownerships : Ownerships) (ledger : Ledger) : Ledger :=
  (app.inits.flatMap fun init => init.resources.keys).foldl
    (requireShared app ownerships) ledger

end Ledger

/-! ## Software tasks -/

def App.task (app : App) (name : String) : Except Failure SoftwareTask :=
  match app.softwareTasks.get? name with
  | some task => .ok task
  | none => .error (.undeclaredTask name)

/-- The number of messages that may wait for any of some tasks. -/
def App.capacityOf (app : App) (tasks : SortedSet String) : Except Failure Int := do
  let declarations ← tasks.toList.mapM app.task
  pure (declarations.foldr (fun task total => task.capacity + total) 0)

/-! ## Messages -/

structure Delivery where
  sender : Context
  receiver : String
  task : SoftwareTask
  deriving DecidableEq, Repr

def Message.deliver (app : App) (message : Message) : Except Failure Delivery :=
  (app.task message.receiver).map fun task => ⟨message.sender, message.receiver, task⟩

/-- Whether a message to a task of the given core and priority leaves its context. -/
def Context.mustTransfer (sender : Context) (core priority : Int) : Bool :=
  sender.core ≠ core || sender.priority ≠ some priority

def Ledger.requireMessage (ledger : Ledger) (delivery : Delivery) (verb : String) : Ledger :=
  if delivery.sender.mustTransfer delivery.task.core delivery.task.priority then
    ledger.requireAll .transfer delivery.task.inputs
      (delivery.sender.name ++ " may " ++ verb ++ " '" ++ delivery.receiver ++ "'")
  else ledger

end StackPolicy
