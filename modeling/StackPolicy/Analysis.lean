import StackPolicy.Channel
import StackPolicy.Ownership
import StackPolicy.Location

/-!
# Analysis results

The metadata that an analysis derives from an application graph.
-/

namespace StackPolicy

structure Analysis where
  usedCores : List Int
  lateResources : LatePartition
  ownerships : Ownerships
  locations : Locations
  channels : Table Int Channel
  freeQueues : FreeQueues
  timerQueue : TimerQueue
  transferSafe : SortedSet String
  concurrentReadSafe : SortedSet String
  initializationBarriers : Barriers
  spawnBarriers : SpawnBarriers
  taskPriorities : Table String Int
  trace : List Event
  deriving Repr

/-- Whether an access to `resource` has to lock it.  A resource without an ownership
is only touched by initialization, if at all, and needs no lock. -/
def Analysis.needsLock (analysis : Analysis) (resource : String) (priority : Int) :
    Except Failure Bool :=
  match analysis.ownerships.get? resource with
  | some ownership => ownership.needsLock priority
  | none => .ok false

end StackPolicy
