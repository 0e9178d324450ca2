import StackPolicy.LatePartition

/-!
# Locations and initialization barriers

A resource that a single core accesses lies on that core, and is
cross-initialized if another core provides its value.  A resource that several
cores access is shared by them.  A core that accesses a late resource of
another core has to wait for the initialization of that core.
-/

namespace StackPolicy

inductive Location where
  | owned (core : Int) (crossInitialized : Bool)
  | shared (cores : SortedSet Int)
  deriving DecidableEq, Repr

namespace Location

def owner : Location → Option Int
  | owned core _ => some core
  | shared _ => none

def widen (location : Location) (core : Int) : Location :=
  match location with
  | owned holder _ =>
      if holder = core then location else shared ((SortedSet.ofList [holder]).insert core)
  | shared cores => if core ∈ cores then location else shared (cores.insert core)

/-- Marks an owned location whose value comes from another core. -/
def settle (partition : LatePartition) (resource : String) (location : Location) : Location :=
  match location with
  | shared _ => location
  | owned core _ =>
      match partition.initializerOf? resource with
      | some initializer => if initializer = core then location else owned core true
      | none => location

end Location

abbrev Locations := Table String Location

/-- For each core, the cores whose initialization it has to wait for. -/
abbrev Barriers := Table Int (SortedSet Int)

namespace Locations

/-- A first access from a negative core is refused. -/
def addAccess? (locations : Locations) (access : Access) : Except Failure Locations :=
  match locations.get? access.resource with
  | some location => .ok (locations.insert access.resource (location.widen access.core))
  | none => do
      Failure.checkBounds "OwnedLocation" [⟨"core", 0, access.core⟩]
      pure (locations.insert access.resource (.owned access.core false))

end Locations

namespace Barriers

def wait (barriers : Barriers) (user provider : Int) : Barriers :=
  barriers.insert user (((barriers.get? user).getD ∅).insert provider)

def addAccess (partition : LatePartition) (barriers : Barriers) (access : Access) : Barriers :=
  match partition.initializerOf? access.resource with
  | some initializer =>
      if initializer = access.core then barriers else barriers.wait access.core initializer
  | none => barriers

def ofAccesses (accesses : List Access) (partition : LatePartition) : Barriers :=
  (accesses.foldl (addAccess partition) ∅).sortByKey

end Barriers

def Locations.ofAccesses (accesses : List Access) (partition : LatePartition) :
    Except Failure Locations := do
  let locations ← accesses.foldlM addAccess? ∅
  pure (locations.mapRows (Location.settle partition))

end StackPolicy
