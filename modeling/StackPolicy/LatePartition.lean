import StackPolicy.Context
import StackPolicy.Failure

/-!
# The late partition

Every late resource gets its value from the initialization routine of one
core.  A routine either claims resources by name or takes the rest, that is
every late resource that no routine claims by name.
-/

namespace StackPolicy

abbrev LatePartition := Table Int (SortedSet String)

namespace LatePartition

/-- The claims read so far, the late resources that nobody has claimed yet, and the
core that takes the rest. -/
structure Claims where
  byCore : Table Int (SortedSet String)
  unclaimed : SortedSet String
  rest : Option Int

def Claims.start (app : App) : Claims :=
  ⟨∅, SortedSet.ofList app.lateResources.keys, none⟩

def Claims.claim (claims : Claims) (core : Int) (resource : String) : Claims :=
  let claimed := (claims.byCore.get? core).getD ∅
  { claims with
    byCore := claims.byCore.insert core (claimed.insert resource)
    unclaimed := claims.unclaimed.filter (· ≠ resource) }

def Claims.addInit (claims : Claims) (init : InitRoutine) : Except Failure Claims :=
  if init.late.isEmpty then
    if claims.rest.isSome then .error .severalRests
    else .ok { claims with rest := some init.core }
  else .ok (init.late.foldl (fun claims resource => claims.claim init.core resource) claims)

/-- The core that takes the rest gets the unclaimed resources and nothing else. -/
def Claims.finish (claims : Claims) : LatePartition :=
  match claims.rest with
  | some core => (claims.byCore.insert core claims.unclaimed).sortByKey
  | none => claims.byCore.sortByKey

/-- The partition of an application, by ascending core; it is empty without late resources. -/
def ofApp (app : App) : Except Failure LatePartition :=
  if app.lateResources.rows.isEmpty then .ok ∅
  else (app.initsByCore.foldlM Claims.addInit (Claims.start app)).map Claims.finish

/-- The first core of the partition that initializes `resource`. -/
def initializerOf? (partition : LatePartition) (resource : String) : Option Int :=
  (partition.rows.find? fun row => resource ∈ row.2).map Prod.fst

end LatePartition

end StackPolicy
