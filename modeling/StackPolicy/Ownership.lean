import StackPolicy.Context
import StackPolicy.Failure
import StackPolicy.Obligation

/-!
# Ownership and ceilings

A resource that one context accesses is owned; one that several contexts
access at a single priority is co-owned; one that is accessed at two or more
priorities is contended, and its ceiling is the highest of them.  Only
contended resources need a lock, and only below their ceiling.
Initialization has no priority and leaves every ownership as it is.
-/

namespace StackPolicy

inductive Ownership where
  | owned (priority : Int)
  | coOwned (priority : Int)
  | contended (ceiling : Int)
  deriving DecidableEq, Repr

namespace Ownership

/-- The priority of the owners, or the ceiling. -/
def level : Ownership → Int
  | owned priority => priority
  | coOwned priority => priority
  | contended ceiling => ceiling

def isOwned : Ownership → Bool
  | owned _ => true
  | _ => false

def isContended : Ownership → Bool
  | contended _ => true
  | _ => false

/-- The printed form, for instance `Owned` with the priority in braces. -/
def text : Ownership → String
  | owned priority => "Owned\x7b" ++ toString priority ++ "\x7d"
  | coOwned priority => "CoOwned\x7b" ++ toString priority ++ "\x7d"
  | contended ceiling => "Contended\x7b" ++ toString ceiling ++ "\x7d"

def needsLock (ownership : Ownership) (priority : Int) : Except Failure Bool :=
  match ownership with
  | contended ceiling =>
      if priority ≤ ceiling then .ok (priority < ceiling)
      else .error (.aboveCeiling priority ceiling)
  | _ => .ok false

/-! ## Transitions -/

/-- The ownership after one more access, and whether the access met another level. -/
def next (current : Option Ownership) (priority : Int) : Ownership × Bool :=
  match current with
  | none => (owned priority, false)
  | some ownership =>
      if priority ≠ ownership.level then (contended (max ownership.level priority), true)
      else match ownership with
        | owned _ => (coOwned priority, false)
        | _ => (ownership, false)

/-- No ownership has a negative level. -/
def check : Ownership → Except Failure Unit
  | owned priority => Failure.checkBounds "Owned" [⟨"priority", 0, priority⟩]
  | coOwned priority => Failure.checkBounds "CoOwned" [⟨"priority", 0, priority⟩]
  | contended ceiling => Failure.checkBounds "Contended" [⟨"ceiling", 0, ceiling⟩]

/-- The transition, refused if it leads to a negative level. -/
def next? (current : Option Ownership) (priority : Int) : Except Failure (Ownership × Bool) := do
  let (updated, met) := next current priority
  updated.check
  pure (updated, met)

end Ownership

abbrev Ownerships := Table String Ownership

namespace Ownerships

def readReason (resource : String) (current : Option Ownership) (priority : Int) : String :=
  "'" ++ resource ++ "' is read at priorities " ++
    toString ((current.map Ownership.level).getD 0) ++ " and " ++ toString priority

def requireRead (app : App) (ledger : Ledger) (resource reason : String) : Ledger :=
  match app.resources.get? resource with
  | some declared => ledger.require .concurrentRead declared.ty reason
  | none => ledger

def update (ownerships : Ownerships) (ledger : Ledger) (resource : String)
    (updated : Ownership) : Ownerships × Ledger :=
  let current := ownerships.get? resource
  if current = some updated then (ownerships, ledger)
  else (ownerships.insert resource updated,
    ledger.note (.ownershipChange resource (current.map Ownership.text) updated.text))

/-- Writes the transition that an access has made.  A shared access that met another
level lays the reading obligation. -/
def record (app : App) (state : Ownerships × Ledger) (access : Access) (priority : Int)
    (transition : Ownership × Bool) : Ownerships × Ledger :=
  let (ownerships, ledger) := state
  let ledger :=
    if transition.2 ∧ access.mode = .shared then
      requireRead app ledger access.resource
        (readReason access.resource (ownerships.get? access.resource) priority)
    else ledger
  ownerships.update ledger access.resource transition.1

def addAccess (app : App) (state : Ownerships × Ledger) (access : Access) :
    Except Failure (Ownerships × Ledger) :=
  match access.priority with
  | none => .ok state
  | some priority =>
      (Ownership.next? (state.1.get? access.resource) priority).map
        (record app state access priority)

def ofAccesses (app : App) (accesses : List Access) (ledger : Ledger) :
    Except Failure (Ownerships × Ledger) :=
  accesses.foldlM (addAccess app) (∅, ledger)

end Ownerships

end StackPolicy
