import StackPolicy.Context
import StackPolicy.Text.Quoted

/-!
# Violated guarantees

The analysis relies on guarantees about its application: resources and message
targets are declared, access modes and cores do not clash, every late resource
is initialized exactly once, and no interrupt is bound twice.
`App.violations` lists every breach, and is empty for a sound application.
-/

namespace StackPolicy

inductive Violation where
  | coreOutOfRange (kind : ContextKind) (name : String) (core cores : Int)
  | undeclaredResource (context resource : String)
  | lateAccessFromInit (resource : String) (core : Int)
  | undeclaredTarget (context task : String)
  | exclusiveFromCores (resource : String) (cores : List Int)
  | mixedModes (resource : String)
  | claimNotLate (core : Int) (resource : String)
  | claimedTwice (resource : String) (first second : Int)
  | severalRests (cores : List Int)
  | neverInitialized (resources : List String)
  | boundTwice (interrupt : String) (core : Int) (first second : String)
  deriving DecidableEq, Repr

namespace Violation

def inQuotes (name : String) : String := "'" ++ name ++ "'"

def showCores (cores : List Int) : String := Text.bracketed (cores.map toString)

def message : Violation → String
  | coreOutOfRange kind name core cores =>
      kind.label ++ " " ++ inQuotes name ++ " runs on core " ++ toString core ++
        ", but there are " ++ toString cores ++ " core(s)"
  | undeclaredResource context resource =>
      context ++ " accesses undeclared resource " ++ inQuotes resource
  | lateAccessFromInit resource core =>
      "late resource " ++ inQuotes resource ++ " is accessed from init on core " ++ toString core
  | undeclaredTarget context task =>
      context ++ " sends messages to undeclared software task " ++ inQuotes task
  | exclusiveFromCores resource cores =>
      "resource " ++ inQuotes resource ++ " is exclusively accessed from cores " ++ showCores cores
  | mixedModes resource =>
      "resource " ++ inQuotes resource ++ " is accessed both exclusively and shared"
  | claimNotLate core resource =>
      "init on core " ++ toString core ++ " claims " ++ inQuotes resource ++
        ", which is not a late resource"
  | claimedTwice resource first second =>
      "late resource " ++ inQuotes resource ++ " is claimed by cores " ++ toString first ++
        " and " ++ toString second
  | severalRests cores =>
      "init routines on cores " ++ showCores cores ++ " all take the remaining late resources"
  | neverInitialized resources =>
      "late resources " ++ Text.bracketed (resources.map Text.quoted) ++ " are never initialized"
  | boundTwice interrupt core first second =>
      inQuotes interrupt ++ " on core " ++ toString core ++ " is bound by both " ++
        inQuotes first ++ " and " ++ inQuotes second

end Violation

namespace Context

/-! ## Breaches inside one context -/

def coreViolations (app : App) (context : Context) : List Violation :=
  if 0 ≤ context.core ∧ context.core < app.cores then []
  else [.coreOutOfRange context.kind context.name context.core app.cores]

def resourceViolations (app : App) (context : Context) : List Violation :=
  context.resources.keys.flatMap fun resource =>
    if !app.resources.contains resource then [.undeclaredResource context.name resource]
    else if context.isInit && app.lateResources.contains resource then
      [.lateAccessFromInit resource context.core]
    else []

def targetViolations (app : App) (context : Context) : List Violation :=
  (context.spawn ++ context.schedule).flatMap fun task =>
    if app.softwareTasks.contains task then [] else [.undeclaredTarget context.name task]

def violations (app : App) (context : Context) : List Violation :=
  context.coreViolations app ++ context.resourceViolations app ++ context.targetViolations app

end Context

namespace App

/-! ## Clashing accesses -/

def declaredAccesses (app : App) : List Access :=
  app.accesses.filter fun access => app.resources.contains access.resource

/-- The resources of some accesses, each once, in the order of the first access. -/
def resourcesOf (accesses : List Access) : List String :=
  (accesses.map Access.resource).eraseDups

def exclusiveViolations (app : App) : List Violation :=
  let exclusive := app.declaredAccesses.filter fun access => access.mode = .exclusive
  (resourcesOf exclusive).flatMap fun resource =>
    let cores := SortedSet.ofList
      ((exclusive.filter fun access => access.resource = resource).map Access.core)
    if 1 < cores.size then [.exclusiveFromCores resource cores.toList] else []

def modeViolations (app : App) : List Violation :=
  let accesses := app.declaredAccesses
  (resourcesOf accesses).flatMap fun resource =>
    let modes := (accesses.filter fun access => access.resource = resource).map Access.mode
    if .exclusive ∈ modes ∧ .shared ∈ modes then [.mixedModes resource] else []

/-! ## Claims on late resources -/

/-- Every claim of an initialization routine, in the order of the cores. -/
def claims (app : App) : List (Int × String) :=
  app.initsByCore.flatMap fun init => init.late.map fun resource => (init.core, resource)

/-- The cores whose initialization takes the rest of the late resources. -/
def restCores (app : App) : List Int :=
  (app.initsByCore.filter fun init => init.late.isEmpty).map fun init => init.core

/-- The breaches of a list of claims, where `claimed` tells who claimed first. -/
def claimViolations (late : Table String Resource) :
    (claimed : Table String Int) → List (Int × String) → List Violation
  | _, [] => []
  | claimed, (core, resource) :: rest =>
      if late.contains resource then
        match claimed.get? resource with
        | some first => .claimedTwice resource first core :: claimViolations late claimed rest
        | none => claimViolations late (claimed.insert resource core) rest
      else .claimNotLate core resource :: claimViolations late claimed rest

def restViolations (app : App) : List Violation :=
  if !app.lateResources.rows.isEmpty && 1 < app.restCores.length then
    [.severalRests app.restCores]
  else []

def unclaimedViolations (app : App) : List Violation :=
  let claimed := app.claims.map Prod.snd
  let unclaimed := SortedSet.ofList (app.lateResources.keys.filter (· ∉ claimed))
  if app.restCores.isEmpty && !unclaimed.isEmpty then [.neverInitialized unclaimed.toList] else []

/-! ## Interrupt bindings -/

def bindingViolations :
    (bound : Table (Int × String) String) → List (String × HardwareTask) → List Violation
  | _, [] => []
  | bound, (name, task) :: rest =>
      match bound.get? (task.core, task.binds) with
      | some first => .boundTwice task.binds task.core first name :: bindingViolations bound rest
      | none => bindingViolations (bound.insert (task.core, task.binds) name) rest

/-! ## All guarantees -/

/-- Every breach of the guarantees; empty for a sound application. -/
def violations (app : App) : List Violation :=
  app.contexts.flatMap (Context.violations app) ++
    app.exclusiveViolations ++
    app.modeViolations ++
    claimViolations app.lateResources ∅ app.claims ++
    app.restViolations ++
    app.unclaimedViolations ++
    bindingViolations ∅ app.hardwareTasks.rows

end App

end StackPolicy
