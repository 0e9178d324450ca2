import StackPolicy.Context
import StackPolicy.Table.Lemmas

/-!
# The contexts of an application

Only initialization has no priority, and only idle loops have priority 0.  A
context accesses a resource at most once, so the accesses to a resource are
the contexts that access it, in their order.
-/

namespace StackPolicy

/-! ## Cores and priorities -/

structure Context.WellFormed (context : Context) : Prop where
  core_nonneg : 0 ≤ context.core
  priority_eq_none_iff : context.priority = none ↔ context.isInit = true
  priority_nonneg : ∀ priority, context.priority = some priority → 0 ≤ priority
  priority_eq_zero_iff : context.priority = some 0 ↔ context.kind = .idle

namespace Context

theorem wellFormed_ofInit (init : InitRoutine) : (ofInit init).WellFormed where
  core_nonneg := init.core_nonneg
  priority_eq_none_iff := by simp [ofInit, ofRoutine, isInit]
  priority_nonneg := by simp [ofInit, ofRoutine]
  priority_eq_zero_iff := by simp [ofInit, ofRoutine]

theorem wellFormed_ofIdle (idle : IdleRoutine) : (ofIdle idle).WellFormed where
  core_nonneg := idle.core_nonneg
  priority_eq_none_iff := by simp [ofIdle, ofRoutine, isInit]
  priority_nonneg := by simp [ofIdle, ofRoutine]
  priority_eq_zero_iff := by simp [ofIdle, ofRoutine]

theorem wellFormed_ofTask {kind : ContextKind} (name : String) {priority : Int}
    (routine : Routine) (task : kind = .hardwareTask ∨ kind = .softwareTask)
    (positive : 1 ≤ priority) :
    (ofRoutine kind name (some priority) routine).WellFormed where
  core_nonneg := routine.core_nonneg
  priority_eq_none_iff := by
    rcases task with rfl | rfl <;> simp [ofRoutine, isInit]
  priority_nonneg := by
    simp only [ofRoutine, Option.some.injEq]
    omega
  priority_eq_zero_iff := by
    have hzero : priority ≠ 0 := by omega
    rcases task with rfl | rfl <;> simp [ofRoutine, hzero]

end Context

namespace App

theorem mem_initsByCore {app : App} {init : InitRoutine} :
    init ∈ app.initsByCore ↔ init ∈ app.inits :=
  (List.mergeSort_perm app.inits _).mem_iff

theorem mem_idlesByCore {app : App} {idle : IdleRoutine} :
    idle ∈ app.idlesByCore ↔ idle ∈ app.idles :=
  (List.mergeSort_perm app.idles _).mem_iff

theorem mem_contexts {app : App} {context : Context} :
    context ∈ app.contexts ↔
      (∃ init ∈ app.inits, Context.ofInit init = context) ∨
      (∃ idle ∈ app.idles, Context.ofIdle idle = context) ∨
      (∃ row ∈ app.hardwareTasks.rows, Context.ofHardwareTask row.1 row.2 = context) ∨
      (∃ row ∈ app.softwareTasks.rows, Context.ofSoftwareTask row.1 row.2 = context) := by
  simp only [contexts, List.mem_append, List.mem_map, mem_initsByCore, mem_idlesByCore]
  simp only [or_assoc]

theorem wellFormed_of_mem_contexts {app : App} {context : Context}
    (member : context ∈ app.contexts) : context.WellFormed := by
  rcases mem_contexts.mp member with
    ⟨init, _, rfl⟩ | ⟨idle, _, rfl⟩ | ⟨row, _, rfl⟩ | ⟨row, _, rfl⟩
  · exact Context.wellFormed_ofInit init
  · exact Context.wellFormed_ofIdle idle
  · exact Context.wellFormed_ofTask row.1 _ (.inl rfl) row.2.priority_pos
  · exact Context.wellFormed_ofTask row.1 _ (.inr rfl) row.2.priority_pos

/-! ## Who accesses a resource -/

/-- The contexts that access a resource, initialization included. -/
def accessors (app : App) (resource : String) : List Context :=
  app.contexts.filter fun context => resource ∈ context.resources.keys

/-- The contexts with a priority that access a resource. -/
def users (app : App) (resource : String) : List Context :=
  (app.accessors resource).filter fun context => !context.isInit

theorem mem_accessors {app : App} {resource : String} {context : Context} :
    context ∈ app.accessors resource ↔
      context ∈ app.contexts ∧ resource ∈ context.resources.keys := by
  simp [accessors]

theorem mem_users {app : App} {resource : String} {context : Context} :
    context ∈ app.users resource ↔
      context ∈ app.contexts ∧ resource ∈ context.resources.keys ∧
        context.isInit = false := by
  simp [users, mem_accessors, and_assoc]

theorem exists_priority_of_mem_users {app : App} {resource : String} {context : Context}
    (member : context ∈ app.users resource) :
    ∃ priority, context.priority = some priority := by
  obtain ⟨hcontext, -, hinit⟩ := mem_users.mp member
  have hsome : context.priority ≠ none := fun h => by
    rw [(wellFormed_of_mem_contexts hcontext).priority_eq_none_iff.mp h] at hinit
    cases hinit
  exact Option.ne_none_iff_exists'.mp hsome

end App

/-! ## Accesses to one resource -/

namespace Access

def toResource (resource : String) (accesses : List Access) : List Access :=
  accesses.filter fun access => access.resource = resource

def coresOf (resource : String) (accesses : List Access) : List Int :=
  (toResource resource accesses).map Access.core

def prioritiesOf (resource : String) (accesses : List Access) : List Int :=
  (toResource resource accesses).filterMap Access.priority

theorem toResource_cons (resource : String) (access : Access) (accesses : List Access) :
    toResource resource (access :: accesses) =
      if access.resource = resource then access :: toResource resource accesses
      else toResource resource accesses := by
  simp [toResource, List.filter_cons]

end Access

theorem Context.toResource_accesses (context : Context) (resource : String) :
    Access.toResource resource context.accesses =
      ((context.resources.get? resource).map fun mode =>
        (⟨context.core, context.priority, resource, mode⟩ : Access)).toList := by
  have hrows := context.resources.filter_rows_eq_toList resource
  unfold Access.toResource Context.accesses
  rw [List.filter_map]
  change List.map _ (context.resources.rows.filter fun row => row.1 = resource) = _
  rw [hrows]
  cases context.resources.get? resource <;> rfl

namespace App

private theorem places_flatMap (contexts : List Context) (resource : String) :
    ((Access.toResource resource (contexts.flatMap Context.accesses)).map
        fun access => (access.core, access.priority)) =
      (contexts.filter fun context => resource ∈ context.resources.keys).map
        fun context => (context.core, context.priority) := by
  induction contexts with
  | nil => rfl
  | cons context contexts ih =>
      have hhead := context.toResource_accesses resource
      unfold Access.toResource at ih hhead ⊢
      rw [List.flatMap_cons, List.filter_append, List.map_append, ih, hhead]
      cases found : context.resources.get? resource with
      | none =>
          have absent := Table.get?_eq_none_iff.mp found
          simp [absent]
      | some mode =>
          have present := Table.mem_keys_iff.mpr ⟨mode, found⟩
          simp [present]

/-- Where and at which priorities a resource is accessed is read off its accessors. -/
theorem places_accesses (app : App) (resource : String) :
    ((Access.toResource resource app.accesses).map
        fun access => (access.core, access.priority)) =
      (app.accessors resource).map fun context => (context.core, context.priority) :=
  places_flatMap app.contexts resource

theorem coresOf_accesses (app : App) (resource : String) :
    Access.coresOf resource app.accesses = (app.accessors resource).map Context.core := by
  have h := congrArg (List.map Prod.fst) (app.places_accesses resource)
  simpa [Access.coresOf, Function.comp_def] using h

private theorem filterMap_priority {contexts : List Context}
    (wellFormed : ∀ context ∈ contexts, context.WellFormed) :
    contexts.filterMap Context.priority =
      (contexts.filter fun context => !context.isInit).filterMap Context.priority := by
  induction contexts with
  | nil => rfl
  | cons context contexts ih =>
      have hrest := ih fun other member => wellFormed other (List.mem_cons_of_mem _ member)
      have hnone := (wellFormed context List.mem_cons_self).priority_eq_none_iff
      cases hinit : context.isInit with
      | true => simp [hinit, hnone.mpr hinit, hrest]
      | false => simp [hinit, List.filterMap_cons, hrest]

theorem prioritiesOf_accesses (app : App) (resource : String) :
    Access.prioritiesOf resource app.accesses =
      (app.users resource).filterMap Context.priority := by
  have h := congrArg (List.filterMap Prod.snd) (app.places_accesses resource)
  rw [List.filterMap_map, List.filterMap_map] at h
  unfold Access.prioritiesOf
  rw [users, ← filterMap_priority fun context member =>
    wellFormed_of_mem_contexts (mem_accessors.mp member).1]
  exact h

theorem mem_prioritiesOf_accesses {app : App} {resource : String} {priority : Int} :
    priority ∈ Access.prioritiesOf resource app.accesses ↔
      ∃ context ∈ app.users resource, context.priority = some priority := by
  rw [prioritiesOf_accesses, List.mem_filterMap]

end App

end StackPolicy
