import Mathlib.Data.List.Nodup
import StackPolicy.Proofs.CleanApps

/-!
# Which applications are accepted

An application without violations is one that keeps its guarantees.  Here they
are said of the declarations alone: of the routines and tasks as they stand,
in any order, and not of the way in which they are checked.
-/

namespace StackPolicy

namespace App

/-- Whether a resource is declared without an initial value. -/
def DeclaresLate (app : App) (name : String) : Prop :=
  ∃ resource, app.resources.get? name = some resource ∧ resource.initial = none

/-- The guarantees of an application. -/
structure Guaranteed (app : App) : Prop where
  on_device : ∀ context ∈ app.contexts, context.core < app.cores
  resources_declared : ∀ context ∈ app.contexts, ∀ name ∈ context.resources.keys,
    name ∈ app.resources.keys
  exclusive_on_one_core : ∀ first ∈ app.contexts, ∀ second ∈ app.contexts, ∀ name,
    first.resources.get? name = some .exclusive → second.resources.get? name = some .exclusive →
      first.core = second.core
  exclusive_or_shared : ∀ first ∈ app.contexts, ∀ second ∈ app.contexts, ∀ name,
    first.resources.get? name = some .exclusive → second.resources.get? name ≠ some .shared
  inits_leave_late : ∀ init ∈ app.inits, ∀ name ∈ init.resources.keys, ¬app.DeclaresLate name
  claims_late : ∀ init ∈ app.inits, ∀ name ∈ init.late, app.DeclaresLate name
  claimed_once : ∀ name, app.DeclaresLate name →
    (app.inits.flatMap fun init => init.late).count name ≤ 1
  one_takes_rest : (∃ name, app.DeclaresLate name) →
    (app.inits.filter fun init => init.late = []).length ≤ 1
  nothing_left : (∀ init ∈ app.inits, init.late ≠ []) → ∀ name, app.DeclaresLate name →
    ∃ init ∈ app.inits, name ∈ init.late
  targets_declared : ∀ context ∈ app.contexts, ∀ name ∈ context.spawn ++ context.schedule,
    name ∈ app.softwareTasks.keys
  bound_once : ∀ first ∈ app.hardwareTasks.rows, ∀ second ∈ app.hardwareTasks.rows,
    first.2.core = second.2.core → first.2.binds = second.2.binds → first = second

section Said

variable {app : App}

/-! ## Accesses -/

theorem mem_accesses {access : Access} :
    access ∈ app.accesses ↔ ∃ context ∈ app.contexts, access.core = context.core ∧
      access.priority = context.priority ∧
      context.resources.get? access.resource = some access.mode := by
  unfold accesses Context.accesses
  simp only [List.mem_flatMap, List.mem_map]
  constructor
  · rintro ⟨context, member, row, hrow, rfl⟩
    exact ⟨context, member, rfl, rfl, Table.get?_eq_some_iff.mpr hrow⟩
  · rintro ⟨context, member, hcore, hpriority, found⟩
    refine ⟨context, member, _, Table.get?_eq_some_iff.mp found, ?_⟩
    rw [← hcore, ← hpriority]

theorem exists_access_of_get? {context : Context} (member : context ∈ app.contexts)
    {name : String} {mode : AccessMode} (found : context.resources.get? name = some mode) :
    ⟨context.core, context.priority, name, mode⟩ ∈ app.accesses :=
  mem_accesses.mpr ⟨context, member, rfl, rfl, found⟩

/-- Accesses do not clash exactly if contexts neither take a resource exclusively on two cores
nor take it exclusively and share it. -/
theorem accesses_unclashing_iff :
    ((∀ access ∈ app.accesses, ∀ other ∈ app.accesses, access.resource = other.resource →
        access.mode = .exclusive → other.mode = .exclusive → access.core = other.core) ∧
      ∀ access ∈ app.accesses, ∀ other ∈ app.accesses, access.resource = other.resource →
        access.mode = other.mode) ↔
    (∀ first ∈ app.contexts, ∀ second ∈ app.contexts, ∀ name,
      first.resources.get? name = some .exclusive →
        second.resources.get? name = some .exclusive → first.core = second.core) ∧
      ∀ first ∈ app.contexts, ∀ second ∈ app.contexts, ∀ name,
        first.resources.get? name = some .exclusive →
          second.resources.get? name ≠ some .shared := by
  constructor
  · rintro ⟨hcores, hmodes⟩
    refine ⟨fun first hfirst second hsecond name hone htwo => ?_,
      fun first hfirst second hsecond name hone htwo => ?_⟩
    · exact hcores _ (exists_access_of_get? hfirst hone) _ (exists_access_of_get? hsecond htwo)
        rfl rfl rfl
    · have hsame := hmodes _ (exists_access_of_get? hfirst hone) _
        (exists_access_of_get? hsecond htwo) rfl
      cases hsame
  · rintro ⟨hcores, hmodes⟩
    refine ⟨fun access member other hother hsame hone htwo => ?_,
      fun access member other hother hsame => ?_⟩
    · obtain ⟨first, hfirst, hcore, -, hfound⟩ := mem_accesses.mp member
      obtain ⟨second, hsecond, hothers, -, hagain⟩ := mem_accesses.mp hother
      rw [hone] at hfound
      rw [← hsame, htwo] at hagain
      rw [hcore, hothers]
      exact hcores first hfirst second hsecond _ hfound hagain
    · obtain ⟨first, hfirst, -, -, hfound⟩ := mem_accesses.mp member
      obtain ⟨second, hsecond, -, -, hagain⟩ := mem_accesses.mp hother
      rw [← hsame] at hagain
      cases hone : access.mode with
      | exclusive =>
          rw [hone] at hfound
          cases htwo : other.mode with
          | exclusive => rfl
          | shared =>
              rw [htwo] at hagain
              exact absurd hagain (hmodes first hfirst second hsecond _ hfound)
      | shared =>
          rw [hone] at hfound
          cases htwo : other.mode with
          | exclusive =>
              rw [htwo] at hagain
              exact absurd hfound (hmodes second hsecond first hfirst _ hagain)
          | shared => rfl

/-! ## Late resources -/

theorem mem_keys_lateResources_iff {name : String} :
    name ∈ app.lateResources.keys ↔ app.DeclaresLate name := by
  rw [mem_keys_lateResources]
  simp only [DeclaresLate, Resource.isLate, Option.isNone_iff_eq_none]

theorem lateResources_ne_nil_iff :
    app.lateResources.rows ≠ [] ↔ ∃ name, app.DeclaresLate name := by
  simp only [← mem_keys_lateResources_iff, Table.keys]
  rw [← List.isEmpty_eq_false_iff, List.isEmpty_eq_false_iff_exists_mem]
  constructor
  · rintro ⟨row, member⟩
    exact ⟨row.1, List.mem_map_of_mem member⟩
  · rintro ⟨name, member⟩
    obtain ⟨row, hrow, -⟩ := List.mem_map.mp member
    exact ⟨row, hrow⟩

theorem perm_claimed :
    (app.claims.map Prod.snd).Perm (app.inits.flatMap fun init => init.late) := by
  have hclaimed : app.claims.map Prod.snd = app.initsByCore.flatMap fun init => init.late := by
    unfold claims
    simp [List.map_flatMap, Function.comp_def]
  rw [hclaimed]
  exact (List.mergeSort_perm app.inits _).flatMap_right _

/-- Claims that are all late come once exactly if no late resource is claimed twice. -/
theorem claims_nodup_iff (late : ∀ init ∈ app.inits, ∀ name ∈ init.late, app.DeclaresLate name) :
    (app.claims.map Prod.snd).Nodup ↔ ∀ name, app.DeclaresLate name →
      (app.inits.flatMap fun init => init.late).count name ≤ 1 := by
  rw [perm_claimed.nodup_iff, List.nodup_iff_count_le_one]
  constructor
  · exact fun hall name _ => hall name
  · intro hall name
    by_cases hlate : app.DeclaresLate name
    · exact hall name hlate
    · rw [List.count_eq_zero_of_not_mem]
      · exact Nat.zero_le 1
      · intro member
        obtain ⟨init, hinit, hname⟩ := List.mem_flatMap.mp member
        exact hlate (late init hinit name hname)

theorem length_restCores :
    app.restCores.length = (app.inits.filter fun init => init.late = []).length := by
  unfold restCores
  rw [List.length_map]
  have hperm := (List.mergeSort_perm app.inits
    fun left right => left.core ≤ right.core).filter fun init => init.late.isEmpty
  have hrest : (fun init : InitRoutine => init.late.isEmpty) =
      fun init => decide (init.late = []) := by
    funext init
    cases init.late <;> rfl
  rw [← hrest]
  exact hperm.length_eq

theorem restCores_eq_nil_iff : app.restCores = [] ↔ ∀ init ∈ app.inits, init.late ≠ [] := by
  rw [List.eq_nil_iff_forall_not_mem]
  simp only [mem_restCores, not_exists, not_and]
  constructor
  · exact fun hnone init member hrest => hnone init.core init member hrest rfl
  · exact fun hnone core init member hrest _ => hnone init member hrest

/-! ## Interrupts -/

theorem bindings_nodup_iff :
    (app.hardwareTasks.rows.map fun row => (row.2.core, row.2.binds)).Nodup ↔
      ∀ first ∈ app.hardwareTasks.rows, ∀ second ∈ app.hardwareTasks.rows,
        first.2.core = second.2.core → first.2.binds = second.2.binds → first = second := by
  rw [List.nodup_map_iff_inj_on app.hardwareTasks.rows_nodup]
  simp only [Prod.mk.injEq, and_imp]

end Said

/-! ## All guarantees -/

/-- An application has no violations exactly if it keeps every guarantee. -/
theorem violations_eq_nil_iff_guaranteed (app : App) : app.violations = [] ↔ app.Guaranteed := by
  rw [violations_eq_nil_iff]
  constructor
  · rintro ⟨hsound, hclean⟩
    have hlate : ∀ init ∈ app.inits, ∀ name ∈ init.late, app.DeclaresLate name :=
      fun init member name hname =>
        mem_keys_lateResources_iff.mp (hsound.late_of_claim init member name hname)
    obtain ⟨hcores, hmodes⟩ := accesses_unclashing_iff.mp ⟨hclean.one_core, hclean.one_mode⟩
    constructor
    · exact hsound.core_lt
    · exact hsound.resource_declared
    · exact hcores
    · exact hmodes
    · intro init member name hname hdeclared
      exact hsound.not_late_of_init _ (mem_contexts.mpr (.inl ⟨init, member, rfl⟩)) rfl name hname
        (mem_keys_lateResources_iff.mpr hdeclared)
    · exact hlate
    · exact (claims_nodup_iff hlate).mp hsound.claims_nodup
    · intro hsome
      rw [← length_restCores]
      exact hsound.rests_le_one (lateResources_ne_nil_iff.mpr hsome)
    · intro hnone name hdeclared
      exact hsound.claimed_of_no_rest (restCores_eq_nil_iff.mpr hnone) name
        (mem_keys_lateResources_iff.mpr hdeclared)
    · exact hsound.target_declared
    · exact bindings_nodup_iff.mp hclean.bindings_nodup
  · intro h
    obtain ⟨hcores, hmodes⟩ :=
      accesses_unclashing_iff.mpr ⟨h.exclusive_on_one_core, h.exclusive_or_shared⟩
    refine ⟨?_, hcores, hmodes, bindings_nodup_iff.mpr h.bound_once⟩
    constructor
    · exact h.on_device
    · exact h.resources_declared
    · intro context member hinit name hname hlate
      rcases mem_contexts.mp member with
        ⟨init, hmember, rfl⟩ | ⟨idle, -, rfl⟩ | ⟨row, -, rfl⟩ | ⟨row, -, rfl⟩
      · exact h.inits_leave_late init hmember name hname (mem_keys_lateResources_iff.mp hlate)
      · cases hinit
      · cases hinit
      · cases hinit
    · exact h.targets_declared
    · exact fun init member name hname =>
        mem_keys_lateResources_iff.mpr (h.claims_late init member name hname)
    · exact (claims_nodup_iff h.claims_late).mpr h.claimed_once
    · intro hlate
      rw [length_restCores]
      exact h.one_takes_rest (lateResources_ne_nil_iff.mp hlate)
    · intro hnone name hlate
      exact h.nothing_left (restCores_eq_nil_iff.mp hnone) name
        (mem_keys_lateResources_iff.mp hlate)

end App

end StackPolicy
