import Mathlib.Data.List.Basic
import StackPolicy.Proofs.CleanApps

/-!
# The new numbers of priorities

The new numbers of a core are in the order of its priorities, and idle loops
stay below all tasks.  Compression gives every access the new number of its
priority, and keeps everything else of it.
-/

namespace StackPolicy

/-- The items below a bound stand first in an ascending list, so a higher bound has more of
them before it. -/
theorem length_takeWhile_lt_iff {sorted : List Int} (ascending : sorted.Pairwise (· < ·))
    {first : Int} (member : first ∈ sorted) (second : Int) :
    (sorted.takeWhile (· < first)).length < (sorted.takeWhile (· < second)).length ↔
      first < second := by
  induction sorted with
  | nil => cases member
  | cons head sorted ih =>
      rw [List.pairwise_cons] at ascending
      rcases List.mem_cons.mp member with rfl | later
      · by_cases habove : first < second <;> simp [habove]
      · have hhead := ascending.1 first later
        have hrest := ih ascending.2 later
        by_cases habove : head < second
        · simp [hhead, habove, hrest]
        · -- the first bound is above the head and the second is not, so neither side holds
          simp only [List.takeWhile_cons, hhead, habove, decide_true, decide_false, if_true,
            Bool.false_eq_true, if_false, List.length_cons, List.length_nil]
          omega

namespace App

/-! ## The order of the new numbers -/

/-- Whether contexts of a core may run at a priority: that of idle loops, or one of a task. -/
def RunsAt (app : App) (core priority : Int) : Prop :=
  priority = 0 ∨ priority ∈ app.prioritiesOn core

/-- The new numbers of the priorities of a core, where that of idle loops stays 0. -/
def numbersOn (app : App) (core : Int) : Table Int Int := (app.priorityMap core).insert 0 0

def numberOf (app : App) (core priority : Int) : Int :=
  if priority = 0 then 0 else app.rank core priority

section Numbers

variable {app : App} {core first second : Int}

theorem pos_of_mem_prioritiesOn (member : first ∈ app.prioritiesOn core) : 1 ≤ first := by
  unfold prioritiesOn at member
  rw [SortedSet.mem_ofList] at member
  rcases List.mem_append.mp member with hhardware | hsoftware
  · obtain ⟨task, -, rfl⟩ := List.mem_map.mp hhardware
    exact task.priority_pos
  · obtain ⟨task, -, rfl⟩ := List.mem_map.mp hsoftware
    exact task.priority_pos

theorem rank_lt_rank_iff (member : first ∈ app.prioritiesOn core) :
    app.rank core first < app.rank core second ↔ first < second := by
  have hlength := length_takeWhile_lt_iff (app.prioritiesOn core).ascending member second
  unfold rank
  rw [← hlength]
  omega

/-- New numbers are in the order of the priorities, those of idle loops included. -/
theorem numberOf_lt_numberOf_iff (hfirst : app.RunsAt core first)
    (hsecond : app.RunsAt core second) :
    app.numberOf core first < app.numberOf core second ↔ first < second := by
  have hone := app.one_le_rank core first
  have htwo := app.one_le_rank core second
  unfold numberOf
  rcases hfirst with rfl | hfirst
  · rcases hsecond with rfl | hsecond
    · rfl
    · have hpos := pos_of_mem_prioritiesOn hsecond
      rw [if_pos rfl, if_neg (by omega)]
      omega
  · have hpos := pos_of_mem_prioritiesOn hfirst
    rcases hsecond with rfl | hsecond
    · rw [if_neg (by omega), if_pos rfl]
      omega
    · have habove := pos_of_mem_prioritiesOn hsecond
      rw [if_neg (by omega), if_neg (by omega), Int.ofNat_lt]
      exact rank_lt_rank_iff hfirst

theorem numberOf_eq_numberOf_iff (hfirst : app.RunsAt core first)
    (hsecond : app.RunsAt core second) :
    app.numberOf core first = app.numberOf core second ↔ first = second := by
  have hbelow := numberOf_lt_numberOf_iff hfirst hsecond
  have habove := numberOf_lt_numberOf_iff hsecond hfirst
  omega

theorem get?_numbersOn (runs : app.RunsAt core first) :
    (app.numbersOn core).get? first = some (app.numberOf core first) := by
  unfold numbersOn numberOf
  rw [Table.get?_insert]
  rcases runs with rfl | member
  · rfl
  · have hpos := pos_of_mem_prioritiesOn member
    rw [if_neg (by omega), if_neg (by omega), get?_priorityMap member]

end Numbers

/-! ## Contexts -/

theorem runsAt_of_mem_contexts {app : App} {context : Context} (member : context ∈ app.contexts)
    {priority : Int} (found : context.priority = some priority) :
    app.RunsAt context.core priority := by
  rcases mem_contexts.mp member with
    ⟨init, -, rfl⟩ | ⟨idle, -, rfl⟩ | ⟨row, hrow, rfl⟩ | ⟨row, hrow, rfl⟩
  · cases found
  · cases found
    exact .inl rfl
  · cases found
    exact .inr (mem_prioritiesOn_of_hardware hrow)
  · cases found
    exact .inr (mem_prioritiesOn_of_software hrow)

theorem priority_renumber {app : App} {context : Context} (member : context ∈ app.contexts) :
    (app.renumber context).priority = context.priority.map (app.numberOf context.core) := by
  have htask {core priority : Int} (positive : 1 ≤ priority) :
      (app.rank core priority : Int) = app.numberOf core priority := by
    unfold numberOf
    rw [if_neg (by omega)]
  rcases mem_contexts.mp member with
    ⟨init, -, rfl⟩ | ⟨idle, -, rfl⟩ | ⟨row, -, rfl⟩ | ⟨row, -, rfl⟩
  · rfl
  · rfl
  · exact congrArg some (htask row.2.priority_pos)
  · exact congrArg some (htask row.2.priority_pos)

@[simp] theorem kind_renumber (app : App) (context : Context) :
    (app.renumber context).kind = context.kind := by
  unfold renumber
  split <;> rfl

theorem accessors_compressed (app : App) (name : String) :
    app.compressed.accessors name = (app.accessors name).map app.renumber := by
  unfold accessors
  rw [contexts_compressed, List.filter_map]
  simp [Function.comp_def]

theorem users_compressed (app : App) (name : String) :
    app.compressed.users name = (app.users name).map app.renumber := by
  unfold users
  rw [accessors_compressed, List.filter_map]
  simp [Function.comp_def]

/-! ## Accesses -/

def renumberAccess (app : App) (access : Access) : Access :=
  { access with priority := access.priority.map (app.numberOf access.core) }

theorem accesses_compressed (app : App) :
    app.compressed.accesses = app.accesses.map app.renumberAccess := by
  unfold accesses
  rw [contexts_compressed, List.flatMap_map, List.map_flatMap]
  apply List.flatMap_congr
  intro context member
  unfold Context.accesses
  rw [List.map_map, core_renumber, resources_renumber, priority_renumber member]
  rfl

/-- Compression keeps accesses and interrupts from clashing. -/
theorem Unclashing.compressed {app : App} (h : app.Unclashing) : app.compressed.Unclashing := by
  constructor
  · simp only [accesses_compressed, List.forall_mem_map]
    exact h.one_core
  · simp only [accesses_compressed, List.forall_mem_map]
    exact h.one_mode
  · change ((app.hardwareTasks.rows.map fun row => (row.1, app.renumberHardware row.2)).map
      fun row => (row.2.core, row.2.binds)).Nodup
    rw [List.map_map]
    exact h.bindings_nodup

end App

end StackPolicy
