import StackPolicy.Compression
import StackPolicy.Proofs.Guarantees
import StackPolicy.Proofs.Sequences

/-!
# The compressed application

Compression succeeds if the device has the core of every task, and then gives
every task the rank of its priority.  Nothing but the priorities changes.
-/

namespace StackPolicy

namespace App

/-! ## New numbers -/

theorem get?_priorityMap {app : App} {core priority : Int}
    (member : priority ∈ app.prioritiesOn core) :
    (app.priorityMap core).get? priority = some (app.rank core priority : Int) := by
  have hkey : priority ∈ (app.priorityMap core).keys := by
    unfold priorityMap
    rw [Table.mem_keys_ofList, List.map_map]
    exact List.mem_map.mpr ⟨priority, member, rfl⟩
  obtain ⟨number, found⟩ := Table.mem_keys_iff.mp hkey
  obtain ⟨other, -, same⟩ := List.mem_map.mp (Table.mem_of_get?_ofList found)
  cases same
  exact found

theorem newNumber_of_mem {app : App} {core priority : Int} (nonneg : 0 ≤ core)
    (inRange : core < app.cores) (member : priority ∈ app.prioritiesOn core) :
    app.newNumber core priority =
      .ok ⟨app.rank core priority, app.one_le_rank core priority⟩ := by
  have hrange : ¬(core < 0 ∨ app.cores ≤ core) := by omega
  have hfound := get?_priorityMap member
  unfold newNumber
  rw [if_neg hrange]
  split
  · rename_i number found
    rw [hfound] at found
    cases found
    rfl
  · rename_i absent
    rw [hfound] at absent
    cases absent

theorem newNumber_of_le {app : App} {core : Int} (outside : app.cores ≤ core) (priority : Int) :
    app.newNumber core priority = .error (.coreOutOfRange core) :=
  if_pos (.inr outside)

theorem mem_prioritiesOn_of_hardware {app : App} {row : String × HardwareTask}
    (member : row ∈ app.hardwareTasks.rows) :
    row.2.priority ∈ app.prioritiesOn row.2.core := by
  have hvalue : row.2 ∈ app.hardwareTasks.values := List.mem_map_of_mem member
  unfold prioritiesOn
  rw [SortedSet.mem_ofList]
  apply List.mem_append_left
  exact List.mem_map_of_mem (List.mem_filter.mpr ⟨hvalue, by simp⟩)

theorem mem_prioritiesOn_of_software {app : App} {row : String × SoftwareTask}
    (member : row ∈ app.softwareTasks.rows) :
    row.2.priority ∈ app.prioritiesOn row.2.core := by
  have hvalue : row.2 ∈ app.softwareTasks.values := List.mem_map_of_mem member
  unfold prioritiesOn
  rw [SortedSet.mem_ofList]
  apply List.mem_append_right
  exact List.mem_map_of_mem (List.mem_filter.mpr ⟨hvalue, by simp⟩)

/-! ## All tasks -/

def renumberHardware (app : App) (task : HardwareTask) : HardwareTask :=
  { task with
    priority := app.rank task.core task.priority
    priority_pos := app.one_le_rank task.core task.priority }

def renumberSoftware (app : App) (task : SoftwareTask) : SoftwareTask :=
  { task with
    priority := app.rank task.core task.priority
    priority_pos := app.one_le_rank task.core task.priority }

def compressed (app : App) : App :=
  { app with
    hardwareTasks := app.hardwareTasks.mapValues app.renumberHardware
    softwareTasks := app.softwareTasks.mapValues app.renumberSoftware }

theorem get?_hardwareTasks_compressed (app : App) (name : String) :
    app.compressed.hardwareTasks.get? name =
      (app.hardwareTasks.get? name).map app.renumberHardware :=
  Table.get?_mapRows _ _ name

theorem get?_softwareTasks_compressed (app : App) (name : String) :
    app.compressed.softwareTasks.get? name =
      (app.softwareTasks.get? name).map app.renumberSoftware :=
  Table.get?_mapRows _ _ name

/-- The cores of all tasks, hardware tasks first. -/
def taskCores (app : App) : List Int :=
  app.hardwareTasks.values.map (fun task => task.core) ++
    app.softwareTasks.values.map fun task => task.core

theorem compressHardwareTask_eq_ok {app : App} {row : String × HardwareTask}
    (member : row ∈ app.hardwareTasks.rows) (inRange : row.2.core < app.cores) :
    app.compressHardwareTask row.2 = .ok (app.renumberHardware row.2) := by
  unfold compressHardwareTask
  rw [newNumber_of_mem row.2.core_nonneg inRange (mem_prioritiesOn_of_hardware member)]
  rfl

theorem compressSoftwareTask_eq_ok {app : App} {row : String × SoftwareTask}
    (member : row ∈ app.softwareTasks.rows) (inRange : row.2.core < app.cores) :
    app.compressSoftwareTask row.2 = .ok (app.renumberSoftware row.2) := by
  unfold compressSoftwareTask
  rw [newNumber_of_mem row.2.core_nonneg inRange (mem_prioritiesOn_of_software member)]
  rfl

theorem mapRowsM_compressHardwareTask {app : App}
    (inRange : ∀ row ∈ app.hardwareTasks.rows, row.2.core < app.cores) :
    (app.hardwareTasks.mapRowsM fun _ => app.compressHardwareTask) =
      .ok (app.hardwareTasks.mapValues app.renumberHardware) :=
  Table.mapRowsM_eq_ok fun row member =>
    compressHardwareTask_eq_ok member (inRange row member)

theorem mapRowsM_compressSoftwareTask {app : App}
    (inRange : ∀ row ∈ app.softwareTasks.rows, row.2.core < app.cores) :
    (app.softwareTasks.mapRowsM fun _ => app.compressSoftwareTask) =
      .ok (app.softwareTasks.mapValues app.renumberSoftware) :=
  Table.mapRowsM_eq_ok fun row member =>
    compressSoftwareTask_eq_ok member (inRange row member)

theorem compress_eq_ok {app : App} (inRange : ∀ core ∈ app.taskCores, core < app.cores) :
    app.compress = .ok app.compressed := by
  have hhardware : ∀ row ∈ app.hardwareTasks.rows, row.2.core < app.cores :=
    fun row member => inRange _ (List.mem_append_left _
      (List.mem_map_of_mem (List.mem_map_of_mem member)))
  have hsoftware : ∀ row ∈ app.softwareTasks.rows, row.2.core < app.cores :=
    fun row member => inRange _ (List.mem_append_right _
      (List.mem_map_of_mem (List.mem_map_of_mem member)))
  unfold compress
  rw [bind_of_ok (mapRowsM_compressHardwareTask hhardware),
    bind_of_ok (mapRowsM_compressSoftwareTask hsoftware)]
  rfl

/-! ## Missing cores -/

private theorem mapRowsM_eq_coreOutOfRange {Task : Type} {table : Table String Task}
    {change : Task → Except Failure Task} {coreOf : Task → Int} {cores core : Int}
    (found : (table.values.map coreOf).find? (fun core => cores ≤ core) = some core)
    (outside : ∀ task, cores ≤ coreOf task →
      change task = .error (.coreOutOfRange (coreOf task)))
    (inside : ∀ row ∈ table.rows, coreOf row.2 < cores → ∃ result, change row.2 = .ok result) :
    (table.mapRowsM fun _ => change) = .error (.coreOutOfRange core) := by
  rw [List.find?_map] at found
  obtain ⟨task, htask, rfl⟩ := Option.map_eq_some_iff.mp found
  have houtside : cores ≤ coreOf task := by simpa using List.find?_some htask
  apply Table.mapRowsM_eq_error htask (outside task houtside)
  intro other member hother
  obtain ⟨row, hrow, rfl⟩ := List.mem_map.mp member
  exact inside row hrow (by simpa using hother)

/-- Compression fails at the first task whose core the device does not have. -/
theorem compress_eq_error {app : App} {core : Int}
    (found : app.taskCores.find? (fun core => app.cores ≤ core) = some core) :
    app.compress = .error (.coreOutOfRange core) := by
  unfold taskCores at found
  rw [List.find?_append] at found
  unfold compress
  cases hhardware : (app.hardwareTasks.values.map fun task => task.core).find?
      fun core => app.cores ≤ core with
  | some first =>
      rw [hhardware] at found
      cases found
      have hfails : (app.hardwareTasks.mapRowsM fun _ => app.compressHardwareTask) =
          .error (.coreOutOfRange core) := by
        apply mapRowsM_eq_coreOutOfRange hhardware
        · intro task houtside
          unfold compressHardwareTask
          rw [newNumber_of_le houtside]
          rfl
        · intro row member hinside
          exact ⟨_, compressHardwareTask_eq_ok member hinside⟩
      exact bind_of_error hfails _
  | none =>
      rw [hhardware, Option.none_or] at found
      have hinside : ∀ row ∈ app.hardwareTasks.rows, row.2.core < app.cores := by
        intro row member
        have hcore := List.find?_eq_none.mp hhardware row.2.core
          (List.mem_map_of_mem (List.mem_map_of_mem member))
        simpa using hcore
      have hfails : (app.softwareTasks.mapRowsM fun _ => app.compressSoftwareTask) =
          .error (.coreOutOfRange core) := by
        apply mapRowsM_eq_coreOutOfRange found
        · intro task houtside
          unfold compressSoftwareTask
          rw [newNumber_of_le houtside]
          rfl
        · intro row member hinside
          exact ⟨_, compressSoftwareTask_eq_ok member hinside⟩
      rw [bind_of_ok (mapRowsM_compressHardwareTask hinside)]
      exact bind_of_error hfails _

/-! ## Contexts -/

def renumber (app : App) (context : Context) : Context :=
  match context.kind with
  | .hardwareTask | .softwareTask =>
      { context with
        priority := context.priority.map fun priority => (app.rank context.core priority : Int) }
  | _ => context

theorem contexts_compressed (app : App) :
    app.compressed.contexts = app.contexts.map app.renumber := by
  simp only [contexts, List.map_append, List.map_map]
  simp only [compressed, Table.mapValues, Table.mapRows, List.map_map]
  rfl

section Renumbered

variable (app : App) (context : Context)

@[simp] theorem core_renumber : (app.renumber context).core = context.core := by
  unfold renumber
  split <;> rfl

@[simp] theorem spawn_renumber : (app.renumber context).spawn = context.spawn := by
  unfold renumber
  split <;> rfl

@[simp] theorem schedule_renumber : (app.renumber context).schedule = context.schedule := by
  unfold renumber
  split <;> rfl

@[simp] theorem resources_renumber :
    (app.renumber context).resources = context.resources := by
  unfold renumber
  split <;> rfl

@[simp] theorem isInit_renumber : (app.renumber context).isInit = context.isInit := by
  unfold renumber
  split <;> rfl

end Renumbered

/-- Compression keeps the guarantees, none of which is about priorities. -/
theorem Sound.compressed {app : App} (h : app.Sound) : app.compressed.Sound := by
  have hcontext : ∀ context ∈ app.compressed.contexts,
      ∃ original ∈ app.contexts, app.renumber original = context := by
    intro context member
    rw [contexts_compressed] at member
    exact List.mem_map.mp member
  constructor
  · intro context member
    obtain ⟨original, horiginal, rfl⟩ := hcontext context member
    rw [core_renumber]
    exact h.core_lt original horiginal
  · intro context member
    obtain ⟨original, horiginal, rfl⟩ := hcontext context member
    rw [resources_renumber]
    exact h.resource_declared original horiginal
  · intro context member
    obtain ⟨original, horiginal, rfl⟩ := hcontext context member
    rw [isInit_renumber, resources_renumber]
    exact h.not_late_of_init original horiginal
  · intro context member
    obtain ⟨original, horiginal, rfl⟩ := hcontext context member
    have hkeys : app.compressed.softwareTasks.keys = app.softwareTasks.keys :=
      Table.keys_mapRows _ _
    rw [spawn_renumber, schedule_renumber, hkeys]
    exact h.target_declared original horiginal
  · exact h.late_of_claim
  · exact h.claims_nodup
  · exact h.rests_le_one
  · exact h.claimed_of_no_rest

end App

end StackPolicy
