import StackPolicy.Proofs.Compression
import StackPolicy.Proofs.Contexts
import StackPolicy.Proofs.Rearrangement

/-!
# Applications declared in another order

The order of declarations is that of the routines, of the tables, and of the
resources, messages and claims of every context.  Whatever it is, the contexts
make the same accesses and send the same messages.
-/

namespace StackPolicy

/-! ## The same declarations in another order -/

structure Routine.Reordered (first second : Routine) : Prop where
  core : first.core = second.core
  resources : first.resources.rows.Perm second.resources.rows
  spawn : first.spawn.Perm second.spawn
  schedule : first.schedule.Perm second.schedule

structure InitRoutine.Reordered (first second : InitRoutine) : Prop
    extends Routine.Reordered first.toRoutine second.toRoutine where
  late : first.late.Perm second.late

structure IdleRoutine.Reordered (first second : IdleRoutine) : Prop
    extends Routine.Reordered first.toRoutine second.toRoutine where

structure HardwareTask.Reordered (first second : HardwareTask) : Prop
    extends Routine.Reordered first.toRoutine second.toRoutine where
  binds : first.binds = second.binds
  priority : first.priority = second.priority

structure SoftwareTask.Reordered (first second : SoftwareTask) : Prop
    extends Routine.Reordered first.toRoutine second.toRoutine where
  priority : first.priority = second.priority
  capacity : first.capacity = second.capacity
  inputs : first.inputs = second.inputs

/-- Two applications that differ in the order of their declarations alone. -/
structure App.Reordered (first second : App) : Prop where
  cores : first.cores = second.cores
  inits : Rearranged InitRoutine.Reordered first.inits second.inits
  idles : Rearranged IdleRoutine.Reordered first.idles second.idles
  resources : first.resources.rows.Perm second.resources.rows
  hardwareTasks : first.hardwareTasks.Rearranged HardwareTask.Reordered second.hardwareTasks
  softwareTasks : first.softwareTasks.Rearranged SoftwareTask.Reordered second.softwareTasks

structure Context.Reordered (first second : Context) : Prop where
  kind : first.kind = second.kind
  name : first.name = second.name
  core : first.core = second.core
  priority : first.priority = second.priority
  resources : first.resources.rows.Perm second.resources.rows
  spawn : first.spawn.Perm second.spawn
  schedule : first.schedule.Perm second.schedule

structure Message.Reordered (first second : Message) : Prop where
  sender : first.sender.Reordered second.sender
  receiver : first.receiver = second.receiver

/-! ## Contexts -/

namespace Context

theorem reordered_ofRoutine {kind : ContextKind} {name : String} {priority : Option Int}
    {first second : Routine} (h : first.Reordered second) :
    (ofRoutine kind name priority first).Reordered (ofRoutine kind name priority second) where
  kind := rfl
  name := rfl
  core := h.core
  priority := rfl
  resources := h.resources
  spawn := h.spawn
  schedule := h.schedule

namespace Reordered

variable {first second : Context} (h : first.Reordered second)

include h

theorem isInit : first.isInit = second.isInit := by
  unfold Context.isInit
  rw [h.kind]

theorem perm_accesses : first.accesses.Perm second.accesses := by
  unfold accesses
  rw [h.core, h.priority]
  exact h.resources.map _

theorem spawned : Rearranged Message.Reordered first.spawned second.spawned :=
  (Rearranged.of_perm h.spawn).map fun _ _ same => ⟨h, same⟩

theorem scheduled : Rearranged Message.Reordered first.scheduled second.scheduled :=
  (Rearranged.of_perm h.schedule).map fun _ _ same => ⟨h, same⟩

end Reordered

end Context

namespace App.Reordered

variable {first second : App} (h : first.Reordered second)

include h

theorem initsByCore : Rearranged InitRoutine.Reordered first.initsByCore second.initsByCore :=
  h.inits.congr (List.mergeSort_perm _ _) (List.mergeSort_perm _ _)

theorem idlesByCore : Rearranged IdleRoutine.Reordered first.idlesByCore second.idlesByCore :=
  h.idles.congr (List.mergeSort_perm _ _) (List.mergeSort_perm _ _)

theorem contexts : Rearranged Context.Reordered first.contexts second.contexts := by
  unfold App.contexts
  refine ((Rearranged.append ?_ ?_).append ?_).append ?_
  · exact h.initsByCore.map fun _ _ similar =>
      Context.reordered_ofRoutine similar.toReordered
  · exact h.idlesByCore.map fun _ _ similar =>
      Context.reordered_ofRoutine similar.toReordered
  · apply h.hardwareTasks.map
    rintro ⟨name, task⟩ ⟨_, other⟩ ⟨rfl, similar⟩
    unfold Context.ofHardwareTask
    rw [similar.priority]
    exact Context.reordered_ofRoutine similar.toReordered
  · apply h.softwareTasks.map
    rintro ⟨name, task⟩ ⟨_, other⟩ ⟨rfl, similar⟩
    unfold Context.ofSoftwareTask
    rw [similar.priority]
    exact Context.reordered_ofRoutine similar.toReordered

theorem perm_accesses : first.accesses.Perm second.accesses :=
  h.contexts.perm_flatMap fun _ _ similar => similar.perm_accesses

theorem spawned : Rearranged Message.Reordered first.spawned second.spawned :=
  h.contexts.flatMap fun _ _ similar => similar.spawned

theorem scheduled : Rearranged Message.Reordered first.scheduled second.scheduled :=
  h.contexts.flatMap fun _ _ similar => similar.scheduled

theorem usedCores : first.usedCores = second.usedCores := by
  have hcores := h.contexts.perm_map fun _ _ similar => similar.core
  ext core
  unfold App.usedCores
  rw [SortedSet.mem_ofList, SortedSet.mem_ofList, hcores.mem_iff]

/-! ## Declared resources and tasks -/

theorem get?_resources (name : String) :
    first.resources.get? name = second.resources.get? name :=
  Table.get?_of_perm h.resources name

theorem perm_lateResources : first.lateResources.rows.Perm second.lateResources.rows :=
  h.resources.filter _

theorem mem_keys_resources {name : String} :
    name ∈ first.resources.keys ↔ name ∈ second.resources.keys :=
  (h.resources.map Prod.fst).mem_iff

theorem mem_keys_lateResources {name : String} :
    name ∈ first.lateResources.keys ↔ name ∈ second.lateResources.keys :=
  (h.perm_lateResources.map Prod.fst).mem_iff

theorem mem_keys_softwareTasks {name : String} :
    name ∈ first.softwareTasks.keys ↔ name ∈ second.softwareTasks.keys :=
  h.softwareTasks.perm_keys.mem_iff

theorem get?_taskPriorities (name : String) :
    first.taskPriorities.get? name = second.taskPriorities.get? name := by
  rw [App.get?_taskPriorities, App.get?_taskPriorities,
    h.softwareTasks.map_get? fun _ _ similar => similar.priority,
    h.hardwareTasks.map_get? fun _ _ similar => similar.priority]

/-! ## New priorities -/

theorem prioritiesOn (core : Int) : first.prioritiesOn core = second.prioritiesOn core := by
  have hmem (app : App) (priority : Int) : priority ∈ app.prioritiesOn core ↔
      (∃ row ∈ app.hardwareTasks.rows, row.2.core = core ∧ row.2.priority = priority) ∨
        ∃ row ∈ app.softwareTasks.rows, row.2.core = core ∧ row.2.priority = priority := by
    unfold App.prioritiesOn Table.values
    simp only [SortedSet.mem_ofList, List.mem_append, List.mem_map, List.mem_filter,
      decide_eq_true_eq, and_assoc, exists_exists_and_eq_and]
  ext priority
  rw [hmem, hmem]
  apply or_congr
  · exact h.hardwareTasks.exists_iff fun row other similar => by
      rw [similar.2.core, similar.2.priority]
  · exact h.softwareTasks.exists_iff fun row other similar => by
      rw [similar.2.core, similar.2.priority]

theorem rank (core priority : Int) : first.rank core priority = second.rank core priority := by
  unfold App.rank
  rw [h.prioritiesOn]

theorem compressed : first.compressed.Reordered second.compressed where
  cores := h.cores
  inits := h.inits
  idles := h.idles
  resources := h.resources
  hardwareTasks := h.hardwareTasks.mapValues fun task other similar =>
    { similar with
      priority := by
        simp only [renumberHardware, similar.core, similar.priority, h.rank] }
  softwareTasks := h.softwareTasks.mapValues fun task other similar =>
    { similar with
      priority := by
        simp only [renumberSoftware, similar.core, similar.priority, h.rank] }

end App.Reordered

end StackPolicy
