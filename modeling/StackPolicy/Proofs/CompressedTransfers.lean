import StackPolicy.Proofs.InitBarriers
import StackPolicy.Proofs.NewNumbers
import StackPolicy.Proofs.RunResults
import StackPolicy.Proofs.TransferSafety

/-!
# Transfers after compression

Locations, barriers and the late partition do not read priorities.  Whether a
type moves depends on priorities in two places: an idle loop may be the only
user of a resource, and a message may stay at its priority on its core.  New
numbers change neither.
-/

namespace StackPolicy

namespace App

/-! ## Messages -/

def renumberMessage (app : App) (message : Message) : Message :=
  { message with sender := app.renumber message.sender }

theorem spawned_compressed (app : App) :
    app.compressed.spawned = app.spawned.map app.renumberMessage := by
  unfold spawned
  rw [contexts_compressed, List.flatMap_map, List.map_flatMap]
  simp [Context.spawned, Function.comp_def, renumberMessage]

theorem scheduled_compressed (app : App) :
    app.compressed.scheduled = app.scheduled.map app.renumberMessage := by
  unfold scheduled
  rw [contexts_compressed, List.flatMap_map, List.map_flatMap]
  simp [Context.scheduled, Function.comp_def, renumberMessage]

theorem priority_renumberSoftware (app : App) (task : SoftwareTask) :
    (app.renumberSoftware task).priority = app.numberOf task.core task.priority := by
  have hpositive := task.priority_pos
  unfold numberOf
  rw [if_neg (by omega)]
  rfl

/-- A context has the new number of a task of its core exactly if it has its priority. -/
theorem priority_renumber_eq_iff {app : App} {context : Context}
    (member : context ∈ app.contexts) {name : String} {task : SoftwareTask}
    (found : app.softwareTasks.get? name = some task) (same : context.core = task.core) :
    (app.renumber context).priority = some (app.renumberSoftware task).priority ↔
      context.priority = some task.priority := by
  rw [priority_renumber member, priority_renumberSoftware, same]
  cases hpriority : context.priority with
  | none => simp
  | some priority =>
      have hcontext := runsAt_of_mem_contexts member hpriority
      rw [same] at hcontext
      have htask : app.RunsAt task.core task.priority :=
        .inr (mem_prioritiesOn_of_software (Table.get?_eq_some_iff.mp found))
      rw [Option.map_some, Option.some.injEq, Option.some.injEq]
      exact numberOf_eq_numberOf_iff hcontext htask

theorem leaves_renumber_iff {app : App} {sender : Context} (member : sender ∈ app.contexts)
    {name : String} {task : SoftwareTask} (found : app.softwareTasks.get? name = some task) :
    ((app.renumber sender).isInit = true ∨
      (app.renumber sender).core ≠ (app.renumberSoftware task).core ∨
      (app.renumber sender).priority ≠ some (app.renumberSoftware task).priority) ↔
    (sender.isInit = true ∨ sender.core ≠ task.core ∨ sender.priority ≠ some task.priority) := by
  rw [isInit_renumber, core_renumber]
  apply or_congr Iff.rfl
  by_cases hsame : sender.core = task.core
  · exact or_congr Iff.rfl (not_congr (priority_renumber_eq_iff member found hsame))
  · exact iff_of_true (.inl hsame) (.inl hsame)

/-! ## Resources -/

theorem idleAlone_compressed (app : App) (name : String) :
    app.compressed.IdleAlone name ↔ app.IdleAlone name := by
  unfold IdleAlone
  simp only [users_compressed, List.map_eq_singleton_iff]
  constructor
  · rintro ⟨_, ⟨idle, hidle, rfl⟩, hkind⟩
    exact ⟨idle, hidle, by rwa [kind_renumber] at hkind⟩
  · rintro ⟨idle, hidle, hkind⟩
    exact ⟨_, ⟨idle, hidle, rfl⟩, by rwa [kind_renumber]⟩

end App

namespace Analysis

/-! ## Passes that do not read priorities -/

theorem locationsOf_compressed (app : App) (late : LatePartition) :
    locationsOf app.compressed late = locationsOf app late := by
  unfold locationsOf
  rw [App.accesses_compressed, List.foldl_map]
  rfl

theorem barriers_compressed (app : App) (late : LatePartition) :
    Barriers.ofAccesses app.compressed.accesses late = .ofAccesses app.accesses late := by
  unfold Barriers.ofAccesses
  rw [App.accesses_compressed, List.foldl_map]
  rfl

/-! ## The three ways of a type -/

theorem transferByLate_compressed (app : App) (late : LatePartition) (ty : String) :
    TransferByLate app.compressed late ty ↔ TransferByLate app late ty := by
  unfold TransferByLate
  have halone (name : String) :
      (∃ idle, app.compressed.accessors name = [idle] ∧ idle.kind = .idle ∧
        ∀ core, late.initializerOf? name = some core → core = idle.core) ↔
      ∃ idle, app.accessors name = [idle] ∧ idle.kind = .idle ∧
        ∀ core, late.initializerOf? name = some core → core = idle.core := by
    simp only [App.accessors_compressed, List.map_eq_singleton_iff]
    constructor
    · rintro ⟨_, ⟨idle, hidle, rfl⟩, hkind, hown⟩
      rw [App.kind_renumber] at hkind
      rw [App.core_renumber] at hown
      exact ⟨idle, hidle, hkind, hown⟩
    · rintro ⟨idle, hidle, hkind, hown⟩
      refine ⟨_, ⟨idle, hidle, rfl⟩, ?_, ?_⟩
      · rwa [App.kind_renumber]
      · rwa [App.core_renumber]
  simp only [halone, App.users_compressed, ne_eq, List.map_eq_nil_iff]
  rfl

theorem transferByInit_compressed (app : App) (ty : String) :
    TransferByInit app.compressed ty ↔ TransferByInit app ty := by
  unfold TransferByInit
  simp only [App.idleAlone_compressed, App.users_compressed, App.contexts_compressed, ne_eq,
    List.map_eq_nil_iff, List.mem_map, exists_exists_and_eq_and, App.isInit_renumber,
    App.resources_renumber]
  rfl

theorem transferByMessage_compressed (app : App) (ty : String) :
    TransferByMessage app.compressed ty ↔ TransferByMessage app ty := by
  unfold TransferByMessage
  rw [App.spawned_compressed, App.scheduled_compressed, ← List.map_append]
  simp only [List.mem_map, exists_exists_and_eq_and]
  apply exists_congr
  intro message
  apply and_congr_right
  intro member
  have hsender := sender_mem_contexts member
  simp only [App.get?_softwareTasks_compressed, App.renumberMessage, Option.map_eq_some_iff]
  constructor
  · rintro ⟨_, ⟨task, htask, rfl⟩, hinput, hmoves⟩
    exact ⟨task, htask, hinput, (App.leaves_renumber_iff hsender htask).mp hmoves⟩
  · rintro ⟨task, htask, hinput, hmoves⟩
    exact ⟨_, ⟨task, htask, rfl⟩, hinput, (App.leaves_renumber_iff hsender htask).mpr hmoves⟩

/-! ## Runs -/

/-- New numbers leave the types that have to be safe to transfer, and all that does not read
priorities, as they are. -/
theorem transferSafe_compressed {app : App} (h : app.violations = []) (settings : Settings) :
    ∃ plain lines compressed reports,
      run { settings with optimizePriorities := false } app = .ok (plain, lines) ∧
      run { settings with optimizePriorities := true } app = .ok (compressed, reports) ∧
      compressed.transferSafe = plain.transferSafe ∧
      compressed.locations = plain.locations ∧
      compressed.lateResources = plain.lateResources ∧
      compressed.initializationBarriers = plain.initializationBarriers := by
  have hsound := App.sound_of_violations h
  obtain ⟨late, timer, planned, hplain⟩ := exists_derives hsound
  obtain ⟨again, another, others, hcompressed⟩ := exists_derives hsound.compressed
  obtain rfl : again = late := Except.ok.inj (hcompressed.late_eq.symm.trans hplain.late_eq)
  refine ⟨_, _, _, _, hplain.run_plain h settings, hcompressed.run_compressed h settings,
    ?_, locationsOf_compressed app again, rfl, barriers_compressed app again⟩
  change others.2.transfer = planned.2.transfer
  ext ty
  rw [hcompressed.mem_transfer hsound.compressed, hplain.mem_transfer hsound,
    mem_transfer_safetyOf hsound.compressed, mem_transfer_safetyOf hsound,
    exists_message_moves_iff, exists_message_moves_iff, transferByLate_compressed,
    transferByInit_compressed, transferByMessage_compressed]

theorem transferSafe_compressedPipeline :
    App.pipeline.violations = [] ∧ ∃ plain lines compressed reports,
      run ⟨false, true, true⟩ App.pipeline = .ok (plain, lines) ∧
      run ⟨true, true, true⟩ App.pipeline = .ok (compressed, reports) ∧
      compressed.transferSafe = plain.transferSafe := by
  obtain ⟨plain, lines, compressed, reports, hplain, hcompressed, htransfer, -⟩ :=
    transferSafe_compressed App.violations_pipeline ⟨true, true, true⟩
  exact ⟨App.violations_pipeline, plain, lines, compressed, reports, hplain, hcompressed,
    htransfer⟩

end Analysis

end StackPolicy
