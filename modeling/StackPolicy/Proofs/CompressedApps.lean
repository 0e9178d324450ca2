import StackPolicy.Proofs.GapFree
import StackPolicy.Proofs.WrittenApps

/-!
# What compression keeps

Compression renumbers the tasks of each core in the order of their priorities
and leaves all else as it is.  No guarantee is about priorities, so the
violations of an application stay the same, and a second compression finds no
gap to close.
-/

namespace StackPolicy

/-! ## Applications that differ in priorities alone -/

def HardwareTask.levelled (task : HardwareTask) : HardwareTask :=
  { task with priority := 1, priority_pos := Int.le_refl 1 }

def SoftwareTask.levelled (task : SoftwareTask) : SoftwareTask :=
  { task with priority := 1, priority_pos := Int.le_refl 1 }

namespace App

/-- The application with the same priority for all tasks. -/
def levelled (app : App) : App :=
  { app with
    hardwareTasks := app.hardwareTasks.mapValues HardwareTask.levelled
    softwareTasks := app.softwareTasks.mapValues SoftwareTask.levelled }

theorem levelled_compressed (app : App) : app.compressed.levelled = app.levelled := by
  simp only [levelled, compressed, Table.mapValues, Table.mapRows, List.map_map]
  rfl

/-! ## Violations -/

@[simp] theorem name_renumber (app : App) (context : Context) :
    (app.renumber context).name = context.name := by
  unfold renumber
  split <;> rfl

theorem contextViolations_renumber (app : App) (context : Context) :
    (app.renumber context).violations app.compressed = context.violations app := by
  have hcontains (task : String) :
      app.compressed.softwareTasks.contains task = app.softwareTasks.contains task := by
    rw [Bool.eq_iff_iff, Table.contains_iff, Table.contains_iff]
    exact iff_of_eq (congrArg (task ∈ ·) (Table.keys_mapRows _ _))
  have hlate : app.compressed.lateResources = app.lateResources := rfl
  simp only [Context.violations, Context.coreViolations, Context.resourceViolations,
    Context.targetViolations, core_renumber, kind_renumber, name_renumber, resources_renumber,
    isInit_renumber, spawn_renumber, schedule_renumber, hcontains, hlate]
  rfl

theorem declaredAccesses_compressed (app : App) :
    app.compressed.declaredAccesses = app.declaredAccesses.map app.renumberAccess := by
  unfold declaredAccesses
  rw [accesses_compressed, List.filter_map]
  rfl

theorem exclusiveViolations_compressed (app : App) :
    app.compressed.exclusiveViolations = app.exclusiveViolations := by
  simp only [exclusiveViolations, resourcesOf, declaredAccesses_compressed, List.filter_map,
    List.map_map]
  rfl

theorem modeViolations_compressed (app : App) :
    app.compressed.modeViolations = app.modeViolations := by
  simp only [modeViolations, resourcesOf, declaredAccesses_compressed, List.filter_map,
    List.map_map]
  rfl

theorem bindingViolations_renumber (app : App) (rows : List (String × HardwareTask))
    (bound : Table (Int × String) String) :
    bindingViolations bound (rows.map fun row => (row.1, app.renumberHardware row.2)) =
      bindingViolations bound rows := by
  induction rows generalizing bound with
  | nil => rfl
  | cons row rows ih =>
      obtain ⟨name, task⟩ := row
      have hcore : (app.renumberHardware task).core = task.core := rfl
      have hbinds : (app.renumberHardware task).binds = task.binds := rfl
      simp only [List.map_cons, bindingViolations, hcore, hbinds, ih]

theorem violations_compressed (app : App) : app.compressed.violations = app.violations := by
  have hcontexts : app.compressed.contexts.flatMap (Context.violations app.compressed) =
      app.contexts.flatMap (Context.violations app) := by
    rw [contexts_compressed, List.flatMap_map]
    exact List.flatMap_congr fun context _ => contextViolations_renumber app context
  have hbindings : bindingViolations ∅ app.compressed.hardwareTasks.rows =
      bindingViolations ∅ app.hardwareTasks.rows :=
    bindingViolations_renumber app app.hardwareTasks.rows ∅
  unfold violations
  rw [hcontexts, exclusiveViolations_compressed, modeViolations_compressed, hbindings]
  rfl

end App

/-! ## Placements -/

/-- The kind and the name of a task. -/
inductive TaskKey where
  | hardware (name : String)
  | software (name : String)
  deriving DecidableEq

structure Placement where
  core : Int
  priority : Int
  deriving DecidableEq

namespace App

def placement? (app : App) : TaskKey → Option Placement
  | .hardware name => (app.hardwareTasks.get? name).map fun task => ⟨task.core, task.priority⟩
  | .software name => (app.softwareTasks.get? name).map fun task => ⟨task.core, task.priority⟩

theorem mem_prioritiesOn_of_placement? {app : App} {task : TaskKey} {core priority : Int}
    (found : app.placement? task = some ⟨core, priority⟩) :
    priority ∈ app.prioritiesOn core := by
  cases task with
  | hardware name =>
      obtain ⟨task, htask, hplace⟩ := Option.map_eq_some_iff.mp found
      cases hplace
      exact mem_prioritiesOn_of_hardware (Table.get?_eq_some_iff.mp htask)
  | software name =>
      obtain ⟨task, htask, hplace⟩ := Option.map_eq_some_iff.mp found
      cases hplace
      exact mem_prioritiesOn_of_software (Table.get?_eq_some_iff.mp htask)

theorem placement?_compressed {app : App} {task : TaskKey} {core priority : Int}
    (found : app.placement? task = some ⟨core, priority⟩) :
    app.compressed.placement? task = some ⟨core, app.rank core priority⟩ := by
  cases task with
  | hardware name =>
      obtain ⟨task, htask, hplace⟩ := Option.map_eq_some_iff.mp found
      cases hplace
      rw [placement?, get?_hardwareTasks_compressed, htask]
      rfl
  | software name =>
      obtain ⟨task, htask, hplace⟩ := Option.map_eq_some_iff.mp found
      cases hplace
      rw [placement?, get?_softwareTasks_compressed, htask]
      rfl

/-! ## All laws -/

/-- The tasks of each core have the numbers from 1 on in the order of their priorities, and
nothing else has changed. -/
structure CompressesTo (app result : App) : Prop where
  numbers : ∀ core, result.prioritiesOn core = .upTo (app.prioritiesOn core).size
  ordered : ∀ first second core priority other,
    app.placement? first = some ⟨core, priority⟩ → app.placement? second = some ⟨core, other⟩ →
      ∃ new again, result.placement? first = some ⟨core, new⟩ ∧
        result.placement? second = some ⟨core, again⟩ ∧
        (new < again ↔ priority < other) ∧ (new = again ↔ priority = other)
  lowered : ∀ task core priority, app.placement? task = some ⟨core, priority⟩ →
    ∃ new, result.placement? task = some ⟨core, new⟩ ∧ new ≤ priority
  levelled : result.levelled = app.levelled
  violations : result.violations = app.violations
  accepted : ofValue result.toValue = .ok result
  again : result.compress = .ok result
  unchanged : result = app ↔ app.GapFree

theorem taskCores_compressed (app : App) : app.compressed.taskCores = app.taskCores := by
  simp only [taskCores, compressed, Table.values_mapValues, List.map_map]
  rfl

/-- An application whose tasks run on cores of the device can be compressed.  Tasks of one core
compare as before and get no higher priority, all else is kept, and what comes out is valid and
has no gap left.  Nothing changes if there was none. -/
theorem compressesTo_of_inRange {app : App}
    (inRange : ∀ core ∈ app.taskCores, core < app.cores) :
    ∃ result, app.compress = .ok result ∧ app.CompressesTo result := by
  refine ⟨app.compressed, compress_eq_ok inRange, ?_⟩
  constructor
  · exact app.prioritiesOn_compressed
  · intro first second core priority other hfirst hsecond
    refine ⟨_, _, placement?_compressed hfirst, placement?_compressed hsecond, ?_⟩
    have hmember := mem_prioritiesOn_of_placement? hfirst
    have hother := mem_prioritiesOn_of_placement? hsecond
    have hbelow : app.rank core priority < app.rank core other ↔ priority < other :=
      rank_lt_rank_iff hmember
    have habove : app.rank core other < app.rank core priority ↔ other < priority :=
      rank_lt_rank_iff hother
    omega
  · intro task core priority found
    exact ⟨_, placement?_compressed found, rank_le (mem_prioritiesOn_of_placement? found)⟩
  · exact app.levelled_compressed
  · exact app.violations_compressed
  · exact app.compressed.ofValue_toValue
  · rw [← app.taskCores_compressed] at inRange
    rw [compress_eq_ok inRange, app.gapFree_compressed.compressed_eq]
  · exact compressed_eq_self_iff

/-- The converter stays above the filter on the second core, next to it. -/
theorem compressesTo_pipeline :
    (∀ core ∈ pipeline.taskCores, core < pipeline.cores) ∧
      ∃ result, pipeline.compress = .ok result ∧
        result.placement? (.hardware "uart") = some ⟨0, 1⟩ ∧
        result.placement? (.hardware "adc") = some ⟨1, 2⟩ ∧
        result.placement? (.software "filter") = some ⟨1, 1⟩ ∧
        result.compress = .ok result ∧ result.violations = [] := by
  have hrange : ∀ core ∈ pipeline.taskCores, core < pipeline.cores := by decide
  obtain ⟨result, hresult, hlaws⟩ := compressesTo_of_inRange hrange
  refine ⟨hrange, result, hresult, ?_, ?_, ?_, hlaws.again,
    hlaws.violations.trans violations_pipeline⟩
  all_goals
    rw [compress_eq_ok hrange] at hresult
    cases hresult
    decide +kernel

end App

end StackPolicy
