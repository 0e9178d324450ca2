import StackPolicy.Proofs.Compression
import StackPolicy.Proofs.SharedLedgers

/-!
# When a run fails, and how

A run that checks the guarantees fails at violations and at nothing else.  A
run without the check fails at the first pass that meets what it cannot handle.
-/

namespace StackPolicy.Analysis

/-! ## The analysed application -/

def missingCore? (settings : Settings) (app : App) : Option Int :=
  if settings.optimizePriorities then app.taskCores.find? fun core => app.cores ≤ core else none

def prepared (settings : Settings) (app : App) : App :=
  if settings.optimizePriorities then app.compressed else app

theorem prepare_of_missingCore? {settings : Settings} {app : App} {core : Int}
    (found : missingCore? settings app = some core) :
    prepare settings app = .error (.coreOutOfRange core) := by
  unfold missingCore? at found
  unfold prepare
  split at found
  · rename_i optimize
    rw [if_pos optimize]
    exact App.compress_eq_error found
  · cases found

theorem prepare_eq_ok {settings : Settings} {app : App}
    (none : missingCore? settings app = none) :
    prepare settings app = .ok (prepared settings app) := by
  unfold missingCore? at none
  unfold prepare prepared
  split at none
  · rename_i optimize
    rw [if_pos optimize, if_pos optimize]
    apply App.compress_eq_ok
    intro core member
    have hinside := List.find?_eq_none.mp none core member
    simpa using hinside
  · rename_i plain
    rw [if_neg plain, if_neg plain]

section Prepared

variable (settings : Settings) (app : App)

theorem inits_prepared : (prepared settings app).inits = app.inits := by
  unfold prepared
  split <;> rfl

theorem resources_prepared : (prepared settings app).resources = app.resources := by
  unfold prepared
  split <;> rfl

theorem lateResources_prepared :
    (prepared settings app).lateResources = app.lateResources := by
  unfold App.lateResources
  rw [resources_prepared]

theorem restCores_prepared : (prepared settings app).restCores = app.restCores := by
  unfold App.restCores App.initsByCore
  rw [inits_prepared]

theorem keys_softwareTasks_prepared :
    (prepared settings app).softwareTasks.keys = app.softwareTasks.keys := by
  unfold prepared
  split
  · exact Table.keys_mapRows _ _
  · rfl

theorem receivers_spawned_prepared :
    (prepared settings app).spawned.map Message.receiver =
      app.spawned.map Message.receiver := by
  rw [App.receivers_spawned, App.receivers_spawned]
  unfold prepared
  split
  · rw [App.contexts_compressed, List.flatMap_map]
    simp
  · rfl

theorem receivers_scheduled_prepared :
    (prepared settings app).scheduled.map Message.receiver =
      app.scheduled.map Message.receiver := by
  rw [App.receivers_scheduled, App.receivers_scheduled]
  unfold prepared
  split
  · rw [App.contexts_compressed, List.flatMap_map]
    simp
  · rfl

/-- New priorities neither cause nor hide a failure of the passes. -/
theorem passFailure?_prepared :
    passFailure? (prepared settings app) = passFailure? app := by
  unfold passFailure? undeclaredReceiver?
  rw [lateResources_prepared, restCores_prepared, keys_softwareTasks_prepared,
    receivers_spawned_prepared, receivers_scheduled_prepared]

end Prepared

/-! ## Runs -/

theorem run_of_violations {settings : Settings} {app : App}
    (checks : settings.checkGuarantees = true) (broken : app.violations ≠ []) :
    run settings app = .error (.violated app.violations) := by
  have hcheck : checkGuarantees app = .error (.violated app.violations) := by
    unfold checkGuarantees
    rw [if_neg (by simpa using broken)]
  have hphase : (runCheck settings app).run (.start settings.trace) =
      .error (.violated app.violations) := by
    rw [runCheck, if_pos checks, (Pass.uniform_lift _).run_inPhase, hcheck]
    rfl
  unfold run analyse StateT.run'
  change Prod.fst <$> StateT.run _ (Ledger.start settings.trace) = _
  rw [Pass.run_bind_of_error _ hphase]
  rfl

/-- Why the passes of a run fail, if they do. -/
def runFailure? (settings : Settings) (app : App) : Option Failure :=
  ((missingCore? settings app).map .coreOutOfRange).or (passFailure? app)

theorem run_of_runFailure? {settings : Settings} {app : App} {failure : Failure}
    (clean : settings.checkGuarantees = true → app.violations = [])
    (found : runFailure? settings app = some failure) : run settings app = .error failure := by
  unfold runFailure? at found
  rw [run_eq clean]
  cases hcore : missingCore? settings app with
  | some core =>
      rw [hcore] at found
      cases found
      exact bind_of_error (prepare_of_missingCore? hcore) _
  | none =>
      rw [hcore] at found
      have hfailure : passFailure? (prepared settings app) = some failure := by
        rw [passFailure?_prepared]
        exact found
      rw [bind_of_ok (prepare_eq_ok hcore)]
      exact bind_of_error (runPasses_of_passFailure? hfailure) _

theorem exists_run {settings : Settings} {app : App}
    (clean : settings.checkGuarantees = true → app.violations = [])
    (none : runFailure? settings app = none) : ∃ result, run settings app = .ok result := by
  unfold runFailure? at none
  rw [Option.or_eq_none_iff, Option.map_eq_none_iff] at none
  have hnone : passFailure? (prepared settings app) = .none := by
    rw [passFailure?_prepared]
    exact none.2
  obtain ⟨passes, hpasses⟩ := exists_runPasses hnone
  refine ⟨assemble settings (prepared settings app) passes, ?_⟩
  rw [run_eq clean, bind_of_ok (prepare_eq_ok none.1)]
  exact bind_of_ok hpasses _

theorem run_eq_error_iff {settings : Settings} {app : App}
    (clean : settings.checkGuarantees = true → app.violations = []) {failure : Failure} :
    run settings app = .error failure ↔ runFailure? settings app = some failure := by
  constructor
  · intro hrun
    cases hfailure : runFailure? settings app with
    | some first =>
        have hfirst := run_of_runFailure? clean hfailure
        rw [hrun] at hfirst
        cases hfirst
        rfl
    | none =>
        obtain ⟨result, hresult⟩ := exists_run clean hfailure
        rw [hrun] at hresult
        cases hresult
  · exact run_of_runFailure? clean

/-! ## Sound applications -/

theorem core_lt_of_mem_taskCores {app : App} (sound : app.Sound) {core : Int}
    (member : core ∈ app.taskCores) : core < app.cores := by
  rcases List.mem_append.mp member with hhardware | hsoftware
  · obtain ⟨task, htask, rfl⟩ := List.mem_map.mp hhardware
    obtain ⟨row, hrow, rfl⟩ := List.mem_map.mp htask
    exact sound.core_lt (Context.ofHardwareTask row.1 row.2)
      (App.mem_contexts.mpr (.inr (.inr (.inl ⟨row, hrow, rfl⟩))))
  · obtain ⟨task, htask, rfl⟩ := List.mem_map.mp hsoftware
    obtain ⟨row, hrow, rfl⟩ := List.mem_map.mp htask
    exact sound.core_lt (Context.ofSoftwareTask row.1 row.2)
      (App.mem_contexts.mpr (.inr (.inr (.inr ⟨row, hrow, rfl⟩))))

theorem missingCore?_of_sound {app : App} (sound : app.Sound) (settings : Settings) :
    missingCore? settings app = none := by
  unfold missingCore?
  split
  · rw [List.find?_eq_none]
    intro core member
    have hinside := core_lt_of_mem_taskCores sound member
    simpa using hinside
  · rfl

theorem declared_of_sound {app : App} (sound : app.Sound) {message : Message}
    (member : message ∈ app.spawned ++ app.scheduled) :
    message.receiver ∈ app.softwareTasks.keys := by
  rcases List.mem_append.mp member with hspawned | hscheduled
  · obtain ⟨context, hcontext, hmessage⟩ := List.mem_flatMap.mp hspawned
    obtain ⟨receiver, hreceiver, rfl⟩ := List.mem_map.mp hmessage
    exact sound.target_declared context hcontext receiver (List.mem_append_left _ hreceiver)
  · obtain ⟨context, hcontext, hmessage⟩ := List.mem_flatMap.mp hscheduled
    obtain ⟨receiver, hreceiver, rfl⟩ := List.mem_map.mp hmessage
    exact sound.target_declared context hcontext receiver (List.mem_append_right _ hreceiver)

theorem passFailure?_of_sound {app : App} (sound : app.Sound) : passFailure? app = none := by
  have hfew : ¬(app.lateResources.rows ≠ [] ∧ 1 < app.restCores.length) := by
    rintro ⟨hlate, hseveral⟩
    have hone := sound.rests_le_one hlate
    omega
  have hscheduled : undeclaredReceiver? app app.scheduled = none :=
    undeclaredReceiver?_eq_none_iff.mpr fun message member =>
      declared_of_sound sound (List.mem_append_right _ member)
  have hspawned : undeclaredReceiver? app app.spawned = none :=
    undeclaredReceiver?_eq_none_iff.mpr fun message member =>
      declared_of_sound sound (List.mem_append_left _ member)
  unfold passFailure?
  rw [if_neg hfew, hscheduled, hspawned]
  rfl

theorem sound_prepared {app : App} (sound : app.Sound) (settings : Settings) :
    (prepared settings app).Sound := by
  unfold prepared
  split
  · exact sound.compressed
  · exact sound

theorem runFailure?_of_violations {app : App} (h : app.violations = []) (settings : Settings) :
    runFailure? settings app = none := by
  have hsound := App.sound_of_violations h
  unfold runFailure?
  rw [missingCore?_of_sound hsound, passFailure?_of_sound hsound]
  rfl

/-! ## Runs that succeed -/

/-- A run that succeeds has prepared an application and passed over it. -/
theorem exists_passes_of_run {settings : Settings} {app : App} {analysis : Analysis}
    {lines : List Line} (h : run settings app = .ok (analysis, lines)) :
    ∃ graph passes, prepare settings app = .ok graph ∧ runPasses graph = .ok passes ∧
      assemble settings graph passes = (analysis, lines) := by
  have hclean : settings.checkGuarantees = true → app.violations = [] := by
    intro checks
    apply Decidable.byContradiction
    intro broken
    rw [run_of_violations checks broken] at h
    cases h
  rw [run_eq hclean] at h
  obtain ⟨graph, hgraph, h⟩ := bind_eq_ok_iff.mp h
  obtain ⟨passes, hpasses, h⟩ := bind_eq_ok_iff.mp h
  cases h
  exact ⟨graph, passes, hgraph, hpasses, rfl⟩

end StackPolicy.Analysis
