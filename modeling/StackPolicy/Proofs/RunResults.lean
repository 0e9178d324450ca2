import StackPolicy.Proofs.ChannelContents
import StackPolicy.Proofs.RunOutcomes
import StackPolicy.Proofs.TimerContents

/-!
# What the passes of a sound application derive

No pass over a sound application fails, so its partition, its timer queue and
its plan determine the whole result of a run.
-/

namespace StackPolicy.Analysis

/-- What the passes over an application derive from it, besides ownerships and locations. -/
structure Derives (graph : App) (late : LatePartition) (timer : TimerQueue × Ledger)
    (planned : ChannelPlan × Ledger) : Prop where
  late_eq : LatePartition.ofApp graph = .ok late
  timer_eq : TimerQueue.ofMessages graph graph.scheduled (safetyOf graph late).withoutEntries =
    .ok timer
  planned_eq : ChannelPlan.ofMessages graph graph.spawned graph.scheduled timer.1
    timer.2.withoutEntries = .ok planned

theorem exists_derives {graph : App} (sound : graph.Sound) :
    ∃ late timer planned, Derives graph late timer planned := by
  obtain ⟨passes, hpasses⟩ := exists_runPasses (passFailure?_of_sound sound)
  rw [runPasses_eq] at hpasses
  obtain ⟨late, hlate, hpasses⟩ := bind_eq_ok_iff.mp hpasses
  obtain ⟨timer, htimer, hpasses⟩ := bind_eq_ok_iff.mp hpasses
  obtain ⟨planned, hplanned, -⟩ := bind_eq_ok_iff.mp hpasses
  exact ⟨late, timer, planned, hlate, htimer, hplanned⟩

theorem Derives.run_eq {app : App} {settings : Settings} {late : LatePartition}
    {timer : TimerQueue × Ledger} {planned : ChannelPlan × Ledger}
    (derives : Derives (prepared settings app) late timer planned) (h : app.violations = []) :
    run settings app = .ok (assemble settings (prepared settings app)
      (passesOf (prepared settings app) late timer planned)) := by
  have hsound := App.sound_of_violations h
  have hgraph := prepare_eq_ok (missingCore?_of_sound hsound settings)
  rw [Analysis.run_eq fun _ => h, bind_of_ok hgraph, runPasses_eq, bind_of_ok derives.late_eq,
    bind_of_ok derives.timer_eq, bind_of_ok derives.planned_eq]
  rfl

/-- A run that succeeds derives its result from the prepared application, with all receivers
declared, whether or not the application is sound. -/
theorem exists_derives_prepared {settings : Settings} {app : App} {analysis : Analysis}
    {lines : List Line} (h : run settings app = .ok (analysis, lines)) :
    prepare settings app = .ok (prepared settings app) ∧
      (∀ message ∈ (prepared settings app).spawned ++ (prepared settings app).scheduled,
        message.receiver ∈ (prepared settings app).softwareTasks.keys) ∧
      ∃ late timer planned, Derives (prepared settings app) late timer planned ∧
        assemble settings (prepared settings app)
          (passesOf (prepared settings app) late timer planned) = (analysis, lines) := by
  obtain ⟨graph, passes, hgraph, hpasses, hassemble⟩ := exists_passes_of_run h
  have hprepared : prepare settings app = .ok (prepared settings app) := by
    cases hcore : missingCore? settings app with
    | none => exact prepare_eq_ok hcore
    | some core =>
        rw [prepare_of_missingCore? hcore] at hgraph
        cases hgraph
  rw [hprepared] at hgraph
  cases hgraph
  have hnone : passFailure? (prepared settings app) = none := by
    cases hfailure : passFailure? (prepared settings app) with
    | none => rfl
    | some failure =>
        rw [runPasses_of_passFailure? hfailure] at hpasses
        cases hpasses
  refine ⟨hprepared, ?_, ?_⟩
  · unfold passFailure? at hnone
    split at hnone
    · cases hnone
    · rw [Option.map_eq_none_iff, Option.or_eq_none_iff] at hnone
      intro message member
      rcases List.mem_append.mp member with hspawned | hscheduled
      · exact undeclaredReceiver?_eq_none_iff.mp hnone.2 message hspawned
      · exact undeclaredReceiver?_eq_none_iff.mp hnone.1 message hscheduled
  · rw [runPasses_eq] at hpasses
    obtain ⟨late, hlate, hpasses⟩ := bind_eq_ok_iff.mp hpasses
    obtain ⟨timer, htimer, hpasses⟩ := bind_eq_ok_iff.mp hpasses
    obtain ⟨planned, hplanned, hpasses⟩ := bind_eq_ok_iff.mp hpasses
    cases hpasses
    exact ⟨late, timer, planned, ⟨hlate, htimer, hplanned⟩, hassemble⟩

section Runs

variable {app : App} {late : LatePartition} {timer : TimerQueue × Ledger}
  {planned : ChannelPlan × Ledger}

theorem Derives.run_plain (derives : Derives app late timer planned) (h : app.violations = [])
    (settings : Settings) :
    run { settings with optimizePriorities := false } app =
      .ok (assemble { settings with optimizePriorities := false } app
        (passesOf app late timer planned)) := by
  have hprepared :
      Derives (prepared { settings with optimizePriorities := false } app) late timer planned :=
    derives
  exact hprepared.run_eq h

theorem Derives.run_compressed (derives : Derives app.compressed late timer planned)
    (h : app.violations = []) (settings : Settings) :
    run { settings with optimizePriorities := true } app =
      .ok (assemble { settings with optimizePriorities := true } app.compressed
        (passesOf app.compressed late timer planned)) := by
  have hprepared :
      Derives (prepared { settings with optimizePriorities := true } app) late timer planned :=
    derives
  exact hprepared.run_eq h

end Runs

section Sound

variable {graph : App} {late : LatePartition} {timer : TimerQueue × Ledger}
  {planned : ChannelPlan × Ledger} (derives : Derives graph late timer planned)
  (sound : graph.Sound)

include derives sound

theorem Derives.describes :
    planned.1.Describes graph (ChannelPlan.requests graph.spawned graph.scheduled timer.1) :=
  ChannelPlan.describes_ofMessages (fun _ => declared_of_sound sound) derives.planned_eq

theorem Derives.describes_timerQueue : timer.1.Describes graph graph.scheduled :=
  TimerQueue.describes_ofMessages derives.timer_eq fun _ member =>
    declared_of_sound sound (List.mem_append_right _ member)

theorem Derives.mem_transfer (ty : String) :
    ty ∈ planned.2.transfer ↔ ty ∈ (safetyOf graph late).transfer ∨
      ∃ message ∈ graph.spawned ++ graph.scheduled, message.Moves graph ty := by
  obtain ⟨passes, hpasses, htransfer⟩ := runPasses_eq_ok derives.late_eq
    (fun message member => declared_of_sound sound (List.mem_append_right _ member))
    (fun message member => declared_of_sound sound (List.mem_append_left _ member))
  rw [runPasses_eq, bind_of_ok derives.late_eq, bind_of_ok derives.timer_eq,
    bind_of_ok derives.planned_eq] at hpasses
  cases hpasses
  exact htransfer ty

end Sound

end StackPolicy.Analysis
