import StackPolicy.Proofs.UniformPasses

/-!
# One ledger for all passes

The passes of an analysis share a ledger, and each is a phase of its trace.
Since no pass depends on the trace, the analysis finds what the passes find
that have a trace of their own each, and its trace is put together from theirs.
-/

namespace StackPolicy

namespace Analysis

/-! ## Phases -/

section Phases

variable (app : App) (late : LatePartition) {ledger : Ledger}

theorem run_assignLate (app : App) (ledger : Ledger) :
    (assignLate app).run ledger = (LatePartition.ofApp app).map fun late =>
      (late, ledger.afterPhase "Late Partition" "Assigning late resources to init routines"
        ledger.withoutEntries) := by
  rw [assignLate, (Pass.uniform_lift _).run_inPhase]
  cases LatePartition.ofApp app <;> rfl

theorem run_foldAccesses (blank : ledger.withoutEntries = .start true) :
    (foldAccesses app late).run ledger =
      .ok (((ownershipsOf app).1, locationsOf app late), ledger.afterPhase "Ownership"
        "Computing ceilings and locations" (ownershipsOf app).2) := by
  have huniform : Pass.Uniform (do
      let ownerships ← Ownerships.ofAccesses app app.accesses
      let locations ← Locations.ofAccesses app.accesses late
      pure (ownerships, locations) : Pass (Ownerships × Locations)) :=
    (Ownerships.uniform_ofAccesses app).bind fun _ =>
      (Pass.uniform_lift _).bind fun _ => Pass.uniform_pure _
  rw [foldAccesses, huniform.run_inPhase, blank, StateT.run_bind, ofAccesses_locations]
  exact congrArg (fun done => Except.map _ (done >>= _)) (ofAccesses_ownerships app)

theorem run_classifyResources
    (same : ledger.withoutEntries = (ownershipsOf app).2.withoutEntries) :
    (classifyResources app (ownershipsOf app).1 (locationsOf app late)).run ledger =
      .ok ((), ledger.afterPhase "Resource Safety" "Classifying late and init-shared resources"
        (safetyOf app late)) := by
  have hlate : Pass.Uniform (modify
      (·.requireLateResources app (ownershipsOf app).1 (locationsOf app late)) : Pass Unit) :=
    Pass.uniform_modify (fun _ => False) (Ledger.writes_requireLateResources app _ _)
      fun base _ on => Ledger.onto_requireLateResources on base app _ _
  have hinits : Pass.Uniform
      (modify (·.requireInitResources app (ownershipsOf app).1) : Pass Unit) :=
    Pass.uniform_modify (fun _ => False) (Ledger.writes_requireInitResources app _)
      fun base _ on => Ledger.onto_requireInitResources on base app _
  rw [classifyResources, (hlate.bind fun _ => hinits).run_inPhase, same]
  rfl

theorem run_buildTimerQueue (ledger : Ledger) :
    (buildTimerQueue app).run ledger =
      (TimerQueue.ofMessages app app.scheduled ledger.withoutEntries).map fun timer =>
        (timer.1, ledger.afterPhase "Timer Queue" "Folding schedule edges" timer.2) :=
  (TimerQueue.uniform_ofMessages app app.scheduled).run_inPhase _ _ ledger

theorem run_planChannels (timerQueue : TimerQueue) (ledger : Ledger) :
    (planChannels app timerQueue).run ledger =
      (ChannelPlan.ofMessages app app.spawned app.scheduled timerQueue
        ledger.withoutEntries).map fun planned =>
          (planned.1, ledger.afterPhase "Channels" "Folding spawn and schedule edges" planned.2) :=
  (ChannelPlan.uniform_ofMessages app app.spawned app.scheduled timerQueue).run_inPhase _ _ ledger

/-- The queues depend on the resources through the types in the ledger alone. -/
theorem run_queues {own : Ledger} (same : ledger.withoutEntries = own)
    (next : TimerQueue → ChannelPlan → Findings) :
    (do
      let timerQueue ← buildTimerQueue app
      let plan ← planChannels app timerQueue
      pure (next timerQueue plan) : Pass Findings).run ledger =
        TimerQueue.ofMessages app app.scheduled own >>= fun timer =>
          ChannelPlan.ofMessages app app.spawned app.scheduled timer.1
              timer.2.withoutEntries >>= fun planned =>
            pure (next timer.1 planned.1,
              (ledger.afterPhase "Timer Queue" "Folding schedule edges" timer.2).afterPhase
                "Channels" "Folding spawn and schedule edges" planned.2) := by
  rw [StateT.run_bind, run_buildTimerQueue, same]
  cases TimerQueue.ofMessages app app.scheduled own with
  | error failure => rfl
  | ok timer =>
      simp only [Except.map]
      rw [bind_of_ok rfl, bind_of_ok rfl, StateT.run_bind, run_planChannels,
        Ledger.withoutEntries_afterPhase]
      cases ChannelPlan.ofMessages app app.spawned app.scheduled timer.1
        timer.2.withoutEntries <;> rfl

end Phases

/-- The passes that share a ledger find what the passes with traces of their own find, and
each of them is a phase of the shared trace. -/
theorem run_findings (app : App) {ledger : Ledger} (blank : ledger.withoutEntries = .start true) :
    (findings app).run ledger = (runPasses app).map fun passes =>
      (passes.findings, { passes.ledger with trace := passes.traceAfter ledger.trace }) := by
  have hlast := run_assignLate app ledger
  rw [runPasses_eq]
  unfold findings
  cases hlate : LatePartition.ofApp app with
  | error failure =>
      rw [hlate] at hlast
      exact Pass.run_bind_of_error _ hlast
  | ok late =>
      rw [hlate] at hlast
      have hread := run_foldAccesses app late
        ((ledger.withoutEntries_afterPhase ledger.withoutEntries "Late Partition"
          "Assigning late resources to init routines").trans blank)
      rw [Pass.run_bind_of_ok _ hlast, Pass.run_bind_of_ok _ hread]
      dsimp only
      rw [Pass.run_bind_of_ok _ (run_classifyResources app late
        (Ledger.withoutEntries_afterPhase _ _ _ _)),
        run_queues app (Ledger.withoutEntries_afterPhase _ _ _ _), bind_of_ok rfl]
      cases TimerQueue.ofMessages app app.scheduled (safetyOf app late).withoutEntries with
      | error failure => rfl
      | ok timer =>
          rw [bind_of_ok rfl, bind_of_ok rfl]
          cases ChannelPlan.ofMessages app app.spawned app.scheduled timer.1
            timer.2.withoutEntries <;> rfl

/-! ## Runs -/

theorem run_runCheck {settings : Settings} {app : App}
    (clean : settings.checkGuarantees = true → app.violations = []) (ledger : Ledger) :
    (runCheck settings app).run ledger = .ok ((), { ledger with
      trace := if settings.checkGuarantees then
          ledger.trace.logPhase "Preconditions" "Checking validator guarantees" []
        else ledger.trace }) := by
  unfold runCheck
  by_cases checks : settings.checkGuarantees = true
  · have hcheck : checkGuarantees app = .ok () := by
      rw [checkGuarantees, clean checks]
      rfl
    rw [if_pos checks, if_pos checks, (Pass.uniform_lift _).run_inPhase, hcheck]
    rfl
  · rw [if_neg checks, if_neg checks]
    rfl

theorem run_runPreparation (settings : Settings) (app : App) (ledger : Ledger) :
    (runPreparation settings app).run ledger =
      (prepare settings app).map fun graph => (graph, { ledger with
        trace := if settings.optimizePriorities then
            ledger.trace.logPhase "Priority Compression" "Removing gaps between task priorities" []
          else ledger.trace }) := by
  unfold runPreparation
  by_cases optimize : settings.optimizePriorities = true
  · rw [if_pos optimize, if_pos optimize, (Pass.uniform_lift _).run_inPhase]
    cases prepare settings app <;> rfl
  · rw [if_neg optimize, if_neg optimize]
    cases prepare settings app <;> rfl

/-- A run whose check succeeds or is left out consists of the passes. -/
theorem run_eq {settings : Settings} {app : App}
    (clean : settings.checkGuarantees = true → app.violations = []) :
    run settings app =
      prepare settings app >>= fun graph => runPasses graph >>= fun passes =>
        pure (assemble settings graph passes) := by
  unfold run analyse StateT.run'
  change Prod.fst <$> StateT.run _ (Ledger.start settings.trace) = _
  rw [Pass.run_bind_of_ok _ (run_runCheck clean _), StateT.run_bind, run_runPreparation]
  cases prepare settings app with
  | error failure => rfl
  | ok graph =>
      simp only [Except.map]
      rw [bind_of_ok rfl, bind_of_ok rfl, StateT.run_bind, run_findings graph rfl]
      cases runPasses graph <;> rfl

end Analysis

end StackPolicy
