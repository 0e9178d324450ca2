import StackPolicy.Proofs.ReportedRuns

/-!
# Settings that leave the result alone

Checking the guarantees and tracing show in the trace of a run and nowhere
else.  A trace that is off stays empty while it follows the phases, and the
check comes before everything else, as a phase of its own.
-/

namespace StackPolicy

/-- An event of a trace in which some other events come first. -/
def Event.delay (count : Nat) (event : Event) : Event :=
  { event with phase := event.phase.map (· + count) }

namespace Entry

/-- The detail of an entry that starts the check of the guarantees. -/
def checkStart? : Entry → Option String
  | phaseStart name detail => if name = "Preconditions" then some detail else none
  | _ => none

theorem skipsPasses_checkStart? : SkipsPasses checkStart? :=
  ⟨fun _ _ _ => rfl, fun _ _ _ => rfl, fun _ _ _ => rfl⟩

end Entry

namespace Trace

/-! ## Traces that are off -/

structure Silent (trace : Trace) : Prop where
  enabled : trace.enabled = false
  events : trace.events = []

namespace Silent

variable {trace : Trace} (h : trace.Silent)

include h

theorem append (event : Event) : (trace.append event).Silent := by
  rw [Trace.append, if_neg (by simp [h.enabled])]
  exact h

theorem startPhase (name detail : String) : (trace.startPhase name detail).Silent :=
  have hrecorded := h.append ⟨.phaseStart name detail, trace.openPhases.head?⟩
  ⟨hrecorded.enabled, hrecorded.events⟩

theorem endPhase : trace.endPhase.Silent := by
  unfold Trace.endPhase
  split
  · exact h
  · rename_i phase outer _
    have hrecorded := h.append ⟨.phaseEnd, some phase⟩
    exact ⟨hrecorded.enabled, hrecorded.events⟩

theorem logAll (entries : List Entry) : (trace.logAll entries).Silent := by
  induction entries generalizing trace with
  | nil => exact h
  | cons entry entries ih => exact ih (h.append _)

theorem logPhase (name detail : String) (entries : List Entry) :
    (trace.logPhase name detail entries).Silent :=
  ((h.startPhase name detail).logAll entries).endPhase

theorem logPhase_if (wanted : Bool) (name detail : String) :
    (if wanted = true then trace.logPhase name detail [] else trace).Silent := by
  split
  · exact h.logPhase name detail []
  · exact h

end Silent

/-! ## Traces that start later -/

/-- A trace that goes on like another one after some earlier events. -/
structure GoesOn (earlier : List Event) (trace delayed : Trace) : Prop where
  enabled : delayed.enabled = trace.enabled
  events : delayed.events = earlier ++ trace.events.map (Event.delay earlier.length)
  openPhases : delayed.openPhases = trace.openPhases.map (· + earlier.length)

namespace GoesOn

variable {earlier : List Event} {trace delayed : Trace} (h : GoesOn earlier trace delayed)

include h

theorem append (event : Event) :
    GoesOn earlier (trace.append event) (delayed.append (event.delay earlier.length)) := by
  unfold Trace.append
  rw [h.enabled]
  split
  · refine ⟨rfl, ?_, h.openPhases⟩
    simp only [h.events, List.map_append, List.map_cons, List.map_nil, List.append_assoc]
  · exact h

/-- An entry that belongs to the innermost phase still does. -/
theorem append_inside (entry : Entry) :
    GoesOn earlier (trace.append ⟨entry, trace.openPhases.head?⟩)
      (delayed.append ⟨entry, delayed.openPhases.head?⟩) := by
  have hevent : (⟨entry, delayed.openPhases.head?⟩ : Event) =
      Event.delay earlier.length ⟨entry, trace.openPhases.head?⟩ := by
    rw [h.openPhases, List.head?_map]
    rfl
  rw [hevent]
  exact h.append _

theorem startPhase (name detail : String) :
    GoesOn earlier (trace.startPhase name detail) (delayed.startPhase name detail) := by
  have hrecorded := h.append_inside (.phaseStart name detail)
  refine ⟨hrecorded.enabled, hrecorded.events, ?_⟩
  have hlength : delayed.events.length = trace.events.length + earlier.length := by
    rw [h.events, List.length_append, List.length_map, Nat.add_comm]
  unfold Trace.startPhase
  rw [hlength, h.openPhases]
  rfl

theorem endPhase : GoesOn earlier trace.endPhase delayed.endPhase := by
  have hopen := h.openPhases
  unfold Trace.endPhase
  cases hphases : trace.openPhases with
  | nil =>
      rw [hphases] at hopen
      rw [hopen]
      exact h
  | cons phase outer =>
      rw [hphases] at hopen
      rw [hopen]
      have hrecorded := h.append ⟨.phaseEnd, some phase⟩
      exact ⟨hrecorded.enabled, hrecorded.events, rfl⟩

theorem logAll (entries : List Entry) :
    GoesOn earlier (trace.logAll entries) (delayed.logAll entries) := by
  induction entries generalizing trace delayed with
  | nil => exact h
  | cons entry entries ih => exact ih (h.append_inside entry)

theorem logPhase (name detail : String) (entries : List Entry) :
    GoesOn earlier (trace.logPhase name detail entries) (delayed.logPhase name detail entries) :=
  ((h.startPhase name detail).logAll entries).endPhase

theorem logPhase_if (wanted : Bool) (name detail : String) :
    GoesOn earlier (if wanted = true then trace.logPhase name detail [] else trace)
      (if wanted = true then delayed.logPhase name detail [] else delayed) := by
  split
  · exact h.logPhase name detail []
  · exact h

end GoesOn

end Trace

namespace Analysis

/-! ## The trace of a run -/

/-- The phase in which the guarantees are checked. -/
def checkEvents : List Event :=
  [⟨.phaseStart "Preconditions" "Checking validator guarantees", none⟩, ⟨.phaseEnd, some 0⟩]

theorem silent_traceOf {settings : Settings} (off : settings.trace = false) (passes : Passes)
    (warnings : List String) : (traceOf settings passes warnings).Silent := by
  have hstart : (Trace.start settings.trace).Silent := ⟨off, rfl⟩
  have hchecked := hstart.logPhase_if settings.checkGuarantees "Preconditions"
    "Checking validator guarantees"
  have hprepared := hchecked.logPhase_if settings.optimizePriorities "Priority Compression"
    "Removing gaps between task priorities"
  exact (((((hprepared.logPhase _ _ _).logPhase _ _ _).logPhase _ _ _).logPhase _ _ _).logPhase
    _ _ _).logAll _

theorem goesOn_traceOf (optimize : Bool) (passes : Passes) (warnings : List String) :
    Trace.GoesOn checkEvents (traceOf ⟨optimize, false, true⟩ passes warnings)
      (traceOf ⟨optimize, true, true⟩ passes warnings) := by
  have hstart : Trace.GoesOn checkEvents (.start true)
      ((Trace.start true).logPhase "Preconditions" "Checking validator guarantees" []) :=
    ⟨rfl, rfl, rfl⟩
  have hprepared := hstart.logPhase_if optimize "Priority Compression"
    "Removing gaps between task priorities"
  exact (((((hprepared.logPhase _ _ _).logPhase _ _ _).logPhase _ _ _).logPhase _ _ _).logPhase
    _ _ _).logAll _

theorem filterMap_checkStart?_eq_nil {settings : Settings}
    (unchecked : settings.checkGuarantees = false) {passes : Passes}
    (unstarted : passes.entries.filterMap Entry.checkStart? = []) (warnings : List String) :
    (traceEntries settings passes warnings).filterMap Entry.checkStart? = [] := by
  simp only [Passes.entries, List.filterMap_append, List.append_eq_nil_iff] at unstarted
  obtain ⟨⟨⟨hownerships, hsafety⟩, htimer⟩, hledger⟩ := unstarted
  have hphase (name detail : String) (entries : List Entry) (other : name ≠ "Preconditions")
      (hentries : entries.filterMap Entry.checkStart? = []) :
      (phaseEntries name detail entries).filterMap Entry.checkStart? = [] :=
    (filterMap_phaseEntries (if_neg other) rfl entries).trans hentries
  have hprepared : (if settings.optimizePriorities = true then
      phaseEntries "Priority Compression" "Removing gaps between task priorities" []
      else []).filterMap Entry.checkStart? = [] := by
    split
    · exact hphase _ _ _ (by decide) rfl
    · rfl
  have hwarnings : (warnings.map Entry.warning).filterMap Entry.checkStart? = [] := by
    simp [List.filterMap_map, Entry.checkStart?]
  simp only [traceEntries, unchecked, Bool.false_eq_true, if_false, List.filterMap_append,
    hprepared, hwarnings, hphase _ _ [] (show "Late Partition" ≠ "Preconditions" by decide) rfl,
    hphase _ _ _ (show "Ownership" ≠ "Preconditions" by decide) hownerships,
    hphase _ _ _ (show "Resource Safety" ≠ "Preconditions" by decide) hsafety,
    hphase _ _ _ (show "Timer Queue" ≠ "Preconditions" by decide) htimer,
    hphase _ _ _ (show "Channels" ≠ "Preconditions" by decide) hledger]
  rfl

/-! ## Runs -/

/-- The passes do not depend on whether the guarantees are checked or a trace is wanted. -/
theorem exists_passes_of_optimize {app : App} (h : app.violations = []) (optimize : Bool) :
    ∃ graph passes, (∀ checks traces, run ⟨optimize, checks, traces⟩ app =
        .ok (assemble ⟨optimize, checks, traces⟩ graph passes)) ∧
      passes.entries.filterMap Entry.checkStart? = [] := by
  have hsound := sound_prepared (App.sound_of_violations h) ⟨optimize, false, false⟩
  obtain ⟨late, timer, planned, hderives⟩ := exists_derives hsound
  have hnone := hderives.filterMap_entries_eq_nil (fun _ => declared_of_sound hsound)
    Entry.skipsPasses_checkStart?
  refine ⟨prepared ⟨optimize, false, false⟩ app, _, fun checks traces => ?_, hnone⟩
  have hprepared : Derives (prepared ⟨optimize, checks, traces⟩ app) late timer planned := hderives
  exact hprepared.run_eq h

end Analysis

namespace Engine

open Analysis

/-- Runs that differ in checking and tracing alone show the same lines and have the same result,
or stop at the same warning.  The trace is empty exactly if tracing is off, and the check adds its
phase in front of the other events. -/
theorem run_of_checks_and_traces {app : App} (h : app.violations = []) (optimize : Bool) :
    ∃ (analysis : Analysis) (lines : List Line) (events : Bool → Bool → List Event),
      (∀ (markup : Markup) (checks traces : Bool),
        (markup.Readable app.complaints →
          run ⟨⟨optimize, checks, traces⟩, markup⟩ app =
            (lines, .ok { analysis with trace := events checks traces })) ∧
        ∀ shown failure, run ⟨⟨optimize, checks, traces⟩, markup⟩ app = (shown, .error failure) ↔
          markup.Stops app.complaints shown failure) ∧
      (∀ checks traces, events checks traces = [] ↔ traces = false) ∧
      events true true =
        checkEvents ++ (events false true).map (Event.delay checkEvents.length) ∧
      ∀ event ∈ events false true, ∀ detail, event.entry ≠ .phaseStart "Preconditions" detail := by
  obtain ⟨graph, passes, hrun, hnone⟩ := exists_passes_of_optimize h optimize
  refine ⟨(assemble ⟨optimize, false, false⟩ graph passes).1, _, fun checks traces =>
      (traceOf ⟨optimize, checks, traces⟩ passes
        (warnings graph passes.locations passes.plan.freeQueues)).events,
    fun markup checks traces =>
      ⟨fun readable => run_eq_ok_iff.mpr ⟨hrun checks traces, readable⟩, fun shown failure => ?_⟩,
    fun checks traces => ?_, (goesOn_traceOf optimize _ _).events, ?_⟩
  · rw [run_eq_error_iff]
    simp [hrun checks traces]
  · cases traces with
    | false => simpa using (silent_traceOf rfl _ _).events
    | true =>
        have hentries := @entries_of_traced ⟨optimize, checks, true⟩ rfl graph passes
        simp only [Bool.true_eq_false, iff_false]
        intro hnil
        have hempty := (congrArg (List.map Event.entry) hnil).symm.trans hentries
        simp [traceEntries, phaseEntries] at hempty
  · intro event member detail hstart
    have hentries := @entries_of_traced ⟨optimize, false, true⟩ rfl graph passes
    have hunchecked := @filterMap_checkStart?_eq_nil ⟨optimize, false, true⟩ rfl passes
      hnone (warnings graph passes.locations passes.plan.freeQueues)
    rw [← hentries, List.filterMap_eq_nil_iff] at hunchecked
    have hother := hunchecked event.entry (List.mem_map_of_mem (f := Event.entry) member)
    rw [hstart] at hother
    cases hother

/-- Checking the application shows in its trace alone. -/
theorem checks_archiving :
    archiving.violations = [] ∧ ∃ analysis other lines,
      run ⟨⟨true, true, true⟩, closingTag⟩ archiving = (lines, .ok analysis) ∧
        run ⟨⟨true, false, false⟩, closingTag⟩ archiving = (lines, .ok other) ∧
        other = { analysis with trace := [] } ∧
        analysis.trace.take 2 = checkEvents := by
  have hclean : archiving.violations = [] := by decide +kernel
  obtain ⟨analysis, lines, events, hruns, hevents, hchecks, -⟩ :=
    run_of_checks_and_traces hclean true
  have hempty := (hevents false false).mpr rfl
  refine ⟨hclean, _, _, lines, (hruns closingTag true true).1 readable_archiving,
    (hruns closingTag false false).1 readable_archiving, ?_, ?_⟩
  · rw [hempty]
  · simp only [hchecks, checkEvents, List.cons_append, List.nil_append, List.take_succ_cons,
      List.take_zero]

/-- No setting keeps the warning about `[/x]` from stopping the run. -/
theorem run_tagged_of_checks_and_traces :
    tagged.violations = [] ∧
    (∀ optimize checks traces, run ⟨⟨optimize, checks, traces⟩, closingTag⟩ tagged =
      ([], .error (.unreadable
        "closing tag '[/x]' at position 14 doesn't match any open tag"))) ∧
    ¬ ∀ (markup : Markup) (app : App) (optimize checks traces : Bool), app.violations = [] →
      ∃ lines analysis, run ⟨⟨optimize, checks, traces⟩, markup⟩ app = (lines, .ok analysis) := by
  have hclean : tagged.violations = [] := by decide +kernel
  refine ⟨hclean, fun optimize checks traces => run_of_tagged _, fun returns => ?_⟩
  obtain ⟨lines, analysis, hreturned⟩ := returns closingTag tagged false true false hclean
  rw [run_of_tagged] at hreturned
  cases hreturned

end Engine

end StackPolicy
