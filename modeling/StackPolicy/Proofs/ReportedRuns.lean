import StackPolicy.Proofs.Accounting
import StackPolicy.Proofs.ShownLines

/-!
# Runs of an engine

An engine shows its warnings and a summary before it returns.  The summary can
always be read, so that only a warning stops a run: one with the name of a
resource or task that nobody uses, in which the console finds a tag.
-/

namespace StackPolicy

/-- The warnings about resources and tasks that nobody uses. -/
def App.complaints (app : App) : List Line := app.unused.map (Line.mk .warning)

namespace Analysis

/-! ## Reported lines -/

theorem bracket_notMem_toDigits (number : Nat) : '[' ∉ Nat.toDigits 10 number := fun member =>
  absurd (Nat.isDigit_of_mem_toDigits (by decide) (by decide) member) (by decide)

theorem readable_summary (markup : Markup) (app : App) (findings : Findings) :
    markup.Readable (summary app findings) := by
  apply Markup.readable_of_plain
  intro line member
  rcases List.mem_pair.mp member with rfl | rfl
  · simp [Line.text, Level.symbol, bracket_notMem_toDigits]
  · cases findings.timerQueue.isUsed <;>
      simp [Line.text, Level.symbol, bracket_notMem_toDigits]

theorem exists_lines_of_run {settings : Settings} {app : App} {analysis : Analysis}
    {lines : List Line} (h : run settings app = .ok (analysis, lines)) :
    ∃ graph findings, lines = app.complaints ++ summary graph findings := by
  obtain ⟨-, hdeclared, late, timer, planned, hderives, hassemble⟩ := exists_derives_prepared h
  have hwarnings := (hderives.warnings_eq hdeclared).trans unused_prepared
  cases hassemble
  exact ⟨_, _, congrArg (fun warnings => warnings.map (Line.mk .warning) ++ _) hwarnings⟩

end Analysis

namespace Engine

open Analysis

variable {engine : Engine} {app : App} {analysis : Analysis} {lines shown : List Line}
  {failure : Failure}

/-! ## Showing what is reported -/

theorem run_of_failure (failed : Analysis.run engine.settings app = .error failure) :
    engine.run app = ([], .error failure) := by
  unfold run
  rw [failed]

section Returned

variable (returned : Analysis.run engine.settings app = .ok (analysis, lines))

include returned

theorem run_of_returned :
    engine.run app = ((engine.markup.displayAll lines).1,
      (engine.markup.displayAll lines).2.map fun () => analysis) := by
  unfold run
  rw [returned]

theorem run_of_readable (readable : engine.markup.Readable app.complaints) :
    engine.run app = (lines, .ok analysis) := by
  obtain ⟨graph, findings, rfl⟩ := exists_lines_of_run returned
  have hreadable := Markup.readable_append_iff.mpr
    ⟨readable, readable_summary engine.markup graph findings⟩
  rw [run_of_returned returned, Markup.displayAll_of_readable hreadable]
  rfl

theorem run_of_stops (stops : engine.markup.Stops app.complaints shown failure) :
    engine.run app = (shown, .error failure) := by
  obtain ⟨graph, findings, rfl⟩ := exists_lines_of_run returned
  rw [run_of_returned returned,
    Markup.displayAll_of_stops (stops.append (summary graph findings))]
  rfl

end Returned

/-- A run of an engine returns exactly what the analysis finds, if its warnings can be read. -/
theorem run_eq_ok_iff :
    engine.run app = (shown, .ok analysis) ↔
      Analysis.run engine.settings app = .ok (analysis, shown) ∧
        engine.markup.Readable app.complaints := by
  refine ⟨fun h => ?_, fun ⟨returned, readable⟩ => run_of_readable returned readable⟩
  rcases hrun : Analysis.run engine.settings app with failed | ⟨found, lines⟩
  · rw [run_of_failure hrun] at h
    cases h
  · rcases engine.markup.readable_or_stops app.complaints with
      hreadable | ⟨first, fault, hstops⟩
    · rw [run_of_readable hrun hreadable] at h
      cases h
      exact ⟨rfl, hreadable⟩
    · rw [run_of_stops hrun hstops] at h
      cases h

theorem run_eq_error_iff :
    engine.run app = (shown, .error failure) ↔
      (Analysis.run engine.settings app = .error failure ∧ shown = []) ∨
      ((∃ result, Analysis.run engine.settings app = .ok result) ∧
        engine.markup.Stops app.complaints shown failure) := by
  rcases hrun : Analysis.run engine.settings app with failed | ⟨analysis, lines⟩
  · simp [run_of_failure hrun, eq_comm, and_comm]
  · simp only [reduceCtorEq, false_and, false_or, Except.ok.injEq, exists_eq', true_and]
    refine ⟨fun h => ?_, run_of_stops hrun⟩
    rcases engine.markup.readable_or_stops app.complaints with
      hreadable | ⟨first, fault, hstops⟩
    · rw [run_of_readable hrun hreadable] at h
      cases h
    · rw [run_of_stops hrun hstops] at h
      cases h
      exact hstops

/-! ## Outcomes -/

/-- Where no violation stops a run, its passes may fail, and then a warning that cannot be read
may. -/
theorem run_outcome_of_clean
    (clean : engine.settings.checkGuarantees = true → app.violations = []) :
    (∀ shown failure, engine.run app = (shown, .error failure) ↔
      (runFailure? engine.settings app = some failure ∧ shown = []) ∨
      (runFailure? engine.settings app = none ∧
        engine.markup.Stops app.complaints shown failure)) ∧
    (runFailure? engine.settings app = none → engine.markup.Readable app.complaints →
      ∃ lines analysis, engine.run app = (lines, .ok analysis)) := by
  have hreturns : (∃ result, Analysis.run engine.settings app = .ok result) ↔
      runFailure? engine.settings app = none := by
    refine ⟨fun ⟨result, hresult⟩ => ?_, exists_run clean⟩
    rw [Option.eq_none_iff_forall_ne_some]
    intro failure found
    rw [run_of_runFailure? clean found] at hresult
    cases hresult
  refine ⟨fun shown failure => ?_, fun none readable => ?_⟩
  · rw [run_eq_error_iff, Analysis.run_eq_error_iff clean, hreturns]
  · obtain ⟨⟨analysis, lines⟩, hrun⟩ := exists_run clean none
    exact ⟨lines, analysis, run_eq_ok_iff.mpr ⟨hrun, readable⟩⟩

/-- With the check, a run fails at violations, and without violations only at a warning that
the console cannot read.  Without the check, the first of five causes decides: a task on a core
that the device does not have, if priorities are compressed, then several routines that take the
rest, then a receiver that is not declared, of scheduled messages before spawned ones, and at
last such a warning. -/
theorem run_outcome (engine : Engine) (app : App) :
    (engine.settings.checkGuarantees = true →
      (∀ shown failure, engine.run app = (shown, .error failure) ↔
        (app.violations ≠ [] ∧ shown = [] ∧ failure = .violated app.violations) ∨
        (app.violations = [] ∧ engine.markup.Stops app.complaints shown failure)) ∧
      (app.violations = [] → engine.markup.Readable app.complaints →
        ∃ lines analysis, engine.run app = (lines, .ok analysis))) ∧
    (engine.settings.checkGuarantees = false →
      (∀ shown failure, engine.run app = (shown, .error failure) ↔
        (runFailure? engine.settings app = some failure ∧ shown = []) ∨
        (runFailure? engine.settings app = none ∧
          engine.markup.Stops app.complaints shown failure)) ∧
      (runFailure? engine.settings app = none → engine.markup.Readable app.complaints →
        ∃ lines analysis, engine.run app = (lines, .ok analysis))) := by
  constructor
  · intro checks
    by_cases hclean : app.violations = []
    · have houtcome := run_outcome_of_clean fun _ : engine.settings.checkGuarantees = true => hclean
      have hnone := runFailure?_of_violations hclean engine.settings
      rw [hnone] at houtcome
      refine ⟨fun shown failure => ?_, fun _ => houtcome.2 rfl⟩
      rw [houtcome.1]
      simp [hclean]
    · refine ⟨fun shown failure => ?_, fun h => absurd h hclean⟩
      rw [run_of_failure (run_of_violations checks hclean)]
      simp [hclean, eq_comm]
  · intro unchecked
    refine run_outcome_of_clean fun checks => ?_
    rw [unchecked] at checks
    cases checks

/-! ## A name that reads as a tag -/

/-- A console that finds a closing tag in the warning about a resource `[/x]`. -/
def closingTag : Markup :=
  .faultIn "⚠️  resource '[/x]' is never accessed"
    "closing tag '[/x]' at position 14 doesn't match any open tag" (by decide)

/-- An application with one resource, whose name reads as a closing tag. -/
def tagged : App := App.idling (.after 0) [("[/x]", ⟨"u32", some "0"⟩)]

theorem readable_archiving : closingTag.Readable archiving.complaints := by
  have hunused : archiving.unused =
      ["software task 'archive' is never spawned nor scheduled"] := by decide +kernel
  apply Markup.readable_of_plain
  rw [App.complaints, hunused]
  decide

/-- A run can warn and return, and it meets a missing core before it can warn. -/
theorem run_outcome_archiving :
    (∃ lines analysis, run ⟨⟨true, true, true⟩, closingTag⟩ archiving = (lines, .ok analysis)) ∧
    run ⟨⟨true, false, false⟩, closingTag⟩
        { App.pipeline with cores := 1, cores_pos := by decide } =
      ([], .error (.coreOutOfRange 1)) := by
  constructor
  · have hchecked := (run_outcome ⟨⟨true, true, true⟩, closingTag⟩ archiving).1 rfl
    exact hchecked.2 (by decide +kernel) readable_archiving
  · have hunchecked := (run_outcome ⟨⟨true, false, false⟩, closingTag⟩
      { App.pipeline with cores := 1, cores_pos := by decide }).2 rfl
    exact (hunchecked.1 _ _).mpr (.inl ⟨by decide, rfl⟩)

theorem stops_tagged :
    closingTag.Stops tagged.complaints []
      (.unreadable "closing tag '[/x]' at position 14 doesn't match any open tag") := by
  have hunused : tagged.unused = ["resource '[/x]' is never accessed"] := by decide +kernel
  exact ⟨Markup.readable_nil, ⟨.warning, "resource '[/x]' is never accessed"⟩, [], _,
    congrArg (List.map (Line.mk .warning)) hunused, Markup.fault?_faultIn _, rfl⟩

theorem run_of_tagged (settings : Settings) :
    run ⟨settings, closingTag⟩ tagged =
      ([], .error (.unreadable
        "closing tag '[/x]' at position 14 doesn't match any open tag")) := by
  have hclean : tagged.violations = [] := by decide +kernel
  obtain ⟨⟨analysis, lines⟩, hanalysed⟩ :=
    exists_run (fun _ => hclean) (runFailure?_of_violations hclean settings)
  exact run_of_stops hanalysed stops_tagged

/-- A name stops a run that has checked everything. -/
theorem run_tagged :
    tagged.violations = [] ∧
    run ⟨.default, closingTag⟩ tagged =
      ([], .error (.unreadable
        "closing tag '[/x]' at position 14 doesn't match any open tag")) ∧
    ¬ ∀ (engine : Engine) (app : App), engine.settings.checkGuarantees = true →
      app.violations = [] → ∃ lines analysis, engine.run app = (lines, .ok analysis) := by
  have hclean : tagged.violations = [] := by decide +kernel
  have hstops := run_of_tagged .default
  refine ⟨hclean, hstops, fun returns => ?_⟩
  obtain ⟨lines, analysis, hreturned⟩ := returns ⟨.default, closingTag⟩ tagged rfl hclean
  rw [hstops] at hreturned
  cases hreturned

end Engine

end StackPolicy
