import StackPolicy.Proofs.Locks
import StackPolicy.Proofs.RunResults

/-!
# Reported priorities

An analysis reports the priorities of hardware and software tasks by name, in
one table.  Where a hardware task and a software task have one name, it tells
that of the software task, and locks have to be asked for with another one.
-/

namespace StackPolicy

def Context.IsTask (context : Context) : Prop :=
  context.kind = .hardwareTask ∨ context.kind = .softwareTask

namespace App

/-- Whether no software task of the name of a task has another priority. -/
def Unshadowed (app : App) (task : Context) : Prop :=
  ∀ other ∈ app.contexts, other.kind = .softwareTask → other.name = task.name →
    other.priority = task.priority

theorem unshadowed_iff {app : App} {task : Context} :
    app.Unshadowed task ↔ ∀ other, app.softwareTasks.get? task.name = some other →
      some other.priority = task.priority := by
  constructor
  · intro h other found
    have hrow := Table.get?_eq_some_iff.mp found
    exact h (.ofSoftwareTask task.name other)
      (mem_contexts.mpr (.inr (.inr (.inr ⟨_, hrow, rfl⟩)))) rfl rfl
  · intro h other member hkind hname
    rcases mem_contexts.mp member with
      ⟨init, -, rfl⟩ | ⟨idle, -, rfl⟩ | ⟨row, -, rfl⟩ | ⟨row, hrow, rfl⟩
    · cases hkind
    · cases hkind
    · cases hkind
    · exact h row.2 (by rw [← hname]; exact Table.get?_eq_some_iff.mpr hrow)

/-- The priority of a task is reported exactly if no software task of its name has another. -/
theorem get?_taskPriorities_eq_iff {app : App} {task : Context} (member : task ∈ app.contexts)
    (isTask : task.IsTask) :
    app.taskPriorities.get? task.name = task.priority ↔ app.Unshadowed task := by
  rw [get?_taskPriorities, unshadowed_iff]
  rcases mem_contexts.mp member with
    ⟨init, -, rfl⟩ | ⟨idle, -, rfl⟩ | ⟨row, hrow, rfl⟩ | ⟨row, hrow, rfl⟩
  · rcases isTask with hkind | hkind <;> cases hkind
  · rcases isTask with hkind | hkind <;> cases hkind
  · have hfound := Table.get?_eq_some_iff.mpr hrow
    simp only [Context.ofHardwareTask, Context.ofRoutine, hfound]
    cases app.softwareTasks.get? row.1 with
    | none => simp
    | some other => simp
  · have hfound := Table.get?_eq_some_iff.mpr hrow
    simp only [Context.ofSoftwareTask, Context.ofRoutine, hfound]
    simp

end App

namespace Analysis

/-- The reported priority of a task is that of its context exactly if no software task of its
name has another one, and then it decides the locks of the task. -/
theorem reports_iff_unshadowed {app : App} (h : app.violations = []) (settings : Settings) :
    ∃ analysis lines graph, run settings app = .ok (analysis, lines) ∧
      prepare settings app = .ok graph ∧
      ∀ task ∈ graph.contexts, task.IsTask →
        (analysis.taskPriorities.get? task.name = task.priority ↔ graph.Unshadowed task) ∧
        (graph.Unshadowed task → ∀ resource ∈ task.resources.keys, ∃ priority answer,
          analysis.taskPriorities.get? task.name = some priority ∧
          analysis.needsLock resource priority = .ok answer ∧
          (answer = true ↔ ∃ other ∈ graph.users resource, other ≠ task ∧
            ∃ above, other.priority = some above ∧ priority < above)) := by
  have hsound := App.sound_of_violations h
  have hprepared := prepare_eq_ok (missingCore?_of_sound hsound settings)
  obtain ⟨late, timer, planned, hderives⟩ := exists_derives (sound_prepared hsound settings)
  refine ⟨_, _, _, hderives.run_eq h, hprepared, fun task member hkind => ?_⟩
  have hreports := App.get?_taskPriorities_eq_iff member hkind
  refine ⟨hreports, fun hunshadowed resource hresource => ?_⟩
  have hinit : task.isInit = false := by
    rcases hkind with hkind | hkind <;> simp [Context.isInit, hkind]
  have huser := App.mem_users.mpr ⟨member, hresource, hinit⟩
  obtain ⟨priority, hpriority⟩ := App.exists_priority_of_mem_users huser
  have howned : (assemble settings (prepared settings app)
      (passesOf (prepared settings app) late timer planned)).1.ownerships =
        (ownershipsOf (prepared settings app)).1 := rfl
  obtain ⟨answer, hanswer, hlocks, -⟩ := exists_answer_of_user howned huser hpriority
  exact ⟨priority, answer, (hreports.mpr hunshadowed).trans hpriority, hanswer, hlocks⟩

/-- The filter takes the samples below the task that produces them. -/
theorem reports_filter :
    App.pipeline.violations = [] ∧ ∃ analysis lines,
      run ⟨false, true, false⟩ App.pipeline = .ok (analysis, lines) ∧
        analysis.taskPriorities.get? "filter" = some 2 ∧
        analysis.needsLock "samples" 2 = .ok true := by
  obtain ⟨filter, hfilter, hkind, hname, htwo, hsamples⟩ : ∃ filter ∈ App.pipeline.contexts,
      filter.kind = .softwareTask ∧ filter.name = "filter" ∧ filter.priority = some 2 ∧
        "samples" ∈ filter.resources.keys :=
    ⟨_, App.mem_contexts.mpr (.inr (.inr (.inr ⟨App.pipeline.softwareTasks.rows.head (by decide),
      List.head_mem _, rfl⟩))), rfl, rfl, rfl, by decide⟩
  obtain ⟨adc, hadc, hinit, hseven, hproduces⟩ : ∃ adc ∈ App.pipeline.contexts,
      adc.isInit = false ∧ adc.priority = some 7 ∧ "samples" ∈ adc.resources.keys :=
    ⟨_, App.mem_contexts.mpr (.inr (.inr (.inl ⟨App.pipeline.hardwareTasks.rows.getLast (by decide),
      List.getLast_mem _, rfl⟩))), rfl, rfl, by decide⟩
  obtain ⟨analysis, lines, graph, hrun, hgraph, hreports⟩ :=
    reports_iff_unshadowed App.violations_pipeline ⟨false, true, false⟩
  cases hgraph
  have hunshadowed : App.pipeline.Unshadowed filter := by
    rw [App.unshadowed_iff, hname, htwo]
    decide
  obtain ⟨hreported, hlocks⟩ := hreports filter hfilter (.inr hkind)
  have hfound := hreported.mpr hunshadowed
  obtain ⟨priority, answer, hpriority, hanswer, habove⟩ := hlocks hunshadowed "samples" hsamples
  rw [hname, htwo] at hfound
  rw [hname, hfound] at hpriority
  cases hpriority
  have hlock : answer = true := by
    refine habove.mpr ⟨adc, App.mem_users.mpr ⟨hadc, hproduces, hinit⟩, ?_, 7, hseven, by decide⟩
    rintro rfl
    rw [htwo] at hseven
    cases hseven
  subst hlock
  exact ⟨App.violations_pipeline, analysis, lines, hrun, hfound, hanswer⟩

/-- A hardware task that shares its log with the idle loop, and a software task of its name. -/
def namesakes : App :=
  { App.idling (.after 0) [("log", ⟨"Log", some "0"⟩)] with
    idles := [⟨.exclusive 0 ["log"] [] []⟩]
    hardwareTasks := .ofList
      [("uart", (Routine.exclusive 0 ["log"] [] []).hardware "UART0" (.after 0))]
    softwareTasks := .ofList
      [("uart", (Routine.exclusive 0 [] [] []).software (.after 1) (.after 0) [])] }

/-- The priority of the software task is reported, which is above the ceiling of the log. -/
theorem not_reports_namesakes :
    namesakes.violations = [] ∧ ∃ analysis lines,
      run ⟨false, true, false⟩ namesakes = .ok (analysis, lines) ∧
        ∃ task ∈ namesakes.contexts, task.kind = .hardwareTask ∧ task.name = "uart" ∧
          task.priority = some 1 ∧ "log" ∈ task.resources.keys ∧
          analysis.taskPriorities.get? "uart" = some 2 ∧
          analysis.needsLock "log" 2 = .error (.aboveCeiling 2 1) := by
  have hclean : namesakes.violations = [] := by decide +kernel
  have hsound := App.sound_of_violations hclean
  obtain ⟨late, timer, planned, hderives⟩ :=
    exists_derives (sound_prepared hsound ⟨false, true, false⟩)
  obtain ⟨analysis, lines, hrun, hownerships, hpriorities⟩ : ∃ analysis lines,
      run ⟨false, true, false⟩ namesakes = .ok (analysis, lines) ∧
        analysis.ownerships = (ownershipsOf namesakes).1 ∧
        analysis.taskPriorities = namesakes.taskPriorities :=
    ⟨_, _, hderives.run_eq hclean, rfl, rfl⟩
  have hrow : namesakes.hardwareTasks.rows.head (by decide) ∈ namesakes.hardwareTasks.rows :=
    List.head_mem _
  have htask := App.mem_contexts.mpr (.inr (.inr (.inl ⟨_, hrow, rfl⟩)))
  have hownership : analysis.ownerships.get? "log" = some (.contended 1) := by
    rw [hownerships]
    decide +kernel
  have hreported : analysis.taskPriorities.get? "uart" = some 2 := by
    rw [hpriorities]
    decide
  exact ⟨hclean, analysis, lines, hrun, _, htask, rfl, rfl, rfl, by decide, hreported,
    needsLock_of_get? hownership 2⟩

end Analysis

end StackPolicy
