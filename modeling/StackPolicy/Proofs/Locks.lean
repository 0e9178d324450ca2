import StackPolicy.Proofs.RunOutcomes

/-!
# Lock decisions

A context locks a resource exactly if another context may preempt it and
access the resource at a higher priority.  A resource that is locked has the
highest priority of its users as its ceiling.
-/

namespace StackPolicy

/-- An access is never above the ceiling, and needs a lock if another is above the access. -/
theorem Ownership.Describes.needsLock {ownership : Ownership} {priorities : List Int}
    (h : ownership.Describes priorities) {priority : Int} (member : priority ∈ priorities) :
    ∃ answer, ownership.needsLock priority = .ok answer ∧
      (answer = true ↔ ∃ above ∈ priorities, priority < above) ∧
      (answer = true → ∃ ceiling, ownership = .contended ceiling) := by
  cases ownership with
  | owned owner =>
      have hall : priorities = [owner] := h
      refine ⟨false, rfl, ?_, by simp⟩
      subst hall
      rw [List.mem_singleton] at member
      simp [member]
  | coOwned owner =>
      refine ⟨false, rfl, ?_, by simp⟩
      simp only [Bool.false_eq_true, false_iff]
      rintro ⟨above, habove, hlt⟩
      have hpriority := h.2 priority member
      have hother := h.2 above habove
      omega
  | contended ceiling =>
      have hle : priority ≤ ceiling := h.2.1 priority member
      refine ⟨decide (priority < ceiling), if_pos hle, ?_, fun _ => ⟨ceiling, rfl⟩⟩
      rw [decide_eq_true_eq]
      constructor
      · intro hlt
        exact ⟨ceiling, h.1, hlt⟩
      · rintro ⟨above, habove, hlt⟩
        have hbound := h.2.1 above habove
        omega

namespace Analysis

theorem summarizes_ownershipsOf (app : App) (resource : String) :
    Ownership.Summarizes ((ownershipsOf app).1.get? resource)
      (Access.prioritiesOf resource app.accesses) :=
  Ownerships.summarizes_get?_foldl_take app app.accesses (.start true) resource

theorem describes_of_get?_ownershipsOf {app : App} {resource : String} {ownership : Ownership}
    (found : (ownershipsOf app).1.get? resource = some ownership) :
    ownership.Describes (Access.prioritiesOf resource app.accesses) := by
  have hsummary := summarizes_ownershipsOf app resource
  rw [found] at hsummary
  exact hsummary

/-- A resource that is accessed at some priority has an ownership. -/
theorem exists_ownership_of_mem {app : App} {resource : String} {priority : Int}
    (member : priority ∈ Access.prioritiesOf resource app.accesses) :
    ∃ ownership, (ownershipsOf app).1.get? resource = some ownership ∧
      ownership.Describes (Access.prioritiesOf resource app.accesses) := by
  cases found : (ownershipsOf app).1.get? resource with
  | none =>
      have hsummary := summarizes_ownershipsOf app resource
      rw [found] at hsummary
      rw [show Access.prioritiesOf resource app.accesses = [] from hsummary] at member
      cases member
  | some ownership => exact ⟨ownership, rfl, describes_of_get?_ownershipsOf found⟩

theorem ownerships_of_run {settings : Settings} {app : App} {analysis : Analysis}
    {lines : List Line} (h : run settings app = .ok (analysis, lines)) :
    ∃ graph, prepare settings app = .ok graph ∧
      analysis.ownerships = (ownershipsOf graph).1 := by
  obtain ⟨graph, passes, hgraph, hpasses, hassemble⟩ := exists_passes_of_run h
  cases hassemble
  exact ⟨graph, hgraph, ownerships_of_runPasses hpasses⟩

/-- The greatest priority of the contexts that access a resource, initialization left out. -/
def IsCeiling (graph : App) (resource : String) (ceiling : Int) : Prop :=
  (∃ user ∈ graph.users resource, user.priority = some ceiling) ∧
    ∀ user ∈ graph.users resource, ∀ priority, user.priority = some priority →
      priority ≤ ceiling

theorem isCeiling_of_describes {graph : App} {resource : String} {ceiling : Int}
    (h : (Ownership.contended ceiling).Describes
      (Access.prioritiesOf resource graph.accesses)) : IsCeiling graph resource ceiling := by
  refine ⟨App.mem_prioritiesOf_accesses.mp h.1, fun user member priority hpriority => ?_⟩
  exact h.2.1 priority (App.mem_prioritiesOf_accesses.mpr ⟨user, member, hpriority⟩)

theorem needsLock_of_get? {analysis : Analysis} {resource : String} {ownership : Ownership}
    (found : analysis.ownerships.get? resource = some ownership) (priority : Int) :
    analysis.needsLock resource priority = ownership.needsLock priority := by
  unfold Analysis.needsLock
  rw [found]

/-- The priority of a user is decided: it needs a lock exactly if another user is above it. -/
theorem exists_answer_of_user {graph : App} {analysis : Analysis}
    (derived : analysis.ownerships = (ownershipsOf graph).1) {resource : String}
    {context : Context} (user : context ∈ graph.users resource) {priority : Int}
    (found : context.priority = some priority) :
    ∃ answer, analysis.needsLock resource priority = .ok answer ∧
      (answer = true ↔ ∃ other ∈ graph.users resource, other ≠ context ∧
        ∃ above, other.priority = some above ∧ priority < above) ∧
      (answer = true → ∃ ceiling,
        analysis.ownerships.get? resource = some (.contended ceiling) ∧
          IsCeiling graph resource ceiling) := by
  have hmember : priority ∈ Access.prioritiesOf resource graph.accesses :=
    App.mem_prioritiesOf_accesses.mpr ⟨context, user, found⟩
  obtain ⟨ownership, hownership, hdescribes⟩ := exists_ownership_of_mem hmember
  rw [← derived] at hownership
  obtain ⟨answer, hanswer, habove, hcontended⟩ := hdescribes.needsLock hmember
  rw [needsLock_of_get? hownership]
  refine ⟨answer, hanswer, habove.trans ?_, fun hlock => ?_⟩
  · constructor
    · rintro ⟨above, hmem, hlt⟩
      obtain ⟨other, hother, hpriority⟩ := App.mem_prioritiesOf_accesses.mp hmem
      refine ⟨other, hother, ?_, above, hpriority, hlt⟩
      rintro rfl
      rw [found] at hpriority
      cases hpriority
      omega
    · rintro ⟨other, hother, -, above, hpriority, hlt⟩
      exact ⟨above, App.mem_prioritiesOf_accesses.mpr ⟨other, hother, hpriority⟩, hlt⟩
  · obtain ⟨ceiling, rfl⟩ := hcontended hlock
    exact ⟨ceiling, hownership, isCeiling_of_describes hdescribes⟩

/-- Every access of a run is decided: it needs a lock exactly if another context accesses the
resource at a higher priority, and then the ceiling is that of the resource. -/
theorem needsLock_eq_true_iff {settings : Settings} {app : App} {analysis : Analysis}
    {lines : List Line} (h : run settings app = .ok (analysis, lines)) :
    ∃ graph, prepare settings app = .ok graph ∧
      ∀ context ∈ graph.contexts, context.isInit = false →
        ∀ resource ∈ context.resources.keys, ∃ priority answer,
          context.priority = some priority ∧
          analysis.needsLock resource priority = .ok answer ∧
          (answer = true ↔ ∃ other ∈ graph.users resource, other ≠ context ∧
            ∃ above, other.priority = some above ∧ priority < above) ∧
          (answer = true → ∃ ceiling,
            analysis.ownerships.get? resource = some (.contended ceiling) ∧
              IsCeiling graph resource ceiling) := by
  obtain ⟨graph, hgraph, hownerships⟩ := ownerships_of_run h
  refine ⟨graph, hgraph, fun context hcontext hinit resource hresource => ?_⟩
  have huser : context ∈ graph.users resource := App.mem_users.mpr ⟨hcontext, hresource, hinit⟩
  obtain ⟨priority, hpriority⟩ := App.exists_priority_of_mem_users huser
  obtain ⟨answer, hanswer⟩ := exists_answer_of_user hownerships huser hpriority
  exact ⟨priority, answer, hpriority, hanswer⟩

/-- The idle loop shares its log with a task of its core. -/
theorem needsLock_pipeline :
    ∃ analysis lines, run ⟨false, true, false⟩ App.pipeline = .ok (analysis, lines) ∧
      analysis.needsLock "log" 0 = .ok true := by
  have hnone := runFailure?_of_violations App.violations_pipeline ⟨false, true, false⟩
  obtain ⟨⟨analysis, lines⟩, hrun⟩ := exists_run (fun _ => App.violations_pipeline) hnone
  obtain ⟨graph, hgraph, hlocks⟩ := needsLock_eq_true_iff hrun
  cases hgraph
  have hidle : Context.ofIdle (App.pipeline.idles.head (by decide)) ∈ App.pipeline.contexts :=
    App.mem_contexts.mpr (.inr (.inl ⟨_, List.head_mem _, rfl⟩))
  obtain ⟨uart, huart, hinit, -, hfour, hlog, -⟩ := App.exists_uart
  obtain ⟨priority, answer, hpriority, hanswer, habove, -⟩ :=
    hlocks _ hidle rfl "log" (by decide)
  cases hpriority
  have hlock : answer = true := by
    apply habove.mpr
    refine ⟨uart, App.mem_users.mpr ⟨huart, hlog, hinit⟩, ?_, 4, hfour, by decide⟩
    rintro rfl
    cases hfour
  subst hlock
  exact ⟨analysis, lines, hrun, hanswer⟩

end Analysis

end StackPolicy
