import StackPolicy.Proofs.Locks
import StackPolicy.Proofs.NewNumbers
import StackPolicy.Proofs.RunResults

/-!
# Lock decisions after compression

A resource that the contexts of one core alone use keeps its kind of ownership
when the priorities of the core get new numbers, and every access to it keeps
its lock decision.  Both follow from the order of the new numbers.
-/

namespace StackPolicy

namespace Ownership

/-- The same kind of ownership at another level. -/
def withLevel (ownership : Ownership) (level : Int) : Ownership :=
  match ownership with
  | owned _ => owned level
  | coOwned _ => coOwned level
  | contended _ => contended level

/-- What describes some priorities describes their numbers, if these are in the same order. -/
theorem Describes.map {ownership : Ownership} {priorities : List Int}
    (h : ownership.Describes priorities) {number : Int → Int}
    (ordered : ∀ first ∈ priorities, ∀ second ∈ priorities,
      (number first < number second ↔ first < second)) :
    (ownership.withLevel (number ownership.level)).Describes (priorities.map number) := by
  cases ownership with
  | owned owner =>
      rw [show priorities = [owner] from h]
      rfl
  | coOwned owner =>
      obtain ⟨hlength, hall⟩ := h
      refine ⟨by rwa [List.length_map], ?_⟩
      rw [List.forall_mem_map]
      intro other member
      rw [hall other member]
      rfl
  | contended ceiling =>
      obtain ⟨hceiling, hbound, other, hother, hlt⟩ := h
      refine ⟨List.mem_map_of_mem hceiling, ?_, number other, List.mem_map_of_mem hother,
        (ordered other hother ceiling hceiling).mpr hlt⟩
      rw [List.forall_mem_map]
      intro priority member
      have hle := hbound priority member
      have habove : number ceiling < number priority ↔ ceiling < priority :=
        ordered ceiling hceiling priority member
      change number priority ≤ number ceiling
      omega

theorem needsLock_withLevel {ownership : Ownership} {priority : Int}
    (below : priority ≤ ownership.level) {number : Int → Int}
    (ordered : number priority < number ownership.level ↔ priority < ownership.level)
    (bounded : number priority ≤ number ownership.level) :
    (ownership.withLevel (number ownership.level)).needsLock (number priority) =
      ownership.needsLock priority := by
  cases ownership with
  | owned owner => rfl
  | coOwned owner => rfl
  | contended ceiling =>
      simp only [level] at below ordered bounded
      simp only [withLevel, needsLock, level, if_pos below, if_pos bounded, ordered]

end Ownership

namespace Analysis

/-! ## Resources of one core -/

section OneCore

variable {app : App} {core : Int} {name : String}
  (alone : ∀ user ∈ app.users name, user.core = core)

include alone

theorem runsAt_of_mem_prioritiesOf {priority : Int}
    (member : priority ∈ Access.prioritiesOf name app.accesses) : app.RunsAt core priority := by
  obtain ⟨user, huser, hpriority⟩ := App.mem_prioritiesOf_accesses.mp member
  rw [← alone user huser]
  exact App.runsAt_of_mem_contexts (App.mem_users.mp huser).1 hpriority

theorem prioritiesOf_compressed :
    Access.prioritiesOf name app.compressed.accesses =
      (Access.prioritiesOf name app.accesses).map (app.numberOf core) := by
  rw [App.prioritiesOf_accesses, App.prioritiesOf_accesses, App.users_compressed,
    List.filterMap_map, List.map_filterMap]
  apply List.filterMap_congr
  intro user huser
  have hpriority := App.priority_renumber (App.mem_users.mp huser).1
  rwa [alone user huser] at hpriority

theorem summarizes_compressed :
    Ownership.Summarizes
      (((ownershipsOf app).1.get? name).map fun ownership =>
        ownership.withLevel (app.numberOf core ownership.level))
      (Access.prioritiesOf name app.compressed.accesses) := by
  have hsummary := summarizes_ownershipsOf app name
  rw [prioritiesOf_compressed alone]
  cases hownership : (ownershipsOf app).1.get? name with
  | none =>
      rw [hownership] at hsummary
      exact congrArg (List.map _) hsummary
  | some ownership =>
      rw [hownership] at hsummary
      exact Ownership.Describes.map hsummary fun first hfirst second hsecond =>
        App.numberOf_lt_numberOf_iff (runsAt_of_mem_prioritiesOf alone hfirst)
          (runsAt_of_mem_prioritiesOf alone hsecond)

theorem get?_ownershipsOf_compressed :
    (ownershipsOf app.compressed).1.get? name =
      ((ownershipsOf app).1.get? name).map fun ownership =>
        ownership.withLevel (app.numberOf core ownership.level) :=
  (summarizes_ownershipsOf app.compressed name).unique (summarizes_compressed alone) (.refl _)

/-- The lock decision of an access is the same for the new numbers. -/
theorem exists_ownership_of_user {priority : Int}
    (member : priority ∈ Access.prioritiesOf name app.accesses) :
    ∃ ownership answer, (ownershipsOf app).1.get? name = some ownership ∧
      ownership.needsLock priority = .ok answer ∧
      (ownership.withLevel (app.numberOf core ownership.level)).needsLock
        (app.numberOf core priority) = .ok answer := by
  obtain ⟨ownership, hownership, hdescribes⟩ := exists_ownership_of_mem member
  obtain ⟨answer, hanswer, -, -⟩ := hdescribes.needsLock member
  have hpriority := runsAt_of_mem_prioritiesOf alone member
  have hlevel := runsAt_of_mem_prioritiesOf alone hdescribes.level_mem
  have hbelow := hdescribes.le_level member
  have hordered := App.numberOf_lt_numberOf_iff hpriority hlevel
  have habove := App.numberOf_lt_numberOf_iff hlevel hpriority
  refine ⟨ownership, answer, hownership, hanswer, ?_⟩
  rw [Ownership.needsLock_withLevel hbelow hordered (by omega)]
  exact hanswer

end OneCore

/-! ## Runs -/

/-- A resource whose users run on one core keeps its kind of ownership, with the new number of
its priority or ceiling, and its users keep their lock decisions. -/
theorem needsLock_compressed {app : App} (h : app.violations = []) (settings : Settings) :
    ∃ plain lines compressed reports,
      run { settings with optimizePriorities := false } app = .ok (plain, lines) ∧
      run { settings with optimizePriorities := true } app = .ok (compressed, reports) ∧
      ∀ core name, (∀ user ∈ app.users name, user.core = core) →
        (plain.ownerships.get? name = none → compressed.ownerships.get? name = none) ∧
        (∀ ownership, plain.ownerships.get? name = some ownership →
          ∃ number, (app.numbersOn core).get? ownership.level = some number ∧
            compressed.ownerships.get? name = some (ownership.withLevel number)) ∧
        ∀ user ∈ app.users name, ∃ priority number answer, user.priority = some priority ∧
          (app.numbersOn core).get? priority = some number ∧
          plain.needsLock name priority = .ok answer ∧
          compressed.needsLock name number = .ok answer := by
  have hsound := App.sound_of_violations h
  obtain ⟨_, _, _, hplain⟩ := exists_derives hsound
  obtain ⟨_, _, _, hcompressed⟩ := exists_derives hsound.compressed
  refine ⟨_, _, _, _, hplain.run_plain h settings, hcompressed.run_compressed h settings,
    fun core name alone => ?_⟩
  have hownership := get?_ownershipsOf_compressed alone
  refine ⟨fun hnone => ?_, fun ownership hsome => ?_, fun user huser => ?_⟩
  · exact hownership.trans (congrArg (Option.map _) hnone)
  · have hdescribes := describes_of_get?_ownershipsOf hsome
    have hlevel := runsAt_of_mem_prioritiesOf alone hdescribes.level_mem
    exact ⟨_, App.get?_numbersOn hlevel, hownership.trans (congrArg (Option.map _) hsome)⟩
  · obtain ⟨priority, hpriority⟩ := App.exists_priority_of_mem_users huser
    have hmember : priority ∈ Access.prioritiesOf name app.accesses :=
      App.mem_prioritiesOf_accesses.mpr ⟨user, huser, hpriority⟩
    have hruns := runsAt_of_mem_prioritiesOf alone hmember
    obtain ⟨ownership, answer, hsome, hanswer, hkept⟩ := exists_ownership_of_user alone hmember
    refine ⟨priority, _, answer, hpriority, App.get?_numbersOn hruns, ?_, ?_⟩
    · exact (needsLock_of_get? hsome priority).trans hanswer
    · exact (needsLock_of_get? (hownership.trans (congrArg (Option.map _) hsome)) _).trans hkept

/-- The log is used on the first core only, and its task with priority 4 gets number 1. -/
theorem needsLock_compressedPipeline :
    App.pipeline.violations = [] ∧ (∀ user ∈ App.pipeline.users "log", user.core = 0) ∧
      ∃ plain lines compressed reports answer,
        run ⟨false, true, false⟩ App.pipeline = .ok (plain, lines) ∧
        run ⟨true, true, false⟩ App.pipeline = .ok (compressed, reports) ∧
        plain.needsLock "log" 4 = .ok answer ∧ compressed.needsLock "log" 1 = .ok answer := by
  have hidles : ∀ idle ∈ App.pipeline.idles, (Context.ofIdle idle).core = 0 := by
    decide
  have hhardware : ∀ row ∈ App.pipeline.hardwareTasks.rows,
      "log" ∈ (Context.ofHardwareTask row.1 row.2).resources.keys → row.2.core = 0 := by
    decide
  have hsoftware : ∀ row ∈ App.pipeline.softwareTasks.rows,
      "log" ∈ (Context.ofSoftwareTask row.1 row.2).resources.keys → row.2.core = 0 := by
    decide
  have halone : ∀ user ∈ App.pipeline.users "log", user.core = 0 := by
    intro user huser
    obtain ⟨hcontext, hlog, hinit⟩ := App.mem_users.mp huser
    rcases App.mem_contexts.mp hcontext with
      ⟨init, -, rfl⟩ | ⟨idle, hidle, rfl⟩ | ⟨row, hrow, rfl⟩ | ⟨row, hrow, rfl⟩
    · cases hinit
    · exact hidles idle hidle
    · exact hhardware row hrow hlog
    · exact hsoftware row hrow hlog
  obtain ⟨plain, lines, compressed, reports, hplain, hcompressed, hresources⟩ :=
    needsLock_compressed App.violations_pipeline ⟨false, true, false⟩
  obtain ⟨uart, huart, hinit, -, hfour, hlog, -⟩ := App.exists_uart
  obtain ⟨-, -, hlocks⟩ := hresources 0 "log" halone
  obtain ⟨priority, number, answer, hpriority, hnumber, hbefore, hafter⟩ :=
    hlocks uart (App.mem_users.mpr ⟨huart, hlog, hinit⟩)
  obtain rfl : priority = 4 := Option.some.inj (hpriority.symm.trans hfour)
  have hone : (App.pipeline.numbersOn 0).get? 4 = some 1 := by
    decide +kernel
  obtain rfl : number = 1 := Option.some.inj (hnumber.symm.trans hone)
  exact ⟨App.violations_pipeline, halone, plain, lines, compressed, reports, answer, hplain,
    hcompressed, hbefore, hafter⟩

end Analysis

end StackPolicy
