import StackPolicy.Proofs.ConcurrentReads
import StackPolicy.Proofs.NewNumbers

/-!
# Concurrent reads after compression

A type has to be safe to read if a shared resource of the type is used at
several priorities, those of all cores taken together.  The new numbers of one
core say nothing about those of another, so compression keeps the obligation
only where the priorities of a single core decide it.
-/

namespace StackPolicy

namespace App

/-! ## New numbers -/

/-- Whether a resource is used on several cores, but at a single priority on each of them. -/
def Spread (app : App) (name : String) : Prop :=
  app.UsersDiffer Context.core name ∧
    ∀ first ∈ app.users name, ∀ second ∈ app.users name, first.core = second.core →
      first.priority = second.priority

instance (app : App) (name : String) : Decidable (app.Spread name) :=
  inferInstanceAs (Decidable (app.UsersDiffer Context.core name ∧
    ∀ first ∈ app.users name, ∀ second ∈ app.users name, first.core = second.core →
      first.priority = second.priority))

/-- The new number of the priority of a context. -/
def newPriority? (app : App) (context : Context) : Option Int :=
  context.priority.bind (app.numbersOn context.core).get?

theorem newPriority?_eq {app : App} {context : Context} (member : context ∈ app.contexts) :
    app.newPriority? context = context.priority.map (app.numberOf context.core) := by
  unfold newPriority?
  cases hpriority : context.priority with
  | none => rfl
  | some priority => exact get?_numbersOn (runsAt_of_mem_contexts member hpriority)

/-- On one core, new numbers differ where the priorities differ. -/
theorem newPriority?_eq_iff {app : App} {first second : Context} (hfirst : first ∈ app.contexts)
    (hsecond : second ∈ app.contexts) (same : first.core = second.core) :
    app.newPriority? first = app.newPriority? second ↔ first.priority = second.priority := by
  rw [newPriority?_eq hfirst, newPriority?_eq hsecond]
  cases hlow : first.priority with
  | none => cases second.priority <;> simp
  | some low =>
      cases hhigh : second.priority with
      | none => simp
      | some high =>
          have hruns := runsAt_of_mem_contexts hsecond hhigh
          rw [← same] at hruns
          simpa [same] using numberOf_eq_numberOf_iff (runsAt_of_mem_contexts hfirst hlow) hruns

theorem usersDiffer_iff_of_not_spread {app : App} {name : String} (h : ¬app.Spread name) :
    app.UsersDiffer app.newPriority? name ↔ app.UsersDiffer Context.priority name := by
  have hiff {first second : Context} (hfirst : first ∈ app.users name)
      (hsecond : second ∈ app.users name) (same : first.core = second.core) :=
    newPriority?_eq_iff (mem_users.mp hfirst).1 (mem_users.mp hsecond).1 same
  by_cases hcores : app.UsersDiffer Context.core name
  · -- the users of one core are enough to tell both numberings apart
    have hcore : ∃ first ∈ app.users name, ∃ second ∈ app.users name,
        first.core = second.core ∧ first.priority ≠ second.priority := by
      by_contra hnone
      apply h
      refine ⟨hcores, fun first hfirst second hsecond hsame => ?_⟩
      by_contra hapart
      exact hnone ⟨first, hfirst, second, hsecond, hsame, hapart⟩
    obtain ⟨first, hfirst, second, hsecond, hsame, hapart⟩ := hcore
    exact iff_of_true
      ⟨first, hfirst, second, hsecond, fun hnew => hapart ((hiff hfirst hsecond hsame).mp hnew)⟩
      ⟨first, hfirst, second, hsecond, hapart⟩
  · have hone : ∀ first ∈ app.users name, ∀ second ∈ app.users name,
        first.core = second.core := by
      intro first hfirst second hsecond
      by_contra hapart
      exact hcores ⟨first, hfirst, second, hsecond, hapart⟩
    exact usersDiffer_congr fun first hfirst second hsecond =>
      hiff hfirst hsecond (hone first hfirst second hsecond)

theorem readersDiffer_compressed (app : App) (ty : String) :
    app.compressed.ReadersDiffer Context.priority ty ↔ app.ReadersDiffer app.newPriority? ty := by
  have hread (name : String) : app.compressed.IsRead name ↔ app.IsRead name := by
    simp only [IsRead, contexts_compressed, List.mem_map, exists_exists_and_eq_and,
      resources_renumber]
  have hdiffer (name : String) : app.compressed.UsersDiffer Context.priority name ↔
      app.UsersDiffer app.newPriority? name := by
    have hnumber : ∀ user ∈ app.users name,
        (app.renumber user).priority = app.newPriority? user := by
      intro user member
      have hcontext := (mem_users.mp member).1
      rw [priority_renumber hcontext, newPriority?_eq hcontext]
    have hrenumbered : app.UsersDiffer (fun user => (app.renumber user).priority) name ↔
        app.UsersDiffer app.newPriority? name := by
      apply usersDiffer_congr
      intro first hfirst second hsecond
      rw [hnumber first hfirst, hnumber second hsecond]
    rw [← hrenumbered]
    simp only [UsersDiffer, users_compressed, List.mem_map, exists_exists_and_eq_and]
  simp only [ReadersDiffer, hread, hdiffer]
  rfl

end App

namespace Analysis

/-! ## Runs -/

/-- Without compression the readers differ by their priorities, and with it by their new
numbers. -/
theorem exists_concurrentReads {app : App} (h : app.violations = []) (settings : Settings) :
    ∃ plain lines compressed reports,
      run { settings with optimizePriorities := false } app = .ok (plain, lines) ∧
      run { settings with optimizePriorities := true } app = .ok (compressed, reports) ∧
      ∀ ty, (ty ∈ plain.concurrentReadSafe ↔ app.ReadersDiffer Context.priority ty) ∧
        (ty ∈ compressed.concurrentReadSafe ↔ app.ReadersDiffer app.newPriority? ty) := by
  obtain ⟨hsound, hclean⟩ := App.violations_eq_nil_iff.mp h
  obtain ⟨_, _, _, hplain⟩ := exists_derives hsound
  obtain ⟨_, _, _, hcompressed⟩ := exists_derives hsound.compressed
  refine ⟨_, _, _, _, hplain.run_plain h settings, hcompressed.run_compressed h settings,
    fun ty => ⟨hplain.mem_concurrentRead_iff hsound hclean ty, ?_⟩⟩
  rw [← App.readersDiffer_compressed]
  exact hcompressed.mem_concurrentRead_iff hsound.compressed hclean.compressed ty

/-- Compression keeps the obligation to read a type safely, unless a shared resource of the
type is used on several cores, and at a single priority on each of them. -/
theorem concurrentReadSafe_compressed_iff {app : App} (h : app.violations = [])
    (settings : Settings) :
    ∃ plain lines compressed reports,
      run { settings with optimizePriorities := false } app = .ok (plain, lines) ∧
      run { settings with optimizePriorities := true } app = .ok (compressed, reports) ∧
      ∀ ty, (ty ∈ plain.concurrentReadSafe ↔ app.ReadersDiffer Context.priority ty) ∧
        (ty ∈ compressed.concurrentReadSafe ↔ app.ReadersDiffer app.newPriority? ty) ∧
        ((∀ row ∈ app.resources.rows, row.2.ty = ty → app.IsRead row.1 → ¬app.Spread row.1) →
          (ty ∈ compressed.concurrentReadSafe ↔ ty ∈ plain.concurrentReadSafe)) := by
  obtain ⟨plain, lines, compressed, reports, hplain, hcompressed, hreads⟩ :=
    exists_concurrentReads h settings
  refine ⟨plain, lines, compressed, reports, hplain, hcompressed, fun ty => ?_⟩
  obtain ⟨hbefore, hafter⟩ := hreads ty
  refine ⟨hbefore, hafter, fun hspread => ?_⟩
  rw [hafter, hbefore]
  apply exists_congr
  intro row
  apply and_congr_right
  intro hrow
  apply and_congr_right
  intro hty
  apply and_congr_right
  intro hread
  exact App.usersDiffer_iff_of_not_spread (hspread row hrow hty hread)

/-- A routine that accesses some resources in shared mode. -/
def sharing (core : Nat) (resources : List String) : Routine :=
  { Routine.exclusive core [] [] [] with
    resources := .ofList (resources.map fun name => (name, .shared)) }

/-- Two cores, of which the second one has no priority below that of its monitor. -/
def monitored : App :=
  { App.idling (.after 1) [("clock", ⟨"Clock", some "0"⟩), ("level", ⟨"Level", some "0"⟩),
      ("setup", ⟨"Setup", some "0"⟩)] with
    softwareTasks := .ofList
      [("log", (sharing 0 ["clock", "setup"]).software (.after 0) (.after 0) []),
        ("control", (sharing 0 ["clock", "level"]).software (.after 1) (.after 0) []),
        ("monitor", (sharing 1 ["level", "setup"]).software (.after 1) (.after 0) [])] }

theorem violations_monitored : monitored.violations = [] := by
  decide +kernel

theorem concurrentReadSafe_monitored :
    monitored.violations = [] ∧ ∃ plain lines compressed reports,
      run ⟨false, true, false⟩ monitored = .ok (plain, lines) ∧
      run ⟨true, true, false⟩ monitored = .ok (compressed, reports) ∧
      "Clock" ∈ plain.concurrentReadSafe ∧ "Clock" ∈ compressed.concurrentReadSafe := by
  obtain ⟨plain, lines, compressed, reports, hplain, hcompressed, hreads⟩ :=
    concurrentReadSafe_compressed_iff violations_monitored ⟨false, true, false⟩
  obtain ⟨hbefore, -, hkept⟩ := hreads "Clock"
  have hclock : "Clock" ∈ plain.concurrentReadSafe := hbefore.mpr (by decide +kernel)
  refine ⟨violations_monitored, plain, lines, compressed, reports, hplain, hcompressed, hclock, ?_⟩
  exact (hkept (by decide +kernel)).mpr hclock

/-- Priority 2 of the second core gets number 1, so the readers of the setup no longer differ,
and those of the level do. -/
theorem concurrentReadSafe_ne_monitored :
    monitored.violations = [] ∧ ∃ plain lines compressed reports,
      run ⟨false, true, false⟩ monitored = .ok (plain, lines) ∧
      run ⟨true, true, false⟩ monitored = .ok (compressed, reports) ∧
      ("Setup" ∈ plain.concurrentReadSafe ∧ "Setup" ∉ compressed.concurrentReadSafe) ∧
      ("Level" ∉ plain.concurrentReadSafe ∧ "Level" ∈ compressed.concurrentReadSafe) := by
  obtain ⟨plain, lines, compressed, reports, hplain, hcompressed, hreads⟩ :=
    exists_concurrentReads violations_monitored ⟨false, true, false⟩
  obtain ⟨hsetup, hnoSetup⟩ := hreads "Setup"
  obtain ⟨hnoLevel, hlevel⟩ := hreads "Level"
  refine ⟨violations_monitored, plain, lines, compressed, reports, hplain, hcompressed,
    ⟨hsetup.mpr ?_, fun h => absurd (hnoSetup.mp h) ?_⟩,
    ⟨fun h => absurd (hnoLevel.mp h) ?_, hlevel.mpr ?_⟩⟩
  all_goals decide +kernel

end Analysis

end StackPolicy
