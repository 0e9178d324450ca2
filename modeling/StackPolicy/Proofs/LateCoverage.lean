import Mathlib.Data.List.Nodup
import StackPolicy.Proofs.LatePartition

/-!
# Late resources without a provider

A sound application has every late resource provided, except for those that
are claimed on the core that takes the rest.
-/

namespace StackPolicy.LatePartition

/-- Every late resource is provided, a claimed one by the core that claims it, and one that
nobody claims by the core that takes the rest. -/
structure Complete (app : App) (partition : LatePartition) : Prop where
  late : ∀ name ∈ app.lateResources.keys, ∃ core, partition.Provides core name
  claimed : ∀ init ∈ app.inits, ∀ name ∈ init.late, partition.Provides init.core name
  unclaimed : ∀ name ∈ app.lateResources.keys, (∀ init ∈ app.inits, name ∉ init.late) →
    ∃ rest ∈ app.inits, rest.late = [] ∧ partition.Provides rest.core name

/-- No routine makes claims on a core that takes the rest. -/
def RestAlone (app : App) : Prop :=
  ∀ rest ∈ app.inits, rest.late = [] → ∀ init ∈ app.inits, init.core = rest.core →
    init.late = []

theorem not_mem_restCores {app : App} (alone : RestAlone app) {init : InitRoutine}
    (member : init ∈ app.inits) (claims : init.late ≠ []) : init.core ∉ app.restCores := by
  intro hcore
  obtain ⟨rest, hrest, hlate, hsame⟩ := App.mem_restCores.mp hcore
  exact claims (alone rest hrest hlate init member hsame.symm)

theorem core_eq_of_claims {app : App} (sound : app.Sound) {first second : InitRoutine}
    (hfirst : first ∈ app.inits) (hsecond : second ∈ app.inits) {name : String}
    (claimed : name ∈ first.late) (again : name ∈ second.late) : first.core = second.core := by
  have hone := App.mem_claims.mpr ⟨first, hfirst, rfl, claimed⟩
  have htwo := App.mem_claims.mpr ⟨second, hsecond, rfl, again⟩
  have hsame := List.inj_on_of_nodup_map sound.claims_nodup hone htwo rfl
  exact (Prod.mk.inj hsame).1

theorem late_eq_nil_of_no_late {app : App} (sound : app.Sound)
    (none : app.lateResources.rows = []) {init : InitRoutine} (member : init ∈ app.inits) :
    init.late = [] := by
  apply List.eq_nil_iff_forall_not_mem.mpr
  intro name hname
  have hlate := sound.late_of_claim init member name hname
  unfold Table.keys at hlate
  rw [none] at hlate
  cases hlate

section Sound

variable {app : App} {partition : LatePartition} (sound : app.Sound)
  (provides : ∀ core name, partition.Provides core name ↔
    if core ∈ app.restCores then
      name ∈ app.lateResources.keys ∧ ∀ init ∈ app.inits, name ∉ init.late
    else ∃ init ∈ app.inits, init.core = core ∧ name ∈ init.late)

include provides

theorem provides_of_claim {init : InitRoutine} (member : init ∈ app.inits) {name : String}
    (claimed : name ∈ init.late) (apart : init.core ∉ app.restCores) :
    partition.Provides init.core name := by
  rw [provides, if_neg apart]
  exact ⟨init, member, rfl, claimed⟩

include sound

theorem provides_of_unclaimed {name : String} (late : name ∈ app.lateResources.keys)
    (unclaimed : ∀ init ∈ app.inits, name ∉ init.late) :
    ∃ rest ∈ app.inits, rest.late = [] ∧ partition.Provides rest.core name := by
  have hrests : app.restCores ≠ [] := by
    intro hnone
    obtain ⟨init, member, hname⟩ := sound.claimed_of_no_rest hnone name late
    exact unclaimed init member hname
  obtain ⟨core, hcore⟩ := List.exists_mem_of_ne_nil _ hrests
  obtain ⟨rest, member, hlate, rfl⟩ := App.mem_restCores.mp hcore
  refine ⟨rest, member, hlate, ?_⟩
  rw [provides, if_pos hcore]
  exact ⟨late, unclaimed⟩

/-- A late resource has no provider if it is claimed on the core that takes the rest. -/
theorem exists_provides_iff {name : String} (late : name ∈ app.lateResources.keys) :
    (∃ core, partition.Provides core name) ↔
      ∀ init ∈ app.inits, name ∈ init.late → init.core ∉ app.restCores := by
  constructor
  · rintro ⟨core, hprovides⟩ init member hname hrest
    rw [provides] at hprovides
    split at hprovides
    · exact hprovides.2 init member hname
    · rename_i hcore
      obtain ⟨other, hother, rfl, hagain⟩ := hprovides
      exact hcore (core_eq_of_claims sound member hother hname hagain ▸ hrest)
  · intro hall
    by_cases hclaimed : ∃ init ∈ app.inits, name ∈ init.late
    · obtain ⟨init, member, hname⟩ := hclaimed
      exact ⟨init.core, provides_of_claim provides member hname (hall init member hname)⟩
    · have hunclaimed : ∀ init ∈ app.inits, name ∉ init.late := fun init member hname =>
        hclaimed ⟨init, member, hname⟩
      obtain ⟨rest, -, -, hrest⟩ := provides_of_unclaimed sound provides late hunclaimed
      exact ⟨rest.core, hrest⟩

theorem complete_of_restAlone (alone : RestAlone app) : partition.Complete app := by
  have hclaimed : ∀ init ∈ app.inits, ∀ name ∈ init.late,
      partition.Provides init.core name := by
    intro init member name hname
    apply provides_of_claim provides member hname
    exact not_mem_restCores alone member (List.ne_nil_of_mem hname)
  refine ⟨fun name hlate => ?_, hclaimed, fun name hlate hunclaimed =>
    provides_of_unclaimed sound provides hlate hunclaimed⟩
  rw [exists_provides_iff sound provides hlate]
  intro init member hname
  exact not_mem_restCores alone member (List.ne_nil_of_mem hname)

omit sound

theorem restAlone_of_complete (complete : partition.Complete app) : RestAlone app := by
  intro rest hrest hlate init member hcore
  apply List.eq_nil_iff_forall_not_mem.mpr
  intro name hname
  have hprovides := complete.claimed init member name hname
  have hmem : init.core ∈ app.restCores := App.mem_restCores.mpr ⟨rest, hrest, hlate, hcore.symm⟩
  rw [provides, if_pos hmem] at hprovides
  exact hprovides.2 init member hname

end Sound

/-- A sound application has a partition, which is complete exactly if no routine makes claims
on the core that takes the rest.  The claims that such a routine makes are lost, and no others. -/
theorem complete_iff_restAlone {app : App} (h : app.violations = []) :
    ∃ partition, ofApp app = .ok partition ∧
      (partition.Complete app ↔ RestAlone app) ∧
      ∀ name ∈ app.lateResources.keys, (∃ core, partition.Provides core name) ↔
        ∀ init ∈ app.inits, name ∈ init.late → init.core ∉ app.restCores := by
  have hsound := App.sound_of_violations h
  by_cases hlate : app.lateResources.rows = []
  · have hempty : ∀ name, name ∉ app.lateResources.keys := by
      simp [Table.keys, hlate]
    have hclaims : ∀ init ∈ app.inits, init.late = [] := fun _ member =>
      late_eq_nil_of_no_late hsound hlate member
    refine ⟨∅, ofApp_of_no_late hlate, ⟨fun _ => ?_, fun _ => ⟨?_, ?_, ?_⟩⟩, ?_⟩
    · intro rest _ _ init member _
      exact hclaims init member
    · intro name member
      exact absurd member (hempty name)
    · intro init member name hname
      rw [hclaims init member] at hname
      cases hname
    · intro name member
      exact absurd member (hempty name)
    · intro name member
      exact absurd member (hempty name)
  · obtain ⟨partition, hpartition, hprovides⟩ :=
      provides_ofApp hlate (hsound.rests_le_one hlate)
    refine ⟨partition, hpartition, ⟨restAlone_of_complete hprovides,
      complete_of_restAlone hsound hprovides⟩, fun name member => ?_⟩
    exact exists_provides_iff hsound hprovides member

theorem complete_pipeline :
    App.pipeline.violations = [] ∧
      ∃ partition, ofApp App.pipeline = .ok partition ∧ partition.Complete App.pipeline := by
  obtain ⟨partition, hpartition, hcomplete, -⟩ :=
    complete_iff_restAlone App.violations_pipeline
  have halone : RestAlone App.pipeline := by
    unfold RestAlone
    decide
  exact ⟨App.violations_pipeline, partition, hpartition, hcomplete.mpr halone⟩

/-- One core with two routines, of which one takes the rest and one makes a claim. -/
def sharedCore : App :=
  { App.idling (.after 0) [("A", ⟨"A", none⟩), ("B", ⟨"B", none⟩)] with
    inits := [⟨.exclusive 0 [] [] [], []⟩, ⟨.exclusive 0 [] [] [], ["A"]⟩] }

theorem initsByCore_sharedCore : sharedCore.initsByCore = sharedCore.inits :=
  App.initsByCore_of_pairwise (by decide)

theorem violations_sharedCore : sharedCore.violations = [] := by
  unfold App.violations App.exclusiveViolations App.modeViolations App.restViolations
    App.unclaimedViolations App.declaredAccesses App.accesses App.contexts App.claims
    App.restCores
  rw [initsByCore_sharedCore]
  decide +kernel

theorem ofApp_sharedCore : ofApp sharedCore = .ok (.ofList [(0, .ofList ["B"])]) := by
  unfold ofApp
  rw [initsByCore_sharedCore]
  decide +kernel

/-- The claim on `A` is lost when the core gets the rest, which is `B`. -/
theorem not_complete_sharedCore :
    sharedCore.violations = [] ∧ ∃ partition, ofApp sharedCore = .ok partition ∧
      (¬∃ core, partition.Provides core "A") ∧ ¬partition.Complete sharedCore := by
  have hlate : "A" ∈ sharedCore.lateResources.keys := by decide
  have hlost : ¬∃ core, Provides (.ofList [(0, .ofList ["B"])]) core "A" := by
    rintro ⟨core, names, hfound, hname⟩
    have hrow := Table.mem_of_get?_ofList hfound
    rw [List.mem_singleton] at hrow
    cases hrow
    simp at hname
  refine ⟨violations_sharedCore, _, ofApp_sharedCore, hlost, fun hcomplete => ?_⟩
  exact hlost (hcomplete.late "A" hlate)

end StackPolicy.LatePartition
