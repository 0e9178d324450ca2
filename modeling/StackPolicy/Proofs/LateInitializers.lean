import StackPolicy.Proofs.InitBarriers

/-!
# Late resources have one initializer

The initializer of a resource is the first core found whose set holds it.  In
the partition of a sound application no name is in two sets, so any order of
search finds the same core, and none for a resource that is not late.
-/

namespace StackPolicy.LatePartition

theorem eq_of_length_le_one {Item : Type} {items : List Item} (few : items.length ≤ 1)
    {first second : Item} (hfirst : first ∈ items) (hsecond : second ∈ items) :
    first = second := by
  match items, few with
  | [], _ => cases hfirst
  | [item], _ => rw [List.mem_singleton.mp hfirst, List.mem_singleton.mp hsecond]

/-- Cores in ascending order, each with an initialization routine, provide late resources, and
no name is provided by two of them. -/
structure Divides (app : App) (partition : LatePartition) : Prop where
  disjoint : partition.rows.Pairwise fun row other => ∀ name ∈ row.2, name ∉ other.2
  late : ∀ row ∈ partition.rows, ∀ name ∈ row.2, name ∈ app.lateResources.keys
  routine : ∀ core ∈ partition.keys, ∃ init ∈ app.inits, init.core = core
  ascending : partition.keys.Pairwise (· < ·)

/-! ## Providers -/

section Sound

variable {app : App} {partition : LatePartition} (sound : app.Sound)
  (h : ofApp app = .ok partition)

include sound h

/-- The core that takes the rest provides what nobody claims, and nothing is claimed twice. -/
theorem core_eq_of_provides {core other : Int} {name : String}
    (provides : partition.Provides core name) (again : partition.Provides other name) :
    core = other := by
  have hlate := late_of_provides sound h provides
  have hfew : app.restCores.length ≤ 1 := by
    apply sound.rests_le_one
    intro hnone
    rw [Table.keys, hnone] at hlate
    cases hlate
  rw [provides_iff sound h] at provides again
  by_cases hcore : core ∈ app.restCores
  · rw [if_pos hcore] at provides
    by_cases hother : other ∈ app.restCores
    · exact eq_of_length_le_one hfew hcore hother
    · rw [if_neg hother] at again
      obtain ⟨init, member, -, hname⟩ := again
      exact absurd hname (provides.2 init member)
  · rw [if_neg hcore] at provides
    obtain ⟨init, member, rfl, hname⟩ := provides
    by_cases hother : other ∈ app.restCores
    · rw [if_pos hother] at again
      exact absurd hname (again.2 init member)
    · rw [if_neg hother] at again
      obtain ⟨second, hsecond, rfl, hagain⟩ := again
      exact core_eq_of_claims sound member hsecond hname hagain

theorem divides_of_ofApp : partition.Divides app where
  disjoint := by
    refine (List.pairwise_map.mp partition.keys_nodup).imp_of_mem
      fun {row other} member hother apart name hname hagain => apart ?_
    exact core_eq_of_provides sound h ⟨row.2, Table.get?_eq_some_iff.mpr member, hname⟩
      ⟨other.2, Table.get?_eq_some_iff.mpr hother, hagain⟩
  late := fun row member name hname =>
    late_of_provides sound h ⟨row.2, Table.get?_eq_some_iff.mpr member, hname⟩
  routine := by
    intro core member
    by_cases hlate : app.lateResources.rows = []
    · rw [ofApp_of_no_late hlate] at h
      cases h
      cases member
    · exact (mem_keys_ofApp hlate h core).mp member
  ascending := by
    obtain ⟨table, rfl⟩ := exists_sorted h
    exact table.ascending_keys_sortByKey

end Sound

/-! ## Search -/

theorem exists_initializerOf? {partition : LatePartition} {core : Int} {name : String}
    (provides : partition.Provides core name) :
    ∃ initializer, partition.initializerOf? name = some initializer := by
  obtain ⟨names, found, hname⟩ := provides
  have hsome : (partition.rows.find? fun row => name ∈ row.2).isSome = true :=
    List.find?_isSome.mpr ⟨_, Table.get?_eq_some_iff.mp found, decide_eq_true hname⟩
  obtain ⟨row, hrow⟩ := Option.isSome_iff_exists.mp hsome
  exact ⟨row.1, congrArg (Option.map Prod.fst) hrow⟩

/-- Where a name has a single provider, the first core found is that one. -/
theorem initializerOf?_eq_some_iff {partition : LatePartition} {name : String}
    (single : ∀ core other, partition.Provides core name → partition.Provides other name →
      core = other) (core : Int) :
    partition.initializerOf? name = some core ↔ partition.Provides core name := by
  constructor
  · exact provides_of_initializerOf?
  · intro provides
    obtain ⟨initializer, hinitializer⟩ := exists_initializerOf? provides
    rw [hinitializer, single core initializer provides (provides_of_initializerOf? hinitializer)]

theorem provides_of_perm {partition searched : LatePartition}
    (same : searched.rows.Perm partition.rows) (core : Int) (name : String) :
    searched.Provides core name ↔ partition.Provides core name := by
  unfold Provides
  rw [Table.get?_of_perm same]

/-- A sound application has a partition that names the initializer of each resource alike in
every order of its rows, and none for a resource that has an initial value or no declaration. -/
theorem initializer_in_any_order {app : App} (h : app.violations = []) :
    ∃ partition, ofApp app = .ok partition ∧ partition.Divides app ∧
      ∀ searched : LatePartition, searched.rows.Perm partition.rows →
        (∀ name core, searched.initializerOf? name = some core ↔
          ∃ names, partition.get? core = some names ∧ name ∈ names) ∧
        ∀ name, (∀ resource, app.resources.get? name = some resource →
          resource.isLate = false) → searched.initializerOf? name = none := by
  have hsound := App.sound_of_violations h
  have hfew : ¬(app.lateResources.rows ≠ [] ∧ 1 < app.restCores.length) := fun hseveral => by
    have hone := hsound.rests_le_one hseveral.1
    omega
  obtain ⟨partition, hpartition⟩ := exists_ofApp hfew
  refine ⟨partition, hpartition, divides_of_ofApp hsound hpartition, fun searched same => ?_⟩
  have hsearched : ∀ name core, searched.initializerOf? name = some core ↔
      partition.Provides core name := by
    intro name core
    rw [← provides_of_perm same]
    apply initializerOf?_eq_some_iff
    intro core other provides again
    rw [provides_of_perm same] at provides again
    exact core_eq_of_provides hsound hpartition provides again
  refine ⟨hsearched, fun name early => ?_⟩
  rw [Option.eq_none_iff_forall_ne_some]
  intro core found
  have hlate := late_of_provides hsound hpartition ((hsearched name core).mp found)
  obtain ⟨resource, hresource, hisLate⟩ := App.mem_keys_lateResources.mp hlate
  rw [early resource hresource] at hisLate
  cases hisLate

/-- The second core claims the samples and the first one takes the link, also where the second
core is asked first. -/
theorem initializer_reversedPipeline :
    App.pipeline.violations = [] ∧ ∃ partition searched : LatePartition,
      ofApp App.pipeline = .ok partition ∧ searched.rows = partition.rows.reverse ∧
        searched.initializerOf? "samples" = some 1 ∧ searched.initializerOf? "link" = some 0 ∧
        searched.initializerOf? "log" = none := by
  have hclean := App.violations_pipeline
  obtain ⟨partition, hpartition, -, hsearch⟩ := initializer_in_any_order hclean
  have hprovides := provides_iff (App.sound_of_violations hclean) hpartition
  have hperm := partition.rows.reverse_perm
  have hdistinct := (hperm.map Prod.fst).nodup_iff.mpr partition.keys_nodup
  obtain ⟨hfound, hnone⟩ := hsearch ⟨partition.rows.reverse, hdistinct⟩ hperm
  have hone : (1 : Int) ∉ App.pipeline.restCores := by
    rw [App.mem_restCores]
    decide
  have hzero : (0 : Int) ∈ App.pipeline.restCores := by
    rw [App.mem_restCores]
    decide
  refine ⟨hclean, partition, _, hpartition, rfl, ?_, ?_, hnone "log" (by decide)⟩
  · refine (hfound "samples" 1).mpr ((hprovides 1 "samples").mpr ?_)
    rw [if_neg hone]
    decide
  · refine (hfound "link" 0).mpr ((hprovides 0 "link").mpr ?_)
    rw [if_pos hzero]
    decide

end StackPolicy.LatePartition
