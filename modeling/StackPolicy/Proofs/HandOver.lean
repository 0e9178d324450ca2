import StackPolicy.Proofs.InitBarriers
import StackPolicy.Proofs.NewNumbers
import StackPolicy.Proofs.RunResults
import StackPolicy.Proofs.TransferSafety

/-!
# Late resources that one core hands over to another

A late resource that a core accesses, but another core initializes, shows in
three results: the core waits for the other one, the type of the resource has
to be safe to transfer, and the location of the resource names the core.
-/

namespace StackPolicy

namespace App

theorem exists_access_iff {app : App} {core : Int} {name : String} :
    (∃ access ∈ app.accesses, access.resource = name ∧ access.core = core) ↔
      ∃ context ∈ app.accessors name, context.core = core := by
  have hcores := app.coresOf_accesses name
  rw [← List.mem_map, ← hcores, Access.coresOf, Access.toResource, List.mem_map]
  simp only [List.mem_filter, decide_eq_true_eq, and_assoc]

end App

namespace Analysis

/-- New priorities do not change where a resource is accessed. -/
theorem exists_accessor_prepared {settings : Settings} {app : App} {core : Int} {name : String} :
    (∃ context ∈ (prepared settings app).accessors name, context.core = core) ↔
      ∃ context ∈ app.accessors name, context.core = core := by
  unfold prepared
  split
  · simp [App.accessors_compressed]
  · rfl

/-! ## Locations -/

theorem exists_location {graph : App} {name : String} {core : Int}
    (used : ∃ context ∈ graph.accessors name, context.core = core) (late : LatePartition) :
    ∃ location, (locationsOf graph late).get? name = some location ∧
      location.Describes ((graph.accessors name).map Context.core) := by
  have hsummary := Locations.summarizes_get?_foldl_take graph.accesses name
  rw [App.coresOf_accesses] at hsummary
  unfold locationsOf
  rw [Table.get?_mapRows]
  cases hlocation : (graph.accesses.foldl Locations.take ∅).get? name with
  | none =>
      rw [hlocation] at hsummary
      have hnil : (graph.accessors name).map Context.core = [] := hsummary
      obtain ⟨context, member, -⟩ := used
      rw [List.map_eq_nil_iff.mp hnil] at member
      cases member
  | some location =>
      rw [hlocation] at hsummary
      exact ⟨_, rfl, hsummary.1.settle late name⟩

/-- The location of a resource that another core initializes is shared by the core that uses
it, or owned by it and marked. -/
theorem location_of_initializer {graph : App} {late : LatePartition} {name : String}
    {user provider : Int} (initialized : late.initializerOf? name = some provider)
    (apart : provider ≠ user) (used : ∃ context ∈ graph.accessors name, context.core = user) :
    (locationsOf graph late).get? name = some (.owned user true) ∨
      ∃ cores, (locationsOf graph late).get? name = some (.shared cores) ∧ user ∈ cores := by
  obtain ⟨location, hlocation, hdescribes⟩ := exists_location used late
  obtain ⟨context, member, rfl⟩ := used
  have hcore := List.mem_map_of_mem (f := Context.core) member
  cases location with
  | owned holder crossInitialized =>
      have hall := hdescribes.2
      have hholder : context.core = holder := hall context.core hcore
      have hcross := (isCrossInitialized_iff graph late name).mpr
        ⟨List.ne_nil_of_mem member, holder,
          fun other hother => hall other.core (List.mem_map_of_mem hother),
          provider, initialized, hholder ▸ apart⟩
      rw [hlocation] at hcross
      left
      rw [hlocation, hholder, show crossInitialized = true from hcross]
  | shared cores => exact .inr ⟨cores, hlocation, (hdescribes.1 context.core).mpr hcore⟩

theorem initializer_of_crossInitialized {graph : App} {late : LatePartition} {name : String}
    {owner : Int} (found : (locationsOf graph late).get? name = some (.owned owner true)) :
    ∃ provider, late.initializerOf? name = some provider ∧ provider ≠ owner := by
  obtain ⟨hused, holder, hall, provider, hinitialized, hapart⟩ :=
    (isCrossInitialized_iff graph late name).mp (by rw [found]; rfl)
  obtain ⟨context, member⟩ := List.exists_mem_of_ne_nil _ hused
  obtain ⟨location, hlocation, hdescribes⟩ := exists_location ⟨context, member, rfl⟩ late
  rw [found] at hlocation
  cases hlocation
  have howner := hdescribes.2 context.core (List.mem_map_of_mem member)
  exact ⟨provider, hinitialized, by rwa [← howner, hall context member]⟩

/-! ## Transfers -/

/-- A resource that is used on another core than that of its initializer moves. -/
theorem transfer_of_initializer {graph : App} (sound : graph.Sound) {late : LatePartition}
    {name : String} {resource : Resource} {user provider : Int}
    (found : graph.resources.get? name = some resource) (isLate : resource.isLate = true)
    (initialized : late.initializerOf? name = some provider) (apart : provider ≠ user)
    (used : ∃ context ∈ graph.accessors name, context.core = user) :
    resource.ty ∈ (safetyOf graph late).transfer := by
  obtain ⟨context, member, rfl⟩ := used
  have hlate := App.mem_keys_lateResources.mpr ⟨resource, found, isLate⟩
  apply (mem_transfer_safetyOf sound late resource.ty).mpr
  refine .inl ⟨name, resource, found, isLate, rfl, ?_, ?_⟩
  · rw [App.users_eq_accessors sound hlate]
    exact List.ne_nil_of_mem member
  · rintro ⟨idle, hidle, -, hown⟩
    rw [hidle, List.mem_singleton] at member
    subst member
    exact apart (hown provider initialized)

/-! ## Runs -/

/-- An analysis shows that a resource is handed over from one core to another. -/
structure HandsOver (analysis : Analysis) (name : String) (resource : Resource)
    (provider user : Int) : Prop where
  waits : analysis.initializationBarriers.Waits user provider
  transfer : resource.ty ∈ analysis.transferSafe
  located : analysis.locations.get? name = some (.owned user true) ∨
    ∃ cores, analysis.locations.get? name = some (.shared cores) ∧ user ∈ cores

/-- Every late resource that another core initializes is handed over, and barriers and marks
stand for such resources only. -/
theorem handsOver_of_initializer {app : App} (h : app.violations = []) (settings : Settings) :
    ∃ analysis lines, run settings app = .ok (analysis, lines) ∧
      (∀ name resource provider, app.resources.get? name = some resource →
        resource.isLate = true → analysis.lateResources.initializerOf? name = some provider →
        ∀ context ∈ app.accessors name, provider ≠ context.core →
          analysis.HandsOver name resource provider context.core) ∧
      (∀ user provider, analysis.initializationBarriers.Waits user provider →
        provider ≠ user ∧ ∃ name ∈ app.lateResources.keys,
          analysis.lateResources.initializerOf? name = some provider ∧
            ∃ context ∈ app.accessors name, context.core = user) ∧
      ∀ name owner, analysis.locations.get? name = some (.owned owner true) →
        name ∈ app.lateResources.keys ∧
          ∃ provider, analysis.lateResources.initializerOf? name = some provider ∧
            provider ≠ owner := by
  have hsound := sound_prepared (App.sound_of_violations h) settings
  obtain ⟨late, timer, planned, hderives⟩ := exists_derives hsound
  have hlate : ∀ name provider, late.initializerOf? name = some provider →
      name ∈ app.lateResources.keys := by
    intro name provider hinitialized
    rw [← lateResources_prepared settings app]
    exact LatePartition.late_of_provides hsound hderives.late_eq
      (LatePartition.provides_of_initializerOf? hinitialized)
  refine ⟨_, _, hderives.run_eq h, ?_, ?_, ?_⟩
  · intro name resource provider hfound hisLate hinitialized context member hapart
    have hused : ∃ other ∈ (prepared settings app).accessors name, other.core = context.core :=
      exists_accessor_prepared.mpr ⟨context, member, rfl⟩
    rw [← resources_prepared settings app] at hfound
    constructor
    · obtain ⟨access, haccess, rfl, hcore⟩ := App.exists_access_iff.mpr hused
      exact (Barriers.waits_ofAccesses _ late context.core provider).mpr
        ⟨hapart, access, haccess, hcore, hinitialized⟩
    · exact (hderives.mem_transfer hsound resource.ty).mpr
        (.inl (transfer_of_initializer hsound hfound hisLate hinitialized hapart hused))
    · exact location_of_initializer hinitialized hapart hused
  · intro user provider hwaits
    obtain ⟨hapart, access, haccess, hcore, hinitialized⟩ :=
      (Barriers.waits_ofAccesses _ late user provider).mp hwaits
    have hused := App.exists_access_iff.mp ⟨access, haccess, rfl, hcore⟩
    exact ⟨hapart, access.resource, hlate _ _ hinitialized, hinitialized,
      exists_accessor_prepared.mp hused⟩
  · intro name owner hfound
    obtain ⟨provider, hinitialized, hapart⟩ := initializer_of_crossInitialized hfound
    exact ⟨hlate _ _ hinitialized, provider, hinitialized, hapart⟩

/-- Two cores, of which the second one initializes what the idle loop of the first one uses. -/
def remoteSample : App :=
  { App.idling (.after 1) [("sample", ⟨"Sample", none⟩)] with
    inits := [⟨.exclusive 1 [] [] [], ["sample"]⟩]
    idles := [⟨.exclusive 0 ["sample"] [] []⟩] }

theorem violations_remoteSample : remoteSample.violations = [] := by
  decide +kernel

theorem ofApp_remoteSample :
    LatePartition.ofApp remoteSample = .ok (.ofList [(1, .ofList ["sample"])]) := by
  decide +kernel

theorem handsOver_remoteSample :
    remoteSample.violations = [] ∧ ∃ analysis lines,
      run ⟨false, true, false⟩ remoteSample = .ok (analysis, lines) ∧
        analysis.HandsOver "sample" ⟨"Sample", none⟩ 1 0 := by
  obtain ⟨analysis, lines, hrun, hhanded, -, -⟩ :=
    handsOver_of_initializer violations_remoteSample ⟨false, true, false⟩
  have hsound := App.sound_of_violations violations_remoteSample
  obtain ⟨late, timer, planned, hderives⟩ :=
    exists_derives (sound_prepared hsound ⟨false, true, false⟩)
  have hlate : analysis.lateResources = .ofList [(1, .ofList ["sample"])] := by
    have hsame := hrun.symm.trans (hderives.run_eq violations_remoteSample)
    have hpartition := hderives.late_eq.symm.trans ofApp_remoteSample
    cases hsame
    cases hpartition
    rfl
  have hidle : Context.ofIdle (remoteSample.idles.head (by decide)) ∈
      remoteSample.accessors "sample" :=
    App.mem_accessors.mpr
      ⟨App.mem_contexts.mpr (.inr (.inl ⟨_, List.head_mem _, rfl⟩)), by decide⟩
  refine ⟨violations_remoteSample, analysis, lines, hrun, ?_⟩
  exact hhanded "sample" _ 1 (by decide) rfl (by rw [hlate]; decide) _ hidle (by decide)

end Analysis

end StackPolicy
