import StackPolicy.Proofs.Contexts
import StackPolicy.Proofs.Sequences
import StackPolicy.Transfer

/-!
# What the locations of a stream of accesses say

The location of a resource depends only on the cores that access it, and
describes them.  Settling a location adds where its value comes from.
-/

namespace StackPolicy

namespace Location

/-- What a location says about the cores of all accesses to its resource. -/
def Describes : Location → List Int → Prop
  | owned holder _, cores => cores ≠ [] ∧ ∀ core ∈ cores, core = holder
  | shared members, cores =>
      (∀ core, core ∈ members ↔ core ∈ cores) ∧ ∃ first ∈ cores, ∃ second ∈ cores, first ≠ second

/-- A resource without a location is never accessed.  No location is cross-initialized
before it is settled. -/
def Summarizes : Option Location → List Int → Prop
  | none, cores => cores = []
  | some location, cores => location.Describes cores ∧ location.isCrossInitialized = false

def next (current : Option Location) (core : Int) : Location :=
  match current with
  | some location => location.widen core
  | none => owned core false

theorem Describes.widen {location : Location} {cores : List Int} (h : location.Describes cores)
    (core : Int) : (location.widen core).Describes (cores ++ [core]) := by
  cases location with
  | owned holder crossInitialized =>
      obtain ⟨hcores, hall⟩ := h
      obtain ⟨first, hfirst⟩ := List.exists_mem_of_ne_nil cores hcores
      by_cases hsame : holder = core
      · simp only [Location.widen, hsame, if_true]
        refine ⟨by simp, fun other hother => ?_⟩
        rcases List.mem_append.mp hother with hold | hnew
        · rw [hall other hold, hsame]
        · exact List.mem_singleton.mp hnew
      · simp only [Location.widen, hsame, if_false]
        constructor
        · intro other
          simp only [SortedSet.mem_insert, SortedSet.mem_ofList, List.mem_singleton,
            List.mem_append]
          constructor
          · rintro (rfl | rfl)
            · exact .inr rfl
            · exact .inl (hall first hfirst ▸ hfirst)
          · rintro (hold | hnew)
            · exact .inr (hall other hold)
            · exact .inl hnew
        · have hholder := hall first hfirst
          exact ⟨first, List.mem_append_left _ hfirst, core, by simp,
            fun h => hsame (hholder.symm.trans h)⟩
  | shared members =>
      obtain ⟨hmembers, first, hfirst, second, hsecond, hne⟩ := h
      have hapart : ∃ first ∈ cores ++ [core], ∃ second ∈ cores ++ [core], first ≠ second :=
        ⟨first, List.mem_append_left _ hfirst, second, List.mem_append_left _ hsecond, hne⟩
      by_cases hpresent : core ∈ members
      · simp only [Location.widen, hpresent, if_true]
        refine ⟨fun other => ?_, hapart⟩
        rw [hmembers, List.mem_append, List.mem_singleton]
        constructor
        · exact .inl
        · rintro (hold | rfl)
          · exact hold
          · exact (hmembers other).mp hpresent
      · simp only [Location.widen, hpresent, if_false]
        refine ⟨fun other => ?_, hapart⟩
        rw [SortedSet.mem_insert, hmembers, List.mem_append, List.mem_singleton, or_comm]

theorem isCrossInitialized_widen {location : Location} (core : Int)
    (h : location.isCrossInitialized = false) :
    (location.widen core).isCrossInitialized = false := by
  cases location with
  | owned holder crossInitialized =>
      unfold Location.widen
      simp only
      split
      · exact h
      · rfl
  | shared members =>
      unfold Location.widen
      simp only
      split <;> rfl

def after (current : Option Location) (cores : List Int) : Option Location :=
  cores.foldl (fun current core => some (next current core)) current

theorem summarizes_after {current : Option Location} {seen : List Int}
    (h : Summarizes current seen) (cores : List Int) :
    Summarizes (after current cores) (seen ++ cores) := by
  refine foldl_of_concat (fun seen current => Summarizes current seen)
    (fun seen current core _ h => ?_) h
  cases current with
  | none =>
      rw [show seen = [] from h]
      exact ⟨⟨by simp, by simp⟩, rfl⟩
  | some location => exact ⟨h.1.widen core, isCrossInitialized_widen core h.2⟩

/-! ## Another order -/

theorem Describes.ne_nil {location : Location} {cores : List Int} (h : location.Describes cores) :
    cores ≠ [] := by
  cases location with
  | owned holder crossInitialized => exact h.1
  | shared members =>
      obtain ⟨-, first, hfirst, -⟩ := h
      exact List.ne_nil_of_mem hfirst

theorem Describes.perm {location : Location} {cores others : List Int}
    (h : location.Describes cores) (same : cores.Perm others) : location.Describes others := by
  cases location with
  | owned holder crossInitialized =>
      refine ⟨fun hnil => h.1 ?_, fun core member => h.2 core (same.mem_iff.mpr member)⟩
      rw [hnil] at same
      exact same.eq_nil
  | shared members =>
      obtain ⟨hmembers, first, hfirst, second, hsecond, hne⟩ := h
      exact ⟨fun core => (hmembers core).trans same.mem_iff, first, same.mem_iff.mp hfirst,
        second, same.mem_iff.mp hsecond, hne⟩

theorem Describes.unique {first second : Location} {cores : List Int}
    (h : first.Describes cores) (again : second.Describes cores)
    (cross : first.isCrossInitialized = second.isCrossInitialized) : first = second := by
  cases first with
  | owned holder crossInitialized =>
      cases second with
      | owned other marked =>
          obtain ⟨core, member⟩ := List.exists_mem_of_ne_nil cores h.1
          have hholder := (h.2 core member).symm.trans (again.2 core member)
          have hcross : crossInitialized = marked := cross
          rw [hholder, hcross]
      | shared members =>
          obtain ⟨-, one, hone, other, hother, hne⟩ := again
          exact absurd ((h.2 one hone).trans (h.2 other hother).symm) hne
  | shared members =>
      cases second with
      | owned holder crossInitialized =>
          obtain ⟨-, one, hone, other, hother, hne⟩ := h
          exact absurd ((again.2 one hone).trans (again.2 other hother).symm) hne
      | shared others =>
          have hsame : members = others := by
            ext core
            rw [h.1, again.1]
          rw [hsame]

/-- The order of the cores does not matter. -/
theorem Summarizes.unique {first second : Option Location} {cores others : List Int}
    (h : Summarizes first cores) (again : Summarizes second others)
    (same : cores.Perm others) : first = second := by
  cases first with
  | none =>
      rw [show cores = [] from h] at same
      cases second with
      | none => rfl
      | some location => exact absurd same.symm.eq_nil (Describes.ne_nil again.1)
  | some location =>
      have hdescribes := Describes.perm h.1 same
      cases second with
      | none => exact absurd again hdescribes.ne_nil
      | some other => exact congrArg some (hdescribes.unique again.1 (h.2.trans again.2.symm))

/-! ## Settled locations -/

theorem Describes.settle {location : Location} {cores : List Int} (h : location.Describes cores)
    (partition : LatePartition) (resource : String) :
    (location.settle partition resource).Describes cores := by
  cases location with
  | shared members => exact h
  | owned holder crossInitialized =>
      unfold Location.settle
      simp only
      split
      · split
        · exact h
        · exact h
      · exact h

/-- A location is cross-initialized if one core alone holds the resource, and another core
provides its value. -/
theorem isCrossInitialized_settle {location : Location} {cores : List Int}
    (h : Summarizes (some location) cores) (partition : LatePartition) (resource : String) :
    (location.settle partition resource).isCrossInitialized = true ↔
      ∃ holder, (∀ core ∈ cores, core = holder) ∧
        ∃ initializer, partition.initializerOf? resource = some initializer ∧
          initializer ≠ holder := by
  cases location with
  | shared members =>
      obtain ⟨⟨-, first, hfirst, second, hsecond, hne⟩, -⟩ := h
      constructor
      · intro hcross
        cases hcross
      · rintro ⟨holder, hall, -⟩
        exact absurd ((hall first hfirst).trans (hall second hsecond).symm) hne
  | owned holder crossInitialized =>
      obtain ⟨⟨hcores, hall⟩, hplain⟩ := h
      have hplain : crossInitialized = false := hplain
      obtain ⟨first, hfirst⟩ := List.exists_mem_of_ne_nil cores hcores
      subst hplain
      unfold Location.settle
      cases hinit : partition.initializerOf? resource with
      | none => simp [isCrossInitialized]
      | some initializer =>
          by_cases hsame : initializer = holder
          · simp only [hsame, if_true, isCrossInitialized, Bool.false_eq_true, false_iff]
            rintro ⟨other, hother, found, hfound, hne⟩
            cases hfound
            exact hne (((hall first hfirst).symm.trans (hother first hfirst)))
          · simp only [hsame, if_false, isCrossInitialized, true_iff]
            exact ⟨holder, hall, initializer, rfl, hsame⟩

end Location

namespace Locations

def take (locations : Locations) (access : Access) : Locations :=
  locations.insert access.resource
    (Location.next (locations.get? access.resource) access.core)

/-- An access is taken unless it is a first one from a negative core. -/
theorem addAccess?_eq_ok_iff {locations later : Locations} {access : Access} :
    locations.addAccess? access = .ok later ↔
      (locations.get? access.resource = none → 0 ≤ access.core) ∧
      locations.take access = later := by
  unfold addAccess? take
  cases locations.get? access.resource with
  | some location => simp [Location.next]
  | none =>
      have hcheck : Failure.checkBounds "OwnedLocation" [⟨"core", 0, access.core⟩] = .ok () ↔
          0 ≤ access.core := by
        simp [Failure.checkBounds_eq_ok_iff]
      simp only [forall_const]
      rw [bind_eq_ok_iff, ← hcheck]
      constructor
      · rintro ⟨_, hchecked, hlater⟩
        exact ⟨hchecked, Except.ok.inj hlater⟩
      · rintro ⟨hchecked, hlater⟩
        exact ⟨(), hchecked, congrArg Except.ok hlater⟩

theorem ofAccesses_eq_ok {accesses : List Access} {partition : LatePartition}
    (nonneg : ∀ access ∈ accesses, 0 ≤ access.core) :
    ofAccesses accesses partition =
      .ok ((accesses.foldl take ∅).mapRows (Location.settle partition)) := by
  have hfold : accesses.foldlM addAccess? ∅ = .ok (accesses.foldl take ∅) :=
    (foldlM_eq_ok (fun _ => True) trivial fun _ _ access member =>
      ⟨addAccess?_eq_ok_iff.mpr ⟨fun _ => nonneg access member, rfl⟩, trivial⟩).1
  unfold ofAccesses
  rw [hfold]
  rfl

/-- Every resource is located on its own. -/
theorem get?_foldl_take (accesses : List Access) (locations : Locations) (resource : String) :
    (accesses.foldl take locations).get? resource =
      Location.after (locations.get? resource) (Access.coresOf resource accesses) := by
  induction accesses generalizing locations with
  | nil => rfl
  | cons access accesses ih =>
      rw [List.foldl_cons, ih, take, Table.get?_insert, Access.coresOf, Access.coresOf,
        Access.toResource_cons]
      by_cases hsame : access.resource = resource
      · subst hsame
        simp [Location.after]
      · rw [if_neg (Ne.symm hsame), if_neg hsame]

theorem summarizes_get?_foldl_take (accesses : List Access) (resource : String) :
    Location.Summarizes ((accesses.foldl take ∅).get? resource)
      (Access.coresOf resource accesses) := by
  have hstart : Location.Summarizes none [] := rfl
  rw [get?_foldl_take]
  exact Location.summarizes_after hstart (Access.coresOf resource accesses)

theorem get?_foldl_take_of_perm {accesses others : List Access} (same : accesses.Perm others)
    (resource : String) :
    (accesses.foldl take ∅).get? resource = (others.foldl take ∅).get? resource :=
  (summarizes_get?_foldl_take accesses resource).unique
    (summarizes_get?_foldl_take others resource) ((same.filter _).map Access.core)

end Locations

end StackPolicy
