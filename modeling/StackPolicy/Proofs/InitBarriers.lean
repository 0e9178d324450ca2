import StackPolicy.Location
import StackPolicy.Proofs.LateCoverage

/-!
# Which cores wait for the initialization of others

A sound application provides late resources and no others.  A core waits for
another one exactly if it accesses a resource that the other one initializes.
-/

namespace StackPolicy

/-- Tables of sets agree on a key if they list it alike, with the same members. -/
theorem Table.get?_eq_of_members {Member : Type} [LT Member] [LE Member]
    [Std.LawfulOrderLT Member] [Std.IsLinearOrder Member]
    {first second : Table Int (SortedSet Member)} {key : Int}
    (keys : key ∈ first.keys ↔ key ∈ second.keys)
    (same : ∀ member, (∃ members, first.get? key = some members ∧ member ∈ members) ↔
      ∃ members, second.get? key = some members ∧ member ∈ members) :
    first.get? key = second.get? key := by
  apply get?_congr keys
  intro members others hfirst hsecond
  ext member
  simpa [hfirst, hsecond] using same member

namespace LatePartition

section Sound

variable {app : App} {partition : LatePartition} (sound : app.Sound)
  (h : ofApp app = .ok partition)

include sound h

theorem provides_iff (core : Int) (name : String) :
    partition.Provides core name ↔
      if core ∈ app.restCores then
        name ∈ app.lateResources.keys ∧ ∀ init ∈ app.inits, name ∉ init.late
      else ∃ init ∈ app.inits, init.core = core ∧ name ∈ init.late := by
  by_cases hlate : app.lateResources.rows = []
  · have hkeys : app.lateResources.keys = [] := by
      unfold Table.keys
      rw [hlate]
      rfl
    rw [ofApp_of_no_late hlate] at h
    cases h
    simp only [Provides, Table.get?_empty, reduceCtorEq, false_and, exists_false, false_iff]
    split
    · simp [hkeys]
    · rintro ⟨init, member, -, hname⟩
      rw [late_eq_nil_of_no_late sound hlate member] at hname
      cases hname
  · obtain ⟨found, hfound, hprovides⟩ := provides_ofApp hlate (sound.rests_le_one hlate)
    rw [h] at hfound
    cases hfound
    exact hprovides core name

theorem late_of_provides {core : Int} {name : String} (provides : partition.Provides core name) :
    name ∈ app.lateResources.keys := by
  rw [provides_iff sound h] at provides
  split at provides
  · exact provides.1
  · obtain ⟨init, member, -, hname⟩ := provides
    exact sound.late_of_claim init member name hname

end Sound

theorem provides_of_initializerOf? {partition : LatePartition} {core : Int} {name : String}
    (found : partition.initializerOf? name = some core) : partition.Provides core name := by
  obtain ⟨row, hrow, rfl⟩ := Option.map_eq_some_iff.mp found
  have hname : name ∈ row.2 := by simpa using List.find?_some hrow
  exact ⟨row.2, Table.get?_eq_some_iff.mpr (List.mem_of_find?_eq_some hrow), hname⟩

end LatePartition

namespace Barriers

/-- Whether one core waits for the initialization of another. -/
def Waits (barriers : Barriers) (user provider : Int) : Prop :=
  ∃ providers, barriers.get? user = some providers ∧ provider ∈ providers

/-- Whether a core accesses a resource that another core initializes. -/
def Depends (partition : LatePartition) (accesses : List Access) (user provider : Int) : Prop :=
  provider ≠ user ∧ ∃ access ∈ accesses, access.core = user ∧
    partition.initializerOf? access.resource = some provider

/-! ## One access -/

theorem waits_wait (barriers : Barriers) (user provider other core : Int) :
    (barriers.wait user provider).Waits other core ↔
      barriers.Waits other core ∨ (other = user ∧ core = provider) := by
  unfold Waits wait
  rw [Table.get?_insert]
  by_cases hsame : other = user
  · subst hsame
    cases barriers.get? other with
    | none => simp
    | some providers => simp [or_comm]
  · simp [hsame]

theorem waits_addAccess (partition : LatePartition) (barriers : Barriers) (access : Access)
    (user provider : Int) :
    (addAccess partition barriers access).Waits user provider ↔
      barriers.Waits user provider ∨ Depends partition [access] user provider := by
  unfold addAccess Depends
  simp only [List.mem_singleton, exists_eq_left]
  cases partition.initializerOf? access.resource with
  | none => simp
  | some initializer =>
      simp only [Option.some.injEq]
      split
      · rename_i same
        subst same
        grind
      · rename_i apart
        rw [waits_wait]
        grind

/-! ## All accesses -/

theorem waits_foldl_addAccess (partition : LatePartition) (accesses : List Access)
    (barriers : Barriers) (user provider : Int) :
    (accesses.foldl (addAccess partition) barriers).Waits user provider ↔
      barriers.Waits user provider ∨ Depends partition accesses user provider := by
  induction accesses generalizing barriers with
  | nil => simp [Depends]
  | cons access accesses ih =>
      rw [List.foldl_cons, ih, waits_addAccess, or_assoc]
      apply or_congr Iff.rfl
      simp only [Depends, List.mem_cons, List.not_mem_nil, or_false, exists_eq_left,
        exists_eq_or_imp, and_or_left]

theorem waits_ofAccesses (accesses : List Access) (partition : LatePartition)
    (user provider : Int) :
    (ofAccesses accesses partition).Waits user provider ↔
      Depends partition accesses user provider := by
  have hfold := waits_foldl_addAccess partition accesses ∅ user provider
  unfold Waits at hfold ⊢
  unfold ofAccesses
  rw [Table.get?_sortByKey, hfold]
  simp

/-- A core is listed only if it waits for another one. -/
def AllWait (barriers : Barriers) : Prop :=
  ∀ user ∈ barriers.keys, ∃ provider, barriers.Waits user provider

theorem AllWait.addAccess {barriers : Barriers} (h : barriers.AllWait)
    (partition : LatePartition) (access : Access) :
    AllWait (addAccess partition barriers access) := by
  unfold Barriers.addAccess
  split
  · rename_i initializer _
    split
    · exact h
    · intro user member
      rcases Table.mem_keys_insert.mp member with rfl | hold
      · exact ⟨initializer, (waits_wait ..).mpr (.inr ⟨rfl, rfl⟩)⟩
      · obtain ⟨provider, hwaits⟩ := h user hold
        exact ⟨provider, (waits_wait ..).mpr (.inl hwaits)⟩
  · exact h

theorem AllWait.foldl_addAccess {barriers : Barriers} (h : barriers.AllWait)
    (partition : LatePartition) (accesses : List Access) :
    AllWait (accesses.foldl (Barriers.addAccess partition) barriers) := by
  induction accesses generalizing barriers with
  | nil => exact h
  | cons access accesses ih => exact ih (h.addAccess partition access)

theorem mem_keys_ofAccesses {accesses : List Access} {partition : LatePartition} {user : Int} :
    user ∈ (ofAccesses accesses partition).keys ↔
      ∃ provider, (ofAccesses accesses partition).Waits user provider := by
  have hempty : AllWait ∅ := fun user member => nomatch member
  have hall := hempty.foldl_addAccess partition accesses
  constructor
  · intro member
    obtain ⟨provider, hwaits⟩ := hall user (Table.mem_keys_sortByKey.mp member)
    refine ⟨provider, ?_⟩
    unfold Waits ofAccesses
    rwa [Table.get?_sortByKey]
  · rintro ⟨provider, providers, hproviders, -⟩
    exact Table.mem_keys_iff.mpr ⟨providers, hproviders⟩

theorem ofAccesses_of_perm {accesses others : List Access} (same : accesses.Perm others)
    (partition : LatePartition) : ofAccesses accesses partition = ofAccesses others partition := by
  have hwaits (user provider : Int) : (ofAccesses accesses partition).Waits user provider ↔
      (ofAccesses others partition).Waits user provider := by
    rw [waits_ofAccesses, waits_ofAccesses]
    unfold Depends
    simp only [same.mem_iff]
  have hget (user : Int) :
      (ofAccesses accesses partition).get? user = (ofAccesses others partition).get? user := by
    apply Table.get?_eq_of_members
    · rw [mem_keys_ofAccesses, mem_keys_ofAccesses]
      exact exists_congr (hwaits user)
    · exact hwaits user
  unfold ofAccesses at hget ⊢
  apply Table.sortByKey_eq
  simpa only [Table.get?_sortByKey] using hget

end Barriers

end StackPolicy
