import StackPolicy.Proofs.InitBarriers
import StackPolicy.Proofs.LocationFold

/-!
# Locations and barriers of any stream of accesses

Whatever stream is folded, and whichever cores provide the late resources, the
location of a resource is a function of the cores that access it and of the
core that provides its value.  A core waits for the cores that provide what it
accesses.  Apart from the order of the locations, the order of the stream does
not matter.
-/

namespace StackPolicy

namespace Location

/-! ## The location of a list of cores -/

/-- The location of a resource that is accessed from the given cores, if its value comes from
`initializer`. -/
def ofCores (initializer : Option Int) : List Int → Option Location
  | [] => none
  | core :: cores =>
      if ∀ other ∈ cores, other = core then some (owned core (initializer.any (· ≠ core)))
      else some (shared (SortedSet.ofList (core :: cores)))

theorem settle_owned (partition : LatePartition) (resource : String) (core : Int) :
    (owned core false).settle partition resource =
      owned core ((partition.initializerOf? resource).any (· ≠ core)) := by
  unfold settle
  cases partition.initializerOf? resource with
  | none => rfl
  | some initializer =>
      by_cases hsame : initializer = core
      · simp [hsame]
      · simp [hsame]

theorem Summarizes.map_settle {current : Option Location} {cores : List Int}
    (h : Summarizes current cores) (partition : LatePartition) (resource : String) :
    current.map (settle partition resource) =
      ofCores (partition.initializerOf? resource) cores := by
  match current, cores, h with
  | none, _, rfl => rfl
  | some (owned holder crossInitialized), [], ⟨⟨hcores, _⟩, _⟩ => exact absurd rfl hcores
  | some (owned holder crossInitialized), core :: cores, ⟨⟨_, hall⟩, hplain⟩ =>
      obtain rfl : core = holder := hall core List.mem_cons_self
      obtain rfl : crossInitialized = false := hplain
      rw [ofCores, if_pos fun other member => hall other (List.mem_cons_of_mem _ member),
        Option.map_some, settle_owned]
  | some (shared members), [], ⟨⟨_, _, hfirst, _⟩, _⟩ => cases hfirst
  | some (shared members), core :: cores, ⟨⟨hmembers, first, hfirst, second, hsecond, hne⟩, _⟩ =>
      have hapart : ¬∀ other ∈ cores, other = core := by
        intro hsame
        have hall : ∀ other ∈ core :: cores, other = core := List.forall_mem_cons.mpr ⟨rfl, hsame⟩
        exact hne ((hall first hfirst).trans (hall second hsecond).symm)
      have hset : members = SortedSet.ofList (core :: cores) := by
        ext other
        rw [hmembers, SortedSet.mem_ofList]
      rw [ofCores, if_neg hapart, hset]
      rfl

theorem two_le_size_of_ofCores {initializer : Option Int} {cores : List Int}
    {members : SortedSet Int} (h : ofCores initializer cores = some (shared members)) :
    2 ≤ members.size := by
  cases cores with
  | nil => cases h
  | cons core cores =>
      rw [ofCores] at h
      split at h
      · cases h
      · rename_i hapart
        cases h
        by_contra hsmall
        have hall := SortedSet.size_le_one_iff.mp (Nat.le_of_lt_succ (Nat.lt_of_not_le hsmall))
        simp only [SortedSet.mem_ofList] at hall
        exact hapart fun other member =>
          hall other (List.mem_cons_of_mem _ member) core List.mem_cons_self

end Location

/-! ## Locations -/

namespace Locations

theorem keys_foldl_take (accesses : List Access) :
    (accesses.foldl take ∅).keys = (accesses.map Access.resource).eraseDups := by
  refine foldl_of_concat
    (fun (read : List Access) (locations : Locations) =>
      locations.keys = (read.map Access.resource).eraseDups)
    (fun _ _ access _ h => ?_) (show _ = (List.map Access.resource []).eraseDups from rfl)
  rw [List.map_append]
  exact Table.keys_insert_eraseDups h access.resource _

/-- A fold that does not fail takes all accesses. -/
theorem eq_of_ofAccesses {accesses : List Access} {partition : LatePartition}
    {locations : Locations} (h : ofAccesses accesses partition = .ok locations) :
    locations = (accesses.foldl take ∅).mapRows (Location.settle partition) := by
  obtain ⟨folded, hfold, hsettled⟩ := bind_eq_ok_iff.mp h
  have htaken : accesses.foldl take ∅ = folded :=
    foldl_eq_of_foldlM (fun _ _ _ hadded => (addAccess?_eq_ok_iff.mp hadded).2) hfold
  rw [htaken]
  exact (Except.ok.inj hsettled).symm

theorem core_nonneg_of_ofAccesses {access : Access} {accesses : List Access}
    {partition : LatePartition} {locations : Locations}
    (h : ofAccesses (access :: accesses) partition = .ok locations) : 0 ≤ access.core := by
  obtain ⟨_, hfold, -⟩ := bind_eq_ok_iff.mp h
  rw [List.foldlM_cons] at hfold
  obtain ⟨_, hfirst, -⟩ := bind_eq_ok_iff.mp hfold
  exact (addAccess?_eq_ok_iff.mp hfirst).1 (Table.get?_empty _)

/-- No order of the accesses is refused exactly if no core is negative. -/
theorem exists_ofAccesses_perm_iff {accesses : List Access} {partition : LatePartition} :
    (∀ others, accesses.Perm others → ∃ locations, ofAccesses others partition = .ok locations) ↔
      ∀ access ∈ accesses, 0 ≤ access.core := by
  constructor
  · intro accepted access member
    obtain ⟨locations, h⟩ := accepted _ (List.perm_cons_erase member)
    exact core_nonneg_of_ofAccesses h
  · intro nonneg others same
    exact ⟨_, ofAccesses_eq_ok fun access member => nonneg access (same.mem_iff.mpr member)⟩

/-- What locations say about the accesses of a stream. -/
structure Reflects (locations : Locations) (accesses : List Access)
    (partition : LatePartition) : Prop where
  keys_eq : locations.keys = (accesses.map Access.resource).eraseDups
  get?_eq : ∀ name, locations.get? name =
    Location.ofCores (partition.initializerOf? name) (Access.coresOf name accesses)
  several : ∀ name members, locations.get? name = some (.shared members) → 2 ≤ members.size

theorem reflects_foldl_take (accesses : List Access) (partition : LatePartition) :
    Reflects ((accesses.foldl take ∅).mapRows (Location.settle partition)) accesses partition := by
  have hget (name : String) :
      ((accesses.foldl take ∅).mapRows (Location.settle partition)).get? name =
        Location.ofCores (partition.initializerOf? name) (Access.coresOf name accesses) := by
    rw [Table.get?_mapRows]
    exact (summarizes_get?_foldl_take accesses name).map_settle partition name
  exact {
    keys_eq := (Table.keys_mapRows _ _).trans (keys_foldl_take accesses)
    get?_eq := hget
    several := fun name members found =>
      Location.two_le_size_of_ofCores ((hget name).symm.trans found) }

end Locations

/-! ## Barriers -/

namespace Barriers

/-- What barriers say about the accesses of a stream. -/
structure Reflects (barriers : Barriers) (accesses : List Access)
    (partition : LatePartition) : Prop where
  ascending : barriers.keys.Pairwise (· < ·)
  mem_keys_iff : ∀ user, user ∈ barriers.keys ↔
    ∃ provider, Depends partition accesses user provider
  mem_iff : ∀ user providers, barriers.get? user = some providers → ∀ provider,
    provider ∈ providers ↔ Depends partition accesses user provider

theorem reflects_ofAccesses (accesses : List Access) (partition : LatePartition) :
    (ofAccesses accesses partition).Reflects accesses partition where
  ascending := Table.ascending_keys_sortByKey _
  mem_keys_iff user := by
    simp only [mem_keys_ofAccesses, waits_ofAccesses]
  mem_iff user providers found provider := by
    rw [← waits_ofAccesses]
    unfold Waits
    simp [found]

end Barriers

/-- The locations of a stream and the barriers between its cores are those of the accesses that it
holds, for any partition.  Folding the accesses in another order changes neither of them. -/
theorem Locations.reflects_ofAccesses_of_perm (accesses : List Access)
    (partition : LatePartition) :
    ((∀ others, accesses.Perm others → ∃ locations, ofAccesses others partition = .ok locations) ↔
      ∀ access ∈ accesses, 0 ≤ access.core) ∧
    (∀ locations, ofAccesses accesses partition = .ok locations →
      locations.Reflects accesses partition ∧
      ∀ others, accesses.Perm others → ∀ relocated,
        ofAccesses others partition = .ok relocated →
          ∀ name, relocated.get? name = locations.get? name) ∧
    (Barriers.ofAccesses accesses partition).Reflects accesses partition ∧
    ∀ others, accesses.Perm others →
      Barriers.ofAccesses others partition = Barriers.ofAccesses accesses partition := by
  refine ⟨exists_ofAccesses_perm_iff, fun locations hlocations => ?_,
    Barriers.reflects_ofAccesses accesses partition, fun others same => ?_⟩
  · rw [eq_of_ofAccesses hlocations]
    refine ⟨reflects_foldl_take accesses partition, fun others same relocated hrelocated name => ?_⟩
    rw [eq_of_ofAccesses hrelocated, Table.get?_mapRows, Table.get?_mapRows,
      get?_foldl_take_of_perm same]
  · exact (Barriers.ofAccesses_of_perm same partition).symm

/-- Three cores log; only the first one reads the configuration. -/
def remoteLogging : List Access :=
  [⟨1, some 1, "log", .shared⟩, ⟨0, none, "config", .shared⟩, ⟨0, some 2, "log", .shared⟩,
    ⟨2, some 1, "bus", .exclusive⟩, ⟨2, some 1, "log", .shared⟩, ⟨0, some 3, "config", .shared⟩]

/-- The last core provides both late resources, and the first one claims the log too. -/
def overlapping : LatePartition :=
  .ofList [(2, .ofList ["config", "log"]), (0, .ofList ["log"])]

theorem Locations.reflects_remoteLogging :
    (∀ access ∈ remoteLogging, 0 ≤ access.core) ∧
      remoteLogging.Perm remoteLogging.reverse ∧
      ∃ locations, ofAccesses remoteLogging overlapping = .ok locations ∧
        locations.keys = ["log", "config", "bus"] ∧
        locations.get? "log" = some (.shared (.ofList [0, 1, 2])) ∧
        locations.get? "config" = some (.owned 0 true) ∧
        locations.get? "bus" = some (.owned 2 false) ∧
        (∃ relocated, ofAccesses remoteLogging.reverse overlapping = .ok relocated ∧
          relocated.get? "config" = some (.owned 0 true)) ∧
        0 ∈ (Barriers.ofAccesses remoteLogging overlapping).keys ∧
        2 ∉ (Barriers.ofAccesses remoteLogging overlapping).keys := by
  have hnonneg : ∀ access ∈ remoteLogging, 0 ≤ access.core := by decide
  have hreversed : remoteLogging.Perm remoteLogging.reverse :=
    (List.reverse_perm remoteLogging).symm
  obtain ⟨haccepted, hlocated, hbarriers, -⟩ :=
    reflects_ofAccesses_of_perm remoteLogging overlapping
  obtain ⟨locations, hlocations⟩ := haccepted.mpr hnonneg _ (.refl _)
  obtain ⟨relocated, hrelocated⟩ := haccepted.mpr hnonneg _ hreversed
  obtain ⟨hreflects, hother⟩ := hlocated locations hlocations
  have hconfig : locations.get? "config" = some (.owned 0 true) :=
    (hreflects.get?_eq "config").trans (by decide)
  refine ⟨hnonneg, hreversed, locations, hlocations,
    hreflects.keys_eq.trans (by decide +kernel), (hreflects.get?_eq "log").trans (by decide),
    hconfig, (hreflects.get?_eq "bus").trans (by decide), ⟨relocated, hrelocated,
      (hother _ hreversed relocated hrelocated "config").trans hconfig⟩, ?_, ?_⟩
  · exact (hbarriers.mem_keys_iff 0).mpr ⟨2, by decide, ⟨0, some 2, "log", .shared⟩, by decide,
      rfl, by decide⟩
  · rw [hbarriers.mem_keys_iff]
    rintro ⟨provider, hprovider, access, member, hcore, hfound⟩
    have hself : ∀ access ∈ remoteLogging, access.core = 2 →
        overlapping.initializerOf? access.resource = none ∨
          overlapping.initializerOf? access.resource = some 2 := by
      decide
    rcases hself access member hcore with habsent | hlast
    · rw [habsent] at hfound
      cases hfound
    · rw [hlast] at hfound
      exact hprovider (Option.some.inj hfound).symm

end StackPolicy
