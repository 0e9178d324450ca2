import StackPolicy.Proofs.NewNumbers

/-!
# Priorities without gaps

The new numbers of a core are the places of its priorities in ascending order,
so they run from 1 to the number of priorities.  Priorities that do so already
are their own new numbers, and all others lose the gaps below them.
-/

namespace StackPolicy

/-! ## Places in an ascending list -/

section Places

variable {sorted : List Int} (ascending : sorted.Pairwise (· < ·))

include ascending

theorem length_takeWhile_getElem {place : Nat} (inside : place < sorted.length) :
    (sorted.takeWhile (· < sorted[place])).length = place := by
  have hsplit : sorted = sorted.take place ++ sorted[place] :: sorted.drop (place + 1) := by
    rw [← List.drop_eq_getElem_cons, List.take_append_drop]
  have hbelow : ∀ item ∈ sorted.take place, decide (item < sorted[place]) = true := by
    rw [hsplit] at ascending
    intro item member
    exact decide_eq_true
      ((List.pairwise_append.mp ascending).2.2 item member _ List.mem_cons_self)
  generalize sorted[place] = bound at hsplit hbelow ⊢
  rw [hsplit, List.takeWhile_append_of_pos hbelow, List.takeWhile_cons_of_neg (by simp)]
  simp only [List.append_nil, List.length_take]
  omega

theorem lt_getElem {low : Int} (bound : ∀ item ∈ sorted, low < item) {place : Nat}
    (inside : place < sorted.length) : low + place < sorted[place] := by
  induction place with
  | zero =>
      have hfirst := bound sorted[0] (List.getElem_mem inside)
      simpa using hfirst
  | succ place ih =>
      have hbefore := ih (by omega)
      have hstep := List.pairwise_iff_getElem.mp ascending place (place + 1) (by omega) inside
        (by omega)
      omega

end Places

/-! ## The first numbers -/

namespace SortedSet

/-- The numbers from 1 to `count`. -/
def upTo (count : Nat) : SortedSet Int where
  toList := (List.range count).map fun place : Nat => (place : Int) + 1
  ascending := by
    rw [List.pairwise_map]
    exact List.pairwise_lt_range.imp fun below => by omega

theorem mem_upTo {count : Nat} {number : Int} :
    number ∈ upTo count ↔ 1 ≤ number ∧ number ≤ count := by
  rw [← mem_toList, upTo, List.mem_map]
  constructor
  · rintro ⟨place, inside, rfl⟩
    have hplace := List.mem_range.mp inside
    omega
  · rintro ⟨hlow, hhigh⟩
    exact ⟨(number - 1).toNat, List.mem_range.mpr (by omega), by omega⟩

theorem size_upTo (count : Nat) : (upTo count).size = count := by
  simp [size, upTo]

theorem length_takeWhile_upTo {count : Nat} {number : Int} (member : number ∈ upTo count) :
    ((upTo count).toList.takeWhile (· < number)).length + 1 = number := by
  obtain ⟨place, inside, rfl⟩ := List.mem_iff_getElem.mp member
  rw [length_takeWhile_getElem (upTo count).ascending inside]
  simp [upTo]

end SortedSet

namespace App

/-- Whether the priorities of the tasks of every core are 1, 2, 3, … without gaps. -/
def GapFree (app : App) : Prop :=
  ∀ core, app.prioritiesOn core = .upTo (app.prioritiesOn core).size

/-! ## New numbers -/

section Ranks

variable {app : App} {core : Int}

theorem rank_getElem {place : Nat} (inside : place < (app.prioritiesOn core).toList.length) :
    app.rank core (app.prioritiesOn core).toList[place] = place + 1 := by
  rw [rank, length_takeWhile_getElem (app.prioritiesOn core).ascending inside]

theorem exists_rank_iff {number : Int} :
    (∃ priority ∈ app.prioritiesOn core, (app.rank core priority : Int) = number) ↔
      number ∈ SortedSet.upTo (app.prioritiesOn core).size := by
  rw [SortedSet.mem_upTo, SortedSet.size]
  constructor
  · rintro ⟨priority, member, rfl⟩
    obtain ⟨place, inside, rfl⟩ := List.mem_iff_getElem.mp member
    rw [rank_getElem inside]
    omega
  · rintro ⟨hlow, hhigh⟩
    have hinside : (number - 1).toNat < (app.prioritiesOn core).toList.length := by omega
    refine ⟨_, List.getElem_mem hinside, ?_⟩
    rw [rank_getElem hinside]
    omega

/-- There are at least as many numbers below a priority as priorities of its core. -/
theorem rank_le {priority : Int} (member : priority ∈ app.prioritiesOn core) :
    (app.rank core priority : Int) ≤ priority := by
  obtain ⟨place, inside, rfl⟩ := List.mem_iff_getElem.mp member
  have hbelow := lt_getElem (app.prioritiesOn core).ascending
    (fun item hitem => Int.lt_of_lt_of_le Int.zero_lt_one (pos_of_mem_prioritiesOn hitem)) inside
  rw [rank_getElem inside]
  omega

theorem GapFree.rank_eq (h : app.GapFree) {priority : Int}
    (member : priority ∈ app.prioritiesOn core) : (app.rank core priority : Int) = priority := by
  rw [h core] at member
  have hplace := SortedSet.length_takeWhile_upTo member
  rw [← h core] at hplace
  exact hplace

end Ranks

/-! ## The compressed application -/

theorem mem_prioritiesOn {app : App} {core priority : Int} :
    priority ∈ app.prioritiesOn core ↔
      (∃ task ∈ app.hardwareTasks.values, task.core = core ∧ task.priority = priority) ∨
        ∃ task ∈ app.softwareTasks.values, task.core = core ∧ task.priority = priority := by
  simp only [prioritiesOn, SortedSet.mem_ofList, List.mem_append, List.mem_map, List.mem_filter,
    decide_eq_true_eq, and_assoc]

theorem exists_rank_compressed_iff {app : App} {core number : Int} :
    number ∈ app.compressed.prioritiesOn core ↔
      ∃ priority ∈ app.prioritiesOn core, (app.rank core priority : Int) = number := by
  simp only [mem_prioritiesOn, compressed, Table.values_mapValues, List.mem_map]
  constructor
  · rintro (⟨_, ⟨task, member, rfl⟩, rfl, rfl⟩ | ⟨_, ⟨task, member, rfl⟩, rfl, rfl⟩)
    · exact ⟨task.priority, .inl ⟨task, member, rfl, rfl⟩, rfl⟩
    · exact ⟨task.priority, .inr ⟨task, member, rfl, rfl⟩, rfl⟩
  · rintro ⟨_, ⟨task, member, rfl, rfl⟩ | ⟨task, member, rfl, rfl⟩, rfl⟩
    · exact .inl ⟨_, ⟨task, member, rfl⟩, rfl, rfl⟩
    · exact .inr ⟨_, ⟨task, member, rfl⟩, rfl, rfl⟩

theorem prioritiesOn_compressed (app : App) (core : Int) :
    app.compressed.prioritiesOn core = .upTo (app.prioritiesOn core).size := by
  ext number
  rw [exists_rank_compressed_iff, exists_rank_iff]

theorem gapFree_compressed (app : App) : app.compressed.GapFree := by
  intro core
  rw [prioritiesOn_compressed, SortedSet.size_upTo]

theorem renumberHardware_eq_self {app : App} {task : HardwareTask}
    (same : (app.rank task.core task.priority : Int) = task.priority) :
    app.renumberHardware task = task := by
  unfold renumberHardware
  simp only [same]

theorem renumberSoftware_eq_self {app : App} {task : SoftwareTask}
    (same : (app.rank task.core task.priority : Int) = task.priority) :
    app.renumberSoftware task = task := by
  unfold renumberSoftware
  simp only [same]

theorem GapFree.compressed_eq {app : App} (h : app.GapFree) : app.compressed = app := by
  have hhardware : app.hardwareTasks.mapValues app.renumberHardware = app.hardwareTasks :=
    Table.mapValues_eq_self fun row member =>
      renumberHardware_eq_self (h.rank_eq (mem_prioritiesOn_of_hardware member))
  have hsoftware : app.softwareTasks.mapValues app.renumberSoftware = app.softwareTasks :=
    Table.mapValues_eq_self fun row member =>
      renumberSoftware_eq_self (h.rank_eq (mem_prioritiesOn_of_software member))
  rw [compressed, hhardware, hsoftware]

/-- Compression changes an application exactly if its priorities have gaps. -/
theorem compressed_eq_self_iff {app : App} : app.compressed = app ↔ app.GapFree := by
  constructor
  · intro hsame core
    have hcompressed := prioritiesOn_compressed app core
    rwa [hsame] at hcompressed
  · exact GapFree.compressed_eq

end App

end StackPolicy
