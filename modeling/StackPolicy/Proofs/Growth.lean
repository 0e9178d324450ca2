import Mathlib.Data.List.Perm.Subperm
import Mathlib.Data.List.Sort
import StackPolicy.Proofs.ChannelContents
import StackPolicy.Proofs.ConcurrentReads

/-!
# Results that are at most others

A result is at most another one if the other says as much or more: a set has
the same members and others, a table the same keys and others, and ownerships,
ceilings and capacities are as high or higher.
-/

namespace StackPolicy

/-! ## Sets and tables -/

namespace SortedSet

variable {Member : Type} [LT Member]

/-- Whether all members of a set belong to another one. -/
def Within (first second : SortedSet Member) : Prop := ∀ member ∈ first, member ∈ second

theorem Within.toList_sublist [LE Member] [Std.LawfulOrderLT Member] [Std.IsLinearOrder Member]
    {first second : SortedSet Member} (h : first.Within second) :
    first.toList.Sublist second.toList := by
  have hantisymm : Std.Antisymm fun low high : Member => low < high :=
    ⟨fun low high below above => absurd (Std.lt_trans below above) Std.lt_irrefl⟩
  have hsubperm : first.toList.Subperm second.toList :=
    List.Nodup.subperm (nodup_of_ascending first.ascending) h
  exact List.sublist_of_subperm_of_pairwise hsubperm first.ascending second.ascending

end SortedSet

/-- Whether another table has all keys of a table, with related items. -/
def Table.AtMost {Key Item Other : Type} [DecidableEq Key] (Related : Item → Other → Prop)
    (table : Table Key Item) (other : Table Key Other) : Prop :=
  ∀ key item, table.get? key = some item →
    ∃ raised, other.get? key = some raised ∧ Related item raised

/-! ## Ownerships -/

namespace Ownership

/-- The place of an ownership among owned, co-owned and contended. -/
def rank : Ownership → Nat
  | owned _ => 0
  | coOwned _ => 1
  | contended _ => 2

structure AtMost (ownership other : Ownership) : Prop where
  rank : ownership.rank ≤ other.rank
  level : ownership.level ≤ other.level

/-- More accesses raise an ownership, or leave it as it is. -/
theorem Describes.atMost {ownership other : Ownership} {priorities others : List Int}
    (h : ownership.Describes priorities) (again : other.Describes others)
    (more : priorities.Sublist others) : ownership.AtMost other := by
  refine ⟨?_, again.le_level (more.subset h.level_mem)⟩
  cases ownership with
  | owned priority => exact Nat.zero_le _
  | coOwned priority =>
      cases other with
      | owned owner =>
          have hlength := more.length_le
          have hseveral := h.1
          rw [show others = [owner] from again] at hlength
          simp only [List.length_singleton] at hlength
          omega
      | coOwned owner => exact Nat.le_refl 1
      | contended ceiling => exact Nat.le_succ 1
  | contended ceiling =>
      obtain ⟨first, hfirst, second, hsecond, hapart⟩ := h.isContended_iff.mp rfl
      have hcontended := again.isContended_iff.mpr
        ⟨first, more.subset hfirst, second, more.subset hsecond, hapart⟩
      cases other with
      | owned owner => cases hcontended
      | coOwned owner => cases hcontended
      | contended highest => exact Nat.le_refl 2

theorem needsLock_iff_below_ceiling {ownership : Ownership} {priority : Int} :
    ownership.needsLock priority = .ok true ↔
      ∃ ceiling, ownership = .contended ceiling ∧ priority < ceiling := by
  cases ownership with
  | owned owner => simp [needsLock]
  | coOwned owner => simp [needsLock]
  | contended ceiling =>
      simp only [needsLock, contended.injEq, exists_eq_left']
      split
      · simp
      · simp only [reduceCtorEq, false_iff]
        omega

theorem AtMost.needsLock {ownership other : Ownership} (h : ownership.AtMost other)
    {priority : Int} (locks : ownership.needsLock priority = .ok true) :
    other.needsLock priority = .ok true := by
  obtain ⟨ceiling, rfl, hbelow⟩ := needsLock_iff_below_ceiling.mp locks
  obtain ⟨hrank, hlevel⟩ := h
  cases other with
  | owned owner => simp [Ownership.rank] at hrank
  | coOwned owner => simp [Ownership.rank] at hrank
  | contended highest =>
      simp only [Ownership.level] at hlevel
      exact needsLock_iff_below_ceiling.mpr ⟨highest, rfl, by omega⟩

end Ownership

/-! ## Ceilings, queues and channels -/

/-- A ceiling is at most another one if some contender there reaches every contender here. -/
theorem IsHighest.le_of_reached {Contends Others : Int → Prop} {ceiling other : Option Int}
    (h : IsHighest Contends ceiling) (again : IsHighest Others other)
    (reached : ∀ priority, Contends priority → ∃ above, Others above ∧ priority ≤ above) :
    ceiling ≤ other := by
  cases ceiling with
  | none => simp
  | some highest =>
      cases other with
      | none =>
          obtain ⟨above, habove, -⟩ := reached highest h.1
          exact absurd habove (again above)
      | some above => exact Option.some_le_some.mpr ((h.le_iff again).mpr reached)

structure Channel.AtMost (channel other : Channel) : Prop where
  ceiling : channel.ceiling ≤ other.ceiling
  capacity : channel.capacity ≤ other.capacity
  tasks : channel.tasks.Within other.tasks

structure TimerQueue.AtMost (queue other : TimerQueue) : Prop where
  priority : queue.priority ≤ other.priority
  ceiling : queue.ceiling ≤ other.ceiling
  capacity : queue.capacity ≤ other.capacity
  tasks : queue.tasks.Within other.tasks

end StackPolicy
