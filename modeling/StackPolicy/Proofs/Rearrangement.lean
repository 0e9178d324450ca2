import Mathlib.Data.Multiset.Bind
import StackPolicy.Table.Lemmas

/-!
# Rearranged lists and tables

Two lists are rearrangements of each other if their items are similar one by
one, in some order.  What some item has in one of them, some item has in the
other.
-/

namespace StackPolicy

variable {Item Other New Result : Type}

def Rearranged (Similar : Item → Other → Prop) (first : List Item) (second : List Other) : Prop :=
  Multiset.Rel Similar first second

namespace Rearranged

theorem of_perm {first second : List Item} (h : first.Perm second) :
    Rearranged (· = ·) first second :=
  Multiset.rel_eq.mpr (Multiset.coe_eq_coe.mpr h)

section Similar

variable {Similar : Item → Other → Prop} {first : List Item} {second : List Other}
  (h : Rearranged Similar first second)

include h

theorem congr {other : List Item} {another : List Other} (left : other.Perm first)
    (right : another.Perm second) : Rearranged Similar other another := by
  unfold Rearranged at h ⊢
  rwa [Multiset.coe_eq_coe.mpr left, Multiset.coe_eq_coe.mpr right]

theorem mono {Related : Item → Other → Prop}
    (weaker : ∀ item other, Similar item other → Related item other) :
    Rearranged Related first second :=
  Multiset.Rel.mono h fun item _ other _ similar => weaker item other similar

theorem map {Related : New → Result → Prop} {change : Item → New} {alter : Other → Result}
    (keeps : ∀ item other, Similar item other → Related (change item) (alter other)) :
    Rearranged Related (first.map change) (second.map alter) :=
  Multiset.rel_map.mpr (h.mono keeps)

theorem append {more : List Item} {extra : List Other} (again : Rearranged Similar more extra) :
    Rearranged Similar (first ++ more) (second ++ extra) :=
  Multiset.Rel.add h again

theorem flatMap {Related : New → Result → Prop} {parts : Item → List New}
    {pieces : Other → List Result}
    (keeps : ∀ item other, Similar item other → Rearranged Related (parts item) (pieces other)) :
    Rearranged Related (first.flatMap parts) (second.flatMap pieces) := by
  unfold Rearranged
  rw [← Multiset.coe_bind, ← Multiset.coe_bind]
  exact Multiset.rel_bind keeps h

theorem filter {keep : Item → Bool} {select : Other → Bool}
    (same : ∀ item other, Similar item other → keep item = select other) :
    Rearranged Similar (first.filter keep) (second.filter select) := by
  have hparts : ∀ {New : Type} (items : List New) (choose : New → Bool),
      items.filter choose = items.flatMap fun item => if choose item then [item] else [] := by
    intro New items choose
    induction items with
    | nil => rfl
    | cons item items ih =>
        rw [List.filter_cons, List.flatMap_cons, ih]
        split <;> rfl
  rw [hparts, hparts]
  apply h.flatMap
  intro item other similar
  rw [same item other similar]
  split
  · exact Multiset.Rel.cons similar Multiset.Rel.zero
  · exact Multiset.Rel.zero

theorem perm_map {change : Item → New} {alter : Other → New}
    (same : ∀ item other, Similar item other → change item = alter other) :
    (first.map change).Perm (second.map alter) :=
  Multiset.coe_eq_coe.mp (Multiset.rel_eq.mp (h.map same))

theorem perm_flatMap {parts : Item → List New} {pieces : Other → List New}
    (same : ∀ item other, Similar item other → (parts item).Perm (pieces other)) :
    (first.flatMap parts).Perm (second.flatMap pieces) :=
  Multiset.coe_eq_coe.mp (Multiset.rel_eq.mp
    (h.flatMap fun item other similar => of_perm (same item other similar)))

theorem exists_iff {Holds : Item → Prop} {Applies : Other → Prop}
    (same : ∀ item other, Similar item other → (Holds item ↔ Applies other)) :
    (∃ item ∈ first, Holds item) ↔ ∃ other ∈ second, Applies other := by
  constructor
  · rintro ⟨item, member, hholds⟩
    obtain ⟨other, hother, hsimilar⟩ := Multiset.exists_mem_of_rel_of_mem h member
    exact ⟨other, hother, (same item other hsimilar).mp hholds⟩
  · rintro ⟨other, member, happlies⟩
    obtain ⟨item, hitem, hsimilar⟩ :=
      Multiset.exists_mem_of_rel_of_mem (Multiset.rel_flip.mpr h) member
    exact ⟨item, hitem, (same item other hsimilar).mpr happlies⟩

theorem forall_of_forall {Holds : Item → Prop} {Applies : Other → Prop}
    (same : ∀ item other, Similar item other → Holds item → Applies other)
    (all : ∀ item ∈ first, Holds item) : ∀ other ∈ second, Applies other := by
  intro other member
  obtain ⟨item, hitem, hsimilar⟩ :=
    Multiset.exists_mem_of_rel_of_mem (Multiset.rel_flip.mpr h) member
  exact same item other hsimilar (all item hitem)

end Similar

end Rearranged

namespace Table

variable {Key : Type}

/-- The rows of two tables have the same keys, with similar values. -/
def Rearranged (Similar : Item → Other → Prop) (first : Table Key Item)
    (second : Table Key Other) : Prop :=
  StackPolicy.Rearranged (fun row other => row.1 = other.1 ∧ Similar row.2 other.2)
    first.rows second.rows

namespace Rearranged

variable {Similar : Item → Other → Prop} {first : Table Key Item} {second : Table Key Other}
  (h : first.Rearranged Similar second)

include h

theorem perm_keys : first.keys.Perm second.keys :=
  h.perm_map fun _ _ similar => similar.1

theorem mapValues {Related : New → Result → Prop} {change : Item → New} {alter : Other → Result}
    (keeps : ∀ item other, Similar item other → Related (change item) (alter other)) :
    (first.mapValues change).Rearranged Related (second.mapValues alter) :=
  h.map fun _ _ similar => ⟨similar.1, keeps _ _ similar.2⟩

theorem exists_get?_iff [DecidableEq Key] {Holds : Item → Prop} {Applies : Other → Prop}
    (same : ∀ item other, Similar item other → (Holds item ↔ Applies other)) (key : Key) :
    (∃ item, first.get? key = some item ∧ Holds item) ↔
      ∃ other, second.get? key = some other ∧ Applies other := by
  have hrows : (∃ row ∈ first.rows, row.1 = key ∧ Holds row.2) ↔
      ∃ row ∈ second.rows, row.1 = key ∧ Applies row.2 :=
    h.exists_iff fun row other similar => by rw [similar.1, same _ _ similar.2]
  simpa [get?_eq_some_iff] using hrows

theorem map_get? [DecidableEq Key] {read : Item → New} {find : Other → New}
    (same : ∀ item other, Similar item other → read item = find other) (key : Key) :
    (first.get? key).map read = (second.get? key).map find := by
  refine Option.ext fun value => ?_
  rw [Option.map_eq_some_iff, Option.map_eq_some_iff]
  exact h.exists_get?_iff (fun item other similar => by rw [same item other similar]) key

end Rearranged

end Table

end StackPolicy
