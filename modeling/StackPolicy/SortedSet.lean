/-!
# Sorted sets

A finite set is kept as its strictly ascending list of members, so two sets
with the same members are equal.  Text is ordered by code point.
-/

namespace StackPolicy

/-- A finite set, held as the ascending list of its members. -/
structure SortedSet (Member : Type) [LT Member] where
  toList : List Member
  ascending : toList.Pairwise (· < ·)

namespace SortedSet

variable {Member : Type} [LT Member]

instance [DecidableEq Member] : DecidableEq (SortedSet Member) := fun left right =>
  decidable_of_iff (left.toList = right.toList) (by cases left; cases right; simp)

instance [Repr Member] : Repr (SortedSet Member) where
  reprPrec members precedence := reprPrec members.toList precedence

instance : Membership Member (SortedSet Member) where
  mem members member := member ∈ members.toList

instance [DecidableEq Member] (member : Member) (members : SortedSet Member) :
    Decidable (member ∈ members) :=
  inferInstanceAs (Decidable (member ∈ members.toList))

def empty : SortedSet Member := ⟨[], List.Pairwise.nil⟩

instance : EmptyCollection (SortedSet Member) := ⟨empty⟩

instance : Inhabited (SortedSet Member) := ⟨empty⟩

def isEmpty (members : SortedSet Member) : Bool := members.toList.isEmpty

def size (members : SortedSet Member) : Nat := members.toList.length

theorem mem_toList {member : Member} {members : SortedSet Member} :
    member ∈ members.toList ↔ member ∈ members := Iff.rfl

theorem isEmpty_eq_false_iff {members : SortedSet Member} :
    members.isEmpty = false ↔ ∃ member, member ∈ members := by
  unfold isEmpty
  rw [List.isEmpty_eq_false_iff_exists_mem]
  rfl

def filter (members : SortedSet Member) (keep : Member → Bool) : SortedSet Member :=
  ⟨members.toList.filter keep, members.ascending.sublist List.filter_sublist⟩

@[simp] theorem not_mem_empty (member : Member) : member ∉ (∅ : SortedSet Member) :=
  List.not_mem_nil

@[simp] theorem mem_filter {members : SortedSet Member} {keep : Member → Bool}
    {member : Member} : member ∈ members.filter keep ↔ member ∈ members ∧ keep member = true :=
  List.mem_filter

theorem nodup_of_ascending [LE Member] [Std.LawfulOrderLT Member] {members : List Member}
    (ascending : members.Pairwise (· < ·)) : members.Nodup :=
  ascending.imp fun {first second} (below : first < second) (same : first = second) =>
    absurd below (same ▸ Std.lt_irrefl)

theorem size_le_one_iff [LE Member] [Std.LawfulOrderLT Member] {members : SortedSet Member} :
    members.size ≤ 1 ↔ ∀ first ∈ members, ∀ second ∈ members, first = second := by
  obtain ⟨list, ascending⟩ := members
  change list.length ≤ 1 ↔ ∀ first ∈ list, ∀ second ∈ list, first = second
  match list, nodup_of_ascending ascending with
  | [], _ => simp
  | [member], _ => simp
  | first :: second :: rest, distinct =>
      have hne : first ≠ second := (List.pairwise_cons.mp distinct).1 second List.mem_cons_self
      simp [hne]

@[ext] theorem ext [LE Member] [Std.LawfulOrderLT Member] [Std.IsLinearOrder Member]
    {left right : SortedSet Member}
    (same : ∀ member, member ∈ left ↔ member ∈ right) : left = right := by
  obtain ⟨leftList, leftAscending⟩ := left
  obtain ⟨rightList, rightAscending⟩ := right
  have permuted : leftList.Perm rightList :=
    (List.perm_ext_iff_of_nodup (nodup_of_ascending leftAscending)
      (nodup_of_ascending rightAscending)).mpr same
  have equal : leftList = rightList :=
    permuted.eq_of_pairwise
      (fun _ _ _ _ below above => absurd (Std.lt_trans below above) Std.lt_irrefl)
      leftAscending rightAscending
  cases equal
  rfl

/-! ## Insertion -/

section Ordered

variable [LE Member] [DecidableLT Member] [Std.LawfulOrderLT Member]
variable [Std.IsLinearOrder Member]

/-- Puts `member` at its place in an ascending list, unless it is there already. -/
def place (member : Member) : List Member → List Member
  | [] => [member]
  | first :: rest =>
      if member < first then member :: first :: rest
      else if first < member then first :: place member rest
      else first :: rest

theorem mem_place (member other : Member) (members : List Member) :
    other ∈ place member members ↔ other = member ∨ other ∈ members := by
  induction members with
  | nil => simp [place]
  | cons first rest ih =>
      rw [place]
      split
      · simp
      · split
        · simp only [List.mem_cons, ih]
          grind
        · have same : first = member :=
            Std.le_antisymm (Std.not_lt.mp (by assumption)) (Std.not_lt.mp (by assumption))
          simp [same]

theorem ascending_place (member : Member) (members : List Member)
    (ascending : members.Pairwise (· < ·)) :
    (place member members).Pairwise (· < ·) := by
  induction members with
  | nil => simp [place]
  | cons first rest ih =>
      rw [List.pairwise_cons] at ascending
      rw [place]
      split
      · rename_i below
        refine List.pairwise_cons.mpr ⟨fun other found => ?_, List.pairwise_cons.mpr ascending⟩
        rcases List.mem_cons.mp found with rfl | found
        · exact below
        · exact Std.lt_trans below (ascending.1 other found)
      · split
        · rename_i above
          refine List.pairwise_cons.mpr ⟨fun other found => ?_, ih ascending.2⟩
          rcases (mem_place member other rest).mp found with rfl | found
          · exact above
          · exact ascending.1 other found
        · exact List.pairwise_cons.mpr ascending

def insert (members : SortedSet Member) (member : Member) : SortedSet Member :=
  ⟨place member members.toList, ascending_place member members.toList members.ascending⟩

def ofList (members : List Member) : SortedSet Member :=
  members.foldl insert empty

@[simp] theorem mem_insert {members : SortedSet Member} {member other : Member} :
    other ∈ members.insert member ↔ other = member ∨ other ∈ members :=
  mem_place member other members.toList

private theorem mem_foldl_insert (added : List Member) (start : SortedSet Member)
    (member : Member) :
    member ∈ added.foldl insert start ↔ member ∈ start ∨ member ∈ added := by
  induction added generalizing start with
  | nil => simp
  | cons first rest ih =>
      rw [List.foldl_cons, ih, mem_insert, List.mem_cons]
      grind

@[simp] theorem mem_ofList {added : List Member} {member : Member} :
    member ∈ ofList added ↔ member ∈ added := by
  unfold ofList
  rw [mem_foldl_insert]
  exact or_iff_right (not_mem_empty member)

end Ordered

end SortedSet

end StackPolicy
