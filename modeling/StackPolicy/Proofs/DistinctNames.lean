import Mathlib.Data.Option.Basic
import StackPolicy.Toml.Document

/-!
# Names in project files

No table of a project file has two members of one name, however its members are
spread over keys, headers and braces.
-/

namespace StackPolicy

/-! ## Values and their tables -/

namespace Value

/-- Whether no table inside a value has two members of one name. -/
inductive Distinct : Value → Prop where
  | scalar {value : Value} (scalar : Toml.isNested value = false) : Distinct value
  | list {items : List Value} (distinct : ∀ item ∈ items, Distinct item) : Distinct (list items)
  | record {members : List (String × Value)} (names : (members.map Prod.fst).Nodup)
      (distinct : ∀ member ∈ members, Distinct member.2) : Distinct (record members)

variable {members : List (String × Value)} {name : String} {value : Value}

theorem distinct_list_iff {items : List Value} :
    (list items).Distinct ↔ ∀ item ∈ items, item.Distinct := by
  refine ⟨fun h => ?_, .list⟩
  cases h with
  | scalar scalar => cases scalar
  | list distinct => exact distinct

theorem distinct_record_iff :
    (record members).Distinct ↔
      (members.map Prod.fst).Nodup ∧ ∀ member ∈ members, member.2.Distinct := by
  refine ⟨fun h => ?_, fun h => .record h.1 h.2⟩
  cases h with
  | scalar scalar => cases scalar
  | record names distinct => exact ⟨names, distinct⟩

theorem distinct_empty : (record []).Distinct := .record .nil nofun

theorem mem_of_member? (found : member? members name = some value) : (name, value) ∈ members := by
  obtain ⟨member, hfound, rfl⟩ := Option.map_eq_some_iff.mp found
  have hname : member.1 = name := by simpa using List.find?_some hfound
  exact hname ▸ List.mem_of_find?_eq_some hfound

theorem not_mem_of_member? (absent : member? members name = none) :
    name ∉ members.map Prod.fst := by
  intro present
  obtain ⟨member, hmember, hname⟩ := List.mem_map.mp present
  have habsent := List.find?_eq_none.mp (Option.map_eq_none_iff.mp absent) member hmember
  simp [hname] at habsent

theorem distinct_of_member? (h : (record members).Distinct)
    (found : member? members name = some value) : value.Distinct :=
  (distinct_record_iff.mp h).2 _ (mem_of_member? found)

theorem mem_of_mem_writeRow {member : String × Value}
    (written : member ∈ Table.writeRow name value members) :
    member = (name, value) ∨ member ∈ members := by
  induction members with
  | nil => exact .inl (List.mem_singleton.mp written)
  | cons first members ih =>
      rw [Table.writeRow] at written
      split at written
      · exact (List.mem_cons.mp written).imp_right (List.mem_cons_of_mem _)
      · rcases List.mem_cons.mp written with rfl | hlater
        · exact .inr List.mem_cons_self
        · exact (ih hlater).imp_right (List.mem_cons_of_mem _)

theorem distinct_writeRow (h : (record members).Distinct) (name : String)
    (distinct : value.Distinct) : (record (Table.writeRow name value members)).Distinct := by
  obtain ⟨hnames, hvalues⟩ := distinct_record_iff.mp h
  refine .record (Table.nodup_writeRow name value members hnames) fun member written => ?_
  rcases mem_of_mem_writeRow written with rfl | hold
  · exact distinct
  · exact hvalues member hold

theorem distinct_concat (h : (record members).Distinct) (absent : member? members name = none)
    (distinct : value.Distinct) : (record (members ++ [(name, value)])).Distinct := by
  obtain ⟨hnames, hvalues⟩ := distinct_record_iff.mp h
  refine .record ?_ (List.forall_mem_append.mpr ⟨hvalues, List.forall_mem_singleton.mpr distinct⟩)
  rw [List.map_append, List.nodup_append]
  refine ⟨hnames, by simp, fun other hother last hlast => ?_⟩
  obtain rfl := List.mem_singleton.mp hlast
  rintro rfl
  exact not_mem_of_member? absent hother

end Value

namespace Toml

/-! ## Changes of tables -/

/-- Whether a change of a table leaves it without two members of one name. -/
def KeepsDistinct (change : Members → Option Members) : Prop :=
  ∀ members changed, (Value.record members).Distinct → change members = some changed →
    (Value.record changed).Distinct

theorem keepsDistinct_updateAt? {change : Members → Option Members} (keeps : KeepsDistinct change)
    (throughLists : Bool) (path : List String) :
    KeepsDistinct (updateAt? throughLists change path) := by
  induction path with
  | nil => exact keeps
  | cons name path ih =>
      intro members changed h done
      rw [updateAt?] at done
      split at done
      · obtain ⟨nested, hnested, rfl⟩ := Option.map_eq_some_iff.mp done
        exact Value.distinct_writeRow h name (ih [] nested Value.distinct_empty hnested)
      · rename_i inner found
        obtain ⟨nested, hnested, rfl⟩ := Option.map_eq_some_iff.mp done
        have hinner := Value.distinct_of_member? h found
        exact Value.distinct_writeRow h name (ih inner nested hinner hnested)
      · rename_i items found
        split at done
        · rename_i inner hlast
          obtain ⟨nested, hnested, rfl⟩ := Option.map_eq_some_iff.mp done
          have hitems := Value.distinct_list_iff.mp (Value.distinct_of_member? h found)
          have hchanged := ih inner nested (hitems _ (List.mem_of_getLast? hlast)) hnested
          have hothers : ∀ item ∈ items.dropLast, item.Distinct :=
            fun item hitem => hitems item (List.dropLast_subset items hitem)
          exact Value.distinct_writeRow h name (.list
            (List.forall_mem_append.mpr ⟨hothers, List.forall_mem_singleton.mpr hchanged⟩))
        · cases done
      · cases done

theorem keepsDistinct_addMember? (name : String) {value : Value} (distinct : value.Distinct) :
    KeepsDistinct (addMember? name value) := by
  intro members changed h done
  unfold addMember? at done
  split at done
  · cases done
  · rename_i hfresh
    cases done
    exact Value.distinct_concat h (by simpa using hfresh) distinct

theorem keepsDistinct_appendTable? (name : String) : KeepsDistinct (appendTable? name) := by
  intro members changed h done
  unfold appendTable? at done
  split at done
  · rename_i habsent
    cases done
    exact Value.distinct_concat h habsent
      (.list (List.forall_mem_singleton.mpr Value.distinct_empty))
  · rename_i items found
    cases done
    have hitems := Value.distinct_list_iff.mp (Value.distinct_of_member? h found)
    exact Value.distinct_writeRow h name (.list
      (List.forall_mem_append.mpr ⟨hitems, List.forall_mem_singleton.mpr Value.distinct_empty⟩))
  · cases done

/-! ## Scalars -/

section Scalars

variable {source rest : List Char} {value : Value}

theorem not_nested_readDate? (done : readDate? source = some (value, rest)) :
    isNested value = false := by
  simp only [readDate?, Option.bind_eq_bind, Option.bind_eq_some_iff] at done
  obtain ⟨_, -, _, -, done⟩ := done
  split at done <;> cases done <;> rfl

theorem not_nested_readOtherBase? (done : readOtherBase? source = some (value, rest)) :
    isNested value = false := by
  unfold readOtherBase? readBased? at done
  split at done
  case h_4 => cases done
  all_goals
    obtain ⟨_, -, hvalue⟩ := Option.map_eq_some_iff.mp done
    cases hvalue
    rfl

theorem not_nested_readDecimal? (done : readDecimal? source = some (value, rest)) :
    isNested value = false := by
  simp only [readDecimal?, Option.bind_eq_bind, Option.bind_eq_some_iff] at done
  obtain ⟨_, -, done⟩ := done
  split at done
  · cases done
    rfl
  · cases done
    unfold Value.ofDecimal
    split <;> rfl

theorem not_nested_readSpecial? (done : readSpecial? source = some (value, rest)) :
    isNested value = false := by
  unfold readSpecial? at done
  split at done <;> cases done <;> rfl

theorem not_nested_readScalar? (done : readScalar? source = some (value, rest)) :
    isNested value = false := by
  unfold readScalar? at done
  split at done
  · exact not_nested_readDate? done
  · simp only [Option.orElse_eq_orElse, Option.orElse_eq_or, Option.or_eq_some_iff] at done
    rcases done with htime | ⟨-, hbased | ⟨-, hdecimal | ⟨-, hspecial⟩⟩⟩
    · obtain ⟨_, -, hvalue⟩ := Option.map_eq_some_iff.mp htime
      cases hvalue
      rfl
    · exact not_nested_readOtherBase? hbased
    · exact not_nested_readDecimal? hdecimal
    · exact not_nested_readSpecial? hspecial

end Scalars

/-! ## Values -/

/-- What the readers of values give with some fuel holds no table with two members of one name. -/
structure ReadsDistinct (fuel : Nat) : Prop where
  value : ∀ source value rest, readValue? fuel source = some (value, rest) → value.Distinct
  items : ∀ source items rest, readItems? fuel source = some (items, rest) →
    ∀ item ∈ items, item.Distinct
  inline : ∀ members closed source changed rest, (Value.record members).Distinct →
    readInline? fuel members closed source = some (changed, rest) →
      (Value.record changed).Distinct
  pair : ∀ source path value rest, readPair? fuel source = some (path, value, rest) →
    value.Distinct

namespace ReadsDistinct

variable {fuel : Nat} (h : ReadsDistinct fuel)

include h

theorem value_succ {source rest : List Char} {value : Value}
    (done : readValue? (fuel + 1) source = some (value, rest)) : value.Distinct := by
  unfold readValue? at done
  split at done
  · obtain ⟨_, -, hvalue⟩ := Option.map_eq_some_iff.mp done
    cases hvalue
    exact .scalar rfl
  · obtain ⟨_, -, hvalue⟩ := Option.map_eq_some_iff.mp done
    cases hvalue
    exact .scalar rfl
  · cases done
    exact .scalar rfl
  · cases done
    exact .scalar rfl
  · simp only [Option.bind_eq_bind, Option.bind_eq_some_iff] at done
    obtain ⟨_, -, ⟨items, _⟩, hitems, hvalue⟩ := done
    cases hvalue
    exact .list (h.items _ items _ hitems)
  · split at done
    · cases done
      exact Value.distinct_empty
    · obtain ⟨⟨members, _⟩, hmembers, hvalue⟩ := Option.map_eq_some_iff.mp done
      cases hvalue
      exact h.inline [] [] _ members _ Value.distinct_empty hmembers
  · exact .scalar (not_nested_readScalar? done)

theorem items_succ {source rest : List Char} {items : List Value}
    (done : readItems? (fuel + 1) source = some (items, rest)) :
    ∀ item ∈ items, item.Distinct := by
  unfold readItems? at done
  split at done
  · cases done
    exact nofun
  · simp only [Option.bind_eq_bind, Option.bind_eq_some_iff] at done
    obtain ⟨⟨first, _⟩, hfirst, _, -, done⟩ := done
    have hdistinct := h.value _ first _ hfirst
    split at done
    · cases done
      exact List.forall_mem_singleton.mpr hdistinct
    · simp only [Option.bind_eq_some_iff] at done
      obtain ⟨_, -, ⟨others, _⟩, hothers, hitems⟩ := done
      cases hitems
      exact List.forall_mem_cons.mpr ⟨hdistinct, h.items _ others _ hothers⟩
    · cases done

theorem pair_succ {source rest : List Char} {path : List String} {value : Value}
    (done : readPair? (fuel + 1) source = some (path, value, rest)) : value.Distinct := by
  rw [readPair?] at done
  simp only [Option.bind_eq_bind, Option.bind_eq_some_iff] at done
  obtain ⟨_, -, _, -, ⟨read, _⟩, hvalue, hpair⟩ := done
  cases hpair
  exact h.value _ read _ hvalue

theorem inline_succ {members changed : Members} {closed : List (List String)}
    {source rest : List Char} (distinct : (Value.record members).Distinct)
    (done : readInline? (fuel + 1) members closed source = some (changed, rest)) :
    (Value.record changed).Distinct := by
  rw [readInline?] at done
  simp only [Option.bind_eq_bind, Option.bind_eq_some_iff] at done
  obtain ⟨⟨path, value, _⟩, hpair, _, -, later, hlater, done⟩ := done
  have hvalue := h.pair _ path value _ hpair
  have hadded := keepsDistinct_updateAt? (keepsDistinct_addMember? (path.getLastD "") hvalue)
    false path.dropLast members later distinct hlater
  split at done
  · cases done
    exact hadded
  · exact h.inline later _ _ changed _ hadded done
  · cases done

end ReadsDistinct

theorem readsDistinct (fuel : Nat) : ReadsDistinct fuel := by
  -- the readers call one another, so one induction has to carry all four
  induction fuel with
  | zero => exact ⟨nofun, nofun, nofun, nofun⟩
  | succ fuel ih =>
      exact ⟨fun _ _ _ => ih.value_succ, fun _ _ _ => ih.items_succ,
        fun _ _ _ _ _ => ih.inline_succ, fun _ _ _ _ => ih.pair_succ⟩

/-! ## Statements -/

def Draft.Distinct (draft : Draft) : Prop := (Value.record draft.members).Distinct

namespace Draft.Distinct

variable {draft later : Draft} (h : draft.Distinct)

include h

theorem settle : draft.settle.Distinct := h

theorem addPair? {path : List String} {value : Value} (distinct : value.Distinct)
    (done : draft.addPair? path value = some later) : later.Distinct := by
  simp only [Draft.addPair?, Option.bind_eq_bind, Option.bind_eq_some_iff] at done
  obtain ⟨_, -, _, -, members, hmembers, hlater⟩ := done
  cases hlater
  exact keepsDistinct_updateAt? (keepsDistinct_addMember? _ distinct) true _ _ members h hmembers

theorem openTable? {path : List String} (done : draft.openTable? path = some later) :
    later.Distinct := by
  simp only [Draft.openTable?, Option.bind_eq_bind, Option.bind_eq_some_iff] at done
  obtain ⟨_, -, members, hmembers, hlater⟩ := done
  cases hlater
  have hkeeps : KeepsDistinct some := by
    rintro members _ hdistinct ⟨⟩
    exact hdistinct
  exact keepsDistinct_updateAt? hkeeps true path _ members h hmembers

theorem appendTable? {path : List String} (done : draft.appendTable? path = some later) :
    later.Distinct := by
  simp only [Draft.appendTable?, Option.bind_eq_bind, Option.bind_eq_some_iff] at done
  obtain ⟨_, -, members, hmembers, hlater⟩ := done
  cases hlater
  exact keepsDistinct_updateAt? (keepsDistinct_appendTable? _) true _ _ members h hmembers

theorem readStatement? {source rest : List Char}
    (done : Toml.readStatement? draft source = some (later, rest)) : later.Distinct := by
  unfold Toml.readStatement? at done
  split at done
  · simp only [Option.bind_eq_bind, Option.bind_eq_some_iff] at done
    obtain ⟨_, -, opened, hopened, _, -, _, -, hlater⟩ := done
    cases hlater
    exact h.settle.appendTable? hopened
  · simp only [Option.bind_eq_bind, Option.bind_eq_some_iff] at done
    obtain ⟨_, -, opened, hopened, _, -, hlater⟩ := done
    cases hlater
    exact h.settle.openTable? hopened
  · cases done
    exact h
  · simp only [Option.bind_eq_bind, Option.bind_eq_some_iff] at done
    obtain ⟨⟨path, value, _⟩, hpair, added, hadded, hlater⟩ := done
    cases hlater
    exact h.addPair? ((readsDistinct _).pair _ path value _ hpair) hadded

theorem readStatements? {fuel : Nat} {source : List Char}
    (done : Toml.readStatements? fuel draft source = some later) : later.Distinct := by
  induction fuel generalizing draft source with
  | zero => cases done
  | succ fuel ih =>
      rw [Toml.readStatements?] at done
      split at done
      · cases done
        exact h
      · exact ih h done
      · simp only [Option.bind_eq_bind, Option.bind_eq_some_iff] at done
        obtain ⟨⟨read, _⟩, hread, _, -, done⟩ := done
        have hdistinct := h.readStatement? hread
        split at done
        · cases done
          exact hdistinct
        · exact ih hdistinct done
        · cases done

end Draft.Distinct

/-- No table of a project file has two members of one name. -/
theorem distinct_of_read? {source : List Char} {members : Members}
    (done : read? source = some members) : (Value.record members).Distinct := by
  obtain ⟨draft, hdraft, rfl⟩ := Option.map_eq_some_iff.mp done
  have hstart : Draft.start.Distinct := Value.distinct_empty
  exact hstart.readStatements? hdraft

end Toml

end StackPolicy
