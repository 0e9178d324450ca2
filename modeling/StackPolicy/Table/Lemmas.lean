import StackPolicy.Table

/-!
# The contents of tables

A table is determined by what `get?` returns and by the order of its keys.
These lemmas say what every operation does to both.
-/

namespace StackPolicy.Table

variable {Key Item Other : Type}

@[simp] theorem keys_empty : (∅ : Table Key Item).keys = [] := rfl

@[simp] theorem keys_mapRows (table : Table Key Item) (change : Key → Item → Other) :
    (table.mapRows change).keys = table.keys := by
  simp [keys, mapRows, Function.comp_def]

@[simp] theorem values_mapValues (table : Table Key Item) (change : Item → Other) :
    (table.mapValues change).values = table.values.map change := by
  simp [values, mapValues, mapRows]

variable [DecidableEq Key]

/-! ## Rows and readings -/

private theorem find?_eq_some_of_mem {rows : List (Key × Item)}
    (distinct : (rows.map Prod.fst).Nodup) {key : Key} {item : Item}
    (member : (key, item) ∈ rows) :
    (rows.find? fun row => row.1 = key).map Prod.snd = some item := by
  induction rows with
  | nil => simp at member
  | cons row rows ih =>
      rw [List.map_cons, List.nodup_cons] at distinct
      rcases List.mem_cons.mp member with same | later
      · simp [← same]
      · have other : row.1 ≠ key := fun same =>
          distinct.1 (same ▸ List.mem_map_of_mem (f := Prod.fst) later)
        simpa [other] using ih distinct.2 later

theorem get?_eq_some_iff {table : Table Key Item} {key : Key} {item : Item} :
    table.get? key = some item ↔ (key, item) ∈ table.rows := by
  constructor
  · intro found
    obtain ⟨row, located, rfl⟩ := Option.map_eq_some_iff.mp found
    have same : row.1 = key := by simpa using List.find?_some located
    exact same ▸ List.mem_of_find?_eq_some located
  · exact find?_eq_some_of_mem table.keys_nodup

theorem get?_eq_none_iff {table : Table Key Item} {key : Key} :
    table.get? key = none ↔ key ∉ table.keys := by
  rw [get?, Option.map_eq_none_iff, List.find?_eq_none, keys, List.mem_map]
  constructor
  · rintro absent ⟨row, member, same⟩
    exact absent row member (by simpa using same)
  · intro absent row member same
    exact absent ⟨row, member, by simpa using same⟩

theorem contains_iff {table : Table Key Item} {key : Key} :
    table.contains key = true ↔ key ∈ table.keys := by
  simp [contains, keys]

@[simp] theorem get?_empty (key : Key) : (∅ : Table Key Item).get? key = none := rfl

theorem mem_keys_iff {table : Table Key Item} {key : Key} :
    key ∈ table.keys ↔ ∃ item, table.get? key = some item := by
  rw [← Option.ne_none_iff_exists', ne_eq, get?_eq_none_iff, Decidable.not_not]

private theorem filter_rows {rows : List (Key × Item)} (distinct : (rows.map Prod.fst).Nodup)
    (key : Key) :
    (rows.filter fun row => row.1 = key) =
      (((rows.find? fun row => row.1 = key).map Prod.snd).map fun item => (key, item)).toList := by
  induction rows with
  | nil => rfl
  | cons row rows ih =>
      rw [List.map_cons, List.nodup_cons] at distinct
      by_cases here : row.1 = key
      · subst here
        have others : ∀ other ∈ rows, ¬ other.1 = row.1 := fun other member same =>
          distinct.1 (same ▸ List.mem_map_of_mem member)
        have alone : (rows.filter fun other => other.1 = row.1) = [] := by
          simpa [List.filter_eq_nil_iff] using others
        simp [alone]
      · simpa [here] using ih distinct.2

theorem filter_rows_eq_toList (table : Table Key Item) (key : Key) :
    (table.rows.filter fun row => row.1 = key) =
      ((table.get? key).map fun item => (key, item)).toList :=
  filter_rows table.keys_nodup key

/-! ## Writing -/

theorem get?_insert (table : Table Key Item) (key other : Key) (item : Item) :
    (table.insert key item).get? other =
      if other = key then some item else table.get? other := by
  unfold get? insert
  simp only
  induction table.rows with
  | nil => by_cases same : other = key <;> simp [writeRow, same, eq_comm]
  | cons row rows ih =>
      by_cases here : row.1 = key
      · by_cases same : other = key
        · simp [writeRow, here, same]
        · have apart : row.1 ≠ other := fun found => same (found ▸ here)
          simp [writeRow, here, same, Ne.symm same]
      · by_cases found : row.1 = other
        · have apart : other ≠ key := found ▸ here
          simp [writeRow, found, apart]
        · simpa [writeRow, here, found] using ih

@[simp] theorem get?_insert_self (table : Table Key Item) (key : Key) (item : Item) :
    (table.insert key item).get? key = some item := by
  simp [get?_insert]

@[simp] theorem mem_keys_insert {table : Table Key Item} {key other : Key} {item : Item} :
    other ∈ (table.insert key item).keys ↔ other = key ∨ other ∈ table.keys :=
  mem_keys_writeRow key other item table.rows

/-- Writing to a key that is present keeps the order of the keys, and a new key comes last. -/
theorem keys_insert (table : Table Key Item) (key : Key) (item : Item) :
    (table.insert key item).keys =
      if key ∈ table.keys then table.keys else table.keys ++ [key] := by
  unfold keys insert
  simp only
  induction table.rows with
  | nil => simp [writeRow]
  | cons row rows ih =>
      by_cases here : row.1 = key
      · simp [writeRow, here]
      · simp only [writeRow, here, if_false, List.map_cons, ih]
        by_cases later : key ∈ rows.map Prod.fst
        · simp only [later, if_true, List.mem_cons, or_true]
        · simp only [later, if_false, List.mem_cons, or_false, Ne.symm here, List.cons_append]

theorem writeRow_of_fresh {rows : List (Key × Item)} {key : Key}
    (fresh : key ∉ rows.map Prod.fst) (item : Item) :
    writeRow key item rows = rows ++ [(key, item)] := by
  induction rows with
  | nil => rfl
  | cons row rows ih =>
      rw [List.map_cons, List.mem_cons, not_or] at fresh
      rw [writeRow, if_neg (Ne.symm fresh.1), ih fresh.2, List.cons_append]

theorem writeRow_of_nodup {row : Key × Item} {rows later : List (Key × Item)}
    (distinct : ((rows ++ row :: later).map Prod.fst).Nodup) :
    writeRow row.1 row.2 rows = rows ++ [row] := by
  rw [List.map_append, List.map_cons, List.nodup_append] at distinct
  exact writeRow_of_fresh (fun present => distinct.2.2 _ present _ List.mem_cons_self rfl) row.2

theorem keys_insertIfNew (table : Table Key Item) (key : Key) (item : Item) :
    (table.insertIfNew key item).keys =
      if key ∈ table.keys then table.keys else table.keys ++ [key] := by
  unfold insertIfNew
  by_cases present : key ∈ table.keys
  · rw [if_pos (contains_iff.mpr present), if_pos present]
  · rw [if_neg fun h => present (contains_iff.mp h), keys_insert]

theorem get?_insertIfNew (table : Table Key Item) (key other : Key) (item : Item) :
    (table.insertIfNew key item).get? other =
      if other = key then some ((table.get? key).getD item) else table.get? other := by
  unfold insertIfNew
  by_cases present : key ∈ table.keys
  · obtain ⟨old, found⟩ := mem_keys_iff.mp present
    rw [if_pos (contains_iff.mpr present), found]
    by_cases same : other = key
    · simp [same, found]
    · simp [same]
  · have absent := get?_eq_none_iff.mpr present
    rw [if_neg fun h => present (contains_iff.mp h), get?_insert, absent]
    rfl

private theorem mem_of_get?_foldl_insert {rows : List (Key × Item)} {table : Table Key Item}
    {key : Key} {item : Item}
    (found : (rows.foldl (fun table row => table.insert row.1 row.2) table).get? key = some item) :
    (key, item) ∈ rows ∨ table.get? key = some item := by
  induction rows generalizing table with
  | nil => exact .inr found
  | cons row rows ih =>
      rcases ih found with later | here
      · exact .inl (List.mem_cons_of_mem row later)
      · rw [get?_insert] at here
        split at here
        · rename_i same
          cases here
          exact .inl (same ▸ List.mem_cons_self)
        · exact .inr here

theorem mem_of_get?_ofList {rows : List (Key × Item)} {key : Key} {item : Item}
    (found : (ofList rows).get? key = some item) : (key, item) ∈ rows := by
  rcases mem_of_get?_foldl_insert found with member | absent
  · exact member
  · cases absent

private theorem mem_keys_foldl_insert {rows : List (Key × Item)} {table : Table Key Item}
    {key : Key} :
    key ∈ (rows.foldl (fun table row => table.insert row.1 row.2) table).keys ↔
      key ∈ rows.map Prod.fst ∨ key ∈ table.keys := by
  induction rows generalizing table with
  | nil => simp
  | cons row rows ih =>
      rw [List.foldl_cons, ih, mem_keys_insert, List.map_cons, List.mem_cons]
      grind

theorem mem_keys_ofList {rows : List (Key × Item)} {key : Key} :
    key ∈ (ofList rows).keys ↔ key ∈ rows.map Prod.fst := by
  unfold ofList
  rw [mem_keys_foldl_insert]
  exact or_iff_left List.not_mem_nil

private theorem get?_foldl_insert (rows : List (Key × Item)) (table : Table Key Item) (key : Key) :
    (rows.foldl (fun table row => table.insert row.1 row.2) table).get? key =
      ((rows.filter fun row => row.1 = key).getLast?.map Prod.snd).or (table.get? key) := by
  induction rows generalizing table with
  | nil => rfl
  | cons row rows ih =>
      rw [List.foldl_cons, ih, get?_insert, List.filter_cons]
      by_cases here : row.1 = key
      · rw [if_pos here.symm, if_pos (decide_eq_true here), List.getLast?_cons]
        cases (rows.filter fun row => row.1 = key).getLast? <;> rfl
      · rw [if_neg (Ne.symm here), if_neg (by simpa using here)]

/-- Of two tables that are written one after the other, the second one counts. -/
theorem get?_ofList_append (first second : Table Key Item) (key : Key) :
    (ofList (first.rows ++ second.rows)).get? key = (second.get? key).or (first.get? key) := by
  unfold ofList
  rw [get?_foldl_insert, List.filter_append, filter_rows_eq_toList, filter_rows_eq_toList]
  cases second.get? key with
  | none => cases first.get? key <;> rfl
  | some item => simp

/-! ## Whole-table operations -/

theorem get?_mapRows (table : Table Key Item) (change : Key → Item → Other) (key : Key) :
    (table.mapRows change).get? key = (table.get? key).map (change key) := by
  unfold get? mapRows
  simp only
  induction table.rows with
  | nil => rfl
  | cons row rows ih =>
      by_cases here : row.1 = key
      · simp [here]
      · simpa [here] using ih

theorem get?_filter_eq_some_iff {table : Table Key Item} {keep : Key → Item → Bool} {key : Key}
    {item : Item} :
    (table.filter keep).get? key = some item ↔
      table.get? key = some item ∧ keep key item = true := by
  simp [get?_eq_some_iff, filter]

@[simp] theorem get?_sortByKey [LE Key] [DecidableLE Key] (table : Table Key Item) (key : Key) :
    table.sortByKey.get? key = table.get? key := by
  refine Option.ext fun item => ?_
  rw [get?_eq_some_iff, get?_eq_some_iff]
  exact (List.mergeSort_perm table.rows _).mem_iff

@[simp] theorem mem_keys_sortByKey [LE Key] [DecidableLE Key] {table : Table Key Item} {key : Key} :
    key ∈ table.sortByKey.keys ↔ key ∈ table.keys := by
  rw [mem_keys_iff, mem_keys_iff, get?_sortByKey]

/-! ## Equality -/

omit [DecidableEq Key] in
@[ext] theorem ext {first second : Table Key Item} (rows : first.rows = second.rows) :
    first = second := by
  cases first
  cases second
  cases rows
  rfl

omit [DecidableEq Key] in
theorem mapValues_eq_self {table : Table Key Item} {change : Item → Item}
    (keeps : ∀ row ∈ table.rows, change row.2 = row.2) : table.mapValues change = table := by
  apply ext
  refine (List.map_congr_left fun row member => ?_).trans (List.map_id table.rows)
  exact congrArg (Prod.mk row.1) (keeps row member)

private theorem rows_foldl_insert {rows : List (Key × Item)} {table : Table Key Item}
    (distinct : ((table.rows ++ rows).map Prod.fst).Nodup) :
    (rows.foldl (fun table row => table.insert row.1 row.2) table).rows = table.rows ++ rows := by
  induction rows generalizing table with
  | nil => exact (List.append_nil _).symm
  | cons row rows ih =>
      have hinsert : (table.insert row.1 row.2).rows = table.rows ++ [row] :=
        writeRow_of_nodup distinct
      have happend : table.rows ++ row :: rows = (table.insert row.1 row.2).rows ++ rows := by
        rw [hinsert, List.append_assoc, List.singleton_append]
      rw [happend] at distinct ⊢
      exact ih distinct

/-- A table that is written again, row by row, is the same. -/
theorem ofList_rows (table : Table Key Item) : ofList table.rows = table :=
  have hrows : (ofList table.rows).rows = empty.rows ++ table.rows :=
    rows_foldl_insert table.keys_nodup
  ext hrows

omit [DecidableEq Key] in
theorem rows_nodup (table : Table Key Item) : table.rows.Nodup :=
  List.Pairwise.of_map Prod.fst (fun _ _ apart same => apart (congrArg Prod.fst same))
    table.keys_nodup

/-- The rows of a table are those of any other table with the same contents. -/
theorem perm_rows {first second : Table Key Item}
    (same : ∀ key, first.get? key = second.get? key) : first.rows.Perm second.rows := by
  rw [List.perm_ext_iff_of_nodup first.rows_nodup second.rows_nodup]
  intro row
  rw [← get?_eq_some_iff, ← get?_eq_some_iff, same]

/-- Tables with the same rows have the same contents. -/
theorem get?_of_perm {first second : Table Key Item} (same : first.rows.Perm second.rows)
    (key : Key) : first.get? key = second.get? key := by
  refine Option.ext fun item => ?_
  rw [get?_eq_some_iff, get?_eq_some_iff]
  exact same.mem_iff

theorem get?_congr {first second : Table Key Item} {key : Key}
    (keys : key ∈ first.keys ↔ key ∈ second.keys)
    (same : ∀ item other, first.get? key = some item → second.get? key = some other →
      item = other) : first.get? key = second.get? key := by
  cases hfirst : first.get? key with
  | none =>
      have habsent := get?_eq_none_iff.mp hfirst
      rw [keys] at habsent
      rw [get?_eq_none_iff.mpr habsent]
  | some item =>
      obtain ⟨other, hsecond⟩ := mem_keys_iff.mp (keys.mp (mem_keys_iff.mpr ⟨item, hfirst⟩))
      rw [hsecond, same item other hfirst hsecond]

omit [DecidableEq Key] in
theorem pairwise_sortByKey [LE Key] [DecidableLE Key] [Std.IsLinearOrder Key]
    (table : Table Key Item) :
    table.sortByKey.rows.Pairwise fun row other => row.1 ≤ other.1 := by
  have sorted : table.sortByKey.rows.Pairwise fun row other =>
      decide (row.1 ≤ other.1) = true := by
    apply List.pairwise_mergeSort
    · intro row other third
      simpa using Std.le_trans
    · intro row other
      simpa using Std.le_total
  exact sorted.imp of_decide_eq_true

omit [DecidableEq Key] in
theorem ascending_keys_sortByKey [LT Key] [LE Key] [DecidableLE Key] [Std.IsLinearOrder Key]
    [Std.LawfulOrderLT Key] (table : Table Key Item) :
    table.sortByKey.keys.Pairwise (· < ·) := by
  have sorted : table.sortByKey.keys.Pairwise (· ≤ ·) :=
    List.pairwise_map.mpr table.pairwise_sortByKey
  refine (sorted.and table.sortByKey.keys_nodup).imp fun {first second} h => ?_
  rw [Std.lt_iff_le_and_not_ge]
  exact ⟨h.1, fun above => h.2 (Std.le_antisymm h.1 above)⟩

/-- Sorted by their keys, tables with the same contents are equal. -/
theorem sortByKey_eq [LE Key] [DecidableLE Key] [Std.IsLinearOrder Key]
    {first second : Table Key Item} (same : ∀ key, first.get? key = second.get? key) :
    first.sortByKey = second.sortByKey := by
  have permuted : first.sortByKey.rows.Perm second.sortByKey.rows :=
    perm_rows fun key => by rw [get?_sortByKey, get?_sortByKey, same]
  have equal : first.sortByKey.rows = second.sortByKey.rows := by
    refine permuted.eq_of_pairwise (fun row other here there below above => ?_)
      (pairwise_sortByKey first) (pairwise_sortByKey second)
    have key : row.1 = other.1 := Std.le_antisymm below above
    have found := get?_eq_some_iff.mpr (permuted.mem_iff.mp here)
    rw [key, get?_eq_some_iff.mpr there] at found
    exact Prod.ext key (Option.some.inj found).symm
  exact ext equal

end StackPolicy.Table
