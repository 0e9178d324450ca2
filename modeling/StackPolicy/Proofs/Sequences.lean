import StackPolicy.Table.Lemmas

/-!
# Sequences of steps that may fail

What a sequence of steps leaves when none of them fails, and which failure it
ends with otherwise.
-/

namespace StackPolicy

variable {Error Item Other State : Type}

theorem bind_of_ok {first : Except Error Item} {item : Item} (h : first = .ok item)
    (next : Item → Except Error Other) : (first >>= next) = next item := by
  rw [h]
  rfl

theorem bind_of_error {first : Except Error Item} {failure : Error}
    (h : first = .error failure) (next : Item → Except Error Other) :
    (first >>= next) = .error failure := by
  rw [h]
  rfl

theorem bind_eq_ok_iff {first : Except Error Item} {next : Item → Except Error Other}
    {result : Other} :
    (first >>= next) = .ok result ↔ ∃ item, first = .ok item ∧ next item = .ok result := by
  cases first with
  | error failure =>
      constructor
      · intro h
        cases h
      · rintro ⟨_, h, _⟩
        cases h
  | ok item =>
      constructor
      · intro h
        exact ⟨item, rfl, h⟩
      · rintro ⟨_, h, hnext⟩
        cases h
        exact hnext

/-- Steps that succeed under an invariant, which they keep, amount to a plain fold. -/
theorem foldlM_eq_ok {step : State → Item → Except Error State} {next : State → Item → State}
    (Invariant : State → Prop) {items : List Item} {state : State} (start : Invariant state)
    (keeps : ∀ state, Invariant state → ∀ item ∈ items,
      step state item = .ok (next state item) ∧ Invariant (next state item)) :
    items.foldlM step state = .ok (items.foldl next state) ∧
      Invariant (items.foldl next state) := by
  induction items generalizing state with
  | nil => exact ⟨rfl, start⟩
  | cons item items ih =>
      obtain ⟨hstep, hkept⟩ := keeps state start item List.mem_cons_self
      have hrest := ih hkept fun state h item member =>
        keeps state h item (List.mem_cons_of_mem _ member)
      rw [List.foldlM_cons, hstep]
      exact hrest

/-- Steps that all succeed amount to a plain fold. -/
theorem foldl_eq_of_foldlM {step : State → Item → Except Error State} {next : State → Item → State}
    (agrees : ∀ state item later, step state item = .ok later → next state item = later)
    {items : List Item} {state last : State} (done : items.foldlM step state = .ok last) :
    items.foldl next state = last := by
  induction items generalizing state with
  | nil => exact Except.ok.inj done
  | cons item items ih =>
      rw [List.foldlM_cons] at done
      obtain ⟨later, hstep, hrest⟩ := bind_eq_ok_iff.mp done
      rw [List.foldl_cons, agrees state item later hstep]
      exact ih hrest

/-- What holds of no items, and of one more item with every step, holds of all items. -/
theorem foldl_of_concat {step : State → Item → State} (Holds : List Item → State → Prop)
    {items : List Item} (keeps : ∀ read state, ∀ item ∈ items, Holds read state →
      Holds (read ++ [item]) (step state item))
    {read : List Item} {state : State} (start : Holds read state) :
    Holds (read ++ items) (items.foldl step state) := by
  induction items generalizing read state with
  | nil => rwa [List.append_nil]
  | cons item items ih =>
      have hrest := ih (fun read state other member =>
        keeps read state other (List.mem_cons_of_mem _ member))
        (keeps read state item List.mem_cons_self start)
      rwa [List.append_assoc] at hrest

/-- What every step keeps, all steps keep. -/
theorem foldl_keeps {step : State → Item → State} (read : State → Other)
    (keeps : ∀ state item, read (step state item) = read state) (items : List Item)
    (state : State) : read (items.foldl step state) = read state := by
  induction items generalizing state with
  | nil => rfl
  | cons item items ih => rw [List.foldl_cons, ih, keeps]

theorem mapM_eq_ok {change : Item → Except Error Other} {result : Item → Other}
    {items : List Item} (succeeds : ∀ item ∈ items, change item = .ok (result item)) :
    items.mapM change = .ok (items.map result) := by
  induction items with
  | nil => rfl
  | cons item items ih =>
      have hrest := ih fun other member => succeeds other (List.mem_cons_of_mem _ member)
      rw [List.mapM_cons, succeeds item List.mem_cons_self, hrest]
      rfl

theorem exists_mapM_eq_ok {change : Item → Except Error Other} {items : List Item}
    (succeeds : ∀ item ∈ items, ∃ result, change item = .ok result) :
    ∃ results, items.mapM change = .ok results ∧
      ∀ result, result ∈ results ↔ ∃ item ∈ items, change item = .ok result := by
  induction items with
  | nil => exact ⟨[], rfl, by simp⟩
  | cons item items ih =>
      obtain ⟨first, hfirst⟩ := succeeds item List.mem_cons_self
      obtain ⟨others, hothers, hmem⟩ := ih fun other member =>
        succeeds other (List.mem_cons_of_mem _ member)
      refine ⟨first :: others, ?_, fun result => ?_⟩
      · rw [List.mapM_cons, hfirst, hothers]
        rfl
      · simp only [List.mem_cons, hmem, exists_eq_or_imp, hfirst, Except.ok.injEq,
          eq_comm (a := first)]

/-- A list of changes fails as its first failing change does. -/
theorem mapM_eq_error {change : Item → Except Error Other} {fails : Item → Bool}
    {failure : Error} {items : List Item} {first : Item}
    (found : items.find? fails = some first) (failed : change first = .error failure)
    (succeeds : ∀ item ∈ items, fails item = false → ∃ result, change item = .ok result) :
    items.mapM change = .error failure := by
  induction items with
  | nil => cases found
  | cons item items ih =>
      rw [List.mapM_cons]
      cases hitem : fails item with
      | true =>
          rw [List.find?_cons, hitem] at found
          cases found
          rw [failed]
          rfl
      | false =>
          rw [List.find?_cons, hitem] at found
          obtain ⟨result, hresult⟩ := succeeds item List.mem_cons_self hitem
          have hrest := ih found fun other member =>
            succeeds other (List.mem_cons_of_mem _ member)
          rw [hresult, hrest]
          rfl

/-! ## First places -/

theorem eraseDups_concat (names : List String) (name : String) :
    (names ++ [name]).eraseDups =
      if name ∈ names then names.eraseDups else names.eraseDups ++ [name] := by
  rw [List.eraseDups_append]
  by_cases present : name ∈ names
  · simp [List.removeAll, present]
  · simp [List.removeAll, present, List.eraseDups_cons]

/-- Keys that stand at their first places in a list still do so after one more write. -/
theorem Table.keys_insert_eraseDups {table : Table String Item} {names : List String}
    (h : table.keys = names.eraseDups) (name : String) (item : Item) :
    (table.insert name item).keys = (names ++ [name]).eraseDups := by
  rw [Table.keys_insert, eraseDups_concat, h]
  simp only [List.mem_eraseDups]

namespace Table

variable {Key : Type} {table : Table Key Item} {change : Key → Item → Except Error Other}

theorem mapRowsM_eq_ok {result : Key → Item → Other}
    (succeeds : ∀ row ∈ table.rows, change row.1 row.2 = .ok (result row.1 row.2)) :
    table.mapRowsM change = .ok (table.mapRows result) := by
  have hrows : table.rows.mapM (fun row => (change row.1 row.2).map (row.1, ·)) =
      .ok (table.rows.map fun row => (row.1, result row.1 row.2)) := by
    apply mapM_eq_ok
    intro row member
    rw [succeeds row member]
    rfl
  unfold mapRowsM
  split
  · rename_i done
    rw [hrows] at done
    cases done
    rfl
  · rename_i done
    rw [hrows] at done
    cases done

theorem exists_mapRowsM_eq_ok
    (succeeds : ∀ row ∈ table.rows, ∃ result, change row.1 row.2 = .ok result) :
    ∃ changed, table.mapRowsM change = .ok changed := by
  have hchange : ∀ row ∈ table.rows,
      ∃ changed, (change row.1 row.2).map (row.1, ·) = .ok changed := by
    intro row member
    obtain ⟨result, hresult⟩ := succeeds row member
    exact ⟨(row.1, result), by rw [hresult]; rfl⟩
  obtain ⟨rows, hrows, -⟩ := exists_mapM_eq_ok hchange
  unfold mapRowsM
  split
  · exact ⟨_, rfl⟩
  · rename_i done
    rw [hrows] at done
    cases done

theorem mapRowsM_eq_error {change : Item → Except Error Other} {fails : Item → Bool}
    {failure : Error} {first : Item} (found : table.values.find? fails = some first)
    (failed : change first = .error failure)
    (succeeds : ∀ item ∈ table.values, fails item = false →
      ∃ result, change item = .ok result) :
    (table.mapRowsM fun _ => change) = .error failure := by
  unfold values at found
  rw [List.find?_map] at found
  obtain ⟨row, hrow, rfl⟩ := Option.map_eq_some_iff.mp found
  have hrows : table.rows.mapM (fun row => (change row.2).map (row.1, ·)) = .error failure := by
    apply mapM_eq_error hrow
    · rw [failed]
      rfl
    · intro other member hother
      obtain ⟨result, hresult⟩ := succeeds other.2 (List.mem_map_of_mem member) hother
      exact ⟨(other.1, result), by rw [hresult]; rfl⟩
  unfold mapRowsM
  split
  · rename_i done
    rw [hrows] at done
    cases done
  · rename_i done
    rw [hrows] at done
    cases done
    rfl

end Table

end StackPolicy
