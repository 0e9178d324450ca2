/-!
# Tables

A table maps distinct keys to values and remembers the order in which the keys
were first written.  Writing to a key that is present changes its value in
place; writing to an absent key appends a row.
-/

namespace StackPolicy

/-- A finite map whose rows stand in the order in which their keys were added. -/
structure Table (Key Item : Type) where
  rows : List (Key × Item)
  keys_nodup : (rows.map Prod.fst).Nodup
  deriving DecidableEq, Repr

namespace Table

variable {Key Item Other : Type}

def empty : Table Key Item := ⟨[], List.nodup_nil⟩

instance : EmptyCollection (Table Key Item) := ⟨empty⟩

instance : Inhabited (Table Key Item) := ⟨empty⟩

def keys (table : Table Key Item) : List Key := table.rows.map Prod.fst

def values (table : Table Key Item) : List Item := table.rows.map Prod.snd

def size (table : Table Key Item) : Nat := table.rows.length

/-! ## Rows -/

/-- Replaces the value of `key` where it stands, or appends a row for it. -/
def writeRow [DecidableEq Key] (key : Key) (item : Item) :
    List (Key × Item) → List (Key × Item)
  | [] => [(key, item)]
  | row :: rows =>
      if row.1 = key then (key, item) :: rows else row :: writeRow key item rows

theorem mem_keys_writeRow [DecidableEq Key] (key other : Key) (item : Item)
    (rows : List (Key × Item)) :
    other ∈ (writeRow key item rows).map Prod.fst ↔
      other = key ∨ other ∈ rows.map Prod.fst := by
  induction rows with
  | nil => simp [writeRow]
  | cons row rows ih =>
      by_cases same : row.1 = key
      · simp [writeRow, same]
      · simp only [writeRow, same, if_false, List.map_cons, List.mem_cons, ih]
        grind

theorem nodup_writeRow [DecidableEq Key] (key : Key) (item : Item)
    (rows : List (Key × Item)) (distinct : (rows.map Prod.fst).Nodup) :
    ((writeRow key item rows).map Prod.fst).Nodup := by
  induction rows with
  | nil => simp [writeRow]
  | cons row rows ih =>
      rw [List.map_cons, List.nodup_cons] at distinct
      by_cases same : row.1 = key
      · rw [writeRow, if_pos same, List.map_cons, List.nodup_cons]
        exact ⟨same ▸ distinct.1, distinct.2⟩
      · rw [writeRow, if_neg same, List.map_cons, List.nodup_cons]
        refine ⟨fun member => ?_, ih distinct.2⟩
        rcases (mem_keys_writeRow key row.1 item rows).mp member with found | found
        · exact same found
        · exact distinct.1 found

/-! ## Reading and writing -/

def get? [DecidableEq Key] (table : Table Key Item) (key : Key) : Option Item :=
  (table.rows.find? fun row => row.1 = key).map Prod.snd

def contains [DecidableEq Key] (table : Table Key Item) (key : Key) : Bool :=
  table.rows.any fun row => row.1 = key

def insert [DecidableEq Key] (table : Table Key Item) (key : Key) (item : Item) :
    Table Key Item :=
  ⟨writeRow key item table.rows, nodup_writeRow key item table.rows table.keys_nodup⟩

def insertIfNew [DecidableEq Key] (table : Table Key Item) (key : Key) (item : Item) :
    Table Key Item :=
  if table.contains key then table else table.insert key item

/-- Reads a list of writes from left to right, so the last value of a key wins. -/
def ofList [DecidableEq Key] (rows : List (Key × Item)) : Table Key Item :=
  rows.foldl (fun table row => table.insert row.1 row.2) empty

/-! ## Whole-table operations -/

def mapRows (table : Table Key Item) (change : Key → Item → Other) : Table Key Other :=
  ⟨table.rows.map fun row => (row.1, change row.1 row.2), by
    simpa [Function.comp_def] using table.keys_nodup⟩

def mapValues (table : Table Key Item) (change : Item → Other) : Table Key Other :=
  table.mapRows fun _ item => change item

theorem keys_of_mapM_rows {Error : Type} {change : Key → Item → Except Error Other}
    {rows : List (Key × Item)} {changed : List (Key × Other)}
    (done : rows.mapM (fun row => (change row.1 row.2).map (row.1, ·)) = .ok changed) :
    changed.map Prod.fst = rows.map Prod.fst := by
  induction rows generalizing changed with
  | nil =>
      cases done
      rfl
  | cons row rows ih =>
      rw [List.mapM_cons] at done
      cases first : change row.1 row.2 with
      | error failure =>
          rw [first] at done
          cases done
      | ok item =>
          cases later : rows.mapM (fun row => (change row.1 row.2).map (row.1, ·)) with
          | error failure =>
              rw [first, later] at done
              cases done
          | ok others =>
              rw [first, later] at done
              cases done
              rw [List.map_cons, List.map_cons, ih later]

/-- Changes the rows from the first to the last, as long as no change fails. -/
def mapRowsM {Error : Type} (table : Table Key Item)
    (change : Key → Item → Except Error Other) : Except Error (Table Key Other) :=
  match done : table.rows.mapM fun row => (change row.1 row.2).map (row.1, ·) with
  | .ok rows => .ok ⟨rows, keys_of_mapM_rows done ▸ table.keys_nodup⟩
  | .error failure => .error failure

def filter (table : Table Key Item) (keep : Key → Item → Bool) : Table Key Item :=
  ⟨table.rows.filter fun row => keep row.1 row.2,
    (List.filter_sublist.map Prod.fst).nodup table.keys_nodup⟩

def sortByKey [LE Key] [DecidableLE Key] (table : Table Key Item) : Table Key Item :=
  ⟨table.rows.mergeSort fun left right => left.1 ≤ right.1,
    ((List.mergeSort_perm table.rows _).map Prod.fst).nodup_iff.mpr table.keys_nodup⟩

end Table

end StackPolicy
