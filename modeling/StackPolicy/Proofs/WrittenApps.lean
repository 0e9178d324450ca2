import StackPolicy.App.Reader
import StackPolicy.App.Writer
import StackPolicy.Proofs.WrittenJson

/-!
# Applications survive their own writing

The value of an application is read as that application, and so is its JSON
text.  What lenient readings have made of a value is therefore read again
without another change.
-/

namespace StackPolicy

open Checked Reading

/-! ## Readings of written parts -/

namespace Reading

variable {Item : Type}

theorem atLeast_int {bound number : Int} (fits : bound ≤ number) :
    atLeast bound (.int number) = valid ⟨number, fits⟩ := by
  simp [atLeast, integer, fits]

theorem optional_text (content : Option String) :
    optional text (Value.ofOption .text content) = valid content := by
  cases content <;> rfl

section Written

variable {reading : Reading Item} {write : Item → Value}

theorem all_items_map {contents : List Item}
    (reads : ∀ item ∈ contents, reading (write item) = valid item) (start : Nat) :
    all (items reading start (contents.map write)) = valid contents := by
  induction contents generalizing start with
  | nil => rfl
  | cons item contents ih =>
      have hrest := ih (fun other member => reads other (List.mem_cons_of_mem _ member)) (start + 1)
      rw [List.map_cons, items, all, reads item List.mem_cons_self, hrest]
      rfl

theorem tuple_map {contents : List Item}
    (reads : ∀ item ∈ contents, reading (write item) = valid item) :
    tuple reading (.list (contents.map write)) = valid contents :=
  all_items_map reads 0

theorem all_rows_map {rows : List (String × Item)}
    (reads : ∀ row ∈ rows, reading (write row.2) = valid row.2) :
    all ((rows.map fun row => (row.1, write row.2)).map (row valid reading)) = valid rows := by
  induction rows with
  | nil => rfl
  | cons first rows ih =>
      have hrest := ih fun other member => reads other (List.mem_cons_of_mem _ member)
      rw [List.map_cons, List.map_cons, all, hrest, row, reads first List.mem_cons_self]
      rfl

theorem named_ofTable {table : Table String Item}
    (reads : ∀ item, reading (write item) = valid item) :
    named reading (Value.ofTable write table) = valid table := by
  have hrows : all ((table.rows.map fun row => (row.1, write row.2)).map (row valid reading)) =
      valid table.rows := all_rows_map fun row _ => reads row.2
  change Table.ofList <$> all ((table.rows.map fun row => (row.1, write row.2)).map
    (row valid reading)) = valid table
  rw [hrows, map_valid, Table.ofList_rows]

end Written

theorem tuple_text (contents : List String) :
    tuple text (Value.ofTexts contents) = valid contents :=
  tuple_map fun _ _ => rfl

end Reading

/-! ## Records -/

namespace Reading

variable {Result : Type} {members : List (String × Value)} {value : Value}
  {reading : Reading Result} {result : Result} (name : String)

theorem required_eq_valid (found : Value.member? members name = some value)
    (reads : reading value = valid result) : required members name reading = valid result := by
  unfold required
  rw [found]
  simp only [reads, under_valid]

theorem defaulted_eq_valid (found : Value.member? members name = some value)
    (reads : reading value = valid result) (default : Result) :
    defaulted members name default reading = valid result := by
  unfold defaulted
  rw [found]
  simp only [reads, under_valid]

theorem closedModel_eq_valid {known : List String}
    {fields : List (String × Value) → Checked Result} (read : fields members = valid result)
    (all : ∀ member ∈ members, member.1 ∈ known) :
    closedModel name known fields (.record members) = valid result := by
  have hnone : unknownMembers known members = [] := by
    unfold unknownMembers
    rw [List.filter_eq_nil_iff.mpr (by simpa using all), List.map_nil]
  simp only [closedModel, model, read, hnone, adding_nil]

end Reading

theorem AccessMode.reading_toValue (mode : AccessMode) :
    AccessMode.reading mode.toValue = valid mode := by
  cases mode <;> rfl

theorem Reading.text_text (content : String) : text (.text content) = valid content := rfl

theorem Resource.reading_toValue (resource : Resource) :
    Resource.reading resource.toValue = valid resource := by
  refine closedModel_eq_valid _ ?_ (by simp)
  rw [required_eq_valid "ty" rfl (text_text resource.ty),
    defaulted_eq_valid "init" rfl (optional_text resource.initial)]
  rfl

/-! ## Routines and tasks -/

theorem Routine.ofMembers_members (routine : Routine) (more : List (String × Value)) :
    Routine.ofMembers (routine.members ++ more) = valid routine := by
  unfold Routine.ofMembers
  rw [defaulted_eq_valid "core" rfl (atLeast_int routine.core_nonneg),
    defaulted_eq_valid "resources" rfl (named_ofTable AccessMode.reading_toValue),
    defaulted_eq_valid "spawn" rfl (tuple_text routine.spawn),
    defaulted_eq_valid "schedule" rfl (tuple_text routine.schedule)]
  rfl

theorem InitRoutine.reading_toValue (init : InitRoutine) :
    InitRoutine.reading init.toValue = valid init := by
  refine closedModel_eq_valid _ ?_ (by simp [Routine.fields, Routine.members])
  rw [Routine.ofMembers_members, defaulted_eq_valid "late" rfl (tuple_text init.late)]
  rfl

theorem IdleRoutine.reading_toValue (idle : IdleRoutine) :
    IdleRoutine.reading idle.toValue = valid idle := by
  have hroutine := Routine.ofMembers_members idle.toRoutine []
  rw [List.append_nil] at hroutine
  refine closedModel_eq_valid _ ?_ (by simp [Routine.fields, Routine.members])
  rw [hroutine]
  rfl

theorem HardwareTask.reading_toValue (task : HardwareTask) :
    HardwareTask.reading task.toValue = valid task := by
  refine closedModel_eq_valid _ ?_ (by simp [Routine.fields, Routine.members])
  rw [Routine.ofMembers_members, required_eq_valid "binds" rfl (text_text task.binds),
    defaulted_eq_valid "priority" rfl (atLeast_int task.priority_pos)]
  rfl

theorem SoftwareTask.reading_toValue (task : SoftwareTask) :
    SoftwareTask.reading task.toValue = valid task := by
  refine closedModel_eq_valid _ ?_ (by simp [Routine.fields, Routine.members])
  rw [Routine.ofMembers_members,
    defaulted_eq_valid "priority" rfl (atLeast_int task.priority_pos),
    defaulted_eq_valid "capacity" rfl (atLeast_int task.capacity_pos),
    defaulted_eq_valid "inputs" rfl (tuple_text task.inputs)]
  rfl

/-! ## Plain records -/

namespace Value

variable {Item : Type} {write : Item → Value}

theorem plain_map {contents : List Item} (plain : ∀ item, Plain (write item)) :
    Plain (list (contents.map write)) := by
  refine .list fun value member => ?_
  obtain ⟨item, -, rfl⟩ := List.mem_map.mp member
  exact plain item

theorem plain_ofTexts (contents : List String) : Plain (ofTexts contents) := plain_map .text

theorem plain_ofOption (content : Option String) : Plain (ofOption text content) := by
  cases content with
  | none => exact .null
  | some content => exact .text content

theorem plain_ofTable (table : Table String Item) (plain : ∀ item, Plain (write item)) :
    Plain (ofTable write table) := by
  refine .record ?_ fun member found => ?_
  · rw [List.map_map]
    exact table.keys_nodup
  · obtain ⟨row, -, rfl⟩ := List.mem_map.mp found
    exact plain row.2

end Value

open Value

theorem AccessMode.plain_toValue (mode : AccessMode) : Plain mode.toValue := .text mode.label

theorem Resource.plain_toValue (resource : Resource) : Plain resource.toValue := by
  refine .record (by simp) ?_
  simp [Plain.text, plain_ofOption]

theorem Routine.plain_members (routine : Routine) : ∀ member ∈ routine.members, Plain member.2 := by
  simp [Routine.members, Plain.int, plain_ofTexts, plain_ofTable, AccessMode.plain_toValue]

theorem InitRoutine.plain_toValue (init : InitRoutine) : Plain init.toValue := by
  refine .record (by simp [Routine.members]) ?_
  rw [List.forall_mem_append]
  exact ⟨init.toRoutine.plain_members, by simp [plain_ofTexts]⟩

theorem IdleRoutine.plain_toValue (idle : IdleRoutine) : Plain idle.toValue :=
  .record (by simp [Routine.members]) idle.toRoutine.plain_members

theorem HardwareTask.plain_toValue (task : HardwareTask) : Plain task.toValue := by
  refine .record (by simp [Routine.members]) ?_
  rw [List.forall_mem_append]
  exact ⟨task.toRoutine.plain_members, by simp [Plain.text, Plain.int]⟩

theorem SoftwareTask.plain_toValue (task : SoftwareTask) : Plain task.toValue := by
  refine .record (by simp [Routine.members]) ?_
  rw [List.forall_mem_append]
  exact ⟨task.toRoutine.plain_members, by simp [Plain.int, plain_ofTexts]⟩

/-! ## Applications -/

namespace App

theorem reading_toValue (app : App) : App.reading app.toValue = valid app := by
  refine closedModel_eq_valid _ ?_ (by simp [App.fields])
  rw [defaulted_eq_valid "cores" rfl (atLeast_int app.cores_pos),
    defaulted_eq_valid "inits" rfl (tuple_map fun init _ => init.reading_toValue),
    defaulted_eq_valid "idles" rfl (tuple_map fun idle _ => idle.reading_toValue),
    defaulted_eq_valid "resources" rfl (named_ofTable Resource.reading_toValue),
    defaulted_eq_valid "hardware_tasks" rfl (named_ofTable HardwareTask.reading_toValue),
    defaulted_eq_valid "software_tasks" rfl (named_ofTable SoftwareTask.reading_toValue)]
  rfl

theorem ofValue_toValue (app : App) : ofValue app.toValue = .ok app := by
  unfold ofValue
  rw [reading_toValue]
  rfl

theorem plain_toValue (app : App) : Plain app.toValue := by
  refine .record (by simp) ?_
  simp [Plain.int, plain_map, plain_ofTable, InitRoutine.plain_toValue, IdleRoutine.plain_toValue,
    Resource.plain_toValue, HardwareTask.plain_toValue, SoftwareTask.plain_toValue]

/-- The dump of the application that a value is read as. -/
def validated (value : Value) : Except Rejection Value := (ofValue value).map toValue

/-- An application is read back from its value and from its JSON text, which tells the same
value.  Hence what has been validated once is not changed by being validated again. -/
theorem read_of_written :
    (∀ app : App, ofValue app.toValue = .ok app ∧ Value.ofJson? app.toJson = some app.toValue) ∧
      ∀ value, (validated value).bind validated = validated value := by
  refine ⟨fun app => ⟨app.ofValue_toValue, ofJson?_toJson app.plain_toValue⟩, fun value => ?_⟩
  unfold validated
  cases ofValue value with
  | error rejection => rfl
  | ok app =>
      change (ofValue app.toValue).map toValue = _
      rw [ofValue_toValue]

/-- A text and a truth value count as numbers, which are written in their place. -/
example : validated (.record [("cores", .text " +2.0"),
      ("inits", .list [.record [("core", .bool true)]])]) =
    .ok (toValue ⟨2, by decide, [⟨⟨1, by decide, ∅, [], []⟩, []⟩], [], ∅, ∅, ∅⟩) := by
  rfl

end App

end StackPolicy
