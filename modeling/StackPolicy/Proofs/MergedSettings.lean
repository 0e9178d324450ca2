import StackPolicy.Settings
import StackPolicy.Table.Lemmas

/-!
# Overrides, values and defaults

A setting takes its override, or else the value that a project file gives, or
else its default.  Overrides that are null count as absent.  A name that is no
setting is rejected, whichever side it comes from.
-/

namespace StackPolicy

/-! ## Checked results -/

namespace Checked

variable {Result Other : Type}

theorem map_eq_valid_iff {change : Result → Other} {checked : Checked Result} {other : Other} :
    change <$> checked = valid other ↔
      ∃ result, checked = valid result ∧ change result = other := by
  cases checked with
  | valid result => simp
  | faulty issues => exact ⟨nofun, nofun⟩

theorem seq_eq_valid_iff {change : Checked (Result → Other)} {checked : Checked Result}
    {other : Other} :
    change <*> checked = valid other ↔
      ∃ made result, change = valid made ∧ checked = valid result ∧ made result = other := by
  cases change with
  | valid made =>
      cases checked with
      | valid result => simp
      | faulty issues => exact ⟨nofun, nofun⟩
  | faulty issues => cases checked <;> exact ⟨nofun, nofun⟩

theorem under_eq_valid_iff {step : Step} {checked : Checked Result} {result : Result} :
    under step checked = valid result ↔ checked = valid result := by
  cases checked with
  | valid other => rfl
  | faulty issues => exact ⟨nofun, nofun⟩

theorem adding_eq_valid_iff {checked : Checked Result} {more : List Issue} {result : Result} :
    adding checked more = valid result ↔ checked = valid result ∧ more = [] := by
  cases checked with
  | valid other => cases more <;> simp [adding]
  | faulty issues => exact ⟨nofun, nofun⟩

theorem mem_issues_adding (checked : Checked Result) {more : List Issue} {issue : Issue}
    (added : issue ∈ more) : ∃ issues, adding checked more = faulty issues ∧ issue ∈ issues := by
  cases more with
  | nil => cases added
  | cons first rest =>
      exact ⟨checked.issues ++ first :: rest, by cases checked <;> rfl,
        List.mem_append_right _ added⟩

theorem orReject_eq_ok_iff {title : String} {checked : Checked Result} {result : Result} :
    orReject title checked = .ok result ↔ checked = valid result := by
  cases checked <;> simp [orReject]

end Checked

namespace Settings

open Checked Reading

/-! ## Fields -/

/-- Whether every setting is what its value is read as, or its default if it has no value. -/
structure Resolves (values : String → Option Value) (settings : Settings) : Prop where
  optimizePriorities :
    truth ((values "optimize_priorities").getD (.bool default.optimizePriorities)) =
      valid settings.optimizePriorities
  checkGuarantees :
    truth ((values "check_preconditions").getD (.bool default.checkGuarantees)) =
      valid settings.checkGuarantees
  trace : truth ((values "trace").getD (.bool default.trace)) = valid settings.trace

theorem defaulted_truth_eq_valid_iff {members : Toml.Members} {name : String}
    {preset result : Bool} :
    defaulted members name preset truth = valid result ↔
      truth ((Value.member? members name).getD (.bool preset)) = valid result := by
  unfold defaulted
  cases Value.member? members name with
  | none => rfl
  | some value => exact under_eq_valid_iff

theorem unknownMembers_eq_nil_iff {members : Toml.Members} :
    unknownMembers fields members = [] ↔ ∀ member ∈ members, member.1 ∈ fields := by
  unfold unknownMembers
  rw [List.map_eq_nil_iff, List.filter_eq_nil_iff]
  simp

/-- The settings that the members of a record are read as. -/
def readFields (members : Toml.Members) : Checked Settings :=
  Settings.mk <$> defaulted members "optimize_priorities" false truth
    <*> defaulted members "check_preconditions" true truth
    <*> defaulted members "trace" false truth

theorem readFields_eq_valid_iff {members : Toml.Members} {settings : Settings} :
    readFields members = valid settings ↔ Resolves (Value.member? members) settings := by
  unfold readFields
  simp only [seq_eq_valid_iff, map_eq_valid_iff, defaulted_truth_eq_valid_iff]
  constructor
  · rintro ⟨_, trace, ⟨_, check, ⟨optimize, hoptimize, rfl⟩, hcheck, rfl⟩, htrace, rfl⟩
    exact ⟨hoptimize, hcheck, htrace⟩
  · rintro ⟨hoptimize, hcheck, htrace⟩
    exact ⟨_, _, ⟨_, _, ⟨_, hoptimize, rfl⟩, hcheck, rfl⟩, htrace, rfl⟩

theorem ofValue_record (members : Toml.Members) :
    ofValue (.record members) =
      ((readFields members).adding (unknownMembers fields members)).orReject "AnalyzerConfig" :=
  rfl

theorem ofValue_eq_ok_iff {members : Toml.Members} {settings : Settings} :
    ofValue (.record members) = .ok settings ↔
      (∀ member ∈ members, member.1 ∈ fields) ∧ Resolves (Value.member? members) settings := by
  rw [ofValue_record, orReject_eq_ok_iff, adding_eq_valid_iff, readFields_eq_valid_iff,
    unknownMembers_eq_nil_iff, and_comm]

theorem ofValue_of_unknown {members : Toml.Members} {name : String} {value : Value}
    (member : (name, value) ∈ members) (unknown : name ∉ fields) :
    ∃ rejection, ofValue (.record members) = .error rejection ∧
      ⟨[.member name], .unknownMember⟩ ∈ rejection.issues := by
  have hissue : (⟨[.member name], .unknownMember⟩ : Issue) ∈ unknownMembers fields members :=
    List.mem_map.mpr ⟨(name, value), List.mem_filter.mpr ⟨member, by simpa using unknown⟩, rfl⟩
  obtain ⟨issues, hissues, hmem⟩ := mem_issues_adding (readFields members) hissue
  exact ⟨⟨"AnalyzerConfig", issues⟩, by rw [ofValue_record, hissues]; rfl, hmem⟩

/-! ## Overrides -/

/-- The overrides that have a value. -/
def given (overrides : Table String Value) : Table String Value :=
  overrides.filter fun _ value => !value matches .null

/-- The value that a name takes from the overrides, or else from the file. -/
def chosen? (values overrides : Table String Value) (name : String) : Option Value :=
  ((given overrides).get? name).or (values.get? name)

/-- The values of a file and the overrides in one table. -/
def merge (values overrides : Table String Value) : Table String Value :=
  .ofList (values.rows ++ (given overrides).rows)

theorem get?_merge (values overrides : Table String Value) (name : String) :
    (merge values overrides).get? name = chosen? values overrides name :=
  Table.get?_ofList_append values (given overrides) name

theorem rows_foldl_insert (rows : List (String × Value)) (values : Table String Value) :
    (rows.foldl (fun table row => table.insert row.1 row.2) values).rows =
      rows.foldl (fun members row => Table.writeRow row.1 row.2 members) values.rows := by
  induction rows generalizing values with
  | nil => rfl
  | cons row rows ih => exact ih (values.insert row.1 row.2)

theorem merge_eq_foldl (values overrides : Table String Value) :
    merge values overrides =
      (given overrides).rows.foldl (fun table row => table.insert row.1 row.2) values := by
  unfold merge Table.ofList
  rw [List.foldl_append]
  exact congrArg (fun table => (given overrides).rows.foldl _ table) (Table.ofList_rows values)

theorem rows_merge (values overrides : Table String Value) :
    (merge values overrides).rows = override values.rows overrides.rows := by
  rw [merge_eq_foldl, rows_foldl_insert]
  rfl

/-- Values keep the places that their names have in the file; new names come after them. -/
theorem keys_merge (values overrides : Table String Value) :
    (merge values overrides).keys =
      values.keys ++ (given overrides).keys.filter (· ∉ values.keys) := by
  have hdistinct := (given overrides).keys_nodup
  rw [merge_eq_foldl, Table.keys]
  change _ = values.keys ++ ((given overrides).rows.map Prod.fst).filter (· ∉ values.keys)
  generalize (given overrides).rows = rows at hdistinct
  -- a name that is written once is not written again, so it may join the names of the file
  induction rows generalizing values with
  | nil => simp [Table.keys]
  | cons row rows ih =>
      rw [List.map_cons, List.nodup_cons] at hdistinct
      rw [List.foldl_cons, ih _ hdistinct.2, Table.keys_insert, List.map_cons, List.filter_cons]
      by_cases present : row.1 ∈ values.keys
      · simp [present]
      · have hothers : (rows.map Prod.fst).filter (· ∉ values.keys ++ [row.1]) =
            (rows.map Prod.fst).filter (· ∉ values.keys) := by
          apply List.filter_congr
          intro name hname
          have hne : name ≠ row.1 := fun hsame => hdistinct.1 (hsame ▸ hname)
          simp [hne]
        rw [if_neg present, hothers]
        simp [present]

end Settings

end StackPolicy
