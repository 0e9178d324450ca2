import StackPolicy.Proofs.DistinctNames
import StackPolicy.Proofs.MergedSettings
import StackPolicy.Proofs.NearestFiles
import StackPolicy.Proofs.ShownLines

/-!
# Loaded settings

The nearest project file alone decides which values are merged with the overrides
and the defaults.  The merged values are then checked as settings, unless the file
breaks: its bytes are not UTF-8, or it has something else than a table where a table
of settings belongs, or the console cannot read the line that says why the file is
ignored.  Then there are neither settings nor a rejection of them.
-/

namespace StackPolicy

/-! ## Contents of a project file -/

namespace ProjectFile

/-- Whether a project file can be opened and is well formed, with these members. -/
def Parses (file : ProjectFile) (members : Toml.Members) : Prop :=
  ∃ bytes characters, file = .ok bytes ∧ Text.Utf8.decode bytes = .ok characters ∧
    Toml.read? characters = some members

/-- Whether a project file cannot be opened, or its text is not well formed, for this reason. -/
def Unreadable (complaint : List Char → String) (file : ProjectFile) (reason : String) : Prop :=
  file = .error reason ∨ ∃ bytes characters, file = .ok bytes ∧
    Text.Utf8.decode bytes = .ok characters ∧ Toml.read? characters = none ∧
    complaint characters = reason

/-- Whether the members of a project file give this table of settings.  It is empty where the
tools, or the settings among them, are absent. -/
inductive Offers (members : Toml.Members) : Toml.Members → Prop where
  | noTools (tools : Value.member? members "tool" = none) : Offers members []
  | noSettings {inner : Toml.Members}
      (tools : Value.member? members "tool" = some (.record inner))
      (settings : Value.member? inner "srp_analyzer" = none) : Offers members []
  | settings {inner offered : Toml.Members}
      (tools : Value.member? members "tool" = some (.record inner))
      (settings : Value.member? inner "srp_analyzer" = some (.record offered)) :
      Offers members offered

/-- Whether a project file fails in another way than by settings that are rejected. -/
inductive Breaks (file : ProjectFile) : Failure → Prop where
  | undecodable {bytes : List UInt8} {fault : Text.Utf8Fault} (opened : file = .ok bytes)
      (refused : Text.Utf8.decode bytes = .error fault) : Breaks file (.undecodable fault)
  | tools {members : Toml.Members} {other : Value} (parses : file.Parses members)
      (tools : Value.member? members "tool" = some other)
      (notTable : ∀ inner, other ≠ .record inner) : Breaks file (.toolsNotTable other.kindName)
  | settings {members inner : Toml.Members} {other : Value} (parses : file.Parses members)
      (tools : Value.member? members "tool" = some (.record inner))
      (settings : Value.member? inner "srp_analyzer" = some other)
      (notTable : ∀ offered, other ≠ .record offered) :
      Breaks file (.settingsNotTable other.kindName)

variable {complaint : List Char → String} {file : ProjectFile} {members offered : Toml.Members}
  {reason : String} {failure : Failure}

theorem read_eq_members_iff :
    file.read complaint = .ok (.members members) ↔ file.Parses members := by
  cases file with
  | error reason => simp [read, Parses]
  | ok bytes =>
      cases hdecode : Text.Utf8.decode bytes with
      | error fault => simp [read, Parses, hdecode]
      | ok characters => cases hread : Toml.read? characters <;> simp [read, Parses, hdecode, hread]

theorem read_eq_ignored_iff :
    file.read complaint = .ok (.ignored reason) ↔ file.Unreadable complaint reason := by
  cases file with
  | error reason => simp [read, Unreadable]
  | ok bytes =>
      cases hdecode : Text.Utf8.decode bytes with
      | error fault => simp [read, Unreadable, hdecode]
      | ok characters =>
          cases hread : Toml.read? characters <;> simp [read, Unreadable, hdecode, hread]

theorem read_eq_error_iff :
    file.read complaint = .error failure ↔
      ∃ bytes fault, file = .ok bytes ∧ Text.Utf8.decode bytes = .error fault ∧
        failure = .undecodable fault := by
  cases file with
  | error reason => simp [read]
  | ok bytes =>
      cases hdecode : Text.Utf8.decode bytes with
      | error fault => simp [read, hdecode, eq_comm]
      | ok characters => cases hread : Toml.read? characters <;> simp [read, hdecode, hread]

theorem settings_eq_ok_iff : settings members = .ok offered ↔ Offers members offered := by
  constructor
  · intro h
    unfold settings at h
    split at h
    · rename_i tools
      cases h
      exact .noTools tools
    · rename_i tools
      split at h
      · rename_i settings
        cases h
        exact .noSettings tools settings
      · rename_i settings
        cases h
        exact .settings tools settings
      · cases h
    · cases h
  · rintro (tools | ⟨tools, settings⟩ | ⟨tools, settings⟩)
    · simp only [ProjectFile.settings, tools]
    · simp only [ProjectFile.settings, tools, settings]
    · simp only [ProjectFile.settings, tools, settings]

theorem breaks_iff (complaint : List Char → String) :
    file.Breaks failure ↔
      file.read complaint = .error failure ∨
      ∃ members, file.read complaint = .ok (.members members) ∧
        settings members = .error failure := by
  simp only [read_eq_error_iff, read_eq_members_iff]
  constructor
  · rintro (⟨opened, refused⟩ | ⟨parses, tools, notTable⟩ | ⟨parses, tools, settings, notTable⟩)
    · exact .inl ⟨_, _, opened, refused, rfl⟩
    · exact .inr ⟨_, parses, by simp only [ProjectFile.settings, tools]⟩
    · exact .inr ⟨_, parses, by simp only [ProjectFile.settings, tools, settings]⟩
  · rintro (⟨bytes, fault, opened, refused, rfl⟩ | ⟨members, parses, h⟩)
    · exact .undecodable opened refused
    · unfold ProjectFile.settings at h
      split at h
      · cases h
      · rename_i tools
        split at h
        · cases h
        · cases h
        · rename_i notTable settings
          cases h
          exact .settings parses tools settings notTable
      · rename_i notTable tools
        cases h
        exact .tools parses tools notTable

/-- The settings that a file offers have distinct names. -/
theorem Offers.names_nodup (offers : Offers members offered) (parses : file.Parses members) :
    (offered.map Prod.fst).Nodup := by
  obtain ⟨_, _, -, -, hread⟩ := parses
  have hmembers := Toml.distinct_of_read? hread
  cases offers with
  | noTools => exact List.nodup_nil
  | noSettings => exact List.nodup_nil
  | settings tools settings =>
      have hinner := Value.distinct_of_member? hmembers tools
      exact (Value.distinct_record_iff.mp (Value.distinct_of_member? hinner settings)).1

end ProjectFile

/-! ## Settings of a folder -/

namespace Loader

open Project ProjectFile

/-- Whether the file at `place` breaks, or cannot be read for a reason that cannot be shown. -/
inductive Fails (loader : Loader) (project : Project) (place : List String) (file : ProjectFile) :
    Failure → Prop where
  | broken {failure : Failure} (breaks : file.Breaks failure) :
      Fails loader project place file failure
  | unshown {reason fault : String} (unreadable : file.Unreadable loader.complaint reason)
      (unread : loader.markup.fault? (project.ignoring place reason).text = some fault) :
      Fails loader project place file (.unreadable fault)

variable {loader : Loader} {project other : Project} {folder place : List String}
  {file : ProjectFile} {members offered overrides : Toml.Members} {reason : String}
  {lines : List Line} {failure : Failure}

theorem settings_of_no_file
    (absent : ∀ place, place <+: folder → project.files.get? place = none) :
    loader.settings project folder = ([], .ok []) := by
  simp only [settings, nearest?_eq_none_iff.mpr absent]

section Nearest

variable (nearest : project.Nearest folder place file)

include nearest

theorem settings_of_offers (parses : file.Parses members) (offers : Offers members offered) :
    loader.settings project folder = ([], .ok offered) := by
  simp only [settings, nearest?_eq_some_iff.mpr nearest, read_eq_members_iff.mpr parses,
    settings_eq_ok_iff.mpr offers]

theorem settings_of_unreadable (unreadable : file.Unreadable loader.complaint reason)
    (read : loader.markup.Readable [project.ignoring place reason]) :
    loader.settings project folder = ([project.ignoring place reason], .ok []) := by
  simp only [settings, nearest?_eq_some_iff.mpr nearest, read_eq_ignored_iff.mpr unreadable,
    Markup.displayAll_of_readable read, Except.map]

theorem settings_of_fails (fails : loader.Fails project place file failure) :
    loader.settings project folder = ([], .error failure) := by
  cases fails with
  | broken breaks =>
      rcases (breaks_iff loader.complaint).mp breaks with hread | ⟨members, hread, hsettings⟩
      · simp only [settings, nearest?_eq_some_iff.mpr nearest, hread]
      · simp only [settings, nearest?_eq_some_iff.mpr nearest, hread, hsettings]
  | unshown unreadable unread =>
      simp only [settings, nearest?_eq_some_iff.mpr nearest, read_eq_ignored_iff.mpr unreadable,
        Markup.displayAll_cons_of_some unread, Except.map]

/-- Files that are above the nearest one change nothing. -/
theorem settings_of_sameUpTo (same : project.SameUpTo other folder place) :
    loader.settings other folder = loader.settings project folder := by
  have hignoring : other.ignoring place = project.ignoring place := by
    funext reason
    simp only [ignoring, fileName, same.root]
  simp only [settings, nearest?_eq_some_iff.mpr nearest,
    nearest?_eq_some_iff.mpr (nearest.of_sameUpTo same), hignoring]

end Nearest

theorem exists_fails_of_settings
    (failed : loader.settings project folder = (lines, .error failure)) :
    ∃ place file, project.Nearest folder place file ∧ loader.Fails project place file failure := by
  unfold settings at failed
  split at failed
  · cases failed
  · rename_i place file found
    refine ⟨place, file, nearest?_eq_some_iff.mp found, ?_⟩
    split at failed
    · rename_i hread
      cases failed
      exact .broken ((breaks_iff loader.complaint).mpr (.inl hread))
    · rename_i members hread
      exact .broken ((breaks_iff loader.complaint).mpr
        (.inr ⟨members, hread, (Prod.mk.inj failed).2⟩))
    · rename_i reason hread
      have hunreadable := read_eq_ignored_iff.mp hread
      cases hfault : loader.markup.fault? (project.ignoring place reason).text with
      | some fault =>
          simp only [Markup.displayAll_cons_of_some hfault, Except.map] at failed
          cases failed
          exact .unshown hunreadable hfault
      | none =>
          have hshown := Markup.displayAll_of_readable
            (Markup.readable_cons_iff.mpr ⟨hfault, Markup.readable_nil⟩)
          simp only [hshown, Except.map] at failed
          cases failed

/-! ## Loading -/

theorem load_of_settings (settings : loader.settings project folder = (lines, .ok offered)) :
    loader.load project folder overrides =
      (lines, (Settings.ofValue (.record (Settings.override offered overrides))).mapError
        .rejected) := by
  simp only [load, settings]
  rfl

theorem load_of_failure (settings : loader.settings project folder = (lines, .error failure)) :
    loader.load project folder overrides = (lines, .error failure) := by
  simp only [load, settings]
  rfl

end Loader

namespace Settings

/-! ## Precedence -/

/-- Whether `outcome` is that of checking, as settings, one table in which every name has the
value chosen for it. -/
structure Validates (values overrides : Table String Value) (outcome : Except Failure Settings) :
    Prop where
  checked : ∃ merged : Table String Value,
    (∀ name, merged.get? name = chosen? values overrides name) ∧
    merged.keys = values.keys ++ (given overrides).keys.filter (· ∉ values.keys) ∧
    outcome = (ofValue (.record merged.rows)).mapError .rejected
  accepts : ∀ settings, outcome = .ok settings ↔
    (∀ name, chosen? values overrides name ≠ none → name ∈ fields) ∧
      Resolves (chosen? values overrides) settings
  rejects : ∀ name, chosen? values overrides name ≠ none → name ∉ fields →
    ∃ rejection, outcome = .error (.rejected rejection) ∧
      ⟨[.member name], .unknownMember⟩ ∈ rejection.issues

theorem mapError_rejected_eq_ok_iff {checked : Except Rejection Settings} {settings : Settings} :
    checked.mapError Failure.rejected = .ok settings ↔ checked = .ok settings := by
  cases checked <;> simp [Except.mapError]

theorem validates_override (values overrides : Table String Value) :
    Validates values overrides
      ((ofValue (.record (override values.rows overrides.rows))).mapError .rejected) := by
  have hlookup : Value.member? (merge values overrides).rows = chosen? values overrides :=
    funext (get?_merge values overrides)
  have hmember (name : String) : chosen? values overrides name ≠ none ↔
      ∃ value, (name, value) ∈ (merge values overrides).rows := by
    simp only [← get?_merge, Option.ne_none_iff_exists', Table.get?_eq_some_iff]
  rw [← rows_merge]
  refine ⟨⟨_, get?_merge values overrides, keys_merge values overrides, rfl⟩,
    fun settings => ?_, fun name present unknown => ?_⟩
  · rw [mapError_rejected_eq_ok_iff, ofValue_eq_ok_iff, hlookup]
    refine and_congr_left fun _ => ⟨fun known name present => ?_, fun known member hmem => ?_⟩
    · obtain ⟨value, hmem⟩ := (hmember name).mp present
      exact known _ hmem
    · exact known member.1 ((hmember member.1).mpr ⟨member.2, hmem⟩)
  · obtain ⟨value, hmem⟩ := (hmember name).mp present
    obtain ⟨rejection, hrejection, hissue⟩ := ofValue_of_unknown hmem unknown
    exact ⟨rejection, by rw [hrejection]; rfl, hissue⟩

end Settings

namespace Loader

open Project ProjectFile Settings

theorem exists_validates {loader : Loader} {project : Project} {folder : List String}
    {lines : List Line} (values overrides : Table String Value)
    (settings : loader.settings project folder = (lines, .ok values.rows)) :
    ∃ outcome, loader.load project folder overrides.rows = (lines, outcome) ∧
      Validates values overrides outcome :=
  ⟨_, load_of_settings settings, validates_override values overrides⟩

/-- Overrides come before the values of the nearest file, and these before the defaults.  A file
that cannot be read is reported once and gives no values, unless the report cannot be shown; no
file above the nearest one has any influence. -/
theorem load_by_precedence (loader : Loader) (project : Project) (folder : List String)
    (overrides : Table String Value) :
    ((∀ place, place <+: folder → project.files.get? place = none) →
      ∃ outcome, loader.load project folder overrides.rows = ([], outcome) ∧
        Validates ∅ overrides outcome) ∧
    ∀ place file, project.Nearest folder place file →
      (∀ members offered, file.Parses members → Offers members offered →
        ∃ (values : Table String Value) (outcome : Except Failure Settings),
          values.rows = offered ∧ loader.load project folder overrides.rows = ([], outcome) ∧
          Validates values overrides outcome) ∧
      (∀ reason, file.Unreadable loader.complaint reason →
        loader.markup.Readable [project.ignoring place reason] →
        ∃ outcome, loader.load project folder overrides.rows =
            ([project.ignoring place reason], outcome) ∧
          Validates ∅ overrides outcome) ∧
      (∀ failure, loader.Fails project place file failure →
        loader.load project folder overrides.rows = ([], .error failure)) ∧
      ∀ other, project.SameUpTo other folder place →
        loader.load other folder overrides.rows = loader.load project folder overrides.rows := by
  refine ⟨fun absent => exists_validates ∅ overrides (settings_of_no_file absent),
    fun place file nearest => ⟨fun members offered parses offers => ?_,
      fun reason unreadable read => ?_, fun failure fails => ?_, fun other same => ?_⟩⟩
  · obtain ⟨outcome, hload, hvalidates⟩ := exists_validates ⟨offered, offers.names_nodup parses⟩
      overrides (settings_of_offers nearest parses offers)
    exact ⟨_, outcome, rfl, hload, hvalidates⟩
  · exact exists_validates ∅ overrides (settings_of_unreadable nearest unreadable read)
  · exact load_of_failure (settings_of_fails nearest fails)
  · simp only [load, settings_of_sameUpTo nearest same]

/-- A loader that complains about a second declaration of `[/x]`, in which the console finds a
closing tag. -/
def closingTag : Loader where
  complaint _ := "Cannot declare ('[/x]',) twice (at line 2, column 8)"
  markup := .faultIn
    ("⚠️  Ignoring unreadable /app/pyproject.toml: " ++
      "Cannot declare ('[/x]',) twice (at line 2, column 8)")
    "closing tag '[/x]' at position 62 doesn't match any open tag" (by simp)

/-- The line `tool.srp_analyzer.trace=true`. -/
def tracedFile : ProjectFile :=
  .ok [116, 111, 111, 108, 46, 115, 114, 112, 95, 97, 110, 97, 108, 121, 122, 101, 114, 46, 116,
    114, 97, 99, 101, 61, 116, 114, 117, 101]

/-- A folder that asks for a trace, inside a folder with a file that is not UTF-8. -/
def tracedProject : Project := ⟨"/app", .ofList [([], .ok [0xff]), (["member"], tracedFile)]⟩

/-- One override with a value, and one without. -/
def tracedOverrides : Table String Value :=
  .ofList [("optimize_priorities", .bool true), ("trace", .null)]

theorem load_by_precedence_traced :
    tracedProject.Nearest ["member", "src"] ["member"] tracedFile ∧
    ∃ members, tracedFile.Parses members ∧ Offers members [("trace", .bool true)] ∧
      ∃ (values : Table String Value) (outcome : Except Failure Settings),
        values.rows = [("trace", .bool true)] ∧
        closingTag.load tracedProject ["member", "src"] tracedOverrides.rows = ([], outcome) ∧
        Validates values tracedOverrides outcome := by
  have nearest : tracedProject.Nearest ["member", "src"] ["member"] tracedFile :=
    nearest?_eq_some_iff.mp rfl
  have parses : tracedFile.Parses
      [("tool", .record [("srp_analyzer", .record [("trace", .bool true)])])] :=
    (@read_eq_members_iff closingTag.complaint _ _).mp rfl
  have offers : Offers [("tool", .record [("srp_analyzer", .record [("trace", .bool true)])])]
      [("trace", .bool true)] := settings_eq_ok_iff.mp rfl
  exact ⟨nearest, _, parses, offers,
    ((load_by_precedence closingTag tracedProject ["member", "src"] tracedOverrides).2 _ _
      nearest).1 _ _ parses offers⟩

/-- A project whose only file stands in its root folder. -/
def projectOf (bytes : List UInt8) : Project := ⟨"/app", .ofList [([], .ok bytes)]⟩

theorem nearest_projectOf (bytes : List UInt8) : (projectOf bytes).Nearest [] [] (.ok bytes) :=
  nearest?_eq_some_iff.mp rfl

/-- The line `["[/x]"]` twice. -/
def declaredTwice : List UInt8 :=
  [91, 34, 91, 47, 120, 93, 34, 93, 10, 91, 34, 91, 47, 120, 93, 34, 93, 10]

theorem unreadable_declaredTwice :
    Unreadable closingTag.complaint (.ok declaredTwice)
      "Cannot declare ('[/x]',) twice (at line 2, column 8)" :=
  read_eq_ignored_iff.mp rfl

theorem fails_declaredTwice :
    closingTag.Fails (projectOf declaredTwice) [] (.ok declaredTwice)
      (.unreadable "closing tag '[/x]' at position 62 doesn't match any open tag") :=
  .unshown unreadable_declaredTwice (Markup.fault?_faultIn (by simp))

theorem load_declaredTwice (overrides : Toml.Members) :
    closingTag.load (projectOf declaredTwice) [] overrides =
      ([], .error (.unreadable "closing tag '[/x]' at position 62 doesn't match any open tag")) :=
  load_of_failure (settings_of_fails (nearest_projectOf _) fails_declaredTwice)

/-- A file that is not well formed stops the loading of defaults by the reason why it is not,
and the line `tool = 3` by what it gives in place of a table. -/
theorem not_load_defaults :
    closingTag.load (projectOf declaredTwice) [] [] =
      ([], .error (.unreadable "closing tag '[/x]' at position 62 doesn't match any open tag")) ∧
    closingTag.load (projectOf [116, 111, 111, 108, 32, 61, 32, 51]) [] [] =
      ([], .error (.toolsNotTable "int")) ∧
    ¬ ∀ (loader : Loader) (project : Project) (folder place : List String) (file : ProjectFile)
        (reason : String) (overrides : Table String Value),
      project.Nearest folder place file → file.Unreadable loader.complaint reason →
      ∃ outcome, loader.load project folder overrides.rows =
          ([project.ignoring place reason], outcome) ∧
        Validates ∅ overrides outcome := by
  refine ⟨load_declaredTwice [], rfl, fun reports => ?_⟩
  obtain ⟨outcome, hload, -⟩ := reports closingTag _ [] [] _ _ ∅ (nearest_projectOf declaredTwice)
    unreadable_declaredTwice
  cases (load_declaredTwice _).symm.trans hload

/-! ## Broken files -/

/-- Whether loading ends with settings or with a rejection of them. -/
def Settles (outcome : Except Failure Settings) : Prop :=
  (∃ settings, outcome = .ok settings) ∨ ∃ rejection, outcome = .error (.rejected rejection)

theorem settles_mapError_rejected (checked : Except Rejection Settings) :
    Settles (checked.mapError .rejected) := by
  cases checked with
  | ok settings => exact .inl ⟨settings, rfl⟩
  | error rejection => exact .inr ⟨rejection, rfl⟩

theorem not_settles_of_fails {loader : Loader} {project : Project} {place : List String}
    {file : ProjectFile} {failure : Failure} (fails : loader.Fails project place file failure) :
    ¬ Settles (.error failure) := by
  rcases fails with breaks | _
  · cases breaks <;> simp [Settles]
  · simp [Settles]

/-- Loading settles exactly if the nearest file does not fail, and how the file fails is the
outcome otherwise. -/
theorem settles_load_iff_unbroken (loader : Loader) (project : Project) (folder : List String)
    (overrides : Toml.Members) :
    (Settles (loader.load project folder overrides).2 ↔
      ∀ place file failure, project.Nearest folder place file →
        ¬ loader.Fails project place file failure) ∧
    ∀ place file failure, project.Nearest folder place file →
      loader.Fails project place file failure →
      loader.load project folder overrides = ([], .error failure) := by
  have failing : ∀ place file failure, project.Nearest folder place file →
      loader.Fails project place file failure →
      loader.load project folder overrides = ([], .error failure) :=
    fun _ _ _ nearest fails => load_of_failure (settings_of_fails nearest fails)
  refine ⟨⟨fun settles place file failure nearest fails => ?_, fun unbroken => ?_⟩, failing⟩
  · rw [failing place file failure nearest fails] at settles
    exact not_settles_of_fails fails settles
  · rcases hsettings : loader.settings project folder with ⟨lines, failure | offered⟩
    · obtain ⟨place, file, nearest, fails⟩ := exists_fails_of_settings hsettings
      exact absurd fails (unbroken place file failure nearest)
    · rw [load_of_settings hsettings]
      exact settles_mapError_rejected _

/-- The byte `ff`, the lines `tool = 3` and `tool.srp_analyzer = 1`, and a key `[/x]` that is
declared twice fail, each in its own way. -/
theorem not_settles_load_broken :
    (closingTag.load (projectOf [0xff]) [] []).2 = .error (.undecodable ⟨0xff, 0, 1, .start⟩) ∧
    (closingTag.load (projectOf [116, 111, 111, 108, 32, 61, 32, 51]) [] []).2 =
      .error (.toolsNotTable "int") ∧
    (closingTag.load (projectOf [116, 111, 111, 108, 46, 115, 114, 112, 95, 97, 110, 97, 108, 121,
        122, 101, 114, 32, 61, 32, 49]) [] []).2 = .error (.settingsNotTable "int") ∧
    (closingTag.load (projectOf declaredTwice) [] []).2 =
      .error (.unreadable "closing tag '[/x]' at position 62 doesn't match any open tag") ∧
    ¬ ∀ (loader : Loader) (project : Project) (folder : List String) (overrides : Toml.Members),
      Settles (loader.load project folder overrides).2 := by
  have undecodable : (closingTag.load (projectOf [0xff]) [] []).2 =
      .error (.undecodable ⟨0xff, 0, 1, .start⟩) := rfl
  refine ⟨undecodable, rfl, rfl, congrArg Prod.snd (load_declaredTwice []), fun settles => ?_⟩
  have settled := settles closingTag (projectOf [0xff]) [] []
  rw [undecodable] at settled
  rcases settled with ⟨_, ⟨⟩⟩ | ⟨_, ⟨⟩⟩

end Loader

end StackPolicy
