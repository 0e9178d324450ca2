import StackPolicy.Console
import StackPolicy.Schema.Model
import StackPolicy.Toml.Document

/-!
# Settings

The settings of an analysis come from the nearest project file, searched from
a folder upwards, and from explicit overrides, which win.  A project file that
is not well formed is reported and ignored; the files above it are never read.
-/

namespace StackPolicy

structure Settings where
  optimizePriorities : Bool
  checkGuarantees : Bool
  trace : Bool
  deriving DecidableEq, Repr

namespace Settings

def default : Settings := ⟨false, true, false⟩

def fields : List String := ["optimize_priorities", "check_preconditions", "trace"]

open Checked Reading in
def reading : Reading Settings :=
  closedModel "AnalyzerConfig" fields fun members =>
    Settings.mk <$> defaulted members "optimize_priorities" false truth
      <*> defaulted members "check_preconditions" true truth
      <*> defaulted members "trace" false truth

def ofValue (value : Value) : Except Rejection Settings :=
  (reading value).orReject "AnalyzerConfig"

end Settings

/-! ## Project files -/

/-- The bytes of a project file, or what the system says if it does not hand them out. -/
abbrev ProjectFile := Except String (List UInt8)

namespace ProjectFile

/-- The members of a project file, or why the file is ignored. -/
inductive Content where
  | members (members : Toml.Members)
  | ignored (reason : String)
  deriving Repr

/-- Reads a project file.  A text that is not well formed is ignored with a complaint. -/
def read (complaint : List Char → String) : ProjectFile → Except Failure Content
  | .error reason => .ok (.ignored reason)
  | .ok bytes =>
      match Text.Utf8.decode bytes with
      | .error fault => .error (.undecodable fault)
      | .ok characters =>
          match Toml.read? characters with
          | some members => .ok (.members members)
          | none => .ok (.ignored (complaint characters))

/-- The table of settings inside a project file; it is empty if there is none. -/
def settings (members : Toml.Members) : Except Failure Toml.Members :=
  match Value.member? members "tool" with
  | none => .ok []
  | some (.record tools) =>
      match Value.member? tools "srp_analyzer" with
      | none => .ok []
      | some (.record settings) => .ok settings
      | some other => .error (.settingsNotTable other.kindName)
  | some other => .error (.toolsNotTable other.kindName)

end ProjectFile

/-! ## Folders -/

/-- The project files below a root folder, each under the path of its folder. -/
structure Project where
  root : String
  files : Table (List String) ProjectFile

namespace Project

/-- The folder that a relative path leads to; none if it leads above the root. -/
def resolve : (folder : List String) → (path : List String) → Option (List String)
  | folder, [] => some folder
  | folder, step :: path =>
      if step = "" ∨ step = "." then resolve folder path
      else if step = ".." then
        if folder.isEmpty then none else resolve folder.dropLast path
      else resolve (folder ++ [step]) path

/-- A folder and all folders above it, the nearest first. -/
def upwards (folder : List String) : List (List String) :=
  (List.range (folder.length + 1)).map fun count => folder.take (folder.length - count)

def nearest? (project : Project) (folder : List String) : Option (List String × ProjectFile) :=
  (upwards folder).findSome? fun folder =>
    (project.files.get? folder).map fun file => (folder, file)

def fileName (project : Project) (folder : List String) : String :=
  String.intercalate "/" (project.root :: folder ++ ["pyproject.toml"])

def ignoring (project : Project) (folder : List String) (reason : String) : Line :=
  ⟨.warning, "Ignoring unreadable " ++ project.fileName folder ++ ": " ++ reason⟩

end Project

/-! ## Loading -/

/-- Overrides without a value are left out; the others win. -/
def Settings.override (settings overrides : Toml.Members) : Toml.Members :=
  (overrides.filter fun member => !member.2 matches .null).foldl
    (fun members member => Table.writeRow member.1 member.2 members) settings

/-- What project files are read with: the complaint about a text that is not well formed, and
the markup of the console that shows which files are ignored. -/
structure Loader where
  complaint : List Char → String
  markup : Markup

namespace Loader

/-- The table of settings that holds for a folder, after the lines that were shown. -/
def settings (loader : Loader) (project : Project) (folder : List String) :
    List Line × Except Failure Toml.Members :=
  match project.nearest? folder with
  | none => ([], .ok [])
  | some (place, file) =>
      match file.read loader.complaint with
      | .error failure => ([], .error failure)
      | .ok (.members members) => ([], ProjectFile.settings members)
      | .ok (.ignored reason) =>
          let (shown, outcome) := loader.markup.displayAll [project.ignoring place reason]
          (shown, outcome.map fun () => [])

/-- Loads the settings for a folder, after the lines that were shown. -/
def load (loader : Loader) (project : Project) (folder : List String)
    (overrides : Toml.Members) : List Line × Except Failure Settings :=
  let (shown, settings) := loader.settings project folder
  (shown, settings.bind fun settings =>
    (Settings.ofValue (.record (Settings.override settings overrides))).mapError .rejected)

end Loader

end StackPolicy
