import StackPolicy.Schema.Issue
import StackPolicy.Text.Utf8
import StackPolicy.Violation

/-!
# Failures

Why an analysis, one of its steps, or the reading of its settings gives no
result.
-/

namespace StackPolicy

inductive Failure where
  | rejected (rejection : Rejection)
  | violated (violations : List Violation)
  | coreOutOfRange (core : Int)
  | unknownPriority (priority : Int)
  | severalRests
  | undeclaredTask (name : String)
  | missingChannel (priority : Int)
  | emptyChannel (priority : Int)
  | aboveCeiling (priority ceiling : Int)
  | undecodable (fault : Text.Utf8Fault)
  /-- A console could not read a text that it was to show. -/
  | unreadable (fault : String)
  /-- The tools of a project file are no table, but a value of the given kind. -/
  | toolsNotTable (kind : String)
  /-- The settings of the analysis in a project file are no table. -/
  | settingsNotTable (kind : String)
  deriving DecidableEq, Repr

namespace Failure

def message : Failure → String
  | rejected rejection => rejection.headline
  | violated violations =>
      "Input graph violates analysis preconditions:\n" ++
        String.intercalate "\n" (violations.map fun violation => "- " ++ violation.message)
  | coreOutOfRange core => toString core
  | unknownPriority priority => toString priority
  | severalRests => "more than one init routine takes the remaining late resources"
  | undeclaredTask name => Text.quoted name
  | missingChannel priority => toString priority
  | emptyChannel priority => "channel at priority " ++ toString priority ++ " has no tasks"
  | aboveCeiling priority ceiling =>
      "priority " ++ toString priority ++ " is above the ceiling " ++ toString ceiling
  | undecodable fault => fault.message
  | unreadable fault => fault
  | toolsNotTable kind => "'" ++ kind ++ "' object has no attribute 'get'"
  | settingsNotTable kind => "'" ++ kind ++ "' object is not a mapping"

end Failure

/-- A number in a member of a model, with the least value that it may have. -/
structure Bounded where
  member : String
  least : Int
  number : Int

/-- Rejects a `title` whose numbers are below their bounds, with one issue for each of them. -/
def Failure.checkBounds (title : String) (numbers : List Bounded) : Except Failure Unit :=
  let issues : List Issue := (numbers.filter fun entry => entry.number < entry.least).map
    fun entry => ⟨[.member entry.member], .below entry.least⟩
  if issues.isEmpty then .ok () else .error (.rejected ⟨title, issues⟩)

theorem Failure.checkBounds_eq_ok_iff {title : String} {numbers : List Bounded} :
    Failure.checkBounds title numbers = .ok () ↔ ∀ entry ∈ numbers, entry.least ≤ entry.number := by
  have none : (numbers.filter fun entry => entry.number < entry.least) = [] ↔
      ∀ entry ∈ numbers, entry.least ≤ entry.number := by
    simp only [List.filter_eq_nil_iff, decide_eq_true_eq, Int.not_lt]
  rw [← none]
  simp [checkBounds]

theorem Failure.checkBounds_eq_ok {title : String} {numbers : List Bounded}
    (fits : ∀ entry ∈ numbers, entry.least ≤ entry.number) :
    Failure.checkBounds title numbers = .ok () :=
  Failure.checkBounds_eq_ok_iff.mpr fits

end StackPolicy
