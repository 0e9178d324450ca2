import StackPolicy.Schema.Issue

/-!
# Checked results

Reading a value does not stop at its first issue.  `Checked` holds either the
result or every issue found, and combining two checked results keeps the
issues of both, those of the left one first.
-/

namespace StackPolicy

/-- The result of reading a value, or all the issues that were found. -/
inductive Checked (Result : Type) where
  | valid (result : Result)
  | faulty (issues : List Issue)
  deriving DecidableEq, Repr

namespace Checked

variable {Result Other : Type}

def issues : Checked Result → List Issue
  | valid _ => []
  | faulty issues => issues

def fail (fault : Fault) : Checked Result := faulty [⟨[], fault⟩]

def apply : Checked (Result → Other) → Checked Result → Checked Other
  | valid change, valid result => valid (change result)
  | change, result => faulty (change.issues ++ result.issues)

instance : Applicative Checked where
  pure := valid
  seq change result := apply change (result ())

def under (step : Step) : Checked Result → Checked Result
  | valid result => valid result
  | faulty issues => faulty (issues.map fun issue => { issue with place := step :: issue.place })

/-- Adds issues that were found after those of `checked`. -/
def adding (checked : Checked Result) (more : List Issue) : Checked Result :=
  match checked, more with
  | valid result, [] => valid result
  | checked, more => faulty (checked.issues ++ more)

def all : List (Checked Result) → Checked (List Result)
  | [] => valid []
  | first :: rest => List.cons <$> first <*> all rest

/-- The result, or the rejection of the whole value as a `title`. -/
def orReject (title : String) : Checked Result → Except Rejection Result
  | valid result => .ok result
  | faulty issues => .error ⟨title, issues⟩

@[simp] theorem map_valid (change : Result → Other) (result : Result) :
    change <$> valid result = valid (change result) := rfl

@[simp] theorem seq_valid (change : Result → Other) (result : Result) :
    valid change <*> valid result = valid (change result) := rfl

@[simp] theorem under_valid (step : Step) (result : Result) :
    under step (valid result) = valid result := rfl

@[simp] theorem adding_nil (result : Result) : adding (valid result) [] = valid result := rfl

end Checked

end StackPolicy
