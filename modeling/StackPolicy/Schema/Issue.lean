/-!
# Validation issues

An issue says where in a value a rule is broken and which rule it is.  A
rejected value comes with all its issues, in the order in which they are found.
-/

namespace StackPolicy

inductive Step where
  | member (name : String)
  | item (index : Nat)
  deriving DecidableEq, Repr

inductive Fault where
  | missing
  | unknownMember
  | notRecord (model : String)
  | notTuple
  | notMap
  | notSet
  | notText
  | notOneOf (choices : List String)
  | below (bound : Int)
  | fractional
  | integerText
  | notInteger
  | truthText
  | notTruth
  | wrongTag (expected : String)
  | tagless
  | unknownTag (tag : String) (expected : List String)
  | notTagged
  deriving DecidableEq, Repr

structure Issue where
  place : List Step
  fault : Fault
  deriving DecidableEq, Repr

/-- A value that does not fit the model called `title`. -/
structure Rejection where
  title : String
  issues : List Issue
  deriving DecidableEq, Repr

namespace Fault

def code : Fault → String
  | missing => "missing"
  | unknownMember => "extra_forbidden"
  | notRecord _ => "model_type"
  | notTuple => "tuple_type"
  | notMap => "dict_type"
  | notSet => "frozen_set_type"
  | notText => "string_type"
  | notOneOf _ => "enum"
  | below _ => "greater_than_equal"
  | fractional => "int_from_float"
  | integerText => "int_parsing"
  | notInteger => "int_type"
  | truthText => "bool_parsing"
  | notTruth => "bool_type"
  | wrongTag _ => "literal_error"
  | tagless => "union_tag_not_found"
  | unknownTag _ _ => "union_tag_invalid"
  | notTagged => "model_attributes_type"

def inQuotes (word : String) : String := "'" ++ word ++ "'"

def message : Fault → String
  | missing => "Field required"
  | unknownMember => "Extra inputs are not permitted"
  | notRecord model => "Input should be a valid dictionary or instance of " ++ model
  | notTuple => "Input should be a valid tuple"
  | notMap => "Input should be a valid dictionary"
  | notSet => "Input should be a valid frozenset"
  | notText => "Input should be a valid string"
  | notOneOf choices => "Input should be " ++ String.intercalate " or " (choices.map inQuotes)
  | below bound => "Input should be greater than or equal to " ++ toString bound
  | fractional => "Input should be a valid integer, got a number with a fractional part"
  | integerText => "Input should be a valid integer, unable to parse string as an integer"
  | notInteger => "Input should be a valid integer"
  | truthText => "Input should be a valid boolean, unable to interpret input"
  | notTruth => "Input should be a valid boolean"
  | wrongTag expected => "Input should be " ++ inQuotes expected
  | tagless => "Unable to extract tag using discriminator 'kind'"
  | unknownTag tag expected =>
      "Input tag " ++ inQuotes tag ++
        " found using 'kind' does not match any of the expected tags: " ++
        String.intercalate ", " (expected.map inQuotes)
  | notTagged => "Input should be a valid dictionary or object to extract fields from"

end Fault

/-- The headline of a rejection: how many issues there are, and of which model. -/
def Rejection.headline (rejection : Rejection) : String :=
  let count := rejection.issues.length
  toString count ++ (if count = 1 then " validation error for " else " validation errors for ") ++
    rejection.title

end StackPolicy
