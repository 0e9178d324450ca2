import StackPolicy.Table
import StackPolicy.SortedSet
import StackPolicy.Schema.Scalar

/-!
# Reading lists, maps and models

The parts of a list, a map or a model are read in order, and every issue of a
part is reported under the step that leads to it.  Models read their fields in
the order of their declaration; members that are no field come last.
-/

namespace StackPolicy

namespace Reading

open Checked

variable {Result Key : Type}

/-! ## Lists, sets and maps -/

/-- Reads items that stand from position `start` on. -/
def items (reading : Reading Result) : (start : Nat) → List Value → List (Checked Result)
  | _, [] => []
  | start, item :: rest => (reading item).under (.item start) :: items reading (start + 1) rest

def tuple (reading : Reading Result) : Reading (List Result)
  | .list values => all (items reading 0 values)
  | _ => fail .notTuple

def set [LT Result] [LE Result] [DecidableLT Result] [Std.LawfulOrderLT Result]
    [Std.IsLinearOrder Result] (reading : Reading Result) : Reading (SortedSet Result)
  | .list values => SortedSet.ofList <$> all (items reading 0 values)
  | _ => fail .notSet

/-- One row of a map; an issue of the key itself is marked as such. -/
def row (readKey : String → Checked Key) (reading : Reading Result)
    (member : String × Value) : Checked (Key × Result) :=
  (Prod.mk <$> (readKey member.1).under (.member "[key]") <*> reading member.2).under
    (.member member.1)

def table [DecidableEq Key] (readKey : String → Checked Key) (reading : Reading Result) :
    Reading (Table Key Result)
  | .record members => Table.ofList <$> all (members.map (row readKey reading))
  | _ => fail .notMap

def named (reading : Reading Result) : Reading (Table String Result) := table valid reading

def numbered (reading : Reading Result) : Reading (Table Int Result) :=
  table (fun key => integer (.text key)) reading

/-! ## Models -/

def required (members : List (String × Value)) (name : String) (reading : Reading Result) :
    Checked Result :=
  match Value.member? members name with
  | some value => (reading value).under (.member name)
  | none => (fail .missing).under (.member name)

def defaulted (members : List (String × Value)) (name : String) (default : Result)
    (reading : Reading Result) : Checked Result :=
  match Value.member? members name with
  | some value => (reading value).under (.member name)
  | none => valid default

/-- A model that ignores members it does not know. -/
def model (name : String) (fields : List (String × Value) → Checked Result) : Reading Result
  | .record members => fields members
  | _ => fail (.notRecord name)

def unknownMembers (known : List String) (members : List (String × Value)) : List Issue :=
  (members.filter fun member => member.1 ∉ known).map fun member =>
    ⟨[.member member.1], .unknownMember⟩

/-- A model that rejects members it does not know. -/
def closedModel (name : String) (known : List String)
    (fields : List (String × Value) → Checked Result) : Reading Result :=
  model name fun members => (fields members).adding (unknownMembers known members)

end Reading

end StackPolicy
