import StackPolicy.SortedSet
import StackPolicy.Trace

/-!
# Safety obligations

Some types must be safe to move from one context to another, and some must be
safe to read from several contexts at once.  The ledger of an analysis holds
both sets and the trace, to which the passes write what they change.
-/

namespace StackPolicy

inductive Obligation where
  | transfer
  | concurrentRead
  deriving DecidableEq, Repr

def Obligation.label : Obligation → String
  | transfer => "transfer-safe"
  | concurrentRead => "concurrent-read-safe"

/-- The types with each obligation, and the trace of the analysis. -/
structure Ledger where
  transfer : SortedSet String
  concurrentRead : SortedSet String
  trace : Trace
  deriving Repr

namespace Ledger

def start (traced : Bool) : Ledger := ⟨∅, ∅, .start traced⟩

def types (ledger : Ledger) : Obligation → SortedSet String
  | .transfer => ledger.transfer
  | .concurrentRead => ledger.concurrentRead

def note (ledger : Ledger) (entry : Entry) : Ledger :=
  { ledger with trace := ledger.trace.log entry }

def noteAll (ledger : Ledger) (entries : List Entry) : Ledger :=
  { ledger with trace := ledger.trace.logAll entries }

def startPhase (ledger : Ledger) (name detail : String) : Ledger :=
  { ledger with trace := ledger.trace.startPhase name detail }

def endPhase (ledger : Ledger) : Ledger := { ledger with trace := ledger.trace.endPhase }

def add (ledger : Ledger) (obligation : Obligation) (ty : String) : Ledger :=
  match obligation with
  | .transfer => { ledger with transfer := ledger.transfer.insert ty }
  | .concurrentRead => { ledger with concurrentRead := ledger.concurrentRead.insert ty }

/-- Lays `obligation` on `ty`; only the first time is noted. -/
def require (ledger : Ledger) (obligation : Obligation) (ty reason : String) : Ledger :=
  if ty ∈ ledger.types obligation then ledger
  else (ledger.add obligation ty).note (.safetyObligation ty obligation.label reason)

def requireAll (ledger : Ledger) (obligation : Obligation) (types : List String)
    (reason : String) : Ledger :=
  types.foldl (fun ledger ty => ledger.require obligation ty reason) ledger

end Ledger

end StackPolicy
