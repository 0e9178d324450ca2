import StackPolicy.Obligation

/-!
# Recorded entries

An enabled trace records what is logged, at its end.  A ledger writes to its
trace, and nothing that it writes depends on what the trace has recorded before.
-/

namespace StackPolicy

namespace Trace

def entries (trace : Trace) : List Entry := trace.events.map Event.entry

variable {trace : Trace}

theorem entries_append (on : trace.enabled = true) (event : Event) :
    (trace.append event).entries = trace.entries ++ [event.entry] := by
  simp [append, on, entries]

@[simp] theorem enabled_append (event : Event) :
    (trace.append event).enabled = trace.enabled := by
  unfold append
  split <;> rfl

@[simp] theorem openPhases_append (event : Event) :
    (trace.append event).openPhases = trace.openPhases := by
  unfold append
  split <;> rfl

theorem logAll_concat (trace : Trace) (entries : List Entry) (entry : Entry) :
    trace.logAll (entries ++ [entry]) = (trace.logAll entries).log entry :=
  List.foldl_append

theorem logAll_spec (on : trace.enabled = true) (entries : List Entry) :
    (trace.logAll entries).enabled = true ∧
      (trace.logAll entries).openPhases = trace.openPhases ∧
      (trace.logAll entries).entries = trace.entries ++ entries := by
  induction entries generalizing trace with
  | nil => exact ⟨on, rfl, (List.append_nil _).symm⟩
  | cons entry entries ih =>
      have hon : (trace.log entry).enabled = true := by
        rw [log, enabled_append, on]
      obtain ⟨henabled, hopen, hentries⟩ := ih hon
      refine ⟨henabled, hopen.trans (openPhases_append _), ?_⟩
      calc (trace.logAll (entry :: entries)).entries
          = (trace.log entry).entries ++ entries := hentries
        _ = (trace.entries ++ [entry]) ++ entries := by rw [log, entries_append on]
        _ = trace.entries ++ entry :: entries := by rw [List.append_assoc, List.singleton_append]

/-- A phase in which some entries are logged. -/
def logPhase (trace : Trace) (name detail : String) (entries : List Entry) : Trace :=
  ((trace.startPhase name detail).logAll entries).endPhase

/-- A phase adds its entries between its start and its end. -/
theorem logPhase_spec (on : trace.enabled = true) (name detail : String)
    (entries : List Entry) :
    (trace.logPhase name detail entries).enabled = true ∧
      (trace.logPhase name detail entries).entries =
        trace.entries ++ (.phaseStart name detail :: entries ++ [.phaseEnd]) := by
  have hstart : (trace.startPhase name detail).enabled = true := by
    simpa [startPhase] using on
  have hstarted : (trace.startPhase name detail).entries =
      trace.entries ++ [.phaseStart name detail] := entries_append on _
  obtain ⟨henabled, hopen, hentries⟩ := logAll_spec hstart entries
  have hphase : ((trace.startPhase name detail).logAll entries).openPhases =
      trace.events.length :: trace.openPhases := hopen
  unfold logPhase endPhase
  rw [hphase]
  refine ⟨(enabled_append _).trans henabled, ?_⟩
  refine (entries_append henabled _).trans ?_
  rw [hentries, hstarted]
  simp

end Trace

namespace Ledger

def entries (ledger : Ledger) : List Entry := ledger.trace.entries

/-- The same types, with a trace of its own that has recorded nothing. -/
def withoutEntries (ledger : Ledger) : Ledger := { ledger with trace := .start true }

variable {ledger : Ledger}

@[simp] theorem entries_start (traced : Bool) : (start traced).entries = [] := rfl

@[simp] theorem entries_withoutEntries (ledger : Ledger) : ledger.withoutEntries.entries = [] := rfl

@[simp] theorem enabled_note (ledger : Ledger) (entry : Entry) :
    (ledger.note entry).trace.enabled = ledger.trace.enabled :=
  Trace.enabled_append _

@[simp] theorem trace_add (ledger : Ledger) (obligation : Obligation) (ty : String) :
    (ledger.add obligation ty).trace = ledger.trace := by
  cases obligation <;> rfl

theorem entries_note (on : ledger.trace.enabled = true) (entry : Entry) :
    (ledger.note entry).entries = ledger.entries ++ [entry] :=
  Trace.entries_append on _

theorem entries_require (on : ledger.trace.enabled = true) {obligation : Obligation} {ty : String}
    (fresh : ty ∉ ledger.types obligation) (reason : String) :
    (ledger.require obligation ty reason).entries =
      ledger.entries ++ [.safetyObligation ty obligation.label reason] := by
  have hadded : (ledger.add obligation ty).trace.enabled = true := by rwa [trace_add]
  rw [require, if_neg fresh, entries_note hadded, entries, trace_add, entries]

/-- An entry that is passed over may be noted or not. -/
theorem filterMap_entries_note {Read : Type} {read : Entry → Option Read} {entry : Entry}
    (skipped : read entry = none) (ledger : Ledger) :
    (ledger.note entry).entries.filterMap read = ledger.entries.filterMap read := by
  cases on : ledger.trace.enabled with
  | true => rw [entries_note on, List.filterMap_append, List.filterMap_cons, skipped,
      List.filterMap_nil, List.append_nil]
  | false =>
      have hsame : ledger.note entry = ledger := by
        simp [note, Trace.log, Trace.append, on]
      rw [hsame]

end Ledger

end StackPolicy
