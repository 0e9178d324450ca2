import StackPolicy.Proofs.Passes

/-!
# What a trace tells about the passes

An enabled trace holds the entries of all passes in their order, each pass
between the start and the end of its phase, and the warnings at the end.
-/

namespace StackPolicy

/-! ## The trace of a run -/

/-- The entries of a phase, with its start and its end. -/
def phaseEntries (name detail : String) (entries : List Entry) : List Entry :=
  .phaseStart name detail :: entries ++ [.phaseEnd]

/-- Whether a trace is enabled and holds the given entries. -/
structure Trace.Holds (trace : Trace) (entries : List Entry) : Prop where
  enabled : trace.enabled = true
  entries_eq : trace.entries = entries

theorem Trace.Holds.logPhase {trace : Trace} {held : List Entry} (h : trace.Holds held)
    (name detail : String) (entries : List Entry) :
    (trace.logPhase name detail entries).Holds (held ++ phaseEntries name detail entries) := by
  obtain ⟨hon, hentries⟩ := Trace.logPhase_spec h.enabled name detail entries
  exact ⟨hon, hentries.trans (congrArg (· ++ _) h.entries_eq)⟩

theorem Trace.Holds.logPhase_if {trace : Trace} {held : List Entry} (h : trace.Holds held)
    (wanted : Bool) (name detail : String) :
    (if wanted = true then trace.logPhase name detail [] else trace).Holds
      (held ++ if wanted = true then phaseEntries name detail [] else []) := by
  split
  · exact h.logPhase name detail []
  · simpa using h

theorem Trace.Holds.logAll {trace : Trace} {held : List Entry} (h : trace.Holds held)
    (entries : List Entry) : (trace.logAll entries).Holds (held ++ entries) := by
  obtain ⟨hon, -, hentries⟩ := Trace.logAll_spec h.enabled entries
  exact ⟨hon, hentries.trans (congrArg (· ++ _) h.entries_eq)⟩

namespace Analysis

/-- The entries of all passes, in their order. -/
def Passes.entries (passes : Passes) : List Entry :=
  passes.ownershipEntries ++ passes.safetyEntries ++ passes.timerEntries ++ passes.ledger.entries

def entries (analysis : Analysis) : List Entry := analysis.trace.map Event.entry

/-- Every pass in its phase, and the warnings at the end. -/
def traceEntries (settings : Settings) (passes : Passes) (warnings : List String) : List Entry :=
  (if settings.checkGuarantees then
      phaseEntries "Preconditions" "Checking validator guarantees" [] else []) ++
    (if settings.optimizePriorities then
      phaseEntries "Priority Compression" "Removing gaps between task priorities" [] else []) ++
    phaseEntries "Late Partition" "Assigning late resources to init routines" [] ++
    phaseEntries "Ownership" "Computing ceilings and locations" passes.ownershipEntries ++
    phaseEntries "Resource Safety" "Classifying late and init-shared resources"
      passes.safetyEntries ++
    phaseEntries "Timer Queue" "Folding schedule edges" passes.timerEntries ++
    phaseEntries "Channels" "Folding spawn and schedule edges" passes.ledger.entries ++
    warnings.map .warning

theorem holds_traceOf {settings : Settings} (traced : settings.trace = true) (passes : Passes)
    (warnings : List String) :
    (traceOf settings passes warnings).Holds (traceEntries settings passes warnings) := by
  have hstart : (Trace.start settings.trace).Holds [] := ⟨traced, rfl⟩
  have hchecked := hstart.logPhase_if settings.checkGuarantees "Preconditions"
    "Checking validator guarantees"
  have hprepared := hchecked.logPhase_if settings.optimizePriorities "Priority Compression"
    "Removing gaps between task priorities"
  have hheld := (((((hprepared.logPhase "Late Partition"
    "Assigning late resources to init routines" []).logPhase "Ownership"
    "Computing ceilings and locations" passes.ownershipEntries).logPhase "Resource Safety"
    "Classifying late and init-shared resources" passes.safetyEntries).logPhase
    "Timer Queue" "Folding schedule edges" passes.timerEntries).logPhase "Channels"
    "Folding spawn and schedule edges" passes.ledger.entries).logAll (warnings.map .warning)
  rw [List.nil_append] at hheld
  exact hheld

theorem entries_of_traced {settings : Settings} (traced : settings.trace = true) (graph : App)
    (passes : Passes) :
    (assemble settings graph passes).1.entries =
      traceEntries settings passes (warnings graph passes.locations passes.plan.freeQueues) :=
  (holds_traceOf traced passes _).entries_eq

end Analysis

/-! ## Reading a trace -/

section Reading

variable {Read : Type} {read : Entry → Option Read}

/-- Whether entries that frame the passes, and warnings, are passed over. -/
structure Entry.SkipsFrame (read : Entry → Option Read) : Prop where
  phaseStart : ∀ name detail, read (.phaseStart name detail) = none
  phaseEnd : read .phaseEnd = none
  warning : ∀ message, read (.warning message) = none

theorem filterMap_phaseEntries {name detail : String}
    (starts : read (.phaseStart name detail) = none) (ends : read .phaseEnd = none)
    (entries : List Entry) :
    (phaseEntries name detail entries).filterMap read = entries.filterMap read := by
  simp [phaseEntries, starts, ends]

namespace Analysis

theorem filterMap_traceEntries (starts : ∀ name detail, read (.phaseStart name detail) = none)
    (ends : read .phaseEnd = none) (settings : Settings) (passes : Passes)
    (warnings : List String) :
    (traceEntries settings passes warnings).filterMap read =
      passes.entries.filterMap read ++ (warnings.map .warning).filterMap read := by
  have hphase (name detail : String) (entries : List Entry) :
      (phaseEntries name detail entries).filterMap read = entries.filterMap read :=
    filterMap_phaseEntries (starts name detail) ends entries
  have hoptional (wanted : Bool) (name detail : String) :
      (if wanted = true then phaseEntries name detail [] else []).filterMap read = [] := by
    split
    · exact hphase name detail []
    · rfl
  simp only [traceEntries, Passes.entries, List.filterMap_append, hoptional, hphase,
    List.filterMap_nil, List.nil_append, List.append_nil]

/-- Apart from its frame, the trace of a run tells what the passes have noted. -/
theorem filterMap_entries_assemble (skips : Entry.SkipsFrame read) {settings : Settings}
    (traced : settings.trace = true) (graph : App) (passes : Passes) :
    (assemble settings graph passes).1.entries.filterMap read = passes.entries.filterMap read := by
  have hwarnings (warnings : List String) : (warnings.map Entry.warning).filterMap read = [] := by
    simp [List.filterMap_map, skips.warning]
  rw [entries_of_traced traced, filterMap_traceEntries skips.phaseStart skips.phaseEnd,
    hwarnings, List.append_nil]

end Analysis

end Reading

end StackPolicy
