import StackPolicy.Engine
import StackPolicy.Proofs.ChannelPlan
import StackPolicy.Proofs.LatePartition
import StackPolicy.Proofs.LocationFold
import StackPolicy.Proofs.OwnershipFold
import StackPolicy.Proofs.RecordedEntries

/-!
# The passes of an analysis

Here every pass writes to a trace of its own, from which the trace of an
analysis is put together.  Ownerships and locations can always be derived.  The
other passes fail at several routines that take the rest, or at messages
without a receiver.
-/

namespace StackPolicy

namespace App

theorem exists_context_of_mem_accesses {app : App} {access : Access}
    (member : access ∈ app.accesses) :
    ∃ context ∈ app.contexts, access.core = context.core ∧
      access.priority = context.priority := by
  obtain ⟨context, hcontext, haccess⟩ := List.mem_flatMap.mp member
  obtain ⟨row, -, rfl⟩ := List.mem_map.mp haccess
  exact ⟨context, hcontext, rfl, rfl⟩

theorem core_nonneg_of_mem_accesses {app : App} {access : Access}
    (member : access ∈ app.accesses) : 0 ≤ access.core := by
  obtain ⟨context, hcontext, hcore, -⟩ := exists_context_of_mem_accesses member
  rw [hcore]
  exact (wellFormed_of_mem_contexts hcontext).core_nonneg

theorem priority_nonneg_of_mem_accesses {app : App} {access : Access}
    (member : access ∈ app.accesses) {priority : Int}
    (found : access.priority = some priority) : 0 ≤ priority := by
  obtain ⟨context, hcontext, -, hpriority⟩ := exists_context_of_mem_accesses member
  rw [hpriority] at found
  exact (wellFormed_of_mem_contexts hcontext).priority_nonneg priority found

theorem receivers_spawned (app : App) :
    app.spawned.map Message.receiver = app.contexts.flatMap Context.spawn := by
  simp [spawned, Context.spawned, List.map_flatMap, Function.comp_def]

theorem receivers_scheduled (app : App) :
    app.scheduled.map Message.receiver = app.contexts.flatMap Context.schedule := by
  simp [scheduled, Context.scheduled, List.map_flatMap, Function.comp_def]

end App

namespace Analysis

/-! ## Passes with a trace of their own -/

/-- The results of the passes over an application, in their order, and the entries
that each of them has made. -/
structure Passes where
  late : LatePartition
  ownerships : Ownerships
  locations : Locations
  ownershipEntries : List Entry
  safetyEntries : List Entry
  timerQueue : TimerQueue
  timerEntries : List Entry
  plan : ChannelPlan
  ledger : Ledger

def Passes.findings (passes : Passes) : Findings :=
  ⟨passes.late, passes.ownerships, passes.locations, passes.timerQueue, passes.plan⟩

def runPasses (app : App) : Except Failure Passes := do
  let late ← LatePartition.ofApp app
  let (ownerships, read) ← Ownerships.ofAccesses app app.accesses (.start true)
  let locations ← Locations.ofAccesses app.accesses late
  let safe :=
    (read.withoutEntries.requireLateResources app ownerships locations).requireInitResources app
      ownerships
  let (timerQueue, timed) ← TimerQueue.ofMessages app app.scheduled safe.withoutEntries
  let (plan, ledger) ←
    ChannelPlan.ofMessages app app.spawned app.scheduled timerQueue timed.withoutEntries
  pure
    { late, ownerships, locations, timerQueue, plan, ledger
      ownershipEntries := read.entries
      safetyEntries := safe.entries
      timerEntries := timed.entries }

/-- The trace in which each pass is a phase with the entries that it has made. -/
def Passes.traceAfter (passes : Passes) (trace : Trace) : Trace :=
  let trace := trace.logPhase "Late Partition" "Assigning late resources to init routines" []
  let trace := trace.logPhase "Ownership" "Computing ceilings and locations"
    passes.ownershipEntries
  let trace := trace.logPhase "Resource Safety" "Classifying late and init-shared resources"
    passes.safetyEntries
  let trace := trace.logPhase "Timer Queue" "Folding schedule edges" passes.timerEntries
  trace.logPhase "Channels" "Folding spawn and schedule edges" passes.ledger.entries

def traceOf (settings : Settings) (passes : Passes) (warnings : List String) : Trace :=
  let trace := Trace.start settings.trace
  let trace := if settings.checkGuarantees then
      trace.logPhase "Preconditions" "Checking validator guarantees" []
    else trace
  let trace := if settings.optimizePriorities then
      trace.logPhase "Priority Compression" "Removing gaps between task priorities" []
    else trace
  (passes.traceAfter trace).logAll (warnings.map .warning)

/-- The analysis and the lines that the passes lead to. -/
def assemble (settings : Settings) (app : App) (passes : Passes) : Analysis × List Line :=
  let warnings := warnings app passes.locations passes.plan.freeQueues
  (ofFindings app passes.findings
    { passes.ledger with trace := traceOf settings passes warnings },
    warnings.map (⟨.warning, ·⟩) ++ summary app passes.findings)

/-! ## Passes that always succeed -/

def ownershipsOf (app : App) : Ownerships × Ledger :=
  app.accesses.foldl (Ownerships.take app) (∅, .start true)

def locationsOf (app : App) (late : LatePartition) : Locations :=
  (app.accesses.foldl Locations.take ∅).mapRows (Location.settle late)

def safetyOf (app : App) (late : LatePartition) : Ledger :=
  ((ownershipsOf app).2.withoutEntries.requireLateResources app (ownershipsOf app).1
    (locationsOf app late)).requireInitResources app (ownershipsOf app).1

theorem ofAccesses_ownerships (app : App) :
    Ownerships.ofAccesses app app.accesses (.start true) = .ok (ownershipsOf app) :=
  Ownerships.ofAccesses_eq_ok fun _ member _ => App.priority_nonneg_of_mem_accesses member

theorem ofAccesses_locations (app : App) (late : LatePartition) :
    Locations.ofAccesses app.accesses late = .ok (locationsOf app late) :=
  Locations.ofAccesses_eq_ok fun _ => App.core_nonneg_of_mem_accesses

def passesOf (app : App) (late : LatePartition) (timer : TimerQueue × Ledger)
    (planned : ChannelPlan × Ledger) : Passes where
  late := late
  ownerships := (ownershipsOf app).1
  locations := locationsOf app late
  ownershipEntries := (ownershipsOf app).2.entries
  safetyEntries := (safetyOf app late).entries
  timerQueue := timer.1
  timerEntries := timer.2.entries
  plan := planned.1
  ledger := planned.2

theorem runPasses_eq (app : App) :
    runPasses app =
      LatePartition.ofApp app >>= fun late =>
        TimerQueue.ofMessages app app.scheduled (safetyOf app late).withoutEntries >>=
          fun timer =>
            ChannelPlan.ofMessages app app.spawned app.scheduled timer.1
                timer.2.withoutEntries >>= fun planned =>
              pure (passesOf app late timer planned) := by
  unfold runPasses
  simp only [ofAccesses_ownerships, ofAccesses_locations]
  rfl

/-! ## Outcomes -/

def undeclaredReceiver? (app : App) (messages : List Message) : Option String :=
  (messages.map Message.receiver).find? fun name => name ∉ app.softwareTasks.keys

/-- Why the passes over an application fail, if they do.  All scheduled messages are read
before the spawned ones. -/
def passFailure? (app : App) : Option Failure :=
  if app.lateResources.rows ≠ [] ∧ 1 < app.restCores.length then some .severalRests
  else ((undeclaredReceiver? app app.scheduled).or
    (undeclaredReceiver? app app.spawned)).map .undeclaredTask

theorem exists_of_undeclaredReceiver? {app : App} {messages : List Message} {name : String}
    (found : undeclaredReceiver? app messages = some name) :
    ∃ message, messages.find? (fun message =>
        message.receiver ∉ app.softwareTasks.keys) = some message ∧
      message.receiver = name := by
  unfold undeclaredReceiver? at found
  rw [List.find?_map] at found
  exact Option.map_eq_some_iff.mp found

theorem undeclaredReceiver?_eq_none_iff {app : App} {messages : List Message} :
    undeclaredReceiver? app messages = none ↔
      ∀ message ∈ messages, message.receiver ∈ app.softwareTasks.keys := by
  simp [undeclaredReceiver?, List.find?_eq_none]

/-- With a partition and all receivers declared, no pass fails, and the types that have to be
safe to transfer come from resources and from messages. -/
theorem runPasses_eq_ok {app : App} {late : LatePartition}
    (hlate : LatePartition.ofApp app = .ok late)
    (hscheduled : ∀ message ∈ app.scheduled, message.receiver ∈ app.softwareTasks.keys)
    (hspawned : ∀ message ∈ app.spawned, message.receiver ∈ app.softwareTasks.keys) :
    ∃ passes, runPasses app = .ok passes ∧
      ∀ ty, ty ∈ passes.ledger.transfer ↔ ty ∈ (safetyOf app late).transfer ∨
        ∃ message ∈ app.spawned ++ app.scheduled, message.Moves app ty := by
  obtain ⟨queue, timed, hqueue, htimed⟩ :=
    TimerQueue.ofMessages_eq_ok (safetyOf app late).withoutEntries hscheduled
  obtain ⟨plan, ledger, hplan, hledger⟩ :=
    ChannelPlan.ofMessages_eq_ok queue timed.withoutEntries hspawned hscheduled
  refine ⟨passesOf app late (queue, timed) (plan, ledger), ?_, fun ty => ?_⟩
  · rw [runPasses_eq, bind_of_ok hlate, bind_of_ok hqueue, bind_of_ok hplan]
    rfl
  · change ty ∈ ledger.transfer ↔ _
    rw [hledger]
    change ty ∈ timed.transfer ∨ _ ↔ _
    rw [htimed]
    change (ty ∈ (safetyOf app late).transfer ∨ _) ∨ _ ↔ _
    simp only [List.mem_append, or_and_right, exists_or]
    rw [or_assoc, or_comm (a := ∃ message, message ∈ app.scheduled ∧ _)]

theorem runPasses_of_undeclared_schedule {app : App} {late : LatePartition} {name : String}
    (hlate : LatePartition.ofApp app = .ok late)
    (found : undeclaredReceiver? app app.scheduled = some name) :
    runPasses app = .error (.undeclaredTask name) := by
  obtain ⟨message, hmessage, rfl⟩ := exists_of_undeclaredReceiver? found
  rw [runPasses_eq, bind_of_ok hlate]
  exact bind_of_error (TimerQueue.ofMessages_eq_error _ hmessage) _

theorem runPasses_of_undeclared_spawn {app : App} {late : LatePartition} {name : String}
    (hlate : LatePartition.ofApp app = .ok late)
    (hscheduled : undeclaredReceiver? app app.scheduled = none)
    (found : undeclaredReceiver? app app.spawned = some name) :
    runPasses app = .error (.undeclaredTask name) := by
  obtain ⟨message, hmessage, rfl⟩ := exists_of_undeclaredReceiver? found
  obtain ⟨queue, timed, hqueue, -⟩ := TimerQueue.ofMessages_eq_ok
    (safetyOf app late).withoutEntries (undeclaredReceiver?_eq_none_iff.mp hscheduled)
  rw [runPasses_eq, bind_of_ok hlate, bind_of_ok hqueue]
  exact bind_of_error (ChannelPlan.ofMessages_eq_error _ _ _ hmessage) _

theorem runPasses_of_passFailure? {app : App} {failure : Failure}
    (found : passFailure? app = some failure) : runPasses app = .error failure := by
  unfold passFailure? at found
  split at found
  · rename_i several
    cases found
    rw [runPasses_eq]
    exact bind_of_error (LatePartition.ofApp_eq_error several.1 several.2) _
  · rename_i few
    obtain ⟨name, hname, rfl⟩ := Option.map_eq_some_iff.mp found
    obtain ⟨late, hlate⟩ := LatePartition.exists_ofApp few
    cases hscheduled : undeclaredReceiver? app app.scheduled with
    | some first =>
        rw [hscheduled] at hname
        cases hname
        exact runPasses_of_undeclared_schedule hlate hscheduled
    | none =>
        rw [hscheduled, Option.none_or] at hname
        exact runPasses_of_undeclared_spawn hlate hscheduled hname

theorem exists_runPasses {app : App} (none : passFailure? app = none) :
    ∃ passes, runPasses app = .ok passes := by
  unfold passFailure? at none
  split at none
  · cases none
  · rename_i few
    rw [Option.map_eq_none_iff, Option.or_eq_none_iff] at none
    obtain ⟨late, hlate⟩ := LatePartition.exists_ofApp few
    obtain ⟨passes, hpasses, -⟩ := runPasses_eq_ok hlate
      (undeclaredReceiver?_eq_none_iff.mp none.1) (undeclaredReceiver?_eq_none_iff.mp none.2)
    exact ⟨passes, hpasses⟩

theorem ownerships_of_runPasses {app : App} {passes : Passes} (h : runPasses app = .ok passes) :
    passes.ownerships = (ownershipsOf app).1 := by
  rw [runPasses_eq] at h
  obtain ⟨late, -, h⟩ := bind_eq_ok_iff.mp h
  obtain ⟨timer, -, h⟩ := bind_eq_ok_iff.mp h
  obtain ⟨planned, -, h⟩ := bind_eq_ok_iff.mp h
  cases h
  rfl

end Analysis

end StackPolicy
