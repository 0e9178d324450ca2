import StackPolicy.Analysis
import StackPolicy.Compression
import StackPolicy.Settings

/-!
# The analysis

An analysis runs its passes in a fixed order: it checks the guarantees and
compresses priorities if the settings ask for it, assigns the late resources,
derives ownerships and locations, lays the obligations on types, and plans the
timer queue and then the channels, whose ceilings depend on it.  All passes
share one ledger, and each is a phase of its trace.
-/

namespace StackPolicy

/-- A part of an analysis, which may fail and writes to the ledger of the analysis. -/
abbrev Pass := StateT Ledger (Except Failure)

def Pass.inPhase {Result : Type} (name detail : String) (pass : Pass Result) :
    Pass Result := do
  modify (·.startPhase name detail)
  let result ← pass
  modify (·.endPhase)
  pure result

namespace Analysis

open Pass

/-! ## Passes -/

def checkGuarantees (app : App) : Except Failure Unit :=
  if app.violations.isEmpty then .ok () else .error (.violated app.violations)

/-- The application that is analysed. -/
def prepare (settings : Settings) (app : App) : Except Failure App :=
  if settings.optimizePriorities then app.compress else .ok app

def runCheck (settings : Settings) (app : App) : Pass Unit :=
  if settings.checkGuarantees then
    inPhase "Preconditions" "Checking validator guarantees" (checkGuarantees app)
  else pure ()

def runPreparation (settings : Settings) (app : App) : Pass App :=
  if settings.optimizePriorities then
    inPhase "Priority Compression" "Removing gaps between task priorities" (prepare settings app)
  else prepare settings app

def assignLate (app : App) : Pass LatePartition :=
  inPhase "Late Partition" "Assigning late resources to init routines" (LatePartition.ofApp app)

def foldAccesses (app : App) (late : LatePartition) : Pass (Ownerships × Locations) :=
  inPhase "Ownership" "Computing ceilings and locations" do
    let ownerships ← Ownerships.ofAccesses app app.accesses
    let locations ← Locations.ofAccesses app.accesses late
    pure (ownerships, locations)

def classifyResources (app : App) (ownerships : Ownerships) (locations : Locations) :
    Pass Unit :=
  inPhase "Resource Safety" "Classifying late and init-shared resources" do
    modify (·.requireLateResources app ownerships locations)
    modify (·.requireInitResources app ownerships)

def buildTimerQueue (app : App) : Pass TimerQueue :=
  inPhase "Timer Queue" "Folding schedule edges" (TimerQueue.ofMessages app app.scheduled)

def planChannels (app : App) (timerQueue : TimerQueue) : Pass ChannelPlan :=
  inPhase "Channels" "Folding spawn and schedule edges"
    (ChannelPlan.ofMessages app app.spawned app.scheduled timerQueue)

/-- What the passes find out about an application, in their order. -/
structure Findings where
  late : LatePartition
  ownerships : Ownerships
  locations : Locations
  timerQueue : TimerQueue
  plan : ChannelPlan

def findings (app : App) : Pass Findings := do
  let late ← assignLate app
  let (ownerships, locations) ← foldAccesses app late
  classifyResources app ownerships locations
  let timerQueue ← buildTimerQueue app
  let plan ← planChannels app timerQueue
  pure { late, ownerships, locations, timerQueue, plan }

/-! ## Reports -/

/-- Declared resources that nobody accesses, and tasks that nobody sends messages to. -/
def warnings (app : App) (locations : Locations) (freeQueues : FreeQueues) : List String :=
  ((app.resources.keys.filter fun name => !locations.contains name).map fun name =>
      "resource '" ++ name ++ "' is never accessed") ++
    ((app.softwareTasks.keys.filter fun name => !freeQueues.contains name).map fun name =>
      "software task '" ++ name ++ "' is never spawned nor scheduled")

def summary (app : App) (findings : Findings) : List Line :=
  let contended := (findings.ownerships.values.filter Ownership.isContended).length
  [⟨.info, "Analysed " ++ toString app.hardwareTasks.size ++ " hardware and " ++
      toString app.softwareTasks.size ++ " software task(s) on " ++
      toString app.usedCores.size ++ " core(s)"⟩,
    ⟨.success, toString contended ++ " contended resource(s), " ++
      toString findings.plan.channels.size ++ " channel(s), timer queue " ++
      (if findings.timerQueue.isUsed then "used" else "unused")⟩]

def ofFindings (app : App) (findings : Findings) (ledger : Ledger) : Analysis :=
  { usedCores := app.usedCores.toList
    lateResources := findings.late
    ownerships := findings.ownerships
    locations := findings.locations
    channels := findings.plan.channels
    freeQueues := findings.plan.freeQueues
    timerQueue := findings.timerQueue
    transferSafe := ledger.transfer
    concurrentReadSafe := ledger.concurrentRead
    initializationBarriers := Barriers.ofAccesses app.accesses findings.late
    spawnBarriers := findings.plan.spawnBarriers
    taskPriorities := app.taskPriorities
    trace := ledger.trace.events }

/-! ## Runs -/

/-- Analyses an application, with its result and the lines to be shown about it. -/
def analyse (settings : Settings) (app : App) : Pass (Analysis × List Line) := do
  runCheck settings app
  let app ← runPreparation settings app
  let findings ← findings app
  let warnings := warnings app findings.locations findings.plan.freeQueues
  modify (·.noteAll (warnings.map .warning))
  pure (ofFindings app findings (← get),
    warnings.map (⟨.warning, ·⟩) ++ summary app findings)

/-- The result of analysing an application, and the lines that are then to be shown. -/
def run (settings : Settings) (app : App) : Except Failure (Analysis × List Line) :=
  (analyse settings app).run' (.start settings.trace)

end Analysis

/-! ## Engines -/

/-- An engine shows on its console what it reports.  It can be used again. -/
structure Engine where
  settings : Settings
  markup : Markup

/-- Runs an engine on an application.  The lines that were shown come with the outcome: a
line that the console cannot read ends the run. -/
def Engine.run (engine : Engine) (app : App) : List Line × Except Failure Analysis :=
  match Analysis.run engine.settings app with
  | .error failure => ([], .error failure)
  | .ok (analysis, lines) =>
      let (shown, outcome) := engine.markup.displayAll lines
      (shown, outcome.map fun () => analysis)

/-- Runs an engine with the settings that hold for a folder. -/
def Loader.analyse (loader : Loader) (project : Project) (folder : List String)
    (overrides : Toml.Members) (app : App) : List Line × Except Failure Analysis :=
  match loader.load project folder overrides with
  | (lines, .error failure) => (lines, .error failure)
  | (lines, .ok settings) =>
      let (shown, outcome) := Engine.run ⟨settings, loader.markup⟩ app
      (lines ++ shown, outcome)

end StackPolicy
