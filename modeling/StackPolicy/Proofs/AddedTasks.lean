import StackPolicy.Proofs.GrownPlans

/-!
# Added tasks never weaken an analysis

With more tasks every obligation, lock and barrier stays, and no ownership,
ceiling or capacity falls.
-/

namespace StackPolicy

/-! ## One more task -/

theorem Table.sublist_writeRow {Key Item : Type} [DecidableEq Key] {rows : List (Key × Item)}
    {key : Key} (fresh : key ∉ rows.map Prod.fst) (item : Item) :
    rows.Sublist (writeRow key item rows) := by
  rw [writeRow_of_fresh fresh]
  exact List.sublist_append_left rows _

namespace App

/-- One more task of a name that no other task of its kind has. -/
inductive GainsTask (app : App) : App → Prop where
  | hardware {name : String} (fresh : name ∉ app.hardwareTasks.keys) (task : HardwareTask) :
      GainsTask app { app with hardwareTasks := app.hardwareTasks.insert name task }
  | software {name : String} (fresh : name ∉ app.softwareTasks.keys) (task : SoftwareTask) :
      GainsTask app { app with softwareTasks := app.softwareTasks.insert name task }

theorem GainsTask.grows {app grown : App} (h : app.GainsTask grown) : app.Grows grown := by
  cases h with
  | hardware fresh task =>
      exact ⟨rfl, rfl, rfl, rfl, Table.sublist_writeRow fresh task, .refl _⟩
  | software fresh task =>
      exact ⟨rfl, rfl, rfl, rfl, .refl _, Table.sublist_writeRow fresh task⟩

end App

namespace Analysis

/-! ## Analyses that are at most others -/

/-- Another analysis asks for all that an analysis asks for, and nothing in it is lower. -/
structure AtMost (analysis other : Analysis) : Prop where
  transferSafe : analysis.transferSafe.Within other.transferSafe
  concurrentReadSafe : analysis.concurrentReadSafe.Within other.concurrentReadSafe
  ownerships : analysis.ownerships.AtMost Ownership.AtMost other.ownerships
  needsLock : ∀ name priority, analysis.needsLock name priority = .ok true →
    other.needsLock name priority = .ok true
  channels : analysis.channels.AtMost Channel.AtMost other.channels
  freeQueues : analysis.freeQueues.AtMost (fun ceiling other => ceiling ≤ other)
    other.freeQueues
  timerQueue : analysis.timerQueue.AtMost other.timerQueue
  initializationBarriers : analysis.initializationBarriers.AtMost SortedSet.Within
    other.initializationBarriers
  spawnBarriers : ∀ receiver sender flag,
    analysis.spawnBarriers.flag? receiver sender = some flag →
      ∃ raised, other.spawnBarriers.flag? receiver sender = some raised

theorem needsLock_of_ownerships {analysis other : Analysis}
    (h : analysis.ownerships.AtMost Ownership.AtMost other.ownerships) {name : String}
    {priority : Int} (locks : analysis.needsLock name priority = .ok true) :
    other.needsLock name priority = .ok true := by
  cases found : analysis.ownerships.get? name with
  | none =>
      unfold Analysis.needsLock at locks
      rw [found] at locks
      cases locks
  | some ownership =>
      obtain ⟨raised, hraised, hatMost⟩ := h name ownership found
      rw [needsLock_of_get? found] at locks
      rw [needsLock_of_get? hraised]
      exact hatMost.needsLock locks

section Derived

variable {app grown : App} (h : app.Grows grown) {late : LatePartition}
  {timer raised : TimerQueue × Ledger} {planned others : ChannelPlan × Ledger}
  (derives : Derives app late timer planned) (again : Derives grown late raised others)
  (sound : app.Sound) (grownSound : grown.Sound)

include h derives again sound grownSound

theorem Derives.transfer_within : planned.2.transfer.Within others.2.transfer := by
  intro ty member
  rw [derives.mem_transfer_iff sound] at member
  rw [again.mem_transfer_iff grownSound]
  exact member.imp h.transferByLate (Or.imp h.transferByInit h.transferByMessage)

theorem Derives.concurrentRead_within (clean : app.Unclashing) (grownClean : grown.Unclashing) :
    planned.2.concurrentRead.Within others.2.concurrentRead := by
  intro ty member
  rw [derives.mem_concurrentRead_iff sound clean] at member
  rw [again.mem_concurrentRead_iff grownSound grownClean]
  exact h.readersDiffer member

theorem Derives.timerQueue_atMost : timer.1.AtMost raised.1 :=
  (derives.describes_timerQueue sound).atMost h (again.describes_timerQueue grownSound)

end Derived

/-! ## Runs -/

/-- With more tasks an analysis is at least what it was. -/
theorem atMost_of_grows {app grown : App} (grows : app.Grows grown) (h : app.violations = [])
    (clean : grown.violations = []) (settings : Settings) :
    ∃ analysis lines other reports,
      run { settings with optimizePriorities := false } app = .ok (analysis, lines) ∧
      run { settings with optimizePriorities := false } grown = .ok (other, reports) ∧
      analysis.AtMost other := by
  obtain ⟨hsound, hclash⟩ := App.violations_eq_nil_iff.mp h
  obtain ⟨hgrown, hapart⟩ := App.violations_eq_nil_iff.mp clean
  obtain ⟨late, timer, planned, hderives⟩ := exists_derives hsound
  obtain ⟨again, raised, others, hagain⟩ := exists_derives hgrown
  obtain rfl : again = late :=
    Except.ok.inj (hagain.late_eq.symm.trans (grows.ofApp_eq.trans hderives.late_eq))
  have htimer := hderives.timerQueue_atMost grows hagain hsound hgrown
  have hrequests := ChannelPlan.exists_request grows htimer.priority
  have hplan := hderives.describes hsound
  have hother := hagain.describes hgrown
  refine ⟨_, _, _, _, hderives.run_plain h settings, hagain.run_plain clean settings, ?_⟩
  constructor
  · exact hderives.transfer_within grows hagain hsound hgrown
  · exact hderives.concurrentRead_within grows hagain hsound hgrown hclash hapart
  · exact grows.ownerships
  · exact fun name priority locks => needsLock_of_ownerships grows.ownerships locks
  · exact hplan.channels_atMost grows hrequests hother
  · exact hplan.freeQueues_atMost hrequests hother
  · exact htimer
  · exact grows.initializationBarriers again
  · exact fun receiver sender flag found => hplan.exists_flag grows hrequests hother found

/-- A single core, on which a task starts another one that writes the log. -/
def logging : App :=
  { App.idling (.after 0) [("log", ⟨"Log", some "0"⟩)] with
    hardwareTasks := .ofList
      [("uart", (Routine.exclusive 0 ["log"] ["write"] []).hardware "UART0" (.after 1))]
    softwareTasks := .ofList
      [("write", (Routine.exclusive 0 ["log"] [] []).software (.after 0) (.after 3) ["Line"])] }

/-- A second software task takes the log at a higher priority, and schedules the first one. -/
def archiving : App :=
  { logging with
    softwareTasks := logging.softwareTasks.insert "archive"
      ((Routine.exclusive 0 ["log"] [] ["write"]).software (.after 4) (.after 0) []) }

theorem gainsTask_logging : logging.GainsTask archiving := .software (by decide) _

theorem atMost_archiving :
    logging.Grows archiving ∧ logging.violations = [] ∧ archiving.violations = [] ∧
      ∃ analysis lines other reports,
        run ⟨false, true, true⟩ logging = .ok (analysis, lines) ∧
        run ⟨false, true, true⟩ archiving = .ok (other, reports) ∧ analysis.AtMost other := by
  have hclean : logging.violations = [] := by decide +kernel
  have hagain : archiving.violations = [] := by decide +kernel
  obtain ⟨analysis, lines, other, reports, hrun, hother, hatMost⟩ :=
    atMost_of_grows gainsTask_logging.grows hclean hagain ⟨false, true, true⟩
  exact ⟨gainsTask_logging.grows, hclean, hagain, analysis, lines, other, reports, hrun, hother,
    hatMost⟩

end Analysis

end StackPolicy
