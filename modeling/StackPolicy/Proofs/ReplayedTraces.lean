import StackPolicy.Proofs.Histories
import StackPolicy.Proofs.RunResults
import StackPolicy.Proofs.TraceEntries

/-!
# The trace of a run leads to its result

What the trace tells about ownerships, obligations and ceilings leads to the
ownerships, types and ceilings of the result, whether or not the application
keeps its guarantees.
-/

namespace StackPolicy

namespace Entry

theorem skipsFrame_change? (resource : String) : SkipsFrame (change? resource) :=
  ⟨fun _ _ => rfl, rfl, fun _ => rfl⟩

theorem skipsFrame_obligated? (obligation : Obligation) : SkipsFrame (obligated? obligation) :=
  ⟨fun _ _ => rfl, rfl, fun _ => rfl⟩

theorem skipsFrame_obligationLabel? : SkipsFrame obligationLabel? :=
  ⟨fun _ _ => rfl, rfl, fun _ => rfl⟩

theorem skipsFrame_update? (queue field : String) : SkipsFrame (update? queue field) :=
  ⟨fun _ _ => rfl, rfl, fun _ => rfl⟩

/-- Whether what the passes note is passed over. -/
structure SkipsPasses {Read : Type} (read : Entry → Option Read) : Prop where
  ownershipChange : ∀ resource before after, read (.ownershipChange resource before after) = none
  safetyObligation : ∀ ty label reason, read (.safetyObligation ty label reason) = none
  queueUpdate : ∀ queue field value, read (.queueUpdate queue field value) = none

theorem SkipsPasses.of_isChange {Read : Type} {read : Entry → Option Read}
    (skips : SkipsPasses read) {entry : Entry} (change : entry.IsChange) : read entry = none := by
  cases entry with
  | ownershipChange resource before after => exact skips.ownershipChange resource before after
  | _ => exact change.elim

theorem SkipsPasses.of_updates {Read : Type} {read : Entry → Option Read}
    (skips : SkipsPasses read) {entry : Entry} {queue : String} (update : entry.Updates queue) :
    read entry = none := by
  cases entry with
  | queueUpdate queue field value => exact skips.queueUpdate queue field value
  | _ => exact update.elim

end Entry

theorem ChannelPlanner.Recounted.channel_finished {planner : ChannelPlanner}
    (h : planner.Recounted) (key : Int) :
    RisesTo (channelName key) planner.ledger.entries
      ((planner.finished.channels.get? key).bind Channel.ceiling) := by
  have hdraft := h.channels key
  rw [draftAt] at hdraft
  rw [get?_channels_finished]
  cases found : planner.channels.get? key with
  | none =>
      rw [found] at hdraft
      exact hdraft
  | some channel =>
      rw [found] at hdraft
      exact hdraft

namespace Analysis

open ChannelPlanner

/-! ## The result that a trace leads to -/

/-- The changes of the ownership of a resource, in their order. -/
def changes (analysis : Analysis) (resource : String) : List (Option String × String) :=
  analysis.entries.filterMap (Entry.change? resource)

def typesWith (analysis : Analysis) : Obligation → SortedSet String
  | .transfer => analysis.transferSafe
  | .concurrentRead => analysis.concurrentReadSafe

/-- The trace of an analysis leads to its result. -/
structure Replays (analysis : Analysis) : Prop where
  changes_follow : ∀ resource, Follows none (analysis.changes resource)
  changes_end : ∀ resource, lastOf (analysis.changes resource) =
    (analysis.ownerships.get? resource).map Ownership.text
  changed_iff : ∀ resource, analysis.changes resource ≠ [] ↔
    resource ∈ analysis.ownerships.keys
  noted_once : ∀ obligation,
    Ledger.NotedOnce analysis.entries obligation (analysis.typesWith obligation)
  labelled : ∀ label ∈ analysis.entries.filterMap Entry.obligationLabel?,
    ∃ obligation : Obligation, label = obligation.label
  channels_rise : ∀ key, RisesTo (channelName key) analysis.entries
    ((analysis.channels.get? key).bind Channel.ceiling)
  freeQueues_rise : ∀ task, RisesTo (freeQueueName task) analysis.entries
    ((analysis.freeQueues.get? task).getD none)

theorem lastOf_eq_none_iff {changes : List (Option String × String)} :
    lastOf changes = none ↔ changes = [] := by
  rw [lastOf, Option.map_eq_none_iff, List.getLast?_eq_none_iff]

/-! ## Passes -/

section Passes

variable {graph : App} {late : LatePartition} {timer : TimerQueue × Ledger}
  {planned : ChannelPlan × Ledger}

theorem entries_passesOf (graph : App) (late : LatePartition) (timer : TimerQueue × Ledger)
    (planned : ChannelPlan × Ledger) :
    (passesOf graph late timer planned).entries =
      (ownershipsOf graph).2.entries ++ (safetyOf graph late).entries ++ timer.2.entries ++
        planned.2.entries := rfl

theorem writes_ownershipsOf (graph : App) :
    Ledger.Writes Entry.IsChange (.start true) (ownershipsOf graph).2 :=
  Ownerships.writes_foldl_take graph graph.accesses (∅, .start true)

theorem recounts_ownershipsOf (graph : App) :
    Recounts (ownershipsOf graph).2.entries (ownershipsOf graph).1 :=
  Ownerships.recounts_foldl_take rfl (Ownerships.recounts_start true) graph.accesses

theorem writes_safetyOf (graph : App) (late : LatePartition) :
    Ledger.Writes (fun _ => False) (ownershipsOf graph).2.withoutEntries (safetyOf graph late) :=
  (Ledger.writes_requireLateResources graph _ _ _).trans
    (Ledger.writes_requireInitResources graph _ _)

variable (derives : Derives graph late timer planned)

include derives

theorem Derives.writes_timer :
    Ledger.Writes (Entry.Updates "timer_queue") (safetyOf graph late).withoutEntries timer.2 := by
  obtain ⟨deliveries, -, -, hledger⟩ := TimerQueue.exists_draft derives.timer_eq
  rw [hledger]
  exact Ledger.writes_foldl TimerQueue.Draft.ledger TimerQueue.Draft.writes_add deliveries
    (TimerQueue.Draft.start (safetyOf graph late).withoutEntries)

/-- Only the last pass tells of the ceilings of channels and free queues. -/
theorem Derives.filterMap_update? {queue : String} (other : "timer_queue" ≠ queue) :
    (passesOf graph late timer planned).entries.filterMap (Entry.update? queue "ceiling") =
      planned.2.entries.filterMap (Entry.update? queue "ceiling") := by
  have hownerships := (writes_ownershipsOf graph).filterMap_entries (Entry.update? queue "ceiling")
    (fun _ hchange => Entry.update?_of_isChange hchange queue "ceiling") fun _ _ _ => rfl
  have hsafety := (writes_safetyOf graph late).filterMap_entries (Entry.update? queue "ceiling")
    (fun _ => False.elim) fun _ _ _ => rfl
  have htimer := derives.writes_timer.filterMap_entries (Entry.update? queue "ceiling")
    (fun _ hupdate => Entry.update?_of_updates hupdate other "ceiling") fun _ _ _ => rfl
  rw [entries_passesOf]
  simp only [List.filterMap_append, hownerships, hsafety, htimer]
  simp

variable (declared : ∀ message ∈ graph.spawned ++ graph.scheduled,
  message.receiver ∈ graph.softwareTasks.keys)

include declared

theorem Derives.writes_planned : Ledger.Writes IsUpdate timer.2.withoutEntries planned.2 := by
  have hplanned := derives.planned_eq
  rw [ChannelPlan.ofMessages_eq_finished declared] at hplanned
  cases hplanned
  exact Ledger.writes_foldl ChannelPlanner.ledger writes_attempt _
    (start graph timer.2.withoutEntries)

/-- The passes note changes, obligations and updates, and nothing else. -/
theorem Derives.filterMap_entries_eq_nil {Read : Type} {read : Entry → Option Read}
    (skips : Entry.SkipsPasses read) :
    (passesOf graph late timer planned).entries.filterMap read = [] := by
  have hobligations : ∀ ty label reason, read (.safetyObligation ty label reason) = none :=
    skips.safetyObligation
  have hownerships := (writes_ownershipsOf graph).filterMap_entries read
    (fun _ => skips.of_isChange) hobligations
  have hsafety := (writes_safetyOf graph late).filterMap_entries read (fun _ => False.elim)
    hobligations
  have htimer := derives.writes_timer.filterMap_entries read
    (fun _ => skips.of_updates) hobligations
  have hplanned := (derives.writes_planned declared).filterMap_entries read
    (fun _ hupdate => skips.of_updates hupdate.choose_spec) hobligations
  rw [entries_passesOf]
  simp only [List.filterMap_append, hownerships, hsafety, htimer, hplanned]
  simp

/-- Every pass hands its account to the next one. -/
theorem Derives.accounts :
    planned.2.Accounts ((ownershipsOf graph).2.entries ++ (safetyOf graph late).entries ++
      timer.2.entries) := by
  have hownerships := Ledger.accounts_start.writes (writes_ownershipsOf graph)
    fun _ => Entry.obligationLabel?_of_isChange
  have hsafety := hownerships.withoutEntries.writes (writes_safetyOf graph late)
    fun _ => False.elim
  have htimer := hsafety.withoutEntries.writes derives.writes_timer
    fun _ => Entry.obligationLabel?_of_updates
  have hplanned := htimer.withoutEntries.writes (derives.writes_planned declared)
    fun _ hupdate => Entry.obligationLabel?_of_updates hupdate.choose_spec
  exact hplanned

theorem Derives.filterMap_change? (resource : String) :
    (passesOf graph late timer planned).entries.filterMap (Entry.change? resource) =
      (ownershipsOf graph).2.entries.filterMap (Entry.change? resource) := by
  have hsafety := (writes_safetyOf graph late).filterMap_entries (Entry.change? resource)
    (fun _ => False.elim) fun _ _ _ => rfl
  have htimer := derives.writes_timer.filterMap_entries (Entry.change? resource)
    (fun _ hupdate => Entry.change?_of_updates hupdate resource)
    fun _ _ _ => rfl
  have hplanned := (derives.writes_planned declared).filterMap_entries (Entry.change? resource)
    (fun _ hupdate => Entry.change?_of_updates hupdate.choose_spec resource) fun _ _ _ => rfl
  rw [entries_passesOf]
  simp only [List.filterMap_append, hsafety, htimer, hplanned]
  simp

theorem Derives.ceilings_rise :
    (∀ key, RisesTo (channelName key) planned.2.entries
      ((planned.1.channels.get? key).bind Channel.ceiling)) ∧
    ∀ task, RisesTo (freeQueueName task) planned.2.entries
      ((planned.1.freeQueues.get? task).getD none) := by
  have hstart := @recounted_start graph timer.2.withoutEntries rfl rfl
  have hrecounted :=
    hstart.foldl_attempt (ChannelPlan.requests graph.spawned graph.scheduled timer.1)
  have hplanned := derives.planned_eq
  rw [ChannelPlan.ofMessages_eq_finished declared] at hplanned
  cases hplanned
  exact ⟨hrecounted.channel_finished, hrecounted.freeQueues⟩

theorem Derives.replays {settings : Settings} (traced : settings.trace = true) :
    (assemble settings graph (passesOf graph late timer planned)).1.Replays := by
  have hchanges (resource : String) :
      changes (assemble settings graph (passesOf graph late timer planned)).1 resource =
        (ownershipsOf graph).2.entries.filterMap (Entry.change? resource) :=
    (filterMap_entries_assemble (Entry.skipsFrame_change? resource) traced _ _).trans
      (derives.filterMap_change? declared resource)
  have hceilings {queue : String} (other : "timer_queue" ≠ queue) :
      (assemble settings graph (passesOf graph late timer planned)).1.entries.filterMap
        (Entry.update? queue "ceiling") =
          planned.2.entries.filterMap (Entry.update? queue "ceiling") :=
    (filterMap_entries_assemble (Entry.skipsFrame_update? queue "ceiling") traced _ _).trans
      (derives.filterMap_update? other)
  have haccounts := derives.accounts declared
  obtain ⟨hchannels, hfreeQueues⟩ := derives.ceilings_rise declared
  have hrecounts := recounts_ownershipsOf graph
  have hlast (resource : String) :
      lastOf (changes (assemble settings graph (passesOf graph late timer planned)).1 resource) =
        ((ownershipsOf graph).1.get? resource).map Ownership.text := by
    rw [hchanges]
    exact (hrecounts resource).2
  constructor
  · intro resource
    rw [hchanges]
    exact (hrecounts resource).1
  · exact hlast
  · intro resource
    rw [ne_eq, ← lastOf_eq_none_iff, hlast, Option.map_eq_none_iff, Table.get?_eq_none_iff,
      Decidable.not_not]
    exact Iff.rfl
  · intro obligation
    unfold Ledger.NotedOnce
    rw [filterMap_entries_assemble (Entry.skipsFrame_obligated? obligation) traced]
    have hnoted := haccounts.noted obligation
    cases obligation <;> exact hnoted
  · rw [filterMap_entries_assemble Entry.skipsFrame_obligationLabel? traced]
    exact haccounts.labelled
  · exact fun key => (hchannels key).of_filterMap_eq (hceilings (timerQueue_ne_channelName key))
  · exact fun task =>
      (hfreeQueues task).of_filterMap_eq (hceilings (timerQueue_ne_freeQueueName task))

end Passes

/-! ## Runs -/

/-- A run that succeeds derives its result from an application with all receivers declared. -/
theorem exists_derives_of_run {settings : Settings} {app : App} {analysis : Analysis}
    {lines : List Line} (h : run settings app = .ok (analysis, lines)) :
    ∃ graph late timer planned, Derives graph late timer planned ∧
      (∀ message ∈ graph.spawned ++ graph.scheduled,
        message.receiver ∈ graph.softwareTasks.keys) ∧
      assemble settings graph (passesOf graph late timer planned) = (analysis, lines) := by
  obtain ⟨-, hdeclared, late, timer, planned, hderives, hassemble⟩ := exists_derives_prepared h
  exact ⟨_, late, timer, planned, hderives, hdeclared, hassemble⟩

/-- Every run that writes a trace can be replayed from it. -/
theorem replays_of_run {settings : Settings} {app : App} {analysis : Analysis}
    {lines : List Line} (traced : settings.trace = true)
    (h : run settings app = .ok (analysis, lines)) : analysis.Replays := by
  obtain ⟨graph, late, timer, planned, hderives, hdeclared, hassemble⟩ := exists_derives_of_run h
  have hreplays := hderives.replays hdeclared traced
  rwa [hassemble] at hreplays

theorem replays_pipeline :
    App.pipeline.violations = [] ∧ ∃ analysis lines,
      run ⟨false, true, true⟩ App.pipeline = .ok (analysis, lines) ∧ analysis.Replays := by
  have hnone := runFailure?_of_violations App.violations_pipeline ⟨false, true, true⟩
  obtain ⟨⟨analysis, lines⟩, hrun⟩ := exists_run (fun _ => App.violations_pipeline) hnone
  exact ⟨App.violations_pipeline, analysis, lines, hrun, replays_of_run rfl hrun⟩

end Analysis

end StackPolicy
