import StackPolicy.Proofs.Guarantees
import StackPolicy.Proofs.LedgerEntries
import StackPolicy.Proofs.TimerContents
import StackPolicy.Proofs.TraceEntries

/-!
# What the trace tells about the timer queue

The updates that are noted while messages are scheduled lead to the priority of
the timer queue and to the highest priority of its schedulers.  The handler takes
the queue after the last message, and this is not noted, so the trace leads to
the ceiling of the queue only where the schedulers reach the handler.
-/

namespace StackPolicy

/-- A pass adds its entries at the end, its own ones and obligations. -/
theorem Ledger.Writes.exists_entries {Own : Entry → Prop} {ledger written : Ledger}
    (writes : Ledger.Writes Own ledger written) (on : ledger.trace.enabled = true) :
    ∃ added, written.entries = ledger.entries ++ added ∧
      ∀ entry ∈ added, Own entry ∨
        ∃ ty label reason, entry = .safetyObligation ty label reason := by
  induction writes with
  | start => exact ⟨[], (List.append_nil _).symm, nofun⟩
  | @note written before entry own ih =>
      obtain ⟨added, hentries, hadded⟩ := ih
      refine ⟨added ++ [entry], ?_, ?_⟩
      · rw [entries_note (before.enabled_eq.trans on), hentries, List.append_assoc]
      · intro other member
        rcases List.mem_append.mp member with hold | hnew
        · exact hadded other hold
        · exact .inl (List.mem_singleton.mp hnew ▸ own)
  | @require written before obligation ty reason ih =>
      obtain ⟨added, hentries, hadded⟩ := ih
      by_cases present : ty ∈ written.types obligation
      · rw [Ledger.require, if_pos present]
        exact ⟨added, hentries, hadded⟩
      · refine ⟨added ++ [.safetyObligation ty obligation.label reason], ?_, ?_⟩
        · rw [entries_require (before.enabled_eq.trans on) present, hentries, List.append_assoc]
        · intro other member
          rcases List.mem_append.mp member with hold | hnew
          · exact hadded other hold
          · exact .inr ⟨ty, obligation.label, reason, List.mem_singleton.mp hnew⟩

namespace TimerQueue

/-! ## Updates -/

/-- The numbers of a timer queue that its updates change. -/
structure Levels where
  priority : Int
  ceiling : Int
  deriving DecidableEq

def levels (queue : TimerQueue) : Levels := ⟨queue.priority, queue.ceiling⟩

namespace Levels

/-- Carries out an update of the timer queue.  Other entries change nothing. -/
def apply (levels : Levels) : Entry → Levels
  | .queueUpdate queue field (.int value) =>
      if queue = "timer_queue" ∧ field = "priority" then { levels with priority := value }
      else if queue = "timer_queue" ∧ field = "ceiling" then { levels with ceiling := value }
      else levels
  | _ => levels

def replay (levels : Levels) (entries : List Entry) : Levels := entries.foldl apply levels

theorem replay_append (levels : Levels) (entries others : List Entry) :
    levels.replay (entries ++ others) = (levels.replay entries).replay others :=
  List.foldl_append

theorem replay_obligations {entries : List Entry} (levels : Levels)
    (obligations : ∀ entry ∈ entries, ∃ ty label reason,
      entry = .safetyObligation ty label reason) : levels.replay entries = levels := by
  induction entries with
  | nil => rfl
  | cons entry entries ih =>
      obtain ⟨ty, label, reason, rfl⟩ := obligations entry List.mem_cons_self
      exact ih fun other member => obligations other (List.mem_cons_of_mem _ member)

end Levels

/-! ## Drafts -/

def Draft.levels (draft : Draft) : Levels := ⟨draft.priority, draft.ceiling⟩

/-- What is noted between two drafts leads from the levels of the first to those of the second. -/
def Draft.LeadsTo (draft later : Draft) : Prop :=
  later.ledger.trace.enabled = draft.ledger.trace.enabled ∧
    ∃ noted, later.ledger.entries = draft.ledger.entries ++ noted ∧
      draft.levels.replay noted = later.levels

theorem Draft.LeadsTo.refl (draft : Draft) : draft.LeadsTo draft :=
  ⟨rfl, [], (List.append_nil _).symm, rfl⟩

theorem Draft.LeadsTo.trans {draft later last : Draft} (h : draft.LeadsTo later)
    (next : later.LeadsTo last) : draft.LeadsTo last := by
  obtain ⟨henabled, noted, hentries, hlevels⟩ := h
  obtain ⟨hstill, others, hlater, hlast⟩ := next
  refine ⟨hstill.trans henabled, noted ++ others, ?_, ?_⟩
  · rw [hlater, hentries, List.append_assoc]
  · rw [Levels.replay_append, hlevels, hlast]

section Steps

variable {draft : Draft} (on : draft.ledger.trace.enabled = true)

include on

theorem Draft.leadsTo_raisePriority (priority : Int) :
    draft.LeadsTo (draft.raisePriority priority) := by
  unfold raisePriority
  split
  · exact ⟨Ledger.enabled_note _ _, [.queueUpdate "timer_queue" "priority" (.int priority)],
      Ledger.entries_note on _, rfl⟩
  · exact .refl draft

theorem Draft.leadsTo_raiseCeiling (scheduler : Option Int) :
    draft.LeadsTo (draft.raiseCeiling scheduler) := by
  unfold raiseCeiling
  split
  · rename_i priority
    split
    · exact ⟨Ledger.enabled_note _ _, [.queueUpdate "timer_queue" "ceiling" (.int priority)],
        Ledger.entries_note on _, rfl⟩
    · exact .refl draft
  · exact .refl draft

theorem Draft.leadsTo_requireMessage (delivery : Delivery) (verb : String) :
    draft.LeadsTo { draft with ledger := draft.ledger.requireMessage delivery verb } := by
  have hwrites : Ledger.Writes (fun _ => False) draft.ledger
      (draft.ledger.requireMessage delivery verb) := Ledger.writes_requireMessage _ _ _
  obtain ⟨noted, hentries, hnoted⟩ := hwrites.exists_entries on
  exact ⟨hwrites.enabled_eq, noted, hentries,
    Levels.replay_obligations _ fun entry member => (hnoted entry member).resolve_left id⟩

theorem Draft.leadsTo_add (delivery : Delivery) : draft.LeadsTo (draft.add delivery) := by
  have hjoined : draft.LeadsTo { draft with tasks := draft.tasks.insert delivery.receiver } :=
    .refl draft
  have hpriority := hjoined.trans
    (leadsTo_raisePriority (hjoined.1.trans on) delivery.task.priority)
  have hceiling := hpriority.trans
    (leadsTo_raiseCeiling (hpriority.1.trans on) delivery.sender.priority)
  exact hceiling.trans (leadsTo_requireMessage (hceiling.1.trans on) delivery "schedule")

theorem Draft.leadsTo_foldl_add (deliveries : List Delivery) :
    draft.LeadsTo (deliveries.foldl Draft.add draft) := by
  induction deliveries generalizing draft with
  | nil => exact .refl draft
  | cons delivery deliveries ih =>
      have hadded := leadsTo_add on delivery
      exact hadded.trans (ih (hadded.1.trans on))

end Steps

theorem Draft.levels_of_finish {app : App} {draft : Draft} {queue : TimerQueue}
    (h : draft.finish app = .ok queue) :
    queue.levels = ⟨draft.priority, max draft.ceiling draft.priority⟩ := by
  unfold finish at h
  obtain ⟨capacity, -, h⟩ := bind_eq_ok_iff.mp h
  obtain ⟨_, -, h⟩ := bind_eq_ok_iff.mp h
  cases h
  rfl

/-! ## Queues -/

/-- Every task that can be scheduled has the lowest priority, or is at most as urgent as one of
the schedulers. -/
def SchedulersReach (app : App) (scheduled : List Message) : Prop :=
  ∀ message ∈ scheduled, ∀ task, app.softwareTasks.get? message.receiver = some task →
    task.priority ≤ 1 ∨ ∃ other ∈ scheduled, ∃ priority,
      other.sender.priority = some priority ∧ task.priority ≤ priority

theorem Draft.Records.priority_le_ceiling_iff {app : App} {scheduled : List Message}
    {deliveries : List Delivery} {draft : Draft} (h : draft.Records deliveries)
    (declared : ∀ message ∈ scheduled, message.receiver ∈ app.softwareTasks.keys)
    (done : scheduled.mapM (Message.deliver app) = .ok deliveries) :
    draft.priority ≤ draft.ceiling ↔ SchedulersReach app scheduled := by
  have hexists := exists_delivery_iff declared done
  have hsent := exists_declared_iff declared
  rw [h.priority.le_iff h.ceiling]
  simp only [hexists, hsent]
  constructor
  · intro reached message member task found
    obtain ⟨other, rfl | ⟨scheduler, hscheduler, hpriority⟩, hle⟩ :=
      reached task.priority (.inr ⟨message, member, task, found, rfl⟩)
    · exact .inl hle
    · exact .inr ⟨scheduler, hscheduler, other, hpriority, hle⟩
  · rintro reached priority (rfl | ⟨message, member, task, found, rfl⟩)
    · exact ⟨1, .inl rfl, Int.le_refl 1⟩
    · rcases reached message member task found with hle | ⟨other, hother, above, habove, hle⟩
      · exact ⟨1, .inl rfl, hle⟩
      · exact ⟨above, .inr ⟨other, hother, habove⟩, hle⟩

/-- What a trace tells about the timer queue leads to its priority, and to its ceiling if the
priority of the handler is raised to it.  It leads to the ceiling itself exactly if the schedulers
reach all tasks that can be scheduled. -/
theorem replay_eq_levels_iff {app : App} {scheduled : List Message}
    (declared : ∀ message ∈ scheduled, message.receiver ∈ app.softwareTasks.keys)
    {ledger : Ledger} (traced : ledger.trace.enabled = true) :
    ∃ queue timed noted, ofMessages app scheduled ledger = .ok (queue, timed) ∧
      timed.entries = ledger.entries ++ noted ∧
      (Levels.replay ⟨1, 1⟩ noted).priority = queue.priority ∧
      max (Levels.replay ⟨1, 1⟩ noted).ceiling queue.priority = queue.ceiling ∧
      (Levels.replay ⟨1, 1⟩ noted = queue.levels ↔ SchedulersReach app scheduled) := by
  obtain ⟨queue, timed, hqueue, -⟩ := ofMessages_eq_ok ledger declared
  obtain ⟨deliveries, hdeliveries, hfinish, htimed⟩ := exists_draft hqueue
  have hrecords : (deliveries.foldl Draft.add (Draft.start ledger)).Records deliveries := by
    simpa using (Draft.records_start ledger).foldl_add
  obtain ⟨-, noted, hentries, hreplay⟩ :=
    @Draft.leadsTo_foldl_add (.start ledger) traced deliveries
  have hreach := hrecords.priority_le_ceiling_iff declared hdeliveries
  have hlevels := Draft.levels_of_finish hfinish
  obtain ⟨hpriority, hceiling⟩ := Levels.mk.inj hlevels
  have hreplayed : Levels.replay ⟨1, 1⟩ noted =
      (deliveries.foldl Draft.add (Draft.start ledger)).levels := hreplay
  refine ⟨queue, timed, noted, hqueue, htimed ▸ hentries, ?_, ?_, ?_⟩
  · rw [hreplayed, hpriority]
    rfl
  · rw [hreplayed, hpriority, hceiling]
    rfl
  · rw [hreplayed, hlevels, ← hreach, Draft.levels, Levels.mk.injEq]
    omega

/-- A tick schedules a task that is less urgent than itself, and an idle loop schedules it too. -/
def ticking : App :=
  { App.idling (.after 0) [] with
    idles := [⟨.exclusive 0 [] [] ["poll"]⟩]
    hardwareTasks := .ofList
      [("tick", (Routine.exclusive 0 [] [] ["poll"]).hardware "SysTick" (.after 4))]
    softwareTasks := .ofList
      [("poll", (Routine.exclusive 0 [] [] []).software (.after 1) (.after 0) [])] }

/-- Initialization alone schedules a task with priority 2. -/
def deferred : App :=
  { ticking with
    inits := [⟨.exclusive 0 [] [] ["poll"], []⟩]
    idles := []
    hardwareTasks := ∅ }

theorem replay_ticking :
    (∀ message ∈ ticking.scheduled, message.receiver ∈ ticking.softwareTasks.keys) ∧
      (Ledger.start true).trace.enabled = true ∧
      ∃ queue timed, ofMessages ticking ticking.scheduled (.start true) = .ok (queue, timed) ∧
        Levels.replay ⟨1, 1⟩ timed.entries = queue.levels := by
  have hdeclared : ∀ message ∈ ticking.scheduled,
      message.receiver ∈ ticking.softwareTasks.keys := by
    decide +kernel
  have hreach : SchedulersReach ticking ticking.scheduled := by
    intro message _ task found
    have hrow := Table.get?_eq_some_iff.mp found
    have htasks : ∀ row ∈ ticking.softwareTasks.rows, row.2.priority = 2 := by decide
    have htick : ∃ other ∈ ticking.scheduled, other.sender.priority = some 5 := by decide +kernel
    obtain ⟨other, hother, hpriority⟩ := htick
    have htwo : task.priority = 2 := htasks _ hrow
    exact .inr ⟨other, hother, 5, hpriority, by omega⟩
  have htraced : (Ledger.start true).trace.enabled = true := rfl
  obtain ⟨queue, timed, noted, hqueue, hentries, -, -, hreplay⟩ :=
    replay_eq_levels_iff hdeclared htraced
  obtain rfl : timed.entries = noted := hentries
  exact ⟨hdeclared, htraced, queue, timed, hqueue, hreplay.mpr hreach⟩

/-- The handler raises the ceiling to 2, but no update tells of it. -/
theorem not_replay_deferred :
    (∀ message ∈ deferred.scheduled, message.receiver ∈ deferred.softwareTasks.keys) ∧
      ∃ queue timed, ofMessages deferred deferred.scheduled (.start true) = .ok (queue, timed) ∧
        queue.levels = ⟨2, 2⟩ ∧
        Levels.replay ⟨1, 1⟩ timed.entries = ⟨2, 1⟩ := by
  have hlevels : (ofMessages deferred deferred.scheduled (.start true)).toOption.map (fun result =>
      (result.1.levels, Levels.replay ⟨1, 1⟩ result.2.entries)) =
      some (⟨2, 2⟩, ⟨2, 1⟩) := by
    decide +kernel
  refine ⟨by decide +kernel, ?_⟩
  cases hqueue : ofMessages deferred deferred.scheduled (.start true) with
  | error failure =>
      rw [hqueue] at hlevels
      cases hlevels
  | ok result =>
      rw [hqueue] at hlevels
      obtain ⟨hqueued, hreplayed⟩ := Prod.mk.inj (Option.some.inj hlevels)
      exact ⟨result.1, result.2, rfl, hqueued, hreplayed⟩

end TimerQueue

end StackPolicy
