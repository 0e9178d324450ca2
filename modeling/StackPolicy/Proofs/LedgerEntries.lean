import StackPolicy.Proofs.OwnershipFold
import StackPolicy.Proofs.Planning
import StackPolicy.Proofs.RecordedEntries

/-!
# What the passes write into a ledger

A pass lays obligations and notes entries of its own kind.  It notes an
obligation exactly when it adds the type, so the entries and the types of a
ledger cannot drift apart.
-/

namespace StackPolicy

/-! ## Reading entries -/

namespace Entry

/-- The type on which an entry lays an obligation. -/
def obligated? (obligation : Obligation) : Entry → Option String
  | safetyObligation ty label _ => if label = obligation.label then some ty else none
  | _ => none

def obligationLabel? : Entry → Option String
  | safetyObligation _ label _ => some label
  | _ => none

/-- What the ownership of a resource was before a change, and what it is after it. -/
def change? (resource : String) : Entry → Option (Option String × String)
  | ownershipChange name before after => if name = resource then some (before, after) else none
  | _ => none

/-- The value that an entry gives to a field of a queue. -/
def update? (queue field : String) : Entry → Option Value
  | queueUpdate name changed value => if name = queue ∧ changed = field then some value else none
  | _ => none

def IsChange : Entry → Prop
  | ownershipChange _ _ _ => True
  | _ => False

def Updates (queue : String) : Entry → Prop
  | queueUpdate name _ _ => name = queue
  | _ => False

theorem obligationLabel?_of_isChange {entry : Entry} (change : entry.IsChange) :
    entry.obligationLabel? = none := by
  cases entry <;> first | rfl | exact change.elim

theorem obligationLabel?_of_updates {entry : Entry} {queue : String}
    (update : entry.Updates queue) : entry.obligationLabel? = none := by
  cases entry <;> first | rfl | exact update.elim

theorem obligated?_of_label {entry : Entry} (other : entry.obligationLabel? = none)
    (obligation : Obligation) : entry.obligated? obligation = none := by
  cases entry <;> first | rfl | cases other

theorem change?_of_updates {entry : Entry} {queue : String} (update : entry.Updates queue)
    (resource : String) : entry.change? resource = none := by
  cases entry <;> first | rfl | exact update.elim

theorem update?_of_isChange {entry : Entry} (change : entry.IsChange) (queue field : String) :
    entry.update? queue field = none := by
  cases entry <;> first | rfl | exact change.elim

theorem update?_of_updates {entry : Entry} {queue other : String} (update : entry.Updates queue)
    (apart : queue ≠ other) (field : String) : entry.update? other field = none := by
  cases entry with
  | queueUpdate name changed value =>
      have hname : name = queue := update
      rw [update?, if_neg]
      rintro ⟨rfl, -⟩
      exact apart hname.symm
  | _ => rfl

end Entry

theorem Obligation.label_injective : Function.Injective Obligation.label := by
  intro first second same
  cases first <;> cases second <;> first | rfl | exact absurd same (by decide)

/-! ## Writing -/

/-- A ledger after a pass that notes entries of its own and lays obligations. -/
inductive Ledger.Writes (Own : Entry → Prop) (ledger : Ledger) : Ledger → Prop
  | start : Writes Own ledger ledger
  | note {written : Ledger} (before : Writes Own ledger written) (entry : Entry)
      (own : Own entry) : Writes Own ledger (written.note entry)
  | require {written : Ledger} (before : Writes Own ledger written) (obligation : Obligation)
      (ty reason : String) : Writes Own ledger (written.require obligation ty reason)

namespace Ledger

variable {Own : Entry → Prop} {ledger written last : Ledger}

theorem Writes.trans (first : Writes Own ledger written) (next : Writes Own written last) :
    Writes Own ledger last := by
  induction next with
  | start => exact first
  | note _ entry own ih => exact .note ih entry own
  | require _ obligation ty reason ih => exact .require ih obligation ty reason

theorem writes_foldl {State Item : Type} {step : State → Item → State} (read : State → Ledger)
    (writes : ∀ state item, Writes Own (read state) (read (step state item)))
    (items : List Item) (state : State) :
    Writes Own (read state) (read (items.foldl step state)) := by
  induction items generalizing state with
  | nil => exact .start
  | cons item items ih => exact (writes state item).trans (ih (step state item))

/-- What cannot be read off obligations and own entries is not written. -/
theorem Writes.filterMap_entries {Read : Type} (writes : Writes Own ledger written)
    (read : Entry → Option Read) (own : ∀ entry, Own entry → read entry = none)
    (obligations : ∀ ty label reason, read (.safetyObligation ty label reason) = none) :
    written.entries.filterMap read = ledger.entries.filterMap read := by
  induction writes with
  | start => rfl
  | note _ entry hown ih => rw [filterMap_entries_note (own entry hown), ih]
  | @require written _ obligation ty reason ih =>
      unfold Ledger.require
      split
      · exact ih
      · rw [filterMap_entries_note (obligations ty obligation.label reason), entries, trace_add]
        exact ih

theorem Writes.enabled_eq (writes : Writes Own ledger written) :
    written.trace.enabled = ledger.trace.enabled := by
  induction writes with
  | start => rfl
  | note _ entry _ ih => rw [enabled_note, ih]
  | require _ obligation ty reason ih =>
      unfold Ledger.require
      split
      · exact ih
      · rw [enabled_note, trace_add, ih]

/-! ## Obligations and their entries -/

/-- Some entries lay an obligation on the given types, on each of them once. -/
def NotedOnce (entries : List Entry) (obligation : Obligation) (types : SortedSet String) : Prop :=
  (entries.filterMap (Entry.obligated? obligation)).Nodup ∧
    ∀ ty, ty ∈ entries.filterMap (Entry.obligated? obligation) ↔ ty ∈ types

/-- The entries of earlier passes and those of a ledger account for its types. -/
structure Accounts (earlier : List Entry) (ledger : Ledger) : Prop where
  enabled : ledger.trace.enabled = true
  noted : ∀ obligation, NotedOnce (earlier ++ ledger.entries) obligation (ledger.types obligation)
  labelled : ∀ label ∈ (earlier ++ ledger.entries).filterMap Entry.obligationLabel?,
    ∃ obligation : Obligation, label = obligation.label

variable {earlier : List Entry}

theorem accounts_start : Accounts [] (start true) where
  enabled := rfl
  noted obligation := by
    refine ⟨List.nodup_nil, fun ty => ?_⟩
    have htypes : (start true).types obligation = ∅ := by cases obligation <;> rfl
    simp [htypes, SortedSet.not_mem_empty]
  labelled _ member := by cases member

theorem Accounts.note (h : Accounts earlier ledger) {entry : Entry}
    (other : entry.obligationLabel? = none) : Accounts earlier (ledger.note entry) := by
  have hentries {Read : Type} {read : Entry → Option Read} (hnone : read entry = none) :
      (earlier ++ (ledger.note entry).entries).filterMap read =
        (earlier ++ ledger.entries).filterMap read := by
    rw [List.filterMap_append, List.filterMap_append, filterMap_entries_note hnone]
  constructor
  · exact (enabled_note _ _).trans h.enabled
  · intro obligation
    unfold NotedOnce
    rw [hentries (Entry.obligated?_of_label other obligation), types_note]
    exact h.noted obligation
  · rw [hentries other]
    exact h.labelled

theorem Accounts.require (h : Accounts earlier ledger) (obligation : Obligation)
    (ty reason : String) : Accounts earlier (ledger.require obligation ty reason) := by
  by_cases hpresent : ty ∈ ledger.types obligation
  · rw [Ledger.require, if_pos hpresent]
    exact h
  · have hentries := entries_require h.enabled hpresent reason
    have hwrites : Writes (fun _ => False) ledger (ledger.require obligation ty reason) :=
      .require .start obligation ty reason
    constructor
    · exact hwrites.enabled_eq.trans h.enabled
    · intro other
      obtain ⟨hnodup, hmem⟩ := h.noted other
      unfold NotedOnce
      rw [hentries, ← List.append_assoc, List.filterMap_append]
      by_cases hsame : obligation = other
      · subst hsame
        have hnew : [Entry.safetyObligation ty obligation.label reason].filterMap
            (Entry.obligated? obligation) = [ty] := by
          simp [Entry.obligated?]
        rw [hnew]
        refine ⟨?_, fun required => ?_⟩
        · rw [List.nodup_append]
          refine ⟨hnodup, List.pairwise_singleton _ ty, ?_⟩
          rintro first hfirst _ hlast rfl
          rw [List.mem_singleton.mp hlast] at hfirst
          exact hpresent ((hmem ty).mp hfirst)
        · rw [List.mem_append, List.mem_singleton, hmem, mem_types_require]
      · have hnone : [Entry.safetyObligation ty obligation.label reason].filterMap
            (Entry.obligated? other) = [] := by
          have hlabel : obligation.label ≠ other.label :=
            fun same => hsame (Obligation.label_injective same)
          simp [Entry.obligated?, hlabel]
        rw [hnone, List.append_nil, types_require_of_ne (Ne.symm hsame)]
        exact ⟨hnodup, hmem⟩
    · intro label member
      rw [hentries, ← List.append_assoc, List.filterMap_append, List.mem_append] at member
      rcases member with hold | hnew
      · exact h.labelled label hold
      · exact ⟨obligation, List.mem_singleton.mp hnew⟩

/-- A pass that notes no obligations of its own keeps the account. -/
theorem Accounts.writes (h : Accounts earlier ledger) (writes : Writes Own ledger written)
    (own : ∀ entry, Own entry → entry.obligationLabel? = none) : Accounts earlier written := by
  induction writes with
  | start => exact h
  | note _ entry hown ih => exact ih.note (own entry hown)
  | require _ obligation ty reason ih => exact ih.require obligation ty reason

theorem Accounts.withoutEntries (h : Accounts earlier ledger) :
    Accounts (earlier ++ ledger.entries) ledger.withoutEntries := by
  have hentries : earlier ++ ledger.entries ++ ledger.withoutEntries.entries =
      earlier ++ ledger.entries := List.append_nil _
  constructor
  · rfl
  · intro obligation
    have htypes : ledger.withoutEntries.types obligation = ledger.types obligation := by
      cases obligation <;> rfl
    rw [hentries, htypes]
    exact h.noted obligation
  · rw [hentries]
    exact h.labelled

/-! ## What is required of types -/

theorem writes_requireAll (ledger : Ledger) (obligation : Obligation) (types : List String)
    (reason : String) : Writes Own ledger (ledger.requireAll obligation types reason) :=
  writes_foldl id (fun _ ty => .require .start obligation ty reason) types ledger

theorem writes_requireMessage (ledger : Ledger) (delivery : Delivery) (verb : String) :
    Writes Own ledger (ledger.requireMessage delivery verb) := by
  unfold requireMessage
  split
  · exact ledger.writes_requireAll _ _ _
  · exact .start

theorem writes_requireLate (ownerships : Ownerships) (locations : Locations) (ledger : Ledger)
    (name : String) (resource : Resource) :
    Writes Own ledger (requireLate ownerships locations ledger name resource) := by
  unfold requireLate
  split
  · exact .require .start _ _ _
  · split
    · split
      · exact .start
      · exact .require .start _ _ _
    · exact .start

theorem writes_requireLateResources (app : App) (ownerships : Ownerships)
    (locations : Locations) (ledger : Ledger) :
    Writes Own ledger (ledger.requireLateResources app ownerships locations) := by
  refine writes_foldl id (fun ledger row => ?_) app.lateResources.rows ledger
  exact writes_requireLate ownerships locations ledger row.1 row.2

theorem writes_requireShared (app : App) (ownerships : Ownerships) (ledger : Ledger)
    (name : String) : Writes Own ledger (requireShared app ownerships ledger name) := by
  unfold requireShared
  split
  · split
    · exact .start
    · exact .require .start _ _ _
  · exact .start

theorem writes_requireInitResources (app : App) (ownerships : Ownerships) (ledger : Ledger) :
    Writes Own ledger (ledger.requireInitResources app ownerships) :=
  writes_foldl id (writes_requireShared app ownerships) _ ledger

end Ledger

/-! ## Ownerships -/

namespace Ownerships

theorem writes_requireRead {Own : Entry → Prop} (app : App) (ledger : Ledger)
    (resource reason : String) :
    Ledger.Writes Own ledger (requireRead app ledger resource reason) := by
  unfold requireRead
  split
  · exact .require .start _ _ _
  · exact .start

theorem writes_take (app : App) (state : Ownerships × Ledger) (access : Access) :
    Ledger.Writes Entry.IsChange state.2 (take app state access).2 := by
  unfold take
  split
  · exact .start
  · rename_i priority _
    have hupdate (ledger : Ledger) (updated : Ownership) : Ledger.Writes Entry.IsChange ledger
        (update state.1 ledger access.resource updated).2 := by
      unfold update
      simp only
      split
      · exact .start
      · exact .note .start _ trivial
    simp only [record]
    split
    · exact (writes_requireRead app state.2 _ _).trans (hupdate _ _)
    · exact hupdate _ _

theorem writes_foldl_take (app : App) (accesses : List Access) (state : Ownerships × Ledger) :
    Ledger.Writes Entry.IsChange state.2 (accesses.foldl (take app) state).2 :=
  Ledger.writes_foldl Prod.snd (writes_take app) accesses state

end Ownerships

/-! ## The timer queue -/

namespace TimerQueue.Draft

theorem writes_raisePriority (draft : Draft) (priority : Int) :
    Ledger.Writes (Entry.Updates "timer_queue") draft.ledger
      (draft.raisePriority priority).ledger := by
  unfold raisePriority
  split
  · exact .note .start _ rfl
  · exact .start

theorem writes_raiseCeiling (draft : Draft) (scheduler : Option Int) :
    Ledger.Writes (Entry.Updates "timer_queue") draft.ledger
      (draft.raiseCeiling scheduler).ledger := by
  unfold raiseCeiling
  split
  · split
    · exact .note .start _ rfl
    · exact .start
  · exact .start

theorem writes_raise (draft : Draft) (delivery : Delivery) :
    Ledger.Writes (Entry.Updates "timer_queue") draft.ledger
      ((draft.raisePriority delivery.task.priority).raiseCeiling delivery.sender.priority).ledger :=
  (draft.writes_raisePriority _).trans (writes_raiseCeiling _ _)

theorem writes_add (draft : Draft) (delivery : Delivery) :
    Ledger.Writes (Entry.Updates "timer_queue") draft.ledger (draft.add delivery).ledger :=
  (writes_raise { draft with tasks := draft.tasks.insert delivery.receiver } delivery).trans
    (Ledger.writes_requireMessage _ delivery "schedule")

end TimerQueue.Draft

/-! ## Channels and free queues -/

namespace ChannelPlanner

def IsUpdate (entry : Entry) : Prop := ∃ queue, entry.Updates queue

variable (planner : ChannelPlanner)

theorem writes_raiseAt (key priority : Int) :
    Ledger.Writes IsUpdate planner.ledger (planner.raiseAt key priority).ledger := by
  unfold raiseAt raiseFound
  simp only
  split
  · exact .start
  · exact .note .start _ ⟨_, rfl⟩

theorem writes_raiseFreeQueue (task : String) (priority : Int) :
    Ledger.Writes IsUpdate planner.ledger (planner.raiseFreeQueue task priority).ledger := by
  unfold raiseFreeQueue
  simp only
  split
  · exact .start
  · exact .note .start _ ⟨_, rfl⟩

theorem writes_raiseBoth (delivery : Delivery) (sender : Option Int) :
    Ledger.Writes IsUpdate planner.ledger (planner.raiseBoth delivery sender).ledger := by
  cases sender with
  | none => exact .start
  | some priority =>
      exact (writes_raiseAt planner delivery.task.priority priority).trans
        (writes_raiseFreeQueue _ _ _)

theorem writes_raiseFree (delivery : Delivery) (sender : Option Int) :
    Ledger.Writes IsUpdate planner.ledger (planner.raiseFree delivery sender).ledger := by
  cases sender with
  | none => exact .start
  | some priority => exact writes_raiseFreeQueue planner delivery.receiver priority

theorem Request.writes_effect (delivery : Delivery) (request : Request) :
    Ledger.Writes IsUpdate planner.ledger (request.effect planner delivery).ledger := by
  cases request with
  | spawn message =>
      have hraised := writes_raiseBoth ((planner.spawnBarrier delivery).join delivery.receiver
        delivery.task.priority) delivery delivery.sender.priority
      rw [ledger_join, ledger_spawnBarrier] at hraised
      exact hraised.trans (Ledger.writes_requireMessage _ _ _)
  | schedule message queue =>
      have hraised := (writes_raiseAt ((planner.scheduleBarrier delivery).join
        delivery.receiver delivery.task.priority) delivery.task.priority queue.priority).trans
          (writes_raiseFree _ delivery delivery.sender.priority)
      rw [ledger_join, ledger_scheduleBarrier] at hraised
      exact hraised
  | classify message verb => exact Ledger.writes_requireMessage _ _ _

theorem writes_attempt (request : Request) :
    Ledger.Writes IsUpdate planner.ledger (planner.attempt request).ledger := by
  cases found : planner.app.softwareTasks.get? request.message.receiver with
  | none =>
      rw [attempt_of_undeclared (Table.get?_eq_none_iff.mp found)]
      exact .start
  | some task =>
      rw [attempt_of_get? found]
      exact Request.writes_effect planner _ request

end ChannelPlanner

end StackPolicy
