import StackPolicy.Proofs.GrownPlans

/-!
# The queue that scheduled messages demand

A timer queue serves its messages if it has room for their receivers, if its
handler is as urgent as each of them, and if neither the handler nor a scheduler
with a priority is above its ceiling.  The queue that is built is the least one
that serves them, whatever comes first or comes again among the messages.
-/

namespace StackPolicy

theorem isHighest_foldl_max (least : Int) (priorities : List Int) :
    IsHighest (fun priority => priority = least ∨ priority ∈ priorities)
      (some (priorities.foldl max least)) := by
  have hmax : (least :: priorities).max? = some (priorities.foldl max least) := List.max?_cons'
  obtain ⟨hmember, hbound⟩ := List.max?_eq_some_iff.mp hmax
  exact ⟨List.mem_cons.mp hmember, fun priority h => hbound priority (List.mem_cons.mpr h)⟩

/-- The priority of the task that takes a message. -/
def Message.taskPriority? (app : App) (message : Message) : Option Int :=
  (app.softwareTasks.get? message.receiver).map SoftwareTask.priority

/-- The inputs of a message stay only if the sender has the core and the priority of the task. -/
theorem Context.mustTransfer_eq_true_iff {sender : Context} {core priority : Int} :
    sender.mustTransfer core priority = true ↔
      sender.priority = none ∨ sender.core ≠ core ∨ sender.priority ≠ some priority := by
  simp only [mustTransfer, Bool.or_eq_true, decide_eq_true_eq]
  cases sender.priority <;> simp

namespace TimerQueue

/-- The queue has room for the receivers, its handler is as urgent as their tasks, and its
ceiling is reached by the handler and by every scheduler at most. -/
structure Serves (app : App) (scheduled : List Message) (queue : TimerQueue) : Prop where
  one_le_priority : 1 ≤ queue.priority
  priority_le_ceiling : queue.priority ≤ queue.ceiling
  holds : ∀ message ∈ scheduled, message.receiver ∈ queue.tasks
  task_le : ∀ message ∈ scheduled, ∀ priority, message.taskPriority? app = some priority →
    priority ≤ queue.priority
  scheduler_le : ∀ message ∈ scheduled, ∀ priority, message.sender.priority = some priority →
    priority ≤ queue.ceiling
  room : app.totalCapacity queue.tasks ≤ queue.capacity

/-- The least queue for some messages.  A sender without a priority does not count. -/
def demanded (app : App) (scheduled : List Message) : TimerQueue where
  priority := (scheduled.filterMap (Message.taskPriority? app)).foldl max 1
  ceiling := (scheduled.filterMap (Message.taskPriority? app) ++
    scheduled.filterMap fun message => message.sender.priority).foldl max 1
  capacity := app.totalCapacity (.ofList (scheduled.map Message.receiver))
  tasks := .ofList (scheduled.map Message.receiver)

section Described

variable {app : App} {scheduled : List Message} {queue : TimerQueue}
  (h : queue.Describes app scheduled)

include h

theorem Describes.one_le_priority : 1 ≤ queue.priority := h.priority.2 1 (.inl rfl)

theorem Describes.priority_le_ceiling : queue.priority ≤ queue.ceiling :=
  h.ceiling.2 queue.priority (.inr rfl)

theorem Describes.priority_eq :
    queue.priority = (scheduled.filterMap (Message.taskPriority? app)).foldl max 1 := by
  have hpriority := isHighest_foldl_max 1 (scheduled.filterMap (Message.taskPriority? app))
  apply Option.some.inj
  apply h.priority.unique
  apply hpriority.congr
  intro priority
  simp only [List.mem_filterMap, Message.taskPriority?, Option.map_eq_some_iff]

/-- The handler counts for all tasks that it releases. -/
theorem Describes.ceiling_eq :
    queue.ceiling = (scheduled.filterMap (Message.taskPriority? app) ++
      scheduled.filterMap fun message => message.sender.priority).foldl max 1 := by
  have hone : IsHighest (fun priority => priority = 1 ∨ priority = queue.priority ∨
      ∃ message ∈ scheduled, message.sender.priority = some priority) (some queue.ceiling) := by
    apply h.ceiling.congr
    intro priority
    rw [or_assoc, or_comm (b := priority = queue.priority)]
  have hhandler := hone.without_default ⟨queue.priority, .inl rfl, h.one_le_priority⟩
  have hceiling := isHighest_foldl_max queue.priority
    (scheduled.filterMap fun message => message.sender.priority)
  rw [List.foldl_append, ← h.priority_eq]
  apply Option.some.inj
  apply hhandler.unique
  apply hceiling.congr
  intro priority
  simp only [List.mem_filterMap]

theorem Describes.tasks_eq : queue.tasks = .ofList (scheduled.map Message.receiver) := by
  ext name
  rw [h.mem_tasks, SortedSet.mem_ofList, List.mem_map]

theorem Describes.eq_demanded : queue = demanded app scheduled := by
  have hcapacity := h.capacity
  rw [h.tasks_eq] at hcapacity
  calc queue = ⟨queue.priority, queue.ceiling, queue.capacity, queue.tasks⟩ := rfl
    _ = demanded app scheduled := by
      rw [h.priority_eq, h.ceiling_eq, hcapacity, h.tasks_eq, demanded]

theorem Describes.serves : queue.Serves app scheduled where
  one_le_priority := h.one_le_priority
  priority_le_ceiling := h.priority_le_ceiling
  holds := fun message member => (h.mem_tasks _).mpr ⟨message, member, rfl⟩
  task_le := by
    intro message member priority found
    obtain ⟨task, htask, hpriority⟩ := Option.map_eq_some_iff.mp found
    exact h.priority.2 priority (.inr ⟨message, member, task, htask, hpriority⟩)
  scheduler_le := fun message member priority found =>
    h.ceiling.2 priority (.inl (.inr ⟨message, member, found⟩))
  room := Int.le_of_eq h.capacity.symm

/-- Whatever serves the messages has all that the queue has. -/
theorem Describes.atMost_of_serves {other : TimerQueue} (serves : other.Serves app scheduled) :
    queue.AtMost other := by
  have htasks : queue.tasks.Within other.tasks := by
    intro name member
    obtain ⟨message, hmessage, rfl⟩ := (h.mem_tasks name).mp member
    exact serves.holds message hmessage
  have hpriority : queue.priority ≤ other.priority := by
    rcases h.priority.1 with hone | ⟨message, member, task, found, hpriority⟩
    · rw [hone]
      exact serves.one_le_priority
    · rw [← hpriority]
      exact serves.task_le message member task.priority (Option.map_eq_some_iff.mpr
        ⟨task, found, rfl⟩)
  have hcapacity := (App.Grows.refl app).totalCapacity_le htasks
  have hroom := serves.room
  have hhandler := serves.priority_le_ceiling
  have hone := serves.one_le_priority
  refine ⟨hpriority, ?_, ?_, htasks⟩
  · rcases h.ceiling.1 with (hleast | ⟨message, member, hsender⟩) | hsame
    · omega
    · exact serves.scheduler_le message member queue.ceiling hsender
    · omega
  · rw [h.capacity]
    omega

end Described

/-! ## The queue that is built -/

/-- Messages with declared receivers are given the least queue that serves them.  Apart from it
they lay obligations on the inputs of tasks whose sender has no priority, another core or another
priority, and on nothing else. -/
theorem ofMessages_eq_demanded {app : App} {scheduled : List Message}
    (declared : ∀ message ∈ scheduled, message.receiver ∈ app.softwareTasks.keys)
    (ledger : Ledger) :
    ∃ timed, ofMessages app scheduled ledger = .ok (demanded app scheduled, timed) ∧
      (demanded app scheduled).Serves app scheduled ∧
      (∀ other : TimerQueue, other.Serves app scheduled →
        (demanded app scheduled).AtMost other) ∧
      (∀ ty, ty ∈ timed.transfer ↔ ty ∈ ledger.transfer ∨
        ∃ message ∈ scheduled, ∃ task, app.softwareTasks.get? message.receiver = some task ∧
          ty ∈ task.inputs ∧ (message.sender.priority = none ∨ message.sender.core ≠ task.core ∨
            message.sender.priority ≠ some task.priority)) ∧
      timed.concurrentRead = ledger.concurrentRead := by
  obtain ⟨queue, timed, hqueue, htransfer⟩ := ofMessages_eq_ok ledger declared
  obtain ⟨deliveries, -, -, htimed⟩ := exists_draft hqueue
  have hdescribes := describes_ofMessages hqueue declared
  have hreads := foldl_keeps (fun draft : Draft => draft.ledger.concurrentRead)
    Draft.concurrentRead_add deliveries (Draft.start ledger)
  rw [← hdescribes.eq_demanded]
  refine ⟨timed, hqueue, hdescribes.serves, fun other => hdescribes.atMost_of_serves,
    fun ty => ?_, htimed ▸ hreads⟩
  simp only [htransfer, Message.moves_iff, Context.mustTransfer_eq_true_iff]

/-- A task schedules the filter twice, and initialization of the other core does so once. -/
def filterTwice : List Message :=
  [⟨.ofHardwareTask "adc" ((Routine.exclusive 1 [] [] ["filter"]).hardware "ADC" (.after 6)),
      "filter"⟩,
    ⟨.ofInit ⟨.exclusive 0 [] [] ["filter"], []⟩, "filter"⟩,
    ⟨.ofHardwareTask "adc" ((Routine.exclusive 1 [] [] ["filter"]).hardware "ADC" (.after 6)),
      "filter"⟩]

theorem ofMessages_filterTwice :
    (∀ message ∈ filterTwice, message.receiver ∈ App.pipeline.softwareTasks.keys) ∧
      ∃ timed, ofMessages App.pipeline filterTwice (.start true) =
        .ok (⟨2, 7, 3, .ofList ["filter"]⟩, timed) ∧ "Frame" ∈ timed.transfer := by
  have hdeclared : ∀ message ∈ filterTwice,
      message.receiver ∈ App.pipeline.softwareTasks.keys := by
    decide
  have hqueue : demanded App.pipeline filterTwice = ⟨2, 7, 3, .ofList ["filter"]⟩ := by
    decide +kernel
  obtain ⟨timed, htimed, -, -, htransfer, -⟩ := ofMessages_eq_demanded hdeclared (.start true)
  refine ⟨hdeclared, timed, hqueue ▸ htimed, (htransfer "Frame").mpr (.inr ?_)⟩
  exact ⟨_, List.mem_cons_self, _, rfl, by decide, .inr (.inr (by decide))⟩

end TimerQueue

end StackPolicy
