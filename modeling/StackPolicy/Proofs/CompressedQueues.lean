import Mathlib.Data.List.Forall2
import StackPolicy.Proofs.AddedTasks
import StackPolicy.Proofs.CompressedTransfers
import StackPolicy.Proofs.QueueOrder

/-!
# Queues after compression

On a single core, compression renames channels and ceilings by the new numbers
of their priorities.  The priority 1 from which a timer queue starts does not
show in a queue that is used, since some task of at least that priority uses it.
-/

namespace StackPolicy

/-! ## Renamed queues -/

/-- Whether a ceiling has got its new number.  Without a ceiling there is none. -/
def Renames (numbers : Table Int Int) : Option Int → Option Int → Prop
  | none, none => True
  | some priority, some number => numbers.get? priority = some number
  | _, _ => False

structure Channel.RenamedBy (numbers : Table Int Int) (channel renamed : Channel) : Prop where
  ceiling : Renames numbers channel.ceiling renamed.ceiling
  capacity : renamed.capacity = channel.capacity
  tasks : renamed.tasks = channel.tasks

structure TimerQueue.RenamedBy (numbers : Table Int Int) (queue renamed : TimerQueue) :
    Prop where
  priority : numbers.get? queue.priority = some renamed.priority
  ceiling : numbers.get? queue.ceiling = some renamed.ceiling
  capacity : renamed.capacity = queue.capacity
  tasks : renamed.tasks = queue.tasks

/-- The channels and free queues of two analyses stand in the same order and differ by the
numbers of priorities alone, and so does a timer queue that is used. -/
structure Analysis.QueuesRenamedBy (numbers : Table Int Int) (analysis renamed : Analysis) :
    Prop where
  channels : List.Forall₂
    (fun row other => numbers.get? row.1 = some other.1 ∧ row.2.RenamedBy numbers other.2)
    analysis.channels.rows renamed.channels.rows
  freeQueues : List.Forall₂ (fun row other => other.1 = row.1 ∧ Renames numbers row.2 other.2)
    analysis.freeQueues.rows renamed.freeQueues.rows
  used : analysis.timerQueue.isUsed = true →
    analysis.timerQueue.RenamedBy numbers renamed.timerQueue
  unused : analysis.timerQueue.isUsed = false → renamed.timerQueue = analysis.timerQueue

/-- Tables whose keys correspond in their order are related row by row. -/
theorem Table.forall₂_rows {Key Other Item Changed : Type} [DecidableEq Key] [DecidableEq Other]
    {first : Table Key Item} {second : Table Other Changed} {number : Key → Other}
    {Related : Key → Item → Changed → Prop} (keys : second.keys = first.keys.map number)
    (related : ∀ key item changed, first.get? key = some item →
      second.get? (number key) = some changed → Related key item changed) :
    List.Forall₂ (fun row other => other.1 = number row.1 ∧ Related row.1 row.2 other.2)
      first.rows second.rows := by
  have hlength : first.rows.length = second.rows.length := by
    have hkeys := congrArg List.length keys
    simpa [Table.keys] using hkeys.symm
  rw [List.forall₂_iff_get]
  refine ⟨hlength, fun index hfirst hsecond => ?_⟩
  have hkey : (second.rows.get ⟨index, hsecond⟩).1 = number (first.rows.get ⟨index, hfirst⟩).1 := by
    have hat := congrArg (fun list => list[index]?) keys
    simpa [Table.keys, hfirst, hsecond] using hat
  refine ⟨hkey, related _ _ _ (get?_eq_some_iff.mpr (List.get_mem _ _)) ?_⟩
  rw [← hkey]
  exact get?_eq_some_iff.mpr (List.get_mem _ _)

namespace App

/-! ## One core -/

section OneCore

variable {app : App} {core : Int} (alone : ∀ context ∈ app.contexts, context.core = core)

theorem renames_numberOf {ceiling : Option Int}
    (runs : ∀ priority, ceiling = some priority → app.RunsAt core priority) :
    Renames (app.numbersOn core) ceiling (ceiling.map (app.numberOf core)) := by
  cases ceiling with
  | none => trivial
  | some priority => exact get?_numbersOn (runs priority rfl)

/-- The highest priority gets the highest of the new numbers. -/
theorem highest_renumbered {Contends Others : Int → Prop} {ceiling renamed : Option Int}
    (h : IsHighest Contends ceiling) (again : IsHighest Others renamed)
    (runs : ∀ priority, Contends priority → app.RunsAt core priority)
    (same : ∀ number, Others number ↔
      ∃ priority, Contends priority ∧ app.numberOf core priority = number) :
    renamed = ceiling.map (app.numberOf core) :=
  (again.congr same).unique (h.map fun _ _ hfirst hsecond =>
    numberOf_lt_numberOf_iff (runs _ hfirst) (runs _ hsecond))

/-- Ceilings that the same items raise, with their new numbers in place of their priorities. -/
theorem renames_highest {Item : Type} {items : List Item} {renumber : Item → Item}
    {Raises Again : Item → Prop} {contender : Item → Option Int} {ceiling renamed : Option Int}
    (h : IsHighest (fun priority => ∃ item ∈ items, Raises item ∧ contender item = some priority)
      ceiling)
    (again : IsHighest (fun priority => ∃ item ∈ items.map renumber,
      Again item ∧ contender item = some priority) renamed)
    (same : ∀ item, Again (renumber item) ↔ Raises item)
    (numbers : ∀ item ∈ items,
      (∀ priority, contender item = some priority → app.RunsAt core priority) ∧
        contender (renumber item) = (contender item).map (app.numberOf core)) :
    Renames (app.numbersOn core) ceiling renamed := by
  have hruns : ∀ priority, (∃ item ∈ items, Raises item ∧ contender item = some priority) →
      app.RunsAt core priority := by
    rintro priority ⟨item, member, -, hcontender⟩
    exact (numbers item member).1 priority hcontender
  have hrenamed : renamed = ceiling.map (app.numberOf core) := by
    refine highest_renumbered h again hruns fun number => ?_
    simp only [List.mem_map, exists_exists_and_eq_and, same]
    constructor
    · rintro ⟨item, member, hraises, hcontender⟩
      rw [(numbers item member).2] at hcontender
      obtain ⟨priority, hpriority, hnumber⟩ := Option.map_eq_some_iff.mp hcontender
      exact ⟨priority, ⟨item, member, hraises, hpriority⟩, hnumber⟩
    · rintro ⟨priority, ⟨item, member, hraises, hpriority⟩, rfl⟩
      refine ⟨item, member, hraises, ?_⟩
      rw [(numbers item member).2, hpriority]
      rfl
  rw [hrenamed]
  apply renames_numberOf
  rintro priority rfl
  exact hruns priority h.1

include alone

theorem core_of_get? {name : String} {task : SoftwareTask}
    (found : app.softwareTasks.get? name = some task) : task.core = core := by
  have hrow := Table.get?_eq_some_iff.mp found
  exact alone (Context.ofSoftwareTask name task)
    (mem_contexts.mpr (.inr (.inr (.inr ⟨_, hrow, rfl⟩))))

theorem runsAt_of_get? {name : String} {task : SoftwareTask}
    (found : app.softwareTasks.get? name = some task) : app.RunsAt core task.priority := by
  rw [← core_of_get? alone found]
  exact .inr (mem_prioritiesOn_of_software (Table.get?_eq_some_iff.mp found))

theorem runsAt_of_sender {message : Message} (member : message ∈ app.spawned ++ app.scheduled)
    {priority : Int} (found : message.sender.priority = some priority) :
    app.RunsAt core priority := by
  have hsender := Analysis.sender_mem_contexts member
  rw [← alone _ hsender]
  exact runsAt_of_mem_contexts hsender found

theorem priority_renumberMessage {message : Message}
    (member : message ∈ app.spawned ++ app.scheduled) :
    (app.renumberMessage message).sender.priority =
      message.sender.priority.map (app.numberOf core) := by
  have hsender := Analysis.sender_mem_contexts member
  rw [renumberMessage, priority_renumber hsender, alone _ hsender]

/-- The new numbers of the receivers' priorities. -/
theorem exists_task_compressed_iff (name : String) (number : Int) :
    (∃ task, app.compressed.softwareTasks.get? name = some task ∧ task.priority = number) ↔
      ∃ task, app.softwareTasks.get? name = some task ∧
        app.numberOf core task.priority = number := by
  simp only [get?_softwareTasks_compressed, Option.map_eq_some_iff]
  constructor
  · rintro ⟨_, ⟨task, found, rfl⟩, hnumber⟩
    rw [priority_renumberSoftware, core_of_get? alone found] at hnumber
    exact ⟨task, found, hnumber⟩
  · rintro ⟨task, found, hnumber⟩
    refine ⟨_, ⟨task, found, rfl⟩, ?_⟩
    rwa [priority_renumberSoftware, core_of_get? alone found]

end OneCore

theorem totalCapacity_compressed (app : App) (tasks : SortedSet String) :
    app.compressed.totalCapacity tasks = app.totalCapacity tasks := by
  unfold totalCapacity
  simp only [get?_softwareTasks_compressed, Option.map_map]
  rfl

end App

/-! ## The timer queue -/

namespace TimerQueue

section Described

variable {app : App} {scheduled : List Message} {queue : TimerQueue}
  (h : queue.Describes app scheduled)

include h

theorem Describes.isUsed_iff : queue.isUsed = true ↔ scheduled ≠ [] := by
  have hempty : queue.isUsed = true ↔ queue.tasks.isEmpty = false := by
    simp [isUsed]
  rw [hempty, SortedSet.isEmpty_eq_false_iff]
  constructor
  · rintro ⟨name, member⟩
    obtain ⟨message, hmessage, -⟩ := (h.mem_tasks name).mp member
    exact List.ne_nil_of_mem hmessage
  · intro hsome
    obtain ⟨message, hmessage⟩ := List.exists_mem_of_ne_nil scheduled hsome
    exact ⟨message.receiver, (h.mem_tasks _).mpr ⟨message, hmessage, rfl⟩⟩

theorem Describes.eq_unused (none : scheduled = []) : queue = unused := by
  subst none
  have hpriority : queue.priority = 1 := by
    rcases h.priority.1 with hdefault | ⟨message, hmessage, -⟩
    · exact hdefault
    · cases hmessage
  have hceiling : queue.ceiling = 1 := by
    rcases h.ceiling.1 with (hdefault | ⟨message, hmessage, -⟩) | hsame
    · exact hdefault
    · cases hmessage
    · exact hsame.trans hpriority
  have htasks : queue.tasks = ∅ := by
    ext name
    rw [h.mem_tasks]
    simp
  have hcapacity : queue.capacity = 0 := by
    rw [h.capacity, htasks]
    rfl
  cases queue
  cases hpriority
  cases hceiling
  cases htasks
  cases hcapacity
  rfl

/-- The priority of a queue that is used is that of one of its tasks. -/
theorem Describes.highest_priority (used : scheduled ≠ [])
    (declared : ∀ message ∈ scheduled, message.receiver ∈ app.softwareTasks.keys) :
    IsHighest (fun priority => ∃ message ∈ scheduled, ∃ task,
      app.softwareTasks.get? message.receiver = some task ∧ task.priority = priority)
        (some queue.priority) := by
  apply h.priority.without_default
  obtain ⟨message, hmessage⟩ := List.exists_mem_of_ne_nil scheduled used
  obtain ⟨task, found⟩ := Table.mem_keys_iff.mp (declared message hmessage)
  exact ⟨task.priority, ⟨message, hmessage, task, found, rfl⟩, task.priority_pos⟩

theorem Describes.highest_ceiling :
    IsHighest (fun priority => (∃ message ∈ scheduled, message.sender.priority = some priority) ∨
      priority = queue.priority) (some queue.ceiling) := by
  have hpositive : 1 ≤ queue.priority := h.priority.2 1 (.inl rfl)
  have hceiling := h.ceiling.congr fun _ => or_assoc
  exact hceiling.without_default ⟨queue.priority, .inr rfl, hpositive⟩

end Described

section OneCore

variable {app : App} {core : Int} (alone : ∀ context ∈ app.contexts, context.core = core)
  (sound : app.Sound) {queue renamed : TimerQueue} (h : queue.Describes app app.scheduled)
  (again : renamed.Describes app.compressed app.compressed.scheduled)

include alone sound h again

/-- A queue that is used runs at the priority of a task, and gets its new number. -/
theorem Describes.priority_renumbered (used : app.scheduled ≠ []) :
    app.RunsAt core queue.priority ∧ renamed.priority = app.numberOf core queue.priority := by
  have hdeclared : ∀ message ∈ app.scheduled, message.receiver ∈ app.softwareTasks.keys :=
    fun message member => Analysis.declared_of_sound sound (List.mem_append_right _ member)
  have hagain : ∀ message ∈ app.compressed.scheduled,
      message.receiver ∈ app.compressed.softwareTasks.keys := fun message member =>
    Analysis.declared_of_sound sound.compressed (List.mem_append_right _ member)
  have hused : app.compressed.scheduled ≠ [] := by
    rw [App.scheduled_compressed]
    simpa using used
  have hpriority := h.highest_priority used hdeclared
  have hruns : ∀ priority, (∃ message ∈ app.scheduled, ∃ task,
      app.softwareTasks.get? message.receiver = some task ∧ task.priority = priority) →
        app.RunsAt core priority := by
    rintro _ ⟨message, -, task, found, rfl⟩
    exact App.runsAt_of_get? alone found
  refine ⟨hruns _ hpriority.1, Option.some.inj (App.highest_renumbered hpriority
    (again.highest_priority hused hagain) hruns fun number => ?_)⟩
  rw [App.scheduled_compressed]
  simp only [List.mem_map, exists_exists_and_eq_and, App.renumberMessage,
    App.exists_task_compressed_iff alone]
  constructor
  · rintro ⟨message, hmessage, task, found, hnumber⟩
    exact ⟨task.priority, ⟨message, hmessage, task, found, rfl⟩, hnumber⟩
  · rintro ⟨_, ⟨message, hmessage, task, found, rfl⟩, hnumber⟩
    exact ⟨message, hmessage, task, found, hnumber⟩

theorem Describes.ceiling_renumbered (used : app.scheduled ≠ []) :
    app.RunsAt core queue.ceiling ∧ renamed.ceiling = app.numberOf core queue.ceiling := by
  obtain ⟨hpriority, hrenumbered⟩ := h.priority_renumbered alone sound again used
  have hceiling := h.highest_ceiling
  have hruns : ∀ priority, ((∃ message ∈ app.scheduled,
      message.sender.priority = some priority) ∨ priority = queue.priority) →
        app.RunsAt core priority := by
    rintro priority (⟨message, hmessage, hsender⟩ | rfl)
    · exact App.runsAt_of_sender alone (List.mem_append_right _ hmessage) hsender
    · exact hpriority
  refine ⟨hruns _ hceiling.1, Option.some.inj (App.highest_renumbered hceiling
    again.highest_ceiling hruns fun number => ?_)⟩
  rw [App.scheduled_compressed, hrenumbered]
  simp only [List.mem_map, exists_exists_and_eq_and]
  constructor
  · rintro (⟨message, hmessage, hsender⟩ | rfl)
    · rw [App.priority_renumberMessage alone (List.mem_append_right _ hmessage)] at hsender
      obtain ⟨priority, hpriority, hnumber⟩ := Option.map_eq_some_iff.mp hsender
      exact ⟨priority, .inl ⟨message, hmessage, hpriority⟩, hnumber⟩
    · exact ⟨queue.priority, .inr rfl, rfl⟩
  · rintro ⟨priority, ⟨message, hmessage, hsender⟩ | rfl, rfl⟩
    · refine .inl ⟨message, hmessage, ?_⟩
      rw [App.priority_renumberMessage alone (List.mem_append_right _ hmessage), hsender]
      rfl
    · exact .inr rfl

omit alone sound in
theorem Describes.tasks_compressed : renamed.tasks = queue.tasks := by
  ext name
  rw [again.mem_tasks, h.mem_tasks, App.scheduled_compressed]
  simp [App.renumberMessage]

theorem Describes.renamedBy (used : app.scheduled ≠ []) :
    queue.RenamedBy (app.numbersOn core) renamed := by
  obtain ⟨hpriority, hrenumbered⟩ := h.priority_renumbered alone sound again used
  obtain ⟨hceiling, hraised⟩ := h.ceiling_renumbered alone sound again used
  have htasks := h.tasks_compressed again
  constructor
  · rw [App.get?_numbersOn hpriority, hrenumbered]
  · rw [App.get?_numbersOn hceiling, hraised]
  · rw [again.capacity, App.totalCapacity_compressed, htasks, h.capacity]
  · exact htasks

end OneCore

end TimerQueue

/-! ## Channels and free queues -/

namespace ChannelPlanner.Request

/-- A request of the compressed application, whose timer queue is `queue`. -/
def renumber (app : App) (queue : TimerQueue) : Request → Request
  | spawn message => spawn (app.renumberMessage message)
  | schedule message _ => schedule (app.renumberMessage message) queue
  | classify message verb => classify (app.renumberMessage message) verb

variable {app : App} {queue : TimerQueue}

@[simp] theorem message_renumber (request : Request) :
    (request.renumber app queue).message = app.renumberMessage request.message := by
  cases request <;> rfl

theorem sendsTo_renumber (request : Request) (name : String) :
    (request.renumber app queue).SendsTo name ↔ request.SendsTo name := by
  cases request <;> rfl

theorem joins_renumber {core : Int} (alone : ∀ context ∈ app.contexts, context.core = core)
    (request : Request) (number : Int) :
    (request.renumber app queue).Joins app.compressed number ↔
      ∃ key, request.Joins app key ∧ app.numberOf core key = number := by
  have hsends : (request.renumber app queue).sends = request.sends := by
    cases request <;> rfl
  unfold Joins
  rw [hsends, message_renumber, App.renumberMessage, App.exists_task_compressed_iff alone]
  constructor
  · rintro ⟨hsent, task, found, hnumber⟩
    exact ⟨task.priority, ⟨hsent, task, found, rfl⟩, hnumber⟩
  · rintro ⟨_, ⟨hsent, task, found, rfl⟩, hnumber⟩
    exact ⟨hsent, task, found, hnumber⟩

theorem runsAt_of_joins {core : Int} (alone : ∀ context ∈ app.contexts, context.core = core)
    {request : Request} {key : Int} (joins : request.Joins app key) : app.RunsAt core key := by
  obtain ⟨-, task, found, rfl⟩ := joins
  exact App.runsAt_of_get? alone found

/-- Different channels get different numbers. -/
theorem joins_renumber_iff {core key : Int} (alone : ∀ context ∈ app.contexts, context.core = core)
    (runs : app.RunsAt core key) (request : Request) :
    (request.renumber app queue).Joins app.compressed (app.numberOf core key) ↔
      request.Joins app key := by
  rw [joins_renumber alone]
  constructor
  · rintro ⟨other, hjoins, hnumber⟩
    have hother := runsAt_of_joins alone hjoins
    rwa [(App.numberOf_eq_numberOf_iff hother runs).mp hnumber] at hjoins
  · intro hjoins
    exact ⟨key, hjoins, rfl⟩

end ChannelPlanner.Request

namespace ChannelPlan

open ChannelPlanner

theorem sent_of_mem_requests {app : App} {queue : TimerQueue} {request : Request}
    (member : request ∈ requests app.spawned app.scheduled queue) :
    request.message ∈ app.spawned ++ app.scheduled := by
  rcases List.mem_append.mp member with hspawned | hscheduled
  · obtain ⟨message, hmessage, rfl⟩ := List.mem_map.mp hspawned
    exact List.mem_append_left _ hmessage
  · obtain ⟨message, hmessage, rfl⟩ := List.mem_map.mp hscheduled
    exact List.mem_append_right _ hmessage

theorem requests_compressed (app : App) (queue renamed : TimerQueue) :
    requests app.compressed.spawned app.compressed.scheduled renamed =
      (requests app.spawned app.scheduled queue).map (Request.renumber app renamed) := by
  unfold requests
  rw [App.spawned_compressed, App.scheduled_compressed, List.map_append]
  simp only [List.map_map]
  rfl

section OneCore

variable {app : App} {core : Int} (alone : ∀ context ∈ app.contexts, context.core = core)
  {queue renamed : TimerQueue}

section Described

variable {plan others : ChannelPlan}
  (h : plan.Describes app (requests app.spawned app.scheduled queue))
  (again : others.Describes app.compressed
    (requests app.compressed.spawned app.compressed.scheduled renamed))

include alone h again

theorem Describes.keys_renumbered (ascending : plan.channels.keys.Pairwise (· < ·))
    (sorted : others.channels.keys.Pairwise (· < ·)) :
    others.channels.keys = plan.channels.keys.map (app.numberOf core) := by
  have hruns : ∀ key ∈ plan.channels.keys, app.RunsAt core key := by
    intro key member
    obtain ⟨request, -, hjoins⟩ := (h.mem_channels key).mp member
    exact Request.runsAt_of_joins alone hjoins
  have hnumbers : (plan.channels.keys.map (app.numberOf core)).Pairwise (· < ·) := by
    rw [List.pairwise_map]
    apply ascending.imp_of_mem
    intro first second hfirst hsecond hlt
    exact (App.numberOf_lt_numberOf_iff (hruns first hfirst) (hruns second hsecond)).mpr hlt
  have hsame : (⟨others.channels.keys, sorted⟩ : SortedSet Int) =
      ⟨plan.channels.keys.map (app.numberOf core), hnumbers⟩ := by
    ext number
    change number ∈ others.channels.keys ↔ number ∈ plan.channels.keys.map (app.numberOf core)
    rw [again.mem_channels, requests_compressed app queue renamed]
    simp only [List.mem_map, exists_exists_and_eq_and, Request.joins_renumber alone,
      h.mem_channels]
    constructor
    · rintro ⟨request, member, key, hjoins, hnumber⟩
      exact ⟨key, ⟨request, member, hjoins⟩, hnumber⟩
    · rintro ⟨key, ⟨request, member, hjoins⟩, hnumber⟩
      exact ⟨request, member, key, hjoins, hnumber⟩
  exact congrArg SortedSet.toList hsame

theorem Describes.freeQueue_renamed {name : String} {ceiling other : Option Int}
    (found : plan.freeQueues.get? name = some ceiling)
    (located : others.freeQueues.get? name = some other) :
    Renames (app.numbersOn core) ceiling other := by
  have hother := again.freeQueue name other located
  rw [requests_compressed app queue renamed] at hother
  refine App.renames_highest (h.freeQueue name ceiling found) hother
    (fun request => Request.sendsTo_renumber request name) fun request member => ?_
  have hsent := sent_of_mem_requests member
  rw [Request.message_renumber]
  exact ⟨fun _ => App.runsAt_of_sender alone hsent, App.priority_renumberMessage alone hsent⟩

end Described

variable (queues : app.scheduled ≠ [] →
  app.RunsAt core queue.priority ∧ renamed.priority = app.numberOf core queue.priority)

include alone queues

/-- Both senders and the handler of the timer queue contend with their new numbers. -/
theorem contender_renumber {request : Request}
    (member : request ∈ requests app.spawned app.scheduled queue) :
    (∀ priority, request.contender = some priority → app.RunsAt core priority) ∧
      (request.renumber app renamed).contender = request.contender.map (app.numberOf core) := by
  rcases List.mem_append.mp member with hspawned | hscheduled
  · obtain ⟨message, hmessage, rfl⟩ := List.mem_map.mp hspawned
    have hsent : message ∈ app.spawned ++ app.scheduled := List.mem_append_left _ hmessage
    exact ⟨fun _ => App.runsAt_of_sender alone hsent, App.priority_renumberMessage alone hsent⟩
  · obtain ⟨message, hmessage, rfl⟩ := List.mem_map.mp hscheduled
    obtain ⟨hruns, hrenumbered⟩ := queues (List.ne_nil_of_mem hmessage)
    refine ⟨?_, congrArg some hrenumbered⟩
    rintro _ ⟨⟩
    exact hruns

theorem Describes.channel_renamed {plan others : ChannelPlan}
    (h : plan.Describes app (requests app.spawned app.scheduled queue))
    (again : others.Describes app.compressed
      (requests app.compressed.spawned app.compressed.scheduled renamed))
    {key : Int} {channel other : Channel}
    (found : plan.channels.get? key = some channel)
    (located : others.channels.get? (app.numberOf core key) = some other) :
    (app.numbersOn core).get? key = some (app.numberOf core key) ∧
      channel.RenamedBy (app.numbersOn core) other := by
  have hkey : app.RunsAt core key := by
    obtain ⟨request, -, hjoins⟩ := (h.mem_channels key).mp (Table.mem_keys_iff.mpr ⟨_, found⟩)
    exact Request.runsAt_of_joins alone hjoins
  have hother := again.ceiling _ other located
  rw [requests_compressed app queue renamed] at hother
  have htasks : other.tasks = channel.tasks := by
    ext name
    rw [again.mem_tasks _ other located, h.mem_tasks key channel found,
      requests_compressed app queue renamed]
    simp only [List.mem_map, exists_exists_and_eq_and, Request.joins_renumber_iff alone hkey,
      Request.sendsTo_renumber]
  refine ⟨App.get?_numbersOn hkey, ?_, ?_, htasks⟩
  · exact App.renames_highest (h.ceiling key channel found) hother
      (Request.joins_renumber_iff alone hkey) fun _ => contender_renumber alone queues
  · rw [again.capacity _ other located, h.capacity key channel found,
      App.totalCapacity_compressed, htasks]

end OneCore

end ChannelPlan

/-! ## Runs -/

namespace Analysis

/-- On a single core, compression only renames the queues. -/
theorem queuesRenamedBy_compressed {app : App} (h : app.violations = []) {core : Int}
    (alone : ∀ context ∈ app.contexts, context.core = core) (settings : Settings) :
    ∃ plain lines compressed reports,
      run { settings with optimizePriorities := false } app = .ok (plain, lines) ∧
      run { settings with optimizePriorities := true } app = .ok (compressed, reports) ∧
      plain.QueuesRenamedBy (app.numbersOn core) compressed := by
  have hsound := App.sound_of_violations h
  obtain ⟨late, timer, planned, hplain⟩ := exists_derives hsound
  obtain ⟨again, renamed, others, hcompressed⟩ := exists_derives hsound.compressed
  have htimer := hplain.describes_timerQueue hsound
  have hrenamed := hcompressed.describes_timerQueue hsound.compressed
  have hplan := hplain.describes hsound
  have hothers := hcompressed.describes hsound.compressed
  have hdeclared : ∀ message ∈ app.spawned ++ app.scheduled,
      message.receiver ∈ app.softwareTasks.keys := fun _ => declared_of_sound hsound
  have hagain : ∀ message ∈ app.compressed.spawned ++ app.compressed.scheduled,
      message.receiver ∈ app.compressed.softwareTasks.keys :=
    fun _ => declared_of_sound hsound.compressed
  have hqueues := htimer.priority_renumbered alone hsound hrenamed
  refine ⟨_, _, _, _, hplain.run_plain h settings, hcompressed.run_compressed h settings, ?_⟩
  constructor
  · have hkeys := hplan.keys_renumbered alone hothers
      (ChannelPlan.ascending_channels hdeclared hplain.planned_eq)
      (ChannelPlan.ascending_channels hagain hcompressed.planned_eq)
    refine (Table.forall₂_rows hkeys fun key channel other =>
      hplan.channel_renamed alone hqueues hothers).imp fun row other hrelated => ?_
    obtain ⟨hnumber, hfound, hchannel⟩ := hrelated
    exact ⟨hnumber ▸ hfound, hchannel⟩
  · have hkeys : others.1.freeQueues.keys = planned.1.freeQueues.keys.map id := by
      rw [List.map_id, ChannelPlan.keys_freeQueues hagain hcompressed.planned_eq,
        ChannelPlan.keys_freeQueues hdeclared hplain.planned_eq, App.spawned_compressed,
        App.scheduled_compressed, ← List.map_append, List.map_map]
      rfl
    exact Table.forall₂_rows hkeys fun name ceiling other =>
      hplan.freeQueue_renamed alone hothers
  · intro hused
    exact htimer.renamedBy alone hsound hrenamed (htimer.isUsed_iff.mp hused)
  · intro hidle
    have hnone : app.scheduled = [] := by
      by_contra hsome
      have hused := htimer.isUsed_iff.mpr hsome
      cases hidle.symm.trans hused
    have hstill : app.compressed.scheduled = [] := by
      rw [App.scheduled_compressed, hnone]
      rfl
    exact (hrenamed.eq_unused hstill).trans (htimer.eq_unused hnone).symm

/-- The priorities 1, 2 and 5 of a single core get the numbers 1, 2 and 3. -/
theorem queuesRenamedBy_archiving :
    archiving.violations = [] ∧ (∀ context ∈ archiving.contexts, context.core = 0) ∧
      ∃ plain lines compressed reports,
        run ⟨false, true, true⟩ archiving = .ok (plain, lines) ∧
        run ⟨true, true, true⟩ archiving = .ok (compressed, reports) ∧
        plain.QueuesRenamedBy (archiving.numbersOn 0) compressed := by
  have hclean : archiving.violations = [] := by decide +kernel
  have halone : ∀ context ∈ archiving.contexts, context.core = 0 := by decide +kernel
  exact ⟨hclean, halone, queuesRenamedBy_compressed hclean halone ⟨false, true, true⟩⟩

end Analysis

end StackPolicy
