import StackPolicy.Proofs.Ceilings
import StackPolicy.Proofs.TimerQueue

/-!
# What the timer queue says

The queue holds the receivers of all scheduled messages.  Its handler has the
highest priority of these tasks, and the ceiling is the highest priority of the
handler and of all schedulers.
-/

namespace StackPolicy.TimerQueue

/-! ## Drafts -/

/-- What a draft says about the deliveries that have been read. -/
structure Draft.Records (read : List Delivery) (draft : Draft) : Prop where
  priority : IsHighest (fun priority => priority = 1 ∨
    ∃ delivery ∈ read, delivery.task.priority = priority) (some draft.priority)
  ceiling : IsHighest (fun priority => priority = 1 ∨
    ∃ delivery ∈ read, delivery.sender.priority = some priority) (some draft.ceiling)
  mem_tasks : ∀ name, name ∈ draft.tasks ↔ ∃ delivery ∈ read, delivery.receiver = name

theorem Draft.records_start (ledger : Ledger) : (Draft.start ledger).Records [] where
  priority := by simp [IsHighest, Draft.start]
  ceiling := by simp [IsHighest, Draft.start]
  mem_tasks := by simp [Draft.start]

section Raising

variable (draft : Draft) (priority : Int) (scheduler : Option Int)

theorem Draft.priority_raisePriority :
    (draft.raisePriority priority).priority = max draft.priority priority := by
  unfold Draft.raisePriority
  split
  · simp only
    omega
  · omega

theorem Draft.ceiling_raisePriority : (draft.raisePriority priority).ceiling = draft.ceiling := by
  unfold Draft.raisePriority
  split <;> rfl

theorem Draft.tasks_raisePriority : (draft.raisePriority priority).tasks = draft.tasks := by
  unfold Draft.raisePriority
  split <;> rfl

theorem Draft.priority_raiseCeiling :
    (draft.raiseCeiling scheduler).priority = draft.priority := by
  unfold Draft.raiseCeiling
  split
  · split <;> rfl
  · rfl

theorem Draft.ceiling_raiseCeiling :
    some (draft.raiseCeiling scheduler).ceiling =
      ceilingAfter (some draft.ceiling) scheduler := by
  cases scheduler with
  | none => rfl
  | some priority =>
      simp only [Draft.raiseCeiling, ceilingAfter, raised]
      split
      · simp only [Option.some.injEq]
        omega
      · simp only [Option.some.injEq]
        omega

theorem Draft.tasks_raiseCeiling : (draft.raiseCeiling scheduler).tasks = draft.tasks := by
  unfold Draft.raiseCeiling
  split
  · split <;> rfl
  · rfl

end Raising

theorem Draft.Records.add {read : List Delivery} {draft : Draft} (h : draft.Records read)
    (delivery : Delivery) : (draft.add delivery).Records (read ++ [delivery]) := by
  constructor
  · have hraised := h.priority.raised delivery.task.priority
    simp only [Draft.add, Draft.priority_raiseCeiling, Draft.priority_raisePriority]
    apply hraised.congr
    intro priority
    simp [or_and_right, exists_or, or_assoc, eq_comm]
  · have hafter := h.ceiling.after delivery.sender.priority
    simp only [Draft.add, Draft.ceiling_raiseCeiling, Draft.ceiling_raisePriority]
    apply hafter.congr
    intro priority
    simp [or_and_right, exists_or, or_assoc]
  · intro name
    simp only [Draft.add, Draft.tasks_raiseCeiling, Draft.tasks_raisePriority,
      SortedSet.mem_insert, h.mem_tasks]
    simp [or_and_right, exists_or, or_comm, eq_comm]

theorem Draft.Records.foldl_add {read deliveries : List Delivery} {draft : Draft}
    (h : draft.Records read) : (deliveries.foldl Draft.add draft).Records (read ++ deliveries) := by
  refine foldl_of_concat (fun read (draft : Draft) => draft.Records read)
    (fun _ _ delivery _ h => ?_) h
  exact h.add delivery

/-! ## Queues -/

/-- What a queue says about the scheduled messages. -/
structure Describes (app : App) (scheduled : List Message) (queue : TimerQueue) : Prop where
  mem_tasks : ∀ name, name ∈ queue.tasks ↔ ∃ message ∈ scheduled, message.receiver = name
  priority : IsHighest (fun priority => priority = 1 ∨ ∃ message ∈ scheduled,
    ∃ task, app.softwareTasks.get? message.receiver = some task ∧ task.priority = priority)
    (some queue.priority)
  ceiling : IsHighest (fun priority => (priority = 1 ∨ ∃ message ∈ scheduled,
    message.sender.priority = some priority) ∨ priority = queue.priority) (some queue.ceiling)
  capacity : queue.capacity = app.totalCapacity queue.tasks

theorem exists_draft {app : App} {scheduled : List Message} {ledger timed : Ledger}
    {queue : TimerQueue} (h : ofMessages app scheduled ledger = .ok (queue, timed)) :
    ∃ deliveries, scheduled.mapM (Message.deliver app) = .ok deliveries ∧
      (deliveries.foldl Draft.add (Draft.start ledger)).finish app = .ok queue ∧
      timed = (deliveries.foldl Draft.add (Draft.start ledger)).ledger := by
  unfold ofMessages at h
  obtain ⟨deliveries, hdeliveries, h⟩ := bind_eq_ok_iff.mp h
  obtain ⟨queue, hqueue, h⟩ := bind_eq_ok_iff.mp h
  cases h
  exact ⟨deliveries, hdeliveries, hqueue, rfl⟩

section Delivered

variable {app : App} {messages : List Message}
  (declared : ∀ message ∈ messages, message.receiver ∈ app.softwareTasks.keys)

include declared

theorem exists_delivery_iff {deliveries : List Delivery}
    (done : messages.mapM (Message.deliver app) = .ok deliveries) (Holds : Delivery → Prop) :
    (∃ delivery ∈ deliveries, Holds delivery) ↔
      ∃ message ∈ messages, ∃ task, app.softwareTasks.get? message.receiver = some task ∧
        Holds ⟨message.sender, message.receiver, task⟩ := by
  obtain ⟨others, hothers, hmem⟩ := exists_mapM_eq_ok fun message member =>
    Message.exists_deliver (declared message member)
  rw [done] at hothers
  cases hothers
  constructor
  · rintro ⟨delivery, member, hholds⟩
    obtain ⟨message, hmessage, hdeliver⟩ := (hmem delivery).mp member
    obtain ⟨task, found, rfl⟩ := Message.deliver_eq_ok_iff.mp hdeliver
    exact ⟨message, hmessage, task, App.task_eq_ok_iff.mp found, hholds⟩
  · rintro ⟨message, hmessage, task, found, hholds⟩
    have hdeliver := Message.deliver_eq_ok_iff.mpr ⟨task, App.task_eq_ok_iff.mpr found, rfl⟩
    exact ⟨_, (hmem _).mpr ⟨message, hmessage, hdeliver⟩, hholds⟩

theorem exists_declared_iff (Holds : Message → Prop) :
    (∃ message ∈ messages, ∃ task,
      app.softwareTasks.get? message.receiver = some task ∧ Holds message) ↔
      ∃ message ∈ messages, Holds message := by
  constructor
  · rintro ⟨message, member, -, -, hholds⟩
    exact ⟨message, member, hholds⟩
  · rintro ⟨message, member, hholds⟩
    obtain ⟨task, found⟩ := Table.mem_keys_iff.mp (declared message member)
    exact ⟨message, member, task, found, hholds⟩

end Delivered

theorem describes_ofMessages {app : App} {scheduled : List Message} {ledger timed : Ledger}
    {queue : TimerQueue} (h : ofMessages app scheduled ledger = .ok (queue, timed))
    (declared : ∀ message ∈ scheduled, message.receiver ∈ app.softwareTasks.keys) :
    queue.Describes app scheduled := by
  obtain ⟨deliveries, hdeliveries, hfinish, -⟩ := exists_draft h
  have hexists := exists_delivery_iff declared hdeliveries
  have hsent := exists_declared_iff declared
  have hrecords : (deliveries.foldl Draft.add (Draft.start ledger)).Records deliveries := by
    simpa using (Draft.records_start ledger).foldl_add
  have htasks : ∀ name, name ∈ (deliveries.foldl Draft.add (Draft.start ledger)).tasks ↔
      ∃ message ∈ scheduled, message.receiver = name := by
    intro name
    rw [hrecords.mem_tasks, hexists]
    exact hsent fun message => message.receiver = name
  have hcapacity := App.capacityOf_eq_ok fun name member => by
    obtain ⟨message, hmessage, rfl⟩ := (htasks name).mp member
    exact declared message hmessage
  unfold Draft.finish at hfinish
  rw [bind_of_ok hcapacity] at hfinish
  obtain ⟨_, -, hqueue⟩ := bind_eq_ok_iff.mp hfinish
  cases hqueue
  constructor
  · exact htasks
  · apply hrecords.priority.congr
    intro priority
    rw [hexists]
  · apply (hrecords.ceiling.raised _).congr
    intro priority
    rw [hexists]
    exact or_congr (or_congr Iff.rfl (hsent fun message =>
      message.sender.priority = some priority)) Iff.rfl
  · rfl

end StackPolicy.TimerQueue
