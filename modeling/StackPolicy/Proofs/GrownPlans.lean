import StackPolicy.Proofs.GrownApps

/-!
# Queues and channels of more tasks

More tasks send more messages, and a higher handler of the timer queue contends
for every channel that scheduled messages take.  So the queue, the channels and
the free queues rise together.
-/

namespace StackPolicy

/-! ## Capacities -/

theorem foldr_add_le_of_sublist {Item : Type} {items others : List Item}
    (more : items.Sublist others) {weight other : Item → Int} (nonneg : ∀ item, 0 ≤ other item)
    (below : ∀ item, weight item ≤ other item) :
    items.foldr (fun item total => weight item + total) 0 ≤
      others.foldr (fun item total => other item + total) 0 := by
  induction more with
  | slnil => exact Int.le_refl 0
  | cons item _ ih =>
      have hnonneg := nonneg item
      rw [List.foldr_cons]
      omega
  | cons_cons item _ ih =>
      have hbelow := below item
      rw [List.foldr_cons, List.foldr_cons]
      omega

namespace App

/-- More tasks have room for as many messages, at the least. -/
theorem Grows.totalCapacity_le {app grown : App} (h : app.Grows grown)
    {tasks others : SortedSet String} (within : tasks.Within others) :
    app.totalCapacity tasks ≤ grown.totalCapacity others := by
  have hnonneg (name : String) :
      0 ≤ ((grown.softwareTasks.get? name).map SoftwareTask.capacity).getD 0 := by
    cases grown.softwareTasks.get? name with
    | none => exact Int.le_refl 0
    | some task =>
        have hpositive := task.capacity_pos
        simp only [Option.map_some, Option.getD_some]
        omega
  unfold totalCapacity
  apply foldr_add_le_of_sublist within.toList_sublist hnonneg
  intro name
  cases found : app.softwareTasks.get? name with
  | none => exact hnonneg name
  | some task => rw [h.get?_softwareTasks found]

end App

/-! ## The timer queue -/

theorem TimerQueue.Describes.atMost {app grown : App} {queue raised : TimerQueue}
    (describes : queue.Describes app app.scheduled) (h : app.Grows grown)
    (again : raised.Describes grown grown.scheduled) : queue.AtMost raised := by
  have hmessage := h.scheduled.subset
  have htasks : queue.tasks.Within raised.tasks := by
    intro name member
    obtain ⟨message, hmember, hreceiver⟩ := (describes.mem_tasks name).mp member
    exact (again.mem_tasks name).mpr ⟨message, hmessage hmember, hreceiver⟩
  have hpriority : queue.priority ≤ raised.priority := by
    rw [← Option.some_le_some]
    apply describes.priority.le_of_reached again.priority
    rintro priority (hone | ⟨message, hmember, task, htask, rfl⟩)
    · exact ⟨priority, .inl hone, Int.le_refl priority⟩
    · exact ⟨task.priority, .inr ⟨message, hmessage hmember, task, h.get?_softwareTasks htask,
        rfl⟩, Int.le_refl _⟩
  have hceiling : queue.ceiling ≤ raised.ceiling := by
    rw [← Option.some_le_some]
    apply describes.ceiling.le_of_reached again.ceiling
    rintro priority ((hone | ⟨message, hmember, hsender⟩) | rfl)
    · exact ⟨priority, .inl (.inl hone), Int.le_refl priority⟩
    · exact ⟨priority, .inl (.inr ⟨message, hmessage hmember, hsender⟩), Int.le_refl priority⟩
    · exact ⟨raised.priority, .inr rfl, hpriority⟩
  refine ⟨hpriority, hceiling, ?_, htasks⟩
  rw [describes.capacity, again.capacity]
  exact h.totalCapacity_le htasks

/-! ## Requests -/

namespace ChannelPlanner

/-- Whether another request sends the same message, and contends at least as high. -/
structure Request.AtMost (request other : Request) : Prop where
  sends : other.sends = request.sends
  message : other.message = request.message
  contender : request.contender ≤ other.contender

namespace Request

variable {app grown : App} {request other : Request}

theorem AtMost.reaches (below : request.AtMost other) {priority : Int}
    (contends : request.contender = some priority) :
    ∃ above, other.contender = some above ∧ priority ≤ above := by
  have hle := below.contender
  rw [contends] at hle
  cases habove : other.contender with
  | none =>
      rw [habove] at hle
      simp at hle
  | some above =>
      rw [habove, Option.some_le_some] at hle
      exact ⟨above, rfl, hle⟩

theorem AtMost.sendsTo (below : request.AtMost other) {name : String}
    (sends : request.SendsTo name) : other.SendsTo name := by
  unfold SendsTo
  rw [below.sends, below.message]
  exact sends

theorem AtMost.joins (h : app.Grows grown) (below : request.AtMost other) {key : Int}
    (joins : request.Joins app key) : other.Joins grown key := by
  obtain ⟨hsends, task, found, hkey⟩ := joins
  unfold Joins
  rw [below.sends, below.message]
  exact ⟨hsends, task, h.get?_softwareTasks found, hkey⟩

theorem AtMost.crosses (h : app.Grows grown) (below : request.AtMost other)
    {receiver sender : Int} (crosses : request.Crosses app receiver sender) :
    other.Crosses grown receiver sender := by
  obtain ⟨hsends, hcrosses⟩ := crosses
  unfold Crosses
  rw [below.sends, below.message]
  refine ⟨hsends, ?_⟩
  cases found : app.softwareTasks.get? request.message.receiver with
  | none => simp [Message.crosses, found] at hcrosses
  | some task =>
      rw [Message.crosses_of_get? found] at hcrosses
      rwa [Message.crosses_of_get? (h.get?_softwareTasks found)]

end Request

end ChannelPlanner

namespace ChannelPlan

open ChannelPlanner

theorem exists_request {app grown : App} (h : app.Grows grown) {queue raised : TimerQueue}
    (below : queue.priority ≤ raised.priority) :
    ∀ request ∈ requests app.spawned app.scheduled queue,
      ∃ other ∈ requests grown.spawned grown.scheduled raised, request.AtMost other := by
  intro request member
  rcases List.mem_append.mp member with hspawn | hschedule
  · obtain ⟨message, hmessage, rfl⟩ := List.mem_map.mp hspawn
    refine ⟨.spawn message, List.mem_append_left _ (List.mem_map_of_mem
      (h.spawned.subset hmessage)), rfl, rfl, ?_⟩
    cases hpriority : message.sender.priority <;> simp [Request.contender, hpriority]
  · -- the handler contends for the channel, so it is the raised queue that has to be named
    obtain ⟨message, hmessage, rfl⟩ := List.mem_map.mp hschedule
    refine ⟨.schedule message raised, List.mem_append_right _ (List.mem_map_of_mem
      (h.scheduled.subset hmessage)), rfl, rfl, ?_⟩
    exact Option.some_le_some.mpr below

/-! ## Plans -/

section Plans

variable {app grown : App} (h : app.Grows grown) {requests others : List Request}
  (raised : ∀ request ∈ requests, ∃ other ∈ others, request.AtMost other)
  {plan another : ChannelPlan} (describes : plan.Describes app requests)
  (again : another.Describes grown others)

include h raised describes again

theorem Describes.channels_atMost : plan.channels.AtMost Channel.AtMost another.channels := by
  intro key channel found
  have hkey : key ∈ another.channels.keys := by
    obtain ⟨request, member, hjoins⟩ :=
      (describes.mem_channels key).mp (Table.mem_keys_iff.mpr ⟨channel, found⟩)
    obtain ⟨other, hother, hbelow⟩ := raised request member
    exact (again.mem_channels key).mpr ⟨other, hother, hbelow.joins h hjoins⟩
  obtain ⟨higher, hhigher⟩ := Table.mem_keys_iff.mp hkey
  have htasks : channel.tasks.Within higher.tasks := by
    intro name hname
    obtain ⟨request, member, hsends, hjoins⟩ :=
      (describes.mem_tasks key channel found name).mp hname
    obtain ⟨other, hother, hbelow⟩ := raised request member
    exact (again.mem_tasks key higher hhigher name).mpr
      ⟨other, hother, hbelow.sendsTo hsends, hbelow.joins h hjoins⟩
  refine ⟨higher, hhigher, ?_, ?_, htasks⟩
  · apply (describes.ceiling key channel found).le_of_reached (again.ceiling key higher hhigher)
    rintro priority ⟨request, member, hjoins, hcontends⟩
    obtain ⟨other, hother, hbelow⟩ := raised request member
    obtain ⟨above, habove, hle⟩ := hbelow.reaches hcontends
    exact ⟨above, ⟨other, hother, hbelow.joins h hjoins, habove⟩, hle⟩
  · rw [describes.capacity key channel found, again.capacity key higher hhigher]
    exact h.totalCapacity_le htasks

omit h in
theorem Describes.freeQueues_atMost :
    plan.freeQueues.AtMost (fun ceiling other => ceiling ≤ other) another.freeQueues := by
  intro name ceiling found
  have hname : name ∈ another.freeQueues.keys := by
    obtain ⟨request, member, hsends⟩ :=
      (describes.mem_freeQueues name).mp (Table.mem_keys_iff.mpr ⟨ceiling, found⟩)
    obtain ⟨other, hother, hbelow⟩ := raised request member
    exact (again.mem_freeQueues name).mpr ⟨other, hother, hbelow.sendsTo hsends⟩
  obtain ⟨higher, hhigher⟩ := Table.mem_keys_iff.mp hname
  refine ⟨higher, hhigher, ?_⟩
  apply (describes.freeQueue name ceiling found).le_of_reached
    (again.freeQueue name higher hhigher)
  rintro priority ⟨request, member, hsends, hsender⟩
  obtain ⟨other, hother, hbelow⟩ := raised request member
  rw [← hbelow.message] at hsender
  exact ⟨priority, ⟨other, hother, hbelow.sendsTo hsends, hsender⟩, Int.le_refl priority⟩

/-- Two cores that have a barrier between them keep one, whatever its flag. -/
theorem Describes.exists_flag {receiver sender : Int} {flag : Bool}
    (found : plan.spawnBarriers.flag? receiver sender = some flag) :
    ∃ other, another.spawnBarriers.flag? receiver sender = some other := by
  by_cases hcrosses : ∃ request ∈ requests, request.Crosses app receiver sender
  · obtain ⟨request, member, hcrosses⟩ := hcrosses
    obtain ⟨other, hother, hbelow⟩ := raised request member
    exact ⟨_, again.flag_eq_some receiver sender ⟨other, hother, hbelow.crosses h hcrosses⟩⟩
  · have hnone := describes.flag_eq_none receiver sender fun request member hrequest =>
      hcrosses ⟨request, member, hrequest⟩
    rw [hnone] at found
    cases found

end Plans

end ChannelPlan

end StackPolicy
