import StackPolicy.Proofs.ChannelContents

/-!
# The order of channels and free queues

The channels of a plan stand in the order of their priorities, and its free
queues in the order in which their tasks received a first message.
-/

namespace StackPolicy

namespace ChannelPlanner

/-! ## Channels -/

theorem ascending_channels_finished (planner : ChannelPlanner) :
    planner.finished.channels.keys.Pairwise (· < ·) := by
  have hkeys : planner.finished.channels.keys = planner.channels.sortByKey.keys :=
    Table.keys_mapRows _ _
  rw [hkeys]
  exact planner.channels.ascending_keys_sortByKey

/-! ## Free queues -/

theorem keys_freeQueues_join (planner : ChannelPlanner) (task : String) (priority : Int) :
    (planner.join task priority).freeQueues.keys =
      if task ∈ planner.freeQueues.keys then planner.freeQueues.keys
      else planner.freeQueues.keys ++ [task] :=
  Table.keys_insertIfNew planner.freeQueues task none

theorem mem_freeQueues_join (planner : ChannelPlanner) (task : String) (priority : Int) :
    task ∈ (planner.join task priority).freeQueues.keys := by
  rw [keys_freeQueues_join]
  split
  · assumption
  · exact List.mem_append_right _ (List.mem_singleton_self task)

/-- Raising a free queue that is there leaves it where it stands. -/
theorem keys_freeQueues_raiseFreeQueue {planner : ChannelPlanner} {task : String}
    (present : task ∈ planner.freeQueues.keys) (priority : Int) :
    (planner.raiseFreeQueue task priority).freeQueues.keys = planner.freeQueues.keys := by
  unfold raiseFreeQueue
  simp only
  split
  · rfl
  · exact (Table.keys_insert _ _ _).trans (if_pos present)

theorem keys_freeQueues_effect (planner : ChannelPlanner) (delivery : Delivery)
    (request : Request) :
    (request.effect planner delivery).freeQueues.keys =
      if request.sends = true ∧ delivery.receiver ∉ planner.freeQueues.keys then
        planner.freeQueues.keys ++ [delivery.receiver]
      else planner.freeQueues.keys := by
  cases request with
  | classify message verb => rfl
  | spawn message =>
      have hjoined := mem_freeQueues_join (planner.spawnBarrier delivery) delivery.receiver
        delivery.task.priority
      have hkeys := keys_freeQueues_join (planner.spawnBarrier delivery) delivery.receiver
        delivery.task.priority
      rw [freeQueues_spawnBarrier] at hkeys
      simp only [Request.effect, afterSpawn, freeQueues_requireMessage, Request.sends, true_and,
        ite_not]
      rw [← hkeys]
      cases delivery.sender.priority with
      | none => rfl
      | some priority =>
          rw [raiseBoth, keys_freeQueues_raiseFreeQueue (by rwa [freeQueues_raiseAt]),
            freeQueues_raiseAt]
  | schedule message queue =>
      have hjoined := mem_freeQueues_join (planner.scheduleBarrier delivery) delivery.receiver
        delivery.task.priority
      have hkeys := keys_freeQueues_join (planner.scheduleBarrier delivery) delivery.receiver
        delivery.task.priority
      rw [freeQueues_scheduleBarrier] at hkeys
      simp only [Request.effect, afterSchedule, Request.sends, true_and, ite_not]
      rw [← hkeys]
      cases delivery.sender.priority with
      | none => rw [raiseFree, freeQueues_raiseAt]
      | some priority =>
          rw [raiseFree, keys_freeQueues_raiseFreeQueue (by rwa [freeQueues_raiseAt]),
            freeQueues_raiseAt]

/-- The tasks that requests send messages to, in their order. -/
def receivers (requests : List Request) : List String :=
  (requests.filter Request.sends).map fun request => request.message.receiver

/-- The keys of the free queues are the receivers so far, each at its first place. -/
theorem keys_freeQueues_attempt {planner : ChannelPlanner} {request : Request}
    {requests : List Request} (h : planner.freeQueues.keys = (receivers requests).eraseDups)
    (declared : request.message.receiver ∈ planner.app.softwareTasks.keys) :
    (planner.attempt request).freeQueues.keys =
      (receivers (requests ++ [request])).eraseDups := by
  obtain ⟨task, found⟩ := Table.mem_keys_iff.mp declared
  rw [attempt_of_get? found, keys_freeQueues_effect, h]
  unfold receivers
  rw [List.filter_append, List.map_append]
  cases hsends : request.sends with
  | false => simp [hsends]
  | true =>
      have hnew : ([request].filter Request.sends).map (fun other => other.message.receiver) =
          [request.message.receiver] := by
        simp [hsends]
      rw [hnew, eraseDups_concat]
      simp only [true_and, List.mem_eraseDups, ite_not]

theorem keys_freeQueues_foldl_attempt {planner : ChannelPlanner} {read requests : List Request}
    (h : planner.freeQueues.keys = (receivers read).eraseDups)
    (declared : ∀ request ∈ requests,
      request.message.receiver ∈ planner.app.softwareTasks.keys) :
    (requests.foldl attempt planner).freeQueues.keys =
      (receivers (read ++ requests)).eraseDups := by
  -- the application is part of the invariant, since the requests are declared in it
  have hfold := foldl_of_concat
    (fun read (state : ChannelPlanner) =>
      state.app = planner.app ∧ state.freeQueues.keys = (receivers read).eraseDups)
    (fun read state request member h =>
      ⟨(app_attempt state request).trans h.1,
        keys_freeQueues_attempt h.2 (h.1 ▸ declared request member)⟩)
    ⟨rfl, h⟩
  exact hfold.2

end ChannelPlanner

/-! ## Plans -/

namespace ChannelPlan

open ChannelPlanner

variable {app : App} {spawned scheduled : List Message} {queue : TimerQueue}
  {ledger planned : Ledger} {plan : ChannelPlan}
  (declared : ∀ message ∈ spawned ++ scheduled, message.receiver ∈ app.softwareTasks.keys)
  (h : ofMessages app spawned scheduled queue ledger = .ok (plan, planned))

include declared h

theorem ascending_channels : plan.channels.keys.Pairwise (· < ·) := by
  rw [ofMessages_eq_finished declared] at h
  cases h
  exact ascending_channels_finished _

theorem keys_freeQueues :
    plan.freeQueues.keys = ((spawned ++ scheduled).map Message.receiver).eraseDups := by
  have hstart : (start app ledger).freeQueues.keys = (receivers []).eraseDups := rfl
  have hkeys := keys_freeQueues_foldl_attempt hstart (declared_requests declared queue)
  have hreceivers : receivers ([] ++ requests spawned scheduled queue) =
      (spawned ++ scheduled).map Message.receiver := by
    have hsends : (requests spawned scheduled queue).filter Request.sends =
        requests spawned scheduled queue := by
      rw [List.filter_eq_self]
      intro request member
      rcases List.mem_append.mp member with hspawned | hscheduled
      · obtain ⟨message, -, rfl⟩ := List.mem_map.mp hspawned
        rfl
      · obtain ⟨message, -, rfl⟩ := List.mem_map.mp hscheduled
        rfl
    rw [List.nil_append, receivers, hsends, requests]
    simp [Function.comp_def, Request.message]
  rw [ofMessages_eq_finished declared] at h
  cases h
  rw [← hreceivers]
  exact hkeys

end ChannelPlan

end StackPolicy
