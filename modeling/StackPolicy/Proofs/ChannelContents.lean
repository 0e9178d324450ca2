import StackPolicy.Proofs.Guarantees
import StackPolicy.Proofs.PlannerRecords

/-!
# What a finished plan says

A plan tells for every channel which tasks receive messages through it, how
many messages may wait there, and its ceiling.  It gives every receiver a free
queue, and every pair of cores with a message between them a barrier.
-/

namespace StackPolicy

namespace ChannelPlanner

/-- The plan of a planner whose tasks are all declared. -/
def finished (planner : ChannelPlanner) : ChannelPlan where
  channels := planner.channels.sortByKey.mapValues fun channel =>
    ⟨channel.ceiling, planner.app.totalCapacity channel.tasks, channel.tasks⟩
  freeQueues := planner.freeQueues
  spawnBarriers := (planner.barriers.mapValues Table.sortByKey).sortByKey

theorem Sound.finishChannel_eq_ok {planner : ChannelPlanner} (h : planner.Sound) {key : Int}
    {channel : ChannelDraft} (found : planner.channels.get? key = some channel) :
    finishChannel planner.app key channel =
      .ok ⟨channel.ceiling, planner.app.totalCapacity channel.tasks, channel.tasks⟩ := by
  have hcapacity := App.capacityOf_eq_ok (h.declared key channel found)
  obtain ⟨finished, hfinished⟩ := h.exists_finishChannel found
  unfold finishChannel at hfinished ⊢
  rw [if_neg (by simp [h.nonempty key channel found]), bind_of_ok hcapacity] at hfinished ⊢
  obtain ⟨_, hcheck, -⟩ := bind_eq_ok_iff.mp hfinished
  rw [bind_of_ok hcheck]
  rfl

theorem Sound.finish_eq_ok {planner : ChannelPlanner} (h : planner.Sound) :
    planner.finish = .ok planner.finished := by
  have hchannels : planner.channels.sortByKey.mapRowsM (finishChannel planner.app) =
      .ok (planner.channels.sortByKey.mapValues fun channel =>
        ⟨channel.ceiling, planner.app.totalCapacity channel.tasks, channel.tasks⟩) := by
    apply Table.mapRowsM_eq_ok
    intro row member
    have found := Table.get?_eq_some_iff.mpr member
    rw [Table.get?_sortByKey] at found
    exact h.finishChannel_eq_ok found
  unfold finish
  rw [bind_of_ok hchannels]
  rfl

theorem get?_channels_finished (planner : ChannelPlanner) (key : Int) :
    planner.finished.channels.get? key = (planner.channels.get? key).map fun channel =>
      ⟨channel.ceiling, planner.app.totalCapacity channel.tasks, channel.tasks⟩ := by
  unfold finished Table.mapValues
  rw [Table.get?_mapRows, Table.get?_sortByKey]

theorem flag?_finished (planner : ChannelPlanner) (receiver sender : Int) :
    planner.finished.spawnBarriers.flag? receiver sender =
      planner.barriers.flag? receiver sender := by
  unfold finished SpawnBarriers.flag? Table.mapValues
  rw [Table.get?_sortByKey, Table.get?_mapRows]
  cases planner.barriers.get? receiver <;> simp

theorem mem_barriers_finished (planner : ChannelPlanner) (receiver : Int) :
    receiver ∈ planner.finished.spawnBarriers.keys ↔ receiver ∈ planner.barriers.keys := by
  unfold finished Table.mapValues
  rw [Table.mem_keys_sortByKey, Table.keys_mapRows]

end ChannelPlanner

namespace ChannelPlan

open ChannelPlanner

/-- What a plan says about the messages of all requests. -/
structure Describes (app : App) (requests : List Request) (plan : ChannelPlan) : Prop where
  mem_freeQueues : ∀ name, name ∈ plan.freeQueues.keys ↔
    ∃ request ∈ requests, request.SendsTo name
  freeQueue : ∀ name ceiling, plan.freeQueues.get? name = some ceiling →
    IsHighest (fun priority => ∃ request ∈ requests, request.SendsTo name ∧
      request.message.sender.priority = some priority) ceiling
  mem_channels : ∀ key, key ∈ plan.channels.keys ↔ ∃ request ∈ requests, request.Joins app key
  mem_tasks : ∀ key channel, plan.channels.get? key = some channel → ∀ name,
    name ∈ channel.tasks ↔ ∃ request ∈ requests, request.SendsTo name ∧ request.Joins app key
  capacity : ∀ key channel, plan.channels.get? key = some channel →
    channel.capacity = app.totalCapacity channel.tasks
  ceiling : ∀ key channel, plan.channels.get? key = some channel →
    IsHighest (fun priority => ∃ request ∈ requests, request.Joins app key ∧
      request.contender = some priority) channel.ceiling
  mem_barriers : ∀ receiver, receiver ∈ plan.spawnBarriers.keys ↔
    ∃ sender, ∃ request ∈ requests, request.Crosses app receiver sender
  flag_eq_none : ∀ receiver sender,
    (∀ request ∈ requests, ¬request.Crosses app receiver sender) →
      plan.spawnBarriers.flag? receiver sender = none
  flag_eq_some : ∀ receiver sender,
    (∃ request ∈ requests, request.Crosses app receiver sender) →
      plan.spawnBarriers.flag? receiver sender =
        some ((spawnedAcross app requests receiver sender).getLast?.any
          fun message => message.sender.isInit)

theorem describes_finished {app : App} {requests : List Request} {planner : ChannelPlanner}
    (h : Records app requests planner) : planner.finished.Describes app requests := by
  have hdraft : ∀ key channel, planner.finished.channels.get? key = some channel →
      channel.tasks = (planner.draftAt key).tasks ∧
        channel.ceiling = (planner.draftAt key).ceiling ∧
        channel.capacity = app.totalCapacity channel.tasks := by
    intro key channel found
    rw [get?_channels_finished] at found
    obtain ⟨draft, hdraft, rfl⟩ := Option.map_eq_some_iff.mp found
    rw [draftAt, hdraft, h.app_eq]
    exact ⟨rfl, rfl, rfl⟩
  constructor
  · exact h.mem_freeQueues
  · intro name ceiling found
    have hfound : planner.freeQueues.get? name = some ceiling := found
    simpa [hfound] using h.freeQueue name
  · intro key
    unfold finished Table.mapValues
    rw [Table.keys_mapRows, Table.mem_keys_sortByKey]
    exact h.mem_channels key
  · intro key channel found name
    rw [(hdraft key channel found).1]
    exact h.mem_tasks key name
  · intro key channel found
    exact (hdraft key channel found).2.2
  · intro key channel found
    rw [(hdraft key channel found).2.1]
    exact h.ceiling key
  · intro receiver
    rw [mem_barriers_finished]
    exact h.mem_barriers receiver
  · intro receiver sender none
    rw [flag?_finished]
    exact h.flag_eq_none receiver sender none
  · intro receiver sender some
    rw [flag?_finished]
    exact h.flag_eq_some receiver sender some

section Described

variable {app : App} {requests : List Request} {plan : ChannelPlan}
  (h : plan.Describes app requests)

include h

theorem Describes.nonempty {key : Int} {channel : Channel}
    (found : plan.channels.get? key = some channel) : channel.tasks.isEmpty = false := by
  obtain ⟨request, member, hjoins⟩ := (h.mem_channels key).mp (Table.mem_keys_iff.mpr ⟨_, found⟩)
  exact SortedSet.isEmpty_eq_false_iff.mpr ⟨request.message.receiver,
    (h.mem_tasks key channel found _).mpr ⟨request, member, ⟨hjoins.1, rfl⟩, hjoins⟩⟩

/-- A receiver belongs to the channel of its priority and to no other one. -/
theorem Describes.mem_channel_iff {name : String} {task : SoftwareTask}
    (found : app.softwareTasks.get? name = some task)
    (sent : ∃ request ∈ requests, request.SendsTo name) (key : Int) :
    (∃ channel, plan.channels.get? key = some channel ∧ name ∈ channel.tasks) ↔
      key = task.priority := by
  constructor
  · rintro ⟨channel, hchannel, hname⟩
    obtain ⟨request, -, hsends, hjoins⟩ := (h.mem_tasks key channel hchannel name).mp hname
    obtain ⟨-, declared, hdeclared, rfl⟩ := hjoins
    rw [hsends.2, found] at hdeclared
    cases hdeclared
    rfl
  · rintro rfl
    obtain ⟨request, member, hsends⟩ := sent
    have hjoins : request.Joins app task.priority :=
      ⟨hsends.1, task, hsends.2.symm ▸ found, rfl⟩
    obtain ⟨channel, hchannel⟩ :=
      Table.mem_keys_iff.mp ((h.mem_channels task.priority).mpr ⟨request, member, hjoins⟩)
    exact ⟨channel, hchannel,
      (h.mem_tasks _ channel hchannel name).mpr ⟨request, member, hsends, hjoins⟩⟩

end Described

section Messages

variable {app : App} {spawned scheduled : List Message}
  (declared : ∀ message ∈ spawned ++ scheduled, message.receiver ∈ app.softwareTasks.keys)

include declared

theorem declared_requests (queue : TimerQueue) :
    ∀ request ∈ requests spawned scheduled queue,
      request.message.receiver ∈ app.softwareTasks.keys := by
  intro request member
  rcases List.mem_append.mp member with hspawn | hschedule
  · obtain ⟨message, hmessage, rfl⟩ := List.mem_map.mp hspawn
    exact declared message (List.mem_append_left _ hmessage)
  · obtain ⟨message, hmessage, rfl⟩ := List.mem_map.mp hschedule
    exact declared message (List.mem_append_right _ hmessage)

theorem ofMessages_eq_finished (queue : TimerQueue) (ledger : Ledger) :
    ofMessages app spawned scheduled queue ledger =
      .ok (((requests spawned scheduled queue).foldl attempt (start app ledger)).finished,
        ((requests spawned scheduled queue).foldl attempt (start app ledger)).ledger) := by
  have hsound := (sound_start app ledger).foldl_attempt (requests spawned scheduled queue)
  rw [ofMessages_of_after (after_forM_of_declared (declared_requests declared queue))]
  exact bind_of_ok hsound.finish_eq_ok _

/-- The plan of an application's messages describes them. -/
theorem describes_ofMessages {queue : TimerQueue} {ledger planned : Ledger} {plan : ChannelPlan}
    (h : ofMessages app spawned scheduled queue ledger = .ok (plan, planned)) :
    plan.Describes app (requests spawned scheduled queue) := by
  have hrecords := (records_start app ledger).foldl_attempt (declared_requests declared queue)
  rw [ofMessages_eq_finished declared] at h
  cases h
  exact describes_finished hrecords

end Messages

/-- Requests with declared receivers leave a plan that describes all their messages.  Every
receiver is in one channel, and no channel is empty. -/
theorem describes_of_requests {app : App} {requests : List Request} (ledger : Ledger)
    (declared : ∀ request ∈ requests, request.message.receiver ∈ app.softwareTasks.keys) :
    ∃ planner plan,
      (start app ledger).after (requests.forM Request.perform) = (.ok (), planner) ∧
      planner.finish = .ok plan ∧ plan.Describes app requests ∧
      (∀ key channel, plan.channels.get? key = some channel → channel.tasks.isEmpty = false) ∧
      ∀ request ∈ requests, request.sends = true → ∃ priority, ∀ key,
        (∃ channel, plan.channels.get? key = some channel ∧
          request.message.receiver ∈ channel.tasks) ↔ key = priority := by
  have hrecords : Records app requests (requests.foldl attempt (start app ledger)) := by
    simpa using (records_start app ledger).foldl_attempt declared
  have hdescribes := describes_finished hrecords
  have hsound := (sound_start app ledger).foldl_attempt requests
  refine ⟨_, _, after_forM_of_declared declared, hsound.finish_eq_ok, hdescribes,
    fun key channel => hdescribes.nonempty, fun request member hsends => ?_⟩
  obtain ⟨task, found⟩ := Table.mem_keys_iff.mp (declared request member)
  exact ⟨task.priority, hdescribes.mem_channel_iff found ⟨request, member, hsends, rfl⟩⟩

/-- A task spawns the filter of the other core, which initialization schedules as well. -/
def pipelineRequests : List Request :=
  [.spawn ⟨.ofHardwareTask "uart"
      ((Routine.exclusive 0 [] ["filter"] []).hardware "UART0" (.after 3)), "filter"⟩,
    .schedule ⟨.ofInit ⟨.exclusive 0 [] [] ["filter"], []⟩, "filter"⟩ .unused]

theorem describes_pipelineRequests :
    (∀ request ∈ pipelineRequests,
      request.message.receiver ∈ App.pipeline.softwareTasks.keys) ∧
    ∃ planner plan,
      (start App.pipeline (.start true)).after (pipelineRequests.forM Request.perform) =
        (.ok (), planner) ∧
      planner.finish = .ok plan ∧ plan.freeQueues.get? "filter" = some (some 4) ∧
      plan.spawnBarriers.flag? 1 0 = some false := by
  have hdeclared : ∀ request ∈ pipelineRequests,
      request.message.receiver ∈ App.pipeline.softwareTasks.keys := by
    decide
  obtain ⟨planner, plan, hafter, hfinish, hdescribes, -, -⟩ :=
    describes_of_requests (.start true) hdeclared
  refine ⟨hdeclared, planner, plan, hafter, hfinish, ?_, ?_⟩
  · have hkey := (hdescribes.mem_freeQueues "filter").mpr
      ⟨_, List.mem_cons_self, rfl, rfl⟩
    obtain ⟨ceiling, found⟩ := Table.mem_keys_iff.mp hkey
    rw [found]
    apply congrArg some
    apply (hdescribes.freeQueue "filter" ceiling found).unique
    refine ⟨⟨_, List.mem_cons_self, ⟨rfl, rfl⟩, rfl⟩, ?_⟩
    rintro priority ⟨request, member, -, hpriority⟩
    simp only [pipelineRequests, List.mem_cons, List.not_mem_nil, or_false] at member
    rcases member with rfl | rfl
    · cases hpriority
      decide
    · cases hpriority
  · exact hdescribes.flag_eq_some 1 0 ⟨_, List.mem_cons_self, rfl, by decide⟩

end ChannelPlan

end StackPolicy
