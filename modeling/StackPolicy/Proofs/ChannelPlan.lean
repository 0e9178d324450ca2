import StackPolicy.Proofs.Planning

/-!
# When the channels can be planned

The channels that the messages leave are all joined by declared tasks, so a
plan can always be finished.  Planning fails at the first message whose
receiver is not declared.
-/

namespace StackPolicy

namespace ChannelPlanner

theorem Sound.exists_finishChannel {planner : ChannelPlanner} (h : planner.Sound) {key : Int}
    {channel : ChannelDraft} (found : planner.channels.get? key = some channel) :
    ∃ finished, finishChannel planner.app key channel = .ok finished := by
  obtain ⟨capacity, hcapacity, hnonneg⟩ := App.exists_capacityOf (h.declared key channel found)
  have hnonempty := h.nonempty key channel found
  have hcheck : Failure.checkBounds "Channel" [⟨"capacity", 0, capacity⟩] = .ok () :=
    Failure.checkBounds_eq_ok (by simpa using hnonneg)
  refine ⟨⟨channel.ceiling, capacity, channel.tasks⟩, ?_⟩
  unfold finishChannel
  rw [if_neg (by simp [hnonempty]), bind_of_ok hcapacity, bind_of_ok hcheck]
  rfl

theorem Sound.exists_finish {planner : ChannelPlanner} (h : planner.Sound) :
    ∃ plan, planner.finish = .ok plan := by
  have hchannels : ∀ row ∈ planner.channels.sortByKey.rows,
      ∃ finished, finishChannel planner.app row.1 row.2 = .ok finished := by
    intro row member
    have found := Table.get?_eq_some_iff.mpr member
    rw [Table.get?_sortByKey] at found
    exact h.exists_finishChannel found
  obtain ⟨channels, hfinished⟩ := Table.exists_mapRowsM_eq_ok hchannels
  unfold finish
  rw [bind_of_ok hfinished]
  exact ⟨_, rfl⟩

end ChannelPlanner

namespace ChannelPlan

open ChannelPlanner

/-- The steps of a plan: all spawned messages, followed by all scheduled ones. -/
def requests (spawned scheduled : List Message) (queue : TimerQueue) : List Request :=
  spawned.map .spawn ++ scheduled.map (.schedule · queue)

theorem ofMessages_of_after {app : App} {spawned scheduled : List Message} {queue : TimerQueue}
    {ledger : Ledger} {outcome : Except Failure Unit} {planner : ChannelPlanner}
    (h : (start app ledger).after ((requests spawned scheduled queue).forM Request.perform) =
      (outcome, planner)) :
    ofMessages app spawned scheduled queue ledger =
      outcome >>= fun _ => planner.finish >>= fun plan => pure (plan, planner.ledger) := by
  unfold requests at h
  unfold ofMessages
  simp only [h]

theorem ofMessages_eq_ok {app : App} {spawned scheduled : List Message} (queue : TimerQueue)
    (ledger : Ledger)
    (hspawned : ∀ message ∈ spawned, message.receiver ∈ app.softwareTasks.keys)
    (hscheduled : ∀ message ∈ scheduled, message.receiver ∈ app.softwareTasks.keys) :
    ∃ plan planned, ofMessages app spawned scheduled queue ledger = .ok (plan, planned) ∧
      ∀ ty, ty ∈ planned.transfer ↔
        ty ∈ ledger.transfer ∨ ∃ message ∈ spawned, message.Moves app ty := by
  have hdeclared : ∀ request ∈ requests spawned scheduled queue,
      request.message.receiver ∈ (start app ledger).app.softwareTasks.keys := by
    intro request member
    rcases List.mem_append.mp member with hspawn | hschedule
    · obtain ⟨message, hmessage, rfl⟩ := List.mem_map.mp hspawn
      exact hspawned message hmessage
    · obtain ⟨message, hmessage, rfl⟩ := List.mem_map.mp hschedule
      exact hscheduled message hmessage
  have hrun := after_forM_of_declared hdeclared
  have hsound := (sound_start app ledger).foldl_attempt (requests spawned scheduled queue)
  obtain ⟨plan, hplan⟩ := hsound.exists_finish
  refine ⟨plan, ((requests spawned scheduled queue).foldl attempt (start app ledger)).ledger,
    ?_, fun ty => ?_⟩
  · rw [ofMessages_of_after hrun]
    exact bind_of_ok hplan _
  · rw [mem_transfer_foldl_attempt]
    apply or_congr Iff.rfl
    constructor
    · rintro ⟨request, member, task, found, hmoves⟩
      rcases List.mem_append.mp member with hspawn | hschedule
      · obtain ⟨message, hmessage, rfl⟩ := List.mem_map.mp hspawn
        exact ⟨message, hmessage, _,
          Message.deliver_eq_ok_iff.mpr ⟨task, App.task_eq_ok_iff.mpr found, rfl⟩, hmoves⟩
      · obtain ⟨message, -, rfl⟩ := List.mem_map.mp hschedule
        exact hmoves.elim
    · rintro ⟨message, hmessage, delivery, hdeliver, hmoves⟩
      obtain ⟨task, found, rfl⟩ := Message.deliver_eq_ok_iff.mp hdeliver
      exact ⟨.spawn message, List.mem_append_left _ (List.mem_map_of_mem hmessage), task,
        App.task_eq_ok_iff.mp found, hmoves⟩

/-- With all scheduled receivers declared, a plan fails at the first spawned message whose
receiver is not declared. -/
theorem ofMessages_eq_error {app : App} {spawned : List Message} {first : Message}
    (scheduled : List Message) (queue : TimerQueue) (ledger : Ledger)
    (found : spawned.find? (fun message =>
      message.receiver ∉ app.softwareTasks.keys) = some first) :
    ofMessages app spawned scheduled queue ledger =
      .error (.undeclaredTask first.receiver) := by
  have hfirst : (requests spawned scheduled queue).find? (fun request =>
      request.message.receiver ∉ (start app ledger).app.softwareTasks.keys) =
        some (.spawn first) := by
    unfold requests
    rw [List.find?_append, List.find?_map]
    change ((spawned.find? (fun message =>
      message.receiver ∉ app.softwareTasks.keys)).map Request.spawn).or _ = _
    rw [found]
    rfl
  rw [ofMessages_of_after (Prod.ext (after_forM_of_undeclared hfirst) rfl)]
  rfl

end ChannelPlan

end StackPolicy
