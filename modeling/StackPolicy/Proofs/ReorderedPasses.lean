import StackPolicy.Proofs.CleanApps
import StackPolicy.Proofs.ConcurrentReads
import StackPolicy.Proofs.InitBarriers
import StackPolicy.Proofs.SpawnBarriers

/-!
# Passes over applications in another order

Every pass says something about all accesses, claims or messages, and nothing
about their order.  What it says determines its result, so the result is the
same for every order of declarations.
-/

namespace StackPolicy

namespace App.Reordered

open Analysis

variable {first second : App} (h : first.Reordered second)

include h

/-! ## Ownerships and locations -/

theorem get?_ownershipsOf (name : String) :
    (ownershipsOf first).1.get? name = (ownershipsOf second).1.get? name :=
  Ownerships.get?_foldl_take_of_perm h.perm_accesses first second (.start true) (.start true) name

theorem get?_locationsOf (late : LatePartition) (name : String) :
    (locationsOf first late).get? name = (locationsOf second late).get? name := by
  unfold locationsOf
  rw [Table.get?_mapRows, Table.get?_mapRows,
    Locations.get?_foldl_take_of_perm h.perm_accesses name]

/-! ## Initialization -/

section Partition

variable {late other : LatePartition} (sound : first.Sound)
  (hfirst : LatePartition.ofApp first = .ok late)
  (hsecond : LatePartition.ofApp second = .ok other)

include sound hfirst hsecond

theorem provides_iff (core : Int) (name : String) :
    late.Provides core name ↔ other.Provides core name := by
  have hunclaimed (app : App) : (∀ init ∈ app.inits, name ∉ init.late) ↔
      ¬∃ init ∈ app.inits, name ∈ init.late := by
    simp
  have hclaimed : (∃ init ∈ first.inits, init.core = core ∧ name ∈ init.late) ↔
      ∃ init ∈ second.inits, init.core = core ∧ name ∈ init.late :=
    h.inits.exists_iff fun init other similar => by rw [similar.core, similar.late.mem_iff]
  rw [LatePartition.provides_iff sound hfirst,
    LatePartition.provides_iff (h.sound sound) hsecond]
  simp only [hunclaimed, hclaimed, h.perm_restCores.mem_iff, h.mem_keys_lateResources,
    h.exists_claim_iff]

theorem ofApp_eq : late = other := by
  by_cases hlate : first.lateResources.rows = []
  · have hrows := h.perm_lateResources
    rw [hlate] at hrows
    rw [LatePartition.ofApp_of_no_late hlate] at hfirst
    rw [LatePartition.ofApp_of_no_late hrows.symm.eq_nil] at hsecond
    cases hfirst
    cases hsecond
    rfl
  · have hother : second.lateResources.rows ≠ [] := by
      intro hnil
      have hrows := h.perm_lateResources
      rw [hnil] at hrows
      exact hlate hrows.eq_nil
    have hsame : ∀ core, late.get? core = other.get? core := by
      intro core
      apply Table.get?_eq_of_members
      · rw [LatePartition.mem_keys_ofApp hlate hfirst, LatePartition.mem_keys_ofApp hother hsecond]
        exact h.inits.exists_iff fun _ _ similar => by rw [similar.core]
      · exact h.provides_iff sound hfirst hsecond core
    obtain ⟨table, rfl⟩ := LatePartition.exists_sorted hfirst
    obtain ⟨another, rfl⟩ := LatePartition.exists_sorted hsecond
    apply Table.sortByKey_eq
    simpa only [Table.get?_sortByKey] using hsame

end Partition

theorem get?_initializationBarriers (late : LatePartition) (user : Int) :
    (Barriers.ofAccesses first.accesses late).get? user =
      (Barriers.ofAccesses second.accesses late).get? user := by
  rw [Barriers.ofAccesses_of_perm h.perm_accesses]

/-! ## The timer queue -/

theorem totalCapacity (tasks : SortedSet String) :
    first.totalCapacity tasks = second.totalCapacity tasks := by
  unfold App.totalCapacity
  simp only [h.softwareTasks.map_get? fun _ _ similar => similar.capacity]

theorem timerQueue_eq {queue other : TimerQueue}
    (hfirst : queue.Describes first first.scheduled)
    (hsecond : other.Describes second second.scheduled) : queue = other := by
  have htasks : queue.tasks = other.tasks := by
    ext name
    rw [hfirst.mem_tasks, hsecond.mem_tasks]
    exact h.scheduled.exists_iff fun _ _ similar => by rw [similar.receiver]
  have hreceivers (priority : Int) : (∃ message ∈ first.scheduled, ∃ task,
      first.softwareTasks.get? message.receiver = some task ∧ task.priority = priority) ↔
      ∃ message ∈ second.scheduled, ∃ task,
        second.softwareTasks.get? message.receiver = some task ∧ task.priority = priority :=
    h.scheduled.exists_iff fun _ message similar => by
      rw [similar.receiver]
      exact h.softwareTasks.exists_get?_iff (fun _ _ same => by rw [same.priority])
        message.receiver
  have hsenders (priority : Int) : (∃ message ∈ first.scheduled,
      message.sender.priority = some priority) ↔
      ∃ message ∈ second.scheduled, message.sender.priority = some priority :=
    h.scheduled.exists_iff fun _ _ similar => by rw [similar.sender.priority]
  have hpriority : queue.priority = other.priority := by
    have hhighest := hfirst.priority.congr fun priority => or_congr Iff.rfl (hreceivers priority)
    exact Option.some.inj (hhighest.unique hsecond.priority)
  have hceiling : queue.ceiling = other.ceiling := by
    have hhighest := hfirst.ceiling.congr fun priority =>
      or_congr (or_congr Iff.rfl (hsenders priority)) (by rw [hpriority])
    exact Option.some.inj (hhighest.unique hsecond.ceiling)
  have hcapacity : queue.capacity = other.capacity := by
    rw [hfirst.capacity, hsecond.capacity, htasks, h.totalCapacity]
  cases queue
  cases other
  rw [TimerQueue.mk.injEq]
  exact ⟨hpriority, hceiling, hcapacity, htasks⟩

end App.Reordered

/-! ## Channels -/

namespace ChannelPlanner.Request

structure Reordered (first second : Request) : Prop where
  sends : first.sends = second.sends
  message : first.message.Reordered second.message
  contender : first.contender = second.contender

variable {first second : App} (h : first.Reordered second) {request other : Request}
  (similar : request.Reordered other)

include similar

theorem Reordered.sendsTo_iff (name : String) : request.SendsTo name ↔ other.SendsTo name := by
  unfold SendsTo
  rw [similar.sends, similar.message.receiver]

include h

theorem Reordered.joins_iff (key : Int) :
    request.Joins first key ↔ other.Joins second key := by
  unfold Joins
  rw [similar.sends, similar.message.receiver]
  exact and_congr Iff.rfl
    (h.softwareTasks.exists_get?_iff (fun _ _ same => by rw [same.priority]) _)

theorem Reordered.crosses_iff (receiver sender : Int) :
    request.Crosses first receiver sender ↔ other.Crosses second receiver sender := by
  unfold Crosses Message.crosses
  simp only [Bool.and_eq_true, decide_eq_true_eq, Option.any_eq_true]
  rw [similar.sends, similar.message.receiver, similar.message.sender.core]
  exact and_congr Iff.rfl (and_congr Iff.rfl
    (h.softwareTasks.exists_get?_iff (fun _ _ same => by rw [same.core]) _))

end ChannelPlanner.Request

namespace App.Reordered

open ChannelPlanner

variable {first second : App} (h : first.Reordered second)

include h

theorem requests (queue : TimerQueue) :
    Rearranged Request.Reordered
      (ChannelPlan.requests first.spawned first.scheduled queue)
      (ChannelPlan.requests second.spawned second.scheduled queue) :=
  (h.spawned.map fun _ _ similar => ⟨rfl, similar, similar.sender.priority⟩).append
    (h.scheduled.map fun _ _ similar => ⟨rfl, similar, rfl⟩)

theorem spawnsOnto_iff (fromInit : Bool) (sender receiver : Int) :
    first.SpawnsOnto fromInit sender receiver ↔ second.SpawnsOnto fromInit sender receiver := by
  have htask (name : String) : (∃ task, first.softwareTasks.get? name = some task ∧
      task.core = receiver) ↔
      ∃ task, second.softwareTasks.get? name = some task ∧ task.core = receiver :=
    h.softwareTasks.exists_get?_iff (fun _ _ same => by rw [same.core]) name
  apply h.contexts.exists_iff
  intro context other similar
  simp only [similar.isInit, similar.core, similar.spawn.mem_iff, htask]

section Plan

variable {queue : TimerQueue} {plan other : ChannelPlan}
  (hfirst : plan.Describes first (ChannelPlan.requests first.spawned first.scheduled queue))
  (hsecond : other.Describes second (ChannelPlan.requests second.spawned second.scheduled queue))

include hfirst hsecond

theorem get?_freeQueues (name : String) :
    plan.freeQueues.get? name = other.freeQueues.get? name := by
  apply Table.get?_congr
  · rw [hfirst.mem_freeQueues, hsecond.mem_freeQueues]
    exact (h.requests queue).exists_iff fun _ _ similar => similar.sendsTo_iff name
  · intro ceiling highest hceiling hhighest
    have hsenders (priority : Int) := (h.requests queue).exists_iff
      fun request copy (similar : Request.Reordered request copy) =>
        and_congr (similar.sendsTo_iff name)
          (show request.message.sender.priority = some priority ↔
            copy.message.sender.priority = some priority by
              rw [similar.message.sender.priority])
    exact ((hfirst.freeQueue name ceiling hceiling).congr hsenders).unique
      (hsecond.freeQueue name highest hhighest)

theorem get?_channels (key : Int) : plan.channels.get? key = other.channels.get? key := by
  apply Table.get?_congr
  · rw [hfirst.mem_channels, hsecond.mem_channels]
    exact (h.requests queue).exists_iff fun _ _ similar => similar.joins_iff h key
  · intro channel another hchannel hanother
    have htasks : channel.tasks = another.tasks := by
      ext name
      rw [hfirst.mem_tasks key channel hchannel, hsecond.mem_tasks key another hanother]
      exact (h.requests queue).exists_iff fun _ _ similar =>
        and_congr (similar.sendsTo_iff name) (similar.joins_iff h key)
    have hcontenders (priority : Int) := (h.requests queue).exists_iff
      fun request copy (similar : Request.Reordered request copy) =>
        and_congr (similar.joins_iff h key)
          (show request.contender = some priority ↔ copy.contender = some priority by
            rw [similar.contender])
    have hceiling : channel.ceiling = another.ceiling :=
      ((hfirst.ceiling key channel hchannel).congr hcontenders).unique
        (hsecond.ceiling key another hanother)
    have hcapacity : channel.capacity = another.capacity := by
      rw [hfirst.capacity key channel hchannel, hsecond.capacity key another hanother, htasks,
        h.totalCapacity]
    cases channel
    cases another
    rw [Channel.mk.injEq]
    exact ⟨hceiling, hcapacity, htasks⟩

theorem mem_keys_spawnBarriers (receiver : Int) :
    receiver ∈ plan.spawnBarriers.keys ↔ receiver ∈ other.spawnBarriers.keys := by
  rw [hfirst.mem_barriers, hsecond.mem_barriers]
  exact exists_congr fun sender =>
    (h.requests queue).exists_iff fun _ _ similar => similar.crosses_iff h receiver sender

theorem flag?_spawnBarriers (receiver sender : Int) :
    plan.spawnBarriers.flag? receiver sender = other.spawnBarriers.flag? receiver sender := by
  have hcrosses := (h.requests queue).exists_iff fun request copy
    (similar : Request.Reordered request copy) => similar.crosses_iff h receiver sender
  by_cases hnone : ∃ request ∈ ChannelPlan.requests first.spawned first.scheduled queue,
      request.Crosses first receiver sender
  · have hplan := hfirst.flag_eq_some receiver sender hnone
    have hother := hsecond.flag_eq_some receiver sender (hcrosses.mp hnone)
    rw [hplan, hother, Option.some.injEq, Bool.eq_iff_iff, hfirst.flag_eq_true_iff hplan,
      hsecond.flag_eq_true_iff hother, h.spawnsOnto_iff, h.spawnsOnto_iff]
  · rw [hfirst.flag_eq_none receiver sender fun request member hcross =>
        hnone ⟨request, member, hcross⟩,
      hsecond.flag_eq_none receiver sender fun request member hcross =>
        hnone (hcrosses.mpr ⟨request, member, hcross⟩)]

end Plan

/-! ## Obligations -/

open Analysis

theorem moves_iff {message other : Message} (similar : message.Reordered other) (ty : String) :
    message.Moves first ty ↔ other.Moves second ty := by
  have hmoves (app : App) (message : Message) : message.Moves app ty ↔
      ∃ task, app.softwareTasks.get? message.receiver = some task ∧ ty ∈ task.inputs ∧
        message.sender.mustTransfer task.core task.priority = true := by
    constructor
    · rintro ⟨delivery, hdeliver, hmoves⟩
      obtain ⟨task, found, rfl⟩ := Message.deliver_eq_ok_iff.mp hdeliver
      exact ⟨task, App.task_eq_ok_iff.mp found, hmoves⟩
    · rintro ⟨task, found, hmoves⟩
      exact ⟨_, Message.deliver_eq_ok_iff.mpr ⟨task, App.task_eq_ok_iff.mpr found, rfl⟩, hmoves⟩
  rw [hmoves, hmoves, similar.receiver]
  apply h.softwareTasks.exists_get?_iff
  intro task another same
  unfold Context.mustTransfer
  rw [same.inputs, same.core, same.priority, similar.sender.core, similar.sender.priority]

theorem mem_transfer_safetyOf (late : LatePartition) (ty : String) :
    ty ∈ (safetyOf first late).transfer ↔ ty ∈ (safetyOf second late).transfer := by
  have hstart (app : App) : ty ∉ (ownershipsOf app).2.withoutEntries.transfer := by
    change ty ∉ (ownershipsOf app).2.transfer
    unfold ownershipsOf
    rw [Ownerships.transfer_foldl_take]
    exact SortedSet.not_mem_empty ty
  have hinits : (first.inits.flatMap fun init => init.resources.keys).Perm
      (second.inits.flatMap fun init => init.resources.keys) :=
    h.inits.perm_flatMap fun _ _ similar => similar.resources.map Prod.fst
  unfold safetyOf
  simp only [Ledger.mem_transfer_requireInitResources, Ledger.mem_transfer_requireLateResources,
    hstart, false_or, h.get?_ownershipsOf, h.get?_locationsOf, h.get?_resources,
    h.perm_lateResources.mem_iff, hinits.mem_iff]

end App.Reordered

end StackPolicy
