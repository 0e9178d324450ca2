import StackPolicy.Proofs.Ceilings
import StackPolicy.Proofs.ChannelPlan

/-!
# What a request leaves in a planner

A message gives its receiver a free queue and lets it join the channel of its
priority.  It raises both ceilings and sets the flag of the barrier between
its cores.  Nothing else changes.
-/

namespace StackPolicy

/-! ## Messages between cores -/

/-- Whether a message goes from the core `sender` to a task of another core `receiver`. -/
def Message.crosses (app : App) (message : Message) (receiver sender : Int) : Bool :=
  sender ≠ receiver && message.sender.core = sender &&
    (app.softwareTasks.get? message.receiver).any fun task => task.core = receiver

def SpawnBarriers.flag? (barriers : SpawnBarriers) (receiver sender : Int) : Option Bool :=
  (barriers.get? receiver).bind fun senders => senders.get? sender

theorem Message.crosses_of_get? {app : App} {message : Message} {task : SoftwareTask}
    (found : app.softwareTasks.get? message.receiver = some task) (receiver sender : Int) :
    message.crosses app receiver sender = true ↔
      sender ≠ receiver ∧ message.sender.core = sender ∧ task.core = receiver := by
  simp [Message.crosses, found, and_assoc]

namespace ChannelPlanner

namespace Request

/-- Requests to classify a message do not send it. -/
def sends : Request → Bool
  | classify _ _ => false
  | _ => true

def SendsTo (name : String) (request : Request) : Prop :=
  request.sends = true ∧ request.message.receiver = name

/-- Whether a request sends a message to a task of the priority `key`. -/
def Joins (app : App) (key : Int) (request : Request) : Prop :=
  request.sends = true ∧
    ∃ task, app.softwareTasks.get? request.message.receiver = some task ∧ task.priority = key

def Crosses (app : App) (receiver sender : Int) (request : Request) : Prop :=
  request.sends = true ∧ request.message.crosses app receiver sender = true

/-- The priority at which the channel of the receiver is written: that of the sender, or of the
handler of the timer queue. -/
def contender : Request → Option Int
  | spawn message => message.sender.priority
  | schedule _ queue => some queue.priority
  | classify _ _ => none

def spawned? : Request → Option Message
  | spawn message => some message
  | _ => none

end Request

/-- The spawned messages from one core to another, in their order. -/
def spawnedAcross (app : App) (requests : List Request) (receiver sender : Int) : List Message :=
  (requests.filterMap Request.spawned?).filter fun message => message.crosses app receiver sender

def draftAt (planner : ChannelPlanner) (key : Int) : ChannelDraft :=
  (planner.channels.get? key).getD ⟨none, ∅⟩

/-! ## Free queues -/

section FreeQueues

variable (planner : ChannelPlanner) (delivery : Delivery) (task name verb : String)
  (key priority : Int)

@[simp] theorem freeQueues_spawnBarrier :
    (planner.spawnBarrier delivery).freeQueues = planner.freeQueues := by
  unfold spawnBarrier
  simp only
  split <;> rfl

@[simp] theorem freeQueues_scheduleBarrier :
    (planner.scheduleBarrier delivery).freeQueues = planner.freeQueues := by
  unfold scheduleBarrier
  simp only
  split <;> rfl

@[simp] theorem freeQueues_raiseAt :
    (planner.raiseAt key priority).freeQueues = planner.freeQueues := by
  unfold raiseAt raiseFound
  simp only
  split <;> rfl

@[simp] theorem freeQueues_requireMessage :
    (planner.requireMessage verb delivery).freeQueues = planner.freeQueues := rfl

theorem get?_freeQueues_join :
    (planner.join task priority).freeQueues.get? name =
      if name = task then some ((planner.freeQueues.get? task).getD none)
      else planner.freeQueues.get? name :=
  Table.get?_insertIfNew planner.freeQueues task name none

theorem get?_freeQueues_raiseFreeQueue :
    (planner.raiseFreeQueue task priority).freeQueues.get? name =
      if name = task then
        some (some (raised ((planner.freeQueues.get? task).getD none) priority))
      else planner.freeQueues.get? name := by
  unfold raiseFreeQueue
  simp only
  split
  · rename_i unchanged
    split
    · rename_i same
      subst same
      cases found : planner.freeQueues.get? name with
      | none =>
          rw [found] at unchanged
          cases unchanged
      | some ceiling =>
          rw [found] at unchanged
          exact congrArg some unchanged
    · rfl
  · exact Table.get?_insert planner.freeQueues task name _

end FreeQueues

/-- A message gives its receiver a free queue, for which its sender contends. -/
theorem get?_freeQueues_effect (planner : ChannelPlanner) (delivery : Delivery)
    (request : Request) (name : String) :
    (request.effect planner delivery).freeQueues.get? name =
      if request.sends = true ∧ name = delivery.receiver then
        some (ceilingAfter ((planner.freeQueues.get? name).getD none) delivery.sender.priority)
      else planner.freeQueues.get? name := by
  cases request with
  | classify message verb => simp [Request.effect, Request.sends]
  | spawn message =>
      simp only [Request.effect, afterSpawn, Request.sends, true_and, freeQueues_requireMessage]
      cases delivery.sender.priority with
      | none =>
          simp only [raiseBoth, get?_freeQueues_join, freeQueues_spawnBarrier, ceilingAfter]
          split <;> simp_all
      | some priority =>
          simp only [raiseBoth, get?_freeQueues_raiseFreeQueue, freeQueues_raiseAt,
            get?_freeQueues_join, freeQueues_spawnBarrier, ceilingAfter]
          split <;> simp_all
  | schedule message queue =>
      simp only [Request.effect, afterSchedule, Request.sends, true_and]
      cases delivery.sender.priority with
      | none =>
          simp only [raiseFree, freeQueues_raiseAt, get?_freeQueues_join,
            freeQueues_scheduleBarrier, ceilingAfter]
          split <;> simp_all
      | some priority =>
          simp only [raiseFree, get?_freeQueues_raiseFreeQueue, freeQueues_raiseAt,
            get?_freeQueues_join, freeQueues_scheduleBarrier, ceilingAfter]
          split <;> simp_all

/-! ## Channels -/

theorem get?_channels_join_eq (planner : ChannelPlanner) (task : String) (priority key : Int) :
    (planner.join task priority).channels.get? key =
      if key = priority then
        some { planner.draftAt key with tasks := (planner.draftAt key).tasks.insert task }
      else planner.channels.get? key := by
  simp only [join, Table.get?_insert, draftAt]
  split
  · rename_i same
    rw [same]
  · rfl

theorem get?_channels_raiseAt {planner : ChannelPlanner} {key : Int} {channel : ChannelDraft}
    (found : planner.channels.get? key = some channel) (priority other : Int) :
    (planner.raiseAt key priority).channels.get? other =
      if other = key then some { channel with ceiling := some (raised channel.ceiling priority) }
      else planner.channels.get? other := by
  unfold raiseAt raiseFound
  simp only [found, Option.getD_some]
  split
  · rename_i unchanged
    split
    · rename_i same
      rw [same, found, ← unchanged]
    · rfl
  · exact Table.get?_insert planner.channels key other _

/-- The channel of a priority after a message to one of its tasks. -/
def ChannelDraft.receive (channel : ChannelDraft) (task : String) (contender : Option Int) :
    ChannelDraft :=
  ⟨ceilingAfter channel.ceiling contender, channel.tasks.insert task⟩

theorem get?_channels_effect (planner : ChannelPlanner) (delivery : Delivery)
    (request : Request) (same : request.message.sender = delivery.sender) (key : Int) :
    (request.effect planner delivery).channels.get? key =
      if request.sends = true ∧ key = delivery.task.priority then
        some (ChannelDraft.receive (planner.draftAt key) delivery.receiver request.contender)
      else planner.channels.get? key := by
  cases request with
  | classify message verb => simp [Request.effect, Request.sends]
  | spawn message =>
      have hsender : message.sender.priority = delivery.sender.priority :=
        congrArg Context.priority same
      have hjoin := get?_channels_join_eq (planner.spawnBarrier delivery) delivery.receiver
        delivery.task.priority
      simp only [draftAt, channels_spawnBarrier] at hjoin
      simp only [Request.effect, afterSpawn, Request.sends, true_and, channels_requireMessage,
        Request.contender, hsender, ChannelDraft.receive, draftAt]
      cases delivery.sender.priority with
      | none =>
          simp only [raiseBoth, hjoin, ceilingAfter]
      | some priority =>
          have hjoined := (hjoin delivery.task.priority).trans (if_pos rfl)
          simp only [raiseBoth, channels_raiseFreeQueue, get?_channels_raiseAt hjoined, hjoin,
            ceilingAfter]
          split <;> simp_all
  | schedule message queue =>
      have hjoin := get?_channels_join_eq (planner.scheduleBarrier delivery) delivery.receiver
        delivery.task.priority
      simp only [draftAt, channels_scheduleBarrier] at hjoin
      have hjoined := (hjoin delivery.task.priority).trans (if_pos rfl)
      simp only [Request.effect, afterSchedule, Request.sends, true_and, Request.contender,
        channels_raiseFree, get?_channels_raiseAt hjoined, hjoin, ChannelDraft.receive, draftAt,
        ceilingAfter]
      split <;> simp_all

/-! ## Barriers -/

theorem get?_barriersOf (planner : ChannelPlanner) (receiver sender : Int) :
    (planner.barriersOf receiver).get? sender = planner.barriers.flag? receiver sender := by
  unfold barriersOf SpawnBarriers.flag?
  cases planner.barriers.get? receiver <;> rfl

theorem flag?_insert (barriers : SpawnBarriers) (receiver other sender : Int)
    (senders : Table Int Bool) :
    SpawnBarriers.flag? (barriers.insert receiver senders) other sender =
      if other = receiver then senders.get? sender else barriers.flag? other sender := by
  unfold SpawnBarriers.flag?
  rw [Table.get?_insert]
  split <;> rfl

section Barriers

variable (planner : ChannelPlanner) (delivery : Delivery) (task verb : String)
  (key priority receiver sender : Int) (contender : Option Int)

@[simp] theorem barriers_join : (planner.join task priority).barriers = planner.barriers := rfl

@[simp] theorem barriers_raiseAt :
    (planner.raiseAt key priority).barriers = planner.barriers := by
  unfold raiseAt raiseFound
  simp only
  split <;> rfl

@[simp] theorem barriers_raiseFreeQueue :
    (planner.raiseFreeQueue task priority).barriers = planner.barriers := by
  unfold raiseFreeQueue
  simp only
  split <;> rfl

@[simp] theorem barriers_requireMessage :
    (planner.requireMessage verb delivery).barriers = planner.barriers := rfl

@[simp] theorem barriers_raiseBoth :
    (planner.raiseBoth delivery contender).barriers = planner.barriers := by
  cases contender <;> simp [raiseBoth]

@[simp] theorem barriers_raiseFree :
    (planner.raiseFree delivery contender).barriers = planner.barriers := by
  cases contender <;> simp [raiseFree]

theorem flag?_spawnBarrier :
    (planner.spawnBarrier delivery).barriers.flag? receiver sender =
      if sender ≠ receiver ∧ delivery.sender.core = sender ∧ delivery.task.core = receiver then
        some delivery.sender.isInit
      else planner.barriers.flag? receiver sender := by
  unfold spawnBarrier
  simp only
  split
  · rename_i inside
    rw [if_neg]
    rintro ⟨hne, rfl, rfl⟩
    exact hne inside
  · simp only [flag?_insert, Table.get?_insert, get?_barriersOf]
    grind

theorem flag?_scheduleBarrier :
    (planner.scheduleBarrier delivery).barriers.flag? receiver sender =
      if sender ≠ receiver ∧ delivery.sender.core = sender ∧ delivery.task.core = receiver then
        some ((planner.barriers.flag? receiver sender).getD false)
      else planner.barriers.flag? receiver sender := by
  unfold scheduleBarrier
  simp only
  split
  · rename_i inside
    rw [if_neg]
    rintro ⟨hne, rfl, rfl⟩
    exact hne inside
  · simp only [flag?_insert, Table.get?_insertIfNew, get?_barriersOf]
    grind

theorem mem_keys_spawnBarrier :
    receiver ∈ (planner.spawnBarrier delivery).barriers.keys ↔
      receiver ∈ planner.barriers.keys ∨
        (delivery.sender.core ≠ receiver ∧ delivery.task.core = receiver) := by
  unfold spawnBarrier
  simp only
  split
  · rename_i inside
    grind
  · simp only [Table.mem_keys_insert]
    grind

theorem mem_keys_scheduleBarrier :
    receiver ∈ (planner.scheduleBarrier delivery).barriers.keys ↔
      receiver ∈ planner.barriers.keys ∨
        (delivery.sender.core ≠ receiver ∧ delivery.task.core = receiver) := by
  unfold scheduleBarrier
  simp only
  split
  · rename_i inside
    grind
  · simp only [Table.mem_keys_insert]
    grind

end Barriers

/-- The flag of a barrier after a message between its cores: a spawned message writes it anew,
a scheduled one keeps it. -/
def Request.flagAfter (flag : Option Bool) : Request → Option Bool
  | spawn message => some message.sender.isInit
  | schedule _ _ => some (flag.getD false)
  | classify _ _ => flag

theorem flag?_effect (planner : ChannelPlanner) (delivery : Delivery) (request : Request)
    (same : request.message.sender = delivery.sender) (receiver sender : Int) :
    (request.effect planner delivery).barriers.flag? receiver sender =
      if sender ≠ receiver ∧ delivery.sender.core = sender ∧ delivery.task.core = receiver then
        request.flagAfter (planner.barriers.flag? receiver sender)
      else planner.barriers.flag? receiver sender := by
  cases request with
  | classify message verb => simp [Request.effect, Request.flagAfter]
  | spawn message =>
      have hsender : message.sender = delivery.sender := same
      simp [Request.effect, afterSpawn, Request.flagAfter, flag?_spawnBarrier, hsender]
  | schedule message queue =>
      simp [Request.effect, afterSchedule, Request.flagAfter, flag?_scheduleBarrier]

theorem mem_keys_barriers_effect (planner : ChannelPlanner) (delivery : Delivery)
    (request : Request) (receiver : Int) :
    receiver ∈ (request.effect planner delivery).barriers.keys ↔
      receiver ∈ planner.barriers.keys ∨
        (request.sends = true ∧ delivery.sender.core ≠ receiver ∧
          delivery.task.core = receiver) := by
  cases request with
  | classify message verb => simp [Request.effect, Request.sends]
  | spawn message => simp [Request.effect, afterSpawn, Request.sends, mem_keys_spawnBarrier]
  | schedule message queue =>
      simp [Request.effect, afterSchedule, Request.sends, mem_keys_scheduleBarrier]

end ChannelPlanner

end StackPolicy
