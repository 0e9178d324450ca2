import StackPolicy.TimerQueue

/-!
# Channels and free queues

A software task receives its messages through the channel of its priority,
and hands used message slots back through a free queue of its own.  A sender
with a priority raises the ceilings of both.  Scheduled messages are written
to the channel by the handler of the timer queue, so its priority raises the
ceiling of the channel, and the scheduler raises that of the free queue only.
A message between two cores makes the receiving core wait for the other one.
-/

namespace StackPolicy

structure Channel where
  ceiling : Option Int
  capacity : Int
  tasks : SortedSet String
  deriving DecidableEq, Repr

/-- The highest priority of the senders to a task; none if only initialization sends. -/
abbrev FreeQueues := Table String (Option Int)

/-- For each receiving core, the sending cores, and whether initialization sends. -/
abbrev SpawnBarriers := Table Int (Table Int Bool)

structure ChannelPlan where
  channels : Table Int Channel
  freeQueues : FreeQueues
  spawnBarriers : SpawnBarriers
  deriving DecidableEq, Repr

structure ChannelDraft where
  ceiling : Option Int
  tasks : SortedSet String
  deriving DecidableEq, Repr

structure ChannelPlanner where
  app : App
  channels : Table Int ChannelDraft
  freeQueues : FreeQueues
  barriers : SpawnBarriers
  ledger : Ledger

def raised (ceiling : Option Int) (priority : Int) : Int :=
  match ceiling with
  | none => priority
  | some ceiling => max ceiling priority

namespace ChannelPlanner

def start (app : App) (ledger : Ledger) : ChannelPlanner := ⟨app, ∅, ∅, ∅, ledger⟩

def noteCeiling (ledger : Ledger) (queue name : String) (ceiling : Int) : Ledger :=
  ledger.note (.queueUpdate (queue ++ "[" ++ name ++ "]") "ceiling" (.int ceiling))

/-! ## Channels and free queues -/

/-- Adds a task to the channel of its priority, and gives it a free queue. -/
def join (planner : ChannelPlanner) (task : String) (priority : Int) : ChannelPlanner :=
  let channel := (planner.channels.get? priority).getD ⟨none, ∅⟩
  { planner with
    channels := planner.channels.insert priority
      { channel with tasks := channel.tasks.insert task }
    freeQueues := planner.freeQueues.insertIfNew task none }

def raiseFound (planner : ChannelPlanner) (key : Int) (channel : ChannelDraft)
    (priority : Int) : ChannelPlanner :=
  let ceiling := raised channel.ceiling priority
  if channel.ceiling = some ceiling then planner
  else
    { planner with
      channels := planner.channels.insert key { channel with ceiling := some ceiling }
      ledger := noteCeiling planner.ledger "channel" (toString key) ceiling }

def raiseFreeQueue (planner : ChannelPlanner) (task : String) (priority : Int) :
    ChannelPlanner :=
  let current := (planner.freeQueues.get? task).getD none
  let ceiling := raised current priority
  if current = some ceiling then planner
  else
    { planner with
      freeQueues := planner.freeQueues.insert task (some ceiling)
      ledger := noteCeiling planner.ledger "free_queue" task ceiling }

/-! ## Barriers -/

def barriersOf (planner : ChannelPlanner) (receiver : Int) : Table Int Bool :=
  (planner.barriers.get? receiver).getD ∅

/-- A spawned message writes the barrier between its cores anew. -/
def spawnBarrier (planner : ChannelPlanner) (delivery : Delivery) : ChannelPlanner :=
  let receiver := delivery.task.core
  let sender := delivery.sender
  if sender.core = receiver then planner
  else { planner with
    barriers := planner.barriers.insert receiver
      ((planner.barriersOf receiver).insert sender.core sender.isInit) }

/-- A scheduled message leaves from the timer queue, never during initialization, and
keeps a barrier that is already there. -/
def scheduleBarrier (planner : ChannelPlanner) (delivery : Delivery) : ChannelPlanner :=
  let receiver := delivery.task.core
  let sender := delivery.sender
  if sender.core = receiver then planner
  else { planner with
    barriers := planner.barriers.insert receiver
      ((planner.barriersOf receiver).insertIfNew sender.core false) }

def requireMessage (planner : ChannelPlanner) (verb : String) (delivery : Delivery) :
    ChannelPlanner :=
  { planner with ledger := planner.ledger.requireMessage delivery verb }

/-! ## Steps -/

/-- The change of a planner by a step.  A step that fails leaves what it has written until
then. -/
abbrev Planning := ExceptT Failure (StateM ChannelPlanner)

namespace Planning

/-- A step needs the receiver of its message to be declared. -/
def deliver (message : Message) : Planning Delivery := do
  liftExcept (message.deliver (← get).app)

/-- Only a channel that some task has joined can be raised. -/
def raiseChannel (key priority : Int) : Planning Unit := do
  let planner ← get
  match planner.channels.get? key with
  | some channel => set (planner.raiseFound key channel priority)
  | none => throw (.missingChannel key)

def addSpawn (message : Message) : Planning Unit := do
  let delivery ← deliver message
  let { sender, receiver, task } := delivery
  modify (·.spawnBarrier delivery)
  modify (·.join receiver task.priority)
  if let some priority := sender.priority then
    raiseChannel task.priority priority
    modify (·.raiseFreeQueue receiver priority)
  modify (·.requireMessage "spawn" delivery)

/-- The timer queue has already laid the obligations of a scheduled message. -/
def addSchedule (message : Message) (queue : TimerQueue) : Planning Unit := do
  let delivery ← deliver message
  let { sender, receiver, task } := delivery
  modify (·.scheduleBarrier delivery)
  modify (·.join receiver task.priority)
  raiseChannel task.priority queue.priority
  if let some priority := sender.priority then
    modify (·.raiseFreeQueue receiver priority)

def classify (message : Message) (verb : String) : Planning Unit := do
  let delivery ← deliver message
  modify (·.requireMessage verb delivery)

end Planning

inductive Request where
  | spawn (message : Message)
  | schedule (message : Message) (queue : TimerQueue)
  | classify (message : Message) (verb : String)
  deriving DecidableEq, Repr

def Request.message : Request → Message
  | spawn message => message
  | schedule message _ => message
  | classify message _ => message

def Request.perform : Request → Planning Unit
  | spawn message => Planning.addSpawn message
  | schedule message queue => Planning.addSchedule message queue
  | classify message verb => Planning.classify message verb

/-- The outcome of some planning, and what it makes of the planner. -/
def after {Result : Type} (planner : ChannelPlanner) (planning : Planning Result) :
    Except Failure Result × ChannelPlanner :=
  Id.run (planning.run.run planner)

/-! ## The finished plan -/

/-- A channel with the capacity of all its tasks, of which there is at least one. -/
def finishChannel (app : App) (priority : Int) (channel : ChannelDraft) :
    Except Failure Channel :=
  if channel.tasks.isEmpty then .error (.emptyChannel priority)
  else do
    let capacity ← app.capacityOf channel.tasks
    Failure.checkBounds "Channel" [⟨"capacity", 0, capacity⟩]
    pure ⟨channel.ceiling, capacity, channel.tasks⟩

def finish (planner : ChannelPlanner) : Except Failure ChannelPlan := do
  let channels ← planner.channels.sortByKey.mapRowsM (finishChannel planner.app)
  pure
    { channels
      freeQueues := planner.freeQueues
      spawnBarriers := (planner.barriers.mapValues Table.sortByKey).sortByKey }

end ChannelPlanner

def ChannelPlan.ofMessages (app : App) (spawned scheduled : List Message) (queue : TimerQueue)
    (ledger : Ledger) : Except Failure (ChannelPlan × Ledger) := do
  let requests := spawned.map .spawn ++ scheduled.map (.schedule · queue)
  let (outcome, planner) :=
    (ChannelPlanner.start app ledger).after (requests.forM ChannelPlanner.Request.perform)
  outcome
  let plan ← planner.finish
  pure (plan, planner.ledger)

end StackPolicy
