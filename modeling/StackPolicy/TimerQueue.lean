import StackPolicy.Transfer

/-!
# The timer queue

Scheduled messages wait in one queue, whose handler releases them.  The
handler runs at the priority of the most urgent task that can be scheduled,
and the ceiling of the queue is at least that and the priority of every
scheduler.  Initialization never contends for the queue.
-/

namespace StackPolicy

/-- Priorities start from 1, also for a queue that is never used. -/
structure TimerQueue where
  priority : Int
  ceiling : Int
  capacity : Int
  tasks : SortedSet String
  deriving DecidableEq, Repr

namespace TimerQueue

def unused : TimerQueue := ⟨1, 1, 0, ∅⟩

def isUsed (queue : TimerQueue) : Bool := !queue.tasks.isEmpty

structure Draft where
  priority : Int
  ceiling : Int
  tasks : SortedSet String
  ledger : Ledger

def Draft.start (ledger : Ledger) : Draft := ⟨1, 1, ∅, ledger⟩

def noteUpdate (ledger : Ledger) (field : String) (value : Int) : Ledger :=
  ledger.note (.queueUpdate "timer_queue" field (.int value))

def Draft.raisePriority (draft : Draft) (priority : Int) : Draft :=
  if draft.priority < priority then
    { draft with priority, ledger := noteUpdate draft.ledger "priority" priority }
  else draft

def Draft.raiseCeiling (draft : Draft) (scheduler : Option Int) : Draft :=
  match scheduler with
  | some priority =>
      if draft.ceiling < priority then
        { draft with ceiling := priority, ledger := noteUpdate draft.ledger "ceiling" priority }
      else draft
  | none => draft

def Draft.add (draft : Draft) (delivery : Delivery) : Draft :=
  let draft := { draft with tasks := draft.tasks.insert delivery.receiver }
  let draft := (draft.raisePriority delivery.task.priority).raiseCeiling delivery.sender.priority
  { draft with ledger := draft.ledger.requireMessage delivery "schedule" }

def check (queue : TimerQueue) : Except Failure Unit :=
  Failure.checkBounds "TimerQueue"
    [⟨"priority", 1, queue.priority⟩, ⟨"ceiling", 1, queue.ceiling⟩,
      ⟨"capacity", 0, queue.capacity⟩]

/-- The handler takes the queue too, so the ceiling is never below its priority. -/
def Draft.finish (draft : Draft) (app : App) : Except Failure TimerQueue := do
  let capacity ← app.capacityOf draft.tasks
  let queue := ⟨draft.priority, max draft.ceiling draft.priority, capacity, draft.tasks⟩
  check queue
  pure queue

def ofMessages (app : App) (scheduled : List Message) (ledger : Ledger) :
    Except Failure (TimerQueue × Ledger) := do
  let deliveries ← scheduled.mapM (Message.deliver app)
  let draft := deliveries.foldl Draft.add (Draft.start ledger)
  let queue ← draft.finish app
  pure (queue, draft.ledger)

end TimerQueue

end StackPolicy
