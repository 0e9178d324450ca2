import StackPolicy.Channel
import StackPolicy.Proofs.TimerQueue

/-!
# Steps of planning

A step whose receiver is declared succeeds, since the channel that it raises
has been joined before.  A step whose receiver is not declared changes nothing.
-/

namespace StackPolicy

namespace ChannelPlanner

/-! ## What a step leaves -/

/-- Raises the ceiling of a channel, which is a new one if none stands under `key`. -/
def raiseAt (planner : ChannelPlanner) (key priority : Int) : ChannelPlanner :=
  planner.raiseFound key ((planner.channels.get? key).getD ⟨none, ∅⟩) priority

def raiseBoth (planner : ChannelPlanner) (delivery : Delivery) : Option Int → ChannelPlanner
  | some priority =>
      (planner.raiseAt delivery.task.priority priority).raiseFreeQueue delivery.receiver priority
  | none => planner

def afterSpawn (planner : ChannelPlanner) (delivery : Delivery) : ChannelPlanner :=
  (((planner.spawnBarrier delivery).join delivery.receiver delivery.task.priority).raiseBoth
    delivery delivery.sender.priority).requireMessage "spawn" delivery

def raiseFree (planner : ChannelPlanner) (delivery : Delivery) : Option Int → ChannelPlanner
  | some priority => planner.raiseFreeQueue delivery.receiver priority
  | none => planner

def afterSchedule (planner : ChannelPlanner) (queue : TimerQueue) (delivery : Delivery) :
    ChannelPlanner :=
  (((planner.scheduleBarrier delivery).join delivery.receiver delivery.task.priority).raiseAt
    delivery.task.priority queue.priority).raiseFree delivery delivery.sender.priority

/-- What a request leaves if its receiver is declared. -/
def Request.effect (planner : ChannelPlanner) (delivery : Delivery) : Request → ChannelPlanner
  | spawn _ => planner.afterSpawn delivery
  | schedule _ queue => planner.afterSchedule queue delivery
  | classify _ verb => planner.requireMessage verb delivery

theorem get?_channels_join (planner : ChannelPlanner) (task : String) (priority : Int) :
    ∃ channel, (planner.join task priority).channels.get? priority = some channel :=
  ⟨_, Table.get?_insert_self _ _ _⟩

/-! ## Running a step -/

section Running

variable {Result Other : Type} {planner changed : ChannelPlanner} {first : Planning Result}

theorem after_bind_of_ok {result : Result} (h : planner.after first = (.ok result, changed))
    (next : Result → Planning Other) :
    planner.after (first >>= next) = changed.after (next result) := by
  have hrun : first.run.run planner = (.ok result, changed) := h
  unfold after
  rw [ExceptT.run_bind, StateT.run_bind, hrun]
  rfl

theorem after_bind_of_error {failure : Failure}
    (h : planner.after first = (.error failure, changed)) (next : Result → Planning Other) :
    planner.after (first >>= next) = (.error failure, changed) := by
  have hrun : first.run.run planner = (.error failure, changed) := h
  unfold after
  rw [ExceptT.run_bind, StateT.run_bind, hrun]
  rfl

end Running

theorem after_get_bind {Result : Type} (planner : ChannelPlanner)
    (next : ChannelPlanner → Planning Result) :
    planner.after (get >>= next) = planner.after (next planner) :=
  after_bind_of_ok rfl next

theorem after_modify_bind {Result : Type} (planner : ChannelPlanner)
    (change : ChannelPlanner → ChannelPlanner) (next : Unit → Planning Result) :
    planner.after (modify change >>= next) = (change planner).after (next ()) :=
  after_bind_of_ok rfl next

theorem after_deliver_of_task {planner : ChannelPlanner} {message : Message}
    {task : SoftwareTask} (found : planner.app.task message.receiver = .ok task) :
    planner.after (Planning.deliver message) =
      (.ok ⟨message.sender, message.receiver, task⟩, planner) := by
  change planner.after (liftExcept (message.deliver planner.app)) = _
  rw [Message.deliver_eq_ok_iff.mpr ⟨task, found, rfl⟩]
  rfl

theorem after_deliver_of_undeclared {planner : ChannelPlanner} {message : Message}
    (absent : message.receiver ∉ planner.app.softwareTasks.keys) :
    planner.after (Planning.deliver message) =
      (.error (.undeclaredTask message.receiver), planner) := by
  change planner.after (liftExcept (message.deliver planner.app)) = _
  rw [Message.deliver_eq_error absent]
  rfl

theorem after_raiseChannel {planner : ChannelPlanner} {key : Int} {channel : ChannelDraft}
    (found : planner.channels.get? key = some channel) (priority : Int) :
    planner.after (Planning.raiseChannel key priority) =
      (.ok (), planner.raiseAt key priority) := by
  unfold Planning.raiseChannel raiseAt
  rw [after_get_bind, found]
  rfl

theorem after_addSpawn {planner : ChannelPlanner} {message : Message} {task : SoftwareTask}
    (found : planner.app.task message.receiver = .ok task) :
    planner.after (Planning.addSpawn message) =
      (.ok (), planner.afterSpawn ⟨message.sender, message.receiver, task⟩) := by
  obtain ⟨channel, joined⟩ := get?_channels_join
    (planner.spawnBarrier ⟨message.sender, message.receiver, task⟩) message.receiver
    task.priority
  unfold Planning.addSpawn
  rw [after_bind_of_ok (after_deliver_of_task found), after_modify_bind, after_modify_bind]
  unfold afterSpawn
  cases message.sender.priority with
  | none => rfl
  | some priority =>
      exact after_bind_of_ok (after_raiseChannel joined priority) _

theorem after_addSchedule {planner : ChannelPlanner} {message : Message} {task : SoftwareTask}
    (found : planner.app.task message.receiver = .ok task) (queue : TimerQueue) :
    planner.after (Planning.addSchedule message queue) =
      (.ok (), planner.afterSchedule queue ⟨message.sender, message.receiver, task⟩) := by
  obtain ⟨channel, joined⟩ := get?_channels_join
    (planner.scheduleBarrier ⟨message.sender, message.receiver, task⟩) message.receiver
    task.priority
  unfold Planning.addSchedule
  rw [after_bind_of_ok (after_deliver_of_task found), after_modify_bind, after_modify_bind,
    after_bind_of_ok (after_raiseChannel joined queue.priority)]
  unfold afterSchedule
  cases message.sender.priority <;> rfl

theorem after_perform_of_task {planner : ChannelPlanner} {request : Request}
    {task : SoftwareTask} (found : planner.app.task request.message.receiver = .ok task) :
    planner.after request.perform =
      (.ok (), request.effect planner
        ⟨request.message.sender, request.message.receiver, task⟩) := by
  cases request with
  | spawn message => exact after_addSpawn found
  | schedule message queue => exact after_addSchedule found queue
  | classify message verb => exact after_bind_of_ok (after_deliver_of_task found) _

/-- A step that fails does so before it has written anything. -/
theorem after_perform_of_undeclared {planner : ChannelPlanner} {request : Request}
    (absent : request.message.receiver ∉ planner.app.softwareTasks.keys) :
    planner.after request.perform =
      (.error (.undeclaredTask request.message.receiver), planner) := by
  cases request <;> exact after_bind_of_error (after_deliver_of_undeclared absent) _

/-! ## What a step keeps -/

section Fields

variable (planner : ChannelPlanner) (delivery : Delivery) (task verb : String)
  (key priority : Int)

@[simp] theorem app_spawnBarrier : (planner.spawnBarrier delivery).app = planner.app := by
  unfold spawnBarrier
  simp only
  split <;> rfl

@[simp] theorem app_scheduleBarrier : (planner.scheduleBarrier delivery).app = planner.app := by
  unfold scheduleBarrier
  simp only
  split <;> rfl

@[simp] theorem app_join : (planner.join task priority).app = planner.app := rfl

@[simp] theorem app_raiseAt : (planner.raiseAt key priority).app = planner.app := by
  unfold raiseAt raiseFound
  simp only
  split <;> rfl

@[simp] theorem app_raiseFreeQueue :
    (planner.raiseFreeQueue task priority).app = planner.app := by
  unfold raiseFreeQueue
  simp only
  split <;> rfl

@[simp] theorem app_requireMessage : (planner.requireMessage verb delivery).app = planner.app :=
  rfl

@[simp] theorem channels_spawnBarrier :
    (planner.spawnBarrier delivery).channels = planner.channels := by
  unfold spawnBarrier
  simp only
  split <;> rfl

@[simp] theorem channels_scheduleBarrier :
    (planner.scheduleBarrier delivery).channels = planner.channels := by
  unfold scheduleBarrier
  simp only
  split <;> rfl

@[simp] theorem channels_raiseFreeQueue :
    (planner.raiseFreeQueue task priority).channels = planner.channels := by
  unfold raiseFreeQueue
  simp only
  split <;> rfl

@[simp] theorem channels_requireMessage :
    (planner.requireMessage verb delivery).channels = planner.channels := rfl

@[simp] theorem ledger_spawnBarrier :
    (planner.spawnBarrier delivery).ledger = planner.ledger := by
  unfold spawnBarrier
  simp only
  split <;> rfl

@[simp] theorem ledger_scheduleBarrier :
    (planner.scheduleBarrier delivery).ledger = planner.ledger := by
  unfold scheduleBarrier
  simp only
  split <;> rfl

@[simp] theorem ledger_join : (planner.join task priority).ledger = planner.ledger := rfl

theorem types_raiseAt (obligation : Obligation) :
    (planner.raiseAt key priority).ledger.types obligation =
      planner.ledger.types obligation := by
  unfold raiseAt raiseFound
  simp only
  split
  · rfl
  · exact planner.ledger.types_note _ obligation

theorem types_raiseFreeQueue (obligation : Obligation) :
    (planner.raiseFreeQueue task priority).ledger.types obligation =
      planner.ledger.types obligation := by
  unfold raiseFreeQueue
  simp only
  split
  · rfl
  · exact planner.ledger.types_note _ obligation

@[simp] theorem transfer_raiseAt :
    (planner.raiseAt key priority).ledger.transfer = planner.ledger.transfer :=
  types_raiseAt planner key priority .transfer

@[simp] theorem transfer_raiseFreeQueue :
    (planner.raiseFreeQueue task priority).ledger.transfer = planner.ledger.transfer :=
  types_raiseFreeQueue planner task priority .transfer

@[simp] theorem concurrentRead_raiseAt :
    (planner.raiseAt key priority).ledger.concurrentRead = planner.ledger.concurrentRead :=
  types_raiseAt planner key priority .concurrentRead

@[simp] theorem concurrentRead_raiseFreeQueue :
    (planner.raiseFreeQueue task priority).ledger.concurrentRead =
      planner.ledger.concurrentRead :=
  types_raiseFreeQueue planner task priority .concurrentRead

@[simp] theorem ledger_requireMessage :
    (planner.requireMessage verb delivery).ledger =
      planner.ledger.requireMessage delivery verb := rfl

end Fields

@[simp] theorem app_raiseBoth (planner : ChannelPlanner) (delivery : Delivery)
    (sender : Option Int) : (planner.raiseBoth delivery sender).app = planner.app := by
  cases sender <;> simp [raiseBoth]

@[simp] theorem app_raiseFree (planner : ChannelPlanner) (delivery : Delivery)
    (sender : Option Int) : (planner.raiseFree delivery sender).app = planner.app := by
  cases sender <;> simp [raiseFree]

@[simp] theorem channels_raiseFree (planner : ChannelPlanner) (delivery : Delivery)
    (sender : Option Int) : (planner.raiseFree delivery sender).channels = planner.channels := by
  cases sender <;> simp [raiseFree]

@[simp] theorem transfer_raiseBoth (planner : ChannelPlanner) (delivery : Delivery)
    (sender : Option Int) :
    (planner.raiseBoth delivery sender).ledger.transfer = planner.ledger.transfer := by
  cases sender <;> simp [raiseBoth]

@[simp] theorem transfer_raiseFree (planner : ChannelPlanner) (delivery : Delivery)
    (sender : Option Int) :
    (planner.raiseFree delivery sender).ledger.transfer = planner.ledger.transfer := by
  cases sender <;> simp [raiseFree]

@[simp] theorem Request.app_effect (planner : ChannelPlanner) (delivery : Delivery)
    (request : Request) : (request.effect planner delivery).app = planner.app := by
  cases request <;> simp [Request.effect, afterSpawn, afterSchedule]

/-- Only requests that the timer queue has not served lay obligations. -/
def Request.Moves (delivery : Delivery) (ty : String) : Request → Prop
  | schedule _ _ => False
  | _ => delivery.Moves ty

theorem Request.mem_transfer_effect (planner : ChannelPlanner) (delivery : Delivery)
    (request : Request) (ty : String) :
    ty ∈ (request.effect planner delivery).ledger.transfer ↔
      ty ∈ planner.ledger.transfer ∨ request.Moves delivery ty := by
  cases request <;>
    simp [Request.effect, Request.Moves, afterSpawn, afterSchedule,
      Ledger.mem_transfer_requireMessage]

/-! ## Sound planners -/

/-- Every channel has a task, and all its tasks are declared. -/
structure Sound (planner : ChannelPlanner) : Prop where
  nonempty : ∀ key channel, planner.channels.get? key = some channel →
    channel.tasks.isEmpty = false
  declared : ∀ key channel, planner.channels.get? key = some channel →
    ∀ task ∈ channel.tasks, task ∈ planner.app.softwareTasks.keys

theorem sound_start (app : App) (ledger : Ledger) : (start app ledger).Sound := by
  constructor
  · intro key channel found
    cases found
  · intro key channel found
    cases found

theorem Sound.of_channels_eq {planner other : ChannelPlanner} (h : planner.Sound)
    (happ : other.app = planner.app) (hchannels : other.channels = planner.channels) :
    other.Sound := by
  constructor
  · rw [hchannels]
    exact h.nonempty
  · rw [hchannels, happ]
    exact h.declared

theorem Sound.join {planner : ChannelPlanner} (h : planner.Sound) {task : String}
    (declared : task ∈ planner.app.softwareTasks.keys) (priority : Int) :
    (planner.join task priority).Sound := by
  constructor
  · intro key channel found
    simp only [ChannelPlanner.join, Table.get?_insert] at found
    split at found
    · cases found
      exact SortedSet.isEmpty_eq_false_iff.mpr ⟨task, SortedSet.mem_insert.mpr (.inl rfl)⟩
    · exact h.nonempty key channel found
  · intro key channel found other member
    simp only [ChannelPlanner.join, Table.get?_insert] at found
    split at found
    · cases found
      rcases SortedSet.mem_insert.mp member with rfl | hold
      · exact declared
      · cases hbefore : planner.channels.get? priority with
        | none =>
            rw [hbefore] at hold
            exact absurd hold (SortedSet.not_mem_empty other)
        | some before =>
            rw [hbefore] at hold
            exact h.declared priority before hbefore other hold
    · exact h.declared key channel found other member

/-- Raising a channel that is there leaves its tasks as they are. -/
theorem Sound.raiseAt {planner : ChannelPlanner} (h : planner.Sound) {key : Int}
    {channel : ChannelDraft} (found : planner.channels.get? key = some channel)
    (priority : Int) : (planner.raiseAt key priority).Sound := by
  unfold ChannelPlanner.raiseAt raiseFound
  rw [found]
  simp only [Option.getD_some]
  split
  · exact h
  · constructor
    · intro other changed hchanged
      simp only [Table.get?_insert] at hchanged
      split at hchanged
      · cases hchanged
        exact h.nonempty key channel found
      · exact h.nonempty other changed hchanged
    · intro other changed hchanged
      simp only [Table.get?_insert] at hchanged
      split at hchanged
      · cases hchanged
        exact h.declared key channel found
      · exact h.declared other changed hchanged

theorem Sound.effect {planner : ChannelPlanner} (h : planner.Sound) {delivery : Delivery}
    (declared : delivery.receiver ∈ planner.app.softwareTasks.keys) (request : Request) :
    (request.effect planner delivery).Sound := by
  cases request with
  | spawn message =>
      have hbarrier : (planner.spawnBarrier delivery).Sound := h.of_channels_eq (by simp) (by simp)
      have hreceiver : delivery.receiver ∈
          (planner.spawnBarrier delivery).app.softwareTasks.keys := by
        rwa [app_spawnBarrier]
      have hjoin := hbarrier.join hreceiver delivery.task.priority
      obtain ⟨channel, joined⟩ := get?_channels_join (planner.spawnBarrier delivery)
        delivery.receiver delivery.task.priority
      have hboth : (((planner.spawnBarrier delivery).join delivery.receiver
          delivery.task.priority).raiseBoth delivery delivery.sender.priority).Sound := by
        cases delivery.sender.priority with
        | none => exact hjoin
        | some priority =>
            have hraised := hjoin.raiseAt joined priority
            exact hraised.of_channels_eq (by simp [raiseBoth]) (by simp [raiseBoth])
      exact hboth.of_channels_eq (by simp [Request.effect, afterSpawn])
        (by simp [Request.effect, afterSpawn])
  | schedule message queue =>
      have hbarrier : (planner.scheduleBarrier delivery).Sound :=
        h.of_channels_eq (by simp) (by simp)
      have hreceiver : delivery.receiver ∈
          (planner.scheduleBarrier delivery).app.softwareTasks.keys := by
        rwa [app_scheduleBarrier]
      have hjoin := hbarrier.join hreceiver delivery.task.priority
      obtain ⟨channel, joined⟩ := get?_channels_join (planner.scheduleBarrier delivery)
        delivery.receiver delivery.task.priority
      exact (hjoin.raiseAt joined queue.priority).of_channels_eq
        (by simp [Request.effect, afterSchedule]) (by simp [Request.effect, afterSchedule])
  | classify message verb => exact h.of_channels_eq (by simp [Request.effect]) rfl

/-! ## Sequences of requests -/

/-- The planner after a request, whether the request fails or not. -/
def attempt (planner : ChannelPlanner) (request : Request) : ChannelPlanner :=
  (planner.after request.perform).2

theorem after_perform_of_declared {planner : ChannelPlanner} {request : Request}
    (declared : request.message.receiver ∈ planner.app.softwareTasks.keys) :
    planner.after request.perform = (.ok (), planner.attempt request) := by
  obtain ⟨task, found⟩ := App.exists_task declared
  unfold attempt
  rw [after_perform_of_task found]

theorem attempt_of_get? {planner : ChannelPlanner} {request : Request} {task : SoftwareTask}
    (found : planner.app.softwareTasks.get? request.message.receiver = some task) :
    planner.attempt request = request.effect planner
      ⟨request.message.sender, request.message.receiver, task⟩ := by
  unfold attempt
  rw [after_perform_of_task (App.task_eq_ok_iff.mpr found)]

theorem attempt_of_undeclared {planner : ChannelPlanner} {request : Request}
    (absent : request.message.receiver ∉ planner.app.softwareTasks.keys) :
    planner.attempt request = planner := by
  unfold attempt
  rw [after_perform_of_undeclared absent]

@[simp] theorem app_attempt (planner : ChannelPlanner) (request : Request) :
    (planner.attempt request).app = planner.app := by
  cases found : planner.app.softwareTasks.get? request.message.receiver with
  | none => rw [attempt_of_undeclared (Table.get?_eq_none_iff.mp found)]
  | some task => rw [attempt_of_get? found, Request.app_effect]

theorem Sound.attempt {planner : ChannelPlanner} (h : planner.Sound) (request : Request) :
    (planner.attempt request).Sound := by
  cases found : planner.app.softwareTasks.get? request.message.receiver with
  | none =>
      rw [attempt_of_undeclared (Table.get?_eq_none_iff.mp found)]
      exact h
  | some task =>
      rw [attempt_of_get? found]
      exact h.effect (Table.mem_keys_iff.mpr ⟨task, found⟩) request

theorem Sound.foldl_attempt {planner : ChannelPlanner} (h : planner.Sound)
    (requests : List Request) : (requests.foldl ChannelPlanner.attempt planner).Sound := by
  induction requests generalizing planner with
  | nil => exact h
  | cons request requests ih => exact ih (h.attempt request)

theorem after_forM_of_declared {planner : ChannelPlanner} {requests : List Request}
    (declared : ∀ request ∈ requests,
      request.message.receiver ∈ planner.app.softwareTasks.keys) :
    planner.after (requests.forM Request.perform) = (.ok (), requests.foldl attempt planner) := by
  induction requests generalizing planner with
  | nil => rfl
  | cons request requests ih =>
      have hstep := after_perform_of_declared (declared request List.mem_cons_self)
      have hothers : ∀ other ∈ requests,
          other.message.receiver ∈ (planner.attempt request).app.softwareTasks.keys := by
        intro other member
        rw [app_attempt]
        exact declared other (List.mem_cons_of_mem _ member)
      exact (after_bind_of_ok hstep _).trans (ih hothers)

/-- Requests fail as the first of them fails whose receiver is not declared. -/
theorem after_forM_of_undeclared {planner : ChannelPlanner} {requests : List Request}
    {first : Request}
    (found : requests.find? (fun request =>
      request.message.receiver ∉ planner.app.softwareTasks.keys) = some first) :
    (planner.after (requests.forM Request.perform)).1 =
      .error (.undeclaredTask first.message.receiver) := by
  induction requests generalizing planner with
  | nil => cases found
  | cons request requests ih =>
      by_cases declared : request.message.receiver ∈ planner.app.softwareTasks.keys
      · have hstep := after_perform_of_declared declared
        have hrest := @ih (planner.attempt request) (by simpa [declared] using found)
        exact (congrArg Prod.fst (after_bind_of_ok hstep _)).trans hrest
      · have hfirst : request = first := by simpa [declared] using found
        subst hfirst
        exact congrArg Prod.fst (after_bind_of_error (after_perform_of_undeclared declared) _)

theorem mem_transfer_foldl_attempt (planner : ChannelPlanner) (requests : List Request)
    (ty : String) :
    ty ∈ (requests.foldl attempt planner).ledger.transfer ↔
      ty ∈ planner.ledger.transfer ∨
        ∃ request ∈ requests, ∃ task,
          planner.app.softwareTasks.get? request.message.receiver = some task ∧
            request.Moves ⟨request.message.sender, request.message.receiver, task⟩ ty := by
  induction requests generalizing planner with
  | nil => simp
  | cons request requests ih =>
      rw [List.foldl_cons, ih, app_attempt]
      cases found : planner.app.softwareTasks.get? request.message.receiver with
      | none =>
          rw [attempt_of_undeclared (Table.get?_eq_none_iff.mp found)]
          simp [found]
      | some task =>
          rw [attempt_of_get? found, Request.mem_transfer_effect]
          simp [found, or_assoc]

end ChannelPlanner

end StackPolicy
