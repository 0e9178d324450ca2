import StackPolicy.Proofs.Obligations
import StackPolicy.Proofs.Sequences
import StackPolicy.TimerQueue

/-!
# When the timer queue can be built

The queue needs every scheduled message to have a declared receiver, and
nothing else.  Its numbers only grow from the least ones that they may have.
-/

namespace StackPolicy

/-! ## Declared receivers -/

namespace App

theorem task_eq_ok_iff {app : App} {name : String} {task : SoftwareTask} :
    app.task name = .ok task ↔ app.softwareTasks.get? name = some task := by
  unfold App.task
  cases app.softwareTasks.get? name with
  | some found => simp
  | none => simp

theorem task_eq_error {app : App} {name : String} (absent : name ∉ app.softwareTasks.keys) :
    app.task name = .error (.undeclaredTask name) := by
  unfold App.task
  rw [Table.get?_eq_none_iff.mpr absent]

theorem exists_task {app : App} {name : String} (declared : name ∈ app.softwareTasks.keys) :
    ∃ task, app.task name = .ok task := by
  obtain ⟨task, found⟩ := Table.mem_keys_iff.mp declared
  exact ⟨task, task_eq_ok_iff.mpr found⟩

private theorem capacities_nonneg (declarations : List SoftwareTask) :
    0 ≤ declarations.foldr (fun task total => task.capacity + total) 0 := by
  induction declarations with
  | nil => exact Int.le_refl 0
  | cons task declarations ih =>
      have hpos := task.capacity_pos
      rw [List.foldr_cons]
      omega

theorem exists_capacityOf {app : App} {tasks : SortedSet String}
    (declared : ∀ task ∈ tasks, task ∈ app.softwareTasks.keys) :
    ∃ capacity, app.capacityOf tasks = .ok capacity ∧ 0 ≤ capacity := by
  have hdeclared : ∀ task ∈ tasks.toList, ∃ declaration, app.task task = .ok declaration :=
    fun task member => exists_task (declared task member)
  obtain ⟨declarations, hmap, -⟩ := exists_mapM_eq_ok hdeclared
  refine ⟨declarations.foldr (fun task total => task.capacity + total) 0, ?_,
    capacities_nonneg declarations⟩
  unfold capacityOf
  exact bind_of_ok hmap _

/-- The sum of the capacities of some declared tasks. -/
def totalCapacity (app : App) (tasks : SortedSet String) : Int :=
  tasks.toList.foldr
    (fun name total => ((app.softwareTasks.get? name).map SoftwareTask.capacity).getD 0 + total) 0

private theorem exists_mapM_task {app : App} {names : List String}
    (declared : ∀ name ∈ names, name ∈ app.softwareTasks.keys) :
    ∃ declarations, names.mapM app.task = .ok declarations ∧
      declarations.foldr (fun task total => task.capacity + total) 0 =
        names.foldr (fun name total =>
          ((app.softwareTasks.get? name).map SoftwareTask.capacity).getD 0 + total) 0 := by
  induction names with
  | nil => exact ⟨[], rfl, rfl⟩
  | cons name names ih =>
      obtain ⟨task, found⟩ := Table.mem_keys_iff.mp (declared name List.mem_cons_self)
      obtain ⟨declarations, hrest, hsum⟩ := ih fun other member =>
        declared other (List.mem_cons_of_mem _ member)
      refine ⟨task :: declarations, ?_, ?_⟩
      · rw [List.mapM_cons, task_eq_ok_iff.mpr found, hrest]
        rfl
      · rw [List.foldr_cons, List.foldr_cons, hsum, found]
        rfl

theorem capacityOf_eq_ok {app : App} {tasks : SortedSet String}
    (declared : ∀ task ∈ tasks, task ∈ app.softwareTasks.keys) :
    app.capacityOf tasks = .ok (app.totalCapacity tasks) := by
  obtain ⟨declarations, hmap, hsum⟩ := exists_mapM_task declared
  unfold capacityOf totalCapacity
  rw [bind_of_ok hmap, ← hsum]
  rfl

end App

namespace Message

theorem deliver_eq_ok_iff {app : App} {message : Message} {delivery : Delivery} :
    message.deliver app = .ok delivery ↔
      ∃ task, app.task message.receiver = .ok task ∧
        ⟨message.sender, message.receiver, task⟩ = delivery := by
  unfold deliver
  cases app.task message.receiver with
  | ok task => simp [Except.map]
  | error failure => simp [Except.map]

theorem deliver_eq_error {app : App} {message : Message}
    (absent : message.receiver ∉ app.softwareTasks.keys) :
    message.deliver app = .error (.undeclaredTask message.receiver) := by
  unfold deliver
  rw [App.task_eq_error absent]
  rfl

theorem exists_deliver {app : App} {message : Message}
    (declared : message.receiver ∈ app.softwareTasks.keys) :
    ∃ delivery, message.deliver app = .ok delivery := by
  obtain ⟨task, found⟩ := App.exists_task declared
  exact ⟨_, deliver_eq_ok_iff.mpr ⟨task, found, rfl⟩⟩

theorem receiver_of_deliver {app : App} {message : Message} {delivery : Delivery}
    (h : message.deliver app = .ok delivery) : delivery.receiver ∈ app.softwareTasks.keys := by
  obtain ⟨task, found, rfl⟩ := deliver_eq_ok_iff.mp h
  exact Table.mem_keys_iff.mpr ⟨task, App.task_eq_ok_iff.mp found⟩

theorem moves_iff {app : App} {message : Message} {ty : String} :
    message.Moves app ty ↔
      ∃ task, app.softwareTasks.get? message.receiver = some task ∧ ty ∈ task.inputs ∧
        message.sender.mustTransfer task.core task.priority = true := by
  constructor
  · rintro ⟨delivery, hdeliver, hmoves⟩
    obtain ⟨task, htask, rfl⟩ := deliver_eq_ok_iff.mp hdeliver
    exact ⟨task, App.task_eq_ok_iff.mp htask, hmoves⟩
  · rintro ⟨task, htask, hmoves⟩
    exact ⟨_, deliver_eq_ok_iff.mpr ⟨task, App.task_eq_ok_iff.mpr htask, rfl⟩, hmoves⟩

end Message

namespace TimerQueue

/-! ## Drafts -/

/-- The numbers of a draft are within their bounds, and its tasks are declared. -/
structure Draft.Sound (app : App) (draft : Draft) : Prop where
  priority_pos : 1 ≤ draft.priority
  ceiling_pos : 1 ≤ draft.ceiling
  declared : ∀ task ∈ draft.tasks, task ∈ app.softwareTasks.keys

theorem Draft.sound_start (app : App) (ledger : Ledger) : (Draft.start ledger).Sound app where
  priority_pos := Int.le_refl 1
  ceiling_pos := Int.le_refl 1
  declared := fun task member => absurd member (SortedSet.not_mem_empty task)

theorem Draft.Sound.raisePriority {app : App} {draft : Draft} (h : draft.Sound app)
    (priority : Int) : (draft.raisePriority priority).Sound app := by
  unfold Draft.raisePriority
  split
  · rename_i above
    have hpriority := h.priority_pos
    exact ⟨show 1 ≤ priority by omega, h.ceiling_pos, h.declared⟩
  · exact h

theorem Draft.Sound.raiseCeiling {app : App} {draft : Draft} (h : draft.Sound app)
    (scheduler : Option Int) : (draft.raiseCeiling scheduler).Sound app := by
  unfold Draft.raiseCeiling
  split
  · rename_i priority
    split
    · rename_i above
      have hceiling := h.ceiling_pos
      exact ⟨h.priority_pos, show 1 ≤ priority by omega, h.declared⟩
    · exact h
  · exact h

theorem Draft.Sound.add {app : App} {draft : Draft} (h : draft.Sound app) {delivery : Delivery}
    (declared : delivery.receiver ∈ app.softwareTasks.keys) : (draft.add delivery).Sound app := by
  have hjoined : Draft.Sound app { draft with tasks := draft.tasks.insert delivery.receiver } := by
    refine ⟨h.priority_pos, h.ceiling_pos, fun task member => ?_⟩
    rcases SortedSet.mem_insert.mp member with rfl | hold
    · exact declared
    · exact h.declared task hold
  have hraised := (hjoined.raisePriority delivery.task.priority).raiseCeiling
    delivery.sender.priority
  exact ⟨hraised.priority_pos, hraised.ceiling_pos, hraised.declared⟩

theorem Draft.Sound.foldl_add {app : App} {draft : Draft} (h : draft.Sound app)
    {deliveries : List Delivery}
    (declared : ∀ delivery ∈ deliveries, delivery.receiver ∈ app.softwareTasks.keys) :
    (deliveries.foldl Draft.add draft).Sound app := by
  induction deliveries generalizing draft with
  | nil => exact h
  | cons delivery deliveries ih =>
      exact ih (h.add (declared delivery List.mem_cons_self))
        fun other member => declared other (List.mem_cons_of_mem _ member)

theorem Draft.types_raisePriority (draft : Draft) (priority : Int) (obligation : Obligation) :
    (draft.raisePriority priority).ledger.types obligation = draft.ledger.types obligation := by
  unfold Draft.raisePriority
  split
  · exact draft.ledger.types_note _ obligation
  · rfl

theorem Draft.types_raiseCeiling (draft : Draft) (scheduler : Option Int)
    (obligation : Obligation) :
    (draft.raiseCeiling scheduler).ledger.types obligation = draft.ledger.types obligation := by
  unfold Draft.raiseCeiling
  split
  · split
    · exact draft.ledger.types_note _ obligation
    · rfl
  · rfl

theorem Draft.mem_transfer_add (draft : Draft) (delivery : Delivery) (ty : String) :
    ty ∈ (draft.add delivery).ledger.transfer ↔
      ty ∈ draft.ledger.transfer ∨ delivery.Moves ty := by
  unfold Draft.add
  simp only
  rw [Ledger.mem_transfer_requireMessage]
  apply or_congr _ Iff.rfl
  change ty ∈ Ledger.types _ .transfer ↔ ty ∈ draft.ledger.types .transfer
  rw [types_raiseCeiling, types_raisePriority]

theorem Draft.Sound.exists_finish {app : App} {draft : Draft} (h : draft.Sound app) :
    ∃ queue, draft.finish app = .ok queue := by
  obtain ⟨capacity, hcapacity, hnonneg⟩ := App.exists_capacityOf h.declared
  have hpriority := h.priority_pos
  have hceiling := h.ceiling_pos
  have hcheck : check
      ⟨draft.priority, max draft.ceiling draft.priority, capacity, draft.tasks⟩ = .ok () := by
    apply Failure.checkBounds_eq_ok
    intro entry member
    simp only [List.mem_cons, List.not_mem_nil, or_false] at member
    rcases member with rfl | rfl | rfl
    · exact hpriority
    · simp only
      omega
    · exact hnonneg
  refine ⟨⟨draft.priority, max draft.ceiling draft.priority, capacity, draft.tasks⟩, ?_⟩
  unfold Draft.finish
  rw [bind_of_ok hcapacity]
  exact bind_of_ok hcheck _

/-! ## The queue of all scheduled messages -/

theorem ofMessages_eq_ok {app : App} {scheduled : List Message} (ledger : Ledger)
    (declared : ∀ message ∈ scheduled, message.receiver ∈ app.softwareTasks.keys) :
    ∃ queue timed, ofMessages app scheduled ledger = .ok (queue, timed) ∧
      ∀ ty, ty ∈ timed.transfer ↔
        ty ∈ ledger.transfer ∨ ∃ message ∈ scheduled, message.Moves app ty := by
  have hdeliver : ∀ message ∈ scheduled, ∃ delivery, message.deliver app = .ok delivery :=
    fun message member => Message.exists_deliver (declared message member)
  obtain ⟨deliveries, hdeliveries, hmem⟩ := exists_mapM_eq_ok hdeliver
  have hsound : (deliveries.foldl Draft.add (Draft.start ledger)).Sound app := by
    apply (Draft.sound_start app ledger).foldl_add
    intro delivery member
    obtain ⟨message, -, hdeliver⟩ := (hmem delivery).mp member
    exact Message.receiver_of_deliver hdeliver
  obtain ⟨queue, hqueue⟩ := hsound.exists_finish
  refine ⟨queue, (deliveries.foldl Draft.add (Draft.start ledger)).ledger, ?_, fun ty => ?_⟩
  · unfold ofMessages
    rw [bind_of_ok hdeliveries]
    exact bind_of_ok hqueue _
  · rw [Ledger.mem_transfer_foldl (fun draft : Draft => draft.ledger.transfer)
      (fun delivery ty => delivery.Moves ty) Draft.mem_transfer_add]
    apply or_congr Iff.rfl
    constructor
    · rintro ⟨delivery, member, hmoves⟩
      obtain ⟨message, hmessage, hdeliver⟩ := (hmem delivery).mp member
      exact ⟨message, hmessage, delivery, hdeliver, hmoves⟩
    · rintro ⟨message, hmessage, delivery, hdeliver, hmoves⟩
      exact ⟨delivery, (hmem delivery).mpr ⟨message, hmessage, hdeliver⟩, hmoves⟩

/-- The queue fails at the first scheduled message whose receiver is not declared. -/
theorem ofMessages_eq_error {app : App} {scheduled : List Message} {first : Message}
    (ledger : Ledger)
    (found : scheduled.find? (fun message =>
      message.receiver ∉ app.softwareTasks.keys) = some first) :
    ofMessages app scheduled ledger = .error (.undeclaredTask first.receiver) := by
  have habsent : first.receiver ∉ app.softwareTasks.keys := by
    simpa using List.find?_some found
  have hdeliveries : scheduled.mapM (Message.deliver app) =
      .error (.undeclaredTask first.receiver) := by
    apply mapM_eq_error found (Message.deliver_eq_error habsent)
    intro message _ hdeclared
    exact Message.exists_deliver (by simpa using hdeclared)
  unfold ofMessages
  exact bind_of_error hdeliveries _

end TimerQueue

end StackPolicy
