import StackPolicy.Proofs.PlannerContents

/-!
# What a planner records

After a sequence of requests, channels, free queues and barriers describe all
the messages that have been sent: who joined a channel, which priorities
contend for it, and where the last message between two cores came from.
-/

namespace StackPolicy.ChannelPlanner

/-- What a planner holds after some requests with declared receivers. -/
structure Records (app : App) (requests : List Request) (planner : ChannelPlanner) : Prop where
  app_eq : planner.app = app
  mem_freeQueues : ∀ name, name ∈ planner.freeQueues.keys ↔
    ∃ request ∈ requests, request.SendsTo name
  freeQueue : ∀ name, IsHighest (fun priority => ∃ request ∈ requests, request.SendsTo name ∧
    request.message.sender.priority = some priority)
      ((planner.freeQueues.get? name).getD none)
  mem_channels : ∀ key, key ∈ planner.channels.keys ↔
    ∃ request ∈ requests, request.Joins app key
  mem_tasks : ∀ key name, name ∈ (planner.draftAt key).tasks ↔
    ∃ request ∈ requests, request.SendsTo name ∧ request.Joins app key
  ceiling : ∀ key, IsHighest (fun priority => ∃ request ∈ requests, request.Joins app key ∧
    request.contender = some priority) (planner.draftAt key).ceiling
  mem_barriers : ∀ receiver, receiver ∈ planner.barriers.keys ↔
    ∃ sender, ∃ request ∈ requests, request.Crosses app receiver sender
  flag_eq_none : ∀ receiver sender,
    (∀ request ∈ requests, ¬request.Crosses app receiver sender) →
      planner.barriers.flag? receiver sender = none
  flag_eq_some : ∀ receiver sender,
    (∃ request ∈ requests, request.Crosses app receiver sender) →
      planner.barriers.flag? receiver sender =
        some ((spawnedAcross app requests receiver sender).getLast?.any
          fun message => message.sender.isInit)

theorem records_start (app : App) (ledger : Ledger) : Records app [] (start app ledger) where
  app_eq := rfl
  mem_freeQueues := by simp [start]
  freeQueue := by simp [start, IsHighest]
  mem_channels := by simp [start]
  mem_tasks := by simp [start, draftAt]
  ceiling := by simp [start, draftAt, IsHighest]
  mem_barriers := by simp [start]
  flag_eq_none := by simp [start, SpawnBarriers.flag?]
  flag_eq_some := by simp

section Step

variable {app : App} {requests : List Request} {planner : ChannelPlanner} {request : Request}
  {task : SoftwareTask} (h : Records app requests planner)
  (found : app.softwareTasks.get? request.message.receiver = some task)

omit h in
private theorem exists_mem_concat {Holds : Request → Prop} :
    (∃ other ∈ requests ++ [request], Holds other) ↔
      (∃ other ∈ requests, Holds other) ∨ Holds request := by
  simp [or_and_right, exists_or]

include found

omit h in
theorem Request.joins_iff_of_get? {key : Int} :
    request.Joins app key ↔ request.sends = true ∧ key = task.priority := by
  simp [Request.Joins, found, eq_comm (a := key)]

omit h in
theorem Request.crosses_iff_of_get? {receiver sender : Int} :
    request.Crosses app receiver sender ↔ request.sends = true ∧ sender ≠ receiver ∧
      request.message.sender.core = sender ∧ task.core = receiver :=
  and_congr_right fun _ => Message.crosses_of_get? found receiver sender

include h

theorem Records.attempt_eq :
    planner.attempt request = request.effect planner
      ⟨request.message.sender, request.message.receiver, task⟩ :=
  attempt_of_get? (h.app_eq.symm ▸ found)

theorem Records.mem_freeQueues_attempt (name : String) :
    name ∈ (planner.attempt request).freeQueues.keys ↔
      ∃ other ∈ requests ++ [request], other.SendsTo name := by
  rw [exists_mem_concat, ← h.mem_freeQueues, h.attempt_eq found, Table.mem_keys_iff,
    Table.mem_keys_iff, get?_freeQueues_effect]
  unfold Request.SendsTo
  split
  · rename_i sent
    simp [sent]
  · rename_i other
    simp only [eq_comm (a := request.message.receiver), other, or_false]

theorem Records.freeQueue_attempt (name : String) :
    IsHighest (fun priority => ∃ other ∈ requests ++ [request], other.SendsTo name ∧
      other.message.sender.priority = some priority)
        (((planner.attempt request).freeQueues.get? name).getD none) := by
  rw [h.attempt_eq found, get?_freeQueues_effect]
  simp only [exists_mem_concat]
  split
  · rename_i sent
    apply ((h.freeQueue name).after request.message.sender.priority).congr
    simp [Request.SendsTo, sent]
  · rename_i other
    apply (h.freeQueue name).congr
    simp only [Request.SendsTo, eq_comm (a := request.message.receiver), other, false_and, or_false,
      implies_true]

theorem Records.mem_channels_attempt (key : Int) :
    key ∈ (planner.attempt request).channels.keys ↔
      ∃ other ∈ requests ++ [request], other.Joins app key := by
  rw [exists_mem_concat, ← h.mem_channels, h.attempt_eq found, Table.mem_keys_iff,
    Table.mem_keys_iff, get?_channels_effect _ _ request rfl, Request.joins_iff_of_get? found]
  split
  · rename_i joins
    simp [joins]
  · rename_i other
    simp only [other, or_false]

theorem Records.draftAt_attempt (key : Int) :
    (planner.attempt request).draftAt key =
      if request.sends = true ∧ key = task.priority then
        ChannelDraft.receive (planner.draftAt key) request.message.receiver request.contender
      else planner.draftAt key := by
  unfold draftAt
  rw [h.attempt_eq found, get?_channels_effect _ _ request rfl]
  split <;> rfl

theorem Records.mem_tasks_attempt (key : Int) (name : String) :
    name ∈ ((planner.attempt request).draftAt key).tasks ↔
      ∃ other ∈ requests ++ [request], other.SendsTo name ∧ other.Joins app key := by
  rw [exists_mem_concat, ← h.mem_tasks, h.draftAt_attempt found, Request.joins_iff_of_get? found]
  unfold Request.SendsTo
  split
  · rename_i joins
    simp [ChannelDraft.receive, joins, or_comm, eq_comm (a := name)]
  · rename_i other
    simp only [other, and_false, or_false]

theorem Records.ceiling_attempt (key : Int) :
    IsHighest (fun priority => ∃ other ∈ requests ++ [request], other.Joins app key ∧
      other.contender = some priority) ((planner.attempt request).draftAt key).ceiling := by
  rw [h.draftAt_attempt found]
  simp only [exists_mem_concat, Request.joins_iff_of_get? found]
  split
  · rename_i joins
    apply ((h.ceiling key).after request.contender).congr
    simp [joins]
  · rename_i other
    apply (h.ceiling key).congr
    simp only [other, false_and, or_false, implies_true]

theorem Records.mem_barriers_attempt (receiver : Int) :
    receiver ∈ (planner.attempt request).barriers.keys ↔
      ∃ sender, ∃ other ∈ requests ++ [request], other.Crosses app receiver sender := by
  rw [h.attempt_eq found, mem_keys_barriers_effect, h.mem_barriers]
  simp only [exists_mem_concat, exists_or, Request.crosses_iff_of_get? found]
  apply or_congr Iff.rfl
  constructor
  · rintro ⟨hsends, hapart, hcore⟩
    exact ⟨_, hsends, hapart, rfl, hcore⟩
  · rintro ⟨_, hsends, hapart, rfl, hcore⟩
    exact ⟨hsends, hapart, hcore⟩

theorem Records.flag?_attempt (receiver sender : Int) :
    (planner.attempt request).barriers.flag? receiver sender =
      if sender ≠ receiver ∧ request.message.sender.core = sender ∧ task.core = receiver then
        request.flagAfter (planner.barriers.flag? receiver sender)
      else planner.barriers.flag? receiver sender := by
  rw [h.attempt_eq found, flag?_effect _ _ request rfl]

theorem Records.flag_eq_none_attempt (receiver sender : Int)
    (none : ∀ other ∈ requests ++ [request], ¬other.Crosses app receiver sender) :
    (planner.attempt request).barriers.flag? receiver sender = .none := by
  have hbefore := h.flag_eq_none receiver sender fun other member =>
    none other (List.mem_append_left _ member)
  have hrequest := none request (by simp)
  rw [Request.crosses_iff_of_get? found] at hrequest
  rw [h.flag?_attempt found, hbefore]
  split
  · rename_i across
    cases request with
    | classify message verb => rfl
    | spawn message => exact absurd ⟨rfl, across⟩ hrequest
    | schedule message queue => exact absurd ⟨rfl, across⟩ hrequest
  · rfl

omit h in
theorem spawnedAcross_concat (receiver sender : Int) :
    spawnedAcross app (requests ++ [request]) receiver sender =
      spawnedAcross app requests receiver sender ++
        if sender ≠ receiver ∧ request.message.sender.core = sender ∧ task.core = receiver then
          request.spawned?.toList
        else [] := by
  unfold spawnedAcross
  rw [List.filterMap_append, List.filter_append]
  cases request with
  | classify message verb => simp [Request.spawned?]
  | schedule message queue => simp [Request.spawned?]
  | spawn message =>
      have hcrosses := Message.crosses_of_get? found receiver sender
      by_cases across : message.crosses app receiver sender = true
      · rw [if_pos (hcrosses.mp across)]
        simp [Request.spawned?, across]
      · rw [if_neg fun h => across (hcrosses.mpr h)]
        simp [Request.spawned?, across]

omit h found in
theorem spawnedAcross_eq_nil {receiver sender : Int}
    (none : ∀ other ∈ requests, ¬other.Crosses app receiver sender) :
    spawnedAcross app requests receiver sender = [] := by
  unfold spawnedAcross
  rw [List.filter_eq_nil_iff]
  intro message member hcrosses
  obtain ⟨other, hother, hspawned⟩ := List.mem_filterMap.mp member
  cases other with
  | classify _ _ => cases hspawned
  | schedule _ _ => cases hspawned
  | spawn spawned =>
      cases hspawned
      exact none _ hother ⟨rfl, hcrosses⟩

theorem Records.flag_eq_some_attempt (receiver sender : Int)
    (some : ∃ other ∈ requests ++ [request], other.Crosses app receiver sender) :
    (planner.attempt request).barriers.flag? receiver sender =
      .some ((spawnedAcross app (requests ++ [request]) receiver sender).getLast?.any
        fun message => message.sender.isInit) := by
  rw [exists_mem_concat, Request.crosses_iff_of_get? found] at some
  rw [h.flag?_attempt found, spawnedAcross_concat found]
  by_cases across : sender ≠ receiver ∧ request.message.sender.core = sender ∧ task.core = receiver
  · rw [if_pos across, if_pos across]
    cases request with
    | classify message verb =>
        have hbefore := some.resolve_right fun hsends => Bool.noConfusion hsends.1
        simpa [Request.flagAfter, Request.spawned?] using h.flag_eq_some receiver sender hbefore
    | spawn message =>
        simp [Request.flagAfter, Request.spawned?, List.getLast?_append]
    | schedule message queue =>
        simp only [Request.flagAfter, Request.spawned?, Option.toList_none, List.append_nil]
        by_cases before : ∃ other ∈ requests, other.Crosses app receiver sender
        · rw [h.flag_eq_some receiver sender before]
          rfl
        · have hnone : ∀ other ∈ requests, ¬other.Crosses app receiver sender :=
            fun other member hother => before ⟨other, member, hother⟩
          rw [h.flag_eq_none receiver sender hnone, spawnedAcross_eq_nil hnone]
          rfl
  · have hbefore := some.resolve_right fun hsends => across hsends.2
    rw [if_neg across, if_neg across, h.flag_eq_some receiver sender hbefore, List.append_nil]

theorem Records.attempt : Records app (requests ++ [request]) (planner.attempt request) where
  app_eq := (app_attempt planner request).trans h.app_eq
  mem_freeQueues := h.mem_freeQueues_attempt found
  freeQueue := h.freeQueue_attempt found
  mem_channels := h.mem_channels_attempt found
  mem_tasks := h.mem_tasks_attempt found
  ceiling := h.ceiling_attempt found
  mem_barriers := h.mem_barriers_attempt found
  flag_eq_none := h.flag_eq_none_attempt found
  flag_eq_some := h.flag_eq_some_attempt found

end Step

theorem Records.foldl_attempt {app : App} {read requests : List Request}
    {planner : ChannelPlanner} (h : Records app read planner)
    (declared : ∀ request ∈ requests, request.message.receiver ∈ app.softwareTasks.keys) :
    Records app (read ++ requests) (requests.foldl ChannelPlanner.attempt planner) := by
  refine foldl_of_concat (Records app) (fun read planner request member h => ?_) h
  obtain ⟨task, found⟩ := Table.mem_keys_iff.mp (declared request member)
  exact h.attempt found

end StackPolicy.ChannelPlanner
