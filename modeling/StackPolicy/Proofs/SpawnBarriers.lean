import StackPolicy.Proofs.RunResults

/-!
# Where the messages over a barrier come from

The contexts of initialization stand before all others.  So the last message
that one core spawns on another comes from initialization only if no other
context of the core spawns one, and the flag of the barrier says just that.
-/

namespace StackPolicy

namespace App

/-- Whether a context of the core `sender`, an initialization routine or another one, spawns a
task of the core `receiver`. -/
def SpawnsOnto (app : App) (fromInit : Bool) (sender receiver : Int) : Prop :=
  ∃ context ∈ app.contexts, context.isInit = fromInit ∧ context.core = sender ∧
    ∃ name ∈ context.spawn, ∃ task, app.softwareTasks.get? name = some task ∧
      task.core = receiver

theorem pairwise_contexts (app : App) :
    app.contexts.Pairwise fun first second => second.isInit = true → first.isInit = true := by
  have hinits : ∀ context ∈ app.initsByCore.map Context.ofInit, context.isInit = true := by
    intro context member
    obtain ⟨init, -, rfl⟩ := List.mem_map.mp member
    rfl
  unfold contexts
  rw [List.append_assoc, List.append_assoc, List.pairwise_append]
  refine ⟨?_, ?_, fun context member _ _ _ => hinits context member⟩
  · exact List.pairwise_of_forall_mem_list fun context member _ _ _ => hinits context member
  · apply List.pairwise_of_forall_mem_list
    intro _ _ context member hinit
    simp only [List.mem_append, List.mem_map] at member
    rcases member with ⟨_, -, rfl⟩ | ⟨_, -, rfl⟩ | ⟨_, -, rfl⟩ <;> cases hinit

theorem pairwise_spawned (app : App) :
    app.spawned.Pairwise fun first second =>
      second.sender.isInit = true → first.sender.isInit = true := by
  have hsender : ∀ context : Context, ∀ message ∈ context.spawned, message.sender = context := by
    intro context message member
    obtain ⟨name, -, rfl⟩ := List.mem_map.mp member
    rfl
  unfold spawned
  rw [List.pairwise_flatMap]
  constructor
  · intro context _
    apply List.pairwise_of_forall_mem_list
    intro first hfirst second hsecond hinit
    rw [hsender context second hsecond] at hinit
    rwa [hsender context first hfirst]
  · apply app.pairwise_contexts.imp
    intro context other hinits first hfirst second hsecond hinit
    rw [hsender other second hsecond] at hinit
    rw [hsender context first hfirst]
    exact hinits hinit

theorem exists_crossing_iff {app : App} {fromInit : Bool} {receiver sender : Int} :
    (∃ message ∈ app.spawned, message.sender.isInit = fromInit ∧
      message.crosses app receiver sender = true) ↔
    sender ≠ receiver ∧ app.SpawnsOnto fromInit sender receiver := by
  simp only [Message.crosses, Bool.and_eq_true, decide_eq_true_eq, Option.any_eq_true]
  constructor
  · rintro ⟨message, member, hinit, ⟨hapart, hcore⟩, task, found, htask⟩
    obtain ⟨context, hcontext, hmessage⟩ := List.mem_flatMap.mp member
    obtain ⟨name, hname, rfl⟩ := List.mem_map.mp hmessage
    exact ⟨hapart, context, hcontext, hinit, hcore, name, hname, task, found, htask⟩
  · rintro ⟨hapart, context, hcontext, hinit, hcore, name, hname, task, found, htask⟩
    exact ⟨⟨context, name⟩, List.mem_flatMap.mpr ⟨context, hcontext, List.mem_map_of_mem hname⟩,
      hinit, ⟨hapart, hcore⟩, task, found, htask⟩

/-- New priorities change neither senders nor cores. -/
theorem spawnsOnto_compressed {app : App} {fromInit : Bool} {sender receiver : Int} :
    app.compressed.SpawnsOnto fromInit sender receiver ↔
      app.SpawnsOnto fromInit sender receiver := by
  have htask : ∀ name, (∃ task, app.compressed.softwareTasks.get? name = some task ∧
      task.core = receiver) ↔
      ∃ task, app.softwareTasks.get? name = some task ∧ task.core = receiver := by
    intro name
    simp only [compressed, Table.mapValues, Table.get?_mapRows]
    cases app.softwareTasks.get? name with
    | none => simp
    | some task => simp [renumberSoftware]
  unfold SpawnsOnto
  simp only [htask, contexts_compressed, List.mem_map]
  constructor
  · rintro ⟨_, ⟨context, member, rfl⟩, hspawns⟩
    exact ⟨context, member, by simpa using hspawns⟩
  · rintro ⟨context, member, hspawns⟩
    exact ⟨_, ⟨context, member, rfl⟩, by simpa using hspawns⟩

end App

theorem Message.ne_of_crosses {app : App} {message : Message} {receiver sender : Int}
    (crosses : message.crosses app receiver sender = true) : sender ≠ receiver := by
  simp only [Message.crosses, Bool.and_eq_true, decide_eq_true_eq] at crosses
  exact crosses.1.1

/-- With initialization first, the last message comes from it only if all messages do. -/
theorem getLast?_any_isInit_iff {messages : List Message}
    (ordered : messages.Pairwise fun first second =>
      second.sender.isInit = true → first.sender.isInit = true) :
    messages.getLast?.any (fun message => message.sender.isInit) = true ↔
      (∃ message, message ∈ messages) ∧ ∀ message ∈ messages, message.sender.isInit = true := by
  rcases List.eq_nil_or_concat messages with rfl | ⟨earlier, last, rfl⟩
  · simp
  · rw [List.concat_eq_append] at ordered ⊢
    obtain ⟨-, -, hearlier⟩ := List.pairwise_append.mp ordered
    simp only [List.getLast?_concat, Option.any_some, List.forall_mem_append,
      List.forall_mem_singleton]
    constructor
    · intro hlast
      exact ⟨⟨last, by simp⟩,
        fun message member => hearlier message member last (by simp) hlast, hlast⟩
    · exact fun h => h.2.2

namespace ChannelPlan

open ChannelPlanner

theorem spawnedAcross_requests (app : App) (spawned scheduled : List Message)
    (queue : TimerQueue) (receiver sender : Int) :
    spawnedAcross app (requests spawned scheduled queue) receiver sender =
      spawned.filter fun message => message.crosses app receiver sender := by
  have hspawned : (spawned.map Request.spawn).filterMap Request.spawned? = spawned := by
    rw [List.filterMap_map]
    exact List.filterMap_some
  have hscheduled :
      (scheduled.map fun message => Request.schedule message queue).filterMap
        Request.spawned? = [] := by
    simp [List.filterMap_map, Request.spawned?]
  unfold spawnedAcross requests
  rw [List.filterMap_append, hspawned, hscheduled, List.append_nil]

/-- The flag tells whether initialization spawns, and nobody else on its core. -/
theorem Describes.flag_eq_true_iff {graph : App} {queue : TimerQueue} {plan : ChannelPlan}
    (h : plan.Describes graph (requests graph.spawned graph.scheduled queue))
    {receiver sender : Int} {flag : Bool}
    (found : plan.spawnBarriers.flag? receiver sender = some flag) :
    flag = true ↔
      graph.SpawnsOnto true sender receiver ∧ ¬graph.SpawnsOnto false sender receiver := by
  have hcross : ∃ request ∈ requests graph.spawned graph.scheduled queue,
      request.Crosses graph receiver sender := by
    apply Classical.byContradiction
    intro hnone
    rw [h.flag_eq_none receiver sender fun request member hcrosses =>
      hnone ⟨request, member, hcrosses⟩] at found
    cases found
  have hflag := h.flag_eq_some receiver sender hcross
  rw [found, spawnedAcross_requests] at hflag
  cases hflag
  obtain ⟨_, -, -, hcrosses⟩ := hcross
  have hapart := Message.ne_of_crosses hcrosses
  rw [getLast?_any_isInit_iff (graph.pairwise_spawned.filter _)]
  simp only [List.mem_filter, and_imp]
  constructor
  · rintro ⟨⟨message, member, hmessage⟩, hall⟩
    have hinit := App.exists_crossing_iff.mp
      ⟨message, member, hall message member hmessage, hmessage⟩
    refine ⟨hinit.2, fun hother => ?_⟩
    obtain ⟨other, hmember, hfalse, hacross⟩ := App.exists_crossing_iff.mpr ⟨hapart, hother⟩
    rw [hall other hmember hacross] at hfalse
    cases hfalse
  · rintro ⟨hinit, hnone⟩
    obtain ⟨message, member, -, hmessage⟩ := App.exists_crossing_iff.mpr ⟨hapart, hinit⟩
    refine ⟨⟨message, member, hmessage⟩, fun other hmember hacross => ?_⟩
    cases hother : other.sender.isInit with
    | true => rfl
    | false =>
        exact absurd (App.exists_crossing_iff.mp ⟨other, hmember, hother, hacross⟩).2 hnone

end ChannelPlan

namespace Analysis

theorem flag_eq_true_iff_of_derives {app : App} {settings : Settings} {late : LatePartition}
    {timer : TimerQueue × Ledger} {planned : ChannelPlan × Ledger}
    (derives : Derives (prepared settings app) late timer planned) (sound : app.Sound)
    {receiver sender : Int} {flag : Bool}
    (found : planned.1.spawnBarriers.flag? receiver sender = some flag) :
    flag = true ↔
      app.SpawnsOnto true sender receiver ∧ ¬app.SpawnsOnto false sender receiver := by
  rw [(derives.describes (sound_prepared sound settings)).flag_eq_true_iff found]
  unfold prepared
  split
  · rw [App.spawnsOnto_compressed, App.spawnsOnto_compressed]
  · rfl

/-- The flag of a barrier says that initialization spawns and that no other context of the
core does.  So it says where messages come from, unless both spawn. -/
theorem spawnBarrier_flag_iff {app : App} (h : app.violations = []) (settings : Settings) :
    ∃ analysis lines, run settings app = .ok (analysis, lines) ∧
      ∀ receiver sender flag, analysis.spawnBarriers.flag? receiver sender = some flag →
        (flag = true ↔
          app.SpawnsOnto true sender receiver ∧ ¬app.SpawnsOnto false sender receiver) ∧
        ((flag = true ↔ app.SpawnsOnto true sender receiver) ↔
          ¬(app.SpawnsOnto true sender receiver ∧ app.SpawnsOnto false sender receiver)) := by
  have hsound := App.sound_of_violations h
  obtain ⟨late, timer, planned, hderives⟩ := exists_derives (sound_prepared hsound settings)
  refine ⟨_, _, hderives.run_eq h, fun receiver sender flag found => ?_⟩
  have hflag := flag_eq_true_iff_of_derives hderives hsound found
  refine ⟨hflag, ?_⟩
  rw [hflag]
  grind

/-- Nobody but the task of the first core spawns on the second one. -/
theorem spawnBarrier_flag_pipeline :
    App.pipeline.violations = [] ∧ ∃ analysis lines,
      run ⟨false, true, true⟩ App.pipeline = .ok (analysis, lines) ∧
        analysis.spawnBarriers.flag? 1 0 ≠ some true := by
  obtain ⟨analysis, lines, hrun, hflags⟩ :=
    spawnBarrier_flag_iff App.violations_pipeline ⟨false, true, true⟩
  refine ⟨App.violations_pipeline, analysis, lines, hrun, fun hflag => ?_⟩
  obtain ⟨uart, huart, hinit, hcore, -, -, hfilter⟩ := App.exists_uart
  have hothers : App.pipeline.SpawnsOnto false 0 1 :=
    ⟨uart, huart, hinit, hcore, "filter", hfilter, _, rfl, rfl⟩
  exact ((hflags 1 0 true hflag).1.mp rfl).2 hothers

/-- One core whose initialization and whose idle loop spawn the same task of the other core. -/
def mixedSenders : App :=
  { App.idling (.after 1) [] with
    inits := [⟨.exclusive 0 [] ["job"] [], []⟩]
    idles := [⟨.exclusive 0 [] ["job"] []⟩]
    softwareTasks := .ofList
      [("job", (Routine.exclusive 1 [] [] []).software (.after 0) (.after 0) [])] }

theorem violations_mixedSenders : mixedSenders.violations = [] := by
  decide +kernel

/-- Initialization spawns, but the flag denies it. -/
theorem not_flag_mixedSenders :
    mixedSenders.violations = [] ∧ ∃ analysis lines,
      run ⟨false, true, false⟩ mixedSenders = .ok (analysis, lines) ∧
        mixedSenders.SpawnsOnto true 0 1 ∧
        analysis.spawnBarriers.flag? 1 0 = some false := by
  have hsound := App.sound_of_violations violations_mixedSenders
  have hinit : Context.ofInit (mixedSenders.inits.head (by decide)) ∈ mixedSenders.contexts :=
    App.mem_contexts.mpr (.inl ⟨_, List.head_mem _, rfl⟩)
  have hidle : Context.ofIdle (mixedSenders.idles.head (by decide)) ∈ mixedSenders.contexts :=
    App.mem_contexts.mpr (.inr (.inl ⟨_, List.head_mem _, rfl⟩))
  have hspawns : mixedSenders.SpawnsOnto true 0 1 :=
    ⟨_, hinit, rfl, rfl, "job", by decide, _, rfl, rfl⟩
  have hothers : mixedSenders.SpawnsOnto false 0 1 :=
    ⟨_, hidle, rfl, rfl, "job", by decide, _, rfl, rfl⟩
  obtain ⟨message, hmessage, -, hcrosses⟩ :=
    App.exists_crossing_iff.mpr ⟨show (0 : Int) ≠ 1 by decide, hspawns⟩
  obtain ⟨late, timer, planned, hderives⟩ :=
    exists_derives (sound_prepared hsound ⟨false, true, false⟩)
  have hflag := (hderives.describes hsound).flag_eq_some 1 0
    ⟨.spawn message, List.mem_append_left _ (List.mem_map_of_mem hmessage), rfl, hcrosses⟩
  refine ⟨violations_mixedSenders, _, _, hderives.run_eq violations_mixedSenders, hspawns, ?_⟩
  refine hflag.trans (congrArg some (Bool.eq_false_iff.mpr fun htrue => ?_))
  exact ((flag_eq_true_iff_of_derives hderives hsound hflag).mp htrue).2 hothers

end Analysis

end StackPolicy
