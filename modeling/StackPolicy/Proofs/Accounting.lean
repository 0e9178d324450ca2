import StackPolicy.Proofs.CompressedQueues
import StackPolicy.Proofs.HandOver
import StackPolicy.Proofs.ReplayedTraces

/-!
# Every task and resource is accounted for

What nobody uses is warned about, once and in the order of declaration.  Every
other software task has one free queue and waits in one channel, so that the
capacities of the channels are those of the tasks, and nothing else has a place.
-/

namespace StackPolicy

/-! ## Totals -/

def total (amounts : List Int) : Int := amounts.foldr (fun amount rest => amount + rest) 0

theorem total_append (first second : List Int) :
    total (first ++ second) = total first + total second := by
  induction first with
  | nil => simp [total]
  | cons amount first ih =>
      have hcons (amount : Int) (amounts : List Int) :
          total (amount :: amounts) = amount + total amounts := rfl
      rw [List.cons_append, hcons, hcons, ih, Int.add_assoc]

theorem total_perm {first second : List Int} (same : first.Perm second) :
    total first = total second :=
  same.foldr_eq' (fun _ _ _ _ _ => by omega) 0

theorem total_flatMap {Item : Type} (items : List Item) (amounts : Item → List Int) :
    total (items.flatMap amounts) = total (items.map fun item => total (amounts item)) := by
  induction items with
  | nil => rfl
  | cons item items ih =>
      rw [List.flatMap_cons, total_append, ih]
      rfl

namespace App

/-! ## What is used -/

def IsAccessed (app : App) (resource : String) : Prop :=
  ∃ context ∈ app.contexts, resource ∈ context.resources.keys

/-- Whether a context spawns or schedules a task. -/
def IsMessaged (app : App) (task : String) : Prop :=
  ∃ context ∈ app.contexts, task ∈ context.spawn ++ context.schedule

instance (app : App) : DecidablePred app.IsAccessed := fun resource =>
  inferInstanceAs (Decidable (∃ context ∈ app.contexts, resource ∈ context.resources.keys))

instance (app : App) : DecidablePred app.IsMessaged := fun task =>
  inferInstanceAs (Decidable (∃ context ∈ app.contexts, task ∈ context.spawn ++ context.schedule))

def messagedTasks (app : App) : Table String SoftwareTask :=
  app.softwareTasks.filter fun name _ => app.IsMessaged name

/-- What is said about the resources and tasks that nobody uses, in their order. -/
def unused (app : App) : List String :=
  ((app.resources.keys.filter fun name => ¬app.IsAccessed name).map fun name =>
      "resource '" ++ name ++ "' is never accessed") ++
    ((app.softwareTasks.keys.filter fun name => ¬app.IsMessaged name).map fun name =>
      "software task '" ++ name ++ "' is never spawned nor scheduled")

theorem isAccessed_iff {app : App} {name : String} :
    app.IsAccessed name ↔ app.accessors name ≠ [] := by
  constructor
  · rintro ⟨context, member, haccess⟩
    exact List.ne_nil_of_mem (mem_accessors.mpr ⟨member, haccess⟩)
  · intro haccessed
    obtain ⟨context, member⟩ := List.exists_mem_of_ne_nil _ haccessed
    exact ⟨context, mem_accessors.mp member⟩

theorem isMessaged_iff {app : App} {name : String} :
    app.IsMessaged name ↔ name ∈ (app.spawned ++ app.scheduled).map Message.receiver := by
  rw [List.map_append, receivers_spawned, receivers_scheduled, List.mem_append, List.mem_flatMap,
    List.mem_flatMap, ← exists_or]
  refine exists_congr fun context => ?_
  rw [List.mem_append, and_or_left]

theorem mem_messagedTasks {app : App} {name : String} :
    name ∈ app.messagedTasks.keys ↔ name ∈ app.softwareTasks.keys ∧ app.IsMessaged name := by
  simp only [Table.mem_keys_iff, messagedTasks, Table.get?_filter_eq_some_iff, decide_eq_true_eq,
    exists_and_right]

theorem capacities_messagedTasks (app : App) :
    total (app.messagedTasks.keys.map fun name =>
      ((app.softwareTasks.get? name).map SoftwareTask.capacity).getD 0) =
        total (app.messagedTasks.values.map SoftwareTask.capacity) := by
  unfold Table.keys Table.values
  rw [List.map_map, List.map_map]
  refine congrArg total (List.map_congr_left fun row member => ?_)
  have hfound := (Table.get?_filter_eq_some_iff.mp (Table.get?_eq_some_iff.mpr member)).1
  simp [hfound]

end App

namespace Entry

def warning? : Entry → Option String
  | warning message => some message
  | _ => none

theorem skipsPasses_warning? : SkipsPasses warning? :=
  ⟨fun _ _ _ => rfl, fun _ _ _ => rfl, fun _ _ _ => rfl⟩

end Entry

namespace Analysis

/-! ## The account -/

/-- The lines of a report and the queues of its analysis account for everything that an
application declares.  The tasks have the priorities of `graph`, which is analysed. -/
structure AccountsFor (app graph : App) (analysis : Analysis) (lines : List Line) : Prop where
  warned : (lines.filter fun line => line.level = .warning).map Line.message = app.unused
  freeQueues : analysis.freeQueues.keys.Perm app.messagedTasks.keys
  channels : (analysis.channels.values.flatMap fun channel => channel.tasks.toList).Perm
    app.messagedTasks.keys
  keyed : ∀ name ∈ app.messagedTasks.keys, ∃ task channel,
    graph.softwareTasks.get? name = some task ∧
      analysis.channels.get? task.priority = some channel ∧ name ∈ channel.tasks
  capacity : total (analysis.channels.values.map Channel.capacity) =
    total (app.messagedTasks.values.map SoftwareTask.capacity)
  timed : ∀ name ∈ analysis.timerQueue.tasks, name ∈ app.messagedTasks.keys ∧
    ∃ key channel ceiling, analysis.channels.get? key = some channel ∧ name ∈ channel.tasks ∧
      channel.ceiling = some ceiling ∧ analysis.timerQueue.priority ≤ ceiling

/-! ## The analysed application -/

section Prepared

variable {settings : Settings} {app : App} {name : String}

theorem isAccessed_prepared : (prepared settings app).IsAccessed name ↔ app.IsAccessed name := by
  unfold prepared
  split
  · rw [App.isAccessed_iff, App.isAccessed_iff, App.accessors_compressed, ne_eq,
      List.map_eq_nil_iff]
  · rfl

theorem isMessaged_prepared : (prepared settings app).IsMessaged name ↔ app.IsMessaged name := by
  rw [App.isMessaged_iff, App.isMessaged_iff, List.map_append, List.map_append,
    receivers_spawned_prepared, receivers_scheduled_prepared]

theorem unused_prepared : (prepared settings app).unused = app.unused := by
  unfold App.unused
  simp only [resources_prepared, keys_softwareTasks_prepared, isAccessed_prepared,
    isMessaged_prepared]

theorem capacity_prepared :
    ((prepared settings app).softwareTasks.get? name).map SoftwareTask.capacity =
      (app.softwareTasks.get? name).map SoftwareTask.capacity := by
  unfold prepared
  split
  · rw [App.get?_softwareTasks_compressed, Option.map_map]
    rfl
  · rfl

theorem mem_messagedTasks_prepared
    (declared : ∀ message ∈ (prepared settings app).spawned ++ (prepared settings app).scheduled,
      message.receiver ∈ (prepared settings app).softwareTasks.keys) :
    name ∈ app.messagedTasks.keys ↔ (prepared settings app).IsMessaged name := by
  rw [App.mem_messagedTasks, ← @isMessaged_prepared settings,
    and_iff_right_iff_imp, App.isMessaged_iff]
  intro hmessaged
  obtain ⟨message, member, rfl⟩ := List.mem_map.mp hmessaged
  rw [← keys_softwareTasks_prepared settings app]
  exact declared message member

end Prepared

/-! ## Warnings -/

theorem mem_keys_locationsOf {graph : App} {late : LatePartition} {name : String} :
    name ∈ (locationsOf graph late).keys ↔ graph.IsAccessed name := by
  have hsummary := Locations.summarizes_get?_foldl_take graph.accesses name
  rw [App.coresOf_accesses] at hsummary
  rw [App.isAccessed_iff, locationsOf, Table.keys_mapRows, Table.mem_keys_iff]
  cases hlocation : (graph.accesses.foldl Locations.take ∅).get? name with
  | none =>
      rw [hlocation] at hsummary
      simpa using List.map_eq_nil_iff.mp hsummary
  | some location =>
      rw [hlocation] at hsummary
      simpa using Location.Describes.ne_nil hsummary.1

theorem warned_of_append (warnings : List String) {lines : List Line}
    (others : ∀ line ∈ lines, line.level ≠ .warning) :
    ((warnings.map (Line.mk .warning) ++ lines).filter fun line => line.level = .warning).map
      Line.message = warnings := by
  have hlines : (lines.filter fun line => line.level = .warning) = [] := by
    simpa [List.filter_eq_nil_iff] using others
  rw [List.filter_append, hlines, List.append_nil, List.filter_map]
  simp [Function.comp_def]

section Derived

variable {graph : App} {late : LatePartition} {timer : TimerQueue × Ledger}
  {planned : ChannelPlan × Ledger} (derives : Derives graph late timer planned)
  (declared : ∀ message ∈ graph.spawned ++ graph.scheduled,
    message.receiver ∈ graph.softwareTasks.keys)

include derives declared

theorem Derives.mem_freeQueues {name : String} :
    name ∈ planned.1.freeQueues.keys ↔ graph.IsMessaged name := by
  rw [ChannelPlan.keys_freeQueues declared derives.planned_eq, List.mem_eraseDups,
    App.isMessaged_iff]

/-- What is warned about is read off locations and free queues, not off the application. -/
theorem Derives.warnings_eq :
    warnings graph (locationsOf graph late) planned.1.freeQueues = graph.unused := by
  have hlocated (name : String) : (!(locationsOf graph late).contains name) =
      decide (¬graph.IsAccessed name) := by
    rw [Bool.eq_iff_iff, Bool.not_eq_true', ← Bool.not_eq_true, Table.contains_iff,
      mem_keys_locationsOf, decide_eq_true_eq]
  have hqueued (name : String) : (!planned.1.freeQueues.contains name) =
      decide (¬graph.IsMessaged name) := by
    rw [Bool.eq_iff_iff, Bool.not_eq_true', ← Bool.not_eq_true, Table.contains_iff,
      derives.mem_freeQueues declared, decide_eq_true_eq]
  unfold warnings App.unused
  simp only [hlocated, hqueued]

/-! ## Channels -/

theorem Derives.exists_request_iff {name : String} :
    (∃ request ∈ ChannelPlan.requests graph.spawned graph.scheduled timer.1,
      request.SendsTo name) ↔ graph.IsMessaged name := by
  have hdescribes := ChannelPlan.describes_ofMessages declared derives.planned_eq
  rw [← hdescribes.mem_freeQueues, derives.mem_freeQueues declared]

theorem Derives.exists_channel {name : String} (messaged : graph.IsMessaged name) :
    ∃ task channel, graph.softwareTasks.get? name = some task ∧
      planned.1.channels.get? task.priority = some channel ∧ name ∈ channel.tasks := by
  have hdescribes := ChannelPlan.describes_ofMessages declared derives.planned_eq
  obtain ⟨message, member, rfl⟩ := List.mem_map.mp (App.isMessaged_iff.mp messaged)
  obtain ⟨task, found⟩ := Table.mem_keys_iff.mp (declared message member)
  obtain ⟨channel, hchannel⟩ := (hdescribes.mem_channel_iff found
    ((derives.exists_request_iff declared).mpr messaged) task.priority).mpr rfl
  exact ⟨task, channel, found, hchannel⟩

/-- A task has one priority, so it waits in one channel. -/
theorem Derives.nodup_channels :
    (planned.1.channels.values.flatMap fun channel => channel.tasks.toList).Nodup := by
  have hdescribes := ChannelPlan.describes_ofMessages declared derives.planned_eq
  unfold Table.values
  rw [List.flatMap_map, List.nodup_flatMap]
  refine ⟨fun row _ => SortedSet.nodup_of_ascending row.2.tasks.ascending, ?_⟩
  refine (List.pairwise_map.mp planned.1.channels.keys_nodup).imp_of_mem
    fun {row other} member hother apart => ?_
  intro name hname hagain
  obtain ⟨request, -, hsends, hjoins⟩ :=
    (hdescribes.mem_tasks row.1 row.2 (Table.get?_eq_some_iff.mpr member) name).mp hname
  obtain ⟨again, -, hsent, hjoined⟩ :=
    (hdescribes.mem_tasks other.1 other.2 (Table.get?_eq_some_iff.mpr hother) name).mp hagain
  obtain ⟨-, task, found, hkey⟩ := hjoins
  obtain ⟨-, same, hfound, hsame⟩ := hjoined
  rw [hsends.2] at found
  rw [hsent.2, found] at hfound
  cases hfound
  exact apart (hkey.symm.trans hsame)

theorem Derives.mem_channels_iff {name : String} :
    (name ∈ planned.1.channels.values.flatMap fun channel => channel.tasks.toList) ↔
      graph.IsMessaged name := by
  have hdescribes := ChannelPlan.describes_ofMessages declared derives.planned_eq
  rw [List.mem_flatMap]
  constructor
  · rintro ⟨channel, member, hname⟩
    obtain ⟨⟨key, _⟩, hrow, rfl⟩ := List.mem_map.mp member
    obtain ⟨request, hrequest, hsends, -⟩ :=
      (hdescribes.mem_tasks key _ (Table.get?_eq_some_iff.mpr hrow) name).mp hname
    exact (derives.exists_request_iff declared).mp ⟨request, hrequest, hsends⟩
  · intro hmessaged
    obtain ⟨task, channel, -, hchannel, hname⟩ := derives.exists_channel declared hmessaged
    exact ⟨channel, List.mem_map_of_mem (Table.get?_eq_some_iff.mp hchannel), hname⟩

theorem Derives.total_capacities :
    total (planned.1.channels.values.map Channel.capacity) =
      total ((planned.1.channels.values.flatMap fun channel => channel.tasks.toList).map
        fun name => ((graph.softwareTasks.get? name).map SoftwareTask.capacity).getD 0) := by
  have hdescribes := ChannelPlan.describes_ofMessages declared derives.planned_eq
  rw [List.map_flatMap, total_flatMap]
  refine congrArg total (List.map_congr_left fun channel member => ?_)
  obtain ⟨⟨key, _⟩, hrow, rfl⟩ := List.mem_map.mp member
  rw [hdescribes.capacity key _ (Table.get?_eq_some_iff.mpr hrow), App.totalCapacity, total,
    List.foldr_map]

/-! ## The timer queue -/

theorem Derives.exists_ceiling {name : String} (member : name ∈ timer.1.tasks) :
    ∃ key channel ceiling, planned.1.channels.get? key = some channel ∧ name ∈ channel.tasks ∧
      channel.ceiling = some ceiling ∧ timer.1.priority ≤ ceiling := by
  have hdescribes := ChannelPlan.describes_ofMessages declared derives.planned_eq
  have hqueue := TimerQueue.describes_ofMessages derives.timer_eq fun message member =>
    declared message (List.mem_append_right _ member)
  obtain ⟨message, hmessage, rfl⟩ := (hqueue.mem_tasks name).mp member
  obtain ⟨task, found⟩ :=
    Table.mem_keys_iff.mp (declared message (List.mem_append_right _ hmessage))
  have hrequest : ChannelPlanner.Request.schedule message timer.1 ∈
      ChannelPlan.requests graph.spawned graph.scheduled timer.1 :=
    List.mem_append_right _ (List.mem_map_of_mem hmessage)
  obtain ⟨channel, hchannel, hname⟩ :=
    (hdescribes.mem_channel_iff found ⟨_, hrequest, rfl, rfl⟩ task.priority).mpr rfl
  have hceiling := hdescribes.ceiling task.priority channel hchannel
  have hcontends : ∃ request ∈ ChannelPlan.requests graph.spawned graph.scheduled timer.1,
      request.Joins graph task.priority ∧ request.contender = some timer.1.priority :=
    ⟨_, hrequest, ⟨rfl, task, found, rfl⟩, rfl⟩
  cases hraised : channel.ceiling with
  | none =>
      rw [hraised] at hceiling
      exact absurd hcontends (hceiling timer.1.priority)
  | some ceiling =>
      rw [hraised] at hceiling
      exact ⟨task.priority, channel, ceiling, hchannel, hname, hraised,
        hceiling.2 timer.1.priority hcontends⟩

end Derived

/-! ## Runs -/

/-- Every run that returns accounts for each resource and each software task once, in its
queues, in its report and in its trace. -/
theorem accounts_of_run {settings : Settings} {app : App} {analysis : Analysis}
    {lines : List Line} (h : run settings app = .ok (analysis, lines)) :
    ∃ graph, prepare settings app = .ok graph ∧ analysis.AccountsFor app graph lines ∧
      (settings.trace = true → analysis.entries.filterMap Entry.warning? = app.unused) := by
  obtain ⟨hprepared, hdeclared, late, timer, planned, hderives, hassemble⟩ :=
    exists_derives_prepared h
  have hwarnings := (hderives.warnings_eq hdeclared).trans unused_prepared
  have hmem (name : String) :
      name ∈ app.messagedTasks.keys ↔ (prepared settings app).IsMessaged name :=
    mem_messagedTasks_prepared hdeclared
  have hchannels : (planned.1.channels.values.flatMap fun channel => channel.tasks.toList).Perm
      app.messagedTasks.keys :=
    (List.perm_ext_iff_of_nodup (hderives.nodup_channels hdeclared) (Table.keys_nodup _)).mpr
      fun name => (hderives.mem_channels_iff hdeclared).trans (hmem name).symm
  refine ⟨_, hprepared, ?_, fun traced => ?_⟩
  · cases hassemble
    constructor
    · exact (warned_of_append _ (by simp [summary])).trans hwarnings
    · exact (List.perm_ext_iff_of_nodup (Table.keys_nodup _) (Table.keys_nodup _)).mpr
        fun name => (hderives.mem_freeQueues hdeclared).trans (hmem name).symm
    · exact hchannels
    · exact fun name member => hderives.exists_channel hdeclared ((hmem name).mp member)
    · rw [← App.capacities_messagedTasks]
      refine (hderives.total_capacities hdeclared).trans ?_
      simp only [capacity_prepared]
      exact total_perm (hchannels.map _)
    · intro name member
      obtain ⟨key, channel, ceiling, hchannel, hname, hceiling, hle⟩ :=
        hderives.exists_ceiling hdeclared member
      refine ⟨hchannels.mem_iff.mp (List.mem_flatMap.mpr ⟨channel, ?_, hname⟩), key, channel,
        ceiling, hchannel, hname, hceiling, hle⟩
      exact List.mem_map_of_mem (Table.get?_eq_some_iff.mp hchannel)
  · have hentries := entries_of_traced traced (prepared settings app)
      (passesOf (prepared settings app) late timer planned)
    rw [hassemble] at hentries
    rw [hentries, filterMap_traceEntries (fun _ _ => rfl) rfl,
      hderives.filterMap_entries_eq_nil hdeclared Entry.skipsPasses_warning?,
      List.nil_append, List.filterMap_map]
    exact List.filterMap_some.trans hwarnings

theorem accounts_archiving :
    archiving.violations = [] ∧ ∃ analysis lines graph,
      run ⟨true, true, true⟩ archiving = .ok (analysis, lines) ∧
        prepare ⟨true, true, true⟩ archiving = .ok graph ∧
        analysis.AccountsFor archiving graph lines ∧
        archiving.unused = ["software task 'archive' is never spawned nor scheduled"] ∧
        archiving.messagedTasks.keys = ["write"] := by
  have hclean : archiving.violations = [] := by decide +kernel
  have hnone := runFailure?_of_violations hclean ⟨true, true, true⟩
  obtain ⟨⟨analysis, lines⟩, hrun⟩ := exists_run (fun _ => hclean) hnone
  obtain ⟨graph, hprepared, haccounts, -⟩ := accounts_of_run hrun
  exact ⟨hclean, analysis, lines, graph, hrun, hprepared, haccounts, by decide +kernel,
    by decide +kernel⟩

end Analysis

end StackPolicy
