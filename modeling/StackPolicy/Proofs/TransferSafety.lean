import StackPolicy.Proofs.RunResults

/-!
# Which types have to be safe to transfer

A type has to be safe to transfer if a late resource, a resource that
initialization touches, or a message hands it from one context to another.
-/

namespace StackPolicy

/-! ## Resources that one idle loop alone uses -/

namespace App

/-- One idle loop is the only context with a priority that accesses the resource. -/
def IdleAlone (app : App) (name : String) : Prop :=
  ∃ idle, app.users name = [idle] ∧ idle.kind = .idle

theorem prioritiesOf_eq_nil_iff {app : App} {name : String} :
    Access.prioritiesOf name app.accesses = [] ↔ app.users name = [] := by
  constructor
  · intro hnil
    apply List.eq_nil_iff_forall_not_mem.mpr
    intro user huser
    obtain ⟨priority, hpriority⟩ := exists_priority_of_mem_users huser
    have hmember := mem_prioritiesOf_accesses.mpr ⟨user, huser, hpriority⟩
    rw [hnil] at hmember
    cases hmember
  · intro hnil
    rw [prioritiesOf_accesses, hnil]
    rfl

theorem prioritiesOf_eq_zero_iff {app : App} {name : String} :
    Access.prioritiesOf name app.accesses = [0] ↔ app.IdleAlone name := by
  rw [prioritiesOf_accesses]
  constructor
  · intro hzero
    cases husers : app.users name with
    | nil =>
        rw [husers] at hzero
        cases hzero
    | cons user others =>
        have huser : user ∈ app.users name := husers ▸ List.mem_cons_self
        obtain ⟨priority, hpriority⟩ := exists_priority_of_mem_users huser
        rw [husers, List.filterMap_cons, hpriority, List.cons.injEq] at hzero
        obtain ⟨rfl, hothers⟩ := hzero
        have halone : others = [] := by
          apply List.eq_nil_iff_forall_not_mem.mpr
          intro other hother
          obtain ⟨above, habove⟩ := exists_priority_of_mem_users
            (show other ∈ app.users name from husers ▸ List.mem_cons_of_mem _ hother)
          have hnone := List.filterMap_eq_nil_iff.mp hothers other hother
          rw [habove] at hnone
          cases hnone
        have hformed := wellFormed_of_mem_contexts (mem_users.mp huser).1
        exact ⟨user, by rw [husers, halone], hformed.priority_eq_zero_iff.mp hpriority⟩
  · rintro ⟨idle, husers, hkind⟩
    have huser : idle ∈ app.users name := husers ▸ List.mem_singleton_self idle
    have hformed := wellFormed_of_mem_contexts (mem_users.mp huser).1
    have hpriority := hformed.priority_eq_zero_iff.mpr hkind
    rw [husers, List.filterMap_cons, hpriority]
    rfl

theorem mem_inits_resources {app : App} {name : String} :
    name ∈ app.inits.flatMap (fun init => init.resources.keys) ↔
      ∃ context ∈ app.contexts, context.isInit = true ∧ name ∈ context.resources.keys := by
  rw [List.mem_flatMap]
  constructor
  · rintro ⟨init, member, hname⟩
    exact ⟨Context.ofInit init, mem_contexts.mpr (.inl ⟨init, member, rfl⟩), rfl, hname⟩
  · rintro ⟨context, hcontext, hinit, hname⟩
    rcases mem_contexts.mp hcontext with
      ⟨init, member, rfl⟩ | ⟨idle, -, rfl⟩ | ⟨row, -, rfl⟩ | ⟨row, -, rfl⟩
    · exact ⟨init, member, hname⟩
    · cases hinit
    · cases hinit
    · cases hinit

/-- Initialization does not access late resources, so all their accessors have a priority. -/
theorem users_eq_accessors {app : App} (sound : app.Sound) {name : String}
    (late : name ∈ app.lateResources.keys) : app.users name = app.accessors name := by
  unfold users
  rw [List.filter_eq_self]
  intro context member
  obtain ⟨hcontext, hname⟩ := mem_accessors.mp member
  cases hinit : context.isInit with
  | false => rfl
  | true => exact absurd late (sound.not_late_of_init context hcontext hinit name hname)

end App

theorem Ownership.Describes.eq_byIdle_iff {ownership : Ownership} {priorities : List Int}
    (h : ownership.Describes priorities) : ownership = .byIdle ↔ priorities = [0] := by
  cases ownership with
  | owned priority =>
      have hall : priorities = [priority] := h
      rw [hall]
      simp [Ownership.byIdle]
  | coOwned priority =>
      have hlength := h.1
      constructor
      · intro hidle
        cases hidle
      · rintro rfl
        simp at hlength
  | contended ceiling =>
      obtain ⟨hceiling, -, other, hother, hlt⟩ := h
      constructor
      · intro hidle
        cases hidle
      · rintro rfl
        rw [List.mem_singleton] at hceiling hother
        omega

namespace Analysis

/-! ## What the passes over resources see -/

theorem exists_ownership_iff (app : App) (name : String) :
    (∃ ownership, (ownershipsOf app).1.get? name = some ownership ∧ ownership ≠ .byIdle) ↔
      app.users name ≠ [] ∧ ¬app.IdleAlone name := by
  have hsummary : Ownership.Summarizes ((ownershipsOf app).1.get? name)
      (Access.prioritiesOf name app.accesses) :=
    Ownerships.summarizes_get?_foldl_take app app.accesses (.start true) name
  rw [ne_eq, ← App.prioritiesOf_eq_nil_iff, ← App.prioritiesOf_eq_zero_iff]
  cases hownership : (ownershipsOf app).1.get? name with
  | none =>
      rw [hownership] at hsummary
      have hnil : Access.prioritiesOf name app.accesses = [] := hsummary
      simp [hnil]
  | some ownership =>
      rw [hownership] at hsummary
      have hdescribes : ownership.Describes (Access.prioritiesOf name app.accesses) := hsummary
      have hnonempty := List.ne_nil_of_mem hdescribes.level_mem
      simp [hdescribes.eq_byIdle_iff, hnonempty]

theorem isCrossInitialized_iff (app : App) (late : LatePartition) (name : String) :
    ((locationsOf app late).get? name).any Location.isCrossInitialized = true ↔
      app.accessors name ≠ [] ∧
        ∃ holder, (∀ context ∈ app.accessors name, context.core = holder) ∧
          ∃ initializer, late.initializerOf? name = some initializer ∧
            initializer ≠ holder := by
  have hsummary := Locations.summarizes_get?_foldl_take app.accesses name
  rw [App.coresOf_accesses] at hsummary
  unfold locationsOf
  rw [Table.get?_mapRows]
  cases hlocation : (app.accesses.foldl Locations.take ∅).get? name with
  | none =>
      rw [hlocation] at hsummary
      have hnil : (app.accessors name).map Context.core = [] := hsummary
      simp [List.map_eq_nil_iff.mp hnil]
  | some location =>
      rw [hlocation] at hsummary
      have hnonempty : app.accessors name ≠ [] := fun hnil =>
        hsummary.1.ne_nil (congrArg (List.map Context.core) hnil)
      have hsettle := Location.isCrossInitialized_settle hsummary late name
      simp only [Option.map_some, Option.any_some, hsettle, List.forall_mem_map, ne_eq,
        hnonempty, not_false_eq_true, true_and]

/-! ## The three ways of a type -/

/-- A late resource of the type is used, and not only by one idle loop on the core that
provides it. -/
def TransferByLate (app : App) (late : LatePartition) (ty : String) : Prop :=
  ∃ name resource, app.resources.get? name = some resource ∧ resource.isLate = true ∧
    resource.ty = ty ∧ app.users name ≠ [] ∧
    ¬∃ idle, app.accessors name = [idle] ∧ idle.kind = .idle ∧
      ∀ core, late.initializerOf? name = some core → core = idle.core

/-- A resource of the type is used by initialization, and by others than one idle loop. -/
def TransferByInit (app : App) (ty : String) : Prop :=
  ∃ name resource, app.resources.get? name = some resource ∧ resource.ty = ty ∧
    (∃ init ∈ app.contexts, init.isInit = true ∧ name ∈ init.resources.keys) ∧
    app.users name ≠ [] ∧ ¬app.IdleAlone name

/-- A message with an input of the type leaves its core or its priority, or initialization. -/
def TransferByMessage (app : App) (ty : String) : Prop :=
  ∃ message ∈ app.spawned ++ app.scheduled, ∃ task,
    app.softwareTasks.get? message.receiver = some task ∧ ty ∈ task.inputs ∧
    (message.sender.isInit = true ∨ message.sender.core ≠ task.core ∨
      message.sender.priority ≠ some task.priority)

theorem late_moves_iff {app : App} (sound : app.Sound) (late : LatePartition) {name : String}
    (member : name ∈ app.lateResources.keys) :
    (((locationsOf app late).get? name).any Location.isCrossInitialized = true ∨
      ∃ ownership, (ownershipsOf app).1.get? name = some ownership ∧ ownership ≠ .byIdle) ↔
    app.users name ≠ [] ∧ ¬∃ idle, app.accessors name = [idle] ∧ idle.kind = .idle ∧
      ∀ core, late.initializerOf? name = some core → core = idle.core := by
  rw [isCrossInitialized_iff, exists_ownership_iff, App.users_eq_accessors sound member]
  constructor
  · rintro (⟨hused, holder, hcores, initializer, hfound, hother⟩ | ⟨hused, hothers⟩)
    · refine ⟨hused, ?_⟩
      rintro ⟨idle, hidle, -, hown⟩
      have hholder := hcores idle (hidle ▸ List.mem_singleton_self idle)
      exact hother ((hown initializer hfound).trans hholder)
    · refine ⟨hused, ?_⟩
      rintro ⟨idle, hidle, hkind, -⟩
      exact hothers ⟨idle, (App.users_eq_accessors sound member).trans hidle, hkind⟩
  · rintro ⟨hused, hnot⟩
    by_cases halone : app.IdleAlone name
    · left
      obtain ⟨idle, husers, hkind⟩ := halone
      have hidle : app.accessors name = [idle] :=
        (App.users_eq_accessors sound member).symm.trans husers
      refine ⟨hused, idle.core, ?_, ?_⟩
      · intro context hcontext
        rw [hidle, List.mem_singleton] at hcontext
        rw [hcontext]
      · cases hfound : late.initializerOf? name with
        | none => exact absurd ⟨idle, hidle, hkind, by simp [hfound]⟩ hnot
        | some initializer =>
            refine ⟨initializer, rfl, fun hsame => hnot ⟨idle, hidle, hkind, ?_⟩⟩
            intro core hcore
            rw [hfound] at hcore
            cases hcore
            exact hsame
    · exact .inr ⟨hused, halone⟩

theorem mem_lateResources_rows {app : App} {name : String} {resource : Resource} :
    (name, resource) ∈ app.lateResources.rows ↔
      app.resources.get? name = some resource ∧ resource.isLate = true := by
  rw [← Table.get?_eq_some_iff]
  exact Table.get?_filter_eq_some_iff

theorem mem_transfer_safetyOf {app : App} (sound : app.Sound) (late : LatePartition)
    (ty : String) :
    ty ∈ (safetyOf app late).transfer ↔
      TransferByLate app late ty ∨ TransferByInit app ty := by
  have hstart : ty ∉ (ownershipsOf app).2.transfer := by
    unfold ownershipsOf
    rw [Ownerships.transfer_foldl_take]
    exact SortedSet.not_mem_empty ty
  unfold safetyOf
  rw [Ledger.mem_transfer_requireInitResources, Ledger.mem_transfer_requireLateResources]
  apply or_congr
  · constructor
    · rintro (hold | ⟨⟨name, resource⟩, hrow, rfl, hmoves⟩)
      · exact absurd hold hstart
      · obtain ⟨hfound, hlate⟩ := mem_lateResources_rows.mp hrow
        have hmember := App.mem_keys_lateResources.mpr ⟨resource, hfound, hlate⟩
        obtain ⟨hused, hothers⟩ := (late_moves_iff sound late hmember).mp hmoves
        exact ⟨name, resource, hfound, hlate, rfl, hused, hothers⟩
    · rintro ⟨name, resource, hfound, hlate, rfl, hused, hothers⟩
      have hmember := App.mem_keys_lateResources.mpr ⟨resource, hfound, hlate⟩
      refine .inr ⟨(name, resource), mem_lateResources_rows.mpr ⟨hfound, hlate⟩, rfl, ?_⟩
      exact (late_moves_iff sound late hmember).mpr ⟨hused, hothers⟩
  · constructor
    · rintro ⟨name, hname, resource, hfound, rfl, hmoves⟩
      obtain ⟨hused, hothers⟩ := (exists_ownership_iff app name).mp hmoves
      exact ⟨name, resource, hfound, rfl, App.mem_inits_resources.mp hname, hused, hothers⟩
    · rintro ⟨name, resource, hfound, rfl, hinit, hused, hothers⟩
      exact ⟨name, App.mem_inits_resources.mpr hinit, resource, hfound, rfl,
        (exists_ownership_iff app name).mpr ⟨hused, hothers⟩⟩

theorem sender_mem_contexts {app : App} {message : Message}
    (member : message ∈ app.spawned ++ app.scheduled) : message.sender ∈ app.contexts := by
  rcases List.mem_append.mp member with hspawned | hscheduled
  · obtain ⟨context, hcontext, hmessage⟩ := List.mem_flatMap.mp hspawned
    obtain ⟨receiver, -, rfl⟩ := List.mem_map.mp hmessage
    exact hcontext
  · obtain ⟨context, hcontext, hmessage⟩ := List.mem_flatMap.mp hscheduled
    obtain ⟨receiver, -, rfl⟩ := List.mem_map.mp hmessage
    exact hcontext

theorem mustTransfer_iff {sender : Context} (formed : sender.WellFormed) (core priority : Int) :
    sender.mustTransfer core priority = true ↔
      sender.isInit = true ∨ sender.core ≠ core ∨ sender.priority ≠ some priority := by
  simp only [Context.mustTransfer, Bool.or_eq_true, decide_eq_true_eq]
  constructor
  · exact .inr
  · rintro (hinit | hother)
    · right
      rw [formed.priority_eq_none_iff.mpr hinit]
      exact nofun
    · exact hother

theorem exists_message_moves_iff (app : App) (ty : String) :
    (∃ message ∈ app.spawned ++ app.scheduled, message.Moves app ty) ↔
      TransferByMessage app ty := by
  constructor
  · rintro ⟨message, member, hmessage⟩
    obtain ⟨task, htask, hinput, hmoves⟩ := Message.moves_iff.mp hmessage
    have hformed := App.wellFormed_of_mem_contexts (sender_mem_contexts member)
    exact ⟨message, member, task, htask, hinput,
      (mustTransfer_iff hformed task.core task.priority).mp hmoves⟩
  · rintro ⟨message, member, task, htask, hinput, hmoves⟩
    have hformed := App.wellFormed_of_mem_contexts (sender_mem_contexts member)
    exact ⟨message, member, Message.moves_iff.mpr ⟨task, htask, hinput,
      (mustTransfer_iff hformed task.core task.priority).mpr hmoves⟩⟩

theorem Derives.mem_transfer_iff {graph : App} {late : LatePartition}
    {timer : TimerQueue × Ledger} {planned : ChannelPlan × Ledger}
    (derives : Derives graph late timer planned) (sound : graph.Sound) (ty : String) :
    ty ∈ planned.2.transfer ↔
      TransferByLate graph late ty ∨ TransferByInit graph ty ∨ TransferByMessage graph ty := by
  rw [derives.mem_transfer sound, mem_transfer_safetyOf sound, exists_message_moves_iff, or_assoc]

/-- The types that have to be safe to transfer are exactly those that one of the three ways
hands over. -/
theorem mem_transferSafe_iff {app : App} (h : app.violations = []) (settings : Settings) :
    ∃ analysis lines graph late, run settings app = .ok (analysis, lines) ∧
      prepare settings app = .ok graph ∧ LatePartition.ofApp graph = .ok late ∧
      ∀ ty, ty ∈ analysis.transferSafe ↔
        TransferByLate graph late ty ∨ TransferByInit graph ty ∨
          TransferByMessage graph ty := by
  have hsound := App.sound_of_violations h
  have hgraph := prepare_eq_ok (missingCore?_of_sound hsound settings)
  have hprepared := sound_prepared hsound settings
  have hfew : ¬((prepared settings app).lateResources.rows ≠ [] ∧
      1 < (prepared settings app).restCores.length) := by
    rintro ⟨hlate, hseveral⟩
    have hone := hprepared.rests_le_one hlate
    omega
  obtain ⟨late, hlate⟩ := LatePartition.exists_ofApp hfew
  obtain ⟨passes, hpasses, htransfer⟩ := runPasses_eq_ok hlate
    (fun message member => declared_of_sound hprepared (List.mem_append_right _ member))
    (fun message member => declared_of_sound hprepared (List.mem_append_left _ member))
  refine ⟨(assemble settings (prepared settings app) passes).1,
    (assemble settings (prepared settings app) passes).2,
    prepared settings app, late, ?_, hgraph, hlate, fun ty => ?_⟩
  · rw [run_eq fun _ => h, bind_of_ok hgraph]
    exact bind_of_ok hpasses _
  · change ty ∈ passes.ledger.transfer ↔ _
    rw [htransfer, mem_transfer_safetyOf hprepared, exists_message_moves_iff, or_assoc]

/-- The message of the first core carries a frame to the second one. -/
theorem transferSafe_pipeline :
    App.pipeline.violations = [] ∧
      ∃ analysis lines, run ⟨false, true, true⟩ App.pipeline = .ok (analysis, lines) ∧
        "Frame" ∈ analysis.transferSafe := by
  obtain ⟨analysis, lines, graph, late, hrun, hgraph, -, htransfer⟩ :=
    mem_transferSafe_iff App.violations_pipeline ⟨false, true, true⟩
  cases hgraph
  refine ⟨App.violations_pipeline, analysis, lines, hrun, (htransfer "Frame").mpr ?_⟩
  obtain ⟨uart, huart, -, hcore, -, -, hfilter⟩ := App.exists_uart
  have hspawn : (⟨uart, "filter"⟩ : Message) ∈ App.pipeline.spawned :=
    List.mem_flatMap.mpr ⟨uart, huart, List.mem_map.mpr ⟨"filter", hfilter, rfl⟩⟩
  refine .inr (.inr ⟨_, List.mem_append_left _ hspawn, _, rfl, by decide, .inr (.inl ?_)⟩)
  rw [hcore]
  decide

end Analysis

end StackPolicy
