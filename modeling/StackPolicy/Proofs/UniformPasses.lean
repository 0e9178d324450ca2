import StackPolicy.Proofs.LedgerEntries
import StackPolicy.Proofs.Passes
import StackPolicy.Proofs.TimerContents

/-!
# Passes that do not depend on the trace

What a pass returns, what it requires of types and which entries it makes do
not depend on what the trace has recorded before, nor on whether the trace is
enabled: the pass could as well write to a trace of its own, and its entries
could be logged later.
-/

namespace StackPolicy

/-! ## Ledgers with another trace -/

namespace Ledger

/-- The ledger that has written its entries to the trace `base`. -/
def onto (ledger : Ledger) (base : Trace) : Ledger :=
  { ledger with trace := base.logAll ledger.entries }

/-- A ledger after a phase in which a pass has written `own` to a trace of its own. -/
def afterPhase (ledger : Ledger) (name detail : String) (own : Ledger) : Ledger :=
  { own with trace := ledger.trace.logPhase name detail own.entries }

@[simp] theorem withoutEntries_afterPhase (ledger own : Ledger) (name detail : String) :
    (ledger.afterPhase name detail own).withoutEntries = own.withoutEntries := rfl

variable {ledger : Ledger} (on : ledger.trace.enabled = true) (base : Trace)

@[simp] theorem types_onto (ledger : Ledger) (base : Trace) (obligation : Obligation) :
    (ledger.onto base).types obligation = ledger.types obligation := by
  cases obligation <;> rfl

include on

theorem onto_note (entry : Entry) :
    (ledger.note entry).onto base = (ledger.onto base).note entry := by
  unfold onto
  rw [entries_note on, Trace.logAll_concat]
  rfl

theorem onto_require (obligation : Obligation) (ty reason : String) :
    (ledger.require obligation ty reason).onto base =
      (ledger.onto base).require obligation ty reason := by
  have hadded : (ledger.add obligation ty).trace.enabled = true := by rwa [trace_add]
  have hadd : (ledger.add obligation ty).onto base = (ledger.onto base).add obligation ty := by
    cases obligation <;> rfl
  unfold require
  rw [types_onto]
  split
  · rfl
  · rw [onto_note hadded, hadd]

omit on

/-- A pass over some items may move to another trace before or after it. -/
theorem onto_foldl {State Item : Type} {step : State → Item → State} (Own : Entry → Prop)
    (read : State → Ledger) (move : State → State)
    (writes : ∀ state item, Writes Own (read state) (read (step state item)))
    (moves : ∀ state item, (read state).trace.enabled = true →
      move (step state item) = step (move state) item)
    (items : List Item) (state : State) (on : (read state).trace.enabled = true) :
    move (items.foldl step state) = items.foldl step (move state) := by
  induction items generalizing state with
  | nil => rfl
  | cons item items ih =>
      rw [List.foldl_cons, ih _ ((writes state item).enabled_eq.trans on), moves state item on,
        List.foldl_cons]

include on

theorem onto_requireAll (obligation : Obligation) (types : List String) (reason : String) :
    (ledger.requireAll obligation types reason).onto base =
      (ledger.onto base).requireAll obligation types reason :=
  onto_foldl (fun _ => False) id (onto · base) (fun _ ty => .require .start obligation ty reason)
    (fun _ ty on => onto_require on base obligation ty reason) types ledger on

theorem onto_requireMessage (delivery : Delivery) (verb : String) :
    (ledger.requireMessage delivery verb).onto base =
      (ledger.onto base).requireMessage delivery verb := by
  unfold requireMessage
  split
  · exact onto_requireAll on base _ _ _
  · rfl

theorem onto_requireLate (ownerships : Ownerships) (locations : Locations) (name : String)
    (resource : Resource) :
    (requireLate ownerships locations ledger name resource).onto base =
      requireLate ownerships locations (ledger.onto base) name resource := by
  unfold requireLate
  split
  · exact onto_require on base _ _ _
  · split
    · split
      · rfl
      · exact onto_require on base _ _ _
    · rfl

theorem onto_requireShared (app : App) (ownerships : Ownerships) (name : String) :
    (requireShared app ownerships ledger name).onto base =
      requireShared app ownerships (ledger.onto base) name := by
  unfold requireShared
  split
  · split
    · rfl
    · exact onto_require on base _ _ _
  · rfl

theorem onto_requireLateResources (app : App) (ownerships : Ownerships) (locations : Locations) :
    (ledger.requireLateResources app ownerships locations).onto base =
      (ledger.onto base).requireLateResources app ownerships locations := by
  refine onto_foldl (fun _ => False) id (onto · base) (fun ledger row => ?_)
    (fun ledger row on => ?_) app.lateResources.rows ledger on
  · exact writes_requireLate ownerships locations ledger row.1 row.2
  · exact onto_requireLate on base ownerships locations row.1 row.2

theorem onto_requireInitResources (app : App) (ownerships : Ownerships) :
    (ledger.requireInitResources app ownerships).onto base =
      (ledger.onto base).requireInitResources app ownerships :=
  onto_foldl (fun _ => False) id (onto · base) (writes_requireShared app ownerships)
    (fun _ name on => onto_requireShared on base app ownerships name) _ ledger on

end Ledger

/-! ## Uniform passes -/

/-- A pass that does not depend on what the trace has recorded, and neither turns the trace
on nor off. -/
structure Pass.Uniform {Result : Type} (pass : Pass Result) : Prop where
  enabled_eq : ∀ ledger result written, pass.run ledger = .ok (result, written) →
    written.trace.enabled = ledger.trace.enabled
  run_onto : ∀ (base : Trace) (ledger : Ledger), ledger.trace.enabled = true →
    pass.run (ledger.onto base) =
      (pass.run ledger).map fun done => (done.1, done.2.onto base)

namespace Pass

variable {Result Other : Type} {pass : Pass Result}

section Running

variable {ledger : Ledger} (next : Result → Pass Other)

theorem run_bind_of_ok {result : Result} {written : Ledger}
    (h : pass.run ledger = .ok (result, written)) :
    (pass >>= next).run ledger = (next result).run written := by
  rw [StateT.run_bind, bind_of_ok h]

theorem run_bind_of_error {failure : Failure} (h : pass.run ledger = .error failure) :
    (pass >>= next).run ledger = .error failure := by
  rw [StateT.run_bind, bind_of_error h]

end Running

theorem uniform_lift (outcome : Except Failure Result) :
    Uniform (liftM outcome : Pass Result) := by
  cases outcome with
  | error failure => exact ⟨nofun, fun _ _ _ => rfl⟩
  | ok result =>
      refine ⟨?_, fun _ _ _ => rfl⟩
      rintro ledger _ _ ⟨⟩
      rfl

theorem uniform_pure (result : Result) : Uniform (pure result : Pass Result) :=
  uniform_lift (.ok result)

theorem Uniform.bind (h : Uniform pass) {next : Result → Pass Other}
    (later : ∀ result, Uniform (next result)) : Uniform (pass >>= next) := by
  constructor
  · intro ledger result written hrun
    rw [StateT.run_bind] at hrun
    obtain ⟨⟨between, middle⟩, hpass, hnext⟩ := bind_eq_ok_iff.mp hrun
    rw [(later between).enabled_eq _ _ _ hnext, h.enabled_eq _ _ _ hpass]
  · intro base ledger on
    rw [StateT.run_bind, StateT.run_bind, h.run_onto base ledger on]
    cases hpass : pass.run ledger with
    | error failure => rfl
    | ok done =>
        have hon := (h.enabled_eq _ _ _ hpass).trans on
        exact (later done.1).run_onto base done.2 hon

theorem uniform_modify {change : Ledger → Ledger} (Own : Entry → Prop)
    (writes : ∀ ledger, Ledger.Writes Own ledger (change ledger))
    (moves : ∀ base ledger, ledger.trace.enabled = true →
      (change ledger).onto base = change (ledger.onto base)) :
    Uniform (modify change : Pass Unit) := by
  constructor
  · rintro ledger _ _ ⟨⟩
    exact (writes ledger).enabled_eq
  · intro base ledger on
    exact congrArg (fun moved => Except.ok ((), moved)) (moves base ledger on).symm

/-- A pass is uniform if its outcome is the same on every trace, and it writes the same. -/
theorem uniform_of_run (outcome : Ledger → Except Failure Result) (written : Ledger → Ledger)
    (run_eq : ∀ ledger,
      pass.run ledger = (outcome ledger).map fun result => (result, written ledger))
    (enabled_eq : ∀ ledger, (written ledger).trace.enabled = ledger.trace.enabled)
    (moves : ∀ base ledger, ledger.trace.enabled = true →
      outcome (ledger.onto base) = outcome ledger ∧
        written (ledger.onto base) = (written ledger).onto base) : Uniform pass := by
  constructor
  · intro ledger result after h
    rw [run_eq] at h
    cases houtcome : outcome ledger with
    | error failure =>
        rw [houtcome] at h
        cases h
    | ok result =>
        rw [houtcome] at h
        cases h
        exact enabled_eq ledger
  · intro base ledger on
    obtain ⟨houtcome, hwritten⟩ := moves base ledger on
    rw [run_eq, run_eq, houtcome, hwritten]
    cases outcome ledger <;> rfl

theorem uniform_of_failure (failure : Failure)
    (failed : ∀ ledger, pass.run ledger = .error failure) : Uniform pass :=
  uniform_of_run (fun _ => .error failure) id failed (fun _ => rfl) fun _ _ _ => ⟨rfl, rfl⟩

/-- A uniform pass in a phase does what it does on a trace of its own, and its entries are
logged in the phase. -/
theorem Uniform.run_inPhase (h : Uniform pass) (name detail : String) (ledger : Ledger) :
    (inPhase name detail pass).run ledger =
      (pass.run ledger.withoutEntries).map fun done =>
        (done.1, ledger.afterPhase name detail done.2) := by
  have hstart : ledger.startPhase name detail =
      ledger.withoutEntries.onto (ledger.trace.startPhase name detail) := rfl
  have hpass := h.run_onto (ledger.trace.startPhase name detail) ledger.withoutEntries rfl
  rw [← hstart] at hpass
  change (pass.run (ledger.startPhase name detail) >>= fun done =>
    pure (done.1, done.2.endPhase)) = _
  rw [hpass]
  cases pass.run ledger.withoutEntries <;> rfl

end Pass

/-! ## Ownerships -/

namespace Ownerships

variable {ledger : Ledger} (on : ledger.trace.enabled = true) (base : Trace)

/-- The same ownerships, with the ledger moved to another trace. -/
def moved (base : Trace) (state : Ownerships × Ledger) : Ownerships × Ledger :=
  (state.1, state.2.onto base)

include on

theorem onto_requireRead (app : App) (resource reason : String) :
    (requireRead app ledger resource reason).onto base =
      requireRead app (ledger.onto base) resource reason := by
  unfold requireRead
  split
  · exact Ledger.onto_require on base _ _ _
  · rfl

theorem moved_update (ownerships : Ownerships) (resource : String) (updated : Ownership) :
    moved base (ownerships.update ledger resource updated) =
      ownerships.update (ledger.onto base) resource updated := by
  unfold update
  by_cases hsame : ownerships.get? resource = some updated
  · rw [if_pos hsame, if_pos hsame]
    rfl
  · rw [if_neg hsame, if_neg hsame, ← Ledger.onto_note on]
    rfl

omit on

theorem moved_take (app : App) {state : Ownerships × Ledger}
    (on : state.2.trace.enabled = true) (access : Access) :
    moved base (take app state access) = take app (moved base state) access := by
  unfold take
  simp only [moved]
  split
  · rfl
  · rename_i priority _
    have hwrites (reason : String) : Ledger.Writes (fun _ => False) state.2
      (requireRead app state.2 access.resource reason) := writes_requireRead app _ _ _
    simp only [record]
    split
    · rw [← onto_requireRead on]
      exact moved_update ((hwrites _).enabled_eq.trans on) base _ _ _
    · exact moved_update on base _ _ _

theorem uniform_ofAccesses (app : App) :
    Pass.Uniform (ofAccesses app app.accesses : Pass Ownerships) := by
  refine Pass.uniform_of_run
    (fun ledger => .ok (app.accesses.foldl (take app) (∅, ledger)).1)
    (fun ledger => (app.accesses.foldl (take app) (∅, ledger)).2)
    (fun ledger => ofAccesses_eq_ok fun _ member _ => App.priority_nonneg_of_mem_accesses member)
    (fun ledger => (writes_foldl_take app app.accesses (∅, ledger)).enabled_eq) ?_
  intro base ledger on
  have hmoved := Ledger.onto_foldl _ Prod.snd (moved base) (writes_take app)
    (fun _ access on => moved_take base app on access) app.accesses (∅, ledger) on
  exact ⟨(congrArg (fun state => Except.ok state.1) hmoved).symm, (congrArg Prod.snd hmoved).symm⟩

end Ownerships

/-! ## The timer queue -/

namespace TimerQueue

namespace Draft

def moved (base : Trace) (draft : Draft) : Draft :=
  { draft with ledger := draft.ledger.onto base }

variable {draft : Draft} (on : draft.ledger.trace.enabled = true) (base : Trace)

include on

theorem moved_raisePriority (priority : Int) :
    (draft.raisePriority priority).moved base = (draft.moved base).raisePriority priority := by
  unfold raisePriority
  by_cases raises : draft.priority < priority
  · rw [if_pos raises, if_pos (show (draft.moved base).priority < priority from raises)]
    simp only [moved, noteUpdate, Ledger.onto_note on]
  · rw [if_neg raises, if_neg (show ¬(draft.moved base).priority < priority from raises)]

theorem moved_raiseCeiling (scheduler : Option Int) :
    (draft.raiseCeiling scheduler).moved base = (draft.moved base).raiseCeiling scheduler := by
  cases scheduler with
  | none => rfl
  | some priority =>
      simp only [raiseCeiling]
      by_cases raises : draft.ceiling < priority
      · rw [if_pos raises, if_pos (show (draft.moved base).ceiling < priority from raises)]
        simp only [moved, noteUpdate, Ledger.onto_note on]
      · rw [if_neg raises, if_neg (show ¬(draft.moved base).ceiling < priority from raises)]

theorem moved_requireMessage (delivery : Delivery) (verb : String) :
    moved base { draft with ledger := draft.ledger.requireMessage delivery verb } =
      { draft.moved base with
        ledger := (draft.moved base).ledger.requireMessage delivery verb } := by
  simp only [moved, Ledger.onto_requireMessage on]

theorem moved_add (delivery : Delivery) :
    (draft.add delivery).moved base = (draft.moved base).add delivery := by
  have hjoined : ({ draft with tasks := draft.tasks.insert delivery.receiver } :
      Draft).ledger.trace.enabled = true := on
  have hpriority := (writes_raisePriority _ delivery.task.priority).enabled_eq.trans hjoined
  have hraised := (writes_raise _ delivery).enabled_eq.trans hjoined
  unfold add
  simp only
  rw [moved_requireMessage hraised, moved_raiseCeiling hpriority, moved_raisePriority hjoined]
  rfl

end Draft

theorem uniform_ofMessages (app : App) (scheduled : List Message) :
    Pass.Uniform (ofMessages app scheduled : Pass TimerQueue) := by
  cases hdeliveries : scheduled.mapM (Message.deliver app) with
  | error failure =>
      refine Pass.uniform_of_failure failure fun ledger => ?_
      change ofMessages app scheduled ledger = _
      unfold ofMessages
      rw [hdeliveries]
      rfl
  | ok deliveries =>
      refine Pass.uniform_of_run
        (fun ledger => (deliveries.foldl Draft.add (.start ledger)).finish app)
        (fun ledger => (deliveries.foldl Draft.add (.start ledger)).ledger)
        (fun ledger => ?_) (fun ledger => ?_) fun base ledger on => ?_
      · change ofMessages app scheduled ledger = _
        unfold ofMessages
        rw [hdeliveries, bind_of_ok rfl]
        dsimp only
        cases (deliveries.foldl Draft.add (.start ledger)).finish app <;> rfl
      · exact (Ledger.writes_foldl Draft.ledger Draft.writes_add deliveries
          (.start ledger)).enabled_eq
      · have hmoved := Ledger.onto_foldl _ Draft.ledger (Draft.moved base) Draft.writes_add
          (fun _ delivery on => Draft.moved_add on base delivery) deliveries (.start ledger) on
        exact ⟨(congrArg (Draft.finish · app) hmoved).symm, (congrArg Draft.ledger hmoved).symm⟩

end TimerQueue

/-! ## Channels and free queues -/

namespace ChannelPlanner

def moved (base : Trace) (planner : ChannelPlanner) : ChannelPlanner :=
  { planner with ledger := planner.ledger.onto base }

variable {planner : ChannelPlanner} (on : planner.ledger.trace.enabled = true) (base : Trace)

theorem moved_spawnBarrier (planner : ChannelPlanner) (base : Trace) (delivery : Delivery) :
    (planner.spawnBarrier delivery).moved base = (planner.moved base).spawnBarrier delivery := by
  unfold spawnBarrier
  simp only
  split <;> rfl

theorem moved_scheduleBarrier (planner : ChannelPlanner) (base : Trace) (delivery : Delivery) :
    (planner.scheduleBarrier delivery).moved base =
      (planner.moved base).scheduleBarrier delivery := by
  unfold scheduleBarrier
  simp only
  split <;> rfl

theorem moved_join (planner : ChannelPlanner) (base : Trace) (task : String) (priority : Int) :
    (planner.join task priority).moved base = (planner.moved base).join task priority := rfl

include on

theorem moved_raiseAt (key priority : Int) :
    (planner.raiseAt key priority).moved base = (planner.moved base).raiseAt key priority := by
  have hfound (channel : ChannelDraft) :
      (planner.raiseFound key channel priority).moved base =
        (planner.moved base).raiseFound key channel priority := by
    unfold raiseFound
    by_cases hsame : channel.ceiling = some (raised channel.ceiling priority)
    · simp only [if_pos hsame]
    · simp only [if_neg hsame, moved, noteCeiling, Ledger.onto_note on]
  exact hfound _

theorem moved_raiseFreeQueue (task : String) (priority : Int) :
    (planner.raiseFreeQueue task priority).moved base =
      (planner.moved base).raiseFreeQueue task priority := by
  by_cases hsame : (planner.freeQueues.get? task).getD none =
      some (raised ((planner.freeQueues.get? task).getD none) priority)
  · exact (congrArg (moved base) (if_pos hsame)).trans (if_pos hsame).symm
  · refine (congrArg (moved base) (if_neg hsame)).trans (Eq.trans ?_ (if_neg hsame).symm)
    simp only [moved, noteCeiling, Ledger.onto_note on]

theorem moved_requireMessage (verb : String) (delivery : Delivery) :
    (planner.requireMessage verb delivery).moved base =
      (planner.moved base).requireMessage verb delivery := by
  simp only [moved, requireMessage, Ledger.onto_requireMessage on]

theorem moved_raiseBoth (delivery : Delivery) (sender : Option Int) :
    (planner.raiseBoth delivery sender).moved base =
      (planner.moved base).raiseBoth delivery sender := by
  cases sender with
  | none => rfl
  | some priority =>
      have hraised := (writes_raiseAt planner delivery.task.priority priority).enabled_eq.trans on
      rw [raiseBoth, moved_raiseFreeQueue hraised, moved_raiseAt on, raiseBoth]

theorem moved_raiseFree (delivery : Delivery) (sender : Option Int) :
    (planner.raiseFree delivery sender).moved base =
      (planner.moved base).raiseFree delivery sender := by
  cases sender with
  | none => rfl
  | some priority => exact moved_raiseFreeQueue on base delivery.receiver priority

theorem moved_effect (delivery : Delivery) (request : Request) :
    (request.effect planner delivery).moved base =
      request.effect (planner.moved base) delivery := by
  cases request with
  | spawn message =>
      have hjoined : ((planner.spawnBarrier delivery).join delivery.receiver
          delivery.task.priority).ledger.trace.enabled = true := by
        rw [ledger_join, ledger_spawnBarrier, on]
      have hboth := (writes_raiseBoth _ delivery delivery.sender.priority).enabled_eq.trans hjoined
      simp only [Request.effect, afterSpawn]
      rw [moved_requireMessage hboth, moved_raiseBoth hjoined, moved_join, moved_spawnBarrier]
  | schedule message queue =>
      have hjoined : ((planner.scheduleBarrier delivery).join delivery.receiver
          delivery.task.priority).ledger.trace.enabled = true := by
        rw [ledger_join, ledger_scheduleBarrier, on]
      have hraised := (writes_raiseAt _ delivery.task.priority queue.priority).enabled_eq.trans
        hjoined
      simp only [Request.effect, afterSchedule]
      rw [moved_raiseFree hraised, moved_raiseAt hjoined, moved_join, moved_scheduleBarrier]
  | classify message verb => exact moved_requireMessage on base verb delivery

theorem moved_attempt (request : Request) :
    (planner.attempt request).moved base = (planner.moved base).attempt request := by
  cases found : planner.app.softwareTasks.get? request.message.receiver with
  | none =>
      have absent := Table.get?_eq_none_iff.mp found
      rw [attempt_of_undeclared absent, @attempt_of_undeclared (planner.moved base) _ absent]
  | some task =>
      rw [attempt_of_get? found, @attempt_of_get? (planner.moved base) _ _ found, moved_effect on]

end ChannelPlanner

open ChannelPlanner in
theorem ChannelPlan.uniform_ofMessages (app : App) (spawned scheduled : List Message)
    (queue : TimerQueue) :
    Pass.Uniform (ofMessages app spawned scheduled queue : Pass ChannelPlan) := by
  cases hfound : (requests spawned scheduled queue).find? fun request =>
      request.message.receiver ∉ app.softwareTasks.keys with
  | some first =>
      exact Pass.uniform_of_failure _ fun ledger =>
        ofMessages_of_after (Prod.ext (after_forM_of_undeclared hfound) rfl)
  | none =>
      have declared : ∀ request ∈ requests spawned scheduled queue,
          request.message.receiver ∈ app.softwareTasks.keys := by
        simpa using hfound
      refine Pass.uniform_of_run
        (fun ledger =>
          ((requests spawned scheduled queue).foldl attempt (start app ledger)).finish)
        (fun ledger =>
          ((requests spawned scheduled queue).foldl attempt (start app ledger)).ledger)
        (fun ledger => ?_) (fun ledger => ?_) fun base ledger on => ?_
      · refine (ofMessages_of_after (after_forM_of_declared declared)).trans ?_
        rw [bind_of_ok rfl]
        cases ((requests spawned scheduled queue).foldl attempt (start app ledger)).finish <;> rfl
      · exact (Ledger.writes_foldl ChannelPlanner.ledger writes_attempt
          (requests spawned scheduled queue) (start app ledger)).enabled_eq
      · have hmoved := Ledger.onto_foldl _ ChannelPlanner.ledger (moved base) writes_attempt
          (fun _ request on => moved_attempt on base request) (requests spawned scheduled queue)
          (start app ledger) on
        exact ⟨(congrArg ChannelPlanner.finish hmoved).symm,
          (congrArg ChannelPlanner.ledger hmoved).symm⟩

end StackPolicy
