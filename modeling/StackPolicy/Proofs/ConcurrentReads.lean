import StackPolicy.Proofs.CleanApps
import StackPolicy.Proofs.Locks
import StackPolicy.Proofs.RunResults
import StackPolicy.Proofs.TimerContents

/-!
# Which types have to be safe to read from several contexts

A shared resource is read from several contexts at once if it is contended.
Only the ownership pass lays this obligation, and no later pass takes it back.
-/

namespace StackPolicy

/-- An ownership becomes contended by an access that meets another level, and stays so. -/
theorem Ownership.isContended_next (current : Option Ownership) (priority : Int) :
    (next current priority).1.isContended =
      ((next current priority).2 || current.any isContended) := by
  cases current with
  | none => rfl
  | some ownership =>
      by_cases hsame : priority = ownership.level
      · subst hsame
        cases ownership <;> simp [next, level, isContended]
      · rw [next_of_ne hsame]
        rfl

theorem Ownership.Describes.isContended_iff {ownership : Ownership} {priorities : List Int}
    (h : ownership.Describes priorities) :
    ownership.isContended = true ↔
      ∃ first ∈ priorities, ∃ second ∈ priorities, first ≠ second := by
  have hsame (owner : Int) (hall : ∀ priority ∈ priorities, priority = owner) :
      ¬∃ first ∈ priorities, ∃ second ∈ priorities, first ≠ second := by
    rintro ⟨first, hfirst, second, hsecond, hapart⟩
    exact hapart ((hall first hfirst).trans (hall second hsecond).symm)
  cases ownership with
  | owned owner =>
      refine iff_of_false nofun (hsame owner fun priority member => ?_)
      rw [show priorities = [owner] from h] at member
      exact List.mem_singleton.mp member
  | coOwned owner => exact iff_of_false nofun (hsame owner h.2)
  | contended ceiling =>
      obtain ⟨hceiling, -, other, hother, hlt⟩ := h
      exact iff_of_true rfl ⟨ceiling, hceiling, other, hother, by omega⟩

namespace App

/-! ## Readers -/

def IsRead (app : App) (name : String) : Prop :=
  ∃ context ∈ app.contexts, context.resources.get? name = some .shared

/-- Whether some numbers of contexts tell two users of a resource apart. -/
def UsersDiffer {Number : Type} (app : App) (number : Context → Number) (name : String) : Prop :=
  ∃ first ∈ app.users name, ∃ second ∈ app.users name, number first ≠ number second

/-- Whether a resource of a type is shared, and its users differ. -/
def ReadersDiffer (app : App) (number : Context → Option Int) (ty : String) : Prop :=
  ∃ row ∈ app.resources.rows, row.2.ty = ty ∧ app.IsRead row.1 ∧ app.UsersDiffer number row.1

section Decidable

variable (app : App) (name : String)

instance : Decidable (app.IsRead name) :=
  inferInstanceAs (Decidable (∃ context ∈ app.contexts,
    context.resources.get? name = some .shared))

instance {Number : Type} [DecidableEq Number] (number : Context → Number) :
    Decidable (app.UsersDiffer number name) :=
  inferInstanceAs (Decidable (∃ first ∈ app.users name, ∃ second ∈ app.users name,
    number first ≠ number second))

instance (number : Context → Option Int) (ty : String) :
    Decidable (app.ReadersDiffer number ty) :=
  inferInstanceAs (Decidable (∃ row ∈ app.resources.rows,
    row.2.ty = ty ∧ app.IsRead row.1 ∧ app.UsersDiffer number row.1))

end Decidable

theorem isRead_iff {app : App} {name : String} :
    app.IsRead name ↔ ∃ access ∈ app.accesses, access.resource = name ∧ access.mode = .shared := by
  constructor
  · rintro ⟨context, hcontext, hfound⟩
    exact ⟨_, List.mem_flatMap.mpr ⟨context, hcontext,
      List.mem_map_of_mem (Table.get?_eq_some_iff.mp hfound)⟩, rfl, rfl⟩
  · rintro ⟨access, member, rfl, hmode⟩
    obtain ⟨context, hcontext, haccess⟩ := List.mem_flatMap.mp member
    obtain ⟨row, hrow, rfl⟩ := List.mem_map.mp haccess
    exact ⟨context, hcontext, Table.get?_eq_some_iff.mpr (hmode ▸ hrow)⟩

theorem usersDiffer_congr {Number Other : Type} {app : App} {name : String}
    {number : Context → Number} {other : Context → Other}
    (h : ∀ first ∈ app.users name, ∀ second ∈ app.users name,
      (number first = number second ↔ other first = other second)) :
    app.UsersDiffer number name ↔ app.UsersDiffer other name := by
  constructor
  · rintro ⟨first, hfirst, second, hsecond, hapart⟩
    exact ⟨first, hfirst, second, hsecond, (not_congr (h first hfirst second hsecond)).mp hapart⟩
  · rintro ⟨first, hfirst, second, hsecond, hapart⟩
    exact ⟨first, hfirst, second, hsecond, (not_congr (h first hfirst second hsecond)).mpr hapart⟩

theorem isContended_ownershipsOf_iff (app : App) (name : String) :
    ((Analysis.ownershipsOf app).1.get? name).any Ownership.isContended = true ↔
      app.UsersDiffer Context.priority name := by
  have hdiffer : app.UsersDiffer Context.priority name ↔
      ∃ first ∈ Access.prioritiesOf name app.accesses,
        ∃ second ∈ Access.prioritiesOf name app.accesses, first ≠ second := by
    constructor
    · rintro ⟨first, hfirst, second, hsecond, hapart⟩
      obtain ⟨low, hlow⟩ := exists_priority_of_mem_users hfirst
      obtain ⟨high, hhigh⟩ := exists_priority_of_mem_users hsecond
      rw [hlow, hhigh] at hapart
      exact ⟨low, mem_prioritiesOf_accesses.mpr ⟨first, hfirst, hlow⟩, high,
        mem_prioritiesOf_accesses.mpr ⟨second, hsecond, hhigh⟩, fun same => hapart (same ▸ rfl)⟩
    · rintro ⟨low, hlow, high, hhigh, hapart⟩
      obtain ⟨first, hfirst, hfound⟩ := mem_prioritiesOf_accesses.mp hlow
      obtain ⟨second, hsecond, hother⟩ := mem_prioritiesOf_accesses.mp hhigh
      refine ⟨first, hfirst, second, hsecond, ?_⟩
      rw [hfound, hother]
      exact fun same => hapart (Option.some.inj same)
  have hsummary := Analysis.summarizes_ownershipsOf app name
  rw [hdiffer]
  cases hownership : (Analysis.ownershipsOf app).1.get? name with
  | none =>
      rw [hownership] at hsummary
      have hnil : Access.prioritiesOf name app.accesses = [] := hsummary
      simp [hnil]
  | some ownership =>
      rw [hownership] at hsummary
      exact Ownership.Describes.isContended_iff hsummary

end App

namespace Ledger

/-! ## Obligations to transfer -/

section Transfers

variable (ledger : Ledger)

theorem concurrentRead_require (ty reason : String) :
    (ledger.require .transfer ty reason).concurrentRead = ledger.concurrentRead :=
  types_require_of_ne (show Obligation.concurrentRead ≠ .transfer from nofun) ledger ty reason

theorem concurrentRead_requireMessage (delivery : Delivery) (verb : String) :
    (ledger.requireMessage delivery verb).concurrentRead = ledger.concurrentRead := by
  unfold requireMessage requireAll
  split
  · exact foldl_keeps concurrentRead (fun ledger ty => concurrentRead_require ledger ty _) _ ledger
  · rfl

theorem concurrentRead_requireLateResources (app : App) (ownerships : Ownerships)
    (locations : Locations) :
    (ledger.requireLateResources app ownerships locations).concurrentRead =
      ledger.concurrentRead := by
  refine foldl_keeps concurrentRead (fun ledger row => ?_) app.lateResources.rows ledger
  unfold requireLate
  split
  · exact concurrentRead_require _ _ _
  · split
    · split
      · rfl
      · exact concurrentRead_require _ _ _
    · rfl

theorem concurrentRead_requireInitResources (app : App) (ownerships : Ownerships) :
    (ledger.requireInitResources app ownerships).concurrentRead = ledger.concurrentRead := by
  refine foldl_keeps concurrentRead (fun ledger name => ?_) _ ledger
  unfold requireShared
  split
  · split
    · rfl
    · exact concurrentRead_require _ _ _
  · rfl

end Transfers

end Ledger

namespace Ownerships

/-! ## One access -/

theorem mem_concurrentRead_requireRead (app : App) (ledger : Ledger)
    (resource reason ty : String) :
    ty ∈ (requireRead app ledger resource reason).concurrentRead ↔
      ty ∈ ledger.concurrentRead ∨
        ∃ declared, app.resources.get? resource = some declared ∧ ty = declared.ty := by
  unfold requireRead
  cases app.resources.get? resource with
  | none => simp
  | some declared =>
      simp only [Option.some.injEq, exists_eq_left']
      exact ledger.mem_types_require .concurrentRead declared.ty reason ty

theorem concurrentRead_update (ownerships : Ownerships) (ledger : Ledger) (resource : String)
    (updated : Ownership) :
    (ownerships.update ledger resource updated).2.concurrentRead = ledger.concurrentRead := by
  simp only [update]
  split <;> rfl

/-- An access lays the obligation if it is shared and meets another level. -/
theorem mem_concurrentRead_take (app : App) (state : Ownerships × Ledger) (access : Access)
    (ty : String) :
    ty ∈ (take app state access).2.concurrentRead ↔
      ty ∈ state.2.concurrentRead ∨
        (∃ priority, access.priority = some priority ∧
          (Ownership.next (state.1.get? access.resource) priority).2 = true) ∧
        access.mode = .shared ∧
        ∃ declared, app.resources.get? access.resource = some declared ∧ ty = declared.ty := by
  unfold take
  cases access.priority with
  | none => simp
  | some priority =>
      simp only [record, concurrentRead_update, Option.some.injEq, exists_eq_left']
      split
      · rename_i met
        rw [mem_concurrentRead_requireRead]
        simp [met]
      · rename_i plain
        rw [or_iff_left]
        exact fun h => plain ⟨h.1, h.2.1⟩

/-! ## All accesses -/

/-- The types to be read safely are those of the shared resources that are contended. -/
def ReadsOf (app : App) (shared : String → Prop) (state : Ownerships × Ledger) : Prop :=
  ∀ ty, ty ∈ state.2.concurrentRead ↔
    ∃ name, shared name ∧ (state.1.get? name).any Ownership.isContended = true ∧
      ∃ declared, app.resources.get? name = some declared ∧ ty = declared.ty

theorem isContended_take (app : App) (state : Ownerships × Ledger) (access : Access)
    (name : String) :
    ((take app state access).1.get? name).any Ownership.isContended = true ↔
      (state.1.get? name).any Ownership.isContended = true ∨
        name = access.resource ∧ ∃ priority, access.priority = some priority ∧
          (Ownership.next (state.1.get? access.resource) priority).2 = true := by
  rw [get?_take]
  split
  · rename_i same
    subst same
    cases access.priority with
    | none => simp [Ownership.after]
    | some priority =>
        simp [Ownership.after, Ownership.isContended_next, or_comm]
  · rename_i apart
    simp [apart]

theorem ReadsOf.take {app : App} {shared : String → Prop} {state : Ownerships × Ledger}
    (h : ReadsOf app shared state) {access : Access}
    (mode : access.mode = .shared ↔ shared access.resource) :
    ReadsOf app shared (Ownerships.take app state access) := by
  intro ty
  rw [mem_concurrentRead_take, h ty, mode]
  simp only [isContended_take]
  constructor
  · rintro (⟨name, hshared, hcontended, hty⟩ | ⟨hmet, hshared, hty⟩)
    · exact ⟨name, hshared, .inl hcontended, hty⟩
    · exact ⟨access.resource, hshared, .inr ⟨rfl, hmet⟩, hty⟩
  · rintro ⟨name, hshared, hcontended | ⟨rfl, hmet⟩, hty⟩
    · exact .inl ⟨name, hshared, hcontended, hty⟩
    · exact .inr ⟨hmet, hshared, hty⟩

theorem ReadsOf.foldl_take {app : App} {shared : String → Prop} {accesses : List Access}
    {state : Ownerships × Ledger} (h : ReadsOf app shared state)
    (modes : ∀ access ∈ accesses, access.mode = .shared ↔ shared access.resource) :
    ReadsOf app shared (accesses.foldl (Ownerships.take app) state) := by
  induction accesses generalizing state with
  | nil => exact h
  | cons access accesses ih =>
      exact ih (h.take (modes access List.mem_cons_self))
        fun other member => modes other (List.mem_cons_of_mem _ member)

/-- Where every resource is accessed in a single mode, one shared access makes it shared. -/
theorem readsOf_foldl_take {app : App} {accesses : List Access}
    (one_mode : ∀ access ∈ accesses, ∀ other ∈ accesses,
      access.resource = other.resource → access.mode = other.mode) :
    ReadsOf app (fun name => ∃ access ∈ accesses, access.resource = name ∧ access.mode = .shared)
      (accesses.foldl (Ownerships.take app) (∅, .start true)) := by
  apply ReadsOf.foldl_take
  · intro ty
    simp [Ledger.start]
  · intro access member
    constructor
    · intro hshared
      exact ⟨access, member, rfl, hshared⟩
    · rintro ⟨other, hother, hsame, hshared⟩
      rw [one_mode access member other hother hsame.symm, hshared]

end Ownerships

/-! ## The later passes -/

theorem TimerQueue.Draft.concurrentRead_add (draft : Draft) (delivery : Delivery) :
    (draft.add delivery).ledger.concurrentRead = draft.ledger.concurrentRead := by
  unfold Draft.add
  simp only [Ledger.concurrentRead_requireMessage]
  exact (types_raiseCeiling _ _ .concurrentRead).trans (types_raisePriority _ _ .concurrentRead)

namespace ChannelPlanner

@[simp] theorem concurrentRead_raiseBoth (planner : ChannelPlanner) (delivery : Delivery)
    (sender : Option Int) :
    (planner.raiseBoth delivery sender).ledger.concurrentRead = planner.ledger.concurrentRead := by
  cases sender <;> simp [raiseBoth]

@[simp] theorem concurrentRead_raiseFree (planner : ChannelPlanner) (delivery : Delivery)
    (sender : Option Int) :
    (planner.raiseFree delivery sender).ledger.concurrentRead = planner.ledger.concurrentRead := by
  cases sender <;> simp [raiseFree]

theorem concurrentRead_attempt (planner : ChannelPlanner) (request : Request) :
    (planner.attempt request).ledger.concurrentRead = planner.ledger.concurrentRead := by
  cases found : planner.app.softwareTasks.get? request.message.receiver with
  | none => rw [attempt_of_undeclared (Table.get?_eq_none_iff.mp found)]
  | some task =>
      rw [attempt_of_get? found]
      cases request <;>
        simp [Request.effect, afterSpawn, afterSchedule, Ledger.concurrentRead_requireMessage]

end ChannelPlanner

namespace Analysis

section Derived

variable {graph : App} {late : LatePartition} {timer : TimerQueue × Ledger}
  {planned : ChannelPlan × Ledger} (derives : Derives graph late timer planned)
  (sound : graph.Sound)

include derives sound

/-- Only the ownership pass lays obligations to be read safely. -/
theorem Derives.concurrentRead_eq :
    planned.2.concurrentRead = (ownershipsOf graph).2.concurrentRead := by
  obtain ⟨deliveries, -, -, htimed⟩ := TimerQueue.exists_draft derives.timer_eq
  have hplanned := derives.planned_eq
  rw [ChannelPlan.ofMessages_eq_finished fun _ => declared_of_sound sound] at hplanned
  cases hplanned
  have hplanning := foldl_keeps (fun planner => planner.ledger.concurrentRead)
    ChannelPlanner.concurrentRead_attempt
    (ChannelPlan.requests graph.spawned graph.scheduled timer.1)
    (ChannelPlanner.start graph timer.2.withoutEntries)
  have htiming := foldl_keeps (fun draft => draft.ledger.concurrentRead)
    TimerQueue.Draft.concurrentRead_add deliveries
    (TimerQueue.Draft.start (safetyOf graph late).withoutEntries)
  rw [hplanning]
  change timer.2.concurrentRead = _
  rw [htimed, htiming]
  change (safetyOf graph late).concurrentRead = _
  unfold safetyOf
  rw [Ledger.concurrentRead_requireInitResources, Ledger.concurrentRead_requireLateResources]
  rfl

/-- A type has to be safe to read if a resource of the type is shared and contended. -/
theorem Derives.mem_concurrentRead
    (one_mode : ∀ access ∈ graph.accesses, ∀ other ∈ graph.accesses,
      access.resource = other.resource → access.mode = other.mode) (ty : String) :
    ty ∈ planned.2.concurrentRead ↔
      ∃ name, (∃ access ∈ graph.accesses, access.resource = name ∧ access.mode = .shared) ∧
        ((ownershipsOf graph).1.get? name).any Ownership.isContended = true ∧
        ∃ declared, graph.resources.get? name = some declared ∧ ty = declared.ty := by
  rw [derives.concurrentRead_eq sound]
  exact Ownerships.readsOf_foldl_take one_mode ty

/-- A type has to be safe to read if a shared resource of the type is used at several
priorities. -/
theorem Derives.mem_concurrentRead_iff (clean : graph.Unclashing) (ty : String) :
    ty ∈ planned.2.concurrentRead ↔ graph.ReadersDiffer Context.priority ty := by
  rw [derives.mem_concurrentRead sound clean.one_mode]
  simp only [← App.isRead_iff, App.isContended_ownershipsOf_iff]
  constructor
  · rintro ⟨name, hread, hdiffer, resource, hfound, rfl⟩
    exact ⟨(name, resource), Table.get?_eq_some_iff.mp hfound, rfl, hread, hdiffer⟩
  · rintro ⟨⟨name, resource⟩, hrow, rfl, hread, hdiffer⟩
    exact ⟨name, hread, hdiffer, resource, Table.get?_eq_some_iff.mpr hrow, rfl⟩

end Derived

end Analysis

end StackPolicy
