import Mathlib.Data.List.Flatten
import StackPolicy.Proofs.Growth
import StackPolicy.Proofs.InitBarriers
import StackPolicy.Proofs.TransferSafety

/-!
# Applications with more tasks

More tasks mean more contexts, and so more accesses and messages, while the old
ones stay in their order.  What asks for an obligation, an ownership or a
barrier is still there.
-/

namespace StackPolicy

/-- Items that have grown to a single one were that one before. -/
theorem eq_singleton_of_sublist {Item : Type} {items others : List Item} {item : Item}
    (more : items.Sublist others) (some : items ≠ []) (alone : others = [item]) :
    items = [item] := by
  rw [alone] at more
  rcases List.sublist_singleton.mp more with hnil | hsame
  · exact absurd hnil some
  · exact hsame

namespace App

/-- Whether an application has all tasks of another one, and nothing else but tasks differs. -/
structure Grows (app grown : App) : Prop where
  cores : grown.cores = app.cores
  inits : grown.inits = app.inits
  idles : grown.idles = app.idles
  resources : grown.resources = app.resources
  hardwareTasks : app.hardwareTasks.rows.Sublist grown.hardwareTasks.rows
  softwareTasks : app.softwareTasks.rows.Sublist grown.softwareTasks.rows

theorem Grows.refl (app : App) : app.Grows app :=
  ⟨rfl, rfl, rfl, rfl, List.Sublist.refl _, List.Sublist.refl _⟩

namespace Grows

variable {app grown : App} (h : app.Grows grown)

include h

/-! ## Contexts and messages -/

theorem contexts : app.contexts.Sublist grown.contexts := by
  unfold App.contexts initsByCore idlesByCore
  rw [h.inits, h.idles]
  exact ((List.Sublist.refl _).append (h.hardwareTasks.map _)).append (h.softwareTasks.map _)

theorem accesses : app.accesses.Sublist grown.accesses :=
  h.contexts.flatMap Context.accesses

theorem accessors (name : String) : (app.accessors name).Sublist (grown.accessors name) :=
  h.contexts.filter _

theorem users (name : String) : (app.users name).Sublist (grown.users name) :=
  (h.accessors name).filter _

theorem prioritiesOf (name : String) :
    (Access.prioritiesOf name app.accesses).Sublist
      (Access.prioritiesOf name grown.accesses) := by
  rw [prioritiesOf_accesses, prioritiesOf_accesses]
  exact (h.users name).filterMap _

theorem spawned : app.spawned.Sublist grown.spawned :=
  h.contexts.flatMap Context.spawned

theorem scheduled : app.scheduled.Sublist grown.scheduled :=
  h.contexts.flatMap Context.scheduled

theorem get?_softwareTasks {name : String} {task : SoftwareTask}
    (found : app.softwareTasks.get? name = some task) :
    grown.softwareTasks.get? name = some task :=
  Table.get?_eq_some_iff.mpr (h.softwareTasks.subset (Table.get?_eq_some_iff.mp found))

/-! ## Late resources and barriers -/

theorem ofApp_eq : LatePartition.ofApp grown = LatePartition.ofApp app := by
  unfold LatePartition.ofApp LatePartition.Claims.start lateResources initsByCore
  rw [h.inits, h.resources]

theorem waits {late : LatePartition} {user provider : Int}
    (waits : (Barriers.ofAccesses app.accesses late).Waits user provider) :
    (Barriers.ofAccesses grown.accesses late).Waits user provider := by
  obtain ⟨hapart, access, member, hcore, hprovides⟩ := (Barriers.waits_ofAccesses ..).mp waits
  exact (Barriers.waits_ofAccesses ..).mpr
    ⟨hapart, access, h.accesses.subset member, hcore, hprovides⟩

/-- A core still waits for all cores that it had to wait for. -/
theorem initializationBarriers (late : LatePartition) :
    (Barriers.ofAccesses app.accesses late).AtMost SortedSet.Within
      (Barriers.ofAccesses grown.accesses late) := by
  intro user providers found
  obtain ⟨provider, hwaits⟩ := Barriers.mem_keys_ofAccesses.mp
    (Table.mem_keys_iff.mpr ⟨providers, found⟩)
  obtain ⟨raised, hraised, -⟩ := h.waits hwaits
  -- the core has a single row, so the other cores it waits for are in the same set
  refine ⟨raised, hraised, fun other member => ?_⟩
  obtain ⟨others, hothers, hother⟩ := h.waits ⟨providers, found, member⟩
  rw [hraised] at hothers
  cases hothers
  exact hother

/-! ## Ownerships -/

theorem ownerships :
    (Analysis.ownershipsOf app).1.AtMost Ownership.AtMost (Analysis.ownershipsOf grown).1 := by
  intro name ownership found
  have hdescribes := Analysis.describes_of_get?_ownershipsOf found
  obtain ⟨raised, hraised, hagain⟩ := Analysis.exists_ownership_of_mem
    ((h.prioritiesOf name).subset hdescribes.level_mem)
  exact ⟨raised, hraised, hdescribes.atMost hagain (h.prioritiesOf name)⟩

/-! ## Obligations on types -/

theorem readersDiffer {ty : String} (differ : app.ReadersDiffer Context.priority ty) :
    grown.ReadersDiffer Context.priority ty := by
  obtain ⟨row, hrow, hty, ⟨context, hcontext, hread⟩, first, hfirst, second, hsecond, hapart⟩ :=
    differ
  have husers := (h.users row.1).subset
  exact ⟨row, h.resources ▸ hrow, hty, ⟨context, h.contexts.subset hcontext, hread⟩,
    first, husers hfirst, second, husers hsecond, hapart⟩

theorem users_ne_nil {name : String} (used : app.users name ≠ []) : grown.users name ≠ [] := by
  obtain ⟨user, member⟩ := List.exists_mem_of_ne_nil _ used
  exact List.ne_nil_of_mem ((h.users name).subset member)

theorem idleAlone {name : String} (used : app.users name ≠ []) (alone : grown.IdleAlone name) :
    app.IdleAlone name := by
  obtain ⟨idle, husers, hkind⟩ := alone
  exact ⟨idle, eq_singleton_of_sublist (h.users name) used husers, hkind⟩

theorem transferByLate {late : LatePartition} {ty : String}
    (moves : Analysis.TransferByLate app late ty) : Analysis.TransferByLate grown late ty := by
  obtain ⟨name, resource, hfound, hlate, hty, hused, hothers⟩ := moves
  refine ⟨name, resource, by rwa [h.resources], hlate, hty, h.users_ne_nil hused, ?_⟩
  rintro ⟨idle, halone, hidle⟩
  have haccessed : app.accessors name ≠ [] := by
    intro hnil
    apply hused
    unfold App.users
    rw [hnil]
    rfl
  exact hothers ⟨idle, eq_singleton_of_sublist (h.accessors name) haccessed halone, hidle⟩

theorem transferByInit {ty : String} (moves : Analysis.TransferByInit app ty) :
    Analysis.TransferByInit grown ty := by
  obtain ⟨name, resource, hfound, hty, ⟨init, hcontext, hinit⟩, hused, hothers⟩ := moves
  exact ⟨name, resource, by rwa [h.resources], hty, ⟨init, h.contexts.subset hcontext, hinit⟩,
    h.users_ne_nil hused, fun halone => hothers (h.idleAlone hused halone)⟩

theorem transferByMessage {ty : String} (moves : Analysis.TransferByMessage app ty) :
    Analysis.TransferByMessage grown ty := by
  obtain ⟨message, member, task, htask, hmoves⟩ := moves
  exact ⟨message, (h.spawned.append h.scheduled).subset member, task,
    h.get?_softwareTasks htask, hmoves⟩

end Grows

end App

end StackPolicy
