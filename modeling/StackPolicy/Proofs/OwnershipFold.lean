import StackPolicy.Ownership
import StackPolicy.Proofs.Contexts
import StackPolicy.Proofs.Obligations
import StackPolicy.Proofs.Sequences

/-!
# What the ownerships of a stream of accesses say

Every resource is folded on its own: its ownership depends only on the
priorities at which it is accessed, and describes them.
-/

namespace StackPolicy

namespace Ownership

/-! ## Ownerships and priorities -/

/-- What an ownership says about the priorities of all accesses to its resource. -/
def Describes : Ownership → List Int → Prop
  | owned priority, priorities => priorities = [priority]
  | coOwned priority, priorities =>
      2 ≤ priorities.length ∧ ∀ other ∈ priorities, other = priority
  | contended ceiling, priorities =>
      ceiling ∈ priorities ∧ (∀ other ∈ priorities, other ≤ ceiling) ∧
        ∃ other ∈ priorities, other < ceiling

/-- A resource without an ownership is accessed at no priority. -/
def Summarizes : Option Ownership → List Int → Prop
  | none, priorities => priorities = []
  | some ownership, priorities => ownership.Describes priorities

theorem Describes.level_mem {ownership : Ownership} {priorities : List Int}
    (h : ownership.Describes priorities) : ownership.level ∈ priorities := by
  cases ownership with
  | owned priority =>
      rw [show priorities = [priority] from h]
      exact List.mem_singleton_self priority
  | coOwned priority =>
      obtain ⟨hlength, hall⟩ := h
      obtain ⟨other, hother⟩ := List.exists_mem_of_length_pos (show 0 < priorities.length by omega)
      exact hall other hother ▸ hother
  | contended ceiling => exact h.1

theorem Describes.le_level {ownership : Ownership} {priorities : List Int}
    (h : ownership.Describes priorities) {priority : Int} (member : priority ∈ priorities) :
    priority ≤ ownership.level := by
  cases ownership with
  | owned owner =>
      rw [show priorities = [owner] from h, List.mem_singleton] at member
      exact Int.le_of_eq member
  | coOwned owner => exact Int.le_of_eq (h.2 priority member)
  | contended ceiling => exact h.2.1 priority member

theorem Describes.perm {ownership : Ownership} {priorities others : List Int}
    (h : ownership.Describes priorities) (same : priorities.Perm others) :
    ownership.Describes others := by
  cases ownership with
  | owned priority =>
      rw [show priorities = [priority] from h] at same
      exact same.symm.eq_singleton
  | coOwned priority =>
      exact ⟨same.length_eq ▸ h.1, fun other member => h.2 other (same.mem_iff.mpr member)⟩
  | contended ceiling =>
      obtain ⟨hceiling, hbound, other, hother, hlt⟩ := h
      exact ⟨same.mem_iff.mp hceiling,
        fun priority member => hbound priority (same.mem_iff.mpr member),
        other, same.mem_iff.mp hother, hlt⟩

/-- Priorities are described by one ownership only. -/
theorem Describes.unique {first second : Ownership} {priorities : List Int}
    (h : first.Describes priorities) (again : second.Describes priorities) : first = second := by
  have hlevel : first.level = second.level :=
    Int.le_antisymm (again.le_level h.level_mem) (h.le_level again.level_mem)
  cases first with
  | owned priority =>
      have hall : priorities = [priority] := h
      subst hall
      cases second with
      | owned other => exact congrArg owned hlevel
      | coOwned other =>
          have hlength := again.1
          simp at hlength
      | contended ceiling =>
          obtain ⟨-, -, other, hother, hlt⟩ := again
          rw [List.mem_singleton] at hother
          simp only [level] at hlevel
          omega
  | coOwned priority =>
      cases second with
      | owned other =>
          have hall : priorities = [other] := again
          subst hall
          have hlength := h.1
          simp at hlength
      | coOwned other => exact congrArg coOwned hlevel
      | contended ceiling =>
          obtain ⟨-, -, other, hother, hlt⟩ := again
          have hpriority := h.2 other hother
          simp only [level] at hlevel
          omega
  | contended ceiling =>
      obtain ⟨-, -, other, hother, hlt⟩ := h
      cases second with
      | owned priority =>
          have hall : priorities = [priority] := again
          rw [hall, List.mem_singleton] at hother
          simp only [level] at hlevel
          omega
      | coOwned priority =>
          have hpriority := again.2 other hother
          simp only [level] at hlevel
          omega
      | contended highest => exact congrArg contended hlevel

/-- The order of the priorities does not matter. -/
theorem Summarizes.unique {first second : Option Ownership} {priorities others : List Int}
    (h : Summarizes first priorities) (again : Summarizes second others)
    (same : priorities.Perm others) : first = second := by
  cases first with
  | none =>
      rw [show priorities = [] from h] at same
      cases second with
      | none => rfl
      | some ownership =>
          have hmem := Describes.level_mem again
          rw [same.symm.eq_nil] at hmem
          cases hmem
  | some ownership =>
      have hdescribes := Describes.perm h same
      cases second with
      | none =>
          have hmem := hdescribes.level_mem
          rw [show others = [] from again] at hmem
          cases hmem
      | some other => exact congrArg some (hdescribes.unique again)

theorem next_of_ne {ownership : Ownership} {priority : Int}
    (other : priority ≠ ownership.level) :
    next (some ownership) priority = (contended (max ownership.level priority), true) :=
  if_pos other

/-- One more access keeps the description, whichever ownership it meets. -/
theorem Describes.next {ownership : Ownership} {priorities : List Int}
    (h : ownership.Describes priorities) (priority : Int) :
    (Ownership.next (some ownership) priority).1.Describes (priorities ++ [priority]) := by
  by_cases hsame : priority = ownership.level
  · subst hsame
    cases ownership with
    | owned owner =>
        rw [show priorities = [owner] from h]
        simp [Ownership.next, Describes, level]
    | coOwned owner =>
        obtain ⟨hlength, hall⟩ := h
        simp only [Ownership.next, level, ne_eq, not_true_eq_false, if_false, Describes,
          List.length_append, List.mem_append, List.mem_singleton]
        exact ⟨by omega, fun other hother => hother.elim (hall other) id⟩
    | contended ceiling =>
        obtain ⟨hceiling, hbound, other, hother, hlt⟩ := h
        simp only [Ownership.next, level, ne_eq, not_true_eq_false, if_false, Describes,
          List.mem_append, List.mem_singleton]
        exact ⟨.inl hceiling, fun other hother => hother.elim (hbound other) Int.le_of_eq,
          other, .inl hother, hlt⟩
  · have hmem := h.level_mem
    rw [next_of_ne hsame]
    simp only [Describes, List.mem_append, List.mem_singleton]
    -- the new ceiling is the higher of the old level and the priority, and lies above the other
    refine ⟨?_, ?_, ?_⟩
    · rcases Int.le_total ownership.level priority with hle | hle
      · exact .inr (by omega)
      · exact .inl (by rwa [Int.max_eq_left hle])
    · rintro other (hother | rfl)
      · have hle := h.le_level hother
        omega
      · omega
    · rcases Int.lt_or_gt_of_ne hsame with hlt | hlt
      · exact ⟨priority, .inr rfl, by omega⟩
      · exact ⟨ownership.level, .inl hmem, by omega⟩

def after (current : Option Ownership) (priorities : List Int) : Option Ownership :=
  priorities.foldl (fun current priority => some (next current priority).1) current

theorem summarizes_after {current : Option Ownership} {seen : List Int}
    (h : Summarizes current seen) (priorities : List Int) :
    Summarizes (after current priorities) (seen ++ priorities) := by
  refine foldl_of_concat (fun seen current => Summarizes current seen)
    (fun seen current priority _ h => ?_) h
  cases current with
  | none =>
      rw [show seen = [] from h]
      rfl
  | some ownership => exact Describes.next h priority

end Ownership

namespace Ownerships

/-! ## One access -/

def take (app : App) (state : Ownerships × Ledger) (access : Access) : Ownerships × Ledger :=
  match access.priority with
  | none => state
  | some priority =>
      record app state access priority (Ownership.next (state.1.get? access.resource) priority)

theorem get?_update (ownerships : Ownerships) (ledger : Ledger) (resource other : String)
    (updated : Ownership) :
    (ownerships.update ledger resource updated).1.get? other =
      if other = resource then some updated else ownerships.get? other := by
  unfold update
  by_cases hsame : ownerships.get? resource = some updated
  · by_cases hother : other = resource
    · simp [hsame, hother]
    · simp [hsame, hother]
  · simp [hsame, Table.get?_insert]

theorem get?_take (app : App) (state : Ownerships × Ledger) (access : Access)
    (resource : String) :
    (take app state access).1.get? resource =
      if resource = access.resource then
        Ownership.after (state.1.get? resource) access.priority.toList
      else state.1.get? resource := by
  unfold take
  cases access.priority with
  | none => simp [Ownership.after]
  | some priority =>
      simp only [record, get?_update]
      split
      · rename_i hsame
        rw [hsame]
        rfl
      · rfl

theorem transfer_requireRead (app : App) (ledger : Ledger) (resource reason : String) :
    (requireRead app ledger resource reason).transfer = ledger.transfer := by
  unfold requireRead
  split
  · exact Ledger.types_require_of_ne (show Obligation.transfer ≠ .concurrentRead from nofun) _ _ _
  · rfl

theorem transfer_update (ownerships : Ownerships) (ledger : Ledger) (resource : String)
    (updated : Ownership) :
    (ownerships.update ledger resource updated).2.transfer = ledger.transfer := by
  simp only [update]
  split <;> rfl

theorem transfer_take (app : App) (state : Ownerships × Ledger) (access : Access) :
    (take app state access).2.transfer = state.2.transfer := by
  unfold take
  split
  · rfl
  · simp only [record, transfer_update]
    split
    · exact transfer_requireRead app _ _ _
    · rfl

/-! ## All accesses -/

def LevelsNonneg (ownerships : Ownerships) : Prop :=
  ∀ resource ownership, ownerships.get? resource = some ownership → 0 ≤ ownership.level

theorem level_next_nonneg {current : Option Ownership} {priority : Int}
    (nonneg : 0 ≤ priority)
    (level : ∀ ownership, current = some ownership → 0 ≤ ownership.level) :
    0 ≤ (Ownership.next current priority).1.level := by
  cases current with
  | none => exact nonneg
  | some ownership =>
      have hlevel := level ownership rfl
      by_cases hsame : priority = ownership.level
      · subst hsame
        cases ownership <;> simpa [Ownership.next, Ownership.level] using hlevel
      · rw [Ownership.next_of_ne hsame]
        simp only [Ownership.level]
        omega

theorem check_eq_ok {ownership : Ownership} (nonneg : 0 ≤ ownership.level) :
    ownership.check = .ok () := by
  cases ownership <;>
    exact Failure.checkBounds_eq_ok (by simpa [Ownership.level] using nonneg)

/-- An access is taken if its transition passes the check, and refused otherwise. -/
theorem addAccess_eq_ok_iff {app : App} {state later : Ownerships × Ledger} {access : Access} :
    addAccess app state access = .ok later ↔
      (∀ priority, access.priority = some priority →
        (Ownership.next (state.1.get? access.resource) priority).1.check = .ok ()) ∧
      take app state access = later := by
  unfold addAccess take
  cases access.priority with
  | none => simp
  | some priority =>
      simp only [Option.some.injEq, forall_eq', Ownership.next?]
      cases (Ownership.next (state.1.get? access.resource) priority).1.check with
      | error failure =>
          constructor
          · intro h
            cases h
          · rintro ⟨h, -⟩
            cases h
      | ok _ =>
          constructor
          · intro h
            exact ⟨rfl, Except.ok.inj h⟩
          · rintro ⟨-, h⟩
            exact congrArg Except.ok h

theorem addAccess_eq_ok {app : App} {state : Ownerships × Ledger} {access : Access}
    (levels : LevelsNonneg state.1)
    (nonneg : ∀ priority, access.priority = some priority → 0 ≤ priority) :
    addAccess app state access = .ok (take app state access) ∧
      LevelsNonneg (take app state access).1 := by
  have hlevel (priority : Int) (hpriority : access.priority = some priority) :
      0 ≤ (Ownership.next (state.1.get? access.resource) priority).1.level :=
    level_next_nonneg (nonneg priority hpriority) (levels access.resource)
  refine ⟨addAccess_eq_ok_iff.mpr ⟨fun priority hpriority =>
    check_eq_ok (hlevel priority hpriority), rfl⟩, fun resource ownership found => ?_⟩
  rw [get?_take] at found
  split at found
  · rename_i hsame
    subst hsame
    cases hpriority : access.priority with
    | none =>
        rw [hpriority] at found
        exact levels access.resource ownership found
    | some priority =>
        rw [hpriority] at found
        cases found
        exact hlevel priority hpriority
  · exact levels resource ownership found

theorem levelsNonneg_empty : LevelsNonneg ∅ := by
  intro resource ownership found
  cases found

theorem ofAccesses_eq_ok {app : App} {accesses : List Access} {ledger : Ledger}
    (nonneg : ∀ access ∈ accesses, ∀ priority, access.priority = some priority → 0 ≤ priority) :
    ofAccesses app accesses ledger = .ok (accesses.foldl (take app) (∅, ledger)) :=
  (foldlM_eq_ok (fun state => LevelsNonneg state.1) levelsNonneg_empty
    fun _ levels access member => addAccess_eq_ok levels (nonneg access member)).1

/-- Every resource is folded on its own. -/
theorem get?_foldl_take (app : App) (accesses : List Access) (state : Ownerships × Ledger)
    (resource : String) :
    (accesses.foldl (take app) state).1.get? resource =
      Ownership.after (state.1.get? resource) (Access.prioritiesOf resource accesses) := by
  induction accesses generalizing state with
  | nil => rfl
  | cons access accesses ih =>
      rw [List.foldl_cons, ih, get?_take, Access.prioritiesOf, Access.prioritiesOf,
        Access.toResource_cons]
      by_cases hsame : access.resource = resource
      · rw [if_pos hsame.symm, if_pos hsame, List.filterMap_cons]
        cases access.priority <;> rfl
      · rw [if_neg (Ne.symm hsame), if_neg hsame]

theorem summarizes_get?_foldl_take (app : App) (accesses : List Access) (ledger : Ledger)
    (resource : String) :
    Ownership.Summarizes ((accesses.foldl (take app) (∅, ledger)).1.get? resource)
      (Access.prioritiesOf resource accesses) := by
  have hstart : Ownership.Summarizes none [] := rfl
  rw [get?_foldl_take]
  exact Ownership.summarizes_after hstart (Access.prioritiesOf resource accesses)

/-- Whatever the applications and the ledgers are, accesses in another order lead to the same
ownerships. -/
theorem get?_foldl_take_of_perm {accesses others : List Access} (same : accesses.Perm others)
    (app other : App) (ledger written : Ledger) (resource : String) :
    (accesses.foldl (take app) (∅, ledger)).1.get? resource =
      (others.foldl (take other) (∅, written)).1.get? resource :=
  (summarizes_get?_foldl_take app accesses ledger resource).unique
    (summarizes_get?_foldl_take other others written resource)
    ((same.filter _).filterMap Access.priority)

theorem transfer_foldl_take (app : App) (accesses : List Access) (state : Ownerships × Ledger) :
    (accesses.foldl (take app) state).2.transfer = state.2.transfer :=
  foldl_keeps (fun state => state.2.transfer) (transfer_take app) accesses state

end Ownerships

end StackPolicy
