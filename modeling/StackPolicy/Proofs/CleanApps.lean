import StackPolicy.Proofs.Guarantees
import StackPolicy.Proofs.ReorderedApps

/-!
# When an application has no violations

The guarantees that the passes rely on are one half of an application without
violations.  The other half keeps accesses and interrupts from clashing.  None
of them depends on the order of declarations.
-/

namespace StackPolicy

namespace App

/-- No two accesses to a resource clash, and no two tasks bind one interrupt of a core. -/
structure Unclashing (app : App) : Prop where
  one_core : ∀ access ∈ app.accesses, ∀ other ∈ app.accesses,
    access.resource = other.resource → access.mode = .exclusive → other.mode = .exclusive →
      access.core = other.core
  one_mode : ∀ access ∈ app.accesses, ∀ other ∈ app.accesses,
    access.resource = other.resource → access.mode = other.mode
  bindings_nodup : (app.hardwareTasks.rows.map fun row => (row.2.core, row.2.binds)).Nodup

theorem declaredAccesses_eq {app : App} (sound : app.Sound) :
    app.declaredAccesses = app.accesses := by
  unfold declaredAccesses
  rw [List.filter_eq_self]
  intro access member
  obtain ⟨context, hcontext, haccess⟩ := List.mem_flatMap.mp member
  obtain ⟨row, hrow, rfl⟩ := List.mem_map.mp haccess
  exact Table.contains_iff.mpr
    (sound.resource_declared context hcontext row.1 (List.mem_map_of_mem hrow))

theorem mem_resourcesOf {accesses : List Access} {resource : String} :
    resource ∈ resourcesOf accesses ↔ ∃ access ∈ accesses, access.resource = resource := by
  unfold resourcesOf
  rw [List.mem_eraseDups, List.mem_map]

/-! ## Clashing accesses -/

theorem exclusiveViolations_eq_nil_iff {app : App} :
    app.exclusiveViolations = [] ↔
      ∀ access ∈ app.declaredAccesses, ∀ other ∈ app.declaredAccesses,
        access.resource = other.resource → access.mode = .exclusive → other.mode = .exclusive →
          access.core = other.core := by
  unfold exclusiveViolations
  simp only [List.flatMap_eq_nil_iff, ite_eq_right_iff, reduceCtorEq, imp_false, Nat.not_lt,
    SortedSet.size_le_one_iff, SortedSet.mem_ofList, List.forall_mem_map, List.mem_filter,
    decide_eq_true_eq, mem_resourcesOf]
  constructor
  · intro h access member other hother hsame hmode hexclusive
    exact h _ ⟨other, ⟨hother, hexclusive⟩, rfl⟩ access ⟨⟨member, hmode⟩, hsame⟩ other
      ⟨⟨hother, hexclusive⟩, rfl⟩
  · rintro h resource - access ⟨⟨member, hmode⟩, rfl⟩ other ⟨⟨hother, hexclusive⟩, hsame⟩
    exact h access member other hother hsame.symm hmode hexclusive

theorem modeViolations_eq_nil_iff {app : App} :
    app.modeViolations = [] ↔
      ∀ access ∈ app.declaredAccesses, ∀ other ∈ app.declaredAccesses,
        access.resource = other.resource → access.mode = other.mode := by
  unfold modeViolations
  simp only [List.flatMap_eq_nil_iff, ite_eq_right_iff, reduceCtorEq, imp_false, not_and,
    List.mem_map, List.mem_filter, decide_eq_true_eq, mem_resourcesOf]
  constructor
  · intro h access member other hother hsame
    cases hmode : access.mode with
    | exclusive =>
        cases hshared : other.mode with
        | exclusive => rfl
        | shared =>
            exact absurd ⟨other, ⟨hother, rfl⟩, hshared⟩
              (h _ ⟨other, hother, rfl⟩ ⟨access, ⟨member, hsame⟩, hmode⟩)
    | shared =>
        cases hexclusive : other.mode with
        | exclusive =>
            exact absurd ⟨access, ⟨member, hsame⟩, hmode⟩
              (h _ ⟨other, hother, rfl⟩ ⟨other, ⟨hother, rfl⟩, hexclusive⟩)
        | shared => rfl
  · rintro h resource - ⟨access, ⟨member, rfl⟩, hmode⟩ ⟨other, ⟨hother, hsame⟩, hshared⟩
    have hone := h access member other hother hsame.symm
    rw [hmode, hshared] at hone
    cases hone

/-! ## Interrupts -/

theorem bindingViolations_eq_nil_iff {bound : Table (Int × String) String}
    {rows : List (String × HardwareTask)} :
    bindingViolations bound rows = [] ↔
      (rows.map fun row => (row.2.core, row.2.binds)).Nodup ∧
        ∀ row ∈ rows, (row.2.core, row.2.binds) ∉ bound.keys := by
  induction rows generalizing bound with
  | nil => simp [bindingViolations]
  | cons row rows ih =>
      obtain ⟨name, task⟩ := row
      rw [bindingViolations]
      cases hbound : bound.get? (task.core, task.binds) with
      | some first =>
          have hpresent := Table.mem_keys_iff.mpr ⟨first, hbound⟩
          simp [hpresent]
      | none =>
          have habsent := Table.get?_eq_none_iff.mp hbound
          simp only [ih, List.forall_mem_cons, List.map_cons, List.nodup_cons, habsent,
            Table.mem_keys_insert, not_or, true_and, not_false_eq_true, List.mem_map]
          constructor
          · rintro ⟨hdistinct, hfresh⟩
            refine ⟨⟨?_, hdistinct⟩, fun row member => (hfresh row member).2⟩
            rintro ⟨row, member, hsame⟩
            exact (hfresh row member).1 hsame
          · rintro ⟨⟨hnew, hdistinct⟩, hfresh⟩
            refine ⟨hdistinct, fun row member => ⟨fun hsame => ?_, hfresh row member⟩⟩
            exact hnew ⟨row, member, hsame⟩

/-! ## All guarantees -/

theorem violations_eq_nil_iff {app : App} :
    app.violations = [] ↔ app.Sound ∧ app.Unclashing := by
  constructor
  · intro h
    have hsound := sound_of_violations h
    unfold violations at h
    simp only [List.append_eq_nil_iff] at h
    obtain ⟨⟨⟨⟨⟨⟨-, hexclusive⟩, hmodes⟩, -⟩, -⟩, -⟩, hbindings⟩ := h
    have hdeclared := declaredAccesses_eq hsound
    refine ⟨hsound, ?_, ?_, (bindingViolations_eq_nil_iff.mp hbindings).1⟩
    · rw [← hdeclared]
      exact exclusiveViolations_eq_nil_iff.mp hexclusive
    · rw [← hdeclared]
      exact modeViolations_eq_nil_iff.mp hmodes
  · rintro ⟨hsound, hclash⟩
    have hdeclared := declaredAccesses_eq hsound
    have hcontexts : app.contexts.flatMap (Context.violations app) = [] := by
      rw [List.flatMap_eq_nil_iff]
      intro context member
      refine contextViolations_eq_nil_iff.mpr ⟨?_, ?_, ?_⟩
      · exact coreViolations_eq_nil_iff.mpr
          ⟨(wellFormed_of_mem_contexts member).core_nonneg, hsound.core_lt context member⟩
      · exact resourceViolations_eq_nil_iff.mpr fun resource hresource =>
          ⟨hsound.resource_declared context member resource hresource,
            fun hinit => hsound.not_late_of_init context member hinit resource hresource⟩
      · exact targetViolations_eq_nil_iff.mpr (hsound.target_declared context member)
    have hexclusive : app.exclusiveViolations = [] := by
      rw [exclusiveViolations_eq_nil_iff, hdeclared]
      exact hclash.one_core
    have hmodes : app.modeViolations = [] := by
      rw [modeViolations_eq_nil_iff, hdeclared]
      exact hclash.one_mode
    have hclaims : claimViolations app.lateResources ∅ app.claims = [] := by
      refine claimViolations_eq_nil_iff.mpr ⟨?_, hsound.claims_nodup, by simp⟩
      rintro ⟨core, resource⟩ member
      obtain ⟨init, hinit, -, hname⟩ := mem_claims.mp member
      exact hsound.late_of_claim init hinit resource hname
    have hbindings : bindingViolations ∅ app.hardwareTasks.rows = [] :=
      bindingViolations_eq_nil_iff.mpr ⟨hclash.bindings_nodup, by simp⟩
    unfold violations
    rw [hcontexts, hexclusive, hmodes, hclaims,
      restViolations_eq_nil_iff.mpr hsound.rests_le_one,
      unclaimedViolations_eq_nil_iff.mpr hsound.claimed_of_no_rest, hbindings]
    rfl

/-! ## Another order -/

namespace Reordered

variable {first second : App} (h : first.Reordered second)

include h

theorem perm_claims : first.claims.Perm second.claims := by
  apply h.initsByCore.perm_flatMap
  intro init other similar
  rw [similar.core]
  exact similar.late.map _

theorem perm_restCores : first.restCores.Perm second.restCores := by
  have hrests : Rearranged InitRoutine.Reordered
      (first.initsByCore.filter fun init => init.late.isEmpty)
      (second.initsByCore.filter fun init => init.late.isEmpty) :=
    h.initsByCore.filter fun init other similar => similar.late.isEmpty_eq
  exact hrests.perm_map fun _ _ similar => similar.core

theorem exists_claim_iff {name : String} :
    (∃ init ∈ first.inits, name ∈ init.late) ↔ ∃ init ∈ second.inits, name ∈ init.late :=
  h.inits.exists_iff fun _ _ similar => similar.late.mem_iff

theorem sound (guaranteed : first.Sound) : second.Sound := by
  constructor
  · refine h.contexts.forall_of_forall (fun context other similar hcore => ?_) guaranteed.core_lt
    rwa [← similar.core, ← h.cores]
  · refine h.contexts.forall_of_forall (fun context other similar hdeclared => ?_)
      guaranteed.resource_declared
    intro resource member
    rw [← h.mem_keys_resources]
    exact hdeclared resource ((similar.resources.map Prod.fst).mem_iff.mpr member)
  · refine h.contexts.forall_of_forall (fun context other similar hlate => ?_)
      guaranteed.not_late_of_init
    intro hinit resource member
    rw [← h.mem_keys_lateResources]
    exact hlate (similar.isInit.trans hinit) resource
      ((similar.resources.map Prod.fst).mem_iff.mpr member)
  · refine h.contexts.forall_of_forall (fun context other similar hdeclared => ?_)
      guaranteed.target_declared
    intro task member
    rw [← h.mem_keys_softwareTasks]
    exact hdeclared task ((similar.spawn.append similar.schedule).mem_iff.mpr member)
  · refine h.inits.forall_of_forall (fun init other similar hlate => ?_)
      guaranteed.late_of_claim
    intro resource member
    rw [← h.mem_keys_lateResources]
    exact hlate resource (similar.late.mem_iff.mpr member)
  · exact (h.perm_claims.map Prod.snd).nodup_iff.mp guaranteed.claims_nodup
  · intro hlate
    rw [← h.perm_restCores.length_eq]
    apply guaranteed.rests_le_one
    intro hnil
    have hrows := h.perm_lateResources
    rw [hnil] at hrows
    exact hlate hrows.symm.eq_nil
  · intro hnone resource member
    have hrests := h.perm_restCores
    rw [hnone] at hrests
    rw [← h.exists_claim_iff]
    exact guaranteed.claimed_of_no_rest hrests.eq_nil resource
      (h.mem_keys_lateResources.mpr member)

theorem unclashing (clean : first.Unclashing) : second.Unclashing := by
  have hmem {access : Access} (member : access ∈ second.accesses) : access ∈ first.accesses :=
    h.perm_accesses.mem_iff.mpr member
  constructor
  · intro access member other hother
    exact clean.one_core access (hmem member) other (hmem hother)
  · intro access member other hother
    exact clean.one_mode access (hmem member) other (hmem hother)
  · have hbindings := h.hardwareTasks.perm_map fun row other similar =>
      show (row.2.core, row.2.binds) = (other.2.core, other.2.binds) by
        rw [similar.2.core, similar.2.binds]
    exact hbindings.nodup_iff.mp clean.bindings_nodup

/-- Another order of declarations causes no violations. -/
theorem violations_eq_nil (clean : first.violations = []) : second.violations = [] := by
  obtain ⟨hsound, hclash⟩ := violations_eq_nil_iff.mp clean
  exact violations_eq_nil_iff.mpr ⟨h.sound hsound, h.unclashing hclash⟩

end Reordered

end App

end StackPolicy
