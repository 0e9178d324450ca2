import StackPolicy.LatePartition
import StackPolicy.Proofs.Guarantees
import StackPolicy.Proofs.Sequences

/-!
# Which core provides a late resource

The claims that have been read and the resources that are left over cover all
late resources.  The core that takes the rest gets what is left over in place
of its own claims, so they are lost if another routine of that core has made
any.
-/

namespace StackPolicy.LatePartition

def restsOf (inits : List InitRoutine) : List Int :=
  (inits.filter fun init => init.late.isEmpty).map fun init => init.core

theorem restsOf_append (first second : List InitRoutine) :
    restsOf (first ++ second) = restsOf first ++ restsOf second := by
  simp [restsOf]

theorem restsOf_cons (init : InitRoutine) (inits : List InitRoutine) :
    restsOf (init :: inits) =
      if init.late.isEmpty then init.core :: restsOf inits else restsOf inits := by
  unfold restsOf
  rw [List.filter_cons]
  split <;> rfl

namespace Claims

/-- Whether a core has claimed a resource. -/
def Holds (claims : Claims) (core : Int) (name : String) : Prop :=
  ∃ names, claims.byCore.get? core = some names ∧ name ∈ names

/-- The claims account for the routines that have been read. -/
structure Covers (late : Table String Resource) (read : List InitRoutine)
    (claims : Claims) : Prop where
  claimed : ∀ core name, claims.Holds core name ↔
    ∃ init ∈ read, init.core = core ∧ name ∈ init.late
  unclaimed : ∀ name, name ∈ claims.unclaimed ↔
    name ∈ late.keys ∧ ∀ init ∈ read, name ∉ init.late
  rest : claims.rest.toList = restsOf read

/-! ## One routine -/

theorem holds_claim (claims : Claims) (core other : Int) (resource name : String) :
    (claims.claim core resource).Holds other name ↔
      claims.Holds other name ∨ (other = core ∧ name = resource) := by
  unfold Holds claim
  simp only [Table.get?_insert]
  by_cases hsame : other = core
  · subst hsame
    cases claims.byCore.get? other with
    | none => simp
    | some names => simp [or_comm]
  · simp [hsame]

theorem holds_foldl_claim (claims : Claims) (core other : Int) (names : List String)
    (name : String) :
    (names.foldl (fun claims resource => claims.claim core resource) claims).Holds other name ↔
      claims.Holds other name ∨ (other = core ∧ name ∈ names) := by
  induction names generalizing claims with
  | nil => simp
  | cons resource names ih =>
      rw [List.foldl_cons, ih, holds_claim, List.mem_cons, or_assoc, ← and_or_left]

theorem mem_unclaimed_foldl_claim (claims : Claims) (core : Int) (names : List String)
    (name : String) :
    name ∈ (names.foldl (fun claims resource => claims.claim core resource) claims).unclaimed ↔
      name ∈ claims.unclaimed ∧ name ∉ names := by
  induction names generalizing claims with
  | nil => simp
  | cons resource names ih =>
      rw [List.foldl_cons, ih]
      unfold claim
      simp only [SortedSet.mem_filter, decide_eq_true_eq, List.mem_cons, not_or, and_assoc, ne_eq]

theorem rest_foldl_claim (claims : Claims) (core : Int) (names : List String) :
    (names.foldl (fun claims resource => claims.claim core resource) claims).rest =
      claims.rest :=
  foldl_keeps Claims.rest (by intros; rfl) names claims

theorem covers_start (app : App) : (start app).Covers app.lateResources [] where
  claimed := by simp [Holds, start]
  unclaimed := by simp [start]
  rest := rfl

theorem addInit_eq_error {claims : Claims} {init : InitRoutine}
    (takesRest : init.late.isEmpty = true) (taken : claims.rest.isSome = true) :
    claims.addInit init = .error .severalRests := by
  unfold addInit
  rw [if_pos takesRest, if_pos taken]

theorem Covers.addInit {late : Table String Resource} {read : List InitRoutine}
    {claims : Claims} (h : claims.Covers late read) {init : InitRoutine}
    (free : init.late.isEmpty = true → claims.rest = none) :
    ∃ next, claims.addInit init = .ok next ∧ next.Covers late (read ++ [init]) := by
  unfold Claims.addInit
  cases hempty : init.late.isEmpty with
  | true =>
      have hnone := free hempty
      have hlate : init.late = [] := List.isEmpty_iff.mp hempty
      rw [hnone]
      refine ⟨{ claims with rest := some init.core }, rfl, ?_, ?_, ?_⟩
      · intro core name
        change claims.Holds core name ↔ _
        rw [h.claimed]
        simp [hlate]
      · intro name
        change name ∈ claims.unclaimed ↔ _
        rw [h.unclaimed, List.forall_mem_append, List.forall_mem_singleton, hlate]
        simp
      · have hrest := h.rest
        rw [hnone] at hrest
        rw [restsOf_append, ← hrest, restsOf_cons, if_pos hempty]
        rfl
  | false =>
      refine ⟨_, rfl, ?_, ?_, ?_⟩
      · intro core name
        rw [holds_foldl_claim, h.claimed]
        constructor
        · rintro (⟨other, member, hother⟩ | ⟨rfl, hname⟩)
          · exact ⟨other, List.mem_append_left _ member, hother⟩
          · exact ⟨init, by simp, rfl, hname⟩
        · rintro ⟨other, member, hcore, hname⟩
          rcases List.mem_append.mp member with hread | hnew
          · exact .inl ⟨other, hread, hcore, hname⟩
          · rw [List.mem_singleton] at hnew
            subst hnew
            exact .inr ⟨hcore.symm, hname⟩
      · intro name
        rw [mem_unclaimed_foldl_claim, h.unclaimed, and_assoc, List.forall_mem_append,
          List.forall_mem_singleton]
      · rw [rest_foldl_claim, h.rest, restsOf_append, restsOf_cons, hempty]
        simp [restsOf]

/-! ## All routines -/

theorem Covers.exists_foldlM {late : Table String Resource} {read inits : List InitRoutine}
    {claims : Claims} (h : claims.Covers late read)
    (few : (restsOf (read ++ inits)).length ≤ 1) :
    ∃ finished, inits.foldlM Claims.addInit claims = .ok finished ∧
      finished.Covers late (read ++ inits) := by
  induction inits generalizing claims read with
  | nil => exact ⟨claims, rfl, by simpa using h⟩
  | cons init inits ih =>
      have hfree : init.late.isEmpty = true → claims.rest = none := by
        intro hempty
        rw [restsOf_append, restsOf_cons, if_pos hempty, ← h.rest] at few
        cases hrest : claims.rest with
        | none => rfl
        | some core =>
            rw [hrest] at few
            simp at few
      obtain ⟨next, hnext, hcovers⟩ := h.addInit hfree
      have hfew : (restsOf (read ++ [init] ++ inits)).length ≤ 1 := by
        rwa [List.append_assoc]
      obtain ⟨finished, hfinished, hall⟩ := ih hcovers hfew
      refine ⟨finished, ?_, by rwa [List.append_assoc] at hall⟩
      rw [List.foldlM_cons, hnext]
      exact hfinished

theorem Covers.foldlM_eq_error {late : Table String Resource} {read inits : List InitRoutine}
    {claims : Claims} (h : claims.Covers late read)
    (several : 1 < (restsOf (read ++ inits)).length) :
    inits.foldlM Claims.addInit claims = .error .severalRests := by
  induction inits generalizing claims read with
  | nil =>
      rw [List.append_nil, ← h.rest] at several
      cases hrest : claims.rest with
      | none => simp [hrest] at several
      | some core => simp [hrest] at several
  | cons init inits ih =>
      rw [List.foldlM_cons]
      by_cases hclash : init.late.isEmpty = true ∧ claims.rest.isSome = true
      · rw [addInit_eq_error hclash.1 hclash.2]
        rfl
      · have hfree : init.late.isEmpty = true → claims.rest = none := by
          intro hempty
          cases hrest : claims.rest with
          | none => rfl
          | some core => exact absurd ⟨hempty, by rw [hrest]; rfl⟩ hclash
        obtain ⟨next, hnext, hcovers⟩ := h.addInit hfree
        have hseveral : 1 < (restsOf (read ++ [init] ++ inits)).length := by
          rwa [List.append_assoc]
        rw [hnext]
        exact ih hcovers hseveral

/-! ## The cores of all routines -/

/-- Whether a core has made a claim, or takes the rest. -/
def Lists (claims : Claims) (core : Int) : Prop :=
  core ∈ claims.byCore.keys ∨ claims.rest = some core

theorem mem_keys_foldl_claim (claims : Claims) (core other : Int) (names : List String) :
    other ∈ (names.foldl (fun claims resource => claims.claim core resource) claims).byCore.keys ↔
      other ∈ claims.byCore.keys ∨ (other = core ∧ names ≠ []) := by
  induction names generalizing claims with
  | nil => simp
  | cons name names ih =>
      rw [List.foldl_cons, ih]
      simp only [claim, Table.mem_keys_insert]
      grind

theorem lists_addInit {claims next : Claims} {init : InitRoutine}
    (h : claims.addInit init = .ok next) (core : Int) :
    next.Lists core ↔ claims.Lists core ∨ init.core = core := by
  unfold Claims.addInit at h
  split at h
  · split at h
    · cases h
    · rename_i free
      cases h
      simp only [Lists, Option.not_isSome_iff_eq_none.mp free, Option.some.injEq, reduceCtorEq,
        or_false]
  · rename_i claiming
    cases h
    have hnames : init.late ≠ [] := by simpa using claiming
    unfold Lists
    rw [mem_keys_foldl_claim, rest_foldl_claim]
    grind

theorem lists_foldlM {claims finished : Claims} {inits : List InitRoutine}
    (h : inits.foldlM Claims.addInit claims = .ok finished) (core : Int) :
    finished.Lists core ↔ claims.Lists core ∨ ∃ init ∈ inits, init.core = core := by
  induction inits generalizing claims with
  | nil =>
      cases h
      simp
  | cons init inits ih =>
      rw [List.foldlM_cons] at h
      obtain ⟨next, hnext, hrest⟩ := bind_eq_ok_iff.mp h
      rw [ih hrest, lists_addInit hnext, or_assoc]
      simp only [List.mem_cons, exists_eq_or_imp]

theorem mem_keys_finish (claims : Claims) (core : Int) :
    core ∈ claims.finish.keys ↔ claims.Lists core := by
  unfold Claims.finish Lists
  cases claims.rest with
  | none => simp
  | some rest =>
      simp only [Table.mem_keys_sortByKey, Table.mem_keys_insert, Option.some.injEq]
      rw [or_comm, eq_comm (a := core)]

end Claims

/-! ## The partition -/

/-- Whether the initialization of a core provides a resource. -/
def Provides (partition : LatePartition) (core : Int) (name : String) : Prop :=
  ∃ names, partition.get? core = some names ∧ name ∈ names

theorem provides_finish (claims : Claims) (core : Int) (name : String) :
    claims.finish.Provides core name ↔
      if claims.rest = some core then name ∈ claims.unclaimed else claims.Holds core name := by
  unfold Provides Claims.finish
  cases hrest : claims.rest with
  | none =>
      simp only [Table.get?_sortByKey]
      rfl
  | some rest =>
      simp only [Table.get?_sortByKey, Table.get?_insert, Option.some.injEq, eq_comm (a := rest)]
      split
      · simp
      · rfl

theorem ofApp_of_no_late {app : App} (none : app.lateResources.rows = []) :
    ofApp app = .ok ∅ := by
  unfold ofApp
  rw [none]
  rfl

theorem ofApp_eq_error {app : App} (late : app.lateResources.rows ≠ [])
    (several : 1 < app.restCores.length) : ofApp app = .error .severalRests := by
  have hfold : app.initsByCore.foldlM Claims.addInit (Claims.start app) =
      .error .severalRests := (Claims.covers_start app).foldlM_eq_error several
  unfold ofApp
  rw [if_neg (by simpa using late), hfold]
  rfl

/-- The core that takes the rest provides all that is left over; any other core provides what
its own routines claim. -/
theorem provides_ofApp {app : App} (late : app.lateResources.rows ≠ [])
    (few : app.restCores.length ≤ 1) :
    ∃ partition, ofApp app = .ok partition ∧ ∀ core name, partition.Provides core name ↔
      if core ∈ app.restCores then
        name ∈ app.lateResources.keys ∧ ∀ init ∈ app.inits, name ∉ init.late
      else ∃ init ∈ app.inits, init.core = core ∧ name ∈ init.late := by
  have hfew : (restsOf ([] ++ app.initsByCore)).length ≤ 1 := few
  obtain ⟨claims, hclaims, hcovers⟩ := (Claims.covers_start app).exists_foldlM hfew
  have hrests : app.restCores = claims.rest.toList := hcovers.rest.symm
  refine ⟨claims.finish, ?_, fun core name => ?_⟩
  · unfold ofApp
    rw [if_neg (by simpa using late), hclaims]
    rfl
  · rw [provides_finish, hrests]
    simp only [Option.mem_toList]
    split
    · rw [hcovers.unclaimed]
      simp only [List.nil_append, App.mem_initsByCore]
    · rw [hcovers.claimed]
      simp only [List.nil_append, App.mem_initsByCore]

theorem exists_ofApp {app : App}
    (few : ¬(app.lateResources.rows ≠ [] ∧ 1 < app.restCores.length)) :
    ∃ partition, ofApp app = .ok partition := by
  by_cases hlate : app.lateResources.rows = []
  · exact ⟨∅, ofApp_of_no_late hlate⟩
  · have hfew : app.restCores.length ≤ 1 := Nat.le_of_not_lt (not_and.mp few hlate)
    obtain ⟨partition, hpartition, -⟩ := provides_ofApp hlate hfew
    exact ⟨partition, hpartition⟩

/-- Every core with an initialization routine is in the partition. -/
theorem mem_keys_ofApp {app : App} {partition : LatePartition}
    (late : app.lateResources.rows ≠ []) (h : ofApp app = .ok partition) (core : Int) :
    core ∈ partition.keys ↔ ∃ init ∈ app.inits, init.core = core := by
  unfold ofApp at h
  rw [if_neg (by simpa using late)] at h
  cases hclaims : app.initsByCore.foldlM Claims.addInit (Claims.start app) with
  | error failure =>
      rw [hclaims] at h
      cases h
  | ok claims =>
      rw [hclaims] at h
      cases h
      rw [Claims.mem_keys_finish, Claims.lists_foldlM hclaims]
      simp [Claims.Lists, Claims.start, App.mem_initsByCore]

theorem exists_sorted {app : App} {partition : LatePartition} (h : ofApp app = .ok partition) :
    ∃ table : LatePartition, partition = table.sortByKey := by
  unfold ofApp at h
  split at h
  · cases h
    exact ⟨∅, Table.ext List.mergeSort_nil.symm⟩
  · cases hclaims : app.initsByCore.foldlM Claims.addInit (Claims.start app) with
    | error failure =>
        rw [hclaims] at h
        cases h
    | ok claims =>
        rw [hclaims] at h
        cases h
        unfold Claims.finish
        split <;> exact ⟨_, rfl⟩

end StackPolicy.LatePartition
