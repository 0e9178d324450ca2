import StackPolicy.Compression
import StackPolicy.Proofs.Contexts
import StackPolicy.Violation

/-!
# What an application without violations guarantees
-/

namespace StackPolicy

namespace App

theorem mem_keys_lateResources {app : App} {resource : String} :
    resource ∈ app.lateResources.keys ↔
      ∃ declared, app.resources.get? resource = some declared ∧ declared.isLate = true := by
  rw [Table.mem_keys_iff]
  apply exists_congr
  intro declared
  exact Table.get?_filter_eq_some_iff

theorem mem_claims {app : App} {core : Int} {resource : String} :
    (core, resource) ∈ app.claims ↔
      ∃ init ∈ app.inits, init.core = core ∧ resource ∈ init.late := by
  simp only [claims, List.mem_flatMap, mem_initsByCore, List.mem_map, Prod.mk.injEq]
  constructor
  · rintro ⟨init, member, other, hother, hcore, rfl⟩
    exact ⟨init, member, hcore, hother⟩
  · rintro ⟨init, member, hcore, hlate⟩
    exact ⟨init, member, resource, hlate, hcore, rfl⟩

theorem mem_restCores {app : App} {core : Int} :
    core ∈ app.restCores ↔ ∃ init ∈ app.inits, init.late = [] ∧ init.core = core := by
  simp only [restCores, List.mem_map, List.mem_filter, mem_initsByCore, List.isEmpty_iff, and_assoc]

/-! ## Claims -/

/-- Claims keep the guarantees if all of them are late, and none comes twice. -/
theorem claimViolations_eq_nil_iff {late : Table String Resource} {claimed : Table String Int}
    {claims : List (Int × String)} :
    claimViolations late claimed claims = [] ↔
      (∀ claim ∈ claims, claim.2 ∈ late.keys) ∧ (claims.map Prod.snd).Nodup ∧
        ∀ claim ∈ claims, claim.2 ∉ claimed.keys := by
  induction claims generalizing claimed with
  | nil => simp [claimViolations]
  | cons claim claims ih =>
      obtain ⟨core, resource⟩ := claim
      rw [claimViolations]
      by_cases hlate : resource ∈ late.keys
      · rw [if_pos (Table.contains_iff.mpr hlate)]
        cases hclaimed : claimed.get? resource with
        | some first =>
            have hpresent : resource ∈ claimed.keys := Table.mem_keys_iff.mpr ⟨first, hclaimed⟩
            simp [hpresent]
        | none =>
            have habsent : resource ∉ claimed.keys := Table.get?_eq_none_iff.mp hclaimed
            simp only [ih, List.forall_mem_cons, List.map_cons, List.nodup_cons, hlate, habsent,
              Table.mem_keys_insert, not_or, true_and, not_false_eq_true, List.mem_map]
            constructor
            · rintro ⟨hall, hdistinct, hfresh⟩
              refine ⟨hall, ⟨?_, hdistinct⟩, fun claim member => (hfresh claim member).2⟩
              rintro ⟨claim, member, hsame⟩
              exact (hfresh claim member).1 hsame
            · rintro ⟨hall, ⟨hnew, hdistinct⟩, hfresh⟩
              refine ⟨hall, hdistinct, fun claim member => ⟨?_, hfresh claim member⟩⟩
              intro hsame
              exact hnew ⟨claim, member, hsame⟩
      · have hcontains : ¬late.contains resource = true := fun h =>
          hlate (Table.contains_iff.mp h)
        rw [if_neg hcontains]
        simp [hlate]

/-! ## All guarantees -/

/-- The guarantees that the passes of an analysis rely on. -/
structure Sound (app : App) : Prop where
  core_lt : ∀ context ∈ app.contexts, context.core < app.cores
  resource_declared : ∀ context ∈ app.contexts, ∀ resource ∈ context.resources.keys,
    resource ∈ app.resources.keys
  not_late_of_init : ∀ context ∈ app.contexts, context.isInit = true →
    ∀ resource ∈ context.resources.keys, resource ∉ app.lateResources.keys
  target_declared : ∀ context ∈ app.contexts, ∀ task ∈ context.spawn ++ context.schedule,
    task ∈ app.softwareTasks.keys
  late_of_claim : ∀ init ∈ app.inits, ∀ resource ∈ init.late,
    resource ∈ app.lateResources.keys
  claims_nodup : (app.claims.map Prod.snd).Nodup
  rests_le_one : app.lateResources.rows ≠ [] → app.restCores.length ≤ 1
  claimed_of_no_rest : app.restCores = [] → ∀ resource ∈ app.lateResources.keys,
    ∃ init ∈ app.inits, resource ∈ init.late

theorem coreViolations_eq_nil_iff {app : App} {context : Context} :
    context.coreViolations app = [] ↔ 0 ≤ context.core ∧ context.core < app.cores := by
  unfold Context.coreViolations
  split
  · rename_i inRange
    exact iff_of_true rfl inRange
  · rename_i outside
    exact iff_of_false (List.cons_ne_nil _ _) outside

theorem resourceViolations_eq_nil_iff {app : App} {context : Context} :
    context.resourceViolations app = [] ↔
      ∀ resource ∈ context.resources.keys, resource ∈ app.resources.keys ∧
        (context.isInit = true → resource ∉ app.lateResources.keys) := by
  unfold Context.resourceViolations
  rw [List.flatMap_eq_nil_iff]
  refine forall₂_congr fun resource _ => ?_
  rw [← Table.contains_iff, ← Table.contains_iff]
  cases app.resources.contains resource with
  | false => simp
  | true =>
      cases context.isInit with
      | false => simp
      | true => simp

theorem targetViolations_eq_nil_iff {app : App} {context : Context} :
    context.targetViolations app = [] ↔
      ∀ task ∈ context.spawn ++ context.schedule, task ∈ app.softwareTasks.keys := by
  unfold Context.targetViolations
  rw [List.flatMap_eq_nil_iff]
  refine forall₂_congr fun task _ => ?_
  rw [← Table.contains_iff]
  cases app.softwareTasks.contains task <;> simp

theorem contextViolations_eq_nil_iff {app : App} {context : Context} :
    context.violations app = [] ↔
      context.coreViolations app = [] ∧ context.resourceViolations app = [] ∧
        context.targetViolations app = [] := by
  unfold Context.violations
  rw [List.append_eq_nil_iff, List.append_eq_nil_iff, and_assoc]

theorem restViolations_eq_nil_iff {app : App} :
    app.restViolations = [] ↔ (app.lateResources.rows ≠ [] → app.restCores.length ≤ 1) := by
  unfold restViolations
  split
  · rename_i several
    simp only [Bool.and_eq_true, Bool.not_eq_true', List.isEmpty_eq_false_iff,
      decide_eq_true_eq] at several
    refine iff_of_false (List.cons_ne_nil _ _) fun few => ?_
    have hfew := few several.1
    omega
  · rename_i few
    simp only [Bool.and_eq_true, Bool.not_eq_true', List.isEmpty_eq_false_iff,
      decide_eq_true_eq, not_and, Nat.not_lt] at few
    exact iff_of_true rfl few

theorem unclaimedViolations_eq_nil_iff {app : App} :
    app.unclaimedViolations = [] ↔
      (app.restCores = [] → ∀ resource ∈ app.lateResources.keys,
        ∃ init ∈ app.inits, resource ∈ init.late) := by
  have hclaimed (resource : String) : resource ∈ app.claims.map Prod.snd ↔
      ∃ init ∈ app.inits, resource ∈ init.late := by
    constructor
    · intro member
      obtain ⟨⟨core, other⟩, hclaim, rfl⟩ := List.mem_map.mp member
      obtain ⟨init, hinit, -, hlate⟩ := mem_claims.mp hclaim
      exact ⟨init, hinit, hlate⟩
    · rintro ⟨init, hinit, hlate⟩
      exact List.mem_map_of_mem (mem_claims.mpr ⟨init, hinit, rfl, hlate⟩)
  have hleft : (SortedSet.ofList
      (app.lateResources.keys.filter (· ∉ app.claims.map Prod.snd))).isEmpty = false ↔
      ¬∀ resource ∈ app.lateResources.keys, ∃ init ∈ app.inits, resource ∈ init.late := by
    rw [SortedSet.isEmpty_eq_false_iff]
    simp only [SortedSet.mem_ofList, List.mem_filter, decide_eq_true_eq, hclaimed]
    simp only [Classical.not_forall, exists_prop]
  unfold unclaimedViolations
  simp only
  split
  · rename_i unclaimed
    simp only [Bool.and_eq_true, List.isEmpty_iff, Bool.not_eq_true', hleft] at unclaimed
    exact iff_of_false (List.cons_ne_nil _ _) fun all => unclaimed.2 (all unclaimed.1)
  · rename_i covered
    simp only [Bool.and_eq_true, List.isEmpty_iff, Bool.not_eq_true', hleft, not_and,
      Decidable.not_not] at covered
    exact iff_of_true rfl covered

theorem sound_of_violations {app : App} (h : app.violations = []) : app.Sound := by
  unfold violations at h
  simp only [List.append_eq_nil_iff, List.flatMap_eq_nil_iff] at h
  obtain ⟨⟨⟨⟨⟨⟨hcontexts, -⟩, -⟩, hclaims⟩, hrests⟩, hunclaimed⟩, -⟩ := h
  have hparts := fun context member => contextViolations_eq_nil_iff.mp (hcontexts context member)
  obtain ⟨hlate, hdistinct, -⟩ := claimViolations_eq_nil_iff.mp hclaims
  constructor
  · intro context member
    exact (coreViolations_eq_nil_iff.mp (hparts context member).1).2
  · intro context member resource hresource
    exact (resourceViolations_eq_nil_iff.mp (hparts context member).2.1 resource hresource).1
  · intro context member hinit resource hresource
    exact (resourceViolations_eq_nil_iff.mp (hparts context member).2.1 resource hresource).2
      hinit
  · intro context member
    exact targetViolations_eq_nil_iff.mp (hparts context member).2.2
  · intro init member resource hresource
    exact hlate (init.core, resource) (mem_claims.mpr ⟨init, member, rfl, hresource⟩)
  · exact hdistinct
  · exact restViolations_eq_nil_iff.mp hrests
  · exact unclaimedViolations_eq_nil_iff.mp hunclaimed

end App

/-! ## A sound application -/

def Routine.exclusive (core : Nat) (resources spawn schedule : List String) : Routine where
  core := core
  core_nonneg := Int.natCast_nonneg core
  resources := .ofList (resources.map fun name => (name, .exclusive))
  spawn := spawn
  schedule := schedule

def Routine.hardware (routine : Routine) (binds : String) (priority : Positive) : HardwareTask :=
  ⟨routine, binds, priority.number, priority.pos⟩

def Routine.software (routine : Routine) (priority capacity : Positive) (inputs : List String) :
    SoftwareTask :=
  ⟨routine, priority.number, priority.pos, capacity.number, capacity.pos, inputs⟩

def Positive.after (count : Nat) : Positive := ⟨count + 1, by omega⟩

namespace App

/-- An application on some cores that runs nothing. -/
def idling (cores : Positive) (resources : List (String × Resource)) : App :=
  ⟨cores.number, cores.pos, [], [], .ofList resources, ∅, ∅⟩

/-- Two cores, of which the first takes the rest of the late resources. -/
def pipeline : App :=
  { idling (.after 1) [("log", ⟨"Log", some "0"⟩), ("samples", ⟨"Samples", none⟩),
      ("link", ⟨"Link", none⟩)] with
    inits := [⟨.exclusive 0 ["log"] ["filter"] [], []⟩, ⟨.exclusive 1 [] [] [], ["samples"]⟩]
    idles := [⟨.exclusive 0 ["log", "link"] [] []⟩]
    hardwareTasks := .ofList
      [("uart", (Routine.exclusive 0 ["log"] ["filter"] []).hardware "UART0" (.after 3)),
        ("adc", (Routine.exclusive 1 ["samples"] [] ["filter"]).hardware "ADC" (.after 6))]
    softwareTasks := .ofList
      [("filter", (Routine.exclusive 1 ["samples"] [] []).software (.after 1) (.after 2)
          ["Frame"])] }

/-- The task of the first core has a priority, and sends to the second core. -/
theorem exists_uart :
    ∃ uart ∈ pipeline.contexts, uart.isInit = false ∧ uart.core = 0 ∧ uart.priority = some 4 ∧
      "log" ∈ uart.resources.keys ∧ "filter" ∈ uart.spawn := by
  have htask : pipeline.hardwareTasks.rows.head (by decide) ∈ pipeline.hardwareTasks.rows :=
    List.head_mem _
  have huart := mem_contexts.mpr (.inr (.inr (.inl ⟨_, htask, rfl⟩)))
  exact ⟨_, huart, rfl, rfl, rfl, by decide, by decide⟩

/-- Routines that are declared in the order of their cores stay in their order. -/
theorem initsByCore_of_pairwise {app : App}
    (sorted : app.inits.Pairwise fun first second => first.core ≤ second.core) :
    app.initsByCore = app.inits :=
  List.mergeSort_of_pairwise (sorted.imp fun ordered => decide_eq_true ordered)

theorem idlesByCore_of_pairwise {app : App}
    (sorted : app.idles.Pairwise fun first second => first.core ≤ second.core) :
    app.idlesByCore = app.idles :=
  List.mergeSort_of_pairwise (sorted.imp fun ordered => decide_eq_true ordered)

theorem violations_pipeline : pipeline.violations = [] := by
  have hinits : pipeline.initsByCore = pipeline.inits := initsByCore_of_pairwise (by decide)
  have hidles : pipeline.idlesByCore = pipeline.idles := idlesByCore_of_pairwise (by decide)
  unfold violations exclusiveViolations modeViolations restViolations unclaimedViolations
    declaredAccesses accesses contexts claims restCores
  rw [hinits, hidles]
  decide +kernel

end App

end StackPolicy
