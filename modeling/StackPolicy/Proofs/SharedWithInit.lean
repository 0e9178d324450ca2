import StackPolicy.Proofs.CompressedReads
import StackPolicy.Proofs.CompressedTransfers
import StackPolicy.Proofs.HandOver

/-!
# Resources that initialization shares with another core

A resource that initialization touches moves to the contexts that use it later.
A single idle loop is exempt, whether it runs on the core of the initialization
or on another one.  So a resource may reach another core although its type does
not have to be safe to transfer.
-/

namespace StackPolicy.Analysis

/-! ## Who shares a resource with initialization -/

/-- Initialization of the core `provider` accesses a resource that a context with a priority
uses on another core. -/
def SharedAcross (app : App) (name : String) (provider user : Int) : Prop :=
  provider ≠ user ∧
    (∃ init ∈ app.accessors name, init.isInit = true ∧ init.core = provider) ∧
    ∃ context ∈ app.users name, context.core = user

/-- A resource is used by initialization, and by others than one idle loop. -/
def MovesByInit (app : App) (name : String) : Prop :=
  (∃ init ∈ app.contexts, init.isInit = true ∧ name ∈ init.resources.keys) ∧
    app.users name ≠ [] ∧ ¬app.IdleAlone name

/-- A type has to be safe to transfer for another reason than one of its resources. -/
def MovesElsewhere (app : App) (late : LatePartition) (name ty : String) : Prop :=
  TransferByLate app late ty ∨ TransferByMessage app ty ∨
    ∃ other ≠ name, ∃ resource, app.resources.get? other = some resource ∧
      resource.ty = ty ∧ MovesByInit app other

theorem transferByInit_iff {app : App} {name : String} {resource : Resource}
    (found : app.resources.get? name = some resource) :
    TransferByInit app resource.ty ↔ MovesByInit app name ∨
      ∃ other ≠ name, ∃ declared, app.resources.get? other = some declared ∧
        declared.ty = resource.ty ∧ MovesByInit app other := by
  constructor
  · rintro ⟨other, declared, hdeclared, hty, hmoves⟩
    by_cases hsame : other = name
    · exact .inl (hsame ▸ hmoves)
    · exact .inr ⟨other, hsame, declared, hdeclared, hty, hmoves⟩
  · rintro (hmoves | ⟨other, -, declared, hdeclared, hty, hmoves⟩)
    · exact ⟨name, resource, found, rfl, hmoves⟩
    · exact ⟨other, declared, hdeclared, hty, hmoves⟩

section Shared

variable {app : App} {name : String} {provider user : Int}
  (shared : SharedAcross app name provider user)

include shared

theorem SharedAcross.movesByInit_iff : MovesByInit app name ↔ ¬app.IdleAlone name := by
  obtain ⟨-, ⟨init, hinit, hkind, -⟩, context, hcontext, -⟩ := shared
  obtain ⟨hmember, hname⟩ := App.mem_accessors.mp hinit
  constructor
  · rintro ⟨-, -, hothers⟩
    exact hothers
  · intro hothers
    exact ⟨⟨init, hmember, hkind, hname⟩, List.ne_nil_of_mem hcontext, hothers⟩

/-- Two cores cannot both take a resource exclusively. -/
theorem SharedAcross.mode_eq_shared (clean : app.Unclashing) :
    ∀ access ∈ app.accesses, access.resource = name → access.mode = .shared := by
  obtain ⟨hapart, ⟨init, hinit, -, rfl⟩, context, hcontext, rfl⟩ := shared
  have haccessor := List.mem_of_mem_filter hcontext
  obtain ⟨first, hfirst, hresource, hprovider⟩ := App.exists_access_iff.mpr ⟨init, hinit, rfl⟩
  obtain ⟨second, hsecond, hother, huser⟩ := App.exists_access_iff.mpr ⟨context, haccessor, rfl⟩
  intro access member hname
  cases hmode : access.mode with
  | shared => rfl
  | exclusive =>
      have hone := clean.one_mode access member first hfirst (hname.trans hresource.symm)
      have htwo := clean.one_mode access member second hsecond (hname.trans hother.symm)
      have hcores := clean.one_core first hfirst second hsecond (hresource.trans hother.symm)
        (hone.symm.trans hmode) (htwo.symm.trans hmode)
      rw [hprovider, huser] at hcores
      exact absurd hcores hapart

end Shared

/-! ## Runs -/

/-- The types to be transferred safely, read off the application as it was declared. -/
theorem exists_transfers {app : App} (h : app.violations = []) (settings : Settings) :
    ∃ analysis lines late, run settings app = .ok (analysis, lines) ∧
      LatePartition.ofApp app = .ok late ∧
      ∀ ty, ty ∈ analysis.transferSafe ↔
        TransferByLate app late ty ∨ TransferByInit app ty ∨ TransferByMessage app ty := by
  have hsound := sound_prepared (App.sound_of_violations h) settings
  obtain ⟨late, timer, planned, hderives⟩ := exists_derives hsound
  have hsame (ty : String) :
      (TransferByLate (prepared settings app) late ty ∨ TransferByInit (prepared settings app) ty ∨
        TransferByMessage (prepared settings app) ty) ↔
      TransferByLate app late ty ∨ TransferByInit app ty ∨ TransferByMessage app ty := by
    unfold prepared
    split
    · rw [transferByLate_compressed, transferByInit_compressed, transferByMessage_compressed]
    · rfl
  have hlate : LatePartition.ofApp app = .ok late := by
    have hpartition := hderives.late_eq
    unfold prepared at hpartition
    split at hpartition <;> exact hpartition
  refine ⟨_, _, late, hderives.run_eq h, hlate, fun ty => ?_⟩
  rw [← hsame]
  exact hderives.mem_transfer_iff hsound ty

/-- A resource that initialization shares with another core is only read, and its type has to be
safe to transfer exactly if more than one idle loop uses it, or for another reason. -/
theorem transferSafe_iff_of_sharedAcross {app : App} (h : app.violations = [])
    (settings : Settings) :
    ∃ analysis lines late, run settings app = .ok (analysis, lines) ∧
      LatePartition.ofApp app = .ok late ∧
      ∀ name resource provider user, app.resources.get? name = some resource →
        SharedAcross app name provider user →
        (∀ access ∈ app.accesses, access.resource = name → access.mode = .shared) ∧
        (resource.ty ∈ analysis.transferSafe ↔
          ¬app.IdleAlone name ∨ MovesElsewhere app late name resource.ty) := by
  obtain ⟨hsound, hclean⟩ := App.violations_eq_nil_iff.mp h
  obtain ⟨analysis, lines, late, hrun, hlate, htransfer⟩ := exists_transfers h settings
  refine ⟨analysis, lines, late, hrun, hlate, fun name resource provider user found shared => ?_⟩
  refine ⟨shared.mode_eq_shared hclean, ?_⟩
  rw [htransfer, transferByInit_iff found, shared.movesByInit_iff]
  unfold MovesElsewhere
  constructor
  · rintro (hlate | (hothers | hinit) | hmessage)
    · exact .inr (.inl hlate)
    · exact .inl hothers
    · exact .inr (.inr (.inr hinit))
    · exact .inr (.inr (.inl hmessage))
  · rintro (hothers | hlate | hmessage | hinit)
    · exact .inr (.inl (.inl hothers))
    · exact .inl hlate
    · exact .inr (.inr hmessage)
    · exact .inr (.inl (.inr hinit))

/-- The idle loop of the second core reads what initialization of the first one reads. -/
def remoteIdle : App :=
  { App.idling (.after 1) [("config", ⟨"Config", some "0"⟩)] with
    inits := [⟨sharing 0 ["config"], []⟩]
    idles := [⟨sharing 1 ["config"]⟩] }

/-- A task of the second core reads it as well. -/
def remoteReaders : App :=
  { remoteIdle with
    softwareTasks := .ofList
      [("poll", (sharing 1 ["config"]).software (.after 0) (.after 0) [])] }

theorem transferSafe_remoteReaders :
    remoteReaders.violations = [] ∧
      remoteReaders.resources.get? "config" = some ⟨"Config", some "0"⟩ ∧
      SharedAcross remoteReaders "config" 0 1 ∧
      ∃ analysis lines, run ⟨false, true, false⟩ remoteReaders = .ok (analysis, lines) ∧
        "Config" ∈ analysis.transferSafe := by
  have hclean : remoteReaders.violations = [] := by decide +kernel
  have hshared : SharedAcross remoteReaders "config" 0 1 := by
    unfold SharedAcross
    decide +kernel
  obtain ⟨analysis, lines, late, hrun, -, htransfer⟩ :=
    transferSafe_iff_of_sharedAcross hclean ⟨false, true, false⟩
  obtain ⟨-, htransfer⟩ := htransfer "config" ⟨"Config", some "0"⟩ 0 1 (by decide) hshared
  refine ⟨hclean, by decide, hshared, analysis, lines, hrun, htransfer.mpr (.inl ?_)⟩
  rintro ⟨idle, halone, -⟩
  have hlength : (remoteReaders.users "config").length = 2 := by decide +kernel
  rw [halone] at hlength
  cases hlength

/-- The idle loop is alone, so the value reaches its core without the obligation. -/
theorem not_transferSafe_remoteIdle :
    remoteIdle.violations = [] ∧
      remoteIdle.resources.get? "config" = some ⟨"Config", some "0"⟩ ∧
      SharedAcross remoteIdle "config" 0 1 ∧
      ∃ analysis lines, run ⟨false, true, false⟩ remoteIdle = .ok (analysis, lines) ∧
        "Config" ∉ analysis.transferSafe := by
  have hclean : remoteIdle.violations = [] := by decide +kernel
  have hshared : SharedAcross remoteIdle "config" 0 1 := by
    unfold SharedAcross
    decide +kernel
  obtain ⟨analysis, lines, late, hrun, -, htransfer⟩ := exists_transfers hclean ⟨false, true, false⟩
  have hresource : ∀ row ∈ remoteIdle.resources.rows, row = ("config", ⟨"Config", some "0"⟩) := by
    decide
  have halone : remoteIdle.IdleAlone "config" :=
    ⟨Context.ofIdle ⟨sharing 1 ["config"]⟩, by decide +kernel, rfl⟩
  have hsilent : remoteIdle.spawned ++ remoteIdle.scheduled = [] := by decide +kernel
  refine ⟨hclean, by decide, hshared, analysis, lines, hrun, fun member => ?_⟩
  rcases (htransfer "Config").mp member with hlate | hinit | hmessage
  · obtain ⟨name, resource, hfound, hisLate, -⟩ := hlate
    cases hresource _ (Table.get?_eq_some_iff.mp hfound)
    cases hisLate
  · obtain ⟨name, resource, hfound, -, -, -, hothers⟩ := hinit
    cases hresource _ (Table.get?_eq_some_iff.mp hfound)
    exact hothers halone
  · obtain ⟨message, hsent, -⟩ := hmessage
    rw [hsilent] at hsent
    cases hsent

end StackPolicy.Analysis
