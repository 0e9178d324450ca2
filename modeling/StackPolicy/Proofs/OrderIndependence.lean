import StackPolicy.Proofs.NewNumbers
import StackPolicy.Proofs.ReorderedPasses

/-!
# The order of declarations does not matter

Applications that differ in the order of their declarations alone have the same
analysis, but for the trace.
-/

namespace StackPolicy.Analysis

/-! ## Prepared applications -/

theorem reordered_prepared {first second : App} (h : first.Reordered second)
    (settings : Settings) : (prepared settings first).Reordered (prepared settings second) := by
  unfold prepared
  split
  · exact h.compressed
  · exact h

theorem unclashing_prepared {app : App} (clean : app.Unclashing) (settings : Settings) :
    (prepared settings app).Unclashing := by
  unfold prepared
  split
  · exact clean.compressed
  · exact clean

/-! ## Analyses that agree -/

/-- Two analyses with the same contents, whatever their traces say. -/
structure Agrees (first second : Analysis) : Prop where
  usedCores : first.usedCores = second.usedCores
  lateResources : ∀ core, first.lateResources.get? core = second.lateResources.get? core
  ownerships : ∀ name, first.ownerships.get? name = second.ownerships.get? name
  locations : ∀ name, first.locations.get? name = second.locations.get? name
  channels : ∀ priority, first.channels.get? priority = second.channels.get? priority
  freeQueues : ∀ name, first.freeQueues.get? name = second.freeQueues.get? name
  timerQueue : first.timerQueue = second.timerQueue
  transferSafe : first.transferSafe = second.transferSafe
  concurrentReadSafe : first.concurrentReadSafe = second.concurrentReadSafe
  initializationBarriers : ∀ user,
    first.initializationBarriers.get? user = second.initializationBarriers.get? user
  receivers : ∀ receiver,
    receiver ∈ first.spawnBarriers.keys ↔ receiver ∈ second.spawnBarriers.keys
  spawnBarriers : ∀ receiver sender,
    first.spawnBarriers.flag? receiver sender = second.spawnBarriers.flag? receiver sender
  taskPriorities : ∀ name, first.taskPriorities.get? name = second.taskPriorities.get? name

section Derived

variable {first second : App} (h : first.Reordered second) (sound : first.Sound)
  {late other : LatePartition} {timer another : TimerQueue × Ledger}
  {planned others : ChannelPlan × Ledger} (hfirst : Derives first late timer planned)
  (hsecond : Derives second other another others)

include h sound hfirst hsecond

theorem Derives.timerQueue_eq : timer.1 = another.1 :=
  h.timerQueue_eq (hfirst.describes_timerQueue sound)
    (hsecond.describes_timerQueue (h.sound sound))

theorem Derives.transfer_eq : planned.2.transfer = others.2.transfer := by
  have hlate := h.ofApp_eq sound hfirst.late_eq hsecond.late_eq
  subst hlate
  ext ty
  rw [hfirst.mem_transfer sound, hsecond.mem_transfer (h.sound sound), h.mem_transfer_safetyOf]
  exact or_congr Iff.rfl
    ((h.spawned.append h.scheduled).exists_iff fun _ _ similar => h.moves_iff similar ty)

theorem Derives.concurrentRead_eq_of_reordered
    (one_mode : ∀ access ∈ first.accesses, ∀ other ∈ first.accesses,
      access.resource = other.resource → access.mode = other.mode) :
    planned.2.concurrentRead = others.2.concurrentRead := by
  have hone_mode : ∀ access ∈ second.accesses, ∀ other ∈ second.accesses,
      access.resource = other.resource → access.mode = other.mode := by
    simpa only [h.perm_accesses.mem_iff] using one_mode
  ext ty
  rw [hfirst.mem_concurrentRead sound one_mode,
    hsecond.mem_concurrentRead (h.sound sound) hone_mode]
  simp only [h.perm_accesses.mem_iff, h.get?_ownershipsOf, h.get?_resources]

end Derived

/-! ## Runs -/

/-- Another order of declarations causes no violations, and leaves the analysis as it is. -/
theorem agrees_of_reordered {first second : App} (h : first.Reordered second)
    (clean : first.violations = []) (settings : Settings) :
    second.violations = [] ∧ ∃ analysis lines other reports,
      run settings first = .ok (analysis, lines) ∧
      run settings second = .ok (other, reports) ∧ analysis.Agrees other := by
  have hclean := h.violations_eq_nil clean
  obtain ⟨hsound, hclash⟩ := App.violations_eq_nil_iff.mp clean
  have hgraph := reordered_prepared h settings
  have hfirst := sound_prepared hsound settings
  have hsecond := hgraph.sound hfirst
  obtain ⟨late, timer, planned, hderives⟩ := exists_derives hfirst
  obtain ⟨other, another, others, hagain⟩ := exists_derives hsecond
  have hlate := hgraph.ofApp_eq hfirst hderives.late_eq hagain.late_eq
  have htimer := hderives.timerQueue_eq hgraph hfirst hagain
  have hplan := hderives.describes hfirst
  have hother := hagain.describes hsecond
  rw [← htimer] at hother
  subst hlate
  refine ⟨hclean, _, _, _, _, hderives.run_eq clean, hagain.run_eq hclean, ?_⟩
  constructor
  · exact congrArg SortedSet.toList hgraph.usedCores
  · exact fun core => rfl
  · exact hgraph.get?_ownershipsOf
  · exact hgraph.get?_locationsOf late
  · exact hgraph.get?_channels hplan hother
  · exact hgraph.get?_freeQueues hplan hother
  · exact htimer
  · exact hderives.transfer_eq hgraph hfirst hagain
  · exact hderives.concurrentRead_eq_of_reordered hgraph hfirst hagain
      (unclashing_prepared hclash settings).one_mode
  · exact hgraph.get?_initializationBarriers late
  · exact hgraph.mem_keys_spawnBarriers hplan hother
  · exact hgraph.flag?_spawnBarriers hplan hother
  · exact hgraph.get?_taskPriorities

/-- The pipeline, with its routines, resources and tasks declared in another order. -/
def reversedPipeline : App :=
  { App.idling (.after 1) App.pipeline.resources.rows.reverse with
    inits := App.pipeline.inits.reverse
    idles := [⟨.exclusive 0 ["link", "log"] [] []⟩]
    hardwareTasks := .ofList App.pipeline.hardwareTasks.rows.reverse
    softwareTasks := App.pipeline.softwareTasks }

theorem reordered_reversedPipeline : App.pipeline.Reordered reversedPipeline := by
  have hroutine (routine : Routine) : routine.Reordered routine := ⟨rfl, .rfl, .rfl, .rfl⟩
  constructor
  · rfl
  · apply (Rearranged.of_perm (List.reverse_perm App.pipeline.inits).symm).mono
    rintro init _ rfl
    exact ⟨hroutine init.toRoutine, .rfl⟩
  · exact .cons ⟨⟨rfl, by decide, .rfl, .rfl⟩⟩ .zero
  · decide
  · have hrows : App.pipeline.hardwareTasks.rows.Perm reversedPipeline.hardwareTasks.rows := by
      decide
    apply (Rearranged.of_perm hrows).mono
    rintro row _ rfl
    exact ⟨rfl, hroutine row.2.toRoutine, rfl, rfl⟩
  · apply (Rearranged.of_perm (.refl App.pipeline.softwareTasks.rows)).mono
    rintro row _ rfl
    exact ⟨rfl, hroutine row.2.toRoutine, rfl, rfl, rfl⟩

theorem agrees_reversedPipeline :
    App.pipeline.Reordered reversedPipeline ∧ App.pipeline.violations = [] ∧
      ∃ analysis lines other reports,
        run ⟨true, true, true⟩ App.pipeline = .ok (analysis, lines) ∧
        run ⟨true, true, true⟩ reversedPipeline = .ok (other, reports) ∧
        analysis.ownerships.get? "log" = other.ownerships.get? "log" := by
  obtain ⟨-, analysis, lines, other, reports, hrun, hagain, hagrees⟩ :=
    agrees_of_reordered reordered_reversedPipeline App.violations_pipeline ⟨true, true, true⟩
  exact ⟨reordered_reversedPipeline, App.violations_pipeline, analysis, lines, other, reports,
    hrun, hagain, hagrees.ownerships "log"⟩

end StackPolicy.Analysis
