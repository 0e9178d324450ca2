import StackPolicy.Proofs.LedgerEntries
import StackPolicy.Proofs.PlannerContents

/-!
# The histories that entries tell

The changes of an ownership follow each other up to the ownership that is
left, and the ceilings of a queue rise up to the ceiling that is left.  Every
step of a pass notes what it changes, and nothing else.
-/

namespace StackPolicy

/-! ## Numbers -/

theorem toDigits_injective : Function.Injective (Nat.toDigits 10) := by
  intro first second same
  have hread := congrArg (fun digits => Nat.ofDigitChars 10 digits 0) same
  simpa [Nat.ofDigitChars_toDigits] using hread

/-- The decimal text of an integer tells which integer it is. -/
theorem toString_injective : Function.Injective (toString : Int → String) := by
  have hsign (positive negative : Nat) :
      Nat.toDigits 10 positive ≠ '-' :: Nat.toDigits 10 negative := by
    intro same
    have hdigit : '-'.isDigit = true :=
      Nat.isDigit_of_mem_toDigits (show 0 < 10 by decide) (by decide)
        (same ▸ List.mem_cons_self : '-' ∈ Nat.toDigits 10 positive)
    cases hdigit
  have hpositive (number : Nat) :
      (toString (Int.ofNat number)).toList = Nat.toDigits 10 number := Nat.toList_repr
  have hnegative (number : Nat) :
      (toString (Int.negSucc number)).toList = '-' :: Nat.toDigits 10 (number + 1) := by
    change ("-" ++ (number + 1).repr).toList = _
    rw [String.toList_append, Nat.toList_repr]
    rfl
  intro first second same
  have hcharacters := congrArg String.toList same
  cases first <;> cases second <;> simp only [hpositive, hnegative] at hcharacters
  · rw [toDigits_injective hcharacters]
  · exact absurd hcharacters (hsign _ _)
  · exact absurd hcharacters.symm (hsign _ _)
  · have hnumbers := toDigits_injective (List.tail_eq_of_cons_eq hcharacters)
    rw [Nat.succ.inj hnumbers]
/-! ## Ownerships -/

/-- Each change starts where the one before it has ended, and changes something. -/
def Follows : Option String → List (Option String × String) → Prop
  | _, [] => True
  | current, (before, after) :: changes =>
      before = current ∧ before ≠ some after ∧ Follows (some after) changes

/-- Where some changes end. -/
def lastOf (changes : List (Option String × String)) : Option String :=
  changes.getLast?.map Prod.snd

theorem follows_concat {current before : Option String} {after : String}
    {changes : List (Option String × String)} :
    Follows current (changes ++ [(before, after)]) ↔
      Follows current changes ∧ before = (lastOf changes).or current ∧ before ≠ some after := by
  induction changes generalizing current with
  | nil => simp [Follows, lastOf]
  | cons change changes ih =>
      obtain ⟨first, second⟩ := change
      have hlast : (lastOf ((first, second) :: changes)).or current =
          (lastOf changes).or (some second) := by
        unfold lastOf
        rw [List.getLast?_cons]
        cases changes.getLast? <;> rfl
      rw [List.cons_append, Follows, Follows, ih, hlast]
      simp only [and_assoc]

theorem Ownership.text_injective : Function.Injective Ownership.text := by
  intro first second same
  have hcharacters := congrArg String.toList same
  -- kinds differ in the first letters of their texts, and within a kind the number decides
  cases first <;> cases second <;>
    simp [Ownership.text, String.toList_append] at hcharacters ⊢
  all_goals exact toString_injective (String.toList_injective (by simpa using hcharacters))

/-- The changes of every ownership follow each other from none to the one that is left. -/
def Recounts (entries : List Entry) (ownerships : Ownerships) : Prop :=
  ∀ resource, Follows none (entries.filterMap (Entry.change? resource)) ∧
    lastOf (entries.filterMap (Entry.change? resource)) =
      (ownerships.get? resource).map Ownership.text

namespace Ownerships

theorem recounts_update {ownerships : Ownerships} {ledger : Ledger}
    (on : ledger.trace.enabled = true) (h : Recounts ledger.entries ownerships)
    (resource : String) (updated : Ownership) :
    Recounts (ownerships.update ledger resource updated).2.entries
      (ownerships.update ledger resource updated).1 := by
  unfold update
  by_cases hsame : ownerships.get? resource = some updated
  · rw [if_pos hsame]
    exact h
  · rw [if_neg hsame]
    intro other
    obtain ⟨hfollows, hlast⟩ := h other
    simp only [Ledger.entries_note on, List.filterMap_append, Table.get?_insert]
    by_cases hother : other = resource
    · subst hother
      have hnew : [Entry.ownershipChange other ((ownerships.get? other).map Ownership.text)
          updated.text].filterMap (Entry.change? other) =
            [((ownerships.get? other).map Ownership.text, updated.text)] := by
        simp [Entry.change?]
      have hchanges : (ownerships.get? other).map Ownership.text ≠ some updated.text := by
        intro htext
        obtain ⟨current, hcurrent, hsameText⟩ := Option.map_eq_some_iff.mp htext
        rw [Ownership.text_injective hsameText] at hcurrent
        exact hsame hcurrent
      rw [hnew, if_pos rfl]
      refine ⟨follows_concat.mpr ⟨hfollows, ?_, hchanges⟩, ?_⟩
      · rw [hlast, Option.or_none]
      · rw [lastOf, List.getLast?_concat]
        rfl
    · have hnone : [Entry.ownershipChange resource ((ownerships.get? resource).map
          Ownership.text) updated.text].filterMap (Entry.change? other) = [] := by
        simp [Entry.change?, Ne.symm hother]
      rw [hnone, List.append_nil, if_neg hother]
      exact ⟨hfollows, hlast⟩

theorem recounts_take {app : App} {state : Ownerships × Ledger}
    (on : state.2.trace.enabled = true) (h : Recounts state.2.entries state.1) (access : Access) :
    Recounts (take app state access).2.entries (take app state access).1 := by
  unfold take
  split
  · exact h
  · rename_i priority _
    simp only [record]
    split
    · -- laying the obligation of a read leaves what is told about ownerships
      have hread (reason other : String) :
          (requireRead app state.2 access.resource reason).entries.filterMap
            (Entry.change? other) = state.2.entries.filterMap (Entry.change? other) :=
        (writes_requireRead app state.2 access.resource reason).filterMap_entries
          (Entry.change? other) (fun _ => False.elim) fun _ _ _ => rfl
      have hwrites (reason : String) : Ledger.Writes (fun _ => False) state.2
          (requireRead app state.2 access.resource reason) := writes_requireRead app _ _ _
      apply recounts_update ((hwrites _).enabled_eq.trans on)
      intro other
      rw [hread]
      exact h other
    · exact recounts_update on h _ _

theorem recounts_foldl_take {app : App} {state : Ownerships × Ledger}
    (on : state.2.trace.enabled = true) (h : Recounts state.2.entries state.1)
    (accesses : List Access) :
    Recounts (accesses.foldl (take app) state).2.entries (accesses.foldl (take app) state).1 := by
  induction accesses generalizing state with
  | nil => exact h
  | cons access accesses ih =>
      exact ih ((writes_take app state access).enabled_eq.trans on) (recounts_take on h access)

theorem recounts_start (traced : Bool) : Recounts (Ledger.start traced).entries ∅ :=
  fun _ => ⟨trivial, rfl⟩

end Ownerships

/-! ## Ceilings -/

/-- The values that some entries give to the ceiling of a queue rise up to `ceiling`.  Nothing
is told about a queue without a ceiling. -/
def RisesTo (queue : String) (entries : List Entry) (ceiling : Option Int) : Prop :=
  ∃ ceilings : List Int,
    entries.filterMap (Entry.update? queue "ceiling") = ceilings.map Value.int ∧
      ceilings.Pairwise (· < ·) ∧ ceilings.getLast? = ceiling

theorem risesTo_nil (queue : String) : RisesTo queue [] none := ⟨[], rfl, .nil, rfl⟩

theorem RisesTo.concat {queue : String} {entries : List Entry} {ceiling : Option Int}
    (h : RisesTo queue entries ceiling) {raised : Int}
    (above : ∀ current, ceiling = some current → current < raised) :
    RisesTo queue (entries ++ [.queueUpdate queue "ceiling" (.int raised)]) (some raised) := by
  obtain ⟨ceilings, hentries, hrising, hlast⟩ := h
  refine ⟨ceilings ++ [raised], ?_, ?_, List.getLast?_concat⟩
  · rw [List.filterMap_append, hentries, List.map_append]
    simp [Entry.update?]
  · rw [List.pairwise_append]
    refine ⟨hrising, List.pairwise_singleton _ raised, ?_⟩
    intro earlier hearlier last hmember
    rw [List.mem_singleton.mp hmember]
    cases ceiling with
    | none =>
        rw [List.getLast?_eq_none_iff.mp hlast] at hearlier
        cases hearlier
    | some current =>
        obtain ⟨before, rfl⟩ := List.getLast?_eq_some_iff.mp hlast
        have hcurrent := above current rfl
        rcases List.mem_append.mp hearlier with hbefore | hsame
        · have hlt := (List.pairwise_append.mp hrising).2.2 earlier hbefore current
            (List.mem_singleton_self current)
          omega
        · rw [List.mem_singleton.mp hsame]
          exact hcurrent

theorem RisesTo.of_filterMap_eq {queue : String} {entries others : List Entry}
    {ceiling : Option Int} (h : RisesTo queue entries ceiling)
    (same : others.filterMap (Entry.update? queue "ceiling") =
      entries.filterMap (Entry.update? queue "ceiling")) : RisesTo queue others ceiling := by
  obtain ⟨ceilings, hentries, hrest⟩ := h
  exact ⟨ceilings, same.trans hentries, hrest⟩

/-- What is told of another queue does not matter. -/
theorem RisesTo.skip {queue other : String} {entries : List Entry} {ceiling : Option Int}
    (h : RisesTo queue entries ceiling) (apart : other ≠ queue) (value : Value) :
    RisesTo queue (entries ++ [.queueUpdate other "ceiling" value]) ceiling := by
  apply h.of_filterMap_eq
  rw [List.filterMap_append]
  simp [Entry.update?, apart]

theorem lt_raised {ceiling : Option Int} {priority : Int}
    (raises : ceiling ≠ some (raised ceiling priority)) (current : Int)
    (found : ceiling = some current) : current < raised ceiling priority := by
  subst found
  have hne : current ≠ max current priority := fun same => raises (congrArg some same)
  simp only [raised]
  omega

/-! ## Names of queues -/

namespace ChannelPlanner

def channelName (key : Int) : String := "channel" ++ "[" ++ toString key ++ "]"

def freeQueueName (task : String) : String := "free_queue" ++ "[" ++ task ++ "]"

theorem channelName_injective : Function.Injective channelName := by
  intro first second same
  have hkeys : toString first = toString second := by
    unfold channelName at same
    rwa [String.append_left_inj, String.append_right_inj] at same
  exact toString_injective hkeys

theorem freeQueueName_injective : Function.Injective freeQueueName := by
  intro first second same
  unfold freeQueueName at same
  rwa [String.append_left_inj, String.append_right_inj] at same

theorem channelName_ne_freeQueueName (key : Int) (task : String) :
    channelName key ≠ freeQueueName task := by
  intro same
  have hcharacters := congrArg String.toList same
  simp [channelName, freeQueueName, String.toList_append] at hcharacters

theorem timerQueue_ne_channelName (key : Int) : "timer_queue" ≠ channelName key := by
  intro same
  have hcharacters := congrArg String.toList same
  simp [channelName, String.toList_append] at hcharacters

theorem timerQueue_ne_freeQueueName (task : String) : "timer_queue" ≠ freeQueueName task := by
  intro same
  have hcharacters := congrArg String.toList same
  simp [freeQueueName, String.toList_append] at hcharacters

/-! ## Ceilings of a planner -/

/-- The entries of a planner raise every ceiling that it holds. -/
structure Recounted (planner : ChannelPlanner) : Prop where
  enabled : planner.ledger.trace.enabled = true
  channels : ∀ key,
    RisesTo (channelName key) planner.ledger.entries (planner.draftAt key).ceiling
  freeQueues : ∀ task, RisesTo (freeQueueName task) planner.ledger.entries
    ((planner.freeQueues.get? task).getD none)

theorem recounted_start (app : App) {ledger : Ledger} (on : ledger.trace.enabled = true)
    (quiet : ledger.entries = []) : (start app ledger).Recounted where
  enabled := on
  channels key := by
    change RisesTo (channelName key) ledger.entries none
    rw [quiet]
    exact risesTo_nil _
  freeQueues task := by
    change RisesTo (freeQueueName task) ledger.entries none
    rw [quiet]
    exact risesTo_nil _

/-- A step that neither changes a ceiling nor tells of one. -/
theorem Recounted.of_same {planner other : ChannelPlanner} (h : planner.Recounted)
    (enabled : other.ledger.trace.enabled = planner.ledger.trace.enabled)
    (channels : ∀ key, (other.draftAt key).ceiling = (planner.draftAt key).ceiling)
    (freeQueues : ∀ task, (other.freeQueues.get? task).getD none =
      (planner.freeQueues.get? task).getD none)
    (entries : ∀ queue, other.ledger.entries.filterMap (Entry.update? queue "ceiling") =
      planner.ledger.entries.filterMap (Entry.update? queue "ceiling")) : other.Recounted where
  enabled := enabled.trans h.enabled
  channels key := by
    rw [channels]
    exact (h.channels key).of_filterMap_eq (entries _)
  freeQueues task := by
    rw [freeQueues]
    exact (h.freeQueues task).of_filterMap_eq (entries _)

theorem Recounted.spawnBarrier {planner : ChannelPlanner} (h : planner.Recounted)
    (delivery : Delivery) : (planner.spawnBarrier delivery).Recounted :=
  h.of_same (by simp) (by simp [draftAt]) (by simp) (by simp)

theorem Recounted.scheduleBarrier {planner : ChannelPlanner} (h : planner.Recounted)
    (delivery : Delivery) : (planner.scheduleBarrier delivery).Recounted :=
  h.of_same (by simp) (by simp [draftAt]) (by simp) (by simp)

theorem Recounted.join {planner : ChannelPlanner} (h : planner.Recounted) (task : String)
    (priority : Int) : (planner.join task priority).Recounted := by
  refine h.of_same rfl (fun key => ?_) (fun name => ?_) fun _ => rfl
  · rw [draftAt, get?_channels_join_eq]
    split
    · rfl
    · rfl
  · rw [get?_freeQueues_join]
    split
    · rename_i same
      rw [same]
      rfl
    · rfl

theorem Recounted.requireMessage {planner : ChannelPlanner} (h : planner.Recounted)
    (verb : String) (delivery : Delivery) : (planner.requireMessage verb delivery).Recounted := by
  have hwrites : Ledger.Writes (fun _ => False) planner.ledger
      (planner.requireMessage verb delivery).ledger := Ledger.writes_requireMessage _ _ _
  refine h.of_same hwrites.enabled_eq (fun _ => rfl) (fun _ => rfl) fun queue => ?_
  exact hwrites.filterMap_entries (Entry.update? queue "ceiling") (fun _ => False.elim)
    fun _ _ _ => rfl

theorem entries_noteCeiling {ledger : Ledger} (on : ledger.trace.enabled = true)
    (queue name : String) (ceiling : Int) :
    (noteCeiling ledger queue name ceiling).entries =
      ledger.entries ++ [.queueUpdate (queue ++ "[" ++ name ++ "]") "ceiling" (.int ceiling)] :=
  Ledger.entries_note on _

theorem Recounted.raiseAt {planner : ChannelPlanner} (h : planner.Recounted)
    (key priority : Int) : (planner.raiseAt key priority).Recounted := by
  change (planner.raiseFound key (planner.draftAt key) priority).Recounted
  unfold raiseFound
  simp only
  split
  · exact h
  · rename_i raises
    refine ⟨(Ledger.enabled_note _ _).trans h.enabled, fun other => ?_, fun task => ?_⟩
    · simp only [draftAt, Table.get?_insert, entries_noteCeiling h.enabled]
      by_cases hsame : other = key
      · subst hsame
        rw [if_pos rfl]
        exact (h.channels other).concat (lt_raised raises)
      · rw [if_neg hsame]
        exact (h.channels other).skip (fun same => hsame (channelName_injective same).symm) _
    · simp only [entries_noteCeiling h.enabled]
      exact (h.freeQueues task).skip (channelName_ne_freeQueueName key task) _

theorem Recounted.raiseFreeQueue {planner : ChannelPlanner} (h : planner.Recounted)
    (task : String) (priority : Int) : (planner.raiseFreeQueue task priority).Recounted := by
  unfold ChannelPlanner.raiseFreeQueue
  simp only
  split
  · exact h
  · rename_i raises
    refine ⟨(Ledger.enabled_note _ _).trans h.enabled, fun key => ?_, fun other => ?_⟩
    · simp only [entries_noteCeiling h.enabled]
      exact (h.channels key).skip (channelName_ne_freeQueueName key task).symm _
    · simp only [Table.get?_insert, entries_noteCeiling h.enabled]
      by_cases hsame : other = task
      · subst hsame
        rw [if_pos rfl]
        exact (h.freeQueues other).concat (lt_raised raises)
      · rw [if_neg hsame]
        exact (h.freeQueues other).skip (fun same => hsame (freeQueueName_injective same).symm) _

theorem Recounted.effect {planner : ChannelPlanner} (h : planner.Recounted)
    (delivery : Delivery) (request : Request) : (request.effect planner delivery).Recounted := by
  cases request with
  | spawn message =>
      have hjoined := (h.spawnBarrier delivery).join delivery.receiver delivery.task.priority
      apply Recounted.requireMessage
      cases delivery.sender.priority with
      | none => exact hjoined
      | some priority =>
          exact (hjoined.raiseAt delivery.task.priority priority).raiseFreeQueue
            delivery.receiver priority
  | schedule message queue =>
      have hjoined := (h.scheduleBarrier delivery).join delivery.receiver delivery.task.priority
      have hraised := hjoined.raiseAt delivery.task.priority queue.priority
      simp only [Request.effect, afterSchedule]
      cases delivery.sender.priority with
      | none => exact hraised
      | some priority => exact hraised.raiseFreeQueue delivery.receiver priority
  | classify message verb => exact h.requireMessage verb delivery

theorem Recounted.attempt {planner : ChannelPlanner} (h : planner.Recounted)
    (request : Request) : (planner.attempt request).Recounted := by
  cases found : planner.app.softwareTasks.get? request.message.receiver with
  | none =>
      rw [attempt_of_undeclared (Table.get?_eq_none_iff.mp found)]
      exact h
  | some task =>
      rw [attempt_of_get? found]
      exact h.effect _ request

theorem Recounted.foldl_attempt {planner : ChannelPlanner} (h : planner.Recounted)
    (requests : List Request) : (requests.foldl ChannelPlanner.attempt planner).Recounted := by
  induction requests generalizing planner with
  | nil => exact h
  | cons request requests ih => exact ih (h.attempt request)

end ChannelPlanner

end StackPolicy
