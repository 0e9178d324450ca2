import Mathlib.Data.Nat.Find
import StackPolicy.Proofs.QuietSettings

/-!
# Nested phases

Calls on a trace need not be balanced.  Whatever is called, the events are well
nested: each of them belongs to the phase that was started last among those that
have not ended, a phase ends at most once, and two phases are nested or disjoint.
All of this is read off the events; the open phases of the trace are those that
the events leave open.
-/

namespace StackPolicy

namespace Entry

def isStart : Entry → Bool
  | phaseStart _ _ => true
  | _ => false

def isEnd : Entry → Bool
  | phaseEnd => true
  | _ => false

end Entry

namespace Trace

/-! ## Calls -/

/-- An entry that can be logged: phases are started and ended by calls of their own. -/
abbrev Note := { entry : Entry // entry.isStart = false ∧ entry.isEnd = false }

inductive Call where
  | start (name detail : String)
  | finish
  | log (note : Note)

namespace Call

def entry : Call → Entry
  | start name detail => .phaseStart name detail
  | finish => .phaseEnd
  | log note => note.val

def perform (trace : Trace) : Call → Trace
  | start name detail => trace.startPhase name detail
  | finish => trace.endPhase
  | log note => trace.log note.val

end Call

def performAll (trace : Trace) (calls : List Call) : Trace := calls.foldl Call.perform trace

/-! ## Phases in a list of events -/

/-- A phase is known by the position of the event that starts it. -/
def StartsAt (events : List Event) (phase : Nat) : Prop :=
  ∃ event, events[phase]? = some event ∧ event.entry.isStart = true

def EndsAt (events : List Event) (phase moment : Nat) : Prop :=
  ∃ event, events[moment]? = some event ∧ event.entry.isEnd = true ∧ event.phase = some phase

/-- Whether a phase has been started, and not been ended, before the event at a position. -/
structure OpenAt (events : List Event) (phase moment : Nat) : Prop where
  starts : StartsAt events phase
  before : phase < moment
  goes_on : ∀ earlier < moment, ¬EndsAt events phase earlier

/-- Whether a phase is the one that was started last among those that are open. -/
structure InnermostAt (events : List Event) (phase moment : Nat) : Prop where
  opens : OpenAt events phase moment
  last : ∀ other, OpenAt events other moment → other ≤ phase

structure WellNested (events : List Event) : Prop where
  belongs : ∀ moment event, events[moment]? = some event →
    ∀ phase, event.phase = some phase ↔ InnermostAt events phase moment
  outside : ∀ moment event, events[moment]? = some event →
    (event.phase = none ↔ ∀ phase, ¬OpenAt events phase moment)
  ends_innermost : ∀ moment event, events[moment]? = some event → event.entry.isEnd = true →
    ∃ phase, InnermostAt events phase moment ∧ EndsAt events phase moment
  ends_once : ∀ phase first second, EndsAt events phase first → EndsAt events phase second →
    first = second
  /-- The outer phase has ended before the inner one starts, or ends after it. -/
  nested : ∀ outer inner, StartsAt events outer → StartsAt events inner → outer < inner →
    (∃ moment < inner, EndsAt events outer moment) ∨
      ∀ moment, EndsAt events outer moment →
        ∃ earlier < moment, inner < earlier ∧ EndsAt events inner earlier

theorem OpenAt.exists_innermostAt {events : List Event} {phase moment : Nat}
    (h : OpenAt events phase moment) : ∃ innermost, InnermostAt events innermost moment := by
  classical
  refine ⟨Nat.findGreatest (OpenAt events · moment) moment, ?_, fun other hother => ?_⟩
  · exact Nat.findGreatest_spec (P := (OpenAt events · moment)) (Nat.le_of_lt h.before) h
  · exact Nat.le_findGreatest (Nat.le_of_lt hother.before) hother

/-- Events are well nested if each of them belongs to the innermost open phase and no end stands
outside all phases. -/
theorem wellNested_of_belongs {events : List Event}
    (belongs : ∀ moment event, events[moment]? = some event →
      ∀ phase, event.phase = some phase ↔ InnermostAt events phase moment)
    (ends : ∀ event ∈ events, event.entry.isEnd = true → event.phase ≠ none) :
    WellNested events := by
  have hended {phase moment : Nat} (h : EndsAt events phase moment) :
      InnermostAt events phase moment := by
    obtain ⟨event, hevent, -, hphase⟩ := h
    exact (belongs moment event hevent phase).mp hphase
  refine ⟨belongs, ?outside, ?innermost, ?once, ?nested⟩
  case outside =>
    intro moment event hevent
    constructor
    · intro hnone phase hopen
      obtain ⟨innermost, hinnermost⟩ := hopen.exists_innermostAt
      rw [(belongs moment event hevent innermost).mpr hinnermost] at hnone
      cases hnone
    · intro hclosed
      cases hphase : event.phase with
      | none => rfl
      | some phase =>
          exact absurd ((belongs moment event hevent phase).mp hphase).opens (hclosed phase)
  case innermost =>
    intro moment event hevent hend
    have hsome := ends event (List.mem_of_getElem? hevent) hend
    obtain ⟨phase, hphase⟩ := Option.ne_none_iff_exists'.mp hsome
    exact ⟨phase, (belongs moment event hevent phase).mp hphase, event, hevent, hend, hphase⟩
  case once =>
    intro phase first second hfirst hsecond
    rcases Nat.lt_trichotomy first second with hlt | hsame | hlt
    · exact absurd hfirst ((hended hsecond).opens.goes_on first hlt)
    · exact hsame
    · exact absurd hsecond ((hended hfirst).opens.goes_on second hlt)
  case nested =>
    intro outer inner houter hinner hlt
    by_cases hbefore : ∃ moment < inner, EndsAt events outer moment
    · exact .inl hbefore
    · refine .inr fun moment hmoment => ?_
      have hinside : inner < moment := by
        have hne : inner ≠ moment := by
          rintro rfl
          obtain ⟨event, hevent, hstart⟩ := hinner
          obtain ⟨other, hother, hend, -⟩ := hmoment
          obtain rfl := Option.some.inj (hevent.symm.trans hother)
          cases hentry : event.entry <;> rw [hentry] at hstart hend <;> contradiction
        have hle : ¬moment < inner := fun hmoment_lt => hbefore ⟨moment, hmoment_lt, hmoment⟩
        omega
      -- the outer phase is innermost where it ends, so the inner one is not open any more
      by_contra hopen
      have hinner_open : OpenAt events inner moment := by
        refine ⟨hinner, hinside, fun earlier hearlier hends => hopen ⟨earlier, hearlier, ?_, hends⟩⟩
        exact (hended hends).opens.before
      have hle := (hended hmoment).last inner hinner_open
      omega

/-! ## One more event -/

theorem getElem?_concat_eq_some_iff {events : List Event} {last event : Event} {moment : Nat} :
    (events ++ [last])[moment]? = some event ↔
      events[moment]? = some event ∨ moment = events.length ∧ event = last := by
  grind

theorem startsAt_concat {events : List Event} {last : Event} {phase : Nat} :
    StartsAt (events ++ [last]) phase ↔
      StartsAt events phase ∨ phase = events.length ∧ last.entry.isStart = true := by
  unfold StartsAt
  simp only [getElem?_concat_eq_some_iff, or_and_right, exists_or]
  grind

theorem endsAt_concat {events : List Event} {last : Event} {phase moment : Nat} :
    EndsAt (events ++ [last]) phase moment ↔
      EndsAt events phase moment ∨
        moment = events.length ∧ last.entry.isEnd = true ∧ last.phase = some phase := by
  unfold EndsAt
  simp only [getElem?_concat_eq_some_iff, or_and_right, exists_or]
  grind

theorem StartsAt.lt_length {events : List Event} {phase : Nat} (h : StartsAt events phase) :
    phase < events.length := by
  obtain ⟨event, hevent, -⟩ := h
  exact (List.getElem?_eq_some_iff.mp hevent).1

theorem EndsAt.lt_length {events : List Event} {phase moment : Nat}
    (h : EndsAt events phase moment) : moment < events.length := by
  obtain ⟨event, hevent, -⟩ := h
  exact (List.getElem?_eq_some_iff.mp hevent).1

/-- A later event does not change which phases are open before. -/
theorem openAt_concat_of_le {events : List Event} {last : Event} {phase moment : Nat}
    (h : moment ≤ events.length) :
    OpenAt (events ++ [last]) phase moment ↔ OpenAt events phase moment := by
  constructor
  · rintro ⟨hstarts, hbefore, hgoes_on⟩
    refine ⟨?_, hbefore, fun earlier hearlier hends =>
      hgoes_on earlier hearlier (endsAt_concat.mpr (.inl hends))⟩
    rcases startsAt_concat.mp hstarts with hold | ⟨hlast, -⟩
    · exact hold
    · omega
  · rintro ⟨hstarts, hbefore, hgoes_on⟩
    refine ⟨startsAt_concat.mpr (.inl hstarts), hbefore, fun earlier hearlier hends => ?_⟩
    rcases endsAt_concat.mp hends with hold | ⟨hlast, -⟩
    · exact hgoes_on earlier hearlier hold
    · omega

theorem innermostAt_concat_of_le {events : List Event} {last : Event} {phase moment : Nat}
    (h : moment ≤ events.length) :
    InnermostAt (events ++ [last]) phase moment ↔ InnermostAt events phase moment := by
  constructor
  · rintro ⟨hopens, hlast⟩
    exact ⟨(openAt_concat_of_le h).mp hopens,
      fun other hother => hlast other ((openAt_concat_of_le h).mpr hother)⟩
  · rintro ⟨hopens, hlast⟩
    exact ⟨(openAt_concat_of_le h).mpr hopens,
      fun other hother => hlast other ((openAt_concat_of_le h).mp hother)⟩

/-! ## One more call -/

/-- Whether the open phases of an enabled trace are those that its events leave open. -/
structure Tracks (trace : Trace) : Prop where
  enabled : trace.enabled = true
  belongs : ∀ moment event, trace.events[moment]? = some event →
    ∀ phase, event.phase = some phase ↔ InnermostAt trace.events phase moment
  ends : ∀ event ∈ trace.events, event.entry.isEnd = true → event.phase ≠ none
  mem_openPhases : ∀ phase,
    phase ∈ trace.openPhases ↔ OpenAt trace.events phase trace.events.length
  descending : trace.openPhases.Pairwise (· > ·)
  balanced : trace.events.countP (·.entry.isStart) =
    trace.events.countP (·.entry.isEnd) + trace.openPhases.length

theorem tracks_start : (Trace.start true).Tracks := by
  refine ⟨rfl, nofun, nofun, fun phase => iff_of_false nofun ?_, .nil, rfl⟩
  rintro ⟨⟨event, hevent, -⟩, -, -⟩
  cases hevent

namespace Tracks

variable {trace : Trace} (h : trace.Tracks)

include h

theorem head?_eq_some_iff {phase : Nat} :
    trace.openPhases.head? = some phase ↔
      InnermostAt trace.events phase trace.events.length := by
  have hmem := h.mem_openPhases
  have hdescending := h.descending
  constructor
  · intro hhead
    obtain ⟨outer, houter⟩ := List.head?_eq_some_iff.mp hhead
    rw [houter, List.pairwise_cons] at hdescending
    refine ⟨(hmem phase).mp (houter ▸ List.mem_cons_self), fun other hother => ?_⟩
    have hopen := (hmem other).mpr hother
    rw [houter, List.mem_cons] at hopen
    rcases hopen with rfl | hlater
    · exact Nat.le_refl _
    · exact Nat.le_of_lt (hdescending.1 other hlater)
  · rintro ⟨hopens, hlast⟩
    have hopen := (hmem phase).mpr hopens
    cases hphases : trace.openPhases with
    | nil =>
        rw [hphases] at hopen
        cases hopen
    | cons first outer =>
        rw [hphases, List.mem_cons] at hopen
        rw [hphases, List.pairwise_cons] at hdescending
        rcases hopen with rfl | hlater
        · rfl
        · have habove := hdescending.1 phase hlater
          have hle := hlast first ((hmem first).mp (hphases ▸ List.mem_cons_self))
          omega

theorem belongs_concat {last : Event} (inside : last.phase = trace.openPhases.head?) :
    ∀ moment event, (trace.events ++ [last])[moment]? = some event →
      ∀ phase, event.phase = some phase ↔ InnermostAt (trace.events ++ [last]) phase moment := by
  intro moment event hevent phase
  rcases getElem?_concat_eq_some_iff.mp hevent with hold | ⟨rfl, rfl⟩
  · have hlt := (List.getElem?_eq_some_iff.mp hold).1
    rw [innermostAt_concat_of_le (Nat.le_of_lt hlt)]
    exact h.belongs moment event hold phase
  · rw [innermostAt_concat_of_le (Nat.le_refl _), inside]
    exact h.head?_eq_some_iff

theorem lt_of_endsAt {phase moment : Nat} (ended : EndsAt trace.events phase moment) :
    phase < moment := by
  obtain ⟨event, hevent, -, hphase⟩ := ended
  exact ((h.belongs moment event hevent phase).mp hphase).opens.before

/-- One more event opens the phase that it starts and closes the one that it ends. -/
theorem openAt_concat {last : Event} {phase : Nat} :
    OpenAt (trace.events ++ [last]) phase (trace.events ++ [last]).length ↔
      (OpenAt trace.events phase trace.events.length ∨
        phase = trace.events.length ∧ last.entry.isStart = true) ∧
      ¬(last.entry.isEnd = true ∧ last.phase = some phase) := by
  have hlength : (trace.events ++ [last]).length = trace.events.length + 1 := by simp
  rw [hlength]
  constructor
  · rintro ⟨hstarts, -, hgoes_on⟩
    refine ⟨?_, fun hlast =>
      hgoes_on _ (Nat.lt_succ_self _) (endsAt_concat.mpr (.inr ⟨rfl, hlast⟩))⟩
    refine (startsAt_concat.mp hstarts).imp_left fun hold => ?_
    exact ⟨hold, hold.lt_length, fun earlier hearlier hends =>
      hgoes_on earlier (by omega) (endsAt_concat.mpr (.inl hends))⟩
  · rintro ⟨hopen | ⟨rfl, hstart⟩, hlast⟩
    · refine ⟨startsAt_concat.mpr (.inl hopen.starts), Nat.lt_succ_of_lt hopen.before,
        fun earlier _ hends => ?_⟩
      rcases endsAt_concat.mp hends with hold | ⟨-, hnew⟩
      · exact hopen.goes_on earlier hold.lt_length hold
      · exact hlast hnew
    · refine ⟨startsAt_concat.mpr (.inr ⟨rfl, hstart⟩), Nat.lt_succ_self _,
        fun earlier _ hends => ?_⟩
      rcases endsAt_concat.mp hends with hold | ⟨-, hnew⟩
      · have hstarted := h.lt_of_endsAt hold
        have hwithin := hold.lt_length
        omega
      · exact hlast hnew

/-- An event of the innermost phase is recorded, and the open phases follow it. -/
theorem concat {later : Trace} (entry : Entry) (enabled : later.enabled = true)
    (events : later.events = trace.events ++ [⟨entry, trace.openPhases.head?⟩])
    (ends : entry.isEnd = true → trace.openPhases ≠ [])
    (mem : ∀ phase, phase ∈ later.openPhases ↔
      (phase ∈ trace.openPhases ∨ phase = trace.events.length ∧ entry.isStart = true) ∧
      ¬(entry.isEnd = true ∧ trace.openPhases.head? = some phase))
    (descending : later.openPhases.Pairwise (· > ·))
    (balanced : later.openPhases.length + (if entry.isEnd = true then 1 else 0) =
      trace.openPhases.length + if entry.isStart = true then 1 else 0) : later.Tracks := by
  refine ⟨enabled, ?_, ?_, fun phase => ?_, descending, ?_⟩
  · rw [events]
    exact h.belongs_concat rfl
  · rw [events]
    intro event member hend
    rcases List.mem_append.mp member with hold | hnew
    · exact h.ends event hold hend
    · obtain rfl := List.mem_singleton.mp hnew
      exact fun hnone => ends hend (List.head?_eq_none_iff.mp hnone)
  · rw [mem, events, h.openAt_concat, h.mem_openPhases]
  · have hbalanced := h.balanced
    simp only [events, List.countP_append, List.countP_singleton]
    omega

theorem log (note : Note) : (trace.log note.val).Tracks := by
  obtain ⟨entry, hstart, hend⟩ := note
  have hphases : (trace.log entry).openPhases = trace.openPhases := openPhases_append _
  refine h.concat entry ?_ ?_ ?_ ?_ ?_ ?_
  · exact (enabled_append _).trans h.enabled
  · simp [Trace.log, append, h.enabled]
  · simp [hend]
  · simp [hphases, hstart, hend]
  · rw [hphases]
    exact h.descending
  · simp [hphases, hstart, hend]

theorem startPhase (name detail : String) : (trace.startPhase name detail).Tracks := by
  refine h.concat (.phaseStart name detail) ?_ ?_ ?_ ?_ ?_ ?_
  · exact (enabled_append _).trans h.enabled
  · simp [Trace.startPhase, append, h.enabled]
  · simp [Entry.isEnd]
  · simp [Trace.startPhase, Entry.isStart, Entry.isEnd, or_comm]
  · refine .cons (fun phase member => ?_) h.descending
    exact ((h.mem_openPhases phase).mp member).before
  · simp [Trace.startPhase, Entry.isStart, Entry.isEnd]

theorem endPhase : trace.endPhase.Tracks := by
  have hdescending := h.descending
  unfold Trace.endPhase
  cases hphases : trace.openPhases with
  | nil => exact h
  | cons phase outer =>
      rw [hphases, List.pairwise_cons] at hdescending
      refine h.concat .phaseEnd ?_ ?_ ?_ ?_ ?_ ?_
      · exact (enabled_append _).trans h.enabled
      · simp [append, h.enabled, hphases]
      · simp [hphases]
      · intro other
        simp only [hphases, Entry.isStart, Entry.isEnd]
        grind
      · exact hdescending.2
      · simp [hphases, Entry.isStart, Entry.isEnd]

theorem perform (call : Call) : (call.perform trace).Tracks := by
  cases call with
  | start name detail => exact h.startPhase name detail
  | finish => exact h.endPhase
  | log note => exact h.log note

theorem performAll (calls : List Call) : (trace.performAll calls).Tracks := by
  induction calls generalizing trace with
  | nil => exact h
  | cons call calls ih => exact ih (h.perform call)

/-- Every call records one event of the innermost phase, unless it ends a phase and none is open. -/
theorem events_perform {call : Call} (possible : call = .finish → trace.openPhases ≠ []) :
    (call.perform trace).events =
      trace.events ++ [⟨call.entry, trace.openPhases.head?⟩] := by
  cases call with
  | start name detail => simp [Call.perform, Call.entry, Trace.startPhase, append, h.enabled]
  | log note => simp [Call.perform, Call.entry, Trace.log, append, h.enabled]
  | finish =>
      have hopen := possible rfl
      cases hphases : trace.openPhases with
      | nil => exact absurd hphases hopen
      | cons phase outer =>
          simp [Call.perform, Call.entry, Trace.endPhase, hphases, append, h.enabled]

end Tracks

theorem Silent.performAll {trace : Trace} (h : trace.Silent) (calls : List Call) :
    (trace.performAll calls).Silent := by
  induction calls generalizing trace with
  | nil => exact h
  | cons call calls ih =>
      cases call with
      | start name detail => exact ih (h.startPhase name detail)
      | finish => exact ih h.endPhase
      | log note => exact ih (h.append _)

/-- After any calls, balanced or not, the events of a trace are well nested and leave open what
the trace has left open: as many phases as have started and not ended. -/
theorem wellNested_of_calls (calls : List Call) :
    let trace := (Trace.start true).performAll calls
    WellNested trace.events ∧
      (∀ phase, phase ∈ trace.openPhases ↔
        OpenAt trace.events phase trace.events.length) ∧
      trace.openPhases.Pairwise (· > ·) ∧
      trace.events.countP (·.entry.isStart) =
        trace.events.countP (·.entry.isEnd) + trace.openPhases.length ∧
      (∀ call : Call, (call = .finish → trace.openPhases ≠ []) →
        (call.perform trace).events =
          trace.events ++ [⟨call.entry, trace.openPhases.head?⟩]) ∧
      (trace.openPhases = [] → Call.finish.perform trace = trace) ∧
      ((Trace.start false).performAll calls).events = [] := by
  have htracks := tracks_start.performAll calls
  have hsilent : (Trace.start false).Silent := ⟨rfl, rfl⟩
  refine ⟨wellNested_of_belongs htracks.belongs htracks.ends, htracks.mem_openPhases,
    htracks.descending, htracks.balanced, fun call possible => htracks.events_perform possible,
    fun hclosed => ?_, (hsilent.performAll calls).events⟩
  simp only [Call.perform, endPhase, hclosed]

/-- One end too many between two phases, of which the second stays open. -/
example :
    ((Trace.start true).performAll [.start "Locks" "", .start "Levels" "", .finish, .finish,
      .finish, .start "Queues" "", .log ⟨.warning "unused", rfl, rfl⟩]).events.map Event.phase =
      [none, some 0, some 1, some 0, none, some 4] := by
  decide

end Trace

end StackPolicy
