import StackPolicy.Channel

/-!
# Highest priorities

A ceiling is the highest of the priorities that contend for something.  Where
nothing contends there is no ceiling.
-/

namespace StackPolicy

def IsHighest (Contends : Int → Prop) : Option Int → Prop
  | none => ∀ priority, ¬Contends priority
  | some ceiling => Contends ceiling ∧ ∀ priority, Contends priority → priority ≤ ceiling

/-- The ceiling after one more access, which contends only if it has a priority. -/
def ceilingAfter (ceiling contender : Option Int) : Option Int :=
  match contender with
  | some priority => some (raised ceiling priority)
  | none => ceiling

namespace IsHighest

variable {Contends Others : Int → Prop} {ceiling other : Option Int}

theorem congr (h : IsHighest Contends ceiling)
    (same : ∀ priority, Contends priority ↔ Others priority) : IsHighest Others ceiling := by
  have heq : Contends = Others := funext fun priority => propext (same priority)
  exact heq ▸ h

theorem unique (h : IsHighest Contends ceiling) (again : IsHighest Contends other) :
    ceiling = other := by
  cases ceiling with
  | none =>
      cases other with
      | none => rfl
      | some highest => exact absurd again.1 (h highest)
  | some highest =>
      cases other with
      | none => exact absurd h.1 (again highest)
      | some second =>
          have hle := again.2 highest h.1
          have hge := h.2 second again.1
          exact congrArg some (Int.le_antisymm hle hge)

theorem raised (h : IsHighest Contends ceiling) (priority : Int) :
    IsHighest (fun other => Contends other ∨ other = priority)
      (some (StackPolicy.raised ceiling priority)) := by
  cases ceiling with
  | none =>
      refine ⟨.inr rfl, fun other hother => ?_⟩
      rcases hother with hcontends | rfl
      · exact absurd hcontends (h other)
      · exact Int.le_refl other
  | some highest =>
      obtain ⟨hcontends, hbound⟩ := h
      simp only [StackPolicy.raised]
      refine ⟨?_, fun other hother => ?_⟩
      · rcases Int.le_total highest priority with hle | hle
        · exact .inr (Int.max_eq_right hle)
        · exact .inl ((Int.max_eq_left hle).symm ▸ hcontends)
      · rcases hother with hold | rfl
        · have hle := hbound other hold
          omega
        · exact Int.le_max_right highest other

theorem after (h : IsHighest Contends ceiling) (contender : Option Int) :
    IsHighest (fun priority => Contends priority ∨ contender = some priority)
      (ceilingAfter ceiling contender) := by
  cases contender with
  | none =>
      apply h.congr
      simp
  | some priority =>
      apply (h.raised priority).congr
      intro other
      rw [Option.some.injEq, eq_comm (a := priority)]

/-- One ceiling is at most another one exactly if something there reaches whatever contends here. -/
theorem le_iff {highest above : Int} (h : IsHighest Contends (some highest))
    (again : IsHighest Others (some above)) :
    highest ≤ above ↔ ∀ priority, Contends priority →
      ∃ other, Others other ∧ priority ≤ other := by
  constructor
  · intro hle priority hpriority
    have hbound := h.2 priority hpriority
    exact ⟨above, again.1, by omega⟩
  · intro reached
    obtain ⟨other, hother, hle⟩ := reached highest h.1
    have hbound := again.2 other hother
    omega

/-- Numbers in the order of the priorities have the number of the highest one as the highest. -/
theorem map (h : IsHighest Contends ceiling) {number : Int → Int}
    (ordered : ∀ first second, Contends first → Contends second →
      (number first < number second ↔ first < second)) :
    IsHighest (fun priority => ∃ old, Contends old ∧ number old = priority)
      (ceiling.map number) := by
  cases ceiling with
  | none =>
      rintro priority ⟨old, hold, -⟩
      exact h old hold
  | some highest =>
      obtain ⟨hcontends, hbound⟩ := h
      refine ⟨⟨highest, hcontends, rfl⟩, ?_⟩
      rintro _ ⟨old, hold, rfl⟩
      have hle := hbound old hold
      have hlt := ordered highest old hcontends hold
      omega

/-- A default does not count if it is not above everything else that contends. -/
theorem without_default {default : Int}
    (h : IsHighest (fun priority => priority = default ∨ Contends priority) ceiling)
    (other : ∃ priority, Contends priority ∧ default ≤ priority) : IsHighest Contends ceiling := by
  cases ceiling with
  | none => exact absurd (.inl rfl) (h default)
  | some highest =>
      obtain ⟨hhighest, hbound⟩ := h
      refine ⟨?_, fun priority hpriority => hbound priority (.inr hpriority)⟩
      rcases hhighest with rfl | hcontends
      · obtain ⟨priority, hpriority, hge⟩ := other
        have hle := hbound priority (.inr hpriority)
        rwa [show highest = priority by omega]
      · exact hcontends

end IsHighest

end StackPolicy
