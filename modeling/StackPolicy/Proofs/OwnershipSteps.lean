import StackPolicy.Proofs.Growth
import StackPolicy.Proofs.StreamOwnerships

/-!
# Ownerships step by step

Accesses may start from any ownership.  None of them lowers its rank or its
level, all orders of them lead to the same ownership, and an ownership that is
not contended becomes so exactly if one of the accesses reports that it met
another level.
-/

namespace StackPolicy.Ownership

/-! ## Transitions one after another -/

/-- The transitions that accesses at the given priorities make. -/
def transitions? : (current : Option Ownership) → List Int →
    Except Failure (List (Ownership × Bool))
  | _, [] => .ok []
  | current, priority :: priorities => do
      let transition ← next? current priority
      let others ← transitions? (some transition.1) priorities
      pure (transition :: others)

def transitions : (current : Option Ownership) → List Int → List (Ownership × Bool)
  | _, [] => []
  | current, priority :: priorities =>
      next current priority :: transitions (some (next current priority).1) priorities

/-- The ownership that transitions end with. -/
def reached : (start : Option Ownership) → List (Ownership × Bool) → Option Ownership
  | start, [] => start
  | _, transition :: others => reached (some transition.1) others

theorem next?_eq_ok {current : Option Ownership} {priority : Int} (nonneg : 0 ≤ priority)
    (level : ∀ ownership, current = some ownership → 0 ≤ ownership.level) :
    next? current priority = .ok (next current priority) := by
  have hlevel := Ownerships.level_next_nonneg nonneg level
  have hcheck := Ownerships.check_eq_ok hlevel
  change ((next current priority).1.check >>= fun _ => pure (next current priority)) = _
  rw [bind_of_ok hcheck]
  rfl

theorem transitions?_eq_ok {start : Option Ownership} {priorities : List Int}
    (level : ∀ ownership, start = some ownership → 0 ≤ ownership.level)
    (nonneg : ∀ priority ∈ priorities, 0 ≤ priority) :
    transitions? start priorities = .ok (transitions start priorities) := by
  induction priorities generalizing start with
  | nil => rfl
  | cons priority priorities ih =>
      have hpriority := nonneg priority List.mem_cons_self
      have hlater : ∀ ownership, some (next start priority).1 = some ownership →
          0 ≤ ownership.level := by
        rintro ownership ⟨⟩
        exact Ownerships.level_next_nonneg hpriority level
      have hrest := ih hlater fun other member => nonneg other (List.mem_cons_of_mem _ member)
      rw [transitions?, bind_of_ok (next?_eq_ok hpriority level), bind_of_ok hrest]
      rfl

theorem length_transitions (start : Option Ownership) (priorities : List Int) :
    (transitions start priorities).length = priorities.length := by
  induction priorities generalizing start with
  | nil => rfl
  | cons priority priorities ih => rw [transitions, List.length_cons, ih, List.length_cons]

theorem reached_transitions (start : Option Ownership) (priorities : List Int) :
    reached start (transitions start priorities) = after start priorities := by
  induction priorities generalizing start with
  | nil => rfl
  | cons priority priorities ih => exact ih (some (next start priority).1)

/-! ## Ranks and levels -/

theorem AtMost.trans {ownership other last : Ownership} (h : ownership.AtMost other)
    (next : other.AtMost last) : ownership.AtMost last :=
  ⟨Nat.le_trans h.rank next.rank, Int.le_trans h.level next.level⟩

/-- One access raises an ownership, or leaves it as it is. -/
theorem atMost_next (ownership : Ownership) (priority : Int) :
    ownership.AtMost (next (some ownership) priority).1 := by
  by_cases hsame : priority = ownership.level
  · subst hsame
    refine ⟨?_, ?_⟩
    · cases ownership <;> simp [next, level, Ownership.rank]
    · cases ownership <;> simp [next, level]
  · rw [next_of_ne hsame]
    refine ⟨?_, Int.le_max_left _ _⟩
    cases ownership with
    | owned owner => exact Nat.zero_le 2
    | coOwned owner => exact Nat.le_succ 1
    | contended ceiling => exact Nat.le_refl 2

theorem atMost_of_mem_transitions {ownership : Ownership} {priorities : List Int} :
    ∀ transition ∈ transitions (some ownership) priorities, ownership.AtMost transition.1 := by
  induction priorities generalizing ownership with
  | nil => exact nofun
  | cons priority priorities ih =>
      have hfirst := atMost_next ownership priority
      intro transition member
      rcases List.mem_cons.mp member with rfl | hlater
      · exact hfirst
      · exact hfirst.trans (ih transition hlater)

theorem pairwise_transitions (start : Option Ownership) (priorities : List Int) :
    (start.toList ++ (transitions start priorities).map Prod.fst).Pairwise AtMost := by
  have habove (ownership : Ownership) (priorities : List Int) :
      ∀ other ∈ (transitions (some ownership) priorities).map Prod.fst,
        ownership.AtMost other := by
    intro other member
    obtain ⟨transition, htransition, rfl⟩ := List.mem_map.mp member
    exact atMost_of_mem_transitions transition htransition
  have hascends : ((transitions start priorities).map Prod.fst).Pairwise AtMost := by
    induction priorities generalizing start with
    | nil => exact .nil
    | cons priority priorities ih =>
        exact .cons (habove (next start priority).1 priorities) (ih (some (next start priority).1))
  cases start with
  | none => exact hascends
  | some ownership => exact .cons (habove ownership priorities) hascends

/-! ## Orders -/

/-- Every ownership is that of some accesses. -/
theorem exists_summarizes (current : Option Ownership) :
    ∃ priorities, Summarizes current priorities := by
  match current with
  | none => exact ⟨[], rfl⟩
  | some (owned priority) => exact ⟨[priority], rfl⟩
  | some (coOwned priority) => exact ⟨[priority, priority], by simp [Summarizes, Describes]⟩
  | some (contended ceiling) =>
      refine ⟨[ceiling, ceiling - 1], List.mem_cons_self, fun other member => ?_, ceiling - 1,
        ?_, ?_⟩
      · simp only [List.mem_cons, List.not_mem_nil, or_false] at member
        omega
      · simp
      · omega

/-- From any ownership, accesses in another order lead to the same one: together with earlier
accesses that lead to the start, they are summarized by one ownership only. -/
theorem after_of_perm (start : Option Ownership) {priorities others : List Int}
    (same : priorities.Perm others) : after start priorities = after start others := by
  obtain ⟨seen, hseen⟩ := exists_summarizes start
  exact (summarizes_after hseen priorities).unique (summarizes_after hseen others)
    (same.append_left seen)

/-! ## Reports -/

theorem isContended_after (start : Option Ownership) (priorities : List Int) :
    (after start priorities).any isContended =
      ((transitions start priorities).any Prod.snd || start.any isContended) := by
  induction priorities generalizing start with
  | nil => rfl
  | cons priority priorities ih =>
      have hrest := ih (some (next start priority).1)
      have hfirst := isContended_next start priority
      calc (after start (priority :: priorities)).any isContended
          = ((transitions (some (next start priority).1) priorities).any Prod.snd ||
              (next start priority).1.isContended) := hrest
        _ = ((transitions start (priority :: priorities)).any Prod.snd ||
              start.any isContended) := by
            rw [hfirst, transitions, List.any_cons, ← Bool.or_assoc,
              Bool.or_comm _ (next start priority).2]

/-- Whichever ownership a resource starts with, no access lowers its rank or its level, and the
accesses lead to the same ownership in every order.  An ownership that was not contended becomes
so exactly if some access has reported that it met another level. -/
theorem ascends_in_any_order {start : Option Ownership} {priorities : List Int}
    (level : ∀ ownership, start = some ownership → 0 ≤ ownership.level)
    (nonneg : ∀ priority ∈ priorities, 0 ≤ priority) :
    ∃ made, transitions? start priorities = .ok made ∧
      made.length = priorities.length ∧
      (start.toList ++ made.map Prod.fst).Pairwise AtMost ∧
      (∀ others, priorities.Perm others → ∃ reordered,
        transitions? start others = .ok reordered ∧ reached start reordered = reached start made) ∧
      ((∀ ceiling, start ≠ some (contended ceiling)) →
        ((∃ ceiling, reached start made = some (contended ceiling)) ↔
          ∃ transition ∈ made, transition.2 = true)) := by
  refine ⟨transitions start priorities, transitions?_eq_ok level nonneg,
    length_transitions start priorities, pairwise_transitions start priorities,
    fun others same => ?_, fun uncontended => ?_⟩
  · have hothers : ∀ priority ∈ others, 0 ≤ priority := by
      simpa only [same.mem_iff] using nonneg
    refine ⟨transitions start others, transitions?_eq_ok level hothers, ?_⟩
    rw [reached_transitions, reached_transitions, after_of_perm start same]
  · have hstart : start.any isContended = false := by
      rw [Bool.eq_false_iff]
      intro hcontended
      obtain ⟨ceiling, hceiling⟩ := Ownerships.isContended_iff.mp hcontended
      exact uncontended ceiling hceiling
    rw [reached_transitions, ← Ownerships.isContended_iff, isContended_after, hstart,
      Bool.or_false, List.any_eq_true]

theorem ascends_coOwned :
    (∀ ownership, some (coOwned 2) = some ownership → 0 ≤ ownership.level) ∧
      (∀ priority ∈ [2, 5, 0], (0 : Int) ≤ priority) ∧
      ∃ made, transitions? (some (coOwned 2)) [2, 5, 0] = .ok made ∧
        reached (some (coOwned 2)) made = some (contended 5) ∧
        (coOwned 2 :: made.map Prod.fst).Pairwise AtMost ∧
        (∃ transition ∈ made, transition.2 = true) ∧
        ∃ reordered, transitions? (some (coOwned 2)) [0, 2, 5] = .ok reordered ∧
          reached (some (coOwned 2)) reordered = some (contended 5) := by
  have hlevel : ∀ ownership, some (coOwned 2) = some ownership → 0 ≤ ownership.level := by
    rintro ownership ⟨⟩
    decide
  have hnonneg : ∀ priority ∈ [2, 5, 0], (0 : Int) ≤ priority := by decide
  obtain ⟨made, hmade, -, hascends, hreordered, hreported⟩ := ascends_in_any_order hlevel hnonneg
  obtain ⟨reordered, hothers, hsame⟩ := hreordered [0, 2, 5] (by decide)
  have hreached : reached (some (coOwned 2)) made = some (contended 5) := by
    obtain rfl := Except.ok.inj ((transitions?_eq_ok hlevel hnonneg).symm.trans hmade)
    decide
  exact ⟨hlevel, hnonneg, made, hmade, hreached, hascends,
    (hreported nofun).mp ⟨5, hreached⟩, reordered, hothers, hsame.trans hreached⟩

end StackPolicy.Ownership
