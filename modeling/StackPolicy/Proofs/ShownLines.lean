import StackPolicy.Console

/-!
# Shown lines

Showing lines stops at the first one that cannot be read.  The lines in front of
it have been shown then, and those behind it never are.
-/

namespace StackPolicy.Markup

/-- Whether every one of these lines can be read. -/
def Readable (markup : Markup) (lines : List Line) : Prop :=
  ∀ line ∈ lines, markup.fault? line.text = none

/-- Whether the line that comes after the lines `shown` is the first that cannot be read. -/
def Stops (markup : Markup) (lines shown : List Line) (failure : Failure) : Prop :=
  markup.Readable shown ∧ ∃ line rest fault, lines = shown ++ line :: rest ∧
    markup.fault? line.text = some fault ∧ failure = .unreadable fault

variable {markup : Markup} {line : Line} {lines more shown : List Line} {failure : Failure}

/-! ## Readable lines -/

theorem readable_nil : markup.Readable [] := fun _ member => nomatch member

theorem readable_cons_iff :
    markup.Readable (line :: lines) ↔ markup.fault? line.text = none ∧ markup.Readable lines :=
  List.forall_mem_cons

theorem readable_append_iff :
    markup.Readable (lines ++ more) ↔ markup.Readable lines ∧ markup.Readable more :=
  List.forall_mem_append

theorem readable_of_plain (plain : ∀ line ∈ lines, '[' ∉ line.text.toList) :
    markup.Readable lines := fun line member => markup.plain line.text (plain line member)

/-! ## Showing -/

theorem displayAll_cons_of_none (read : markup.fault? line.text = none) :
    markup.displayAll (line :: lines) =
      (line :: (markup.displayAll lines).1, (markup.displayAll lines).2) := by
  simp only [displayAll, display, read]

theorem displayAll_cons_of_some {fault : String} (unread : markup.fault? line.text = some fault) :
    markup.displayAll (line :: lines) = ([], .error (.unreadable fault)) := by
  simp only [displayAll, display, unread]

theorem displayAll_of_readable (readable : markup.Readable lines) :
    markup.displayAll lines = (lines, .ok ()) := by
  induction lines with
  | nil => rfl
  | cons line lines ih =>
      obtain ⟨hline, hlines⟩ := readable_cons_iff.mp readable
      rw [displayAll_cons_of_none hline, ih hlines]

theorem displayAll_of_stops (stops : markup.Stops lines shown failure) :
    markup.displayAll lines = (shown, .error failure) := by
  obtain ⟨hshown, line, rest, fault, rfl, hfault, rfl⟩ := stops
  induction shown with
  | nil => exact displayAll_cons_of_some hfault
  | cons first shown ih =>
      obtain ⟨hfirst, hshown⟩ := readable_cons_iff.mp hshown
      rw [List.cons_append, displayAll_cons_of_none hfirst, ih hshown]

theorem readable_or_stops (markup : Markup) (lines : List Line) :
    markup.Readable lines ∨ ∃ shown failure, markup.Stops lines shown failure := by
  induction lines with
  | nil => exact .inl readable_nil
  | cons line lines ih =>
      cases hfault : markup.fault? line.text with
      | some fault =>
          exact .inr ⟨[], _, readable_nil, line, lines, fault, rfl, hfault, rfl⟩
      | none =>
          rcases ih with hlines | ⟨shown, _, hshown, next, rest, fault, rfl, hnext, rfl⟩
          · exact .inl (readable_cons_iff.mpr ⟨hfault, hlines⟩)
          · exact .inr ⟨line :: shown, _, readable_cons_iff.mpr ⟨hfault, hshown⟩, next, rest,
              fault, rfl, hnext, rfl⟩

/-- What comes behind the first line that cannot be read does not matter. -/
theorem Stops.append (stops : markup.Stops lines shown failure) (more : List Line) :
    markup.Stops (lines ++ more) shown failure := by
  obtain ⟨hshown, line, rest, fault, rfl, hfault, hfailure⟩ := stops
  exact ⟨hshown, line, rest ++ more, fault, by simp, hfault, hfailure⟩

/-! ## One fault -/

/-- A console that finds a fault in one text with a bracket, and in no other text. -/
def faultIn (text fault : String) (bracket : '[' ∈ text.toList) : Markup where
  fault? other := if other = text then some fault else none
  plain other plain := if_neg fun same : other = text => plain (same ▸ bracket)

theorem fault?_faultIn {text fault : String} (bracket : '[' ∈ text.toList) :
    (faultIn text fault bracket).fault? text = some fault := if_pos rfl

end StackPolicy.Markup
