import Mathlib.Data.List.Induction
import StackPolicy.Settings

/-!
# The nearest project file

The file that holds for a folder stands in the folder itself or in the first
folder above it that has one.  No other file is looked at.
-/

namespace StackPolicy.Project

/-- Whether `place`, at `folder` or above it, has a file, and no folder that is nearer has one. -/
structure Nearest (project : Project) (folder place : List String) (file : ProjectFile) :
    Prop where
  above : place <+: folder
  found : project.files.get? place = some file
  nearer : ∀ between, place <+: between → between <+: folder → between ≠ place →
    project.files.get? between = none

/-- Whether two projects have the same files in all folders from `folder` up to `place`. -/
structure SameUpTo (project other : Project) (folder place : List String) : Prop where
  root : other.root = project.root
  files : ∀ between, place <+: between → between <+: folder →
    other.files.get? between = project.files.get? between

variable {project other : Project} {folder place : List String} {file : ProjectFile}

/-! ## Folders upwards -/

theorem upwards_concat (folder : List String) (step : String) :
    upwards (folder ++ [step]) = (folder ++ [step]) :: upwards folder := by
  have hlength : (folder ++ [step]).length = folder.length + 1 := by simp
  have hwhole : (folder ++ [step]).take (folder.length + 1 - 0) = folder ++ [step] :=
    List.take_of_length_le (by simp)
  have hshorter (count : Nat) :
      (folder ++ [step]).take (folder.length + 1 - (count + 1)) =
        folder.take (folder.length - count) := by
    rw [Nat.add_sub_add_right]
    exact List.take_append_of_le_length (Nat.sub_le _ _)
  unfold upwards
  rw [hlength, List.range_succ_eq_map, List.map_cons, List.map_map, hwhole]
  simp only [Function.comp_def, Nat.succ_eq_add_one, hshorter]

theorem nearest?_concat (project : Project) (folder : List String) (step : String) :
    project.nearest? (folder ++ [step]) =
      ((project.files.get? (folder ++ [step])).map fun file => (folder ++ [step], file)).or
        (project.nearest? folder) := by
  unfold nearest?
  rw [upwards_concat, List.findSome?_cons]
  cases project.files.get? (folder ++ [step]) <;> rfl

theorem nearest?_eq_none_iff :
    project.nearest? folder = none ↔
      ∀ place, place <+: folder → project.files.get? place = none := by
  induction folder using List.reverseRecOn with
  | nil =>
      simp only [List.prefix_nil, forall_eq]
      cases h : project.files.get? [] <;> simp [nearest?, upwards, h]
  | append_singleton folder step ih =>
      rw [nearest?_concat, Option.or_eq_none_iff, Option.map_eq_none_iff, ih]
      simp only [List.prefix_concat_iff, forall_eq_or_imp]

/-! ## Search -/

theorem nearest_concat_iff {step : String} :
    project.Nearest (folder ++ [step]) place file ↔
      (place = folder ++ [step] ∧ project.files.get? place = some file) ∨
      (project.files.get? (folder ++ [step]) = none ∧ project.Nearest folder place file) := by
  constructor
  · rintro ⟨habove, hfound, hnearer⟩
    by_cases hhere : place = folder ++ [step]
    · exact .inl ⟨hhere, hfound⟩
    · have hnone := hnearer (folder ++ [step]) habove (List.prefix_refl _) (Ne.symm hhere)
      have habove_folder := (List.prefix_concat_iff.mp habove).resolve_left hhere
      exact .inr ⟨hnone, habove_folder, hfound, fun between hplace hfolder =>
        hnearer between hplace (hfolder.trans (List.prefix_append folder [step]))⟩
  · rintro (⟨rfl, hfound⟩ | ⟨hnone, habove, hfound, hnearer⟩)
    · refine ⟨List.prefix_refl _, hfound, fun between hplace hfolder hne => ?_⟩
      exact absurd (List.IsPrefix.eq_of_length_le hfolder hplace.length_le) hne
    · refine ⟨habove.trans (List.prefix_append folder [step]), hfound,
        fun between hplace hfolder hne => ?_⟩
      rcases List.prefix_concat_iff.mp hfolder with rfl | hbetween
      · exact hnone
      · exact hnearer between hplace hbetween hne

theorem nearest?_eq_some_iff :
    project.nearest? folder = some (place, file) ↔ project.Nearest folder place file := by
  -- the search goes upwards, so the induction takes the last step of the folder off
  induction folder using List.reverseRecOn with
  | nil =>
      have hhere : project.nearest? [] = (project.files.get? []).map fun file => ([], file) := by
        cases h : project.files.get? [] <;> simp [nearest?, upwards, h]
      rw [hhere, Option.map_eq_some_iff]
      constructor
      · rintro ⟨_, hfound, ⟨⟩⟩
        exact ⟨List.prefix_refl _, hfound, fun between _ hfolder hne =>
          absurd (List.prefix_nil.mp hfolder) hne⟩
      · rintro ⟨habove, hfound, -⟩
        obtain rfl := List.prefix_nil.mp habove
        exact ⟨file, hfound, rfl⟩
  | append_singleton folder step ih =>
      rw [nearest?_concat, nearest_concat_iff, ← ih]
      cases hhere : project.files.get? (folder ++ [step]) with
      | none =>
          rw [Option.map_none, Option.none_or]
          refine ⟨fun h => .inr ⟨rfl, h⟩, ?_⟩
          rintro (⟨rfl, hfound⟩ | ⟨-, h⟩)
          · rw [hhere] at hfound
            cases hfound
          · exact h
      | some here =>
          rw [Option.map_some, Option.some_or, Option.some.injEq]
          constructor
          · rintro ⟨⟩
            exact .inl ⟨rfl, hhere⟩
          · rintro (⟨rfl, hfound⟩ | ⟨⟨⟩, -⟩)
            rw [hhere] at hfound
            cases hfound
            rfl

theorem Nearest.of_sameUpTo (h : project.Nearest folder place file)
    (same : project.SameUpTo other folder place) : other.Nearest folder place file := by
  refine ⟨h.above, ?_, fun between hplace hfolder hne => ?_⟩
  · rw [same.files place (List.prefix_refl place) h.above]
    exact h.found
  · rw [same.files between hplace hfolder]
    exact h.nearer between hplace hfolder hne

end StackPolicy.Project
