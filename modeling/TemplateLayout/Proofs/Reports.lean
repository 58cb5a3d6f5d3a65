import TemplateLayout.Proofs.Edits
import TemplateLayout.Proofs.Lines
import TemplateLayout.Report

/-! # What a report shows
A source is held against its formatted text as a whole, and the diff is made of their lines. Two
texts may have the same lines and differ in their breaks: then the report says that the source would
be reformatted, and has no change to show.

* `Report.changed_check`, `Report.diff_check_eq_nil_iff` — verdict and diff of a check;
* `Report.length_lines_eq_one_iff` — when a report is its verdict alone;
* `Report.changed_iff_diff` — when verdict and diff agree.
-/

namespace TemplateLayout.Report

open Text

variable {source formatted : Text} {name : Option Text} {r : Report} {on : Bool}

theorem changed_check : (check source formatted name).changed = true ↔ source ≠ formatted := by
  unfold check
  split
  · next h => exact iff_of_false Bool.false_ne_true fun hne => hne h
  · next h => exact iff_of_true rfl h

/-- A diff that has lines is no empty text. -/
theorem joinLines_unified_eq_nil_iff {left right : List Text} {leftName rightName : Text} :
    joinLines (Alignment.unified left right leftName rightName) = [] ↔ left = right := by
  refine Iff.trans ?_ (Alignment.unified_eq_nil_iff left right leftName rightName)
  unfold Alignment.unified
  split
  · exact iff_of_true rfl rfl
  · rw [joinLines_cons]
    exact iff_of_false (List.cons_ne_nil _ _) (List.cons_ne_nil _ _)

/-- **The diff is empty exactly if the lines are the same.** -/
theorem diff_check_eq_nil_iff :
    (check source formatted name).diff = [] ↔ splitLines source = splitLines formatted := by
  unfold check
  split
  · next h => exact iff_of_true rfl (congrArg splitLines h)
  · exact joinLines_unified_eq_nil_iff

/-- A report is **its verdict alone** unless there is a change with a diff. -/
theorem length_lines_eq_one_iff :
    (r.lines on).length = 1 ↔ (r.changed = true → r.diff = []) := by
  unfold lines
  split
  · next h =>
    rw [List.length_cons, List.length_map, Nat.add_eq_right, List.length_eq_zero_iff,
      splitLines_eq_nil_iff, h]
    exact ⟨fun hdiff _ => hdiff, fun hdiff => hdiff rfl⟩
  · next h => exact iff_of_true rfl fun hchanged => absurd hchanged h

/-- **When a report shows a diff.** A check says that a source changes exactly if the formatted text
is another text, and its diff is empty exactly if that has the same lines. So verdict and diff agree
on a source exactly if no other text with its lines is held against it; and in every case a report
is one line exactly if the lines are the same. -/
theorem changed_iff_diff (source formatted : Text) (name : Option Text) :
    ((check source formatted name).changed = true ↔ source ≠ formatted) ∧
      ((check source formatted name).diff = [] ↔ splitLines source = splitLines formatted) ∧
      (((check source formatted name).changed = true ↔ (check source formatted name).diff ≠ []) ↔
        (splitLines source = splitLines formatted → source = formatted)) ∧
      ∀ on, ((check source formatted name).lines on).length = 1 ↔
        splitLines source = splitLines formatted := by
  have hchanged : (check source formatted name).changed = true ↔ _ := changed_check
  have hdiff : (check source formatted name).diff = [] ↔ _ := diff_check_eq_nil_iff
  have hlines : source = formatted → splitLines source = splitLines formatted := congrArg splitLines
  refine ⟨hchanged, hdiff, ?_, fun on => ?_⟩
  · rw [hchanged, Ne, Ne, hdiff, Decidable.not_iff_not]
    exact ⟨Iff.mpr, fun h => ⟨hlines, h⟩⟩
  · rw [length_lines_eq_one_iff, hchanged, hdiff]
    exact ⟨fun h => Decidable.byCases hlines h, fun h _ => h⟩

/-- A source that differs from its formatted text by the break behind its last line is said to change
with nothing to show. -/
theorem changed_without_diff :
    check "a\n".toText "a".toText none = ⟨unnamed, true, []⟩ ∧
      (check "a\n".toText "a".toText none).lines false =
        ["<template>: would reformat".toText] := by
  decide +kernel

end TemplateLayout.Report
