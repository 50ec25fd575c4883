/-
Files grouped by language. Entering a file into rows that ascend by language leaves them ascending
(`Ascending.enter`) and adds the file to the row of its language and to no other: over the rows of any
languages, the columns grow by the file if it is in one of these, and stay as they were if it is not
(`sum_enter`). By induction on the files, the rows of a group ascend, there is one for each language that
occurs, and each holds the sums over the files of its language (`totals_of_mem_group`); all rows together
hold the sums over all files (`ofLanguages_group`).
-/
import LineCensus.Proofs.Saturation
import Mathlib.Data.List.Induction
import Mathlib.Data.String.Basic

namespace LineCensus.LanguageTotals

variable {s : Summary} {ss : List Summary} {row : LanguageTotals} {rows : List LanguageTotals} {language : String}

/-- Rows in strict order of their languages. -/
def Ascending (rows : List LanguageTotals) : Prop := rows.Pairwise fun a b => a.language < b.language

/-! ## Entering a file -/

@[simp] theorem language_add (row : LanguageTotals) (s : Summary) : (row.add s).language = row.language := rfl

theorem totals_add (row : LanguageTotals) (s : Summary) : (row.add s).totals = row.totals + .ofSummary s := by
  simp only [totals, add, Totals.ofSummary, Totals.add_def, Count.increment_eq]

theorem totals_new (s : Summary) : (add { language := s.language } s).totals = .ofSummary s := by
  rw [totals_add]
  exact zero_add _

theorem mem_languages_enter :
    language ∈ (enter s rows).map LanguageTotals.language ↔
      language = s.language ∨ language ∈ rows.map LanguageTotals.language := by
  induction rows with
  | nil => simp [enter]
  | cons row rows ih =>
    rw [enter]
    split
    next => simp
    next heq =>
      rw [compare_eq_iff_eq] at heq
      simp [heq]
    next =>
      rw [List.map_cons, List.mem_cons, ih, List.map_cons, List.mem_cons]
      exact or_left_comm

theorem Ascending.enter (h : Ascending rows) (s : Summary) : Ascending (enter s rows) := by
  induction rows with
  | nil => exact List.pairwise_singleton _ _
  | cons row rows ih =>
    obtain ⟨hrow, hrows⟩ := List.pairwise_cons.1 h
    rw [LanguageTotals.enter]
    split
    next hlt =>
      rw [compare_lt_iff_lt] at hlt
      refine List.pairwise_cons.2 ⟨?_, h⟩
      rw [List.forall_mem_cons]
      exact ⟨hlt, fun b hb => lt_trans hlt (hrow b hb)⟩
    next => exact List.pairwise_cons.2 ⟨hrow, hrows⟩
    next hgt =>
      rw [compare_gt_iff_gt] at hgt
      refine List.pairwise_cons.2 ⟨fun b hb => ?_, ih hrows⟩
      rcases mem_languages_enter.1 (List.mem_map_of_mem hb) with hb | hb
      · exact hb ▸ hgt
      · obtain ⟨c, hc, hb⟩ := List.mem_map.1 hb
        exact hb ▸ hrow c hc

/-- A file counts in the row of its language and in no other. -/
theorem sum_enter (p : String → Bool) (s : Summary) (rows : List LanguageTotals) :
    (((enter s rows).filter (p ·.language)).map totals).sum =
      ((rows.filter (p ·.language)).map totals).sum + if p s.language then .ofSummary s else 0 := by
  induction rows with
  | nil =>
    rw [enter, List.filter_cons, language_add]
    split <;> simp [totals_new]
  | cons row rows ih =>
    rw [enter]
    split
    next =>
      rw [List.filter_cons, language_add]
      split
      · rw [List.map_cons, List.sum_cons, totals_new, add_comm]
      · rw [add_zero]
    next heq =>
      rw [compare_eq_iff_eq] at heq
      rw [List.filter_cons, List.filter_cons, language_add, heq]
      split
      · rw [List.map_cons, List.map_cons, List.sum_cons, List.sum_cons, totals_add, add_right_comm]
      · rw [add_zero]
    next =>
      rw [List.filter_cons, List.filter_cons]
      split
      · rw [List.map_cons, List.map_cons, List.sum_cons, List.sum_cons, ih, add_assoc]
      · exact ih

/-! ## Groups -/

theorem group_concat (ss : List Summary) (s : Summary) : group (ss ++ [s]) = enter s (group ss) := List.foldl_concat ..

theorem ascending_group (ss : List Summary) : Ascending (group ss) := by
  induction ss using List.reverseRecOn with
  | nil => exact .nil
  | append_singleton ss s ih =>
    rw [group_concat]
    exact ih.enter s

theorem mem_languages_group :
    language ∈ (group ss).map LanguageTotals.language ↔ ∃ s ∈ ss, s.language = language := by
  induction ss using List.reverseRecOn with
  | nil => simp [group]
  | append_singleton ss s ih =>
    rw [group_concat, mem_languages_enter, ih]
    simp only [List.mem_append, List.mem_singleton, or_and_right, exists_or, exists_eq_left]
    rw [or_comm, eq_comm]

theorem sum_group (p : String → Bool) (ss : List Summary) :
    (((group ss).filter (p ·.language)).map totals).sum = .ofSummaries (ss.filter (p ·.language)) := by
  rw [Totals.ofSummaries_eq_sum]
  induction ss using List.reverseRecOn with
  | nil => rfl
  | append_singleton ss s ih =>
    rw [group_concat, sum_enter, ih, List.filter_append, List.map_append, List.sum_append, List.filter_cons]
    split <;> simp

theorem Ascending.filter_language (h : Ascending rows) (hrow : row ∈ rows) :
    rows.filter (·.language == row.language) = [row] := by
  obtain ⟨before, after, rfl⟩ := List.append_of_mem hrow
  rw [Ascending, List.pairwise_append, List.pairwise_cons] at h
  obtain ⟨-, ⟨hafter, -⟩, hbefore⟩ := h
  have hnone : before.filter (·.language == row.language) = [] := by
    simp only [List.filter_eq_nil_iff, beq_iff_eq]
    exact fun b hb => (hbefore b hb row List.mem_cons_self).ne
  have hnone' : after.filter (·.language == row.language) = [] := by
    simp only [List.filter_eq_nil_iff, beq_iff_eq]
    exact fun a ha => (hafter a ha).ne'
  rw [List.filter_append, List.filter_cons, if_pos (beq_self_eq_true _), hnone, hnone', List.nil_append]

/-- **A row holds the sums over the files of its language.** -/
theorem totals_of_mem_group (h : row ∈ group ss) :
    row.totals = .ofSummaries (ss.filter (·.language == row.language)) := by
  have hsum := sum_group (· == row.language) ss
  rw [(ascending_group ss).filter_language h, List.map_singleton, List.sum_singleton] at hsum
  exact hsum

/-- **The rows together hold the sums over all files.** -/
theorem ofLanguages_group (ss : List Summary) : Totals.ofLanguages (group ss) = .ofSummaries ss := by
  have hsum := sum_group (fun _ => true) ss
  rw [List.filter_true, List.filter_true] at hsum
  rw [Totals.ofLanguages_eq_sum, hsum]

end LineCensus.LanguageTotals
