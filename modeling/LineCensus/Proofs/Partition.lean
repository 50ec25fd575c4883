/-
Grouping by language loses nothing and counts nothing twice. As counters stay at their limit, a sum of
them is the exact sum brought down to the limit, however many times the limit was met on the way
(`Totals.isSumOf_ofSummaries`). A row of a group is one that stands for a language that occurs and holds
the sums over its files (`LanguageTotals.mem_group_iff`), which says nothing of the order in which the
files came; and rows that ascend are determined by which there are (`LanguageTotals.group_eq_of_perm`).
-/
import LineCensus.Proofs.LanguageRows
import Mathlib.Algebra.GroupWithZero.Nat
import Mathlib.Data.List.Sort

namespace LineCensus

variable {ss ss' : List Summary} {row row' : LanguageTotals}

/-! ## Exact sums -/

theorem Count.value_eq_min (a : Count) : a.value = min a.value limit := (Nat.min_eq_left a.value_le_limit).symm

/-- What is brought down to the limit may be added up before or after. -/
theorem Count.value_add_of_eq {a b : Count} {n m : Nat} (ha : a.value = min n limit) (hb : b.value = min m limit) :
    (a + b).value = min (n + m) limit := by
  rw [value_add, ha, hb]
  generalize limit = l
  omega

namespace Totals

/-- Each column holds what the files add up to exactly, as far as a counter goes. -/
structure IsSumOf (t : Totals) (ss : List Summary) : Prop where
  files : t.files.value = min ss.length Count.limit
  blanks : t.blanks.value = min (ss.map (·.blanks.value)).sum Count.limit
  comments : t.comments.value = min (ss.map (·.comments.value)).sum Count.limit
  code : t.code.value = min (ss.map (·.code.value)).sum Count.limit

theorem ofSummaries_concat (ss : List Summary) (s : Summary) :
    ofSummaries (ss ++ [s]) = ofSummaries ss + .ofSummary s := by
  rw [ofSummaries_eq_sum, ofSummaries_eq_sum, List.map_append, List.sum_append, List.map_singleton, List.sum_singleton]

theorem IsSumOf.concat {t : Totals} (h : t.IsSumOf ss) (s : Summary) : (t + .ofSummary s).IsSumOf (ss ++ [s]) where
  files := by simpa [add_def, ofSummary] using Count.value_add_of_eq h.files (Count.value_ofNat 1)
  blanks := by simpa [add_def, ofSummary] using Count.value_add_of_eq h.blanks s.blanks.value_eq_min
  comments := by simpa [add_def, ofSummary] using Count.value_add_of_eq h.comments s.comments.value_eq_min
  code := by simpa [add_def, ofSummary] using Count.value_add_of_eq h.code s.code.value_eq_min

theorem isSumOf_ofSummaries (ss : List Summary) : (ofSummaries ss).IsSumOf ss := by
  induction ss using List.reverseRecOn with
  | nil => constructor <;> simp [ofSummaries]
  | append_singleton ss s ih =>
    rw [ofSummaries_concat]
    exact ih.concat s

end Totals

/-! ## Groups -/

namespace LanguageTotals

theorem ext (hlanguage : row.language = row'.language) (htotals : row.totals = row'.totals) : row = row' := by
  cases row
  cases row'
  cases hlanguage
  cases htotals
  rfl

theorem mem_group_iff : row ∈ group ss ↔ (∃ s ∈ ss, s.language = row.language) ∧
    row.totals = .ofSummaries (ss.filter (·.language == row.language)) := by
  constructor
  · intro h
    exact ⟨mem_languages_group.1 (List.mem_map_of_mem h), totals_of_mem_group h⟩
  · rintro ⟨hlanguage, htotals⟩
    obtain ⟨row', hrow', heq⟩ := List.mem_map.1 (mem_languages_group.2 hlanguage)
    have hrow : row' = row := ext heq (by rw [totals_of_mem_group hrow', htotals, heq])
    exact hrow ▸ hrow'

/-- The order of the files does not count. -/
theorem group_eq_of_perm (h : ss'.Perm ss) : group ss' = group ss := by
  have : Std.Irrefl fun a b : LanguageTotals => a.language < b.language := ⟨fun _ => lt_irrefl _⟩
  refine List.Pairwise.eq_of_mem_iff (ascending_group ss') (ascending_group ss) fun {row} => ?_
  rw [mem_group_iff, mem_group_iff, Totals.ofSummaries_eq_of_perm (h.filter _)]
  simp only [h.mem_iff]

/-- **Grouping is a partition, and all sums agree.** The rows are those of the languages that occur, in
strict order of their names, and each holds what the files of its language add up to, those that could
not be read included; the order of the files makes no difference. The rows, in any order, add up to what
all files add up to. All of these sums are exact up to the limit of counters, and the limit beyond. -/
theorem group_partition (ss : List Summary) :
    ((group ss).map LanguageTotals.language).Pairwise (· < ·) ∧
    (∀ language, language ∈ (group ss).map LanguageTotals.language ↔ ∃ s ∈ ss, s.language = language) ∧
    (∀ row ∈ group ss, row.totals.IsSumOf (ss.filter (·.language == row.language))) ∧
    (∀ ss', ss'.Perm ss → group ss' = group ss) ∧
    (∀ rows, rows.Perm (group ss) → Totals.ofLanguages rows = .ofSummaries ss) ∧
    (Totals.ofSummaries ss).IsSumOf ss := by
  refine ⟨List.pairwise_map.2 (ascending_group ss), fun _ => mem_languages_group, fun row hrow => ?_,
    fun _ => group_eq_of_perm, fun rows hrows => ?_, Totals.isSumOf_ofSummaries ss⟩
  · rw [totals_of_mem_group hrow]
    exact Totals.isSumOf_ofSummaries _
  · rw [Totals.ofLanguages_eq_of_perm hrows, ofLanguages_group]

/-- Files of two languages, one of them with as many lines as can be counted and one that could not be read. -/
def endlessFile : List Summary :=
  [{ name := "a.c", language := "C", code := .ofNat Count.limit, comments := .ofNat 2 },
    { name := "c.py", language := "Python", code := .ofNat 1, blanks := .ofNat 3 }, .unreadable "d.c" "C",
    { name := "b.c", language := "C", code := .ofNat 7 }]

theorem group_partition_endlessFile :
    let c : LanguageTotals :=
      { language := "C", files := .ofNat 3, comments := .ofNat 2, code := .ofNat (2 ^ 64 - 1) }
    let python : LanguageTotals := { language := "Python", files := .ofNat 1, blanks := .ofNat 3, code := .ofNat 1 }
    c ∈ group endlessFile ∧ c.totals.IsSumOf (endlessFile.filter (·.language == "C")) ∧
      endlessFile.reverse.Perm endlessFile ∧ group endlessFile.reverse = group endlessFile ∧
      [python, c].Perm (group endlessFile) ∧ Totals.ofLanguages [python, c] = .ofSummaries endlessFile ∧
      (Totals.ofSummaries endlessFile).code.value = 2 ^ 64 - 1 := by
  intro c python
  have hgroup : group endlessFile = [c, python] := by decide
  have hmem : c ∈ group endlessFile := by simp [hgroup]
  have hperm : [python, c].Perm (group endlessFile) := hgroup ▸ .swap _ _ _
  obtain ⟨-, -, hrow, horder, hrows, htotals⟩ := group_partition endlessFile
  exact ⟨hmem, hrow c hmem, List.reverse_perm _, horder _ (List.reverse_perm _), hperm, hrows _ hperm, by decide⟩

end LanguageTotals

end LineCensus
