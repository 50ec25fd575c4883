/-
Counters that stay at their limit, added up. Adding them is associative and commutative, also where
the limit is reached (`Count.instAddCommMonoid`), so a sum depends neither on the order in which its
summands come nor on how they are grouped. The sums over files and over rows of languages are such
sums, one in each column (`Totals.ofSummaries_eq_sum`, `Totals.ofLanguages_eq_sum`).
-/
import LineCensus.Totals
import Mathlib.Algebra.BigOperators.Group.List.Basic

namespace LineCensus

instance Count.instAddCommMonoid : AddCommMonoid Count where
  add_assoc a b c := Count.eq_of_value_eq (by simp only [Count.value_add]; omega)
  add_comm a b := Count.eq_of_value_eq (by simp only [Count.value_add]; omega)
  zero_add a := Count.eq_of_value_eq (by have := a.value_le_limit; simp only [Count.value_add, Count.value_zero]; omega)
  add_zero a := Count.eq_of_value_eq (by have := a.value_le_limit; simp only [Count.value_add, Count.value_zero]; omega)
  nsmul := nsmulRec

theorem Count.increment_eq (a : Count) : a.increment = a + .ofNat 1 := by
  apply Count.eq_of_value_eq
  have := a.value_le_limit
  simp only [value_increment, value_add, value_ofNat]
  omega

/-- The columns of a row. -/
def LanguageTotals.totals (row : LanguageTotals) : Totals := ⟨row.files, row.blanks, row.comments, row.code⟩

namespace Totals

instance : Zero Totals := ⟨{}⟩
instance : Add Totals :=
  ⟨fun t u => ⟨t.files + u.files, t.blanks + u.blanks, t.comments + u.comments, t.code + u.code⟩⟩

theorem add_def (t u : Totals) :
    t + u = ⟨t.files + u.files, t.blanks + u.blanks, t.comments + u.comments, t.code + u.code⟩ := rfl

theorem zero_def : (0 : Totals) = ⟨0, 0, 0, 0⟩ := rfl

instance : AddCommMonoid Totals where
  add_assoc t u v := by simp only [add_def, add_assoc]
  add_comm t u := by simp only [add_def, add_comm]
  zero_add t := by simp only [add_def, zero_def, zero_add]
  add_zero t := by simp only [add_def, zero_def, add_zero]
  nsmul := nsmulRec

/-- What one file adds to the columns. -/
def ofSummary (s : Summary) : Totals := ⟨.ofNat 1, s.blanks, s.comments, s.code⟩

theorem ofSummaries_eq_sum (ss : List Summary) : ofSummaries ss = (ss.map ofSummary).sum := by
  rw [List.sum_eq_foldl, List.foldl_map]
  simp only [ofSummaries, Count.increment_eq]
  rfl

theorem ofLanguages_eq_sum (rows : List LanguageTotals) : ofLanguages rows = (rows.map LanguageTotals.totals).sum := by
  rw [List.sum_eq_foldl, List.foldl_map]
  rfl

/-- The order of the files does not count. -/
theorem ofSummaries_eq_of_perm {ss ss' : List Summary} (h : ss.Perm ss') : ofSummaries ss = ofSummaries ss' := by
  rw [ofSummaries_eq_sum, ofSummaries_eq_sum, (h.map ofSummary).sum_eq]

theorem ofLanguages_eq_of_perm {rows rows' : List LanguageTotals} (h : rows.Perm rows') :
    ofLanguages rows = ofLanguages rows' := by
  rw [ofLanguages_eq_sum, ofLanguages_eq_sum, (h.map LanguageTotals.totals).sum_eq]

end Totals

end LineCensus
