/-
Totals of lines. Each counter stays at its limit, but the three are added as one machine word. While they
come to less than a word together, the total is that sum, so it is at least each of them and does not go
down (`Tally.faithfulTotals_of_lt`). With the line by which they come to a word it begins again at zero,
which is below a counter, and below the total before that line (`Tally.faithfulTotals_iff`).

A tally is taken with its history, the kinds of the lines recorded in it (`Tally.Recorded`). The tally of
a scan has the kinds of its lines for a history (`Scanner.recorded_feedAll`), and texts of fewer lines than
words have values come to no such line (`Scanner.total_feedAll`).
-/
import LineCensus.Proofs.Run
import LineCensus.Summary
import Mathlib.Data.List.Induction

namespace LineCensus

namespace Tally

variable {ks : List LineKind} {t : Tally}

/-- What lines of these kinds come to, recorded in this order. Indentation may be added at any time. -/
inductive Recorded : List LineKind → Tally → Prop
  | start : Recorded [] {}
  | record {ks : List LineKind} {t : Tally} (h : Recorded ks t) (k : LineKind) : Recorded (ks ++ [k]) (t.record k)
  | addIndent {ks : List LineKind} {t : Tally} (h : Recorded ks t) (amount : Int) : Recorded ks (t.addIndent amount)

/-- The counters added up as numbers. -/
def lines (t : Tally) : Nat := (t.count .code).value + (t.count .comment).value + (t.count .blank).value

/-- The lines of these kinds that are counted, each kind up to the limit. -/
def countable (ks : List LineKind) : Nat :=
  min (ks.count .code) Count.limit + min (ks.count .comment) Count.limit + min (ks.count .blank) Count.limit

/-! ## Counters -/

theorem count_le_lines (t : Tally) (k : LineKind) : (t.count k).value ≤ t.lines := by
  cases k <;> simp only [lines] <;> omega

theorem Recorded.count_eq (h : Recorded ks t) (k : LineKind) : (t.count k).value = min (ks.count k) Count.limit := by
  induction h with
  | start => cases k <;> rfl
  | @record ks t _ k' ih =>
    rw [count_record, List.count_append, List.count_singleton]
    by_cases hk : k' = k
    · rw [if_pos hk, if_pos (beq_iff_eq.2 hk), Count.value_increment, ih]
      omega
    · rw [if_neg hk, if_neg (mt beq_iff_eq.1 hk), ih, Nat.add_zero]
  | addIndent _ amount ih => rw [count_addIndent, ih]

theorem Recorded.lines_eq (h : Recorded ks t) : t.lines = countable ks := by
  simp only [lines, countable, h.count_eq]

theorem exists_recorded (ks : List LineKind) : ∃ t, Recorded ks t := by
  induction ks using List.reverseRecOn with
  | nil => exact ⟨{}, .start⟩
  | append_singleton ks k ih =>
    obtain ⟨t, ht⟩ := ih
    exact ⟨t.record k, ht.record k⟩

theorem countable_mono {ks' : List LineKind} (h : ks' <+: ks) : countable ks' ≤ countable ks := by
  have hcount := fun k => h.sublist.count_le k
  have hcode := hcount .code
  have hcomment := hcount .comment
  have hblank := hcount .blank
  simp only [countable]
  omega

/-- With each line the counters come to one more at most. -/
theorem countable_concat_le (ks : List LineKind) (k : LineKind) : countable (ks ++ [k]) ≤ countable ks + 1 := by
  cases k <;> simp only [countable, List.count_append, List.count_singleton] <;> simp <;> omega

theorem countable_eq_length (h : ks.length < wordSize) : countable ks = ks.length := by
  have hlength := Scanner.count_kinds ks
  simp only [countable, Count.limit]
  omega

/-! ## Totals -/

theorem total_eq_mod (t : Tally) : t.total = t.lines % wordSize := rfl

theorem total_eq (h : t.lines < wordSize) : t.total = t.lines := Nat.mod_eq_of_lt h

/-- Totals to be relied on: all along a history, the total of the tally, and of the summary made from it,
is at least each counter, and does not go down when the next line is recorded. -/
structure FaithfulTotals (ks : List LineKind) : Prop where
  bounds {ks' : List LineKind} {t : Tally} : ks' <+: ks → Recorded ks' t → ∀ k, (t.count k).value ≤ t.total
  rises {ks' : List LineKind} {t : Tally} {k : LineKind} : ks' ++ [k] <+: ks → Recorded ks' t →
    t.total ≤ (t.record k).total
  summaryBounds {ks' : List LineKind} {t : Tally} (name language : String) : ks' <+: ks → Recorded ks' t →
    let s := Summary.ofTally name language t
    s.code.value ≤ s.total ∧ s.comments.value ≤ s.total ∧ s.blanks.value ≤ s.total
  summaryRises {ks' : List LineKind} {t : Tally} {k : LineKind} (name language : String) :
    ks' ++ [k] <+: ks → Recorded ks' t →
      (Summary.ofTally name language t).total ≤ (Summary.ofTally name language (t.record k)).total

theorem FaithfulTotals.earlier {ks' : List LineKind} (h : FaithfulTotals ks) (hks : ks' <+: ks) :
    FaithfulTotals ks' where
  bounds hks' := h.bounds (hks'.trans hks)
  rises hks' := h.rises (hks'.trans hks)
  summaryBounds name language hks' := h.summaryBounds name language (hks'.trans hks)
  summaryRises name language hks' := h.summaryRises name language (hks'.trans hks)

theorem faithfulTotals_of_lt (h : countable ks < wordSize) : FaithfulTotals ks := by
  have htotal : ∀ {ks' t}, ks' <+: ks → Recorded ks' t → t.total = countable ks' := by
    intro ks' t hks ht
    have hlines : t.lines < wordSize := by
      rw [ht.lines_eq]
      exact Nat.lt_of_le_of_lt (countable_mono hks) h
    rw [total_eq hlines, ht.lines_eq]
  have hbounds : ∀ {ks' t}, ks' <+: ks → Recorded ks' t → ∀ k, (t.count k).value ≤ t.total := by
    intro ks' t hks ht k
    rw [htotal hks ht, ← ht.lines_eq]
    exact count_le_lines t k
  have hrises : ∀ {ks' t k}, ks' ++ [k] <+: ks → Recorded ks' t → t.total ≤ (t.record k).total := by
    intro ks' t k hks ht
    have hstep : ks' <+: ks' ++ [k] := List.prefix_append ks' [k]
    rw [htotal (hstep.trans hks) ht, htotal hks (ht.record k)]
    exact countable_mono hstep
  -- A summary has the counters of its tally, and adds them up the same way.
  exact {
    bounds := hbounds
    rises := hrises
    summaryBounds := fun _ _ hks ht =>
      ⟨hbounds hks ht .code, hbounds hks ht .comment, hbounds hks ht .blank⟩
    summaryRises := fun _ _ hks ht => hrises hks ht }

/-- With the line by which the counters come to a word, the total goes down to zero. -/
theorem total_record_of_full {k : LineKind} (ht : Recorded ks t) (hlt : countable ks < wordSize)
    (hfull : wordSize ≤ countable (ks ++ [k])) : t.total = Count.limit ∧ (t.record k).total = 0 := by
  have hstep := countable_concat_le ks k
  have hbefore : t.lines = Count.limit := by
    rw [ht.lines_eq, Count.limit]
    omega
  have hafter : (t.record k).lines = wordSize := by
    rw [(ht.record k).lines_eq]
    omega
  rw [total_eq_mod, total_eq_mod, hbefore, hafter]
  exact ⟨by decide, Nat.mod_self wordSize⟩

/-- **Totals are to be relied on exactly as long as the counters come to less than a word together.** -/
theorem faithfulTotals_iff (ks : List LineKind) : FaithfulTotals ks ↔ countable ks < wordSize := by
  refine ⟨fun h => ?_, faithfulTotals_of_lt⟩
  induction ks using List.reverseRecOn with
  | nil => decide
  | append_singleton ks k ih =>
    have hlt : countable ks < wordSize := ih (h.earlier (List.prefix_append ks [k]))
    obtain ⟨t, ht⟩ := exists_recorded ks
    refine Nat.lt_of_not_le fun hfull => ?_
    obtain ⟨hbefore, hafter⟩ := total_record_of_full ht hlt hfull
    have hrises := h.rises List.prefix_rfl ht
    rw [hbefore, hafter] at hrises
    exact absurd hrises (by decide)

theorem countable_replicate_code (n : Nat) : countable (List.replicate n .code) = min n Count.limit := by
  simp [countable, List.count_replicate]

theorem countable_replicate_code_comment (n : Nat) :
    countable (List.replicate n .code ++ [.comment]) = min n Count.limit + 1 := by
  have hone : min 1 Count.limit = 1 := by decide
  simp [countable, List.count_replicate, hone]

/-- As many lines of code as a counter can count, and then a comment. -/
theorem total_wraps_endlessText :
    ∃ t, Recorded (List.replicate Count.limit .code) t ∧ t.total = Count.limit ∧
      ((t.record .comment).count .code).value = Count.limit ∧ (t.record .comment).total = 0 ∧
      (Summary.ofTally "endless" "C" (t.record .comment)).code.value = Count.limit ∧
      (Summary.ofTally "endless" "C" (t.record .comment)).total = 0 := by
  obtain ⟨t, ht⟩ := exists_recorded (List.replicate Count.limit .code)
  have hlt : countable (List.replicate Count.limit .code) < wordSize := by
    rw [countable_replicate_code]
    decide
  have hfull : wordSize ≤ countable (List.replicate Count.limit .code ++ [.comment]) := by
    rw [countable_replicate_code_comment]
    decide
  obtain ⟨hbefore, hafter⟩ := total_record_of_full ht hlt hfull
  have hcode : ((t.record .comment).count .code).value = Count.limit := by
    rw [(ht.record .comment).count_eq, List.count_append, List.count_replicate_self]
    exact Nat.min_eq_right (Nat.le_add_right _ _)
  exact ⟨t, ht, hbefore, hcode, hafter, hcode, hafter⟩

end Tally

namespace Scanner

open Tally

/-- The tally of a scan has recorded the kinds of its lines. -/
theorem recorded_feedAll (g : Grammar) (raws : List (List Char)) :
    Recorded (Scanner.kinds g {} raws) (Scanner.feedAll g {} raws).tally := by
  induction raws using List.reverseRecOn with
  | nil => exact .start
  | append_singleton raws raw ih =>
    rw [kinds_append, feedAll_append]
    have hrecord := ih.record ((Scanner.feedAll g {} raws).classify g raw)
    simp only [kinds, feedAll_cons, feedAll_nil, feed]
    split
    · exact hrecord.addIndent _
    · exact hrecord

/-- **The total of a scan is the number of its lines**, of which there are fewer than words have values. -/
theorem total_feedAll (g : Grammar) {raws : List (List Char)} (h : raws.length < wordSize) :
    (Scanner.feedAll g {} raws).tally.total = raws.length := by
  have hlines : (Scanner.feedAll g {} raws).tally.lines = raws.length := by
    rw [(recorded_feedAll g raws).lines_eq, countable_eq_length, length_kinds]
    rwa [length_kinds]
  rw [total_eq (by rwa [hlines]), hlines]

end Scanner

end LineCensus
