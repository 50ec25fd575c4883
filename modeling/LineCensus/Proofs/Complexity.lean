/-
What the indentation sum of a text is made of. Each line that is code in its own right adds
its measure (`indentation_eq_sum`), which is at least 1, since a line with text is longer than
a quarter of that text (`Line.one_le_indentMeasure`). So the sum only grows, is at least the
number of these lines, and is 0 as long as no line is code.

The complexity of a file divides that sum by the number of code lines. It is not a number
where both are 0, and where there is code it is a number in range (`Binary64.quotient_inRange`).
-/
import LineCensus.Proofs.Interruption
import LineCensus.Proofs.Quotient
import LineCensus.Proofs.Reindentation
import Mathlib.Algebra.Order.BigOperators.Group.List

namespace LineCensus

open Text

theorem Text.one_le_byteLength {cs : List Char} (h : cs ≠ []) : 1 ≤ byteLength cs := by
  cases cs with
  | nil => exact absurd rfl h
  | cons c cs =>
    have hpos := c.utf8Size_pos
    rw [← List.singleton_append, byteLength_append]
    simp only [byteLength, List.foldl_cons, List.foldl_nil]
    omega

/-- A line with text is longer than a quarter of that text. -/
theorem Line.one_le_indentMeasure {l : Line} (h : l.trimmed ≠ []) : 1 ≤ l.indentMeasure := by
  have hle : byteLength l.trimmed ≤ byteLength l.expanded := byteLength_le_of_infix (trim_isInfix l.expanded)
  have hpos := one_le_byteLength h
  rw [indentMeasure]
  omega

namespace Scanner

variable {g : Grammar} {s : Scanner} {raw : List Char} {raws : List (List Char)}

/-! ## The lines that are measured -/

/-- The lines of a run that are code in their own right. -/
def measuredLines (g : Grammar) : Scanner → List (List Char) → List Line
  | _, [] => []
  | s, raw :: raws =>
    let rest := measuredLines g (s.feed g raw) raws
    if s.Measures g raw then Line.ofRaw s.atStart raw :: rest else rest

theorem Measures.trimmed_ne_nil (h : s.Measures g raw) : (Line.ofRaw s.atStart raw).trimmed ≠ [] := by
  intro hnil
  have hblank : s.classify g raw = .blank := by
    rw [classify_eq, verdict, hnil, judge_nil]
  rw [h.1] at hblank
  cases hblank

theorem indentation_eq_sum (g : Grammar) (s : Scanner) (raws : List (List Char)) :
    s.indentation g raws = ((s.measuredLines g raws).map Line.indentMeasure).sum := by
  induction raws generalizing s with
  | nil => rfl
  | cons raw raws ih =>
    rw [indentation, measuredLines, measure, ih]
    by_cases h : s.Measures g raw
    · rw [if_pos (indented_iff.2 h), if_pos h, List.map_cons, List.sum_cons]
    · rw [if_neg (mt indented_iff.1 h), if_neg h, Int.zero_add]

theorem one_le_of_mem_measuredLines {l : Line} (h : l ∈ s.measuredLines g raws) : 1 ≤ l.indentMeasure := by
  induction raws generalizing s with
  | nil => cases h
  | cons raw raws ih =>
    rw [measuredLines] at h
    split at h
    next hmeasures =>
      rcases List.mem_cons.1 h with rfl | hrest
      · exact Line.one_le_indentMeasure hmeasures.trimmed_ne_nil
      · exact ih hrest
    next => exact ih h

theorem length_measuredLines_le_indentation (g : Grammar) (s : Scanner) (raws : List (List Char)) :
    ((s.measuredLines g raws).length : Int) ≤ s.indentation g raws := by
  have hsum := List.card_nsmul_le_sum ((s.measuredLines g raws).map Line.indentMeasure) 1 fun n hn => by
    obtain ⟨l, hl, rfl⟩ := List.mem_map.1 hn
    exact one_le_of_mem_measuredLines hl
  rw [List.length_map, nsmul_one] at hsum
  rw [indentation_eq_sum]
  exact hsum

theorem length_measuredLines_le_count (g : Grammar) (s : Scanner) (raws : List (List Char)) :
    (s.measuredLines g raws).length ≤ (s.kinds g raws).count .code := by
  induction raws generalizing s with
  | nil => exact Nat.le_refl 0
  | cons raw raws ih =>
    have hrest := ih (s.feed g raw)
    rw [measuredLines, kinds]
    by_cases h : s.Measures g raw
    · rw [if_pos h, h.1, List.length_cons, List.count_cons_self]
      omega
    · rw [if_neg h]
      exact hrest.trans List.count_le_count_cons

/-! ## The sum and its quotient -/

/-- Lines that follow take nothing away. -/
theorem indent_le_append (g : Grammar) (raws more : List (List Char)) :
    (Scanner.feedAll g {} raws).tally.indent ≤ (Scanner.feedAll g {} (raws ++ more)).tally.indent := by
  have hmore := (Scanner.feedAll g {} raws).indentation_nonneg g more
  rw [indent_feedAll_start, indent_feedAll_start, indentation_append]
  omega

/-- The counter of code lines is 0 exactly when no line is code. -/
theorem code_eq_zero_iff (g : Grammar) (raws : List (List Char)) :
    (Scanner.feedAll g {} raws).tally.code.value = 0 ↔ .code ∉ Scanner.kinds g {} raws := by
  have hcount := count_feedAll_start g raws .code
  simp only [Tally.count, Count.limit, wordSize] at hcount
  rw [← List.count_eq_zero]
  omega

/-- Without code there is nothing to measure. -/
theorem indent_of_no_code (h : .code ∉ Scanner.kinds g {} raws) : (Scanner.feedAll g {} raws).tally.indent = 0 := by
  have hlines := length_measuredLines_le_count g {} raws
  rw [List.count_eq_zero.2 h, Nat.le_zero, List.length_eq_zero_iff] at hlines
  rw [indent_feedAll_start, indentation_eq_sum, hlines]
  exact Int.min_eq_left indentLimit_nonneg

theorem complexity_of_no_code (h : .code ∉ Scanner.kinds g {} raws) :
    (Scanner.feedAll g {} raws).tally.complexity = .nan := by
  rw [Tally.complexity, indent_of_no_code h, (code_eq_zero_iff g raws).2 h, Binary64.quotient_zero_zero]

theorem complexity_of_code (h : .code ∈ Scanner.kinds g {} raws) :
    ∃ m e, (Scanner.feedAll g {} raws).tally.complexity = .finite false m e ∧ Binary64.InRange m e := by
  obtain ⟨hnonneg, hlimit⟩ := measured_start.feedAll (g := g) raws
  have hcode : (Scanner.feedAll g {} raws).tally.code.value ≠ 0 := fun hzero => (code_eq_zero_iff g raws).1 hzero h
  refine Binary64.quotient_inRange hnonneg ?_ (Nat.pos_of_ne_zero hcode) (Count.value_lt _)
  simp only [indentLimit, halfWord] at hlimit
  simp only [wordSize]
  omega

end Scanner

namespace Analysis

/-- The texts of the lines that count in a stream: where it fails, those of its whole lines. -/
def texts (stream : Stream) : List (List Char) :=
  match stream.failure with
  | none => lineTexts stream.bytes
  | some _ => lineTexts (wholeLines stream.bytes)

/-- An analysis of any stream scans these texts. -/
theorem scanner_run_texts (name : String) (g : Grammar) (traced : Bool) (stream : Stream) (buffer : LineBuffer) :
    (run name g traced stream buffer).scanner = Scanner.feedAll g {} (texts stream) := by
  obtain ⟨bytes, failure⟩ := stream
  cases failure with
  | none => exact scanner_run name g traced bytes buffer
  | some error =>
    have hread : (run name g traced ⟨bytes, some error⟩ buffer).scanner =
        ((wholeLines bytes).foldl (Progress.push g traced) {}).scanner := by
      have hscan := congrArg Progress.scanner (foldl_push_eq_wholeLines g traced bytes)
      exact hscan
    rw [hread, ← close_foldl_wholeLines]
    exact scanner_run name g traced (wholeLines bytes) buffer

end Analysis

/-- **The indentation sum and the complexity.** For any lines, the sum is made of the lines
that are code in their own right: each adds the bytes of the line with tabs expanded less a
quarter of the bytes of its trimmed form, which is 1 or more, and the sum stops at its limit.
It never goes down, is not negative, is at least the number of these lines as far as sums go,
and is 0 as long as the counter of code lines is. The complexity of any stream, complete or
failing, is not a number exactly when none of its lines is code; otherwise it is a finite
number of 64 bits, and not below zero. -/
theorem indentation_account (g : Grammar) :
    (∀ raws more, let tally := (Scanner.feedAll g {} raws).tally
      let lines := Scanner.measuredLines g {} raws
      let measure := fun l : Line => (byteLength l.expanded : Int) - (byteLength l.trimmed / 4 : Nat)
      tally.indent = min (lines.map measure).sum indentLimit ∧ (∀ l ∈ lines, 1 ≤ measure l) ∧
        tally.indent ≤ (Scanner.feedAll g {} (raws ++ more)).tally.indent ∧ 0 ≤ tally.indent ∧
        min (lines.length : Int) indentLimit ≤ tally.indent ∧ (tally.code = 0 → tally.indent = 0)) ∧
    ∀ name language traced stream buffer,
      let summary := (Analysis.run name g traced stream buffer).summary name language
      ∃ q, summary.complexity = some q ∧ (q = .nan ↔ .code ∉ Scanner.kinds g {} (Analysis.texts stream)) ∧
        (q = .nan ↔ summary.code = 0) ∧
        (q ≠ .nan → ∃ m e, q = .finite false m e ∧ Binary64.InRange m e) := by
  refine ⟨fun raws more => ?_, fun name language traced stream buffer => ?_⟩
  · intro tally lines measure
    have hindent : tally.indent = min (Scanner.indentation g {} raws) indentLimit := Scanner.indent_feedAll_start g raws
    have hlines : (lines.length : Int) ≤ Scanner.indentation g {} raws :=
      Scanner.length_measuredLines_le_indentation g {} raws
    refine ⟨?_, fun l hl => Scanner.one_le_of_mem_measuredLines hl, Scanner.indent_le_append g raws more,
      (Scanner.measured_start.feedAll raws).1, by omega, fun hzero => ?_⟩
    · rw [hindent, Scanner.indentation_eq_sum]
      rfl
    · exact Scanner.indent_of_no_code ((Scanner.code_eq_zero_iff g raws).1 (congrArg Count.value hzero))
  · intro summary
    have hscan := Analysis.scanner_run_texts name g traced stream buffer
    have hcomplexity : summary.complexity = some (Scanner.feedAll g {} (Analysis.texts stream)).tally.complexity := by
      rw [← hscan]
      rfl
    have hcode : summary.code = 0 ↔ .code ∉ Scanner.kinds g {} (Analysis.texts stream) := by
      rw [← Scanner.code_eq_zero_iff, ← hscan]
      exact ⟨fun hzero => congrArg Count.value hzero, fun hzero => Count.eq_of_value_eq hzero⟩
    have hnan : (Scanner.feedAll g {} (Analysis.texts stream)).tally.complexity = .nan ↔
        .code ∉ Scanner.kinds g {} (Analysis.texts stream) := by
      refine ⟨fun hq hmem => ?_, Scanner.complexity_of_no_code⟩
      obtain ⟨m, e, hfinite, -⟩ := Scanner.complexity_of_code hmem
      rw [hq] at hfinite
      cases hfinite
    exact ⟨_, hcomplexity, hnan, hnan.trans hcode.symm, fun hq =>
      Scanner.complexity_of_code (not_not.1 (mt hnan.2 hq))⟩

theorem indentation_account_c :
    let g : Grammar := { lineComments := ["//"], blockComments := [⟨"/*", "*/"⟩] }
    let raws := ["#!/bin/c".toList, "\tf();".toList, "/* a".toList, "*/ g(); /*".toList, "*/".toList, " \u03B1".toList]
    let tally := (Scanner.feedAll g {} raws).tally
    -- Three lines are read before the failure, and all of them are comments.
    let failing : Stream := { bytes := encode "/*\na\n*/\nx".toList, failure := some "gone" }
    let summary := (Analysis.run "input" g false failing {}).summary "input" "C"
    (Scanner.measuredLines g {} raws).map Line.expanded = ["    f();".toList, " \u03B1".toList] ∧
      tally.code.value = 4 ∧ tally.indent = 7 + 3 ∧ summary.complexity = some .nan ∧ summary.code = 0 := by
  intro g raws tally failing summary
  obtain ⟨hlines, hstreams⟩ := indentation_account g
  obtain ⟨hsum, -⟩ := hlines raws []
  obtain ⟨q, hcomplexity, hnan, hcode, -⟩ := hstreams "input" "C" false failing {}
  have hq : q = .nan := hnan.2 (by decide +kernel)
  exact ⟨by decide +kernel, by decide +kernel, hsum.trans (by decide +kernel), by rw [← hq]; exact hcomplexity,
    hcode.1 hq⟩

end LineCensus
