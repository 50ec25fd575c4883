/-
The indentation sum of a scan. No measure is negative, since a line is at least as long
as its trimmed form; so the sum only grows, and where it stays within its range, a run
adds the measures of those of its lines whose indentation counts (`indent_feedAll`).
-/
import LineCensus.Proofs.Trimming

namespace LineCensus

namespace Text

theorem foldl_utf8Size (n : Nat) (cs : List Char) :
    cs.foldl (fun n c => n + c.utf8Size) n = n + byteLength cs := by
  induction cs generalizing n with
  | nil => rfl
  | cons c cs ih =>
    rw [byteLength, List.foldl_cons, List.foldl_cons, ih, ih (0 + c.utf8Size)]
    omega

@[simp] theorem byteLength_append (cs ds : List Char) : byteLength (cs ++ ds) = byteLength cs + byteLength ds := by
  rw [byteLength, List.foldl_append, foldl_utf8Size]
  rfl

theorem byteLength_le_of_infix {cs ds : List Char} (h : cs <:+: ds) : byteLength cs ≤ byteLength ds := by
  obtain ⟨s, t, rfl⟩ := h
  simp only [byteLength_append]
  omega

end Text

theorem Line.indentMeasure_nonneg (l : Line) : 0 ≤ l.indentMeasure := by
  have hle : Text.byteLength l.trimmed ≤ Text.byteLength l.expanded :=
    Text.byteLength_le_of_infix (Text.trim_isInfix l.expanded)
  rw [indentMeasure]
  omega

theorem indentLimit_nonneg : 0 ≤ indentLimit := by decide

/-- A sum that is not negative is only kept from growing too great. -/
theorem clampIndent_of_nonneg {n : Int} (h : 0 ≤ n) : clampIndent n = min n indentLimit := by
  have := indentLimit_nonneg
  rw [clampIndent]
  omega

namespace Scanner

variable {g : Grammar} {s : Scanner}

/-- What a line adds to the indentation sum. -/
def measure (g : Grammar) (s : Scanner) (raw : List Char) : Int :=
  if (s.verdict g raw).indented then (Line.ofRaw s.atStart raw).indentMeasure else 0

/-- What the lines of a run add to it, were it not limited. -/
def indentation (g : Grammar) : Scanner → List (List Char) → Int
  | _, [] => 0
  | s, raw :: raws => s.measure g raw + indentation g (s.feed g raw) raws

theorem measure_nonneg (g : Grammar) (s : Scanner) (raw : List Char) : 0 ≤ s.measure g raw := by
  rw [measure]
  split
  · exact Line.indentMeasure_nonneg _
  · exact Int.le_refl 0

theorem indentation_nonneg (g : Grammar) (s : Scanner) (raws : List (List Char)) : 0 ≤ s.indentation g raws := by
  induction raws generalizing s with
  | nil => exact Int.le_refl 0
  | cons raw raws ih =>
    have := s.measure_nonneg g raw
    have := ih (s.feed g raw)
    rw [indentation]
    omega

theorem indentation_append (g : Grammar) (s : Scanner) (raws raws' : List (List Char)) :
    s.indentation g (raws ++ raws') = s.indentation g raws + (s.feedAll g raws).indentation g raws' := by
  induction raws generalizing s with
  | nil => simp [indentation]
  | cons raw raws ih => rw [List.cons_append, indentation, indentation, ih, feedAll_cons]; omega

/-- The range in which an indentation sum lies from the start. -/
def Measured (s : Scanner) : Prop := 0 ≤ s.tally.indent ∧ s.tally.indent ≤ indentLimit

theorem indent_feed (h : s.Measured) (raw : List Char) :
    (s.feed g raw).tally.indent = min (s.tally.indent + s.measure g raw) indentLimit := by
  have hrecord : ∀ k, (s.tally.record k).indent = s.tally.indent := by
    intro k
    cases k <;> rfl
  obtain ⟨hnonneg, hle⟩ := h
  have hmeasure := (Line.ofRaw s.atStart raw).indentMeasure_nonneg
  have htally : (s.feed g raw).tally = if (s.verdict g raw).indented then
      (s.tally.record (s.classify g raw)).addIndent (Line.ofRaw s.atStart raw).indentMeasure
      else s.tally.record (s.classify g raw) := rfl
  rw [htally, measure]
  split
  · rw [Tally.addIndent, hrecord, clampIndent_of_nonneg (by omega)]
  · rw [hrecord]
    omega

theorem Measured.feed (h : s.Measured) (raw : List Char) : (s.feed g raw).Measured := by
  have := s.measure_nonneg g raw
  have := indentLimit_nonneg
  obtain ⟨hnonneg, -⟩ := id h
  rw [Measured, indent_feed h]
  omega

theorem measured_start : ({} : Scanner).Measured := ⟨Int.le_refl 0, indentLimit_nonneg⟩

theorem Measured.feedAll (h : s.Measured) (raws : List (List Char)) : (s.feedAll g raws).Measured := by
  induction raws generalizing s with
  | nil => exact h
  | cons raw raws ih => exact ih (h.feed raw)

/-- **The indentation sum of a run** is that of its lines, added to what it was before,
as far as sums go. -/
theorem indent_feedAll (h : s.Measured) (raws : List (List Char)) :
    (s.feedAll g raws).tally.indent = min (s.tally.indent + s.indentation g raws) indentLimit := by
  induction raws generalizing s with
  | nil =>
    obtain ⟨-, hle⟩ := h
    simp only [feedAll_nil, indentation]
    omega
  | cons raw raws ih =>
    have := (s.feed g raw).indentation_nonneg g raws
    rw [feedAll_cons, ih (h.feed raw), indent_feed h, indentation]
    omega

theorem indent_feedAll_start (g : Grammar) (raws : List (List Char)) :
    (Scanner.feedAll g {} raws).tally.indent = min (Scanner.indentation g {} raws) indentLimit := by
  have hzero : ({} : Scanner).tally.indent = 0 := rfl
  rw [indent_feedAll measured_start, hzero, Int.zero_add]

end Scanner

end LineCensus
