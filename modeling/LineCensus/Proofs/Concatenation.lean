/-
Counts of a text that is put together of two. Where the first part ends with a line and
outside every block, a scan takes two things over the seam: that a line has been read,
so that no byte order mark goes off, and whether a line with text has been read, so that
no interpreter line comes. If the second part begins with no mark, and its first line
with text is no interpreter line where that matters, neither makes a difference.

Then the scan of the whole and that of the second part alone decide every line alike
(`ReadAlike`). They agree in kinds, indentation and state; and the counters and the
indentation sum of the whole are those of the parts added up (`run_append`).
-/
import LineCensus.Proofs.LineText
import LineCensus.Proofs.ReadAlike

namespace LineCensus

namespace Scanner

variable {g : Grammar} {s : Scanner} {raws : List (List Char)}

/-- What a scan adds up over lines that it reads as a new scan does. -/
theorem feedAll_of_readAlike (h : ReadAlike s {} raws) (hs : s.Measured) :
    (∀ k, (s.feedAll g raws).tally.count k = s.tally.count k + (Scanner.feedAll g {} raws).tally.count k) ∧
      (s.feedAll g raws).tally.indent = clampIndent (s.tally.indent + (Scanner.feedAll g {} raws).tally.indent) ∧
      (s.feedAll g raws).state = (Scanner.feedAll g {} raws).state := by
  obtain ⟨hstate, hkinds, hindent⟩ := h.run_eq (g := g)
  refine ⟨fun k => Count.eq_of_value_eq ?_, ?_, hstate⟩
  · rw [count_feedAll, Count.value_add, count_feedAll_start, hkinds]
    omega
  · have hzero : ({} : Scanner).tally.indent = 0 := rfl
    have hnonneg := ({} : Scanner).indentation_nonneg g raws
    have hlimit := indentLimit_nonneg
    obtain ⟨hs₀, hs₁⟩ := id hs
    rw [indent_feedAll hs, indent_feedAll measured_start, hindent, hzero, clampIndent_of_nonneg (by omega)]
    omega

end Scanner

namespace Analysis

open Scanner

variable {a b line : List UInt8}

/-! ## The seam -/

/-- From bytes that begin with no mark, none goes off the first line. -/
theorem ofRaw_of_mem_head? (hmark : ¬ [0xEF, 0xBB, 0xBF] <+: b) {raw : List Char}
    (hraw : raw ∈ (lineTexts b).head?) (first : Bool) : Line.ofRaw first raw = Line.ofRaw false raw := by
  rw [lineTexts, List.head?_map] at hraw
  obtain ⟨line, hline, rfl⟩ := Option.map_eq_some_iff.1 hraw
  have hdrop := dropMark_lineText fun h => hmark (h.trans (prefix_of_mem_head? hline))
  cases first with
  | false => rfl
  | true => simp only [Line.ofRaw, if_true, hdrop, Bool.false_eq_true, if_false]

/-- After the first part, the lines of the second are read as a new scan reads them. -/
theorem readAlike_seam (g : Grammar) (houtside : (Scanner.feedAll g {} (lineTexts a)).state = .outside)
    (hmark : a = [] ∨ ¬ [0xEF, 0xBB, 0xBF] <+: b)
    (hinterpreter : (∃ k ∈ Scanner.kinds g {} (lineTexts a), k ≠ .blank) →
      ∀ form ∈ firstText (Scanner.forms {} (lineTexts b)), ¬ interpreterMark <+: form) :
    ReadAlike (Scanner.feedAll g {} (lineTexts a)) {} (lineTexts b) := by
  refine ⟨houtside, fun raw hraw => ?_, ?_⟩
  · rcases hmark with rfl | hmark
    · rfl
    · exact (ofRaw_of_mem_head? hmark hraw _).trans (ofRaw_of_mem_head? hmark hraw _).symm
  · by_cases hblank : ∀ k ∈ Scanner.kinds g {} (lineTexts a), k = .blank
    · exact .inl ((interpreterPending_feedAll_iff g {} _).2 ⟨rfl, hblank⟩)
    · refine .inr (hinterpreter ?_)
      simpa using hblank

/-- **Counts add up.** The first part is empty or ends with a line end and outside every
block; the second begins with no byte order mark, unless the first is empty, and its
first line with text is no interpreter line, if the first has a line with text. Then the
counters of the whole are those of the parts added up, without a limit where the whole
has fewer lines than counters have values; so is the indentation sum, and the scan ends
as that of the second part does. -/
theorem run_append (name language : String) (g : Grammar) (traced : Bool) (buffer : LineBuffer)
    (hline : a = [] ∨ a.getLast? = some 10)
    (houtside : (run name g traced { bytes := a } buffer).scanner.state = .outside)
    (hmark : a = [] ∨ ¬ [0xEF, 0xBB, 0xBF] <+: b)
    (hinterpreter : (∃ k ∈ Scanner.kinds g {} (lineTexts a), k ≠ .blank) →
      ∀ form ∈ firstText (Scanner.forms {} (lineTexts b)), ¬ interpreterMark <+: form) :
    let whole := run name g traced { bytes := a ++ b } buffer
    let first := run name g traced { bytes := a } buffer
    let second := run name g traced { bytes := b } buffer
    ((whole.summary name language).code = (first.summary name language).code + (second.summary name language).code ∧
      (whole.summary name language).comments =
        (first.summary name language).comments + (second.summary name language).comments ∧
      (whole.summary name language).blanks =
        (first.summary name language).blanks + (second.summary name language).blanks) ∧
    (lineCount (a ++ b) < wordSize → ∀ k, (whole.scanner.tally.count k).value =
      (first.scanner.tally.count k).value + (second.scanner.tally.count k).value) ∧
    whole.scanner.tally.indent = clampIndent (first.scanner.tally.indent + second.scanner.tally.indent) ∧
    whole.scanner.state = second.scanner.state := by
  intro whole first second
  have hfirst : first.scanner = Scanner.feedAll g {} (lineTexts a) := scanner_run name g traced a buffer
  have hsecond : second.scanner = Scanner.feedAll g {} (lineTexts b) := scanner_run name g traced b buffer
  have hwhole : whole.scanner = first.scanner.feedAll g (lineTexts b) := by
    rw [hfirst, ← feedAll_append, ← lineTexts_append hline]
    exact scanner_run name g traced (a ++ b) buffer
  have halike : ReadAlike first.scanner {} (lineTexts b) := by
    rw [hfirst]
    exact readAlike_seam g (hfirst ▸ houtside) hmark hinterpreter
  have hmeasured : first.scanner.Measured := by
    rw [hfirst]
    exact measured_start.feedAll _
  obtain ⟨hcount, hindent, hstate⟩ := feedAll_of_readAlike halike hmeasured
  rw [← hwhole, ← hsecond] at hcount hindent hstate
  refine ⟨⟨hcount .code, hcount .comment, hcount .blank⟩, fun hsize k => ?_, hindent, hstate⟩
  have ha : (first.scanner.tally.count k).value ≤ lineCount a := count_run_le name g traced a buffer k
  have hb : (second.scanner.tally.count k).value ≤ lineCount b := count_run_le name g traced b buffer k
  rw [lineCount_append hline] at hsize
  rw [hcount, Count.value_add, Count.limit]
  omega

theorem run_append_c :
    let c : Grammar := { lineComments := ["//"], blockComments := [⟨"/*", "*/"⟩] }
    -- A blank line, `#!`, `/*c*/`; then a line of two spaces, ` #y` and `/*` without a line end.
    let a : List UInt8 := [10, 35, 33, 10, 47, 42, 99, 42, 47, 10]
    let b : List UInt8 := [32, 32, 10, 32, 35, 121, 10, 47, 42]
    ((run "input" c false { bytes := a ++ b } {}).scanner.tally.count .comment).value =
        ((run "input" c false { bytes := a } {}).scanner.tally.count .comment).value +
          ((run "input" c false { bytes := b } {}).scanner.tally.count .comment).value ∧
      ((run "input" c false { bytes := a } {}).scanner.tally.count .comment).value = 1 ∧
      ((run "input" c false { bytes := b } {}).scanner.tally.count .comment).value = 1 ∧
      (run "input" c false { bytes := a ++ b } {}).scanner.tally.indent =
        clampIndent ((run "input" c false { bytes := a } {}).scanner.tally.indent +
          (run "input" c false { bytes := b } {}).scanner.tally.indent) ∧
      (run "input" c false { bytes := b } {}).scanner.tally.indent = 3 ∧
      (run "input" c false { bytes := a ++ b } {}).scanner.state =
        (run "input" c false { bytes := b } {}).scanner.state ∧
      (run "input" c false { bytes := b } {}).scanner.state = .inBlock 0 false := by
  intro c a b
  have hline : a = [] ∨ a.getLast? = some 10 := .inr rfl
  have houtside : (run "input" c false { bytes := a } {}).scanner.state = .outside := by decide +kernel
  have hmark : a = [] ∨ ¬ [0xEF, 0xBB, 0xBF] <+: b := .inr (by decide)
  have hinterpreter : (∃ k ∈ Scanner.kinds c {} (lineTexts a), k ≠ .blank) →
      ∀ form ∈ firstText (Scanner.forms {} (lineTexts b)), ¬ interpreterMark <+: form := by decide +kernel
  obtain ⟨-, hcount, hindent, hstate⟩ := run_append "input" "C" c false {} hline houtside hmark hinterpreter
  exact ⟨hcount (by decide) .comment, by decide +kernel, by decide +kernel, hindent, by decide +kernel, hstate,
    by decide +kernel⟩

end Analysis

end LineCensus
