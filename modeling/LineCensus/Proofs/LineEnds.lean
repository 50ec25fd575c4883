/-
How lines are ended, and whether a text begins with a byte order mark. A line feed after
the last line makes no further line (`lineTexts_concat_feed`). Without the carriage returns
in front of line feeds (`bareFeeds`), the lines are the same but for one carriage return at
the end of those that had two or more (`lineTexts_bareFeeds`); that is white space, so no
line changes its form. A mark in front goes off again before the first line is looked at
(`texts_mark`).
-/
import LineCensus.Proofs.LineText
import LineCensus.Proofs.Spacing

namespace LineCensus.Analysis

open Scanner

variable {bytes line rest : List UInt8}

/-! ## The last line -/

theorem lineTexts_concat_feed (hne : bytes ≠ []) (hlast : bytes.getLast? ≠ some 10) :
    lineTexts (bytes ++ [10]) = lineTexts bytes := by
  rw [lineTexts, physicalLines_concat_feed hne hlast, lineTexts]

/-! ## Carriage returns -/

/-- The bytes without the carriage returns that stand in front of line feeds, one each. -/
def bareFeeds : List UInt8 → List UInt8
  | 13 :: 10 :: bytes => 10 :: bareFeeds bytes
  | b :: bytes => b :: bareFeeds bytes
  | [] => []

theorem bareFeeds_cons {b : UInt8} (h : b ≠ 13 ∨ bytes.head? ≠ some 10) :
    bareFeeds (b :: bytes) = b :: bareFeeds bytes := by
  rw [bareFeeds]
  rintro bs rfl rfl
  simp at h

theorem bareFeeds_of_not_mem (h : 10 ∉ line) : bareFeeds line = line := by
  induction line with
  | nil => rfl
  | cons b bs ih =>
    simp only [List.mem_cons, not_or] at h
    have hnext : bs.head? ≠ some 10 := fun hhead => h.2 (List.mem_of_head? hhead)
    rw [bareFeeds_cons (.inr hnext), ih h.2]

/-- A line in front of a line feed loses the carriage return at its end. -/
theorem bareFeeds_append_feed (h : 10 ∉ line) (bytes : List UInt8) :
    bareFeeds (line ++ 10 :: bytes) = withoutReturn line ++ 10 :: bareFeeds bytes := by
  have hfeed : bareFeeds (10 :: bytes) = 10 :: bareFeeds bytes := bareFeeds_cons (.inl (by decide))
  induction line with
  | nil => exact hfeed
  | cons b bs ih =>
    simp only [List.mem_cons, not_or] at h
    cases bs with
    | nil =>
      by_cases hb : b = 13
      · rw [hb]
        rfl
      · have hlast : [b].getLast? ≠ some 13 := by simpa using hb
        rw [List.singleton_append, bareFeeds_cons (.inl hb), hfeed, withoutReturn_of_ne hlast, List.singleton_append]
    | cons c cs =>
      have hnext : ((c :: cs) ++ 10 :: bytes).head? ≠ some 10 := by
        simpa using fun hc : c = 10 => h.2 (by simp [hc])
      rw [List.cons_append, bareFeeds_cons (.inr hnext), ih h.2, withoutReturn_cons (List.cons_ne_nil c cs),
        List.cons_append]

/-- Two texts that are the same, or the first has a carriage return at its end besides. -/
def Returned (text text' : List Char) : Prop := text = text' ∨ text = text' ++ ['\r']

theorem lineTexts_append_feed (h : 10 ∉ line) (bytes : List UInt8) :
    lineTexts (line ++ 10 :: bytes) = lineText line :: lineTexts bytes := by
  rw [lineTexts, physicalLines_append_feed h, List.map_cons, lineTexts]

theorem not_mem_withoutReturn (h : 10 ∉ line) : 10 ∉ withoutReturn line :=
  fun hmem => h ((withoutReturn_isPrefix line).subset hmem)

theorem lineTexts_bareFeeds (bytes : List UInt8) :
    List.Forall₂ Returned (lineTexts bytes) (lineTexts (bareFeeds bytes)) := by
  induction bytes using line_induction with
  | last line hline =>
    rw [bareFeeds_of_not_mem hline]
    exact List.forall₂_same.2 fun text _ => .inl rfl
  | next line rest hline ih =>
    rw [bareFeeds_append_feed hline, lineTexts_append_feed hline, lineTexts_append_feed (not_mem_withoutReturn hline)]
    exact .cons ((lineText_cases line).imp_right And.right) ih

/-- Without two carriage returns in front of a line feed, no line's text changes. -/
theorem lineTexts_bareFeeds_eq (h : ¬ [13, 13, 10] <:+: bytes) : lineTexts (bareFeeds bytes) = lineTexts bytes := by
  induction bytes using line_induction with
  | last line hline => rw [bareFeeds_of_not_mem hline]
  | next line rest hline ih =>
    have hrest : ¬ [13, 13, 10] <:+: rest := fun hin => h (hin.trans ⟨line ++ [10], [], by simp⟩)
    have htext : lineText line = lineText (withoutReturn line) := by
      rcases lineText_cases line with htext | ⟨⟨bs, rfl⟩, -⟩
      · exact htext
      · exact absurd ⟨bs, rest, by simp⟩ h
    rw [bareFeeds_append_feed hline, lineTexts_append_feed hline, lineTexts_append_feed (not_mem_withoutReturn hline),
      htext, ih hrest]

theorem body_concat_return (first : Bool) (text : List Char) :
    Line.body first (text ++ ['\r']) = Line.body first text ++ ['\r'] := by
  cases first with
  | false => rfl
  | true =>
    cases text with
    | nil => rfl
    | cons c cs =>
      simp only [Line.body, if_true, Line.dropMark, List.cons_append]
      split <;> rfl

theorem Returned.respaced {text text' : List Char} (h : Returned text text') (first : Bool) :
    Text.Respaced (Line.body first text) (Line.body first text') := by
  rcases h with rfl | rfl
  · exact .refl _
  · rw [body_concat_return]
    exact .symm (.surround (a := []) Text.blank_nil (by decide) _)

theorem forms_of_returned {s : Scanner} {raws raws' : List (List Char)} (h : List.Forall₂ Returned raws raws') :
    s.forms raws = s.forms raws' := by
  refine forms_eq_of_respaced ?_
  cases h with
  | nil => exact .nil
  | cons hfirst hrest => exact .cons (hfirst.respaced _) (hrest.imp fun _ _ hline => hline.respaced false)

/-! ## The byte order mark -/

theorem texts_mark (hne : bytes ≠ []) (hmark : ¬ [0xEF, 0xBB, 0xBF] <+: bytes) :
    Scanner.texts {} (lineTexts ([0xEF, 0xBB, 0xBF] ++ bytes)) = Scanner.texts {} (lineTexts bytes) := by
  obtain ⟨line, rest, hlines⟩ := List.exists_cons_of_ne_nil (physicalLines_ne_nil hne)
  have hmarked : physicalLines ([0xEF, 0xBB, 0xBF] ++ bytes) = ([0xEF, 0xBB, 0xBF] ++ line) :: rest := by
    simp only [List.cons_append, List.nil_append]
    rw [physicalLines_cons (by decide), physicalLines_cons (by decide), physicalLines_cons (by decide), hlines]
    rfl
  have hline : ¬ [0xEF, 0xBB, 0xBF] <+: line := by
    intro hstarts
    exact hmark (hstarts.trans (prefix_of_mem_head? (by rw [hlines]; rfl)))
  have hbody : Line.dropMark (Text.byteOrderMark :: lineText line) = Line.dropMark (lineText line) := by
    rw [dropMark_lineText hline]
    rfl
  rw [lineTexts, lineTexts, hmarked, hlines, List.map_cons, List.map_cons, lineText_mark]
  exact congrArg (· :: rest.map lineText) hbody

/-! ## Summaries -/

/-- **Line ends and a byte order mark make no difference.** A line feed can be put after
the last line, if there is one. Carriage returns in front of line feeds can be left out:
the counters stay, and unless two stand together there, the whole summary does. And a byte
order mark can be put in front of bytes, if they have none and are not empty. -/
theorem summary_run_line_ends (name language : String) (g : Grammar) (traced : Bool) (bytes : List UInt8)
    (buffer : LineBuffer) :
    let summary (bytes : List UInt8) := (run name g traced { bytes } buffer).summary name language
    (bytes ≠ [] → bytes.getLast? ≠ some 10 → summary (bytes ++ [10]) = summary bytes) ∧
    ((summary (bareFeeds bytes)).code = (summary bytes).code ∧
      (summary (bareFeeds bytes)).comments = (summary bytes).comments ∧
      (summary (bareFeeds bytes)).blanks = (summary bytes).blanks) ∧
    (¬ [13, 13, 10] <:+: bytes → summary (bareFeeds bytes) = summary bytes) ∧
    (bytes ≠ [] → ¬ [0xEF, 0xBB, 0xBF] <+: bytes → summary ([0xEF, 0xBB, 0xBF] ++ bytes) = summary bytes) := by
  intro summary
  have hsummary : ∀ bytes, summary bytes = .ofTally name language (Scanner.feedAll g {} (lineTexts bytes)).tally := by
    intro bytes
    show Outcome.summary _ name language = _
    rw [Outcome.summary, scanner_run]
  have hforms : Scanner.forms {} (lineTexts bytes) = Scanner.forms {} (lineTexts (bareFeeds bytes)) :=
    forms_of_returned (lineTexts_bareFeeds bytes)
  obtain ⟨hkinds, -⟩ := run_eq_of_forms (g := g) (s := {}) (t := {}) rfl rfl hforms
  have hcount : ∀ k, (Scanner.feedAll g {} (lineTexts (bareFeeds bytes))).tally.count k =
      (Scanner.feedAll g {} (lineTexts bytes)).tally.count k := count_feedAll_congr hkinds.symm
  refine ⟨fun hne hlast => ?_, ?_, fun hreturns => ?_, fun hne hmark => ?_⟩
  · rw [hsummary, hsummary, lineTexts_concat_feed hne hlast]
  · rw [hsummary, hsummary]
    exact ⟨hcount .code, hcount .comment, hcount .blank⟩
  · rw [hsummary, hsummary, lineTexts_bareFeeds_eq hreturns]
  · rw [hsummary, hsummary, feedAll_eq_of_texts (texts_mark hne hmark)]

theorem summary_run_line_ends_c :
    let c : Grammar := { lineComments := ["//"], blockComments := [⟨"/*", "*/"⟩] }
    -- `//`, `x` and `y` with two carriage returns, a byte that is no text, and `/*` without a line end.
    let bytes : List UInt8 := [47, 47, 13, 10, 9, 120, 13, 10, 121, 13, 13, 10, 255, 13, 10, 47, 42]
    let summary (bytes : List UInt8) := (run "input" c false { bytes } {}).summary "input" "C"
    summary (bytes ++ [10]) = summary bytes ∧ (summary (bareFeeds bytes)).code.value = 3 ∧
      summary (bytes.take 8) = summary [47, 47, 10, 9, 120, 10] ∧
      summary ([0xEF, 0xBB, 0xBF] ++ bytes) = summary bytes := by
  intro c bytes summary
  have hends : ∀ bytes, _ := fun bytes => summary_run_line_ends "input" "C" c false bytes {}
  obtain ⟨hfeed, ⟨hcode, -⟩, -, hmark⟩ := hends bytes
  obtain ⟨-, -, hreturns, -⟩ := hends (bytes.take 8)
  exact ⟨hfeed (by decide) (by decide), (congrArg Count.value hcode).trans (by decide +kernel),
    (hreturns (by decide)).symm, hmark (by decide) (by decide)⟩

end LineCensus.Analysis
